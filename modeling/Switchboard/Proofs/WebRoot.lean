import Switchboard.Http.StaticFile
import Switchboard.Proofs.Pieces

/-!
# Files stay under the web root

What a path means is settled by its components, which come from cutting it at slashes, and it is
refused for steps upwards that come from cutting it at slashes of both kinds. A step upwards among
the components is also one of the others, since there is no slash of either kind in it
(`Text.mem_splitOnP_of_mem_splitOn`). So a path that is not refused has names for components, and a
dot in front at most, and what it means is the root with these names behind it, one by one
(`resolve?_eq_some_iff`). By the rules for paths this is a path below the root: the components of
the root come first, and the names follow (`components_push`).
-/

namespace Switchboard.Http.StaticFile

variable {c : Component} {cs : List Component} {root path decoded file segment : List Char}

/-! ## Components -/

/-- The name that a component is, if it is one. -/
def Component.name? : Component → Option (List Char)
  | .name segment => some segment
  | _ => none

/-- A segment that is a name by the rules for paths. -/
structure IsName (segment : List Char) : Prop where
  ne_nil : segment ≠ []
  ne_here : segment ≠ ['.']
  ne_up : segment ≠ ['.', '.']
  slash_not_mem : '/' ∉ segment

/-- The names that a path consists of, if it has no step upwards. -/
def names (path : List Char) : List (List Char) :=
  (path.splitOn '/').filter fun s => s ≠ [] ∧ s ≠ ['.']

theorem component?_ne_top (segment : List Char) : component? segment ≠ some .top := by
  unfold component?
  split
  · nofun
  · split <;> nofun

theorem component?_eq_up_iff : component? segment = some .up ↔ segment = ['.', '.'] := by
  unfold component?
  constructor
  · intro h
    split at h
    · cases h
    · split at h
      · assumption
      · cases h
  · rintro rfl
    rfl

theorem top_mem_components : .top ∈ components path ↔ path.head? = some '/' := by
  have hnames : .top ∉ (Text.pieces '/' path).filterMap component? := by
    intro h
    obtain ⟨segment, -, hsegment⟩ := List.mem_filterMap.1 h
    exact component?_ne_top segment hsegment
  unfold components front
  rw [List.mem_append, or_iff_left hnames]
  split
  · rename_i h
    simp [h]
  · rename_i h
    split <;> simp [h]

theorem up_mem_components : .up ∈ components path ↔ ['.', '.'] ∈ path.splitOn '/' := by
  have hfront : .up ∉ front path := by
    unfold front
    split
    · simp
    · split <;> simp
  unfold components
  rw [List.mem_append, or_iff_right hfront, List.mem_filterMap, Text.pieces_eq_splitOn]
  constructor
  · rintro ⟨segment, hmem, hup⟩
    exact component?_eq_up_iff.1 hup ▸ hmem
  · intro hmem
    exact ⟨_, hmem, rfl⟩

theorem component?_of_name (hne : segment ≠ []) (hdot : segment ≠ ['.'])
    (hup : segment ≠ ['.', '.']) : component? segment = some (.name segment) := by
  unfold component?
  rw [if_neg (not_or.2 ⟨hne, hdot⟩), if_neg hup]

theorem filterMap_name?_cons (segment : List Char) (cs : List Component) :
    (.name segment :: cs).filterMap Component.name? = segment :: cs.filterMap Component.name? := rfl

/-- The names among the components of a path without a step upwards are all segments but the empty
ones and the dots. -/
theorem filterMap_name?_components (h : ['.', '.'] ∉ path.splitOn '/') :
    (components path).filterMap Component.name? = names path := by
  have hfront : (front path).filterMap Component.name? = [] := by
    unfold front
    split
    · rfl
    · split <;> rfl
  have hkeep : ∀ segments : List (List Char), ['.', '.'] ∉ segments →
      (segments.filterMap component?).filterMap Component.name? =
        segments.filter fun s => s ≠ [] ∧ s ≠ ['.'] := by
    intro segments
    induction segments with
    | nil => exact fun _ => rfl
    | cons s segments ih =>
      intro h
      obtain ⟨hs, hrest⟩ := not_or.1 (mt List.mem_cons.2 h)
      by_cases hdrop : s = [] ∨ s = ['.']
      · have hnone : component? s = none := if_pos hdrop
        rw [List.filterMap_cons_none hnone, List.filter_cons_of_neg, ih hrest]
        rw [decide_eq_true_eq, ← not_or]
        exact not_not_intro hdrop
      · obtain ⟨hne, hdot⟩ := not_or.1 hdrop
        have hname := component?_of_name hne hdot (Ne.symm hs)
        have hkept : decide (s ≠ [] ∧ s ≠ ['.']) = true := decide_eq_true ⟨hne, hdot⟩
        rw [List.filterMap_cons_some hname, filterMap_name?_cons, ih hrest, List.filter_cons,
          if_pos hkept]
  unfold components
  rw [List.filterMap_append, hfront, List.nil_append, Text.pieces_eq_splitOn, hkeep _ h]
  rfl

theorem mem_names_iff : segment ∈ names path ↔
    segment ∈ path.splitOn '/' ∧ segment ≠ [] ∧ segment ≠ ['.'] := by
  unfold names
  rw [List.mem_filter, decide_eq_true_eq]

/-! ## Names behind a path -/

theorem head?_pieces_append (path : List Char) (segments : List (List Char)) :
    (Text.pieces '/' path ++ segments).head? = (Text.pieces '/' path).head? := by
  obtain ⟨p, ps, hpieces⟩ := List.exists_cons_of_ne_nil (Text.pieces_ne_nil '/' path)
  rw [hpieces]
  rfl

/-- What is behind a slash makes no difference to the front of a path. -/
theorem front_append_cons (path rest : List Char) :
    front (path ++ '/' :: rest) = front (path ++ ['/']) := by
  have hhead : (path ++ '/' :: rest).head? = (path ++ ['/']).head? := by
    cases path <;> rfl
  unfold front
  rw [hhead, Text.pieces_append_cons, Text.pieces_append_cons, head?_pieces_append,
    head?_pieces_append]

theorem front_append_slash (h : path ≠ []) : front (path ++ ['/']) = front path := by
  have hhead : (path ++ ['/']).head? = path.head? := by
    obtain ⟨c, cs, rfl⟩ := List.exists_cons_of_ne_nil h
    rfl
  unfold front
  rw [hhead, Text.pieces_append_cons, head?_pieces_append]

theorem components_append_cons (path rest : List Char) : components (path ++ '/' :: rest) =
    front (path ++ ['/']) ++ (Text.pieces '/' path).filterMap component? ++
      (Text.pieces '/' rest).filterMap component? := by
  unfold components
  rw [front_append_cons, Text.pieces_append_cons, List.filterMap_append, List.append_assoc]

/-- By the rules for paths, a name that is put behind a path is one component more. -/
theorem components_push {name : List Char} (h : IsName name) :
    components (push root name) = components root ++ [.name name] := by
  have hname : (Text.pieces '/' name).filterMap component? = [.name name] := by
    rw [Text.pieces_of_not_mem h.slash_not_mem,
      List.filterMap_cons_some (component?_of_name h.ne_nil h.ne_here h.ne_up)]
    rfl
  unfold push
  by_cases hroot : root = []
  · have hhead : name.head? ≠ some '/' := fun hhead => h.slash_not_mem (List.mem_of_head? hhead)
    have hfirst : (Text.pieces '/' name).head? ≠ some ['.'] := by
      rw [Text.pieces_of_not_mem h.slash_not_mem]
      exact fun hfirst => h.ne_here (Option.some.inj hfirst)
    rw [if_pos (.inl hroot), hroot, List.nil_append, components, hname, front, if_neg hhead,
      if_neg hfirst]
    rfl
  · by_cases hlast : root.getLast? = some '/'
    · -- the slash at the end has nothing behind it before, and the name after
      obtain ⟨dir, rfl⟩ := List.getLast?_eq_some_iff.1 hlast
      have hnothing : (Text.pieces '/' []).filterMap component? = [] := rfl
      rw [if_pos (.inr hlast), List.append_assoc, List.singleton_append, components_append_cons,
        components_append_cons, hname, hnothing, List.append_nil]
    · rw [if_neg (not_or.2 ⟨hroot, hlast⟩), components_append_cons, hname,
        front_append_slash hroot]
      rfl

/-- Names that are put behind a path one by one are components behind those of the path. -/
theorem components_foldl_push {names : List (List Char)} (h : ∀ s ∈ names, IsName s)
    (root : List Char) :
    components (names.foldl push root) = components root ++ names.map .name := by
  induction names generalizing root with
  | nil => exact (List.append_nil _).symm
  | cons name names ih =>
    obtain ⟨hname, hnames⟩ := List.forall_mem_cons.1 h
    rw [List.foldl_cons, ih hnames, components_push hname, List.append_assoc]
    rfl

/-! ## Resolving -/

theorem climbs_iff : climbs path = true ↔ ['.', '.'] ∈ path.splitOnP isSlash := by
  unfold climbs
  exact List.contains_iff_mem

/-- A path is followed to its end if it neither begins at the top nor goes upwards. -/
theorem foldlM_advance (h : ∀ c ∈ cs, c ≠ .top ∧ c ≠ .up) (named : Bool) :
    cs.foldlM advance (root, named) =
      some ((cs.filterMap Component.name?).foldl push root,
        named || !(cs.filterMap Component.name?).isEmpty) := by
  induction cs generalizing root named with
  | nil => simp
  | cons c cs ih =>
    obtain ⟨⟨htop, hup⟩, hcs⟩ := List.forall_mem_cons.1 h
    rw [List.foldlM_cons]
    cases c with
    | top => exact absurd rfl htop
    | up => exact absurd rfl hup
    | here => exact ih hcs named
    | name segment =>
      rw [filterMap_name?_cons, List.foldl_cons, List.isEmpty_cons, Bool.not_false, Bool.or_true]
      exact ih hcs true

theorem foldlM_advance_eq_none (h : .top ∈ cs ∨ .up ∈ cs) (state : List Char × Bool) :
    cs.foldlM advance state = none := by
  induction cs generalizing state with
  | nil => exact absurd h (not_or.2 ⟨List.not_mem_nil, List.not_mem_nil⟩)
  | cons c cs ih =>
    rw [List.foldlM_cons]
    cases c with
    | top => rfl
    | up => rfl
    | here => exact ih (by simpa using h) state
    | name segment => exact ih (by simpa using h) _

/-- A path without a step upwards between slashes of either kind has none among its components. -/
theorem up_not_mem_splitOn (h : ['.', '.'] ∉ decoded.splitOnP isSlash) :
    ['.', '.'] ∉ decoded.splitOn '/' := by
  have hdots : ∀ c ∈ ['.', '.'], isSlash c = false :=
    List.forall_mem_cons.2 ⟨rfl, List.forall_mem_singleton.2 rfl⟩
  exact fun hmem => h (Text.mem_splitOnP_of_mem_splitOn rfl hdots hmem)

/-- Whether a decoded path is refused, whatever names it consists of. -/
def Refused (decoded : List Char) : Prop :=
  '\x00' ∈ decoded ∨ ['.', '.'] ∈ decoded.splitOnP isSlash ∨ decoded.head? = some '/'

theorem resolve?_of_refused (h : Refused decoded) : resolve? root decoded = none := by
  unfold resolve?
  split
  · rfl
  · rename_i hplain
    rw [Bool.or_eq_true, List.contains_iff_mem, climbs_iff, not_or] at hplain
    have htop := (h.resolve_left hplain.1).resolve_left hplain.2
    rw [foldlM_advance_eq_none (.inl (top_mem_components.2 htop))]
    rfl

/-- A backslash is no slash to a path, but it does not hide a step upwards. -/
example : resolve? "/srv".toList "a\\../b".toList = none := by decide +kernel

/-- A path that is not refused means the root with its names behind it, if it has any. -/
theorem resolve?_of_not_refused (h : ¬ Refused decoded) : resolve? root decoded =
    if names decoded = [] then none else some ((names decoded).foldl push root) := by
  obtain ⟨hzero, h⟩ := not_or.1 h
  obtain ⟨hclimbs, htop⟩ := not_or.1 h
  have hup := up_not_mem_splitOn hclimbs
  have hcomponents : ∀ c ∈ components decoded, c ≠ .top ∧ c ≠ .up := by
    intro c hc
    refine ⟨?_, ?_⟩
    · rintro rfl
      exact htop (top_mem_components.1 hc)
    · rintro rfl
      exact hup (up_mem_components.1 hc)
  have hpass : ¬ (decoded.contains '\x00' || climbs decoded) = true := by
    rw [Bool.or_eq_true, List.contains_iff_mem, climbs_iff]
    exact not_or.2 ⟨hzero, hclimbs⟩
  unfold resolve?
  rw [if_neg hpass, foldlM_advance hcomponents, filterMap_name?_components hup]
  cases names decoded <;> rfl

/-- What a path means, and which paths mean something. -/
theorem resolve?_eq_some_iff : resolve? root decoded = some file ↔
    ¬ Refused decoded ∧ names decoded ≠ [] ∧ file = (names decoded).foldl push root := by
  by_cases h : Refused decoded
  · rw [resolve?_of_refused h]
    exact ⟨nofun, fun hmeans => absurd h hmeans.1⟩
  · rw [resolve?_of_not_refused h]
    by_cases hnames : names decoded = []
    · rw [if_pos hnames]
      exact ⟨nofun, fun hmeans => absurd hnames hmeans.2.1⟩
    · rw [if_neg hnames, Option.some.injEq]
      exact ⟨fun hfile => ⟨h, hnames, hfile.symm⟩, fun hmeans => hmeans.2.2.symm⟩

theorem path?_eq_some_iff {root path file : String} : path? root path = some file ↔
    ∃ text, Url.decode path = some text ∧ resolve? root.toList text.toList = some file.toList := by
  unfold path?
  constructor
  · intro h
    obtain ⟨text, htext, h⟩ := Option.bind_eq_some_iff.1 h
    obtain ⟨cs, hcs, h⟩ := Option.bind_eq_some_iff.1 h
    cases h
    exact ⟨text, htext, by rw [String.toList_ofList, hcs]⟩
  · rintro ⟨text, htext, hfile⟩
    rw [htext]
    show (resolve? root.toList text.toList).bind _ = _
    rw [hfile]
    exact congrArg some String.ofList_toList

theorem names_ne_nil_iff : names path ≠ [] ↔ ∃ s ∈ path.splitOn '/', s ≠ [] ∧ s ≠ ['.'] := by
  constructor
  · intro h
    obtain ⟨s, hs⟩ := List.exists_mem_of_ne_nil _ h
    exact ⟨s, mem_names_iff.1 hs⟩
  · rintro ⟨s, hs⟩
    exact List.ne_nil_of_mem (mem_names_iff.2 hs)

/-- What a path that is not refused consists of are names by all rules. -/
theorem isName_of_mem_names (h : ¬ Refused decoded) (hmem : segment ∈ names decoded) :
    IsName segment ∧ '\x00' ∉ segment := by
  obtain ⟨hzero, h⟩ := not_or.1 h
  obtain ⟨hclimbs, -⟩ := not_or.1 h
  obtain ⟨hsegment, hne, hhere⟩ := mem_names_iff.1 hmem
  have hup : segment ≠ ['.', '.'] := by
    rintro rfl
    exact up_not_mem_splitOn hclimbs hsegment
  rw [← Text.pieces_eq_splitOn] at hsegment
  exact ⟨⟨hne, hhere, hup, fun hc => (Text.mem_of_mem_pieces hsegment hc).2 rfl⟩,
    fun hc => hzero (Text.mem_of_mem_pieces hsegment hc).1⟩

/-- **The web root.** A path means a file exactly if it can be decoded and the text has no zero
byte in it, does not begin with a slash, is nowhere a step upwards between slashes of either kind,
and is somewhere between slashes more than a dot. The file is the root with these segments behind
it, all of which are plain names, and by the rules for paths nothing comes in between. -/
theorem stays_under_root (root path : String) :
    ((path? root path).isSome ↔ ∃ text, Url.decode path = some text ∧ '\x00' ∉ text.toList ∧
      text.toList.head? ≠ some '/' ∧ ['.', '.'] ∉ text.toList.splitOnP isSlash ∧
      ∃ s ∈ text.toList.splitOn '/', s ≠ [] ∧ s ≠ ['.']) ∧
    ∀ file, path? root path = some file → ∃ text segments, Url.decode path = some text ∧
      segments = (text.toList.splitOn '/').filter (fun s => s ≠ [] ∧ s ≠ ['.']) ∧ segments ≠ [] ∧
      file.toList = segments.foldl push root.toList ∧
      components file.toList = components root.toList ++ segments.map .name ∧
      ∀ s ∈ segments, IsName s ∧ '\x00' ∉ s := by
  constructor
  · rw [Option.isSome_iff_exists]
    constructor
    · rintro ⟨file, hfile⟩
      obtain ⟨text, htext, hfile⟩ := path?_eq_some_iff.1 hfile
      obtain ⟨hplain, hnames, -⟩ := resolve?_eq_some_iff.1 hfile
      obtain ⟨hzero, hplain⟩ := not_or.1 hplain
      obtain ⟨hclimbs, htop⟩ := not_or.1 hplain
      exact ⟨text, htext, hzero, htop, hclimbs, names_ne_nil_iff.1 hnames⟩
    · rintro ⟨text, htext, hzero, htop, hclimbs, hnames⟩
      have hplain : ¬ Refused text.toList := not_or.2 ⟨hzero, not_or.2 ⟨hclimbs, htop⟩⟩
      refine ⟨String.ofList ((names text.toList).foldl push root.toList), ?_⟩
      rw [path?_eq_some_iff]
      refine ⟨text, htext, resolve?_eq_some_iff.2 ⟨hplain, names_ne_nil_iff.2 hnames, ?_⟩⟩
      exact String.toList_ofList
  · intro file hfile
    obtain ⟨text, htext, hfile⟩ := path?_eq_some_iff.1 hfile
    obtain ⟨hplain, hnames, hfile⟩ := resolve?_eq_some_iff.1 hfile
    have hall : ∀ s ∈ names text.toList, IsName s ∧ '\x00' ∉ s :=
      fun s hs => isName_of_mem_names hplain hs
    refine ⟨text, names text.toList, htext, rfl, hnames, hfile, ?_, hall⟩
    rw [hfile]
    exact components_foldl_push (fun s hs => (hall s hs).1) root.toList

/-- A dot and a slash too many are left out, and a backslash is a part of a name. -/
theorem stays_under_root_escaped :
    path? "/srv/www" "css/%2E//a%5cb%20c" = some "/srv/www/css/a\\b c" ∧
      components "/srv/www/css/a\\b c".toList =
        [.top, .name "srv".toList, .name "www".toList, .name "css".toList,
          .name "a\\b c".toList] := by
  have hfile : path? "/srv/www" "css/%2E//a%5cb%20c" = some "/srv/www/css/a\\b c" := by
    decide +kernel
  have htext : Url.decode "css/%2E//a%5cb%20c" = some "css/.//a\\b c" := by decide +kernel
  obtain ⟨text, segments, hdecode, rfl, -, -, hcomponents, -⟩ :=
    (stays_under_root "/srv/www" "css/%2E//a%5cb%20c").2 _ hfile
  rw [htext] at hdecode
  cases hdecode
  exact ⟨hfile, hcomponents.trans (by decide +kernel)⟩

end Switchboard.Http.StaticFile
