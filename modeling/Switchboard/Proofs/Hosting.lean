import Mathlib.Data.List.Sort
import Switchboard.Pages
import Switchboard.Proofs.Dict
import Switchboard.Proofs.Registration

/-!
# What a server finds under a name

A server hosts the namespaces of several identities as one. They are laid over each other in the
order of the list, and an entry whose key is taken is dropped, so a name leads to the first identity
that has an entry for it (`get?_methods_build`). Names are looked up in lower case and shown in the
spelling in which they were registered. That the two belong together rests on every key being the
name of its own entry in lower case, which holds of whatever registrations have put anywhere
(`Builder.key_of_entryOf?`) and is taken over by a server from there (`keyed_build`). So no two
names that are shown are one name in two spellings, and each of them leads back to the method that
is shown (`hosted_finds`).
-/

namespace Switchboard.Registry

/-! ## Namespaces laid over each other -/

/-- Of two namespaces laid over each other the first one counts. -/
theorem get?_addNew (methods space : Namespace) (key : String) :
    (addNew methods space).get? key = (methods.get? key).or (space.get? key) :=
  Dict.get?_foldl_insertIfNew methods space.toList key

/-- Of namespaces in a row the first that has an entry counts. -/
theorem get?_foldl_addNew (methods : Namespace) (spaces : List Namespace) (key : String) :
    (spaces.foldl addNew methods).get? key =
      (methods.get? key).or (spaces.findSome? (·.get? key)) := by
  induction spaces generalizing methods with
  | nil => exact (Option.or_none ..).symm
  | cons space spaces ih =>
    rw [List.foldl_cons, ih, get?_addNew, Option.or_assoc, List.findSome?_cons]
    cases space.get? key <;> rfl

/-- An identity without a namespace is passed over like one that has no entry in it. -/
theorem findSome?_filterMap_get? (b : Builder) (selected : List String) (key : String) :
    (selected.filterMap b.identities.get?).findSome? (·.get? key) =
      selected.findSome? (b.entryOf? · key) := by
  induction selected with
  | nil => rfl
  | cons identity selected ih =>
    rw [List.filterMap_cons, List.findSome?_cons, ← ih]
    unfold Builder.entryOf?
    cases b.identities.get? identity <;> rfl

/-- A server has the entry of the first of its identities that has one. -/
theorem get?_methods_build (b : Builder) (list key : String) :
    (b.build list).methods.get? key = (selectIdentities list).findSome? (b.entryOf? · key) := by
  unfold Builder.build
  dsimp only
  rw [get?_foldl_addNew, findSome?_filterMap_get?]
  exact Option.none_or

/-- **A registry finds the entry of the first identity that has one.** -/
theorem entry?_build (b : Builder) (list name : String) :
    entry? (b.build list) name =
      (selectIdentities list).findSome? (b.entryOf? · (Text.lower name)) :=
  get?_methods_build b list (Text.lower name)

/-! ## Registries whose keys are names -/

/-- Whether every key is the name of its entry in lower case. -/
def Keyed (r : Registry) : Prop :=
  ∀ key e, r.methods.get? key = some e → key = Text.lower e.handler.name

section

variable {r : Registry} {name : String}

/-- A name is shown exactly if it is the spelling of what is found under it. -/
theorem Keyed.mem_names_iff (h : r.Keyed) :
    name ∈ r.names ↔ ∃ e, r.entry? name = some e ∧ e.handler.name = name := by
  unfold names Dict.values
  rw [List.mem_mergeSort, List.map_map, List.mem_map]
  constructor
  · rintro ⟨⟨key, e⟩, he, rfl⟩
    have hget : r.methods.get? key = some e := Dict.get?_eq_some_iff.2 he
    refine ⟨e, ?_, rfl⟩
    unfold entry?
    rw [Function.comp_apply, ← h key e hget]
    exact hget
  · rintro ⟨e, hget, hname⟩
    exact ⟨(Text.lower name, e), Dict.get?_eq_some_iff.1 hget, hname⟩

/-- What is found under a name that is shown, in any case, has that name. -/
theorem Keyed.get?_of_mem_names (h : r.Keyed) (hname : name ∈ r.names) {v : String}
    (hv : Text.lower v = Text.lower name) : ∃ m, r.get? v = some m ∧ m.name = name := by
  obtain ⟨e, he, hspelling⟩ := h.mem_names_iff.1 hname
  refine ⟨e.handler, ?_, hspelling⟩
  unfold entry? at he
  unfold get? entry?
  rw [hv, he]
  rfl

/-- The names in lower case are the keys. -/
theorem Keyed.map_lower_values (h : r.Keyed) :
    r.methods.values.map (Text.lower ·.handler.name) = r.methods.keys := by
  unfold Dict.values Dict.keys
  rw [List.map_map]
  apply List.map_congr_left
  rintro ⟨key, e⟩ he
  exact (h key e (Dict.get?_eq_some_iff.2 he)).symm

/-- The names of a registry are those of its handlers. -/
theorem names_perm (r : Registry) : r.names.Perm (r.methods.values.map (·.handler.name)) :=
  List.mergeSort_perm ..

/-- No two names that are shown are one in two spellings. -/
theorem Keyed.pairwise_names (h : r.Keyed) :
    r.names.Pairwise fun n m => Text.lower n ≠ Text.lower m := by
  rw [r.names_perm.pairwise_iff Ne.symm, List.pairwise_map]
  have hkeys := r.methods.nodup_keys
  rw [← h.map_lower_values] at hkeys
  exact List.pairwise_map.1 hkeys

theorem sorted_names (r : Registry) : r.names.Pairwise (· ≤ ·) := by
  unfold names
  apply (List.pairwise_mergeSort ?_ ?_ _).imp of_decide_eq_true
  · intro a b c hab hbc
    exact decide_eq_true (String.le_trans (of_decide_eq_true hab) (of_decide_eq_true hbc))
  · intro a b
    simpa using String.le_total a b

theorem length_names (r : Registry) : r.names.length = r.size := by
  rw [r.names_perm.length_eq]
  unfold Dict.values size Dict.size
  rw [List.length_map, List.length_map]

/-- The methods behind the names that are shown. -/
theorem Keyed.exists_handlers (h : r.Keyed) :
    ∃ ms : List Handler, ms.map (·.name) = r.names ∧ ∀ m ∈ ms, r.get? m.name = some m := by
  have hlist : ∀ names : List String,
      (∀ name ∈ names, ∃ m, r.get? name = some m ∧ m.name = name) →
      ∃ ms : List Handler, ms.map (·.name) = names ∧ ∀ m ∈ ms, r.get? m.name = some m := by
    intro names hall
    induction names with
    | nil => exact ⟨[], rfl, nofun⟩
    | cons name names ih =>
      obtain ⟨m, hm, rfl⟩ := hall name List.mem_cons_self
      obtain ⟨ms, rfl, hms⟩ := ih fun name hname => hall name (List.mem_cons_of_mem _ hname)
      exact ⟨m :: ms, rfl, List.forall_mem_cons.2 ⟨hm, hms⟩⟩
  exact hlist r.names fun name hname => h.get?_of_mem_names hname rfl

/-- The form of a server ends with a row for each of the methods that it shows. -/
theorem rootForm_rows {ms : List Handler} (hnames : ms.map (·.name) = r.names)
    (hms : ∀ m ∈ ms, r.get? m.name = some m) (mock : String) :
    ∃ front, Page.rootForm r mock = front ++
      String.join (ms.mapIdx fun i m => Page.formRow (Http.escape mock) (i + 1) m.name m) ++
      "</table>\n</body></html>\n" := by
  have hrows : ∀ row : String × Nat → String,
      (∀ m ∈ ms, ∀ i, row (m.name, i) = Page.formRow (Http.escape mock) (i + 1) m.name m) →
      r.names.zipIdx.map row =
        ms.mapIdx fun i m => Page.formRow (Http.escape mock) (i + 1) m.name m := by
    intro row hrow
    rw [← hnames, List.zipIdx_map, List.map_map, List.mapIdx_eq_zipIdx_map]
    apply List.map_congr_left
    intro p hp
    exact hrow p.1 (List.fst_mem_of_mem_zipIdx hp) p.2
  unfold Page.rootForm
  dsimp only
  rw [hrows]
  · exact ⟨_, rfl⟩
  · intro m hm i
    dsimp only
    rw [hms m hm]

end

/-! ## Behind registrations -/

theorem Registration.entry_name (c : Registration) : c.entry.handler.name = c.name := by
  cases c <;> rfl

theorem Registration.entry_forward_eq_some_iff {c : Registration} {f : ForwardEntry} :
    c.entry.forward = some f ↔ ∃ identities name directory input output sample,
      c = .forward identities name directory f input output sample := by
  cases c with
  | method identities handler => simp [entry]
  | forward identities name directory entry' input output sample =>
    simp only [entry, Option.some.injEq]
    constructor
    · rintro rfl
      exact ⟨_, _, _, _, _, _, rfl⟩
    · rintro ⟨_, _, _, _, _, _, hc⟩
      cases hc
      rfl

/-- Whether a registration in a row is not refused, and is for an identity and for a name in some
case. -/
structure Fills (cs : List Registration) (identity name : String) (c : Registration) : Prop where
  accepted : ∃ early, Builder.Accepted cs early c
  mem_targets : identity ∈ c.targets
  lower_name : Text.lower c.name = Text.lower name

/-- Whether it is one for the first of some identities for which there are any. -/
def FillsFirst (cs : List Registration) (selected : List String) (name : String)
    (c : Registration) : Prop :=
  ∃ before i behind, selected = before ++ i :: behind ∧ Fills cs i name c ∧
    ∀ j ∈ before, ∀ c', ¬ Fills cs j name c'

section

variable {cs : List Registration} {identity name list : String} {e : Entry}

namespace Builder

/-- An entry is seen exactly if a registration has filled the place. -/
theorem entryOf?_eq_some_iff :
    (empty.after cs).entryOf? identity (Text.lower name) = some e ↔
      ∃ c, Fills cs identity name c ∧ c.entry = e := by
  constructor
  · intro he
    obtain ⟨early, c, haccepted, hi, hname, rfl⟩ := (traced cs).origin _ _ _ he
    exact ⟨c, ⟨⟨early, haccepted⟩, hi, hname⟩, rfl⟩
  · rintro ⟨c, ⟨⟨early, haccepted⟩, hi, hname⟩, rfl⟩
    rw [← hname]
    exact haccepted.entryOf? hi

theorem entryOf?_eq_none_iff :
    (empty.after cs).entryOf? identity (Text.lower name) = none ↔
      ∀ c, ¬ Fills cs identity name c := by
  rw [Option.eq_none_iff_forall_ne_some]
  constructor
  · intro hnone c hc
    exact hnone c.entry (entryOf?_eq_some_iff.2 ⟨c, hc, rfl⟩)
  · intro hnone e he
    obtain ⟨c, hc, -⟩ := entryOf?_eq_some_iff.1 he
    exact hnone c hc

/-- Wherever registrations have put an entry, the key is its name in lower case. -/
theorem key_of_entryOf? {key : String} (he : (empty.after cs).entryOf? identity key = some e) :
    key = Text.lower e.handler.name := by
  obtain ⟨early, c, -, -, rfl, rfl⟩ := (traced cs).origin identity key e he
  rw [Registration.entry_name]

end Builder

/-- The methods of a registry stand under their names. -/
theorem keyed_build (cs : List Registration) (list : String) :
    ((Builder.empty.after cs).build list).Keyed := by
  intro key e he
  rw [get?_methods_build] at he
  obtain ⟨identity, -, he⟩ := List.exists_of_findSome?_eq_some he
  exact Builder.key_of_entryOf? he

theorem Builder.Accepted.checkName_eq {early : List Registration} {c : Registration}
    (h : Builder.Accepted cs early c) : checkName c.name = .ok () := by
  have hnone := h.accepted
  rcases (Builder.empty.after early).acceptInPlace_cases c with ⟨fault, hc, -⟩ | ⟨-, hname, -⟩
  · rw [hc] at hnone
    cases hnone
  · exact hname

theorem FillsFirst.checkName_eq {selected : List String} {c : Registration}
    (h : FillsFirst cs selected name c) : checkName c.name = .ok () := by
  obtain ⟨_, _, _, -, hfills, -⟩ := h
  obtain ⟨early, haccepted⟩ := hfills.accepted
  exact haccepted.checkName_eq

/-- An entry is found exactly if a registration has filled the first place for it. -/
theorem entry?_eq_some_iff :
    entry? ((Builder.empty.after cs).build list) name = some e ↔
      ∃ c, FillsFirst cs (selectIdentities list) name c ∧ c.entry = e := by
  rw [entry?_build, List.findSome?_eq_some_iff]
  simp only [Builder.entryOf?_eq_some_iff, Builder.entryOf?_eq_none_iff]
  constructor
  · rintro ⟨before, i, behind, hselected, ⟨c, hc, rfl⟩, hnone⟩
    exact ⟨c, ⟨before, i, behind, hselected, hc, hnone⟩, rfl⟩
  · rintro ⟨c, ⟨before, i, behind, hselected, hc, hnone⟩, rfl⟩
    exact ⟨before, i, behind, hselected, ⟨c, hc, rfl⟩, hnone⟩

/-- So it is with the handler of an entry. -/
theorem get?_eq_some_iff {h : Handler} :
    ((Builder.empty.after cs).build list).get? name = some h ↔
      ∃ c, FillsFirst cs (selectIdentities list) name c ∧ c.entry.handler = h := by
  unfold get?
  simp only [Option.map_eq_some_iff, entry?_eq_some_iff]
  constructor
  · rintro ⟨_, ⟨c, hc, rfl⟩, rfl⟩
    exact ⟨c, hc, rfl⟩
  · rintro ⟨c, hc, rfl⟩
    exact ⟨c.entry, ⟨c, hc, rfl⟩, rfl⟩

theorem forward?_eq_some_iff {f : ForwardEntry} :
    ((Builder.empty.after cs).build list).forward? name = some f ↔
      ∃ identities own directory input output sample,
        FillsFirst cs (selectIdentities list) name
          (.forward identities own directory f input output sample) := by
  unfold forward?
  rw [Option.bind_eq_some_iff]
  simp only [entry?_eq_some_iff]
  constructor
  · rintro ⟨_, ⟨c, hc, rfl⟩, hf⟩
    obtain ⟨_, _, _, _, _, _, rfl⟩ := Registration.entry_forward_eq_some_iff.1 hf
    exact ⟨_, _, _, _, _, _, hc⟩
  · rintro ⟨_, _, _, _, _, _, hc⟩
    exact ⟨_, ⟨_, hc, rfl⟩, rfl⟩

/-- A name is listed exactly if it was registered for an identity that is hosted, and first. -/
theorem mem_names_iff :
    name ∈ ((Builder.empty.after cs).build list).names ↔
      ∃ c, FillsFirst cs (selectIdentities list) name c ∧ c.name = name := by
  rw [(keyed_build cs list).mem_names_iff]
  simp only [entry?_eq_some_iff]
  constructor
  · rintro ⟨_, ⟨c, hc, rfl⟩, hname⟩
    exact ⟨c, hc, Registration.entry_name c ▸ hname⟩
  · rintro ⟨c, hc, hname⟩
    exact ⟨c.entry, ⟨c, hc, rfl⟩, (Registration.entry_name c).trans hname⟩

/-- **What a server finds under a name.** Behind any registrations, a server with any list of
identities looks through these in their order, with the shared one at the end if it is not listed,
and under a name in any case it finds the entry of the first that has one for it. That is the entry
of a registration that was not refused, and the server knows of another one that has the method
exactly if it was registered as a method of that other one. The names that it shows are the
spellings of what is found under them, in order, one for each method and no two the same in another
case. Each of them in any case leads to the method of that name, so there is a form for each. -/
theorem hosted_finds (cs : List Registration) (list : String) :
    let b := Builder.empty.after cs
    let r := b.build list
    let listed := splitIdentities list
    r.identities = (if sharedIdentity ∈ listed then listed else listed ++ [sharedIdentity]) ∧
      (∀ name, r.get? name =
        (r.identities.findSome? (b.entryOf? · (Text.lower name))).map (·.handler)) ∧
      (∀ name h, r.get? name = some h ↔
        ∃ c, FillsFirst cs r.identities name c ∧ c.entry.handler = h) ∧
      (∀ name, r.get? name = none ↔ ∀ i ∈ r.identities, ∀ c, ¬ Fills cs i name c) ∧
      (∀ name f, r.forward? name = some f ↔ ∃ identities own directory input output sample,
        FillsFirst cs r.identities name
          (.forward identities own directory f input output sample)) ∧
      r.names.Pairwise (· ≤ ·) ∧ r.names.length = r.size ∧
      (r.names.Pairwise fun n m => Text.lower n ≠ Text.lower m) ∧
      (∀ name, name ∈ r.names ↔ ∃ c, FillsFirst cs r.identities name c ∧ c.name = name) ∧
      (∀ name ∈ r.names, ∀ v, Text.lower v = Text.lower name →
        ∃ h, r.get? v = some h ∧ h.name = name) ∧
      ∃ hs : List Handler, hs.map (·.name) = r.names ∧ (∀ h ∈ hs, r.get? h.name = some h) ∧
        ∀ mock, ∃ front, Page.rootForm r mock = front ++
          String.join (hs.mapIdx fun i h => Page.formRow (Http.escape mock) (i + 1) h.name h) ++
          "</table>\n</body></html>\n" := by
  intro b r listed
  have hkeyed : r.Keyed := keyed_build cs list
  have hget : ∀ name, r.get? name =
      (r.identities.findSome? (b.entryOf? · (Text.lower name))).map (·.handler) := by
    intro name
    unfold get?
    rw [entry?_build]
    rfl
  have hnone : ∀ name, r.get? name = none ↔ ∀ i ∈ r.identities, ∀ c, ¬ Fills cs i name c := by
    intro name
    rw [hget, Option.map_eq_none_iff, List.findSome?_eq_none_iff]
    simp only [b, Builder.entryOf?_eq_none_iff]
  obtain ⟨hs, hnames, hhs⟩ := hkeyed.exists_handlers
  exact ⟨rfl, hget, fun _ _ => get?_eq_some_iff, hnone, fun _ _ => forward?_eq_some_iff,
    r.sorted_names, r.length_names, hkeyed.pairwise_names, fun _ => mem_names_iff,
    fun name hname v hv => hkeyed.get?_of_mem_names hname hv, hs, hnames, hhs,
    rootForm_rows hnames hhs⟩

end

/-- Of two spellings for two identities the one for the identity that is listed first is shown, and
any other spelling leads to its method. -/
theorem hosted_finds_two_spellings :
    let cs : List Registration :=
      [.method "calc" (Sample.Gallery.ping "Ping"), .method "math" (Sample.Gallery.ping "PING")]
    let r := (Builder.empty.after cs).build "math, calc"
    "PING" ∈ r.names ∧ Text.lower "pInG" = Text.lower "PING" ∧
      ∃ h, r.get? "pInG" = some h ∧ h.name = "PING" := by
  intro cs r
  obtain ⟨-, -, -, -, -, -, -, -, hshown, hfound, -⟩ := hosted_finds cs "math, calc"
  have hfills : Fills cs "math" "PING" (.method "math" (Sample.Gallery.ping "PING")) :=
    ⟨⟨[.method "calc" (Sample.Gallery.ping "Ping")], List.prefix_refl _, rfl⟩, by decide, rfl⟩
  have hmem : "PING" ∈ r.names :=
    (hshown "PING").2 ⟨_, ⟨[], "math", ["calc", "all"], rfl, hfills, nofun⟩, rfl⟩
  have hlower : Text.lower "pInG" = Text.lower "PING" := by decide
  exact ⟨hmem, hlower, hfound "PING" hmem "pInG" hlower⟩

end Switchboard.Registry
