import Mathlib.Data.List.Induction
import Switchboard.Registry
import Switchboard.Sample.Gallery

/-!
# What is registered stays

A registration is refused if one of the identities it is for sees its name already, and what an
identity sees is not symmetric: all identities see what is for all, and for all everything is seen.
The check comes before anything is registered, for the whole list, and is not made again between the
identities of one list. In this module registrations change a builder in place and fail with what
they have changed by then (`Builder.insertInPlace`), so that it is said, and not assumed, that a
refused registration changes nothing (`Builder.insertInPlace_eq`).

Two entries that an identity sees under one name, its own and that for all, are the work of one
registration. This is part of what holds of the builder behind any registrations (`Builder.Traced`):
another one could break it only for a name that it registers for one of the two, and then the other
one would have been seen.
-/

namespace Switchboard.Registry

namespace Builder

variable {b b' : Builder} {identity key name : String} {identities : String} {entry : Entry}

/-! ## What an identity sees -/

/-- The entry of an identity itself under a key. -/
def entryOf? (b : Builder) (identity key : String) : Option Entry :=
  (b.identities.get? identity).bind (·.get? key)

/-- Whether an identity sees a name, in any case: its own, that of all, and if it stands for all
that of anybody. -/
def Sees (b : Builder) (identity name : String) : Prop :=
  ∃ other, (identity = sharedIdentity ∨ other = identity ∨ other = sharedIdentity) ∧
    (b.entryOf? other (Text.lower name)).isSome

/-- An identity has a method exactly if it sees an entry for it. -/
theorem has_eq (b : Builder) (identity key : String) :
    b.has identity key = (b.entryOf? identity key).isSome := by
  unfold has entryOf?
  cases b.identities.get? identity with
  | none => rfl
  | some space => rfl

/-- There is no conflict exactly if the name is not seen. -/
theorem conflict_eq_none_iff :
    b.conflict identity (Text.lower name) = none ↔ ¬ b.Sees identity name := by
  unfold conflict Sees
  by_cases hshared : identity = sharedIdentity
  · rw [if_pos hshared, List.find?_eq_none]
    simp only [hshared, true_or, true_and, not_exists, has_eq]
    constructor
    · intro hnone other hsome
      refine hnone other ?_ hsome
      obtain ⟨e, he⟩ := Option.isSome_iff_exists.1 hsome
      obtain ⟨space, hspace, -⟩ := Option.bind_eq_some_iff.1 he
      exact List.mem_map_of_mem (Dict.get?_eq_some_iff.1 hspace)
    · intro hnone other _
      exact hnone other
  · rw [if_neg hshared]
    simp [hshared, has_eq]

/-! ## What an insertion changes -/

/-- An insertion changes what one identity sees under one name. -/
theorem entryOf?_put (b : Builder) (key : String) (entry : Entry) (identity other k : String) :
    (b.put key entry identity).entryOf? other k =
      if other = identity ∧ k = key then some entry else b.entryOf? other k := by
  unfold put entryOf?
  simp only [Dict.get?_insert, Std.compare_eq_iff_eq]
  by_cases hother : other = identity
  · subst hother
    by_cases hk : k = key
    · simp [hk]
    · cases b.identities.get? other with
      | none => simp [hk, show (∅ : Namespace).get? k = none from rfl]
      | some space => simp [hk]
  · simp [hother]

/-- So do many, for each of the identities. -/
theorem entryOf?_foldl_put (b : Builder) (key : String) (entry : Entry) (targets : List String)
    (other k : String) :
    (targets.foldl (·.put key entry ·) b).entryOf? other k =
      if other ∈ targets ∧ k = key then some entry else b.entryOf? other k := by
  induction targets generalizing b with
  | nil => simp
  | cons identity targets ih =>
    rw [List.foldl_cons, ih, entryOf?_put]
    by_cases hk : k = key
    · by_cases hrest : other ∈ targets <;> by_cases hother : other = identity <;>
        simp [hk, hrest, hother]
    · simp [hk]

/-- The namespaces of identities that are not in a list stay as they are. -/
theorem get?_foldl_put (b : Builder) (key : String) (entry : Entry) {targets : List String}
    {other : String} (hother : other ∉ targets) :
    (targets.foldl (·.put key entry ·) b).identities.get? other = b.identities.get? other := by
  induction targets generalizing b with
  | nil => rfl
  | cons identity targets ih =>
    simp only [List.mem_cons, not_or] at hother
    rw [List.foldl_cons, ih (b.put key entry identity) hother.2]
    simp [put, hother.1]

/-- An insertion succeeds exactly if the name is one and no identity in the list sees it. -/
theorem insert_eq_ok_iff :
    b.insert identities name entry = .ok b' ↔
      (checkName name = .ok () ∧ ∀ i ∈ splitIdentities identities, ¬ b.Sees i name) ∧
        b' = (splitIdentities identities).foldl (·.put (Text.lower name) entry ·) b := by
  unfold insert
  cases checkName name with
  | error fault => simp
  | ok =>
    dsimp only
    simp only [← conflict_eq_none_iff, true_and, ← List.findSome?_eq_none_iff]
    cases (splitIdentities identities).findSome? (b.conflict · (Text.lower name)) with
    | some i => simp
    | none => simp [eq_comm]

/-! ## Insertions in place -/

/-- A change in place, which may fail. What it has changed by then stays changed. -/
abbrev Change := Builder → Option RegistryFault × Builder

/-- Changes one after another, up to the first that fails. -/
def inRow : List Change → Change
  | [], b => (none, b)
  | change :: changes, b =>
    match change b with
    | (some fault, b') => (some fault, b')
    | (none, b') => inRow changes b'

/-- Fails if a name cannot be one. -/
def checksName (name : String) : Change := fun b =>
  match checkName name with
  | .error fault => (some fault, b)
  | .ok _ => (none, b)

/-- Fails if an identity sees a name. -/
def checksIdentity (name identity : String) : Change := fun b =>
  ((b.conflict identity (Text.lower name)).map (.duplicate · name), b)

/-- Puts in an entry for an identity. -/
def puts (name : String) (entry : Entry) (identity : String) : Change := fun b =>
  (none, b.put (Text.lower name) entry identity)

/-- Registers an entry in place. -/
def insertInPlace (identities name : String) (entry : Entry) : Change :=
  let targets := splitIdentities identities
  inRow (checksName name :: (targets.map (checksIdentity name) ++ targets.map (puts name entry)))

theorem inRow_puts (b : Builder) (name : String) (entry : Entry) (targets : List String) :
    inRow (targets.map (puts name entry)) b =
      (none, targets.foldl (·.put (Text.lower name) entry ·) b) := by
  induction targets generalizing b with
  | nil => rfl
  | cons identity targets ih => exact ih (b.put (Text.lower name) entry identity)

theorem inRow_checks (b : Builder) (name : String) (targets : List String)
    (changes : List Change) :
    inRow (targets.map (checksIdentity name) ++ changes) b =
      match targets.findSome? (b.conflict · (Text.lower name)) with
      | some other => (some (.duplicate other name), b)
      | none => inRow changes b := by
  induction targets with
  | nil => rfl
  | cons identity targets ih =>
    rw [List.map_cons, List.cons_append, List.findSome?_cons, inRow, checksIdentity]
    cases b.conflict identity (Text.lower name) with
    | some other => rfl
    | none => exact ih

/-- A registration in place is the registration as a whole. If it is refused, it has changed
nothing. -/
theorem insertInPlace_eq (b : Builder) (identities name : String) (entry : Entry) :
    insertInPlace identities name entry b =
      match b.insert identities name entry with
      | .error fault => (some fault, b)
      | .ok b' => (none, b') := by
  unfold insertInPlace insert
  rw [inRow, checksName]
  cases checkName name with
  | error fault => rfl
  | ok =>
    dsimp only
    rw [inRow_checks, inRow_puts]
    cases (splitIdentities identities).findSome? (b.conflict · (Text.lower name)) <;> rfl

end Builder

/-! ## Registrations in a row -/

/-- A registration of a method, or of one of another server. -/
inductive Registration
  | method (identities : String) (handler : Handler)
  | forward (identities name : String) (directory : Directory) (entry : ForwardEntry)
    (input output : Shape) (sample : input.Data)

namespace Registration

/-- The identities that a registration is for. -/
def targets : Registration → List String
  | .method identities _ => splitIdentities identities
  | .forward identities _ _ _ _ _ _ => splitIdentities identities

/-- The name that it registers. -/
def name : Registration → String
  | .method _ handler => handler.name
  | .forward _ name _ _ _ _ _ => name

/-- The entry that it registers. -/
def entry : Registration → Entry
  | .method _ handler => ⟨handler, none⟩
  | .forward _ name directory entry input output sample =>
    ⟨⟨name, Forward.method directory entry input output, sample⟩, some entry⟩

end Registration

namespace Builder

/-- What becomes of a registration. -/
def accept (b : Builder) : Registration → Except RegistryFault Builder
  | .method identities handler => b.register identities handler
  | .forward identities name directory entry input output sample =>
    b.registerForward identities name directory entry input output sample

/-- What becomes of it in place. -/
def acceptInPlace (b : Builder) : Registration → Option RegistryFault × Builder
  | .method identities handler => insertInPlace identities handler.name ⟨handler, none⟩ b
  | .forward identities name directory entry input output sample =>
    insertInPlace identities name
      ⟨⟨name, Forward.method directory entry input output, sample⟩, some entry⟩ b

/-- The builder behind registrations in a row, of which some may be refused. -/
def after (b : Builder) (registrations : List Registration) : Builder :=
  registrations.foldl (fun b c => (b.acceptInPlace c).2) b

section

variable {b b' : Builder} {c : Registration} {cs : List Registration} {i k : String}
  {e e' : Entry}

/-- **A registration is accepted exactly if the name is allowed and no target sees it**, and then it
is put in place for all of them. -/
theorem accept_eq_ok_iff :
    b.accept c = .ok b' ↔
      (checkName c.name = .ok () ∧ ∀ i ∈ c.targets, ¬ b.Sees i c.name) ∧
        b' = c.targets.foldl (·.put (Text.lower c.name) c.entry ·) b := by
  cases c with
  | method identities handler => exact insert_eq_ok_iff
  | forward identities name directory entry input output sample => exact insert_eq_ok_iff

/-- In place or not, a registration that fails leaves no trace. -/
theorem acceptInPlace_eq (b : Builder) (c : Registration) :
    b.acceptInPlace c =
      match b.accept c with
      | .error fault => (some fault, b)
      | .ok b' => (none, b') := by
  cases c with
  | method identities handler => exact insertInPlace_eq ..
  | forward identities name directory entry input output sample => exact insertInPlace_eq ..

/-- **One registration.** It is either refused and changes nothing, or it succeeds and changes what
it is for. -/
theorem acceptInPlace_cases (b : Builder) (c : Registration) :
    (∃ fault, b.acceptInPlace c = (some fault, b) ∧
        ¬ (checkName c.name = .ok () ∧ ∀ i ∈ c.targets, ¬ b.Sees i c.name)) ∨
      b.acceptInPlace c = (none, c.targets.foldl (·.put (Text.lower c.name) c.entry ·) b) ∧
        checkName c.name = .ok () ∧ ∀ i ∈ c.targets, ¬ b.Sees i c.name := by
  rw [acceptInPlace_eq]
  cases haccept : b.accept c with
  | error fault =>
    refine .inl ⟨fault, rfl, ?_⟩
    intro hok
    have hok := accept_eq_ok_iff.2 ⟨hok, rfl⟩
    rw [haccept] at hok
    cases hok
  | ok b' =>
    obtain ⟨⟨hname, hunseen⟩, rfl⟩ := accept_eq_ok_iff.1 haccept
    exact .inr ⟨rfl, hname, hunseen⟩

theorem sees_of_entryOf? {name : String} (he : b.entryOf? i (Text.lower name) = some e) :
    b.Sees i name :=
  ⟨i, .inr (.inl rfl), by rw [he]; rfl⟩

/-- An entry is not replaced. -/
theorem entryOf?_acceptInPlace (c : Registration) (he : b.entryOf? i k = some e) :
    (b.acceptInPlace c).2.entryOf? i k = some e := by
  rcases b.acceptInPlace_cases c with ⟨fault, hc, -⟩ | ⟨hc, -, hunseen⟩
  · rw [hc]
    exact he
  · rw [hc]
    dsimp only
    rw [entryOf?_foldl_put, if_neg, he]
    rintro ⟨hi, rfl⟩
    exact hunseen i hi (sees_of_entryOf? he)

/-- What an identity sees it goes on seeing, whatever is registered later. -/
theorem entryOf?_after (cs : List Registration) (he : b.entryOf? i k = some e) :
    (b.after cs).entryOf? i k = some e := by
  induction cs generalizing b with
  | nil => exact he
  | cons c cs ih => exact ih (entryOf?_acceptInPlace c he)

/-- Whether a registration stands behind some others in a row and is not refused there. -/
structure Accepted (cs early : List Registration) (c : Registration) : Prop where
  isPrefix : early ++ [c] <+: cs
  accepted : ((empty.after early).acceptInPlace c).1 = none

theorem Accepted.append {early : List Registration} (h : Accepted cs early c)
    (more : List Registration) : Accepted (cs ++ more) early c :=
  ⟨h.isPrefix.trans (List.prefix_append cs more), h.accepted⟩

theorem after_append (b : Builder) (cs more : List Registration) :
    b.after (cs ++ more) = (b.after cs).after more := List.foldl_append

/-- What is accepted is there at the end. -/
theorem Accepted.entryOf? {early : List Registration} (h : Accepted cs early c)
    (hi : i ∈ c.targets) : (empty.after cs).entryOf? i (Text.lower c.name) = some c.entry := by
  obtain ⟨⟨late, rfl⟩, haccepted⟩ := h
  rw [after_append, after_append]
  apply entryOf?_after
  show ((empty.after early).acceptInPlace c).2.entryOf? i (Text.lower c.name) = _
  rcases (empty.after early).acceptInPlace_cases c with ⟨fault, hc, -⟩ | ⟨hc, -, -⟩
  · rw [hc] at haccepted
    cases haccepted
  · rw [hc]
    dsimp only
    rw [entryOf?_foldl_put, if_pos ⟨hi, rfl⟩]

/-- Every entry was put where it is by a registration, and if an identity sees two entries under a
key, its own and that for all, one registration put them both there. -/
structure Traced (cs : List Registration) : Prop where
  origin : ∀ i k e, (empty.after cs).entryOf? i k = some e →
    ∃ early c, Accepted cs early c ∧ i ∈ c.targets ∧ Text.lower c.name = k ∧ c.entry = e
  agrees : ∀ i k e e', (empty.after cs).entryOf? i k = some e →
    (empty.after cs).entryOf? sharedIdentity k = some e' →
    ∃ early c, Accepted cs early c ∧ i ∈ c.targets ∧ sharedIdentity ∈ c.targets ∧
      Text.lower c.name = k ∧ c.entry = e ∧ c.entry = e'

theorem Traced.append_singleton (h : Traced cs) (c : Registration) : Traced (cs ++ [c]) := by
  have hafter : empty.after (cs ++ [c]) = ((empty.after cs).acceptInPlace c).2 :=
    after_append empty cs [c]
  rcases (empty.after cs).acceptInPlace_cases c with ⟨fault, hc, -⟩ | ⟨hc, -, hunseen⟩
  · -- a registration that is refused leaves everything where it was put
    rw [hc] at hafter
    constructor
    · intro i k e he
      rw [hafter] at he
      obtain ⟨early, c', haccepted, hplace⟩ := h.origin i k e he
      exact ⟨early, c', haccepted.append [c], hplace⟩
    · intro i k e e' he he'
      rw [hafter] at he he'
      obtain ⟨early, c', haccepted, hplace⟩ := h.agrees i k e e' he he'
      exact ⟨early, c', haccepted.append [c], hplace⟩
  · have haccepted : Accepted (cs ++ [c]) cs c := ⟨List.prefix_refl _, by rw [hc]⟩
    rw [hc] at hafter
    have hentry : ∀ i k, (empty.after (cs ++ [c])).entryOf? i k =
        if i ∈ c.targets ∧ k = Text.lower c.name then some c.entry
        else (empty.after cs).entryOf? i k := by
      intro i k
      rw [hafter, entryOf?_foldl_put]
    constructor
    · intro i k e he
      rw [hentry] at he
      split at he
      · rename_i hnew
        cases he
        exact ⟨cs, c, haccepted, hnew.1, hnew.2.symm, rfl⟩
      · obtain ⟨early, c', hold, hplace⟩ := h.origin i k e he
        exact ⟨early, c', hold.append [c], hplace⟩
    · intro i k e e' he he'
      rw [hentry] at he he'
      by_cases hk : k = Text.lower c.name
      · subst hk
        simp only [and_true] at he he'
        by_cases hi : i ∈ c.targets <;> by_cases hall : sharedIdentity ∈ c.targets
        · rw [if_pos hi] at he
          rw [if_pos hall] at he'
          cases he
          cases he'
          exact ⟨cs, c, haccepted, hi, hall, rfl, rfl, rfl⟩
        · -- the one that is new would have been seen among those for all
          rw [if_neg hall] at he'
          exact absurd ⟨sharedIdentity, .inr (.inr rfl), by rw [he']; rfl⟩ (hunseen i hi)
        · -- for all nobody may see it
          rw [if_neg hi] at he
          exact absurd ⟨i, .inl rfl, by rw [he]; rfl⟩ (hunseen sharedIdentity hall)
        · rw [if_neg hi] at he
          rw [if_neg hall] at he'
          obtain ⟨early, c', hold, hplace⟩ := h.agrees i _ e e' he he'
          exact ⟨early, c', hold.append [c], hplace⟩
      · rw [if_neg fun hnew => hk hnew.2] at he he'
        obtain ⟨early, c', hold, hplace⟩ := h.agrees i k e e' he he'
        exact ⟨early, c', hold.append [c], hplace⟩

/-- Every entry can be traced to the registration that it comes from, by induction on the
registrations. -/
theorem traced (cs : List Registration) : Traced cs := by
  induction cs using List.reverseRecOn with
  | nil =>
    constructor
    · intro i k e he
      cases he
    · intro i k e e' he
      cases he
  | append_singleton cs c ih => exact ih.append_singleton c

/-- **What is registered stays.** Behind any registrations, refused ones among them, the next one
succeeds exactly if its name can be one and none of its identities sees it; if it is refused it
changes nothing at all, and if not, it puts its entry under the name in lower case for each of its
identities and leaves everything else as it was. No later registration replaces an entry. So the
entries that are there are those of the registrations that succeeded, and where an identity sees a
name twice, as its own and as one for all, it sees what one registration put in both places. -/
theorem registered_stays (cs : List Registration) (c : Registration) :
    let b := empty.after cs
    let refusal := (b.acceptInPlace c).1
    let b' := (b.acceptInPlace c).2
    b.accept c = refusal.elim (.ok b') .error ∧
      (refusal = none ↔ checkName c.name = .ok () ∧ ∀ i ∈ c.targets, ¬ b.Sees i c.name) ∧
      (refusal ≠ none → b' = b) ∧
      (refusal = none → ∀ i,
        (∀ k, b'.entryOf? i k =
          if i ∈ c.targets ∧ k = Text.lower c.name then some c.entry else b.entryOf? i k) ∧
        (i ∉ c.targets → b'.identities.get? i = b.identities.get? i)) ∧
      (∀ more i k e, b.entryOf? i k = some e → (b.after more).entryOf? i k = some e) ∧
      (∀ i k e, b.entryOf? i k = some e ↔
        ∃ early c, Accepted cs early c ∧ i ∈ c.targets ∧ Text.lower c.name = k ∧ c.entry = e) ∧
      ∀ i k e e', b.entryOf? i k = some e → b.entryOf? sharedIdentity k = some e' →
        ∃ early c, Accepted cs early c ∧ i ∈ c.targets ∧ sharedIdentity ∈ c.targets ∧
          Text.lower c.name = k ∧ c.entry = e ∧ c.entry = e' := by
  intro b refusal b'
  have hstays : ∀ more i k e, b.entryOf? i k = some e → (b.after more).entryOf? i k = some e :=
    fun more i k e he => entryOf?_after more he
  have horigin : ∀ i k e, b.entryOf? i k = some e ↔
      ∃ early c, Accepted cs early c ∧ i ∈ c.targets ∧ Text.lower c.name = k ∧ c.entry = e := by
    intro i k e
    constructor
    · exact (traced cs).origin i k e
    · rintro ⟨early, c, haccepted, hi, rfl, rfl⟩
      exact haccepted.entryOf? hi
  have haccept : b.accept c = refusal.elim (.ok b') .error := by
    unfold refusal b'
    rw [acceptInPlace_eq]
    cases b.accept c <;> rfl
  rcases b.acceptInPlace_cases c with ⟨fault, hc, hnot⟩ | ⟨hc, hyes⟩
  · have hrefusal : refusal = some fault := congrArg Prod.fst hc
    have hb' : b' = b := congrArg Prod.snd hc
    refine ⟨haccept, ?_, fun _ => hb', ?_, hstays, horigin, (traced cs).agrees⟩
    · simp [hrefusal, hnot]
    · simp [hrefusal]
  · have hrefusal : refusal = none := congrArg Prod.fst hc
    have hb' : b' = c.targets.foldl (·.put (Text.lower c.name) c.entry ·) b :=
      congrArg Prod.snd hc
    refine ⟨haccept, ?_, ?_, ?_, hstays, horigin, (traced cs).agrees⟩
    · exact ⟨fun _ => hyes, fun _ => hrefusal⟩
    · intro hsome
      exact absurd hrefusal hsome
    · intro _ i
      rw [hb']
      exact ⟨fun k => entryOf?_foldl_put .., fun hi => get?_foldl_put b _ _ hi⟩

end

/-- A method that is for one identity and for all is refused to another identity in any case, and
what both of the first see of it is one entry. -/
theorem registered_stays_shared :
    let cs : List Registration := [.method "calc, all" (Sample.Gallery.ping "PING")]
    let c : Registration := .method "math" (Sample.Gallery.ping "Ping")
    let b := empty.after cs
    b.acceptInPlace c = (some (.duplicate "all" "Ping"), b) ∧
      ∃ e, b.entryOf? "calc" "ping" = some e ∧ b.entryOf? "all" "ping" = some e ∧
        ∃ early c', Accepted cs early c' ∧ "calc" ∈ c'.targets ∧ "all" ∈ c'.targets ∧
          Text.lower c'.name = "ping" ∧ c'.entry = e := by
  intro cs c b
  obtain ⟨-, -, hrefused, -, -, -, hagrees⟩ := registered_stays cs c
  have hrefusal : (b.acceptInPlace c).1 = some (.duplicate "all" "Ping") := rfl
  have hsame : (b.acceptInPlace c).2 = b := hrefused (hrefusal ▸ Option.some_ne_none _)
  obtain ⟨early, c', haccepted, hcalc, hall, hname, he, -⟩ :=
    hagrees "calc" "ping" ⟨Sample.Gallery.ping "PING", none⟩ ⟨Sample.Gallery.ping "PING", none⟩
      rfl rfl
  exact ⟨Prod.ext hrefusal hsame, _, rfl, rfl, early, c', haccepted, hcalc, hall, hname, he⟩

end Builder

end Switchboard.Registry
