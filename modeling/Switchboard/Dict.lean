/-!
# Sorted dictionaries

Arguments, cookies, headers and namespaces are dictionaries whose entries are shown and sent in
the order of their keys. A dictionary is the list of its entries together with the proof that
their keys increase, so two dictionaries with the same entries are equal and `toList` is the
order in which anything is written.
-/

universe u v

namespace Switchboard

/-- A finite map with its entries in increasing order of their keys. -/
structure Dict (κ : Type u) (α : Type v) [Ord κ] where
  /-- The entries in order. -/
  toList : List (κ × α)
  /-- Each key is below all later ones. -/
  sorted : toList.Pairwise fun a b => compare a.1 b.1 = .lt

namespace Dict

variable {κ : Type u} {α : Type v} [Ord κ]

@[ext] theorem ext {d e : Dict κ α} (h : d.toList = e.toList) : d = e := by
  cases d; cases e; simp_all

instance [DecidableEq κ] [DecidableEq α] : DecidableEq (Dict κ α) := fun d e =>
  decidable_of_iff (d.toList = e.toList) ⟨ext, fun h => h ▸ rfl⟩

/-- The dictionary without entries. -/
def empty : Dict κ α := ⟨[], .nil⟩

instance : EmptyCollection (Dict κ α) := ⟨empty⟩

instance : Inhabited (Dict κ α) := ⟨empty⟩

/-! ## Looking up -/

/-- The value under a key in a list of entries. -/
def lookup (k : κ) : List (κ × α) → Option α
  | [] => none
  | (l, a) :: es => if compare k l = .eq then some a else lookup k es

/-- The value under a key. -/
def get? (d : Dict κ α) (k : κ) : Option α := lookup k d.toList

/-- Whether a key has a value. -/
def contains (d : Dict κ α) (k : κ) : Bool := (d.get? k).isSome

/-- The number of entries. -/
def size (d : Dict κ α) : Nat := d.toList.length

/-- Whether there are no entries. -/
def isEmpty (d : Dict κ α) : Bool := d.toList.isEmpty

/-- The keys in order. -/
def keys (d : Dict κ α) : List κ := d.toList.map Prod.fst

/-- The values in the order of their keys. -/
def values (d : Dict κ α) : List α := d.toList.map Prod.snd

@[simp] theorem toList_empty : (empty : Dict κ α).toList = [] := rfl

@[simp] theorem get?_empty (k : κ) : (empty : Dict κ α).get? k = none := rfl

/-! ## Changing -/

/-- Puts an entry at its place among sorted entries, in place of one with the same key. -/
def place (k : κ) (a : α) : List (κ × α) → List (κ × α)
  | [] => [(k, a)]
  | (l, b) :: es =>
    match compare k l with
    | .lt => (k, a) :: (l, b) :: es
    | .eq => (k, a) :: es
    | .gt => (l, b) :: place k a es

theorem mem_place {k : κ} {a : α} {es : List (κ × α)} {e : κ × α} (h : e ∈ place k a es) :
    e = (k, a) ∨ e ∈ es := by
  induction es with
  | nil => simpa [place] using h
  | cons d es ih =>
    obtain ⟨l, b⟩ := d
    simp only [place] at h
    split at h
    · simpa using h
    · simp only [List.mem_cons] at h ⊢
      exact h.imp_right .inr
    · simp only [List.mem_cons] at h ⊢
      rcases h with h | h
      · exact .inr (.inl h)
      · exact (ih h).imp_right .inr

theorem length_place_le (k : κ) (a : α) (es : List (κ × α)) :
    (place k a es).length ≤ es.length + 1 := by
  induction es with
  | nil => simp [place]
  | cons d es ih =>
    obtain ⟨l, b⟩ := d
    simp only [place]
    split
    · simp
    · simp
    · simp [ih]

variable [Std.TransOrd κ] [Std.LawfulEqOrd κ]

theorem sorted_place {k : κ} {a : α} {es : List (κ × α)}
    (h : es.Pairwise fun a b => compare a.1 b.1 = .lt) :
    (place k a es).Pairwise fun a b => compare a.1 b.1 = .lt := by
  induction es with
  | nil => simp [place]
  | cons d es ih =>
    obtain ⟨l, b⟩ := d
    rw [List.pairwise_cons] at h
    simp only [place]
    split
    · rename_i hlt
      refine List.pairwise_cons.2 ⟨fun e he => ?_, List.pairwise_cons.2 h⟩
      rcases List.mem_cons.1 he with rfl | he
      · exact hlt
      · exact Std.TransCmp.lt_trans hlt (h.1 e he)
    · rename_i heq
      have : k = l := Std.LawfulEqCmp.eq_of_compare heq
      subst this
      exact List.pairwise_cons.2 h
    · rename_i hgt
      refine List.pairwise_cons.2 ⟨fun e he => ?_, ih h.2⟩
      rcases mem_place he with rfl | he
      · exact Std.OrientedCmp.lt_of_gt hgt
      · exact h.1 e he

/-- The dictionary with a value put under a key, whatever was there before. -/
def insert (d : Dict κ α) (k : κ) (a : α) : Dict κ α :=
  ⟨place k a d.toList, sorted_place d.sorted⟩

/-- The dictionary with a value put under a key that had none. -/
def insertIfNew (d : Dict κ α) (k : κ) (a : α) : Dict κ α :=
  if d.contains k then d else d.insert k a

/-- The dictionary without the entry of a key. -/
def erase (d : Dict κ α) (k : κ) : Dict κ α :=
  ⟨d.toList.filter fun e => compare k e.1 != .eq, d.sorted.filter _⟩

/-- The dictionary of a list of entries; of two entries with one key the later one counts. -/
def ofList (es : List (κ × α)) : Dict κ α :=
  es.foldl (fun d e => d.insert e.1 e.2) empty

/-! ## Laws -/

/-- The entries of a dictionary that is made of a list come from the list. -/
theorem mem_of_mem_ofList {es : List (κ × α)} {e : κ × α} (h : e ∈ (ofList es).toList) :
    e ∈ es := by
  have hfold : ∀ (es : List (κ × α)) (d : Dict κ α),
      e ∈ (es.foldl (fun d e => d.insert e.1 e.2) d).toList → e ∈ d.toList ∨ e ∈ es := by
    intro es
    induction es with
    | nil => exact fun d h => .inl h
    | cons e' es ih =>
      intro d h
      rcases ih _ h with h | h
      · exact (mem_place h).elim (fun h => .inr (h ▸ List.mem_cons_self)) .inl
      · exact .inr (List.mem_cons_of_mem _ h)
  exact (hfold es empty h).elim nofun id

theorem lookup_place (k l : κ) (a : α) (es : List (κ × α))
    (h : es.Pairwise fun a b => compare a.1 b.1 = .lt) :
    lookup l (place k a es) = if compare l k = .eq then some a else lookup l es := by
  induction es with
  | nil => simp [place, lookup]
  | cons d es ih =>
    obtain ⟨m, b⟩ := d
    rw [List.pairwise_cons] at h
    simp only [place]
    split
    · simp only [lookup]
    · rename_i heq
      have : k = m := Std.LawfulEqCmp.eq_of_compare heq
      subst this
      simp only [lookup]
      split <;> rfl
    · rename_i hgt
      simp only [lookup, ih h.2]
      by_cases hm : compare l m = .eq
      · have : l = m := Std.LawfulEqCmp.eq_of_compare hm
        subst this
        have : compare l k ≠ .eq := by
          rw [Std.OrientedCmp.lt_of_gt hgt]; decide
        simp [this]
      · simp [hm]

/-- An insertion changes what stands under its own key and nothing else. -/
@[simp] theorem get?_insert (d : Dict κ α) (k l : κ) (a : α) :
    (d.insert k a).get? l = if compare l k = .eq then some a else d.get? l :=
  lookup_place k l a d.toList d.sorted

omit [Std.TransOrd κ] in
/-- Only a key that has an entry has a value, and it is the value of that entry. -/
theorem lookup_eq_some_iff {k : κ} {a : α} {es : List (κ × α)}
    (h : es.Pairwise fun a b => compare a.1 b.1 = .lt) : lookup k es = some a ↔ (k, a) ∈ es := by
  induction es with
  | nil => simp [lookup]
  | cons d es ih =>
    obtain ⟨l, b⟩ := d
    rw [List.pairwise_cons] at h
    simp only [lookup, List.mem_cons, Prod.mk.injEq]
    by_cases hk : k = l
    · subst hk
      have hnot : (k, a) ∉ es := by
        intro he
        have hlt := h.1 (k, a) he
        simp at hlt
      simp [hnot, eq_comm]
    · simp [hk, ih h.2]

omit [Std.TransOrd κ] in
/-- A value under a key is an entry. -/
theorem get?_eq_some_iff {d : Dict κ α} {k : κ} {a : α} :
    d.get? k = some a ↔ (k, a) ∈ d.toList :=
  lookup_eq_some_iff d.sorted

omit [Std.TransOrd κ] in
/-- A key that has no entry need not be taken out. -/
theorem erase_of_get?_eq_none {d : Dict κ α} {k : κ} (h : d.get? k = none) : d.erase k = d := by
  apply ext
  apply List.filter_eq_self.2
  intro e he
  have hne : k ≠ e.1 := by
    intro heq
    have hsome : d.get? k = some e.2 := get?_eq_some_iff.2 (heq ▸ he)
    rw [h] at hsome
    cases hsome
  simpa using hne

omit [Std.TransOrd κ] in
/-- No key has two entries. -/
theorem nodup_keys (d : Dict κ α) : d.keys.Nodup := by
  unfold keys List.Nodup
  rw [List.pairwise_map]
  apply d.sorted.imp
  intro a b hlt heq
  rw [heq] at hlt
  simp at hlt

omit [Std.TransOrd κ] in
theorem filter_place (k : κ) (a : α) (es : List (κ × α)) :
    (place k a es).filter (fun e => compare k e.1 != .eq) =
      es.filter fun e => compare k e.1 != .eq := by
  induction es with
  | nil => simp [place]
  | cons d es ih =>
    obtain ⟨l, b⟩ := d
    simp only [place]
    split
    · simp
    · rename_i heq
      simp [heq]
    · simp only [List.filter_cons, ih]

/-- Of an entry that is put in and taken out nothing is left. -/
theorem erase_insert (d : Dict κ α) (k : κ) (a : α) : (d.insert k a).erase k = d.erase k :=
  ext (filter_place k a d.toList)

omit [Std.TransOrd κ] [Std.LawfulEqOrd κ] in
/-- What has been taken out once is not there a second time. -/
@[simp] theorem erase_erase (d : Dict κ α) (k : κ) : (d.erase k).erase k = d.erase k :=
  ext (by simp [erase])

omit [Std.LawfulEqOrd κ] in
/-- An entry above all others goes to the end. -/
theorem place_of_above {k : κ} {a : α} {es : List (κ × α)}
    (h : ∀ e ∈ es, compare e.1 k = .lt) : place k a es = es ++ [(k, a)] := by
  induction es with
  | nil => rfl
  | cons d es ih =>
    obtain ⟨l, b⟩ := d
    have hk : compare k l = .gt := Std.OrientedCmp.gt_of_lt (h (l, b) (by simp))
    simp only [place, hk, List.cons_append, List.cons.injEq, true_and]
    exact ih fun e he => h e (by simp [he])

/-- Insertions in increasing order of the keys list the entries as they come. -/
theorem toList_foldl_insert (d : Dict κ α) (es : List (κ × α))
    (h : (d.toList ++ es).Pairwise fun a b => compare a.1 b.1 = .lt) :
    (es.foldl (fun d e => d.insert e.1 e.2) d).toList = d.toList ++ es := by
  induction es generalizing d with
  | nil => simp
  | cons e es ih =>
    have hall := List.pairwise_append.1 h
    have hplace : (d.insert e.1 e.2).toList = d.toList ++ [e] :=
      place_of_above fun e' he' => hall.2.2 e' he' e (by simp)
    rw [List.foldl_cons, ih]
    · rw [hplace, List.append_assoc]; rfl
    · rw [hplace, List.append_assoc]; exact h

/-- A dictionary is recovered from the list of its entries. -/
theorem ofList_toList (d : Dict κ α) : ofList d.toList = d :=
  ext (toList_foldl_insert empty d.toList d.sorted)

end Dict

end Switchboard
