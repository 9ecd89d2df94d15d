import Mathlib.Algebra.GroupWithZero.Nat
import Mathlib.Data.List.Nodup
import Switchboard.Dict

/-!
# Tables

A dictionary that lists what is open changes by one entry at a time: an entry comes to the end, is
replaced, or is taken out. Here it is told what each of these does to the keys and to a sum over the
values, and what is found where one dictionary is laid over another.
-/

namespace Switchboard.Dict

variable {κ : Type u} {α : Type v} [Ord κ] [Std.TransOrd κ] [Std.LawfulEqOrd κ] {d : Dict κ α}
  {k l : κ} {a : α}

/-- A dictionary is settled by what is under its keys. -/
theorem ext_get? {e : Dict κ α} (h : ∀ k, d.get? k = e.get? k) : d = e := by
  have hmem : ∀ x, x ∈ d.toList ↔ x ∈ e.toList := by
    rintro ⟨k, a⟩
    rw [← get?_eq_some_iff, ← get?_eq_some_iff, h]
  have hperm : d.toList.Perm e.toList :=
    (List.perm_ext_iff_of_nodup (List.Nodup.of_map Prod.fst d.nodup_keys)
      (List.Nodup.of_map Prod.fst e.nodup_keys)).2 hmem
  apply ext
  refine hperm.eq_of_pairwise (fun x y _ _ hxy hyx => ?_) d.sorted e.sorted
  have hlt := Std.TransCmp.lt_trans hxy hyx
  simp at hlt

/-! ## Keys -/

omit [Std.TransOrd κ] in
theorem mem_keys_iff : k ∈ d.keys ↔ ∃ a, d.get? k = some a := by
  unfold keys
  rw [List.mem_map]
  constructor
  · rintro ⟨⟨l, a⟩, he, rfl⟩
    exact ⟨a, get?_eq_some_iff.2 he⟩
  · rintro ⟨a, ha⟩
    exact ⟨(k, a), get?_eq_some_iff.1 ha, rfl⟩

omit [Std.TransOrd κ] in
theorem not_mem_keys_iff : k ∉ d.keys ↔ d.get? k = none := by
  rw [mem_keys_iff, Option.eq_none_iff_forall_ne_some]
  exact not_exists

omit [Std.TransOrd κ] in
/-- An entry that is taken out is gone, and all others stay. -/
@[simp] theorem get?_erase (d : Dict κ α) (k l : κ) :
    (d.erase k).get? l = if compare l k = .eq then none else d.get? l := by
  have hmem : ∀ a, (d.erase k).get? l = some a ↔ d.get? l = some a ∧ k ≠ l := by
    intro a
    rw [get?_eq_some_iff, get?_eq_some_iff]
    simp [erase, List.mem_filter]
  ext a
  rw [hmem]
  by_cases hk : l = k
  · simp [hk]
  · simp [hk, Ne.symm hk]

omit [Std.TransOrd κ] in
/-- Erasing keys leaves the others as they are. -/
theorem get?_foldl_erase (d : Dict κ α) (ks : List κ) (l : κ) (h : l ∉ ks) :
    (ks.foldl erase d).get? l = d.get? l := by
  induction ks generalizing d with
  | nil => rfl
  | cons k ks ih =>
    rw [List.mem_cons, not_or] at h
    rw [List.foldl_cons, ih _ h.2, get?_erase]
    simp [h.1]

omit [Std.TransOrd κ] in
/-- A key that is erased is gone, and the others keep their order. -/
theorem keys_erase [DecidableEq κ] (d : Dict κ α) (k : κ) :
    (d.erase k).keys = d.keys.filter (· ≠ k) := by
  unfold keys erase
  rw [List.filter_map]
  congr 1
  apply List.filter_congr
  intro e he
  rw [Bool.eq_iff_iff, bne_iff_ne, Function.comp_apply, decide_eq_true_iff, ne_eq, ne_eq,
    Std.LawfulEqCmp.compare_eq_iff_eq, eq_comm]

omit [Std.TransOrd κ] in
theorem keys_foldl_erase [DecidableEq κ] (d : Dict κ α) (ks : List κ) :
    (ks.foldl erase d).keys = d.keys.filter (· ∉ ks) := by
  induction ks generalizing d with
  | nil => simp
  | cons k ks ih =>
    rw [List.foldl_cons, ih, keys_erase, List.filter_filter]
    apply List.filter_congr
    intro l hl
    simp [Bool.and_comm]

/-- A key that is there keeps its place. -/
theorem place_keys_of_mem {es : List (κ × α)} (h : es.Pairwise fun a b => compare a.1 b.1 = .lt)
    (hk : k ∈ es.map Prod.fst) (a : α) : (place k a es).map Prod.fst = es.map Prod.fst := by
  induction es with
  | nil => cases hk
  | cons e es ih =>
    obtain ⟨l, b⟩ := e
    rw [List.pairwise_cons] at h
    simp only [place]
    cases hcmp : compare k l with
    | lt =>
      -- then the key is below all others and can be none of them
      obtain ⟨e, he, rfl⟩ := List.mem_map.1 hk
      rcases List.mem_cons.1 he with rfl | he
      · simp at hcmp
      · have hlt := Std.TransCmp.lt_trans hcmp (h.1 e he)
        simp at hlt
    | eq =>
      have heq : k = l := Std.LawfulEqCmp.eq_of_compare hcmp
      rw [heq]
      rfl
    | gt =>
      have hrest : k ∈ es.map Prod.fst := by
        rcases List.mem_cons.1 hk with heq | hrest
        · rw [heq] at hcmp
          simp at hcmp
        · exact hrest
      rw [List.map_cons, List.map_cons, ih h.2 hrest]

/-- An entry that is replaced keeps its place. -/
theorem keys_insert_of_mem (hk : k ∈ d.keys) (a : α) : (d.insert k a).keys = d.keys :=
  place_keys_of_mem d.sorted hk a

/-- An entry above all others goes to the end. -/
theorem keys_insert_of_above (h : ∀ l ∈ d.keys, compare l k = .lt) (a : α) :
    (d.insert k a).keys = d.keys ++ [k] := by
  have hplace : (d.insert k a).toList = d.toList ++ [(k, a)] :=
    place_of_above fun e he => h e.1 (List.mem_map_of_mem he)
  unfold keys
  rw [hplace, List.map_append]
  rfl

/-! ## One dictionary over another -/

section

omit [Std.TransOrd κ] [Std.LawfulEqOrd κ]

theorem lookup_append (k : κ) (es es' : List (κ × α)) :
    lookup k (es ++ es') = (lookup k es).or (lookup k es') := by
  induction es with
  | nil => rfl
  | cons e es ih =>
    obtain ⟨l, a⟩ := e
    rw [List.cons_append, lookup, lookup, ih]
    split <;> rfl

end

/-- Of entries with one key the last one counts, and before it what was there. -/
theorem get?_foldl_insert (d : Dict κ α) (es : List (κ × α)) (k : κ) :
    (es.foldl (fun d e => d.insert e.1 e.2) d).get? k = (lookup k es.reverse).or (d.get? k) := by
  induction es generalizing d with
  | nil => rfl
  | cons e es ih =>
    obtain ⟨l, a⟩ := e
    rw [List.foldl_cons, ih, get?_insert, List.reverse_cons, lookup_append, Option.or_assoc, lookup]
    split <;> rfl

theorem get?_ofList (es : List (κ × α)) (k : κ) : (ofList es).get? k = lookup k es.reverse := by
  have hfold := get?_foldl_insert empty es k
  rwa [get?_empty, Option.or_none] at hfold

omit [Std.TransOrd κ] in
theorem lookup_eq_none_iff {es : List (κ × α)} : lookup k es = none ↔ ∀ e ∈ es, e.1 ≠ k := by
  induction es with
  | nil => simp [lookup]
  | cons e es ih =>
    rw [lookup, List.forall_mem_cons]
    by_cases hk : k = e.1
    · simp [hk]
    · simp [hk, Ne.symm hk, ih]

/-- A key is missing exactly if no entry has it. -/
theorem get?_ofList_eq_none_iff {es : List (κ × α)} :
    (ofList es).get? k = none ↔ ∀ e ∈ es, e.1 ≠ k := by
  rw [get?_ofList, lookup_eq_none_iff]
  exact forall_congr' fun e => by rw [List.mem_reverse]

/-- Of two lists in a row the later one counts. -/
theorem get?_ofList_append (es es' : List (κ × α)) (k : κ) :
    (ofList (es ++ es')).get? k = ((ofList es').get? k).or ((ofList es).get? k) := by
  rw [get?_ofList, get?_ofList, get?_ofList, List.reverse_append, lookup_append]

omit [Std.TransOrd κ] in
/-- The first entry of a key is the one that is found. -/
theorem lookup_eq_some_iff_append (k : κ) (a : α) (es : List (κ × α)) :
    lookup k es = some a ↔
      ∃ before after, es = before ++ (k, a) :: after ∧ ∀ e ∈ before, e.1 ≠ k := by
  induction es with
  | nil => simp [lookup]
  | cons e es ih =>
    obtain ⟨l, b⟩ := e
    rw [lookup]
    by_cases hk : k = l
    · subst hk
      rw [if_pos Std.ReflCmp.compare_self, Option.some.injEq]
      constructor
      · rintro rfl
        exact ⟨[], es, rfl, fun e he => absurd he List.not_mem_nil⟩
      · rintro ⟨before, after, heq, hbefore⟩
        rcases List.cons_eq_append_iff.1 heq with ⟨-, hafter⟩ | ⟨before', rfl, -⟩
        · cases hafter
          rfl
        · exact absurd rfl (hbefore _ List.mem_cons_self)
    · rw [if_neg (mt Std.LawfulEqCmp.eq_of_compare hk), ih]
      constructor
      · rintro ⟨before, after, rfl, hbefore⟩
        exact ⟨(l, b) :: before, after, rfl, List.forall_mem_cons.2 ⟨Ne.symm hk, hbefore⟩⟩
      · rintro ⟨before, after, heq, hbefore⟩
        rcases List.cons_eq_append_iff.1 heq with ⟨-, hafter⟩ | ⟨before', rfl, hes⟩
        · cases hafter
          exact absurd rfl hk
        · exact ⟨before', after, hes, fun e he => hbefore e (List.mem_cons_of_mem _ he)⟩

/-- The last entry of a key is the one that counts in a dictionary. -/
theorem get?_ofList_eq_some_iff (es : List (κ × α)) (k : κ) (a : α) :
    (ofList es).get? k = some a ↔
      ∃ before after, es = before ++ (k, a) :: after ∧ ∀ e ∈ after, e.1 ≠ k := by
  rw [get?_ofList, lookup_eq_some_iff_append]
  constructor
  · rintro ⟨before, after, heq, hbefore⟩
    refine ⟨after.reverse, before.reverse, ?_, fun e he => hbefore e (List.mem_reverse.1 he)⟩
    rw [← List.reverse_reverse es, heq, List.reverse_append, List.reverse_cons, List.append_assoc]
    rfl
  · rintro ⟨before, after, rfl, hafter⟩
    refine ⟨after.reverse, before.reverse, ?_, fun e he => hafter e (List.mem_reverse.1 he)⟩
    rw [List.reverse_append, List.reverse_cons, List.append_assoc]
    rfl

/-- What is there stays. -/
theorem get?_insertIfNew (d : Dict κ α) (k l : κ) (a : α) :
    (d.insertIfNew k a).get? l = (d.get? l).or (if compare l k = .eq then some a else none) := by
  unfold insertIfNew contains
  cases hk : d.get? k with
  | none =>
    rw [Option.isSome_none, if_neg Bool.false_ne_true, get?_insert]
    by_cases hl : l = k
    · simp [hl, hk]
    · simp [hl]
  | some b =>
    rw [Option.isSome_some, if_pos rfl]
    by_cases hl : l = k
    · simp [hl, hk]
    · simp [hl]

/-- What is there already counts, and of the entries that are new the first one does. -/
theorem get?_foldl_insertIfNew (d : Dict κ α) (es : List (κ × α)) (k : κ) :
    (es.foldl (fun d e => d.insertIfNew e.1 e.2) d).get? k = (d.get? k).or (lookup k es) := by
  induction es generalizing d with
  | nil => exact (Option.or_none ..).symm
  | cons e es ih =>
    obtain ⟨l, a⟩ := e
    rw [List.foldl_cons, ih, get?_insertIfNew, Option.or_assoc, lookup]
    split <;> rfl

/-! ## Sums over the values -/

/-- A sum over the values changes with an insertion by the new value and the old one. -/
theorem sum_place (f : α → Nat) {k : κ} {a : α} {es : List (κ × α)}
    (h : es.Pairwise fun a b => compare a.1 b.1 = .lt) :
    ((place k a es).map fun e => f e.2).sum + (lookup k es).elim 0 f =
      (es.map fun e => f e.2).sum + f a := by
  induction es with
  | nil => simp [place, lookup]
  | cons d es ih =>
    obtain ⟨l, b⟩ := d
    rw [List.pairwise_cons] at h
    simp only [place, lookup]
    cases hcmp : compare k l with
    | lt =>
      have hnone : lookup k es = none := by
        rw [Option.eq_none_iff_forall_ne_some]
        intro c hc
        have hlt := Std.TransCmp.lt_trans hcmp (h.1 _ ((lookup_eq_some_iff h.2).1 hc))
        simp at hlt
      simp [hnone]
      omega
    | eq =>
      simp
      omega
    | gt =>
      have hrest := ih h.2
      simp at hrest ⊢
      omega

/-- A sum over the values changes by the value that comes and the one that goes. -/
theorem sum_values_insert (f : α → Nat) (d : Dict κ α) (k : κ) (a : α) :
    ((d.insert k a).values.map f).sum + (d.get? k).elim 0 f = (d.values.map f).sum + f a := by
  have h := sum_place f (k := k) (a := a) d.sorted
  simpa [values, insert, get?, List.map_map, Function.comp_def] using h

/-- Whatever is put in the place of an entry that is taken out, the rest is the same. -/
theorem sum_values_erase (f : α → Nat) (d : Dict κ α) (k : κ) :
    ((d.erase k).values.map f).sum + (d.get? k).elim 0 f = (d.values.map f).sum := by
  cases hget : d.get? k with
  | none => rw [erase_of_get?_eq_none hget, Option.elim_none, Nat.add_zero]
  | some a =>
    -- the entry could be put back, and that is an insertion
    have hback : (d.erase k).insert k a = d := by
      apply ext_get?
      intro l
      rw [get?_insert, get?_erase]
      by_cases hl : l = k
      · simp [hl, hget]
      · simp [hl]
    have hsum := sum_values_insert f (d.erase k) k a
    rw [hback] at hsum
    simpa using hsum.symm

/-! ## Values of a kind -/

theorem sum_map_toNat (p : α → Bool) (as : List α) :
    (as.map fun a => (p a).toNat).sum = as.countP p := by
  induction as with
  | nil => rfl
  | cons a as ih =>
    rw [List.map_cons, List.sum_cons, ih, List.countP_cons]
    cases p a with
    | true => exact Nat.add_comm _ _
    | false => exact Nat.zero_add _

/-- The number of values of a kind changes in the same way. -/
theorem countP_values_insert (p : α → Bool) (d : Dict κ α) (k : κ) (a : α) :
    (d.insert k a).values.countP p + (d.get? k).elim 0 (fun b => (p b).toNat) =
      d.values.countP p + (p a).toNat := by
  rw [← sum_map_toNat, ← sum_map_toNat]
  exact sum_values_insert _ d k a

theorem countP_values_erase (p : α → Bool) (d : Dict κ α) (k : κ) :
    (d.erase k).values.countP p + (d.get? k).elim 0 (fun b => (p b).toNat) =
      d.values.countP p := by
  rw [← sum_map_toNat, ← sum_map_toNat]
  exact sum_values_erase _ d k

end Switchboard.Dict
