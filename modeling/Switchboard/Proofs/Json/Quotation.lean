import Switchboard.Proofs.Json.Values

/-!
# No text quotes itself

A string takes at least as many bytes as it says, and two quotes more. So whatever text stands in a
value, be it the value itself or a member of it, is shorter than the text that says the value
(`length_lt_of_holds`); in particular no text says an object of which it is a member. `Ensures` says
of a reader what holds wherever it succeeds, and each part of the reader of values gets one lemma
about the bytes that it leaves.
-/

namespace Switchboard

namespace Utf8

/-- No character takes more than four bytes. -/
theorem length_encodeChar_le (c : Char) : (encodeChar c).length ≤ 4 := by
  unfold encodeChar
  dsimp only
  split
  · exact Nat.le_add_left 1 3
  · split
    · exact Nat.le_add_left 2 2
    · split
      · exact Nat.le_add_left 3 1
      · exact Nat.le_refl 4

end Utf8

namespace Json

namespace Reader

variable {α β σ : Type} {r : Reader α} {f : α → Reader β} {a : α} {bs : Bytes}
  {P : α → Bytes → Prop} {Q : β → Bytes → Prop}

/-! ## What holds wherever a reader succeeds -/

/-- Whatever a reader makes of the bytes to come, it fits what it leaves of them. -/
def Ensures (r : Reader α) (bs : Bytes) (P : α → Bytes → Prop) : Prop :=
  ∀ n a c, r ⟨n, bs⟩ = (.ok a, c) → P a c.rest

theorem ensures_pure (h : P a bs) : Ensures (pure a) bs P := by
  rintro n b c heq
  cases heq
  exact h

/-- What the first reader ensures is what the second one may rely on. -/
theorem Ensures.bind (h : Ensures r bs P) (h' : ∀ a rest, P a rest → Ensures (f a) rest Q) :
    Ensures (r >>= f) bs Q := by
  intro n b c heq
  rw [bind_eq] at heq
  rcases hrun : r ⟨n, bs⟩ with ⟨e | a, mid⟩
  · rw [hrun] at heq
    cases heq
  · rw [hrun] at heq
    exact h' a mid.rest (h n a mid hrun) mid.taken b c heq

/-- What is ensured may be said more weakly. -/
theorem Ensures.mono {P' : α → Bytes → Prop} (h : Ensures r bs P)
    (hle : ∀ a rest, P a rest → P' a rest) : Ensures r bs P' :=
  fun n a c heq => hle a c.rest (h n a c heq)

/-- On either side of a choice its condition is known. -/
theorem ensures_ite {c : Prop} [Decidable c] {r' : Reader α} (h : c → Ensures r bs P)
    (h' : ¬c → Ensures r' bs P) : Ensures (if c then r else r') bs P := by
  split
  · exact h ‹_›
  · exact h' ‹_›

/-- A reader that stops ensures anything, as it never succeeds. -/
theorem ensures_stopHere (cause : Cause) : Ensures (stopHere cause) bs P := by
  intro n a c heq
  cases heq

theorem ensures_stopAhead (cause : Cause) : Ensures (stopAhead cause) bs P := by
  intro n a c heq
  cases heq

theorem ensures_peek : Ensures peek bs fun b rest => b = bs.head? ∧ rest = bs := by
  intro n a c heq
  cases heq
  exact ⟨rfl, rfl⟩

/-- A byte that is taken is the first of those that were there, unless there were none. -/
theorem ensures_next : Ensures next bs fun b rest => bs = b.toList ++ rest := by
  intro n a c heq
  cases bs with
  | nil =>
    cases heq
    rfl
  | cons b bs =>
    cases heq
    rfl

theorem ensures_skip {x : UInt8} : Ensures skip (x :: bs) fun _ rest => rest = bs := by
  intro n a c heq
  cases heq
  rfl

/-- A run of bytes ends in front of the first one that is not wanted. -/
theorem ensures_takeWhile (p : UInt8 → Bool) :
    Ensures (takeWhile p) bs fun run rest => run = bs.takeWhile p ∧ rest = bs.dropWhile p := by
  intro n a c heq
  cases heq
  exact ⟨rfl, rfl⟩

/-- A repetition preserves what every step preserves. -/
theorem ensures_repeatAlong {step : σ → Reader (σ ⊕ α)} {I : σ → Bytes → Prop}
    (hstep : ∀ s bs, I s bs → Ensures (step s) bs fun next rest =>
      next.elim (fun s => I s rest) fun a => P a rest)
    (bound : Bytes) {s : σ} (hs : I s bs) : Ensures (repeatAlong step bound s) bs P := by
  induction bound generalizing s bs with
  | nil =>
    rw [repeatAlong]
    refine (hstep s bs hs).bind fun next rest hnext => ?_
    cases next with
    | inl s => exact ensures_stopAhead _
    | inr a => exact ensures_pure hnext
  | cons b bound ih =>
    rw [repeatAlong]
    refine (hstep s bs hs).bind fun next rest hnext => ?_
    cases next with
    | inl s => exact ih hnext
    | inr a => exact ensures_pure hnext

/-- What every step preserves, and turns into `P` when it is the last one, leads a loop from the
invariant to `P`. -/
theorem ensures_iterate {step : σ → Reader (σ ⊕ α)} {I : σ → Bytes → Prop}
    (hstep : ∀ s bs, I s bs → Ensures (step s) bs fun next rest =>
      next.elim (fun s => I s rest) fun a => P a rest)
    {s : σ} (hs : I s bs) : Ensures (iterate step s) bs P :=
  fun n => ensures_repeatAlong hstep bs hs n

/-! ## Readers that put nothing back -/

/-- No more bytes are to come than before. -/
def Forward (r : Reader α) : Prop := ∀ bs, Ensures r bs fun _ rest => rest.length ≤ bs.length

namespace Forward

theorem pure (a : α) : Forward (pure a) := fun _ => ensures_pure (Nat.le_refl _)

/-- Two readers that put nothing back put nothing back one after the other. -/
theorem bind (h : Forward r) (hf : ∀ a, Forward (f a)) : Forward (r >>= f) :=
  fun bs => (h bs).bind fun a mid hmid =>
    (hf a mid).mono fun _ _ hrest => Nat.le_trans hrest hmid

/-- A choice between readers that put nothing back is one. -/
theorem ite {c : Prop} [Decidable c] {r' : Reader α} (h : Forward r) (h' : Forward r') :
    Forward (if c then r else r') :=
  fun bs => ensures_ite (fun _ => h bs) fun _ => h' bs

theorem stopHere (cause : Cause) : Forward (stopHere cause : Reader α) :=
  fun _ => ensures_stopHere cause

theorem stopAhead (cause : Cause) : Forward (stopAhead cause : Reader α) :=
  fun _ => ensures_stopAhead cause

theorem peek : Forward peek := fun _ => ensures_peek.mono fun _ _ h => Nat.le_of_eq (by rw [h.2])

theorem next : Forward next := fun bs => ensures_next.mono fun b rest h => by
  rw [h, List.length_append]
  exact Nat.le_add_left _ _

theorem skip : Forward skip := next.bind fun _ => pure _

/-- A run of bytes is taken from those that are there. -/
theorem takeWhile (p : UInt8 → Bool) : Forward (takeWhile p) :=
  fun bs => (ensures_takeWhile p).mono fun _ _ h => by
    rw [h.2]
    exact (List.dropWhile_suffix p).length_le

theorem peekPastBlanks : Forward peekPastBlanks := (takeWhile _).bind fun _ => peek

/-- A loop puts nothing back if no step of it does. -/
theorem iterate {step : σ → Reader (σ ⊕ α)} (h : ∀ s, Forward (step s)) (s : σ) :
    Forward (iterate step s) := by
  intro bs
  refine ensures_iterate (I := fun _ mid => mid.length ≤ bs.length) (fun s mid hmid => ?_)
    (Nat.le_refl _)
  refine (h s mid).mono fun next rest hrest => ?_
  cases next with
  | inl s => exact Nat.le_trans hrest hmid
  | inr a => exact Nat.le_trans hrest hmid

/-- A walk along a list puts nothing back if no step of it does. -/
theorem forIn {step : α → β → Reader (ForInStep β)} (h : ∀ a b, Forward (step a b)) (as : List α)
    (b : β) : Forward (forIn as b step) := by
  induction as generalizing b with
  | nil => exact pure b
  | cons a as ih =>
    rw [List.forIn_cons]
    refine (h a b).bind fun next => ?_
    cases next with
    | done b => exact pure b
    | yield b => exact ih b

theorem first : Forward first := by
  refine peekPastBlanks.bind fun b => ?_
  cases b with
  | none => exact stopAhead _
  | some b => exact pure b

/-- A word is taken byte by byte, as far as it is the one that is meant. -/
theorem restOfWord (word : List UInt8) : Forward (restOfWord word) := by
  induction word with
  | nil => exact pure ()
  | cons expected more ih =>
    refine next.bind fun b => ?_
    cases b with
    | none => exact stopHere _
    | some b => exact .ite ih (stopHere _)

theorem word (word : List UInt8) : Forward (do Reader.skip; Reader.restOfWord word) :=
  skip.bind fun _ => restOfWord word

/-- The digits of a number are taken, and what follows them is only looked at. -/
theorem natural : Forward natural := by
  refine (takeWhile _).bind fun run => .ite (stopAhead _) ?_
  split
  · exact pure _
  · exact stopAhead _

/-- A number is taken with its sign. -/
theorem wholeNumber : Forward wholeNumber := by
  refine peek.bind fun b => ?_
  split
  · exact skip.bind fun _ => natural.bind fun n => pure _
  · exact natural.bind fun n => pure _

/-- Whether an item follows is seen from the next byte that is not blank, and at most the comma is
taken. -/
theorem anotherItem (started : Bool) : Forward (anotherItem started) := by
  refine peekPastBlanks.bind fun b => ?_
  cases b with
  | none => exact stopAhead _
  | some b =>
    refine .ite (pure _) (.ite (skip.bind fun _ => peekPastBlanks.bind fun b => ?_)
      (.ite (stopAhead _) (pure _)))
    cases b with
    | none => exact stopAhead _
    | some b => exact .ite (stopAhead _) (pure _)

/-- Whether a member follows is seen as it is for an item. -/
theorem anotherMember (started : Bool) : Forward (anotherMember started) := by
  refine peekPastBlanks.bind fun b => ?_
  cases b with
  | none => exact stopAhead _
  | some b =>
    refine .ite (pure _) (.ite (skip.bind fun _ => peekPastBlanks.bind fun b => ?_)
      (.ite (stopAhead _) (.ite (pure _) (stopAhead _))))
    cases b with
    | none => exact stopAhead _
    | some b => exact .ite (pure _) (.ite (stopAhead _) (stopAhead _))

/-- The end of a list is a bracket, which is taken if it is there. -/
theorem listEnd : Forward listEnd := by
  refine peekPastBlanks.bind fun b => ?_
  cases b with
  | none => exact stopAhead _
  | some b =>
    refine .ite skip (.ite (skip.bind fun _ => peekPastBlanks.bind fun b => ?_) (stopAhead _))
    split
    · exact stopAhead _
    · exact stopAhead _

/-- The end of an object is a brace, which is taken if it is there. -/
theorem objectEnd : Forward objectEnd := by
  refine peekPastBlanks.bind fun b => ?_
  cases b with
  | none => exact stopAhead _
  | some b => exact .ite skip (.ite (stopAhead _) (stopAhead _))

theorem colon : Forward colon := by
  refine peekPastBlanks.bind fun b => ?_
  split
  · exact skip
  · exact stopAhead _
  · exact stopAhead _

end Forward

/-- What a body leaves, its closing bracket does not put back. -/
theorem ensures_bracketed {close : Reader Unit}
    (h : ∀ mid, mid.length ≤ bs.length → Ensures r mid fun a rest =>
      ∀ last, last.length ≤ rest.length → P a last)
    (hclose : Forward close) : Ensures (bracketed r close) bs P := by
  intro n a c heq
  have hbody : Ensures (skip >>= fun _ => r) bs fun a rest =>
      ∀ last, last.length ≤ rest.length → P a last :=
    (Forward.skip bs).bind fun _ mid hmid => h mid hmid
  unfold bracketed at heq
  rcases hrun : (skip >>= fun _ => r) ⟨n, bs⟩ with ⟨e | b, mid⟩
  · rw [hrun] at heq
    cases heq
  · rw [hrun] at heq
    dsimp only at heq
    rcases hend : close mid with ⟨e | u, last⟩
    · rw [hend] at heq
      cases heq
    · rw [hend] at heq
      cases heq
      exact hbody n a mid hrun _ (hclose mid.rest mid.taken u c hend)

/-! ## Strings -/

/-- The number of a character takes four digits. -/
theorem ensures_hexEscape : Ensures hexEscape bs fun _ rest => rest.length + 4 = bs.length := by
  intro n a c heq
  unfold hexEscape at heq
  dsimp only at heq
  split at heq
  · split at heq
    · cases heq
      rfl
    · cases heq
  · cases heq

/-- A character that is written as a number, or as two, becomes at most four bytes. -/
theorem ensures_characterPair (unit : Nat) : Ensures (characterPair unit) bs fun piece rest =>
    piece.length ≤ 4 ∧ rest.length ≤ bs.length := by
  refine ensures_ite (fun _ => ensures_stopHere _) fun _ => ensures_ite
    (fun _ => ensures_pure ⟨Utf8.length_encodeChar_le _, Nat.le_refl _⟩) fun _ => ?_
  refine (Forward.forIn (fun expected _ => Forward.peek.bind fun b => ?_) _ _ bs).bind
    fun _ mid hmid => ensures_hexEscape.bind fun second rest hrest => ensures_ite
      (fun _ => ensures_pure ⟨Utf8.length_encodeChar_le _, by omega⟩) fun _ => ensures_stopHere _
  cases b with
  | none => exact .bind (.stopHere _) fun _ => .pure _
  | some b => exact Forward.skip.bind fun _ => .ite (.bind (.stopHere _) fun _ => .pure _) (.pure _)

/-- An escape takes at least as many bytes as it stands for. -/
theorem ensures_escape : Ensures (escape .characters) bs fun piece rest =>
    piece.length + rest.length ≤ bs.length := by
  refine ensures_next.bind fun b mid hmid => ?_
  cases b with
  | none => exact ensures_stopHere _
  | some b =>
    have hlength : bs.length = mid.length + 1 := congrArg List.length hmid
    have hletter (letter : UInt8) : Ensures (pure [letter]) mid fun piece rest =>
        piece.length + rest.length ≤ bs.length := by
      refine ensures_pure ?_
      rw [List.length_singleton]
      omega
    refine ensures_ite (fun _ => hletter b) fun _ => ensures_ite (fun _ => hletter 0x08) fun _ =>
      ensures_ite (fun _ => hletter 0x0C) fun _ => ensures_ite (fun _ => hletter 0x0A) fun _ =>
      ensures_ite (fun _ => hletter 0x0D) fun _ => ensures_ite (fun _ => hletter 0x09) fun _ =>
      ensures_ite (fun _ => ?_) fun _ => ensures_stopHere _
    refine ensures_hexEscape.bind fun unit rest hrest =>
      (ensures_characterPair unit).mono fun piece last hpiece => ?_
    omega

/-- A string takes at least as many bytes as it says, and its closing quote. -/
theorem ensures_stringBody : Ensures (stringBody .characters) bs fun said rest =>
    said.length + rest.length < bs.length := by
  refine ensures_iterate
    (I := fun pieces mid => pieces.reverse.flatten.length + mid.length ≤ bs.length) ?_
    (Nat.le_of_eq (Nat.zero_add _))
  intro pieces mid hpieces
  refine (ensures_takeWhile _).bind ?_
  rintro plain rest ⟨hplain, hrest⟩
  have hrun : plain.length + rest.length = mid.length := by
    rw [hplain, hrest, ← List.length_append, List.takeWhile_append_dropWhile]
  have hflat (piece : Bytes) (pieces : List Bytes) : (piece :: pieces).reverse.flatten.length =
      pieces.reverse.flatten.length + piece.length := by
    rw [List.reverse_cons, List.flatten_append, List.flatten_singleton, List.length_append]
  refine ensures_peek.bind ?_
  rintro b _ ⟨hb, rfl⟩
  split
  · exact ensures_stopHere _
  · obtain ⟨last, rfl⟩ := List.head?_eq_some_iff.1 hb.symm
    rw [List.length_cons] at hrun
    refine ensures_skip.bind ?_
    rintro _ _ rfl
    refine ensures_pure ?_
    show (plain :: pieces).reverse.flatten.length + _ < _
    rw [hflat]
    omega
  · obtain ⟨more, rfl⟩ := List.head?_eq_some_iff.1 hb.symm
    rw [List.length_cons] at hrun
    refine ensures_skip.bind ?_
    rintro _ _ rfl
    refine ensures_escape.bind fun piece rest hpiece => ensures_pure ?_
    show (piece :: plain :: pieces).reverse.flatten.length + _ ≤ _
    rw [hflat, hflat]
    omega
  · exact ensures_ite (fun _ => (Forward.skip _).bind fun _ _ _ => ensures_stopHere _)
      fun _ => ensures_stopHere _

/-- A text puts nothing back. -/
theorem forward_text : Forward text := fun _ =>
  (ensures_stringBody.mono fun _ _ h => Nat.le_trans (Nat.le_add_left _ _) (Nat.le_of_lt h)).bind
    fun _ _ h => ensures_pure h

/-- Up to the closing quote a text takes at least as many bytes as it says, and the quote. -/
theorem ensures_characters : Ensures characters bs fun s rest =>
    (Utf8.ofString s).length + rest.length < bs.length := by
  refine ensures_stringBody.bind fun said rest hsaid => ?_
  split
  · rename_i s hs
    refine ensures_pure ?_
    rw [Utf8.ofString_of_toString? hs]
    exact hsaid
  · exact ensures_stopHere _

/-! ## Values -/

end Reader

/-- Whether a text stands in a value: it is the value, or that of a member. -/
def Holds (s : String) : Json → Prop
  | .text t => t = s
  | .object members => ∃ name, (name, .text s) ∈ members
  | _ => False

namespace Reader

/-- What so many bytes say takes no more of them than are gone, and more than any text that stands
in it. -/
def Covers (n : Nat) (j : Json) (rest : Bytes) : Prop :=
  rest.length ≤ n ∧ ∀ s, j.Holds s → (Utf8.ofString s).length + rest.length < n

/-- What is read may leave less behind it, and begin earlier. -/
theorem Covers.mono {n n' : Nat} {j : Json} {mid rest : Bytes} (h : Covers n j mid)
    (hrest : rest.length ≤ mid.length) (hn : n ≤ n') : Covers n' j rest := by
  refine ⟨by have hmid := h.1; omega, fun s hs => ?_⟩
  have hmid := h.2 s hs
  omega

/-- One more member, whose value is read behind the others. -/
theorem Covers.member {n k : Nat} {found : List (String × Json)} {name : String} {v : Json}
    {mid rest : Bytes} (hfound : Covers n (.object found) mid) (hv : Covers k v rest)
    (hk : k ≤ mid.length) : Covers n (.object ((name, v) :: found)) rest := by
  have hmid := hfound.1
  have hrest := hv.1
  refine ⟨by omega, ?_⟩
  rintro s ⟨name', hmem⟩
  rcases List.mem_cons.1 hmem with hhere | hmem
  · cases hhere
    have hs := hv.2 s rfl
    omega
  · have hs := hfound.2 s ⟨name', hmem⟩
    omega

/-- Items put nothing back if one of them does not. -/
theorem forward_items {item : Reader α} (h : Forward item) : Forward (items item) := by
  refine .iterate (fun read => (Forward.anotherItem _).bind fun more => ?_) _
  exact .ite (h.bind fun a => .pure _) (.pure _)

/-- The members of an object cover every text in them if each value does: to read one more leaves
the others as they are. -/
theorem ensures_memberList {value : Reader Json}
    (h : ∀ bs, Ensures value bs (Covers bs.length)) (bs : Bytes) :
    Ensures (memberList value) bs fun members => Covers bs.length (.object members) := by
  have hmembers : Ensures (members [] fun name found => do
      colon
      let v ← value
      return (name, v) :: found) bs fun found => Covers bs.length (.object found) := by
    refine ensures_iterate (I := fun s => Covers bs.length (.object s.2)) ?_
      ⟨Nat.le_refl _, fun _ => nofun⟩
    rintro ⟨started, found⟩ mid hfound
    refine (Forward.anotherMember started mid).bind fun more rest hrest => ?_
    refine ensures_ite (fun _ => ?_) fun _ => ensures_pure (hfound.mono hrest (Nat.le_refl _))
    refine (Forward.skip.bind (fun _ => forward_text) rest).bind fun key rest' hrest' => ?_
    refine .bind ((Forward.colon rest').bind fun _ rest'' hrest'' =>
      (h rest'').bind fun v last hv =>
        ensures_pure (P := fun found => Covers bs.length (.object found))
          (hfound.member hv (by omega)))
      fun found last hlast => ensures_pure hlast
  refine hmembers.bind fun found rest hfound => ensures_pure ⟨hfound.1, fun s hs => ?_⟩
  obtain ⟨name, hmem⟩ := hs
  exact hfound.2 s ⟨name, List.mem_reverse.1 hmem⟩

/-- A value covers every text in it, by induction on how deep it may nest. Texts and objects are the
only ones in which texts stand. -/
theorem ensures_value (fuel : Nat) (bs : Bytes) : Ensures (value fuel) bs (Covers bs.length) := by
  induction fuel generalizing bs with
  | zero => exact ensures_stopAhead _
  | succ fuel ih =>
    have hplain {j : Json} {rest : Bytes} (hj : ∀ s, ¬ j.Holds s)
        (hrest : rest.length ≤ bs.length) : Ensures (pure j) rest (Covers bs.length) :=
      ensures_pure ⟨hrest, fun s hs => absurd hs (hj s)⟩
    refine (Forward.first bs).bind fun b mid hmid => ?_
    refine ensures_ite (fun _ => ?_) fun _ => ensures_ite (fun _ => ?_) fun _ =>
      ensures_ite (fun _ => ?_) fun _ => ensures_ite (fun _ => ?_) fun _ =>
      ensures_ite (fun _ => ?_) fun _ => ensures_ite (fun _ => ?_) fun _ => ?_
    · exact (Forward.word _ mid).bind fun _ rest hrest => hplain (fun _ => id) (by omega)
    · exact (Forward.word _ mid).bind fun _ rest hrest => hplain (fun _ => id) (by omega)
    · exact (Forward.word _ mid).bind fun _ rest hrest => hplain (fun _ => id) (by omega)
    · refine (Forward.skip mid).bind fun _ mid' hmid' => ensures_characters.bind fun s rest hs =>
        ensures_pure ⟨by omega, ?_⟩
      rintro _ rfl
      omega
    · have hitems : Forward (bracketed (items (value fuel)) listEnd) := fun bs =>
        ensures_bracketed (fun mid hmid => (forward_items (fun bs => (ih bs).mono fun _ _ h => h.1)
          mid).mono fun _ rest hrest last hlast => by omega) .listEnd
      exact (hitems mid).bind fun _ rest hrest => hplain (fun _ => id) (by omega)
    · refine (ensures_bracketed (fun mid' hmid' => (ensures_memberList ih mid').mono
        fun found rest hfound last hlast => ?_) .objectEnd).bind fun found rest h => ensures_pure h
      exact hfound.mono hlast (by omega)
    · exact (Forward.wholeNumber mid).bind fun _ rest hrest => hplain (fun _ => id) (by omega)

/-- What stands alone covers every text in it too. -/
theorem ensures_document (fuel : Nat) (bs : Bytes) :
    Ensures (document fuel) bs (Covers bs.length) := by
  refine (ensures_value fuel bs).bind fun j mid hj =>
    (Forward.peekPastBlanks mid).bind fun b rest hrest => ?_
  cases b with
  | none => exact ensures_pure (hj.mono hrest (Nat.le_refl _))
  | some b => exact ensures_stopAhead _

end Reader

/-- **No text quotes itself.** A text that stands in a value is shorter than one that says the
value. -/
theorem length_lt_of_holds {source s : String} {j : Json} (h : ofText? source = some j)
    (hs : j.Holds s) : (Utf8.ofString s).length < (Utf8.ofString source).length := by
  have hcovers := Reader.ensures_document (Utf8.ofString source).length (Utf8.ofString source) 0
  unfold ofText? at h
  dsimp only at h
  rcases hrun : Reader.document (Utf8.ofString source).length ⟨0, Utf8.ofString source⟩ with
    ⟨e | j', c⟩
  · rw [hrun] at h
    cases h
  · rw [hrun] at h
    cases h
    exact Nat.lt_of_le_of_lt (Nat.le_add_right _ _) ((hcovers j c hrun).2 s hs)

end Json

end Switchboard
