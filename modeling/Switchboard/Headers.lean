import Switchboard.Shape
import Switchboard.Text.Ascii

/-!
# Headers

Header names are compared without regard to case. The names are kept in small letters, which the
type records, and every lookup lowers the name it is asked for; so two spellings of one name can
neither stand side by side nor be told apart.
-/

namespace Switchboard

/-! ## Lowering twice is lowering once -/

namespace Text

theorem lowerChar_lowerChar (c : Char) : lowerChar (lowerChar c) = lowerChar c := by
  unfold lowerChar
  split
  · rename_i h
    have h1 : 'A'.toNat ≤ c.toNat := h.1
    have h2 : c.toNat ≤ 'Z'.toNat := h.2
    have hval : (Char.ofNat (c.toNat + 32)).toNat = c.toNat + 32 := by
      have : (c.toNat + 32).isValidChar := by
        left; have : 'Z'.toNat = 90 := rfl; omega
      unfold Char.ofNat
      rw [dif_pos this]
      rfl
    rw [if_neg]
    intro h'
    have h3 : (Char.ofNat (c.toNat + 32)).toNat ≤ 'Z'.toNat := h'.2
    have : 'Z'.toNat = 90 := rfl
    have : 'A'.toNat = 65 := rfl
    omega
  · rfl

@[simp] theorem lower_lower (s : String) : lower (lower s) = lower s := by
  simp [lower, Function.comp_def, lowerChar_lowerChar]

end Text

/-! ## The type -/

/-- Header values by lower-case name. -/
structure Headers where
  entries : Dict String String
  /-- Every name is in small letters. -/
  lowered : ∀ name ∈ entries.keys, Text.lower name = name

namespace Headers

@[ext] theorem ext {h g : Headers} (eq : h.entries = g.entries) : h = g := by
  cases h; cases g; simp_all

instance : DecidableEq Headers := fun h g =>
  decidable_of_iff (h.entries = g.entries) ⟨ext, fun eq => eq ▸ rfl⟩

/-- No headers. -/
def empty : Headers := ⟨∅, by simp [Dict.keys, EmptyCollection.emptyCollection]⟩

instance : EmptyCollection Headers := ⟨empty⟩

instance : Inhabited Headers := ⟨empty⟩

theorem lowered_insert (h : Headers) (name value : String) :
    ∀ n ∈ (h.entries.insert (Text.lower name) value).keys, Text.lower n = n := by
  intro n hn
  obtain ⟨e, he, rfl⟩ := List.mem_map.1 hn
  rcases Dict.mem_place he with rfl | he
  · exact Text.lower_lower name
  · exact h.lowered _ (List.mem_map.2 ⟨e, he, rfl⟩)

/-- The headers with a value put under a name. -/
def insert (h : Headers) (name value : String) : Headers :=
  ⟨h.entries.insert (Text.lower name) value, h.lowered_insert name value⟩

/-- The value under a name. -/
def get? (h : Headers) (name : String) : Option String := h.entries.get? (Text.lower name)

/-- The value under a name, or the empty text. -/
def getD (h : Headers) (name : String) : String := (h.get? name).getD ""

/-- Whether a name has a value. -/
def contains (h : Headers) (name : String) : Bool := (h.get? name).isSome

/-- The headers with a value put under a name that had none. -/
def insertIfNew (h : Headers) (name value : String) : Headers :=
  if h.contains name then h else h.insert name value

/-- The names and values in the order of the names. -/
def toList (h : Headers) : List (String × String) := h.entries.toList

/-- The headers of a list of names and values; of two spellings of one name the later one
counts. -/
def ofList (es : List (String × String)) : Headers :=
  es.foldl (fun h e => h.insert e.1 e.2) empty

/-- The headers of a dictionary whose names may be written in any case. -/
def ofDict (d : Dict String String) : Headers := ofList d.toList

/-! ## Laws -/

@[simp] theorem get?_insert (h : Headers) (name other value : String) :
    (h.insert name value).get? other =
      if Text.lower other = Text.lower name then some value else h.get? other := by
  simp [insert, get?]

/-- A lookup does not see the case of the name. -/
theorem get?_lower (h : Headers) (name : String) : h.get? (Text.lower name) = h.get? name := by
  simp [get?]

theorem entries_foldl_insert (h : Headers) (es : List (String × String))
    (lowered : ∀ e ∈ es, Text.lower e.1 = e.1) :
    (es.foldl (fun h e => h.insert e.1 e.2) h).entries =
      es.foldl (fun d e => d.insert e.1 e.2) h.entries := by
  induction es generalizing h with
  | nil => rfl
  | cons e es ih =>
    rw [List.foldl_cons, List.foldl_cons, ih _ fun e he => lowered e (by simp [he])]
    simp [insert, lowered e (by simp)]

/-- Headers are recovered from their entries. -/
theorem ofDict_entries (h : Headers) : ofDict h.entries = h := by
  refine ext ?_
  have lowered : ∀ e ∈ h.entries.toList, Text.lower e.1 = e.1 := fun e he =>
    h.lowered _ (List.mem_map.2 ⟨e, he, rfl⟩)
  rw [ofDict, ofList, entries_foldl_insert _ _ lowered]
  exact Dict.ofList_toList h.entries

end Headers

/-- Headers travel as a dictionary of texts. -/
instance : Payload Headers :=
  ⟨.dict .text, fun h => h.entries, fun d => Headers.ofDict d, Headers.ofDict_entries⟩

end Switchboard
