import Switchboard.Proofs.Json.Texts
import Switchboard.Proofs.Responses

/-!
# Layouts differ in blanks alone

A value is written on one line or with one item a line, and on a line of a recording blanks stand
in place of the line ends. All of these are one way of writing with different blanks between the
tokens (`Json.spaced`): no blanks at all (`Json.spaced_none`), a line for each item
(`Json.spaced_lines`), or either of them with blanks in place of line ends
(`Json.map_unbroken_spaced`), which changes nothing inside a string, because a string has no line
ends. So whoever reads texts of a value whatever the blanks are reads them all.
-/

namespace Switchboard

open Text (unbroken map_unbroken)
open Utf8 (encode encodeChar)

namespace Json

/-- A value is as it is, or made of items or members of which less is to be shown. -/
@[elab_as_elim]
theorem induction_on_parts {motive : Json → Prop} (j : Json) (null : motive .null)
    (flag : ∀ b, motive (.flag b)) (number : ∀ i, motive (.number i))
    (text : ∀ s, motive (.text s))
    (array : ∀ items, (∀ item ∈ items, motive item) → motive (.array items))
    (object : ∀ members, (∀ m ∈ members, motive m.2) → motive (.object members)) : motive j :=
  match j with
  | .null => null
  | .flag b => flag b
  | .number i => number i
  | .text s => text s
  | .array items => array items fun item hitem =>
      have hlt : sizeOf item < sizeOf (Json.array items) :=
        Nat.lt_of_lt_of_le (List.sizeOf_lt_of_mem hitem) (by simp)
      induction_on_parts item null flag number text array object
  | .object members => object members fun m hm =>
      have hlt : sizeOf m.2 < sizeOf (Json.object members) :=
        calc sizeOf m.2 ≤ sizeOf m := by cases m; simp
          _ < sizeOf members := List.sizeOf_lt_of_mem hm
          _ ≤ sizeOf (Json.object members) := by simp
      induction_on_parts m.2 null flag number text array object
termination_by sizeOf j
decreasing_by
  · exact hlt
  · exact hlt

/-! ## Blanks between tokens -/

/-- The blanks of JSON. -/
def isBlankChar (c : Char) : Bool := c == ' ' || c == '\t' || c == '\n' || c == '\r'

/-- A line end becomes a blank, and other blanks stay. -/
theorem isBlankChar_unbroken {c : Char} (h : isBlankChar c = true) :
    isBlankChar (unbroken c) = true := by
  unfold unbroken
  split
  · decide
  · exact h

/-- What is put between tokens. -/
structure Spacing where
  /-- What stands in front of an item that is so deep, and of the bracket behind deeper ones. -/
  line : Nat → List Char
  /-- What stands behind a colon. -/
  gap : List Char
  isBlank_line : ∀ depth, ∀ c ∈ line depth, isBlankChar c = true
  isBlank_gap : ∀ c ∈ gap, isBlankChar c = true

/-- What stands in front of a closing bracket: nothing, if there was nothing to read. -/
def Spacing.foot {α : Type} (sp : Spacing) (depth : Nat) (parts : List α) : List Char :=
  if parts.isEmpty then [] else sp.line depth

mutual

/-- The text of a value that starts so deep. -/
def spaced (sp : Spacing) (depth : Nat) : Json → List Char
  | .null => "null".toList
  | .flag true => "true".toList
  | .flag false => "false".toList
  | .number i => digits i
  | .text s => quote s
  | .array items => '[' :: (commas (spacedItems sp (depth + 1) items) ++
      (sp.foot depth items ++ [']']))
  | .object members => '\x7b' :: (commas (spacedMembers sp (depth + 1) members) ++
      (sp.foot depth members ++ ['\x7d']))

/-- The texts of the items of an array, with what stands in front of them. -/
def spacedItems (sp : Spacing) (depth : Nat) : List Json → List (List Char)
  | [] => []
  | item :: items => (sp.line depth ++ spaced sp depth item) :: spacedItems sp depth items

/-- The texts of the members of an object, with what stands in front of them. -/
def spacedMembers (sp : Spacing) (depth : Nat) : List (String × Json) → List (List Char)
  | [] => []
  | (name, value) :: members =>
    (sp.line depth ++ (quote name ++ ':' :: (sp.gap ++ spaced sp depth value))) ::
      spacedMembers sp depth members

end

variable {sp : Spacing} {depth : Nat}

/-- Each item stands on a line of its own. -/
theorem spacedItems_eq_map (sp : Spacing) (depth : Nat) (items : List Json) :
    spacedItems sp depth items = items.map fun item => sp.line depth ++ spaced sp depth item := by
  induction items with
  | nil => rfl
  | cons item items ih => rw [spacedItems, ih, List.map_cons]

/-- Each member stands on a line of its own, its value behind a gap. -/
theorem spacedMembers_eq_map (sp : Spacing) (depth : Nat) (members : List (String × Json)) :
    spacedMembers sp depth members = members.map fun m =>
      sp.line depth ++ (quote m.1 ++ ':' :: (sp.gap ++ spaced sp depth m.2)) := by
  induction members with
  | nil => rfl
  | cons m members ih => rw [spacedMembers, ih, List.map_cons]

/-! ## Compact and pretty texts -/

namespace Spacing

/-- No blanks at all. -/
def none : Spacing := ⟨fun _ => [], [], fun _ _ => nofun, fun _ => nofun⟩

/-- A line for each item. -/
def lines : Spacing where
  line := newline
  gap := [' ']
  isBlank_line depth c hc := by
    rcases List.mem_cons.1 hc with rfl | hc
    · decide
    · rw [List.eq_of_mem_replicate hc]
      decide
  isBlank_gap c hc := by
    rw [List.mem_singleton.1 hc]
    decide

/-- Blanks in place of line ends. -/
def flat (sp : Spacing) : Spacing where
  line depth := (sp.line depth).map unbroken
  gap := sp.gap.map unbroken
  isBlank_line depth := by
    intro c hc
    obtain ⟨d, hd, rfl⟩ := List.mem_map.1 hc
    exact isBlankChar_unbroken (sp.isBlank_line depth d hd)
  isBlank_gap := by
    intro c hc
    obtain ⟨d, hd, rfl⟩ := List.mem_map.1 hc
    exact isBlankChar_unbroken (sp.isBlank_gap d hd)

end Spacing

theorem compactItems_eq_map (items : List Json) : compactItems items = items.map compact := by
  induction items with
  | nil => rfl
  | cons item items ih => rw [compactItems, ih, List.map_cons]

theorem compactMembers_eq_map (members : List (String × Json)) :
    compactMembers members = members.map fun m => quote m.1 ++ ':' :: compact m.2 := by
  induction members with
  | nil => rfl
  | cons m members ih => rw [compactMembers, ih, List.map_cons]

theorem prettyItems_eq_map (depth : Nat) (items : List Json) :
    prettyItems depth items = items.map (pretty depth) := by
  induction items with
  | nil => rfl
  | cons item items ih => rw [prettyItems, ih, List.map_cons]

theorem prettyMembers_eq_map (depth : Nat) (members : List (String × Json)) :
    prettyMembers depth members =
      members.map fun m => quote m.1 ++ ':' :: ' ' :: pretty depth m.2 := by
  induction members with
  | nil => rfl
  | cons m members ih => rw [prettyMembers, ih, List.map_cons]

/-- Without any spacing a text is compact. -/
theorem spaced_none (j : Json) (depth : Nat) : spaced .none depth j = j.compact := by
  induction j using induction_on_parts generalizing depth with
  | null => rfl
  | flag b => cases b <;> rfl
  | number i => rfl
  | text s => rfl
  | array items ih =>
    have hitems : spacedItems .none (depth + 1) items = compactItems items := by
      rw [spacedItems_eq_map, compactItems_eq_map]
      exact List.map_congr_left fun item hitem => ih item hitem (depth + 1)
    rw [spaced, compact, hitems]
    cases items <;> rfl
  | object members ih =>
    have hmembers : spacedMembers .none (depth + 1) members = compactMembers members := by
      rw [spacedMembers_eq_map, compactMembers_eq_map]
      refine List.map_congr_left fun m hm => ?_
      rw [ih m hm (depth + 1)]
      rfl
    rw [spaced, compact, hmembers]
    cases members <;> rfl

/-- With lines and gaps a text is pretty. -/
theorem spaced_lines (j : Json) (depth : Nat) : spaced .lines depth j = j.pretty depth := by
  induction j using induction_on_parts generalizing depth with
  | null => rfl
  | flag b => cases b <;> rfl
  | number i => rfl
  | text s => rfl
  | array items ih =>
    have hitems : spacedItems .lines (depth + 1) items =
        (prettyItems (depth + 1) items).map (newline (depth + 1) ++ ·) := by
      rw [spacedItems_eq_map, prettyItems_eq_map, List.map_map]
      refine List.map_congr_left fun item hitem => ?_
      rw [ih item hitem (depth + 1)]
      rfl
    rw [spaced, pretty, hitems]
    cases items with
    | nil => rfl
    | cons item items => exact congrArg ('[' :: ·) (List.append_assoc _ _ _).symm
  | object members ih =>
    have hmembers : spacedMembers .lines (depth + 1) members =
        (prettyMembers (depth + 1) members).map (newline (depth + 1) ++ ·) := by
      rw [spacedMembers_eq_map, prettyMembers_eq_map, List.map_map]
      refine List.map_congr_left fun m hm => ?_
      rw [ih m hm (depth + 1)]
      rfl
    rw [spaced, pretty, hmembers]
    cases members with
    | nil => rfl
    | cons m members => exact congrArg ('\x7b' :: ·) (List.append_assoc _ _ _).symm

/-- What a layout puts between tokens. -/
def Layout.spacing : Layout → Spacing
  | .compact => .none
  | .pretty => .lines

/-- Both layouts are one text but for the blanks between its tokens. -/
theorem render_eq_spaced (layout : Layout) (j : Json) :
    render layout j = String.ofList (spaced layout.spacing 0 j) := by
  cases layout with
  | compact => exact congrArg String.ofList (spaced_none j 0).symm
  | pretty => exact congrArg String.ofList (spaced_lines j 0).symm

/-! ## Blanks in place of line ends -/

/-- Texts with commas between them, the first apart from the others. -/
theorem commas_cons (piece : List Char) (pieces : List (List Char)) :
    commas (piece :: pieces) = piece ++ pieces.flatMap (',' :: ·) := by
  induction pieces generalizing piece with
  | nil => exact (List.append_nil piece).symm
  | cons next pieces ih =>
    show piece ++ ',' :: commas (next :: pieces) = _
    rw [ih next, List.flatMap_cons]
    rfl

/-- Commas are no line ends. -/
theorem map_unbroken_commas (pieces : List (List Char)) :
    (commas pieces).map unbroken = commas (pieces.map (·.map unbroken)) := by
  cases pieces with
  | nil => rfl
  | cons piece pieces =>
    rw [List.map_cons, commas_cons, commas_cons, List.map_append, List.map_flatMap,
      List.flatMap_map]
    rfl

/-- Control characters are escaped. -/
theorem le_toNat_of_mem_escapeChar {c d : Char} (h : d ∈ escapeChar c) : 0x20 ≤ d.toNat := by
  by_cases hplain : Reader.Plain c
  · rw [Reader.escapeChar_of_plain hplain, List.mem_singleton] at h
    rw [h]
    exact hplain.2.2
  · rcases Reader.escapeChar_of_not_plain hplain with ⟨e, he, rfl⟩ | ⟨hlow, hescape⟩
    · have hletters : ∀ e ∈ Reader.letters, 0x20 ≤ e.2.toNat := by decide
      rw [Reader.escapeChar_of_mem_letters e he, List.mem_cons, List.mem_singleton] at h
      rcases h with rfl | rfl
      · decide
      · exact hletters e he
    · have hhex : ∀ n < 16, 0x20 ≤ (Text.hexDigit n).toNat := by decide
      rw [hescape] at h
      simp only [List.mem_cons, List.not_mem_nil, or_false] at h
      rcases h with rfl | rfl | rfl | rfl | rfl | rfl
      · decide
      · decide
      · decide
      · decide
      · exact hhex _ (by omega)
      · exact hhex _ (by omega)

/-- A quoted string has no line ends in it: they are escaped. -/
theorem map_unbroken_quote (s : String) : (quote s).map unbroken = quote s := by
  refine map_unbroken fun d hd => ?_
  unfold quote at hd
  rw [List.mem_cons, List.mem_append, List.mem_singleton, List.mem_flatMap] at hd
  rcases hd with rfl | ⟨c, -, hd⟩ | rfl
  · decide
  · exact le_toNat_of_mem_escapeChar hd
  · decide

/-- A number is digits, behind a sign if it is negative. -/
theorem digits_eq (i : Int) : digits i =
    (if i < 0 then ['-'] else []) ++ (Text.decimal i.natAbs).toList := by
  unfold digits Text.signedDecimal
  split
  · rw [String.toList_append]
    rfl
  · rfl

/-- Digits and signs are no line ends. -/
theorem map_unbroken_digits (i : Int) : (digits i).map unbroken = digits i := by
  refine map_unbroken fun d hd => ?_
  rw [digits_eq, List.mem_append] at hd
  rcases hd with hsign | hdigit
  · split at hsign
    · rw [List.mem_singleton.1 hsign]
      decide
    · cases hsign
  · have hvalue := Char.isDigit_iff_toNat.1 (Text.isDigit_of_mem_decimal hdigit)
    have hzero : ('0' : Char).toNat = 0x30 := rfl
    omega

/-- **A text on one line is the same text**, with a blank for every line end between its tokens. -/
theorem map_unbroken_spaced (j : Json) (depth : Nat) :
    (spaced sp depth j).map unbroken = spaced sp.flat depth j := by
  induction j using induction_on_parts generalizing depth with
  | null => rfl
  | flag b => cases b <;> rfl
  | number i => exact map_unbroken_digits i
  | text s => exact map_unbroken_quote s
  | array items ih =>
    have hitems : (spacedItems sp (depth + 1) items).map (·.map unbroken) =
        spacedItems sp.flat (depth + 1) items := by
      rw [spacedItems_eq_map, spacedItems_eq_map, List.map_map]
      refine List.map_congr_left fun item hitem => ?_
      show (sp.line (depth + 1) ++ spaced sp (depth + 1) item).map unbroken = _
      rw [List.map_append, ih item hitem (depth + 1)]
      rfl
    rw [spaced, spaced, List.map_cons, List.map_append, map_unbroken_commas, hitems]
    cases items with
    | nil => rfl
    | cons item items =>
      rw [List.map_append]
      rfl
  | object members ih =>
    have hmembers : (spacedMembers sp (depth + 1) members).map (·.map unbroken) =
        spacedMembers sp.flat (depth + 1) members := by
      rw [spacedMembers_eq_map, spacedMembers_eq_map, List.map_map]
      refine List.map_congr_left fun m hm => ?_
      show (sp.line (depth + 1) ++ (quote m.1 ++ ':' ::
        (sp.gap ++ spaced sp (depth + 1) m.2))).map unbroken = _
      rw [List.map_append, List.map_append, List.map_cons, List.map_append, map_unbroken_quote,
        ih m hm (depth + 1)]
      rfl
    rw [spaced, spaced, List.map_cons, List.map_append, map_unbroken_commas, hmembers]
    cases members with
    | nil => rfl
    | cons m members =>
      rw [List.map_append]
      rfl

end Json

end Switchboard
