import Switchboard.Proofs.MessagePack.Fits

/-!
# Payloads are read back from MessagePack

Writing and reading go by the shape, so the round trip (`Shape.reads_unpack`) is an induction on
it, with one step for a shape and one for the fields of a record. Three things can come in the
way, and each has a name. `Shape.Regular` is about the shape alone: an option of an option writes
two values as nil, and a choice that lists a word twice cannot tell the two apart. `Shape.depth`
is how far arrays and maps are nested, for which the reader sets a limit. `Shape.Fits` is about
the data. What has once been read fits, so it can be written and is read back, in whichever form
it came.
-/

namespace Switchboard

open MessagePack (Fault Marker Reader)
open MessagePack.Reader

/-! ## Plain values -/

namespace MessagePack.Reader

variable {n : Nat} {i : Int} {bs : Bytes}

theorem reads_integer (expected : String) (low high : Int) (hfits : -(2 ^ 63) ≤ i ∧ i < 2 ^ 64)
    (hi : low ≤ i ∧ i ≤ high) : Reads (integer expected low high) (MessagePack.int i) i := by
  have hcheck : Reads (if low ≤ i ∧ i ≤ high then pure i else throw (.outOfRange i expected))
      [] i := by
    rw [if_pos hi]
    exact Reads.pure i
  cases i with
  | ofNat n =>
    have hlt : (n : Int) < 2 ^ 64 := hfits.2
    obtain ⟨m, hm⟩ := reads_head_nat (n := n) (by omega)
    exact hm.bind_nil hcheck
  | negSucc n =>
    obtain ⟨m, hm⟩ := reads_head_negative (n := n) (by omega)
    exact hm.bind_nil hcheck

theorem reads_int64 (n : Int64) :
    Reads (do return Int64.ofInt (← integer "i64" (-(2 ^ 63)) (2 ^ 63 - 1)))
      (MessagePack.int n.toInt) n := by
  have hlow := n.le_toInt
  have hhigh := n.toInt_lt
  have hint := reads_integer (i := n.toInt) "i64" (-(2 ^ 63)) (2 ^ 63 - 1) (by omega) (by omega)
  exact hint.bind_nil (Reads.pure_eq n.ofInt_toInt)

theorem reads_uint64 (n : UInt64) :
    Reads (do return UInt64.ofNat (← integer "u64" 0 (2 ^ 64 - 1)).toNat)
      (MessagePack.nat n.toNat) n := by
  have hlt := n.toNat_lt
  have hint := reads_integer (i := (n.toNat : Int)) "u64" 0 (2 ^ 64 - 1) (by omega) (by omega)
  exact hint.bind_nil (Reads.pure_eq n.ofNat_toNat)

theorem reads_string {s : String} (h : (Utf8.ofString s).length < 2 ^ 32) :
    Reads string (MessagePack.string s) s := by
  obtain ⟨m, hm⟩ := reads_head_text h
  have htext : Reads (textOf (Utf8.ofString s)) [] s := by
    unfold textOf
    rw [Utf8.toString?_ofString]
    exact Reads.pure s
  exact hm.bind_nil htext

theorem reads_flag (b : Bool) : Reads flag [if b then 0xC3 else 0xC2] b := by
  cases b with
  | true =>
    have hhead : Reads head [0xC3] (.flag true, .flag true) := reads_head rfl (Reads.pure _)
    exact hhead.bind_nil (Reads.pure true)
  | false =>
    have hhead : Reads head [0xC2] (.flag false, .flag false) := reads_head rfl (Reads.pure _)
    exact hhead.bind_nil (Reads.pure false)

theorem reads_octets (h : bs.length < 2 ^ 32) :
    Reads octets (MessagePack.octets bs) bs := by
  obtain ⟨m, hm⟩ := reads_head_octets h
  exact hm.bind_nil (Reads.pure bs)

theorem reads_cell (c : Cell) : Reads cell (MessagePack.cell c) c := by
  obtain ⟨m, hm⟩ := reads_head_array (n := 2) (by omega)
  unfold MessagePack.cell
  rw [List.append_assoc]
  refine hm.bind ((reads_int64 c.row).bind ?_)
  exact (reads_int64 c.column).bind_nil (Reads.pure c)

/-- A word is found at its position if no word before it is the same. -/
theorem find?_named {words : List String} (h : words.Nodup) (k : Fin words.length)
    (position : Nat) :
    (Key.named (Utf8.ofString (words.get k))).find? position words = some (position + k) := by
  induction words generalizing position with
  | nil => exact k.elim0
  | cons word words ih =>
    rw [List.nodup_cons] at h
    have hmeans : ∀ w, (Key.named (Utf8.ofString w)).means position word = (w == word) := by
      intro w
      show (Utf8.ofString w == Utf8.ofString word) = (w == word)
      rw [Bool.eq_iff_iff, beq_iff_eq, beq_iff_eq]
      exact ⟨fun heq => Utf8.ofString_injective heq, congrArg _⟩
    unfold Key.find?
    rw [hmeans]
    cases k using Fin.cases with
    | zero =>
      have heq : ((word :: words).get 0 == word) = true := beq_self_eq_true word
      rw [heq, if_pos rfl]
      rfl
    | succ k =>
      have hne : ((word :: words).get k.succ == word) = false :=
        beq_false_of_ne fun heq => h.1 (heq ▸ List.get_mem words k)
      rw [hne, if_neg Bool.false_ne_true]
      have hrest := ih h.2 k (position + 1)
      rw [Nat.add_assoc, Nat.add_comm 1] at hrest
      exact hrest

theorem reads_choice {words : List String} (hnodup : words.Nodup)
    (hlen : ∀ word ∈ words, (Utf8.ofString word).length < 2 ^ 32) (k : Fin words.length) :
    Reads (choice words) (MessagePack.string (words.get k)) k := by
  obtain ⟨m, hm⟩ := reads_head_text (hlen _ (List.get_mem words k))
  have hword : Reads (wordOf words (.named (Utf8.ofString (words.get k)))) [] k.val := by
    unfold wordOf
    rw [find?_named hnodup, Nat.zero_add]
    exact Reads.pure _
  exact hm.bind_nil hword

theorem reads_optional_none {α : Type} {value : Reader α} :
    Reads (optional value) [0xC0] none := fun _ => rfl

/-- What does not begin with a nil is read as a value that is present. -/
theorem reads_optional_some {α : Type} {value : Reader α} {a : α} (hstarts : Starts bs)
    (h : Reads value bs a) : Reads (optional value) bs (some a) := by
  intro rest
  obtain ⟨b, bs, rfl, hb⟩ := hstarts
  have hsome : Reads (do return some (← value)) (b :: bs) (some a) := h.bind_nil (Reads.pure _)
  have hrun := hsome rest
  unfold optional
  rw [List.cons_append] at hrun ⊢
  simp only [bind, StateT.bind, get, getThe, MonadStateOf.get, StateT.get, pure, Except.pure,
    Except.bind] at hrun ⊢
  -- the first byte decides, and it is no nil
  generalize hs : b :: (bs ++ rest) = s at hrun ⊢
  split
  · injection hs with h
    exact absurd h hb
  · exact hrun

/-- The entries of a dictionary, read in order, are the dictionary. -/
theorem reads_entries {κ α : Type} [Ord κ] [Std.TransOrd κ] [Std.LawfulEqOrd κ] {key : Reader κ}
    {value : Reader α} {encKey : κ → Bytes} {enc : α → Bytes} (d : Dict κ α)
    (hkey : ∀ e ∈ d.toList, Reads key (encKey e.1) e.1)
    (hvalue : ∀ e ∈ d.toList, Reads value (enc e.2) e.2) :
    Reads (foldN (fun d => do
        let k ← key
        let a ← value
        return d.insert k a) d.size Dict.empty)
      (d.toList.flatMap fun (k, a) => encKey k ++ enc a) d := by
  have hentry : ∀ e ∈ d.toList, ∀ d' : Dict κ α, Reads (do
        let k ← key
        let a ← value
        return d'.insert k a) (encKey e.1 ++ enc e.2) (d'.insert e.1 e.2) := by
    intro e he d'
    refine (hkey e he).bind ?_
    exact (hvalue e he).bind_nil (Reads.pure _)
  -- the entries are in order, so each is put behind those before it
  have hentries := reads_foldN d.toList hentry Dict.empty
  rw [show d.toList.foldl _ _ = d from Dict.ofList_toList d] at hentries
  exact hentries

end MessagePack.Reader

/-! ## Shapes and data that can be read back -/

mutual

/-- Whether no two values of a shape have one binary form. -/
def Shape.Regular : Shape → Prop
  | .int | .nat | .text | .flag | .bytes => True
  | .list item | .dict item | .grid item => item.Regular
  | .option item => item.optional = false ∧ item.Regular
  | .pair first second => first.Regular ∧ second.Regular
  | .record _ fields => fields.count < 2 ^ 32 ∧ fields.Regular
  | .choice _ first others =>
    (first :: others).Nodup ∧ ∀ word ∈ first :: others, (Utf8.ofString word).length < 2 ^ 32

def Fields.Regular : Fields → Prop
  | .done => True
  | .field _ shape _ rest => shape.Regular ∧ rest.Regular

end

mutual

/-- How many arrays and maps stand within one another in a value of a shape. -/
def Shape.depth : Shape → Nat
  | .int | .nat | .text | .flag | .bytes | .choice _ _ _ => 0
  | .list item | .dict item | .grid item => item.depth + 1
  | .option item => item.depth
  | .pair first second => max first.depth second.depth + 1
  | .record _ fields => fields.depth + 1

def Fields.depth : Fields → Nat
  | .done => 0
  | .field _ shape _ rest => max shape.depth rest.depth

end

/-! ## What is written is read back -/

mutual

/-- **Round trip.** The binary form of a value is read back, whatever follows it. -/
theorem Shape.reads_unpack (room : Nat) (shape : Shape) (hreg : shape.Regular)
    (hroom : shape.depth < room) (value : shape.Data) (hfits : shape.Fits value) :
    Reads (shape.unpack room) (shape.pack value) value := by
  cases shape with
  | int => exact reads_int64 value
  | nat => exact reads_uint64 value
  | text => exact reads_string hfits
  | flag => exact reads_flag value
  | bytes => exact reads_octets hfits
  | list item =>
    have hroom : item.depth + 1 < room := hroom
    obtain ⟨m, hm⟩ := reads_head_array hfits.1
    have hitems := reads_repeatN value fun a ha =>
      item.reads_unpack (room - 1) hreg (by omega) a (hfits.2 a ha)
    exact hm.bind ((reads_inside (by omega)).nil_bind hitems)
  | option item =>
    cases (value : Option item.Data) with
    | none => exact reads_optional_none
    | some value =>
      have hitem := item.reads_unpack room hreg.2 hroom value (hfits value rfl)
      exact reads_optional_some (item.starts_pack hreg.1 value) hitem
  | pair first second =>
    have hroom : max first.depth second.depth + 1 < room := hroom
    obtain ⟨m, hm⟩ := reads_head_array (n := 2) (by omega)
    have hfirst := first.reads_unpack (room - 1) hreg.1 (by omega) value.1 hfits.1
    have hsecond := second.reads_unpack (room - 1) hreg.2 (by omega) value.2 hfits.2
    -- the reader takes the second item from what is left behind the first
    have happ : (Shape.pair first second).pack value
        = MessagePack.arrayHead 2 ++ (first.pack value.1 ++ second.pack value.2) :=
      List.append_assoc ..
    rw [happ]
    refine hm.bind ((reads_inside (by omega)).nil_bind (hfirst.bind ?_))
    exact hsecond.bind_nil (Reads.pure value)
  | dict item =>
    have hroom : item.depth + 1 < room := hroom
    obtain ⟨m, hm⟩ := reads_head_map hfits.1
    have hentries := reads_entries (value : Dict String item.Data)
      (fun e he => reads_string (hfits.2 e he).1)
      (fun e he => item.reads_unpack (room - 1) hreg (by omega) e.2 (hfits.2 e he).2)
    exact hm.bind ((reads_inside (by omega)).nil_bind hentries)
  | grid item =>
    have hroom : item.depth + 1 < room := hroom
    obtain ⟨m, hm⟩ := reads_head_map hfits.1
    have hentries := reads_entries (value : Dict Cell item.Data)
      (fun e _ => reads_cell e.1)
      (fun e he => item.reads_unpack (room - 1) hreg (by omega) e.2 (hfits.2 e he))
    exact hm.bind ((reads_inside (by omega)).nil_bind hentries)
  | record name fields =>
    have hroom : fields.depth + 1 < room := hroom
    obtain ⟨m, hm⟩ := reads_head_array hreg.1
    have hfields := fields.reads_unpackItems (room - 1) hreg.2 (by omega) value hfits
    refine hm.bind ?_
    show Reads (if fields.count < fields.count then _ else _ : Reader fields.Data) _ _
    rw [if_neg (Nat.lt_irrefl _)]
    exact (reads_inside (by omega)).nil_bind hfields
  | choice name first others =>
    have hword := reads_choice hreg.1 hreg.2 value
    exact hword.bind_nil (Reads.pure_eq (Fin.ofNat_val_eq_self value))

theorem Fields.reads_unpackItems (room : Nat) (fields : Fields) (hreg : fields.Regular)
    (hroom : fields.depth < room) (values : fields.Data) (hfits : fields.Fits values) :
    Reads (fields.unpackItems room fields.count) (fields.pack values) values := by
  cases fields with
  | done => exact Reads.pure _
  | field name shape presence rest =>
    have hroom : max shape.depth rest.depth < room := hroom
    have hhead := shape.reads_unpack room hreg.1 (by omega) values.1 hfits.1
    have htail := rest.reads_unpackItems room hreg.2 (by omega) values.2 hfits.2
    exact hhead.bind (htail.bind_nil (Reads.pure _))

end

/-! ## Payloads -/

variable {α : Type} [Payload α]

/-- **Round trip.** A value whose lengths fit is read back from its binary form, whatever follows
it. -/
theorem ofBinary_toBinary_append (hreg : (Payload.shape α).Regular)
    (hdepth : (Payload.shape α).depth < depthLimit) (a : α)
    (hfits : (Payload.shape α).Fits (Payload.toData a)) (rest : Bytes) :
    ofBinary (toBinary a ++ rest) = .ok a := by
  have hread := Shape.reads_unpack _ _ hreg hdepth _ hfits rest
  unfold ofBinary Shape.ofBinary toBinary
  rw [hread]
  exact congrArg Except.ok (Payload.ofData_toData a)

/-- What is read of bytes is the value of data that fit. -/
theorem fits_of_ofBinary {bytes : Bytes} {a : α} (h : ofBinary bytes = .ok a) :
    ∃ data, (Payload.shape α).Fits data ∧ Payload.ofData data = a := by
  unfold ofBinary Shape.ofBinary at h
  cases hread : (Payload.shape α).unpack depthLimit bytes with
  | error fault =>
    rw [hread] at h
    cases h
  | ok p =>
    rw [hread] at h
    injection h with h
    exact ⟨p.1, Shape.yields_unpack _ _ _ p.1 p.2 hread, h⟩

end Switchboard
