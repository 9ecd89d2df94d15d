import Switchboard.Proofs.MessagePack.Head

/-!
# Data whose lengths can be written

A length of a text, a byte string, an array or a map takes at most four bytes. `Shape.Fits` says
of data that every length in it does, and there are two ways to know that it holds. The reader
takes many forms of a value, more than are written, but whichever form it has taken the data fit
(`Shape.yields_unpack`). And since every byte, item and entry is written with at least one byte,
a value with a short binary form fits (`Shape.fits_of_length_pack`).
-/

namespace Switchboard

open MessagePack (Fault Marker Reader)
open MessagePack.Reader

/-! ## What a value begins with -/

namespace MessagePack

variable {n : Nat} {bs bs' : Bytes}

/-- Whether bytes begin, and not with a nil. -/
def Starts (bs : Bytes) : Prop := ∃ b rest, bs = b :: rest ∧ b ≠ 0xC0

/-- What begins so still does with more behind it. -/
theorem Starts.append (h : Starts bs) (bs' : Bytes) : Starts (bs ++ bs') := by
  obtain ⟨b, rest, rfl, hb⟩ := h
  exact ⟨b, rest ++ bs', rfl, hb⟩

/-- A choice begins so if both of its sides do, each under its condition. -/
theorem Starts.ite {c : Prop} [Decidable c] (h : c → Starts bs) (h' : ¬c → Starts bs') :
    Starts (if c then bs else bs') := by
  split
  · rename_i hc
    exact h hc
  · rename_i hc
    exact h' hc

theorem starts_cons {b : UInt8} (h : b ≠ 0xC0) : Starts (b :: bs) := ⟨b, bs, rfl, h⟩

/-- A number below 256 other than that of nil begins so. -/
theorem starts_small (h : n < 256) (hnil : n ≠ 0xC0) : Starts [UInt8.ofNat n] := by
  refine starts_cons fun heq => hnil ?_
  rw [← Utf8.toNat_ofNat_byte h, heq]
  rfl

/-- No number is written with the byte of a nil, whichever of the five forms it has. -/
theorem starts_nat (n : Nat) : Starts (nat n) := by
  refine .ite (fun h => starts_small (by omega) (by omega)) fun _ => ?_
  iterate 3 refine .ite (fun _ => starts_cons (by decide)) fun _ => ?_
  exact starts_cons (by decide)

/-- The negative numbers have forms of their own, and none is a nil. -/
theorem starts_negative (n : Nat) : Starts (negative n) := by
  refine .ite (fun h => starts_small (by omega) (by omega)) fun _ => ?_
  iterate 3 refine .ite (fun _ => starts_cons (by decide)) fun _ => ?_
  exact starts_cons (by decide)

/-- No integer is written as a nil. -/
theorem starts_int (i : Int) : Starts (int i) := by
  cases i with
  | ofNat n => exact starts_nat n
  | negSucc n => exact starts_negative n

/-- The head of a text is not a nil. -/
theorem starts_text (bs : Bytes) : Starts (text bs) := by
  refine Starts.append (.ite (fun h => starts_small (by omega) (by omega)) fun _ => ?_) bs
  iterate 2 refine .ite (fun _ => starts_cons (by decide)) fun _ => ?_
  exact starts_cons (by decide)

/-- The head of a byte string is not a nil. -/
theorem starts_octets (bs : Bytes) : Starts (octets bs) := by
  refine Starts.append (.ite (fun _ => starts_cons (by decide)) fun _ => ?_) bs
  refine .ite (fun _ => starts_cons (by decide)) fun _ => ?_
  exact starts_cons (by decide)

theorem starts_arrayHead (n : Nat) : Starts (arrayHead n) := by
  refine .ite (fun h => starts_small (by omega) (by omega)) fun _ => ?_
  refine .ite (fun _ => starts_cons (by decide)) fun _ => ?_
  exact starts_cons (by decide)

theorem starts_mapHead (n : Nat) : Starts (mapHead n) := by
  refine .ite (fun h => starts_small (by omega) (by omega)) fun _ => ?_
  refine .ite (fun _ => starts_cons (by decide)) fun _ => ?_
  exact starts_cons (by decide)

end MessagePack

open MessagePack (Starts)

/-- Whether the values of a shape are options. -/
def Shape.optional : Shape → Bool
  | .option _ => true
  | _ => false

/-- Data are never written as a nil, unless they may be missing. -/
theorem Shape.starts_pack (shape : Shape) (h : shape.optional = false) (value : shape.Data) :
    Starts (shape.pack value) := by
  cases shape with
  | int => exact MessagePack.starts_int _
  | nat => exact MessagePack.starts_nat _
  | text => exact MessagePack.starts_text _
  | flag =>
    cases (value : Bool) with
    | true => exact MessagePack.starts_cons (by decide)
    | false => exact MessagePack.starts_cons (by decide)
  | bytes => exact MessagePack.starts_octets _
  | list item => exact (MessagePack.starts_arrayHead _).append _
  | option item => cases h
  | pair first second => exact ((MessagePack.starts_arrayHead _).append _).append _
  | dict item => exact (MessagePack.starts_mapHead _).append _
  | grid item => exact (MessagePack.starts_mapHead _).append _
  | record name fields => exact (MessagePack.starts_arrayHead _).append _
  | choice name first others => exact MessagePack.starts_text _

/-- No value is written without a byte. -/
theorem Shape.length_pack_pos (shape : Shape) (value : shape.Data) :
    0 < (shape.pack value).length := by
  have hpos : ∀ {bs : Bytes}, Starts bs → 0 < bs.length := by
    intro bs h
    obtain ⟨b, rest, rfl, _⟩ := h
    exact Nat.succ_pos _
  cases shape with
  | option item =>
    cases (value : Option item.Data) with
    | none => exact Nat.one_pos
    | some value => exact item.length_pack_pos value
  | _ => exact hpos (Shape.starts_pack _ rfl value)

/-! ## Data that fit -/

mutual

/-- Whether every length in a value takes at most four bytes. -/
def Shape.Fits : (shape : Shape) → shape.Data → Prop
  | .int, _ | .nat, _ | .flag, _ | .choice _ _ _, _ => True
  | .text, (s : String) => (Utf8.ofString s).length < 2 ^ 32
  | .bytes, (bs : Bytes) => bs.length < 2 ^ 32
  | .list item, (values : List item.Data) =>
    values.length < 2 ^ 32 ∧ ∀ value ∈ values, item.Fits value
  | .option item, (value : Option item.Data) => ∀ a ∈ value, item.Fits a
  | .pair first second, (value : first.Data × second.Data) =>
    first.Fits value.1 ∧ second.Fits value.2
  | .dict item, (values : Dict String item.Data) =>
    values.size < 2 ^ 32
      ∧ ∀ e ∈ values.toList, (Utf8.ofString e.1).length < 2 ^ 32 ∧ item.Fits e.2
  | .grid item, (values : Dict Cell item.Data) =>
    values.size < 2 ^ 32 ∧ ∀ e ∈ values.toList, item.Fits e.2
  | .record _ fields, values => fields.Fits values

def Fields.Fits : (fields : Fields) → fields.Data → Prop
  | .done, _ => True
  | .field _ shape _ rest, values => shape.Fits values.1 ∧ rest.Fits values.2

end

/-! ## What is read fits -/

/-- The length of a text that has been read was written in at most four bytes. -/
theorem yields_string : Yields string fun s => (Utf8.ofString s).length < 2 ^ 32 := by
  refine yields_head.bind fun p hp => ?_
  have htext : ∀ bs : Bytes, bs.length < 2 ^ 32 →
      Yields (textOf bs) fun s => (Utf8.ofString s).length < 2 ^ 32 := by
    intro bs hbs
    unfold textOf
    split
    · rename_i s hs
      rw [← Utf8.ofString_of_toString? hs] at hbs
      exact Yields.pure hbs
    · exact Yields.throw _
  obtain ⟨marker, h⟩ := p
  cases h with
  | text bs => exact htext bs hp
  | octets bs => exact htext bs hp
  | _ => exact Yields.throw _

/-- The length of a byte string that has been read was written in at most four bytes. -/
theorem yields_octets : Yields octets fun bs => bs.length < 2 ^ 32 := by
  refine yields_head.bind fun p hp => ?_
  obtain ⟨marker, h⟩ := p
  cases h with
  | text bs => exact Yields.pure hp
  | octets bs => exact Yields.pure hp
  | array n =>
    have hp : n < 2 ^ 32 := hp
    exact (yields_repeatN (Yields.trivial octet) n).mono fun bs hbs => hbs.1 ▸ hp
  | _ => exact Yields.throw _

/-- A value that may be missing fits if it is there and its reader sees to it. -/
theorem yields_optional {α : Type} {value : Reader α} {P : α → Prop} (h : Yields value P) :
    Yields (optional value) fun a => ∀ b ∈ a, P b := by
  refine Yields.bind_right fun s => ?_
  split
  · exact Yields.bind_right fun _ => Yields.pure fun _ h => nomatch h
  · refine h.bind fun a ha => Yields.pure ?_
    intro b hb
    cases hb
    exact ha

/-- A reader for each of some items gives as many results, each as its reader gives it. -/
theorem yields_mapM {α β : Type} {f : α → Reader β} {P : β → Prop} (h : ∀ a, Yields (f a) P)
    (as : List α) : Yields (as.mapM f) fun bs => bs.length = as.length ∧ ∀ b ∈ bs, P b := by
  induction as with
  | nil =>
    rw [List.mapM_nil]
    exact Yields.pure ⟨rfl, fun b hb => absurd hb List.not_mem_nil⟩
  | cons a as ih =>
    rw [List.mapM_cons]
    refine (h a).bind fun b hb => ih.bind fun bs hbs => Yields.pure ⟨?_, ?_⟩
    · rw [List.length_cons, List.length_cons, hbs.1]
    · exact List.forall_mem_cons.2 ⟨hb, hbs.2⟩

/-- A dictionary that is read has at most one entry for each that was announced. -/
theorem yields_entries {κ α : Type} [Ord κ] [Std.TransOrd κ] [Std.LawfulEqOrd κ]
    {key : Reader κ} {value : Reader α} {P : κ → Prop} {Q : α → Prop} (hkey : Yields key P)
    (hvalue : Yields value Q) (n : Nat) :
    Yields (foldN (fun d => do
        let k ← key
        let a ← value
        return d.insert k a) n Dict.empty)
      fun d : Dict κ α => d.size ≤ n ∧ ∀ e ∈ d.toList, P e.1 ∧ Q e.2 := by
  have hitem : ∀ n (d : Dict κ α), (d.size ≤ n ∧ ∀ e ∈ d.toList, P e.1 ∧ Q e.2) →
      Yields (do
        let k ← key
        let a ← value
        return d.insert k a)
      fun d => d.size ≤ n + 1 ∧ ∀ e ∈ d.toList, P e.1 ∧ Q e.2 := by
    intro n d hd
    refine hkey.bind fun k hk => hvalue.bind fun a ha => Yields.pure ⟨?_, ?_⟩
    · have hle := Dict.length_place_le k a d.toList
      exact Nat.le_trans hle (Nat.succ_le_succ hd.1)
    · intro e he
      rcases Dict.mem_place he with rfl | he
      · exact ⟨hk, ha⟩
      · exact hd.2 e he
  have hfold := yields_foldN hitem n 0 Dict.empty
    ⟨Nat.zero_le _, fun e he => absurd he List.not_mem_nil⟩
  rw [Nat.zero_add] at hfold
  exact hfold

mutual

/-- What stands for missing data has no length at all, or none that is large. -/
theorem Shape.fits_plain (shape : Shape) : shape.Fits shape.plain := by
  cases shape with
  | int => exact True.intro
  | nat => exact True.intro
  | text => exact Nat.two_pow_pos 32
  | flag => exact True.intro
  | bytes => exact Nat.two_pow_pos 32
  | list item => exact ⟨Nat.two_pow_pos 32, fun a ha => absurd ha List.not_mem_nil⟩
  | option item => exact fun a ha => nomatch ha
  | pair first second => exact ⟨first.fits_plain, second.fits_plain⟩
  | dict item => exact ⟨Nat.two_pow_pos 32, fun e he => absurd he List.not_mem_nil⟩
  | grid item => exact ⟨Nat.two_pow_pos 32, fun e he => absurd he List.not_mem_nil⟩
  | record name fields => exact fields.fits_plain
  | choice name first others => exact True.intro

theorem Fields.fits_plain (fields : Fields) : fields.Fits fields.plain := by
  cases fields with
  | done => exact True.intro
  | field name shape presence rest => exact ⟨shape.fits_plain, rest.fits_plain⟩

end

/-- A byte that is read as data of a shape is a number, and so fits. -/
theorem Shape.yields_ofOctet (b : UInt8) (shape : Shape) :
    Yields (shape.ofOctet b) shape.Fits := by
  cases shape with
  | int => exact Yields.pure True.intro
  | nat => exact Yields.pure True.intro
  | _ => exact Yields.throw _

theorem Fields.yields_ofOctets (fields : Fields) (bs : Bytes) :
    Yields (fields.ofOctets bs) fields.Fits := by
  cases fields with
  | done => exact Yields.pure True.intro
  | field name shape presence rest =>
    cases bs with
    | nil =>
      refine Yields.ite ?_ (Yields.throw _)
      exact (rest.yields_ofOctets []).bind fun _ hrest => Yields.pure ⟨shape.fits_plain, hrest⟩
    | cons b bs =>
      refine (shape.yields_ofOctet b).bind fun _ hvalue => ?_
      exact (rest.yields_ofOctets bs).bind fun _ hrest => Yields.pure ⟨hvalue, hrest⟩

/-- Whether the fields of a record that have been read so far fit. -/
def Fields.SlotsFit : (fields : Fields) → fields.Slots → Prop
  | .done, _ => True
  | .field _ shape _ rest, slots => (∀ value ∈ slots.1, shape.Fits value) ∧ rest.SlotsFit slots.2

theorem Fields.slotsFit_unread (fields : Fields) : fields.SlotsFit fields.unread := by
  cases fields with
  | done => exact True.intro
  | field name shape presence rest => exact ⟨fun _ h => (nomatch h), rest.slotsFit_unread⟩

theorem Presence.fits_fallback {presence : Presence} {shape : Shape} {value : shape.Data}
    (h : presence.fallback shape = some value) : shape.Fits value := by
  cases presence with
  | defaulted =>
    injection h with h
    exact h ▸ shape.fits_plain
  | required =>
    cases shape with
    | option item =>
      injection h with h
      exact h ▸ fun _ h => nomatch h
    | _ => cases h

/-- When all members have been read, those that are missing get their fallbacks, and all of them
fit. -/
theorem Fields.fits_of_finish {fields : Fields} {slots : fields.Slots} {values : fields.Data}
    (hslots : fields.SlotsFit slots) (h : fields.finish slots = .ok values) :
    fields.Fits values := by
  cases fields with
  | done => exact True.intro
  | field name shape presence rest =>
    obtain ⟨slot, slots⟩ := slots
    -- the field has a value, read or standing in, and the others are left
    have hrest : ∀ value, shape.Fits value →
        (rest.finish slots).map (fun values => (value, values)) = .ok values →
        (Fields.field name shape presence rest).Fits values := by
      intro value hvalue h
      cases hfinish : rest.finish slots with
      | error name =>
        rw [hfinish] at h
        cases h
      | ok others =>
        rw [hfinish] at h
        cases h
        exact ⟨hvalue, rest.fits_of_finish hslots.2 hfinish⟩
    have h : (slot <|> presence.fallback shape).elim (.error name) (fun value =>
      (rest.finish slots).map fun values => (value, values)) = .ok values := h
    cases slot with
    | some value => exact hrest value (hslots.1 value rfl) h
    | none =>
      have h : (presence.fallback shape).elim (.error name) (fun value =>
        (rest.finish slots).map fun values => (value, values)) = .ok values := h
      cases hvalue : presence.fallback shape with
      | some value =>
        rw [hvalue] at h
        exact hrest value (Presence.fits_fallback hvalue) h
      | none =>
        rw [hvalue] at h
        cases h

mutual

/-- Whatever form a value comes in, what is read of it fits. -/
theorem Shape.yields_unpack (room : Nat) (shape : Shape) :
    Yields (shape.unpack room) shape.Fits := by
  cases shape with
  | int => exact (Yields.trivial _).mono fun _ _ => True.intro
  | nat => exact (Yields.trivial _).mono fun _ _ => True.intro
  | text => exact yields_string
  | flag => exact (Yields.trivial _).mono fun _ _ => True.intro
  | bytes => exact yields_octets
  | list item =>
    refine yields_head.bind fun p hp => ?_
    obtain ⟨marker, h⟩ := p
    cases h with
    | array n =>
      -- as many items as the head announces
      have hp : n < 2 ^ 32 := hp
      refine Yields.bind_right fun room => (yields_repeatN (item.yields_unpack room) n).mono ?_
      exact fun values hvalues => ⟨hvalues.1 ▸ hp, hvalues.2⟩
    | octets bs =>
      -- every byte stands for an item
      have hp : bs.length < 2 ^ 32 := hp
      refine (yields_mapM (fun b => item.yields_ofOctet b) bs).mono ?_
      exact fun values hvalues => ⟨hvalues.1 ▸ hp, hvalues.2⟩
    | _ => exact Yields.throw _
  | option item => exact yields_optional (item.yields_unpack room)
  | pair first second =>
    refine yields_head.bind fun p hp => ?_
    obtain ⟨marker, h⟩ := p
    dsimp only
    split
    · refine Yields.bind_right fun room => (first.yields_unpack room).bind fun a ha => ?_
      exact (second.yields_unpack room).bind fun b hb => Yields.pure ⟨ha, hb⟩
    · exact Yields.throw _
    · refine (first.yields_ofOctet _).bind fun a ha => ?_
      exact (second.yields_ofOctet _).bind fun b hb => Yields.pure ⟨ha, hb⟩
    · exact Yields.throw _
    · exact Yields.throw _
  | dict item =>
    refine yields_head.bind fun p hp => ?_
    obtain ⟨marker, h⟩ := p
    cases h with
    | map n =>
      have hp : n < 2 ^ 32 := hp
      refine Yields.bind_right fun room =>
        (yields_entries yields_string (item.yields_unpack room) n).mono ?_
      exact fun values hvalues => ⟨Nat.lt_of_le_of_lt hvalues.1 hp, hvalues.2⟩
    | _ => exact Yields.throw _
  | grid item =>
    refine yields_head.bind fun p hp => ?_
    obtain ⟨marker, h⟩ := p
    cases h with
    | map n =>
      have hp : n < 2 ^ 32 := hp
      refine Yields.bind_right fun room =>
        (yields_entries (Yields.trivial cell) (item.yields_unpack room) n).mono ?_
      exact fun values hvalues =>
        ⟨Nat.lt_of_le_of_lt hvalues.1 hp, fun e he => (hvalues.2 e he).2⟩
    | _ => exact Yields.throw _
  | record name fields =>
    refine yields_head.bind fun p hp => ?_
    obtain ⟨marker, h⟩ := p
    cases h with
    -- the fields in order, one byte for each, or by their names
    | array n =>
      refine Yields.ite (Yields.throw _) ?_
      exact Yields.bind_right fun room => fields.yields_unpackItems room n
    | octets bs => exact fields.yields_ofOctets bs
    | map n =>
      refine Yields.bind_right fun room => ?_
      refine (yields_foldN (I := fun _ => fields.SlotsFit) ?_ n 0 _ fields.slotsFit_unread).bind
        fun slots hslots => ?_
      · intro _ slots hslots
        exact Yields.bind_right fun key => fields.yields_unpackMember room key 0 hslots
      · split
        · rename_i values hvalues
          exact Yields.pure (Fields.fits_of_finish hslots hvalues)
        · exact Yields.throw _
    | _ => exact Yields.throw _
  | choice name first others => exact (Yields.trivial _).mono fun _ _ => True.intro

/-- Fields that are read from an array fit, by induction on the fields. -/
theorem Fields.yields_unpackItems (room left : Nat) (fields : Fields) :
    Yields (fields.unpackItems room left) fields.Fits := by
  cases fields with
  | done => exact Yields.pure True.intro
  | field name shape presence rest =>
    refine Yields.ite ?_ (Yields.ite ?_ (Yields.throw _))
    · refine (shape.yields_unpack room).bind fun _ hvalue => ?_
      exact (rest.yields_unpackItems room (left - 1)).bind fun _ hrest =>
        Yields.pure ⟨hvalue, hrest⟩
    · exact (rest.yields_unpackItems room 0).bind fun _ hrest =>
        Yields.pure ⟨shape.fits_plain, hrest⟩

/-- A member that is read from a map goes into its slot, and the slots still fit. -/
theorem Fields.yields_unpackMember (room : Nat) (key : Key) (position : Nat) (fields : Fields)
    {slots : fields.Slots} (hslots : fields.SlotsFit slots) :
    Yields (fields.unpackMember room key position slots) fields.SlotsFit := by
  cases fields with
  | done => exact Yields.bind_right fun _ => Yields.pure True.intro
  | field name shape presence rest =>
    refine Yields.ite (Yields.ite (Yields.throw _) ?_) ?_
    · refine (shape.yields_unpack room).bind fun value hvalue => Yields.pure ⟨?_, hslots.2⟩
      intro a ha
      cases ha
      exact hvalue
    · have hrest := rest.yields_unpackMember room key (position + 1) hslots.2
      exact hrest.bind fun _ hothers => Yields.pure ⟨hslots.1, hothers⟩

end

/-! ## What is short fits -/

/-- If every item is written with at least one byte, there are at least as many bytes as items. -/
theorem length_le_length_flatMap {α : Type} (enc : α → Bytes) (as : List α)
    (h : ∀ a ∈ as, 0 < (enc a).length) : as.length ≤ (as.flatMap enc).length := by
  induction as with
  | nil => exact Nat.zero_le _
  | cons a as ih =>
    have hhead := h a (List.mem_cons_self ..)
    have htail := ih fun a' ha' => h a' (List.mem_cons_of_mem a ha')
    rw [List.flatMap_cons, List.length_append, List.length_cons]
    omega

/-- Each item is written within the bytes of all. -/
theorem length_le_length_flatMap_of_mem {α : Type} (enc : α → Bytes) {a : α} {as : List α}
    (h : a ∈ as) : (enc a).length ≤ (as.flatMap enc).length := by
  obtain ⟨before, after, rfl⟩ := List.append_of_mem h
  rw [List.flatMap_append, List.flatMap_cons, List.length_append, List.length_append]
  omega

/-- A text is written behind its head. -/
theorem length_le_length_text (bs : Bytes) : bs.length ≤ (MessagePack.text bs).length := by
  unfold MessagePack.text
  rw [List.length_append]
  omega

theorem length_le_length_octets (bs : Bytes) : bs.length ≤ (MessagePack.octets bs).length := by
  unfold MessagePack.octets
  rw [List.length_append]
  omega

/-- The entries of a dictionary with a short binary form are few, and each is short. -/
theorem fits_entries {κ α : Type} [Ord κ] {encKey : κ → Bytes} {enc : α → Bytes} {d : Dict κ α}
    (hpos : ∀ a, 0 < (enc a).length)
    (h : (MessagePack.mapHead d.size
      ++ d.toList.flatMap fun (k, a) => encKey k ++ enc a).length < 2 ^ 32) :
    d.size < 2 ^ 32
      ∧ ∀ e ∈ d.toList, (encKey e.1).length < 2 ^ 32 ∧ (enc e.2).length < 2 ^ 32 := by
  rw [List.length_append] at h
  refine ⟨?_, fun e he => ?_⟩
  · have hcount := length_le_length_flatMap (fun e : κ × α => encKey e.1 ++ enc e.2)
      d.toList fun e _ => by
        have := hpos e.2
        rw [List.length_append]
        omega
    show d.toList.length < 2 ^ 32
    exact Nat.lt_of_le_of_lt (Nat.le_trans hcount (Nat.le_add_left ..)) h
  · have hentry := length_le_length_flatMap_of_mem
      (fun e : κ × α => encKey e.1 ++ enc e.2) he
    have hlt := Nat.lt_of_le_of_lt (Nat.le_trans hentry (Nat.le_add_left ..)) h
    rw [List.length_append] at hlt
    exact ⟨by omega, by omega⟩

mutual

/-- A binary form of less than `2 ^ 32` bytes has no longer length within it. -/
theorem Shape.fits_of_length_pack (shape : Shape) (value : shape.Data)
    (h : (shape.pack value).length < 2 ^ 32) : shape.Fits value := by
  cases shape with
  | int => exact True.intro
  | nat => exact True.intro
  | text => exact Nat.lt_of_le_of_lt (length_le_length_text _) h
  | flag => exact True.intro
  | bytes => exact Nat.lt_of_le_of_lt (length_le_length_octets _) h
  | list item =>
    have h : (MessagePack.arrayHead (List.length value)
      ++ List.flatMap item.pack value).length < 2 ^ 32 := h
    rw [List.length_append] at h
    have hcount := length_le_length_flatMap item.pack value fun a _ =>
      item.length_pack_pos a
    refine ⟨by omega, fun a ha => item.fits_of_length_pack a ?_⟩
    have hitem := length_le_length_flatMap_of_mem item.pack ha
    omega
  | option item =>
    intro a ha
    cases ha
    exact item.fits_of_length_pack a h
  | pair first second =>
    have h : (MessagePack.arrayHead 2 ++ first.pack value.1 ++ second.pack value.2).length
      < 2 ^ 32 := h
    rw [List.length_append, List.length_append] at h
    exact ⟨first.fits_of_length_pack value.1 (by omega),
      second.fits_of_length_pack value.2 (by omega)⟩
  | dict item =>
    have hentries := fits_entries (d := (value : Dict String item.Data)) item.length_pack_pos h
    refine ⟨hentries.1, fun e he => ⟨?_, item.fits_of_length_pack e.2 (hentries.2 e he).2⟩⟩
    exact Nat.lt_of_le_of_lt (length_le_length_text _) (hentries.2 e he).1
  | grid item =>
    have hentries := fits_entries (d := (value : Dict Cell item.Data)) item.length_pack_pos h
    exact ⟨hentries.1, fun e he => item.fits_of_length_pack e.2 (hentries.2 e he).2⟩
  | record name fields =>
    have h : (MessagePack.arrayHead fields.count ++ fields.pack value).length < 2 ^ 32 := h
    rw [List.length_append] at h
    exact fields.fits_of_length_pack value (by omega)
  | choice name first others => exact True.intro

/-- Fields with a short binary form fit, as each value stands within it. -/
theorem Fields.fits_of_length_pack (fields : Fields) (values : fields.Data)
    (h : (fields.pack values).length < 2 ^ 32) : fields.Fits values := by
  cases fields with
  | done => exact True.intro
  | field name shape presence rest =>
    have h : (shape.pack values.1 ++ rest.pack values.2).length < 2 ^ 32 := h
    rw [List.length_append] at h
    exact ⟨shape.fits_of_length_pack values.1 (by omega),
      rest.fits_of_length_pack values.2 (by omega)⟩

end

end Switchboard
