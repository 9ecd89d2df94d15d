import Switchboard.Envelope
import Switchboard.Proofs.Frame
import Switchboard.Proofs.MessagePack.RoundTrip

/-!
# Requests and replies survive the wire

A request or a reply that has been framed arrives as it was sent, and one that has been read from
any bytes, written by whomever, is read back from its own. `Carried` says both of a type, and
`carried_of` reduces it to what the type alone decides: that its shape can be read back, and that
the data of a value fit if those that it was made from do. The second is a question only for
headers, whose names are lowered: that keeps their length, and it can make two names one but
never one two.
-/

namespace Switchboard

open MessagePack.Reader (depthLimit)

/-! ## Headers that are read -/

theorem Text.length_encodeChar_lowerChar (c : Char) :
    (Utf8.encodeChar (lowerChar c)).length = (Utf8.encodeChar c).length := by
  have hone : ∀ {c : Char}, c.toNat < 0x80 → (Utf8.encodeChar c).length = 1 := by
    intro c hc
    unfold Utf8.encodeChar
    rw [if_pos hc]
    rfl
  unfold lowerChar
  split
  · rename_i hc
    have hhigh : c.toNat ≤ 0x5A := hc.2
    rw [hone, hone (by omega)]
    rw [Utf8.toNat_ofNat_char (by omega)]
    omega
  · rfl

/-- Small letters take as many bytes as capital ones. -/
theorem Text.length_ofString_lower (s : String) :
    (Utf8.ofString (lower s)).length = (Utf8.ofString s).length := by
  unfold lower Utf8.ofString Utf8.encode
  rw [String.toList_ofList]
  induction s.toList with
  | nil => rfl
  | cons c cs ih =>
    rw [List.map_cons, List.flatMap_cons, List.flatMap_cons, List.length_append,
      List.length_append, length_encodeChar_lowerChar, ih]

namespace Headers

theorem mem_foldl_insert {h : Headers} {es : List (String × String)} {e : String × String}
    (he : e ∈ (es.foldl (fun h e => h.insert e.1 e.2) h).entries.toList) :
    e ∈ h.entries.toList ∨ ∃ d ∈ es, e = (Text.lower d.1, d.2) := by
  induction es generalizing h with
  | nil => exact .inl he
  | cons d es ih =>
    rcases ih he with he | ⟨d', hd', heq⟩
    · rcases Dict.mem_place he with rfl | he
      · exact .inr ⟨d, List.mem_cons_self .., rfl⟩
      · exact .inl he
    · exact .inr ⟨d', List.mem_cons_of_mem d hd', heq⟩

theorem size_foldl_insert_le (h : Headers) (es : List (String × String)) :
    (es.foldl (fun h e => h.insert e.1 e.2) h).entries.size ≤ h.entries.size + es.length := by
  induction es generalizing h with
  | nil => exact Nat.le_refl _
  | cons d es ih =>
    have hrest := ih (h.insert d.1 d.2)
    have hplace : (h.insert d.1 d.2).entries.size ≤ h.entries.size + 1 :=
      Dict.length_place_le _ _ _
    rw [List.foldl_cons, List.length_cons]
    omega

/-- Headers that are made from entries that fit do so themselves. -/
theorem fits_ofDict {d : Dict String String} (h : (Shape.dict .text).Fits d) :
    (Shape.dict .text).Fits (ofDict d).entries := by
  refine ⟨?_, fun e he => ?_⟩
  · -- names that become one when they are lowered only make the entries fewer
    have hsize := size_foldl_insert_le empty d.toList
    have hempty : (empty : Headers).entries.size = 0 := rfl
    rw [hempty, Nat.zero_add] at hsize
    exact Nat.lt_of_le_of_lt hsize h.1
  · rcases mem_foldl_insert he with he | ⟨e', he', rfl⟩
    · exact absurd he List.not_mem_nil
    · have hfits := h.2 e' he'
      exact ⟨by rw [Text.length_ofString_lower]; exact hfits.1, hfits.2⟩

end Headers

/-! ## Types that survive the wire -/

/-- The length of a body under which its frame cannot be taken for an HTTP request. -/
def bodyLimit : Nat := 10 ^ 9

/-- What the wire does for the values of a type. -/
structure Carried (α : Type) [Payload α] : Prop where
  /-- A value with a body under the limit has a frame. The value and the end of the frame are
  found in whatever the frame is followed by, and a part of the frame tells what it lacks. -/
  framed : ∀ a : α, (toBinary a).length < bodyLimit → ∃ frame,
    Frame.ofValue a = .ok frame
      ∧ (∀ rest, Frame.value (frame ++ rest) = .ok a
        ∧ Boundary.of? (frame ++ rest) = some ⟨.binary, frame.length⟩)
      ∧ ∀ cut < frame.length, (Frame.value (frame.take cut) : Except Frame.Fault α)
        = .error (.truncated (if cut < 4 then 4 else frame.length) cut)
  /-- A value that is read, in whatever form, is read again from the form it is written in. -/
  reread : ∀ (bytes : Bytes) (a : α), ofBinary bytes = .ok a → ofBinary (toBinary a) = .ok a

section

variable {α : Type} [Payload α]

theorem value_of_body {buf body : Bytes} {a : α} (hbody : Frame.body buf = .ok body)
    (ha : ofBinary body = .ok a) : Frame.value buf = .ok a := by
  unfold Frame.value
  rw [hbody]
  simp only [bind, Except.bind, ha]

theorem value_of_body_eq_error {buf : Bytes} {fault : Frame.Fault}
    (hbody : Frame.body buf = .error fault) :
    (Frame.value buf : Except Frame.Fault α) = .error fault := by
  unfold Frame.value
  rw [hbody]
  rfl

/-- Whatever has a frame is found in it, if its type can be read back. -/
theorem value_append_of_ofValue (hreg : (Payload.shape α).Regular)
    (hdepth : (Payload.shape α).depth < depthLimit) {a : α} {frame : Bytes}
    (hframe : Frame.ofValue a = .ok frame) (rest : Bytes) :
    Frame.value (frame ++ rest) = .ok a := by
  have hsize : (toBinary a).length < 2 ^ 32 := (Frame.encode_eq_ok_iff.1 hframe).1
  have hread := ofBinary_toBinary_append hreg hdepth a (Shape.fits_of_length_pack _ _ hsize) []
  rw [List.append_nil] at hread
  exact value_of_body (Frame.body_append hframe rest) hread

/-- A type survives the wire if its shape can be read back and the data of its values fit. -/
theorem carried_of (hreg : (Payload.shape α).Regular)
    (hdepth : (Payload.shape α).depth < depthLimit)
    (hfits : ∀ data, (Payload.shape α).Fits data →
      (Payload.shape α).Fits (Payload.toData (Payload.ofData (α := α) data))) :
    Carried α := by
  refine ⟨fun a hbody => ?_, fun bytes a ha => ?_⟩
  · have hlimit : (toBinary a).length < 10 ^ 9 := hbody
    have hframe := Frame.encode_eq_ok_iff.2 ⟨Nat.lt_trans hlimit (by decide), rfl⟩
    refine ⟨_, hframe, fun rest => ⟨?_, ?_⟩, fun cut hcut => ?_⟩
    · exact value_append_of_ofValue hreg hdepth hframe rest
    · exact Boundary.of?_frame hframe (Nat.lt_trans hlimit (by decide)) rest
    · exact value_of_body_eq_error (Frame.body_take hframe hcut)
  · -- what was read fits, though in other bytes, and so it is read from its own
    obtain ⟨data, hdata, rfl⟩ := fits_of_ofBinary ha
    have hread := ofBinary_toBinary_append hreg hdepth _ (hfits data hdata) []
    rw [List.append_nil] at hread
    exact hread

end

theorem Request.regular : (Payload.shape Request).Regular :=
  ⟨by decide, True.intro, True.intro, True.intro, True.intro, True.intro, True.intro, True.intro⟩

theorem Request.depth_lt : (Payload.shape Request).depth < depthLimit := by decide

theorem Request.carried : Carried Request := by
  refine carried_of Request.regular Request.depth_lt fun data hdata => ?_
  obtain ⟨name, payload, referrer, cookie, headers, args, done⟩ := data
  obtain ⟨hname, hpayload, hreferrer, hcookie, hheaders, hargs, _⟩ := hdata
  exact ⟨hname, hpayload, hreferrer, hcookie, Headers.fits_ofDict hheaders, hargs, True.intro⟩

theorem Reply.carried : Carried Reply := by
  refine carried_of ?_ (by decide) fun data hdata => ?_
  · exact ⟨by decide, True.intro, True.intro, True.intro, True.intro⟩
  · exact hdata

/-- **Envelopes survive the wire.** Both in frames and in whatever form they come. -/
theorem carried_request_and_reply : Carried Request ∧ Carried Reply :=
  ⟨Request.carried, Reply.carried⟩

example : Frame.ofValue (⟨true, [7], ["a=b"]⟩ : Reply)
    = .ok [0, 0, 0, 10, 0x93, 0xC3, 0xC4, 1, 7, 0x91, 0xA3, 0x61, 0x3D, 0x62] := by
  rfl

end Switchboard
