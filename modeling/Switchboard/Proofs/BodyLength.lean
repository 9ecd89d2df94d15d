import Switchboard.Proofs.Requests

/-!
# The length that is used and the length that is told

A head can announce a length more than once. The splitter goes by the first line with a usable
number; the headers of the request keep the value of the last line with the name. So the body of a
request that was read is as long as its own header says exactly if the first and the last length in
its head are one number (`Request.length_body_iff`), and a head with two different lengths gives a
body that is not as long as its header says (`Request.length_body_ne`).
-/

namespace Switchboard.Http

variable {text : List Char} {value : String} {n : Nat}

/-- The length in the headers is the last one that was announced. -/
theorem getLast?_lengths
    (hvalue : (Headers.ofList (fields text)).get? "content-length" = some value)
    (hn : Text.readNat Text.maxWord value.toList = some n) :
    (lengths text).getLast? = some n := by
  unfold Headers.get? at hvalue
  rw [Headers.entries_ofList, Dict.get?_ofList_eq_some_iff] at hvalue
  obtain ⟨before, after, hfields, hafter⟩ := hvalue
  obtain ⟨earlier, rest, hsplit, rfl, hrest⟩ := List.map_eq_append_iff.1 hfields
  obtain ⟨f, later, rfl, hf, rfl⟩ := List.map_eq_cons_iff.1 hrest
  have hlast : announced? f = some n := by
    rw [Prod.mk.injEq] at hf
    exact announced?_eq_some_iff.2 ⟨hf.1, hf.2 ▸ hn⟩
  have hlater : later.filterMap announced? = [] := by
    refine List.filterMap_eq_nil_iff.2 fun g hg => ?_
    refine Option.eq_none_iff_forall_ne_some.2 fun m hm => ?_
    exact hafter _ (List.mem_map_of_mem hg) (announced?_eq_some_iff.1 hm).1
  unfold lengths
  rw [hsplit, List.filterMap_append, List.filterMap_cons_some hlast, hlater]
  exact List.getLast?_concat

namespace Request

variable {buf : Bytes} {r : Request}

/-- **The length of a body and the length in the headers.** Of a request with a body whose headers
have a length, that length is the last one in the head. If the bytes pass for HTTP, the body has the
first one, so the two agree exactly if the head begins and ends with the same length. Bytes that
pass for a frame are cut by the number in front of them instead. -/
theorem length_body_iff (hread : ofBytes? buf = some r) (hpost : r.verb = .post)
    (hvalue : r.headers.get? "content-length" = some value)
    (hn : Text.readNat Text.maxWord value.toList = some n) :
    ∃ head text, Boundary.headEnd buf = some head ∧ Utf8.decode? (buf.take head) = some text ∧
      (lengths text).getLast? = some n ∧
      match Boundary.sniff buf with
      | .http => (lengths text).head? = some r.body.length ∧
          (r.body.length = n ↔ (lengths text).head? = (lengths text).getLast?)
      | .binary => ∃ total, Frame.length? buf = some total ∧ r.body.length = total - head := by
  obtain ⟨found, head, text, first, hread⟩ := exists_of_ofBytes? hread
  rw [hread.headers] at hvalue
  have hlast := getLast?_lengths hvalue hn
  obtain ⟨-, hle⟩ := Boundary.bounds_of_of? hread.boundary
  have hbody : r.body.length = found.length - head := by
    rw [hread.body, hpost]
    dsimp only
    rw [List.length_drop, List.length_take, Nat.min_eq_left hle]
  refine ⟨head, text, hread.headEnd, hread.decodes, hlast, ?_⟩
  have hfound := (Boundary.of?_eq_some_iff.1 hread.boundary).2
  cases hsniff : Boundary.sniff buf with
  | binary =>
    rw [hsniff] at hfound
    exact ⟨found.length, hfound.1, hbody⟩
  | http =>
    obtain ⟨hverb, hletter⟩ := hread.verb_eq_post_iff hsniff
    rw [hsniff] at hfound
    obtain ⟨head', hhead', hlength, -⟩ := (Boundary.httpLength_eq_some_iff (hverb.1 hpost)).1 hfound
    cases hread.headEnd.symm.trans hhead'
    rw [← Utf8.encode_of_decode? hread.decodes,
      Boundary.contentLength_eq_head?_lengths hread.firstLine (hletter hpost)] at hlength
    -- there is a last length, so there is a first one
    have hfirst : (lengths text).head? = some r.body.length := by
      cases hlengths : (lengths text).head? with
      | none =>
        rw [List.head?_eq_none_iff.1 hlengths] at hlast
        cases hlast
      | some m =>
        rw [hlengths, Option.getD_some] at hlength
        rw [hbody, hlength, Nat.add_sub_cancel_left]
    refine ⟨hfirst, ?_⟩
    rw [hfirst, hlast, Option.some.injEq]

/-- Lines without a number are passed over in between, and the name and the number may be written
in other ways. -/
theorem length_body_iff_repeated :
    let buf := Utf8.ofString
      "POST /a\ncontent-length: 2\r\nContent-Length: 1 2\nCONTENT-LENGTH : +02\r\n\r\nabc"
    let r : Request :=
      ⟨.post, "/a", "", Headers.ofList [("content-length", "+02")], Utf8.ofString "ab"⟩
    ofBytes? buf = some r ∧ r.verb = .post ∧ r.headers.get? "content-length" = some "+02" ∧
      Text.readNat Text.maxWord "+02".toList = some 2 ∧ Boundary.sniff buf = .http ∧
      ∃ head text, Boundary.headEnd buf = some head ∧ Utf8.decode? (buf.take head) = some text ∧
        (lengths text).head? = some r.body.length ∧ (lengths text).getLast? = some 2 ∧
        r.body.length = 2 := by
  intro buf r
  have hread : ofBytes? buf = some r := by decide +kernel
  have hvalue : r.headers.get? "content-length" = some "+02" := by decide +kernel
  have hn : Text.readNat Text.maxWord "+02".toList = some 2 := by decide +kernel
  have hsniff : Boundary.sniff buf = .http := by decide +kernel
  obtain ⟨head, text, hhead, htext, hlast, hlengths⟩ := length_body_iff hread rfl hvalue hn
  rw [hsniff] at hlengths
  exact ⟨hread, rfl, hvalue, hn, hsniff, head, text, hhead, htext, hlengths.1, hlast,
    by decide +kernel⟩

/-- With two lengths the body is cut by the first one, and the headers say the second. -/
theorem length_body_ne :
    let buf := Utf8.ofString "POST /a HTTP/1.1\r\nContent-Length: 1\r\nContent-Length: 2\r\n\r\nab"
    let r : Request :=
      ⟨.post, "/a", "", Headers.ofList [("content-length", "2")], Utf8.ofString "a"⟩
    ofBytes? buf = some r ∧ r.verb = .post ∧ r.headers.get? "content-length" = some "2" ∧
      Text.readNat Text.maxWord "2".toList = some 2 ∧ r.body.length ≠ 2 := by
  decide +kernel

end Request

end Switchboard.Http
