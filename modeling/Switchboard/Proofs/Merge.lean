import Switchboard.Context
import Switchboard.Envelope
import Switchboard.Proofs.Cookie
import Switchboard.Proofs.Dict

/-!
# One precedence for all that is merged

A request that was carried by others takes over what they say about the caller. Headers and
arguments are dictionaries and are merged as such. Cookies are merged as texts, with those of the
outer request in front, and become a dictionary only when they are read, where the later one of two
cookies counts. These come to the same: whatever is asked of the merged request is answered by the
first request that has an answer, the innermost one first (`foldl_merge_resolves`). The reason for
the cookies is that reading takes a line apart at its semicolons and each pair by itself, so that a
line that was put together from two is read as both, one over the other (`Cookie.get?_read_append`).
-/

namespace Switchboard

/-! ## Headers -/

namespace Headers

/-- Headers are settled by what is under their names. -/
theorem ext_get? {h g : Headers} (heq : ∀ name, h.get? name = g.get? name) : h = g := by
  have hnone : ∀ (f : Headers) {k : String}, Text.lower k ≠ k → f.entries.get? k = none :=
    fun f k hk => Dict.not_mem_keys_iff.1 fun hmem => hk (f.lowered k hmem)
  refine ext (Dict.ext_get? fun k => ?_)
  by_cases hk : Text.lower k = k
  · have hname := heq k
    unfold get? at hname
    rwa [hk] at hname
  · rw [hnone h hk, hnone g hk]

theorem entries_insertIfNew (h : Headers) {name : String} (hname : Text.lower name = name)
    (value : String) : (h.insertIfNew name value).entries = h.entries.insertIfNew name value := by
  unfold insertIfNew Dict.insertIfNew contains get? Dict.contains
  rw [hname]
  split
  · rfl
  · show h.entries.insert (Text.lower name) value = _
    rw [hname]

theorem entries_foldl_insertIfNew (h : Headers) (es : List (String × String))
    (lowered : ∀ e ∈ es, Text.lower e.1 = e.1) :
    (es.foldl (fun h e => h.insertIfNew e.1 e.2) h).entries =
      es.foldl (fun d e => d.insertIfNew e.1 e.2) h.entries := by
  induction es generalizing h with
  | nil => rfl
  | cons e es ih =>
    rw [List.foldl_cons, List.foldl_cons, ih _ fun e he => lowered e (List.mem_cons_of_mem _ he),
      entries_insertIfNew h (lowered e List.mem_cons_self)]

end Headers

namespace Request

variable {β : Type} {ask : Request → Option β} {own : Request} {others : List Request}

/-! ## One merge -/

/-- Whether a question is answered by the request itself, and by the one that carried it only if
the request has no answer. -/
def OwnFirst (ask : Request → Option β) : Prop :=
  ∀ own outer, ask (own.merge outer) = (ask own).or (ask outer)

/-- The page from which a request was made, if it says so. -/
def referrer? (r : Request) : Option String := if r.referrer = "" then none else some r.referrer

theorem getD_referrer? (r : Request) : r.referrer?.getD "" = r.referrer := by
  unfold referrer?
  split
  · rename_i hempty
    rw [hempty]
    rfl
  · rfl

theorem ownFirst_referrer : OwnFirst referrer? := by
  intro own outer
  unfold referrer? merge
  by_cases hempty : own.referrer = ""
  · simp [hempty]
  · simp [hempty]

theorem ownFirst_headers (name : String) : OwnFirst fun r => r.headers.get? name := by
  intro own outer
  have lowered : ∀ e ∈ outer.headers.toList, Text.lower e.1 = e.1 := fun e he =>
    outer.headers.lowered _ (List.mem_map_of_mem he)
  show (outer.headers.toList.foldl (fun h e => h.insertIfNew e.1 e.2) own.headers).get? name = _
  unfold Headers.get?
  rw [Headers.entries_foldl_insertIfNew _ _ lowered, Dict.get?_foldl_insertIfNew]
  rfl

theorem ownFirst_args (key : String) : OwnFirst fun r => r.args.get? key :=
  fun own outer => Dict.get?_foldl_insertIfNew own.args outer.args.toList key

theorem ownFirst_cookies (name : String) : OwnFirst fun r => (Cookie.read r.cookie).get? name := by
  intro own outer
  show (Cookie.read (joinCookies outer.cookie own.cookie)).get? name =
    ((Cookie.read own.cookie).get? name).or ((Cookie.read outer.cookie).get? name)
  unfold joinCookies
  by_cases houter : outer.cookie = ""
  · rw [if_pos (String.isEmpty_iff.2 houter), houter, Cookie.read_empty]
    exact (Option.or_none ..).symm
  · rw [if_neg (mt String.isEmpty_iff.1 houter)]
    by_cases hown : own.cookie = ""
    · rw [if_pos (String.isEmpty_iff.2 hown), hown, Cookie.read_empty]
      rfl
    · rw [if_neg (mt String.isEmpty_iff.1 hown), Cookie.get?_read_append]

/-! ## Merges in a row -/

/-- After merges in a row the first request that has an answer gives it. -/
theorem OwnFirst.foldl (h : OwnFirst ask) (own : Request) (others : List Request) :
    ask (others.foldl merge own) = (own :: others).findSome? ask := by
  induction others generalizing own with
  | nil =>
    rw [List.foldl_nil, List.findSome?_cons]
    cases ask own <;> rfl
  | cons outer others ih =>
    rw [List.foldl_cons, ih, List.findSome?_cons, List.findSome?_cons, List.findSome?_cons, h]
    cases ask own <;> rfl

/-- A request that has been merged already has nothing to add. -/
theorem OwnFirst.again (h : OwnFirst ask) {again : Request} (hagain : again ∈ own :: others) :
    ask ((others.foldl merge own).merge again) = ask (others.foldl merge own) := by
  rw [h, h.foldl]
  cases hfirst : (own :: others).findSome? ask with
  | some b => rfl
  | none => exact List.findSome?_eq_none_iff.1 hfirst again hagain

theorem name_foldl_merge (own : Request) (others : List Request) :
    (others.foldl merge own).name = own.name ∧ (others.foldl merge own).payload = own.payload := by
  induction others generalizing own with
  | nil => exact ⟨rfl, rfl⟩
  | cons outer others ih => exact ih (own.merge outer)

theorem find?_referrer (rs : List Request) :
    (rs.map (·.referrer)).find? (· ≠ "") = rs.findSome? referrer? := by
  induction rs with
  | nil => rfl
  | cons r rs ih =>
    rw [List.map_cons, List.find?_cons, List.findSome?_cons, ih]
    unfold referrer?
    by_cases hempty : r.referrer = ""
    · simp [hempty]
    · simp [hempty]

/-- A method sees no more of a request than the answers to four questions. -/
theorem ofRequest_congr {r r' : Request} (connection : Connection) (settings : SessionSettings)
    (fresh : String) (hreferrer : r.referrer? = r'.referrer?)
    (hheaders : ∀ name, r.headers.get? name = r'.headers.get? name)
    (hargs : ∀ key, r.args.get? key = r'.args.get? key)
    (hcookies : ∀ name, (Cookie.read r.cookie).get? name = (Cookie.read r'.cookie).get? name) :
    Context.ofRequest connection settings fresh r =
      Context.ofRequest connection settings fresh r' := by
  unfold Context.ofRequest
  rw [← getD_referrer? r, hreferrer, getD_referrer?, Headers.ext_get? hheaders,
    Dict.ext_get? hargs, Dict.ext_get? hcookies]

/-- **One precedence.** A request that takes over what others say about the caller, one after the
other, keeps its name and its payload. Its referrer is the first one that is there at all, and every
header, every argument and every cookie is that of the first request that has it, the request itself
before all others and these in their order. Taking over the same request a second time changes
nothing of what a method sees of its caller. -/
theorem foldl_merge_resolves (own : Request) (others : List Request) {again : Request}
    (hagain : again ∈ own :: others) :
    let merged := others.foldl merge own
    let all := own :: others
    merged.name = own.name ∧ merged.payload = own.payload ∧
      merged.referrer = ((all.map (·.referrer)).find? (· ≠ "")).getD "" ∧
      (∀ name, merged.headers.get? name = all.findSome? (·.headers.get? name)) ∧
      (∀ key, merged.args.get? key = all.findSome? (·.args.get? key)) ∧
      (∀ name, (Cookie.read merged.cookie).get? name =
        all.findSome? fun r => (Cookie.read r.cookie).get? name) ∧
      ∀ connection settings fresh,
        Context.ofRequest connection settings fresh (merged.merge again) =
          Context.ofRequest connection settings fresh merged := by
  intro merged all
  obtain ⟨hname, hpayload⟩ := name_foldl_merge own others
  refine ⟨hname, hpayload, ?_, fun name => (ownFirst_headers name).foldl own others,
    fun key => (ownFirst_args key).foldl own others,
    fun name => (ownFirst_cookies name).foldl own others, fun connection settings fresh => ?_⟩
  · rw [find?_referrer, ← ownFirst_referrer.foldl]
    exact (getD_referrer? merged).symm
  · apply ofRequest_congr
    · exact ownFirst_referrer.again hagain
    · exact fun name => (ownFirst_headers name).again hagain
    · exact fun key => (ownFirst_args key).again hagain
    · exact fun name => (ownFirst_cookies name).again hagain

/-- A request with a referrer and a cookie of its own. -/
def inner : Request := { plain "ADD" [] with referrer := "/own", cookie := "a=1" }

/-- A request that carries others, with cookies in a line that is not tidy. -/
def carrier (cookie : String) : Request :=
  { plain "" [] with referrer := "/outer", cookie := cookie, args := .ofList [("d", cookie)] }

/-- Two requests in a row carry one, and the first of them carries it once more. -/
theorem foldl_merge_resolves_twice :
    let others := [carrier "a=0;; b=2", carrier ";b=3; c=%"]
    let merged := others.foldl merge inner
    carrier "a=0;; b=2" ∈ inner :: others ∧ merged.cookie = ";b=3; c=%; a=0;; b=2; a=1" ∧
      merged.referrer = "/own" ∧ merged.args.get? "d" = some "a=0;; b=2" ∧
      (Cookie.read merged.cookie).get? "a" = some "1" ∧
      (Cookie.read merged.cookie).get? "b" = some "2" ∧
      (Cookie.read merged.cookie).get? "c" = some "%" ∧
      ∀ connection settings fresh,
        Context.ofRequest connection settings fresh (merged.merge (carrier "a=0;; b=2")) =
          Context.ofRequest connection settings fresh merged := by
  intro others merged
  have hmem : carrier "a=0;; b=2" ∈ inner :: others :=
    List.mem_cons_of_mem _ List.mem_cons_self
  obtain ⟨-, -, hreferrer, -, hargs, hcookies, hagain⟩ := foldl_merge_resolves inner others hmem
  refine ⟨hmem, by decide +kernel, hreferrer.trans (by decide +kernel),
    (hargs "d").trans (by decide +kernel), (hcookies "a").trans (by decide +kernel),
    (hcookies "b").trans (by decide +kernel), (hcookies "c").trans (by decide +kernel), hagain⟩

end Request

end Switchboard
