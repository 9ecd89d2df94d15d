import Switchboard.Context
import Switchboard.Proofs.Cookie

/-!
# Sessions are issued once

A context finds its session among the cookies of the request, or takes the one that was drawn and
sets it as a cookie. What the client keeps of that cookie goes behind its other cookies, where it
counts before whatever stands under the same name in front of it (`Context.carried?_behind`): an
empty session, a malformed one, or several. So the next context finds the session that was issued,
and issues none (`Context.issued_once`).
-/

namespace Switchboard.Context

variable {c : Context} {settings : SessionSettings} {connection : Connection} {fresh : String}
  {r : Request}

/-! ## Sessions that are drawn -/

/-- The form of a session: thirty-two digits of base sixteen in their small form. -/
def IsSession (s : String) : Prop :=
  s.length = 32 ∧ ∀ c ∈ s.toList, ('0' ≤ c ∧ c ≤ '9') ∨ ('a' ≤ c ∧ c ≤ 'f')

theorem IsSession.ne_empty (h : IsSession fresh) : fresh ≠ "" := by
  rintro rfl
  exact absurd h.1 (by decide)

/-- A session that is drawn is not empty. -/
theorem randomSession_ne_empty {bytes : Bytes} (h : bytes ≠ []) : randomSession bytes ≠ "" := by
  obtain ⟨b, bs, rfl⟩ := List.exists_cons_of_ne_nil h
  intro hempty
  have hchars := congrArg String.toList hempty
  unfold randomSession at hchars
  rw [String.toList_ofList] at hchars
  cases hchars

theorem isSession_randomSession {bytes : Bytes} (h : bytes.length = 16) :
    IsSession (randomSession bytes) := by
  have hdigit : ∀ n < 16, ('0' ≤ Text.hexDigit n ∧ Text.hexDigit n ≤ '9') ∨
      ('a' ≤ Text.hexDigit n ∧ Text.hexDigit n ≤ 'f') := by decide
  have hlength : ∀ bs : Bytes, (bs.flatMap fun b =>
      [Text.hexDigit (b.toNat / 16), Text.hexDigit (b.toNat % 16)]).length = 2 * bs.length := by
    intro bs
    induction bs with
    | nil => rfl
    | cons b bs ih =>
      rw [List.flatMap_cons, List.length_append, ih, List.length_cons, List.length_cons,
        List.length_nil, List.length_cons]
      omega
  unfold randomSession
  constructor
  · rw [String.length_ofList, hlength, List.length_map, List.length_zipIdx, h]
  · rw [String.toList_ofList]
    intro c hc
    obtain ⟨b, -, hc⟩ := List.mem_flatMap.1 hc
    have hb : b.toNat < 256 := b.toNat_lt
    rw [List.mem_cons, List.mem_singleton] at hc
    rcases hc with rfl | rfl
    · exact hdigit _ (by omega)
    · exact hdigit _ (by omega)

/-! ## Sessions that are issued -/

/-- The session that comes with a request, if one does. -/
def carried? (settings : SessionSettings) (r : Request) : Option String :=
  ((Cookie.read r.cookie).get? settings.cookieName).filter (!·.isEmpty)

theorem carried?_eq_some_iff {id : String} : carried? settings r = some id ↔
    (Cookie.read r.cookie).get? settings.cookieName = some id ∧ id ≠ "" := by
  unfold carried?
  rw [Option.filter_eq_some_iff]
  refine and_congr_right fun _ => ?_
  rw [Bool.not_eq_true', ← Bool.not_eq_true, String.isEmpty_iff]

/-- A caller with a session is issued none. -/
theorem ensureSession_of_isSome (h : c.session?.isSome = true) (fresh : String) :
    c.ensureSession fresh = c := by
  unfold ensureSession
  rw [if_pos h]

/-- A caller without one has the session that was drawn. -/
theorem session?_ensureSession (hfresh : fresh ≠ "") :
    (c.ensureSession fresh).session? = c.session?.or (some fresh) := by
  cases hsession : c.session? with
  | some id =>
    rw [ensureSession_of_isSome (by rw [hsession]; rfl), hsession]
    rfl
  | none =>
    have hkept : (!fresh.isEmpty) = true := by
      rw [Bool.not_eq_true', ← Bool.not_eq_true, String.isEmpty_iff]
      exact hfresh
    unfold ensureSession
    rw [hsession, Option.isSome_none, if_neg Bool.false_ne_true]
    show ((c.cookies.insert c.settings.cookieName fresh).get? c.settings.cookieName).filter
      (!·.isEmpty) = some fresh
    rw [Dict.get?_insert, if_pos Std.ReflCmp.compare_self, Option.filter_some, if_pos hkept]

theorem outbox_ensureSession (h : c.session? = none) (fresh : String) :
    (c.ensureSession fresh).outbox =
      c.outbox ++ [Cookie.write c.settings.cookieName fresh (sessionAttributes c.settings)] := by
  unfold ensureSession
  rw [h, Option.isSome_none, if_neg Bool.false_ne_true]
  rfl

/-- The context of a request before it is seen to that there is a session. -/
theorem exists_ensureSession_eq_ofRequest (connection : Connection) (settings : SessionSettings)
    (fresh : String) (r : Request) :
    ∃ c : Context, ofRequest connection settings fresh r = c.ensureSession fresh ∧
      c.session? = carried? settings r ∧ c.settings = settings ∧ c.outbox = [] :=
  ⟨_, rfl, rfl, rfl, rfl⟩

/-- The context of a request has the session that comes with it, or else the one that was drawn. -/
theorem session?_ofRequest (hfresh : fresh ≠ "") :
    (ofRequest connection settings fresh r).session? = (carried? settings r).or (some fresh) := by
  obtain ⟨c, hc, hsession, -, -⟩ :=
    exists_ensureSession_eq_ofRequest connection settings fresh r
  rw [hc, session?_ensureSession hfresh, hsession]

/-- With the session that comes with a request nothing is issued. -/
theorem ofRequest_of_carried {id : String} (h : carried? settings r = some id) :
    (ofRequest connection settings fresh r).session? = some id ∧
      (ofRequest connection settings fresh r).outbox = [] := by
  obtain ⟨c, hc, hsession, -, houtbox⟩ :=
    exists_ensureSession_eq_ofRequest connection settings fresh r
  rw [h] at hsession
  rw [hc, ensureSession_of_isSome (by rw [hsession]; rfl)]
  exact ⟨hsession, houtbox⟩

theorem outbox_ofRequest (h : carried? settings r = none) :
    (ofRequest connection settings fresh r).outbox =
      [Cookie.write settings.cookieName fresh (sessionAttributes settings)] := by
  obtain ⟨c, hc, hsession, rfl, houtbox⟩ :=
    exists_ensureSession_eq_ofRequest connection settings fresh r
  rw [hc, outbox_ensureSession (hsession.trans h), houtbox]
  rfl

/-! ## Sessions that come back -/

/-- A cookie that was set and is sent behind others is the one that counts. -/
theorem carried?_behind {id : String} {attributes : Cookie.Attributes}
    (hname : settings.cookieName ≠ "") (hid : id ≠ "") (old : String)
    (hr : r.cookie =
      old ++ "; " ++ Cookie.bare (Cookie.write settings.cookieName id attributes)) :
    carried? settings r = some id := by
  have hpair : (Cookie.read (Cookie.pair settings.cookieName id)).get? settings.cookieName =
      some id := by
    rw [Dict.get?_eq_some_iff, Cookie.toList_read_pair hname]
    exact List.mem_singleton_self _
  rw [carried?_eq_some_iff, hr, Cookie.bare_write, Cookie.get?_read_append, hpair]
  exact ⟨rfl, hid⟩

/-- **Sessions.** Every context has a session. If the request comes with one, that is the session
and no cookie is set; otherwise exactly one is set, and if the client sends what stands in front of
the first semicolon of it behind the cookies it has, then every later context has the same session
and sets no cookie. -/
theorem issued_once (connection : Connection) (r : Request) (hname : settings.cookieName ≠ "")
    (hfresh : IsSession fresh) :
    let c := ofRequest connection settings fresh r
    let comes id := (Cookie.read r.cookie).get? settings.cookieName = some id ∧ id ≠ ""
    (∃ id, c.session? = some id ∧ id ≠ "") ∧
      (∀ id, comes id → c.session? = some id ∧ c.outbox = []) ∧
      ((∀ id, ¬ comes id) → ∃ line, c.outbox = [line] ∧
        ∀ connection' fresh' r', r'.cookie = r.cookie ++ "; " ++ Cookie.bare line →
          (ofRequest connection' settings fresh' r').session? = c.session? ∧
            (ofRequest connection' settings fresh' r').outbox = []) := by
  intro c comes
  have hcomes : ∀ id, comes id ↔ carried? settings r = some id := fun id =>
    carried?_eq_some_iff.symm
  have hsession : c.session? = (carried? settings r).or (some fresh) :=
    session?_ofRequest hfresh.ne_empty
  refine ⟨?_, fun id hid => ofRequest_of_carried ((hcomes id).1 hid), fun hnone => ?_⟩
  · cases hcarried : carried? settings r with
    | some id =>
      rw [hcarried] at hsession
      exact ⟨id, hsession, ((hcomes id).2 hcarried).2⟩
    | none =>
      rw [hcarried] at hsession
      exact ⟨fresh, hsession, hfresh.ne_empty⟩
  · have hcarried : carried? settings r = none :=
      Option.eq_none_iff_forall_ne_some.2 fun id hid => hnone id ((hcomes id).2 hid)
    rw [hcarried] at hsession
    refine ⟨_, outbox_ofRequest hcarried, fun connection' fresh' r' hr' => ?_⟩
    rw [hsession]
    exact ofRequest_of_carried (carried?_behind hname hfresh.ne_empty r.cookie hr')

/-- A client comes with an empty session under a name that has to be escaped. -/
theorem issued_once_empty :
    let settings : SessionSettings := { cookieName := "s=;" }
    let fresh := randomSession (List.replicate 16 0xA7)
    let visit (cookie : String) : Request := { Request.plain "" [] with cookie := cookie }
    let connection : Connection := ⟨1, ⟨.v4 127 0 0 1, 80⟩⟩
    let c := ofRequest connection settings fresh (visit "s%3D%3B= ; a=%")
    let c' := ofRequest connection settings ""
      (visit "s%3D%3B= ; a=%; s%3D%3B=a7a7a7a7a7a747a7a7a7a7a7a7a7a7a7")
    settings.cookieName ≠ "" ∧ IsSession fresh ∧
      (∀ id, ¬ ((Cookie.read (visit "s%3D%3B= ; a=%").cookie).get? settings.cookieName = some id ∧
        id ≠ "")) ∧
      c.outbox = ["s%3D%3B=a7a7a7a7a7a747a7a7a7a7a7a7a7a7a7; Max-Age=315360000; path=/"] ∧
      c'.session? = c.session? ∧ c'.outbox = [] := by
  intro settings fresh visit connection c c'
  have hname : settings.cookieName ≠ "" := by decide
  have hfresh : IsSession fresh := isSession_randomSession rfl
  have hnone : ∀ id, ¬ ((Cookie.read (visit "s%3D%3B= ; a=%").cookie).get?
      settings.cookieName = some id ∧ id ≠ "") := by
    rintro id ⟨hid, hne⟩
    have hempty : (Cookie.read (visit "s%3D%3B= ; a=%").cookie).get? settings.cookieName =
        some "" := by decide +kernel
    rw [hempty] at hid
    exact hne (Option.some.inj hid).symm
  obtain ⟨-, -, hissued⟩ := issued_once connection (visit "s%3D%3B= ; a=%") hname hfresh
  obtain ⟨line, hline, hlater⟩ := hissued hnone
  have houtbox : c.outbox =
      ["s%3D%3B=a7a7a7a7a7a747a7a7a7a7a7a7a7a7a7; Max-Age=315360000; path=/"] := by decide +kernel
  have heq := hline.symm.trans houtbox
  cases heq
  exact ⟨hname, hfresh, hnone, houtbox, hlater connection "" _ (by decide +kernel)⟩

end Switchboard.Context
