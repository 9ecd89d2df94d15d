import Mathlib.Data.List.Induction
import Switchboard.Server.Routes

/-!
# Only forward

The phase of a server and the order to shut it down are two things. Whoever accepts connections
writes the phase when it becomes ready and when it has drained. Whoever tells the server to shut
down gives the order first and writes the phase afterwards, at any time, and the others do not wait
for that. Nothing but the order in which all this happens keeps the two together, so what holds of
them is said of histories of such events, of which any can come between two others.

Two of these events can come too late (`Timely`). A server that becomes ready once the phase has
been written, or once it has drained, shows as ready from then on. A phase that is written once the
server has drained takes it back from its end. If neither happens, then each event leaves it to the
phase to tell whether the order has been followed (`Agrees`), and no event takes the phase back
(`agrees_step`). So the life of a server only moves forward if and only if nothing comes too late
(`forward_iff`).
-/

namespace Switchboard

/-- The place of a phase in the life of a server. -/
def Phase.rank : Phase → Nat
  | .starting => 0
  | .ready => 1
  | .draining => 2
  | .stopped => 3

namespace Lifecycle

/-! ## Histories -/

/-- What happens in the life of a server. -/
inductive Event
  /-- The server begins to take connections. -/
  | ready
  /-- Somebody tells the server to shut down. -/
  | orders (kind : ShutdownKind)
  /-- Whoever has been the first to tell it so writes the phase. -/
  | enters
  /-- A request is begun. -/
  | begins
  /-- A request has been answered. -/
  | ends
  /-- The server has waited until nothing was left to do, or for long enough. -/
  | drains (idle : Nat → Bool) (limit poll : Nat)

/-- The order to shut down, if an event is one. -/
def Event.kind? : Event → Option ShutdownKind
  | .orders kind => some kind
  | _ => none

/-- Whether an event is the end of a wait that has found nothing left to do. -/
def Event.hasDrained : Event → Bool
  | .drains idle limit poll => drainsFrom idle limit poll 0
  | _ => false

/-- What an event does. -/
def step (l : Lifecycle) : Event → Lifecycle
  | .ready => l.setReady
  | .orders kind => l.order kind
  | .enters => l.enter
  | .begins => l.beginRequest
  | .ends => l.endRequest
  | .drains idle limit poll => (l.drain idle limit poll).2

/-- What a history does. -/
def run (l : Lifecycle) (events : List Event) : Lifecycle := events.foldl step l

/-- The first order to shut down in a history. -/
def firstOrder? (events : List Event) : Option ShutdownKind := events.findSome? Event.kind?

/-- Whether in a history somebody has told the server to shut down and has written the phase. -/
def HasEntered (events : List Event) : Prop :=
  ∃ early, early ++ [.enters] <+: events ∧ (firstOrder? early).isSome = true

/-- Whether in a history the server has drained. -/
def HasDrained (events : List Event) : Prop := ∃ e ∈ events, e.hasDrained = true

variable {l : Lifecycle} {e : Event} {events early late : List Event}

theorem run_concat (l : Lifecycle) (events : List Event) (e : Event) :
    l.run (events ++ [e]) = (l.run events).step e := by
  simp [run, List.foldl_append]

theorem firstOrder?_concat (events : List Event) (e : Event) :
    firstOrder? (events ++ [e]) = (firstOrder? events).or e.kind? := by
  simp [firstOrder?, List.findSome?_append]

theorem hasEntered_concat : HasEntered (events ++ [e]) ↔
    HasEntered events ∨ e = .enters ∧ (firstOrder? events).isSome = true := by
  constructor
  · rintro ⟨early, hearly, htold⟩
    rcases List.prefix_concat_iff.1 hearly with heq | hearly
    · obtain ⟨rfl, he⟩ := List.append_inj' heq rfl
      exact .inr ⟨(List.singleton_inj.1 he).symm, htold⟩
    · exact .inl ⟨early, hearly, htold⟩
  · rintro (⟨early, hearly, htold⟩ | ⟨rfl, htold⟩)
    · exact ⟨early, hearly.trans (List.prefix_append _ _), htold⟩
    · exact ⟨events, List.prefix_rfl, htold⟩

theorem hasDrained_concat :
    HasDrained (events ++ [e]) ↔ HasDrained events ∨ e.hasDrained = true := by
  simp [HasDrained, or_and_right, exists_or]

theorem HasEntered.of_isPrefix (h : early <+: late) : HasEntered early → HasEntered late :=
  fun ⟨first, hfirst, htold⟩ => ⟨first, hfirst.trans h, htold⟩

/-- An order that has been given stays the first one. -/
theorem firstOrder?_of_isPrefix {kind : ShutdownKind} (h : early <+: late)
    (hearly : firstOrder? early = some kind) : firstOrder? late = some kind := by
  obtain ⟨rest, rfl⟩ := h
  unfold firstOrder? at hearly ⊢
  simp [List.findSome?_append, hearly]

/-- Whoever writes the phase has given an order. -/
theorem HasEntered.isSome (h : HasEntered events) : (firstOrder? events).isSome = true := by
  obtain ⟨early, hearly, htold⟩ := h
  obtain ⟨kind, hkind⟩ := Option.isSome_iff_exists.1 htold
  rw [firstOrder?_of_isPrefix ((List.prefix_append _ _).trans hearly) hkind]
  rfl

/-! ## What a history leads to -/

/-- A wait either ends with nothing left to do, or leaves everything as it is. -/
theorem step_drains (l : Lifecycle) (idle : Nat → Bool) (limit poll : Nat) :
    l.step (.drains idle limit poll) =
      if (Event.drains idle limit poll).hasDrained then l.stop else l := by
  show (l.drain idle limit poll).2 = if drainsFrom idle limit poll 0 then l.stop else l
  unfold drain
  split
  · rfl
  · rfl

theorem kind_step (l : Lifecycle) (e : Event) : (l.step e).kind = l.kind.or e.kind? := by
  cases e with
  | orders kind => exact l.kind_order kind
  | enters => exact l.kind_enter.trans (Option.or_none).symm
  | drains idle limit poll =>
    rw [step_drains]
    split <;> exact (Option.or_none).symm
  | ready => exact (Option.or_none).symm
  | begins => exact (Option.or_none).symm
  | ends => exact (Option.or_none).symm

/-- The kind is that of the first order. -/
theorem kind_run (events : List Event) : (new.run events).kind = firstOrder? events := by
  induction events using List.reverseRecOn with
  | nil => rfl
  | append_singleton events e ih => rw [run_concat, kind_step, ih, firstOrder?_concat]

/-- The phase is to be written as long as an order has been given and it has not. -/
theorem entering_run (events : List Event) : (new.run events).entering = true ↔
    (firstOrder? events).isSome = true ∧ ¬HasEntered events := by
  induction events using List.reverseRecOn with
  | nil => simp [run, new, firstOrder?]
  | append_singleton events e ih =>
    rw [run_concat, firstOrder?_concat, hasEntered_concat]
    cases e with
    | orders kind =>
      show ((new.run events).order kind).entering = true ↔ _
      cases htold : firstOrder? events with
      | some first =>
        -- the order changes nothing, as another one has been given before
        have hstop : (new.run events).isStopping = true := by rw [isStopping, kind_run, htold]; rfl
        rw [order_of_isStopping hstop, ih, htold]
        simp
      | none =>
        have hrunning : (new.run events).isStopping = false := by
          rw [isStopping, kind_run, htold]
          rfl
        have hnobody : ¬HasEntered events := by
          intro hentered
          have hsome := hentered.isSome
          rw [htold] at hsome
          cases hsome
        rw [order_of_running hrunning]
        simp [Event.kind?, hnobody]
    | enters =>
      have hwritten : (new.run events).enter.entering = false := by
        unfold enter
        split
        · rfl
        · simp_all
      show (new.run events).enter.entering = true ↔ _
      rw [hwritten]
      refine iff_of_false Bool.false_ne_true ?_
      rintro ⟨htold, hnot⟩
      exact hnot (.inr ⟨rfl, by simpa [Event.kind?] using htold⟩)
    | drains idle limit poll =>
      have hsame : ((new.run events).step (.drains idle limit poll)).entering =
          (new.run events).entering := by
        rw [step_drains]
        split <;> rfl
      rw [hsame, ih]
      simp [Event.kind?]
    | ready =>
      show (new.run events).entering = true ↔ _
      simp [ih, Event.kind?]
    | begins =>
      show (new.run events).entering = true ↔ _
      simp [ih, Event.kind?]
    | ends =>
      show (new.run events).entering = true ↔ _
      simp [ih, Event.kind?]

/-- Whether the phase has been written that an order to shut down asks for. -/
def Entered (l : Lifecycle) : Prop := l.isStopping = true ∧ l.entering = false

theorem entered_run_iff (events : List Event) : (new.run events).Entered ↔ HasEntered events := by
  unfold Entered isStopping
  rw [kind_run, ← Bool.not_eq_true, entering_run, not_and, not_not]
  exact ⟨fun h => h.2 h.1, fun h => ⟨h.isSome, fun _ => h⟩⟩

/-- Only a server that has drained has stopped. -/
theorem hasDrained_of_stopped (h : (new.run events).phase = .stopped) : HasDrained events := by
  induction events using List.reverseRecOn with
  | nil => cases h
  | append_singleton events e ih =>
    rw [run_concat] at h
    refine hasDrained_concat.2 ?_
    cases e with
    | ready => cases h
    | orders kind => exact .inl (ih ((phase_order _ kind).symm.trans h))
    | enters =>
      cases hentering : (new.run events).entering with
      | true =>
        have hphase : (new.run events).enter.phase = .draining := by
          rw [enter_of_entering hentering]
        rw [show (new.run events).enter.phase = .stopped from h] at hphase
        cases hphase
      | false =>
        have hsame := enter_of_not_entering hentering
        exact .inl (ih ((congrArg Lifecycle.phase hsame).symm.trans h))
    | begins => exact .inl (ih h)
    | ends => exact .inl (ih h)
    | drains idle limit poll =>
      rw [step_drains] at h
      split at h
      · rename_i hdrained
        exact .inr hdrained
      · exact .inl (ih h)

/-! ## In time -/

/-- Whether an event does not come too late. -/
def InTime (l : Lifecycle) : Event → Prop
  | .ready => ¬l.Entered ∧ l.phase ≠ .stopped
  | .enters => l.entering = true → l.phase ≠ .stopped
  | _ => True

/-- Whether a server that has not stopped drains if and only if the phase has been written that an
order to shut down asks for. -/
structure Agrees (l : Lifecycle) : Prop where
  told : l.entering = true → l.isStopping = true
  draining : l.phase ≠ .stopped → (l.phase = .draining ↔ l.Entered)

/-- **One event.** An event that does not come too late takes no server back, and leaves it to the
phase to tell whether the order has been followed. -/
theorem agrees_step (h : l.Agrees) (htime : l.InTime e) :
    (l.step e).Agrees ∧ l.phase.rank ≤ (l.step e).phase.rank := by
  obtain ⟨htold, hdraining⟩ := h
  obtain ⟨phase, kind, entering, pending⟩ := l
  cases e with
  | ready =>
    obtain ⟨hnot, hgoes⟩ := htime
    have hnever : phase ≠ .draining := fun heq => hnot ((hdraining hgoes).1 heq)
    refine ⟨⟨htold, fun _ => iff_of_false nofun hnot⟩, ?_⟩
    cases phase with
    | starting => exact Nat.le_succ 0
    | ready => exact Nat.le_refl 1
    | draining => exact absurd rfl hnever
    | stopped => exact absurd rfl hgoes
  | orders order =>
    cases kind with
    | some first => exact ⟨⟨htold, hdraining⟩, Nat.le_refl _⟩
    | none =>
      -- nobody had told it, so it did not drain, and the phase is still to be written
      refine ⟨⟨fun _ => rfl, fun hgoes => ?_⟩, Nat.le_refl _⟩
      rw [show step _ (.orders order) = Lifecycle.mk phase (some order) true pending from rfl]
        at hgoes ⊢
      refine iff_of_false (fun heq => ?_) (by simp [Entered])
      have hentered := (hdraining hgoes).1 heq
      cases hentered.1
  | enters =>
    cases entering with
    | false => exact ⟨⟨htold, hdraining⟩, Nat.le_refl _⟩
    | true =>
      have hgoes : phase ≠ .stopped := htime rfl
      refine ⟨⟨nofun, fun _ => iff_of_true rfl ⟨htold rfl, rfl⟩⟩, ?_⟩
      cases phase with
      | stopped => exact absurd rfl hgoes
      | _ => exact Nat.le_of_ble_eq_true rfl
  | begins => exact ⟨⟨htold, hdraining⟩, Nat.le_refl _⟩
  | ends => exact ⟨⟨htold, hdraining⟩, Nat.le_refl _⟩
  | drains idle limit poll =>
    rw [step_drains]
    split
    · refine ⟨⟨htold, fun hgoes => absurd rfl hgoes⟩, ?_⟩
      cases phase <;> exact Nat.le_of_ble_eq_true rfl
    · exact ⟨⟨htold, hdraining⟩, Nat.le_refl _⟩

/-- Whether nothing comes too late in a history. The server becomes ready only as long as the phase
has not been written that an order to shut down asks for, and only as long as it has not drained.
Whoever has given the order writes the phase only as long as the server has not drained. -/
structure Timely (events : List Event) : Prop where
  ready : ∀ early, early ++ [.ready] <+: events → ¬HasEntered early ∧ ¬HasDrained early
  enters : ∀ early, early ++ [.enters] <+: events →
    (firstOrder? early).isSome = true → ¬HasEntered early → ¬HasDrained early

theorem Timely.inTime (h : Timely events) (hearly : early ++ [e] <+: events) :
    (new.run early).InTime e := by
  cases e with
  | ready =>
    obtain ⟨hnot, hgoes⟩ := h.ready early hearly
    exact ⟨fun hentered => hnot ((entered_run_iff early).1 hentered),
      fun hstopped => hgoes (hasDrained_of_stopped hstopped)⟩
  | enters =>
    intro hentering hstopped
    obtain ⟨htold, hnot⟩ := (entering_run early).1 hentering
    exact h.enters early hearly htold hnot (hasDrained_of_stopped hstopped)
  | orders kind => trivial
  | begins => trivial
  | ends => trivial
  | drains idle limit poll => trivial

/-- **A whole history.** What holds after one event holds after all, if nothing comes too late. -/
theorem agrees_run (h : Timely events) (hlate : late <+: events) :
    (new.run late).Agrees ∧
      ∀ early, early <+: late → (new.run early).phase.rank ≤ (new.run late).phase.rank := by
  induction late using List.reverseRecOn with
  | nil =>
    refine ⟨⟨nofun, fun _ => iff_of_false nofun ?_⟩, ?_⟩
    · rintro ⟨htold, -⟩
      cases htold
    · intro early hearly
      obtain rfl := List.prefix_nil.1 hearly
      exact Nat.le_refl _
  | append_singleton late e ih =>
    obtain ⟨hagrees, hrank⟩ := ih ((List.prefix_append late [e]).trans hlate)
    obtain ⟨hagrees', hle⟩ := agrees_step hagrees (h.inTime hlate)
    rw [run_concat]
    refine ⟨hagrees', ?_⟩
    intro early hearly
    rcases List.prefix_concat_iff.1 hearly with rfl | hearly
    · exact Nat.le_of_eq (congrArg (·.phase.rank) (run_concat new late e))
    · exact Nat.le_trans (hrank early hearly) hle

/-! ## Forward -/

/-- Whether the life of a server only moves forward in a history: no phase is followed by an earlier
one; the kind of the shutdown is that of the first order, from that order on; and once whoever has
given it has written the phase, the server is on its way down or at its end, so that it does not say
that it is well. -/
structure Forward (events : List Event) : Prop where
  phase : ∀ early late, early <+: late → late <+: events →
    (new.run early).phase.rank ≤ (new.run late).phase.rank
  kind : ∀ early late kind, early <+: late → late <+: events → firstOrder? early = some kind →
    (new.run late).kind = some kind
  down : ∀ early, early <+: events → HasEntered early →
    (new.run early).phase = .draining ∨ (new.run early).phase = .stopped
  busy : ∀ early, early <+: events → HasEntered early →
    ∀ (s : Server) (connection : Connection) (now : Nat) (r : Http.Request) (st : Server.State),
      st.lifecycle = new.run early →
        Server.serveRoute s connection now r .health st = .ok (.response .busy, st)

/-- What a server says about its health depends on its phase first. -/
theorem serveRoute_health (s : Server) (connection : Connection) (now : Nat) (r : Http.Request)
    (st : Server.State) :
    Server.serveRoute s connection now r .health st =
      .ok (if st.lifecycle.phase ≠ .ready then .response .busy
        else if s.isHealthy then .text "OK" else .response .serverError, st) := by
  show (if st.lifecycle.phase ≠ .ready then return .response .busy
    else if s.isHealthy then return .text "OK" else return .response .serverError :
    Server.Step Server.Routed) st = _
  split
  · rfl
  · split <;> rfl

/-- A server that has drained stays at its end if no phase is followed by an earlier one. -/
theorem stopped_of_hasDrained (h : ∀ early late, early <+: late → late <+: events →
      (new.run early).phase.rank ≤ (new.run late).phase.rank)
    (hlate : late <+: events) (hdrained : HasDrained late) : (new.run late).phase = .stopped := by
  obtain ⟨e, he, hends⟩ := hdrained
  obtain ⟨before, behind, rfl⟩ := List.append_of_mem he
  have hstopped : (new.run (before ++ [e])).phase = .stopped := by
    rw [run_concat]
    cases e with
    | drains idle limit poll =>
      rw [step_drains, if_pos hends]
      rfl
    | _ => cases hends
  have hrank := h (before ++ [e]) (before ++ e :: behind) ⟨behind, by simp⟩ hlate
  rw [hstopped] at hrank
  generalize (new.run (before ++ e :: behind)).phase = phase at hrank ⊢
  cases phase with
  | stopped => rfl
  | _ => exact absurd hrank (by decide)

/-- Whatever comes too late takes a server back. -/
theorem Forward.timely (h : Forward events) : Timely events := by
  constructor
  · intro early hearly
    have hready : (new.run (early ++ [.ready])).phase = .ready := by
      rw [run_concat]
      rfl
    constructor
    · intro hentered
      have hlate := hentered.of_isPrefix (List.prefix_append early [.ready])
      rcases h.down _ hearly hlate with hdown | hdown <;> simp [hready] at hdown
    · intro hdrained
      have hstopped := stopped_of_hasDrained h.phase hearly (hasDrained_concat.2 (.inl hdrained))
      simp [hready] at hstopped
  · intro early hearly htold hnot hdrained
    have hentering := (entering_run early).2 ⟨htold, hnot⟩
    have hdraining : (new.run (early ++ [.enters])).phase = .draining := by
      rw [run_concat, step, enter_of_entering hentering]
    have hstopped := stopped_of_hasDrained h.phase hearly (hasDrained_concat.2 (.inl hdrained))
    simp [hdraining] at hstopped

/-- **When the life of a server only moves forward.** In any history it does if and only if nothing
comes too late: the server becomes ready neither behind the phase that an order to shut down asks
for nor behind its draining, and that phase is not written behind its draining. -/
theorem forward_iff (events : List Event) : Forward events ↔ Timely events := by
  refine ⟨Forward.timely, fun htimely => ?_⟩
  have hdown : ∀ early, early <+: events → HasEntered early →
      (new.run early).phase = .draining ∨ (new.run early).phase = .stopped := by
    intro early hearly hentered
    have hagrees := (agrees_run htimely hearly).1
    by_cases hstopped : (new.run early).phase = .stopped
    · exact .inr hstopped
    · exact .inl ((hagrees.draining hstopped).2 ((entered_run_iff early).2 hentered))
  refine ⟨?_, ?_, hdown, ?_⟩
  · intro early late hearly hlate
    exact (agrees_run htimely hlate).2 early hearly
  · intro early late kind hearly hlate hkind
    exact (kind_run late).trans (firstOrder?_of_isPrefix hearly hkind)
  · intro early hearly hentered s connection now r st hst
    have hnot : st.lifecycle.phase ≠ .ready := by
      rw [hst]
      rcases hdown early hearly hentered with h | h <;> simp [h]
    rw [serveRoute_health, if_pos hnot]

/-- To become ready between the order and the phase that it asks for is not too late. -/
example : [[.orders .normal], [.orders .normal, .ready], [.orders .normal, .ready, .enters]].map
    (fun events : List Event => (new.run events).phase) = [.starting, .ready, .draining] := rfl

/-- A server that has been told to shut down before it becomes ready, and whose phase has been
written, shows as ready from then on, and says that it is well. One that has drained before the
phase is written goes back from its end. -/
theorem not_forward_of_late :
    let told : List Event := [.orders .normal, .enters]
    let ready : List Event := told ++ [.ready]
    let ended : List Event := [.ready, .orders .normal, .drains (fun _ => true) 100 10]
    let entered : List Event := ended ++ [.enters]
    new.run told = ⟨.draining, some .normal, false, 0⟩ ∧
      new.run ready = ⟨.ready, some .normal, false, 0⟩ ∧ ¬Forward ready ∧
      (∀ (s : Server) (connection : Connection) (now : Nat) (r : Http.Request) (st : Server.State),
        st.lifecycle = new.run ready → s.isHealthy = true →
          Server.serveRoute s connection now r .health st = .ok (.text "OK", st)) ∧
      new.run ended = ⟨.stopped, some .normal, true, 0⟩ ∧
      new.run entered = ⟨.draining, some .normal, false, 0⟩ ∧ ¬Forward entered := by
  intro told ready ended entered
  have hlooks : drainsFrom (fun _ => true) 100 10 0 = true := by
    rw [drainsFrom]
    rfl
  have hended : new.run ended = ⟨.stopped, some .normal, true, 0⟩ := by
    simp [ended, run, step, setReady, order, isStopping, drain, hlooks, stop, new]
  have hentered : new.run entered = ⟨.draining, some .normal, false, 0⟩ := by
    show new.run (ended ++ [.enters]) = _
    rw [run_concat, hended]
    rfl
  refine ⟨rfl, rfl, ?_, ?_, hended, hentered, ?_⟩
  · intro hforward
    have htold : HasEntered ready := ⟨[.orders .normal], ⟨[.ready], rfl⟩, rfl⟩
    rcases hforward.down ready List.prefix_rfl htold with h | h <;> cases h
  · intro s connection now r st hst hhealthy
    have hready : ¬st.lifecycle.phase ≠ .ready := by
      rw [hst, show (new.run ready).phase = .ready from rfl]
      exact not_not_intro rfl
    rw [serveRoute_health, if_neg hready, if_pos hhealthy]
  · intro hforward
    have hrank := hforward.phase ended entered (List.prefix_append _ _) List.prefix_rfl
    rw [hended, hentered] at hrank
    exact absurd hrank (by decide)

end Lifecycle

end Switchboard
