/-!
# Machines

What happens to a server with its connections, or to a pool with its workers, happens at some time,
and only if its time has come. A machine says what an event does then. A history is any list of
events with their times, of which those do nothing whose time has not come (`Machine.run`), and what
is told of a history is told of the events that happen (`Machine.reports`).

Whatever one event preserves holds behind every history (`Machine.run_induction`), and whatever one
event pays for is told no more often than there is left to pay with
(`Machine.countP_reports_le`).
-/

namespace Switchboard

/-- What an event does to a state at a time, if it can happen then. -/
structure Machine (State Event : Type) where
  step? : State → Nat → Event → Option State

namespace Machine

variable {State Event Fact : Type}

/-- What a history makes of a state. -/
def run (m : Machine State Event) (s : State) (events : List (Nat × Event)) : State :=
  events.foldl (fun s (now, e) => (m.step? s now e).getD s) s

/-- What is told of the events of a history that happen, one after the other. -/
def reports (m : Machine State Event) (tell : State → Nat → Event → List Fact) :
    State → List (Nat × Event) → List Fact
  | _, [] => []
  | s, (now, e) :: events =>
    match m.step? s now e with
    | none => m.reports tell s events
    | some s' => tell s now e ++ m.reports tell s' events

/-! ## One event after another -/

variable {m : Machine State Event} {s s' : State} {now : Nat} {e : Event}
  {events : List (Nat × Event)}

theorem run_cons (m : Machine State Event) (s : State) (now : Nat) (e : Event)
    (events : List (Nat × Event)) :
    m.run s ((now, e) :: events) = m.run ((m.step? s now e).getD s) events := rfl

/-- An event whose time has not come is passed over. -/
theorem run_of_none (hdue : m.step? s now e = none) :
    m.run s ((now, e) :: events) = m.run s events := by
  rw [run_cons, hdue]
  rfl

theorem run_of_some (hdue : m.step? s now e = some s') :
    m.run s ((now, e) :: events) = m.run s' events := by
  rw [run_cons, hdue]
  rfl

theorem run_append (m : Machine State Event) (s : State) (early late : List (Nat × Event)) :
    m.run s (early ++ late) = m.run (m.run s early) late := List.foldl_append

/-- What every event preserves holds behind any history. -/
theorem run_induction {P : State → Prop}
    (hstep : ∀ s now e s', P s → m.step? s now e = some s' → P s') (h : P s)
    (events : List (Nat × Event)) : P (m.run s events) := by
  induction events generalizing s with
  | nil => exact h
  | cons one events ih =>
    obtain ⟨now, e⟩ := one
    rw [run_cons]
    apply ih
    cases hdue : m.step? s now e with
    | none => exact h
    | some s' => exact hstep s now e s' h hdue

/-! ## What is told -/

variable {tell : State → Nat → Event → List Fact}

/-- Nothing is told of an event whose time has not come. -/
theorem reports_of_none (hdue : m.step? s now e = none) :
    m.reports tell s ((now, e) :: events) = m.reports tell s events := by
  rw [reports, hdue]

theorem reports_of_some (hdue : m.step? s now e = some s') :
    m.reports tell s ((now, e) :: events) = tell s now e ++ m.reports tell s' events := by
  rw [reports, hdue]

/-- What is told of a history is told of its beginning first, and then of what comes behind it. -/
theorem reports_append (m : Machine State Event) (tell : State → Nat → Event → List Fact)
    (s : State) (early late : List (Nat × Event)) :
    m.reports tell s (early ++ late) =
      m.reports tell s early ++ m.reports tell (m.run s early) late := by
  induction early generalizing s with
  | nil => rfl
  | cons one early ih =>
    obtain ⟨now, e⟩ := one
    rw [List.cons_append]
    cases hdue : m.step? s now e with
    | none => rw [reports_of_none hdue, reports_of_none hdue, run_of_none hdue, ih]
    | some s' =>
      rw [reports_of_some hdue, reports_of_some hdue, run_of_some hdue, ih, List.append_assoc]

/-- A history tells no more of some kind than there is left to tell at its beginning, if what is
left pays for what is told in every event. -/
theorem countP_reports_le (P : State → Prop) (left : State → Nat) {kind : Fact → Bool}
    (hstep : ∀ s now e s', P s → m.step? s now e = some s' →
      P s' ∧ (tell s now e).countP kind + left s' ≤ left s) (h : P s)
    (events : List (Nat × Event)) : (m.reports tell s events).countP kind ≤ left s := by
  induction events generalizing s with
  | nil => exact Nat.zero_le _
  | cons one events ih =>
    obtain ⟨now, e⟩ := one
    cases hdue : m.step? s now e with
    | none =>
      rw [reports_of_none hdue]
      exact ih h
    | some s' =>
      obtain ⟨h', hpaid⟩ := hstep s now e s' h hdue
      have hrest := ih h'
      rw [reports_of_some hdue, List.countP_append]
      omega

/-- Whatever is told is told of an event of the history. -/
theorem exists_of_mem_reports {fact : Fact} (h : fact ∈ m.reports tell s events) :
    ∃ one ∈ events, ∃ s', fact ∈ tell s' one.1 one.2 := by
  induction events generalizing s with
  | nil => cases h
  | cons one events ih =>
    obtain ⟨now, e⟩ := one
    have hlater : ∀ {s'}, fact ∈ m.reports tell s' events →
        ∃ one ∈ (now, e) :: events, ∃ s', fact ∈ tell s' one.1 one.2 := by
      intro s' hlate
      obtain ⟨one, hone, htold⟩ := ih hlate
      exact ⟨one, List.mem_cons_of_mem _ hone, htold⟩
    cases hdue : m.step? s now e with
    | none =>
      rw [reports_of_none hdue] at h
      exact hlater h
    | some s' =>
      rw [reports_of_some hdue, List.mem_append] at h
      rcases h with hnow | hlate
      · exact ⟨(now, e), List.mem_cons_self, s, hnow⟩
      · exact hlater hlate

end Machine

end Switchboard
