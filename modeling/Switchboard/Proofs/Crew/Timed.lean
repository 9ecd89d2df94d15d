import Switchboard.Proofs.Crew.Histories

/-!
# Timed runs are histories

When every job takes a known number of milliseconds and nobody waits without need, what happens to
a pool is settled. It is one of the histories of its workers (`timed_isHistory`): an idle worker
that takes a job has listened before, a worker whose job is due finishes it, and a shutdown that was
in time has waited for one worker after another. A caller that waits for room gets it as soon as a
job ends (`length_queue_awaitRoom_lt`), so every job is put into the queue. What holds of all
histories then holds of timed runs: if the shutdown is in time, all jobs have been finished, each of
them once (`finished_perm_range`).
-/

namespace Switchboard

namespace Pool

variable {p p' : Pool} {now fuel : Nat}

/-! ## Coming to rest -/

/-- No job is taken up exactly if there is none, or no worker for it. -/
theorem takeUp?_eq_none_iff :
    p.takeUp? now = none ↔ p.queue = [] ∨ p.workers ≤ p.running.length := by
  unfold takeUp? take?
  rw [Option.map_eq_none_iff]
  split
  · rename_i hqueue
    simp [hqueue]
  · rename_i job queue hqueue
    simp [hqueue]

/-- The pool in which an idle worker has taken the first of some jobs. -/
def taking (p : Pool) (now : Nat) (job : Job) (queue : List Job) : Pool :=
  { p with running := p.running ++ [⟨job.index, now + job.length⟩], queue }

/-- The first job in the queue is taken up, and ends at once if it takes no time. -/
theorem takeUp?_eq_some (h : p.takeUp? now = some p') :
    ∃ job queue, p.queue = job :: queue ∧ p.running.length < p.workers ∧
      p' = if job.length = 0 then (p.taking now job queue).finish job.index
        else p.taking now job queue := by
  unfold takeUp? take? at h
  obtain ⟨taken, htaken, h⟩ := Option.map_eq_some_iff.1 h
  split at htaken
  · cases htaken
  · rename_i job queue hqueue
    obtain ⟨hidle, htaken⟩ := Option.ite_none_right_eq_some.1 htaken
    cases htaken
    refine ⟨job, queue, hqueue, hidle, ?_⟩
    rw [← h, hqueue]
    obtain ⟨index, length⟩ := job
    cases length <;> rfl

/-- A job that is due is one of those that run. -/
theorem mem_of_due {job : RunningJob} (h : p.due now = some job) : job ∈ p.running :=
  List.mem_of_find?_eq_some h

theorem length_finish_lt {job : RunningJob} (h : job ∈ p.running) :
    (p.finish job.index).running.length < p.running.length :=
  List.length_filter_lt_length_iff_exists.2 ⟨job, h, by simp⟩

/-- To take up a job brings a pool closer to rest. -/
theorem steps_takeUp_lt (h : p.takeUp? now = some p') : p'.steps < p.steps := by
  obtain ⟨job, queue, hqueue, -, rfl⟩ := takeUp?_eq_some h
  have hfilter : ((p.taking now job queue).finish job.index).running.length ≤
      p.running.length + 1 := by
    refine Nat.le_trans (List.length_filter_le _ _) ?_
    simp [taking]
  split
  · simp only [steps, hqueue, List.length_cons]
    show _ + 2 * queue.length < _
    omega
  · simp only [steps, hqueue, List.length_cons, taking, List.length_append, List.length_nil]
    omega

/-- So does the end of one. -/
theorem steps_due_lt {job : RunningJob} (h : p.due now = some job) :
    (p.finish job.index).steps < p.steps := by
  have hlt := length_finish_lt (mem_of_due h)
  unfold steps
  show _ + 2 * p.queue.length < _
  omega

/-- When everything has happened that happens at a moment, no idle worker could take a job. -/
theorem takeUp?_settle (h : p.steps < fuel) : (p.settle now fuel).takeUp? now = none := by
  induction fuel generalizing p with
  | zero => exact absurd h (Nat.not_lt_zero _)
  | succ fuel ih =>
    rw [settle]
    cases htake : p.takeUp? now with
    | some p' =>
      have hlt := steps_takeUp_lt htake
      exact ih (by omega)
    | none =>
      cases hdue : p.due now with
      | some job =>
        have hlt := steps_due_lt hdue
        exact ih (by omega)
      | none => exact htake

/-- While a pool comes to rest its queue gets no longer. -/
theorem length_queue_settle_le (p : Pool) (now fuel : Nat) :
    (p.settle now fuel).queue.length ≤ p.queue.length := by
  induction fuel generalizing p with
  | zero => exact Nat.le_refl _
  | succ fuel ih =>
    rw [settle]
    cases htake : p.takeUp? now with
    | some p' =>
      obtain ⟨job, queue, hqueue, -, rfl⟩ := takeUp?_eq_some htake
      refine Nat.le_trans (ih _) ?_
      rw [hqueue]
      split <;> exact Nat.le_succ _
    | none =>
      cases hdue : p.due now with
      | some job => exact ih _
      | none => exact Nat.le_refl _

/-! ## Waiting for room -/

/-- When a job of as many as there can be ends, the next one is taken. -/
theorem length_queue_settle_lt {job : RunningJob} (hdue : p.due now = some job)
    (hfull : p.running.length = p.workers) (hqueue : p.queue ≠ []) :
    (p.settle now (p.steps + 1)).queue.length < p.queue.length := by
  -- first the job ends, since nobody is idle, and then an idle worker takes the next one
  have hnone : p.takeUp? now = none := takeUp?_eq_none_iff.2 (.inr (Nat.le_of_eq hfull.symm))
  have hends : p.settle now (p.steps + 1) = (p.finish job.index).settle now p.steps := by
    rw [settle, hnone, hdue]
  have hlt : (p.finish job.index).running.length < (p.finish job.index).workers :=
    hfull ▸ length_finish_lt (mem_of_due hdue)
  obtain ⟨first, rest, hfirst⟩ := List.exists_cons_of_ne_nil hqueue
  have hsome : ∃ p', (p.finish job.index).takeUp? now = some p' := by
    refine Option.ne_none_iff_exists'.1 fun hrests => ?_
    rcases takeUp?_eq_none_iff.1 hrests with hempty | hbusy
    · exact hqueue hempty
    · exact absurd hlt (Nat.not_lt_of_le hbusy)
  obtain ⟨p', htake⟩ := hsome
  obtain ⟨fuel, hfuel⟩ : ∃ fuel, p.steps = fuel + 1 := by
    refine Nat.exists_eq_add_one.2 ?_
    simp only [steps, hfirst, List.length_cons]
    omega
  have htakes : (p.finish job.index).settle now p.steps = p'.settle now fuel := by
    rw [hfuel, settle, htake]
  have htail : p'.queue.length < p.queue.length := by
    obtain ⟨next, queue, hnext, -, rfl⟩ := takeUp?_eq_some htake
    rw [show p.queue = next :: queue from hnext]
    split <;> exact Nat.lt_succ_self _
  rw [hends, htakes]
  exact Nat.lt_of_le_of_lt (length_queue_settle_le p' now fuel) htail

/-- Some job ends at the first time at which one does. -/
theorem exists_due (h : p.running ≠ []) :
    ∃ time job, p.nextEnd = some time ∧ p.due time = some job := by
  have hsome : (p.running.map (·.ends)).min? ≠ none := by
    rw [ne_eq, List.min?_eq_none_iff, List.map_eq_nil_iff]
    exact h
  obtain ⟨time, htime⟩ := Option.ne_none_iff_exists'.1 hsome
  obtain ⟨first, hfirst, hends⟩ := List.mem_map.1 (List.min?_mem htime)
  have hfound : (p.due time).isSome = true :=
    List.find?_isSome.2 ⟨first, hfirst, decide_eq_true (Nat.le_of_eq hends)⟩
  obtain ⟨job, hjob⟩ := Option.isSome_iff_exists.1 hfound
  exact ⟨time, job, htime, hjob⟩

theorem capacity_settle (p : Pool) (now fuel : Nat) :
    (p.settle now fuel).capacity = p.capacity := by
  induction fuel generalizing p with
  | zero => rfl
  | succ fuel ih =>
    rw [settle]
    cases htake : p.takeUp? now with
    | some p' =>
      obtain ⟨job, queue, -, -, rfl⟩ := takeUp?_eq_some htake
      refine (ih _).trans ?_
      split <;> rfl
    | none =>
      cases hdue : p.due now with
      | some job => exact ih _
      | none => rfl

namespace Moment

/-- Whether everything has happened that happens at this moment, in a pool that has workers. -/
structure AtRest (m : Moment) : Prop where
  rests : m.pool.takeUp? m.now = none
  workers : 0 < m.pool.workers
  busy : m.pool.running.length ≤ m.pool.workers
  positive : 0 < m.pool.capacity
  room : m.pool.queue.length ≤ m.pool.capacity

/-- Where there is room nobody waits. -/
theorem awaitRoom_of_lt {m : Moment} (h : m.pool.queue.length < m.pool.capacity) (fuel : Nat) :
    m.awaitRoom fuel = m := by
  cases fuel with
  | zero => rfl
  | succ fuel => rw [awaitRoom, if_pos h]

/-- Whoever waits for room gets it when the next job ends. -/
theorem length_queue_awaitRoom_lt {m : Moment} (h : m.AtRest) :
    (m.awaitRoom (m.pool.running.length + m.pool.queue.length)).pool.queue.length <
      (m.awaitRoom (m.pool.running.length + m.pool.queue.length)).pool.capacity := by
  by_cases hlt : m.pool.queue.length < m.pool.capacity
  · rwa [awaitRoom_of_lt hlt]
  · -- behind a full queue everybody is busy, for an idle worker would have taken a job
    have hqueue : m.pool.queue ≠ [] := by
      intro hempty
      rw [hempty] at hlt
      exact hlt h.positive
    have hfull : m.pool.running.length = m.pool.workers :=
      Nat.le_antisymm h.busy ((takeUp?_eq_none_iff.1 h.rests).resolve_left hqueue)
    have hrunning : m.pool.running ≠ [] := by
      intro hempty
      rw [hempty] at hfull
      exact Nat.ne_of_lt h.workers hfull
    obtain ⟨time, job, hnext, hdue⟩ := exists_due hrunning
    obtain ⟨fuel, hfuel⟩ : ∃ fuel, m.pool.running.length + m.pool.queue.length = fuel + 1 := by
      refine Nat.exists_eq_add_one.2 (Nat.add_pos_left ?_ _)
      exact List.length_pos_iff.2 hrunning
    have hroom : (settled { m with now := time }).pool.queue.length <
        (settled { m with now := time }).pool.capacity := by
      show (m.pool.settle time (m.pool.steps + 1)).queue.length <
        (m.pool.settle time (m.pool.steps + 1)).capacity
      rw [capacity_settle]
      exact Nat.lt_of_lt_of_le (length_queue_settle_lt hdue hfull hqueue) h.room
    rw [hfuel, awaitRoom, if_neg hlt, hnext]
    dsimp only
    rwa [awaitRoom_of_lt hroom]

end Moment

end Pool

/-! ## Passages -/

namespace Crew

variable {c c' c'' : Crew} {now fuel worker : Nat}

/-- Whether some workers do jobs and the others wait, and no caller has a job. -/
structure Working (c : Crew) : Prop where
  sound : Sound c
  manned : 0 < c.pool.size
  posts : ∀ p ∈ c.posts, p = .waiting ∨ p.job?.isSome = true
  senders : c.senders = []

/-- Whether a history without panics leads from some workers to others. -/
def Passage (c c' : Crew) : Prop :=
  ∃ events : List (Nat × Event), (∀ one ∈ events, ∀ worker, one.2 ≠ .panics worker) ∧
    machine.run c events = c'

namespace Passage

theorem refl (c : Crew) : Passage c c := ⟨[], nofun, rfl⟩

/-- Two passages make one. -/
theorem trans (h : Passage c c') (h' : Passage c' c'') : Passage c c'' := by
  obtain ⟨early, hearly, rfl⟩ := h
  obtain ⟨late, hlate, rfl⟩ := h'
  refine ⟨early ++ late, fun one hone => ?_, machine.run_append c early late⟩
  rcases List.mem_append.1 hone with hone | hone
  · exact hearly one hone
  · exact hlate one hone

/-- An event that is no panic is a passage. -/
theorem one {e : Event} (hdue : c.step? now e = some c') (he : ∀ worker, e ≠ .panics worker) :
    Passage c c' := by
  refine ⟨[(now, e)], fun one hone => ?_, Machine.run_of_some hdue⟩
  rw [List.mem_singleton.1 hone]
  exact he

/-- What always holds holds behind a passage. -/
theorem sound (h : Passage c c') (hsound : Sound c) : Sound c' := by
  obtain ⟨events, -, rfl⟩ := h
  exact hsound.run events

theorem manned (h : Passage c c') (hmanned : 0 < c.pool.size) : 0 < c'.pool.size := by
  obtain ⟨events, -, rfl⟩ := h
  rwa [(terms_run c events).1]

theorem listens (hpost : c.posts[worker]? = some .waiting) (hfree : .listening ∉ c.posts) :
    Passage c (c.post worker .listening) := by
  have hdue : c.step? 0 (.listens worker) = some (c.post worker .listening) :=
    if_pos ⟨hpost, hfree⟩
  exact one hdue (by simp)

/-- A worker that listens takes the first job. -/
theorem takes {job : Job} {queue : List Job} (hpost : c.posts[worker]? = some .listening)
    (hqueue : c.pool.queue = job :: queue) (hidle : c.pool.running.length < c.pool.workers)
    (now : Nat) : Passage c
      { c.post worker (.busy job.index) with pool := c.pool.taking now job queue } := by
  have htake : c.pool.take? now = some (c.pool.taking now job queue) := by
    rw [Pool.take?, hqueue]
    exact if_pos hidle
  have hdue : c.step? now (.takes worker) =
      some { c.post worker (.busy job.index) with pool := c.pool.taking now job queue } := by
    rw [step?, take?, if_pos hpost, hqueue, htake]
  exact one hdue (by simp)

theorem finishes {index : Nat} (hpost : c.posts[worker]? = some (.busy index)) :
    Passage c { c.post worker .waiting with pool := c.pool.finish index } := by
  have hdue : c.step? 0 (.finishes worker) =
      some { c.post worker .waiting with pool := c.pool.finish index } := by
    rw [step?, finish?, hpost]
  exact one hdue (by simp)

end Passage

/-- Whether a history of workers leads to a pool, with callers and a shutdown left aside. -/
def Leads (c : Crew) (p : Pool) : Prop :=
  ∃ c', Passage c c' ∧ Working c' ∧ c'.pool = p ∧ c'.closing = c.closing ∧
    c'.offered = c.offered

namespace Leads

variable {p p' : Pool}

theorem refl (h : Working c) : Leads c c.pool := ⟨c, .refl c, h, rfl, rfl, rfl⟩

theorem trans (h : Leads c p) (h' : ∀ c', Working c' → c'.pool = p → Leads c' p') :
    Leads c p' := by
  obtain ⟨c', hpassage, hworking, hpool, hclosing, hoffered⟩ := h
  obtain ⟨c'', hpassage', hworking', hpool', hclosing', hoffered'⟩ := h' c' hworking hpool
  exact ⟨c'', hpassage.trans hpassage', hworking', hpool', hclosing'.trans hclosing,
    hoffered'.trans hoffered⟩

end Leads

namespace Working

/-- Between two moments nobody listens, so whoever wants to may. -/
theorem not_listening (h : Working c) : .listening ∉ c.posts := by
  intro hmem
  rcases h.posts _ hmem with heq | hjob
  · cases heq
  · cases hjob

/-- A worker that comes further does a job or waits again. -/
theorem post (h : Working c) {q : Post} (hq : q = .waiting ∨ q.job?.isSome = true)
    (hpassage : Passage c c') (hposts : c'.posts = c.posts.set worker q)
    (hsenders : c'.senders = c.senders) : Working c' where
  sound := hpassage.sound h.sound
  manned := hpassage.manned h.manned
  posts := by
    rw [hposts]
    intro p hp
    rcases List.mem_or_eq_of_mem_set hp with hp | rfl
    · exact h.posts p hp
    · exact hq
  senders := hsenders.trans h.senders

/-- No worker has been lost. -/
theorem workers_eq (h : Working c) : c.pool.workers = c.posts.length := by
  rw [h.sound.workers]
  refine List.countP_eq_length.2 fun p hp => decide_eq_true ?_
  rintro rfl
  rcases h.posts _ hp with heq | hjob
  · cases heq
  · cases hjob

theorem workers_pos (h : Working c) : 0 < c.pool.workers := by
  rw [h.workers_eq, h.sound.size]
  exact h.manned

/-- If there are fewer running jobs than workers, some worker waits. -/
theorem exists_waiting (h : Working c) (hidle : c.pool.running.length < c.pool.workers) :
    ∃ worker : Nat, c.posts[worker]? = some Post.waiting := by
  by_contra hnone
  have hbusy : ∀ p ∈ c.posts, p.job?.isSome = true := by
    intro p hp
    refine (h.posts p hp).resolve_left ?_
    rintro rfl
    exact hnone (List.getElem?_of_mem hp)
  have hall : c.atWork.length = c.posts.length := by
    rw [atWork, List.length_filterMap_eq_countP]
    exact List.countP_eq_length.2 hbusy
  rw [h.sound.length_running, hall, h.workers_eq] at hidle
  exact Nat.lt_irrefl _ hidle

/-- A running job is one that a worker does. -/
theorem finish (h : Working c) {job : RunningJob} (hjob : job ∈ c.pool.running) :
    Leads c (c.pool.finish job.index) := by
  have hindex : job.index ∈ c.atWork := h.sound.busy.mem_iff.1 (List.mem_map_of_mem hjob)
  obtain ⟨p, hp, hbusy⟩ := List.mem_filterMap.1 hindex
  obtain rfl : p = .busy job.index := by
    cases p <;> cases hbusy
    rfl
  obtain ⟨worker, hpost⟩ := List.getElem?_of_mem hp
  have hfinishes := Passage.finishes hpost
  exact ⟨_, hfinishes, h.post (.inl rfl) hfinishes rfl rfl, rfl, rfl, rfl⟩

/-- An idle worker listens before it takes a job. -/
theorem takeUp (h : Working c) {p : Pool} (htake : c.pool.takeUp? now = some p) : Leads c p := by
  obtain ⟨job, queue, hqueue, hidle, rfl⟩ := Pool.takeUp?_eq_some htake
  obtain ⟨worker, hpost⟩ := h.exists_waiting hidle
  have hlistens := Passage.listens hpost h.not_listening
  have htakes := hlistens.trans
    (Passage.takes (getElem?_post_self hpost .listening) hqueue hidle now)
  have hworking := h.post (q := .busy job.index) (.inr rfl) htakes (List.set_set _) rfl
  have hleads : Leads c (c.pool.taking now job queue) := ⟨_, htakes, hworking, rfl, rfl, rfl⟩
  split
  · refine hleads.trans fun c' h' hpool => ?_
    have hmem : ⟨job.index, now + job.length⟩ ∈ c'.pool.running := by
      rw [hpool]
      exact List.mem_append_right _ (List.mem_singleton_self _)
    exact hpool ▸ h'.finish hmem
  · exact hleads

/-- Everything that happens at one moment. -/
theorem settle (h : Working c) (now fuel : Nat) : Leads c (c.pool.settle now fuel) := by
  induction fuel generalizing c with
  | zero => exact .refl h
  | succ fuel ih =>
    rw [Pool.settle]
    cases htake : c.pool.takeUp? now with
    | some p =>
      refine (h.takeUp htake).trans fun c' h' hpool => ?_
      exact hpool ▸ ih h'
    | none =>
      cases hdue : c.pool.due now with
      | some job =>
        refine (h.finish (Pool.mem_of_due hdue)).trans fun c' h' hpool => ?_
        show Leads c' ((c.pool.finish job.index).settle now fuel)
        exact hpool ▸ ih h'
      | none => exact .refl h

/-- To come to rest is a passage. -/
theorem settled (h : Working c) {m : Pool.Moment} (hpool : c.pool = m.pool) :
    Leads c m.settled.pool := by
  have hsettle := h.settle m.now (m.pool.steps + 1)
  rwa [hpool] at hsettle

/-- To wait for room is a passage. -/
theorem awaitRoom (h : Working c) {m : Pool.Moment} (hpool : c.pool = m.pool) (fuel : Nat) :
    Leads c (m.awaitRoom fuel).pool := by
  induction fuel generalizing c m with
  | zero => exact hpool ▸ .refl h
  | succ fuel ih =>
    rw [Pool.Moment.awaitRoom]
    split
    · exact hpool ▸ .refl h
    · split
      · exact hpool ▸ .refl h
      · rename_i time htime
        have hsettled : Leads c (Pool.Moment.settled { m with now := time }).pool :=
          h.settled hpool
        exact hsettled.trans fun c' h' hpool' => ih h' hpool'

/-- To let time pass is a passage. -/
theorem runBefore (h : Working c) {m : Pool.Moment} (hpool : c.pool = m.pool)
    (deadline fuel : Nat) : Leads c (m.runBefore deadline fuel).pool := by
  induction fuel generalizing c m with
  | zero => exact hpool ▸ .refl h
  | succ fuel ih =>
    rw [Pool.Moment.runBefore]
    split
    · exact hpool ▸ .refl h
    · rename_i time htime
      have hsettled : Leads c (Pool.Moment.settled { m with now := time }).pool :=
        h.settled hpool
      split
      · exact hsettled.trans fun c' h' hpool' => ih h' hpool'
      · exact hpool ▸ .refl h

/-- A caller's job is put into the queue if there is room. -/
theorem enter (h : Working c) (hopen : c.closing = .notYet) {length : Nat} {pool : Pool}
    (hsubmit : c.pool.submit? ⟨c.offered, length⟩ = some pool) :
    ∃ c', Passage c c' ∧ Working c' ∧ c'.pool = pool ∧ c'.closing = .notYet ∧
      c'.offered = c.offered + 1 := by
  have hoffers : c.step? 0 (.offers length) =
      some { c with senders := [⟨c.offered, length⟩], offered := c.offered + 1 } := by
    rw [step?, offer?, if_pos hopen, h.senders]
    rfl
  have henters : step? { c with senders := [⟨c.offered, length⟩], offered := c.offered + 1 } 0
      (.enters c.offered) = some { c with pool, offered := c.offered + 1 } := by
    simp [step?, enter?, hsubmit, without, h.senders]
  have hpassage :=
    (Passage.one hoffers (by simp)).trans (Passage.one henters (by simp))
  exact ⟨_, hpassage, ⟨hpassage.sound h.sound, hpassage.manned h.manned, h.posts, h.senders⟩,
    rfl, hopen, rfl⟩

/-- What is known of a moment in which nothing more happens. -/
theorem atRest (h : Working c) {m : Pool.Moment} (hpool : c.pool = m.pool)
    (hrests : m.pool.takeUp? m.now = none) : m.AtRest where
  rests := hrests
  workers := hpool ▸ h.workers_pos
  busy := by
    rw [← hpool, h.sound.length_running, h.workers_eq]
    exact List.length_filterMap_le _ _
  positive := hpool ▸ h.sound.positive
  room := hpool ▸ h.sound.room

/-- A caller waits for room, and its job is put into the queue. -/
theorem submit (h : Working c) (hopen : c.closing = .notYet) {m : Pool.Moment}
    (hpool : c.pool = m.pool) (hrests : m.pool.takeUp? m.now = none) (length : Nat) :
    let m' := m.submit ⟨c.offered, length⟩
    m'.pool.takeUp? m'.now = none ∧ ∃ c', Passage c c' ∧ Working c' ∧ c'.pool = m'.pool ∧
      c'.closing = .notYet ∧ c'.offered = c.offered + 1 := by
  obtain ⟨fuel, hfuel⟩ : ∃ fuel, fuel = m.pool.running.length + m.pool.queue.length := ⟨_, rfl⟩
  obtain ⟨c₁, hwaits, h₁, hpool₁, hclosing₁, hoffered₁⟩ := h.awaitRoom hpool fuel
  have hroom : (m.awaitRoom fuel).pool.queue.length < (m.awaitRoom fuel).pool.capacity :=
    hfuel ▸ Pool.Moment.length_queue_awaitRoom_lt (h.atRest hpool hrests)
  have hclosed : c₁.pool.closed = false := by
    rw [← Bool.not_eq_true, h₁.sound.closed]
    exact not_not_intro (hclosing₁.trans hopen)
  obtain ⟨pool, hsubmit⟩ : ∃ pool, c₁.pool.submit? ⟨c₁.offered, length⟩ = some pool := by
    refine ⟨_, if_pos ⟨?_, h₁.workers_pos, ?_⟩⟩
    · rw [hclosed]
      rfl
    · rwa [hpool₁]
  obtain ⟨c₂, henters, h₂, rfl, hclosing₂, hoffered₂⟩ :=
    h₁.enter (hclosing₁.trans hopen) hsubmit
  obtain ⟨c₃, hsettles, h₃, hpool₃, hclosing₃, hoffered₃⟩ :=
    h₂.settle (m.awaitRoom fuel).now (c₂.pool.steps + 1)
  have hlast : m.submit ⟨c.offered, length⟩ =
      Pool.Moment.settled { m.awaitRoom fuel with pool := c₂.pool } := by
    rw [hpool₁, hoffered₁] at hsubmit
    unfold Pool.Moment.submit
    rw [← hfuel]
    simp only [hsubmit]
  rw [hlast]
  refine ⟨Pool.takeUp?_settle (Nat.lt_succ_self _), c₃, (hwaits.trans henters).trans hsettles, h₃,
    hpool₃, hclosing₃.trans hclosing₂, ?_⟩
  rw [hoffered₃, hoffered₂, hoffered₁]

/-- Callers come one after another, with jobs that are numbered in their order. -/
theorem submits (h : Working c) (hopen : c.closing = .notYet) {m : Pool.Moment}
    (hpool : c.pool = m.pool) (hrests : m.pool.takeUp? m.now = none) (lengths : List Nat) :
    ∃ c', Passage c c' ∧ Working c' ∧
      c'.pool = (((lengths.zipIdx c.offered).map fun (length, index) =>
        (⟨index, length⟩ : Job)).foldl Pool.Moment.submit m).pool ∧
      c'.closing = .notYet ∧ c'.offered = c.offered + lengths.length := by
  induction lengths generalizing c m with
  | nil => exact ⟨c, .refl c, h, hpool, hopen, rfl⟩
  | cons length lengths ih =>
    obtain ⟨hrests', c₁, hsubmits, h₁, hpool₁, hopen₁, hoffered₁⟩ :=
      h.submit hopen hpool hrests length
    obtain ⟨c₂, hmore, h₂, hpool₂, hopen₂, hoffered₂⟩ := ih h₁ hopen₁ hpool₁ hrests'
    rw [hoffered₁] at hpool₂
    refine ⟨c₂, hsubmits.trans hmore, h₂, hpool₂, hopen₂, ?_⟩
    rw [hoffered₂, hoffered₁, List.length_cons]
    omega

end Working

/-! ## Shutting down -/

/-- When there is nothing left to do and the queue is closed, one worker after another listens,
ends, and is waited for. -/
theorem Passage.retires {joined waiting : Nat} (hclosed : c.pool.closed = true)
    (hqueue : c.pool.queue = []) (hclosing : c.closing = .joining joined)
    (hposts : c.posts = List.replicate joined .retired ++ List.replicate waiting .waiting) :
    ∃ c', Passage c c' ∧ c'.pool = c.pool ∧ c'.closing = .returned true ∧
      c'.offered = c.offered := by
  induction waiting generalizing c joined with
  | zero =>
    have hall : c.posts[joined]? = none := by simp [hposts]
    have hdue : c.step? 0 .joins = some { c with closing := .returned true } := by
      simp only [step?, join?, hclosing, hall]
    exact ⟨_, .one hdue (by simp), rfl, rfl, rfl⟩
  | succ waiting ih =>
    rw [List.replicate_succ] at hposts
    have hset : ∀ q, (c.post joined q).posts =
        List.replicate joined .retired ++ q :: List.replicate waiting .waiting := by
      intro q
      show c.posts.set joined q = _
      rw [hposts, List.set_append_right _ _ (by simp)]
      simp
    have hfirst : c.posts[joined]? = some .waiting := by simp [hposts]
    have hfree : .listening ∉ c.posts := by simp [hposts]
    have hlistens := Passage.listens hfirst hfree
    have hretires : (c.post joined .listening).step? 0 (.retires joined) =
        some ((c.post joined .listening).post joined .retired) :=
      if_pos ⟨getElem?_post_self hfirst _, hclosed, hqueue⟩
    have hended : ((c.post joined .listening).post joined .retired).posts[joined]? =
        some .retired := getElem?_post_self (getElem?_post_self hfirst _) _
    have hjoins : ((c.post joined .listening).post joined .retired).step? 0 .joins =
        some { (c.post joined .listening).post joined .retired with
          closing := .joining (joined + 1) } := by
      have hsame : ((c.post joined .listening).post joined .retired).closing = .joining joined :=
        hclosing
      simp only [step?, join?, hsame, hended]
      rfl
    have hnext : ((c.post joined .listening).post joined .retired).posts =
        List.replicate (joined + 1) .retired ++ List.replicate waiting .waiting := by
      have htwice : ((c.post joined .listening).post joined .retired).posts =
          (c.post joined .retired).posts := List.set_set _
      rw [htwice, hset, List.replicate_succ', List.append_assoc]
      rfl
    obtain ⟨c', hrest, hpool, hreturned, hoffered⟩ :=
      @ih { (c.post joined .listening).post joined .retired with
        closing := .joining (joined + 1) } (joined + 1) hclosed hqueue rfl hnext
    exact ⟨c', ((hlistens.trans (one hretires (by simp))).trans (one hjoins (by simp))).trans hrest,
      hpool, hreturned, hoffered⟩

/-- A shutdown waits for the workers until all have ended, or until its time is over. -/
theorem Working.shutdown (h : Working c) (hopen : c.closing = .notYet) {m : Pool.Moment}
    (hpool : c.pool = m.pool) (limit : Nat) : ∃ c', Passage c c' ∧
      c'.pool = (m.shutdown limit).2.pool ∧ c'.closing = .returned (m.shutdown limit).1 ∧
      c'.offered = c.offered := by
  have hcloses : c.step? 0 .closes = some { c with pool := c.pool.close, closing := .joining 0 } :=
    if_pos ⟨hopen, h.senders⟩
  have hclosing := Passage.one hcloses (by simp)
  have h₁ : Working { c with pool := c.pool.close, closing := .joining 0 } :=
    ⟨hclosing.sound h.sound, hclosing.manned h.manned, h.posts, h.senders⟩
  have hpool₁ : c.pool.close = m.pool.close := by rw [hpool]
  obtain ⟨c₂, hruns, h₂, hpool₂, hclosing₂, hoffered₂⟩ :=
    h₁.runBefore (m := { m with pool := m.pool.close }) hpool₁ (m.now + limit)
      (m.pool.running.length + m.pool.queue.length)
  have hboth := hclosing.trans hruns
  cases hinTime : (m.shutdown limit).1 with
  | false =>
    have hexpires : c₂.step? 0 .expires = some { c₂ with closing := .returned false } := by
      simp only [step?, expire?, hclosing₂]
    exact ⟨_, hboth.trans (.one hexpires (by simp)), hpool₂, rfl, hoffered₂⟩
  | true =>
    have hidle : (m.shutdown limit).2.pool.isIdle = true := (Bool.and_eq_true_iff.1 hinTime).2
    rw [show (m.shutdown limit).2.pool = c₂.pool from hpool₂.symm, Pool.isIdle,
      Bool.and_eq_true_iff, List.isEmpty_iff, List.isEmpty_iff] at hidle
    have hposts : c₂.posts = List.replicate c₂.posts.length .waiting := by
      refine List.eq_replicate_of_mem fun p hp => (h₂.posts p hp).resolve_right fun hbusy => ?_
      obtain ⟨index, hindex⟩ := Option.isSome_iff_exists.1 hbusy
      have hmem : index ∈ c₂.atWork := List.mem_filterMap.2 ⟨p, hp, hindex⟩
      rw [← h₂.sound.busy.mem_iff, hidle.1] at hmem
      cases hmem
    have hclosed : c₂.pool.closed = true := h₂.sound.closed.2 (by simp [hclosing₂])
    obtain ⟨c₃, hretires, hpool₃, hreturned, hoffered₃⟩ :=
      Passage.retires hclosed hidle.2 hclosing₂ (hposts.trans (List.nil_append _).symm)
    exact ⟨c₃, hboth.trans hretires, hpool₃.trans hpool₂, hreturned, hoffered₃.trans hoffered₂⟩

/-- A pool begins with all its workers waiting. -/
theorem Working.start (size capacity : Nat) : Working (start size capacity) where
  sound := .start size capacity
  manned := Nat.lt_of_lt_of_le Nat.one_pos (Nat.le_max_left 1 size)
  posts := fun _ hp => .inl (List.eq_of_mem_replicate hp)
  senders := rfl

/-- **Timed runs.** Whatever times jobs take and whatever time a shutdown has, a timed run ends as
one of the histories of the workers does, and tells the same about the shutdown. -/
theorem timed_isHistory (size capacity : Nat) (lengths : List Nat) (limit : Nat) :
    let jobs := lengths.zipIdx.map fun (length, index) => (⟨index, length⟩ : Job)
    let m := jobs.foldl Pool.Moment.submit ⟨0, .start size capacity⟩
    ∃ events : List (Nat × Event), (∀ one ∈ events, ∀ worker, one.2 ≠ .panics worker) ∧
      (machine.run (start size capacity) events).pool = (m.shutdown limit).2.pool ∧
      (machine.run (start size capacity) events).closing = .returned (m.shutdown limit).1 ∧
      (machine.run (start size capacity) events).offered = lengths.length := by
  have h := Working.start size capacity
  have hrests : (Pool.start size capacity).takeUp? 0 = none :=
    Pool.takeUp?_eq_none_iff.2 (.inl rfl)
  obtain ⟨c₁, hsubmits, h₁, hpool₁, hopen₁, hoffered₁⟩ :=
    h.submits rfl (m := ⟨0, .start size capacity⟩) rfl hrests lengths
  obtain ⟨c₂, hshuts, hpool₂, hclosing₂, hoffered₂⟩ := h₁.shutdown hopen₁ hpool₁ limit
  obtain ⟨events, hcalm, rfl⟩ := hsubmits.trans hshuts
  exact ⟨events, hcalm, hpool₂, hclosing₂, hoffered₂.trans (hoffered₁.trans (Nat.zero_add _))⟩

/-- A timed run whose shutdown is in time has finished every job once. -/
theorem finished_perm_range (size capacity : Nat) (lengths : List Nat) (limit : Nat) :
    let jobs := lengths.zipIdx.map fun (length, index) => (⟨index, length⟩ : Job)
    let m := jobs.foldl Pool.Moment.submit ⟨0, .start size capacity⟩
    (m.shutdown limit).1 = true →
      (m.shutdown limit).2.pool.finished.Perm (List.range lengths.length) := by
  intro jobs m hinTime
  obtain ⟨events, hnormal, hpool, hclosing, hoffered⟩ :=
    timed_isHistory size capacity lengths limit
  have hcalm : (start size capacity).panicked events = [] := by
    refine List.eq_nil_iff_forall_not_mem.2 fun worker hmem => ?_
    obtain ⟨one, hone, hpanics⟩ := exists_of_mem_panicked hmem
    exact hnormal one hone worker hpanics
  have hfirst : 0 < max 1 size := Nat.lt_of_lt_of_le Nat.one_pos (Nat.le_max_left 1 size)
  have hsound := sound_run size capacity events
  have hrecorded := recorded_run size capacity events
  rw [show (m.shutdown limit).1 = true from hinTime] at hclosing
  have hfinished := hrecorded.perm_of_ended hsound ((terms_run _ events).1.symm ▸ hfirst)
    (hsound.joined.atLast hclosing) (lost_not_mem hcalm)
  obtain ⟨p, hpost, hp⟩ := exists_post hfirst (hcalm ▸ List.not_mem_nil)
  have hsenders := hsound.alone (hsound.closed.2 (by simp [hclosing]))
  have hkept := hrecorded.kept (hsound.workers_pos hpost hp)
  have hbelow := hrecorded.numbered.below
  rw [hsenders, List.map_nil, List.append_nil, hoffered] at hkept hbelow
  rw [← hpool]
  refine hfinished.trans ((List.perm_ext_iff_of_nodup hrecorded.nodup List.nodup_range).2 ?_)
  intro index
  rw [List.mem_range]
  exact ⟨hbelow index, hkept index⟩

end Crew

end Switchboard
