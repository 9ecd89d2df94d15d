import Switchboard.Proofs.Crew.Histories

/-!
# Every job in the end

A history without end says what happens if everybody goes on (`Fair`): a worker that can listen,
take a job or finish one does not put it off for ever, and no caller is passed over for ever while
there is room again and again. Then the job at the front of the queue is taken, as long as there is
a worker that is not lost (`exists_takes`). For if nobody took it, whoever listens would have to in
the end, so nobody listens; the worker that is left is not busy for ever, so it waits in the end;
and since nobody else listens it would have to do so. The queue is a queue, so a job behind others
has its turn as well.
-/

namespace Switchboard.Crew

/-- The first events of a history without end. -/
def upTo (events : Nat → Nat × Event) (n : Nat) : List (Nat × Event) := (List.range n).map events

/-- What the first events of a history make of a pool. -/
def after (c : Crew) (events : Nat → Nat × Event) (n : Nat) : Crew :=
  machine.run c (upTo events n)

/-- Whether everybody goes on in a history. What a worker has done it cannot do again at once, so a
worker goes on if there is nothing that it can do for ever. -/
structure Fair (c : Crew) (events : Nat → Nat × Event) : Prop where
  workers : ∀ worker n, ∀ e ∈ [Event.listens worker, .takes worker, .finishes worker],
    ∃ m ≥ n, (c.after events m).step? (events m).1 e = none
  senders : ∀ index, ∃ n, ∀ m ≥ n, (c.after events m).step? (events m).1 (.enters index) = none

section

variable {now : Nat} {c c' : Crew} {e : Event} {worker index n m : Nat} {p : Post}

/-! ## What a worker can do -/

theorem Sound.isSome_takes (h : Sound c) (hpost : c.posts[worker]? = some .listening)
    (hqueue : c.pool.queue ≠ []) (now : Nat) : (c.step? now (.takes worker)).isSome = true := by
  obtain ⟨job, queue, hjob⟩ := List.exists_cons_of_ne_nil hqueue
  have hidle : c.pool.running.length < c.pool.workers := by
    rw [h.length_running, h.workers]
    exact length_atWork_lt hpost rfl nofun
  simp [step?, take?, Pool.take?, hpost, hjob, hidle]

theorem isSome_listens (hpost : c.posts[worker]? = some .waiting) (hfree : .listening ∉ c.posts)
    (now : Nat) : (c.step? now (.listens worker)).isSome = true := by
  simp [step?, listen?, hpost, hfree]

theorem isSome_finishes (hpost : c.posts[worker]? = some (.busy index)) (now : Nat) :
    (c.step? now (.finishes worker)).isSome = true := by
  simp [step?, finish?, hpost]

theorem Sound.isSome_enters (h : Sound c) (hsender : index ∈ c.senders.map (·.index))
    (hleft : 0 < c.pool.workers) (hroom : c.pool.queue.length < c.pool.capacity) (now : Nat) :
    (c.step? now (.enters index)).isSome = true := by
  have hopen : c.pool.closed = false := by
    cases hclosed : c.pool.closed with
    | false => rfl
    | true =>
      rw [h.alone hclosed] at hsender
      cases hsender
  obtain ⟨job, hjob, rfl⟩ := List.mem_map.1 hsender
  have hfound : (c.senders.find? (·.index = job.index)).isSome = true :=
    List.find?_isSome.2 ⟨job, hjob, decide_eq_true rfl⟩
  obtain ⟨found, hfound⟩ := Option.isSome_iff_exists.1 hfound
  simp [step?, enter?, Pool.submit?, hfound, hopen, hleft, hroom]

/-! ## Where a worker stays -/

/-- Whoever listens goes on listening until it takes a job or there are none. -/
theorem listening_step (h : Happens now c e c') (hpost : c.posts[worker]? = some .listening)
    (hqueue : c.pool.queue ≠ []) (he : e ≠ .takes worker) :
    c'.posts[worker]? = some .listening := by
  cases h with
  | listens hwaiting hfree => exact absurd (List.mem_of_getElem? hpost) hfree
  | takes htaking hjob =>
    rename_i other job queue
    have hne : other ≠ worker := fun heq => he (heq ▸ rfl)
    exact (getElem?_post_ne hne _).trans hpost
  | finishes hbusy => exact getElem?_post_of_ne hbusy hpost nofun _
  | panics hbusy => exact getElem?_post_of_ne hbusy hpost nofun _
  | retires hretiring hclosed hempty => exact absurd hempty hqueue
  | _ => exact hpost

/-- Whoever waits goes on waiting until it listens. -/
theorem waiting_step (h : Happens now c e c') (hpost : c.posts[worker]? = some .waiting) :
    c'.posts[worker]? = some .waiting ∨ c'.posts[worker]? = some .listening := by
  cases h with
  | listens hwaiting hfree =>
    rename_i other
    by_cases heq : other = worker
    · subst heq
      exact .inr (getElem?_post_self hwaiting _)
    · exact .inl ((getElem?_post_ne heq _).trans hpost)
  | takes htaking hjob => exact .inl (getElem?_post_of_ne htaking hpost nofun _)
  | finishes hbusy => exact .inl (getElem?_post_of_ne hbusy hpost nofun _)
  | panics hbusy => exact .inl (getElem?_post_of_ne hbusy hpost nofun _)
  | retires hretiring hclosed hempty => exact .inl (getElem?_post_of_ne hretiring hpost nofun _)
  | _ => exact .inl hpost

/-- While somebody is left, nothing is lost from the queue but what is taken. -/
theorem queue_step (h : Happens now c e c') (hleft : 0 < c'.pool.workers)
    (he : ∀ worker, e ≠ .takes worker) : ∃ added, c'.pool.queue = c.pool.queue ++ added := by
  cases h with
  | enters hsender hopen hworkers hroom => exact ⟨[_], rfl⟩
  | takes hpost hjob => exact absurd rfl (he _)
  | panics hpost =>
    have hmore : ¬ c.pool.workers ≤ 1 := by
      have hpos : 0 < c.pool.workers - 1 := hleft
      omega
    refine ⟨[], ?_⟩
    simp [Pool.crash, hmore]
  | _ => exact ⟨[], (List.append_nil _).symm⟩

theorem queue_takes (h : Happens now c (.takes worker) c') :
    ∃ job, c.pool.queue = job :: c'.pool.queue := by
  cases h with
  | takes hpost hqueue => exact ⟨_, hqueue⟩

end

/-! ## Histories without end -/

section

variable {c : Crew} {events : Nat → Nat × Event} {worker index n m : Nat} {p : Post}

theorem upTo_succ (events : Nat → Nat × Event) (n : Nat) :
    upTo events (n + 1) = upTo events n ++ [events n] := by
  rw [upTo, List.range_succ, List.map_append]
  rfl

/-- The next event happens, or it does nothing. -/
theorem after_succ (c : Crew) (events : Nat → Nat × Event) (n : Nat) :
    c.after events (n + 1) = c.after events n ∨
      (c.after events n).step? (events n).1 (events n).2 = some (c.after events (n + 1)) := by
  have hlast : c.after events (n + 1) = machine.run (c.after events n) [events n] := by
    rw [after, upTo_succ, Machine.run_append]
    rfl
  cases hdue : (c.after events n).step? (events n).1 (events n).2 with
  | none =>
    left
    rw [hlast]
    exact Machine.run_of_none hdue
  | some c' =>
    right
    have hone : machine.run (c.after events n) [events n] = c' := Machine.run_of_some hdue
    rw [hlast, hone]

/-- What every event of a history preserves holds at all times from some time on. -/
theorem after_induction {P : Crew → Prop} (h : P (c.after events n))
    (hstep : ∀ m ≥ n, P (c.after events m) →
      (c.after events m).step? (events m).1 (events m).2 = some (c.after events (m + 1)) →
        P (c.after events (m + 1)))
    (hle : n ≤ m) : P (c.after events m) := by
  induction hle with
  | refl => exact h
  | @step m hle ih =>
    obtain hsame | hdue := after_succ c events m
    · rwa [hsame]
    · exact hstep m hle ih hdue

/-- What has been told of a history remains told. -/
theorem reports_upTo {β : Type} (tell : Crew → Nat → Event → List β) (c : Crew)
    (events : Nat → Nat × Event) (hle : n ≤ m) :
    machine.reports tell c (upTo events n) <+: machine.reports tell c (upTo events m) := by
  induction hle with
  | refl => exact List.prefix_rfl
  | @step m hle ih =>
    rw [upTo_succ, Machine.reports_append]
    exact ih.trans (List.prefix_append _ _)

/-- What is told of an event that happens. -/
theorem reports_upTo_succ {β : Type} (tell : Crew → Nat → Event → List β) {c' : Crew}
    (hdue : (c.after events n).step? (events n).1 (events n).2 = some c') :
    machine.reports tell c (upTo events (n + 1)) =
      machine.reports tell c (upTo events n) ++
        tell (c.after events n) (events n).1 (events n).2 := by
  have hone : machine.reports tell (machine.run c (upTo events n)) [events n] =
      tell (c.after events n) (events n).1 (events n).2 ++ [] := Machine.reports_of_some hdue
  rw [upTo_succ, Machine.reports_append, hone, List.append_nil]

/-! ## The front of the queue -/

/-- Whether from some time on there are jobs and nobody takes one. -/
structure Stuck (c : Crew) (events : Nat → Nat × Event) (n : Nat) : Prop where
  queue : ∀ m ≥ n, (c.after events m).pool.queue ≠ []
  idle : ∀ m ≥ n, ∀ worker,
    (c.after events m).step? (events m).1 (events m).2 = some (c.after events (m + 1)) →
      (events m).2 ≠ .takes worker

/-- Whoever listened would have to take a job in the end. -/
theorem Stuck.not_listening (h : Stuck c events n) (hsound : Sound c) (hfair : Fair c events)
    (hle : n ≤ m) : .listening ∉ (c.after events m).posts := by
  intro hmem
  obtain ⟨worker, hpost⟩ := List.getElem?_of_mem hmem
  have hstays : ∀ k ≥ m, (c.after events k).posts[worker]? = some .listening := by
    intro k hk
    refine after_induction (P := fun c' => c'.posts[worker]? = some .listening) hpost ?_ hk
    intro l hl hlistens hdue
    have hlate := Nat.le_trans hle hl
    exact listening_step (happens_of_step? hdue) hlistens (h.queue l hlate)
      (h.idle l hlate worker hdue)
  obtain ⟨k, hk, hstuck⟩ := hfair.workers worker m (.takes worker) (by simp)
  have hcan := (hsound.run (upTo events k)).isSome_takes (hstays k hk)
    (h.queue k (Nat.le_trans hle hk)) (events k).1
  rw [← after, hstuck] at hcan
  cases hcan

/-- A worker that is not lost takes a job in the end. -/
theorem not_stuck (hsound : Sound c) (hfair : Fair c events)
    (hleft : ∀ m, ∃ p, (c.after events m).posts[worker]? = some p ∧ p ≠ .lost) (n : Nat) :
    ¬ Stuck c events n := by
  intro h
  -- when it could not finish a job it has none, and then it can only wait
  obtain ⟨m, hm, hrests⟩ := hfair.workers worker n (.finishes worker) (by simp)
  have hwaiting : (c.after events m).posts[worker]? = some .waiting := by
    obtain ⟨p, hpost, hp⟩ := hleft m
    cases p with
    | waiting => exact hpost
    | listening => exact absurd (List.mem_of_getElem? hpost) (h.not_listening hsound hfair hm)
    | busy index =>
      have hcan := isSome_finishes hpost (events m).1
      rw [hrests] at hcan
      cases hcan
    | retired =>
      have hempty := ((hsound.run (upTo events m)).retired (List.mem_of_getElem? hpost)).2
      exact absurd hempty (h.queue m hm)
    | lost => exact absurd rfl hp
  have hwaits : ∀ k ≥ m, (c.after events k).posts[worker]? = some .waiting := by
    intro k hk
    refine after_induction (P := fun c' => c'.posts[worker]? = some .waiting) hwaiting ?_ hk
    intro l hl hwaits hdue
    refine (waiting_step (happens_of_step? hdue) hwaits).resolve_right fun hlistens => ?_
    exact h.not_listening hsound hfair (Nat.le_succ_of_le (Nat.le_trans hm hl))
      (List.mem_of_getElem? hlistens)
  -- but it could listen all the time
  obtain ⟨k, hk, hstuck⟩ := hfair.workers worker m (.listens worker) (by simp)
  have hcan := isSome_listens (hwaits k hk)
    (h.not_listening hsound hfair (Nat.le_trans hm hk)) (events k).1
  rw [hstuck] at hcan
  cases hcan

/-- The job at the front of the queue is taken in the end, and till then it stays there. -/
theorem exists_takes (hsound : Sound c) (hfair : Fair c events)
    (hleft : ∀ m, ∃ p, (c.after events m).posts[worker]? = some p ∧ p ≠ .lost)
    {job : Job} {rest : List Job} (hqueue : (c.after events n).pool.queue = job :: rest) :
    ∃ m ≥ n, ∃ other added, (events m).2 = .takes other ∧
      (c.after events m).step? (events m).1 (events m).2 = some (c.after events (m + 1)) ∧
      (c.after events m).pool.queue = job :: (rest ++ added) := by
  by_contra hnone
  -- till somebody takes a job the queue does nothing but grow behind it
  have hgrows : ∀ m ≥ n, ∃ added, (c.after events m).pool.queue = job :: (rest ++ added) := by
    intro m hm
    refine after_induction (P := fun c' => ∃ added, c'.pool.queue = job :: (rest ++ added))
      ⟨[], by rw [hqueue, List.append_nil]⟩ ?_ hm
    rintro k hk ⟨added, hadded⟩ hdue
    obtain ⟨p, hpost, hp⟩ := hleft (k + 1)
    obtain ⟨more, hmore⟩ := queue_step (happens_of_step? hdue)
      ((hsound.run (upTo events (k + 1))).workers_pos hpost hp)
      (fun other htakes => hnone ⟨k, hk, other, added, htakes, hdue, hadded⟩)
    exact ⟨added ++ more, by rw [hmore, hadded, List.cons_append, List.append_assoc]⟩
  refine not_stuck hsound hfair hleft n ⟨fun m hm hempty => ?_, fun m hm other hdue htakes => ?_⟩
  · obtain ⟨added, hadded⟩ := hgrows m hm
    rw [hempty] at hadded
    cases hadded
  · obtain ⟨added, hadded⟩ := hgrows m hm
    exact hnone ⟨m, hm, other, added, htakes, hdue, hadded⟩

/-- Every job in the queue is taken in the end. -/
theorem exists_taken (hsound : Sound c) (hfair : Fair c events)
    (hleft : ∀ m, ∃ p, (c.after events m).posts[worker]? = some p ∧ p ≠ .lost)
    {job : Job} (hjob : job ∈ (c.after events n).pool.queue) :
    ∃ m other, (other, job.index) ∈ c.taken (upTo events m) := by
  obtain ⟨before, behind, hqueue⟩ := List.append_of_mem hjob
  -- on the jobs in front of it
  induction before generalizing n behind with
  | nil =>
    obtain ⟨m, -, other, added, htakes, hdue, hfront⟩ := exists_takes hsound hfair hleft hqueue
    refine ⟨m + 1, other, ?_⟩
    rw [taken, reports_upTo_succ _ hdue]
    refine List.mem_append_right _ ?_
    simp [tellTaken, htakes, hfront]
  | cons first before ih =>
    obtain ⟨m, -, other, added, htakes, hdue, hfront⟩ := exists_takes hsound hfair hleft hqueue
    have hnext : (c.after events (m + 1)).pool.queue = before ++ job :: (behind ++ added) := by
      have htaken := happens_of_step? hdue
      rw [htakes] at htaken
      obtain ⟨taken, hrest⟩ := queue_takes htaken
      rw [hfront] at hrest
      simpa using (List.tail_eq_of_cons_eq hrest).symm
    exact ih (by rw [hnext]; simp) _ hnext

end

/-! ## From the beginning -/

section

variable {size capacity : Nat} {events : Nat → Nat × Event} {worker index n : Nat}

/-- A worker whose jobs never panic finishes every job that it takes. -/
theorem exists_finished (hfair : Fair (start size capacity) events)
    (hcalm : ∀ m, worker ∉ (start size capacity).panicked (upTo events m))
    (htaken : (worker, index) ∈ (start size capacity).taken (upTo events n)) :
    ∃ m, (worker, index) ∈ (start size capacity).finished (upTo events m) := by
  -- whoever cannot finish a job has finished all that it took
  obtain ⟨m, hm, hrests⟩ := hfair.workers worker n (.finishes worker) (by simp)
  have hrecorded := recorded_run size capacity (upTo events m)
  have hnone : ((start size capacity).after events m).jobOf worker = none := by
    unfold jobOf
    cases hpost : ((start size capacity).after events m).posts[worker]? with
    | none => rfl
    | some p =>
      cases p with
      | busy index =>
        have hcan := isSome_finishes hpost (events m).1
        rw [hrests] at hcan
        cases hcan
      | _ => rfl
  have hself := hrecorded.oneByOne worker fun hlost => hcalm m (hrecorded.lost worker hlost)
  rw [← after, hnone, Option.toList_none, List.append_nil] at hself
  have hlater := (reports_upTo _ (start size capacity) events hm).subset htaken
  exact ⟨m, mem_jobsOf.1 (hself ▸ mem_jobsOf.2 hlater)⟩

/-- While a worker is left every job that is put into the queue is taken in the end. -/
theorem exists_taken_of_submitted (hfair : Fair (start size capacity) events)
    (hleft : ∀ m, ∃ p, ((start size capacity).after events m).posts[worker]? = some p ∧ p ≠ .lost)
    (hentry : index ∈ (start size capacity).submitted (upTo events n)) :
    ∃ m other, (other, index) ∈ (start size capacity).taken (upTo events m) := by
  obtain ⟨p, hpost, hp⟩ := hleft n
  have hworkers := (sound_run size capacity (upTo events n)).workers_pos hpost hp
  rw [(recorded_run size capacity (upTo events n)).inOrder hworkers, List.mem_append] at hentry
  rcases hentry with htaken | hqueue
  · obtain ⟨⟨other, index⟩, hmem, rfl⟩ := List.mem_map.1 htaken
    exact ⟨n, other, hmem⟩
  · obtain ⟨job, hjob, rfl⟩ := List.mem_map.1 hqueue
    exact exists_taken (Sound.start size capacity) hfair hleft hjob

/-- While a worker is left every job of a caller is put into the queue in the end. -/
theorem exists_submitted (hfair : Fair (start size capacity) events)
    (hleft : ∀ m, ∃ p, ((start size capacity).after events m).posts[worker]? = some p ∧ p ≠ .lost)
    (hoffered : index < ((start size capacity).after events n).offered) :
    ∃ m, index ∈ (start size capacity).submitted (upTo events m) := by
  by_contra hnever
  have hsound : ∀ m, Sound ((start size capacity).after events m) :=
    fun m => sound_run size capacity (upTo events m)
  have hworkers : ∀ m, 0 < ((start size capacity).after events m).pool.workers := by
    intro m
    obtain ⟨p, hpost, hp⟩ := hleft m
    exact (hsound m).workers_pos hpost hp
  have hwaits : ∀ m ≥ n,
      index ∈ ((start size capacity).after events m).senders.map (·.index) := by
    intro m hm
    have hlt : index < ((start size capacity).after events m).offered := by
      refine after_induction (P := fun c => index < c.offered) hoffered ?_ hm
      intro k hk hlt hdue
      obtain ⟨-, hsame⟩ | ⟨-, hmore⟩ := unended_step (happens_of_step? hdue)
      · rwa [hsame]
      · rw [hmore]
        exact Nat.lt_succ_of_lt hlt
    have hkept := (recorded_run size capacity (upTo events m)).kept (hworkers m) index hlt
    exact (List.mem_append.1 hkept).resolve_left fun hmem => hnever ⟨m, hmem⟩
  obtain ⟨k, hpassed⟩ := hfair.senders index
  have hfull : ∀ m ≥ max k n, ((start size capacity).after events m).pool.capacity ≤
      ((start size capacity).after events m).pool.queue.length := by
    intro m hm
    by_contra hroom
    have hcan := (hsound m).isSome_enters (hwaits m (Nat.le_trans (Nat.le_max_right k n) hm))
      (hworkers m) (Nat.lt_of_not_le hroom) (events m).1
    rw [hpassed m (Nat.le_trans (Nat.le_max_left k n) hm)] at hcan
    cases hcan
  -- behind the next job that is taken there is room
  have hnonempty : ((start size capacity).after events (max k n)).pool.queue ≠ [] := by
    intro hempty
    have hlength := hfull (max k n) (Nat.le_refl _)
    rw [hempty] at hlength
    exact absurd (hsound (max k n)).positive (Nat.not_lt_of_le hlength)
  obtain ⟨job, rest, hqueue⟩ := List.exists_cons_of_ne_nil hnonempty
  obtain ⟨m, hm, other, added, htakes, hdue, -⟩ :=
    exists_takes (Sound.start size capacity) hfair hleft hqueue
  have hhappens := happens_of_step? hdue
  have hcapacity := hhappens.terms.2
  have hbefore := (hsound m).room
  have hafter := hfull (m + 1) (Nat.le_succ_of_le hm)
  rw [htakes] at hhappens
  obtain ⟨taken, hrest⟩ := queue_takes hhappens
  rw [hrest, List.length_cons] at hbefore
  omega

/-- If nothing more happens, nothing changes. -/
theorem after_of_rest {c : Crew}
    (h : ∀ m ≥ n, (c.after events n).step? (events m).1 (events m).2 = none) :
    ∀ m ≥ n, c.after events m = c.after events n := by
  intro m hm
  refine after_induction (P := fun c' => c' = c.after events n) rfl (fun k hk hsame hdue => ?_) hm
  rw [hsame, h k hk] at hdue
  cases hdue

/-- If there is nothing to do any more, everybody has gone on. -/
theorem fair_of_rest {c c' : Crew} (hrest : ∀ m ≥ n, c.after events m = c')
    (hposts : ∀ p ∈ c'.posts, p ≠ .waiting ∧ p.job? = none) (hqueue : c'.pool.queue = [])
    (hsenders : c'.senders = []) : Fair c events := by
  constructor
  · intro worker m e he
    refine ⟨max m n, Nat.le_max_left m n, ?_⟩
    rw [hrest _ (Nat.le_max_right m n)]
    have hworker : ∀ p, c'.posts[worker]? = some p → p ≠ .waiting ∧ p.job? = none :=
      fun p hp => hposts p (List.mem_of_getElem? hp)
    simp only [List.mem_cons, List.not_mem_nil, or_false] at he
    rcases he with rfl | rfl | rfl
    · refine if_neg fun hlistens => ?_
      exact (hworker _ hlistens.1).1 rfl
    · simp [step?, take?, hqueue]
    · simp only [step?, finish?]
      split
      · rename_i index hbusy
        cases (hworker _ hbusy).2
      · rfl
  · intro index
    refine ⟨n, fun m hm => ?_⟩
    rw [hrest m hm]
    simp [step?, enter?, hsenders]

theorem mem_panicked_upTo {c : Crew} (h : worker ∈ c.panicked (upTo events n)) :
    ∃ m, (events m).2 = .panics worker := by
  obtain ⟨one, hone, hpanics⟩ := exists_of_mem_panicked h
  obtain ⟨m, -, rfl⟩ := List.mem_map.1 hone
  exact ⟨m, hpanics⟩

theorem panicked_upTo (hnormal : ∀ n worker, (events n).2 ≠ .panics worker) (c : Crew) (n : Nat) :
    c.panicked (upTo events n) = [] := by
  refine List.eq_nil_iff_forall_not_mem.2 fun worker hmem => ?_
  obtain ⟨m, hpanics⟩ := mem_panicked_upTo hmem
  exact hnormal m worker hpanics

end

/-! ## Every job once -/

/-- **Every job once.** In every history of a pool whose jobs do not panic, the jobs that have been
taken and those in the queue are at any time together the jobs that have been put into it, in their
order, each of them once; who has taken a job is settled; as many jobs are done at a time as there
are workers, at most; a worker has finished all the jobs that it has taken but the one that it does;
and when a shutdown tells that all workers ended in time, all jobs have been finished. If everybody
goes on, every job that is put into the queue is finished in the end. -/
theorem runs_every_job_once (size capacity : Nat) (events : Nat → Nat × Event)
    (hnormal : ∀ n worker, (events n).2 ≠ .panics worker) :
    let crew := start size capacity
    (∀ n,
      let c := crew.after events n
      let submitted := crew.submitted (upTo events n)
      let taken := crew.taken (upTo events n)
      let finished := crew.finished (upTo events n)
      submitted.Nodup ∧ submitted = taken.map Prod.snd ++ c.pool.queue.map (·.index) ∧
      (∀ index ∈ submitted, index ∉ c.pool.queue.map (·.index) →
        ∃! worker, (worker, index) ∈ taken) ∧
      (c.pool.running.map (·.index)).Perm c.atWork ∧ c.atWork.length ≤ max 1 size ∧
      (∀ worker, jobsOf worker taken = jobsOf worker finished ++ (c.jobOf worker).toList) ∧
      c.pool.finished = finished.map Prod.snd ∧
      (c.closing = .returned true → c.pool.finished.Perm submitted)) ∧
    (Fair crew events → ∀ n, ∀ index ∈ crew.submitted (upTo events n),
      ∃ m worker, (worker, index) ∈ crew.finished (upTo events m)) := by
  intro crew
  have hfirst : 0 < max 1 size := Nat.lt_of_lt_of_le Nat.one_pos (Nat.le_max_left 1 size)
  have hcalm := panicked_upTo hnormal crew
  have hlost : ∀ n, .lost ∉ (crew.after events n).posts := fun n => lost_not_mem (hcalm n)
  have hpost : ∀ n, ∃ p, (crew.after events n).posts[0]? = some p ∧ p ≠ .lost :=
    fun n => exists_post hfirst (hcalm n ▸ List.not_mem_nil)
  have hsound : ∀ n, Sound (crew.after events n) := fun n => sound_run size capacity (upTo events n)
  have hrecorded := fun n => recorded_run size capacity (upTo events n)
  have hleft : ∀ n, 0 < (crew.after events n).pool.workers := by
    intro n
    obtain ⟨p, hp, hne⟩ := hpost n
    exact (hsound n).workers_pos hp hne
  constructor
  · intro n c submitted taken finished
    refine ⟨(hrecorded n).nodup, (hrecorded n).inOrder (hleft n),
      fun index hentry hqueue => (hrecorded n).existsUnique_taken (hleft n) hentry hqueue,
      (hsound n).busy, ?_, fun worker => (hrecorded n).oneByOne worker ?_, (hrecorded n).ended,
      fun hreturned => ?_⟩
    · rw [← length_posts_run size capacity (upTo events n)]
      exact List.length_filterMap_le _ _
    · exact fun hgone => hlost n (List.mem_of_getElem? hgone)
    · have hsize : 0 < c.pool.size := (terms_run crew (upTo events n)).1.symm ▸ hfirst
      exact (hrecorded n).perm_of_ended (hsound n) hsize ((hsound n).joined.atLast hreturned)
        (hlost n)
  · intro hfair n index hentry
    obtain ⟨m, worker, hmem⟩ := exists_taken_of_submitted hfair hpost hentry
    obtain ⟨k, hfinished⟩ :=
      exists_finished hfair (fun m => hcalm m ▸ List.not_mem_nil) hmem
    exact ⟨k, worker, hfinished⟩

/-- A history in which one job is done and the pool is shut down. -/
def oneJob : Nat → Nat × Event
  | 0 => (0, .offers 5)
  | 1 => (0, .enters 0)
  | 2 => (0, .listens 0)
  | 3 => (0, .takes 0)
  | 4 => (5, .finishes 0)
  | 5 => (5, .closes)
  | 6 => (6, .listens 0)
  | 7 => (6, .retires 0)
  | 8 => (6, .joins)
  | 9 => (6, .joins)
  | n => (n, .expires)

theorem runs_every_job_once_one :
    (∀ n worker, (oneJob n).2 ≠ .panics worker) ∧ Fair (start 1 1) oneJob ∧
      ((start 1 1).after oneJob 10).closing = .returned true ∧
      ((start 1 1).after oneJob 10).pool.finished.Perm [0] ∧
      ∃ m worker, (worker, 0) ∈ (start 1 1).finished (upTo oneJob m) := by
  have hnormal : ∀ n worker, (oneJob n).2 ≠ .panics worker := by
    intro n worker
    unfold oneJob
    split <;> nofun
  have hrest : ∀ m ≥ 10, (start 1 1).after oneJob m = (start 1 1).after oneJob 10 := by
    refine after_of_rest fun m hm => ?_
    have hexpires : (oneJob m).2 = .expires := by
      unfold oneJob
      split <;> first | rfl | omega
    rw [hexpires]
    rfl
  have hfair : Fair (start 1 1) oneJob :=
    fair_of_rest hrest (by decide +kernel) (by decide +kernel) (by decide +kernel)
  have hreturned : ((start 1 1).after oneJob 10).closing = .returned true := by decide +kernel
  have hentry : (start 1 1).submitted (upTo oneJob 10) = [0] := by decide +kernel
  obtain ⟨hsafe, hlive⟩ := runs_every_job_once 1 1 oneJob hnormal
  obtain ⟨-, -, -, -, -, -, -, hall⟩ := hsafe 10
  exact ⟨hnormal, hfair, hreturned, hentry ▸ hall hreturned,
    hlive hfair 10 0 (hentry ▸ List.mem_singleton_self 0)⟩

/-! ## Panics -/

/-- How many workers do a job or are ready to take one. -/
def ready (c : Crew) : Nat := c.posts.countP (!·.hasEnded)

section

variable {c c' : Crew} {e : Event} {events : Nat → Nat × Event} {size capacity now n m : Nat}

/-- Before a pool is shut down only those workers have ended that are lost. -/
theorem Sound.ready_eq_left (h : Sound c) (hopen : c.closing = .notYet) : c.ready = c.left := by
  refine List.countP_congr fun p hp => ?_
  cases p with
  | retired =>
    have hclosed := (h.retired hp).1
    exact absurd hopen (h.closed.1 hclosed)
  | _ => simp [Post.hasEnded]

/-- No worker comes back. -/
theorem Happens.workers_le (h : Happens now c e c') : c'.pool.workers ≤ c.pool.workers := by
  cases h with
  | panics => exact Nat.sub_le _ _
  | _ => exact Nat.le_refl _

/-- With the last worker goes the queue, and nothing comes into it behind that. -/
theorem queue_of_nobody (size capacity : Nat) (events : List (Nat × Event)) :
    (machine.run (start size capacity) events).pool.workers = 0 →
      (machine.run (start size capacity) events).pool.queue = [] := by
  refine machine.run_induction (P := fun c => c.pool.workers = 0 → c.pool.queue = []) ?_ ?_ events
  · intro c now e c' h hdue
    cases happens_of_step? hdue with
    | enters hsender hopen hworkers hroom =>
      exact fun hnobody => absurd hnobody (Nat.pos_iff_ne_zero.1 hworkers)
    | takes hpost hqueue =>
      intro hnobody
      have hnone := h hnobody
      rw [hqueue] at hnone
      cases hnone
    | panics hpost =>
      intro hnobody
      have hlast : c.pool.workers ≤ 1 := Nat.sub_eq_zero_iff_le.1 hnobody
      exact if_pos hlast
    | _ => exact h
  · intro hnobody
    have hfirst : 0 < max 1 size := Nat.lt_of_lt_of_le Nat.one_pos (Nat.le_max_left 1 size)
    exact absurd hnobody (Nat.pos_iff_ne_zero.1 hfirst)

/-- If nothing is told of the events from some time on, nothing more is told. -/
theorem reports_upTo_eq {β : Type} {tell : Crew → Nat → Event → List β}
    (hquiet : ∀ k ≥ n, ∀ c', (c.after events k).step? (events k).1 (events k).2 = some c' →
      tell (c.after events k) (events k).1 (events k).2 = [])
    (hle : n ≤ m) :
    machine.reports tell c (upTo events m) = machine.reports tell c (upTo events n) := by
  induction hle with
  | refl => rfl
  | @step m hle ih =>
    cases hdue : (c.after events m).step? (events m).1 (events m).2 with
    | none =>
      have hone : machine.reports tell (machine.run c (upTo events m)) [events m] = [] :=
        Machine.reports_of_none hdue
      rw [upTo_succ, Machine.reports_append, hone, List.append_nil, ih]
    | some c' => rw [reports_upTo_succ tell hdue, hquiet m hle c' hdue, List.append_nil, ih]

/-- If there are always fewer panics than workers, some worker is never lost. -/
theorem exists_unharmed {c : Crew} {size : Nat}
    (hfew : ∀ n, (c.panicked (upTo events n)).length < size) :
    ∃ worker < size, ∀ n, worker ∉ c.panicked (upTo events n) := by
  by_contra hnone
  -- otherwise there would be a time by which the jobs of all of them had panicked
  have hall : ∀ k ≤ size, ∃ n, ∀ worker < k, worker ∈ c.panicked (upTo events n) := by
    intro k
    induction k with
    | zero => exact fun _ => ⟨0, fun _ hlt => absurd hlt (Nat.not_lt_zero _)⟩
    | succ k ih =>
      intro hk
      obtain ⟨n, hn⟩ := ih (Nat.le_of_succ_le hk)
      obtain ⟨m, hm⟩ : ∃ m, k ∈ c.panicked (upTo events m) := by
        by_contra hnever
        exact hnone ⟨k, hk, fun m hmem => hnever ⟨m, hmem⟩⟩
      refine ⟨max n m, fun worker hworker => ?_⟩
      rcases Nat.lt_succ_iff_lt_or_eq.1 hworker with hlt | rfl
      · exact (reports_upTo _ c events (Nat.le_max_left n m)).subset (hn worker hlt)
      · exact (reports_upTo _ c events (Nat.le_max_right n m)).subset hm
  obtain ⟨n, hn⟩ := hall size (Nat.le_refl size)
  have hsub : List.range size ⊆ c.panicked (upTo events n) :=
    fun worker hworker => hn worker (List.mem_range.1 hworker)
  have hle := (List.nodup_range.subperm hsub).length_le
  rw [List.length_range] at hle
  exact absurd (hfew n) (Nat.not_lt_of_le hle)

/-- A pool without workers takes no job from a caller, and sends whoever has one away. -/
theorem refuses_of_nobody (hnobody : c.pool.workers = 0) (now index : Nat) :
    c.step? now (.enters index) = none ∧
      (index ∈ c.senders.map (·.index) → (c.step? now (.refuses index)).isSome = true) := by
  constructor
  · have hfull : ∀ job, c.pool.submit? job = none := fun job => if_neg (by simp [hnobody])
    simp [step?, enter?, hfull]
  · intro hmem
    obtain ⟨job, hjob, rfl⟩ := List.mem_map.1 hmem
    have hany : c.senders.any (·.index = job.index) = true :=
      List.any_eq_true.2 ⟨job, hjob, decide_eq_true rfl⟩
    simp [step?, refuse?, hnobody, hany]

end

/-- **What panics cost.** Every job that panics costs the pool a worker: before it is shut down,
those that do a job or are ready to take one are fewer by the number of the panics than the workers
with which it started. If everybody goes on and there are always fewer panics than workers, every job
that a caller has is put into the queue in the end, and every job that is put into it is taken. Once
there are as many panics as workers, the jobs in the queue are gone, no job is put into it or taken
any more, and every caller is sent away. -/
theorem panics_cost_workers (size capacity : Nat) (events : Nat → Nat × Event) :
    let crew := start size capacity
    let panics := fun n => (crew.panicked (upTo events n)).length
    (∀ n, (crew.after events n).closing = .notYet →
      (crew.after events n).ready + panics n = max 1 size) ∧
    (Fair crew events → (∀ n, panics n < max 1 size) →
      (∀ n, ∀ index < (crew.after events n).offered,
        ∃ m, index ∈ crew.submitted (upTo events m)) ∧
      ∀ n, ∀ index ∈ crew.submitted (upTo events n),
        ∃ m other, (other, index) ∈ crew.taken (upTo events m)) ∧
    ∀ n, panics n = max 1 size → ∀ m ≥ n,
      let c := crew.after events m
      crew.submitted (upTo events m) = crew.submitted (upTo events n) ∧
      crew.taken (upTo events m) = crew.taken (upTo events n) ∧ c.pool.queue = [] ∧
      ∀ now index, c.step? now (.enters index) = none ∧
        (index ∈ c.senders.map (·.index) → (c.step? now (.refuses index)).isSome = true) := by
  intro crew panics
  have hsound : ∀ n, Sound (crew.after events n) := fun n => sound_run size capacity (upTo events n)
  have hcounted : ∀ n, (crew.after events n).left + panics n = max 1 size := fun n =>
    (recorded_run size capacity (upTo events n)).counted.trans (length_posts_run size capacity _)
  refine ⟨fun n hopen => ?_, fun hfair hfew => ?_, fun n hall m hm => ?_⟩
  · rw [(hsound n).ready_eq_left hopen]
    exact hcounted n
  · obtain ⟨worker, hworker, hcalm⟩ := exists_unharmed hfew
    have hleft := fun n => exists_post hworker (hcalm n)
    exact ⟨fun n index hoffered => exists_submitted hfair hleft hoffered,
      fun n index hentry => exists_taken_of_submitted hfair hleft hentry⟩
  · have hnobody : ∀ k ≥ n, (crew.after events k).pool.workers = 0 := by
      intro k hk
      refine after_induction (P := fun c => c.pool.workers = 0) ?_ (fun l _ hnone hdue => ?_) hk
      · have hleft := hcounted n
        rw [(hsound n).workers]
        omega
      · exact Nat.le_zero.1 (hnone ▸ (happens_of_step? hdue).workers_le)
    refine ⟨reports_upTo_eq (fun k hk c' hdue => ?_) hm, reports_upTo_eq (fun k hk c' hdue => ?_) hm,
      queue_of_nobody size capacity _ (hnobody m hm), refuses_of_nobody (hnobody m hm)⟩
    · -- a job is put into the queue only if there is a worker
      have hhappens := happens_of_step? hdue
      generalize (events k).2 = e at hhappens ⊢
      cases hhappens with
      | enters hsender hopen hworkers => exact absurd (hnobody k hk) (Nat.pos_iff_ne_zero.1 hworkers)
      | _ => rfl
    · -- and there is none in it to be taken
      have hempty : (crew.after events k).pool.queue = [] :=
        queue_of_nobody size capacity _ (hnobody k hk)
      unfold tellTaken
      split
      · rw [hempty]
        rfl
      · rfl

/-- A history in which one job panics and another one is done, if there is a second worker. -/
def onePanic : Nat → Nat × Event
  | 0 => (0, .offers 5)
  | 1 => (0, .enters 0)
  | 2 => (0, .listens 0)
  | 3 => (0, .takes 0)
  | 4 => (0, .listens 1)
  | 5 => (1, .panics 0)
  | 6 => (1, .offers 5)
  | 7 => (1, .enters 1)
  | 8 => (1, .takes 1)
  | 9 => (6, .finishes 1)
  | 10 => (6, .listens 1)
  | n => (n, .expires)

theorem panics_cost_workers_one :
    Fair (start 2 1) onePanic ∧ ((start 2 1).after onePanic 11).ready = 1 ∧
      (∃ m, 1 ∈ (start 2 1).submitted (upTo onePanic m)) ∧
      (∃ m other, (other, 1) ∈ (start 2 1).taken (upTo onePanic m)) ∧
      ∀ m ≥ 7, (start 1 1).submitted (upTo onePanic m) = [0] ∧
        ((start 1 1).after onePanic m).step? 8 (.enters 1) = none := by
  have hidle : ∀ m ≥ 11, ((start 2 1).after onePanic 11).step? (onePanic m).1 (onePanic m).2 =
      none := by
    intro m hm
    have hexpires : (onePanic m).2 = .expires := by
      unfold onePanic
      split <;> first | rfl | omega
    rw [hexpires]
    rfl
  have hrest := after_of_rest hidle
  have hfair : Fair (start 2 1) onePanic :=
    fair_of_rest hrest (by decide +kernel) (by decide +kernel) (by decide +kernel)
  have hlost : (start 2 1).panicked (upTo onePanic 11) = [0] := by decide +kernel
  have hfew : ∀ n, ((start 2 1).panicked (upTo onePanic n)).length < max 1 2 := by
    intro n
    have hle := (reports_upTo (fun c _ => tellPanicked c) (start 2 1) onePanic
      (Nat.le_max_left n 11)).length_le
    have hsame : (start 2 1).panicked (upTo onePanic (max n 11)) = [0] := by
      refine (reports_upTo_eq (fun k hk c' hdue => ?_) (Nat.le_max_right n 11)).trans hlost
      rw [hrest k hk, hidle k hk] at hdue
      cases hdue
    exact Nat.lt_succ_of_le (Nat.le_trans hle (Nat.le_of_eq (congrArg List.length hsame)))
  obtain ⟨hready, hlive, -⟩ := panics_cost_workers 2 1 onePanic
  obtain ⟨henters, htakes⟩ := hlive hfair hfew
  have hopen : ((start 2 1).after onePanic 11).closing = .notYet := by decide +kernel
  have hcount : ((start 2 1).after onePanic 11).ready +
      ((start 2 1).panicked (upTo onePanic 11)).length = max 1 2 := hready 11 hopen
  rw [hlost] at hcount
  have hentry : (start 2 1).submitted (upTo onePanic 11) = [0, 1] := by decide +kernel
  refine ⟨hfair, Nat.succ.inj hcount, henters 11 1 (by decide +kernel),
    htakes 11 1 (hentry ▸ by simp), fun m hm => ?_⟩
  -- the pool has lost its only worker when the second job is offered
  obtain ⟨-, -, hend⟩ := panics_cost_workers 1 1 onePanic
  have hall : ((start 1 1).panicked (upTo onePanic 7)).length = max 1 1 := by decide +kernel
  have hfirst : (start 1 1).submitted (upTo onePanic 7) = [0] := by decide +kernel
  obtain ⟨hsubmitted, -, -, hrefuses⟩ := hend 7 hall m hm
  exact ⟨hsubmitted.trans hfirst, (hrefuses 8 1).1⟩

/-- A panic leaves a worker less. With the last one the job behind it in the queue is gone, and the
next caller is sent away, although nobody has shut the pool down. -/
theorem not_ready_eq_size :
    let panic : List (Nat × Event) :=
      [(0, .offers 5), (0, .enters 0), (0, .listens 0), (0, .takes 0), (0, .offers 5),
        (0, .enters 1), (1, .panics 0)]
    let two := machine.run (start 2 1) panic
    let alone := machine.run (start 1 1) (panic ++ [(2, .offers 5)])
    two.closing = .notYet ∧ two.ready = 1 ∧ alone.closing = .notYet ∧ alone.ready = 0 ∧
      (start 1 1).submitted panic = [0, 1] ∧ (start 1 1).taken panic = [(0, 0)] ∧
      alone.pool.queue = [] ∧ alone.step? 2 (.enters 2) = none ∧
      (alone.step? 2 (.refuses 2)).isSome = true := by
  decide +kernel

end Switchboard.Crew
