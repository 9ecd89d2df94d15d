import Mathlib.Data.List.Nodup
import Switchboard.Proofs.Crew.Events

/-!
# Every job once

What is told of a history of workers are the jobs that were put into the queue, and who took and
who finished which (`submitted`, `taken`, `finished`), all in the order in which it happened. As
long as a worker is left the jobs that were taken and those in the queue are together the ones that
were put into it, in the same order. A worker that is not lost has finished all the jobs that it
took but the one that it does (`Recorded`). These are no more than what one event preserves, and so
they hold after every history, whoever was first.
-/

namespace Switchboard.Crew

variable {now : Nat} {c c' : Crew} {e : Event} {worker index : Nat} {p : Post}
  {entries losses : List Nat} {takes takes' ends ends' : List (Nat × Nat)}

/-! ## What is told of a history -/

/-- The job that a worker does. -/
def jobOf (c : Crew) (worker : Nat) : Option Nat := c.posts[worker]?.bind Post.job?

/-- The job that an event puts into the queue. -/
def tellSubmitted (_ : Crew) : Event → List Nat
  | .enters index => [index]
  | _ => []

/-- Who takes which job in an event. -/
def tellTaken (c : Crew) : Event → List (Nat × Nat)
  | .takes worker => (c.pool.queue.head?.map fun job => (worker, job.index)).toList
  | _ => []

/-- Who finishes which job in an event. -/
def tellFinished (c : Crew) : Event → List (Nat × Nat)
  | .finishes worker => ((c.jobOf worker).map fun index => (worker, index)).toList
  | _ => []

/-- Whose job panics in an event. -/
def tellPanicked (_ : Crew) : Event → List Nat
  | .panics worker => [worker]
  | _ => []

/-- The jobs that are put into the queue in a history. -/
def submitted (c : Crew) (events : List (Nat × Event)) : List Nat :=
  machine.reports (fun c _ => tellSubmitted c) c events

/-- Who takes which job in a history. -/
def taken (c : Crew) (events : List (Nat × Event)) : List (Nat × Nat) :=
  machine.reports (fun c _ => tellTaken c) c events

/-- Who finishes which job in a history. -/
def finished (c : Crew) (events : List (Nat × Event)) : List (Nat × Nat) :=
  machine.reports (fun c _ => tellFinished c) c events

/-- Whose jobs panic in a history. -/
def panicked (c : Crew) (events : List (Nat × Event)) : List Nat :=
  machine.reports (fun c _ => tellPanicked c) c events

/-- The jobs of a worker among those of all. -/
def jobsOf (worker : Nat) (jobs : List (Nat × Nat)) : List Nat :=
  jobs.filterMap fun (other, index) => if other = worker then some index else none

/-! ## What one event adds -/

theorem jobOf_post_self (h : c.posts[worker]? = some p) (q : Post) :
    (c.post worker q).jobOf worker = q.job? := by
  rw [jobOf, getElem?_post_self h]
  rfl

theorem jobOf_post_ne {other : Nat} (h : worker ≠ other) (q : Post) :
    (c.post worker q).jobOf other = c.jobOf other := by
  rw [jobOf, jobOf, getElem?_post_ne h]

theorem jobsOf_append (worker : Nat) (early late : List (Nat × Nat)) :
    jobsOf worker (early ++ late) = jobsOf worker early ++ jobsOf worker late :=
  List.filterMap_append

theorem jobsOf_self (worker index : Nat) : jobsOf worker [(worker, index)] = [index] := by
  simp [jobsOf]

theorem jobsOf_ne {other : Nat} (h : other ≠ worker) (index : Nat) :
    jobsOf worker [(other, index)] = [] := by
  simp [jobsOf, h]

/-- The jobs of a worker are those that are told of it. -/
theorem mem_jobsOf {jobs : List (Nat × Nat)} :
    index ∈ jobsOf worker jobs ↔ (worker, index) ∈ jobs := by
  simp [jobsOf]

/-- What is told of a history that has led to some workers. -/
structure Recorded (c : Crew) (entries : List Nat) (takes ends : List (Nat × Nat))
    (losses : List Nat) : Prop where
  numbered : Numbered c.offered (entries ++ c.senders.map (·.index))
  kept : 0 < c.pool.workers →
    ∀ index < c.offered, index ∈ entries ++ c.senders.map (·.index)
  inOrder : 0 < c.pool.workers → entries = takes.map Prod.snd ++ c.pool.queue.map (·.index)
  oneByOne : ∀ worker, c.posts[worker]? ≠ some .lost →
    jobsOf worker takes = jobsOf worker ends ++ (c.jobOf worker).toList
  ended : c.pool.finished = ends.map Prod.snd
  lost : ∀ worker, c.posts[worker]? = some .lost → worker ∈ losses
  counted : c.left + losses.length = c.posts.length

namespace Recorded

theorem start (size capacity : Nat) : Recorded (start size capacity) [] [] [] [] where
  numbered := .nil 0
  kept := fun _ _ h => absurd h (Nat.not_lt_zero _)
  inOrder := fun _ => rfl
  oneByOne := by
    intro worker _
    have hnone : (Crew.start size capacity).jobOf worker = none := by
      unfold jobOf Crew.start
      rw [List.getElem?_replicate]
      split <;> rfl
    rw [hnone]
    rfl
  ended := rfl
  lost := by
    intro worker hlost
    exact absurd (List.eq_of_mem_replicate (List.mem_of_getElem? hlost)) nofun
  counted := by
    show List.countP _ (List.replicate _ _) + 0 = (List.replicate _ _).length
    simp [List.countP_replicate]

/-- A new job has a new number, and a job that is put into the queue keeps its own. -/
theorem numbered_step (h : Recorded c entries takes ends losses) (hstep : Happens now c e c') :
    Numbered c'.offered (entries ++ tellSubmitted c e ++ c'.senders.map (·.index)) := by
  cases hstep with
  | offers hopen =>
    simp only [tellSubmitted, List.append_nil, List.map_append, ← List.append_assoc]
    exact h.numbered.concat
  | enters hsender hopen hworkers hroom =>
    rw [List.append_assoc]
    exact h.numbered.of_subperm ((List.subperm_append_left _).2 (cons_without_subperm hsender))
  | refuses hworkers =>
    simp only [tellSubmitted, List.append_nil]
    refine h.numbered.of_subperm (List.Sublist.subperm ?_)
    exact List.Sublist.append_left (List.filter_sublist.map _) _
  | _ =>
    simp only [tellSubmitted, List.append_nil]
    exact h.numbered

/-- While somebody is left no caller is sent away. -/
theorem kept_step (h : Recorded c entries takes ends losses) (hstep : Happens now c e c')
    (hleft : 0 < c'.pool.workers) :
    ∀ index < c'.offered, index ∈ entries ++ tellSubmitted c e ++ c'.senders.map (·.index) := by
  cases hstep with
  | offers hopen =>
    intro index hlt
    simp only [tellSubmitted, List.append_nil, List.map_append, ← List.append_assoc]
    rcases Nat.lt_succ_iff_lt_or_eq.1 hlt with hlt | rfl
    · exact List.mem_append_left _ (h.kept hleft index hlt)
    · exact List.mem_append_right _ (List.mem_singleton_self _)
  | enters hsender hopen hworkers hroom =>
    rename_i job
    intro index hlt
    have hmem := h.kept hleft index hlt
    by_cases heq : index = job.index
    · simp [tellSubmitted, heq]
    · simp only [tellSubmitted, List.mem_append, List.mem_map] at hmem ⊢
      rcases hmem with hmem | ⟨other, hother, rfl⟩
      · exact .inl (.inl hmem)
      · exact .inr ⟨other, List.mem_filter.2 ⟨hother, decide_eq_true heq⟩, rfl⟩
  | refuses hworkers => exact absurd hleft (by rw [hworkers]; exact Nat.lt_irrefl 0)
  | panics hpost =>
    have hbefore : 0 < c.pool.workers := Nat.lt_of_lt_of_le hleft (Nat.sub_le _ _)
    simp only [tellSubmitted, List.append_nil]
    exact h.kept hbefore
  | _ =>
    simp only [tellSubmitted, List.append_nil]
    exact h.kept hleft

/-- While a worker is left, the jobs that were put into the queue are those that were taken, and
then those in it. -/
theorem inOrder_step (h : Recorded c entries takes ends losses) (hstep : Happens now c e c')
    (hleft : 0 < c'.pool.workers) : entries ++ tellSubmitted c e =
      (takes ++ tellTaken c e).map Prod.snd ++ c'.pool.queue.map (·.index) := by
  cases hstep with
  | enters hsender hopen hworkers hroom =>
    simp only [tellSubmitted, tellTaken, List.append_nil, List.map_append, ← List.append_assoc]
    rw [h.inOrder hleft]
    rfl
  | takes hpost hqueue =>
    have horder := h.inOrder hleft
    rw [hqueue] at horder
    simp [tellSubmitted, tellTaken, hqueue, horder]
  | panics hpost =>
    -- the queue would go with the last worker, but some worker is left
    have hmore : ¬ c.pool.workers ≤ 1 := by
      have hpos : 0 < c.pool.workers - 1 := hleft
      omega
    simp only [tellSubmitted, tellTaken, List.append_nil, Pool.crash, if_neg hmore]
    exact h.inOrder (by omega)
  | _ =>
    simp only [tellSubmitted, tellTaken, List.append_nil]
    exact h.inOrder hleft

/-- Nobody else takes or finishes a job when a worker comes further. -/
theorem oneByOne_post (h : Recorded c entries takes ends losses) {q : Post}
    (hpost : c.posts[worker]? = some p) (hc' : c'.posts = (c.post worker q).posts)
    (hothers : ∀ other, worker ≠ other →
      jobsOf other takes' = jobsOf other takes ∧ jobsOf other ends' = jobsOf other ends)
    (hself : q ≠ .lost → jobsOf worker takes' = jobsOf worker ends' ++ q.job?.toList)
    (other : Nat) (hother : c'.posts[other]? ≠ some .lost) :
    jobsOf other takes' = jobsOf other ends' ++ (c'.jobOf other).toList := by
  rw [hc'] at hother
  rw [jobOf, hc', ← jobOf]
  by_cases heq : worker = other
  · subst heq
    rw [getElem?_post_self hpost] at hother
    rw [jobOf_post_self hpost]
    exact hself fun hq => hother (hq ▸ rfl)
  · rw [getElem?_post_ne heq] at hother
    rw [jobOf_post_ne heq, (hothers other heq).1, (hothers other heq).2]
    exact h.oneByOne other hother

/-- A worker has finished all that it took if it has no job. -/
theorem jobsOf_eq (h : Recorded c entries takes ends losses) (hpost : c.posts[worker]? = some p)
    (hp : p ≠ .lost) :
    jobsOf worker takes = jobsOf worker ends ++ p.job?.toList := by
  have hself := h.oneByOne worker (by rw [hpost]; exact fun heq => hp (Option.some.inj heq))
  rwa [jobOf, hpost] at hself

/-- A worker that is not lost has ended all its jobs but the one at which it is. -/
theorem oneByOne_step (h : Recorded c entries takes ends losses) (hstep : Happens now c e c')
    (other : Nat) (hother : c'.posts[other]? ≠ some .lost) :
    jobsOf other (takes ++ tellTaken c e) =
      jobsOf other (ends ++ tellFinished c e) ++ (c'.jobOf other).toList := by
  cases hstep with
  | listens hpost hfree =>
    have hself := h.jobsOf_eq hpost (by simp)
    simp only [tellTaken, tellFinished, List.append_nil]
    exact h.oneByOne_post (q := .listening) hpost rfl (fun _ _ => ⟨rfl, rfl⟩) (fun _ => hself)
      other hother
  | takes hpost hqueue =>
    rename_i worker job queue
    have htold : tellTaken c (.takes worker) = [(worker, job.index)] := by simp [tellTaken, hqueue]
    rw [htold]
    simp only [tellFinished, List.append_nil]
    refine h.oneByOne_post (q := .busy job.index) hpost rfl (fun other hne => ?_) (fun _ => ?_)
      other hother
    · rw [jobsOf_append, jobsOf_ne hne, List.append_nil]
      exact ⟨rfl, rfl⟩
    · rw [jobsOf_append, jobsOf_self, h.jobsOf_eq hpost (by simp), List.append_assoc]
      rfl
  | finishes hpost =>
    rename_i worker index
    have htold : tellFinished c (.finishes worker) = [(worker, index)] := by
      simp [tellFinished, jobOf, hpost, Post.job?]
    rw [htold]
    simp only [tellTaken, List.append_nil]
    refine h.oneByOne_post (q := .waiting) hpost rfl (fun other hne => ?_) (fun _ => ?_)
      other hother
    · rw [jobsOf_append, jobsOf_ne hne, List.append_nil]
      exact ⟨rfl, rfl⟩
    · rw [jobsOf_append, jobsOf_self, h.jobsOf_eq hpost (by simp)]
      exact (List.append_nil _).symm
  | panics hpost =>
    simp only [tellTaken, tellFinished, List.append_nil]
    exact h.oneByOne_post (q := .lost) hpost rfl (fun _ _ => ⟨rfl, rfl⟩)
      (fun hne => absurd rfl hne) other hother
  | retires hpost hclosed hqueue =>
    have hself := h.jobsOf_eq hpost (by simp)
    simp only [tellTaken, tellFinished, List.append_nil]
    exact h.oneByOne_post (q := .retired) hpost rfl (fun _ _ => ⟨rfl, rfl⟩) (fun _ => hself)
      other hother
  | _ =>
    simp only [tellTaken, tellFinished, List.append_nil]
    exact h.oneByOne other hother

/-- The pool lists the jobs that have ended, in the order in which they did. -/
theorem ended_step (h : Recorded c entries takes ends losses) (hstep : Happens now c e c') :
    c'.pool.finished = (ends ++ tellFinished c e).map Prod.snd := by
  cases hstep with
  | finishes hpost =>
    rename_i worker index
    have htold : tellFinished c (.finishes worker) = [(worker, index)] := by
      simp [tellFinished, jobOf, hpost, Post.job?]
    rw [htold, List.map_append, ← h.ended]
    rfl
  | _ =>
    simp only [tellFinished, List.append_nil]
    exact h.ended

/-- A worker is lost only by a panic. -/
theorem lost_step (h : Recorded c entries takes ends losses) (hstep : Happens now c e c')
    (other : Nat) (hother : c'.posts[other]? = some .lost) :
    other ∈ losses ++ tellPanicked c e := by
  have hkept : ∀ {worker : Nat} {p q : Post}, c.posts[worker]? = some p → q ≠ .lost →
      (c.post worker q).posts[other]? = some .lost → other ∈ losses := by
    intro worker p q hpost hq hlost
    by_cases heq : worker = other
    · subst heq
      rw [getElem?_post_self hpost] at hlost
      exact absurd (Option.some.inj hlost) hq
    · rw [getElem?_post_ne heq] at hlost
      exact h.lost other hlost
  cases hstep with
  | listens hpost hfree => exact List.mem_append_left _ (hkept (q := .listening) hpost nofun hother)
  | takes hpost hqueue => exact List.mem_append_left _ (hkept (q := .busy _) hpost nofun hother)
  | finishes hpost => exact List.mem_append_left _ (hkept (q := .waiting) hpost nofun hother)
  | panics hpost =>
    rename_i worker index
    by_cases heq : worker = other
    · exact List.mem_append_right _ (List.mem_singleton.2 heq.symm)
    · exact List.mem_append_left _ (h.lost other ((getElem?_post_ne heq _).symm.trans hother))
  | retires hpost hclosed hqueue =>
    exact List.mem_append_left _ (hkept (q := .retired) hpost nofun hother)
  | _ => exact List.mem_append_left _ (h.lost other hother)

/-- With every job that panics a worker is lost, and with no other. -/
theorem counted_step (h : Recorded c entries takes ends losses) (hstep : Happens now c e c') :
    c'.left + (losses ++ tellPanicked c e).length = c'.posts.length := by
  have hpost : ∀ {worker : Nat} {p q : Post}, c.posts[worker]? = some p → p ≠ .lost → q ≠ .lost →
      (c.post worker q).left + losses.length = (c.post worker q).posts.length := by
    intro worker p q hpost hp hq
    rw [left_post hpost hp hq, length_posts_post]
    exact h.counted
  cases hstep with
  | panics hbusy =>
    rename_i worker index
    have hlost := left_lost hbusy nofun
    have hcounted := h.counted
    show (c.post worker .lost).left + _ = (c.post worker .lost).posts.length
    rw [List.length_append, length_posts_post, tellPanicked, List.length_singleton]
    omega
  | listens hwaiting hfree =>
    simp only [tellPanicked, List.append_nil]
    exact hpost (q := .listening) hwaiting nofun nofun
  | takes hlistening hqueue =>
    simp only [tellPanicked, List.append_nil]
    exact hpost (q := .busy _) hlistening nofun nofun
  | finishes hbusy =>
    simp only [tellPanicked, List.append_nil]
    exact hpost (q := .waiting) hbusy nofun nofun
  | retires hlistening hclosed hqueue =>
    simp only [tellPanicked, List.append_nil]
    exact hpost (q := .retired) hlistening nofun nofun
  | _ =>
    simp only [tellPanicked, List.append_nil]
    exact h.counted

/-- **One event adds what is told of it**, and all that is recorded still agrees. -/
theorem step (h : Recorded c entries takes ends losses) (hstep : Happens now c e c') :
    Recorded c' (entries ++ tellSubmitted c e) (takes ++ tellTaken c e)
      (ends ++ tellFinished c e) (losses ++ tellPanicked c e) where
  numbered := h.numbered_step hstep
  kept := h.kept_step hstep
  inOrder := h.inOrder_step hstep
  oneByOne := h.oneByOne_step hstep
  ended := h.ended_step hstep
  lost := h.lost_step hstep
  counted := h.counted_step hstep

/-- What is recorded agrees with what is told, by induction on the events. -/
theorem run (h : Recorded c entries takes ends losses) (events : List (Nat × Event)) :
    Recorded (machine.run c events) (entries ++ c.submitted events) (takes ++ c.taken events)
      (ends ++ c.finished events) (losses ++ c.panicked events) := by
  unfold submitted taken finished panicked
  induction events generalizing c entries takes ends losses with
  | nil =>
    simp only [Machine.reports, List.append_nil]
    exact h
  | cons one events ih =>
    obtain ⟨now, e⟩ := one
    cases hdue : machine.step? c now e with
    | none =>
      simp only [Machine.run_of_none hdue, Machine.reports_of_none hdue]
      exact ih h
    | some c' =>
      simp only [Machine.run_of_some hdue, Machine.reports_of_some hdue, ← List.append_assoc]
      exact ih (h.step (happens_of_step? hdue))

end Recorded

/-! ## Histories from the beginning -/

section

variable (size capacity : Nat) (events : List (Nat × Event))

/-- So it does from the beginning. -/
theorem recorded_run :
    let crew := start size capacity
    Recorded (machine.run crew events) (crew.submitted events) (crew.taken events)
      (crew.finished events) (crew.panicked events) :=
  (Recorded.start size capacity).run events

theorem sound_run : Sound (machine.run (start size capacity) events) :=
  (Sound.start size capacity).run events

theorem length_posts_run : (machine.run (start size capacity) events).posts.length = max 1 size :=
  (sound_run size capacity events).size.trans (terms_run _ events).1

variable {size capacity events}

/-- A panic that is told of was an event. -/
theorem exists_of_mem_panicked (h : worker ∈ c.panicked events) :
    ∃ one ∈ events, one.2 = .panics worker := by
  obtain ⟨one, hone, c', htold⟩ := Machine.exists_of_mem_reports h
  refine ⟨one, hone, ?_⟩
  unfold tellPanicked at htold
  split at htold
  · rename_i other hpanics
    rw [hpanics, List.mem_singleton.1 htold]
  · cases htold

/-- Without panics no worker is lost. -/
theorem lost_not_mem (hcalm : (start size capacity).panicked events = []) :
    .lost ∉ (machine.run (start size capacity) events).posts := by
  intro hmem
  obtain ⟨worker, hlost⟩ := List.getElem?_of_mem hmem
  have hpanicked := (recorded_run size capacity events).lost worker hlost
  rw [hcalm] at hpanicked
  cases hpanicked

/-- A worker whose jobs have not panicked is not lost. -/
theorem exists_post (hworker : worker < max 1 size)
    (hcalm : worker ∉ (start size capacity).panicked events) :
    ∃ p, (machine.run (start size capacity) events).posts[worker]? = some p ∧ p ≠ .lost := by
  rw [← length_posts_run size capacity events] at hworker
  refine ⟨_, List.getElem?_eq_getElem hworker, fun hlost => hcalm ?_⟩
  refine (recorded_run size capacity events).lost worker ?_
  rw [List.getElem?_eq_getElem hworker, hlost]

end

/-- Where a worker stands that is not lost, workers are left. -/
theorem Sound.workers_pos (h : Sound c) (hpost : c.posts[worker]? = some p) (hp : p ≠ .lost) :
    0 < c.pool.workers := by
  rw [h.workers]
  exact List.countP_pos_iff.2 ⟨p, List.mem_of_getElem? hpost, decide_eq_true hp⟩

/-! ## No job twice -/

theorem count_jobsOf (worker index : Nat) (jobs : List (Nat × Nat)) :
    (jobsOf worker jobs).count index = jobs.count (worker, index) := by
  induction jobs with
  | nil => rfl
  | cons one jobs ih =>
    obtain ⟨other, job⟩ := one
    have hsplit : jobsOf worker ((other, job) :: jobs) =
        jobsOf worker [(other, job)] ++ jobsOf worker jobs := jobsOf_append worker [_] jobs
    rw [hsplit, List.count_append, ih]
    by_cases heq : other = worker
    · subst heq
      rw [jobsOf_self, List.count_cons, List.count_cons]
      simp
      omega
    · rw [jobsOf_ne heq, List.count_nil, List.count_cons_of_ne (by simp [heq])]
      omega

/-- No job is put into the queue twice. -/
theorem Recorded.nodup (h : Recorded c entries takes ends losses) : entries.Nodup :=
  (List.nodup_append.1 h.numbered.apart).1

/-- Of a job that is not in the queue any more it is settled who has taken it. -/
theorem Recorded.existsUnique_taken (h : Recorded c entries takes ends losses)
    (hleft : 0 < c.pool.workers) (hentry : index ∈ entries)
    (hqueue : index ∉ c.pool.queue.map (·.index)) : ∃! worker, (worker, index) ∈ takes := by
  have hnodup : (takes.map Prod.snd).Nodup := by
    have hall := h.nodup
    rw [h.inOrder hleft] at hall
    exact (List.nodup_append.1 hall).1
  rw [h.inOrder hleft, List.mem_append, or_iff_left hqueue] at hentry
  obtain ⟨⟨worker, other⟩, htaken, rfl⟩ := List.mem_map.1 hentry
  refine ⟨worker, htaken, fun other hother => ?_⟩
  exact congrArg Prod.fst (List.inj_on_of_nodup_map hnodup hother htaken rfl)

/-- When all workers have ended and none is lost, all jobs have been finished. -/
theorem Recorded.perm_of_ended (h : Recorded c entries takes ends losses) (hsound : Sound c)
    (hsize : 0 < c.pool.size) (hended : ∀ p ∈ c.posts, p.hasEnded = true)
    (hcalm : .lost ∉ c.posts) : c.pool.finished.Perm entries := by
  have hretired : ∀ p ∈ c.posts, p = .retired := by
    intro p hp
    have hend := hended p hp
    cases p with
    | retired => rfl
    | lost => exact absurd hp hcalm
    | _ => cases hend
  have hlt : 0 < c.posts.length := hsound.size ▸ hsize
  have hfirst : c.posts[0]? = some .retired := by
    rw [List.getElem?_eq_getElem hlt, hretired _ (List.getElem_mem hlt)]
  have hnone : ∀ worker, c.jobOf worker = none := by
    intro worker
    cases hpost : c.posts[worker]? with
    | none => rw [jobOf, hpost]; rfl
    | some p =>
      rw [jobOf, hpost, hretired p (List.mem_of_getElem? hpost)]
      rfl
  have hsame : takes.Perm ends := by
    rw [List.perm_iff_count]
    rintro ⟨worker, index⟩
    have hself := h.oneByOne worker fun hlost => hcalm (List.mem_of_getElem? hlost)
    rw [hnone, Option.toList_none, List.append_nil] at hself
    rw [← count_jobsOf, ← count_jobsOf, hself]
  have hqueue : c.pool.queue = [] := (hsound.retired (List.mem_of_getElem? hfirst)).2
  have horder := h.inOrder (hsound.workers_pos hfirst nofun)
  rw [hqueue, List.map_nil, List.append_nil] at horder
  rw [h.ended, horder]
  exact (hsame.map Prod.snd).symm

end Switchboard.Crew
