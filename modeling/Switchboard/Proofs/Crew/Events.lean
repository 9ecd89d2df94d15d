import Mathlib.Data.List.Perm.Subperm
import Switchboard.Crew

/-!
# Workers at work

What an event does to the workers of a pool is said once, with what must hold for it to happen
(`Happens`). What always holds (`Sound`) follows from that: the pool counts the workers that are not
lost and the jobs that its workers do; no job is in two places; the queue has no more jobs than it
has room for; and a worker retires only when there is nothing left to do for anybody.
-/

namespace Switchboard.Crew

variable {now : Nat} {c c' : Crew} {e : Event} {worker index : Nat} {p q : Post}

/-! ## Events that happen -/

/-- What an event does, and what must hold for it to happen. -/
inductive Happens (now : Nat) (c : Crew) : Event → Crew → Prop
  | offers {length : Nat} (hopen : c.closing = .notYet) : Happens now c (.offers length)
      { c with senders := c.senders ++ [⟨c.offered, length⟩], offered := c.offered + 1 }
  | enters {job : Job} (hsender : job ∈ c.senders) (hopen : c.pool.closed = false)
    (hworkers : 0 < c.pool.workers) (hroom : c.pool.queue.length < c.pool.capacity) :
    Happens now c (.enters job.index)
      { c with
        pool := { c.pool with queue := c.pool.queue ++ [job] }
        senders := c.without job.index }
  | refuses {index : Nat} (hworkers : c.pool.workers = 0) :
    Happens now c (.refuses index) { c with senders := c.without index }
  | listens {worker : Nat} (hpost : c.posts[worker]? = some .waiting)
    (hfree : .listening ∉ c.posts) : Happens now c (.listens worker) (c.post worker .listening)
  | takes {worker : Nat} {job : Job} {queue : List Job}
    (hpost : c.posts[worker]? = some .listening) (hqueue : c.pool.queue = job :: queue) :
    Happens now c (.takes worker)
      { c.post worker (.busy job.index) with
        pool := { c.pool with
          running := c.pool.running ++ [⟨job.index, now + job.length⟩]
          queue } }
  | finishes {worker index : Nat} (hpost : c.posts[worker]? = some (.busy index)) :
    Happens now c (.finishes worker)
      { c.post worker .waiting with pool := c.pool.finish index }
  | panics {worker index : Nat} (hpost : c.posts[worker]? = some (.busy index)) :
    Happens now c (.panics worker) { c.post worker .lost with pool := c.pool.crash index }
  | retires {worker : Nat} (hpost : c.posts[worker]? = some .listening)
    (hclosed : c.pool.closed = true) (hqueue : c.pool.queue = []) :
    Happens now c (.retires worker) (c.post worker .retired)
  | closes (hopen : c.closing = .notYet) (hsenders : c.senders = []) :
    Happens now c .closes { c with pool := c.pool.close, closing := .joining 0 }
  | joins {joined : Nat} {p : Post} (hclosing : c.closing = .joining joined)
    (hpost : c.posts[joined]? = some p) (hended : p.hasEnded = true) :
    Happens now c .joins { c with closing := .joining (joined + 1) }
  | returns {joined : Nat} (hclosing : c.closing = .joining joined)
    (hall : c.posts[joined]? = none) : Happens now c .joins { c with closing := .returned true }
  | expires {joined : Nat} (hclosing : c.closing = .joining joined) :
    Happens now c .expires { c with closing := .returned false }

/-- Every event that happens is one of these, with its guards. -/
theorem happens_of_step? (h : c.step? now e = some c') : Happens now c e c' := by
  cases e with
  | offers length =>
    obtain ⟨hopen, h⟩ := Option.ite_none_right_eq_some.1 h
    cases h
    exact .offers hopen
  | enters index =>
    obtain ⟨job, hjob, h⟩ := Option.bind_eq_some_iff.1 h
    obtain ⟨pool, hpool, h⟩ := Option.bind_eq_some_iff.1 h
    obtain ⟨⟨hopen, hworkers, hroom⟩, hpool⟩ := Option.ite_none_right_eq_some.1 hpool
    obtain rfl : job.index = index := by simpa using List.find?_some hjob
    cases hpool
    cases h
    exact .enters (List.mem_of_find?_eq_some hjob) (by simpa using hopen) hworkers hroom
  | refuses index =>
    obtain ⟨⟨hworkers, -⟩, h⟩ := Option.ite_none_right_eq_some.1 h
    cases h
    exact .refuses hworkers
  | listens worker =>
    obtain ⟨⟨hpost, hfree⟩, h⟩ := Option.ite_none_right_eq_some.1 h
    cases h
    exact .listens hpost hfree
  | takes worker =>
    obtain ⟨hpost, h⟩ := Option.ite_none_right_eq_some.1 h
    split at h
    · rename_i job queue pool hqueue hpool
      rw [Pool.take?, hqueue] at hpool
      obtain ⟨-, hpool⟩ := Option.ite_none_right_eq_some.1 hpool
      cases hpool
      cases h
      exact .takes hpost hqueue
    · cases h
  | finishes worker =>
    simp only [step?, finish?] at h
    split at h
    · rename_i index hpost
      cases h
      exact .finishes hpost
    · cases h
  | panics worker =>
    simp only [step?, lose?] at h
    split at h
    · rename_i index hpost
      cases h
      exact .panics hpost
    · cases h
  | retires worker =>
    obtain ⟨⟨hpost, hclosed, hqueue⟩, h⟩ := Option.ite_none_right_eq_some.1 h
    cases h
    exact .retires hpost hclosed hqueue
  | closes =>
    obtain ⟨⟨hopen, hsenders⟩, h⟩ := Option.ite_none_right_eq_some.1 h
    cases h
    exact .closes hopen hsenders
  | joins =>
    simp only [step?, join?] at h
    split at h
    · rename_i joined hclosing
      split at h
      · rename_i hall
        cases h
        exact .returns hclosing hall
      · rename_i p hpost
        obtain ⟨hended, h⟩ := Option.ite_none_right_eq_some.1 h
        cases h
        exact .joins hclosing hpost hended
    · cases h
  | expires =>
    simp only [step?, expire?] at h
    split at h
    · rename_i joined hclosing
      cases h
      exact .expires hclosing
    · cases h

/-- The size of a pool and the room in its queue are settled. -/
theorem Happens.terms (h : Happens now c e c') :
    c'.pool.size = c.pool.size ∧ c'.pool.capacity = c.pool.capacity := by
  cases h <;> exact ⟨rfl, rfl⟩

/-! ## One worker among others -/

/-- A worker stands between the others, and what becomes of it leaves them where they are. -/
theorem exists_around (h : c.posts[worker]? = some p) :
    ∃ before after, c.posts = before ++ p :: after ∧ before.length = worker ∧
      ∀ q, (c.post worker q).posts = before ++ q :: after := by
  obtain ⟨hlt, rfl⟩ := List.getElem?_eq_some_iff.1 h
  have hset : ∀ q, (c.post worker q).posts =
      c.posts.take worker ++ q :: c.posts.drop (worker + 1) := by
    intro q
    show c.posts.set worker q = _
    rw [List.set_eq_take_append_cons_drop, if_pos hlt]
  refine ⟨c.posts.take worker, c.posts.drop (worker + 1), ?_, ?_, hset⟩
  · have hself := hset c.posts[worker]
    rwa [post, List.set_getElem_self] at hself
  · rw [List.length_take]
    omega

theorem length_posts_post (c : Crew) (worker : Nat) (q : Post) :
    (c.post worker q).posts.length = c.posts.length := List.length_set

theorem getElem?_post_self (h : c.posts[worker]? = some p) (q : Post) :
    (c.post worker q).posts[worker]? = some q := by
  obtain ⟨hlt, -⟩ := List.getElem?_eq_some_iff.1 h
  exact List.getElem?_set_self hlt

theorem getElem?_post_ne {other : Nat} (h : worker ≠ other) (q : Post) :
    (c.post worker q).posts[other]? = c.posts[other]? := List.getElem?_set_ne h

/-- Whoever is somewhere else stays there when a worker comes further. -/
theorem getElem?_post_of_ne {other : Nat} (hother : c.posts[other]? = some q)
    (hpost : c.posts[worker]? = some p) (hne : q ≠ p) (next : Post) :
    (c.post other next).posts[worker]? = some p := by
  have hne' : other ≠ worker := by
    rintro rfl
    exact hne (Option.some.inj (hother.symm.trans hpost))
  rw [getElem?_post_ne hne', hpost]

/-! ## Numbers of jobs -/

/-- Whether some jobs are different ones, with numbers that have been given. -/
structure Numbered (offered : Nat) (jobs : List Nat) : Prop where
  apart : jobs.Nodup
  below : ∀ index ∈ jobs, index < offered

namespace Numbered

variable {offered : Nat} {jobs jobs' : List Nat}

theorem nil (offered : Nat) : Numbered offered [] :=
  ⟨List.nodup_nil, fun _ h => absurd h List.not_mem_nil⟩

/-- Fewer jobs are numbered as well. -/
theorem of_subperm (h : Numbered offered jobs) (hsub : jobs'.Subperm jobs) :
    Numbered offered jobs' := by
  obtain ⟨kept, hperm, hkept⟩ := hsub
  exact ⟨hperm.nodup_iff.1 (hkept.nodup h.apart),
    fun index hmem => h.below index (hkept.subset (hperm.mem_iff.2 hmem))⟩

/-- The next number has not been given. -/
theorem concat (h : Numbered offered jobs) : Numbered (offered + 1) (jobs ++ [offered]) := by
  have hnew : offered ∉ jobs := fun hmem => Nat.lt_irrefl _ (h.below _ hmem)
  refine ⟨(List.perm_append_singleton _ _).nodup_iff.2 (List.nodup_cons.2 ⟨hnew, h.apart⟩), ?_⟩
  intro index hmem
  rcases List.mem_append.1 hmem with hmem | hmem
  · exact Nat.lt_succ_of_lt (h.below index hmem)
  · rw [List.mem_singleton.1 hmem]
    exact Nat.lt_succ_self _

end Numbered

/-! ## Jobs that have not ended -/

/-- The jobs that workers do. -/
def atWork (c : Crew) : List Nat := c.posts.filterMap Post.job?

/-- The jobs that have not ended, those that workers do first. -/
def unended (c : Crew) : List Nat :=
  c.atWork ++ c.pool.queue.map (·.index) ++ c.senders.map (·.index)

/-- A worker that has no job goes on to where it has none. -/
theorem atWork_post (h : c.posts[worker]? = some p) (hp : p.job? = none) (hq : q.job? = none) :
    (c.post worker q).atWork = c.atWork := by
  obtain ⟨before, after, hposts, -, hpost⟩ := exists_around h
  simp [atWork, hposts, hpost, List.filterMap_cons_none, hp, hq]

/-- A worker that takes a job is at work on one more. -/
theorem atWork_busy (h : c.posts[worker]? = some p) (hp : p.job? = none) (index : Nat) :
    (c.post worker (.busy index)).atWork.Perm (index :: c.atWork) := by
  obtain ⟨before, after, hposts, -, hpost⟩ := exists_around h
  have hindex : Post.job? (.busy index) = some index := rfl
  rw [atWork, atWork, hposts, hpost, List.filterMap_append, List.filterMap_append,
    List.filterMap_cons_some hindex, List.filterMap_cons_none hp]
  exact List.perm_middle

/-- A worker whose job ends is at work on one less. -/
theorem atWork_ended (h : c.posts[worker]? = some (.busy index)) (hq : q.job? = none) :
    c.atWork.Perm (index :: (c.post worker q).atWork) := by
  obtain ⟨before, after, hposts, -, hpost⟩ := exists_around h
  have hindex : Post.job? (.busy index) = some index := rfl
  rw [atWork, atWork, hposts, hpost, List.filterMap_append, List.filterMap_append,
    List.filterMap_cons_some hindex, List.filterMap_cons_none hq]
  exact List.perm_middle

/-- A caller whose job is put into the queue waits no more. -/
theorem cons_without_subperm {job : Job} (h : job ∈ c.senders) :
    (job.index :: (c.without job.index).map (·.index)).Subperm (c.senders.map (·.index)) := by
  have hsub : (c.without job.index).Sublist c.senders := List.filter_sublist
  refine List.cons_subperm_of_not_mem_of_mem ?_ (List.mem_map_of_mem h) (hsub.map _).subperm
  simp [without]

/-- No job comes back, and a new one is none of the old ones. -/
theorem unended_step (h : Happens now c e c') :
    (c'.unended.Subperm c.unended ∧ c'.offered = c.offered) ∨
      (c'.unended = c.unended ++ [c.offered] ∧ c'.offered = c.offered + 1) := by
  cases h with
  | offers hopen =>
    right
    simp [unended, atWork]
  | enters hsender hopen hworkers hroom =>
    refine .inl ⟨?_, rfl⟩
    simp only [unended, List.map_append, List.append_assoc]
    exact (List.subperm_append_left _).2
      ((List.subperm_append_left _).2 (cons_without_subperm hsender))
  | refuses hworkers =>
    refine .inl ⟨List.Sublist.subperm ?_, rfl⟩
    exact List.Sublist.append_left (List.filter_sublist.map _) _
  | listens hpost hfree =>
    refine .inl ⟨?_, rfl⟩
    rw [unended, atWork_post hpost rfl rfl]
    exact List.Subperm.refl _
  | takes hpost hqueue =>
    refine .inl ⟨List.Perm.subperm ?_, rfl⟩
    rw [unended, unended, hqueue]
    refine List.Perm.append_right _ ?_
    exact ((atWork_busy hpost rfl _).append_right _).trans List.perm_middle.symm
  | finishes hpost =>
    refine .inl ⟨List.Subperm.append (List.Subperm.append ?_ (.refl _)) (.refl _), rfl⟩
    exact List.Subperm.trans .cons_self (atWork_ended hpost rfl).symm.subperm
  | panics hpost =>
    refine .inl ⟨List.Subperm.append (List.Subperm.append ?_ ?_) (.refl _), rfl⟩
    · exact List.Subperm.trans .cons_self (atWork_ended hpost rfl).symm.subperm
    · show (List.map _ (if c.pool.workers ≤ 1 then [] else c.pool.queue)).Subperm _
      split
      · exact List.nil_subperm
      · exact List.Subperm.refl _
  | retires hpost hclosed hqueue =>
    refine .inl ⟨?_, rfl⟩
    rw [unended, atWork_post hpost rfl rfl]
    exact List.Subperm.refl _
  | closes hopen hsenders => exact .inl ⟨List.Subperm.refl _, rfl⟩
  | joins hclosing hpost hended => exact .inl ⟨List.Subperm.refl _, rfl⟩
  | returns hclosing hall => exact .inl ⟨List.Subperm.refl _, rfl⟩
  | expires hclosing => exact .inl ⟨List.Subperm.refl _, rfl⟩

/-! ## Workers that are left -/

/-- What becomes of one worker changes a count by that worker. -/
theorem countP_post (h : c.posts[worker]? = some p) (f : Post → Bool) (q : Post) :
    (c.post worker q).posts.countP f + (f p).toNat = c.posts.countP f + (f q).toNat := by
  obtain ⟨before, after, hposts, -, hpost⟩ := exists_around h
  rw [hposts, hpost, List.countP_append, List.countP_append, List.countP_cons, List.countP_cons]
  cases f p <;> cases f q <;> simp <;> omega

/-- How many workers are not lost. -/
def left (c : Crew) : Nat := c.posts.countP (· ≠ .lost)

/-- A worker that is not lost is left. -/
theorem left_post (h : c.posts[worker]? = some p) (hp : p ≠ .lost) (hq : q ≠ .lost) :
    (c.post worker q).left = c.left := by
  have hcount := countP_post h (· ≠ .lost) q
  simpa [left, hp, hq] using hcount

/-- A worker that is lost is one less. -/
theorem left_lost (h : c.posts[worker]? = some p) (hp : p ≠ .lost) :
    (c.post worker .lost).left + 1 = c.left := by
  have hcount := countP_post h (· ≠ .lost) .lost
  simpa [left, hp] using hcount

/-- A worker that is not lost and has no job is one more than those that have jobs. -/
theorem length_atWork_lt (h : c.posts[worker]? = some p) (hjob : p.job? = none) (hp : p ≠ .lost) :
    c.atWork.length < c.left := by
  have hle : ∀ posts : List Post,
      posts.countP (fun p => p.job?.isSome) ≤ posts.countP (fun p => decide (p ≠ .lost)) := by
    refine fun posts => List.countP_mono_left fun p _ hbusy => ?_
    cases p <;> simp_all [Post.job?]
  obtain ⟨before, after, hposts, -, -⟩ := exists_around h
  have hbefore := hle before
  have hafter := hle after
  rw [atWork, left, List.length_filterMap_eq_countP, hposts, List.countP_append,
    List.countP_append, List.countP_cons_of_neg (by simp [hjob]),
    List.countP_cons_of_pos (by simp [hp])]
  omega

/-! ## Workers that have been waited for -/

/-- Whether all workers have ended that have been waited for. -/
structure Joined (c : Crew) : Prop where
  soFar : ∀ joined, c.closing = .joining joined → ∀ p ∈ c.posts.take joined, p.hasEnded = true
  atLast : c.closing = .returned true → ∀ p ∈ c.posts, p.hasEnded = true

/-- A worker that goes on has not been waited for. -/
theorem Joined.post (h : c.Joined) (hpost : c.posts[worker]? = some p)
    (hp : p.hasEnded = false) (q : Post) : (c.post worker q).Joined := by
  constructor
  · intro joined hclosing
    -- workers are waited for in their order, and those before have ended
    have hlate : joined ≤ worker := by
      by_contra hearly
      have htaken : (c.posts.take joined)[worker]? = some p :=
        (List.getElem?_take_of_lt (Nat.lt_of_not_le hearly)).trans hpost
      rw [h.soFar joined hclosing p (List.mem_of_getElem? htaken)] at hp
      cases hp
    show ∀ p ∈ (c.posts.set worker q).take joined, p.hasEnded = true
    rw [List.take_set_of_le hlate]
    exact h.soFar joined hclosing
  · intro hclosing
    rw [h.atLast hclosing p (List.mem_of_getElem? hpost)] at hp
    cases hp

/-- Who has been waited for depends on the workers and on how far the shutdown has come. -/
theorem Joined.of_eq (h : c.Joined) (hposts : c'.posts = c.posts)
    (hclosing : c'.closing = c.closing) : c'.Joined := by
  constructor
  · rw [hposts, hclosing]
    exact h.soFar
  · rw [hposts, hclosing]
    exact h.atLast

/-! ## What always holds -/

/-- What holds of a pool with its workers at every moment. -/
structure Sound (c : Crew) : Prop where
  size : c.posts.length = c.pool.size
  workers : c.pool.workers = c.left
  busy : (c.pool.running.map (·.index)).Perm c.atWork
  numbered : Numbered c.offered c.unended
  positive : 0 < c.pool.capacity
  room : c.pool.queue.length ≤ c.pool.capacity
  retired : .retired ∈ c.posts → c.pool.closed = true ∧ c.pool.queue = []
  closed : c.pool.closed = true ↔ c.closing ≠ .notYet
  alone : c.pool.closed = true → c.senders = []
  joined : c.Joined

theorem unended_start (size capacity : Nat) : (start size capacity).unended = [] := by
  have hnone : (List.replicate (max 1 size) Post.waiting).filterMap Post.job? = [] :=
    List.filterMap_eq_nil_iff.2 fun p hp => List.eq_of_mem_replicate hp ▸ rfl
  exact congrArg (· ++ [] ++ []) hnone

namespace Sound

theorem start (size capacity : Nat) : Sound (start size capacity) where
  size := List.length_replicate
  workers := by
    show max 1 size = List.countP _ (List.replicate _ _)
    simp [List.countP_replicate]
  busy := by
    show ([] : List Nat).Perm (List.filterMap _ (List.replicate _ _))
    simp [Post.job?]
  numbered := by
    rw [unended_start]
    exact .nil _
  positive := Nat.le_max_left 1 capacity
  room := Nat.zero_le _
  retired := fun h => absurd (List.eq_of_mem_replicate h) (by decide)
  closed := by simp [Crew.start, Pool.start]
  alone := fun _ => rfl
  joined := ⟨nofun, nofun⟩

/-- As many jobs run as workers are at work. -/
theorem length_running (h : Sound c) : c.pool.running.length = c.atWork.length := by
  rw [← h.busy.length_eq, List.length_map]

/-- No two workers are at one job. -/
theorem nodup_atWork (h : Sound c) : c.atWork.Nodup :=
  (List.nodup_append.1 (List.nodup_append.1 h.numbered.apart).1).1

/-- A job that ends is taken off the running ones, and no other is. -/
theorem busy_ended (h : Sound c) (hpost : c.posts[worker]? = some (.busy index))
    (hq : q.job? = none) :
    ((c.pool.running.filter (·.index ≠ index)).map (·.index)).Perm (c.post worker q).atWork := by
  have hended := atWork_ended hpost hq
  -- no two workers do one job, so no other job is taken off
  have hfresh : index ∉ (c.post worker q).atWork :=
    (List.nodup_cons.1 (hended.nodup_iff.1 h.nodup_atWork)).1
  have hothers : (c.post worker q).atWork.filter (· ≠ index) = (c.post worker q).atWork :=
    List.filter_eq_self.2 fun other hother =>
      decide_eq_true fun heq => hfresh (heq ▸ hother)
  have hfilter := (h.busy.trans hended).filter (· ≠ index)
  rw [List.filter_cons_of_neg (by simp), hothers, List.filter_map] at hfilter
  exact hfilter

/-- The jobs that run are those at which workers are. -/
theorem busy_step (h : Sound c) (hstep : Happens now c e c') :
    (c'.pool.running.map (·.index)).Perm c'.atWork := by
  cases hstep with
  | listens hpost hfree =>
    rw [atWork_post hpost rfl rfl]
    exact h.busy
  | takes hpost hqueue =>
    rw [List.map_append]
    refine List.perm_append_comm.trans ?_
    exact (h.busy.cons _).trans (atWork_busy hpost rfl _).symm
  | finishes hpost => exact h.busy_ended hpost rfl
  | panics hpost => exact h.busy_ended hpost rfl
  | retires hpost hclosed hqueue =>
    rw [atWork_post hpost rfl rfl]
    exact h.busy
  | _ => exact h.busy

/-- The pool counts the workers that are left. -/
theorem workers_step (h : Sound c) (hstep : Happens now c e c') : c'.pool.workers = c'.left := by
  cases hstep with
  | listens hpost hfree =>
    exact h.workers.trans (left_post (q := .listening) hpost nofun nofun).symm
  | takes hpost hqueue =>
    exact h.workers.trans (left_post (q := .busy _) hpost nofun nofun).symm
  | finishes hpost =>
    exact h.workers.trans (left_post (q := .waiting) hpost nofun nofun).symm
  | panics hpost =>
    show c.pool.workers - 1 = _
    rw [h.workers, ← left_lost hpost nofun]
    rfl
  | retires hpost hclosed hqueue =>
    exact h.workers.trans (left_post (q := .retired) hpost nofun nofun).symm
  | _ => exact h.workers

theorem size_step (h : Sound c) (hstep : Happens now c e c') :
    c'.posts.length = c'.pool.size := by
  cases hstep with
  | listens => exact (length_posts_post c _ _).trans h.size
  | takes => exact (length_posts_post c _ _).trans h.size
  | finishes => exact (length_posts_post c _ _).trans h.size
  | panics => exact (length_posts_post c _ _).trans h.size
  | retires => exact (length_posts_post c _ _).trans h.size
  | _ => exact h.size

/-- There are never more jobs in the queue than it has room for. -/
theorem room_step (h : Sound c) (hstep : Happens now c e c') :
    c'.pool.queue.length ≤ c'.pool.capacity := by
  have hroom := h.room
  cases hstep with
  | enters hsender hopen hworkers hfree =>
    rw [List.length_append]
    exact hfree
  | takes hpost hqueue =>
    rw [hqueue] at hroom
    exact Nat.le_of_succ_le hroom
  | panics hpost =>
    show (if c.pool.workers ≤ 1 then [] else c.pool.queue).length ≤ _
    split
    · exact Nat.zero_le _
    · exact hroom
  | _ => exact hroom

/-- A worker retires only from a queue that is closed and empty. -/
theorem retired_step (h : Sound c) (hstep : Happens now c e c') (hretired : .retired ∈ c'.posts) :
    c'.pool.closed = true ∧ c'.pool.queue = [] := by
  have hkept : ∀ {worker : Nat} {q : Post}, q ≠ .retired →
      .retired ∈ (c.post worker q).posts → .retired ∈ c.posts := by
    intro worker q hq hmem
    exact (List.mem_or_eq_of_mem_set hmem).resolve_right (Ne.symm hq)
  cases hstep with
  | enters hsender hopen hworkers hroom =>
    rw [(h.retired hretired).1] at hopen
    cases hopen
  | listens hpost hfree => exact h.retired (hkept (q := .listening) nofun hretired)
  | takes hpost hqueue =>
    have hnone := (h.retired (hkept (q := .busy _) nofun hretired)).2
    rw [hqueue] at hnone
    cases hnone
  | finishes hpost => exact h.retired (hkept (q := .waiting) nofun hretired)
  | panics hpost =>
    -- the queue has been empty before, so it is no matter whether the last worker is lost
    obtain ⟨hclosed, hnone⟩ := h.retired (hkept (q := .lost) nofun hretired)
    refine ⟨hclosed, ?_⟩
    show (if c.pool.workers ≤ 1 then [] else c.pool.queue) = []
    rw [hnone, ite_self]
  | retires hpost hclosed hqueue => exact ⟨hclosed, hqueue⟩
  | closes hopen hsenders => exact ⟨rfl, (h.retired hretired).2⟩
  | _ => exact h.retired hretired

/-- The queue is closed by a shutdown, and by nothing else. -/
theorem closed_step (h : Sound c) (hstep : Happens now c e c') :
    c'.pool.closed = true ↔ c'.closing ≠ .notYet := by
  have hclosed : ∀ {joined : Nat}, c.closing = .joining joined → c.pool.closed = true :=
    fun hclosing => h.closed.2 (by rw [hclosing]; nofun)
  cases hstep with
  | closes hopen hsenders => exact iff_of_true rfl nofun
  | joins hclosing hpost hended => exact iff_of_true (hclosed hclosing) nofun
  | returns hclosing hall => exact iff_of_true (hclosed hclosing) nofun
  | expires hclosing => exact iff_of_true (hclosed hclosing) nofun
  | _ => exact h.closed

/-- Behind a shutdown there is no caller any more. -/
theorem alone_step (h : Sound c) (hstep : Happens now c e c') (hclosed : c'.pool.closed = true) :
    c'.senders = [] := by
  cases hstep with
  | offers hopen => exact absurd hopen (h.closed.1 hclosed)
  | enters hsender hopen hworkers hroom =>
    rw [show c.pool.closed = true from hclosed] at hopen
    cases hopen
  | refuses hworkers =>
    show c.without _ = []
    rw [without, h.alone hclosed]
    rfl
  | closes hopen hsenders => exact hsenders
  | _ => exact h.alone hclosed

/-- Whoever has been waited for has ended. -/
theorem joined_step (h : Sound c) (hstep : Happens now c e c') : c'.Joined := by
  cases hstep with
  | listens hpost hfree => exact h.joined.post hpost rfl _
  | takes hpost hqueue => exact (h.joined.post hpost rfl _).of_eq rfl rfl
  | finishes hpost => exact (h.joined.post hpost rfl _).of_eq rfl rfl
  | panics hpost => exact (h.joined.post hpost rfl _).of_eq rfl rfl
  | retires hpost hclosed hqueue => exact h.joined.post hpost rfl _
  | closes hopen hsenders =>
    refine ⟨fun joined hjoining p hp => ?_, nofun⟩
    cases hjoining
    cases hp
  | joins hclosing hpost hended =>
    rename_i joined p
    refine ⟨fun next hnext => ?_, nofun⟩
    cases hnext
    intro p' hp'
    rw [List.take_add_one, hpost, List.mem_append] at hp'
    rcases hp' with hp' | hp'
    · exact h.joined.soFar joined hclosing p' hp'
    · rwa [List.mem_singleton.1 hp']
  | returns hclosing hall =>
    refine ⟨nofun, fun _ => ?_⟩
    have hall' := h.joined.soFar _ hclosing
    rwa [List.take_of_length_le (List.getElem?_eq_none_iff.1 hall)] at hall'
  | expires hclosing => exact ⟨nofun, nofun⟩
  | _ => exact h.joined.of_eq rfl rfl

/-- **One step preserves all of it.** -/
theorem step (h : Sound c) (hstep : Happens now c e c') : Sound c' := by
  have hnumbered : Numbered c'.offered c'.unended := by
    obtain ⟨hsub, hoffered⟩ | ⟨hmore, hoffered⟩ := unended_step hstep
    · rw [hoffered]
      exact h.numbered.of_subperm hsub
    · rw [hmore, hoffered]
      exact h.numbered.concat
  exact
    { size := h.size_step hstep
      workers := h.workers_step hstep
      busy := h.busy_step hstep
      numbered := hnumbered
      positive := hstep.terms.2 ▸ h.positive
      room := h.room_step hstep
      retired := h.retired_step hstep
      closed := h.closed_step hstep
      alone := h.alone_step hstep
      joined := h.joined_step hstep }

end Sound

/-! ## Histories -/

/-- What always holds holds behind every history. -/
theorem Sound.run (h : Sound c) (events : List (Nat × Event)) : Sound (machine.run c events) :=
  Machine.run_induction (fun _ _ _ _ h hdue => h.step (happens_of_step? hdue)) h events

/-- The workers are as many as they were, and so is the room in the queue. -/
theorem terms_run (c : Crew) (events : List (Nat × Event)) :
    (machine.run c events).pool.size = c.pool.size ∧
      (machine.run c events).pool.capacity = c.pool.capacity := by
  refine machine.run_induction (P := fun c' => c'.pool.size = c.pool.size ∧
    c'.pool.capacity = c.pool.capacity) (fun _ _ _ _ h hdue => ?_) ⟨rfl, rfl⟩ events
  obtain ⟨hsize, hcapacity⟩ := (happens_of_step? hdue).terms
  exact ⟨hsize.trans h.1, hcapacity.trans h.2⟩

end Switchboard.Crew
