import Mathlib.Data.List.Induction
import Switchboard.Proofs.Dict
import Switchboard.Proofs.Durations

/-!
# What a tracker knows of a history

Calls begin and end in any order, and a call may be told to end twice, or before it has begun. What
a tracker has to know after such a history is read off the history itself: `entries` lists its calls
in the order in which they begin, numbered from one, each with the time at which it is first told to
end after that. From this list alone it is said which calls are open (`unfinished`), and how long
the finished calls of a method took (`durations`).

`Shows` says that a tracker knows these things. Another event at the end of a history changes the
list of its calls in one place, and the tracker in the same way (`Shows.begins`, `Shows.ends`), so
the tracker of a history shows the calls of the history (`shows_run`).
-/

namespace Switchboard

namespace Tracker

/-! ## Histories -/

/-- What happens to a tracker. -/
inductive Event
  /-- A call begins, at the time that it says. -/
  | begins (call : PendingCall)
  /-- A call is told to end, whether it is there or not. -/
  | ends (now id : Nat)

/-- The call that begins, if one does. -/
def Event.call? : Event → Option PendingCall
  | .begins call => some call
  | .ends _ _ => none

/-- Begins a call at the time that it says. -/
def beginCall (t : Tracker) (call : PendingCall) : Nat × Tracker :=
  t.begin call.started call.name call.protocol call.input

/-- What an event does. -/
def step (t : Tracker) : Event → Tracker
  | .begins call => (t.beginCall call).2
  | .ends now id => t.finish now id

/-- What a history does. -/
def run (t : Tracker) (events : List Event) : Tracker := events.foldl step t

/-- The numbers that a tracker gives to the calls of a history. -/
def numbers (t : Tracker) : List Event → List Nat
  | [] => []
  | .begins call :: events => (t.beginCall call).1 :: numbers (t.step (.begins call)) events
  | .ends now id :: events => numbers (t.step (.ends now id)) events

/-- The calls that begin in a history. -/
def begun (events : List Event) : List PendingCall := events.filterMap Event.call?

/-! ## What has to be known -/

/-- A call of a history. -/
structure Entry where
  id : Nat
  call : PendingCall
  /-- When it was first told to end after it had begun. -/
  ended : Option Nat

/-- When a call is first told to end. -/
def firstEnd (id : Nat) (events : List Event) : Option Nat :=
  events.findSome? fun
    | .begins _ => none
    | .ends now other => if other = id then some now else none

/-- The calls of a history, where the first one has a given number. -/
def entriesFrom : (id : Nat) → List Event → List Entry
  | _, [] => []
  | id, .begins call :: events => ⟨id, call, firstEnd id events⟩ :: entriesFrom (id + 1) events
  | id, .ends _ _ :: events => entriesFrom id events

/-- The calls of a history, numbered from one. -/
def entries (events : List Event) : List Entry := entriesFrom 1 events

/-- The calls that have not ended. -/
def unfinished (es : List Entry) : List (Nat × PendingCall) :=
  (es.filter (·.ended.isNone)).map fun e => (e.id, e.call)

/-- The number of calls that have ended. -/
def finished (es : List Entry) : Nat := es.countP (·.ended.isSome)

/-- How long a call of a method took, if it has ended. -/
def Entry.duration? (name : String) (e : Entry) : Option Nat :=
  if e.call.name = name then e.ended.map (· - e.call.started) else none

/-- How long the calls of a method took that have ended. -/
def durations (name : String) (es : List Entry) : List Nat := es.filterMap (Entry.duration? name)

/-- The call with a number is told to end. What has ended stays as it was. -/
def Entry.close (now id : Nat) (e : Entry) : Entry :=
  { e with ended := e.ended.or (if id = e.id then some now else none) }

section

variable {events : List Event} {es : List Entry} {id : Nat}

@[simp] theorem begun_begins (call : PendingCall) (events : List Event) :
    begun (.begins call :: events) = call :: begun events := rfl

@[simp] theorem begun_ends (now id : Nat) (events : List Event) :
    begun (.ends now id :: events) = begun events := rfl

/-- A call that begins gets the next number and is open. -/
theorem entriesFrom_begins (id : Nat) (events : List Event) (call : PendingCall) :
    entriesFrom id (events ++ [.begins call]) =
      entriesFrom id events ++ [⟨id + (begun events).length, call, none⟩] := by
  induction events generalizing id with
  | nil => simp [entriesFrom, begun, firstEnd]
  | cons e events ih =>
    cases e with
    | begins other =>
      simp [entriesFrom, firstEnd, ih, List.findSome?_append]
      omega
    | ends now other => simpa [entriesFrom] using ih id

/-- An end closes the entry with its number, and no other one. -/
theorem entriesFrom_ends (id : Nat) (events : List Event) (now other : Nat) :
    entriesFrom id (events ++ [.ends now other]) =
      (entriesFrom id events).map (Entry.close now other) := by
  induction events generalizing id with
  | nil => simp [entriesFrom]
  | cons e events ih =>
    cases e with
    | begins call => simp [entriesFrom, firstEnd, Entry.close, ih, List.findSome?_append]
    | ends now' other' => simpa [entriesFrom] using ih id

/-- The entries are numbered in the order in which calls begin. -/
theorem map_id_entriesFrom (id : Nat) (events : List Event) :
    (entriesFrom id events).map (·.id) = List.range' id (begun events).length := by
  induction events generalizing id with
  | nil => rfl
  | cons e events ih =>
    cases e with
    | begins call => simp [entriesFrom, List.range'_succ, ih]
    | ends now other => simpa [entriesFrom] using ih id

/-- The entries are about the calls that have begun. -/
theorem map_call_entriesFrom (id : Nat) (events : List Event) :
    (entriesFrom id events).map (·.call) = begun events := by
  induction events generalizing id with
  | nil => rfl
  | cons e events ih =>
    cases e with
    | begins call => simp [entriesFrom, ih]
    | ends now other => simpa [entriesFrom] using ih id

theorem length_entries (events : List Event) : (entries events).length = (begun events).length := by
  rw [← map_call_entriesFrom 1 events]
  simp [entries]

/-- A call has ended or it has not. -/
theorem length_unfinished_add_finished (es : List Entry) :
    (unfinished es).length + finished es = es.length := by
  induction es with
  | nil => rfl
  | cons e es ih =>
    simp only [unfinished, finished, List.length_map, List.filter_cons, List.countP_cons,
      List.length_cons] at ih ⊢
    cases e.ended <;> simp <;> omega

/-- Where a call is open that is told to end, and what that changes. -/
theorem exists_split {call : PendingCall} (hids : (es.map (·.id)).Nodup)
    (hopen : (id, call) ∈ unfinished es) :
    ∃ front back, es = front ++ ⟨id, call, none⟩ :: back ∧
      (∀ e ∈ front ++ back, e.id ≠ id) ∧
      ∀ now, es.map (Entry.close now id) = front ++ ⟨id, call, some now⟩ :: back := by
  simp only [unfinished, List.mem_map, List.mem_filter, Prod.mk.injEq] at hopen
  obtain ⟨⟨number, made, ended⟩, ⟨he, hnone⟩, hnumber, hmade⟩ := hopen
  obtain rfl : id = number := hnumber.symm
  obtain rfl : call = made := hmade.symm
  obtain rfl : ended = none := by simpa using hnone
  obtain ⟨front, back, rfl⟩ := List.append_of_mem he
  have hne : ∀ e ∈ front ++ back, e.id ≠ id := by
    intro e he heq
    simp only [List.map_append, List.map_cons, List.nodup_append, List.nodup_cons] at hids
    rcases List.mem_append.1 he with he | he
    · exact hids.2.2 _ (List.mem_map_of_mem he) _ List.mem_cons_self heq
    · exact hids.2.1.1 (heq ▸ List.mem_map_of_mem he)
  have hclose : ∀ now, ∀ e ∈ front ++ back, e.close now id = e := by
    intro now e he
    have hne := hne e he
    simp [Entry.close, Ne.symm hne]
  refine ⟨front, back, rfl, hne, ?_⟩
  intro now
  rw [List.map_append, List.map_cons,
    List.map_congr_left fun e he => hclose now e (List.mem_append_left _ he),
    List.map_congr_left fun e he => hclose now e (List.mem_append_right _ he)]
  simp [Entry.close]

/-- A call that is not open can be told to end, and nothing changes. -/
theorem map_close_of_not_mem (now : Nat) (h : ∀ call, (id, call) ∉ unfinished es) :
    es.map (Entry.close now id) = es := by
  refine (List.map_congr_left fun e he => ?_).trans (List.map_id es)
  by_cases hid : id = e.id
  · cases hended : e.ended with
    | none =>
      refine absurd ?_ (h e.call)
      simp only [unfinished, List.mem_map, List.mem_filter]
      exact ⟨e, ⟨he, by simp [hended]⟩, by rw [hid]⟩
    | some earlier =>
      obtain ⟨number, call, ended⟩ := e
      obtain rfl : ended = some earlier := hended
      rfl
  · simp [Entry.close, hid]

end

/-! ## One event -/

section

variable {t : Tracker} {es : List Entry} {id now : Nat}

/-- The total is the sum of the counts. -/
theorem total_eq_sum (t : Tracker) : t.total = (t.stats.values.map (·.count)).sum := by
  unfold total
  rw [List.sum_eq_foldl, List.foldl_map]

/-- An end of a call that is not pending does nothing. -/
theorem finish_of_get?_eq_none (now : Nat) (h : t.pending.get? id = none) :
    t.finish now id = t := by
  unfold finish
  rw [h]

theorem finish_of_get?_eq_some (now : Nat) {call : PendingCall}
    (h : t.pending.get? id = some call) :
    t.finish now id = { t with
      pending := t.pending.erase id
      stats := t.stats.insert call.name
        (((t.stats.get? call.name).getD .none).merge (.single (now - call.started))) } := by
  unfold finish
  rw [h]

/-- A call that ends is one more call of its method, and one more in all. -/
theorem total_insert_merge (stats : Dict String Stat) (name : String) (d : Nat) :
    let merged := ((stats.get? name).getD .none).merge (.single d)
    ((stats.insert name merged).values.map (·.count)).sum =
      (stats.values.map (·.count)).sum + 1 := by
  have hsum := Dict.sum_values_insert (·.count) stats name
    (((stats.get? name).getD .none).merge (.single d))
  rw [Stat.count_merge_single] at hsum
  cases hget : stats.get? name with
  | none =>
    simp only [hget, Option.elim_none, Option.getD_none, Stat.none] at hsum ⊢
    omega
  | some stat =>
    simp only [hget, Option.elim_some, Option.getD_some] at hsum ⊢
    omega

/-- What is known about a method whose calls took so long, if any have ended. -/
def statOf? (ds : List Nat) : Option Stat := if ds = [] then none else some (.ofDurations ds)

/-- Whether a tracker knows what there is to know about some calls. -/
structure Shows (t : Tracker) (es : List Entry) : Prop where
  nextId : t.nextId = es.length + 1
  numbered : es.map (·.id) = List.range' 1 es.length
  pending : t.pending.toList = unfinished es
  stats : ∀ name, t.stats.get? name = statOf? (durations name es)
  total : t.total = finished es

namespace Shows

theorem new (now : Nat) : Shows (new now) [] := ⟨rfl, rfl, rfl, fun _ => rfl, rfl⟩

/-- A pending call has a number that has been given. -/
theorem id_lt (h : t.Shows es) {e : Nat × PendingCall} (he : e ∈ t.pending.toList) :
    e.1 < t.nextId := by
  rw [h.pending] at he
  obtain ⟨entry, hentry, rfl⟩ := List.mem_map.1 he
  have hid : entry.id ∈ es.map (·.id) := List.mem_map_of_mem (List.mem_filter.1 hentry).1
  rw [h.numbered, List.mem_range'_1] at hid
  rw [h.nextId]
  omega

/-- No number is given twice. -/
theorem nodup_id (h : t.Shows es) : (es.map (·.id)).Nodup := by
  rw [h.numbered]
  exact List.nodup_range'

/-- Whoever is not pending has no open entry. -/
theorem not_mem_of_get?_eq_none (h : t.Shows es) (hnone : t.pending.get? id = none)
    (call : PendingCall) : (id, call) ∉ unfinished es := by
  intro hmem
  rw [← h.pending, ← Dict.get?_eq_some_iff, hnone] at hmem
  cases hmem

/-- One step: a call begins. -/
theorem begins (h : t.Shows es) (call : PendingCall) :
    Shows (t.step (.begins call)) (es ++ [⟨es.length + 1, call, none⟩]) where
  nextId := by simp [step, beginCall, begin, h.nextId]
  numbered := by simp [h.numbered, List.range'_concat, Nat.add_comm]
  pending := by
    have habove : ∀ e ∈ t.pending.toList, compare e.1 t.nextId = .lt := fun e he =>
      Nat.compare_eq_lt.2 (h.id_lt he)
    refine (Dict.place_of_above habove).trans ?_
    simp [unfinished, h.pending, h.nextId]
  stats name := by
    refine (h.stats name).trans ?_
    simp [durations, Entry.duration?]
  total := by
    refine h.total.trans ?_
    simp [finished]

/-- One step: a call ends, and is counted unless it had ended before. -/
theorem ends (h : t.Shows es) (now id : Nat) :
    Shows (t.step (.ends now id)) (es.map (Entry.close now id)) := by
  show (t.finish now id).Shows _
  cases hget : t.pending.get? id with
  | none =>
    rw [finish_of_get?_eq_none now hget, map_close_of_not_mem now (h.not_mem_of_get?_eq_none hget)]
    exact h
  | some call =>
    have hopen : (id, call) ∈ unfinished es := h.pending ▸ Dict.get?_eq_some_iff.1 hget
    obtain ⟨front, back, rfl, hne, hclose⟩ := exists_split h.nodup_id hopen
    rw [finish_of_get?_eq_some now hget, hclose now]
    refine ⟨?_, ?_, ?_, ?_, ?_⟩
    · simpa using h.nextId
    · simpa using h.numbered
    · have hkeep : ∀ es' : List Entry, (∀ e ∈ es', e ∈ front ++ back) →
          (unfinished es').filter (fun e => compare id e.1 != .eq) = unfinished es' := by
        intro es' hsub
        apply List.filter_eq_self.2
        intro e he
        obtain ⟨entry, hentry, rfl⟩ := List.mem_map.1 he
        have hne := hne entry (hsub entry (List.mem_filter.1 hentry).1)
        simpa using Ne.symm hne
      have hfront := hkeep front fun e he => List.mem_append_left _ he
      have hback := hkeep back fun e he => List.mem_append_right _ he
      simp only [Dict.erase, h.pending]
      simp only [unfinished, List.filter_append, List.filter_cons, List.map_append, List.map_cons,
        Option.isNone_none, Option.isNone_some, if_true] at hfront hback ⊢
      simp [hfront, hback]
    · intro name
      have hbefore := h.stats call.name
      simp only [Dict.get?_insert, Std.compare_eq_iff_eq]
      by_cases hname : call.name = name
      · subst hname
        have hperm : (durations call.name (front ++ ⟨id, call, some now⟩ :: back)).Perm
            ((now - call.started) :: durations call.name (front ++ ⟨id, call, none⟩ :: back)) := by
          simp only [durations, List.filterMap_append, List.filterMap_cons, Entry.duration?,
            if_true, Option.map_none, Option.map_some]
          exact List.perm_middle
        have hne : durations call.name (front ++ ⟨id, call, some now⟩ :: back) ≠ [] := by
          intro hnil
          rw [hnil] at hperm
          exact List.cons_ne_nil _ _ (List.perm_nil.1 hperm.symm)
        rw [if_pos rfl, statOf?, if_neg hne, Stat.ofDurations_eq_of_perm hperm,
          ← Stat.merge_single, hbefore]
        unfold statOf?
        split
        · rename_i hnil
          simp [hnil, Stat.ofDurations, Stat.none]
        · rfl
      · have hsame : durations name (front ++ ⟨id, call, some now⟩ :: back) =
            durations name (front ++ ⟨id, call, none⟩ :: back) := by
          simp [durations, Entry.duration?, hname]
        rw [if_neg (Ne.symm hname), h.stats name, hsame]
    · rw [total_eq_sum]
      refine (total_insert_merge _ _ _).trans ?_
      rw [← total_eq_sum, h.total]
      simp [finished]
      omega

end Shows

end

/-! ## A whole history -/

/-- **The tracker shows its history**, by induction on the events. -/
theorem shows_run (now : Nat) (events : List Event) :
    ((new now).run events).Shows (entries events) := by
  induction events using List.reverseRecOn with
  | nil => exact .new now
  | append_singleton events e ih =>
    unfold run at ih ⊢
    rw [List.foldl_append, List.foldl_cons, List.foldl_nil]
    cases e with
    | begins call =>
      have hentries : entries (events ++ [.begins call]) =
          entries events ++ [⟨(entries events).length + 1, call, none⟩] := by
        rw [length_entries, Nat.add_comm]
        exact entriesFrom_begins 1 events call
      rw [hentries]
      exact ih.begins call
    | ends later id =>
      have hentries : entries (events ++ [.ends later id]) =
          (entries events).map (Entry.close later id) := entriesFrom_ends 1 events later id
      rw [hentries]
      exact ih.ends later id

theorem nextId_finish (t : Tracker) (now id : Nat) : (t.finish now id).nextId = t.nextId := by
  unfold finish
  split <;> rfl

/-- The numbers that are given in a history follow one another. -/
theorem numbers_eq_range' (t : Tracker) (events : List Event) :
    t.numbers events = List.range' t.nextId (begun events).length := by
  induction events generalizing t with
  | nil => rfl
  | cons e events ih =>
    cases e with
    | begins call =>
      rw [numbers, ih, begun_begins, List.length_cons, List.range'_succ]
      rfl
    | ends now id =>
      rw [numbers, ih, begun_ends]
      show List.range' (t.finish now id).nextId _ = _
      rw [nextId_finish]

/-! ## The snapshot -/

section

variable (t : Tracker)

/-- The snapshot has every statistic once, in an order of its own. -/
theorem snapshot_perm : t.snapshot.Perm t.stats.toList := List.mergeSort_perm _ _

/-- Methods that have been called equally often stay in the order of their names. -/
theorem filter_snapshot (count : Nat) :
    (t.snapshot.filter fun e => e.2.count = count) =
      t.stats.toList.filter fun e => e.2.count = count := by
  let le := fun a b : String × Stat => decide (b.2.count ≤ a.2.count)
  have htrans : ∀ a b c, le a b → le b c → le a c := by
    intro a b c hab hbc
    simp only [le, decide_eq_true_eq] at hab hbc ⊢
    omega
  have htotal : ∀ a b, (le a b || le b a) = true := by
    intro a b
    simp only [le, Bool.or_eq_true, decide_eq_true_eq]
    omega
  have hequal : (t.stats.toList.filter fun e => e.2.count = count).Pairwise
      fun a b => le a b = true := by
    apply List.pairwise_of_forall_mem_list
    intro a ha b hb
    have ha := (List.mem_filter.1 ha).2
    have hb := (List.mem_filter.1 hb).2
    simp only [decide_eq_true_eq] at ha hb
    simp [le, ha, hb]
  have hsub := List.sublist_mergeSort htrans htotal hequal List.filter_sublist
  have hsub := hsub.filter fun e => decide (e.2.count = count)
  rw [List.filter_filter] at hsub
  simp only [Bool.and_self] at hsub
  exact (hsub.eq_of_length (t.snapshot_perm.filter _).length_eq.symm).symm

/-- Methods that have been called more often come first, and of those that have been called equally
often the one whose name comes first. -/
theorem pairwise_snapshot : t.snapshot.Pairwise fun a b =>
    b.2.count < a.2.count ∨ a.2.count = b.2.count ∧ compare a.1 b.1 = .lt := by
  rw [List.pairwise_iff_forall_sublist]
  intro a b hab
  have hle : b.2.count ≤ a.2.count := by
    have hsorted : t.snapshot.Pairwise fun a b => decide (b.2.count ≤ a.2.count) = true := by
      apply List.pairwise_mergeSort
      · simp only [decide_eq_true_eq]
        omega
      · simp only [Bool.or_eq_true, decide_eq_true_eq]
        omega
    simpa using List.pairwise_iff_forall_sublist.1 hsorted hab
  by_cases hcount : a.2.count = b.2.count
  · have hfilter := hab.filter fun e => decide (e.2.count = b.2.count)
    rw [filter_snapshot] at hfilter
    simp only [List.filter_cons, hcount, decide_true, if_true, List.filter_nil] at hfilter
    have hnames := t.stats.sorted.filter fun e => decide (e.2.count = b.2.count)
    exact .inr ⟨hcount, List.pairwise_iff_forall_sublist.1 hnames hfilter⟩
  · exact .inl (by omega)

end

/-- **What a tracker knows.** Behind any history of calls that begin and are told to end, a new
tracker has numbered the calls from one in the order in which they began; the calls that it shows as
pending are those that have not been told to end since they began, in that order; with those that
have ended they are all; for each method it has the number of its calls that have ended and their
shortest, longest and total duration; a call that is not pending can be told to end, and nothing
changes; and its snapshot has each method with a call that has ended once, by the number of such
calls and then by name. -/
theorem run_spec (now : Nat) (events : List Event) :
    let t := (new now).run events
    let es := entries events
    (new now).numbers events = List.range' 1 (begun events).length ∧
      es.map (·.id) = List.range' 1 (begun events).length ∧ es.map (·.call) = begun events ∧
      t.pending.toList = unfinished es ∧
      t.pendingCount + t.total = (begun events).length ∧
      (∀ name, t.stats.get? name = statOf? (durations name es)) ∧
      (∀ later id, (∀ call, (id, call) ∉ unfinished es) → t.finish later id = t) ∧
      (∀ name stat, (name, stat) ∈ t.snapshot ↔ statOf? (durations name es) = some stat) ∧
      (t.snapshot.map Prod.fst).Nodup ∧
      t.snapshot.Pairwise fun a b =>
        b.2.count < a.2.count ∨ a.2.count = b.2.count ∧ compare a.1 b.1 = .lt := by
  intro t es
  have hshows : t.Shows es := shows_run now events
  refine ⟨numbers_eq_range' _ events, map_id_entriesFrom 1 events, map_call_entriesFrom 1 events,
    hshows.pending, ?_, hshows.stats, ?_, ?_, ?_, t.pairwise_snapshot⟩
  · have hsize : t.pendingCount = (unfinished es).length := congrArg List.length hshows.pending
    rw [hsize, hshows.total, length_unfinished_add_finished, length_entries]
  · intro later id hnone
    apply finish_of_get?_eq_none
    rw [Option.eq_none_iff_forall_ne_some]
    intro call hcall
    rw [Dict.get?_eq_some_iff, hshows.pending] at hcall
    exact hnone call hcall
  · intro name stat
    rw [t.snapshot_perm.mem_iff, ← Dict.get?_eq_some_iff, hshows.stats]
  · rw [(t.snapshot_perm.map Prod.fst).nodup_iff]
    exact t.stats.nodup_keys

/-- A call is told to end before it begins, another one ends and is told so again. Of the three
calls one is pending, and the second can be told to end as often as one likes. -/
theorem run_spec_late :
    let first : PendingCall := ⟨"ADD", .binary, 20, "a"⟩
    let second : PendingCall := ⟨"SUB", .json, 30, "b"⟩
    let third : PendingCall := ⟨"ADD", .json, 90, "c"⟩
    let events : List Event :=
      [.ends 10 1, .begins first, .begins second, .ends 70 2, .ends 80 2, .begins third, .ends 95 3]
    let t := (new 0).run events
    t.pending.toList = [(1, first)] ∧ t.pendingCount + t.total = 3 ∧
      t.finish 99 2 = t ∧ ("SUB", ⟨1, 40, 40, 40⟩) ∈ t.snapshot := by
  intro first second third events t
  obtain ⟨-, -, -, hpending, hcount, -, hfinish, hsnapshot, -, -⟩ := run_spec 0 events
  have hopen : unfinished (entries events) = [(1, first)] := rfl
  have hnone : ∀ call, (2, call) ∉ unfinished (entries events) := by
    intro call
    rw [hopen]
    simp
  exact ⟨hpending.trans hopen, hcount, hfinish 99 2 hnone, (hsnapshot _ _).2 rfl⟩

end Tracker

end Switchboard
