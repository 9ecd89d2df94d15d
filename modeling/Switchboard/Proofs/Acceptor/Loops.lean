import Switchboard.Proofs.Dict
import Switchboard.Server.Acceptor

/-!
# Loops and their table

The loop of a connection takes one of ten steps (`Stand.Goes`), and in two of its stands a request of
it is pending (`Stand.isBusy`). The open connections and their loops are two tables that are changed
together, and the pending requests are counted beside them. `Tables` says that the three agree. They
do as long as a connection opens under the next number, a loop goes on with its requests counted, and
a connection ends between two requests.
-/

namespace Switchboard

namespace Server

/-! ## Loops -/

namespace Stand

/-- Whether a request of the loop is pending. -/
def isBusy : Stand → Bool
  | .answering | .writing _ _ => true
  | _ => false

variable {stopping : Bool} {stand next : Stand} {turn : Turn}

/-- The turns of a loop. -/
inductive Goes (stopping : Bool) : Stand → Turn → Stand → Prop
  | looks (h : stopping = false) : Goes stopping .looking .looks .waiting
  | ends (h : stopping = true) : Goes stopping .looking .looks .leaving
  | wakes (h : stopping = true) : Goes stopping .waiting .wakes .looking
  | hears : Goes stopping .waiting .hears .answering
  | hangsUp : Goes stopping .waiting .hangsUp .leaving
  | isSilent (last : Bool) : Goes stopping .answering (.replies [] last) (.behind last)
  | replies {reply : Bytes} (h : reply ≠ []) (last : Bool) :
    Goes stopping .answering (.replies reply last) (.writing reply last)
  | fails : Goes stopping .answering .fails .failing
  | sends (reply : Bytes) (last : Bool) : Goes stopping (.writing reply last) .sends (.behind last)
  | losesReply (reply : Bytes) (last : Bool) :
    Goes stopping (.writing reply last) .losesReply .leaving

/-- The turns that a loop can take are those of `Goes`. -/
theorem goes_of_next? (h : stand.next? stopping turn = some next) :
    Goes stopping stand turn next := by
  unfold next? at h
  -- one case for each row of `next?`, in its order
  split at h
  · cases stopping with
    | true =>
      cases h
      exact .ends rfl
    | false =>
      cases h
      exact .looks rfl
  · split at h
    · rename_i hstop
      cases h
      exact .wakes hstop
    · cases h
  · cases h
    exact .hears
  · cases h
    exact .hangsUp
  · -- only a reply that is not empty has to be sent
    rename_i reply last
    cases reply with
    | nil =>
      cases h
      exact .isSilent last
    | cons b bs =>
      cases h
      exact .replies (List.cons_ne_nil b bs) last
  · cases h
    exact .fails
  · cases h
    exact .sends _ _
  · cases h
    exact .losesReply _ _
  · cases h

@[simp] theorem isBusy_behind (last : Bool) : (behind last).isBusy = false := by
  cases last <;> rfl

/-- Only a loop that is busy settles a request. -/
theorem Goes.isBusy_of_settles (h : Goes stopping stand turn next) (hsettles : turn.settles = true) :
    stand.isBusy = true := by
  cases h with
  | isSilent => rfl
  | replies => rfl
  | fails => rfl
  | sends => rfl
  | losesReply => rfl
  | _ => cases hsettles

/-- Before a loop has begun it takes no turn. -/
theorem Goes.ne_queued (h : Goes stopping stand turn next) : stand ≠ .queued := by
  cases h <;> nofun

end Stand

end Server

/-! ## The table of the connections -/

namespace Connections

/-- A request is counted without a change of who is connected. -/
theorem recordRequest_eq (c : Connections) (id : Nat) :
    (c.recordRequest id).nextId = c.nextId ∧ (c.recordRequest id).active.keys = c.active.keys := by
  unfold recordRequest
  cases hget : c.active.get? id with
  | none => exact ⟨rfl, rfl⟩
  | some info => exact ⟨rfl, Dict.keys_insert_of_mem (Dict.mem_keys_iff.2 ⟨info, hget⟩) _⟩

/-- Connections that end give their numbers to nobody. -/
theorem foldl_remove (c : Connections) (ids : List Nat) :
    ids.foldl remove c = ⟨c.nextId, ids.foldl Dict.erase c.active⟩ := by
  induction ids generalizing c with
  | nil => rfl
  | cons id ids ih => rw [List.foldl_cons, ih]; rfl

end Connections

namespace Server

/-- Whether every open connection has a loop, whether no number was given twice, and whether the
pending requests are those of the loops that are busy. -/
structure Tables (connections : Connections) (loops : Dict Nat Stand) (pending : Nat) : Prop where
  keys : loops.keys = connections.active.keys
  below : ∀ id ∈ loops.keys, id < connections.nextId
  pending : pending = loops.values.countP Stand.isBusy

namespace Tables

variable {connections connections' : Connections} {loops : Dict Nat Stand} {pending pending' : Nat}
  {id : Nat} {stand next : Stand}

/-- The number for the next connection is nobody's yet. -/
theorem get?_nextId (h : Tables connections loops pending) :
    loops.get? connections.nextId = none := by
  rw [← Dict.not_mem_keys_iff]
  intro hid
  exact Nat.lt_irrefl _ (h.below _ hid)

/-- A connection that opens comes behind all others. -/
theorem keys_opens (h : Tables connections loops pending) :
    (loops.insert connections.nextId .queued).keys = loops.keys ++ [connections.nextId] :=
  Dict.keys_insert_of_above (fun id hid => Nat.compare_eq_lt.2 (h.below id hid)) _

/-- A connection opens, with its loop in the queue. -/
theorem opens (h : Tables connections loops pending) (now : Nat) (peer : Address) :
    Tables (connections.register now peer).2 (loops.insert connections.nextId .queued) pending := by
  -- the number is above all others in both tables, so both get it at their end
  refine ⟨?_, fun id hid => ?_, ?_⟩
  · rw [h.keys_opens, h.keys]
    refine (Dict.keys_insert_of_above (fun id hid => ?_) _).symm
    exact Nat.compare_eq_lt.2 (h.below id (h.keys ▸ hid))
  · rw [h.keys_opens] at hid
    show id < connections.nextId + 1
    rcases List.mem_append.1 hid with hid | hid
    · exact Nat.lt_succ_of_lt (h.below id hid)
    · rw [List.mem_singleton.1 hid]
      exact Nat.lt_succ_self _
  · have hcount := Dict.countP_values_insert Stand.isBusy loops connections.nextId .queued
    rw [h.get?_nextId] at hcount
    exact h.pending.trans hcount.symm

/-- A loop goes on, and the requests are counted as it does. -/
theorem moves (h : Tables connections loops pending) (hstand : loops.get? id = some stand)
    (hnext : connections'.nextId = connections.nextId)
    (hkeys : connections'.active.keys = connections.active.keys)
    (hpending : pending' + stand.isBusy.toNat = pending + next.isBusy.toNat) :
    Tables connections' (loops.insert id next) pending' := by
  have hsame : (loops.insert id next).keys = loops.keys :=
    Dict.keys_insert_of_mem (Dict.mem_keys_iff.2 ⟨stand, hstand⟩) _
  refine ⟨?_, fun id hid => ?_, ?_⟩
  · rw [hsame, hkeys, h.keys]
  · rw [hnext]
    exact h.below id (hsame ▸ hid)
  · -- the count loses what the loop was busy with and gains what it is busy with now
    have hcount := Dict.countP_values_insert Stand.isBusy loops id next
    rw [hstand, Option.elim_some] at hcount
    have hold := h.pending
    omega

/-- Connections end between two requests. -/
theorem ends (h : Tables connections loops pending) (ids : List Nat)
    (hids : ∀ id ∈ ids, ∀ stand, loops.get? id = some stand → stand.isBusy = false) :
    Tables (ids.foldl Connections.remove connections) (ids.foldl Dict.erase loops) pending := by
  -- they end one after another, and the tables agree behind each of them
  induction ids generalizing connections loops with
  | nil => exact h
  | cons id ids ih =>
    rw [List.foldl_cons, List.foldl_cons]
    refine ih ⟨?_, fun other hother => ?_, ?_⟩ fun other hother stand hstand => ?_
    · show (loops.erase id).keys = (connections.active.erase id).keys
      rw [Dict.keys_erase, Dict.keys_erase, h.keys]
    · rw [Dict.keys_erase] at hother
      exact h.below other (List.mem_filter.1 hother).1
    · have hcount := Dict.countP_values_erase Stand.isBusy loops id
      have hidle : (loops.get? id).elim 0 (fun stand => stand.isBusy.toNat) = 0 := by
        cases hstand : loops.get? id with
        | none => rfl
        | some stand =>
          rw [Option.elim_some, hids id (List.mem_cons_self ..) stand hstand]
          rfl
      rw [hidle, Nat.add_zero] at hcount
      exact h.pending.trans hcount.symm
    · rw [Dict.get?_erase] at hstand
      split at hstand
      · cases hstand
      · exact hids other (List.mem_cons_of_mem id hother) stand hstand

end Tables

end Server

end Switchboard
