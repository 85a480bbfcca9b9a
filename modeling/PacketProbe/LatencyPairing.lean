import Mathlib.Algebra.Ring.Int.Defs
import PacketProbe.FifoPairing
import PacketProbe.LatencyTracking

/-!
# Which response is measured for which request

The tracker is the queue of first-in first-out pairing: over any events its measurements are
those of the pairs.
-/

namespace PacketProbe
open FifoPairing

namespace LatencyTracker

/-- `pending_count()`. -/
def pendingCount (tracker : LatencyTracker) : ℕ := tracker.pending.length

/-- A tracker that is shown events one after the other, with what each call returns. -/
def observeAll (tracker : LatencyTracker) :
    List PacketEvent → LatencyTracker × List (Option LatencyMeasurement)
  | [] => (tracker, [])
  | event :: events =>
    let observed := tracker.observe event
    let others := observed.1.observeAll events
    (others.1, observed.2 :: others.2)

/-- What an event is for the tracker. -/
def role (event : PacketEvent) : Role :=
  if event.type = .rawBytes ∧ event.direction = .appToDevice then .request
  else if event.type = .rawBytes ∧ event.direction = .deviceToApp then .response
  else .other

/-- The measurement of a request and its response. -/
def measurement (p : Pair PacketEvent) : LatencyMeasurement where
  requestSequence := p.1.1.sequence
  responseSequence := p.2.1.sequence
  latencyNs := p.2.1.timestampNs - p.1.1.timestampNs
  requestSize := p.1.1.payload.length
  responseSize := p.2.1.payload.length

/-- The time between the two events of a pair, as a number without bounds. -/
def elapsed (p : Pair PacketEvent) : ℤ := p.2.1.timestampNs.toInt - p.1.1.timestampNs.toInt

/-- The measurement of the pair whose response stands at this place. -/
def measurementAt (pairs : List (Pair PacketEvent)) (place : ℕ) : Option LatencyMeasurement :=
  (pairs.find? fun p => p.2.2 = place).map measurement

def pendingRequest (o : Occurrence PacketEvent) : PendingRequest :=
  ⟨o.1.sequence, o.1.timestampNs, o.1.payload.length⟩

variable {tracker : LatencyTracker} {event : PacketEvent} {events : List PacketEvent}
  {q : Queue PacketEvent} {place : ℕ}

theorem observeAll_snoc (tracker : LatencyTracker) (events : List PacketEvent)
    (event : PacketEvent) :
    tracker.observeAll (events ++ [event]) =
      (((tracker.observeAll events).1.observe event).1,
        (tracker.observeAll events).2 ++ [((tracker.observeAll events).1.observe event).2]) := by
  induction events generalizing tracker with
  | nil => rfl
  | cons first events ih =>
    rw [List.cons_append, observeAll, ih]
    rfl

/-- An event that is neither a request nor a response changes nothing. -/
theorem observe_other (h : role event = .other) : tracker.observe event = (tracker, none) := by
  unfold role at h
  unfold observe
  split_ifs at h with hrequest hresponse
  by_cases htype : event.type = .rawBytes
  · have happ : ¬ event.direction = .appToDevice := fun hdirection => hrequest ⟨htype, hdirection⟩
    rw [if_neg (not_not.2 htype), if_neg happ]
    split
    · rename_i hdirection _
      exact absurd ⟨htype, hdirection⟩ hresponse
    · rfl
  · rw [if_pos htype]

/-- One call is one step of the queue. -/
theorem observe_eq (hpending : tracker.pending = q.waiting.map pendingRequest) (event : PacketEvent)
    (place : ℕ) :
    (tracker.observe event).1.pending = (q.step role (event, place)).waiting.map pendingRequest ∧
      (tracker.observe event).2 = (q.answer role (event, place)).map measurement := by
  cases hrole : role event with
  | other =>
    rw [observe_other hrole]
    simp only [Queue.step, Queue.answer, hrole, Option.map_none, and_true]
    exact hpending
  | request =>
    have hraw : event.type = .rawBytes ∧ event.direction = .appToDevice := by
      unfold role at hrole
      split_ifs at hrole with hrequest
      exact hrequest
    simp only [observe, Queue.step, Queue.answer, hrole, hraw.1, hraw.2, hpending, ne_eq,
      not_true_eq_false, if_false, if_true, List.map_append, Option.map_none, and_true]
    rfl
  | response =>
    have hraw : event.type = .rawBytes ∧ event.direction = .deviceToApp := by
      unfold role at hrole
      split_ifs at hrole with hrequest hresponse
      exact hresponse
    have happ : ¬ event.direction = .appToDevice := by
      rw [hraw.2]
      exact Direction.noConfusion
    cases hwaiting : q.waiting with
    | nil =>
      rw [hwaiting, List.map_nil] at hpending
      simp only [observe, Queue.step, Queue.answer, hrole, hraw.1, hraw.2, hpending, hwaiting,
        ne_eq, not_true_eq_false, if_false, reduceCtorEq, List.tail_nil, List.map_nil,
        Option.map_none, and_self]
    | cons first waiting =>
      rw [hwaiting, List.map_cons] at hpending
      simp only [observe, Queue.step, Queue.answer, hrole, hraw.1, hraw.2, hpending, hwaiting,
        ne_eq, not_true_eq_false, if_false, reduceCtorEq, List.tail_cons, Option.map_some, true_and]
      rfl

/-- A pair that is completed at this place is the only one there. -/
theorem measurementAt_append {pairs : List (Pair PacketEvent)} (hpairs : ∀ p ∈ pairs, p.2.2 < place)
    (answer : Option (Pair PacketEvent)) (hanswer : ∀ p ∈ answer, p.2.2 = place) (other : ℕ) :
    measurementAt (pairs ++ answer.toList) other =
      if other = place then answer.map measurement else measurementAt pairs other := by
  unfold measurementAt
  rw [List.find?_append]
  split
  · rename_i hother
    subst hother
    have hnone : pairs.find? (fun p => p.2.2 = other) = none := by
      rw [List.find?_eq_none]
      intro p hp heq
      exact absurd (hpairs p hp) (by rw [of_decide_eq_true heq]; exact Nat.lt_irrefl _)
    rw [hnone, Option.none_or]
    cases answer with
    | none => rfl
    | some p =>
      have hfound : [p].find? (fun p => p.2.2 = other) = some p :=
        List.find?_cons_of_pos (decide_eq_true (hanswer p rfl))
      rw [Option.toList_some, hfound]
  · rename_i hother
    have hnone : answer.toList.find? (fun p => p.2.2 = other) = none := by
      rw [List.find?_eq_none]
      intro p hp heq
      rw [hanswer p (Option.mem_toList.1 hp)] at heq
      exact hother (of_decide_eq_true heq).symm
    rw [hnone, Option.or_none]

/-- The tracker behind the events, and what its calls returned. -/
structure Simulates (events : List PacketEvent) (q : Queue PacketEvent)
    (observed : LatencyTracker × List (Option LatencyMeasurement)) : Prop where
  pending : observed.1.pending = q.waiting.map pendingRequest
  outcomes : observed.2 = (List.range events.length).map (measurementAt q.pairs)
  measurements : observed.2.filterMap id = q.pairs.map measurement

theorem simulates_run (events : List PacketEvent) :
    Simulates events (Queue.run role events) (observeAll {} events) := by
  induction events using List.reverseRecOn with
  | nil => exact ⟨rfl, rfl, rfl⟩
  | append_singleton events event ih =>
    have hholds := holds_run role events
    have hanswer : ∀ p ∈ (Queue.run role events).answer role (event, events.length),
        p.2.2 = events.length := by
      intro p hp
      unfold Queue.answer at hp
      split at hp
      · cases hp
        rfl
      · cases hp
    obtain ⟨hpending, hmeasurement⟩ := observe_eq ih.pending event events.length
    rw [run_snoc, observeAll_snoc]
    refine ⟨hpending, ?_, ?_⟩
    · change (observeAll {} events).2 ++ _ = _
      have hnew := measurementAt_append (fun p hp => hholds.response_lt hp) _ hanswer
      rw [List.length_append, List.length_singleton, List.range_succ, List.map_append,
        List.map_singleton, ih.outcomes, hmeasurement]
      congr 1
      · apply List.map_congr_left
        intro other hother
        exact ((hnew other).trans (if_neg (Nat.ne_of_lt (List.mem_range.1 hother)))).symm
      · exact congrArg (fun outcome => [outcome]) ((hnew events.length).trans (if_pos rfl)).symm
    · change ((observeAll {} events).2 ++ _).filterMap id =
        ((Queue.run role events).pairs ++ _).map measurement
      rw [List.filterMap_append, ih.measurements, hmeasurement, List.map_append]
      congr 1
      cases (Queue.run role events).answer role (event, events.length) with
      | none => rfl
      | some p => rfl

theorem latencyNs_eq_elapsed_iff (p : Pair PacketEvent) :
    (measurement p).latencyNs.toInt = elapsed p ↔ -2 ^ 63 ≤ elapsed p ∧ elapsed p < 2 ^ 63 := by
  have hbmod : (measurement p).latencyNs.toInt = (elapsed p).bmod (2 ^ 64) := Int64.toInt_sub _ _
  constructor
  · intro heq
    rw [← heq]
    exact ⟨Int64.le_toInt _, Int64.toInt_lt _⟩
  · rintro ⟨hlow, hhigh⟩
    rw [hbmod]
    exact Int.bmod_eq_of_le (by omega) (by omega)

/-- The tracker pairs requests with responses in first-in first-out order: the measurements are
those of the pairs, in their order, each returned by the call for the response of its pair,
and every other call returns nothing. A latency is the difference of the two times in
`std::int64_t`, which is the time elapsed unless this leaves the range of the type. -/
theorem fifo_pairing (events : List PacketEvent) :
    ∃ pairs, IsPairing role events pairs ∧
      (observeAll {} events).2.filterMap id = pairs.map measurement ∧
      (observeAll {} events).2 = (List.range events.length).map (measurementAt pairs) ∧
      (∀ p ∈ pairs, (measurement p).latencyNs.toInt = elapsed p ↔
        -2 ^ 63 ≤ elapsed p ∧ elapsed p < 2 ^ 63) ∧
      (observeAll {} events).1.pendingCount + pairs.length =
        (occurrences role .request events).length ∧
      ∀ (tracker : LatencyTracker) (event : PacketEvent), role event = .other →
        tracker.observe event = (tracker, none) := by
  have hholds := holds_run role events
  have hsimulates := simulates_run events
  refine ⟨_, hholds.isPairing, hsimulates.measurements, hsimulates.outcomes,
    fun p _ => latencyNs_eq_elapsed_iff p, ?_,
    fun tracker event hrole => observe_other hrole⟩
  rw [pendingCount, hsimulates.pending, ← hholds.split, List.length_append, List.length_map,
    List.length_map, Nat.add_comm]

end LatencyTracker

end PacketProbe
