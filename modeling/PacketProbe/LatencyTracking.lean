import PacketProbe.CaptureSessions
import PacketProbe.PacketEvents
import PacketProbe.TransitionRuns
import Mathlib.Logic.Function.Basic

/-!
# Latency tracking in the TCP proxy

Two threads forward bytes. Each numbers and stamps the event of a chunk, delivers it, and
shows it to the tracker, which pairs responses with requests in the order in which it is
shown them.
-/

namespace PacketProbe
open TransitionRuns

structure PendingRequest where
  sequence : UInt64
  timestampNs : Int64
  size : ℕ
  deriving DecidableEq

structure LatencyMeasurement where
  requestSequence : UInt64
  responseSequence : UInt64
  latencyNs : Int64
  requestSize : ℕ
  responseSize : ℕ
  deriving DecidableEq

structure LatencyTracker where
  pending : List PendingRequest := []
  deriving DecidableEq

/-- A difference of times that leaves the range of `std::int64_t`, which the language leaves
undefined, wraps around here. -/
def LatencyTracker.observe (tracker : LatencyTracker) (event : PacketEvent) :
    LatencyTracker × Option LatencyMeasurement :=
  if event.type ≠ .rawBytes then (tracker, none)
  else if event.direction = .appToDevice then
    (⟨tracker.pending ++ [⟨event.sequence, event.timestampNs, event.payload.length⟩]⟩, none)
  else
    match event.direction, tracker.pending with
    | .deviceToApp, request :: pending =>
      (⟨pending⟩, some {
        requestSequence := request.sequence
        responseSequence := event.sequence
        latencyNs := event.timestampNs - request.timestampNs
        requestSize := request.size
        responseSize := event.payload.length })
    | _, _ => (tracker, none)

/-- The two forwarding threads. -/
inductive Forwarder where
  | appToDevice | deviceToApp
  deriving DecidableEq, Repr

def Forwarder.direction : Forwarder → Direction
  | .appToDevice => .appToDevice
  | .deviceToApp => .deviceToApp

/-- How far a thread is with the event of its current chunk. -/
inductive ForwardPhase where
  | reading
  | made (event : PacketEvent)
  | delivered (event : PacketEvent)
  deriving DecidableEq

/-- The event a thread has made and not shown to the tracker yet. -/
def ForwardPhase.held : ForwardPhase → Option PacketEvent
  | .reading => none
  | .made event | .delivered event => some event

/-- A connected proxy. The last field counts the numbers the allocator gave out. -/
structure TcpProxyForwarding where
  config : TcpProxyConfig
  appEndpoint : ByteString
  deviceEndpoint : ByteString
  allocator : SequenceAllocator := {}
  clock : Int64 := 0
  tracker : LatencyTracker := {}
  phases : Forwarder → ForwardPhase := fun _ => .reading
  log : List PacketEvent := []
  taken : ℕ := 0

/-- The atomic steps of a thread: `make_event` at some time, the delivery, behind which
the pipeline takes numbers for the events it derives, and `observe_latency`. -/
inductive ForwardAction where
  | makeEvent (thread : Forwarder) (payload : Bytes) (time : Int64)
  | deliver (thread : Forwarder) (derived : ℕ)
  | observe (thread : Forwarder)
  deriving DecidableEq

def directionSummary (direction : Direction) (size : ℕ) : ByteString :=
  (if direction = .appToDevice then ascii "APP -> DEVICE " else ascii "DEVICE -> APP ") ++
    decimal size ++ ascii " bytes"

namespace TcpProxyForwarding

def sourceEndpoint (s : TcpProxyForwarding) : Forwarder → ByteString
  | .appToDevice => s.appEndpoint
  | .deviceToApp => s.deviceEndpoint

def destinationEndpoint (s : TcpProxyForwarding) : Forwarder → ByteString
  | .appToDevice => s.deviceEndpoint
  | .deviceToApp => s.appEndpoint

def setPhase (thread : Forwarder) (phase : ForwardPhase) (s : TcpProxyForwarding) :
    TcpProxyForwarding :=
  { s with phases := Function.update s.phases thread phase }

/-- The raw event of a chunk. -/
def rawEvent (s : TcpProxyForwarding) (thread : Forwarder) (payload : Bytes) (time : Int64) :
    PacketEvent :=
  makeEvent s.config.sessionId (ascii "tcp") ⟨s.allocator.next.1, time⟩ thread.direction .rawBytes
    payload (s.sourceEndpoint thread) (s.destinationEndpoint thread)
    (directionSummary thread.direction payload.length)

def makeLatencyEvent (s : TcpProxyForwarding) (response : PacketEvent) (m : LatencyMeasurement) :
    PacketEvent :=
  { sequence := s.allocator.next.1
    timestampNs := response.timestampNs
    sessionId := s.config.sessionId
    transport := ascii "tcp"
    direction := .deviceToApp
    type := .latency
    sourceEndpoint := response.sourceEndpoint
    destinationEndpoint := response.destinationEndpoint
    requestSequence := m.requestSequence
    responseSequence := response.sequence
    latencyNs := m.latencyNs
    requestSize := m.requestSize
    responseSize := m.responseSize
    summary :=
      ascii "response latency " ++ signedDecimal (m.latencyNs / 1000).toInt ++ ascii " us" }

/-- `observe_latency`, with the event it emits. -/
def observeLatency (event : PacketEvent) (s : TcpProxyForwarding) : TcpProxyForwarding :=
  if s.config.latencyEnabled = false then s
  else
    match s.tracker.observe event with
    | (tracker, none) => { s with tracker }
    | (tracker, some m) =>
      { s with
        tracker
        allocator := s.allocator.next.2
        taken := s.taken + 1
        log := s.log ++ [s.makeLatencyEvent event m] }

/-- One step of a thread, if it is the thread's next one. The clock never goes back. -/
def perform (s : TcpProxyForwarding) : ForwardAction → Option TcpProxyForwarding
  | .makeEvent thread payload time =>
    if s.phases thread = .reading ∧ s.clock ≤ time then
      some { s.setPhase thread (.made (s.rawEvent thread payload time)) with
        allocator := s.allocator.next.2
        taken := s.taken + 1
        clock := time }
    else none
  | .deliver thread derived =>
    match s.phases thread with
    | .made event =>
      some { s.setPhase thread (.delivered event) with
        allocator := s.allocator.skip derived
        taken := s.taken + derived
        log := s.log ++ [event] }
    | _ => none
  | .observe thread =>
    match s.phases thread with
    | .delivered event => some ((s.setPhase thread .reading).observeLatency event)
    | _ => none

def Step (s : TcpProxyForwarding) (a : ForwardAction) (t : TcpProxyForwarding) : Prop :=
  s.perform a = some t

/-- Both threads read, and nothing has been observed; the clock counts from the epoch on. -/
structure Connected (s : TcpProxyForwarding) : Prop where
  latency : s.config.latencyEnabled = true
  reading : ∀ thread, s.phases thread = .reading
  tracker : s.tracker = {}
  log : s.log = []
  taken : s.allocator.HasTaken s.taken
  clock : 0 ≤ s.clock

/-- A Latency event that goes forward in numbers and in time. -/
def Causal (e : PacketEvent) : Prop :=
  e.type = .latency → e.requestSequence < e.responseSequence ∧ 0 ≤ e.latencyNs

instance (e : PacketEvent) : Decidable (Causal e) := inferInstanceAs (Decidable (_ → _))

/-- A request is not observed first in line while the other thread still holds an event
that was made before it. -/
def NoOlderResponse (s : TcpProxyForwarding) (a : ForwardAction) : Prop :=
  a = .observe .appToDevice → s.tracker.pending = [] →
    ∀ request ∈ (s.phases .appToDevice).held, ∀ response ∈ (s.phases .deviceToApp).held,
      request.sequence < response.sequence

instance (s : TcpProxyForwarding) (a : ForwardAction) : Decidable (s.NoOlderResponse a) :=
  inferInstanceAs (Decidable (_ → _))

variable {s t : TcpProxyForwarding} {a : ForwardAction} {thread : Forwarder} {e : PacketEvent}

@[simp] theorem phases_setPhase (thread other : Forwarder) (phase : ForwardPhase)
    (s : TcpProxyForwarding) : (s.setPhase thread phase).phases other =
      if other = thread then phase else s.phases other := by
  simp [setPhase, Function.update_apply]

/-- Observing a request queues it. -/
theorem observeLatency_request (hlatency : s.config.latencyEnabled = true)
    (htype : e.type = .rawBytes) (hdirection : e.direction = .appToDevice) :
    s.observeLatency e =
      { s with
        tracker := ⟨s.tracker.pending ++ [⟨e.sequence, e.timestampNs, e.payload.length⟩]⟩ } := by
  simp [observeLatency, LatencyTracker.observe, hlatency, htype, hdirection]

/-- Observing a response with no request pending does nothing. -/
theorem observeLatency_unpaired (hlatency : s.config.latencyEnabled = true)
    (htype : e.type = .rawBytes) (hdirection : e.direction = .deviceToApp)
    (hpending : s.tracker.pending = []) : s.observeLatency e = s := by
  simp [observeLatency, LatencyTracker.observe, hlatency, htype, hdirection, hpending]

/-- Observing a response takes the first request off the queue. -/
theorem observeLatency_paired {request : PendingRequest} {pending : List PendingRequest}
    (hlatency : s.config.latencyEnabled = true) (htype : e.type = .rawBytes)
    (hdirection : e.direction = .deviceToApp) (hpending : s.tracker.pending = request :: pending) :
    s.observeLatency e =
      { s with
        tracker := ⟨pending⟩
        allocator := s.allocator.next.2
        taken := s.taken + 1
        log := s.log ++ [s.makeLatencyEvent e ⟨request.sequence, e.sequence,
          e.timestampNs - request.timestampNs, request.size, e.payload.length⟩] } := by
  simp [observeLatency, LatencyTracker.observe, hlatency, htype, hdirection, hpending]

theorem taken_le_of_step (h : Step s a t) : s.taken ≤ t.taken := by
  unfold Step perform at h
  cases a with
  | makeEvent thread payload time =>
    simp only at h
    split at h
    · cases h
      exact Nat.le_succ _
    · cases h
  | deliver thread derived =>
    simp only at h
    split at h
    · cases h
      exact Nat.le_add_right _ _
    · cases h
  | observe thread =>
    simp only at h
    split at h
    · cases h
      unfold observeLatency
      split
      · exact le_rfl
      · split
        · exact le_rfl
        · exact Nat.le_succ _
    · cases h

/-- A time that the clock has shown. -/
def ShownBy (clock time : Int64) : Prop := 0 ≤ time ∧ time ≤ clock

theorem ShownBy.mono {clock clock' time : Int64} (h : ShownBy clock time)
    (hclock : clock ≤ clock') :
    ShownBy clock' time := ⟨h.1, Int64.le_trans h.2 hclock⟩

/-- Two times that a clock has shown are less than `2 ^ 63` apart. -/
theorem ShownBy.sub_nonneg {clock request response : Int64} (h : ShownBy clock request)
    (hle : request ≤ response) : 0 ≤ response - request := by
  have hsub := Int64.toInt_sub_of_le response request h.1 hle
  rw [Int64.le_iff_toInt_le] at hle ⊢
  rw [hsub, Int64.toInt_zero]
  exact Int.sub_nonneg_of_le hle

/-- What holds as long as no request overtakes an older response, and the numbers have
not wrapped around. -/
structure Ordered (s : TcpProxyForwarding) : Prop where
  latency : s.config.latencyEnabled = true
  taken : s.allocator.HasTaken s.taken
  clock : 0 ≤ s.clock
  held : ∀ thread, ∀ e ∈ (s.phases thread).held, e.type = .rawBytes ∧
    e.direction = thread.direction ∧ e.sequence.toNat ≤ s.taken ∧ ShownBy s.clock e.timestampNs
  times : ∀ request ∈ (s.phases .appToDevice).held, ∀ response ∈ (s.phases .deviceToApp).held,
    request.sequence < response.sequence → request.timestampNs ≤ response.timestampNs
  pending : ∀ request ∈ s.tracker.pending,
    request.sequence.toNat ≤ s.taken ∧ ShownBy s.clock request.timestampNs
  first : ∀ request ∈ s.tracker.pending.head?, ∀ response ∈ (s.phases .deviceToApp).held,
    request.sequence < response.sequence ∧ request.timestampNs ≤ response.timestampNs
  log : ∀ e ∈ s.log, Causal e

theorem Connected.ordered (h : s.Connected) : s.Ordered := by
  refine ⟨h.latency, h.taken, h.clock, ?_, ?_, ?_, ?_, ?_⟩
  · intro thread e he
    rw [h.reading] at he
    cases he
  · intro request hrequest
    rw [h.reading] at hrequest
    cases hrequest
  · simp [h.tracker]
  · simp [h.tracker]
  · simp [h.log]

theorem Ordered.makeEvent (h : s.Ordered) {payload : Bytes} {time : Int64}
    (hbound : s.taken + 1 < UInt64.size) (hclock : s.clock ≤ time) :
    Ordered { s.setPhase thread (.made (s.rawEvent thread payload time)) with
      allocator := s.allocator.next.2
      taken := s.taken + 1
      clock := time } := by
  have hnumber : (s.rawEvent thread payload time).sequence.toNat = s.taken + 1 :=
    h.taken.toNat_next hbound
  have hnow : 0 ≤ time := Int64.le_trans h.clock hclock
  refine ⟨h.latency, h.taken.next, hnow, ?_, ?_, ?_, ?_, h.log⟩
  · intro other e he
    simp only [phases_setPhase] at he
    split at he
    · rename_i hother
      simp only [ForwardPhase.held, Option.mem_def, Option.some.injEq] at he
      subst he hother
      exact ⟨rfl, rfl, hnumber.le, hnow, Int64.le_refl _⟩
    · obtain ⟨htype, hdirection, hsequence, htime⟩ := h.held other e he
      exact ⟨htype, hdirection, Nat.le_succ_of_le hsequence, htime.mono hclock⟩
  · intro request hrequest response hresponse hlt
    rw [UInt64.lt_iff_toNat_lt] at hlt
    cases thread with
    | appToDevice =>
      -- The new request is younger than anything the other thread holds.
      simp only [phases_setPhase, if_true, reduceCtorEq, if_false, ForwardPhase.held,
        Option.mem_def, Option.some.injEq] at hrequest hresponse
      subst hrequest
      have := (h.held .deviceToApp response hresponse).2.2.1
      omega
    | deviceToApp =>
      simp only [phases_setPhase, if_true, reduceCtorEq, if_false, ForwardPhase.held,
        Option.mem_def, Option.some.injEq] at hrequest hresponse
      subst hresponse
      exact ((h.held .appToDevice request hrequest).2.2.2.mono hclock).2
  · intro request hrequest
    obtain ⟨hsequence, htime⟩ := h.pending request hrequest
    exact ⟨Nat.le_succ_of_le hsequence, htime.mono hclock⟩
  · intro request hrequest response hresponse
    cases thread with
    | appToDevice => exact h.first request hrequest response (by simpa using hresponse)
    | deviceToApp =>
      obtain ⟨hsequence, htime⟩ := h.pending request (List.mem_of_head? hrequest)
      simp only [phases_setPhase, if_true, ForwardPhase.held, Option.mem_def,
        Option.some.injEq] at hresponse
      subst hresponse
      rw [UInt64.lt_iff_toNat_lt]
      exact ⟨by omega, (htime.mono hclock).2⟩

/-- Where a thread moves on with the event it holds, only the log and the numbers change. -/
theorem Ordered.deliver (h : s.Ordered) {event : PacketEvent} {derived : ℕ}
    (hphase : s.phases thread = .made event) :
    Ordered { s.setPhase thread (.delivered event) with
      allocator := s.allocator.skip derived
      taken := s.taken + derived
      log := s.log ++ [event] } := by
  have hheld : ∀ other, ((s.setPhase thread (.delivered event)).phases other).held =
      (s.phases other).held := by
    intro other
    rw [phases_setPhase]
    split
    · rename_i hother
      rw [hother, hphase]
      rfl
    · rfl
  refine ⟨h.latency, h.taken.skip derived, h.clock, ?_, ?_, ?_, ?_, ?_⟩
  · intro other e he
    obtain ⟨htype, hdirection, hsequence, htime⟩ := h.held other e (hheld other ▸ he)
    exact ⟨htype, hdirection, Nat.le_add_right_of_le hsequence, htime⟩
  · intro request hrequest response hresponse
    exact h.times request (hheld _ ▸ hrequest) response (hheld _ ▸ hresponse)
  · intro request hrequest
    obtain ⟨hsequence, htime⟩ := h.pending request hrequest
    exact ⟨Nat.le_add_right_of_le hsequence, htime⟩
  · intro request hrequest response hresponse
    exact h.first request hrequest response (hheld _ ▸ hresponse)
  · intro e he
    rcases List.mem_append.1 he with he | he
    · exact h.log e he
    · rw [List.mem_singleton] at he
      subst he
      have htype := (h.held thread e (by simp [hphase, ForwardPhase.held])).1
      intro hlatency
      rw [htype] at hlatency
      cases hlatency

/-- A thread that has nothing in hand leaves the events of the other thread in order. -/
theorem held_setPhase_reading {event : PacketEvent} {other : Forwarder}
    (h : event ∈ ((s.setPhase thread .reading).phases other).held) :
    other ≠ thread ∧ event ∈ (s.phases other).held := by
  rw [phases_setPhase] at h
  split at h
  · cases h
  · exact ⟨‹_›, h⟩

theorem Ordered.observe_request (h : s.Ordered) {event : PacketEvent}
    (hphase : s.phases .appToDevice = .delivered event)
    (holder : s.NoOlderResponse (.observe .appToDevice)) :
    ((s.setPhase .appToDevice .reading).observeLatency event).Ordered := by
  have hevent : event ∈ (s.phases .appToDevice).held := by simp [hphase, ForwardPhase.held]
  obtain ⟨htype, hdirection, hsequence, htime⟩ := h.held _ event hevent
  have hother : ∀ other, ∀ e ∈ ((s.setPhase .appToDevice .reading).phases other).held,
      other ≠ .appToDevice ∧ e ∈ (s.phases other).held := fun other e he => held_setPhase_reading he
  rw [observeLatency_request (s := s.setPhase .appToDevice .reading) h.latency htype hdirection]
  refine ⟨h.latency, h.taken, h.clock, fun other e he => ?_, fun request hrequest => ?_, ?_, ?_,
    h.log⟩
  · exact h.held other e (hother other e he).2
  · exact absurd rfl (hother _ request hrequest).1
  · intro request hrequest
    rcases List.mem_append.1 hrequest with hrequest | hrequest
    · exact h.pending request hrequest
    · rw [List.mem_singleton] at hrequest
      subst hrequest
      exact ⟨hsequence, htime⟩
  · intro request hrequest response hresponse
    have hheld := (hother .deviceToApp response hresponse).2
    change request ∈ (s.tracker.pending ++ _).head? at hrequest
    cases hpending : s.tracker.pending with
    | nil =>
      rw [hpending] at hrequest
      cases hrequest
      have hlt := holder rfl hpending event hevent response hheld
      exact ⟨hlt, h.times event hevent response hheld hlt⟩
    | cons first rest =>
      rw [hpending] at hrequest
      exact h.first request (by rwa [hpending]) response hheld

theorem Ordered.observe_response (h : s.Ordered) {event : PacketEvent}
    (hphase : s.phases .deviceToApp = .delivered event) :
    ((s.setPhase .deviceToApp .reading).observeLatency event).Ordered := by
  have hevent : event ∈ (s.phases .deviceToApp).held := by simp [hphase, ForwardPhase.held]
  obtain ⟨htype, hdirection, -, -⟩ := h.held _ event hevent
  have hother : ∀ other, ∀ e ∈ ((s.setPhase .deviceToApp .reading).phases other).held,
      other ≠ .deviceToApp ∧ e ∈ (s.phases other).held := fun other e he => held_setPhase_reading he
  cases hpending : s.tracker.pending with
  | nil =>
    rw [observeLatency_unpaired (s := s.setPhase .deviceToApp .reading) h.latency htype hdirection
      hpending]
    refine ⟨h.latency, h.taken, h.clock, fun other e he => h.held other e (hother other e he).2, ?_,
      h.pending, ?_, h.log⟩
    · intro request _ response hresponse
      exact absurd rfl (hother _ response hresponse).1
    · intro request _ response hresponse
      exact absurd rfl (hother _ response hresponse).1
  | cons first rest =>
    have hfirst := h.first first (by rw [hpending]; rfl) event hevent
    rw [observeLatency_paired (s := s.setPhase .deviceToApp .reading) h.latency htype hdirection
      hpending]
    have hshown := (h.pending first (by rw [hpending]; exact List.mem_cons_self)).2
    refine ⟨h.latency, h.taken.next, h.clock, ?_, ?_, ?_, ?_, ?_⟩
    · intro other e he
      obtain ⟨htype, hdirection, hsequence, htime⟩ := h.held other e (hother other e he).2
      exact ⟨htype, hdirection, Nat.le_succ_of_le hsequence, htime⟩
    · intro request _ response hresponse
      exact absurd rfl (hother _ response hresponse).1
    · intro request hrequest
      obtain ⟨hsequence, htime⟩ := h.pending request (hpending ▸ List.mem_cons_of_mem _ hrequest)
      exact ⟨Nat.le_succ_of_le hsequence, htime⟩
    · intro request _ response hresponse
      exact absurd rfl (hother _ response hresponse).1
    · intro e he
      rcases List.mem_append.1 he with he | he
      · exact h.log e he
      · rw [List.mem_singleton] at he
        subst he
        exact fun _ => ⟨hfirst.1, hshown.sub_nonneg hfirst.2⟩

theorem Ordered.step (h : s.Ordered) (hstep : Step s a t) (holder : s.NoOlderResponse a)
    (hbound : t.taken < UInt64.size) : t.Ordered := by
  unfold Step perform at hstep
  cases a with
  | makeEvent thread payload time =>
    simp only at hstep
    split at hstep
    · rename_i hcan
      cases hstep
      exact h.makeEvent hbound hcan.2
    · cases hstep
  | deliver thread derived =>
    simp only at hstep
    split at hstep
    · rename_i event hphase
      cases hstep
      exact h.deliver hphase
    · cases hstep
  | observe thread =>
    simp only at hstep
    split at hstep
    · rename_i event hphase
      cases hstep
      cases thread with
      | appToDevice => exact h.observe_request hphase holder
      | deviceToApp => exact h.observe_response hphase
    · cases hstep

theorem ordered_of_run {acts : List ForwardAction} (h : s.Ordered)
    (hrun : Run (Guarded Step NoOlderResponse) s acts t) (hbound : t.taken < UInt64.size) :
    t.Ordered := by
  refine hrun.invariant (I := fun s => s.taken < UInt64.size → s.Ordered) ?_ (fun _ => h) hbound
  rintro s a t ih ⟨holder, hstep⟩ hbound
  exact (ih (Nat.lt_of_le_of_lt (taken_le_of_step hstep) hbound)).step hstep holder hbound

/-- A response is paired with the first request in the queue as soon as its thread moves on. -/
theorem paired_with_first (hlatency : s.config.latencyEnabled = true) {request : PendingRequest}
    {rest : List PendingRequest} (hpending : s.tracker.pending = request :: rest)
    (hraw : e.type = .rawBytes ∧ e.direction = .deviceToApp)
    (hheld : e ∈ (s.phases .deviceToApp).held) :
    ∃ acts t, Run Step s acts t ∧ ∃ latency ∈ t.log, latency.type = .latency ∧
      latency.requestSequence = request.sequence ∧ latency.responseSequence = e.sequence := by
  have hobserve : ∀ s : TcpProxyForwarding, s.config.latencyEnabled = true →
      s.tracker.pending = request :: rest → s.phases .deviceToApp = .delivered e →
      ∃ t, Step s (.observe .deviceToApp) t ∧ ∃ latency ∈ t.log, latency.type = .latency ∧
        latency.requestSequence = request.sequence ∧ latency.responseSequence = e.sequence := by
    intro s hlatency hpending hphase
    refine ⟨(s.setPhase .deviceToApp .reading).observeLatency e, by simp [Step, perform, hphase],
      ?_⟩
    rw [observeLatency_paired (s := s.setPhase .deviceToApp .reading) hlatency hraw.1 hraw.2
      hpending]
    exact ⟨_, List.mem_append_right _ (List.mem_singleton_self _), rfl, rfl, rfl⟩
  cases hphase : s.phases .deviceToApp with
  | reading =>
    rw [hphase] at hheld
    cases hheld
  | made event =>
    obtain rfl : event = e := by simpa [hphase, ForwardPhase.held] using hheld
    let next : TcpProxyForwarding :=
      { s.setPhase .deviceToApp (.delivered event) with
        allocator := s.allocator.skip 0
        taken := s.taken + 0
        log := s.log ++ [event] }
    have hdeliver : Step s (.deliver .deviceToApp 0) next := by
      simp only [Step, perform, hphase]
      rfl
    have hdelivered : next.phases .deviceToApp = .delivered event := by simp [next]
    obtain ⟨t, hstep, hlog⟩ := hobserve next hlatency hpending hdelivered
    exact ⟨_, t, .cons hdeliver (.cons hstep (.nil _)), hlog⟩
  | delivered event =>
    obtain rfl : event = e := by simpa [hphase, ForwardPhase.held] using hheld
    obtain ⟨t, hstep, hlog⟩ := hobserve s hlatency hpending hphase
    exact ⟨_, t, .cons hstep (.nil _), hlog⟩

/-- Where a step breaks the condition, the two threads go on to emit a Latency event whose
response is not younger than its request. -/
theorem acausal_of_older_response (h : s.Ordered) (hstep : Step s a t)
    (holder : ¬ s.NoOlderResponse a) :
    ∃ acts u, Run Step t acts u ∧ ∃ latency ∈ u.log, ¬ Causal latency := by
  simp only [NoOlderResponse, not_forall, exists_prop] at holder
  obtain ⟨rfl, hpending, request, hrequest, response, hresponse, hle⟩ := holder
  obtain ⟨hrawRequest, hrequestDirection, -, -⟩ := h.held _ request hrequest
  obtain ⟨hrawResponse, hresponseDirection, -, -⟩ := h.held _ response hresponse
  cases hphase : s.phases .appToDevice with
  | reading =>
    rw [hphase] at hrequest
    cases hrequest
  | made event => simp [Step, perform, hphase] at hstep
  | delivered event =>
    obtain rfl : event = request := by simpa [hphase, ForwardPhase.held] using hrequest
    simp only [Step, perform, hphase, Option.some.injEq] at hstep
    rw [observeLatency_request (s := s.setPhase .appToDevice .reading) h.latency hrawRequest
      hrequestDirection] at hstep
    have hqueue : t.tracker.pending =
        [⟨event.sequence, event.timestampNs, event.payload.length⟩] := by
      rw [← hstep]
      change s.tracker.pending ++ _ = _
      rw [hpending]
      rfl
    have hphases : t.phases .deviceToApp = s.phases .deviceToApp := by
      rw [← hstep]
      simp
    have hlatency : t.config.latencyEnabled = true := by
      rw [← hstep]
      exact h.latency
    obtain ⟨acts, u, hrun, latency, hmem, htype, hrequestSeq, hresponseSeq⟩ :=
      paired_with_first hlatency hqueue ⟨hrawResponse, hresponseDirection⟩ (hphases ▸ hresponse)
    refine ⟨acts, u, hrun, latency, hmem, fun hcausal => ?_⟩
    have hlt := (hcausal htype).1
    rw [hrequestSeq, hresponseSeq] at hlt
    exact hle hlt

/-- As long as no request overtakes an older response at the tracker, all Latency events
are causal, and once one does, a Latency event that is not can follow. -/
theorem latency_causal_until_overtaken {acts : List ForwardAction} (h : s.Connected)
    (hrun : Run (Guarded Step NoOlderResponse) s acts t) (hbound : t.taken < UInt64.size) :
    (∀ e ∈ t.log, Causal e) ∧
      ∀ a u, Step t a u → ¬ t.NoOlderResponse a →
        ∃ more v, Run Step u more v ∧ ∃ latency ∈ v.log, ¬ Causal latency := by
  have hordered := ordered_of_run h.ordered hrun hbound
  exact ⟨hordered.log, fun a u hstep holder => acausal_of_older_response hordered hstep holder⟩

/-- A proxy between two endpoints. -/
def proxied : TcpProxyForwarding where
  config := { listenHost := ascii "127.0.0.1", listenPort := 9001,
              targetHost := ascii "127.0.0.1", targetPort := 9002 }
  appEndpoint := ascii "127.0.0.1:5000"
  deviceEndpoint := ascii "127.0.0.1:9002"

theorem connected_proxied : proxied.Connected :=
  ⟨rfl, fun _ => rfl, rfl, rfl, SequenceAllocator.hasTaken_default, by decide⟩

/-- The device speaks first, but its thread is held up until the request is observed. -/
def overtakenResponse : List ForwardAction :=
  [.makeEvent .deviceToApp [0x01] 10, .makeEvent .appToDevice [0x02] 20, .deliver .appToDevice 0,
    .observe .appToDevice, .deliver .deviceToApp 0, .observe .deviceToApp]

theorem acausal_latency :
    ∃ t, proxied.Connected ∧ Run Step proxied overtakenResponse t ∧
      ∃ e ∈ t.log, e.type = .latency ∧ e.requestSequence = 2 ∧ e.responseSequence = 1 ∧
        e.latencyNs = -10 := by
  obtain ⟨t, hrun, hlatency⟩ := Run.exists_of_foldlM
    (P := fun t : TcpProxyForwarding => ∃ e ∈ t.log, e.type = .latency ∧ e.requestSequence = 2 ∧
      e.responseSequence = 1 ∧ e.latencyNs = -10)
    (show (overtakenResponse.foldlM perform proxied).any _ = true by decide +kernel)
  exact ⟨t, connected_proxied, hrun, hlatency⟩

/-- The device answers a request that was observed. -/
def answeredRequest : List ForwardAction :=
  [.makeEvent .appToDevice [0x02] 10, .deliver .appToDevice 0, .observe .appToDevice,
    .makeEvent .deviceToApp [0x01] 20, .deliver .deviceToApp 0, .observe .deviceToApp]

theorem latency_causal_of_answer :
    ∃ t : TcpProxyForwarding, t.log.length = 3 ∧ ∀ e ∈ t.log, Causal e := by
  obtain ⟨t, hrun, hlength, hbound⟩ := Run.exists_of_foldlM
    (P := fun t : TcpProxyForwarding => t.log.length = 3 ∧ t.taken < UInt64.size)
    (show (answeredRequest.foldlM (fun s a => if NoOlderResponse s a then perform s a else none)
      proxied).any _ = true by decide +kernel)
  exact ⟨t, hlength, (latency_causal_until_overtaken connected_proxied
    (hrun.mono fun _ _ _ h => Option.ite_none_right_eq_some.1 h) hbound).1⟩

end TcpProxyForwarding

end PacketProbe
