import PacketProbe.FanOut
import PacketProbe.SharedPipeline

/-!
# The outlets of a pipeline's sink

The sink records an event, broadcasts it and prints it. The recorder and the server each have
a lock of their own, so that threads that share the pipeline can come in between. Seen from any
one outlet, the threads take the steps of a pipeline whose sink is that outlet alone.
-/

namespace PacketProbe
open TransitionRuns EventPipeline

/-- Printing is more than one step; a call of `print_event` is entered here when it begins. -/
inductive SinkOutlet where
  | recorder | ipcServer | console
  deriving DecidableEq

/-- What the sink of `make_pipeline` and of `start_session_locked` writes to. `record` returns at
once as long as no log is open, and nothing is broadcast without a running server. -/
def sinkOutlets (logOpen ipcServer : Bool) : List SinkOutlet :=
  (if logOpen then [.recorder] else []) ++ (if ipcServer then [.ipcServer] else []) ++ [.console]

/-- The event that a thread passes to the sink next. -/
def SenderPhase.next : SenderPhase → Option PacketEvent
  | .made event => some event
  | .emitting _ (derived :: _) => some derived
  | _ => none

/-- Where the thread is when the sink has returned. -/
def SenderPhase.behindSink : SenderPhase → SenderPhase
  | .made event => if event.Decoded then .delivered event else .idle
  | .emitting event (_ :: remaining) => .emittingOrIdle event remaining
  | phase => phase

/-- The log of the core lists the calls of the sink that have returned. -/
structure SinkedPipeline (ι : Type) where
  core : SharedPipeline ι
  sink : FanOut.State ι PacketEvent SinkOutlet := {}

/-- The steps of a thread: the call of the sink begins, or writes to its next outlet. -/
inductive SinkedAction (ι : Type) where
  | make (thread : ι) (stream : Stream) (timestampNs : Int64) (payload : Bytes)
    (summary : ByteString)
  | call (thread : ι)
  | write (thread : ι)
  | decode (thread : ι)

namespace SinkedPipeline

variable {ι : Type}

def start (config : DecoderConfig) : SinkedPipeline ι := { core := SharedPipeline.start config }

variable [DecidableEq ι]

/-- The sink returns to a thread. -/
def sinkReturns (core : SharedPipeline ι) (i : ι) : Option (SharedPipeline ι) :=
  match core.phases i with
  | .made _ => core.perform (.deliver i)
  | _ => core.perform (.emit i)

def perform (outlets : List SinkOutlet) (s : SinkedPipeline ι) :
    SinkedAction ι → Option (SinkedPipeline ι)
  | .make i stream timestampNs payload summary =>
    (s.core.perform (.make i stream timestampNs payload summary)).map fun core => { s with core }
  | .call i =>
    match (s.core.phases i).next with
    | some event => (s.sink.hand outlets i event).map fun sink => { s with sink }
    | none => none
  | .write i =>
    match s.sink.write i with
    | none => none
    | some sink =>
      if (sink.calls i).isNone then (sinkReturns s.core i).map fun core => { core, sink }
      else some { s with sink }
  | .decode i => (s.core.perform (.decode i)).map fun core => { s with core }

def Step (outlets : List SinkOutlet) (s : SinkedPipeline ι) (a : SinkedAction ι)
    (t : SinkedPipeline ι) : Prop :=
  s.perform outlets a = some t

variable {config : DecoderConfig} {outlets : List SinkOutlet} {s t : SinkedPipeline ι}
  {a : SinkedAction ι} {i : ι}
  {o o' : SinkOutlet}

/-! ### The sink by itself -/

/-- The calls and the outlets change as in a fan-out. -/
theorem sink_of_step (hstep : Step outlets s a t) :
    t.sink = s.sink ∨ ∃ act, FanOut.State.Step outlets s.sink act t.sink := by
  unfold Step perform at hstep
  cases a with
  | make i stream timestampNs payload summary =>
    obtain ⟨core, -, rfl⟩ := Option.map_eq_some_iff.1 hstep
    exact .inl rfl
  | call i =>
    simp only at hstep
    split at hstep
    · obtain ⟨sink, hsink, rfl⟩ := Option.map_eq_some_iff.1 hstep
      exact .inr ⟨.hand i _, hsink⟩
    · cases hstep
  | write i =>
    simp only at hstep
    split at hstep
    · cases hstep
    · rename_i sink hsink
      split at hstep
      · obtain ⟨core, -, rfl⟩ := Option.map_eq_some_iff.1 hstep
        exact .inr ⟨.write i, hsink⟩
      · cases hstep
        exact .inr ⟨.write i, hsink⟩
  | decode i =>
    obtain ⟨core, -, rfl⟩ := Option.map_eq_some_iff.1 hstep
    exact .inl rfl

theorem balanced_of_run {acts : List (SinkedAction ι)} (hnodup : outlets.Nodup)
    (hrun : TransitionRuns.Run (Step outlets) (start config) acts s) :
    FanOut.State.Balanced outlets s.sink := by
  refine hrun.invariant (I := fun s => FanOut.State.Balanced outlets s.sink) ?_
    (FanOut.State.balanced_start outlets)
  intro s a t h hstep
  rcases sink_of_step hstep with hsame | ⟨act, hact⟩
  · rwa [hsame]
  · exact h.step hnodup (FanOut.State.effect_of_step hact)

/-! ### Seen from one outlet -/

/-- The thread is in a call that has got past this outlet. -/
def past (o : SinkOutlet) (s : SinkedPipeline ι) (i : ι) : Bool :=
  match s.sink.calls i with
  | some (_, left) => !left.contains o
  | none => false

/-- The pipeline as if the sink were this outlet alone. -/
def view (o : SinkOutlet) (s : SinkedPipeline ι) : SharedPipeline ι :=
  { s.core with
    phases := fun i => if s.past o i then (s.core.phases i).behindSink else s.core.phases i
    log := (s.sink.written o).map Prod.snd }

/-- A thread in a call of the sink is in it with its next event. -/
def WellCalled (s : SinkedPipeline ι) : Prop :=
  ∀ i event left, s.sink.calls i = some (event, left) → (s.core.phases i).next = some event

omit [DecidableEq ι] in
theorem past_of_idle (h : s.sink.calls i = none) (o : SinkOutlet) : s.past o i = false := by
  rw [past, h]

omit [DecidableEq ι] in
theorem past_of_call {event : PacketEvent} {left : List SinkOutlet}
    (h : s.sink.calls i = some (event, left)) (o : SinkOutlet) : s.past o i = !left.contains o := by
  rw [past, h]

/-- What a step of one thread changes in the view. -/
theorem phases_view {phase : SenderPhase}
    (hphases : t.core.phases = Function.update s.core.phases i phase)
    (hcalls : ∀ j, j ≠ i → t.sink.calls j = s.sink.calls j) (o : SinkOutlet) :
    (view o t).phases =
      Function.update (view o s).phases i (if t.past o i then phase.behindSink else phase) := by
  funext j
  by_cases hj : j = i
  · subst hj
    simp only [view, hphases, Function.update_self]
  · have hpast : t.past o j = s.past o j := by
      unfold past
      rw [hcalls j hj]
    simp only [view, hphases, Function.update_of_ne hj, hpast]

theorem phases_view_idle {phase : SenderPhase}
    (hphases : t.core.phases = Function.update s.core.phases i phase)
    (hcalls : ∀ j, j ≠ i → t.sink.calls j = s.sink.calls j) (hidle : t.sink.calls i = none)
    (o : SinkOutlet) :
    (view o t).phases = Function.update (view o s).phases i phase := by
  rw [phases_view hphases hcalls, past_of_idle hidle]
  rfl

theorem phases_view_call {event : PacketEvent} {left : List SinkOutlet} {phase : SenderPhase}
    (hphases : t.core.phases = Function.update s.core.phases i phase)
    (hcalls : ∀ j, j ≠ i → t.sink.calls j = s.sink.calls j)
    (hcall : t.sink.calls i = some (event, left)) (o : SinkOutlet) : (view o t).phases =
      Function.update (view o s).phases i (if o ∈ left then phase else phase.behindSink) := by
  rw [phases_view hphases hcalls, past_of_call hcall]
  by_cases ho : o ∈ left
  · simp [ho]
  · simp [ho]

omit [DecidableEq ι] in
theorem view_eq {u : SharedPipeline ι} (hpipeline : t.core.pipeline = u.pipeline)
    (hallocator : t.core.allocator = u.allocator) (hphases : (view o t).phases = u.phases)
    (hlog : (t.sink.written o).map Prod.snd = u.log) (hdecodings : t.core.decodings = u.decodings)
    (htaken : t.core.taken = u.taken) : view o t = u := by
  cases u
  simp only [view] at hphases ⊢
  rw [hpipeline, hallocator, hphases, hlog, hdecodings, htaken]

omit [DecidableEq ι] in
/-- The thread is not in a call. -/
theorem WellCalled.idle (h : s.WellCalled) (hnext : (s.core.phases i).next = none) :
    s.sink.calls i = none := by
  cases hcall : s.sink.calls i with
  | none => rfl
  | some call =>
    obtain ⟨event, left⟩ := call
    rw [h i event left hcall] at hnext
    cases hnext

theorem view_make {stream : Stream} {timestampNs : Int64} {payload : Bytes} {summary : ByteString}
    (hw : s.WellCalled)
    (hstep : Step outlets s (.make i stream timestampNs payload summary) t) (o : SinkOutlet) :
    SharedPipeline.Step (view o s) (.make i stream timestampNs payload summary) (view o t) := by
  obtain ⟨core, hcore, rfl⟩ := Option.map_eq_some_iff.1 hstep
  unfold SharedPipeline.perform at hcore
  simp only at hcore
  split at hcore
  · rename_i hphase
    have hcore := Option.some.inj hcore
    have hidle := hw.idle (i := i) (by rw [hphase]; rfl)
    have hsame : (view o s).phases i = .idle := by
      simp only [view, past_of_idle hidle, Bool.false_eq_true, if_false, hphase]
    have hphases : (view o { s with core }).phases =
        Function.update (view o s).phases i
          (.made (s.core.rawEvent stream timestampNs payload summary)) :=
      phases_view_idle (s := s) (t := { s with core }) (by rw [← hcore]; rfl) (fun _ _ => rfl) hidle
        o
    unfold SharedPipeline.Step SharedPipeline.perform
    simp only [hsame, if_true]
    exact congrArg some (view_eq (congrArg SharedPipeline.pipeline hcore).symm
      (congrArg SharedPipeline.allocator hcore).symm hphases rfl
      (congrArg SharedPipeline.decodings hcore).symm
      (congrArg SharedPipeline.taken hcore).symm).symm
  · cases hcore

theorem view_decode (hw : s.WellCalled) (hstep : Step outlets s (.decode i) t) (o : SinkOutlet) :
    SharedPipeline.Step (view o s) (.decode i) (view o t) := by
  obtain ⟨core, hcore, rfl⟩ := Option.map_eq_some_iff.1 hstep
  unfold SharedPipeline.perform at hcore
  simp only at hcore
  split at hcore
  · rename_i event factory hphase hfactory
    have hidle := hw.idle (i := i) (by rw [hphase]; rfl)
    have hsame : (view o s).phases i = .delivered event := by
      simp only [view, past_of_idle hidle, Bool.false_eq_true, if_false, hphase]
    have hpipeline : (view o s).pipeline = s.core.pipeline := rfl
    have hallocator : (view o s).allocator = s.core.allocator := rfl
    unfold SharedPipeline.Step SharedPipeline.perform
    simp only [hsame, hpipeline, hallocator, hfactory]
    cases hdecode : s.core.pipeline.decodeSection factory s.core.allocator event with
    | error ex =>
      rw [hdecode] at hcore
      have hcore := Option.some.inj hcore
      have hphases : (view o { s with core }).phases = Function.update (view o s).phases i .idle :=
        phases_view_idle (s := s) (t := { s with core }) (by rw [← hcore]; rfl) (fun _ _ => rfl)
          hidle o
      exact congrArg some (view_eq (congrArg SharedPipeline.pipeline hcore).symm
        (congrArg SharedPipeline.allocator hcore).symm hphases rfl
        (congrArg SharedPipeline.decodings hcore).symm
        (congrArg SharedPipeline.taken hcore).symm).symm
    | ok section_ =>
      obtain ⟨pipeline, allocator, derived⟩ := section_
      rw [hdecode] at hcore
      have hcore := Option.some.inj hcore
      have hphases : (view o { s with core }).phases =
          Function.update (view o s).phases i (.emittingOrIdle event derived) :=
        phases_view_idle (s := s) (t := { s with core }) (by rw [← hcore]; rfl) (fun _ _ => rfl)
          hidle o
      exact congrArg some (view_eq (congrArg SharedPipeline.pipeline hcore).symm
        (congrArg SharedPipeline.allocator hcore).symm hphases rfl
        (congrArg SharedPipeline.decodings hcore).symm
        (congrArg SharedPipeline.taken hcore).symm).symm
  · cases hcore

/-- A call that begins is not past any outlet. -/
theorem view_call (ho : o ∈ outlets) (hstep : Step outlets s (.call i) t) :
    view o t = view o s := by
  unfold Step perform at hstep
  simp only at hstep
  split at hstep
  · rename_i event hnext
    obtain ⟨sink, hsink, rfl⟩ := Option.map_eq_some_iff.1 hstep
    unfold FanOut.State.hand at hsink
    split at hsink
    · rename_i hidle
      have hsink := Option.some.inj hsink
      have hleft : outlets ≠ [] := List.ne_nil_of_mem ho
      have hcall : sink.calls i = some (event, outlets) := by
        rw [← hsink]
        simp only [Function.update_self]
        exact FanOut.State.callOf_of_ne hleft
      have hphases : (view o { s with sink }).phases = (view o s).phases := by
        have hview := phases_view_call (s := s) (t := { s with sink })
          (Function.update_eq_self i s.core.phases).symm
          (fun j hj => ?_) hcall o
        · rw [hview, if_pos ho]
          have hsame : (view o s).phases i = s.core.phases i := by
            simp only [view, past_of_idle hidle, Bool.false_eq_true, if_false]
          rw [← hsame, Function.update_eq_self]
        · rw [← hsink]
          exact Function.update_of_ne hj _ _
      refine view_eq rfl rfl hphases ?_ rfl rfl
      rw [← hsink]
      rfl
    · cases hsink
  · cases hstep

/-- The core with this thread's call of the sink returned. -/
def returned (core : SharedPipeline ι) (i : ι) (event : PacketEvent) : SharedPipeline ι :=
  { core.setPhase i (core.phases i).behindSink with log := core.log ++ [event] }

theorem perform_returned {core : SharedPipeline ι} {event : PacketEvent}
    (hfactory : core.pipeline.decoderFactory.isSome = true)
    (hnext : (core.phases i).next = some event) :
    ∃ b, (b = .deliver i ∧ core.phases i = .made event ∨
        b = .emit i ∧ core.phases i ≠ .made event) ∧
      core.perform b = some (returned core i event) := by
  unfold returned
  cases hphase : core.phases i with
  | idle =>
    rw [hphase] at hnext
    cases hnext
  | made event' =>
    rw [hphase] at hnext
    cases hnext
    refine ⟨.deliver i, .inl ⟨rfl, rfl⟩, ?_⟩
    simp only [SharedPipeline.perform, hphase, hfactory, and_true, SenderPhase.behindSink]
  | delivered event' =>
    rw [hphase] at hnext
    cases hnext
  | emitting event' remaining =>
    cases remaining with
    | nil =>
      rw [hphase] at hnext
      cases hnext
    | cons derived remaining =>
      rw [hphase] at hnext
      cases hnext
      refine ⟨.emit i, .inr ⟨rfl, by simp⟩, ?_⟩
      simp only [SharedPipeline.perform, hphase, SenderPhase.behindSink]

theorem sinkReturns_eq {core : SharedPipeline ι} {event : PacketEvent}
    (hfactory : core.pipeline.decoderFactory.isSome = true)
    (hnext : (core.phases i).next = some event) :
    sinkReturns core i = some (returned core i event) := by
  obtain ⟨b, ⟨rfl, hphase⟩ | ⟨rfl, hphase⟩, hperform⟩ := perform_returned hfactory hnext
  · rw [sinkReturns, hphase]
    exact hperform
  · unfold sinkReturns
    split
    · rename_i event' hmade
      rw [hmade] at hnext hphase
      cases hnext
      exact absurd rfl hphase
    · exact hperform

/-- A write goes to the next outlet of the call; behind the last one the sink returns. -/
theorem write_cases (hfactory : s.core.pipeline.decoderFactory.isSome = true) (hw : s.WellCalled)
    (hstep : Step outlets s (.write i) t) :
    ∃ event first left, s.sink.calls i = some (event, first :: left) ∧
      (s.core.phases i).next = some event ∧
      t.sink.calls = Function.update s.sink.calls i (FanOut.callOf event left) ∧
      t.sink.written = Function.update s.sink.written first (s.sink.written first ++ [(i, event)]) ∧
      t.sink.handed = s.sink.handed ∧
      (left = [] ∧ t.core = returned s.core i event ∨ left ≠ [] ∧ t.core = s.core) := by
  unfold Step perform at hstep
  simp only at hstep
  split at hstep
  · cases hstep
  · rename_i sink hsink
    unfold FanOut.State.write at hsink
    split at hsink
    · rename_i event first left hcall
      have hsink := Option.some.inj hsink
      have hnext := hw i event (first :: left) hcall
      have hcalls : sink.calls = Function.update s.sink.calls i (FanOut.callOf event left) := by
        rw [← hsink]
      have hwritten : sink.written =
          Function.update s.sink.written first (s.sink.written first ++ [(i, event)]) := by
        rw [← hsink]
      have hhanded : sink.handed = s.sink.handed := by rw [← hsink]
      have hown : sink.calls i = FanOut.callOf event left := by rw [hcalls, Function.update_self]
      refine ⟨event, first, left, hcall, hnext, ?_⟩
      cases left with
      | nil =>
        have hidle : sink.calls i = none := hown
        simp only [hidle, Option.isNone_none, if_true, sinkReturns_eq hfactory hnext,
          Option.map_some, Option.some.injEq] at hstep
        subst hstep
        exact ⟨hcalls, hwritten, hhanded, .inl ⟨rfl, rfl⟩⟩
      | cons next left =>
        have hcall' : sink.calls i = some (event, next :: left) := hown
        simp only [hcall', Option.isNone_some, Bool.false_eq_true, if_false,
          Option.some.injEq] at hstep
        subst hstep
        exact ⟨hcalls, hwritten, hhanded, .inr ⟨List.cons_ne_nil _ _, rfl⟩⟩
    · cases hsink

/-- An outlet is a step of its own view, and no step of the others'. -/
theorem view_write (hfactory : s.core.pipeline.decoderFactory.isSome = true) (hw : s.WellCalled)
    (hbalanced : FanOut.State.Balanced outlets s.sink) (hnodup : outlets.Nodup)
    (hstep : Step outlets s (.write i) t) (o : SinkOutlet) :
    view o t = view o s ∨ ∃ b, SharedPipeline.Step (view o s) b (view o t) := by
  obtain ⟨event, first, left, hcall, hnext, hcalls, hwritten, -, hreturned⟩ :=
    write_cases hfactory hw hstep
  have honce : first ∉ left :=
    (List.nodup_cons.1 (hnodup.sublist (hbalanced.left i event (first :: left) hcall).2.sublist)).1
  have hothers : ∀ j, j ≠ i → t.sink.calls j = s.sink.calls j := fun j hj => by
    rw [hcalls, Function.update_of_ne hj]
  have hown : t.sink.calls i = FanOut.callOf event left := by rw [hcalls, Function.update_self]
  -- Whether this was the last outlet of the call or not, the views change in the same way.
  have hboth : t.core.pipeline = s.core.pipeline ∧ t.core.allocator = s.core.allocator ∧
      t.core.decodings = s.core.decodings ∧ t.core.taken = s.core.taken ∧
      (view o t).phases = Function.update (view o s).phases i
        (if o ∈ left then s.core.phases i else (s.core.phases i).behindSink) := by
    rcases hreturned with ⟨rfl, hcore⟩ | ⟨hleft, hcore⟩
    · have hphases :
          t.core.phases = Function.update s.core.phases i (s.core.phases i).behindSink := by
        rw [hcore]
        rfl
      rw [if_neg List.not_mem_nil, hcore]
      exact ⟨rfl, rfl, rfl, rfl, phases_view_idle hphases hothers hown o⟩
    · have hphases : t.core.phases = Function.update s.core.phases i (s.core.phases i) := by
        rw [hcore, Function.update_eq_self]
      rw [FanOut.State.callOf_of_ne hleft] at hown
      rw [hcore]
      exact ⟨rfl, rfl, rfl, rfl, phases_view_call hphases hothers hown o⟩
  obtain ⟨hpipeline, hallocator, hdecodings, htaken, hphases⟩ := hboth
  have hbefore : (view o s).phases i =
      if o ∈ first :: left then s.core.phases i else (s.core.phases i).behindSink := by
    by_cases ho : o ∈ first :: left <;> simp [view, past_of_call hcall, ho]
  by_cases ho : o = first
  · subst ho
    rw [if_pos List.mem_cons_self] at hbefore
    rw [if_neg honce, ← hbefore] at hphases
    have hnext' : ((view o s).phases i).next = some event := by
      rw [hbefore]
      exact hnext
    have hfactory' : (view o s).pipeline.decoderFactory.isSome = true := hfactory
    obtain ⟨b, -, hperform⟩ := perform_returned hfactory' hnext'
    refine .inr ⟨b, hperform.trans (congrArg some ?_)⟩
    refine (view_eq (u := returned (view o s) i event) hpipeline hallocator hphases ?_ hdecodings
      htaken).symm
    rw [hwritten, Function.update_self, List.map_append]
    rfl
  · refine .inl (view_eq hpipeline hallocator ?_ ?_ hdecodings htaken)
    · have hmem : o ∈ first :: left ↔ o ∈ left := by rw [List.mem_cons, or_iff_right ho]
      simp only [hmem] at hbefore
      rw [hphases, ← hbefore, Function.update_eq_self]
    · rw [hwritten, Function.update_of_ne ho]
      rfl

/-! ### What every step keeps -/

theorem phases_of_make {core core' : SharedPipeline ι} {stream : Stream} {timestampNs : Int64}
    {payload : Bytes} {summary : ByteString}
    (h : core.perform (.make i stream timestampNs payload summary) = some core') :
    (core.phases i).next = none ∧ ∀ j, j ≠ i → core'.phases j = core.phases j := by
  unfold SharedPipeline.perform at h
  simp only at h
  split at h
  · rename_i hphase
    rw [← Option.some.inj h, hphase]
    exact ⟨rfl, fun _ hj => Function.update_of_ne hj _ _⟩
  · cases h

theorem phases_of_decode {core core' : SharedPipeline ι}
    (h : core.perform (.decode i) = some core') :
    (core.phases i).next = none ∧ ∀ j, j ≠ i → core'.phases j = core.phases j := by
  unfold SharedPipeline.perform at h
  simp only at h
  split at h
  · rename_i event factory hphase hfactory
    rw [hphase]
    refine ⟨rfl, fun j hj => ?_⟩
    split at h <;> rw [← Option.some.inj h] <;> exact Function.update_of_ne hj _ _
  · cases h

omit [DecidableEq ι] in
/-- A step of the core outside the sink changes the phase of a thread that is in no call. -/
theorem WellCalled.of_core {core : SharedPipeline ι} (h : s.WellCalled)
    (hcore : (s.core.phases i).next = none ∧ ∀ j, j ≠ i → core.phases j = s.core.phases j) :
    WellCalled { s with core } := by
  intro j event left hcall
  have hj : j ≠ i := by
    rintro rfl
    rw [h.idle hcore.1] at hcall
    cases hcall
  change (core.phases j).next = some event
  rw [hcore.2 j hj]
  exact h j event left hcall

theorem WellCalled.call (h : s.WellCalled) (hstep : Step outlets s (.call i) t) :
    t.WellCalled := by
  unfold Step perform at hstep
  simp only at hstep
  split at hstep
  · rename_i event hnext
    obtain ⟨sink, hsink, rfl⟩ := Option.map_eq_some_iff.1 hstep
    unfold FanOut.State.hand at hsink
    split at hsink
    · have hsink := Option.some.inj hsink
      intro j event' left hcall
      change sink.calls j = some (event', left) at hcall
      rw [← hsink] at hcall
      simp only at hcall
      by_cases hj : j = i
      · subst hj
        rw [Function.update_self] at hcall
        obtain ⟨rfl, -, -⟩ := FanOut.State.callOf_eq_some hcall
        exact hnext
      · rw [Function.update_of_ne hj] at hcall
        exact h j event' left hcall
    · cases hsink
  · cases hstep

theorem WellCalled.write (h : s.WellCalled)
    (hfactory : s.core.pipeline.decoderFactory.isSome = true)
    (hstep : Step outlets s (.write i) t) : t.WellCalled := by
  obtain ⟨event, first, left, -, hnext, hcalls, -, -, hreturned⟩ := write_cases hfactory h hstep
  intro j event' left' hcall
  by_cases hj : j = i
  · subst hj
    rw [hcalls, Function.update_self] at hcall
    obtain ⟨rfl, rfl, hleft⟩ := FanOut.State.callOf_eq_some hcall
    rcases hreturned with ⟨hnil, -⟩ | ⟨-, hcore⟩
    · exact absurd hnil hleft
    · rw [hcore]
      exact hnext
  · rw [hcalls, Function.update_of_ne hj] at hcall
    have hphase : t.core.phases j = s.core.phases j := by
      rcases hreturned with ⟨-, hcore⟩ | ⟨-, hcore⟩
      · rw [hcore]
        exact Function.update_of_ne hj _ _
      · rw [hcore]
    rw [hphase]
    exact h j event' left' hcall

theorem WellCalled.step (h : s.WellCalled) (hfactory : s.core.pipeline.decoderFactory.isSome = true)
    (hstep : Step outlets s a t) : t.WellCalled := by
  cases a with
  | make i stream timestampNs payload summary =>
    obtain ⟨core, hcore, rfl⟩ := Option.map_eq_some_iff.1 hstep
    exact h.of_core (phases_of_make hcore)
  | call i => exact h.call hstep
  | write i => exact h.write hfactory hstep
  | decode i =>
    obtain ⟨core, hcore, rfl⟩ := Option.map_eq_some_iff.1 hstep
    exact h.of_core (phases_of_decode hcore)

/-- Every outlet sees a run of a pipeline whose sink it is. -/
theorem kept_of_run {acts : List (SinkedAction ι)} (hnodup : outlets.Nodup) (ho : o ∈ outlets)
    (hrun : TransitionRuns.Run (Step outlets) (start config) acts s) :
    s.WellCalled ∧ FanOut.State.Balanced outlets s.sink ∧
      TransitionRuns.Reachable SharedPipeline.Step (SharedPipeline.start config) (view o s) := by
  refine hrun.invariant (I := fun s => s.WellCalled ∧ FanOut.State.Balanced outlets s.sink ∧
    TransitionRuns.Reachable SharedPipeline.Step (SharedPipeline.start config) (view o s)) ?_ ?_
  · rintro s a t ⟨hw, hbalanced, acts', hview⟩ hstep
    obtain ⟨factory, hfactory, -⟩ := (SharedPipeline.parented_of_run hview).decodes.factory
    have hsome : s.core.pipeline.decoderFactory.isSome = true := by
      change (view o s).pipeline.decoderFactory.isSome = true
      rw [hfactory]
      rfl
    have hmove : view o t = view o s ∨ ∃ b, SharedPipeline.Step (view o s) b (view o t) := by
      cases a with
      | make i stream timestampNs payload summary => exact .inr ⟨_, view_make hw hstep o⟩
      | call i => exact .inl (view_call ho hstep)
      | write i => exact view_write hsome hw hbalanced hnodup hstep o
      | decode i => exact .inr ⟨_, view_decode hw hstep o⟩
    refine ⟨hw.step hsome hstep, ?_, ?_⟩
    · rcases sink_of_step hstep with hsame | ⟨act, hact⟩
      · rwa [hsame]
      · exact hbalanced.step hnodup (FanOut.State.effect_of_step hact)
    · rcases hmove with hsame | ⟨b, hb⟩
      · rw [hsame]
        exact ⟨acts', hview⟩
      · exact ⟨acts' ++ [b], hview.snoc hb⟩
  · exact ⟨fun _ _ _ h => (by cases h), FanOut.State.balanced_start outlets, [], .nil _⟩

/-! ### The events of a thread -/

/-- What a thread has passed to the sink, and behind it what it still has to pass. -/
def passed (s : SinkedPipeline ι) (i : ι) : List PacketEvent :=
  FanOut.ofThread i s.sink.handed ++
    if (s.sink.calls i).isSome then (s.core.phases i).behindSink.undelivered
    else (s.core.phases i).undelivered

/-- Each thread passes its events in the order of their numbers. -/
structure InTurn (s : SinkedPipeline ι) : Prop where
  increasing : ∀ i, ((s.passed i).map SharedPipeline.number).Pairwise (· < ·)
  taken : ∀ i, ∀ e ∈ s.passed i, SharedPipeline.number e ≤ s.core.taken

theorem InTurn.step (h : s.InTurn) {new : List PacketEvent}
    (hpassed : ∀ j, t.passed j = s.passed j ++ if j = i then new else [])
    (htaken : t.core.taken = s.core.taken + new.length)
    (hnumbers : new.map SharedPipeline.number = List.range' (s.core.taken + 1) new.length) :
    t.InTurn := by
  have hnew : ∀ e ∈ new, s.core.taken < SharedPipeline.number e ∧
      SharedPipeline.number e ≤ t.core.taken := by
    intro e he
    have hmem := List.mem_map_of_mem (f := SharedPipeline.number) he
    rw [hnumbers, List.mem_range'_1] at hmem
    omega
  refine ⟨fun j => ?_, fun j e he => ?_⟩
  · rw [hpassed]
    by_cases hj : j = i
    · rw [if_pos hj, List.map_append, List.pairwise_append]
      refine ⟨h.increasing j, hnumbers ▸ List.pairwise_lt_range', ?_⟩
      intro m hm n hn
      obtain ⟨e, he, rfl⟩ := List.mem_map.1 hm
      obtain ⟨f, hf, rfl⟩ := List.mem_map.1 hn
      exact Nat.lt_of_le_of_lt (h.taken j e he) (hnew f hf).1
    · rw [if_neg hj, List.append_nil]
      exact h.increasing j
  · rw [hpassed, List.mem_append] at he
    rcases he with he | he
    · have hle := h.taken j e he
      omega
    · split at he
      · exact (hnew e he).2
      · cases he

theorem nodup_sinkOutlets (logOpen ipcServer : Bool) : (sinkOutlets logOpen ipcServer).Nodup := by
  cases logOpen <;> cases ipcServer <;> decide

/-- Two threads that are recorded in one order and broadcast in the other. -/
def crossedOutlets : List (SinkedAction Bool) :=
  [.make false firstHalf.stream 0 [1] [], .make true firstHalf.stream 0 [2] [], .call false,
    .write false, .call true, .write true, .write true, .write false, .write false, .write true]

end SinkedPipeline

end PacketProbe
