import PacketProbe.LogRoundTrip
import PacketProbe.SinkOutlets

/-!
# Events as a viewer gets them

What `_on_message` makes of a line of the engine, and that the events of a capture reach a
viewer in the same form in which it would load them from the log.
-/

namespace PacketProbe
open JsonText

/-! ### Lines and signals -/

/-- The signals that `_on_message` emits, each with its object or text. -/
inductive WorkerMessage where
  | metadataReceived (obj : Value)
  | eventReceived (obj : Value)
  | resultReceived (obj : Value)
  | statusReceived (obj : Value)
  | errorOccurred (text : Text)

/-- `obj.get("type") == name`. -/
def hasMessageType (members : List (Text × Value)) (name : String) : Bool :=
  match members.lookup (codes "type") with
  | some (.string text) => text == codes name
  | _ => false

/-- `_on_message` on the bytes of a line; `undecodable` is `str(exc)` for bytes that are not UTF-8.
-/
def onMessage (undecodable : ByteString → Text) (data : ByteString) : Option WorkerMessage :=
  match Utf8.decode data with
  | none => some (.errorOccurred (codes "Message handling error: " ++ undecodable data))
  | some line =>
    if line = [] then none
    else
      match jsonLoads line with
      | none => some (.errorOccurred (codes "Failed to decode JSON line"))
      | some (.object members) =>
        if isMetadata members then some (.metadataReceived (.object members))
        else if hasMessageType members "result" then some (.resultReceived (.object members))
        else if hasMessageType members "status" then some (.statusReceived (.object members))
        else some (.eventReceived (.object members))
      | some _ => some (.errorOccurred (codes "Received malformed JSON line (not an object)"))

/-- The lines of an engine: metadata, events, and the replies and announcements of its commands as
the library dumps them. -/
inductive EngineLine where
  | metadata
  | event (event : PacketEvent)
  | control (data : ByteString) (members : List (Text × Value))

namespace EngineLine

def data : EngineLine → ByteString
  | metadata => serializeMetadataJsonl
  | event e => serializeEventJsonl e
  | control data _ => data

def members : EngineLine → List (Text × Value)
  | metadata => metadataMembers
  | event e => eventMembers e
  | control _ members => members

/-- The event of the line, if it is one. -/
def event? : EngineLine → Option PacketEvent
  | event e => some e
  | _ => none

/-- The line is written as its object: an event by the serializer, a reply by the library. -/
def Sound : EngineLine → Prop
  | metadata => True
  | event e => Recordable e
  | control data members =>
    WrittenLine data members ∧
      (hasMessageType members "result" = true ∨ hasMessageType members "status" = true)

/-- The signal of a line. -/
def Signals (line : EngineLine) (message : WorkerMessage) : Prop :=
  match line with
  | metadata => message = .metadataReceived (.object metadataMembers)
  | event e => message = .eventReceived (.object (eventMembers e))
  | control _ members =>
    message = .resultReceived (.object members) ∨ message = .statusReceived (.object members)

end EngineLine

/-- The object of an event signal. -/
def WorkerMessage.event? : WorkerMessage → Option Value
  | .eventReceived obj => some obj
  | _ => none

variable (undecodable : ByteString → Text)

/-! ### One line -/

theorem onMessage_of_writtenLine {data : ByteString} {members : List (Text × Value)}
    (h : WrittenLine data members) :
    onMessage undecodable data =
      if isMetadata members then some (.metadataReceived (.object members))
      else if hasMessageType members "result" then some (.resultReceived (.object members))
      else if hasMessageType members "status" then some (.statusReceived (.object members))
      else some (.eventReceived (.object members)) := by
  obtain ⟨line, hline, hreads⟩ := h.exists_line
  unfold onMessage
  simp only [hline, if_neg hreads.ne_nil, hreads.load_eq]

theorem lookup_type_eventMembers (e : PacketEvent) :
    (eventMembers e).lookup (codes "type") = some (.string (textOf e.type.toText)) := by
  have hsource : codes "type" ≠ codes "source" := by decide
  have hdestination : codes "type" ≠ codes "destination" := by decide
  unfold eventMembers
  rw [List.lookup_append, List.lookup_append, List.lookup_append, List.lookup_append,
    lookup_optional _ hsource, lookup_optional _ hdestination]
  rfl

/-- No event is taken for a reply. -/
theorem hasMessageType_eventMembers (e : PacketEvent) :
    hasMessageType (eventMembers e) "result" = false ∧
      hasMessageType (eventMembers e) "status" = false := by
  unfold hasMessageType
  rw [lookup_type_eventMembers]
  cases e.type <;> decide

theorem isMetadata_of_hasMessageType {members : List (Text × Value)}
    (h : hasMessageType members "result" = true ∨ hasMessageType members "status" = true) :
    isMetadata members = false := by
  unfold isMetadata
  unfold hasMessageType at h
  split
  · rename_i text htext
    rw [htext] at h
    simp only [beq_iff_eq] at h
    rcases h with rfl | rfl <;> decide
  · rfl

theorem onMessage_line {line : EngineLine} (h : line.Sound) :
    ∃ message, onMessage undecodable line.data = some message ∧ line.Signals message := by
  cases line with
  | metadata =>
    refine ⟨_, ?_, rfl⟩
    rw [EngineLine.data, onMessage_of_writtenLine undecodable writtenLine_metadata,
      if_pos (by decide : isMetadata metadataMembers = true)]
  | event e =>
    obtain ⟨hresult, hstatus⟩ := hasMessageType_eventMembers e
    refine ⟨_, ?_, rfl⟩
    rw [EngineLine.data,
      onMessage_of_writtenLine undecodable (writtenLine_event h.text h.decodedJson),
      isMetadata_eventMembers, hresult, hstatus]
    rfl
  | control data members =>
    obtain ⟨hwritten, htype⟩ := h
    rw [EngineLine.data, onMessage_of_writtenLine undecodable hwritten,
      isMetadata_of_hasMessageType htype]
    by_cases hresult : hasMessageType members "result" = true
    · exact ⟨_, by rw [if_neg Bool.false_ne_true, if_pos hresult], .inl rfl⟩
    · have hstatus := htype.resolve_left hresult
      exact ⟨_, by rw [if_neg Bool.false_ne_true, if_neg hresult, if_pos hstatus], .inr rfl⟩

theorem event?_of_signals {line : EngineLine} {message : WorkerMessage} (h : line.Signals message) :
    message.event? = line.event?.map fun e => .object (eventMembers e) := by
  cases line with
  | metadata =>
    cases h
    rfl
  | event e =>
    cases h
    rfl
  | control data members => rcases h with rfl | rfl <;> rfl

/-! ### A connection -/

/-- The events that a viewer gets from the lines of a connection. -/
def liveEvents (undecodable : ByteString → Text) (lines : List ByteString) : List Value :=
  (lines.filterMap (onMessage undecodable)).filterMap WorkerMessage.event?

/-- The events among the lines arrive in their order, and nothing else arrives as an event. -/
theorem liveEvents_lines {lines : List EngineLine} (h : ∀ line ∈ lines, line.Sound) :
    liveEvents undecodable (lines.map EngineLine.data) =
      (lines.filterMap EngineLine.event?).map fun e => .object (eventMembers e) := by
  induction lines with
  | nil => rfl
  | cons line lines ih =>
    obtain ⟨message, hmessage, hsignals⟩ := onMessage_line undecodable (h line List.mem_cons_self)
    have hrest := ih fun line hline => h line (List.mem_cons_of_mem _ hline)
    have hevent := event?_of_signals hsignals
    unfold liveEvents at hrest ⊢
    rw [List.map_cons, List.filterMap_cons_some hmessage, List.filterMap_cons, List.filterMap_cons,
      hevent, hrest]
    cases line.event? <;> rfl

/-! ### Watched and recorded -/

/-- The log of one session is loaded as the objects of its events. -/
theorem load_session (path : ByteString) {events : List PacketEvent}
    (h : ∀ e ∈ events, Recordable e) :
    ∃ file result, recordSessions path [events] = .ok ({}, some file) ∧
      loadPacketProbeJsonl (some file) = .ok result ∧ result.malformedLines = [] ∧
      result.events = events.map fun e => .object (eventMembers e) := by
  have hrecordable : ∀ session ∈ [events], ∀ e ∈ session, Recordable e :=
    List.forall_mem_singleton.2 h
  refine ⟨_, _, record_sessions path none [] rfl [events] (List.cons_ne_nil _ _),
    load_fileOf (forall₂_sessionLines hrecordable), ?_, ?_⟩
  · rw [add_sessions]
  · rw [add_sessions, List.flatten_singleton]
    rfl

/-- A viewer that was connected all along and got every line whole has got, once no thread is in the
sink, the events that it would load from a new log, each thread's in the same order, whatever
replies and announcements came in between. The events have texts in UTF-8. -/
theorem live_as_loaded {ι : Type} [DecidableEq ι] (config : DecoderConfig)
    {acts : List (SinkedAction ι)} {s : SinkedPipeline ι}
    (hrun : TransitionRuns.Run (SinkedPipeline.Step (sinkOutlets true true))
      (SinkedPipeline.start config) acts s)
    (hrest : ∀ i, s.sink.calls i = none)
    (hrecordable : ∀ entry ∈ s.sink.written .recorder, Recordable entry.2)
    {lines : List EngineLine} (hsound : ∀ line ∈ lines, line.event? = none → line.Sound)
    (hbroadcast : lines.filterMap EngineLine.event? = (s.sink.written .ipcServer).map Prod.snd)
    (path : ByteString) :
    ∃ file result, recordSessions path [(s.sink.written .recorder).map Prod.snd] =
      .ok ({}, some file) ∧
      loadPacketProbeJsonl (some file) = .ok result ∧ result.malformedLines = [] ∧
      (liveEvents undecodable (lines.map EngineLine.data)).Perm result.events ∧
      ∀ i, ((FanOut.ofThread i (s.sink.written .ipcServer)).map fun e =>
        Value.object (eventMembers e)) =
          (FanOut.ofThread i (s.sink.written .recorder)).map
            (fun e => Value.object (eventMembers e)) ∧
        ((FanOut.ofThread i (s.sink.written .ipcServer)).map fun e =>
          Value.object (eventMembers e)).Sublist
          (liveEvents undecodable (lines.map EngineLine.data)) ∧
        ((FanOut.ofThread i (s.sink.written .recorder)).map fun e =>
          Value.object (eventMembers e)).Sublist
          result.events := by
  have hnodup := SinkedPipeline.nodup_sinkOutlets true true
  obtain ⟨hsame, hperm⟩ := (SinkedPipeline.balanced_of_run hnodup hrun).agree hrest
    (show SinkOutlet.ipcServer ∈ sinkOutlets true true by decide)
    (show SinkOutlet.recorder ∈ sinkOutlets true true by decide)
  have hlines : ∀ line ∈ lines, line.Sound := by
    intro line hline
    cases line with
    | event e =>
      have hmem : e ∈ (s.sink.written .ipcServer).map Prod.snd :=
        hbroadcast ▸ List.mem_filterMap.2 ⟨.event e, hline, rfl⟩
      obtain ⟨entry, hentry, rfl⟩ := List.mem_map.1 hmem
      exact hrecordable entry (hperm.subset hentry)
    | metadata => trivial
    | control data members => exact hsound _ hline rfl
  have hevents : ∀ e ∈ (s.sink.written .recorder).map Prod.snd, Recordable e := by
    intro e he
    obtain ⟨entry, hentry, rfl⟩ := List.mem_map.1 he
    exact hrecordable entry hentry
  have hsublist :
      ∀ i o, (FanOut.ofThread i (s.sink.written o)).Sublist ((s.sink.written o).map Prod.snd) :=
    fun i o => List.Sublist.map Prod.snd List.filter_sublist
  obtain ⟨file, result, hrecord, hload, hmalformed, hloaded⟩ := load_session path hevents
  have hlive := liveEvents_lines undecodable hlines
  rw [hbroadcast] at hlive
  refine ⟨file, result, hrecord, hload, hmalformed, ?_, fun i => ⟨congrArg _ (hsame i), ?_, ?_⟩⟩
  · rw [hlive, hloaded]
    exact (hperm.map Prod.snd).map _
  · rw [hlive]
    exact (hsublist i .ipcServer).map _
  · rw [hloaded]
    exact (hsublist i .recorder).map _

/-- A viewer watches two threads that are recorded in one order and broadcast in the other. -/
theorem live_as_loaded_crossed :
    ∃ (s : SinkedPipeline Bool) (file : ByteString) (result : JsonlLoadResult),
    TransitionRuns.Run (SinkedPipeline.Step (sinkOutlets true true))
      (SinkedPipeline.start threeByteFrames)
      SinkedPipeline.crossedOutlets s ∧
    loadPacketProbeJsonl (some file) = .ok result ∧
    (liveEvents (fun _ => []) ((EngineLine.metadata :: (s.sink.written .ipcServer).map fun entry =>
      EngineLine.event entry.2).map EngineLine.data)).Perm result.events := by
  obtain ⟨s, hrun, hrest, htexts⟩ := TransitionRuns.Run.exists_of_foldlM
    (P := fun s : SinkedPipeline Bool => (∀ i, (s.sink.calls i).isNone = true) ∧
      ((s.sink.written .recorder).all fun entry => decide (entry.2.decodedJson = []) &&
        [entry.2.sessionId, entry.2.transport, entry.2.sourceEndpoint, entry.2.destinationEndpoint,
          entry.2.summary].all fun text => decide (Utf8.Valid text)) = true)
    (show ((SinkedPipeline.crossedOutlets.foldlM (SinkedPipeline.perform (sinkOutlets true true))
      (SinkedPipeline.start threeByteFrames)).any _) = true by decide +kernel)
  have hrecordable : ∀ entry ∈ s.sink.written .recorder, Recordable entry.2 := by
    intro entry hentry
    have htext := List.all_eq_true.1 htexts entry hentry
    simp only [Bool.and_eq_true, decide_eq_true_eq, List.all_cons, List.all_nil, and_true] at htext
    obtain ⟨hdecoded, hsession, htransport, hsource, hdestination, hsummary⟩ := htext
    exact ⟨⟨hsession, htransport, hsource, hdestination, hsummary⟩, hdecoded⟩
  have hbroadcast : (EngineLine.metadata :: (s.sink.written .ipcServer).map fun entry =>
      EngineLine.event entry.2).filterMap EngineLine.event? =
        (s.sink.written .ipcServer).map Prod.snd := by
    rw [List.filterMap_cons_none rfl, List.filterMap_map]
    exact congrFun (List.filterMap_eq_map (f := Prod.snd)) _
  have hsound : ∀ line ∈ EngineLine.metadata :: (s.sink.written .ipcServer).map fun entry =>
      EngineLine.event entry.2, line.event? = none → line.Sound := by
    intro line hline hnone
    rcases List.mem_cons.1 hline with rfl | hline
    · trivial
    · obtain ⟨entry, -, rfl⟩ := List.mem_map.1 hline
      cases hnone
  obtain ⟨file, result, -, hload, -, hperm, -⟩ := live_as_loaded (fun _ => []) threeByteFrames hrun
    (fun i => Option.isNone_iff_eq_none.1 (hrest i)) hrecordable hsound hbroadcast
      (ascii "capture.jsonl")
  exact ⟨s, file, result, hrun, hload, hperm⟩

end PacketProbe
