import PacketProbe.TcpServerSession

/-!
# The blocks of a server's log

The log of a server is a sequence of blocks, one for each client that took the free slot:
that it connected, what it sent, and how it went. Everything else leaves no trace, except for
the clients that are ignored.
-/

namespace PacketProbe

/-- How the active client goes. -/
inductive Departure where
  | disconnected (stamp : Stamp)
  | failed (message : ByteString) (stamp : Stamp)
  deriving DecidableEq

/-- What one client does while it is the active one. -/
structure Block where
  client : ClientId
  clientInfo : ByteString
  connected : Stamp
  received : List (Bytes × Stamp)
  departure : Option Departure
  deriving DecidableEq

namespace ServerAction

/-- Callbacks of the transport; the others are calls of the session's owner. -/
def isCallback : ServerAction → Bool
  | .connect .. | .disconnect .. | .data .. | .error .. => true
  | .send .. | .stop => false

def isConnect : ServerAction → Bool
  | .connect .. => true
  | _ => false

/-- The bytes that a data callback of this client brings. -/
def dataOf (client : ClientId) : ServerAction → Option (Bytes × Stamp)
  | .data sender payload stamp => if sender = client then some (payload, stamp) else none
  | _ => none

/-- The callback is the end of this client. -/
def departureOf (client : ClientId) : ServerAction → Option Departure
  | .disconnect gone stamp => if gone = client then some (.disconnected stamp) else none
  | .error (some gone) message stamp => if gone = client then some (.failed message stamp) else none
  | _ => none

end ServerAction

/-- The blocks of a sequence of callbacks, from a free slot on. A client that connects is the
active one until its first disconnect or error, and only then the next one can be. -/
inductive Serves : List ServerAction → List Block → Prop
  | nil : Serves [] []
  | skip {action : ServerAction} {actions : List ServerAction} {blocks : List Block}
      (hskip : action.isConnect = false) (hrest : Serves actions blocks) :
      Serves (action :: actions) blocks
  | stays {client : ClientId} {clientInfo : ByteString} {stamp : Stamp}
    {actions : List ServerAction}
      (hstays : ∀ action ∈ actions, action.departureOf client = none) :
      Serves (.connect client clientInfo stamp :: actions)
        [⟨client, clientInfo, stamp, actions.filterMap (ServerAction.dataOf client), none⟩]
  | leaves {client : ClientId} {clientInfo : ByteString} {stamp : Stamp}
      {during rest : List ServerAction} {last : ServerAction} {departure : Departure}
      {blocks : List Block} (hduring : ∀ action ∈ during, action.departureOf client = none)
      (hlast : last.departureOf client = some departure) (hrest : Serves rest blocks) :
      Serves (.connect client clientInfo stamp :: (during ++ last :: rest))
        (⟨client, clientInfo, stamp, during.filterMap (ServerAction.dataOf client),
          some departure⟩ ::
          blocks)

/-- The client whose block has no end. -/
def openClient (blocks : List Block) : Option ClientId :=
  blocks.getLast?.bind fun block => if block.departure.isSome then none else some block.client

/-- The event reports a client that came while another one was active. -/
def ignoredExtra (e : PacketEvent) : Bool :=
  e.type = .stateChange && (ascii "ignored extra TCP client ").isPrefixOf e.summary

namespace TcpServerCaptureSession

/-! ### The events of a block -/

def connectedEvent (s : TcpServerCaptureSession) (clientInfo : ByteString) (stamp : Stamp) :
    PacketEvent :=
  s.makeEvent stamp .deviceToApp .stateChange [] clientInfo s.localEndpoint
    (ascii "connected " ++ clientInfo)

def receivedEvent (s : TcpServerCaptureSession) (clientInfo : ByteString) (data : Bytes × Stamp) :
    PacketEvent :=
  s.makeEvent data.2 .deviceToApp .rawBytes data.1 clientInfo s.localEndpoint
    (ascii "DEVICE -> APP " ++ decimal data.1.length ++ ascii " bytes")

def departureEvent (s : TcpServerCaptureSession) (clientInfo : ByteString) : Departure → PacketEvent
  | .disconnected stamp => s.makeEvent stamp .deviceToApp .stateChange [] clientInfo s.localEndpoint
      (ascii "disconnected " ++ clientInfo)
  | .failed message stamp =>
    s.makeEvent stamp .deviceToApp .error [] clientInfo s.localEndpoint message

def blockEvents (s : TcpServerCaptureSession) (block : Block) : List PacketEvent :=
  s.connectedEvent block.clientInfo block.connected ::
    (block.received.map (s.receivedEvent block.clientInfo) ++
      block.departure.toList.map (s.departureEvent block.clientInfo))

/-- The log, leaving out the clients that are ignored. -/
def attributed (s : TcpServerCaptureSession) (actions : List ServerAction) : List PacketEvent :=
  ((s.emitted actions).map Emitted.event).filter fun e => !ignoredExtra e

/-- The session behind a sequence of callbacks and calls. -/
def after (s : TcpServerCaptureSession) (actions : List ServerAction) : TcpServerCaptureSession :=
  actions.foldl (fun s action => (s.perform action).1) s

/-! ### One callback -/

variable {s t : TcpServerCaptureSession} {client : ClientId} {action : ServerAction}
  {actions : List ServerAction}

theorem attributed_cons (s : TcpServerCaptureSession) (action : ServerAction)
    (actions : List ServerAction) :
    s.attributed (action :: actions) =
      ((s.perform action).2.map Emitted.event).filter (fun e => !ignoredExtra e) ++
        (s.perform action).1.attributed actions := by
  rw [attributed, emitted, List.map_append, List.filter_append]
  rfl

theorem ignoredExtra_departure (s : TcpServerCaptureSession) (clientInfo : ByteString)
    (departure : Departure) : ignoredExtra (s.departureEvent clientInfo departure) = false := by
  cases departure <;> rfl

/-- A client that connects takes the free slot. -/
theorem perform_connect (hfree : s.activeClient = none) (client : ClientId)
    (clientInfo : ByteString) (stamp : Stamp) :
    s.perform (.connect client clientInfo stamp) =
      ({ s with activeClient := some client, clientInfo },
        [⟨client, s.connectedEvent clientInfo stamp⟩]) := by
  rw [perform, onConnect, hfree]
  rfl

/-- The end of the active client frees the slot and is reported. -/
theorem perform_departure {departure : Departure} (hactive : s.activeClient = some client)
    (hdeparture : action.departureOf client = some departure) :
    s.perform action = (s.release, [⟨client, s.departureEvent s.clientInfo departure⟩]) := by
  cases action with
  | disconnect gone stamp =>
    rw [ServerAction.departureOf] at hdeparture
    split at hdeparture
    · rename_i hgone
      cases hdeparture
      subst hgone
      exact if_pos hactive
    · cases hdeparture
  | error gone message stamp =>
    cases gone with
    | none => cases hdeparture
    | some gone =>
      rw [ServerAction.departureOf] at hdeparture
      split at hdeparture
      · rename_i hgone
        cases hdeparture
        subst hgone
        exact if_pos hactive
      · cases hdeparture
  | connect _ _ _ => cases hdeparture
  | data _ _ _ => cases hdeparture
  | send _ _ _ => cases hdeparture
  | stop => cases hdeparture

/-- A callback that is not of the active client, and not another one's connect, does nothing. -/
theorem perform_of_inactive (hcallback : action.isCallback = true)
    (hconnect : action.isConnect = false)
    (hinactive : ∀ client ∈ action.client, s.activeClient ≠ some client) :
    s.perform action = (s, []) := by
  cases action with
  | connect _ _ _ => cases hconnect
  | disconnect gone stamp => exact if_neg (hinactive gone rfl)
  | data sender payload stamp => exact if_neg (hinactive sender rfl)
  | error gone message stamp =>
    cases gone with
    | none => rfl
    | some gone => exact if_neg (hinactive gone rfl)
  | send _ _ _ => cases hcallback
  | stop => cases hcallback

/-- While a client is active, the session takes only its data, and does not change. -/
theorem perform_stays (hactive : s.activeClient = some client)
    (hcallback : action.isCallback = true) (hstays : action.departureOf client = none) :
    (s.perform action).1 = s ∧
      ((s.perform action).2.map Emitted.event).filter (fun e => !ignoredExtra e) =
        (action.dataOf client).toList.map (s.receivedEvent s.clientInfo) := by
  have hothers : ∀ other : ClientId, other ≠ client → s.activeClient ≠ some other := by
    intro other hother
    rw [hactive, Ne, Option.some.injEq]
    exact hother.symm
  cases action with
  | connect extra info stamp =>
    -- Another client, which is ignored.
    rw [perform, onConnect, hactive]
    exact ⟨rfl, rfl⟩
  | disconnect gone stamp =>
    have hgone : gone ≠ client := by
      rintro rfl
      rw [ServerAction.departureOf, if_pos rfl] at hstays
      cases hstays
    rw [perform, onDisconnect, if_neg (hothers gone hgone)]
    exact ⟨rfl, rfl⟩
  | data sender payload stamp =>
    rw [perform, onData, ServerAction.dataOf]
    by_cases hsender : sender = client
    · rw [if_pos (hsender ▸ hactive), if_pos hsender]
      exact ⟨rfl, rfl⟩
    · rw [if_neg (hothers sender hsender), if_neg hsender]
      exact ⟨rfl, rfl⟩
  | error gone message stamp =>
    cases gone with
    | none => exact ⟨rfl, rfl⟩
    | some gone =>
      have hgone : gone ≠ client := by
        rintro rfl
        rw [ServerAction.departureOf, if_pos rfl] at hstays
        cases hstays
      have hsame : s.onError (some gone) message stamp = (s, []) := if_neg (hothers gone hgone)
      rw [perform, hsame]
      exact ⟨rfl, rfl⟩
  | send _ _ _ => cases hcallback
  | stop => cases hcallback

/-! ### Runs of callbacks -/

theorem received_cons (client : ClientId) (action : ServerAction) (actions : List ServerAction) :
    (action :: actions).filterMap (ServerAction.dataOf client) =
      (action.dataOf client).toList ++ actions.filterMap (ServerAction.dataOf client) := by
  rw [List.filterMap_cons]
  cases action.dataOf client <;> rfl

/-- The rest of the active client's block, and what follows it. -/
theorem attributed_of_active (hactive : s.activeClient = some client)
    (hcallbacks : ∀ action ∈ actions, action.isCallback = true) :
    (∀ action ∈ actions, action.departureOf client = none) ∧
        s.attributed actions =
          (actions.filterMap (ServerAction.dataOf client)).map (s.receivedEvent s.clientInfo) ∨
      ∃ during last departure rest, actions = during ++ last :: rest ∧
        (∀ action ∈ during, action.departureOf client = none) ∧
        last.departureOf client = some departure ∧
        s.attributed actions =
          (during.filterMap (ServerAction.dataOf client)).map (s.receivedEvent s.clientInfo) ++
            s.departureEvent s.clientInfo departure :: s.release.attributed rest := by
  induction actions with
  | nil => exact .inl ⟨List.forall_mem_nil _, rfl⟩
  | cons action actions ih =>
    have hcallback := hcallbacks action List.mem_cons_self
    cases hdeparture : action.departureOf client with
    | some departure =>
      refine .inr ⟨[], action, departure, actions, rfl, List.forall_mem_nil _, hdeparture, ?_⟩
      rw [attributed_cons, perform_departure hactive hdeparture, List.map_singleton,
        List.filter_cons_of_pos]
      · rfl
      · rw [ignoredExtra_departure]
        rfl
    | none =>
      obtain ⟨hsame, hevents⟩ := perform_stays hactive hcallback hdeparture
      have hdata : s.attributed (action :: actions) = _ := attributed_cons s action actions
      rw [hevents, hsame] at hdata
      rcases ih fun a ha => hcallbacks a (List.mem_cons_of_mem _ ha) with ⟨hstays, heq⟩ |
        ⟨during, last, departure, rest, rfl, hduring, hlast, heq⟩
      · refine .inl ⟨List.forall_mem_cons.2 ⟨hdeparture, hstays⟩, ?_⟩
        rw [hdata, heq, ← List.map_append, received_cons]
      · refine .inr ⟨action :: during, last, departure, rest, rfl,
          List.forall_mem_cons.2 ⟨hdeparture, hduring⟩, hlast, ?_⟩
        rw [hdata, heq, ← List.append_assoc, ← List.map_append, received_cons]

/-- From a free slot on, the log consists of the events of blocks, and of no others. -/
theorem exists_blocks (hfree : s.activeClient = none)
    (hcallbacks : ∀ action ∈ actions, action.isCallback = true) :
    ∃ blocks, Serves actions blocks ∧ s.attributed actions = blocks.flatMap s.blockEvents := by
  induction hn : actions.length using Nat.strongRecOn generalizing s actions with
  | _ n ih =>
    cases actions with
    | nil => exact ⟨[], .nil, rfl⟩
    | cons action actions =>
      have hrest : ∀ a ∈ actions, a.isCallback = true := fun a ha =>
        hcallbacks a (List.mem_cons_of_mem _ ha)
      rw [List.length_cons] at hn
      cases hconnect : action.isConnect with
      | false =>
        have hnothing : s.perform action = (s, []) :=
          perform_of_inactive (hcallbacks action List.mem_cons_self) hconnect
            fun client _ => by simp [hfree]
        obtain ⟨blocks, hserves, heq⟩ := ih actions.length (by omega) hfree hrest rfl
        refine ⟨blocks, .skip hconnect hserves, ?_⟩
        rw [attributed_cons, hnothing]
        exact heq
      | true =>
        cases action with
        | connect client info stamp =>
          let taken : TcpServerCaptureSession :=
            { s with activeClient := some client, clientInfo := info }
          have hconnected : s.attributed (.connect client info stamp :: actions) =
              s.connectedEvent info stamp :: taken.attributed actions := by
            rw [attributed_cons, perform_connect hfree]
            rfl
          rcases attributed_of_active (s := taken) rfl hrest with ⟨hstays, heq⟩ |
            ⟨during, last, departure, rest, rfl, hduring, hlast, heq⟩
          · refine ⟨_, .stays hstays, ?_⟩
            rw [hconnected, heq, List.flatMap_singleton, blockEvents, Option.toList_none,
              List.map_nil, List.append_nil]
            rfl
          · rw [List.length_append, List.length_cons] at hn
            obtain ⟨blocks, hserves, hlater⟩ := ih rest.length (by omega) (s := taken.release) rfl
              (fun a ha => hrest a (List.mem_append_right _ (List.mem_cons_of_mem _ ha))) rfl
            refine ⟨_, .leaves hduring hlast hserves, ?_⟩
            rw [hconnected, heq, hlater, List.flatMap_cons, blockEvents, Option.toList_some,
              List.map_cons, List.map_nil, List.cons_append, List.append_assoc]
            rfl
        | disconnect _ _ => cases hconnect
        | data _ _ _ => cases hconnect
        | error _ _ _ => cases hconnect
        | send _ _ _ => cases hconnect
        | stop => cases hconnect

/-- Only the last block can lack its end. -/
theorem departed_of_serves {blocks : List Block} (h : Serves actions blocks) :
    ∀ block ∈ blocks.dropLast, block.departure.isSome = true := by
  induction h with
  | nil => exact List.forall_mem_nil _
  | skip _ _ ih => exact ih
  | stays _ => exact List.forall_mem_nil _
  | @leaves _ _ _ _ _ _ _ blocks _ _ _ ih =>
    cases blocks with
    | nil => exact List.forall_mem_nil _
    | cons block blocks =>
      rw [List.dropLast_cons_cons]
      exact List.forall_mem_cons.2 ⟨rfl, ih⟩

/-! ### The active client -/

/-- While nothing ends the active client, the session does not change. -/
theorem after_of_active (hactive : s.activeClient = some client)
    (hcallbacks : ∀ action ∈ actions, action.isCallback = true)
    (hstays : ∀ action ∈ actions, action.departureOf client = none) : s.after actions = s := by
  induction actions with
  | nil => rfl
  | cons action actions ih =>
    obtain ⟨hcallback, hrest⟩ := List.forall_mem_cons.1 hcallbacks
    obtain ⟨hfirst, hlater⟩ := List.forall_mem_cons.1 hstays
    rw [after, List.foldl_cons, (perform_stays hactive hcallback hfirst).1]
    exact ih hrest hlater

theorem after_append (s : TcpServerCaptureSession) (before actions : List ServerAction) :
    s.after (before ++ actions) = (s.after before).after actions := List.foldl_append

/-- The active client is the one whose block has no end yet. -/
theorem activeClient_after {blocks : List Block} (h : Serves actions blocks)
    (hfree : s.activeClient = none) (hcallbacks : ∀ action ∈ actions, action.isCallback = true) :
    (s.after actions).activeClient = openClient blocks := by
  induction h generalizing s with
  | nil => exact hfree
  | @skip action _ _ hskip _ ih =>
    obtain ⟨hcallback, hrest⟩ := List.forall_mem_cons.1 hcallbacks
    have hnothing : s.perform action = (s, []) :=
      perform_of_inactive hcallback hskip fun client _ => by simp [hfree]
    rw [after, List.foldl_cons, hnothing]
    exact ih hfree hrest
  | stays hstays =>
    obtain ⟨-, hrest⟩ := List.forall_mem_cons.1 hcallbacks
    rw [after, List.foldl_cons, perform_connect hfree]
    exact congrArg activeClient (after_of_active rfl hrest hstays)
  | @leaves client clientInfo _ during rest last departure blocks hduring hlast _ ih =>
    obtain ⟨-, hrest⟩ := List.forall_mem_cons.1 hcallbacks
    obtain ⟨hbefore, hbehind⟩ := List.forall_mem_append.1 hrest
    obtain ⟨-, hlater⟩ := List.forall_mem_cons.1 hbehind
    rw [after, List.foldl_cons, perform_connect hfree]
    change (after _ (during ++ last :: rest)).activeClient = _
    rw [after_append, after_of_active rfl hbefore hduring, after, List.foldl_cons,
      perform_departure rfl hlast]
    refine (ih rfl hlater).trans ?_
    cases blocks with
    | nil => rfl
    | cons block blocks => rw [openClient, openClient, List.getLast?_cons_cons]

/-- In every sequence of callbacks, the log consists of blocks, each of one client that found the
slot free; between the blocks and beside them nothing is attributed to anyone. -/
theorem attributed_in_blocks {options : TcpServerCaptureOptions}
    (hstart : ({ options } : TcpServerCaptureSession).start true = (s, none))
    (hcallbacks : ∀ action ∈ actions, action.isCallback = true) :
    (∃ blocks, Serves actions blocks ∧ s.attributed actions = blocks.flatMap s.blockEvents ∧
      ∀ block ∈ blocks.dropLast, block.departure.isSome = true) ∧
    ∀ before action rest, actions = before ++ action :: rest → action.isConnect = false →
      ∃ blocks, Serves before blocks ∧ (s.after before).activeClient = openClient blocks ∧
        ((∀ client ∈ action.client, openClient blocks ≠ some client) →
          ((s.after before).perform action).2 = []) := by
  have hfree : s.activeClient = none := by
    have hslot := activeClient_start true { options }
    rw [hstart] at hslot
    exact hslot
  constructor
  · obtain ⟨blocks, hserves, heq⟩ := exists_blocks hfree hcallbacks
    exact ⟨blocks, hserves, heq, departed_of_serves hserves⟩
  · rintro before action rest rfl hconnect
    obtain ⟨hbefore, hbehind⟩ := List.forall_mem_append.1 hcallbacks
    obtain ⟨blocks, hserves, -⟩ := exists_blocks hfree hbefore
    have hactive := activeClient_after hserves hfree hbefore
    refine ⟨blocks, hserves, hactive, fun hinactive => ?_⟩
    rw [← hactive] at hinactive
    rw [perform_of_inactive (hbehind action List.mem_cons_self) hconnect hinactive]

/-- A second client comes too early and is ignored; after the error of the first one its
disconnect is no second end, and a third client takes the slot. -/
def overlappingClients : List ServerAction :=
  [.connect 1 (ascii "a") ⟨1, 10⟩, .connect 2 (ascii "b") ⟨2, 20⟩, .data 2 [0x42] ⟨3, 30⟩,
    .data 1 [0x41] ⟨4, 40⟩, .error (some 1) (ascii "reset") ⟨5, 50⟩, .disconnect 1 ⟨6, 60⟩,
    .connect 3 (ascii "c") ⟨7, 70⟩, .data 2 [0x43] ⟨8, 80⟩]

theorem attributed_in_blocks_overlapping :
    ∃ blocks, Serves overlappingClients blocks ∧
      listening.attributed overlappingClients = blocks.flatMap listening.blockEvents ∧
      ∀ block ∈ blocks.dropLast, block.departure.isSome = true :=
  have hstart : start true { options := { listenPort := 9000 } } = (listening, none) := rfl
  (attributed_in_blocks hstart (by decide)).1

end TcpServerCaptureSession

end PacketProbe
