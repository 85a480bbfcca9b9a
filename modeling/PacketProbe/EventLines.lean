import Mathlib.Algebra.Ring.Int.Defs
import PacketProbe.HexPayloads
import PacketProbe.LogRoundTrip

/-!
# Decoding the line of an event

The line of an event is one JSON object whatever bytes stand in its strings, when every byte
is taken for a character, and the event is read back from the object.
-/

namespace PacketProbe
open JsonText

/-! ### Reading an event -/

/-- A string of characters that are bytes. -/
def bytesOf (text : Text) : ByteString := text.map UInt8.ofNat

def bytesOfValue : Value → Option ByteString
  | .string text => some (bytesOf text)
  | _ => none

def integerOf : Value → Option ℤ
  | .integer n => some n
  | _ => none

/-- A number that fits into `std::int64_t`. -/
def int64Of (value : Value) : Option Int64 := do
  let n ← integerOf value
  if -2 ^ 63 ≤ n ∧ n < 2 ^ 63 then some (Int64.ofInt n) else none

def naturalOf (value : Value) : Option ℕ := do
  let n ← integerOf value
  if 0 ≤ n then some n.toNat else none

/-- A number that fits into `std::uint64_t`. -/
def uint64Of (value : Value) : Option UInt64 := do
  let n ← naturalOf value
  if n < UInt64.size then some (UInt64.ofNat n) else none

def uint64sOf : Value → Option (List UInt64)
  | .array items => items.mapM uint64Of
  | _ => none

def directions : List Direction := [.appToDevice, .deviceToApp, .rx, .tx]

def Direction.ofText (text : ByteString) : Option Direction :=
  directions.find? fun direction => direction.toText == text

def eventTypes : List EventType :=
  [.rawBytes, .frame, .decodedMessage, .error, .stateChange, .statistic, .latency]

def EventType.ofText (text : ByteString) : Option EventType :=
  eventTypes.find? fun type => type.toText == text

/-- The bytes that pairs of hex digits denote. -/
def hexPairs : ByteString → Option Bytes
  | [] => some []
  | [_] => none
  | high :: low :: digits => do
    let byte ← leadingByte [high, low]
    let bytes ← hexPairs digits
    some (byte :: bytes)

/-- The event that the members of an object describe. -/
def eventOf (members : List (Text × Value)) : Option PacketEvent := do
  let type ← EventType.ofText (← bytesOfValue (← members.lookup (codes "type")))
  let event : PacketEvent :=
    { sequence := ← uint64Of (← members.lookup (codes "seq"))
      parentSequence := ← uint64Of (← members.lookup (codes "parent_seq"))
      parentSequences := ← uint64sOf (← members.lookup (codes "parent_seqs"))
      timestampNs := ← int64Of (← members.lookup (codes "time_ns"))
      sessionId := ← bytesOfValue (← members.lookup (codes "session"))
      transport := ← bytesOfValue (← members.lookup (codes "transport"))
      direction := ← Direction.ofText (← bytesOfValue (← members.lookup (codes "direction")))
      type
      sourceEndpoint := ← bytesOfValue ((members.lookup (codes "source")).getD (.string []))
      destinationEndpoint :=
        ← bytesOfValue ((members.lookup (codes "destination")).getD (.string []))
      payload := ← hexPairs (← bytesOfValue (← members.lookup (codes "payload_hex")))
      summary := ← bytesOfValue (← members.lookup (codes "summary")) }
  if type = .latency then
    some { event with
      requestSequence := ← uint64Of (← members.lookup (codes "request_seq"))
      responseSequence := ← uint64Of (← members.lookup (codes "response_seq"))
      latencyNs := ← int64Of (← members.lookup (codes "latency_ns"))
      requestSize := ← naturalOf (← members.lookup (codes "request_size"))
      responseSize := ← naturalOf (← members.lookup (codes "response_size")) }
  else some event

/-- What is written of an event: the latency fields only of a latency event. -/
def PacketEvent.recorded (e : PacketEvent) : PacketEvent :=
  if e.type = .latency then e
  else
    { e with
      requestSequence := 0
      responseSequence := 0
      latencyNs := 0
      requestSize := 0
      responseSize := 0 }

/-! ### Bytes as characters -/

/-- UTF-8 for the character whose number is the byte. -/
def characterBytes (b : UInt8) : ByteString :=
  if b < 0x80 then [b] else [0xC0 + b / 64, 0x80 + b % 64]

def inCharacters (value : ByteString) : ByteString := value.flatMap characterBytes

/-- The event whose strings are UTF-8 for the bytes of this event. -/
def PacketEvent.inCharacters (e : PacketEvent) : PacketEvent :=
  { e with
    sessionId := PacketProbe.inCharacters e.sessionId
    transport := PacketProbe.inCharacters e.transport
    sourceEndpoint := PacketProbe.inCharacters e.sourceEndpoint
    destinationEndpoint := PacketProbe.inCharacters e.destinationEndpoint
    summary := PacketProbe.inCharacters e.summary }

theorem forall_byte {P : UInt8 → Prop} (h : ∀ n < 256, P (UInt8.ofNat n)) (ch : UInt8) : P ch := by
  have hch := h ch.toNat ch.toNat_lt
  rwa [UInt8.ofNat_toNat] at hch

theorem decode_characterBytes (b : UInt8) : Utf8.decode (characterBytes b) = some [b.toNat] := by
  have hall : ∀ n < 256, Utf8.decode (characterBytes (UInt8.ofNat n)) =
      some [(UInt8.ofNat n).toNat] := by
    decide +kernel
  exact forall_byte (P := fun b => Utf8.decode (characterBytes b) = some [b.toNat]) hall b

theorem decode_inCharacters (value : ByteString) :
    Utf8.decode (inCharacters value) = some (value.map UInt8.toNat) := by
  induction value with
  | nil => rfl
  | cons b value ih => exact Utf8.decode_append (decode_characterBytes b) ih

theorem textOf_inCharacters (value : ByteString) :
    textOf (inCharacters value) = value.map UInt8.toNat := by
  rw [textOf, decode_inCharacters, Option.getD_some]

theorem valid_inCharacters (value : ByteString) : Utf8.Valid (inCharacters value) :=
  Utf8.decode_isSome.1 (Option.isSome_of_mem (decode_inCharacters value))

theorem inCharacters_append (a b : ByteString) :
    inCharacters (a ++ b) = inCharacters a ++ inCharacters b :=
  List.flatMap_append

theorem inCharacters_eq_nil_iff (value : ByteString) : inCharacters value = [] ↔ value = [] := by
  cases value with
  | nil => exact iff_of_true rfl rfl
  | cons b value =>
    refine iff_of_false ?_ (List.cons_ne_nil _ _)
    have hfirst : characterBytes b ≠ [] := by
      unfold characterBytes
      split <;> exact List.cons_ne_nil _ _
    intro h
    exact hfirst (List.append_eq_nil_iff.1 h).1

/-- Seven-bit text stays as it is. -/
theorem inCharacters_sevenBit {value : ByteString} (h : ∀ b ∈ value, b < 0x80) :
    inCharacters value = value := by
  induction value with
  | nil => rfl
  | cons b value ih =>
    have hb : characterBytes b = [b] := if_pos (h b List.mem_cons_self)
    change characterBytes b ++ inCharacters value = b :: value
    rw [hb, ih fun b' hb' => h b' (List.mem_cons_of_mem _ hb')]
    rfl

theorem inCharacters_plain {value : ByteString} (h : isPlain value = true) :
    inCharacters value = value := by
  apply inCharacters_sevenBit
  intro b hb
  simp only [isPlain, List.all_eq_true, Bool.and_eq_true, decide_eq_true_eq] at h
  exact (h b hb).1.1.2

theorem inCharacters_ascii {text : String} (h : ((ascii text).all fun b => b < 0x80) = true) :
    inCharacters (ascii text) = ascii text := by
  simp only [List.all_eq_true, decide_eq_true_eq] at h
  exact inCharacters_sevenBit h

theorem inCharacters_decimal (n : ℕ) : inCharacters (decimal n) = decimal n := by
  apply inCharacters_sevenBit
  intro b hb
  have hrange := (decimalDigit hb).2
  rw [UInt8.le_iff_toNat_le] at hrange
  rw [UInt8.lt_iff_toNat_lt]
  simp only [UInt8.reduceToNat] at hrange ⊢
  omega

theorem inCharacters_signedDecimal (n : ℤ) : inCharacters (signedDecimal n) = signedDecimal n := by
  cases n with
  | ofNat n => exact inCharacters_decimal n
  | negSucc n =>
    rw [signedDecimal, inCharacters_append, inCharacters_decimal, inCharacters_ascii (by decide)]

theorem inCharacters_parents (parents : List UInt64) :
    inCharacters (serializeParents parents) = serializeParents parents := by
  cases parents with
  | nil => rfl
  | cons parent parents =>
    rw [serializeParents, inCharacters_append, inCharacters_decimal]
    congr 1
    induction parents with
    | nil => rfl
    | cons parent parents ih =>
      rw [List.flatMap_cons, inCharacters_append, inCharacters_append, inCharacters_decimal,
        inCharacters_ascii (by decide), ih]

/-- A byte is escaped as its character is. -/
theorem escapeJson_inCharacters (value : ByteString) :
    escapeJson (inCharacters value) = inCharacters (escapeJson value) := by
  have hall : ∀ n < 256, escapeJson (characterBytes (UInt8.ofNat n)) =
      inCharacters (escapeByte (UInt8.ofNat n)) := by decide +kernel
  induction value with
  | nil => rfl
  | cons b value ih =>
    have hb :=
      forall_byte (P := fun b => escapeJson (characterBytes b) = inCharacters (escapeByte b)) hall b
    have hsplit : escapeJson (inCharacters (b :: value)) =
        escapeJson (characterBytes b) ++ escapeJson (inCharacters value) := List.flatMap_append
    rw [hsplit, hb, ih]
    exact (inCharacters_append _ _).symm

theorem inCharacters_ite (c : Prop) [Decidable c] (a b : ByteString) :
    inCharacters (if c then a else b) = if c then inCharacters a else inCharacters b := by
  split <;> rfl

/-- The line of the event in characters is the line in characters. -/
theorem serializeEventJsonl_inCharacters {e : PacketEvent} (h : e.decodedJson = []) :
    serializeEventJsonl e.inCharacters = inCharacters (serializeEventJsonl e) := by
  have hdirection := inCharacters_plain (isPlain_direction e.direction)
  have htype := inCharacters_plain (isPlain_type e.type)
  have hpayload := inCharacters_plain (isPlain_toHex e.payload)
  have hnil : inCharacters [] = [] := rfl
  unfold serializeEventJsonl
  simp (disch := decide) only [PacketEvent.inCharacters, h, if_true, inCharacters_append,
    inCharacters_ite, inCharacters_ascii, inCharacters_decimal, inCharacters_signedDecimal,
    inCharacters_parents, inCharacters_eq_nil_iff, escapeJson_inCharacters, hdirection, htype,
    hpayload, hnil]

/-! ### The members of an event -/

theorem bytesOf_map_toNat (value : ByteString) : bytesOf (value.map UInt8.toNat) = value := by
  have hid : UInt8.ofNat ∘ UInt8.toNat = id := by
    funext b
    exact UInt8.ofNat_toNat
  rw [bytesOf, List.map_map, hid, List.map_id]

theorem bytesOf_inCharacters (value : ByteString) :
    bytesOf (textOf (inCharacters value)) = value := by
  rw [textOf_inCharacters, bytesOf_map_toNat]

theorem bytesOf_plain {value : ByteString} (h : isPlain value = true) :
    bytesOf (textOf value) = value := by
  rw [textOf, (written_of_isPlain h).1.decoded, Option.getD_some, bytesOf_map_toNat]

theorem ofText_direction (direction : Direction) :
    Direction.ofText direction.toText = some direction := by
  cases direction <;> decide

theorem ofText_type (type : EventType) : EventType.ofText type.toText = some type := by
  cases type <;> decide

theorem naturalOf_naturalNumber (n : ℕ) : naturalOf (naturalNumber n) = some n := by
  change (if 0 ≤ (n : ℤ) then some (n : ℤ).toNat else none) = some n
  rw [if_pos (Int.natCast_nonneg n), Int.toNat_natCast]

theorem uint64Of_naturalNumber (n : UInt64) : uint64Of (naturalNumber n.toNat) = some n := by
  unfold uint64Of
  rw [naturalOf_naturalNumber]
  change (if n.toNat < UInt64.size then some (UInt64.ofNat n.toNat) else none) = some n
  rw [if_pos n.toNat_lt, UInt64.ofNat_toNat]

theorem uint64sOf_naturalNumbers (numbers : List UInt64) :
    uint64sOf (.array (numbers.map fun n => naturalNumber n.toNat)) = some numbers := by
  change (numbers.map fun n => naturalNumber n.toNat).mapM uint64Of = some numbers
  induction numbers with
  | nil => rfl
  | cons n numbers ih =>
    rw [List.map_cons, List.mapM_cons, uint64Of_naturalNumber, ih]
    rfl

theorem hexPairs_toHex (payload : Bytes) : hexPairs (toHex payload false) = some payload := by
  have hall : ∀ n < 256, leadingByte [hexDigit (n / 16), hexDigit (n % 16)] =
      some (UInt8.ofNat n) := by
    decide +kernel
  induction payload with
  | nil => rfl
  | cons byte payload ih =>
    have hbyte := hall byte.toNat byte.toNat_lt
    rw [UInt8.ofNat_toNat] at hbyte
    have hsplit : toHex (byte :: payload) false =
        hexDigit (byte.toNat / 16) :: hexDigit (byte.toNat % 16) :: toHex payload false := rfl
    rw [hsplit, hexPairs, hbyte, ih]
    rfl

/-- Of members of different names, each is found under its name. -/
theorem lookup_of_mem {members : List (Text × Value)} {name : Text} {value : Value}
    (hnodup : (members.map Prod.fst).Nodup) (h : (name, value) ∈ members) :
    members.lookup name = some value := by
  induction members with
  | nil => cases h
  | cons member members ih =>
    rw [List.map_cons, List.nodup_cons] at hnodup
    rcases List.mem_cons.1 h with rfl | hmem
    · rw [List.lookup_cons, beq_self_eq_true]
    · have hother : name ≠ member.1 := by
        rintro rfl
        exact hnodup.1 (List.mem_map.2 ⟨_, hmem, rfl⟩)
      rw [List.lookup_cons, beq_false_of_ne hother]
      exact ih hnodup.2 hmem

theorem lookup_conditional (c : Prop) [Decidable c] {name : Text} {members : List (Text × Value)}
    (h : members.lookup name = none) : (if c then members else []).lookup name = none := by
  split
  · exact h
  · rfl

section Lookup

variable (e : PacketEvent)

theorem lookup_eventMembers {name : Text} {value : Value} (h : (name, value) ∈ eventMembers e) :
    (eventMembers e).lookup name = some value :=
  lookup_of_mem (nodup_eventMembers e) h

/-- An empty string is not written. -/
theorem lookup_source : ((eventMembers e).lookup (codes "source")).getD (.string []) =
    .string (textOf e.sourceEndpoint) := by
  by_cases hsource : e.sourceEndpoint = []
  · have hdestination : codes "source" ≠ codes "destination" := by decide
    have hnone : (eventMembers e).lookup (codes "source") = none := by
      unfold eventMembers
      rw [if_pos hsource, List.lookup_append, List.lookup_append, List.lookup_append,
        List.lookup_append, lookup_optional _ hdestination, lookup_conditional _ rfl]
      rfl
    rw [hnone, hsource]
    rfl
  · have hmem : (codes "source", .string (textOf e.sourceEndpoint)) ∈ eventMembers e := by
      simp only [eventMembers, if_neg hsource, List.mem_append, List.mem_cons, true_or, or_true]
    rw [lookup_eventMembers e hmem, Option.getD_some]

theorem lookup_destination : ((eventMembers e).lookup (codes "destination")).getD (.string []) =
    .string (textOf e.destinationEndpoint) := by
  by_cases hdestination : e.destinationEndpoint = []
  · have hsource : codes "destination" ≠ codes "source" := by decide
    have hnone : (eventMembers e).lookup (codes "destination") = none := by
      unfold eventMembers
      rw [if_pos hdestination, List.lookup_append, List.lookup_append, List.lookup_append,
        List.lookup_append, lookup_optional _ hsource, lookup_conditional _ rfl]
      rfl
    rw [hnone, hdestination]
    rfl
  · have hmem : (codes "destination", .string (textOf e.destinationEndpoint)) ∈ eventMembers e := by
      simp only [eventMembers, if_neg hdestination, List.mem_append, List.mem_cons, true_or,
        or_true]
    rw [lookup_eventMembers e hmem, Option.getD_some]

/-- The members that every event has. -/
theorem lookup_common :
    (eventMembers e).lookup (codes "seq") = some (naturalNumber e.sequence.toNat) ∧
    (eventMembers e).lookup (codes "parent_seq") = some (naturalNumber e.parentSequence.toNat) ∧
    (eventMembers e).lookup (codes "parent_seqs") =
      some (.array (e.parentSequences.map fun parent => naturalNumber parent.toNat)) ∧
    (eventMembers e).lookup (codes "time_ns") = some (.integer e.timestampNs.toInt) ∧
    (eventMembers e).lookup (codes "session") = some (.string (textOf e.sessionId)) ∧
    (eventMembers e).lookup (codes "transport") = some (.string (textOf e.transport)) ∧
    (eventMembers e).lookup (codes "direction") = some (.string (textOf e.direction.toText)) ∧
    (eventMembers e).lookup (codes "type") = some (.string (textOf e.type.toText)) ∧
    (eventMembers e).lookup (codes "payload_hex") =
      some (.string (textOf (toHex e.payload false))) ∧
    (eventMembers e).lookup (codes "summary") = some (.string (textOf e.summary)) := by
  refine ⟨?_, ?_, ?_, ?_, ?_, ?_, ?_, ?_, ?_, ?_⟩ <;>
    exact lookup_eventMembers e (by
      simp only [eventMembers, List.mem_append, List.mem_cons, true_or, or_true])

theorem lookup_latency (h : e.type = .latency) :
    (eventMembers e).lookup (codes "request_seq") = some (naturalNumber e.requestSequence.toNat) ∧
    (eventMembers e).lookup (codes "response_seq") = some (naturalNumber e.responseSequence.toNat) ∧
    (eventMembers e).lookup (codes "latency_ns") = some (.integer e.latencyNs.toInt) ∧
    (eventMembers e).lookup (codes "request_size") = some (naturalNumber e.requestSize) ∧
    (eventMembers e).lookup (codes "response_size") = some (naturalNumber e.responseSize) := by
  refine ⟨?_, ?_, ?_, ?_, ?_⟩ <;>
    exact lookup_eventMembers e (by
      simp only [eventMembers, if_pos h, List.mem_append, List.mem_cons, true_or, or_true])

end Lookup

theorem bind_of_eq_some {α β : Type} {x : Option α} {a : α} (h : x = some a) {f : α → Option β} :
    (x >>= f) = f a := by
  rw [h]
  rfl

theorem int64Of_toInt (n : Int64) : int64Of (.integer n.toInt) = some n :=
  (if_pos ⟨n.le_toInt, n.toInt_lt⟩).trans (congrArg some n.ofInt_toInt)

/-- The members of the event in characters describe the event. -/
theorem eventOf_eventMembers {e : PacketEvent} (h : e.decodedJson = []) :
    eventOf (eventMembers e.inCharacters) = some e.recorded := by
  obtain ⟨hseq, hparent, hparents, htime, hsession, htransport, hdirection, htype, hpayload,
    hsummary⟩ :=
    lookup_common e.inCharacters
  have hstring : ∀ value : ByteString,
      bytesOfValue (.string (textOf (PacketProbe.inCharacters value))) = some value :=
    fun value => congrArg some (bytesOf_inCharacters value)
  have hsessionIdText : bytesOfValue (.string (textOf e.inCharacters.sessionId)) =
    some e.sessionId := hstring _
  have htransportText : bytesOfValue (.string (textOf e.inCharacters.transport)) =
    some e.transport := hstring _
  have hsourceEndpointText :
      bytesOfValue (.string (textOf e.inCharacters.sourceEndpoint)) = some e.sourceEndpoint :=
    hstring _
  have hdestinationEndpointText :
      bytesOfValue (.string (textOf e.inCharacters.destinationEndpoint)) =
        some e.destinationEndpoint :=
    hstring _
  have hsummaryText : bytesOfValue (.string (textOf e.inCharacters.summary)) = some e.summary :=
    hstring _
  have hname : ∀ {name : ByteString}, isPlain name = true →
      bytesOfValue (.string (textOf name)) = some name :=
    fun hplain => congrArg some (bytesOf_plain hplain)
  unfold eventOf
  rw [bind_of_eq_some htype, bind_of_eq_some (hname (isPlain_type _)),
    bind_of_eq_some (ofText_type _), bind_of_eq_some hseq,
    bind_of_eq_some (uint64Of_naturalNumber _), bind_of_eq_some hparent,
    bind_of_eq_some (uint64Of_naturalNumber _), bind_of_eq_some hparents,
    bind_of_eq_some (uint64sOf_naturalNumbers _), bind_of_eq_some htime,
    bind_of_eq_some (int64Of_toInt _), bind_of_eq_some hsession, bind_of_eq_some hsessionIdText,
    bind_of_eq_some htransport, bind_of_eq_some htransportText,
    bind_of_eq_some hdirection, bind_of_eq_some (hname (isPlain_direction _)),
    bind_of_eq_some (ofText_direction _),
    lookup_source, bind_of_eq_some hsourceEndpointText,
    lookup_destination, bind_of_eq_some hdestinationEndpointText,
    bind_of_eq_some hpayload, bind_of_eq_some (hname (isPlain_toHex _)),
    bind_of_eq_some (hexPairs_toHex _), bind_of_eq_some hsummary, bind_of_eq_some hsummaryText]
  by_cases hlatency : e.type = .latency
  · have hlatency' : e.inCharacters.type = .latency := hlatency
    obtain ⟨hrequest, hresponse, hduration, hrequestSize, hresponseSize⟩ :=
      lookup_latency e.inCharacters hlatency'
    rw [if_pos hlatency',
      bind_of_eq_some hrequest, bind_of_eq_some (uint64Of_naturalNumber _),
      bind_of_eq_some hresponse, bind_of_eq_some (uint64Of_naturalNumber _),
      bind_of_eq_some hduration, bind_of_eq_some (int64Of_toInt _),
      bind_of_eq_some hrequestSize, bind_of_eq_some (naturalOf_naturalNumber _),
      bind_of_eq_some hresponseSize, bind_of_eq_some (naturalOf_naturalNumber _)]
    simp only [PacketEvent.recorded, if_pos hlatency, PacketEvent.inCharacters, ← h]
  · have hlatency' : ¬e.inCharacters.type = .latency := hlatency
    rw [if_neg hlatency']
    simp only [PacketEvent.recorded, if_neg hlatency, PacketEvent.inCharacters, ← h]

/-! ### The line of an event -/

variable {e e' : PacketEvent}

theorem validText_inCharacters (e : PacketEvent) : ValidText e.inCharacters where
  sessionId := valid_inCharacters _
  transport := valid_inCharacters _
  sourceEndpoint := valid_inCharacters _
  destinationEndpoint := valid_inCharacters _
  summary := valid_inCharacters _

/-- The line, every byte taken for a character, is an object and has no control characters. -/
theorem parse_serializeEventJsonl (h : e.decodedJson = []) :
    (∀ b ∈ serializeEventJsonl e, 0x20 ≤ b) ∧
      parse ((serializeEventJsonl e).map UInt8.toNat) =
        some (.object (eventMembers e.inCharacters)) := by
  obtain ⟨middle, hwritten, hrenders⟩ :=
    writtenLine_event (e := e.inCharacters) (validText_inCharacters e) h
  have htext : (serializeEventJsonl e).map UInt8.toNat = 0x7B :: middle ++ [0x7D] := by
    have hdecoded := hwritten.decoded
    rw [serializeEventJsonl_inCharacters h, decode_inCharacters] at hdecoded
    exact Option.some.inj hdecoded
  rw [htext]
  refine ⟨?_, hrenders.parse⟩
  intro b hb
  apply UInt8.le_iff_toNat_le.2
  apply hwritten.plain
  rw [← htext]
  exact List.mem_map_of_mem hb

/-- The line of an event is one object, and it says all of the event that is recorded. -/
theorem serializeEventJsonl_faithful (h : e.decodedJson = []) (h' : e'.decodedJson = []) :
    (∀ b ∈ serializeEventJsonl e, 0x20 ≤ b) ∧
    (∃ members, parse ((serializeEventJsonl e).map UInt8.toNat) = some (.object members) ∧
      (members.map Prod.fst).Nodup ∧ eventOf members = some e.recorded) ∧
    (e.recorded ≠ e'.recorded → serializeEventJsonl e ≠ serializeEventJsonl e') := by
  obtain ⟨hplain, hparse⟩ := parse_serializeEventJsonl h
  refine ⟨hplain, ⟨_, hparse, nodup_eventMembers _, eventOf_eventMembers h⟩, ?_⟩
  intro hdifferent hsame
  have hparse' := (parse_serializeEventJsonl h').2
  rw [← hsame, hparse] at hparse'
  have hmembers := Value.object.inj (Option.some.inj hparse')
  have hevent := eventOf_eventMembers h
  rw [hmembers, eventOf_eventMembers h'] at hevent
  exact hdifferent (Option.some.inj hevent).symm

/-- An event whose strings are no UTF-8, and a latency event. -/
theorem serializeEventJsonl_faithful_bytes :
    ∃ members,
      parse ((serializeEventJsonl { summary := [0xFF, 0x22, 0x00, 0xC3] }).map UInt8.toNat) =
        some (.object members) ∧
      eventOf members = some { summary := [0xFF, 0x22, 0x00, 0xC3] } ∧
      serializeEventJsonl { summary := [0xFF, 0x22, 0x00, 0xC3] } ≠
        serializeEventJsonl latencyEvent := by
  have hdecoded : PacketEvent.decodedJson { summary := [0xFF, 0x22, 0x00, 0xC3] } = [] := rfl
  have hlatency : latencyEvent.decodedJson = [] := rfl
  obtain ⟨-, ⟨members, hparse, -, hevent⟩, hlines⟩ := serializeEventJsonl_faithful hdecoded hlatency
  exact ⟨members, hparse, hevent, hlines (by decide)⟩

end PacketProbe
