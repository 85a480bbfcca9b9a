import PacketProbe.JsonRendering
import PacketProbe.JsonlLogLoader
import PacketProbe.JsonlRecorder

/-!
# What the log loader reads of a recorded log

Every line the recorder writes is the text of one object. The loader finds the lines again,
because no control character is written inside of them, and reads back the members of the
object, whatever the strings of the event are.
-/

namespace PacketProbe
open JsonText

/-! ### Written text -/

/-- The bytes of a text without control characters. -/
structure Written (bytes : ByteString) (text : Text) : Prop where
  decoded : Utf8.decode bytes = some text
  plain : ∀ c ∈ text, 0x20 ≤ c

variable {bytes bytes' : ByteString} {text text' : Text} {value : Value}

theorem Written.append (h : Written bytes text) (h' : Written bytes' text') :
    Written (bytes ++ bytes') (text ++ text') where
  decoded := Utf8.decode_append h.decoded h'.decoded
  plain c hc := (List.mem_append.1 hc).elim (h.plain c) (h'.plain c)

theorem written_nil : Written [] [] := ⟨rfl, fun _ hc => nomatch hc⟩

/-- Seven-bit text without control characters. -/
theorem written_sevenBit (h : ∀ b ∈ bytes, 0x20 ≤ b ∧ b < 0x80) :
    Written bytes (bytes.map UInt8.toNat) where
  decoded := Utf8.decode_sevenBit fun b hb => (h b hb).2
  plain c hc := by
    obtain ⟨b, hb, rfl⟩ := List.mem_map.1 hc
    exact UInt8.le_iff_toNat_le.1 (h b hb).1

theorem written_ascii (h : (bytes.all fun b => 0x20 ≤ b && b < 0x80) = true) :
    Written bytes (bytes.map UInt8.toNat) := by
  simp only [List.all_eq_true, Bool.and_eq_true, decide_eq_true_eq] at h
  exact written_sevenBit h

theorem written_decimal (n : ℕ) : Written (decimal n) (numeral n) := by
  have htext : (decimal n).map UInt8.toNat = numeral n := by
    unfold decimal numeral
    rw [List.map_map]
    exact List.map_congr_left fun c hc => toNat_digitByte (isDigit_of_mem_digits hc)
  rw [← htext]
  apply written_sevenBit
  intro b hb
  have hrange := decimalDigit hb
  rw [UInt8.le_iff_toNat_le, UInt8.le_iff_toNat_le] at hrange
  rw [UInt8.le_iff_toNat_le, UInt8.lt_iff_toNat_lt]
  simp only [UInt8.reduceToNat] at hrange ⊢
  omega

theorem written_signedDecimal (n : ℤ) : Written (signedDecimal n) (integerText n) := by
  cases n with
  | ofNat n => exact written_decimal n
  | negSucc n =>
    have hminus : Written (ascii "-") [0x2D] := written_ascii (by decide)
    exact hminus.append (written_decimal (n + 1))

/-! ### Escaped text -/

/-- What `escape_json` writes for a character. -/
def escapeCode (c : ℕ) : Text :=
  if c < 0x80 then (escapeByte (UInt8.ofNat c)).map UInt8.toNat else [c]

theorem replaces_escape : Utf8.Replaces escapeByte escapeCode where
  sevenBit b hb := by
    have hall : ∀ n < 128, ((escapeByte (UInt8.ofNat n)).all fun b' => b' < 0x80) = true := by
      decide +kernel
    have hlt : b.toNat < 128 := UInt8.lt_iff_toNat_lt.1 hb
    have hescape := hall b.toNat hlt
    rw [UInt8.ofNat_toNat] at hescape
    refine ⟨fun b' hb' => of_decide_eq_true (List.all_eq_true.1 hescape b' hb'), ?_⟩
    rw [escapeCode, if_pos hlt, UInt8.ofNat_toNat]
  byte b hb := by
    have hall : ∀ n < 256, ¬ n < 128 → escapeByte (UInt8.ofNat n) = [UInt8.ofNat n] := by
      decide +kernel
    have hescape := hall b.toNat b.toNat_lt fun h => hb (UInt8.lt_iff_toNat_lt.2 h)
    rwa [UInt8.ofNat_toNat] at hescape
  code c hc := if_neg (by omega)

/-- The character stands for itself or is escaped in one of the two ways. -/
def isEscapeOf (n : ℕ) : Text → Bool
  | [d] => d == n && decide (0x20 ≤ d ∧ d ≠ 0x22 ∧ d ≠ 0x5C)
  | [a, d] => a == 0x5C && unescape d == some n
  | [a, u, d, e, f, g] => a == 0x5C && u == 0x75 && hexUnit d e f g == some n
  | _ => false

/-- A character is read back from what is written for it. -/
theorem quotes_escapeCode (c : ℕ) {escaped : Text} (h : Quotes escaped text) :
    Quotes (escapeCode c ++ escaped) (c :: text) := by
  have hall : ∀ n < 128, isEscapeOf n (escapeCode n) = true := by decide +kernel
  by_cases hc : c < 128
  · have hescape := hall c hc
    unfold isEscapeOf at hescape
    split at hescape
    · rename_i d hcode
      simp only [Bool.and_eq_true, beq_iff_eq, decide_eq_true_eq] at hescape
      obtain ⟨rfl, hlow, hquote, hmark⟩ := hescape
      rw [hcode]
      exact h.cons (by omega) hquote hmark
    · rename_i a d hcode
      simp only [Bool.and_eq_true, beq_iff_eq] at hescape
      obtain ⟨rfl, hunescape⟩ := hescape
      rw [hcode]
      exact h.cons_escape hunescape
    · rename_i a u d e f g hcode
      simp only [Bool.and_eq_true, beq_iff_eq] at hescape
      obtain ⟨⟨rfl, rfl⟩, hunit⟩ := hescape
      rw [hcode]
      refine h.cons_unicode hunit fun next => if_neg ?_
      omega
    · cases hescape
  · rw [escapeCode, if_neg hc]
    exact h.cons (by omega) (by omega) (by omega)

theorem quotes_escape (text : Text) : Quotes (text.flatMap escapeCode) text := by
  induction text with
  | nil => exact quotes_nil
  | cons c text ih => exact quotes_escapeCode c ih

theorem written_escapeJson (h : Utf8.decode bytes = some text) :
    Written (escapeJson bytes) (text.flatMap escapeCode) where
  decoded := replaces_escape.decode h
  plain c hc := by
    have hall : ∀ n < 128, ∀ c ∈ escapeCode n, 0x20 ≤ c := by decide +kernel
    obtain ⟨code, -, hmem⟩ := List.mem_flatMap.1 hc
    by_cases hcode : code < 128
    · exact hall code hcode c hmem
    · rw [escapeCode, if_neg hcode, List.mem_singleton] at hmem
      omega

/-! ### Members -/

/-- A member as it is written. -/
def memberText (name : String) (rendered : ByteString) : ByteString :=
  ascii "\"" ++ ascii name ++ ascii "\":" ++ rendered

def quoted (escaped : ByteString) : ByteString := ascii "\"" ++ escaped ++ ascii "\""

/-- The bytes of a text that renders the value. -/
def WrittenValue (bytes : ByteString) (value : Value) : Prop :=
  ∃ text, Written bytes text ∧ Renders text value

def WrittenMember (bytes : ByteString) (member : Text × Value) : Prop :=
  ∃ text, Written bytes text ∧ RendersMember text member

theorem writtenValue_signedDecimal (n : ℤ) : WrittenValue (signedDecimal n) (.integer n) :=
  ⟨_, written_signedDecimal n, renders_integer n⟩

theorem writtenValue_decimal (n : ℕ) : WrittenValue (decimal n) (.integer n) :=
  writtenValue_signedDecimal n

theorem written_quotationMark : Written (ascii "\"") [0x22] := written_ascii (by decide)

theorem writtenValue_quoted {escaped : Text} (h : Written bytes escaped)
    (hquotes : Quotes escaped text) :
    WrittenValue (quoted bytes) (.string text) :=
  ⟨_, (written_quotationMark.append h).append written_quotationMark, renders_string hquotes⟩

theorem writtenValue_escaped (h : Utf8.decode bytes = some text) :
    WrittenValue (quoted (escapeJson bytes)) (.string text) :=
  writtenValue_quoted (written_escapeJson h) (quotes_escape text)

/-- A text that needs no escapes. -/
def isPlain (bytes : ByteString) : Bool :=
  bytes.all fun b => 0x20 ≤ b && b < 0x80 && b != 0x22 && b != 0x5C

theorem written_of_isPlain (h : isPlain bytes = true) :
    Written bytes (bytes.map UInt8.toNat) ∧
      Quotes (bytes.map UInt8.toNat) (bytes.map UInt8.toNat) := by
  simp only [isPlain, List.all_eq_true, Bool.and_eq_true, bne_iff_ne, decide_eq_true_eq] at h
  refine ⟨written_sevenBit fun b hb => ⟨(h b hb).1.1.1, (h b hb).1.1.2⟩, ?_⟩
  induction bytes with
  | nil => exact quotes_nil
  | cons b bytes ih =>
    obtain ⟨⟨⟨hlow, -⟩, hquote⟩, hmark⟩ := h b List.mem_cons_self
    have hlow := UInt8.le_iff_toNat_le.1 hlow
    rw [ne_eq, ← UInt8.toNat_inj] at hquote hmark
    exact (ih fun b hb => h b (List.mem_cons_of_mem _ hb)).cons (Nat.not_lt.2 hlow) hquote hmark

theorem writtenValue_plain (h : isPlain bytes = true) :
    WrittenValue (quoted bytes) (.string (bytes.map UInt8.toNat)) :=
  writtenValue_quoted (written_of_isPlain h).1 (written_of_isPlain h).2

theorem writtenMember (name : String) (h : WrittenValue bytes value)
    (hname : isPlain (ascii name) = true ∧ (ascii name).map UInt8.toNat = codes name) :
    WrittenMember (memberText name bytes) (codes name, value) := by
  obtain ⟨text, hwritten, hrenders⟩ := h
  obtain ⟨hplain, hcodes⟩ := hname
  obtain ⟨hname, hquotes⟩ := written_of_isPlain hplain
  rw [hcodes] at hname hquotes
  have hcolon : Written (ascii "\":") [0x22, 0x3A] := written_ascii (by decide)
  refine ⟨_, ((written_quotationMark.append hname).append hcolon).append hwritten, ?_⟩
  refine ⟨⟨_, _, ?_, hquotes, hrenders⟩⟩
  simp only [List.append_assoc, List.cons_append, List.nil_append]

/-! ### Arrays and objects -/

def joined : List ByteString → ByteString
  | [] => []
  | first :: others => first ++ others.flatMap (ascii "," ++ ·)

theorem written_others {parts : List ByteString} {texts : List Text}
    (h : List.Forall₂ Written parts texts) :
    Written (parts.flatMap (ascii "," ++ ·)) (texts.flatMap (0x2C :: ·)) := by
  have hcomma : Written (ascii ",") [0x2C] := written_ascii (by decide)
  induction h with
  | nil => exact written_nil
  | cons h hs ih =>
    rw [List.flatMap_cons, List.flatMap_cons]
    exact (hcomma.append h).append ih

theorem written_joined {parts : List ByteString} {texts : List Text}
    (h : List.Forall₂ Written parts texts) : Written (joined parts) (commaSeparated texts) := by
  cases h with
  | nil => exact written_nil
  | cons h hs => exact h.append (written_others hs)

theorem exists_texts {α : Type} {Shows : Text → α → Prop} {parts : List ByteString} {items : List α}
    (h : List.Forall₂ (fun part item => ∃ text, Written part text ∧ Shows text item) parts items) :
    ∃ texts, List.Forall₂ Written parts texts ∧ List.Forall₂ Shows texts items := by
  induction h with
  | nil => exact ⟨[], .nil, .nil⟩
  | cons h hs ih =>
    obtain ⟨text, hwritten, hshows⟩ := h
    obtain ⟨texts, hparts, hitems⟩ := ih
    exact ⟨text :: texts, .cons hwritten hparts, .cons hshows hitems⟩

theorem writtenValue_array {parts : List ByteString} {items : List Value}
    (h : List.Forall₂ WrittenValue parts items) :
    WrittenValue (ascii "[" ++ joined parts ++ ascii "]") (.array items) := by
  obtain ⟨texts, hwritten, hrenders⟩ := exists_texts h
  have hopen : Written (ascii "[") [0x5B] := written_ascii (by decide)
  have hclose : Written (ascii "]") [0x5D] := written_ascii (by decide)
  exact ⟨_, (hopen.append (written_joined hwritten)).append hclose, renders_array hrenders⟩

/-- A line: an object between braces. -/
def WrittenLine (bytes : ByteString) (members : List (Text × Value)) : Prop :=
  ∃ middle, Written bytes (0x7B :: middle ++ [0x7D]) ∧
    Renders (0x7B :: middle ++ [0x7D]) (.object members)

theorem writtenLine {parts : List ByteString} {members : List (Text × Value)}
    (h : List.Forall₂ WrittenMember parts members) (hnodup : (members.map Prod.fst).Nodup) :
    WrittenLine (ascii "\x7b" ++ joined parts ++ ascii "\x7d") members := by
  obtain ⟨texts, hwritten, hrenders⟩ := exists_texts h
  have hopen : Written (ascii "\x7b") [0x7B] := written_ascii (by decide)
  have hclose : Written (ascii "\x7d") [0x7D] := written_ascii (by decide)
  exact ⟨_, (hopen.append (written_joined hwritten)).append hclose, renders_object hrenders hnodup⟩

/-! ### Events -/

/-- The strings of the event are UTF-8. -/
structure ValidText (e : PacketEvent) : Prop where
  sessionId : Utf8.Valid e.sessionId
  transport : Utf8.Valid e.transport
  sourceEndpoint : Utf8.Valid e.sourceEndpoint
  destinationEndpoint : Utf8.Valid e.destinationEndpoint
  summary : Utf8.Valid e.summary

/-- A string as Python sees it. -/
def textOf (value : ByteString) : Text := (Utf8.decode value).getD []

def naturalNumber (n : ℕ) : Value := .integer n

/-- The fields of an event as members of an object. -/
def eventMembers (e : PacketEvent) : List (Text × Value) :=
  [(codes "seq", naturalNumber e.sequence.toNat),
    (codes "parent_seq", naturalNumber e.parentSequence.toNat),
    (codes "parent_seqs", .array (e.parentSequences.map fun parent => naturalNumber parent.toNat)),
    (codes "time_ns", .integer e.timestampNs.toInt),
    (codes "session", .string (textOf e.sessionId)),
    (codes "transport", .string (textOf e.transport)),
    (codes "direction", .string (textOf e.direction.toText))] ++
  (if e.sourceEndpoint = [] then [] else [(codes "source", .string (textOf e.sourceEndpoint))]) ++
  (if e.destinationEndpoint = [] then []
    else [(codes "destination", .string (textOf e.destinationEndpoint))]) ++
  [(codes "type", .string (textOf e.type.toText)),
    (codes "size", naturalNumber e.payload.length),
    (codes "payload_hex", .string (textOf (toHex e.payload false))),
    (codes "summary", .string (textOf e.summary))] ++
  (if e.type = .latency then
    [(codes "request_seq", naturalNumber e.requestSequence.toNat),
      (codes "response_seq", naturalNumber e.responseSequence.toNat),
      (codes "latency_ns", .integer e.latencyNs.toInt),
      (codes "latency_us", .integer (e.latencyNs / 1000).toInt),
      (codes "request_size", naturalNumber e.requestSize),
      (codes "response_size", naturalNumber e.responseSize)]
    else [])

/-- The same members as they are written. -/
def eventParts (e : PacketEvent) : List ByteString :=
  [memberText "seq" (decimal e.sequence.toNat),
    memberText "parent_seq" (decimal e.parentSequence.toNat),
    memberText "parent_seqs"
      (ascii "[" ++ joined (e.parentSequences.map fun parent => decimal parent.toNat) ++ ascii "]"),
    memberText "time_ns" (signedDecimal e.timestampNs.toInt),
    memberText "session" (quoted (escapeJson e.sessionId)),
    memberText "transport" (quoted (escapeJson e.transport)),
    memberText "direction" (quoted e.direction.toText)] ++
  (if e.sourceEndpoint =
    [] then [] else [memberText "source" (quoted (escapeJson e.sourceEndpoint))]) ++
  (if e.destinationEndpoint = [] then []
    else [memberText "destination" (quoted (escapeJson e.destinationEndpoint))]) ++
  [memberText "type" (quoted e.type.toText),
    memberText "size" (decimal e.payload.length),
    memberText "payload_hex" (quoted (toHex e.payload false)),
    memberText "summary" (quoted (escapeJson e.summary))] ++
  (if e.type = .latency then
    [memberText "request_seq" (decimal e.requestSequence.toNat),
      memberText "response_seq" (decimal e.responseSequence.toNat),
      memberText "latency_ns" (signedDecimal e.latencyNs.toInt),
      memberText "latency_us" (signedDecimal (e.latencyNs / 1000).toInt),
      memberText "request_size" (decimal e.requestSize),
      memberText "response_size" (decimal e.responseSize)]
    else [])

theorem serializeParents_eq (parents : List UInt64) :
    serializeParents parents = joined (parents.map fun parent => decimal parent.toNat) := by
  cases parents with
  | nil => rfl
  | cons parent parents => rw [serializeParents, List.map_cons, joined, List.flatMap_map]

theorem flatMap_ite {α β : Type} (c : Prop) [Decidable c] (f : α → List β) (a b : List α) :
    (if c then a else b).flatMap f = if c then a.flatMap f else b.flatMap f := by
  split <;> rfl

/-- A string is closed together with what stands behind it. -/
theorem close_optional (c : Prop) [Decidable c] (quote : UInt8) (member rest : ByteString) :
    (if c then [] else quote :: member) ++ quote :: rest =
      quote :: ((if c then [] else member ++ [quote]) ++ rest) := by
  split
  · rfl
  · rw [List.cons_append, List.append_assoc, List.singleton_append]

/-- The line of an event is made up of its members. -/
theorem serializeEventJsonl_eq {e : PacketEvent} (hdecoded : e.decodedJson = []) :
    serializeEventJsonl e = ascii "\x7b" ++ joined (eventParts e) ++ ascii "\x7d" := by
  unfold serializeEventJsonl
  rw [serializeParents_eq, if_pos hdecoded]
  simp only [eventParts, joined, memberText, quoted, ascii, String.reduceToList, List.map_cons,
    List.map_nil, List.append_assoc, List.nil_append, List.cons_append, List.append_nil,
    List.flatMap_append, flatMap_ite, List.flatMap_cons, List.flatMap_nil, close_optional]

theorem decode_textOf {value : ByteString} (h : Utf8.Valid value) :
    Utf8.decode value = some (textOf value) := by
  obtain ⟨codes, hcodes⟩ := h.exists_codes
  rw [textOf, hcodes, Option.getD_some]

theorem writtenValue_string {value : ByteString} (h : Utf8.Valid value) :
    WrittenValue (quoted (escapeJson value)) (.string (textOf value)) :=
  writtenValue_escaped (decode_textOf h)

theorem writtenValue_name {name : ByteString} (h : isPlain name = true) :
    WrittenValue (quoted name) (.string (textOf name)) := by
  have htext : textOf name = name.map UInt8.toNat := by
    rw [textOf, (written_of_isPlain h).1.decoded, Option.getD_some]
  rw [htext]
  exact writtenValue_plain h

theorem isPlain_direction (direction : Direction) : isPlain direction.toText = true := by
  cases direction <;> decide

theorem isPlain_type (type : EventType) : isPlain type.toText = true := by
  cases type <;> decide

theorem isPlain_toHex (payload : Bytes) : isPlain (toHex payload false) = true := by
  have hdigit : ∀ n < 16, 0x20 ≤ hexDigit n ∧ hexDigit n < 0x80 ∧ hexDigit n ≠ 0x22 ∧
      hexDigit n ≠ 0x5C := by
    decide
  simp only [isPlain, toHex, Bool.false_eq_true, if_false, List.all_eq_true, List.mem_flatten,
    List.mem_map, Bool.and_eq_true, bne_iff_ne, decide_eq_true_eq]
  rintro ch ⟨pair, ⟨byte, -, rfl⟩, hpair⟩
  have hlt := byte.toNat_lt
  simp only [List.mem_cons, List.not_mem_nil, or_false] at hpair
  rcases hpair with rfl | rfl
  · obtain ⟨hlow, hhigh, hquote, hmark⟩ := hdigit (byte.toNat / 16) (by omega)
    exact ⟨⟨⟨hlow, hhigh⟩, hquote⟩, hmark⟩
  · obtain ⟨hlow, hhigh, hquote, hmark⟩ := hdigit (byte.toNat % 16) (by omega)
    exact ⟨⟨⟨hlow, hhigh⟩, hquote⟩, hmark⟩

theorem writtenValue_parents (parents : List UInt64) :
    WrittenValue (ascii "[" ++ joined (parents.map fun parent => decimal parent.toNat) ++ ascii "]")
      (.array (parents.map fun parent => naturalNumber parent.toNat)) := by
  apply writtenValue_array
  rw [List.forall₂_map_left_iff, List.forall₂_map_right_iff]
  exact List.forall₂_same.2 fun parent _ => writtenValue_decimal parent.toNat

theorem forall₂_optional {c : Prop} [Decidable c] {part : ByteString} {member : Text × Value}
    (h : WrittenMember part member) :
    List.Forall₂ WrittenMember (if c then [] else [part]) (if c then [] else [member]) := by
  split
  · exact .nil
  · exact .cons h .nil

/-- What is written of an event are its members. -/
theorem forall₂_eventParts {e : PacketEvent} (h : ValidText e) :
    List.Forall₂ WrittenMember (eventParts e) (eventMembers e) := by
  have hfirst : List.Forall₂ WrittenMember _ _ :=
    .cons (writtenMember "seq" (writtenValue_decimal e.sequence.toNat) (by decide))
      (.cons (writtenMember "parent_seq" (writtenValue_decimal e.parentSequence.toNat) (by decide))
      (.cons (writtenMember "parent_seqs" (writtenValue_parents e.parentSequences) (by decide))
      (.cons (writtenMember "time_ns" (writtenValue_signedDecimal e.timestampNs.toInt) (by decide))
      (.cons (writtenMember "session" (writtenValue_string h.sessionId) (by decide))
      (.cons (writtenMember "transport" (writtenValue_string h.transport) (by decide))
      (.cons
        (writtenMember "direction" (writtenValue_name (isPlain_direction e.direction)) (by decide))
      .nil))))))
  have hsource := forall₂_optional (c := e.sourceEndpoint = [])
    (writtenMember "source" (writtenValue_string h.sourceEndpoint) (by decide))
  have hdestination := forall₂_optional (c := e.destinationEndpoint = [])
    (writtenMember "destination" (writtenValue_string h.destinationEndpoint) (by decide))
  have hlast : List.Forall₂ WrittenMember _ _ :=
    .cons (writtenMember "type" (writtenValue_name (isPlain_type e.type)) (by decide))
      (.cons (writtenMember "size" (writtenValue_decimal e.payload.length) (by decide))
      (.cons (writtenMember "payload_hex" (writtenValue_name (isPlain_toHex e.payload)) (by decide))
      (.cons (writtenMember "summary" (writtenValue_string h.summary) (by decide)) .nil)))
  refine List.rel_append (List.rel_append (List.rel_append (List.rel_append hfirst hsource)
    hdestination) hlast) ?_
  split
  · exact .cons
      (writtenMember "request_seq" (writtenValue_decimal e.requestSequence.toNat) (by decide))
      (.cons (writtenMember "response_seq" (writtenValue_decimal e.responseSequence.toNat)
        (by decide))
      (.cons (writtenMember "latency_ns" (writtenValue_signedDecimal e.latencyNs.toInt) (by decide))
      (.cons (writtenMember "latency_us" (writtenValue_signedDecimal _) (by decide))
      (.cons (writtenMember "request_size" (writtenValue_decimal e.requestSize) (by decide))
      (.cons (writtenMember "response_size" (writtenValue_decimal e.responseSize) (by decide))
        .nil)))))
  · exact .nil

/-- The names of all members an event can have. -/
def memberNames : List Text :=
  [codes "seq", codes "parent_seq", codes "parent_seqs", codes "time_ns", codes "session",
    codes "transport", codes "direction"] ++ [codes "source"] ++ [codes "destination"] ++
  [codes "type", codes "size", codes "payload_hex", codes "summary"] ++
  [codes "request_seq", codes "response_seq", codes "latency_ns", codes "latency_us",
    codes "request_size", codes "response_size"]

theorem nodup_eventMembers (e : PacketEvent) : ((eventMembers e).map Prod.fst).Nodup := by
  have hnames : memberNames.Nodup := by decide
  refine hnames.sublist ?_
  have hoptional : ∀ (c : Prop) [Decidable c] (member : Text × Value),
      ((if c then [] else [member]).map Prod.fst).Sublist [member.1] := by
    intro c _ member
    split
    · exact List.nil_sublist _
    · exact List.Sublist.refl _
  unfold eventMembers memberNames
  rw [List.map_append, List.map_append, List.map_append, List.map_append]
  refine ((((List.Sublist.refl _).append (hoptional _ _)).append (hoptional _ _)).append
    (List.Sublist.refl _)).append ?_
  split
  · exact List.Sublist.refl _
  · exact List.nil_sublist _

theorem lookup_optional (c : Prop) [Decidable c] {name : Text} {member : Text × Value}
    (h : name ≠ member.1) :
    (if c then [] else [member]).lookup name = none := by
  split
  · rfl
  · rw [List.lookup_cons, beq_false_of_ne h]
    rfl

/-- No event is taken for metadata. -/
theorem isMetadata_eventMembers (e : PacketEvent) : isMetadata (eventMembers e) = false := by
  have hlookup : (eventMembers e).lookup (codes "type") =
      some (.string (textOf e.type.toText)) := by
    have hsource : codes "type" ≠ codes "source" := by decide
    have hdestination : codes "type" ≠ codes "destination" := by decide
    unfold eventMembers
    rw [List.lookup_append, List.lookup_append, List.lookup_append, List.lookup_append,
      lookup_optional _ hsource, lookup_optional _ hdestination]
    rfl
  unfold isMetadata
  rw [hlookup]
  cases e.type <;> decide

theorem writtenLine_event {e : PacketEvent} (h : ValidText e) (hdecoded : e.decodedJson = []) :
    WrittenLine (serializeEventJsonl e) (eventMembers e) := by
  rw [serializeEventJsonl_eq hdecoded]
  exact writtenLine (forall₂_eventParts h) (nodup_eventMembers e)

/-! ### Metadata -/

def metadataMembers : List (Text × Value) :=
  [(codes "type", .string (codes "metadata")),
    (codes "schema", .string (codes "packet-probe.log.v1")),
    (codes "event_schema", .string (codes "packet-probe.event.v1")),
    (codes "tool", .string (codes "packet-probe")),
    (codes "version", .string (codes "0.1.0"))]

def metadataParts : List ByteString :=
  [memberText "type" (quoted (ascii "metadata")),
    memberText "schema" (quoted kPacketProbeLogSchema),
    memberText "event_schema" (quoted kPacketProbeEventSchema),
    memberText "tool" (quoted (ascii "packet-probe")),
    memberText "version" (quoted packetProbeVersion)]

theorem writtenLine_metadata : WrittenLine serializeMetadataJsonl metadataMembers := by
  have hline : serializeMetadataJsonl = ascii "\x7b" ++ joined metadataParts ++ ascii "\x7d" := by
    decide +kernel
  have hvalue : ∀ (name : ByteString) (text : Text), isPlain name = true → textOf name = text →
      WrittenValue (quoted name) (.string text) := by
    rintro name _ hplain rfl
    exact writtenValue_name hplain
  rw [hline]
  refine writtenLine ?_ (by decide)
  exact .cons (writtenMember "type" (hvalue _ _ (by decide) (by decide)) (by decide))
    (.cons (writtenMember "schema" (hvalue _ _ (by decide) (by decide)) (by decide))
    (.cons (writtenMember "event_schema" (hvalue _ _ (by decide) (by decide)) (by decide))
    (.cons (writtenMember "tool" (hvalue _ _ (by decide) (by decide)) (by decide))
    (.cons (writtenMember "version" (hvalue _ _ (by decide) (by decide)) (by decide)) .nil))))

/-! ### Loading -/

variable {members : List (Text × Value)} {line : Text} {result : JsonlLoadResult}

/-- The loader reads a line with its end as an object of these members. -/
structure Reads (line : Text) (members : List (Text × Value)) : Prop where
  withoutEnds : WithoutEnds line
  strip_eq : strip (line ++ [0x0A]) = line
  ne_nil : line ≠ []
  load_eq : jsonLoads line = some (.object members)

theorem WrittenLine.exists_line (h : WrittenLine bytes members) :
    ∃ line, Utf8.decode bytes = some line ∧ Reads line members := by
  obtain ⟨middle, hwritten, hrenders⟩ := h
  refine ⟨_, hwritten.decoded, ⟨?_, strip_line rfl rfl middle, List.cons_ne_nil _ _, ?_⟩⟩
  · intro c hc
    have hplain := hwritten.plain c hc
    omega
  · unfold jsonLoads
    rw [if_neg (by simp)]
    exact hrenders.parse

theorem exists_lines {parts : List ByteString} {items : List (List (Text × Value))}
    (h : List.Forall₂ WrittenLine parts items) :
    ∃ lines, Utf8.decode (fileOf parts) = some (lines.flatMap (· ++ [0x0A])) ∧
      List.Forall₂ Reads lines items := by
  induction h with
  | nil => exact ⟨[], rfl, .nil⟩
  | cons h hs ih =>
    obtain ⟨line, hline, hreads⟩ := h.exists_line
    obtain ⟨lines, hlines, hitems⟩ := ih
    have hend : Utf8.decode (ascii "\n") = some [0x0A] :=
      Utf8.decode_sevenBit (List.forall_mem_singleton.2 (by decide))
    exact ⟨line :: lines, Utf8.decode_append (Utf8.decode_append hline hend) hlines,
      .cons hreads hitems⟩

theorem withoutEnds_of_reads {lines : List Text} {items : List (List (Text × Value))}
    (h : List.Forall₂ Reads lines items) : ∀ line ∈ lines, WithoutEnds line := by
  induction h with
  | nil => exact fun _ hline => nomatch hline
  | cons h hs ih => exact List.forall_mem_cons.2 ⟨h.withoutEnds, ih⟩

/-- What an object on a line adds to the result. -/
def JsonlLoadResult.add (result : JsonlLoadResult) (members : List (Text × Value)) :
    JsonlLoadResult :=
  if isMetadata members
    then { result with metadata := some (result.metadata.getD (.object members)) }
  else { result with events := result.events ++ [.object members] }

theorem loadLine_of_reads (h : Reads line members) (lineNum : ℕ) :
    loadLineWith rfcLoads result lineNum (line ++ [0x0A]) = .ok (result.add members) := by
  have hload : rfcLoads line = .ok (.object members) := by rw [rfcLoads, h.load_eq]
  unfold loadLineWith JsonlLoadResult.add
  simp only [h.strip_eq, if_neg h.ne_nil, hload]
  split
  · obtain ⟨metadata, events, malformedLines⟩ := result
    cases metadata <;> rfl
  · rfl

theorem loadLines_of_reads {lines : List Text} {items : List (List (Text × Value))}
    (h : List.Forall₂ Reads lines items) (lineNum : ℕ) :
    loadLinesWith rfcLoads result lineNum (lines.map (· ++ [0x0A])) =
      .ok (items.foldl JsonlLoadResult.add result) := by
  induction h generalizing result lineNum with
  | nil => rfl
  | cons h hs ih =>
    rw [List.map_cons, loadLinesWith, loadLine_of_reads h, List.foldl_cons]
    exact ih (lineNum + 1)

/-- A file of lines is loaded object by object. -/
theorem load_fileOf {parts : List ByteString} {items : List (List (Text × Value))}
    (h : List.Forall₂ WrittenLine parts items) :
    loadPacketProbeJsonl (some (fileOf parts)) = .ok (items.foldl JsonlLoadResult.add {}) := by
  obtain ⟨lines, hdecode, hreads⟩ := exists_lines h
  have hends := withoutEnds_of_reads hreads
  have hreturn : ∀ c ∈ lines.flatMap (· ++ [0x0A]), c ≠ 0x0D := by
    intro c hc
    obtain ⟨line, hline, hmem⟩ := List.mem_flatMap.1 hc
    rcases List.mem_append.1 hmem with hmem | hmem
    · exact (hends line hline c hmem).2
    · rw [List.mem_singleton.1 hmem]
      decide
  unfold loadPacketProbeJsonl loadFileWith
  simp only [hdecode]
  rw [universalNewlines_of_not_mem hreturn, splitLines_lines hends, loadLines_of_reads hreads]

/-! ### Sessions -/

/-- The objects of a session. -/
def sessionMembers (events : List PacketEvent) : List (List (Text × Value)) :=
  metadataMembers :: events.map eventMembers

theorem add_events (events : List PacketEvent) :
    (events.map eventMembers).foldl JsonlLoadResult.add result =
      { result with events := result.events ++ events.map fun e => .object (eventMembers e) } := by
  induction events generalizing result with
  | nil => rw [List.map_nil, List.map_nil, List.append_nil, List.foldl_nil]
  | cons e events ih =>
    have hevent : result.add (eventMembers e) =
        { result with events := result.events ++ [.object (eventMembers e)] } := by
      rw [JsonlLoadResult.add, isMetadata_eventMembers, if_neg Bool.false_ne_true]
    rw [List.map_cons, List.foldl_cons, hevent, ih, List.append_assoc]
    rfl

/-- The metadata of the first session stays. -/
theorem add_sessions (sessions : List (List PacketEvent)) :
    (sessions.flatMap sessionMembers).foldl JsonlLoadResult.add result =
      { result with
        metadata := if sessions = [] then result.metadata
          else some (result.metadata.getD (.object metadataMembers))
        events := result.events ++ sessions.flatten.map fun e => .object (eventMembers e) } := by
  induction sessions generalizing result with
  | nil => rw [if_pos rfl, List.flatten_nil, List.map_nil, List.append_nil]; rfl
  | cons events sessions ih =>
    have hmetadata : result.add metadataMembers =
        { result with metadata := some (result.metadata.getD (.object metadataMembers)) } := by
      rw [JsonlLoadResult.add, show isMetadata metadataMembers = true by decide, if_pos rfl]
    have hkept : ∀ metadata : Value, (if sessions = [] then some metadata
        else some ((some metadata).getD (.object metadataMembers))) = some metadata := by
      intro metadata
      split <;> rfl
    rw [List.flatMap_cons, List.foldl_append, sessionMembers, List.foldl_cons, hmetadata,
      add_events, ih, if_neg (List.cons_ne_nil events sessions), List.flatten_cons, List.map_append,
      hkept, List.append_assoc]

/-- The strings of the event are UTF-8, and no decoder has written JSON into it. -/
structure Recordable (e : PacketEvent) : Prop where
  text : ValidText e
  decodedJson : e.decodedJson = []

theorem forall₂_sessionLines {sessions : List (List PacketEvent)}
    (h : ∀ events ∈ sessions, ∀ e ∈ events, Recordable e) :
    List.Forall₂ WrittenLine (sessionLines sessions) (sessions.flatMap sessionMembers) := by
  induction sessions with
  | nil => exact .nil
  | cons events sessions ih =>
    have hevents :
        List.Forall₂ WrittenLine (events.map serializeEventJsonl) (events.map eventMembers) := by
      rw [List.forall₂_map_left_iff, List.forall₂_map_right_iff]
      refine List.forall₂_same.2 fun e he => ?_
      have hrecordable := h events List.mem_cons_self e he
      exact writtenLine_event hrecordable.text hrecordable.decodedJson
    exact List.rel_append (.cons writtenLine_metadata hevents)
      (ih fun events hevents => h events (List.mem_cons_of_mem _ hevents))

/-- Recording always succeeds, and the loader gives back what was recorded: the metadata of the
first session, and the events of all sessions in their order. -/
theorem load_recorded (path : ByteString) (sessions : List (List PacketEvent))
    (h : ∀ events ∈ sessions, ∀ e ∈ events, Recordable e) :
    ∃ file, recordSessions path sessions = .ok ({}, file) ∧
      loadPacketProbeJsonl file =
        if sessions = [] then .error .fileNotFound
        else .ok
          { metadata := some (.object metadataMembers)
            events := sessions.flatten.map fun e => .object (eventMembers e)
            malformedLines := [] } := by
  by_cases hsessions : sessions = []
  · subst hsessions
    exact ⟨none, rfl, rfl⟩
  · refine ⟨some (fileOf (sessionLines sessions)),
      record_sessions path none [] rfl sessions hsessions, ?_⟩
    rw [load_fileOf (forall₂_sessionLines h), add_sessions, if_neg hsessions, if_neg hsessions]
    rfl

/-- An event with quotation marks, line ends and a character of two bytes in its strings. -/
def quotedEvent : PacketEvent :=
  { sequence := 1
    timestampNs := -1
    sessionId := ascii "bench \"A\""
    transport := ascii "tcp"
    sourceEndpoint := ascii "127.0.0.1:9001"
    payload := [0x0D, 0x0A]
    summary := ascii "caf" ++ [0xC3, 0xA9] ++ ascii "\r\n\\" }

def latencyEvent : PacketEvent :=
  { sequence := 18446744073709551615
    parentSequences := [1, 2]
    transport := ascii "tcp"
    direction := .deviceToApp
    type := .latency
    requestSequence := 1
    responseSequence := 2
    latencyNs := 1500 }

theorem load_recorded_twice : ∃ file result,
    recordSessions (ascii "capture.jsonl") [[quotedEvent, latencyEvent], [], [latencyEvent]] =
      .ok ({}, some file) ∧
    loadPacketProbeJsonl (some file) = .ok result ∧
    result.metadata.isSome ∧ result.events.length = 3 ∧ result.malformedLines = [] := by
  have hquoted : Recordable quotedEvent :=
    ⟨⟨by decide, by decide, by decide, by decide, by decide⟩, rfl⟩
  have hlatency : Recordable latencyEvent :=
    ⟨⟨by decide, by decide, by decide, by decide, by decide⟩, rfl⟩
  have hrecordable : ∀ events ∈ [[quotedEvent, latencyEvent], [], [latencyEvent]], ∀ e ∈ events,
      Recordable e := by
    simp only [List.mem_cons, List.not_mem_nil, or_false, forall_eq_or_imp, forall_eq,
      false_implies, implies_true, hquoted, hlatency, and_self]
  obtain ⟨file, hfile, hload⟩ := load_recorded (ascii "capture.jsonl") _ hrecordable
  rw [if_neg (List.cons_ne_nil _ _)] at hload
  cases file with
  | none => cases hload
  | some file => exact ⟨file, _, hfile, hload, rfl, rfl, rfl⟩

end PacketProbe
