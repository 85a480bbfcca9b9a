import PacketProbe.EventLines

/-!
# What a capture prints

`print_event` writes a line for most events. The lines are read back into what they show: where
the bytes went and all of them, the parent of a frame, the numbers of a latency.
-/

namespace PacketProbe
open JsonText

/-! ### Printing -/

/-- `std::setfill('0') << std::setw(width)`. -/
def setw (width : ℕ) (text : ByteString) : ByteString :=
  List.replicate (width - text.length) 48 ++ text

/-- The fields of `std::tm` that are printed. -/
structure LocalTime where
  hour : ℕ := 0
  minute : ℕ := 0
  second : ℕ := 0

/-- The time of a line between its brackets; `localtime` is the one of the C library. -/
def timeText (localtime : Int64 → LocalTime) (timestampNs : Int64) : ByteString :=
  let microsSinceEpoch := timestampNs / 1000
  let secondsSinceEpoch := microsSinceEpoch / 1000000
  let microsPart := microsSinceEpoch % 1000000
  let localTime := localtime secondsSinceEpoch
  ascii "[" ++ setw 2 (decimal localTime.hour) ++ ascii ":" ++ setw 2 (decimal localTime.minute) ++
    ascii ":" ++ setw 2 (decimal localTime.second) ++ ascii "." ++
      setw 6 (signedDecimal microsPart.toInt) ++ ascii "]"

/-- The payload behind a line, if there is one. -/
def payloadText (payload : Bytes) : ByteString :=
  let hex := toHex payload true
  if hex = [] then [] else ascii "  " ++ hex

def formatEventLine (localtime : Int64 → LocalTime) (timestampNs : Int64) (direction : ByteString)
    (size : ℕ) (payload : Bytes) : ByteString :=
  timeText localtime timestampNs ++ ascii " " ++ direction ++ ascii " " ++ decimal size ++
    ascii " bytes" ++ payloadText payload

def directionText (direction : Direction) : ByteString :=
  if direction = .appToDevice then ascii "APP -> DEVICE" else ascii "DEVICE -> APP"

def printEvent (localtime : Int64 → LocalTime) (hexRaw hexFrame : Bool) (e : PacketEvent) :
    ByteString :=
  if e.type = .rawBytes ∧ hexRaw = true then
    formatEventLine localtime e.timestampNs (directionText e.direction) e.payload.length
      e.payload ++ ascii "\n"
  else if e.type = .frame ∧ hexFrame = true then
    ascii "[frame] parent=" ++ decimal e.parentSequence.toNat ++ ascii " " ++
      directionText e.direction ++ ascii " " ++ decimal e.payload.length ++ ascii " bytes" ++
        payloadText e.payload ++ ascii "\n"
  else if e.type = .latency then
    ascii "[latency] request=" ++ decimal e.requestSequence.toNat ++ ascii " response=" ++
      decimal e.responseSequence.toNat ++ ascii " " ++ signedDecimal (e.latencyNs / 1000).toInt ++
        ascii " us\n"
  else if e.type = .error ∨ e.type = .stateChange then e.summary ++ ascii "\n"
  else []

/-! ### Reading -/

/-- What a line shows. -/
inductive ConsoleLine where
  | raw (time : ByteString) (toDevice : Bool) (payload : Bytes)
  | frame (parent : ℕ) (toDevice : Bool) (payload : Bytes)
  | latency (request response : ℕ) (micros : ℤ)
  | text (summary : ByteString)
  deriving DecidableEq

def readDecimal (digits : ByteString) : ℕ := digitsValue (digits.map UInt8.toNat)

def readSigned : ByteString → ℤ
  | 45 :: digits => -(readDecimal digits : ℤ)
  | digits => readDecimal digits

def readDirection (words : List ByteString) : Option Bool :=
  if words = [ascii "APP", ascii "->", ascii "DEVICE"] then some true
  else if words = [ascii "DEVICE", ascii "->", ascii "APP"] then some false
  else none

/-- Direction, size and payload. -/
def readTraffic : List ByteString → Option (Bool × Bytes)
  | source :: arrow :: target :: size :: unit :: rest => do
    let toDevice ← readDirection [source, arrow, target]
    let payload ← hexPairs rest.flatten
    if readDecimal size = payload.length ∧
      unit = ascii "bytes" then some (toDevice, payload) else none
  | _ => none

def readFrame : List ByteString → Option ConsoleLine
  | parent :: words => (readTraffic words).map fun traffic =>
      .frame (readDecimal (parent.drop (ascii "parent=").length)) traffic.1 traffic.2
  | [] => none

def readLatency : List ByteString → Option ConsoleLine
  | [request, response, micros, _] =>
    some (.latency (readDecimal (request.drop (ascii "request=").length))
      (readDecimal (response.drop (ascii "response=").length)) (readSigned micros))
  | _ => none

def readConsoleLine (line : ByteString) : Option ConsoleLine :=
  if line.head? = some 91 then
    match line.splitOn 32 with
    | first :: words =>
      if first = ascii "[frame]" then readFrame words
      else if first = ascii "[latency]" then readLatency words
      else (readTraffic words).map fun traffic => .raw first traffic.1 traffic.2
    | [] => none
  else some (.text line)

/-- The lines of a text that ends with a line end. -/
def readConsole (text : ByteString) : Option (List ConsoleLine) :=
  (text.splitOn 10).dropLast.mapM readConsoleLine

/-- What is to be read of an event. -/
def shownLine (localtime : Int64 → LocalTime) (hexRaw hexFrame : Bool) (e : PacketEvent) :
    Option ConsoleLine :=
  match e.type with
  | .rawBytes =>
    if hexRaw then
      some (.raw (timeText localtime e.timestampNs) (e.direction = .appToDevice) e.payload)
    else none
  | .frame =>
    if hexFrame then
      some (.frame e.parentSequence.toNat (e.direction = .appToDevice) e.payload)
    else none
  | .latency =>
    some (.latency e.requestSequence.toNat e.responseSequence.toNat (e.latencyNs / 1000).toInt)
  | .error | .stateChange => some (.text e.summary)
  | _ => none

/-! ### Words -/

/-- Printable and without a space. -/
def Word (text : ByteString) : Prop := ∀ b ∈ text, 32 < b

variable {word word' : ByteString} {payload : Bytes}

theorem Word.append (h : Word word) (h' : Word word') : Word (word ++ word') :=
  List.forall_mem_append.2 ⟨h, h'⟩

theorem Word.notMem (h : Word word) {b : UInt8} (hb : b ≤ 32) : b ∉ word := fun hmem =>
  absurd (h b hmem) (by rw [UInt8.lt_iff_toNat_lt]; rw [UInt8.le_iff_toNat_le] at hb; omega)

theorem word_ascii (text : String) (h : (ascii text).all (32 < ·) = true) :
    Word (ascii text) := fun b hb =>
  of_decide_eq_true (List.all_eq_true.1 h b hb)

theorem word_decimal (n : ℕ) : Word (decimal n) := by
  intro b hb
  have hrange := (decimalDigit hb).1
  rw [UInt8.le_iff_toNat_le] at hrange
  rw [UInt8.lt_iff_toNat_lt]
  simp only [UInt8.reduceToNat] at hrange ⊢
  omega

theorem word_signedDecimal (n : ℤ) : Word (signedDecimal n) := by
  cases n with
  | ofNat n => exact word_decimal n
  | negSucc n => exact (word_ascii "-" (by decide)).append (word_decimal (n + 1))

theorem word_setw {text : ByteString} (h : Word text) (width : ℕ) : Word (setw width text) := by
  refine Word.append (fun b hb => ?_) h
  rw [(List.mem_replicate.1 hb).2]
  decide

theorem word_timeText (localtime : Int64 → LocalTime) (timestampNs : Int64) :
    Word (timeText localtime timestampNs) := by
  have hnumber : ∀ width n, Word (setw width (decimal n)) :=
    fun width n => word_setw (word_decimal n) width
  unfold timeText
  exact ((((((((word_ascii "[" (by decide)).append (hnumber _ _)).append
    (word_ascii ":" (by decide))).append
    (hnumber _ _)).append (word_ascii ":" (by decide))).append (hnumber _ _)).append
      (word_ascii "." (by decide))).append (word_setw (word_signedDecimal _) _)).append
        (word_ascii "]" (by decide))

theorem splitOn_word (h : Word word) (rest : ByteString) :
    (word ++ 32 :: rest).splitOn 32 = word :: rest.splitOn 32 :=
  List.splitOn_append_cons_self_of_not_mem (h.notMem (UInt8.le_refl _)) rest

theorem splitOn_lastWord (h : Word word) : word.splitOn 32 = [word] :=
  List.splitOn_eq_singleton (h.notMem (UInt8.le_refl _))

theorem Word.notMem_lineEnd (h : Word word) {rest : ByteString} (hrest : 10 ∉ rest) :
    (10 : UInt8) ∉ word ++ 32 :: rest := by
  intro hmem
  rcases List.mem_append.1 hmem with hword | hspace
  · exact h.notMem (by decide) hword
  · rcases List.mem_cons.1 hspace with heq | hafter
    · exact absurd heq (by decide)
    · exact hrest hafter

theorem readDecimal_decimal (n : ℕ) : readDecimal (decimal n) = n := by
  have htext : (decimal n).map UInt8.toNat = numeral n := by
    unfold decimal numeral
    rw [List.map_map]
    exact List.map_congr_left fun c hc => toNat_digitByte (isDigit_of_mem_digits hc)
  rw [readDecimal, htext, digitsValue_numeral]

theorem readSigned_signedDecimal (n : ℤ) : readSigned (signedDecimal n) = n := by
  cases n with
  | ofNat n =>
    have hplain : readSigned (decimal n) = readDecimal (decimal n) := by
      unfold readSigned
      split
      · rename_i digits heq
        have hmem : (45 : UInt8) ∈ decimal n := heq ▸ List.mem_cons_self
        exact absurd (decimalDigit hmem) (by decide)
      · rfl
    change readSigned (decimal n) = _
    rw [hplain, readDecimal_decimal]
    rfl
  | negSucc n =>
    change -(readDecimal (decimal (n + 1)) : ℤ) = _
    rw [readDecimal_decimal]
    rfl

/-! ### A payload -/

theorem word_hexPair (byte : UInt8) :
    Word [hexDigit (byte.toNat / 16), hexDigit (byte.toNat % 16)] := by
  have hall : ∀ n < 16, 32 < hexDigit n := by decide
  have hlt := byte.toNat_lt
  intro b hb
  simp only [List.mem_cons, List.not_mem_nil, or_false] at hb
  rcases hb with rfl | rfl
  · exact hall _ (by omega)
  · exact hall _ (Nat.mod_lt _ (by decide))

theorem le_of_mem_intercalate {words : List ByteString} (h : ∀ word ∈ words, Word word) {b : UInt8}
    (hb : b ∈ List.intercalate [32] words) : 32 ≤ b := by
  induction words with
  | nil => exact absurd hb List.not_mem_nil
  | cons word words ih =>
    have hword : b ∈ word → 32 ≤ b := fun hmem => UInt8.le_of_lt (h word List.mem_cons_self b hmem)
    cases words with
    | nil =>
      rw [List.intercalate_singleton] at hb
      exact hword hb
    | cons next words =>
      rw [List.intercalate_cons_cons, List.mem_append, List.mem_append, List.mem_singleton] at hb
      rcases hb with (hmem | rfl) | hrest
      · exact hword hmem
      · exact UInt8.le_refl _
      · exact ih (fun other hother => h other (List.mem_cons_of_mem _ hother)) hrest

/-- The words of a payload are its bytes, behind an empty one. -/
theorem exists_payloadWords (h : Word word) (payload : Bytes) :
    ∃ words, (word ++ payloadText payload).splitOn 32 = word :: words ∧
      hexPairs words.flatten = some payload ∧
      10 ∉ payloadText payload := by
  cases payload with
  | nil =>
    refine ⟨[], ?_, rfl, by decide⟩
    have hnone : payloadText [] = [] := rfl
    rw [hnone, List.append_nil, splitOn_lastWord h]
  | cons byte payload =>
    have hpairs : ∀ pair ∈ (byte :: payload).map fun byte =>
      [hexDigit (byte.toNat / 16), hexDigit (byte.toNat % 16)],
        Word pair := by
      intro pair hpair
      obtain ⟨other, -, rfl⟩ := List.mem_map.1 hpair
      exact word_hexPair other
    have hsome : toHex (byte :: payload) true ≠ [] := by
      change List.intercalate [32] ([_, _] :: _) ≠ []
      cases payload <;> simp [List.intercalate]
    have hsplit : (toHex (byte :: payload) true).splitOn 32 =
        (byte :: payload).map fun byte =>
          [hexDigit (byte.toNat / 16), hexDigit (byte.toNat % 16)] :=
      List.splitOn_intercalate 32 (fun pair hpair => (hpairs pair hpair).notMem (UInt8.le_refl _))
        (List.cons_ne_nil _ _)
    have htext : payloadText (byte :: payload) = 32 :: 32 :: toHex (byte :: payload) true :=
      if_neg hsome
    refine ⟨[] :: (toHex (byte :: payload) true).splitOn 32, ?_, ?_, ?_⟩
    · have hempty : (32 :: toHex (byte :: payload) true).splitOn 32 = [] ::
          (toHex (byte :: payload) true).splitOn 32 :=
        @splitOn_word [] (fun _ hb => absurd hb List.not_mem_nil) _
      rw [htext, splitOn_word h, hempty]
    · rw [hsplit]
      exact hexPairs_toHex (byte :: payload)
    · intro hmem
      rw [htext, List.mem_cons, List.mem_cons] at hmem
      rcases hmem with heq | heq | hmem
      · exact absurd heq (by decide)
      · exact absurd heq (by decide)
      · exact absurd (le_of_mem_intercalate hpairs hmem) (by decide)

/-- What stands on a line about traffic, behind its first word. -/
def trafficText (direction : Direction) (payload : Bytes) : ByteString :=
  directionText direction ++ 32 ::
    (decimal payload.length ++ 32 :: (ascii "bytes" ++ payloadText payload))

theorem readTraffic_trafficText (direction : Direction) (payload : Bytes) :
    readTraffic ((trafficText direction payload).splitOn 32) =
      some (decide (direction = .appToDevice), payload) ∧
      10 ∉ trafficText direction payload := by
  obtain ⟨words, hwords, hpayload, hline⟩ :=
    exists_payloadWords (word_ascii "bytes" (by decide)) payload
  have hdirection : ∃ source target, Word source ∧ Word target ∧
      directionText direction = source ++ 32 :: (ascii "->" ++ 32 :: target) ∧
      readDirection [source, ascii "->", target] = some (decide (direction = .appToDevice)) := by
    by_cases h : direction = .appToDevice
    · refine ⟨ascii "APP", ascii "DEVICE", word_ascii _ (by decide), word_ascii _ (by decide), ?_,
        ?_⟩
      · rw [directionText, if_pos h]
        decide
      · rw [decide_eq_true h]
        decide
    · refine ⟨ascii "DEVICE", ascii "APP", word_ascii _ (by decide), word_ascii _ (by decide), ?_,
        ?_⟩
      · rw [directionText, if_neg h]
        decide
      · rw [decide_eq_false h]
        decide
  obtain ⟨source, target, hsource, htarget, htext, hread⟩ := hdirection
  have harrow := word_ascii "->" (by decide)
  have hsize := word_decimal payload.length
  rw [trafficText, htext, List.append_assoc, List.cons_append, List.append_assoc, List.cons_append]
  constructor
  · rw [splitOn_word hsource, splitOn_word harrow, splitOn_word htarget, splitOn_word hsize, hwords,
      readTraffic, hread, hpayload]
    simp only [Option.bind_eq_bind, Option.bind_some, readDecimal_decimal, and_self, if_true]
  · have hbytes : (10 : UInt8) ∉ ascii "bytes" ++ payloadText payload := fun hmem =>
      (List.mem_append.1 hmem).elim (by decide) hline
    exact hsource.notMem_lineEnd
      (harrow.notMem_lineEnd (htarget.notMem_lineEnd (hsize.notMem_lineEnd hbytes)))

/-! ### A line for each event -/

theorem readConsoleLine_words {line : ByteString} (h : line.head? = some 91) {first : ByteString}
    {words : List ByteString} (hwords : line.splitOn 32 = first :: words) :
    readConsoleLine line =
      if first = ascii "[frame]" then readFrame words
      else if first = ascii "[latency]" then readLatency words
      else (readTraffic words).map fun traffic => .raw first traffic.1 traffic.2 := by
  rw [readConsoleLine, if_pos h, hwords]

theorem readConsoleLine_raw (localtime : Int64 → LocalTime) (timestampNs : Int64)
    (direction : Direction) (payload : Bytes) :
    readConsoleLine
      (formatEventLine localtime timestampNs (directionText direction) payload.length payload) =
        some (.raw (timeText localtime timestampNs) (direction = .appToDevice) payload) ∧
      10 ∉ formatEventLine localtime timestampNs (directionText direction) payload.length
        payload := by
  have hline :
    formatEventLine localtime timestampNs (directionText direction) payload.length payload =
      timeText localtime timestampNs ++ 32 :: trafficText direction payload := by
    simp only [formatEventLine, trafficText, ascii, List.append_assoc]
    rfl
  have hword := word_timeText localtime timestampNs
  have hcolon : (58 : UInt8) ∈ timeText localtime timestampNs := by
    simp [timeText, ascii]
  have hother : ∀ mark : ByteString, (58 : UInt8) ∉ mark →
      timeText localtime timestampNs ≠ mark := by
    rintro mark hmark rfl
    exact hmark hcolon
  obtain ⟨hread, hplain⟩ := readTraffic_trafficText direction payload
  rw [hline]
  constructor
  · rw [readConsoleLine_words rfl (splitOn_word hword _), if_neg (hother _ (by decide)),
      if_neg (hother _ (by decide)), hread]
    rfl
  · exact hword.notMem_lineEnd hplain

theorem readConsoleLine_frame (parent : ℕ) (direction : Direction) (payload : Bytes) :
    readConsoleLine
      (ascii "[frame] parent=" ++ decimal parent ++ 32 :: trafficText direction payload) =
        some (.frame parent (direction = .appToDevice) payload) ∧
      10 ∉ ascii "[frame] parent=" ++ decimal parent ++ 32 :: trafficText direction payload := by
  have hparent : Word (ascii "parent=" ++ decimal parent) :=
    (word_ascii _ (by decide)).append (word_decimal parent)
  have hline : ascii "[frame] parent=" ++ decimal parent ++ 32 :: trafficText direction payload =
      ascii "[frame]" ++ 32 ::
        ((ascii "parent=" ++ decimal parent) ++ 32 :: trafficText direction payload) := rfl
  have hmark := word_ascii "[frame]" (by decide)
  have hsplit :=
    splitOn_word hmark ((ascii "parent=" ++ decimal parent) ++ 32 :: trafficText direction payload)
  rw [splitOn_word hparent] at hsplit
  obtain ⟨hread, hplain⟩ := readTraffic_trafficText direction payload
  rw [hline]
  constructor
  · rw [readConsoleLine_words rfl hsplit, if_pos rfl, readFrame, hread, List.drop_left,
      readDecimal_decimal]
    rfl
  · exact hmark.notMem_lineEnd (hparent.notMem_lineEnd hplain)

theorem readConsoleLine_latency (request response : ℕ) (micros : ℤ) :
    readConsoleLine (ascii "[latency] request=" ++ decimal request ++ ascii " response=" ++
      decimal response ++
        ascii " " ++ signedDecimal micros ++ ascii " us") =
          some (.latency request response micros) ∧
      10 ∉ ascii "[latency] request=" ++ decimal request ++ ascii " response=" ++
        decimal response ++ ascii " " ++ signedDecimal micros ++ ascii " us" := by
  have hrequest : Word (ascii "request=" ++ decimal request) :=
    (word_ascii _ (by decide)).append (word_decimal request)
  have hresponse : Word (ascii "response=" ++ decimal response) :=
    (word_ascii _ (by decide)).append (word_decimal response)
  have hline :
    ascii "[latency] request=" ++ decimal request ++ ascii " response=" ++ decimal response ++
        ascii " " ++ signedDecimal micros ++ ascii " us" =
      ascii "[latency]" ++ 32 :: ((ascii "request=" ++ decimal request) ++ 32 ::
        ((ascii "response=" ++ decimal response) ++ 32 ::
          (signedDecimal micros ++ 32 :: ascii "us"))) := by
    simp only [ascii, List.append_assoc]
    rfl
  have hmark := word_ascii "[latency]" (by decide)
  have hmicros := word_signedDecimal micros
  have hsplit := splitOn_word hmark ((ascii "request=" ++ decimal request) ++ 32 ::
    ((ascii "response=" ++ decimal response) ++ 32 :: (signedDecimal micros ++ 32 :: ascii "us")))
  rw [splitOn_word hrequest, splitOn_word hresponse, splitOn_word hmicros,
    splitOn_lastWord (word_ascii "us" (by decide))] at hsplit
  rw [hline]
  constructor
  · rw [readConsoleLine_words rfl hsplit, if_neg (by decide), if_pos rfl, readLatency,
      List.drop_left, List.drop_left, readDecimal_decimal, readDecimal_decimal,
      readSigned_signedDecimal]
  · exact hmark.notMem_lineEnd
      (hrequest.notMem_lineEnd (hresponse.notMem_lineEnd (hmicros.notMem_lineEnd (by decide))))

/-- A text of its own on a line: neither ended by itself nor taken for one of the other lines. -/
def Plain (summary : ByteString) : Prop := 10 ∉ summary ∧ summary.head? ≠ some 91

instance (summary : ByteString) : Decidable (Plain summary) := inferInstanceAs (Decidable (_ ∧ _))

/-- Nothing is printed of an event, or one line that shows it. -/
theorem printEvent_shown (localtime : Int64 → LocalTime) (hexRaw hexFrame : Bool) {e : PacketEvent}
    (h : e.type = .error ∨ e.type = .stateChange → Plain e.summary) :
    printEvent localtime hexRaw hexFrame e = [] ∧ shownLine localtime hexRaw hexFrame e = none ∨
    ∃ line, printEvent localtime hexRaw hexFrame e = line ++ [10] ∧ 10 ∉ line ∧
      readConsoleLine line = shownLine localtime hexRaw hexFrame e ∧
      (shownLine localtime hexRaw hexFrame e).isSome := by
  unfold printEvent shownLine
  cases htype : e.type with
  | rawBytes =>
    cases hexRaw with
    | false => exact .inl ⟨by simp, rfl⟩
    | true =>
      obtain ⟨hread, hplain⟩ := readConsoleLine_raw localtime e.timestampNs e.direction e.payload
      exact .inr ⟨_, if_pos ⟨rfl, rfl⟩, hplain, hread, rfl⟩
  | frame =>
    cases hexFrame with
    | false => exact .inl ⟨by simp, rfl⟩
    | true =>
      obtain ⟨hread, hplain⟩ := readConsoleLine_frame e.parentSequence.toNat e.direction e.payload
      refine .inr ⟨_, ?_, hplain, hread, rfl⟩
      simp only [reduceCtorEq, false_and, if_false, and_self, if_true, trafficText, ascii,
        List.append_assoc]
      simp
  | latency =>
    obtain ⟨hread, hplain⟩ :=
      readConsoleLine_latency e.requestSequence.toNat e.responseSequence.toNat
      (e.latencyNs / 1000).toInt
    refine .inr ⟨_, ?_, hplain, hread, rfl⟩
    simp only [reduceCtorEq, false_and, if_false, if_true, ascii, List.append_assoc]
    rfl
  | error =>
    obtain ⟨hplain, hhead⟩ := h (.inl htype)
    exact .inr ⟨e.summary, by simp [ascii], hplain, if_neg hhead, rfl⟩
  | stateChange =>
    obtain ⟨hplain, hhead⟩ := h (.inr htype)
    exact .inr ⟨e.summary, by simp [ascii], hplain, if_neg hhead, rfl⟩
  | _ => exact .inl ⟨by simp, rfl⟩

/-! ### What is printed of all events -/

theorem readConsole_cons {line : ByteString} (h : 10 ∉ line) (text : ByteString) :
    readConsole (line ++ 10 :: text) = do
      let shown ← readConsoleLine line
      let rest ← readConsole text
      return shown :: rest := by
  have hne : text.splitOn 10 ≠ [] := List.splitOn_ne_nil _ _
  rw [readConsole, List.splitOn_append_cons_self_of_not_mem h, List.dropLast_cons_of_ne_nil hne,
    List.mapM_cons]
  rfl

/-- **What is printed of a capture is read back**: of every event, whatever its bytes are, what its
line is to show, in the order of the events. -/
theorem console_read_back (localtime : Int64 → LocalTime) (hexRaw hexFrame : Bool)
    (events : List PacketEvent)
    (h : ∀ e ∈ events, e.type = .error ∨ e.type = .stateChange → Plain e.summary) :
    readConsole (events.flatMap (printEvent localtime hexRaw hexFrame)) =
      some (events.filterMap (shownLine localtime hexRaw hexFrame)) := by
  induction events with
  | nil => rfl
  | cons e events ih =>
    have hrest := ih fun e he => h e (List.mem_cons_of_mem _ he)
    rw [List.flatMap_cons]
    rcases printEvent_shown localtime hexRaw hexFrame (h e List.mem_cons_self) with
      ⟨hnone, hshown⟩ | ⟨line, hline, hplain, hread, hsome⟩
    · rw [hnone, List.nil_append, hrest, List.filterMap_cons_none hshown]
    · obtain ⟨shown, hshown⟩ := Option.isSome_iff_exists.1 hsome
      rw [hline, List.append_assoc, List.singleton_append, readConsole_cons hplain, hread, hshown,
        hrest, List.filterMap_cons_some hshown]
      rfl

/-- An exchange, an event that is not printed, and what went wrong then. -/
def printedExchange : List PacketEvent :=
  [{ type := .rawBytes, direction := .deviceToApp, payload := [0x06, 0x0A], timestampNs := -2000 },
    { type := .frame, direction := .deviceToApp, payload := [0x06], parentSequence := 7 },
    { type := .statistic, summary := ascii "started" },
    { type := .latency, requestSequence := 3, responseSequence := 7, latencyNs := 1500000 },
    { type := .error, summary := ascii "device: connection refused" }]

theorem console_read_back_exchange :
    readConsole (printedExchange.flatMap (printEvent (fun _ => {}) true true)) =
      some [.raw (ascii "[00:00:00.0000-2]") false [0x06, 0x0A], .frame 7 false [0x06],
        .latency 3 7 1500, .text (ascii "device: connection refused")] := by
  rw [console_read_back (fun _ => {}) true true printedExchange (by decide)]
  decide +kernel

end PacketProbe
