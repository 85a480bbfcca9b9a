import Mathlib.Algebra.Ring.Int.Defs
import Mathlib.Data.List.Sort
import PacketProbe.JsonDumps
import PacketProbe.TypedText
import PacketProbe.Utf8Encoding

/-!
# Commands on the wire

`send_command` puts an id into a command, dumps it and sends the line. The engine's library
reads the line back as the same value, with the members of an object in the order of their
names.
-/

namespace PacketProbe
open JsonText EngineController

/-! ### Values of the library -/

/-- The members of a `std::map` by name. -/
def sortByName (members : List (ByteString × Json)) : List (ByteString × Json) :=
  members.insertionSort fun a b => ¬ b.1 < a.1

namespace Json

mutual

/-- The value that `parse` makes of a JSON value. Numbers that are no 64-bit integers and
texts with surrogates are left out. -/
def ofValue : Value → Option Json
  | .null => some .null
  | .boolean value => some (.boolean value)
  | .integer value =>
    if 0 ≤ value ∧ value < 2 ^ 64 then some (.numberUnsigned (UInt64.ofNat value.toNat))
    else if -2 ^ 63 ≤ value ∧ value < 0 then some (.numberInteger (Int64.ofInt value))
    else none
  | .float _ => none
  | .string text => (encodeUtf8 text).map .string
  | .array items => (ofItems items).map .array
  | .object members => (ofMembers members).map fun members => .object (sortByName members)

def ofItems : List Value → Option (List Json)
  | [] => some []
  | item :: items => do
    let item ← ofValue item
    let items ← ofItems items
    some (item :: items)

def ofMembers : List (Text × Value) → Option (List (ByteString × Json))
  | [] => some []
  | member :: members => do
    let name ← encodeUtf8 member.1
    let value ← ofValue member.2
    let members ← ofMembers members
    some ((name, value) :: members)

end

end Json

/-- `parse` on the texts of these values. A `-0` is left out, which is no unsigned number there. -/
def JsonLibrary.ReadsJson (lib : JsonLibrary) : Prop :=
  ∀ line text value json, Utf8.decode line = some text → ¬ HasMinusZero text →
    JsonText.parse text = some value → Json.ofValue value = some json → lib.parse line = .ok json

/-! ### The commands of the window -/

inductive ViewerCommand where
  | configure (config : Value)
  | startCapture
  | stopCapture
  | getStatus
  | listSerialPorts
  | send (payloadHex : Text)

namespace ViewerCommand

def name : ViewerCommand → String
  | configure _ => "configure"
  | startCapture => "start_capture"
  | stopCapture => "stop_capture"
  | getStatus => "get_status"
  | listSerialPorts => "list_serial_ports"
  | send _ => "send"

def arguments : ViewerCommand → List (Text × Value)
  | configure config => [(codes "config", config)]
  | send payloadHex => [(codes "payload_hex", .string payloadHex)]
  | startCapture | stopCapture | getStatus | listSerialPorts => []

/-- `{**cmd, "id": command_id}` for the command of this number. -/
def withId (command : ViewerCommand) (n : ℕ) : Value :=
  .object
    ([(codes "type", .string (codes "command")), (codes "command", .string (codes command.name))] ++
    command.arguments ++ [(codes "id", .string (codes "v" ++ numeral n))])

/-- `json.dumps(cmd)`. -/
def line (command : ViewerCommand) (n : ℕ) : ByteString :=
  (dumps (command.withId n)).map UInt8.ofNat

end ViewerCommand

/-! ### Looking up members -/

section Lookup

variable {members members' : List (ByteString × Json)} {key : ByteString}

theorem lookup_perm (h : members.Perm members') (hnodup : (members.map Prod.fst).Nodup)
    (key : ByteString) :
    members.lookup key = members'.lookup key := by
  induction h with
  | nil => rfl
  | cons member _ ih =>
    rw [List.map_cons, List.nodup_cons] at hnodup
    rw [List.lookup_cons, List.lookup_cons, ih hnodup.2]
  | swap first second rest =>
    have hne : second.1 ≠ first.1 :=
      fun heq => (List.nodup_cons.1 hnodup).1 (heq ▸ List.mem_cons_self)
    rw [List.lookup_cons, List.lookup_cons, List.lookup_cons, List.lookup_cons]
    cases hfirst : key == first.1 with
    | false => rfl
    | true =>
      have hsecond : (key == second.1) = false := by
        rw [beq_iff_eq.1 hfirst]
        exact beq_false_of_ne hne.symm
      rw [hsecond]
  | trans h₁ _ ih₁ ih₂ => exact (ih₁ hnodup).trans (ih₂ ((h₁.map Prod.fst).nodup_iff.1 hnodup))

theorem lookup_sortByName (hnodup : (members.map Prod.fst).Nodup) (key : ByteString) :
    (sortByName members).lookup key = members.lookup key := by
  have hperm : (sortByName members).Perm members := List.perm_insertionSort _ _
  exact lookup_perm hperm ((hperm.map Prod.fst).nodup_iff.2 hnodup) key

end Lookup

/-! ### Texts -/

theorem encodeUtf8_of_valid {text : Text} (h : ∀ c ∈ text, c.isValidChar) :
    encodeUtf8 text = some (text.flatMap fun c => String.utf8EncodeChar (Char.ofNat c)) := if_pos h

theorem decode_of_encodeUtf8 {text : Text} {bytes : Bytes} (h : encodeUtf8 text = some bytes) :
    Utf8.decode bytes = some text := by
  unfold encodeUtf8 at h
  split at h
  · cases h
    exact Utf8.decode_encode ‹_›
  · cases h

theorem valid_of_encodeUtf8 {text : Text} {bytes : Bytes} (h : encodeUtf8 text = some bytes) :
    Utf8.Valid bytes :=
  Utf8.decode_isSome.1 (Option.isSome_of_mem (decode_of_encodeUtf8 h))

theorem encodeUtf8_sevenBit {text : Text} (h : ∀ c ∈ text, c < 0x80) :
    encodeUtf8 text = some (text.map UInt8.ofNat) := by
  have hvalid : ∀ c ∈ text, c.isValidChar := fun c hc => .inl (Nat.lt_trans (h c hc) (by decide))
  have hchar : ∀ c < 0x80, String.utf8EncodeChar (Char.ofNat c) = [UInt8.ofNat c] := by
    decide +kernel
  rw [encodeUtf8_of_valid hvalid]
  refine congrArg some ?_
  rw [List.map_eq_flatMap]
  exact List.flatMap_congr fun c hc => hchar c (h c hc)

theorem map_codes (text : String) : (codes text).map UInt8.ofNat = ascii text := by
  rw [codes, List.map_map]
  rfl

theorem encodeUtf8_codes {text : String} (h : ((codes text).all fun c => c < 0x80) = true) :
    encodeUtf8 (codes text) = some (ascii text) := by
  rw [encodeUtf8_sevenBit fun c hc => of_decide_eq_true (List.all_eq_true.1 h c hc), map_codes]

theorem map_numeral (n : ℕ) : (numeral n).map UInt8.ofNat = decimal n := by
  rw [numeral, List.map_map]
  rfl

/-- The id of a command. -/
theorem encodeUtf8_commandId (n : ℕ) :
    encodeUtf8 (codes "v" ++ numeral n) = some (commandIdOf n) := by
  have hseven : ∀ c ∈ codes "v" ++ numeral n, c < 0x80 := by
    intro c hc
    rcases List.mem_append.1 hc with hc | hc
    · cases List.mem_singleton.1 hc
      decide
    · have hdigit : 0x30 ≤ c ∧ c ≤ 0x39 := of_decide_eq_true (isDigit_of_mem hc)
      omega
  rw [encodeUtf8_sevenBit hseven, List.map_append, map_codes, map_numeral, commandIdOf]

/-! ### Values and their texts -/

namespace Json

theorem validMembers_of_perm {members members' : List (ByteString × Json)}
    (h : members.Perm members') :
    validMembers members = validMembers members' := by
  induction h with
  | nil => rfl
  | cons member _ ih => rw [validMembers, validMembers, ih]
  | swap first second rest =>
    simp only [validMembers]
    exact Bool.and_left_comm _ _ _
  | trans _ _ ih₁ ih₂ => exact ih₁.trans ih₂

mutual

/-- The library's value has UTF-8 texts only. -/
theorem validText_ofValue (value : Value) (json : Json) (h : ofValue value = some json) :
    json.validText = true := by
  cases value with
  | null => cases h; rfl
  | boolean b => cases h; rfl
  | integer n =>
    unfold ofValue at h
    split at h
    · cases h; rfl
    · split at h
      · cases h; rfl
      · cases h
  | float numeral => cases h
  | string text =>
    obtain ⟨bytes, hbytes, rfl⟩ := Option.map_eq_some_iff.1 h
    exact validText_string.2 (valid_of_encodeUtf8 hbytes)
  | array items =>
    obtain ⟨items', hitems, rfl⟩ := Option.map_eq_some_iff.1 h
    exact validItems_ofItems items items' hitems
  | object members =>
    obtain ⟨members', hmembers, rfl⟩ := Option.map_eq_some_iff.1 h
    have hperm : (sortByName members').Perm members' := List.perm_insertionSort _ _
    exact (validMembers_of_perm hperm).trans (validMembers_ofMembers members members' hmembers)

theorem validItems_ofItems (items : List Value) (items' : List Json)
    (h : ofItems items = some items') :
    validItems items' = true := by
  cases items with
  | nil => cases h; rfl
  | cons item items =>
    obtain ⟨item', hitem, hrest⟩ := Option.bind_eq_some_iff.1 h
    obtain ⟨rest, hitems, hcons⟩ := Option.bind_eq_some_iff.1 hrest
    cases hcons
    exact Bool.and_eq_true_iff.2 ⟨validText_ofValue item item' hitem,
      validItems_ofItems items rest hitems⟩

theorem validMembers_ofMembers (members : List (Text × Value)) (members' : List (ByteString × Json))
    (h : ofMembers members = some members') : validMembers members' = true := by
  cases members with
  | nil => cases h; rfl
  | cons member members =>
    obtain ⟨name, hname, hmember⟩ := Option.bind_eq_some_iff.1 h
    obtain ⟨value, hvalue, hrest⟩ := Option.bind_eq_some_iff.1 hmember
    obtain ⟨rest, hmembers, hcons⟩ := Option.bind_eq_some_iff.1 hrest
    cases hcons
    refine Bool.and_eq_true_iff.2 ⟨Bool.and_eq_true_iff.2 ⟨?_, ?_⟩, ?_⟩
    · exact decide_eq_true (valid_of_encodeUtf8 hname)
    · exact validText_ofValue member.2 value hvalue
    · exact validMembers_ofMembers members rest hmembers

end

end Json

/-- A library that reads these values, and takes every other text for a malformed one. -/
def JsonLibrary.plain : JsonLibrary where
  parse line :=
    (((Utf8.decode line).bind JsonText.parse).bind Json.ofValue).elim (.error .parseError) .ok
  parse_validText := by
    intro line value h
    cases hread : ((Utf8.decode line).bind JsonText.parse).bind Json.ofValue with
    | none =>
      rw [hread] at h
      cases h
    | some json =>
      rw [hread] at h
      cases h
      obtain ⟨parsed, -, hvalue⟩ := Option.bind_eq_some_iff.1 hread
      exact Json.validText_ofValue parsed _ hvalue
  dumpFailure _ := ascii "[json.exception.type_error.316] invalid UTF-8 byte at index 0"
  dumpFailure_valid _ := by decide
  castOutOfUInt64 _ := 0
  castOutOfInt _ := 0

theorem JsonLibrary.readsJson_plain : JsonLibrary.plain.ReadsJson := by
  intro line text value json hline _ htext hvalue
  have hparsed : ((Utf8.decode line).bind JsonText.parse).bind Json.ofValue = some json := by
    rw [hline, Option.bind_some, htext, Option.bind_some, hvalue]
  unfold JsonLibrary.plain
  simp only [hparsed, Option.elim_some]

/-! ### Sent and received -/

namespace ViewerCommand

/-- What the engine's library makes of the command. -/
def message (n : ℕ) : ViewerCommand → Option Json
  | configure config =>
    (Json.ofValue config).map fun config => commandMessage (ascii "configure") (commandIdOf n)
      (some config)
  | send payloadHex =>
    (encodeUtf8 payloadHex).map fun payloadHex => sendMessage payloadHex (commandIdOf n)
  | startCapture => some (commandMessage (ascii "start_capture") (commandIdOf n) none)
  | stopCapture => some (commandMessage (ascii "stop_capture") (commandIdOf n) none)
  | getStatus => some (commandMessage (ascii "get_status") (commandIdOf n) none)
  | listSerialPorts => some (commandMessage (ascii "list_serial_ports") (commandIdOf n) none)

/-- Nothing in the arguments keeps the command from being dumped. -/
def Dumpable : ViewerCommand → Prop
  | configure config => JsonText.Dumpable config
  | send payloadHex => ∀ c ∈ payloadHex, c.isValidChar
  | startCapture | stopCapture | getStatus | listSerialPorts => True

variable {command : ViewerCommand} {n : ℕ} {message : Json}

theorem sevenBit_name (command : ViewerCommand) :
    ((codes command.name).all fun c => c < 0x80) = true := by
  have hall :
    ∀ name ∈ ["configure", "start_capture", "stop_capture", "get_status", "list_serial_ports",
      "send"],
      ((codes name).all fun c => c < 0x80) = true := by decide
  apply hall
  cases command <;> simp [name]

theorem encodeUtf8_name (command : ViewerCommand) :
    encodeUtf8 (codes command.name) = some (ascii command.name) :=
  encodeUtf8_codes (sevenBit_name command)

theorem ofValue_withId (command : ViewerCommand) (n : ℕ) :
    Json.ofValue (command.withId n) = command.message n := by
  have htype : encodeUtf8 (codes "type") = some (ascii "type") := encodeUtf8_codes (by decide)
  have hcommand : encodeUtf8 (codes "command") = some (ascii "command") :=
    encodeUtf8_codes (by decide)
  have hid : encodeUtf8 (codes "id") = some (ascii "id") := encodeUtf8_codes (by decide)
  cases command with
  | configure config =>
    have hconfig : encodeUtf8 (codes "config") = some (ascii "config") :=
      encodeUtf8_codes (by decide)
    have hmembers :
      ∀ found, Json.ofValue config = found → Json.ofValue ((configure config).withId n) =
        found.map fun config =>
          commandMessage (ascii "configure") (commandIdOf n) (some config) := by
      intro found hfound
      simp only [withId, arguments, Json.ofValue, List.cons_append, List.nil_append, Json.ofMembers,
        htype, hcommand, hid, encodeUtf8_name, hconfig, encodeUtf8_commandId, hfound,
        Option.bind_eq_bind, Option.bind_some]
      cases found <;> rfl
    exact hmembers _ rfl
  | send payloadHex =>
    have hpayload : encodeUtf8 (codes "payload_hex") = some (ascii "payload_hex") :=
      encodeUtf8_codes (by decide)
    have hmembers :
      ∀ found, encodeUtf8 payloadHex = found → Json.ofValue ((send payloadHex).withId n) =
        found.map fun payloadHex => sendMessage payloadHex (commandIdOf n) := by
      intro found hfound
      simp only [withId, arguments, Json.ofValue, List.cons_append, List.nil_append, Json.ofMembers,
        htype, hcommand, hid, encodeUtf8_name, hpayload, encodeUtf8_commandId, hfound,
        Option.bind_eq_bind, Option.bind_some]
      cases found <;> rfl
    exact hmembers _ rfl
  | startCapture | stopCapture | getStatus | listSerialPorts =>
    simp only [withId, arguments, Json.ofValue, List.cons_append, List.nil_append, Json.ofMembers,
      htype, hcommand, hid, encodeUtf8_name, encodeUtf8_commandId, message, Option.bind_eq_bind,
      Option.bind_some, Option.map_some]
    rfl

theorem dumpable_withId (h : command.Dumpable) (n : ℕ) : JsonText.Dumpable (command.withId n) := by
  have hseven : ∀ text : Text, (∀ c ∈ text, c < 0x80) → ∀ c ∈ text, c.isValidChar :=
    fun _ htext c hc => .inl (Nat.lt_trans (htext c hc) (by decide))
  have hid : ∀ c ∈ codes "v" ++ numeral n, c.isValidChar := by
    refine hseven _ fun c hc => ?_
    rcases List.mem_append.1 hc with hc | hc
    · cases List.mem_singleton.1 hc
      decide
    · have hdigit : 0x30 ≤ c ∧ c ≤ 0x39 := of_decide_eq_true (isDigit_of_mem hc)
      omega
  have hname : ∀ c ∈ codes command.name, c.isValidChar :=
    hseven _ fun c hc => of_decide_eq_true (List.all_eq_true.1 (sevenBit_name command) c hc)
  have hkeys : ∀ key ∈ ["type", "command", "config", "payload_hex", "id"],
    ∀ c ∈ codes key, c.isValidChar := by decide
  have htype := hkeys "type" (by decide)
  have hcommand := hkeys "command" (by decide)
  have hkey := hkeys "id" (by decide)
  cases command with
  | configure config =>
    have hnames : [codes "type", codes "command", codes "config", codes "id"].Nodup := by decide
    exact ⟨hnames, htype, hcommand, hcommand, hname, hkeys "config" (by decide), h, hkey, hid,
      trivial⟩
  | send payloadHex =>
    have hnames : [codes "type", codes "command", codes "payload_hex", codes "id"].Nodup := by
      decide
    exact ⟨hnames, htype, hcommand, hcommand, hname, hkeys "payload_hex" (by decide), h, hkey, hid,
      trivial⟩
  | startCapture | stopCapture | getStatus | listSerialPorts =>
    have hnames : [codes "type", codes "command", codes "id"].Nodup := by decide
    exact ⟨hnames, htype, hcommand, hcommand, hname, hkey, hid, trivial⟩

/-- The bytes of the line are the characters that were dumped. -/
theorem decode_line (h : command.Dumpable) (n : ℕ) :
    Utf8.decode (command.line n) = some (dumps (command.withId n)) ∧
      ∀ b ∈ command.line n, 0x20 ≤ b ∧ b ≤ 0x7E := by
  have hprintable := printable_dumps (command.withId n) (dumpable_withId h n)
  have hbytes : ∀ c ∈ dumps (command.withId n), (UInt8.ofNat c).toNat = c := by
    intro c hc
    have hrange := hprintable c hc
    exact UInt8.toNat_ofNat_of_lt' (by change c < 256; omega)
  have hrange : ∀ b ∈ command.line n, 0x20 ≤ b ∧ b ≤ 0x7E := by
    intro b hb
    obtain ⟨c, hc, rfl⟩ := List.mem_map.1 hb
    have hcode := hprintable c hc
    simp only [UInt8.le_iff_toNat_le, hbytes c hc, UInt8.reduceToNat]
    exact hcode
  have hseven : ∀ b ∈ command.line n, b < 0x80 := by
    intro b hb
    have hb := (hrange b hb).2
    simp only [UInt8.le_iff_toNat_le, UInt8.lt_iff_toNat_lt, UInt8.reduceToNat] at hb ⊢
    omega
  refine ⟨?_, hrange⟩
  rw [Utf8.decode_sevenBit hseven, line, List.map_map]
  exact congrArg some ((List.map_congr_left hbytes).trans (List.map_id _))

theorem parse_line {lib : JsonLibrary} (hlib : lib.ReadsJson) (h : command.Dumpable)
    (hmessage : command.message n = some message) : lib.parse (command.line n) = .ok message :=
  hlib _ _ _ _ (decode_line h n).1 (not_hasMinusZero_dumps (dumpable_withId h n))
    (renders_dumps _ (dumpable_withId h n)).parse ((ofValue_withId command n).trans hmessage)

theorem acceptedCommand_message (h : command.message n = some message) :
    acceptedCommand message = some (ascii command.name) ∧ commandId message = commandIdOf n := by
  cases command with
  | configure config =>
    obtain ⟨_, -, rfl⟩ := Option.map_eq_some_iff.1 h
    exact ⟨rfl, rfl⟩
  | send payloadHex =>
    obtain ⟨_, -, rfl⟩ := Option.map_eq_some_iff.1 h
    exact ⟨rfl, rfl⟩
  | startCapture | stopCapture | getStatus | listSerialPorts =>
    cases h
    exact ⟨rfl, rfl⟩

end ViewerCommand

end PacketProbe
