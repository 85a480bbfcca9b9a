import PacketProbe.CaptureForm
import PacketProbe.SendPanel
import Mathlib.Algebra.GroupWithZero.Nat
import Mathlib.Data.List.DropRight
import Mathlib.Logic.Function.Basic

/-!
# The settings of the viewer

`save_settings` writes the widgets into a store of texts when the window is closed, and
`load_settings` fills the widgets of the next window from it.
-/

namespace PacketProbe
open JsonText

deriving instance DecidableEq for Eol

/-! ### The state that is stored -/

structure ViewerState where
  cliPath : Text := []
  socketPath : Text := []
  sendInHex : Bool := false
  eolIndex : ℤ := 0
  modeIndex : ℤ := 0
  udpBindHost : Text := codes "0.0.0.0"
  udpBindPort : Text := codes "19000"
  udpTargetHost : Text := codes "127.0.0.1"
  udpTargetPort : Text := codes "19085"
  tcpCliHost : Text := codes "127.0.0.1"
  tcpCliPort : Text := codes "19085"
  tcpSrvHost : Text := codes "0.0.0.0"
  tcpSrvPort : Text := codes "19085"
  tcpPrxListenHost : Text := codes "127.0.0.1"
  tcpPrxListenPort : Text := codes "19000"
  tcpPrxTargetHost : Text := codes "127.0.0.1"
  tcpPrxTargetPort : Text := codes "19085"
  serPort : Text := codes "/dev/ttyUSB0"
  serBaud : Text := codes "115200"
  decoderIndex : ℤ := 0
  decFixedSize : ℤ := 16
  decDelim : Text := codes "0A"
  decDelimInc : Bool := false
  decLenSize : Text := codes "2"
  decLenEndian : Text := codes "big"
  decLenIncHdr : Bool := false
  logFile : Text := codes "capture.jsonl"
  logEnabled : Bool := false

/-- What is stored under each key. -/
abbrev QSettings := String → Option Text

namespace QSettings

def value (s : QSettings) (key : String) (default : Text) : Text := (s key).getD default

/-- `int(s.value(key, default))`, with nothing for a `ValueError`. -/
def intValue (s : QSettings) (key : String) (default : ℤ) : Option ℤ :=
  (s key).elim (some default) fun text => pyInt (strip text)

/-- `s.value(key, "false") == "true"`. -/
def boolValue (s : QSettings) (key : String) : Bool := s.value key (codes "false") == codes "true"

end QSettings

def boolText (b : Bool) : Text := codes (if b then "true" else "false")

namespace ViewerState

def load (s : QSettings) (defaults : ViewerState) : Option ViewerState := do
  let eolIndex ← s.intValue "eol_index" defaults.eolIndex
  let modeIndex ← s.intValue "mode_index" defaults.modeIndex
  let decoderIndex ← s.intValue "decoder_index" defaults.decoderIndex
  let decFixedSize ← s.intValue "dec_fixed_size" defaults.decFixedSize
  some {
    cliPath := s.value "cli_path" defaults.cliPath
    socketPath := s.value "socket_path" defaults.socketPath
    sendInHex := s.boolValue "send_in_hex"
    eolIndex
    modeIndex
    udpBindHost := s.value "udp_bind_host" defaults.udpBindHost
    udpBindPort := s.value "udp_bind_port" defaults.udpBindPort
    udpTargetHost := s.value "udp_target_host" defaults.udpTargetHost
    udpTargetPort := s.value "udp_target_port" defaults.udpTargetPort
    tcpCliHost := s.value "tcp_cli_host" defaults.tcpCliHost
    tcpCliPort := s.value "tcp_cli_port" defaults.tcpCliPort
    tcpSrvHost := s.value "tcp_srv_host" defaults.tcpSrvHost
    tcpSrvPort := s.value "tcp_srv_port" defaults.tcpSrvPort
    tcpPrxListenHost := s.value "tcp_prx_listen_host" defaults.tcpPrxListenHost
    tcpPrxListenPort := s.value "tcp_prx_listen_port" defaults.tcpPrxListenPort
    tcpPrxTargetHost := s.value "tcp_prx_target_host" defaults.tcpPrxTargetHost
    tcpPrxTargetPort := s.value "tcp_prx_target_port" defaults.tcpPrxTargetPort
    serPort := s.value "ser_port" defaults.serPort
    serBaud := s.value "ser_baud" defaults.serBaud
    decoderIndex
    decFixedSize
    decDelim := s.value "dec_delim" defaults.decDelim
    decDelimInc := s.boolValue "dec_delim_inc"
    decLenSize := s.value "dec_len_size" defaults.decLenSize
    decLenEndian := s.value "dec_len_endian" defaults.decLenEndian
    decLenIncHdr := s.boolValue "dec_len_inc_hdr"
    logFile := s.value "log_file" defaults.logFile
    logEnabled := s.boolValue "log_enabled" }

/-- The entries that `save` writes, in its order. -/
def entries (state : ViewerState) : List (String × Text) :=
  [("cli_path", state.cliPath),
    ("socket_path", state.socketPath),
    ("send_in_hex", boolText state.sendInHex),
    ("eol_index", integerText state.eolIndex),
    ("mode_index", integerText state.modeIndex),
    ("udp_bind_host", state.udpBindHost),
    ("udp_bind_port", state.udpBindPort),
    ("udp_target_host", state.udpTargetHost),
    ("udp_target_port", state.udpTargetPort),
    ("tcp_cli_host", state.tcpCliHost),
    ("tcp_cli_port", state.tcpCliPort),
    ("tcp_srv_host", state.tcpSrvHost),
    ("tcp_srv_port", state.tcpSrvPort),
    ("tcp_prx_listen_host", state.tcpPrxListenHost),
    ("tcp_prx_listen_port", state.tcpPrxListenPort),
    ("tcp_prx_target_host", state.tcpPrxTargetHost),
    ("tcp_prx_target_port", state.tcpPrxTargetPort),
    ("ser_port", state.serPort),
    ("ser_baud", state.serBaud),
    ("decoder_index", integerText state.decoderIndex),
    ("dec_fixed_size", integerText state.decFixedSize),
    ("dec_delim", state.decDelim),
    ("dec_delim_inc", boolText state.decDelimInc),
    ("dec_len_size", state.decLenSize),
    ("dec_len_endian", state.decLenEndian),
    ("dec_len_inc_hdr", boolText state.decLenIncHdr),
    ("log_file", state.logFile),
    ("log_enabled", boolText state.logEnabled)]

def save (state : ViewerState) (s : QSettings) : QSettings :=
  state.entries.foldl (fun s entry => Function.update s entry.1 (some entry.2)) s

end ViewerState

/-! ### The widgets -/

def eols : List Eol := [.none, .lf, .cr, .crlf]

def uiModes : List UiMode := [.udp, .tcpClient, .tcpServer, .tcpProxy, .serial]

def decoderChoices : List DecoderChoice := [.raw, .fixed, .delimiter, .lengthPrefix]

def lengthSizes : List LengthSizeChoice := [.one, .two, .four]

def endians : List EndianChoice := [.big, .little]

/-- `currentText()` of the box for the size of a length. -/
def LengthSizeChoice.label : LengthSizeChoice → Text
  | one => codes "1"
  | two => codes "2"
  | four => codes "4"

section Boxes

variable {α : Type}

/-- `currentIndex()` of a box with these entries. -/
def currentIndex [DecidableEq α] (entries : List α) (chosen : Option α) : ℤ :=
  chosen.elim (-1) fun a => entries.idxOf a

/-- What `setCurrentIndex` chooses. -/
def entryAt (entries : List α) (index : ℤ) : Option α :=
  if 0 ≤ index then entries[index.toNat]? else none

/-- `setCurrentText` of a box that cannot be edited: an unknown text leaves the choice. -/
def setCurrentText (entries : List α) (label : α → Text) (chosen : α) (text : Text) : α :=
  (entries.find? fun a => label a == text).getD chosen

end Boxes

/-- `setValue` of the spin box for the frame size. -/
def clampFrameSize (n : ℤ) : FrameSize :=
  ⟨(min (max n 1) 1000000).toNat, by omega⟩

/-- The widgets that are stored. -/
structure SettingsForm where
  cliPath : Text := []
  socketPath : Text := []
  sendInHex : Bool := false
  eol : Option Eol := some .none
  capture : CaptureForm := {}

namespace CaptureForm

/-- The name that `on_mode_changed` gives to the log. -/
def logFileOf : UiMode → Text
  | .udp => codes "udp.jsonl"
  | .tcpClient => codes "tcp_client.jsonl"
  | .tcpServer => codes "tcp_server.jsonl"
  | .tcpProxy => codes "tcp_proxy.jsonl"
  | .serial => codes "serial.jsonl"

/-- `setCurrentIndex` of the mode box, which calls `on_mode_changed` for another index. -/
def setMode (form : CaptureForm) (mode : Option UiMode) : CaptureForm :=
  if mode = form.mode then form
  else { form with
    mode
    logFile := (mode.map logFileOf).getD form.logFile }

end CaptureForm

namespace SettingsForm

/-- `load_settings` with what `load` has returned. -/
def fill (window : SettingsForm) (state : ViewerState) : SettingsForm where
  cliPath := state.cliPath
  socketPath := state.socketPath
  sendInHex := state.sendInHex
  eol := entryAt eols state.eolIndex
  capture :=
    let form := window.capture.setMode (entryAt uiModes state.modeIndex)
    { form with
      udpBindHost := state.udpBindHost
      udpBindPort := state.udpBindPort
      udpTargetHost := state.udpTargetHost
      udpTargetPort := state.udpTargetPort
      tcpCliHost := state.tcpCliHost
      tcpCliPort := state.tcpCliPort
      tcpSrvHost := state.tcpSrvHost
      tcpSrvPort := state.tcpSrvPort
      tcpPrxListenHost := state.tcpPrxListenHost
      tcpPrxListenPort := state.tcpPrxListenPort
      tcpPrxTargetHost := state.tcpPrxTargetHost
      tcpPrxTargetPort := state.tcpPrxTargetPort
      serPort := state.serPort
      serBaud := state.serBaud
      decoder := entryAt decoderChoices state.decoderIndex
      decFixedSize := clampFrameSize state.decFixedSize
      decDelim := state.decDelim
      decDelimInc := state.decDelimInc
      decLenSize :=
        setCurrentText lengthSizes LengthSizeChoice.label form.decLenSize state.decLenSize
      decLenEndian := setCurrentText endians EndianChoice.label form.decLenEndian state.decLenEndian
      decLenIncHdr := state.decLenIncHdr
      logFile := state.logFile
      logEnabled := state.logEnabled }

/-- `load_settings`, with nothing for an exception; `binary` is what `find_packet_probe_binary`
returns. -/
def loadSettings (window : SettingsForm) (binary initialSocketPath : Text) (s : QSettings) :
    Option SettingsForm :=
  (ViewerState.load s { cliPath := binary, socketPath := initialSocketPath }).map window.fill

/-- What `save_settings` reads off the widgets. -/
def state (window : SettingsForm) : ViewerState where
  cliPath := strip window.cliPath
  socketPath := strip window.socketPath
  sendInHex := window.sendInHex
  eolIndex := currentIndex eols window.eol
  modeIndex := currentIndex uiModes window.capture.mode
  udpBindHost := strip window.capture.udpBindHost
  udpBindPort := strip window.capture.udpBindPort
  udpTargetHost := strip window.capture.udpTargetHost
  udpTargetPort := strip window.capture.udpTargetPort
  tcpCliHost := strip window.capture.tcpCliHost
  tcpCliPort := strip window.capture.tcpCliPort
  tcpSrvHost := strip window.capture.tcpSrvHost
  tcpSrvPort := strip window.capture.tcpSrvPort
  tcpPrxListenHost := strip window.capture.tcpPrxListenHost
  tcpPrxListenPort := strip window.capture.tcpPrxListenPort
  tcpPrxTargetHost := strip window.capture.tcpPrxTargetHost
  tcpPrxTargetPort := strip window.capture.tcpPrxTargetPort
  serPort := strip window.capture.serPort
  serBaud := strip window.capture.serBaud
  decoderIndex := currentIndex decoderChoices window.capture.decoder
  decFixedSize := window.capture.decFixedSize.1
  decDelim := strip window.capture.decDelim
  decDelimInc := window.capture.decDelimInc
  decLenSize := window.capture.decLenSize.label
  decLenEndian := window.capture.decLenEndian.label
  decLenIncHdr := window.capture.decLenIncHdr
  logFile := strip window.capture.logFile
  logEnabled := window.capture.logEnabled

def saveSettings (window : SettingsForm) (s : QSettings) : QSettings := window.state.save s

end SettingsForm

/-! ### Numerals and stripped texts -/

section Texts

variable {text : Text}

theorem dropWhile_eq_self {α : Type} {p : α → Bool} {l : List α} (h : ∀ a ∈ l.head?, p a = false) :
    l.dropWhile p = l := by
  cases l with
  | nil => rfl
  | cons a l => exact List.dropWhile_cons_of_neg (by rw [h a rfl]; exact Bool.false_ne_true)

theorem strip_eq_self (h : ∀ c ∈ text, isSpace c = false) : strip text = text := by
  have hreverse : text.reverse.dropWhile isSpace = text.reverse :=
    dropWhile_eq_self fun c hc => h c (List.mem_reverse.1 (List.mem_of_head? hc))
  rw [strip, dropWhile_eq_self fun c hc => h c (List.mem_of_head? hc), hreverse,
    List.reverse_reverse]

/-- Nothing is left to strip. -/
theorem strip_strip (text : Text) : strip (strip text) = strip text := by
  have hfront : (strip text).dropWhile isSpace = strip text := by
    refine dropWhile_eq_self fun c hc => ?_
    obtain ⟨rest, hrest⟩ : strip text <+: text.dropWhile isSpace := List.rdropWhile_prefix isSpace _
    have hhead : (text.dropWhile isSpace).head? = some c := by
      rw [← hrest]
      obtain ⟨others, hothers⟩ := List.head?_eq_some_iff.1 hc
      rw [hothers]
      rfl
    have hnot := List.head?_dropWhile_not isSpace text
    rwa [hhead] at hnot
  have hback : (strip text).rdropWhile isSpace = strip text := List.rdropWhile_idempotent isSpace _
  change ((strip text).dropWhile isSpace).rdropWhile isSpace = strip text
  rw [hfront, hback]

theorem unicodeDigit_of_isDigit {c : ℕ} (h : isDigit c = true) :
    unicodeDigit c = some (c - 0x30) ∧ c ≠ 0x5F := by
  have hall : ∀ n < 10, unicodeDigit (0x30 + n) = some n := by decide +kernel
  have hrange : 0x30 ≤ c ∧ c ≤ 0x39 := of_decide_eq_true h
  obtain ⟨n, rfl⟩ := Nat.exists_eq_add_of_le hrange.1
  exact ⟨by rw [hall n (by omega), Nat.add_sub_cancel_left], by omega⟩

theorem pyDigits_of_isDigit (h : ∀ c ∈ text, isDigit c = true) :
    pyDigits true text = some (text.map (· - 0x30)) := by
  induction text with
  | nil => rfl
  | cons c text ih =>
    obtain ⟨hdigit, hmark⟩ := unicodeDigit_of_isDigit (h c List.mem_cons_self)
    rw [pyDigits, if_neg hmark, hdigit, ih fun d hd => h d (List.mem_cons_of_mem _ hd)]
    rfl

theorem pyNatural_numeral {n : ℕ} (h : n < 10 ^ maxStrDigits) : pyNatural (numeral n) = some n := by
  obtain ⟨c, digits, hnumeral, hdigit⟩ := numeral_head n
  have hfirst : pyDigits false (numeral n) = pyDigits true (numeral n) := by
    rw [hnumeral, pyDigits, pyDigits, if_neg (unicodeDigit_of_isDigit hdigit).2,
      if_neg (unicodeDigit_of_isDigit hdigit).2]
  have hlength : (numeral n).length ≤ maxStrDigits := by
    rw [numeral, List.length_map]
    exact (Nat.length_toDigits_le_iff (by decide) (by decide)).2 h
  rw [pyNatural, hfirst, pyDigits_of_isDigit fun c hc => isDigit_of_mem hc]
  simp only [List.length_map, if_pos hlength, List.foldl_map]
  exact congrArg some (digitsValue_numeral n)

/-- An integer is read back from what is stored for it. -/
theorem pyInt_integerText {n : ℤ} (h : n.natAbs < 10 ^ maxStrDigits) :
    pyInt (strip (integerText n)) = some n := by
  have hdigit : ∀ {c : ℕ}, isDigit c = true → isSpace c = false ∧ c ≠ 0x2D ∧ c ≠ 0x2B := by
    intro c hc
    have hrange : 0x30 ≤ c ∧ c ≤ 0x39 := of_decide_eq_true hc
    unfold isSpace
    simp only [Bool.or_eq_false_iff, Bool.and_eq_false_iff, decide_eq_false_iff_not]
    omega
  cases n with
  | ofNat n =>
    obtain ⟨c, digits, hnumeral, hc⟩ := numeral_head n
    have hnatural := pyNatural_numeral (show n < 10 ^ maxStrDigits from h)
    rw [integerText, strip_eq_self fun c hc => (hdigit (isDigit_of_mem hc)).1]
    rw [hnumeral] at hnatural ⊢
    rw [pyInt, if_neg (hdigit hc).2.1, if_neg (hdigit hc).2.2, hnatural]
    rfl
  | negSucc n =>
    have hnatural := pyNatural_numeral (show n + 1 < 10 ^ maxStrDigits from h)
    have hspace : ∀ c ∈ 0x2D :: numeral (n + 1), isSpace c = false := by
      intro c hc
      rcases List.mem_cons.1 hc with rfl | hc
      · decide
      · exact (hdigit (isDigit_of_mem hc)).1
    rw [integerText, strip_eq_self hspace, pyInt, if_pos rfl, hnatural]
    rfl

end Texts

/-! ### Stored and loaded -/

section Store

variable {α β : Type} [DecidableEq α] {entries : List (α × β)} {key : α}

theorem foldl_update_of_notMem (h : key ∉ entries.map Prod.fst) (s : α → Option β) :
    entries.foldl (fun (s : α → Option β) entry => Function.update s entry.1 (some entry.2)) s key =
      s key := by
  induction entries generalizing s with
  | nil => rfl
  | cons entry entries ih =>
    rw [List.map_cons, List.mem_cons, not_or] at h
    rw [List.foldl_cons, ih h.2, Function.update_of_ne h.1]

theorem foldl_update_of_mem {value : β} (hnodup : (entries.map Prod.fst).Nodup)
    (h : (key, value) ∈ entries) (s : α → Option β) :
    entries.foldl (fun (s : α → Option β) entry => Function.update s entry.1 (some entry.2)) s key =
      some value := by
  induction entries generalizing s with
  | nil => cases h
  | cons entry entries ih =>
    rw [List.map_cons, List.nodup_cons] at hnodup
    rw [List.foldl_cons]
    rcases List.mem_cons.1 h with rfl | hmem
    · rw [foldl_update_of_notMem hnodup.1, Function.update_self]
    · exact ih hnodup.2 hmem _

end Store

namespace ViewerState

variable {state : ViewerState} {key : String}

theorem save_of_mem {text : Text} (h : (key, text) ∈ state.entries) (s : QSettings) :
    state.save s key = some text := by
  have hkeys : state.entries.map Prod.fst = ({} : ViewerState).entries.map Prod.fst := rfl
  exact foldl_update_of_mem (by rw [hkeys]; decide +kernel) h s

theorem value_save {text : Text} (h : (key, text) ∈ state.entries) (s : QSettings)
    (default : Text) :
    (state.save s).value key default = text := by
  rw [QSettings.value, save_of_mem h, Option.getD_some]

theorem boolValue_save {b : Bool} (h : (key, boolText b) ∈ state.entries) (s : QSettings) :
    (state.save s).boolValue key = b := by
  rw [QSettings.boolValue, value_save h]
  cases b <;> decide

theorem intValue_save {n : ℤ} (h : (key, integerText n) ∈ state.entries)
    (hn : n.natAbs < 10 ^ maxStrDigits)
    (s : QSettings) (default : ℤ) : (state.save s).intValue key default = some n := by
  rw [QSettings.intValue, save_of_mem h]
  exact pyInt_integerText hn

/-- What has been saved is loaded, whatever had been stored and whatever the defaults are. -/
theorem load_save (heol : state.eolIndex.natAbs < 10 ^ maxStrDigits)
    (hmode : state.modeIndex.natAbs < 10 ^ maxStrDigits)
    (hdecoder : state.decoderIndex.natAbs < 10 ^ maxStrDigits)
    (hsize : state.decFixedSize.natAbs < 10 ^ maxStrDigits) (s : QSettings)
    (defaults : ViewerState) :
    load (state.save s) defaults = some state := by
  have hint : ∀ key n, (key, integerText n) ∈ state.entries → n.natAbs < 10 ^ maxStrDigits →
      ∀ default, (state.save s).intValue key default = some n := fun key n h hn =>
        intValue_save h hn s
  have hvalue : ∀ key text, (key, text) ∈ state.entries →
      ∀ default, (state.save s).value key default = text :=
    fun key text h => value_save h s
  have hbool : ∀ key b, (key, boolText b) ∈ state.entries → (state.save s).boolValue key = b :=
    fun key b h => boolValue_save h s
  unfold load
  rw [hint "eol_index" state.eolIndex (by simp [entries]) heol,
    hint "mode_index" state.modeIndex (by simp [entries]) hmode,
    hint "decoder_index" state.decoderIndex (by simp [entries]) hdecoder,
    hint "dec_fixed_size" state.decFixedSize (by simp [entries]) hsize]
  simp only [Option.bind_eq_bind, Option.bind_some,
    hvalue "cli_path" state.cliPath (by simp [entries]),
    hvalue "socket_path" state.socketPath (by simp [entries]),
    hvalue "udp_bind_host" state.udpBindHost (by simp [entries]),
    hvalue "udp_bind_port" state.udpBindPort (by simp [entries]),
    hvalue "udp_target_host" state.udpTargetHost (by simp [entries]),
    hvalue "udp_target_port" state.udpTargetPort (by simp [entries]),
    hvalue "tcp_cli_host" state.tcpCliHost (by simp [entries]),
    hvalue "tcp_cli_port" state.tcpCliPort (by simp [entries]),
    hvalue "tcp_srv_host" state.tcpSrvHost (by simp [entries]),
    hvalue "tcp_srv_port" state.tcpSrvPort (by simp [entries]),
    hvalue "tcp_prx_listen_host" state.tcpPrxListenHost (by simp [entries]),
    hvalue "tcp_prx_listen_port" state.tcpPrxListenPort (by simp [entries]),
    hvalue "tcp_prx_target_host" state.tcpPrxTargetHost (by simp [entries]),
    hvalue "tcp_prx_target_port" state.tcpPrxTargetPort (by simp [entries]),
    hvalue "ser_port" state.serPort (by simp [entries]),
    hvalue "ser_baud" state.serBaud (by simp [entries]),
    hvalue "dec_delim" state.decDelim (by simp [entries]),
    hvalue "dec_len_size" state.decLenSize (by simp [entries]),
    hvalue "dec_len_endian" state.decLenEndian (by simp [entries]),
    hvalue "log_file" state.logFile (by simp [entries]),
    hbool "send_in_hex" state.sendInHex (by simp [entries]),
    hbool "dec_delim_inc" state.decDelimInc (by simp [entries]),
    hbool "dec_len_inc_hdr" state.decLenIncHdr (by simp [entries]),
    hbool "log_enabled" state.logEnabled (by simp [entries])]

end ViewerState

/-! ### The boxes -/

section Boxes

variable {α : Type} [DecidableEq α] {entries : List α}

theorem entryAt_currentIndex (h : ∀ a, a ∈ entries) (chosen : Option α) :
    entryAt entries (currentIndex entries chosen) = chosen := by
  cases chosen with
  | none => rfl
  | some a =>
    change (if (0 : ℤ) ≤ (entries.idxOf a : ℤ) then entries[entries.idxOf a]? else none) = some a
    rw [if_pos (Int.natCast_nonneg _)]
    exact List.getElem?_idxOf (h a)

theorem natAbs_currentIndex_le (entries : List α) (chosen : Option α) :
    (currentIndex entries chosen).natAbs ≤ entries.length + 1 := by
  cases chosen with
  | none => exact Nat.succ_le_succ (Nat.zero_le _)
  | some a => exact List.idxOf_le_length.trans (Nat.le_succ _)

end Boxes

theorem clampFrameSize_val (size : FrameSize) : clampFrameSize size.1 = size := by
  obtain ⟨n, hlow, hhigh⟩ := size
  refine Subtype.ext ?_
  change (min (max (n : ℤ) 1) 1000000).toNat = n
  omega

/-! ### A window that is opened again -/

/-- The form with nothing around its texts. -/
def CaptureForm.stripped (form : CaptureForm) : CaptureForm :=
  { form with
    udpBindHost := strip form.udpBindHost
    udpBindPort := strip form.udpBindPort
    udpTargetHost := strip form.udpTargetHost
    udpTargetPort := strip form.udpTargetPort
    tcpCliHost := strip form.tcpCliHost
    tcpCliPort := strip form.tcpCliPort
    tcpSrvHost := strip form.tcpSrvHost
    tcpSrvPort := strip form.tcpSrvPort
    tcpPrxListenHost := strip form.tcpPrxListenHost
    tcpPrxListenPort := strip form.tcpPrxListenPort
    tcpPrxTargetHost := strip form.tcpPrxTargetHost
    tcpPrxTargetPort := strip form.tcpPrxTargetPort
    serPort := strip form.serPort
    serBaud := strip form.serBaud
    decDelim := strip form.decDelim
    logFile := strip form.logFile }

theorem lookup_mapSnd {α β γ : Type} [BEq α] (f : β → γ) (entries : List (α × β)) (key : α) :
    (entries.map fun entry => (entry.1, f entry.2)).lookup key = (entries.lookup key).map f := by
  induction entries with
  | nil => rfl
  | cons entry entries ih =>
    rw [List.map_cons, List.lookup_cons, List.lookup_cons, ih]
    split <;> rfl

/-- The configuration depends on the fields only as far as something is left of them. -/
theorem buildCaptureConfig_congr {fields fields' : List (String × Text)}
    (h : ∀ name default, strip (fieldOf fields name default) = strip (fieldOf fields' name default))
    (uiMode : Text) (decoder : ViewerDecoderConfig) (common : CommonSettings) :
    buildCaptureConfig uiMode fields decoder common =
      buildCaptureConfig uiMode fields' decoder common := by
  simp only [buildCaptureConfig, pyParsePort, pyParseBaudrate, h]

namespace CaptureForm

variable (form : CaptureForm)

theorem fields_stripped :
    form.stripped.fields = form.fields.map fun field => (field.1, strip field.2) := by
  have hmode : form.stripped.mode = form.mode := rfl
  unfold fields
  rw [hmode]
  cases form.mode with
  | none => rfl
  | some mode => cases mode <;> rfl

theorem collectCaptureConfig_stripped :
    form.stripped.collectCaptureConfig = form.collectCaptureConfig := by
  have hdecoder : form.stripped.decoderConfig = form.decoderConfig :=
    congrArg (fun delimiterHex => { form.decoderConfig with delimiterHex })
      (strip_strip form.decDelim)
  have hcommon : form.stripped.commonSettings = form.commonSettings :=
    congrArg (fun text => { logPath := if form.logEnabled then text else [] : CommonSettings })
      (strip_strip form.logFile)
  rw [collectCaptureConfig, collectCaptureConfig, hdecoder, hcommon]
  refine buildCaptureConfig_congr (fun name default => ?_) _ _ _
  rw [fields_stripped, fieldOf, fieldOf, lookup_mapSnd]
  cases form.fields.lookup name with
  | none => rfl
  | some value => exact strip_strip value

end CaptureForm

namespace SettingsForm

def stripped (window : SettingsForm) : SettingsForm :=
  { window with
    cliPath := strip window.cliPath
    socketPath := strip window.socketPath
    capture := window.capture.stripped }

variable (window : SettingsForm)

theorem fill_state (fresh : SettingsForm) : fresh.fill window.state = window.stripped := by
  have heol : entryAt eols (currentIndex eols window.eol) = window.eol :=
    entryAt_currentIndex (fun eol => by cases eol <;> decide) _
  have hmode : entryAt uiModes (currentIndex uiModes window.capture.mode) = window.capture.mode :=
    entryAt_currentIndex (fun mode => by cases mode <;> decide) _
  have hdecoder : entryAt decoderChoices (currentIndex decoderChoices window.capture.decoder) =
      window.capture.decoder := entryAt_currentIndex (fun decoder => by cases decoder <;> decide) _
  have hsize := clampFrameSize_val window.capture.decFixedSize
  have hlength : ∀ chosen a, setCurrentText lengthSizes LengthSizeChoice.label chosen a.label =
      a := by
    intro chosen a
    cases a <;> rfl
  have hendian : ∀ chosen a, setCurrentText endians EndianChoice.label chosen a.label = a := by
    intro chosen a
    cases a <;> rfl
  have hset : ∀ mode, (fresh.capture.setMode mode).mode = mode := by
    intro mode
    unfold CaptureForm.setMode
    split
    · rename_i hsame
      exact hsame.symm
    · rfl
  simp only [fill, state, stripped, CaptureForm.stripped, heol, hmode, hdecoder, hsize, hlength,
    hendian, hset]

theorem load_state (s : QSettings) (defaults : ViewerState) :
    ViewerState.load (window.saveSettings s) defaults = some window.state := by
  have hsmall : ∀ n, n < 10 ^ 7 → n < 10 ^ maxStrDigits := fun n hn =>
    hn.trans_le (Nat.pow_le_pow_right (by decide) (by decide))
  have hsize : window.capture.decFixedSize.1 < 10 ^ 7 :=
    lt_of_le_of_lt window.capture.decFixedSize.2.2 (by decide)
  exact ViewerState.load_save
    (hsmall _ (lt_of_le_of_lt (natAbs_currentIndex_le eols window.eol) (by decide)))
    (hsmall _ (lt_of_le_of_lt (natAbs_currentIndex_le uiModes window.capture.mode) (by decide)))
    (hsmall _
      (lt_of_le_of_lt (natAbs_currentIndex_le decoderChoices window.capture.decoder) (by decide)))
    (show window.state.decFixedSize.natAbs < 10 ^ maxStrDigits from hsmall _ hsize) s defaults

end SettingsForm

/-- Whatever was stored before, and whatever the next window begins with, it is filled as the window
was that has been closed, up to whitespace around its texts: it collects the same configuration,
sends in the same way, and would store the same again. -/
theorem settings_reopened (window fresh : SettingsForm) (binary initialSocketPath : Text)
    (s : QSettings) :
    ∃ opened, fresh.loadSettings binary initialSocketPath (window.saveSettings s) = some opened ∧
      opened.capture.collectCaptureConfig = window.capture.collectCaptureConfig ∧
      opened.cliPath = strip window.cliPath ∧ opened.socketPath = strip window.socketPath ∧
      opened.sendInHex = window.sendInHex ∧ opened.eol = window.eol ∧
      opened.saveSettings s = window.saveSettings s := by
  refine ⟨window.stripped, ?_, window.capture.collectCaptureConfig_stripped, rfl, rfl, rfl, rfl, ?_⟩
  · rw [SettingsForm.loadSettings, window.load_state, Option.map_some, window.fill_state]
  · unfold SettingsForm.saveSettings
    congr 1
    simp only [SettingsForm.state, SettingsForm.stripped, CaptureForm.stripped, strip_strip]

end PacketProbe
