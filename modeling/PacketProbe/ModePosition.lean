import PacketProbe.CommandLine

/-!
# The position of the mode word

`parse_args` takes the mode word wherever it stands among the options. Only `--port` looks at the
mode that has been read so far.
-/

namespace PacketProbe

/-! ### Options of another mode -/

def CliOptions.withMode (options : CliOptions) (mode : ByteString) : CliOptions :=
  { options with mode }

namespace ArgEffect

/-- The same effect on the options of another mode. -/
def withMode (mode : ByteString) : ArgEffect → ArgEffect
  | done result => .done (result.map fun options => options.withMode mode)
  | takesValue read =>
    .takesValue fun value => (read value).map fun options => options.withMode mode

theorem withMode_parsed {α : Type} (mode : ByteString) (parse : ByteString → Except StdException α)
    (set : α → CliOptions) :
    withMode mode (.takesValue fun value => parse value >>= fun a => .ok (set a)) =
      .takesValue fun value => parse value >>= fun a => .ok ((set a).withMode mode) := by
  rw [withMode]
  congr 1
  funext value
  cases parse value <;> rfl

end ArgEffect

variable {options : CliOptions} {arg mode : ByteString}

theorem parseSendOption_withMode :
    parseSendOption (options.withMode mode) arg =
      (parseSendOption options arg).map (.withMode mode) := by
  have hformat : ∀ format filePath, setSendFormat (options.withMode mode) format filePath =
      (setSendFormat options format filePath).map fun options => options.withMode mode := by
    intro format filePath
    simp only [setSendFormat, apply_ite (Except.map _)]
    rfl
  unfold parseSendOption
  simp only [hformat, apply_ite (Option.map _), Option.map_some, Option.map_none,
    ArgEffect.withMode]

theorem parseDecoderOption_withMode :
    parseDecoderOption (options.withMode mode) arg =
      (parseDecoderOption options arg).map (.withMode mode) := by
  unfold parseDecoderOption
  simp only [apply_ite (Option.map _), Option.map_some, Option.map_none, ArgEffect.withMode_parsed]
  rfl

/-- The value of `--port`. -/
theorem readPort_withMode (h : options.mode = ascii "serial" ↔ mode = ascii "serial") :
    ArgEffect.withMode mode (.takesValue fun value =>
      if options.mode = ascii "serial" then .ok { options with serialPort := value }
      else parsePort value >>= fun port => .ok { options with port }) =
    .takesValue fun value =>
      if mode = ascii "serial" then .ok ({ options with serialPort := value }.withMode mode)
      else parsePort value >>= fun port => .ok ({ options with port }.withMode mode) := by
  rw [ArgEffect.withMode]
  congr 1
  funext value
  by_cases hmode : mode = ascii "serial"
  · rw [if_pos hmode, if_pos (h.2 hmode)]
    rfl
  · rw [if_neg hmode, if_neg (mt h.1 hmode)]
    cases parsePort value <;> rfl

/-- An option does the same in another mode, unless it is `--port` and one of the modes is `serial`.
-/
theorem parseCaptureOption_withMode (hdash : startsWithDash arg = true)
    (hport : arg = ascii "--port" → (options.mode = ascii "serial" ↔ mode = ascii "serial")) :
    parseCaptureOption (options.withMode mode) arg =
      (parseCaptureOption options arg).withMode mode := by
  unfold parseCaptureOption
  by_cases harg : arg = ascii "--port"
  · subst harg
    have hread := readPort_withMode (hport rfl)
    exact hread.symm
  · simp only [if_neg harg, hdash, if_true, apply_ite (ArgEffect.withMode _),
      ArgEffect.withMode_parsed]
    rfl

theorem parseArg_withMode (hdash : startsWithDash arg = true)
    (hport : arg = ascii "--port" → (options.mode = ascii "serial" ↔ mode = ascii "serial")) :
    parseArg (options.withMode mode) arg = (parseArg options arg).withMode mode := by
  have hgetD : ∀ (effect : Option ArgEffect) (other : ArgEffect),
      (effect.map (ArgEffect.withMode mode)).getD (other.withMode mode) =
      (effect.getD other).withMode mode := by
    intro effect other
    cases effect <;> rfl
  have hor : ∀ effect other : Option ArgEffect,
      (effect.map (ArgEffect.withMode mode)).or (other.map (ArgEffect.withMode mode)) =
        (effect.or other).map (ArgEffect.withMode mode) := by
    intro effect other
    cases effect <;> rfl
  unfold parseArg
  rw [parseSendOption_withMode, parseDecoderOption_withMode,
    parseCaptureOption_withMode hdash hport, hor, hgetD]
  simp only [apply_ite (ArgEffect.withMode _)]
  rfl

/-! ### Groups -/

/-- An option with its value, if it takes one. -/
def IsOptionGroup (group : List ByteString) : Prop :=
  ∃ arg, startsWithDash arg = true ∧
    ((group = [arg] ∧ ∀ options, ∃ result, parseArg options arg = .done result) ∨
      ∃ value, group = [arg, value] ∧ ∀ options, ∃ read, parseArg options arg = .takesValue read)

/-- A `--port` with its value. -/
def IsPortGroup (group : List ByteString) : Prop := group.head? = some (ascii "--port")

variable {group args : List ByteString}

/-- A complete group takes nothing of what follows. -/
theorem parseArgsFrom_group (h : IsOptionGroup group) (args : List ByteString) :
    parseArgsFrom options (group ++ args) =
      parseArgsFrom options group >>= fun options => parseArgsFrom options args := by
  obtain ⟨arg, -, ⟨rfl, hdone⟩ | ⟨value, rfl, htakes⟩⟩ := h
  · obtain ⟨result, heffect⟩ := hdone options
    rw [List.singleton_append, parseArgsFrom, parseArgsFrom, heffect]
    cases result <;> rfl
  · obtain ⟨read, heffect⟩ := htakes options
    rw [List.cons_append, List.singleton_append, parseArgsFrom, parseArgsFrom, heffect]
    simp only
    cases read value <;> rfl

theorem parseArgsFrom_group_withMode (h : IsOptionGroup group)
    (hport : IsPortGroup group → (options.mode = ascii "serial" ↔ mode = ascii "serial")) :
    parseArgsFrom (options.withMode mode) group =
      (parseArgsFrom options group).map fun options => options.withMode mode := by
  obtain ⟨arg, hdash, ⟨rfl, hdone⟩ | ⟨value, rfl, htakes⟩⟩ := h
  · obtain ⟨result, heffect⟩ := hdone options
    have hmode := parseArg_withMode hdash fun harg => hport (congrArg some harg)
    rw [heffect] at hmode
    rw [parseArgsFrom, parseArgsFrom, hmode, heffect]
    cases result <;> rfl
  · obtain ⟨read, heffect⟩ := htakes options
    have hmode := parseArg_withMode hdash fun harg => hport (congrArg some harg)
    rw [heffect] at hmode
    rw [parseArgsFrom, parseArgsFrom, hmode, heffect]
    simp only [ArgEffect.withMode]
    cases read value <;> rfl

/-- Options leave the mode as it is. -/
theorem mode_of_group {result : CliOptions} (h : IsOptionGroup group)
    (hresult : parseArgsFrom options group = .ok result) : result.mode = options.mode := by
  have hsame : parseArgsFrom options group =
      (parseArgsFrom options group).map fun result => result.withMode options.mode :=
    parseArgsFrom_group_withMode h fun _ => Iff.rfl
  rw [hresult] at hsame
  have heq : result = result.withMode options.mode := Except.ok.inj hsame
  have hmode := congrArg CliOptions.mode heq
  exact hmode

/-- The mode word is not an option. -/
theorem parseArgsFrom_mode (hmode : startsWithDash mode = false) (hnone : options.mode = []) :
    parseArgsFrom options (mode :: args) = parseArgsFrom (options.withMode mode) args := by
  have hne : ∀ name : String, startsWithDash (ascii name) = true → mode ≠ ascii name := by
    rintro name hname rfl
    rw [hname] at hmode
    cases hmode
  have hsend : parseSendOption options mode = none := by
    rw [parseSendOption, if_neg (hne "--send-text" rfl), if_neg (hne "--send-hex" rfl),
      if_neg (hne "--send-file" rfl)]
  have hdecoder : parseDecoderOption options mode = none := by
    simp only [parseDecoderOption, if_neg (hne "--decoder" rfl), if_neg (hne "--frame-size" rfl),
      if_neg (hne "--delimiter" rfl), if_neg (hne "--include-delimiter" rfl),
      if_neg (hne "--length-size" rfl), if_neg (hne "--length-endian" rfl),
      if_neg (hne "--length-includes-header" rfl)]
  have hcapture : parseCaptureOption options mode = .done (.ok (options.withMode mode)) := by
    rw [parseCaptureOption, if_neg (hne "--host" rfl), if_neg (hne "--port" rfl),
      if_neg (hne "--baudrate" rfl), if_neg (hne "--data-bits" rfl), if_neg (hne "--stop-bits" rfl),
      if_neg (hne "--parity" rfl), if_neg (hne "--flow-control" rfl),
      if_neg (hne "--listen-host" rfl), if_neg (hne "--listen-port" rfl),
      if_neg (hne "--bind-host" rfl), if_neg (hne "--bind-port" rfl),
      if_neg (hne "--target-host" rfl), if_neg (hne "--target-port" rfl), if_neg (hne "--log" rfl),
      if_neg (hne "--ipc" rfl), hmode, if_neg Bool.false_ne_true, if_pos hnone]
    rfl
  have hword : parseArg options mode = .done (.ok (options.withMode mode)) := by
    rw [parseArg, if_neg (hne "--help" rfl), if_neg (hne "--version" rfl),
      if_neg (not_or.2 ⟨hne "--hex" rfl, hne "--hex-raw" rfl⟩), if_neg (hne "--hex-frame" rfl),
      if_neg (hne "--latency" rfl), hsend, hdecoder, hcapture]
    rfl
  rw [parseArgsFrom, hword]

/-- The mode word can change places with the groups that follow it. -/
theorem parseArgsFrom_swap {moved : List (List ByteString)} (hmode : startsWithDash mode = false)
    (hgroups : ∀ group ∈ moved, IsOptionGroup group)
    (hport : mode = ascii "serial" → ∀ group ∈ moved, ¬ IsPortGroup group)
    (hnone : options.mode = []) (args : List ByteString) :
    parseArgsFrom options (moved.flatten ++ mode :: args) =
      parseArgsFrom options (mode :: (moved.flatten ++ args)) := by
  induction moved generalizing options with
  | nil => rfl
  | cons group moved ih =>
    obtain ⟨hgroup, hrest⟩ := List.forall_mem_cons.1 hgroups
    have hsame : parseArgsFrom (options.withMode mode) group =
        (parseArgsFrom options group).map fun options => options.withMode mode := by
      apply parseArgsFrom_group_withMode hgroup
      intro hisPort
      rw [hnone]
      exact iff_of_false (by decide) fun hserial => hport hserial group List.mem_cons_self hisPort
    rw [parseArgsFrom_mode hmode hnone, List.flatten_cons, List.append_assoc, List.append_assoc,
      parseArgsFrom_group hgroup, parseArgsFrom_group hgroup, hsame]
    cases hresult : parseArgsFrom options group with
    | error ex => rfl
    | ok result =>
      have hunset := (mode_of_group hgroup hresult).trans hnone
      change parseArgsFrom result _ = parseArgsFrom (result.withMode mode) _
      rw [ih hrest (fun hserial other hother =>
        hport hserial other (List.mem_cons_of_mem group hother)) hunset,
        parseArgsFrom_mode hmode hunset]

/-- The mode word may stand on either side of groups of options, unless it is `serial` and one of
them is a `--port`. -/
theorem parseArgs_mode_position {front moved back : List (List ByteString)}
    (hmode : startsWithDash mode = false)
    (hgroups : ∀ group ∈ front ++ moved ++ back, IsOptionGroup group)
    (hport : mode = ascii "serial" → ∀ group ∈ moved, ¬ IsPortGroup group) :
    parseArgs (front.flatten ++ mode :: (moved ++ back).flatten) =
      parseArgs ((front ++ moved).flatten ++ mode :: back.flatten) := by
  have hfront : ∀ group ∈ front, IsOptionGroup group := fun group h =>
    hgroups group (List.mem_append_left back (List.mem_append_left moved h))
  have hmoved : ∀ group ∈ moved, IsOptionGroup group := fun group h =>
    hgroups group (List.mem_append_left back (List.mem_append_right front h))
  have hgeneral : ∀ options : CliOptions, options.mode = [] →
      parseArgsFrom options (front.flatten ++ mode :: (moved ++ back).flatten) =
        parseArgsFrom options ((front ++ moved).flatten ++ mode :: back.flatten) := by
    clear hgroups
    induction front with
    | nil =>
      intro options hnone
      rw [List.flatten_nil, List.nil_append, List.nil_append, List.flatten_append,
        parseArgsFrom_swap hmode hmoved hport hnone]
    | cons group front ih =>
      intro options hnone
      obtain ⟨hgroup, hrest⟩ := List.forall_mem_cons.1 hfront
      rw [List.flatten_cons, List.append_assoc, List.cons_append, List.flatten_cons,
        List.append_assoc, parseArgsFrom_group hgroup, parseArgsFrom_group hgroup]
      cases hresult : parseArgsFrom options group with
      | error ex => rfl
      | ok result => exact ih hrest result ((mode_of_group hgroup hresult).trans hnone)
  exact hgeneral {} rfl

/-- A serial port in front of the mode word is read as a TCP port. -/
theorem mode_position_matters :
    (∃ options, parseArgs [ascii "serial", ascii "--port", ascii "/dev/ttyUSB0"] = .ok options) ∧
      ∃ ex, parseArgs [ascii "--port", ascii "/dev/ttyUSB0", ascii "serial"] = .error ex :=
  ⟨⟨_, rfl⟩, ⟨_, rfl⟩⟩

def udpGroups : List (List ByteString) := [[ascii "--bind-port", ascii "9000"], [ascii "--hex"]]

theorem isOptionGroup_udpGroups : ∀ group ∈ udpGroups, IsOptionGroup group := by
  refine List.forall_mem_cons.2 ⟨?_, List.forall_mem_singleton.2 ?_⟩
  · exact ⟨ascii "--bind-port", rfl, .inr ⟨ascii "9000", rfl, fun options => ⟨_, rfl⟩⟩⟩
  · exact ⟨ascii "--hex", rfl, .inl ⟨rfl, fun options => ⟨_, rfl⟩⟩⟩

theorem parseArgs_mode_position_udp :
    parseArgs [ascii "udp", ascii "--bind-port", ascii "9000", ascii "--hex"] =
      parseArgs [ascii "--bind-port", ascii "9000", ascii "--hex", ascii "udp"] :=
  @parseArgs_mode_position (ascii "udp") [] udpGroups [] rfl isOptionGroup_udpGroups
    fun hserial => absurd hserial (by decide)

end PacketProbe
