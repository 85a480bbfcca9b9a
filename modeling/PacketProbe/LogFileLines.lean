import PacketProbe.ByteStrings
import PacketProbe.JsonlLogLoader

/-!
# The lines of a log file

A file is split at its line ends before its lines are decoded, or decoded before it is split:
for UTF-8 this is the same. The loader decodes the file as a whole, so that a line that is not
UTF-8 is not one malformed line, but the end of loading.
-/

namespace PacketProbe
open JsonText

/-! ### Splitting a file -/

variable {c : ℕ} {text line : Text} {lines : List Text} {bytes : List UInt8} {codes : Text}

theorem universalNewlines_cons (h : c ≠ 0x0D) (text : Text) :
    universalNewlines (c :: text) = c :: universalNewlines text := by
  cases text with
  | nil => exact congrArg ([·]) (if_neg h)
  | cons d text => rw [universalNewlines, if_neg h]

/-- A carriage return ends a line, unless the line feed behind it does. -/
theorem universalNewlines_return (text : Text) :
    universalNewlines (0x0D :: text) =
      if text.head? = some 0x0A then universalNewlines text else 0x0A ::
        universalNewlines text := by
  cases text with
  | nil => rfl
  | cons d text =>
    rw [universalNewlines, if_pos rfl, List.head?_cons]
    by_cases hd : d = 0x0A
    · rw [if_pos hd, if_pos (congrArg some hd), hd, universalNewlines_cons (by decide)]
    · rw [if_neg hd, if_neg fun h => hd (Option.some.inj h)]

theorem universalNewlines_append {char : Text} (h : ∀ c ∈ char, c ≠ 0x0D) (text : Text) :
    universalNewlines (char ++ text) = char ++ universalNewlines text := by
  induction char with
  | nil => rfl
  | cons c char ih =>
    obtain ⟨hc, hchar⟩ := List.forall_mem_cons.1 h
    rw [List.cons_append, universalNewlines_cons hc, ih hchar, List.cons_append]

/-- Characters in front of the first line. -/
def prependLine (char : Text) : List Text → List Text
  | [] => [char]
  | line :: lines => (char ++ line) :: lines

theorem splitLines_cons (h : c ≠ 0x0A) (text : Text) :
    splitLines (c :: text) = prependLine [c] (splitLines text) := by
  rw [splitLines, if_neg h]
  cases splitLines text <;> rfl

theorem splitLines_char {char : Text} (h : ∀ c ∈ char, c ≠ 0x0A) (hne : char ≠ []) (text : Text) :
    splitLines (char ++ text) = prependLine char (splitLines text) := by
  induction char with
  | nil => exact absurd rfl hne
  | cons c char ih =>
    obtain ⟨hc, hchar⟩ := List.forall_mem_cons.1 h
    rw [List.cons_append, splitLines_cons hc]
    cases char with
    | nil => rfl
    | cons d char =>
      rw [ih hchar (List.cons_ne_nil d char)]
      cases splitLines text <;> rfl

/-! ### Decoding the lines -/

/-- The code units of a text, and its code points. -/
def UnitsSpell (units codes : Text) : Prop :=
  ∃ bytes : List UInt8, units = bytes.map UInt8.toNat ∧ Utf8.Spells bytes codes

theorem unitsSpell_nil : UnitsSpell [] [] := ⟨[], rfl, .nil⟩

theorem unitsSpell_singleton (hc : c < 0x80) : UnitsSpell [c] [c] := by
  have hbyte : (UInt8.ofNat c).toNat = c := by
    rw [UInt8.toNat_ofNat']
    omega
  have hsmall : UInt8.ofNat c < 0x80 := by
    rw [UInt8.lt_iff_toNat_lt, hbyte]
    exact hc
  refine ⟨[UInt8.ofNat c], by rw [List.map_singleton, hbyte], ?_⟩
  have hcons := Utf8.Spells.sevenBit hsmall .nil
  rwa [hbyte] at hcons

theorem UnitsSpell.append {units units' codes codes' : Text} (h : UnitsSpell units codes)
    (h' : UnitsSpell units' codes') : UnitsSpell (units ++ units') (codes ++ codes') := by
  obtain ⟨bytes, rfl, hspells⟩ := h
  obtain ⟨bytes', rfl, hspells'⟩ := h'
  exact ⟨bytes ++ bytes', List.map_append.symm, hspells.append hspells'⟩

theorem UnitsSpell.decode {units : Text} (h : UnitsSpell units codes) :
    Utf8.decode (units.map UInt8.ofNat) = some codes := by
  obtain ⟨bytes, rfl, hspells⟩ := h
  have hbytes : (bytes.map UInt8.toNat).map UInt8.ofNat = bytes := by
    rw [List.map_map]
    exact (List.map_congr_left fun b _ => UInt8.ofNat_toNat).trans (List.map_id bytes)
  rw [hbytes]
  exact hspells.decode

theorem toNat_ge {char : List UInt8} (h : ∀ b ∈ char, ¬ b < 0x80) :
    ∀ c ∈ char.map UInt8.toNat, 0x80 ≤ c := by
  intro c hc
  obtain ⟨b, hb, rfl⟩ := List.mem_map.1 hc
  have hbyte := h b hb
  simp only [UInt8.lt_iff_toNat_lt, UInt8.reduceToNat] at hbyte
  omega

theorem toNat_lt_of_sevenBit {b : UInt8} (hb : b < 0x80) : b.toNat < 0x80 := by
  simpa only [UInt8.lt_iff_toNat_lt, UInt8.reduceToNat] using hb

theorem lineFeed_first_iff (h : Utf8.Spells bytes codes) :
    (bytes.map UInt8.toNat).head? = some 0x0A ↔ codes.head? = some 0x0A := by
  cases h with
  | nil => exact Iff.rfl
  | sevenBit hb hrest => exact Iff.rfl
  | @several char _ c _ hbytes hne hcode hchar hrest =>
    -- No byte of such a character is a line feed.
    obtain ⟨b, char, rfl⟩ := List.exists_cons_of_ne_nil hne
    have hb : 0x80 ≤ b.toNat := toNat_ge hbytes _ List.mem_cons_self
    simp only [List.cons_append, List.map_cons, List.head?_cons, Option.some.injEq]
    omega

theorem universalNewlines_spells (h : Utf8.Spells bytes codes) :
    UnitsSpell (universalNewlines (bytes.map UInt8.toNat)) (universalNewlines codes) := by
  induction h with
  | nil => exact unitsSpell_nil
  | @sevenBit b bytes codes hb hrest ih =>
    rw [List.map_cons]
    by_cases hreturn : b.toNat = 0x0D
    · have hfirst := lineFeed_first_iff hrest
      rw [hreturn, universalNewlines_return, universalNewlines_return]
      by_cases hfeed : codes.head? = some 0x0A
      · rwa [if_pos (hfirst.2 hfeed), if_pos hfeed]
      · rw [if_neg fun h => hfeed (hfirst.1 h), if_neg hfeed]
        exact (unitsSpell_singleton (by decide)).append ih
    · rw [universalNewlines_cons hreturn, universalNewlines_cons hreturn]
      exact (unitsSpell_singleton (toNat_lt_of_sevenBit hb)).append ih
  | @several char bytes c codes hbytes hne hcode hchar hrest ih =>
    have hlarge := toNat_ge hbytes
    have hreturn : ∀ u ∈ char.map UInt8.toNat, u ≠ 0x0D := by
      intro u hu
      have hu := hlarge u hu
      omega
    have hspells : Utf8.Spells (char ++ []) [c] := .several hbytes hne hcode hchar .nil
    rw [List.append_nil] at hspells
    rw [List.map_append, universalNewlines_append hreturn, universalNewlines_cons (by omega)]
    exact UnitsSpell.append ⟨char, rfl, hspells⟩ ih

theorem forall₂_prependLine {char chars : Text} {units codes : List Text}
    (h : UnitsSpell char chars) (hlines : List.Forall₂ UnitsSpell units codes) :
    List.Forall₂ UnitsSpell (prependLine char units) (prependLine chars codes) := by
  cases hlines with
  | nil => exact .cons h .nil
  | cons hline hlines => exact .cons (h.append hline) hlines

theorem splitLines_spells (h : Utf8.Spells bytes codes) :
    List.Forall₂ UnitsSpell (splitLines (bytes.map UInt8.toNat)) (splitLines codes) := by
  induction h with
  | nil => exact .nil
  | @sevenBit b bytes codes hb hrest ih =>
    have hfirst := unitsSpell_singleton (toNat_lt_of_sevenBit hb)
    rw [List.map_cons]
    by_cases hfeed : b.toNat = 0x0A
    · rw [splitLines, if_pos hfeed, splitLines, if_pos hfeed]
      exact .cons hfirst ih
    · rw [splitLines_cons hfeed, splitLines_cons hfeed]
      exact forall₂_prependLine hfirst ih
  | @several char bytes c codes hbytes hne hcode hchar hrest ih =>
    have hlarge := toNat_ge hbytes
    have hfeed : ∀ u ∈ char.map UInt8.toNat, u ≠ 0x0A := by
      intro u hu
      have hu := hlarge u hu
      omega
    have hspells : Utf8.Spells (char ++ []) [c] := .several hbytes hne hcode hchar .nil
    rw [List.append_nil] at hspells
    rw [List.map_append, splitLines_char hfeed (by rwa [Ne, List.map_eq_nil_iff]),
      splitLines_cons (by omega)]
    exact forall₂_prependLine ⟨char, rfl, hspells⟩ ih

theorem map_decode {units codes : List Text} (h : List.Forall₂ UnitsSpell units codes) :
    (units.map (List.map UInt8.ofNat)).map Utf8.decode = codes.map some := by
  induction h with
  | nil => rfl
  | cons hline _ ih =>
    rw [List.map_cons, List.map_cons, ih, hline.decode]
    rfl

/-- The lines of a file are the lines of its text. -/
theorem decode_fileLines (h : Utf8.decode bytes = some codes) :
    (fileLines bytes).map Utf8.decode = (splitLines (universalNewlines codes)).map some := by
  obtain ⟨units, hunits, hspells⟩ := universalNewlines_spells (Utf8.spells_of_decode h)
  rw [fileLines, hunits]
  exact map_decode (splitLines_spells hspells)

/-! ### What the loader makes of the lines -/

inductive LineKind where
  | blank | metadata | malformed
  | event (object : Value)

namespace LineKind

def object : LineKind → Option Value
  | event object => some object
  | _ => none

def isMalformed : LineKind → Bool
  | malformed => true
  | _ => false

/-- The numbers of the malformed lines, from the line of this number on. -/
def malformedNumbers (lineNum : ℕ) : List LineKind → List ℕ
  | [] => []
  | kind :: kinds =>
    (if kind.isMalformed then [lineNum] else []) ++ malformedNumbers (lineNum + 1) kinds

end LineKind

section Loads

variable (loads : Text → Except LoadsError Value)

/-- What a line of text is. -/
def kindOfText (line : Text) : LineKind :=
  if strip line = [] then .blank
  else
    match loads (strip line) with
    | .ok (.object members) => if isMetadata members then .metadata else .event (.object members)
    | _ => .malformed

/-- What a line of a file is: if it is not UTF-8, it is malformed. -/
def kindOf (line : List UInt8) : LineKind :=
  match Utf8.decode line with
  | none => .malformed
  | some text => kindOfText loads text

/-- The file is loaded: all events are there, in their order, and all malformed lines are named. -/
def LoadsEveryLine (buffered : ℕ) (bytes : List UInt8) : Prop :=
  ∃ result, loadFileWith loads buffered (some bytes) = .ok result ∧
    result.events = ((fileLines bytes).map (kindOf loads)).filterMap LineKind.object ∧
    result.malformedLines.map Prod.fst =
      LineKind.malformedNumbers 1 ((fileLines bytes).map (kindOf loads))

/-- The line is blank, or `json.loads` raises nothing for it but a `JSONDecodeError`. -/
def Caught (line : Text) : Prop :=
  strip line = [] ∨ ∀ error, loads (strip line) = .error error → error = .jsonDecode

variable {loads} {buffered : ℕ} {result result' : JsonlLoadResult} {lineNum : ℕ}
  {error : LoadsError}

theorem loadLineWith_blank (h : strip line = []) :
    loadLineWith loads result lineNum line = .ok result := by
  rw [loadLineWith, if_pos h]

/-- An exception other than a `JSONDecodeError` ends the loop. -/
theorem loadLineWith_raised (hline : strip line ≠ []) (h : loads (strip line) = .error error)
    (herror : error ≠ .jsonDecode) :
    loadLineWith loads result lineNum line = .error (.loads error) := by
  rw [loadLineWith, if_neg hline, h]
  cases error with
  | jsonDecode => exact absurd rfl herror
  | value => rfl
  | recursion => rfl

/-- Any other line is sorted by what it is. -/
theorem loadLineWith_caught (h : Caught loads line) (result : JsonlLoadResult) (lineNum : ℕ) :
    ∃ result', loadLineWith loads result lineNum line = .ok result' ∧
      result'.events = result.events ++ (kindOfText loads line).object.toList ∧
      result'.malformedLines.map Prod.fst = result.malformedLines.map Prod.fst ++
        if (kindOfText loads line).isMalformed then [lineNum] else [] := by
  by_cases hblank : strip line = []
  · refine ⟨result, loadLineWith_blank hblank, ?_⟩
    simp [kindOfText, hblank, LineKind.object, LineKind.isMalformed]
  · have hraised := h.resolve_left hblank
    unfold loadLineWith
    rw [if_neg hblank]
    cases hvalue : loads (strip line) with
    | error error =>
      rw [hraised error hvalue]
      refine ⟨_, rfl, ?_⟩
      simp [kindOfText, hblank, hvalue, LineKind.object, LineKind.isMalformed]
    | ok value =>
      cases value with
      | object members =>
        cases hmetadata : isMetadata members with
        | false =>
          simp only [hmetadata, Bool.false_eq_true, if_false]
          refine ⟨_, rfl, ?_⟩
          simp [kindOfText, hblank, hvalue, hmetadata, LineKind.object, LineKind.isMalformed]
        | true =>
          -- Only the first metadata is kept, and it is no event in either case.
          cases hfirst : result.metadata <;>
          · simp only [hmetadata, if_true]
            refine ⟨_, rfl, ?_⟩
            simp [kindOfText, hblank, hvalue, hmetadata, LineKind.object, LineKind.isMalformed]
      | _ =>
        refine ⟨_, rfl, ?_⟩
        simp [kindOfText, hblank, hvalue, LineKind.object, LineKind.isMalformed]

/-- The loop sorts the lines by what they are. -/
theorem loadLinesWith_caught (h : ∀ line ∈ lines, Caught loads line) :
    ∃ result', loadLinesWith loads result lineNum lines = .ok result' ∧
      result'.events = result.events ++ (lines.map (kindOfText loads)).filterMap LineKind.object ∧
      result'.malformedLines.map Prod.fst = result.malformedLines.map Prod.fst ++
        LineKind.malformedNumbers lineNum (lines.map (kindOfText loads)) := by
  induction lines generalizing result lineNum with
  | nil => exact ⟨result, rfl, (List.append_nil _).symm, (List.append_nil _).symm⟩
  | cons line lines ih =>
    obtain ⟨hline, hlines⟩ := List.forall_mem_cons.1 h
    obtain ⟨next, hnext, hevents, hmalformed⟩ := loadLineWith_caught hline result lineNum
    obtain ⟨result', hresult', ihevents, ihmalformed⟩ := @ih next (lineNum + 1) hlines
    refine ⟨result', by rw [loadLinesWith, hnext]; exact hresult', ?_⟩
    rw [ihevents, ihmalformed, hevents, hmalformed, List.append_assoc, List.append_assoc,
      List.map_cons, LineKind.malformedNumbers, List.filterMap_cons]
    cases kindOfText loads line <;> exact ⟨rfl, rfl⟩

/-- The loop comes to its end only if it catches all that is raised. -/
theorem caught_of_loadLinesWith (h : loadLinesWith loads result lineNum lines = .ok result') :
    ∀ line ∈ lines, Caught loads line := by
  induction lines generalizing result lineNum with
  | nil => exact fun _ hline => by cases hline
  | cons line lines ih =>
    rw [loadLinesWith] at h
    cases hline : loadLineWith loads result lineNum line with
    | error error =>
      rw [hline] at h
      cases h
    | ok next =>
      rw [hline] at h
      refine List.forall_mem_cons.2 ⟨?_, ih h⟩
      refine or_iff_not_imp_left.2 fun hblank error hraised => ?_
      by_contra herror
      rw [loadLineWith_raised hblank hraised herror] at hline
      cases hline

theorem map_kindOf (h : Utf8.decode bytes = some codes) :
    (fileLines bytes).map (kindOf loads) =
      (splitLines (universalNewlines codes)).map (kindOfText loads) := by
  have hkinds := congrArg (List.map fun text : Option Text =>
    match text with
    | none => LineKind.malformed
    | some text => kindOfText loads text) (decode_fileLines h)
  rw [List.map_map, List.map_map] at hkinds
  exact hkinds

/-- The texts of the lines of a file are the lines of its text. -/
theorem mem_splitLines_iff (h : Utf8.decode bytes = some codes) :
    text ∈ splitLines (universalNewlines codes) ↔
      ∃ line ∈ fileLines bytes, Utf8.decode line = some text := by
  rw [← List.mem_map, decode_fileLines h, List.mem_map]
  exact ⟨fun htext => ⟨text, htext, rfl⟩, fun ⟨text', htext', heq⟩ => Option.some.inj heq ▸ htext'⟩

theorem loadFileWith_of_undecodable (h : Utf8.decode bytes = none) :
    loadFileWith loads buffered (some bytes) ≠ .ok result := by
  unfold loadFileWith
  simp only [h]
  split <;> exact fun hload => by cases hload

/-- Exactly the files are loaded that are UTF-8 throughout and on whose lines `json.loads` raises
nothing but `JSONDecodeError`s. In any other one, a single line hides all the others. -/
theorem loadsEveryLine_iff (loads : Text → Except LoadsError Value) (buffered : ℕ)
    (bytes : List UInt8) :
    LoadsEveryLine loads buffered bytes ↔
      Utf8.Valid bytes ∧
        ∀ line ∈ fileLines bytes, ∀ text, Utf8.decode line = some text → Caught loads text := by
  rw [← Utf8.decode_isSome]
  cases hdecode : Utf8.decode bytes with
  | none =>
    refine iff_of_false ?_ fun h => Bool.false_ne_true h.1
    rintro ⟨result, hload, -⟩
    exact loadFileWith_of_undecodable hdecode hload
  | some codes =>
    have hload : loadFileWith loads buffered (some bytes) =
        loadLinesWith loads {} 1 (splitLines (universalNewlines codes)) := by
      rw [loadFileWith, hdecode]
    have hlines :
      (∀ line ∈ fileLines bytes, ∀ text, Utf8.decode line = some text → Caught loads text) ↔
        ∀ text ∈ splitLines (universalNewlines codes), Caught loads text := by
      refine ⟨fun h text htext => ?_, fun h line hline text htext => ?_⟩
      · obtain ⟨line, hline, hdecoded⟩ := (mem_splitLines_iff hdecode).1 htext
        exact h line hline text hdecoded
      · exact h text ((mem_splitLines_iff hdecode).2 ⟨line, hline, htext⟩)
    rw [hlines, LoadsEveryLine, hload, map_kindOf hdecode]
    refine ⟨fun ⟨result, hresult, _⟩ => ⟨rfl, caught_of_loadLinesWith hresult⟩, fun h => ?_⟩
    exact loadLinesWith_caught h.2

/-- An event, and a line with a byte that is not UTF-8. -/
def damagedLog : List UInt8 := ascii "\x7b\"seq\":1\x7d\n" ++ [0xFF, 0x0A]

theorem not_loadsEveryLine_damagedLog : ¬ ∀ bytes, LoadsEveryLine rfcLoads 0 bytes := by
  intro hloads
  obtain ⟨result, hload, -⟩ := hloads damagedLog
  exact loadFileWith_of_undecodable (by decide) hload

end Loads

end PacketProbe
