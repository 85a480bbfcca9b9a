import PacketProbe.ByteStrings
import PacketProbe.StreamSplitting
import PacketProbe.LeftmostSearch
import Mathlib.Tactic.SplitIfs

/-!
# The frame decoders

The body of each decoder's `while` loop is its `cut`; the loop itself is
`Splitter.drain`. An exception thrown inside the loop leaves the erased buffer
behind and discards the frames collected in the local result.
-/

namespace PacketProbe
open StreamSplitting LeftmostSearch

/-- The decoder settings, with the defaults of the command line. -/
structure DecoderConfig where
  decoder : ByteString := ascii "raw"
  frameSize : UInt64 := 0
  delimiter : Bytes := []
  includeDelimiter : Bool := true
  lengthSize : UInt64 := 2
  lengthEndian : ByteString := ascii "big"
  lengthIncludesHeader : Bool := false
  deriving DecidableEq

structure FrameDecodeResult where
  frames : List Bytes
  remainingBuffer : Bytes
  deriving DecidableEq

/-- `consume` of a decoder with a carried buffer: append the payload, run the loop,
and report the frames with the remaining buffer unless the loop threw. -/
def consumeBuffered (s : Splitter UInt8 Bytes StdException) (buffer payload : Bytes) :
    Bytes × Except StdException FrameDecodeResult :=
  let d := s.drain (buffer ++ payload)
  (d.rest, match d.error with
    | none => .ok ⟨d.items, d.rest⟩
    | some ex => .error ex)

structure FixedSizeFrameDecoder where
  frameSize : UInt64
  frameSize_ne_zero : frameSize ≠ 0
  buffer : Bytes := []

namespace FixedSizeFrameDecoder

def cut (d : FixedSizeFrameDecoder) (buffer : Bytes) : Cut UInt8 Bytes StdException :=
  if d.frameSize.toNat ≤ buffer.length then
    .item (buffer.take d.frameSize.toNat) (buffer.drop d.frameSize.toNat)
  else .wait

theorem frameSize_pos (d : FixedSizeFrameDecoder) : 0 < d.frameSize.toNat :=
  Nat.pos_of_ne_zero fun h => d.frameSize_ne_zero (UInt64.toNat_inj.1 h)

theorem cut_item_iff {d : FixedSizeFrameDecoder} {b out rest : Bytes} :
    d.cut b = .item out rest ↔ d.frameSize.toNat ≤ b.length ∧
      b.take d.frameSize.toNat = out ∧ b.drop d.frameSize.toNat = rest := by
  unfold cut
  split_ifs with h <;> simp [h]

theorem cut_ne_fail (d : FixedSizeFrameDecoder) (b : Bytes) (ex : StdException) :
    d.cut b ≠ .fail ex := by
  unfold cut
  split_ifs <;> simp

def splitter (d : FixedSizeFrameDecoder) : Splitter UInt8 Bytes StdException where
  cut := d.cut
  item_shorter := by
    intro b out rest h
    obtain ⟨hl, -, rfl⟩ := cut_item_iff.1 h
    have := d.frameSize_pos
    rw [List.length_drop]
    omega
  item_append := by
    intro b out rest h more
    obtain ⟨hl, rfl, rfl⟩ := cut_item_iff.1 h
    refine cut_item_iff.2 ⟨?_, List.take_append_of_le_length hl, List.drop_append_of_le_length hl⟩
    rw [List.length_append]
    omega
  fail_append h := absurd h (d.cut_ne_fail _ _)

def consume (d : FixedSizeFrameDecoder) (payload : Bytes) :
    FixedSizeFrameDecoder × Except StdException FrameDecodeResult :=
  let (buffer, result) := consumeBuffered d.splitter d.buffer payload
  ({ d with buffer }, result)

end FixedSizeFrameDecoder

def makeFixedSizeFrameDecoder (frameSize : UInt64) : Except StdException FixedSizeFrameDecoder :=
  if h : frameSize = 0 then .error (invalidArgument (ascii "fixed decoder requires --frame-size"))
  else .ok { frameSize, frameSize_ne_zero := h }

structure DelimiterFrameDecoder where
  delimiter : Bytes
  delimiter_ne_nil : delimiter ≠ []
  includeDelimiter : Bool
  buffer : Bytes := []

namespace DelimiterFrameDecoder

def cut (d : DelimiterFrameDecoder) (buffer : Bytes) : Cut UInt8 Bytes StdException :=
  match search d.delimiter buffer with
  | none => .wait
  | some found =>
      let frameEnd := found + d.delimiter.length
      let payloadEnd := if d.includeDelimiter then frameEnd else found
      .item (buffer.take payloadEnd) (buffer.drop frameEnd)

theorem cut_item_iff {d : DelimiterFrameDecoder} {b out rest : Bytes} :
    d.cut b = .item out rest ↔ ∃ found, search d.delimiter b = some found ∧
      b.take (if d.includeDelimiter then found + d.delimiter.length else found) = out ∧
      b.drop (found + d.delimiter.length) = rest := by
  unfold cut
  split <;> simp_all

theorem cut_ne_fail (d : DelimiterFrameDecoder) (b : Bytes) (ex : StdException) :
    d.cut b ≠ .fail ex := by
  unfold cut
  split <;> simp

def splitter (d : DelimiterFrameDecoder) : Splitter UInt8 Bytes StdException where
  cut := d.cut
  item_shorter := by
    intro b out rest h
    obtain ⟨found, hf, -, rfl⟩ := cut_item_iff.1 h
    have hlen := add_length_le d.delimiter_ne_nil hf
    have hpos := List.length_pos_iff.2 d.delimiter_ne_nil
    rw [List.length_drop]
    omega
  item_append := by
    intro b out rest h more
    obtain ⟨found, hf, rfl, rfl⟩ := cut_item_iff.1 h
    have hlen := add_length_le d.delimiter_ne_nil hf
    refine cut_item_iff.2 ⟨found, search_append d.delimiter_ne_nil hf more, ?_,
      List.drop_append_of_le_length hlen⟩
    rw [List.take_append_of_le_length]
    split <;> omega
  fail_append h := absurd h (d.cut_ne_fail _ _)

def consume (d : DelimiterFrameDecoder) (payload : Bytes) :
    DelimiterFrameDecoder × Except StdException FrameDecodeResult :=
  let (buffer, result) := consumeBuffered d.splitter d.buffer payload
  ({ d with buffer }, result)

end DelimiterFrameDecoder

def makeDelimiterFrameDecoder (delimiter : Bytes) (includeDelimiter : Bool) :
    Except StdException DelimiterFrameDecoder :=
  if h : delimiter = [] then
    .error (invalidArgument (ascii "delimiter decoder requires --delimiter"))
  else .ok { delimiter, delimiter_ne_nil := h, includeDelimiter }

/-- The header widths the length-prefix decoder supports. -/
def SupportedLengthSize (lengthSize : UInt64) : Prop :=
  lengthSize = 1 ∨ lengthSize = 2 ∨ lengthSize = 4

instance (lengthSize : UInt64) : Decidable (SupportedLengthSize lengthSize) :=
  inferInstanceAs (Decidable (_ ∨ _ ∨ _))

structure LengthPrefixFrameDecoder where
  lengthSize : UInt64
  lengthSize_supported : SupportedLengthSize lengthSize
  littleEndian : Bool
  lengthIncludesHeader : Bool
  buffer : Bytes := []

namespace LengthPrefixFrameDecoder

/-- The length in the header at the front of the buffer. The header has at most four
bytes, so that nothing is lost by computing on natural numbers. -/
def readLength (d : LengthPrefixFrameDecoder) (buffer : Bytes) : ℕ :=
  if d.littleEndian then
    (List.range d.lengthSize.toNat).foldl
      (fun length i => length ||| (buffer.getD i 0).toNat <<< (8 * i)) 0
  else
    (List.range d.lengthSize.toNat).foldl
      (fun length i => length <<< 8 ||| (buffer.getD i 0).toNat) 0

def headerError : StdException :=
  runtimeError (ascii "length-prefix frame length is smaller than the length header")

def cut (d : LengthPrefixFrameDecoder) (buffer : Bytes) : Cut UInt8 Bytes StdException :=
  if buffer.length < d.lengthSize.toNat then .wait
  else
    let length := d.readLength buffer
    if d.lengthIncludesHeader then
      if length < d.lengthSize.toNat then .fail headerError
      else if buffer.length < length then .wait
      else .item (buffer.take length) (buffer.drop length)
    else
      let totalSize := d.lengthSize.toNat + length
      if buffer.length < totalSize then .wait
      else .item ((buffer.take totalSize).drop d.lengthSize.toNat) (buffer.drop totalSize)

theorem lengthSize_pos (d : LengthPrefixFrameDecoder) : 0 < d.lengthSize.toNat := by
  obtain h | h | h := d.lengthSize_supported <;> simp [h]

/-- The header is read off the first bytes alone. -/
theorem readLength_append (d : LengthPrefixFrameDecoder) {b : Bytes}
    (h : d.lengthSize.toNat ≤ b.length) (more : Bytes) :
    d.readLength (b ++ more) = d.readLength b := by
  have hget : ∀ i ∈ List.range d.lengthSize.toNat, (b ++ more).getD i 0 = b.getD i 0 := by
    intro i hi
    rw [List.mem_range] at hi
    rw [List.getD_eq_getElem?_getD, List.getD_eq_getElem?_getD,
      List.getElem?_append_left (by omega)]
  unfold readLength
  split
  · exact List.foldl_ext _ _ _ fun n i hi => by rw [hget i hi]
  · exact List.foldl_ext _ _ _ fun n i hi => by rw [hget i hi]

/-- Bytes the frame announced at the front of the buffer takes up. -/
def frameLength (d : LengthPrefixFrameDecoder) (buffer : Bytes) : ℕ :=
  if d.lengthIncludesHeader then d.readLength buffer
  else d.lengthSize.toNat + d.readLength buffer

/-- Bytes in front of the payload that is handed out as the frame. -/
def skipped (d : LengthPrefixFrameDecoder) : ℕ :=
  if d.lengthIncludesHeader then 0 else d.lengthSize.toNat

theorem cut_item_iff {d : LengthPrefixFrameDecoder} {b out rest : Bytes} :
    d.cut b = .item out rest ↔ d.lengthSize.toNat ≤ b.length ∧
      d.lengthSize.toNat ≤ d.frameLength b ∧ d.frameLength b ≤ b.length ∧
      (b.take (d.frameLength b)).drop d.skipped = out ∧ b.drop (d.frameLength b) = rest := by
  by_cases hi : d.lengthIncludesHeader
  · simp only [cut, frameLength, skipped, hi, if_true]
    split_ifs with hb hs hl
    · exact iff_of_false (by simp) (by omega)
    · exact iff_of_false (by simp) (by omega)
    · exact iff_of_false (by simp) (by omega)
    · simp only [Cut.item.injEq, List.drop_zero]
      exact ⟨fun h => ⟨by omega, by omega, by omega, h⟩, fun h => h.2.2.2⟩
  · simp only [cut, frameLength, skipped, hi, Bool.false_eq_true, if_false]
    split_ifs with hb hl
    · exact iff_of_false (by simp) (by omega)
    · exact iff_of_false (by simp) (by omega)
    · simp only [Cut.item.injEq]
      exact ⟨fun h => ⟨by omega, by omega, by omega, h⟩, fun h => h.2.2.2⟩

theorem cut_fail_iff {d : LengthPrefixFrameDecoder} {b : Bytes} {ex : StdException} :
    d.cut b = .fail ex ↔ d.lengthIncludesHeader = true ∧ d.lengthSize.toNat ≤ b.length ∧
      d.readLength b < d.lengthSize.toNat ∧ ex = headerError := by
  by_cases hi : d.lengthIncludesHeader
  · simp only [cut, hi, if_true, true_and]
    split_ifs with hb hs hl
    · exact iff_of_false (by simp) (by omega)
    · simp only [Cut.fail.injEq]
      exact ⟨fun h => ⟨by omega, hs, h.symm⟩, fun h => h.2.2.symm⟩
    · exact iff_of_false (by simp) (by omega)
    · exact iff_of_false (by simp) (by omega)
  · simp only [cut, hi, Bool.false_eq_true, if_false, false_and, iff_false]
    split_ifs <;> simp

def splitter (d : LengthPrefixFrameDecoder) : Splitter UInt8 Bytes StdException where
  cut := d.cut
  item_shorter := by
    intro b out rest h
    obtain ⟨-, hs, hl, -, rfl⟩ := cut_item_iff.1 h
    have := d.lengthSize_pos
    rw [List.length_drop]
    omega
  item_append := by
    intro b out rest h more
    obtain ⟨hb, hs, hl, rfl, rfl⟩ := cut_item_iff.1 h
    have hlen : d.frameLength (b ++ more) = d.frameLength b := by
      simp only [frameLength, d.readLength_append hb]
    rw [cut_item_iff, hlen, List.take_append_of_le_length hl, List.drop_append_of_le_length hl,
      List.length_append]
    exact ⟨by omega, hs, by omega, rfl, rfl⟩
  fail_append := by
    intro b ex h more
    obtain ⟨hi, hb, hs, he⟩ := cut_fail_iff.1 h
    rw [cut_fail_iff, d.readLength_append hb, List.length_append]
    exact ⟨hi, by omega, hs, he⟩

def consume (d : LengthPrefixFrameDecoder) (payload : Bytes) :
    LengthPrefixFrameDecoder × Except StdException FrameDecodeResult :=
  let (buffer, result) := consumeBuffered d.splitter d.buffer payload
  ({ d with buffer }, result)

end LengthPrefixFrameDecoder

def makeLengthPrefixFrameDecoder (lengthSize : UInt64) (lengthEndian : ByteString)
    (lengthIncludesHeader : Bool) : Except StdException LengthPrefixFrameDecoder :=
  if h : SupportedLengthSize lengthSize then
    if lengthEndian ≠ ascii "big" ∧ lengthEndian ≠ ascii "little" then
      .error (invalidArgument (ascii "length-prefix decoder requires --length-endian <little|big>"))
    else .ok {
      lengthSize
      lengthSize_supported := h
      littleEndian := lengthEndian = ascii "little"
      lengthIncludesHeader }
  else .error (invalidArgument (ascii "length-prefix decoder requires --length-size <1|2|4>"))

/-- The decoders `create_frame_decoder` builds. -/
inductive FrameDecoder where
  | raw
  | fixedSize (d : FixedSizeFrameDecoder)
  | delimiter (d : DelimiterFrameDecoder)
  | lengthPrefix (d : LengthPrefixFrameDecoder)

namespace FrameDecoder

/-- The raw decoder turns each payload into one frame and keeps nothing. -/
def consume : FrameDecoder → Bytes → FrameDecoder × Except StdException FrameDecodeResult
  | .raw, payload => (.raw, .ok ⟨[payload], []⟩)
  | .fixedSize d, payload => let (d, result) := d.consume payload; (.fixedSize d, result)
  | .delimiter d, payload => let (d, result) := d.consume payload; (.delimiter d, result)
  | .lengthPrefix d, payload => let (d, result) := d.consume payload; (.lengthPrefix d, result)

/-- The carried bytes. -/
def buffer : FrameDecoder → Bytes
  | .raw => []
  | .fixedSize d => d.buffer
  | .delimiter d => d.buffer
  | .lengthPrefix d => d.buffer

def setBuffer : FrameDecoder → Bytes → FrameDecoder
  | .raw, _ => .raw
  | .fixedSize d, buffer => .fixedSize { d with buffer }
  | .delimiter d, buffer => .delimiter { d with buffer }
  | .lengthPrefix d, buffer => .lengthPrefix { d with buffer }

/-- The decoder's loop over its carried buffer; the raw decoder has none. -/
def loop : FrameDecoder → Option (Splitter UInt8 Bytes StdException)
  | .raw => none
  | .fixedSize d => some d.splitter
  | .delimiter d => some d.splitter
  | .lengthPrefix d => some d.splitter

@[simp] theorem loop_setBuffer (d : FrameDecoder) (b : Bytes) : (d.setBuffer b).loop = d.loop := by
  cases d <;> rfl

theorem buffer_setBuffer {d : FrameDecoder} {s : Splitter UInt8 Bytes StdException}
    (h : d.loop = some s) (b : Bytes) : (d.setBuffer b).buffer = b := by
  cases d <;> simp [loop] at h <;> rfl

theorem consume_of_loop {d : FrameDecoder} {s : Splitter UInt8 Bytes StdException}
    (h : d.loop = some s) (payload : Bytes) :
    d.consume payload =
      (d.setBuffer (consumeBuffered s d.buffer payload).1,
        (consumeBuffered s d.buffer payload).2) := by
  cases d <;> simp only [loop, Option.some.injEq, reduceCtorEq] at h <;> subst h <;> rfl

end FrameDecoder

def createFrameDecoder (config : DecoderConfig) : Except StdException FrameDecoder :=
  let decoder := lowercase config.decoder
  if decoder = ascii "raw" then .ok .raw
  else if decoder = ascii "fixed" then
    (makeFixedSizeFrameDecoder config.frameSize).map .fixedSize
  else if decoder = ascii "delimiter" then
    (makeDelimiterFrameDecoder config.delimiter config.includeDelimiter).map .delimiter
  else if decoder = ascii "length-prefix" then
    (makeLengthPrefixFrameDecoder config.lengthSize (lowercase config.lengthEndian)
      config.lengthIncludesHeader).map .lengthPrefix
  else .error (invalidArgument (ascii "unknown decoder: " ++ config.decoder))

end PacketProbe
