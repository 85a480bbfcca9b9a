import Mathlib.Data.Nat.Bitwise
import PacketProbe.FrameDecoderChunking
import PacketProbe.DecoderErrors

/-!
# Length-prefix decoding

Messages behind their lengths, and frames whose header counts itself, are read back one by
one. The header is read from the buffer, never from behind it.
-/

namespace PacketProbe
open StreamSplitting

/-! ### Headers -/

/-- A length in a header of this size. -/
def lengthHeader (size : ℕ) (littleEndian : Bool) (length : ℕ) : Bytes :=
  let digits := (List.range size).map fun i => UInt8.ofNat (length / 256 ^ i)
  if littleEndian then digits else digits.reverse

@[simp] theorem length_lengthHeader (size : ℕ) (littleEndian : Bool) (length : ℕ) :
    (lengthHeader size littleEndian length).length = size := by
  unfold lengthHeader
  cases littleEndian <;> simp

theorem pow_256 (k : ℕ) : 256 ^ k = 2 ^ (8 * k) := Nat.pow_mul 2 8 k ▸ rfl

theorem foldl_littleEndian (n k : ℕ) :
    (List.range k).foldl (fun length i => length ||| (n / 256 ^ i % 256) <<< (8 * i)) 0 =
      n % 256 ^ k := by
  induction k with
  | zero => rw [List.range_zero, List.foldl_nil, Nat.pow_zero, Nat.mod_one]
  | succ k ih =>
    have hlow : n % 256 ^ k < 2 ^ (8 * k) := pow_256 k ▸ Nat.mod_lt n (Nat.pow_pos (by decide))
    rw [List.range_succ, List.foldl_append, ih, List.foldl_cons, List.foldl_nil, Nat.or_comm,
      ← Nat.shiftLeft_add_eq_or_of_lt hlow, Nat.shiftLeft_eq, ← pow_256, Nat.pow_succ, Nat.mod_mul,
      Nat.mul_comm, Nat.add_comm]

theorem foldl_bigEndian (n size k : ℕ) (hk : k ≤ size) :
    (List.range k).foldl (fun length i => length <<< 8 ||| n / 256 ^ (size - 1 - i) % 256) 0 =
      n / 256 ^ (size - k) % 256 ^ k := by
  induction k with
  | zero => rw [List.range_zero, List.foldl_nil, Nat.pow_zero, Nat.mod_one]
  | succ k ih =>
    have hbyte : n / 256 ^ (size - 1 - k) % 256 < 2 ^ 8 := Nat.mod_lt _ (by decide)
    have hpower : size - k = (size - 1 - k) + 1 := by omega
    have hsize : size - (k + 1) = size - 1 - k := by omega
    rw [List.range_succ, List.foldl_append, ih (by omega), List.foldl_cons, List.foldl_nil,
      ← Nat.shiftLeft_add_eq_or_of_lt hbyte, Nat.shiftLeft_eq, hpower, Nat.pow_succ,
      ← Nat.div_div_eq_div_mul, hsize, Nat.pow_succ 256 k, Nat.mul_comm (256 ^ k), Nat.mod_mul,
      Nat.mul_comm, Nat.add_comm]

theorem getD_map_range (f : ℕ → UInt8) {size i : ℕ} (h : i < size) :
    ((List.range size).map f).getD i 0 = f i := by
  rw [List.getD_eq_getElem?_getD, List.getElem?_map, List.getElem?_range h, Option.map_some,
    Option.getD_some]

theorem getD_reverse_map_range (f : ℕ → UInt8) {size i : ℕ} (h : i < size) :
    ((List.range size).map f).reverse.getD i 0 = f (size - 1 - i) := by
  have hlength : i < ((List.range size).map f).length := by rwa [List.length_map, List.length_range]
  have hlast : size - 1 - i < size := by omega
  rw [List.getD_eq_getElem?_getD, List.getElem?_reverse hlength, List.length_map, List.length_range,
    ← List.getD_eq_getElem?_getD, getD_map_range f hlast]

namespace LengthPrefixFrameDecoder

variable {d : LengthPrefixFrameDecoder} {n : ℕ}

/-- The header this decoder expects. -/
def header (d : LengthPrefixFrameDecoder) (length : ℕ) : Bytes :=
  lengthHeader d.lengthSize.toNat d.littleEndian length

theorem length_header (d : LengthPrefixFrameDecoder) (length : ℕ) :
    (d.header length).length = d.lengthSize.toNat := length_lengthHeader _ _ _

/-- A length below `256 ^ size` is read back. -/
theorem readLength_header (hn : n < 256 ^ d.lengthSize.toNat) (more : Bytes) :
    d.readLength (d.header n ++ more) = n := by
  rw [d.readLength_append (d.length_header n).ge]
  unfold readLength header lengthHeader
  cases hendian : d.littleEndian with
  | true =>
    rw [if_pos rfl, if_pos rfl]
    refine Eq.trans ?_ ((foldl_littleEndian n d.lengthSize.toNat).trans (Nat.mod_eq_of_lt hn))
    apply List.foldl_ext
    intro length i hi
    rw [List.mem_range] at hi
    rw [getD_map_range _ hi, UInt8.toNat_ofNat']
  | false =>
    rw [if_neg Bool.false_ne_true, if_neg Bool.false_ne_true]
    have hfold := foldl_bigEndian n d.lengthSize.toNat d.lengthSize.toNat (Nat.le_refl _)
    rw [Nat.sub_self, Nat.pow_zero, Nat.div_one, Nat.mod_eq_of_lt hn] at hfold
    refine Eq.trans ?_ hfold
    apply List.foldl_ext
    intro length i hi
    rw [List.mem_range] at hi
    rw [getD_reverse_map_range _ hi, UInt8.toNat_ofNat']

/-! ### Messages behind their lengths -/

def lengthPrefixed (d : LengthPrefixFrameDecoder) (message : Bytes) : Bytes :=
  d.header message.length ++ message

/-- A frame whose header counts itself. -/
def headerFramed (d : LengthPrefixFrameDecoder) (body : Bytes) : Bytes :=
  d.header (d.lengthSize.toNat + body.length) ++ body

theorem cut_lengthPrefixed (hheader : d.lengthIncludesHeader = false) {message : Bytes}
    (h : message.length < 256 ^ d.lengthSize.toNat) (more : Bytes) :
    d.splitter.cut (d.lengthPrefixed message ++ more) = .item message more := by
  have hread : d.readLength (d.lengthPrefixed message ++ more) = message.length := by
    rw [lengthPrefixed, List.append_assoc]
    exact readLength_header h _
  have hframe : d.frameLength (d.lengthPrefixed message ++ more) =
      (d.lengthPrefixed message).length := by
    rw [frameLength, hheader, if_neg Bool.false_ne_true, hread, lengthPrefixed, List.length_append,
      d.length_header]
  have hskipped : d.skipped = (d.header message.length).length := by
    rw [skipped, hheader, if_neg Bool.false_ne_true, d.length_header]
  have hlength : (d.lengthPrefixed message).length = d.lengthSize.toNat + message.length := by
    rw [lengthPrefixed, List.length_append, d.length_header]
  refine cut_item_iff.2 ⟨?_, ?_, ?_, ?_, ?_⟩
  · rw [List.length_append, hlength]
    omega
  · rw [hframe, hlength]
    omega
  · rw [hframe, List.length_append]
    omega
  · rw [hframe, List.take_left, hskipped, lengthPrefixed, List.drop_left]
  · rw [hframe, List.drop_left]

theorem wellFormedFrame_headerFramed {body : Bytes}
    (h : d.lengthSize.toNat + body.length < 256 ^ d.lengthSize.toNat) :
    d.WellFormedFrame (d.headerFramed body) := by
  have hlength : (d.headerFramed body).length = d.lengthSize.toNat + body.length := by
    rw [headerFramed, List.length_append, d.length_header]
  refine ⟨?_, ?_⟩
  · rw [hlength]
    omega
  · rw [hlength]
    exact readLength_header h body

/-- One call on the messages behind their lengths. -/
theorem consume_lengthPrefixed (hheader : d.lengthIncludesHeader = false) (hbuffer : d.buffer = [])
    {messages : List Bytes} (h : ∀ m ∈ messages, m.length < 256 ^ d.lengthSize.toNat) :
    d.consume (messages.flatMap d.lengthPrefixed) = (d, .ok ⟨messages, []⟩) := by
  have hdrain := Splitter.drain_flatMap d.cut_nil fun m hm more =>
    cut_lengthPrefixed hheader (h m hm) more
  unfold consume consumeBuffered
  rw [hbuffer, List.nil_append, hdrain]
  simp only [← hbuffer]

/-- The calls on a stream of frames with their headers, however it is cut. -/
theorem consumeAll_headerFramed (hheader : d.lengthIncludesHeader = true) (hbuffer : d.buffer = [])
    {bodies : List Bytes}
    (h : ∀ b ∈ bodies, d.lengthSize.toNat + b.length < 256 ^ d.lengthSize.toNat)
    {chunks : List Bytes} (hchunks : chunks.flatten = (bodies.map d.headerFramed).flatten) :
    ∃ d' results, (FrameDecoder.lengthPrefix d).consumeAll chunks = .ok (d', results) ∧
      results.flatMap FrameDecodeResult.frames = bodies.map d.headerFramed ∧
      lastRemaining results = [] := by
  have hwhole : ∀ f ∈ bodies.map d.headerFramed, ∀ more, d.splitter.cut (id f ++ more) =
      .item f more := by
    intro f hf more
    obtain ⟨body, hbody, rfl⟩ := List.mem_map.1 hf
    exact (whole_of_wellFormedFrame hheader
      (wellFormedFrame_headerFramed (h body hbody))).cut_append more
  have hdrain := Splitter.drain_flatMap d.cut_nil hwhole
  rw [List.flatMap_id, ← hchunks] at hdrain
  obtain ⟨d', results, hall, hframes, hlast⟩ := FrameDecoder.consumeAll_of_drain
    (d := .lengthPrefix d) rfl hbuffer d.cut_nil (by rw [hdrain])
  rw [hdrain] at hframes hlast
  exact ⟨d', results, hall, hframes, hlast⟩

/-! ### Headers inside of the buffer -/

/-- `read_length` with every byte looked up in the buffer. -/
def readLength? (d : LengthPrefixFrameDecoder) (buffer : Bytes) : Option ℕ :=
  if d.littleEndian then
    (List.range d.lengthSize.toNat).foldlM
      (fun length i => buffer[i]?.map fun byte => length ||| byte.toNat <<< (8 * i)) 0
  else
    (List.range d.lengthSize.toNat).foldlM
      (fun length i => buffer[i]?.map fun byte => length <<< 8 ||| byte.toNat) 0

/-- A turn of the loop with the checked `read_length`; nothing for a turn that reads behind the
end of the buffer. -/
def cut? (d : LengthPrefixFrameDecoder) (buffer : Bytes) : Option (Cut UInt8 Bytes StdException) :=
  if buffer.length < d.lengthSize.toNat then some .wait
  else do
    let length ← d.readLength? buffer
    if d.lengthIncludesHeader then
      if length < d.lengthSize.toNat then some (.fail headerError)
      else if buffer.length < length then some .wait
      else some (.item (buffer.take length) (buffer.drop length))
    else
      let totalSize := d.lengthSize.toNat + length
      if buffer.length < totalSize then some .wait
      else some (.item ((buffer.take totalSize).drop d.lengthSize.toNat) (buffer.drop totalSize))

theorem foldlM_lookup (f : ℕ → ℕ → UInt8 → ℕ) {buffer : Bytes} {indices : List ℕ}
    (h : ∀ i ∈ indices, i < buffer.length) (length : ℕ) :
    indices.foldlM (fun length i => buffer[i]?.map (f length i)) length =
      some (indices.foldl (fun length i => f length i (buffer.getD i 0)) length) := by
  induction indices generalizing length with
  | nil => rfl
  | cons i indices ih =>
    have hi := h i List.mem_cons_self
    rw [List.foldlM_cons, List.getElem?_eq_getElem hi, Option.map_some, List.foldl_cons,
      List.getD_eq_getElem?_getD, List.getElem?_eq_getElem hi]
    exact ih (fun j hj => h j (List.mem_cons_of_mem _ hj)) _

theorem readLength?_eq {buffer : Bytes} (h : d.lengthSize.toNat ≤ buffer.length) :
    d.readLength? buffer = some (d.readLength buffer) := by
  have hinside : ∀ i ∈ List.range d.lengthSize.toNat, i < buffer.length := by
    intro i hi
    rw [List.mem_range] at hi
    omega
  unfold readLength? readLength
  split
  · exact foldlM_lookup (fun length i byte => length ||| byte.toNat <<< (8 * i)) hinside 0
  · exact foldlM_lookup (fun length _ byte => length <<< 8 ||| byte.toNat) hinside 0

/-- No turn of the loop reads behind the end of the buffer. -/
theorem cut?_eq (d : LengthPrefixFrameDecoder) (buffer : Bytes) :
    d.cut? buffer = some (d.cut buffer) := by
  unfold cut? cut
  by_cases hshort : buffer.length < d.lengthSize.toNat
  · rw [if_pos hshort, if_pos hshort]
  · rw [if_neg hshort, if_neg hshort, readLength?_eq (Nat.not_lt.1 hshort)]
    simp only [Option.bind_eq_bind, Option.bind_some]
    split <;> split
    · rfl
    · split <;> rfl
    · rfl
    · rfl

theorem short_of_cut_wait {b : Bytes} (h : d.cut b = .wait) :
    b.length < d.lengthSize.toNat ∨ b.length < d.frameLength b := by
  unfold cut at h
  unfold frameLength
  split at h
  · rename_i hshort
    exact .inl hshort
  · split at h
    · rename_i hheader
      rw [if_pos hheader]
      dsimp only at h
      split at h
      · cases h
      · split at h
        · rename_i hshort
          exact .inr hshort
        · cases h
    · rename_i hheader
      rw [if_neg hheader]
      dsimp only at h
      split at h
      · rename_i hshort
        exact .inr hshort
      · cases h

/-- Where a call ends without an exception, no frame is left complete. -/
theorem remaining_short {d' : LengthPrefixFrameDecoder} {payload : Bytes}
    {result : FrameDecodeResult} (h : d.consume payload = (d', .ok result)) :
    result.remainingBuffer.length < d.lengthSize.toNat ∨
      result.remainingBuffer.length < d.frameLength result.remainingBuffer := by
  unfold consume consumeBuffered at h
  cases herror : (d.splitter.drain (d.buffer ++ payload)).error with
  | some ex => simp [herror] at h
  | none =>
    simp only [herror, Prod.mk.injEq, Except.ok.injEq] at h
    obtain ⟨-, rfl⟩ := h
    exact short_of_cut_wait (Splitter.cut_rest_of_ok herror)

end LengthPrefixFrameDecoder

/-- The byte orders of a header. -/
def SupportedEndian (lengthEndian : ByteString) : Prop :=
  lengthEndian = ascii "big" ∨ lengthEndian = ascii "little"

instance (lengthEndian : ByteString) : Decidable (SupportedEndian lengthEndian) :=
  inferInstanceAs (Decidable (_ ∨ _))

/-- The decoder of supported settings. -/
theorem exists_lengthPrefixFrameDecoder {lengthSize : UInt64}
    (hsize : SupportedLengthSize lengthSize)
    {lengthEndian : ByteString} (hendian : SupportedEndian lengthEndian)
    (lengthIncludesHeader : Bool) :
    ∃ d, makeLengthPrefixFrameDecoder lengthSize lengthEndian lengthIncludesHeader = .ok d ∧
      d.lengthSize = lengthSize ∧ d.littleEndian = decide (lengthEndian = ascii "little") ∧
      d.lengthIncludesHeader = lengthIncludesHeader ∧ d.buffer = [] := by
  unfold makeLengthPrefixFrameDecoder
  rw [dif_pos hsize, if_neg]
  · exact ⟨_, rfl, rfl, rfl, rfl, rfl⟩
  · rintro ⟨hbig, hlittle⟩
    exact hendian.elim hbig hlittle

/-- Length-prefix decoding is exact: what is framed with a payload length or with a total length
comes out again, and no call leaves a complete frame or reads behind the end of its buffer. -/
theorem length_prefix_exact (lengthSize : UInt64) (hsize : SupportedLengthSize lengthSize)
    (lengthEndian : ByteString) (hendian : SupportedEndian lengthEndian) :
    let header := lengthHeader lengthSize.toNat (lengthEndian = ascii "little")
    (∃ d, makeLengthPrefixFrameDecoder lengthSize lengthEndian false = .ok d ∧
      ∀ messages : List Bytes, (∀ m ∈ messages, m.length < 256 ^ lengthSize.toNat) →
        d.consume (messages.flatMap fun m => header m.length ++ m) = (d, .ok ⟨messages, []⟩)) ∧
    (∃ d, makeLengthPrefixFrameDecoder lengthSize lengthEndian true = .ok d ∧
      ∀ bodies : List Bytes, (∀ b ∈ bodies, lengthSize.toNat + b.length < 256 ^ lengthSize.toNat) →
        let frames := bodies.map fun b => header (lengthSize.toNat + b.length) ++ b
        ∀ chunks : List Bytes, chunks.flatten = frames.flatten →
          ∃ d' results, (FrameDecoder.lengthPrefix d).consumeAll chunks = .ok (d', results) ∧
            results.flatMap FrameDecodeResult.frames = frames ∧ lastRemaining results = []) ∧
    ∀ (d : LengthPrefixFrameDecoder) (buffer : Bytes), d.cut? buffer = some (d.cut buffer) ∧
      ∀ payload d' result, d.consume payload = (d', .ok result) →
        result.remainingBuffer.length < d.lengthSize.toNat ∨
          result.remainingBuffer.length < d.frameLength result.remainingBuffer := by
  refine ⟨?_, ?_, fun d buffer => ⟨d.cut?_eq buffer, fun _ _ _ h => d.remaining_short h⟩⟩
  · obtain ⟨d, hmake, rfl, hlittle, hheader, hbuffer⟩ :=
      exists_lengthPrefixFrameDecoder hsize hendian false
    refine ⟨d, hmake, fun messages h => ?_⟩
    rw [← hlittle]
    exact d.consume_lengthPrefixed hheader hbuffer h
  · obtain ⟨d, hmake, rfl, hlittle, hheader, hbuffer⟩ :=
      exists_lengthPrefixFrameDecoder hsize hendian true
    refine ⟨d, hmake, fun bodies h => ?_⟩
    rw [← hlittle]
    intro frames chunks hchunks
    exact d.consumeAll_headerFramed hheader hbuffer h hchunks

theorem length_prefix_exact_of_two_messages :
    ∃ d, makeLengthPrefixFrameDecoder 2 (ascii "big") false = .ok d ∧
      d.consume [0, 2, 7, 8, 0, 0] = (d, .ok ⟨[[7, 8], []], []⟩) := by
  obtain ⟨⟨d, hmake, hmessages⟩, -, -⟩ :=
    length_prefix_exact 2 (by decide) (ascii "big") (by decide)
  have hstream : [[7, 8], []].flatMap (fun m => lengthHeader 2 false m.length ++ m) =
      [0, 2, 7, 8, 0, 0] := by
    decide
  refine ⟨d, hmake, ?_⟩
  rw [← hstream]
  exact hmessages [[7, 8], []] (by decide)

end PacketProbe
