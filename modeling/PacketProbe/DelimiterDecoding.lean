import PacketProbe.FrameDecoders

/-!
# Delimiter decoding

One call of the delimiter decoder splits the stream at the leftmost occurrences of the
delimiter, also where the delimiter overlaps itself.
-/

namespace PacketProbe
open StreamSplitting LeftmostSearch

namespace DelimiterFrameDecoder

/-- A frame that is returned for a part of the stream. -/
def frame (d : DelimiterFrameDecoder) (part : Bytes) : Bytes :=
  if d.includeDelimiter then part ++ d.delimiter else part

theorem frame_take {d : DelimiterFrameDecoder} {b : Bytes} {found : ℕ}
    (h : search d.delimiter b = some found) :
    b.take (if d.includeDelimiter then found + d.delimiter.length else found) =
      d.frame (b.take found) := by
  obtain ⟨⟨more, hmore⟩, -⟩ := (search_eq_some_iff _ _ _).1 h
  unfold frame
  split
  · rw [List.take_add, ← hmore, List.take_left]
  · rfl

/-- The loop cuts off the parts of the leftmost split. -/
theorem drain_eq (d : DelimiterFrameDecoder) (b : Bytes) :
    ∃ parts rest, LeftmostSplit d.delimiter b parts rest ∧
      d.splitter.drain b = ⟨parts.map d.frame, rest, none⟩ := by
  induction b using d.splitter.drain_induction with
  | wait b hcut =>
    have hsearch : search d.delimiter b = none := by
      cases h : search d.delimiter b with
      | none => rfl
      | some found => simp [splitter, cut, h] at hcut
    exact ⟨[], b, leftmostSplit_of_search_none hsearch, Splitter.drain_wait hcut⟩
  | item b out rest hcut ih =>
    obtain ⟨found, hsearch, rfl, rfl⟩ := cut_item_iff.1 hcut
    obtain ⟨parts, rest, hsplit, hdrain⟩ := ih
    refine ⟨_, rest, leftmostSplit_of_search_some d.delimiter_ne_nil hsearch hsplit, ?_⟩
    rw [Splitter.drain_item hcut, hdrain, frame_take hsearch]
    rfl
  | fail b ex hcut => exact absurd hcut (d.cut_ne_fail b ex)

theorem consume_eq {d : DelimiterFrameDecoder} (hbuffer : d.buffer = []) (stream : Bytes) :
    ∃ parts rest, LeftmostSplit d.delimiter stream parts rest ∧
      d.consume stream = ({ d with buffer := rest }, .ok ⟨parts.map d.frame, rest⟩) := by
  obtain ⟨parts, rest, hsplit, hdrain⟩ := d.drain_eq stream
  refine ⟨parts, rest, hsplit, ?_⟩
  unfold consume consumeBuffered
  rw [hbuffer, List.nil_append, hdrain]

theorem map_frame (d : DelimiterFrameDecoder) (parts : List Bytes) :
    parts.map d.frame = if d.includeDelimiter then parts.map (· ++ d.delimiter) else parts := by
  cases hinclude : d.includeDelimiter with
  | true =>
    have hframe : d.frame = (· ++ d.delimiter) := by
      funext part
      simp [frame, hinclude]
    rw [hframe, if_pos rfl]
  | false =>
    have hframe : d.frame = id := by
      funext part
      simp [frame, hinclude]
    rw [hframe, List.map_id, if_neg Bool.false_ne_true]

end DelimiterFrameDecoder

/-- Delimiter decoding is the leftmost split of the stream, and there is only one. -/
theorem delimiter_leftmost_split (delimiter : Bytes) (hdelimiter : delimiter ≠ [])
    (includeDelimiter : Bool) :
    ∃ d, makeDelimiterFrameDecoder delimiter includeDelimiter = .ok d ∧
      ∀ stream : Bytes, ∃ d' parts rest,
        d.consume stream =
          (d', .ok ⟨if includeDelimiter then parts.map (· ++ delimiter) else parts, rest⟩) ∧
        LeftmostSplit delimiter stream parts rest ∧
        ∀ parts' rest', LeftmostSplit delimiter stream parts' rest' → parts' = parts ∧
          rest' = rest := by
  let d : DelimiterFrameDecoder := { delimiter, delimiter_ne_nil := hdelimiter, includeDelimiter }
  refine ⟨d, dif_neg hdelimiter, fun stream => ?_⟩
  obtain ⟨parts, rest, hsplit, hconsume⟩ := d.consume_eq rfl stream
  rw [d.map_frame] at hconsume
  exact ⟨_, parts, rest, hconsume, hsplit, fun parts' rest' h => h.unique hdelimiter hsplit⟩

/-- A delimiter that overlaps itself. -/
theorem delimiter_leftmost_split_overlapping :
    ∃ d d' parts rest, makeDelimiterFrameDecoder [10, 10] false = .ok d ∧
      d.consume [7, 10, 10, 10, 8] = (d', .ok ⟨parts, rest⟩) ∧
      LeftmostSplit [10, 10] [7, 10, 10, 10, 8] parts rest := by
  obtain ⟨d, hmake, hall⟩ := delimiter_leftmost_split [10, 10] (by decide) false
  obtain ⟨d', parts, rest, hconsume, hsplit, -⟩ := hall [7, 10, 10, 10, 8]
  exact ⟨d, d', parts, rest, hmake, hconsume, hsplit⟩

end PacketProbe
