import PacketProbe.SharedPipeline

/-!
# The order in which threads deliver

The numbering, the deliveries and the decoding of an event are separate steps, and only the
decoding is locked. A stream keeps its order as long as no thread overtakes an older event
of the stream that another thread still has to deliver or decode.
-/

namespace PacketProbe
open TransitionRuns EventPipeline StreamSplitting

/-- The frames in the payloads of a stream, joined. The raw decoder makes a frame of each. -/
def FrameDecoder.decoding (d₀ : FrameDecoder) (payloads : List Bytes) : List Bytes :=
  match d₀.loop with
  | none => payloads
  | some s => (s.drain payloads.flatten).items

/-- The decoder finds no error in the payloads of a stream, joined. -/
def FrameDecoder.Accepts (d₀ : FrameDecoder) (payloads : List Bytes) : Prop :=
  match d₀.loop with
  | none => True
  | some s => (s.drain payloads.flatten).error = none

/-- A delivered raw event that a thread has not decoded. -/
def SenderPhase.undecoded : SenderPhase → List PacketEvent
  | .delivered event => [event]
  | _ => []

/-- The first of a list in order is the one that no other precedes. -/
theorem exists_tail_of_least {α : Type} {r : α → α → Prop} {xs : List α} {x : α} (h : xs.Pairwise r)
    (hx : x ∈ xs) (hleast : ∀ y ∈ xs, ¬ r y x) : ∃ rest, xs = x :: rest := by
  cases xs with
  | nil => cases hx
  | cons y rest =>
    rcases List.mem_cons.1 hx with rfl | hrest
    · exact ⟨rest, rfl⟩
    · exact absurd ((List.pairwise_cons.1 h).1 x hrest) (hleast y List.mem_cons_self)

namespace SharedPipeline

variable {ι : Type} {config : DecoderConfig} {s t : SharedPipeline ι} {key : ByteString}

/-- No thread holds an older event of the same stream. -/
def Oldest (held : ι → List PacketEvent) (e : PacketEvent) : Prop :=
  ∀ j, ∀ f ∈ held j, streamKey f = streamKey e → number e ≤ number f

instance (held : Bool → List PacketEvent) (e : PacketEvent) : Decidable (Oldest held e) :=
  inferInstanceAs (Decidable (∀ j, ∀ f ∈ held j, streamKey f = streamKey e → number e ≤ number f))

/-- The thread overtakes no older event of its stream: neither one that is not delivered,
when it delivers, nor one that is not decoded, when it decodes. -/
def InOrder (s : SharedPipeline ι) (a : SenderAction ι) : Prop :=
  (∀ e ∈ (s.phases a.thread).undelivered.head?, Oldest (fun j => (s.phases j).undelivered) e) ∧
    ∀ e ∈ (s.phases a.thread).undecoded, Oldest (fun j => (s.phases j).undecoded) e

instance (s : SharedPipeline Bool) (a : SenderAction Bool) : Decidable (InOrder s a) :=
  inferInstanceAs (Decidable (_ ∧ _))

/-- The frames of a stream in the order of the log. -/
def loggedFrames (key : ByteString) (log : List PacketEvent) : List Bytes :=
  (log.filter fun e => e.type = .frame ∧ streamKey e = key).map PacketEvent.payload

/-- No thread has an event of the stream to deliver or to decode. -/
def Quiet (s : SharedPipeline ι) (key : ByteString) : Prop :=
  ∀ i, (∀ e ∈ (s.phases i).undelivered, streamKey e ≠ key) ∧
    ∀ e ∈ (s.phases i).undecoded, streamKey e ≠ key

/-- The stream has kept its order: its numbers increase along the log, and its frames are
those in its raw payloads, both in the order of the log. -/
structure StreamInOrder (config : DecoderConfig) (s : SharedPipeline ι)
    (key : ByteString) : Prop where
  numbers : ((s.log.filter fun e => streamKey e = key).map PacketEvent.sequence).Pairwise (· < ·)
  frames : ∀ d₀, createFrameDecoder config = .ok d₀ →
    loggedFrames key s.log <+: d₀.decoding (streamPayloads key s.log)
  complete : ∀ d₀, createFrameDecoder config = .ok d₀ → s.Quiet key →
    d₀.Accepts (streamPayloads key s.log) →
    loggedFrames key s.log = d₀.decoding (streamPayloads key s.log)

/-! ### What stays in order -/

/-- The raw events of a stream in the log. -/
def rawLog (key : ByteString) (log : List PacketEvent) : List PacketEvent :=
  log.filter fun e => e.Decoded ∧ streamKey e = key

/-- The derived events of a stream in the log. -/
def derivedLog (key : ByteString) (log : List PacketEvent) : List PacketEvent :=
  log.filter fun e => e.type ≠ .rawBytes ∧ streamKey e = key

def Older (e f : PacketEvent) : Prop := number e < number f

/-- Along the log, and on to what is not delivered, the numbers of a stream increase. -/
structure Increasing (log : List PacketEvent) (undelivered : ι → List PacketEvent) : Prop where
  sorted : log.Pairwise fun e f => streamKey e = streamKey f → Older e f
  ahead : ∀ e ∈ log, ∀ i, ∀ f ∈ undelivered i, streamKey e = streamKey f → Older e f

/-- The decode sections of a stream follow the log, and the log follows what they derive. -/
structure Followed (log : List PacketEvent) (decodings : List (PacketEvent × List PacketEvent))
    (undelivered undecoded : ι → List PacketEvent) : Prop where
  alone : ∀ i j, ∀ e ∈ undecoded i, ∀ f ∈ undecoded j, number e = number f → i = j
  raw : ∀ key, ∃ waiting, rawLog key log = rawOf key decodings ++ waiting ∧
    ∀ e, e ∈ waiting ↔ (∃ i, e ∈ undecoded i) ∧ streamKey e = key
  derived : ∀ key, ∃ pending, derivedOf key decodings = derivedLog key log ++ pending ∧
    pending.Pairwise Older ∧
    ∀ f, f ∈ pending ↔ (∃ i, f ∈ undelivered i) ∧ f.type ≠ .rawBytes ∧ streamKey f = key

section Transitions

variable [DecidableEq ι] {log rest : List PacketEvent} {e f : PacketEvent} {i : ι}
  {decodings : List (PacketEvent × List PacketEvent)} {undelivered undecoded : ι → List PacketEvent}

theorem exists_mem_update {held : ι → List PacketEvent} (xs : List PacketEvent) :
    (∃ j, e ∈ Function.update held i xs j) ↔ e ∈ xs ∨ ∃ j, j ≠ i ∧ e ∈ held j := by
  constructor
  · rintro ⟨j, hj⟩
    by_cases hij : j = i
    · subst hij
      rw [Function.update_self] at hj
      exact .inl hj
    · rw [Function.update_of_ne hij] at hj
      exact .inr ⟨j, hij, hj⟩
  · rintro (hxs | ⟨j, hij, hj⟩)
    · exact ⟨i, by rwa [Function.update_self]⟩
    · exact ⟨j, by rwa [Function.update_of_ne hij]⟩

/-- What is held somewhere is held by the thread or by another one. -/
theorem exists_mem_iff {held : ι → List PacketEvent} (i : ι) :
    (∃ j, e ∈ held j) ↔ e ∈ held i ∨ ∃ j, j ≠ i ∧ e ∈ held j := by
  have hupdate : (∃ j, e ∈ Function.update held i (held i) j) ↔ _ := exists_mem_update (held i)
  rwa [Function.update_eq_self] at hupdate

/-- New numbers are ahead of the log. -/
theorem Increasing.issue (h : Increasing log undelivered) (i : ι) {new : List PacketEvent}
    (hnew : ∀ e ∈ log, ∀ f ∈ new, Older e f) :
    Increasing log (Function.update undelivered i new) := by
  refine ⟨h.sorted, fun e he j f hf hkey => ?_⟩
  by_cases hj : j = i
  · subst hj
    rw [Function.update_self] at hf
    exact hnew e he f hf
  · rw [Function.update_of_ne hj] at hf
    exact h.ahead e he j f hf hkey

/-- A thread that has the oldest event of the stream delivers it. -/
theorem Increasing.deliver (h : Increasing log undelivered) (hi : undelivered i = e :: rest)
    (holdest : Oldest undelivered e)
    (hothers : ∀ j, ∀ f ∈ Function.update undelivered i rest j, number f ≠ number e) :
    Increasing (log ++ [e]) (Function.update undelivered i rest) := by
  have hheld : ∀ j, ∀ f ∈ Function.update undelivered i rest j, f ∈ undelivered j := by
    intro j f hf
    by_cases hj : j = i
    · subst hj
      rw [Function.update_self] at hf
      rw [hi]
      exact List.mem_cons_of_mem _ hf
    · rwa [Function.update_of_ne hj] at hf
  have hmem : e ∈ undelivered i := hi ▸ List.mem_cons_self
  constructor
  · refine List.pairwise_append.2 ⟨h.sorted, List.pairwise_singleton _ _, fun f hf g hg => ?_⟩
    rw [List.mem_singleton] at hg
    subst hg
    exact h.ahead f hf i g hmem
  · intro f hf j g hg hkey
    rcases List.mem_append.1 hf with hf | hf
    · exact h.ahead f hf j g (hheld j g hg) hkey
    · rw [List.mem_singleton] at hf
      subst hf
      have hle := holdest j g (hheld j g hg) hkey.symm
      have hne := hothers j g hg
      unfold Older
      omega

theorem rawLog_snoc (key : ByteString) (log : List PacketEvent) (e : PacketEvent) :
    rawLog key (log ++ [e]) = rawLog key log ++ if e.Decoded ∧
      streamKey e = key then [e] else [] := by
  rw [rawLog, List.filter_append, ← rawLog]
  split <;> simp [*]

theorem derivedLog_snoc (key : ByteString) (log : List PacketEvent) (e : PacketEvent) :
    derivedLog key (log ++ [e]) =
      derivedLog key log ++ if e.type ≠ .rawBytes ∧ streamKey e = key then [e] else [] := by
  rw [derivedLog, List.filter_append, ← derivedLog]
  split <;> simp [*]

/-- Raw events that come or go change nothing of what is derived. -/
theorem exists_derived_update {new : List PacketEvent}
    (hi : ∀ f ∈ undelivered i, f.type = .rawBytes)
    (hnew : ∀ f ∈ new, f.type = .rawBytes) {p : Prop} :
    ((∃ j, f ∈ Function.update undelivered i new j) ∧ f.type ≠ .rawBytes ∧ p) ↔
      (∃ j, f ∈ undelivered j) ∧ f.type ≠ .rawBytes ∧ p := by
  rw [exists_mem_update, exists_mem_iff i]
  constructor
  · rintro ⟨hf | hf, htype, hp⟩
    · exact absurd (hnew f hf) htype
    · exact ⟨.inr hf, htype, hp⟩
  · rintro ⟨hf | hf, htype, hp⟩
    · exact absurd (hi f hf) htype
    · exact ⟨.inr hf, htype, hp⟩

theorem Followed.make (h : Followed log decodings undelivered undecoded) (hi : undelivered i = [])
    (htype : e.type = .rawBytes) :
    Followed log decodings (Function.update undelivered i [e]) undecoded := by
  refine ⟨h.alone, h.raw, fun key => ?_⟩
  obtain ⟨pending, hlog, hsorted, hpending⟩ := h.derived key
  refine ⟨pending, hlog, hsorted, fun f => ?_⟩
  rw [hpending f]
  refine (exists_derived_update (fun f hf => ?_) fun f hf => ?_).symm
  · rw [hi] at hf
    cases hf
  · rw [List.mem_singleton] at hf
    rwa [hf]

theorem Followed.deliver (h : Followed log decodings undelivered undecoded)
    (hi : undelivered i = [e]) (hnone : undecoded i = []) (htype : e.type = .rawBytes)
    (hothers : ∀ j, ∀ f ∈ undecoded j, number f ≠ number e) :
    Followed (log ++ [e]) decodings (Function.update undelivered i [])
      (Function.update undecoded i (if e.Decoded then [e] else [])) := by
  refine ⟨fun j k f hf g hg hnumber => ?_, fun key => ?_, fun key => ?_⟩
  · have hsplit : ∀ j, ∀ f ∈ Function.update undecoded i (if e.Decoded then [e] else []) j,
        (j = i ∧ f = e) ∨ f ∈ undecoded j := by
      intro j f hf
      by_cases hj : j = i
      · subst hj
        rw [Function.update_self] at hf
        split at hf
        · exact .inl ⟨rfl, List.mem_singleton.1 hf⟩
        · cases hf
      · rw [Function.update_of_ne hj] at hf
        exact .inr hf
    rcases hsplit j f hf with ⟨hj, hfe⟩ | hold <;> rcases hsplit k g hg with ⟨hk, hge⟩ | hold'
    · rw [hj, hk]
    · exact absurd (hnumber.symm.trans (congrArg number hfe)) (hothers k g hold')
    · exact absurd (hnumber.trans (congrArg number hge)) (hothers j f hold)
    · exact h.alone j k f hold g hold' hnumber
  · obtain ⟨waiting, hlog, hwaiting⟩ := h.raw key
    refine ⟨waiting ++ if e.Decoded ∧ streamKey e = key then [e] else [], ?_, fun f => ?_⟩
    · rw [rawLog_snoc, hlog, List.append_assoc]
    · rw [List.mem_append, hwaiting f, exists_mem_update, exists_mem_iff i, hnone]
      by_cases hdecoded : e.Decoded <;> by_cases hkey : streamKey e = key
      · simp only [hdecoded, hkey, and_self, if_true, List.mem_singleton, List.not_mem_nil,
          false_or]
        constructor
        · rintro (⟨hf, hfkey⟩ | rfl)
          · exact ⟨.inr hf, hfkey⟩
          · exact ⟨.inl rfl, hkey⟩
        · rintro ⟨rfl | hf, hfkey⟩
          · exact .inr rfl
          · exact .inl ⟨hf, hfkey⟩
      · simp only [hdecoded, hkey, and_false, if_true, if_false, List.mem_singleton,
          List.not_mem_nil, false_or, or_false]
        constructor
        · rintro ⟨hf, hfkey⟩
          exact ⟨.inr hf, hfkey⟩
        · rintro ⟨rfl | hf, hfkey⟩
          · exact absurd hfkey hkey
          · exact ⟨hf, hfkey⟩
      · simp [hdecoded]
      · simp [hdecoded]
  · obtain ⟨pending, hlog, hsorted, hpending⟩ := h.derived key
    refine ⟨pending, ?_, hsorted, fun f => ?_⟩
    · rw [derivedLog_snoc, if_neg (fun hderived => hderived.1 htype), List.append_nil, hlog]
    · rw [hpending f]
      refine (exists_derived_update (fun f hf => ?_) (by simp)).symm
      rw [hi, List.mem_singleton] at hf
      rwa [hf]

/-- The events that are delivered and not decoded stand at the end of the log. -/
theorem waiting_sorted {waiting decoded : List PacketEvent}
    (hsorted : log.Pairwise fun e f => streamKey e = streamKey f → Older e f)
    (hlog : rawLog key log = decoded ++ waiting) : waiting.Pairwise Older := by
  have hstream : (rawLog key log).Pairwise fun e f => streamKey e = streamKey f → Older e f :=
    hsorted.sublist List.filter_sublist
  have hkeys : ∀ e ∈ rawLog key log, streamKey e = key := by
    intro e he
    have := (List.mem_filter.1 he).2
    simp only [decide_eq_true_eq] at this
    exact this.2
  have hall : (rawLog key log).Pairwise Older :=
    hstream.imp_of_mem fun he hf h => h ((hkeys _ he).trans (hkeys _ hf).symm)
  rw [hlog] at hall
  exact (List.pairwise_append.1 hall).2.1

/-- What follows the first of a list in order. -/
theorem mem_tail_iff (h : (e :: rest).Pairwise Older) : f ∈ rest ↔ f ∈ e :: rest ∧ f ≠ e := by
  rw [List.mem_cons]
  constructor
  · intro hf
    refine ⟨.inr hf, ?_⟩
    rintro rfl
    exact absurd ((List.pairwise_cons.1 h).1 f hf) (Nat.lt_irrefl _)
  · rintro ⟨hf | hf, hne⟩
    · exact absurd hf hne
    · exact hf

theorem rawOf_snoc (key : ByteString) (decodings : List (PacketEvent × List PacketEvent))
    (hdecoded : e.Decoded) (new : List PacketEvent) :
    rawOf key (decodings ++ [(e, new)]) =
      rawOf key decodings ++ if streamKey e = key then [e] else [] := by
  by_cases hkey : streamKey e = key
  · simp [rawOf, hdecoded, hkey]
  · simp [rawOf, hkey]

theorem derivedOf_snoc (key : ByteString) (decodings : List (PacketEvent × List PacketEvent))
    (e : PacketEvent) (new : List PacketEvent) :
    derivedOf key (decodings ++ [(e, new)]) =
      derivedOf key decodings ++ if streamKey e = key then new else [] := by
  by_cases hkey : streamKey e = key
  · simp [derivedOf, hkey]
  · simp [derivedOf, hkey]

/-- Behind a decode section, all that waits in the stream's log but the event still waits. -/
theorem Followed.raw_decode (h : Followed log decodings undelivered undecoded)
    (hsorted : log.Pairwise fun e f => streamKey e = streamKey f → Older e f)
    (hone : undecoded i = [e]) (hdecoded : e.Decoded) (holdest : Oldest undecoded e)
    (new : List PacketEvent) (key : ByteString) :
    ∃ waiting, rawLog key log = rawOf key (decodings ++ [(e, new)]) ++ waiting ∧
      ∀ f, f ∈ waiting ↔ (∃ j, f ∈ Function.update undecoded i [] j) ∧ streamKey f = key := by
  have hmem : e ∈ undecoded i := hone ▸ List.mem_cons_self
  obtain ⟨waiting, hlog, hwaiting⟩ := h.raw key
  by_cases hkey : streamKey e = key
  · have hleast : ∀ f ∈ waiting, ¬ Older f e := by
      intro f hf
      obtain ⟨⟨j, hj⟩, hfkey⟩ := (hwaiting f).1 hf
      exact Nat.not_lt.2 (holdest j f hj (hfkey.trans hkey.symm))
    have hin : e ∈ waiting := (hwaiting e).2 ⟨⟨i, hmem⟩, hkey⟩
    obtain ⟨rest, rfl⟩ := exists_tail_of_least (waiting_sorted hsorted hlog) hin hleast
    refine ⟨rest, ?_, fun f => ?_⟩
    · rw [hlog, rawOf_snoc key decodings hdecoded, if_pos hkey, List.append_assoc,
        List.singleton_append]
    · rw [mem_tail_iff (waiting_sorted hsorted hlog), hwaiting f, exists_mem_update,
        exists_mem_iff i, hone]
      constructor
      · rintro ⟨⟨hf | hf, hfkey⟩, hne⟩
        · exact absurd (List.mem_singleton.1 hf) hne
        · exact ⟨.inr hf, hfkey⟩
      · rintro ⟨hf | ⟨j, hj, hf⟩, hfkey⟩
        · cases hf
        · refine ⟨⟨.inr ⟨j, hj, hf⟩, hfkey⟩, ?_⟩
          rintro rfl
          exact hj (h.alone j i f hf f hmem rfl)
  · refine ⟨waiting, ?_, fun f => ?_⟩
    · rw [hlog, rawOf_snoc key decodings hdecoded, if_neg hkey, List.append_nil]
    · rw [hwaiting f, exists_mem_update, exists_mem_iff i, hone]
      constructor
      · rintro ⟨hf | hf, hfkey⟩
        · rw [List.mem_singleton.1 hf] at hfkey
          exact absurd hfkey hkey
        · exact ⟨.inr hf, hfkey⟩
      · rintro ⟨hf | hf, hfkey⟩
        · cases hf
        · exact ⟨.inr hf, hfkey⟩

/-- Behind a decode section, what it has derived comes after all that is pending. -/
theorem Followed.derived_decode (h : Followed log decodings undelivered undecoded)
    {new : List PacketEvent} (hi : undelivered i = [])
    (hstream : ∀ f ∈ new, f.type ≠ .rawBytes ∧ streamKey f = streamKey e)
    (hnew : new.Pairwise Older) (hahead : ∀ j, ∀ f ∈ undelivered j, ∀ g ∈ new, Older f g)
    (key : ByteString) :
    ∃ pending, derivedOf key (decodings ++ [(e, new)]) = derivedLog key log ++ pending ∧
      pending.Pairwise Older ∧
      ∀ f, f ∈ pending ↔
        (∃ j, f ∈ Function.update undelivered i new j) ∧ f.type ≠ .rawBytes ∧
          streamKey f = key := by
  obtain ⟨pending, hlog, hpendingSorted, hpending⟩ := h.derived key
  refine ⟨pending ++ if streamKey e = key then new else [], ?_, ?_, fun f => ?_⟩
  · rw [derivedOf_snoc, hlog, List.append_assoc]
  · refine List.pairwise_append.2 ⟨hpendingSorted, ?_, fun f hf g hg => ?_⟩
    · split
      · exact hnew
      · exact .nil
    · split at hg
      · obtain ⟨⟨j, hj⟩, -⟩ := (hpending f).1 hf
        exact hahead j f hj g hg
      · cases hg
  · rw [List.mem_append, hpending f, exists_mem_update, exists_mem_iff i, hi]
    constructor
    · rintro (⟨hf | hf, hrest⟩ | hf)
      · cases hf
      · exact ⟨.inr hf, hrest⟩
      · split at hf
        · obtain ⟨htype, hfkey⟩ := hstream f hf
          exact ⟨.inl hf, htype, hfkey.trans ‹_›⟩
        · cases hf
    · rintro ⟨hf | hf, hrest⟩
      · refine .inr ?_
        rw [if_pos ((hstream f hf).2.symm.trans hrest.2)]
        exact hf
      · exact .inl ⟨.inr hf, hrest⟩

/-- The oldest event that waits is the next one to decode. -/
theorem Followed.decode (h : Followed log decodings undelivered undecoded)
    (hsorted : log.Pairwise fun e f => streamKey e = streamKey f → Older e f)
    {new : List PacketEvent}
    (hi : undelivered i = []) (hone : undecoded i = [e]) (hdecoded : e.Decoded)
    (holdest : Oldest undecoded e)
    (hstream : ∀ f ∈ new, f.type ≠ .rawBytes ∧ streamKey f = streamKey e)
    (hnew : new.Pairwise Older) (hahead : ∀ j, ∀ f ∈ undelivered j, ∀ g ∈ new, Older f g) :
    Followed log (decodings ++ [(e, new)]) (Function.update undelivered i new)
      (Function.update undecoded i []) := by
  refine ⟨fun j k f hf g hg hnumber => ?_, h.raw_decode hsorted hone hdecoded holdest new,
    h.derived_decode hi hstream hnew hahead⟩
  have hheld : ∀ j, ∀ f ∈ Function.update undecoded i [] j, f ∈ undecoded j := by
    intro j f hf
    by_cases hj : j = i
    · subst hj
      rw [Function.update_self] at hf
      cases hf
    · rwa [Function.update_of_ne hj] at hf
  exact h.alone j k f (hheld j f hf) g (hheld k g hg) hnumber

/-- The oldest event that is not delivered is the next one of those derived. -/
theorem Followed.emit (h : Followed log decodings undelivered undecoded)
    (hi : undelivered i = e :: rest) (htype : e.type ≠ .rawBytes) (holdest : Oldest undelivered e)
    (hothers : ∀ j, ∀ f ∈ Function.update undelivered i rest j, number f ≠ number e) :
    Followed (log ++ [e]) decodings (Function.update undelivered i rest) undecoded := by
  have hmem : e ∈ undelivered i := hi ▸ List.mem_cons_self
  refine ⟨h.alone, fun key => ?_, fun key => ?_⟩
  · obtain ⟨waiting, hlog, hwaiting⟩ := h.raw key
    refine ⟨waiting, ?_, hwaiting⟩
    rw [rawLog_snoc, if_neg (fun hraw => htype hraw.1.1), List.append_nil, hlog]
  · obtain ⟨pending, hlog, hsorted, hpending⟩ := h.derived key
    by_cases hkey : streamKey e = key
    · have hleast : ∀ f ∈ pending, ¬ Older f e := by
        intro f hf
        obtain ⟨⟨j, hj⟩, -, hfkey⟩ := (hpending f).1 hf
        exact Nat.not_lt.2 (holdest j f hj (hfkey.trans hkey.symm))
      have hin : e ∈ pending := (hpending e).2 ⟨⟨i, hmem⟩, htype, hkey⟩
      obtain ⟨tail, rfl⟩ := exists_tail_of_least hsorted hin hleast
      refine ⟨tail, ?_, (List.pairwise_cons.1 hsorted).2, fun f => ?_⟩
      · rw [hlog, derivedLog_snoc, if_pos ⟨htype, hkey⟩, List.append_assoc, List.singleton_append]
      · rw [mem_tail_iff hsorted, hpending f]
        constructor
        · rintro ⟨⟨hf, hrest⟩, hne⟩
          refine ⟨?_, hrest⟩
          rw [exists_mem_iff i, hi] at hf
          rw [exists_mem_update]
          rcases hf with hf | hf
          · exact .inl ((List.mem_cons.1 hf).resolve_left hne)
          · exact .inr hf
        · rintro ⟨⟨j, hj⟩, hrest⟩
          refine ⟨⟨?_, hrest⟩, ?_⟩
          · rw [exists_mem_iff i, hi]
            rcases (exists_mem_update rest).1 ⟨j, hj⟩ with hf | hf
            · exact .inl (List.mem_cons_of_mem _ hf)
            · exact .inr hf
          · rintro rfl
            exact hothers j f hj rfl
    · refine ⟨pending, ?_, hsorted, fun f => ?_⟩
      · rw [hlog, derivedLog_snoc, if_neg (fun hderived => hkey hderived.2), List.append_nil]
      · rw [hpending f, exists_mem_update, exists_mem_iff i, hi]
        constructor
        · rintro ⟨hf | hf, hftype, hfkey⟩
          · rcases List.mem_cons.1 hf with rfl | hf
            · exact absurd hfkey hkey
            · exact ⟨.inl hf, hftype, hfkey⟩
          · exact ⟨.inr hf, hftype, hfkey⟩
        · rintro ⟨hf | hf, hrest⟩
          · exact ⟨.inl (List.mem_cons_of_mem _ hf), hrest⟩
          · exact ⟨.inr hf, hrest⟩

end Transitions

/-! ### Threads that overtake nothing -/

/-- What threads that overtake nothing keep. Where no decoder can be created, nothing is
decoded. -/
structure Ordered (config : DecoderConfig) (s : SharedPipeline ι) : Prop where
  increasing : Increasing s.log fun i => (s.phases i).undelivered
  followed : ∀ d₀, createFrameDecoder config = .ok d₀ →
    Followed s.log s.decodings (fun i => (s.phases i).undelivered) fun i => (s.phases i).undecoded

theorem ordered_start (config : DecoderConfig) :
    (start config : SharedPipeline ι).Ordered config := by
  refine ⟨⟨.nil, fun _ he => (nomatch he)⟩, fun d₀ _ => ⟨fun _ _ _ he => (nomatch he), ?_, ?_⟩⟩
  · exact fun key => ⟨[], rfl, fun e => by simp [start, SenderPhase.undecoded]⟩
  · exact fun key => ⟨[], rfl, .nil, fun f => by simp [start, SenderPhase.undelivered]⟩

theorem mem_undecoded_iff {phase : SenderPhase} {e : PacketEvent} :
    e ∈ phase.undecoded ↔ phase = .delivered e := by
  cases phase <;> simp [SenderPhase.undecoded, eq_comm]

theorem undecoded_emittingOrIdle (event : PacketEvent) (remaining : List PacketEvent) :
    (SenderPhase.emittingOrIdle event remaining).undecoded = [] := by
  cases remaining <;> rfl

variable [DecidableEq ι] {i : ι} {e : PacketEvent} {rest : List PacketEvent}

/-- No other event that is not delivered has the number of the one that is. -/
theorem Numbered.others (h : s.Numbered) (hi : (s.phases i).undelivered = e :: rest) (j : ι) :
    ∀ f ∈ Function.update (fun j => (s.phases j).undelivered) i rest j, number f ≠ number e := by
  intro f hf hnumber
  have hheld : (s.phases i).undelivered.map number = number e :: rest.map number := by
    rw [hi, List.map_cons]
  refine (h.tickets.move hheld).unlogged j (number f) ?_ ?_
  · by_cases hj : j = i
    · subst hj
      rw [Function.update_self] at hf ⊢
      exact List.mem_map_of_mem hf
    · rw [Function.update_of_ne hj] at hf ⊢
      exact List.mem_map_of_mem hf
  · rw [hnumber]
    exact List.mem_append_right _ (List.mem_singleton_self _)

theorem older_of_range' {new : List PacketEvent} {n k : ℕ} (h : new.map number = List.range' n k) :
    new.Pairwise Older := by
  have hsorted : (new.map number).Pairwise (· < ·) := by
    rw [h]
    exact List.pairwise_lt_range'
  rw [List.pairwise_map] at hsorted
  exact hsorted

omit [DecidableEq ι] in
theorem Numbered.number_le (h : s.Numbered) (he : e ∈ s.log) : number e ≤ s.taken :=
  (h.tickets.log_range _ (List.mem_map_of_mem he)).2

section Steps

variable {event : PacketEvent}

theorem Ordered.make (h : s.Ordered config) (hn : s.Numbered) (hphase : s.phases i = .idle)
    (htype : event.type = .rawBytes) (hnumber : number event = s.taken + 1) (hlog : t.log = s.log)
    (hdecodings : t.decodings = s.decodings)
    (hphases : t.phases = (s.setPhase i (.made event)).phases) :
    t.Ordered config := by
  have hnone : (s.phases i).undelivered = [] := by rw [hphase]; rfl
  have hsame : (s.phases i).undecoded = (SenderPhase.made event).undecoded := by rw [hphase]; rfl
  constructor
  · rw [hphases, held_setPhase, hlog]
    refine h.increasing.issue i fun e he f hf => ?_
    have hle := hn.number_le he
    rw [List.mem_singleton.1 hf, Older]
    omega
  · intro d₀ hcreate
    rw [hphases, held_setPhase, held_setPhase, ← hsame, Function.update_eq_self, hlog, hdecodings]
    exact (h.followed d₀ hcreate).make hnone htype

/-- The oldest made event is delivered, with a thread that goes on to decode it or not. -/
theorem Ordered.deliver (h : s.Ordered config) (hp : s.Parented config) (hn : s.Numbered)
    (hphase : s.phases i = .made event) (holdest : Oldest (fun j => (s.phases j).undelivered) event)
    (hlog : t.log = s.log ++ [event]) (hdecodings : t.decodings = s.decodings)
    (hphases :
      t.phases = (s.setPhase i (if event.Decoded then .delivered event else .idle)).phases) :
    t.Ordered config := by
  have hheld : (s.phases i).undelivered = [event] := by rw [hphase]; rfl
  have hnone : (s.phases i).undecoded = [] := by rw [hphase]; rfl
  have htype : event.type = .rawBytes :=
    (hp.holds i).raw event (by simp [hphase, SenderPhase.event])
  have hundelivered : (if event.Decoded then SenderPhase.delivered event else .idle).undelivered =
      [] := by
    split <;> rfl
  have hundecoded : (if event.Decoded then SenderPhase.delivered event else .idle).undecoded =
      if event.Decoded then [event] else [] := by
    split <;> rfl
  constructor
  · rw [hphases, held_setPhase, hundelivered, hlog]
    exact h.increasing.deliver hheld holdest (hn.others hheld)
  · intro d₀ hcreate
    rw [hphases, held_setPhase, held_setPhase, hundelivered, hundecoded, hlog, hdecodings]
    refine (h.followed d₀ hcreate).deliver hheld hnone htype fun j f hf hnumber => ?_
    have hin := ((hp.holds j).delivered f (mem_undecoded_iff.1 hf)).1
    refine hn.tickets.unlogged i (number event) ?_ (hnumber ▸ List.mem_map_of_mem hin)
    simp [hheld]

/-- The oldest delivered event is decoded. -/
theorem Ordered.decode {derived : List PacketEvent} (h : s.Ordered config) (hp : s.Parented config)
    (hn : s.Numbered) (hphase : s.phases i = .delivered event)
    (holdest : Oldest (fun j => (s.phases j).undecoded) event)
    (hderived : ∀ f ∈ derived, f.type ≠ .rawBytes ∧ streamKey f = streamKey event)
    (hnumbers : derived.map number = List.range' (s.taken + 1) derived.length)
    (hlog : t.log = s.log) (hdecodings : t.decodings = s.decodings ++ [(event, derived)])
    (hphases : t.phases = (s.setPhase i (.emittingOrIdle event derived)).phases) :
    t.Ordered config := by
  have hnone : (s.phases i).undelivered = [] := by rw [hphase]; rfl
  have hheld : (s.phases i).undecoded = [event] := by rw [hphase]; rfl
  have hahead : ∀ f ∈ derived, s.taken < number f := by
    intro f hf
    have hmem := List.mem_map_of_mem (f := number) hf
    rw [hnumbers, List.mem_range'_1] at hmem
    omega
  constructor
  · rw [hphases, held_setPhase, undelivered_emittingOrIdle, hlog]
    refine h.increasing.issue i fun e he f hf => ?_
    exact Nat.lt_of_le_of_lt (hn.number_le he) (hahead f hf)
  · intro d₁ hok
    rw [hphases, held_setPhase, held_setPhase, undelivered_emittingOrIdle, undecoded_emittingOrIdle,
      hlog, hdecodings]
    refine (h.followed d₁ hok).decode h.increasing.sorted hnone hheld
      ((hp.holds i).delivered event hphase).2 holdest hderived (older_of_range' hnumbers)
      fun j f hf g hg => ?_
    have hle := (hn.tickets.range j (number f) (List.mem_map_of_mem hf)).2
    exact Nat.lt_of_le_of_lt hle (hahead g hg)

/-- The next derived event is delivered, which is the oldest that is not. -/
theorem Ordered.emit {derived : PacketEvent} {remaining : List PacketEvent} (h : s.Ordered config)
    (hp : s.Parented config) (hn : s.Numbered)
    (hphase : s.phases i = .emitting event (derived :: remaining))
    (holdest : Oldest (fun j => (s.phases j).undelivered) derived)
    (hlog : t.log = s.log ++ [derived]) (hdecodings : t.decodings = s.decodings)
    (hphases : t.phases = (s.setPhase i (.emittingOrIdle event remaining)).phases) :
    t.Ordered config := by
  have hheld : (s.phases i).undelivered = derived :: remaining := by rw [hphase]; rfl
  have hnone : (s.phases i).undecoded = [] := by rw [hphase]; rfl
  have hkeep : Function.update (fun j => (s.phases j).undecoded) i [] =
      fun j => (s.phases j).undecoded := by
    rw [← hnone]
    exact Function.update_eq_self i _
  constructor
  · rw [hphases, held_setPhase, undelivered_emittingOrIdle, hlog]
    exact h.increasing.deliver hheld holdest (hn.others hheld)
  · intro d₀ hcreate
    rw [hphases, held_setPhase, held_setPhase, undelivered_emittingOrIdle, undecoded_emittingOrIdle,
      hkeep, hlog, hdecodings]
    refine (h.followed d₀ hcreate).emit hheld (fun hraw => ?_) holdest (hn.others hheld)
    obtain ⟨-, entry, hentry, hin⟩ :=
      (hp.holds i).derived event _ hphase derived List.mem_cons_self
    obtain ⟨htype, -⟩ := derived_of_decodings (hp.decodes.run hcreate) entry hentry derived hin
    rw [hraw] at htype
    rcases htype with htype | htype <;> cases htype

end Steps

theorem Ordered.step (h : s.Ordered config) (hp : s.Parented config) (hn : s.Numbered)
    (heffect : Effect config s i t) (hbound : t.taken < UInt64.size)
    (hdeliver : ∀ e ∈ (s.phases i).undelivered.head?, Oldest (fun j => (s.phases j).undelivered) e)
    (hdecode : ∀ e ∈ (s.phases i).undecoded, Oldest (fun j => (s.phases j).undecoded) e) :
    t.Ordered config := by
  cases heffect with
  | make event hphase htype hnumber =>
    have hevent : number event = s.taken + 1 := by
      rw [number, hnumber]
      exact hn.taken.toNat_next hbound
    exact h.make hn hphase htype hevent rfl rfl rfl
  | deliver event hphase =>
    exact h.deliver hp hn hphase (hdeliver event (by rw [hphase]; rfl)) rfl rfl rfl
  | fail event ex hphase hcreate =>
    have hsame : (s.phases i).undelivered = SenderPhase.idle.undelivered := by rw [hphase]; rfl
    constructor
    · rw [held_setPhase, ← hsame, Function.update_eq_self]
      exact h.increasing
    · intro d₀ hok
      rw [hok] at hcreate
      cases hcreate
  | decode event d₀ hphase hcreate hready =>
    obtain ⟨-, hnumbers⟩ := hasTaken_derive hn.taken event (s.pipeline.seqsFor event)
      (s.pipeline.decoded d₀ event).2
    refine h.decode hp hn hphase (hdecode event (by simp [hphase, SenderPhase.undecoded]))
      (fun f hf => ?_)
      (hnumbers hbound) rfl rfl rfl
    obtain ⟨htype, hstream, -⟩ := parents_of_mem_derive hf
    refine ⟨fun hraw => ?_, streamKey_eq_of_stream_eq hstream⟩
    rw [hraw] at htype
    rcases htype with htype | htype <;> cases htype
  | emit event derived remaining hphase =>
    exact h.emit hp hn hphase (hdeliver derived (by rw [hphase]; rfl)) rfl rfl rfl

theorem ordered_of_run {acts : List (SenderAction ι)}
    (hrun : TransitionRuns.Run (Guarded Step InOrder) (start config) acts s)
    (hbound : s.taken < UInt64.size) : s.Ordered config := by
  have hall := hrun.invariant (I := fun s => s.Parented config ∧
    (s.taken < UInt64.size → s.Numbered ∧ s.Ordered config)) ?_ ?_
  · exact (hall.2 hbound).2
  · rintro s a t ⟨hparented, hrest⟩ ⟨⟨hdeliver, hdecode⟩, hstep⟩
    have heffect := effect_of_step hparented.decodes hstep
    refine ⟨hparented.step heffect, fun hbound => ?_⟩
    obtain ⟨hnumbered, hordered⟩ := hrest (Nat.lt_of_le_of_lt (taken_le_of_effect heffect) hbound)
    exact ⟨hnumbered.step heffect hbound,
      hordered.step hparented hnumbered heffect hbound hdeliver hdecode⟩
  · exact ⟨parented_start config, fun _ => ⟨⟨SequenceAllocator.hasTaken_default,
      TicketLedger.distinct_nil _⟩, ordered_start config⟩⟩

/-! ### Frames along the log -/

section Frames

variable {d₀ : FrameDecoder} {p : EventPipeline} {entries : List (PacketEvent × List PacketEvent)}

theorem decoding_eq_stretches (d₀ : FrameDecoder) (events : List PacketEvent) :
    d₀.decoding (events.map PacketEvent.payload) = (d₀.stretches events).map Prod.fst := by
  cases hloop : d₀.loop with
  | none => simp [FrameDecoder.decoding, FrameDecoder.stretches, hloop, Function.comp_def]
  | some s =>
    obtain ⟨hitems, -⟩ := Splitter.drain_tagged (FrameDecoder.tight_of_loop hloop)
      (events.flatMap taggedPayload)
    simp only [FrameDecoder.decoding, FrameDecoder.stretches, hloop]
    rw [hitems, map_fst_flatMap_taggedPayload, List.flatMap_def]

/-- More payloads do not change the frames already found. -/
theorem decoding_prefix_append (d₀ : FrameDecoder) (payloads more : List Bytes) :
    d₀.decoding payloads <+: d₀.decoding (payloads ++ more) := by
  cases hloop : d₀.loop with
  | none =>
    simp only [FrameDecoder.decoding, hloop]
    exact List.prefix_append _ _
  | some s =>
    simp only [FrameDecoder.decoding, hloop, List.flatten_append]
    cases herror : (s.drain payloads.flatten).error with
    | none =>
      rw [Splitter.drain_append_of_ok herror]
      exact List.prefix_append _ _
    | some ex => rw [Splitter.drain_append_of_error herror]

theorem payloads_of_cutFrom {frames : List PacketEvent}
    {stretches : List (Bytes × List (UInt8 × UInt64))} (h : List.Forall₂ CutFrom frames stretches) :
    frames.map PacketEvent.payload = stretches.map Prod.fst := by
  induction h with
  | nil => rfl
  | cons hcut _ ih => rw [List.map_cons, List.map_cons, hcut.1, ih]

/-- The derived frames are the first that the decoding of the payloads gives. -/
theorem framesOf_prefix (hcreate : createFrameDecoder config = .ok d₀)
    (hrun : TransitionRuns.Run (DecodeStep d₀) (fresh config) entries p) (key : ByteString) :
    (framesOf key entries).map PacketEvent.payload <+:
      d₀.decoding ((rawOf key entries).map PacketEvent.payload) := by
  rw [payloads_of_cutFrom (frames_cutFrom_stretches hcreate hrun key), decoding_eq_stretches]
  exact (List.take_prefix _ _).map _

/-- Without an error they are all of them. -/
theorem framesOf_eq_decoding (hcreate : createFrameDecoder config = .ok d₀)
    (hrun : TransitionRuns.Run (DecodeStep d₀) (fresh config) entries p) (key : ByteString)
    (haccepts : d₀.Accepts ((rawOf key entries).map PacketEvent.payload)) :
    (framesOf key entries).map PacketEvent.payload =
      d₀.decoding ((rawOf key entries).map PacketEvent.payload) := by
  have hframes := frames_cutFrom_stretches hcreate hrun key
  rw [payloads_of_cutFrom hframes, decoding_eq_stretches]
  suffices hlength : (d₀.stretches (rawOf key entries)).length ≤ (framesOf key entries).length by
    rw [List.take_of_length_le hlength]
  cases hloop : d₀.loop with
  | none =>
    obtain rfl : d₀ = .raw := by cases d₀ <;> first | rfl | cases hloop
    exact (rawState_of_run hrun key).frames.length_eq.ge
  | some s =>
    obtain ⟨-, -, herror⟩ := Splitter.drain_tagged (FrameDecoder.tight_of_loop hloop)
      ((rawOf key entries).flatMap taggedPayload)
    have hnone : (tracedDrain s (rawOf key entries)).error = none := by
      rw [tracedDrain, herror, map_fst_flatMap_taggedPayload, List.flatMap_def]
      simpa only [FrameDecoder.Accepts, hloop] using haccepts
    have hcomplete := (streamState_of_run hcreate hloop hrun key).traced.complete hnone
    rw [FrameDecoder.stretches, hloop]
    exact hcomplete.ge

end Frames

omit [DecidableEq ι] in
theorem Followed.loggedFrames {log : List PacketEvent}
    {decodings : List (PacketEvent × List PacketEvent)}
    {undelivered undecoded : ι → List PacketEvent}
    (h : Followed log decodings undelivered undecoded) (key : ByteString) :
    loggedFrames key log <+: (framesOf key decodings).map PacketEvent.payload ∧
      ((∀ i, ∀ e ∈ undelivered i, streamKey e ≠ key) →
        loggedFrames key log = (framesOf key decodings).map PacketEvent.payload) := by
  obtain ⟨pending, hlog, -, hpending⟩ := h.derived key
  have hframes : (derivedLog key log).filter (fun e => e.type = .frame) =
      log.filter fun e => e.type = .frame ∧ streamKey e = key := by
    rw [derivedLog, List.filter_filter]
    refine List.filter_congr fun e _ => ?_
    cases e.type <;> simp
  have hall : (framesOf key decodings).map PacketEvent.payload =
      SharedPipeline.loggedFrames key log ++
        (pending.filter fun e => e.type = .frame).map PacketEvent.payload := by
    rw [framesOf, hlog, List.filter_append, List.map_append, hframes]
    rfl
  rw [hall]
  refine ⟨List.prefix_append _ _, fun hnone => ?_⟩
  obtain rfl : pending = [] := by
    refine List.eq_nil_iff_forall_not_mem.2 fun f hf => ?_
    obtain ⟨⟨i, hi⟩, -, hkey⟩ := (hpending f).1 hf
    exact hnone i f hi hkey
  rw [List.filter_nil, List.map_nil, List.append_nil]

omit [DecidableEq ι] in
theorem Followed.streamPayloads {log : List PacketEvent}
    {decodings : List (PacketEvent × List PacketEvent)}
    {undelivered undecoded : ι → List PacketEvent}
    (h : Followed log decodings undelivered undecoded) (key : ByteString) :
    ∃ waiting, streamPayloads key log = (rawOf key decodings).map PacketEvent.payload ++ waiting ∧
      ((∀ i, ∀ e ∈ undecoded i, streamKey e ≠ key) → waiting = []) := by
  obtain ⟨waiting, hlog, hwaiting⟩ := h.raw key
  refine ⟨waiting.map PacketEvent.payload, ?_, fun hnone => ?_⟩
  · rw [← List.map_append, ← hlog]
    rfl
  · rw [List.map_eq_nil_iff]
    refine List.eq_nil_iff_forall_not_mem.2 fun e he => ?_
    obtain ⟨⟨i, hi⟩, hkey⟩ := (hwaiting e).1 he
    exact hnone i e hi hkey

/-- As long as no thread overtakes an older event, every stream keeps its order. -/
theorem streamInOrder_of_run (config : DecoderConfig) {acts : List (SenderAction ι)}
    (hrun : TransitionRuns.Run (Guarded Step InOrder) (start config) acts s)
    (hbound : s.taken < UInt64.size) (key : ByteString) : StreamInOrder config s key := by
  have hparented := parented_of_run (hrun.mono fun _ _ _ h => h.2)
  have hordered := ordered_of_run hrun hbound
  constructor
  · rw [List.pairwise_map, List.pairwise_filter]
    refine hordered.increasing.sorted.imp fun h he hf => ?_
    simp only [decide_eq_true_eq] at he hf
    exact UInt64.lt_iff_toNat_lt.2 (h (he.trans hf.symm))
  · intro d₀ hcreate
    have hfollowed := hordered.followed d₀ hcreate
    obtain ⟨waiting, hpayloads, -⟩ := hfollowed.streamPayloads key
    calc loggedFrames key s.log
        <+: (framesOf key s.decodings).map PacketEvent.payload := (hfollowed.loggedFrames key).1
      _ <+: d₀.decoding ((rawOf key s.decodings).map PacketEvent.payload) :=
          framesOf_prefix hcreate (hparented.decodes.run hcreate) key
      _ <+: d₀.decoding (streamPayloads key s.log) :=
          hpayloads ▸ decoding_prefix_append d₀ _ _
  · intro d₀ hcreate hquiet haccepts
    have hfollowed := hordered.followed d₀ hcreate
    obtain ⟨waiting, hpayloads, hnone⟩ := hfollowed.streamPayloads key
    rw [hnone fun i => (hquiet i).2, List.append_nil] at hpayloads
    rw [hpayloads] at haccepts ⊢
    rw [(hfollowed.loggedFrames key).2 fun i => (hquiet i).1]
    exact framesOf_eq_decoding hcreate (hparented.decodes.run hcreate) key haccepts

/-- The thread that was numbered second delivers first: the log turns the numbers around,
and its frames are not those of the payloads in its order. -/
theorem stream_out_of_order :
    ∃ s : SharedPipeline Bool, TransitionRuns.Run Step (start threeByteFrames) overlappingSends s ∧
      ¬ StreamInOrder threeByteFrames s (streamKey firstHalf) ∧ (∀ i, s.phases i = .idle) ∧
      (s.log.filter fun e => streamKey e = streamKey firstHalf).map PacketEvent.sequence =
        [2, 1, 3, 4] ∧
      loggedFrames (streamKey firstHalf) s.log = [[1, 2, 3], [4, 5, 6]] ∧
      ∃ d₀, createFrameDecoder threeByteFrames = .ok d₀ ∧
        d₀.decoding (streamPayloads (streamKey firstHalf) s.log) = [[3, 4, 5], [6, 1, 2]] := by
  obtain ⟨s, hrun, hidle, hnumbers, hframes, hdecoding⟩ := Run.exists_of_foldlM
    (P := fun s : SharedPipeline Bool => (∀ i, s.phases i = .idle) ∧
      (s.log.filter fun e => streamKey e = streamKey firstHalf).map PacketEvent.sequence =
        [2, 1, 3, 4] ∧
      loggedFrames (streamKey firstHalf) s.log = [[1, 2, 3], [4, 5, 6]] ∧
      (FrameDecoder.fixedSize ⟨3, by decide, []⟩).decoding
        (streamPayloads (streamKey firstHalf) s.log) = [[3, 4, 5], [6, 1, 2]])
    (show ((overlappingSends.foldlM perform (start threeByteFrames)).any _) = true
      by decide +kernel)
  refine ⟨s, hrun, fun h => ?_, hidle, hnumbers, hframes, _, rfl, hdecoding⟩
  have hsorted := h.numbers
  rw [hnumbers] at hsorted
  exact absurd hsorted (by decide)

/-- The same sends, where no thread overtakes the other. -/
def orderedSends : List (SenderAction Bool) :=
  [.make false firstHalf.stream 0 [1, 2] [], .make true firstHalf.stream 0 [3, 4, 5, 6] [],
    .deliver false, .deliver true, .decode false, .decode true, .emit true, .emit true]

theorem streamInOrder_of_orderedSends :
    ∃ s : SharedPipeline Bool,
      TransitionRuns.Run (Guarded Step InOrder) (start threeByteFrames) orderedSends s ∧
      loggedFrames (streamKey firstHalf) s.log = [[1, 2, 3], [4, 5, 6]] ∧
      StreamInOrder threeByteFrames s (streamKey firstHalf) := by
  obtain ⟨s, hrun, hframes, htaken⟩ := Run.exists_of_foldlM
    (P := fun s : SharedPipeline Bool => loggedFrames (streamKey firstHalf) s.log =
      [[1, 2, 3], [4, 5, 6]] ∧ s.taken < UInt64.size)
    (show ((orderedSends.foldlM (fun s a => if InOrder s a then perform s a else none)
      (start threeByteFrames)).any _) = true by decide +kernel)
  have hguarded :
      TransitionRuns.Run (Guarded Step InOrder) (start threeByteFrames) orderedSends s :=
    hrun.mono fun _ _ _ h => Option.ite_none_right_eq_some.1 h
  exact ⟨s, hguarded, hframes, streamInOrder_of_run threeByteFrames hguarded htaken _⟩

end SharedPipeline

end PacketProbe
