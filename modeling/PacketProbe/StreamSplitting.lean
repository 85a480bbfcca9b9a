import Mathlib.Data.List.Basic

/-!
# Splitting a buffered stream

A splitting loop looks at the input received so far and waits for more, cuts one
item off the front, or fails. Its verdict on a buffer must survive the arrival of
more input; everything else about chunk boundaries follows from that. A failure
leaves the items already cut off and the unread rest apart, so a caller that drops
either of them can be described.
-/

namespace StreamSplitting

universe u v w

/-- What one turn of a splitting loop does with the buffer. -/
inductive Cut (α : Type u) (γ : Type v) (ε : Type w) where
  | wait
  | item (out : γ) (rest : List α)
  | fail (error : ε)

/-- A loop body that always makes progress and never revises a verdict. -/
structure Splitter (α : Type u) (γ : Type v) (ε : Type w) where
  cut : List α → Cut α γ ε
  item_shorter : ∀ {b out rest}, cut b = .item out rest → rest.length < b.length
  item_append : ∀ {b out rest}, cut b = .item out rest →
    ∀ more, cut (b ++ more) = .item out (rest ++ more)
  fail_append : ∀ {b e}, cut b = .fail e → ∀ more, cut (b ++ more) = .fail e

/-- How the loop ends: the items it cut off, the unread rest, and the error that
stopped it, if there was one. -/
structure Drained (α : Type u) (γ : Type v) (ε : Type w) where
  items : List γ
  rest : List α
  error : Option ε

namespace Splitter

variable {α : Type u} {γ : Type v} {ε : Type w} (s : Splitter α γ ε)

/-- Run the loop until it waits or fails. -/
def drain (b : List α) : Drained α γ ε :=
  match h : s.cut b with
  | .wait => ⟨[], b, none⟩
  | .item out rest =>
      have : rest.length < b.length := s.item_shorter h
      let d := drain rest
      ⟨out :: d.items, d.rest, d.error⟩
  | .fail e => ⟨[], b, some e⟩
termination_by b.length

variable {s} {b rest : List α} {out : γ} {e : ε}

theorem drain_wait (h : s.cut b = .wait) : s.drain b = ⟨[], b, none⟩ := by
  rw [drain]
  split <;> simp_all

theorem drain_item (h : s.cut b = .item out rest) :
    s.drain b = ⟨out :: (s.drain rest).items, (s.drain rest).rest, (s.drain rest).error⟩ := by
  rw [drain]
  split <;> simp_all

theorem drain_fail (h : s.cut b = .fail e) : s.drain b = ⟨[], b, some e⟩ := by
  rw [drain]
  split <;> simp_all

variable (s) in
/-- Induction along the turns of the loop. -/
theorem drain_induction {P : List α → Prop} (wait : ∀ b, s.cut b = .wait → P b)
    (item : ∀ b out rest, s.cut b = .item out rest → P rest → P b)
    (fail : ∀ b e, s.cut b = .fail e → P b) (b : List α) : P b := by
  induction hn : b.length using Nat.strongRecOn generalizing b with
  | _ n ih =>
    cases h : s.cut b with
    | wait => exact wait b h
    | item out rest => exact item b out rest h (ih _ (hn ▸ s.item_shorter h) rest rfl)
    | fail e => exact fail b e h

variable (s) in
/-- The loop stops only in front of input on which its body waits or fails. -/
theorem cut_drain_rest (b : List α) :
    s.cut (s.drain b).rest = match (s.drain b).error with | none => .wait | some e => .fail e := by
  induction b using s.drain_induction with
  | wait b h => simpa [drain_wait h] using h
  | item b out rest h ih => simpa [drain_item h] using ih
  | fail b e h => simpa [drain_fail h] using h

theorem cut_rest_of_ok (h : (s.drain b).error = none) : s.cut (s.drain b).rest = .wait := by
  simpa [h] using s.cut_drain_rest b

theorem cut_rest_of_error (h : (s.drain b).error = some e) : s.cut (s.drain b).rest = .fail e := by
  simpa [h] using s.cut_drain_rest b

/-- More input after a clean stop resumes where the loop stopped. -/
theorem drain_append_of_ok (h : (s.drain b).error = none) (more : List α) :
    s.drain (b ++ more) =
      ⟨(s.drain b).items ++ (s.drain ((s.drain b).rest ++ more)).items,
        (s.drain ((s.drain b).rest ++ more)).rest,
        (s.drain ((s.drain b).rest ++ more)).error⟩ := by
  induction b using s.drain_induction with
  | wait b hb => simp [drain_wait hb]
  | item b out rest hb ih =>
    have hr : (s.drain rest).error = none := by simpa [drain_item hb] using h
    simp [drain_item hb, drain_item (s.item_append hb more), ih hr]
  | fail b e hb => simp [drain_fail hb] at h

/-- More input after a failure changes nothing but the unread rest. -/
theorem drain_append_of_error (h : (s.drain b).error = some e) (more : List α) :
    s.drain (b ++ more) = ⟨(s.drain b).items, (s.drain b).rest ++ more, some e⟩ := by
  induction b using s.drain_induction with
  | wait b hb => simp [drain_wait hb] at h
  | item b out rest hb ih =>
    have hr : (s.drain rest).error = some e := by simpa [drain_item hb] using h
    simp [drain_item hb, drain_item (s.item_append hb more), ih hr]
  | fail b e' hb =>
    have he : e' = e := by simpa [drain_fail hb] using h
    subst he
    simp [drain_fail hb, drain_fail (s.fail_append hb more)]

/-- A loop whose body never fails ends without an error. -/
theorem drain_error_of_never_fails (h : ∀ b e, s.cut b ≠ .fail e) (b : List α) :
    (s.drain b).error = none := by
  induction b using s.drain_induction with
  | wait b hb => simp [drain_wait hb]
  | item b out rest hb ih => simpa [drain_item hb] using ih
  | fail b e hb => exact absurd hb (h b e)

theorem ok_of_append_ok {more : List α} (h : (s.drain (b ++ more)).error = none) :
    (s.drain b).error = none := by
  cases hb : (s.drain b).error with
  | none => rfl
  | some e => simp [drain_append_of_error hb more] at h

/-- Whether the loop stopped cleanly or failed, draining its rest together with more
input ends as draining all of the input does. -/
theorem drain_rest_append (b more : List α) :
    (s.drain ((s.drain b).rest ++ more)).rest = (s.drain (b ++ more)).rest ∧
      (s.drain ((s.drain b).rest ++ more)).error = (s.drain (b ++ more)).error := by
  cases h : (s.drain b).error with
  | none => simp [drain_append_of_ok h]
  | some e => simp [drain_append_of_error h, drain_fail (s.fail_append (cut_rest_of_error h) more)]

/-- Feed the input chunk by chunk, carrying the unread rest across the cuts. -/
def feed (s : Splitter α γ ε) : List α → List (List α) → List (Drained α γ ε)
  | _, [] => []
  | b, c :: cs => s.drain (b ++ c) :: feed s (s.drain (b ++ c)).rest cs

@[simp] theorem feed_nil (b : List α) : s.feed b [] = [] := rfl

@[simp] theorem feed_cons (b c : List α) (cs : List (List α)) :
    s.feed b (c :: cs) = s.drain (b ++ c) :: s.feed (s.drain (b ++ c)).rest cs := rfl

theorem length_feed (b : List α) (cs : List (List α)) : (s.feed b cs).length = cs.length := by
  induction cs generalizing b with
  | nil => rfl
  | cons c cs ih => rw [feed_cons, List.length_cons, List.length_cons, ih]

/-- Feeding in chunks is draining the whole input, as long as nothing fails. -/
theorem feed_eq_drain (cs : List (List α)) (hb : s.cut b = .wait)
    (h : (s.drain (b ++ cs.flatten)).error = none) :
    (∀ d ∈ s.feed b cs, d.error = none) ∧
      (s.feed b cs).flatMap Drained.items = (s.drain (b ++ cs.flatten)).items ∧
      ((s.feed b cs).getLast?.map Drained.rest).getD b = (s.drain (b ++ cs.flatten)).rest := by
  induction cs generalizing b with
  | nil => simp [drain_wait hb]
  | cons c cs ih =>
    rw [List.flatten_cons, ← List.append_assoc] at h ⊢
    have hc := ok_of_append_ok h
    have hd := drain_append_of_ok hc cs.flatten
    rw [hd] at h ⊢
    obtain ⟨he, hi, hl⟩ := ih (cut_rest_of_ok hc) h
    refine ⟨?_, ?_, ?_⟩
    · simpa [hc] using he
    · simp [hi]
    · rw [← hl, feed_cons, List.getLast?_cons]
      cases (s.feed (s.drain (b ++ c)).rest cs).getLast? <;> simp

/-- If every item can be written back, the items and the rest write back the input. -/
theorem flatMap_drain_append_rest (render : γ → List α)
    (hr : ∀ {b out rest}, s.cut b = .item out rest → b = render out ++ rest) (b : List α) :
    (s.drain b).items.flatMap render ++ (s.drain b).rest = b := by
  induction b using s.drain_induction with
  | wait b h => simp [drain_wait h]
  | item b out rest h ih => simp [drain_item h, ih, ← hr h]
  | fail b e h => simp [drain_fail h]

/-- A stream of rendered items is drained item by item. -/
theorem drain_flatMap {render : γ → List α} {outs : List γ} (hnil : s.cut [] = .wait)
    (hcut : ∀ out ∈ outs, ∀ more, s.cut (render out ++ more) = .item out more) :
    s.drain (outs.flatMap render) = ⟨outs, [], none⟩ := by
  induction outs with
  | nil => exact drain_wait hnil
  | cons out outs ih =>
    have hrest := ih fun out' hout => hcut out' (List.mem_cons_of_mem _ hout)
    rw [List.flatMap_cons, drain_item (hcut out List.mem_cons_self _), hrest]

/-- What a loop delivers that loses its items when it fails. -/
def Drained.delivered (d : Drained α γ ε) : List γ :=
  match d.error with
  | none => d.items
  | some _ => []

/-- Behind a failure every further chunk fails again. -/
theorem feed_of_fail (h : s.cut b = .fail e) (cs : List (List α)) :
    ∀ d ∈ s.feed b cs, d.items = [] ∧ d.error = some e := by
  induction cs generalizing b with
  | nil => simp
  | cons c cs ih =>
    have hd := drain_fail (s.fail_append h c)
    intro d hmem
    rw [feed_cons, hd] at hmem
    rcases List.mem_cons.1 hmem with rfl | hmem
    · exact ⟨rfl, rfl⟩
    · exact ih (s.fail_append h c) d hmem

/-- Chunk by chunk, clean turns come before failing ones. -/
theorem feed_split (b : List α) (cs : List (List α)) :
    ∃ clean failed, s.feed b cs = clean ++ failed ∧ (∀ d ∈ clean, d.error = none) ∧
      ∀ d ∈ failed, d.error ≠ none := by
  induction cs generalizing b with
  | nil => exact ⟨[], [], rfl, by simp, by simp⟩
  | cons c cs ih =>
    cases h : (s.drain (b ++ c)).error with
    | none =>
      obtain ⟨clean, failed, heq, hclean, hfailed⟩ := ih (s.drain (b ++ c)).rest
      refine ⟨s.drain (b ++ c) :: clean, failed, by simp [heq], ?_, hfailed⟩
      simpa [h] using hclean
    | some e =>
      refine ⟨[], s.feed b (c :: cs), rfl, by simp, fun d hd => ?_⟩
      rcases List.mem_cons.1 hd with rfl | hd
      · simp [h]
      · simp [(feed_of_fail (cut_rest_of_error h) cs d hd).2]

/-- If draining the whole input fails, so does some chunk. -/
theorem exists_error_of_drain_error (cs : List (List α)) (hb : s.cut b = .wait)
    (h : (s.drain (b ++ cs.flatten)).error ≠ none) : ∃ d ∈ s.feed b cs, d.error ≠ none := by
  induction cs generalizing b with
  | nil => simp [drain_wait hb] at h
  | cons c cs ih =>
    cases hc : (s.drain (b ++ c)).error with
    | none =>
      rw [List.flatten_cons, ← List.append_assoc, drain_append_of_ok hc] at h
      obtain ⟨d, hd, he⟩ := ih (cut_rest_of_ok hc) h
      exact ⟨d, by simp [hd], he⟩
    | some e => exact ⟨_, List.mem_cons_self, by simp [hc]⟩

section Whole

/-! ### Streams of whole items in front of a failure

Here the items are stretches of the input itself. -/

variable {s : Splitter α (List α) ε} {e : ε}

/-- A stretch of input that is cut off as one item. -/
def Whole (s : Splitter α (List α) ε) (f : List α) : Prop := s.cut f = .item f []

/-- Input on which the loop fails as soon as it has seen its first `n` entries. -/
structure FailsAfter (s : Splitter α (List α) ε) (bad : List α) (n : ℕ) (e : ε) : Prop where
  length_le : n ≤ bad.length
  wait : ∀ p, p <+: bad → p.length < n → s.cut p = .wait
  fail : ∀ p, p <+: bad → n ≤ p.length → s.cut p = .fail e

theorem Whole.cut_append {f : List α} (h : s.Whole f) (more : List α) :
    s.cut (f ++ more) = .item f more := by
  simpa using s.item_append h more

theorem Whole.ne_nil {f : List α} (h : s.Whole f) : f ≠ [] := by
  rintro rfl
  simpa using s.item_shorter h

/-- A proper prefix of an item says nothing yet. -/
theorem Whole.cut_prefix {f p : List α} (h : s.Whole f) (hp : p <+: f) (hlt : p.length < f.length) :
    s.cut p = .wait := by
  obtain ⟨more, rfl⟩ := hp
  cases hc : s.cut p with
  | wait => rfl
  | item out rest =>
    have heq := (s.item_append hc more).symm.trans h
    simp only [Cut.item.injEq, List.append_eq_nil_iff] at heq
    simp [heq.2.2] at hlt
  | fail e => exact absurd ((s.fail_append hc more).symm.trans h) (by simp)

/-- If the loop hands out stretches of the input that are items on their own, all it
cuts off are such items. -/
theorem mem_drain_items (hw : ∀ {b out rest}, s.cut b = .item out rest → s.Whole out)
    (b : List α) : ∀ f ∈ (s.drain b).items, s.Whole f := by
  induction b using s.drain_induction with
  | wait b h => simp [drain_wait h]
  | item b out rest h ih => simpa [drain_item h] using ⟨hw h, ih⟩
  | fail b e h => simp [drain_fail h]

/-- Draining a prefix of whole items in front of a failure: the items that are complete
come out, and the loop fails once the prefix shows the failure. -/
theorem drain_prefix {bad : List α} {n : ℕ} (hbad : s.FailsAfter bad n e) {fs : List (List α)}
    (hfs : ∀ f ∈ fs, s.Whole f) {p : List α} (hp : p <+: fs.flatten ++ bad) :
    (p.length < fs.flatten.length + n →
      ∃ fs₁ fs₂ r, fs = fs₁ ++ fs₂ ∧ p = fs₁.flatten ++ r ∧ s.drain p = ⟨fs₁, r, none⟩ ∧
        (fs₂ = [] ↔ fs.flatten.length ≤ p.length)) ∧
    (fs.flatten.length + n ≤ p.length → ∃ r, s.drain p = ⟨fs, r, some e⟩ ∧ s.cut r = .fail e) := by
  induction fs generalizing p with
  | nil =>
    simp only [List.flatten_nil, List.nil_append, List.length_nil, Nat.zero_add] at hp ⊢
    refine ⟨fun hlt => ⟨[], [], p, rfl, rfl, drain_wait (hbad.wait p hp hlt), by simp⟩,
      fun hle => ?_⟩
    exact ⟨p, drain_fail (hbad.fail p hp hle), hbad.fail p hp hle⟩
  | cons f fs ih =>
    have hf := hfs f (by simp)
    have htail : ∀ g ∈ fs, s.Whole g := fun g hg => hfs g (by simp [hg])
    have hpos := List.length_pos_iff.2 hf.ne_nil
    rw [List.flatten_cons, List.append_assoc] at hp
    rw [List.flatten_cons, List.length_append]
    rcases Nat.lt_or_ge p.length f.length with hlt | hge
    · have hpf : p <+: f :=
        List.prefix_of_prefix_length_le hp (List.prefix_append _ _) (Nat.le_of_lt hlt)
      refine ⟨fun _ => ⟨[], f :: fs, p, rfl, rfl, drain_wait (hf.cut_prefix hpf hlt), ?_⟩, by omega⟩
      simp only [reduceCtorEq, false_iff]
      omega
    · obtain ⟨q, rfl⟩ := List.prefix_of_prefix_length_le (List.prefix_append _ _) hp hge
      have hq : q <+: fs.flatten ++ bad := (List.prefix_append_right_inj f).1 hp
      obtain ⟨hwait, hfail⟩ := ih htail hq
      have hdrain := drain_item (hf.cut_append q)
      rw [List.length_append] at hge ⊢
      refine ⟨fun hlt => ?_, fun hle => ?_⟩
      · obtain ⟨fs₁, fs₂, r, rfl, rfl, hd, hall⟩ := hwait (by omega)
        refine ⟨f :: fs₁, fs₂, r, rfl, by simp, by rw [hdrain, hd], hall.trans ?_⟩
        omega
      · obtain ⟨r, hd, hr⟩ := hfail (by omega)
        exact ⟨r, by rw [hdrain, hd], hr⟩

/-- A waiting buffer holds no complete item and does not show the failure. -/
theorem length_le_iff_of_wait {bad : List α} {n : ℕ} (hbad : s.FailsAfter bad n e)
    {fs : List (List α)} (hfs : ∀ f ∈ fs, s.Whole f) (hb : s.cut b = .wait)
    (hhead : b <+: fs.flatten ++ bad) :
    (fs.flatten.length ≤ b.length ↔ fs = []) ∧ b.length < fs.flatten.length + n := by
  obtain ⟨hok, herr⟩ := drain_prefix hbad hfs hhead
  have hlt : b.length < fs.flatten.length + n := by
    by_contra hle
    obtain ⟨r, hd, -⟩ := herr (by omega)
    simp [drain_wait hb] at hd
  obtain ⟨fs₁, fs₂, r, rfl, -, hd, hall⟩ := hok hlt
  rw [drain_wait hb] at hd
  obtain rfl : [] = fs₁ := congrArg Drained.items hd
  exact ⟨hall.symm, hlt⟩

/-- The cuts of a stream: before its first chunk, or one of the rest. -/
theorem exists_cut_cons (P : ℕ → Prop) (c : List α) (cs : List (List α)) :
    (∃ k, P ((c :: cs).take k).flatten.length) ↔
      P 0 ∨ ∃ k, P (c.length + (cs.take k).flatten.length) := by
  constructor
  · rintro ⟨k, hk⟩
    cases k with
    | zero => exact .inl hk
    | succ k => exact .inr ⟨k, by simpa using hk⟩
  · rintro (hzero | ⟨k, hk⟩)
    · exact ⟨0, hzero⟩
    · exact ⟨k + 1, by simpa using hk⟩

/-- Chunk by chunk, the items in front of a failure are all delivered exactly if some
cut falls behind the last item and before the failure shows. -/
theorem feed_delivered_iff {bad : List α} {n : ℕ} (hbad : s.FailsAfter bad n e)
    {fs : List (List α)} (hfs : ∀ f ∈ fs, s.Whole f) (cs : List (List α)) (hb : s.cut b = .wait)
    (heq : b ++ cs.flatten = fs.flatten ++ bad) :
    (s.feed b cs).flatMap Drained.delivered = fs ↔
      ∃ k, fs.flatten.length ≤ b.length + (cs.take k).flatten.length ∧
        b.length + (cs.take k).flatten.length < fs.flatten.length + n := by
  induction cs generalizing b fs with
  | nil =>
    obtain ⟨-, hwaiting⟩ := length_le_iff_of_wait hbad hfs hb ⟨_, heq⟩
    have hlen := congrArg List.length heq
    have := hbad.length_le
    simp only [List.flatten_nil, List.append_nil, List.length_append] at hlen
    omega
  | cons c cs ih =>
    obtain ⟨hcomplete, hwaiting⟩ := length_le_iff_of_wait hbad hfs hb ⟨_, heq⟩
    have hprefix : b ++ c <+: fs.flatten ++ bad := ⟨cs.flatten, by simpa using heq⟩
    obtain ⟨hok, herr⟩ := drain_prefix hbad hfs hprefix
    rw [List.length_append] at hok herr
    rw [exists_cut_cons (fun m => fs.flatten.length ≤ b.length + m ∧
      b.length + m < fs.flatten.length + n)]
    rcases Nat.lt_or_ge (b.length + c.length) (fs.flatten.length + n) with hlt | hge
    · -- The chunk shows no failure: go on with the items that are still incomplete.
      obtain ⟨fs₁, fs₂, r, rfl, hbc, hd, -⟩ := hok hlt
      have hlen : b.length + c.length = fs₁.flatten.length + r.length := by
        simpa using congrArg List.length hbc
      have hr : s.cut r = .wait := by
        have := cut_rest_of_ok (s := s) (b := b ++ c) (by rw [hd])
        rwa [hd] at this
      have heq' : r ++ cs.flatten = fs₂.flatten ++ bad := by
        rw [List.flatten_cons, ← List.append_assoc, hbc] at heq
        simpa using heq
      rw [feed_cons, hd, List.flatMap_cons]
      simp only [Drained.delivered, List.append_cancel_left_eq]
      rw [ih (fun f hf => hfs f (by simp [hf])) hr heq']
      simp only [List.flatten_append, List.length_append] at hcomplete hwaiting ⊢
      constructor
      · rintro ⟨k, hk⟩
        exact .inr ⟨k, by omega⟩
      · rintro (hzero | ⟨k, hk⟩)
        · obtain ⟨rfl, rfl⟩ : fs₁ = [] ∧ fs₂ = [] := by simpa using hcomplete.1 (by omega)
          exact ⟨0, by simp at hlen hlt ⊢; omega⟩
        · exact ⟨k, by omega⟩
    · -- The chunk shows the failure: what it completed is lost, and so is all that follows.
      obtain ⟨r, hd, hr⟩ := herr hge
      have hlost : (s.feed r cs).flatMap Drained.delivered = [] := by
        refine List.flatMap_eq_nil_iff.2 fun d hmem => ?_
        simp [Drained.delivered, (feed_of_fail hr cs d hmem).2]
      rw [feed_cons, hd, List.flatMap_cons]
      simp only [Drained.delivered, hlost, List.append_nil]
      rw [eq_comm, ← hcomplete]
      constructor
      · exact fun hle => .inl ⟨hle, hwaiting⟩
      · rintro (hzero | ⟨k, hk⟩)
        · exact hzero.1
        · omega

end Whole

end Splitter

end StreamSplitting
