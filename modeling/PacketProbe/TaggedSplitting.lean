import PacketProbe.StreamSplitting

/-!
# Where the items of a splitting loop come from

The input of a loop can carry tags that its verdicts do not depend on. The tagged loop
hands out each item with the stretch of tagged input that it was cut from.
-/

namespace StreamSplitting.Splitter

universe u v w x

variable {α : Type u} {γ : Type v} {ε : Type w} {τ : Type x} {s : Splitter α γ ε}

/-- An item is cut off the front, and what it is cut from decides it. -/
def Tight (s : Splitter α γ ε) : Prop :=
  ∀ {b out rest}, s.cut b = .item out rest → ∃ used, b = used ++ rest ∧ s.cut used = .item out []

/-- The loop on tagged input, with the stretch of each item. -/
def tagged (s : Splitter α γ ε) (τ : Type x) : Splitter (α × τ) (γ × List (α × τ)) ε where
  cut b :=
    match s.cut (b.map Prod.fst) with
    | .wait => .wait
    | .item out rest =>
      .item (out, b.take (b.length - rest.length)) (b.drop (b.length - rest.length))
    | .fail e => .fail e
  item_shorter := by
    intro b out rest h
    split at h
    · cases h
    · rename_i hcut
      cases h
      have hshorter := s.item_shorter hcut
      rw [List.length_map] at hshorter
      rw [List.length_drop]
      omega
    · cases h
  item_append := by
    intro b out rest h more
    split at h
    · cases h
    · rename_i hcut
      cases h
      have hshorter := s.item_shorter hcut
      rw [List.length_map] at hshorter
      rw [List.map_append, s.item_append hcut]
      simp only [List.length_append, List.length_map]
      rw [Nat.add_sub_add_right, List.take_append_of_le_length (Nat.sub_le _ _),
        List.drop_append_of_le_length (Nat.sub_le _ _)]
    · cases h
  fail_append := by
    intro b e h more
    split at h
    · cases h
    · cases h
    · rename_i hcut
      cases h
      rw [List.map_append, s.fail_append hcut]

theorem tagged_cut_wait_iff {b : List (α × τ)} :
    (s.tagged τ).cut b = .wait ↔ s.cut (b.map Prod.fst) = .wait := by
  simp only [tagged]
  split <;> simp_all

theorem tagged_cut_fail_iff {b : List (α × τ)} {e : ε} :
    (s.tagged τ).cut b = .fail e ↔ s.cut (b.map Prod.fst) = .fail e := by
  simp only [tagged]
  split <;> simp_all

/-- An item of the tagged loop is an item of the loop, cut from its stretch. -/
theorem exists_of_tagged_cut (hs : s.Tight) {b rest : List (α × τ)} {out : γ × List (α × τ)}
    (h : (s.tagged τ).cut b = .item out rest) :
    b = out.2 ++ rest ∧ s.cut (b.map Prod.fst) = .item out.1 (rest.map Prod.fst) ∧
      s.cut (out.2.map Prod.fst) = .item out.1 [] := by
  simp only [tagged] at h
  split at h
  · cases h
  · rename_i item left hcut
    cases h
    obtain ⟨used, hb, hused⟩ := hs hcut
    have hlength : b.length - left.length = used.length := by
      have hsize := congrArg List.length hb
      rw [List.length_map, List.length_append] at hsize
      omega
    have htake : (b.take used.length).map Prod.fst = used := by simp [List.map_take, hb]
    have hdrop : (b.drop used.length).map Prod.fst = left := by simp [List.map_drop, hb]
    simp only [hlength, List.take_append_drop, htake, hdrop]
    exact ⟨trivial, hcut, hused⟩
  · cases h

/-- Without its tags, the tagged loop is the loop. -/
theorem drain_tagged (hs : s.Tight) (b : List (α × τ)) :
    ((s.tagged τ).drain b).items.map Prod.fst = (s.drain (b.map Prod.fst)).items ∧
      ((s.tagged τ).drain b).rest.map Prod.fst = (s.drain (b.map Prod.fst)).rest ∧
      ((s.tagged τ).drain b).error = (s.drain (b.map Prod.fst)).error := by
  induction b using (s.tagged τ).drain_induction with
  | wait b h => simp [drain_wait h, drain_wait (tagged_cut_wait_iff.1 h)]
  | item b out rest h ih =>
    obtain ⟨-, hcut, -⟩ := exists_of_tagged_cut hs h
    simp [drain_item h, drain_item hcut, ih]
  | fail b e h => simp [drain_fail h, drain_fail (tagged_cut_fail_iff.1 h)]

/-- The stretches of the items lie one behind the other in front of the rest. -/
theorem stretches_append_rest (hs : s.Tight) (b : List (α × τ)) :
    ((s.tagged τ).drain b).items.flatMap Prod.snd ++ ((s.tagged τ).drain b).rest = b :=
  flatMap_drain_append_rest Prod.snd (fun h => (exists_of_tagged_cut hs h).1) b

/-- The first item cut off after a wait takes in all that was waiting, and something of
what arrived. -/
theorem stretch_of_wait (hs : s.Tight) {b more rest : List (α × τ)} {out : γ × List (α × τ)}
    (hwait : (s.tagged τ).cut b = .wait) (h : (s.tagged τ).cut (b ++ more) = .item out rest) :
    ∃ arrived, arrived ≠ [] ∧ out.2 = b ++ arrived ∧ more = arrived ++ rest := by
  obtain ⟨hsplit, -, hused⟩ := exists_of_tagged_cut hs h
  rcases List.append_eq_append_iff.1 hsplit with ⟨arrived, hout, hmore⟩ | ⟨unused, hb, -⟩
  · refine ⟨arrived, ?_, hout, hmore⟩
    rintro rfl
    rw [List.append_nil] at hout
    rw [tagged_cut_wait_iff, ← hout, hused] at hwait
    cases hwait
  · -- The loop would not have waited with the whole stretch in hand.
    rw [tagged_cut_wait_iff, hb, List.map_append, s.item_append hused] at hwait
    cases hwait

end StreamSplitting.Splitter
