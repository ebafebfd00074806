import MagickCompare.MeanOrder
/-! What `GetAbsoluteDistortion` counts. Its `distance` is not reset between the channel
blocks of a pixel: each block adds its squared delta and then tests the running sum
against the threshold. A channel slot therefore counts the pixels whose running sum up
to and including that block exceeds the threshold, and the composite the pixels whose
whole sum does. The counts are therefore nested in block order, and the last selected
block counts what the composite counts. -/

noncomputable section

namespace MagickCompare

/-- The running `distance` when the block of `c` is tested: the guarded squares of the
blocks before `c` in `order`, then that of `c`. -/
def distanceThrough (guard : Slot → Bool) (delta : Slot → ℝ) (order : List Slot) (c : Slot) :
    ℝ :=
  ((order.takeWhile (· ≠ c) ++ [c]).map fun c => if guard c then delta c * delta c else 0).sum

section Blocks

variable {fuzz : ℝ} {guard : Slot → Bool} {delta : Slot → ℝ}

@[simp] theorem distanceThrough_cons_self (l : List Slot) (c : Slot) :
    distanceThrough guard delta (c :: l) c = if guard c then delta c * delta c else 0 := by
  simp [distanceThrough, List.takeWhile_cons]

theorem distanceThrough_cons_ne (l : List Slot) {c c' : Slot} (h : c' ≠ c) :
    distanceThrough guard delta (c' :: l) c =
      (if guard c' then delta c' * delta c' else 0) + distanceThrough guard delta l c := by
  simp [distanceThrough, List.takeWhile_cons, h]

theorem absoluteStep_apply_ne (s : ℝ × Bool × DistortionVector) {c c' : Slot} (h : c ≠ c') :
    (absoluteStep fuzz guard delta s c').2.2 c = s.2.2 c := by
  simp only [absoluteStep]
  split_ifs <;> simp [Function.update_noteq h]

theorem absoluteStep_apply_self (s : ℝ × Bool × DistortionVector) (c : Slot) :
    (absoluteStep fuzz guard delta s c).2.2 c =
      s.2.2 c + if guard c = true ∧ fuzz < s.1 + delta c * delta c then 1 else 0 := by
  simp only [absoluteStep]
  by_cases hg : guard c = true <;> by_cases hd : fuzz < s.1 + delta c * delta c <;>
    simp [hg, hd]

theorem foldl_absoluteStep_not_mem {l : List Slot} {c : Slot} (hc : c ∉ l)
    (s : ℝ × Bool × DistortionVector) :
    (l.foldl (absoluteStep fuzz guard delta) s).2.2 c = s.2.2 c := by
  induction l generalizing s with
  | nil => rfl
  | cons c' l ih =>
    rw [List.foldl_cons, ih (fun h => hc (List.mem_cons_of_mem _ h)),
      absoluteStep_apply_ne s fun h => hc (by simp [h])]

/-- Over blocks without repetition, the slot of a block counts once, when the running sum
through it exceeds the threshold. -/
theorem foldl_absoluteStep_mem {l : List Slot} (hl : l.Nodup) {c : Slot} (hc : c ∈ l)
    (s : ℝ × Bool × DistortionVector) :
    (l.foldl (absoluteStep fuzz guard delta) s).2.2 c =
      s.2.2 c + if guard c = true ∧ fuzz < s.1 + distanceThrough guard delta l c then 1 else 0 := by
  induction l generalizing s with
  | nil => exact absurd hc (List.not_mem_nil c)
  | cons c' l ih =>
    obtain ⟨hc', hl⟩ := List.nodup_cons.mp hl
    rw [List.foldl_cons]
    by_cases h : c' = c
    · subst h
      rw [foldl_absoluteStep_not_mem hc', absoluteStep_apply_self, distanceThrough_cons_self]
      by_cases hg : guard c' = true <;> simp [hg]
    · rw [ih hl ((List.mem_cons.mp hc).resolve_left (Ne.symm h)), absoluteStep_apply_ne _ (Ne.symm h),
        absoluteStep_distance, distanceThrough_cons_ne _ h, add_assoc]

theorem channelOrder_nodup : channelOrder.Nodup := by decide

/-- A channel slot of one pixel: one more when the running sum through its block exceeds
the threshold. -/
theorem absolutePixel_apply (v : DistortionVector) {c : Slot} (hc : c ∈ channelOrder) :
    absolutePixel fuzz guard delta v c =
      v c + if guard c = true ∧ fuzz < distanceThrough guard delta channelOrder c then 1 else 0 := by
  have hb : (absoluteBlocks fuzz guard delta v).2.2 c =
      v c + if guard c = true ∧ fuzz < distanceThrough guard delta channelOrder c then 1 else 0 := by
    simpa only [zero_add] using foldl_absoluteStep_mem channelOrder_nodup hc (0, false, v)
  cases h : (absoluteBlocks fuzz guard delta v).2.1
  · simpa only [absolutePixel, h, Bool.false_eq_true, if_false] using hb
  · simpa only [absolutePixel, h, if_true, Function.update_noteq (ne_composite_of_mem hc)] using hb

theorem distanceThrough_nonneg (l : List Slot) (c : Slot) : 0 ≤ distanceThrough guard delta l c :=
  List.sum_nonneg fun _ ha => by
    obtain ⟨c', -, rfl⟩ := List.mem_map.mp ha
    split_ifs
    exacts [mul_self_nonneg _, le_rfl]

/-- The running sum never falls from one block to a later one. -/
theorem distanceThrough_le_of_indexOf_le {l : List Slot} (hl : l.Nodup) {c c' : Slot}
    (hc : c ∈ l) (hle : l.indexOf c ≤ l.indexOf c') :
    distanceThrough guard delta l c ≤ distanceThrough guard delta l c' := by
  induction l with
  | nil => cases hc
  | cons a t ih =>
    by_cases ha : a = c
    · subst ha
      by_cases ha' : a = c'
      · rw [ha']
      · rw [distanceThrough_cons_self, distanceThrough_cons_ne _ ha']
        exact le_add_of_nonneg_right (distanceThrough_nonneg t c')
    · have ha' : a ≠ c' := by
        rintro rfl
        rw [List.indexOf_cons_self, List.indexOf_cons_ne _ ha] at hle
        omega
      rw [List.indexOf_cons_ne _ ha, List.indexOf_cons_ne _ ha'] at hle
      rw [distanceThrough_cons_ne _ ha, distanceThrough_cons_ne _ ha']
      exact add_le_add_left (ih (List.nodup_cons.mp hl).2
        ((List.mem_cons.mp hc).resolve_left (Ne.symm ha)) (Nat.succ_le_succ_iff.mp hle)) _

/-- At the last block the guard runs, the running sum is the whole guarded sum. -/
theorem distanceThrough_of_last {l : List Slot} (hl : l.Nodup) {c : Slot} (hc : c ∈ l)
    (hlast : ∀ c' ∈ l, guard c' = true → l.indexOf c' ≤ l.indexOf c) :
    distanceThrough guard delta l c =
      (l.map fun c => if guard c then delta c * delta c else 0).sum := by
  induction l with
  | nil => cases hc
  | cons a t ih =>
    obtain ⟨hat, htn⟩ := List.nodup_cons.mp hl
    rw [List.map_cons, List.sum_cons]
    by_cases ha : a = c
    · subst ha
      rw [distanceThrough_cons_self, self_eq_add_right]
      refine List.sum_eq_zero fun x hx => ?_
      obtain ⟨c', hc', rfl⟩ := List.mem_map.mp hx
      have hne : a ≠ c' := fun h => hat (h ▸ hc')
      have hg : guard c' = false := by
        by_contra hg
        have := hlast c' (List.mem_cons_of_mem _ hc') (Bool.not_eq_false _ ▸ hg)
        rw [List.indexOf_cons_ne _ hne, List.indexOf_cons_self] at this
        omega
      rw [hg, if_neg Bool.false_ne_true]
    · rw [distanceThrough_cons_ne _ ha, ih htn ((List.mem_cons.mp hc).resolve_left (Ne.symm ha))
        fun c' hc' hg => ?_]
      have hne : a ≠ c' := fun h => hat (h ▸ hc')
      have := hlast c' (List.mem_cons_of_mem _ hc') hg
      rwa [List.indexOf_cons_ne _ hne, List.indexOf_cons_ne _ ha, Nat.succ_le_succ_iff] at this

end Blocks

section Count

variable (image reconstruct : Image) (channel : ChannelType)

theorem sum_indicator_eq_card (P : ℕ → ℕ → Prop) [DecidableRel P] :
    (∑ y in Finset.range (areaRows image reconstruct),
      ∑ x in Finset.range (areaColumns image reconstruct), if P x y then (1 : ℝ) else 0) =
      ((areaPixels image reconstruct).filter fun p => P p.2 p.1).card := by
  rw [Finset.card_filter, areaPixels, Finset.sum_product, Nat.cast_sum]
  simp [Nat.cast_sum, Nat.cast_ite]

theorem absoluteRow_apply {c : Slot} (hc : c ∈ channelOrder) (y : ℕ) :
    absoluteRow image reconstruct channel y c =
      ∑ x in Finset.range (areaColumns image reconstruct),
        if channelGuard channel image.matte image.isCMYK c = true ∧
          absoluteFuzz image reconstruct channel < distanceThrough
            (channelGuard channel image.matte image.isCMYK) (absoluteDelta image reconstruct x y)
            channelOrder c
        then 1 else 0 := by
  rw [absoluteRow, rowVector, foldl_range_slot c
    (fun v x => absolutePixel (absoluteFuzz image reconstruct channel)
      (channelGuard channel image.matte image.isCMYK) (absoluteDelta image reconstruct x y) v) _
    (fun v _ => absolutePixel_apply v hc)]
  exact zero_add _

variable {image reconstruct channel} {sched : RowSchedule} {rowOk : ℕ → Bool}
  (hsched : sched.Complete (areaRows image reconstruct))
  (hok : ∀ y < areaRows image reconstruct, rowOk y = true)
include hsched hok

theorem getAbsoluteDistortion_apply {c : Slot} (hc : c ∈ channelOrder)
    (hg : channelGuard channel image.matte image.isCMYK c = true) :
    (getAbsoluteDistortion image reconstruct channel sched rowOk).2 c =
      ((areaPixels image reconstruct).filter fun p =>
        absoluteFuzz image reconstruct channel < distanceThrough
          (channelGuard channel image.matte image.isCMYK) (absoluteDelta image reconstruct p.2 p.1)
          channelOrder c).card := by
  rw [getAbsoluteDistortion, ompRows_add_eq_sum hsched hok, Finset.sum_apply]
  refine (Finset.sum_congr rfl fun y _ => ?_).trans (sum_indicator_eq_card image reconstruct
    fun x y => absoluteFuzz image reconstruct channel < distanceThrough
      (channelGuard channel image.matte image.isCMYK) (absoluteDelta image reconstruct x y) channelOrder c)
  simp only [absoluteRow_apply _ _ _ hc, hg, true_and]

theorem getAbsoluteDistortion_composite_card :
    (getAbsoluteDistortion image reconstruct channel sched rowOk).2 .composite =
      ((areaPixels image reconstruct).filter fun p =>
        absoluteFuzz image reconstruct channel <
          guardedSum (channelGuard channel image.matte image.isCMYK) fun c =>
            absoluteDelta image reconstruct p.2 p.1 c * absoluteDelta image reconstruct p.2 p.1 c).card := by
  rw [getAbsoluteDistortion, ompRows_add_eq_sum hsched hok, Finset.sum_apply]
  refine (Finset.sum_congr rfl fun y _ => ?_).trans (sum_indicator_eq_card image reconstruct
    fun x y => absoluteFuzz image reconstruct channel <
      guardedSum (channelGuard channel image.matte image.isCMYK) fun c =>
        absoluteDelta image reconstruct x y c * absoluteDelta image reconstruct x y c)
  simp only [absoluteRow_composite, absoluteDifference_iff (absoluteFuzz_nonneg _ _ _)]

/-- Under any schedule that splits the rows among the workers, with every row read, a
selected channel slot of `GetAbsoluteDistortion` is the number of pixels of the
comparison area whose running sum of squared deltas through that channel's block exceeds
the threshold, and the composite the number whose sum over all selected blocks does. -/
theorem getAbsoluteDistortion_counts_running_distance :
    (∀ c ∈ channelOrder, channelGuard channel image.matte image.isCMYK c = true →
      (getAbsoluteDistortion image reconstruct channel sched rowOk).2 c =
        ((areaPixels image reconstruct).filter fun p =>
          absoluteFuzz image reconstruct channel < distanceThrough
            (channelGuard channel image.matte image.isCMYK) (absoluteDelta image reconstruct p.2 p.1)
            channelOrder c).card) ∧
    (getAbsoluteDistortion image reconstruct channel sched rowOk).2 .composite =
      ((areaPixels image reconstruct).filter fun p =>
        absoluteFuzz image reconstruct channel <
          guardedSum (channelGuard channel image.matte image.isCMYK) fun c =>
            absoluteDelta image reconstruct p.2 p.1 c * absoluteDelta image reconstruct p.2 p.1 c).card :=
  ⟨fun _ hc hg => getAbsoluteDistortion_apply hsched hok hc hg,
    getAbsoluteDistortion_composite_card hsched hok⟩

/-- Since `distance` is not reset between the blocks of a pixel, the counts of
`GetAbsoluteDistortion` are nested: a selected block counts every pixel an earlier selected
block counts, the last selected block counts exactly the pixels of the composite, and the
composite counts at most the pixels of the comparison area. -/
theorem getAbsoluteDistortion_nested :
    (∀ c ∈ channelOrder, ∀ c' ∈ channelOrder,
      channelGuard channel image.matte image.isCMYK c = true →
      channelGuard channel image.matte image.isCMYK c' = true →
      channelOrder.indexOf c ≤ channelOrder.indexOf c' →
      (getAbsoluteDistortion image reconstruct channel sched rowOk).2 c ≤
        (getAbsoluteDistortion image reconstruct channel sched rowOk).2 c') ∧
    (∀ c ∈ channelOrder, channelGuard channel image.matte image.isCMYK c = true →
      (∀ c' ∈ channelOrder, channelGuard channel image.matte image.isCMYK c' = true →
        channelOrder.indexOf c' ≤ channelOrder.indexOf c) →
      (getAbsoluteDistortion image reconstruct channel sched rowOk).2 c =
        (getAbsoluteDistortion image reconstruct channel sched rowOk).2 .composite) ∧
    (getAbsoluteDistortion image reconstruct channel sched rowOk).2 .composite ≤
      areaColumns image reconstruct * areaRows image reconstruct := by
  refine ⟨fun c hc c' hc' hg hg' hle => ?_, fun c hc hg hlast => ?_, ?_⟩
  · rw [getAbsoluteDistortion_apply hsched hok hc hg, getAbsoluteDistortion_apply hsched hok hc' hg']
    exact Nat.cast_le.mpr (Finset.card_le_card (Finset.monotone_filter_right _ fun p hp =>
      hp.trans_le (distanceThrough_le_of_indexOf_le channelOrder_nodup hc hle)))
  · rw [getAbsoluteDistortion_apply hsched hok hc hg, getAbsoluteDistortion_composite_card hsched hok]
    simp only [distanceThrough_of_last channelOrder_nodup hc hlast, guardedSum]
  · rw [getAbsoluteDistortion_composite_card hsched hok, ← card_areaPixels]
    exact Nat.cast_le.mpr (Finset.card_filter_le _ _)

end Count

theorem getAbsoluteDistortion_counts_running_distance_redPixel :
    (RowSchedule.single 1).Complete (areaRows (redPixelImage 2 3) (redPixelImage 2 0)) ∧
    (∀ y < areaRows (redPixelImage 2 3) (redPixelImage 2 0), (fun _ => true : ℕ → Bool) y = true) ∧
    (∀ c ∈ channelOrder, channelGuard allChannels false false c = true →
      (getAbsoluteDistortion (redPixelImage 2 3) (redPixelImage 2 0) allChannels (.single 1)
          (fun _ => true)).2 c =
        ((areaPixels (redPixelImage 2 3) (redPixelImage 2 0)).filter fun p =>
          absoluteFuzz (redPixelImage 2 3) (redPixelImage 2 0) allChannels < distanceThrough
            (channelGuard allChannels false false)
            (absoluteDelta (redPixelImage 2 3) (redPixelImage 2 0) p.2 p.1) channelOrder c).card) ∧
    (getAbsoluteDistortion (redPixelImage 2 3) (redPixelImage 2 0) allChannels (.single 1)
        (fun _ => true)).2 .composite =
      ((areaPixels (redPixelImage 2 3) (redPixelImage 2 0)).filter fun p =>
        absoluteFuzz (redPixelImage 2 3) (redPixelImage 2 0) allChannels <
          guardedSum (channelGuard allChannels false false) fun c =>
            absoluteDelta (redPixelImage 2 3) (redPixelImage 2 0) p.2 p.1 c *
              absoluteDelta (redPixelImage 2 3) (redPixelImage 2 0) p.2 p.1 c).card :=
  ⟨RowSchedule.single_complete 1, fun _ _ => rfl,
    @getAbsoluteDistortion_counts_running_distance (redPixelImage 2 3) (redPixelImage 2 0) allChannels
      (.single 1) _ (RowSchedule.single_complete 1) fun _ _ => rfl⟩

theorem getAbsoluteDistortion_nested_redPixel :
    (RowSchedule.single 1).Complete (areaRows (redPixelImage 2 3) (redPixelImage 2 0)) ∧
    (∀ y < areaRows (redPixelImage 2 3) (redPixelImage 2 0), (fun _ => true : ℕ → Bool) y = true) ∧
    (∀ c ∈ channelOrder, ∀ c' ∈ channelOrder, channelGuard allChannels false false c = true →
      channelGuard allChannels false false c' = true →
      channelOrder.indexOf c ≤ channelOrder.indexOf c' →
      (getAbsoluteDistortion (redPixelImage 2 3) (redPixelImage 2 0) allChannels (.single 1)
          (fun _ => true)).2 c ≤
        (getAbsoluteDistortion (redPixelImage 2 3) (redPixelImage 2 0) allChannels (.single 1)
          (fun _ => true)).2 c') ∧
    (∀ c ∈ channelOrder, channelGuard allChannels false false c = true →
      (∀ c' ∈ channelOrder, channelGuard allChannels false false c' = true →
        channelOrder.indexOf c' ≤ channelOrder.indexOf c) →
      (getAbsoluteDistortion (redPixelImage 2 3) (redPixelImage 2 0) allChannels (.single 1)
          (fun _ => true)).2 c =
        (getAbsoluteDistortion (redPixelImage 2 3) (redPixelImage 2 0) allChannels (.single 1)
          (fun _ => true)).2 .composite) ∧
    (getAbsoluteDistortion (redPixelImage 2 3) (redPixelImage 2 0) allChannels (.single 1)
        (fun _ => true)).2 .composite ≤
      areaColumns (redPixelImage 2 3) (redPixelImage 2 0) *
        areaRows (redPixelImage 2 3) (redPixelImage 2 0) :=
  ⟨RowSchedule.single_complete 1, fun _ _ => rfl,
    @getAbsoluteDistortion_nested (redPixelImage 2 3) (redPixelImage 2 0) allChannels
      (.single 1) _ (RowSchedule.single_complete 1) fun _ _ => rfl⟩

/-- A one-pixel opaque image: red and green `level`, every other channel 0, fuzz factor
`fuzz`. -/
def redGreenImage (fuzz level : ℝ) : Image :=
  ⟨1, 1, false, .otherColorspace, fuzz, fun _ _ => ⟨level, level, 0, 0, 0⟩, one_pos, one_pos⟩

/-- Red and green 3 against black, fuzz 2, all channels: the threshold is `3*2^2 = 12` and
no channel's squared delta (9) exceeds it, but the running sum reaches `18` at the green
block, so the green slot and the composite each count the pixel. -/
theorem getAbsoluteDistortion_redGreen :
    validateImageMorphology (redGreenImage 2 3) (redPixelImage 2 0) = true ∧
    absoluteFuzz (redGreenImage 2 3) (redPixelImage 2 0) allChannels = 12 ∧
    (∀ c ∈ channelOrder, absoluteDelta (redGreenImage 2 3) (redPixelImage 2 0) 0 0 c *
      absoluteDelta (redGreenImage 2 3) (redPixelImage 2 0) 0 0 c ≤ 12) ∧
    (getAbsoluteDistortion (redGreenImage 2 3) (redPixelImage 2 0) allChannels (.single 1)
      (fun _ => true)).2 .green = 1 ∧
    (getAbsoluteDistortion (redGreenImage 2 3) (redPixelImage 2 0) allChannels (.single 1)
      (fun _ => true)).2 .composite = 1 := by
  have hsched : (RowSchedule.single 1).Complete (areaRows (redGreenImage 2 3) (redPixelImage 2 0)) :=
    RowSchedule.single_complete 1
  have hok : ∀ y < areaRows (redGreenImage 2 3) (redPixelImage 2 0),
      (fun _ => true : ℕ → Bool) y = true := fun _ _ => rfl
  have hguard : channelGuard allChannels (redGreenImage 2 3).matte (redGreenImage 2 3).isCMYK =
      channelGuard allChannels false false := rfl
  have hfuzz : absoluteFuzz (redGreenImage 2 3) (redPixelImage 2 0) allChannels = 12 := by
    have h3 : getNumberChannels (redGreenImage 2 3) allChannels = 3 := by
      rw [getNumberChannels_eq]; rfl
    simp only [absoluteFuzz, h3, getNumberChannels_redPixelImage]
    norm_num [getFuzzyColorDistance, redGreenImage, redPixelImage]
  have harea : areaPixels (redGreenImage 2 3) (redPixelImage 2 0) = {(0, 0)} := rfl
  refine ⟨rfl, hfuzz, fun c hc => ?_, ?_, ?_⟩
  · simp only [channelOrder, List.mem_cons, List.mem_singleton, List.not_mem_nil, or_false] at hc
    rcases hc with rfl | rfl | rfl | rfl | rfl <;>
      norm_num [absoluteDelta, channelDelta, redGreenImage, redPixelImage, Slot.value]
  · rw [getAbsoluteDistortion_apply hsched hok (by decide) (by rw [hguard]; rfl), harea, hfuzz,
      hguard]
    simp only [channelOrder, Finset.filter_singleton,
      distanceThrough_cons_ne _ (by decide : Slot.red ≠ .green), distanceThrough_cons_self]
    norm_num [channelGuard, absoluteDelta, channelDelta, redGreenImage, redPixelImage, Slot.value]
  · rw [getAbsoluteDistortion_composite_card hsched hok, harea, hfuzz, hguard]
    simp only [Finset.filter_singleton, guardedSum, channelOrder, List.map_cons, List.map_nil]
    norm_num [channelGuard, absoluteDelta, channelDelta, redGreenImage, redPixelImage, Slot.value]

end MagickCompare

end
