import MagickCompare.MetricLaws
/-! The composite slot of each metric as a function of its channel slots. The sum metrics
add every guarded term to its channel slot and to the composite, so the composite is the
sum of the guarded slots after every pixel and every row fold; the peak metric keeps the
composite at the largest guarded slot; the transforms and the cross correlation compute
the composite from the slots at the end. Each law holds of every run, whatever the
schedule and whatever reads fail. -/

noncomputable section

namespace MagickCompare

theorem rowVector_induction (P : DistortionVector → Prop) {columns : ℕ}
    {f : ℕ → DistortionVector → DistortionVector} (h0 : P 0) (hf : ∀ x v, P v → P (f x v)) :
    P (rowVector columns f) :=
  List.foldlRecOn (motive := P) _ _ _ h0 fun v hv x _ => hf x v hv

theorem ompRows_induction (P : DistortionVector → Prop) {sched : RowSchedule} {rowOk : ℕ → Bool}
    {merge : DistortionVector → DistortionVector → DistortionVector} {row : ℕ → DistortionVector}
    (h0 : P 0) (hmerge : ∀ d y, P d → P (merge d (row y))) : P (ompRows sched rowOk merge row).2 :=
  runRows_induction rowOk _ P h0 fun d y _ hd => hmerge d y hd

/-- The loop over the one pixel of a one-by-one comparison area. -/
theorem ompRows_onePixel (merge : DistortionVector → DistortionVector → DistortionVector)
    (f : ℕ → ℕ → DistortionVector → DistortionVector) :
    ompRows (.single 1) (fun _ => true) merge (fun y => rowVector 1 fun x => f x y) =
      (true, merge 0 (f 0 0 0)) := by
  simp [ompRows, runRows_of_ok _ _ (fun _ _ => rfl), rowTrace_single, rowVector,
    show List.range 1 = [0] from rfl]

/-- The blocks of a pixel, each guarded, keep what every block keeps. -/
theorem foldl_blocks_induction (P : DistortionVector → Prop) {guard : Slot → Bool}
    {block : DistortionVector → Slot → DistortionVector} {v : DistortionVector} (hv : P v)
    (hblock : ∀ v, ∀ c ∈ channelOrder, guard c = true → P v → P (block v c)) :
    P (channelOrder.foldl (fun v c => if guard c then block v c else v) v) :=
  List.foldlRecOn (motive := P) _ _ _ hv fun w hw c hc => by
    split_ifs with hg
    exacts [hblock w c hc hg hw, hw]

theorem getNumberChannels_of_pos {image : Image} {channel : ChannelType}
    (h : 0 < guardedCount (channelGuard channel image.matte image.isCMYK)) :
    getNumberChannels image channel = guardedCount (channelGuard channel image.matte image.isCMYK) := by
  rw [getNumberChannels_eq, if_neg h.ne']

theorem isCMYK_and_of_morphology {image reconstruct : Image}
    (hmorph : validateImageMorphology image reconstruct = true) :
    (image.isCMYK && reconstruct.isCMYK) = image.isCMYK := by
  rw [← (validateImageMorphology_iff image reconstruct).mp hmorph, Bool.and_self]

/-! ### Sums -/

/-- The composite slot holds the sum of the channel slots `guard` runs. -/
def CompositeSum (guard : Slot → Bool) (v : DistortionVector) : Prop :=
  v .composite = guardedSum guard v

section CompositeSum

variable {guard : Slot → Bool}

theorem compositeSum_zero : CompositeSum guard 0 := by
  simp [CompositeSum]

theorem CompositeSum.add {v w : DistortionVector} (hv : CompositeSum guard v)
    (hw : CompositeSum guard w) : CompositeSum guard (v + w) := by
  rw [CompositeSum, guardedSum_add, Pi.add_apply, hv, hw]

/-- A pixel's blocks add each guarded term to its slot and to the composite. -/
theorem compositeSum_accumulate {v : DistortionVector} (term : Slot → ℝ)
    (hv : CompositeSum guard v) : CompositeSum guard (accumulate guard term v) := by
  have hslots : guardedSum guard (accumulate guard term v) = guardedSum guard (v + term) :=
    guardedSum_congr fun c hc hg => by
      rw [accumulate_apply _ _ _ (ne_composite_of_mem hc), if_pos hg, Pi.add_apply]
  rw [CompositeSum, accumulate_composite, hslots, guardedSum_add, hv]

/-- The row loop of a sum metric keeps the composite at the sum of the guarded slots. -/
theorem compositeSum_sumRows {sched : RowSchedule} {rowOk : ℕ → Bool} {columns : ℕ}
    (term : ℕ → ℕ → Slot → ℝ) :
    CompositeSum guard (ompRows sched rowOk (· + ·)
      (fun y => rowVector columns fun x => accumulate guard (term x y))).2 :=
  ompRows_induction _ compositeSum_zero fun _ _ hd =>
    hd.add (rowVector_induction _ compositeSum_zero fun _ _ hv => compositeSum_accumulate _ hv)

/-- The normalisation divides the composite by the channel count besides the area. -/
theorem compositeSum_normalizeMean {v : DistortionVector} (hv : CompositeSum guard v)
    (area : ℝ) (channels : ℕ) :
    normalizeMean area channels v .composite =
      guardedSum guard (normalizeMean area channels v) / channels := by
  rw [normalizeMean_composite, hv, ← guardedSum_div]
  exact congrArg (· / _) (guardedSum_congr fun c hc _ =>
    (normalizeMean_apply _ _ _ (ne_composite_of_mem hc)).symm)

end CompositeSum

/-! ### Maxima -/

/-- The largest of the channel slots `guard` runs, and 0 when it runs none; every slot the
peak metric writes is nonnegative. -/
def guardedMax (guard : Slot → Bool) (f : Slot → ℝ) : ℝ :=
  (channelOrder.map fun c => if guard c then f c else 0).foldr max 0

theorem guardedMax_zero (g : Slot → Bool) : guardedMax g 0 = 0 := by
  simp [guardedMax, channelOrder]

theorem guardedMax_sup (g : Slot → Bool) (v w : DistortionVector) :
    guardedMax g (v ⊔ w) = max (guardedMax g v) (guardedMax g w) := by
  unfold guardedMax
  generalize channelOrder = l
  induction l with
  | nil => simp
  | cons c l ih =>
    rw [List.map_cons, List.foldr_cons, ih, List.map_cons, List.map_cons, List.foldr_cons,
      List.foldr_cons, Pi.sup_apply]
    split_ifs
    · exact max_max_max_comm _ _ _ _
    · rw [max_max_max_comm (0 : ℝ), max_self]

/-- What a block adds to the peak vector: `d` at its slot and at the composite. -/
def peakVector (c : Slot) (d : ℝ) : DistortionVector :=
  fun i => if i = c ∨ i = .composite then d else 0

theorem update_if_gt (v : DistortionVector) (j : Slot) (d : ℝ) :
    (if d > v j then Function.update v j d else v) = Function.update v j (max (v j) d) := by
  split_ifs with h
  · rw [max_eq_right h.le]
  · rw [max_eq_left (not_lt.mp h), Function.update_eq_self]

theorem maxTerm_eq_update (v : DistortionVector) {c : Slot} (hc : c ≠ .composite) (d : ℝ) :
    maxTerm v c d = Function.update (Function.update v c (max (v c) d)) .composite
      (max (v .composite) d) := by
  simp only [maxTerm, update_if_gt]
  rw [Function.update_noteq hc.symm]

theorem maxTerm_eq_sup {v : DistortionVector} (hv : 0 ≤ v) {c : Slot} (hc : c ≠ .composite)
    (d : ℝ) : maxTerm v c d = v ⊔ peakVector c d := by
  funext i
  rw [maxTerm_eq_update v hc, Pi.sup_apply, peakVector]
  by_cases hi : i = .composite
  · subst hi; simp
  by_cases hic : i = c
  · subst hic; simp [hi]
  · simpa [hi, hic, Function.update_noteq] using hv i

theorem guardedMax_peakVector {g : Slot → Bool} {c : Slot} (hc : c ∈ channelOrder)
    (hg : g c = true) {d : ℝ} (hd : 0 ≤ d) : guardedMax g (peakVector c d) = d := by
  simp only [channelOrder, List.mem_cons, List.mem_singleton, List.not_mem_nil, or_false] at hc
  rcases hc with rfl | rfl | rfl | rfl | rfl <;>
    simp [guardedMax, peakVector, channelOrder, hg, hd]

/-- The composite slot holds the largest guarded slot, and every slot is nonnegative. -/
def CompositeMax (guard : Slot → Bool) (v : DistortionVector) : Prop :=
  0 ≤ v ∧ v .composite = guardedMax guard v

section CompositeMax

variable {guard : Slot → Bool}

theorem compositeMax_zero : CompositeMax guard 0 := ⟨le_rfl, (guardedMax_zero guard).symm⟩

theorem CompositeMax.sup {v w : DistortionVector} (hv : CompositeMax guard v)
    (hw : CompositeMax guard w) : CompositeMax guard (v ⊔ w) :=
  ⟨le_sup_of_le_left hv.1, by rw [guardedMax_sup, Pi.sup_apply, hv.2, hw.2]⟩

theorem compositeMax_maxTerm {v : DistortionVector} (hv : CompositeMax guard v) {c : Slot}
    (hc : c ∈ channelOrder) (hg : guard c = true) {d : ℝ} (hd : 0 ≤ d) :
    CompositeMax guard (maxTerm v c d) := by
  rw [maxTerm_eq_sup hv.1 (ne_composite_of_mem hc)]
  refine hv.sup ⟨fun i => ?_, ?_⟩
  · simp only [peakVector, Pi.zero_apply]; split_ifs <;> simp [hd]
  · rw [guardedMax_peakVector hc hg hd]
    simp [peakVector]

end CompositeMax

/-! ### The laws of each metric -/

/-- The foldl of the cross correlation's composite block. -/
theorem foldl_guarded_add (g : Slot → Bool) (f : Slot → ℝ) (l : List Slot) (a : ℝ) :
    l.foldl (fun s c => if g c then s + f c else s) a = a + (l.map fun c => if g c then f c else 0).sum := by
  induction l generalizing a with
  | nil => simp
  | cons c l ih => rw [List.foldl_cons, ih, List.map_cons, List.sum_cons]; split_ifs <;> ring

/-- The composite of each metric as a function of the channel slots it writes: the mean
for the mean absolute and mean squared errors, the root of the mean square for the root
mean squared error and the cross correlation, the maximum for the peak absolute error and
the sum for the perceptual hash. A mean divides by the number of slots the metric writes,
given one; the fuzz metric divides by `GetNumberChannels` of the image, which leaves out an
opacity slot written for the reconstruction's matte alone. -/
structure CompositeLaws (image reconstruct : Image) (channel : ChannelType) (env : Collaborators) :
    Prop where
  meanAbsolute : 0 < guardedCount (channelGuard channel image.matte image.isCMYK) →
    (getMeanAbsoluteDistortion image reconstruct channel env.schedule env.rowOk).2 .composite =
      guardedSum (channelGuard channel image.matte image.isCMYK)
        (getMeanAbsoluteDistortion image reconstruct channel env.schedule env.rowOk).2 /
      guardedCount (channelGuard channel image.matte image.isCMYK)
  meanSquared :
    0 < guardedCount (channelGuard channel image.matte (image.isCMYK && reconstruct.isCMYK)) →
    (getMeanSquaredDistortion image reconstruct channel env.schedule env.rowOk).2 .composite =
      guardedSum (channelGuard channel image.matte (image.isCMYK && reconstruct.isCMYK))
        (getMeanSquaredDistortion image reconstruct channel env.schedule env.rowOk).2 /
      guardedCount (channelGuard channel image.matte (image.isCMYK && reconstruct.isCMYK))
  rootMeanSquared :
    0 < guardedCount (channelGuard channel image.matte (image.isCMYK && reconstruct.isCMYK)) →
    (getRootMeanSquaredDistortion image reconstruct channel env.schedule env.rowOk).2 .composite =
      Real.sqrt (guardedSum (channelGuard channel image.matte (image.isCMYK && reconstruct.isCMYK))
        (fun c => (getRootMeanSquaredDistortion image reconstruct channel env.schedule env.rowOk).2 c ^ 2) /
      guardedCount (channelGuard channel image.matte (image.isCMYK && reconstruct.isCMYK)))
  fuzz :
    (getFuzzDistortion image reconstruct channel env.schedule env.rowOk).2 .composite =
      Real.sqrt (guardedSum (channelGuard channel (image.matte || reconstruct.matte)
          (image.isCMYK && reconstruct.isCMYK))
        (getFuzzDistortion image reconstruct channel env.schedule env.rowOk).2 /
      getNumberChannels image channel)
  crossCorrelation :
    0 < guardedCount (channelGuard channel image.matte (image.isCMYK && reconstruct.isCMYK)) →
    (getNormalizedCrossCorrelationDistortion image reconstruct channel env.statistics env.rowOk
        env.progressOk).2 .composite =
      Real.sqrt (guardedSum (channelGuard channel image.matte (image.isCMYK && reconstruct.isCMYK))
        (fun c => (getNormalizedCrossCorrelationDistortion image reconstruct channel env.statistics
          env.rowOk env.progressOk).2 c ^ 2) /
      guardedCount (channelGuard channel image.matte (image.isCMYK && reconstruct.isCMYK)))
  peakAbsolute :
    (getPeakAbsoluteDistortion image reconstruct channel env.schedule env.rowOk).2 .composite =
      guardedMax (channelGuard channel image.matte (image.isCMYK && reconstruct.isCMYK))
        (getPeakAbsoluteDistortion image reconstruct channel env.schedule env.rowOk).2
  perceptualHash :
    (getPerceptualHashDistortion image reconstruct channel env.perceptualHash).2 .composite =
      guardedSum (channelGuard channel (image.matte && reconstruct.matte)
          (image.isCMYK && reconstruct.isCMYK))
        (getPerceptualHashDistortion image reconstruct channel env.perceptualHash).2

section Laws

variable (image reconstruct : Image) (channel : ChannelType) (sched : RowSchedule)
  (rowOk : ℕ → Bool)

theorem getMeanAbsoluteDistortion_composite :
    (getMeanAbsoluteDistortion image reconstruct channel sched rowOk).2 .composite =
      guardedSum (channelGuard channel image.matte image.isCMYK)
        (getMeanAbsoluteDistortion image reconstruct channel sched rowOk).2 /
      getNumberChannels image channel :=
  compositeSum_normalizeMean (compositeSum_sumRows _) _ _

theorem getMeanSquaredDistortion_composite :
    (getMeanSquaredDistortion image reconstruct channel sched rowOk).2 .composite =
      guardedSum (channelGuard channel image.matte (image.isCMYK && reconstruct.isCMYK))
        (getMeanSquaredDistortion image reconstruct channel sched rowOk).2 /
      getNumberChannels image channel :=
  compositeSum_normalizeMean (compositeSum_sumRows _) _ _

theorem getFuzzDistortion_composite :
    (getFuzzDistortion image reconstruct channel sched rowOk).2 .composite =
      Real.sqrt (guardedSum (channelGuard channel (image.matte || reconstruct.matte)
          (image.isCMYK && reconstruct.isCMYK))
        (getFuzzDistortion image reconstruct channel sched rowOk).2 /
      getNumberChannels image channel) := by
  have hs : CompositeSum (channelGuard channel (image.matte || reconstruct.matte)
      (image.isCMYK && reconstruct.isCMYK)) (ompRows sched rowOk (· + ·) fun y =>
        rowVector (areaColumns image reconstruct) fun x => fuzzPixel image reconstruct channel x y).2 :=
    compositeSum_sumRows _
  simp only [getFuzzDistortion, Function.update_same]
  rw [compositeSum_normalizeMean hs]
  exact congrArg (fun s => Real.sqrt (s / _)) (guardedSum_congr fun c hc _ =>
    (Function.update_noteq (ne_composite_of_mem hc) _ _).symm)

theorem getPeakAbsoluteDistortion_compositeMax :
    CompositeMax (channelGuard channel image.matte (image.isCMYK && reconstruct.isCMYK))
      (getPeakAbsoluteDistortion image reconstruct channel sched rowOk).2 :=
  ompRows_induction _ compositeMax_zero fun d y hd => by
    rw [maxFold_eq_sup]
    refine hd.sup (rowVector_induction _ compositeMax_zero fun x v hv => ?_)
    simp only [peakAbsolutePixel]
    exact foldl_blocks_induction _ hv fun w c hc hg hw =>
      compositeMax_maxTerm hw hc hg (mul_nonneg quantumScale_nonneg (abs_nonneg _))

theorem getPerceptualHashDistortion_compositeSum
    (perceptualHash : Image → Option (Slot → ChannelPerceptualHash)) :
    CompositeSum (channelGuard channel (image.matte && reconstruct.matte)
        (image.isCMYK && reconstruct.isCMYK))
      (getPerceptualHashDistortion image reconstruct channel perceptualHash).2 := by
  unfold getPerceptualHashDistortion
  split
  · exact List.foldlRecOn (motive := CompositeSum _) _ _ _
      (List.foldlRecOn (motive := CompositeSum _) _ _ _ compositeSum_zero
        fun _ hv _ _ => compositeSum_accumulate _ hv) fun _ hv _ _ => compositeSum_accumulate _ hv
  · exact compositeSum_zero

theorem correlationNormalize_composite
    (imageStatistics reconstructStatistics : Slot → ChannelStatistics) (v : DistortionVector) :
    correlationNormalize image channel imageStatistics reconstructStatistics v .composite =
      Real.sqrt (guardedSum (channelGuard channel image.matte image.isCMYK)
        (fun c => correlationNormalize image channel imageStatistics reconstructStatistics v c ^ 2) /
      getNumberChannels image channel) := by
  simp only [correlationNormalize, Function.update_same, foldl_guarded_add, zero_add]
  refine congrArg (fun s => Real.sqrt (s / _)) (guardedSum_congr fun c hc _ => ?_)
  rw [Function.update_noteq (ne_composite_of_mem hc), sq]

theorem getNormalizedCrossCorrelationDistortion_composite
    (statistics : Image → Option (Slot → ChannelStatistics)) (progressOk : ℕ → Bool) :
    (getNormalizedCrossCorrelationDistortion image reconstruct channel statistics rowOk
        progressOk).2 .composite =
      Real.sqrt (guardedSum (channelGuard channel image.matte image.isCMYK)
        (fun c => (getNormalizedCrossCorrelationDistortion image reconstruct channel statistics
          rowOk progressOk).2 c ^ 2) /
      getNumberChannels image channel) := by
  unfold getNormalizedCrossCorrelationDistortion
  split
  · exact correlationNormalize_composite _ _ _ _ _
  · simp [guardedSum_eq_sum]

/-- Under the morphology check, the composite of each metric is the function of its
channel slots that `CompositeLaws` names, for every schedule and every failure. -/
theorem compositeLaws_of_morphology (hmorph : validateImageMorphology image reconstruct = true)
    (env : Collaborators) : CompositeLaws image reconstruct channel env := by
  have hk := isCMYK_and_of_morphology hmorph
  have hmse := getMeanSquaredDistortion_composite image reconstruct channel env.schedule env.rowOk
  rw [hk] at hmse
  refine ⟨fun h => ?_, fun h => ?_, fun h => ?_, getFuzzDistortion_composite _ _ _ _ _,
    fun h => ?_, (getPeakAbsoluteDistortion_compositeMax _ _ _ _ _).2,
    getPerceptualHashDistortion_compositeSum _ _ _ _⟩
  · rw [getMeanAbsoluteDistortion_composite, getNumberChannels_of_pos h]
  · rw [hk] at h ⊢
    rw [hmse, getNumberChannels_of_pos h]
  · rw [hk] at h ⊢
    have hsq : guardedSum (channelGuard channel image.matte image.isCMYK)
        (fun c => (getRootMeanSquaredDistortion image reconstruct channel env.schedule env.rowOk).2 c ^ 2) =
        guardedSum (channelGuard channel image.matte image.isCMYK)
          (getMeanSquaredDistortion image reconstruct channel env.schedule env.rowOk).2 :=
      guardedSum_congr fun c _ hg => by
        simp only [getRootMeanSquaredDistortion, transformGuard, hg, or_true, if_true]
        exact Real.sq_sqrt (getMeanSquaredDistortion_nonneg _ _ _ _ _ c)
    have hroot : (getRootMeanSquaredDistortion image reconstruct channel env.schedule env.rowOk).2
        .composite = Real.sqrt ((getMeanSquaredDistortion image reconstruct channel env.schedule
          env.rowOk).2 .composite) := by
      simp [getRootMeanSquaredDistortion]
    rw [hroot, hsq, hmse, getNumberChannels_of_pos h]
  · rw [hk] at h ⊢
    rw [getNormalizedCrossCorrelationDistortion_composite, getNumberChannels_of_pos h]

theorem compositeLaws_of_morphology_whiteTransparent :
    validateImageMorphology opaqueWhite transparentBlack = true ∧
      CompositeLaws opaqueWhite transparentBlack allChannels twoWorkers :=
  ⟨rfl, compositeLaws_of_morphology opaqueWhite transparentBlack allChannels rfl twoWorkers⟩

end Laws

/-- White without matte against transparent black with matte: the fuzz metric writes 1 to
red, green, blue and opacity, and √(4/3) to the composite. -/
theorem getFuzzDistortion_whiteTransparent :
    guardedSum (channelGuard allChannels (opaqueWhite.matte || transparentBlack.matte)
        (opaqueWhite.isCMYK && transparentBlack.isCMYK))
      (getFuzzDistortion opaqueWhite transparentBlack allChannels (.single 1) (fun _ => true)).2 = 4 ∧
    (getFuzzDistortion opaqueWhite transparentBlack allChannels (.single 1) (fun _ => true)).2
      .composite = Real.sqrt (4 / 3) := by
  have hm : (opaqueWhite.matte || transparentBlack.matte) = true := rfl
  have hk : (opaqueWhite.isCMYK && transparentBlack.isCMYK) = false := rfl
  have hslots : ∀ c ∈ channelOrder, channelGuard allChannels true false c = true →
      (getFuzzDistortion opaqueWhite transparentBlack allChannels (.single 1) (fun _ => true)).2 c =
        1 := by
    intro c hc hg
    simp only [getFuzzDistortion, Function.update_noteq (ne_composite_of_mem hc),
      normalizeMean_apply _ _ _ (ne_composite_of_mem hc),
      show areaColumns opaqueWhite transparentBlack = 1 from rfl, ompRows_onePixel, zero_add,
      fuzzPixel]
    rw [accumulate_apply _ _ _ (ne_composite_of_mem hc), hm, hk, if_pos hg]
    simp only [channelOrder, List.mem_cons, List.mem_singleton, List.not_mem_nil, or_false] at hc
    rcases hc with rfl | rfl | rfl | rfl | rfl <;>
      norm_num [channelGuard, channelDelta, opaqueWhite, transparentBlack, Slot.value, alphaWeight,
        getPixelAlpha, opaqueOpacity, quantumScale, quantumRange, areaRows] at hg ⊢
  have hsum : guardedSum (channelGuard allChannels true false)
      (getFuzzDistortion opaqueWhite transparentBlack allChannels (.single 1) (fun _ => true)).2 =
        4 := by
    rw [guardedSum_congr hslots]
    norm_num [guardedSum, channelOrder, channelGuard]
  rw [hm, hk]
  refine ⟨hsum, ?_⟩
  rw [getFuzzDistortion_composite, hm, hk, hsum,
    show getNumberChannels opaqueWhite allChannels = 3 by decide]
  norm_num

/-- The fuzz metric on white without matte against transparent black with matte writes four
slots of 1, and its composite is √(4/3), not the root of their mean, 1. -/
theorem getFuzzDistortion_reconstruction_matte :
    validateImageMorphology opaqueWhite transparentBlack = true ∧
    guardedCount (channelGuard allChannels (opaqueWhite.matte || transparentBlack.matte)
      (opaqueWhite.isCMYK && transparentBlack.isCMYK)) = 4 ∧
    (getFuzzDistortion opaqueWhite transparentBlack allChannels (.single 1) (fun _ => true)).2
      .composite = Real.sqrt (4 / 3) ∧
    Real.sqrt (guardedSum (channelGuard allChannels (opaqueWhite.matte || transparentBlack.matte)
        (opaqueWhite.isCMYK && transparentBlack.isCMYK))
      (getFuzzDistortion opaqueWhite transparentBlack allChannels (.single 1) (fun _ => true)).2 /
      guardedCount (channelGuard allChannels (opaqueWhite.matte || transparentBlack.matte)
        (opaqueWhite.isCMYK && transparentBlack.isCMYK))) = 1 := by
  obtain ⟨hsum, hcomp⟩ := getFuzzDistortion_whiteTransparent
  have hcount : guardedCount (channelGuard allChannels (opaqueWhite.matte || transparentBlack.matte)
      (opaqueWhite.isCMYK && transparentBlack.isCMYK)) = 4 := by decide
  refine ⟨rfl, hcount, hcomp, ?_⟩
  rw [hsum, hcount]
  norm_num

end MagickCompare

end
