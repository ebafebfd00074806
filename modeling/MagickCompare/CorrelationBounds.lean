import MagickCompare.Bounds
/-! The range of the normalized cross correlation. When the statistics provider reports
the population mean and standard deviation of each channel, and every pixel is read at
full alpha weight, each channel slot is a Pearson correlation over the rows read so far,
scaled by the whole-image deviations, and lies in `[-1, 1]` by Cauchy–Schwarz; the
epsilon reciprocal of a vanishing deviation only shrinks it. -/

noncomputable section

namespace MagickCompare

def imagePixels (image : Image) : Finset (ℕ × ℕ) :=
  Finset.range image.rows ×ˢ Finset.range image.columns

/-- Modelled from the spec: `GetImageChannelStatistics` is not in the source. For each
channel, the mean and the population standard deviation of the channel's raw values over
the image. -/
def populationStatistics (image : Image) (c : Slot) : ChannelStatistics :=
  let n : ℝ := (imagePixels image).card
  let mean := (∑ p in imagePixels image, c.value (image.pixel p.2 p.1)) / n
  ⟨mean, Real.sqrt ((∑ p in imagePixels image, (c.value (image.pixel p.2 p.1) - mean) ^ 2) / n)⟩

theorem card_imagePixels_pos (image : Image) : (0 : ℝ) < (imagePixels image).card := by
  simp only [imagePixels, Finset.card_product, Finset.card_range, Nat.cast_mul]
  exact mul_pos (Nat.cast_pos.mpr image.rows_pos) (Nat.cast_pos.mpr image.columns_pos)

theorem sqrt_sum_sq_deviation (image : Image) (c : Slot) :
    Real.sqrt (∑ p in imagePixels image,
        (c.value (image.pixel p.2 p.1) - (populationStatistics image c).mean) ^ 2) =
      Real.sqrt (imagePixels image).card * (populationStatistics image c).standardDeviation := by
  have hn := card_imagePixels_pos image
  rw [populationStatistics, ← Real.sqrt_mul hn.le, mul_div_cancel₀ _ hn.ne']

/-- Cauchy–Schwarz over part of a finite set, bounded by the sums over the whole set. -/
theorem abs_sum_mul_le_of_subset {ι : Type*} {S T : Finset ι} (hST : S ⊆ T) (f g : ι → ℝ) :
    |∑ i in S, f i * g i| ≤ Real.sqrt (∑ i in T, f i ^ 2) * Real.sqrt (∑ i in T, g i ^ 2) := by
  have hsq : ∀ h : ι → ℝ, ∑ i in S, h i ^ 2 ≤ ∑ i in T, h i ^ 2 := fun h =>
    Finset.sum_le_sum_of_subset_of_nonneg hST fun i _ _ => sq_nonneg (h i)
  refine abs_le_of_sq_le_sq ?_ (by positivity)
  calc (∑ i in S, f i * g i) ^ 2 ≤ (∑ i in S, f i ^ 2) * ∑ i in S, g i ^ 2 :=
        Finset.sum_mul_sq_le_sq_mul_sq S f g
    _ ≤ (∑ i in T, f i ^ 2) * ∑ i in T, g i ^ 2 :=
        mul_le_mul (hsq f) (hsq g) (Finset.sum_nonneg fun i _ => sq_nonneg (g i))
          (Finset.sum_nonneg fun i _ => sq_nonneg (f i))
    _ = (Real.sqrt (∑ i in T, f i ^ 2) * Real.sqrt (∑ i in T, g i ^ 2)) ^ 2 := by
        rw [mul_pow, Real.sq_sqrt (Finset.sum_nonneg fun i _ => sq_nonneg (f i)),
          Real.sq_sqrt (Finset.sum_nonneg fun i _ => sq_nonneg (g i))]

/-- The epsilon reciprocal of a nonnegative bound keeps a value within the bound inside
`[-1, 1]`: above `MagickEpsilon` it divides, below it divides by the larger epsilon. -/
theorem abs_perceptibleReciprocal_mul_le {s t : ℝ} (hs : 0 ≤ s) (ht : |t| ≤ s) :
    |perceptibleReciprocal s * t| ≤ 1 := by
  have heps : (0 : ℝ) < magickEpsilon := by norm_num [magickEpsilon]
  simp only [perceptibleReciprocal, if_neg (not_lt.mpr hs), one_mul]
  split_ifs with h
  · rw [abs_mul, abs_of_pos (one_div_pos.mpr (heps.trans_le h)), one_div_mul_eq_div,
      div_le_one (heps.trans_le h)]
    exact ht
  · rw [abs_mul, abs_of_pos (one_div_pos.mpr heps), one_div_mul_eq_div, div_le_one heps]
    exact ht.trans (not_le.mp h).le

/-! ### The channel slots of a run -/

theorem foldl_update_apply (guard : Slot → Bool) (term : Slot → ℝ) (c : Slot) (l : List Slot)
    (v : DistortionVector) :
    l.foldl (fun v c => if guard c then Function.update v c (v c + term c) else v) v c =
      v c + (l.map fun c' => if c' = c ∧ guard c' = true then term c' else 0).sum := by
  induction l generalizing v with
  | nil => simp
  | cons c' l ih =>
    rw [List.foldl_cons, ih, List.map_cons, List.sum_cons, ← add_assoc]
    by_cases hg : guard c' = true <;> by_cases he : c' = c
    · subst he; simp [hg]
    · simp [hg, he, Function.update_noteq (Ne.symm he)]
    all_goals simp [hg]

section Slots

variable (image reconstruct : Image) (channel : ChannelType)
  (imageStatistics reconstructStatistics : Slot → ChannelStatistics)

theorem correlationPixel_apply (area : ℝ) (x y : ℕ) (v : DistortionVector) {c : Slot}
    (hc : c ≠ .composite) :
    correlationPixel image reconstruct channel imageStatistics reconstructStatistics area x y v c =
      v c + if channelGuard channel image.matte (image.isCMYK && reconstruct.isCMYK) c then
        area * quantumScale * correlationTerm image reconstruct imageStatistics
          reconstructStatistics (image.pixel x y) (reconstruct.pixel x y) c
      else 0 := by
  simp only [correlationPixel, foldl_update_apply]
  cases c <;> simp [channelOrder] at hc ⊢

theorem correlationNormalize_apply (v : DistortionVector) {c : Slot} (hc : c ≠ .composite) :
    correlationNormalize image channel imageStatistics reconstructStatistics v c =
      quantumRange * perceptibleReciprocal ((imageStatistics c).standardDeviation *
        (reconstructStatistics c).standardDeviation) * v c := by
  simp [correlationNormalize, Function.update_noteq hc, hc]

/-- Whatever rows fail and whatever the monitor answers, a channel slot of the cross
correlation is the normalised sum of its guarded cross products over the first rows of the
comparison area. -/
theorem getNormalizedCrossCorrelationDistortion_apply
    {statistics : Image → Option (Slot → ChannelStatistics)}
    (hi : statistics image = some imageStatistics)
    (hr : statistics reconstruct = some reconstructStatistics) (rowOk progressOk : ℕ → Bool)
    {c : Slot} (hc : c ≠ .composite) :
    ∃ k ≤ areaRows image reconstruct,
      (getNormalizedCrossCorrelationDistortion image reconstruct channel statistics rowOk
        progressOk).2 c =
        quantumRange * perceptibleReciprocal ((imageStatistics c).standardDeviation *
          (reconstructStatistics c).standardDeviation) *
        ∑ p in Finset.range k ×ˢ Finset.range (areaColumns image reconstruct),
          if channelGuard channel image.matte (image.isCMYK && reconstruct.isCMYK) c then
            1 / ((areaColumns image reconstruct : ℝ) * areaRows image reconstruct) * quantumScale *
              correlationTerm image reconstruct imageStatistics reconstructStatistics
                (image.pixel p.2 p.1) (reconstruct.pixel p.2 p.1) c
          else 0 := by
  simp only [getNormalizedCrossCorrelationDistortion, hi, hr]
  obtain ⟨k, hk⟩ := runMonitoredRows_prefix rowOk progressOk (fun v y => (List.range (areaColumns image reconstruct)).foldl
    (fun v x => correlationPixel image reconstruct channel imageStatistics reconstructStatistics
      (1 / ((areaColumns image reconstruct : ℝ) * areaRows image reconstruct)) x y v) v)
    (List.range (areaRows image reconstruct)) 0
  refine ⟨min k (areaRows image reconstruct), min_le_right _ _, ?_⟩
  rw [correlationNormalize_apply _ _ _ _ _ hc, hk, List.take_range, foldl_range_slot c _ _
    (fun v y => foldl_range_slot c _ _ (fun v x => correlationPixel_apply _ _ _ _ _ _ x y v hc) _ v),
    Finset.sum_product, Pi.zero_apply, zero_add]

end Slots

/-! ### The range at full alpha weight -/

theorem le_guardedSum {g : Slot → Bool} {f : Slot → ℝ} (hf : ∀ c, 0 ≤ f c) {c : Slot}
    (hc : c ∈ channelOrder) (hg : g c = true) : f c ≤ guardedSum g f := by
  rw [guardedSum_eq_sum]
  exact Finset.single_le_sum (fun i _ => hf i) (mem_guardedSet.mpr ⟨hc, hg⟩)


/-- Over any part of the image, the mean cross product of two channels' deviations is
bounded by the product of their whole-image standard deviations. -/
theorem abs_mean_cross_deviation_le {image reconstruct : Image}
    (hpix : imagePixels reconstruct = imagePixels image) {S : Finset (ℕ × ℕ)}
    (hS : S ⊆ imagePixels image) (c : Slot) :
    |1 / (imagePixels image).card * ∑ p in S,
        (c.value (image.pixel p.2 p.1) - (populationStatistics image c).mean) *
          (c.value (reconstruct.pixel p.2 p.1) - (populationStatistics reconstruct c).mean)| ≤
      (populationStatistics image c).standardDeviation *
        (populationStatistics reconstruct c).standardDeviation := by
  have hN := card_imagePixels_pos image
  have hb := sqrt_sum_sq_deviation reconstruct c
  rw [hpix] at hb
  rw [abs_mul, abs_of_pos (one_div_pos.mpr hN)]
  calc 1 / (imagePixels image).card * |∑ p in S,
          (c.value (image.pixel p.2 p.1) - (populationStatistics image c).mean) *
            (c.value (reconstruct.pixel p.2 p.1) - (populationStatistics reconstruct c).mean)|
      ≤ 1 / (imagePixels image).card *
          (Real.sqrt (∑ p in imagePixels image,
            (c.value (image.pixel p.2 p.1) - (populationStatistics image c).mean) ^ 2) *
          Real.sqrt (∑ p in imagePixels image,
            (c.value (reconstruct.pixel p.2 p.1) - (populationStatistics reconstruct c).mean) ^ 2)) :=
        mul_le_mul_of_nonneg_left (abs_sum_mul_le_of_subset hS _ _) (one_div_pos.mpr hN).le
    _ = (populationStatistics image c).standardDeviation *
          (populationStatistics reconstruct c).standardDeviation := by
        rw [sqrt_sum_sq_deviation image c, hb, mul_mul_mul_comm, Real.mul_self_sqrt hN.le,
          ← mul_assoc, one_div_mul_cancel hN.ne', one_mul]

section Range

variable {image reconstruct : Image} (channel : ChannelType)
  {statistics : Image → Option (Slot → ChannelStatistics)}
  (hcols : image.columns = reconstruct.columns) (hrows : image.rows = reconstruct.rows)
  (hi : statistics image = some (populationStatistics image))
  (hr : statistics reconstruct = some (populationStatistics reconstruct))
  (hweight : ∀ y < image.rows, ∀ x < image.columns, alphaWeight image.matte (image.pixel x y) = 1 ∧
    alphaWeight reconstruct.matte (reconstruct.pixel x y) = 1)

theorem correlationTerm_of_weight (imageStatistics reconstructStatistics : Slot → ChannelStatistics)
    {p q : PixelPacket} (hp : alphaWeight image.matte p = 1)
    (hq : alphaWeight reconstruct.matte q = 1) (c : Slot) :
    correlationTerm image reconstruct imageStatistics reconstructStatistics p q c =
      (c.value p - (imageStatistics c).mean) * (c.value q - (reconstructStatistics c).mean) := by
  cases c <;> simp [correlationTerm, hp, hq, Slot.value]

include hcols hrows hi hr hweight

theorem getNormalizedCrossCorrelationDistortion_slot_mem (rowOk progressOk : ℕ → Bool) {c : Slot}
    (hc : c ≠ .composite) :
    |(getNormalizedCrossCorrelationDistortion image reconstruct channel statistics rowOk
      progressOk).2 c| ≤ 1 := by
  obtain ⟨k, hk, heq⟩ := getNormalizedCrossCorrelationDistortion_apply image reconstruct channel _ _
    hi hr rowOk progressOk hc
  have hpix : imagePixels reconstruct = imagePixels image := by rw [imagePixels, imagePixels, hcols, hrows]
  have harea : (areaColumns image reconstruct : ℝ) * areaRows image reconstruct =
      (imagePixels image).card := by
    simp [areaColumns, areaRows, imagePixels, hcols, hrows, mul_comm]
  have hS : Finset.range k ×ˢ Finset.range (areaColumns image reconstruct) ⊆ imagePixels image := by
    refine Finset.product_subset_product (Finset.range_subset.mpr (hk.trans_eq ?_))
      (Finset.range_subset.mpr (le_of_eq ?_)) <;> simp [areaColumns, areaRows, hcols, hrows]
  set a : ℕ × ℕ → ℝ := fun p => c.value (image.pixel p.2 p.1) - (populationStatistics image c).mean
  set b : ℕ × ℕ → ℝ := fun p =>
    c.value (reconstruct.pixel p.2 p.1) - (populationStatistics reconstruct c).mean
  have hsum : ∀ g : Bool, (∑ p in Finset.range k ×ˢ Finset.range (areaColumns image reconstruct),
      if g then 1 / ((areaColumns image reconstruct : ℝ) * areaRows image reconstruct) *
        quantumScale * correlationTerm image reconstruct (populationStatistics image)
          (populationStatistics reconstruct) (image.pixel p.2 p.1) (reconstruct.pixel p.2 p.1) c
      else 0) = quantumScale * if g then 1 / (imagePixels image).card *
        ∑ p in Finset.range k ×ˢ Finset.range (areaColumns image reconstruct), a p * b p else 0 := by
    intro g
    cases g
    · simp
    · simp only [if_true, harea, Finset.mul_sum]
      refine Finset.sum_congr rfl fun p hp => ?_
      obtain ⟨hy, hx⟩ := Finset.mem_product.mp (hS hp)
      obtain ⟨hwi, hwr⟩ := hweight p.1 (Finset.mem_range.mp hy) p.2 (Finset.mem_range.mp hx)
      rw [correlationTerm_of_weight _ _ hwi hwr]
      ring
  have hbound : |(if channelGuard channel image.matte (image.isCMYK && reconstruct.isCMYK) c then
      1 / (imagePixels image).card *
        ∑ p in Finset.range k ×ˢ Finset.range (areaColumns image reconstruct), a p * b p else 0)| ≤
      (populationStatistics image c).standardDeviation *
        (populationStatistics reconstruct c).standardDeviation := by
    split_ifs
    · exact abs_mean_cross_deviation_le hpix hS c
    · rw [abs_zero]
      exact mul_nonneg (Real.sqrt_nonneg _) (Real.sqrt_nonneg _)
  rw [heq, hsum, ← mul_assoc, mul_assoc quantumRange, mul_comm _ quantumScale, ← mul_assoc,
    mul_comm quantumRange, quantumScale_mul_quantumRange, one_mul]
  exact abs_perceptibleReciprocal_mul_le (mul_nonneg (Real.sqrt_nonneg _) (Real.sqrt_nonneg _))
    hbound

/-- The composite lies in `[0, 1]`: the root of the mean square of slots in `[-1, 1]`,
over at most `GetNumberChannels` slots. -/
theorem getNormalizedCrossCorrelationDistortion_composite_mem (rowOk progressOk : ℕ → Bool) :
    0 ≤ (getNormalizedCrossCorrelationDistortion image reconstruct channel statistics rowOk
        progressOk).2 .composite ∧
      (getNormalizedCrossCorrelationDistortion image reconstruct channel statistics rowOk
        progressOk).2 .composite ≤ 1 := by
  rw [getNormalizedCrossCorrelationDistortion_composite]
  refine ⟨Real.sqrt_nonneg _, Real.sqrt_le_one.mpr ?_⟩
  have hn : (0 : ℝ) < getNumberChannels image channel :=
    Nat.cast_pos.mpr (getNumberChannels_pos image channel)
  rw [div_le_one hn]
  calc guardedSum (channelGuard channel image.matte image.isCMYK) (fun c =>
        (getNormalizedCrossCorrelationDistortion image reconstruct channel statistics rowOk
          progressOk).2 c ^ 2)
      ≤ guardedCount (channelGuard channel image.matte image.isCMYK) * 1 :=
        guardedSum_le fun c hc _ => (sq_le_one_iff_abs_le_one _).mpr
          (getNormalizedCrossCorrelationDistortion_slot_mem channel hcols hrows hi hr hweight rowOk
            progressOk (ne_composite_of_mem hc))
    _ ≤ getNumberChannels image channel := by
        rw [mul_one]
        exact Nat.cast_le.mpr (guardedCount_le_getNumberChannels image channel)

/-- The score `SimilarityMetricImage` compares, `1 - NCC` of the published composite, lies
in `[0, 1]`: a morphology mismatch publishes 0. -/
theorem getImageDistortion_correlation_score_mem (env : Collaborators)
    (henv : env.statistics = statistics) :
    (0 : EReal) ≤ 1 - (getImageDistortion image reconstruct .normalizedCrossCorrelationErrorMetric
        env).2 ∧
      1 - (getImageDistortion image reconstruct .normalizedCrossCorrelationErrorMetric env).2 ≤ 1 := by
  obtain ⟨x, hx0, hx1, hx⟩ : ∃ x : ℝ, 0 ≤ x ∧ x ≤ 1 ∧
      (getImageDistortion image reconstruct .normalizedCrossCorrelationErrorMetric env).2 = x := by
    simp only [getImageDistortion, getImageChannelDistortion]
    split_ifs
    · exact ⟨0, le_rfl, zero_le_one, rfl⟩
    · subst henv
      exact ⟨_, getNormalizedCrossCorrelationDistortion_composite_mem compositeChannels hcols hrows
        hi hr hweight env.rowOk env.progressOk |>.1, getNormalizedCrossCorrelationDistortion_composite_mem
        compositeChannels hcols hrows hi hr hweight env.rowOk env.progressOk |>.2, rfl⟩
  rw [hx, ← EReal.coe_one, ← EReal.coe_sub]
  exact ⟨EReal.coe_nonneg.mpr (by linarith), EReal.coe_le_coe_iff.mpr (by linarith)⟩

/-- The ranges the cross correlation keeps on a pair: every channel slot in `[-1, 1]` and
the composite in `[0, 1]`, for every mask, whatever rows fail and whatever the progress
monitor answers, and the score `1 - NCC` that `SimilarityMetricImage` compares in `[0, 1]`. -/
structure CorrelationRange (image reconstruct : Image)
    (statistics : Image → Option (Slot → ChannelStatistics)) : Prop where
  channel : ∀ channel rowOk progressOk c, c ≠ .composite →
    -1 ≤ (getNormalizedCrossCorrelationDistortion image reconstruct channel statistics rowOk
        progressOk).2 c ∧
      (getNormalizedCrossCorrelationDistortion image reconstruct channel statistics rowOk
        progressOk).2 c ≤ 1
  composite : ∀ channel rowOk progressOk,
    0 ≤ (getNormalizedCrossCorrelationDistortion image reconstruct channel statistics rowOk
        progressOk).2 .composite ∧
      (getNormalizedCrossCorrelationDistortion image reconstruct channel statistics rowOk
        progressOk).2 .composite ≤ 1
  score : ∀ env : Collaborators, env.statistics = statistics →
    (0 : EReal) ≤ 1 - (getImageDistortion image reconstruct .normalizedCrossCorrelationErrorMetric
        env).2 ∧
      1 - (getImageDistortion image reconstruct .normalizedCrossCorrelationErrorMetric env).2 ≤ 1

/-- For a pair of equal dimensions, population statistics from the provider and every
pixel read at full alpha weight (no matte, or opaque), the cross correlation keeps its
ranges. -/
theorem correlationRange_of_fullWeight : CorrelationRange image reconstruct statistics :=
  ⟨fun channel rowOk progressOk _ hc => abs_le.mp
      (getNormalizedCrossCorrelationDistortion_slot_mem channel hcols hrows hi hr hweight rowOk
        progressOk hc),
    fun channel rowOk progressOk =>
      getNormalizedCrossCorrelationDistortion_composite_mem channel hcols hrows hi hr hweight rowOk
        progressOk,
    fun env henv => getImageDistortion_correlation_score_mem hcols hrows hi hr hweight env henv⟩

end Range

def populationCollaborators : Collaborators :=
  ⟨.single 1, fun _ => true, fun _ => true, fun image => some (populationStatistics image),
    fun _ => none⟩

theorem correlationRange_of_fullWeight_black :
    (∀ y < opaqueBlack.rows, ∀ x < opaqueBlack.columns,
      alphaWeight opaqueBlack.matte (opaqueBlack.pixel x y) = 1 ∧
        alphaWeight opaqueBlack.matte (opaqueBlack.pixel x y) = 1) ∧
    CorrelationRange opaqueBlack opaqueBlack populationCollaborators.statistics :=
  have hweight : ∀ y < opaqueBlack.rows, ∀ x < opaqueBlack.columns,
      alphaWeight opaqueBlack.matte (opaqueBlack.pixel x y) = 1 ∧
        alphaWeight opaqueBlack.matte (opaqueBlack.pixel x y) = 1 :=
    fun _ _ _ _ => ⟨alphaWeight_false _, alphaWeight_false _⟩
  ⟨hweight, correlationRange_of_fullWeight rfl rfl rfl rfl hweight⟩

/-- A one-pixel image with matte: red `QuantumRange` at opacity 32768, about half alpha. -/
def halfRedImage : Image :=
  ⟨1, 1, true, .otherColorspace, 0, fun _ _ => ⟨quantumRange, 0, 0, 32768, 0⟩, one_pos, one_pos⟩

theorem populationStatistics_halfRed (c : Slot) :
    populationStatistics halfRedImage c = ⟨c.value ⟨quantumRange, 0, 0, 32768, 0⟩, 0⟩ := by
  simp [populationStatistics, imagePixels, halfRedImage]

theorem getNormalizedCrossCorrelationDistortion_halfRed_red :
    (getNormalizedCrossCorrelationDistortion halfRedImage halfRedImage compositeChannels
      populationCollaborators.statistics (fun _ => true) (fun _ => true)).2 .red =
      32768 ^ 2 / magickEpsilon := by
  have hp : ∀ x y, halfRedImage.pixel x y = ⟨quantumRange, 0, 0, 32768, 0⟩ := fun _ _ => rfl
  have hm : halfRedImage.matte = true := rfl
  have hrow : runMonitoredRows (fun _ => true) (fun _ => true) (fun v y =>
      (List.range (areaColumns halfRedImage halfRedImage)).foldl
      (fun v x => correlationPixel halfRedImage halfRedImage compositeChannels
        (populationStatistics halfRedImage) (populationStatistics halfRedImage)
        (1 / ((areaColumns halfRedImage halfRedImage : ℝ) * areaRows halfRedImage halfRedImage)) x y v)
        v) (List.range (areaRows halfRedImage halfRedImage)) 0 =
      (true, correlationPixel halfRedImage halfRedImage compositeChannels
        (populationStatistics halfRedImage) (populationStatistics halfRedImage) 1 0 0 0) := by
    rw [runMonitoredRows_of_ok _ _ _ (fun _ _ => ⟨rfl, rfl⟩)]
    simp [areaColumns, areaRows, halfRedImage, show List.range 1 = [0] from rfl]
  simp only [getNormalizedCrossCorrelationDistortion, populationCollaborators, hrow]
  rw [correlationNormalize_apply _ _ _ _ _ (by decide),
    correlationPixel_apply _ _ _ _ _ _ _ _ _ (by decide)]
  simp only [correlationTerm, alphaWeight, getPixelAlpha, perceptibleReciprocal,
    populationStatistics_halfRed, hp, hm]
  norm_num [Slot.value, channelGuard, magickEpsilon, quantumScale, quantumRange]

theorem getNormalizedCrossCorrelationDistortion_halfRed_composite :
    32768 ^ 2 / (2 * magickEpsilon) ≤
      (getNormalizedCrossCorrelationDistortion halfRedImage halfRedImage compositeChannels
        populationCollaborators.statistics (fun _ => true) (fun _ => true)).2 .composite := by
  have h4 : getNumberChannels halfRedImage compositeChannels = 4 := by decide
  rw [getNormalizedCrossCorrelationDistortion_composite, h4,
    Real.le_sqrt' (by norm_num [magickEpsilon])]
  calc (32768 ^ 2 / (2 * magickEpsilon)) ^ 2
      = (getNormalizedCrossCorrelationDistortion halfRedImage halfRedImage compositeChannels
          populationCollaborators.statistics (fun _ => true) (fun _ => true)).2 .red ^ 2 /
          (4 : ℕ) := by
        rw [getNormalizedCrossCorrelationDistortion_halfRed_red]; norm_num; ring
    _ ≤ _ := div_le_div_of_nonneg_right
        (le_guardedSum (fun c => sq_nonneg _) (by decide : Slot.red ∈ channelOrder) rfl) (by norm_num)

theorem getImageDistortion_halfRed :
    (getImageDistortion halfRedImage halfRedImage .normalizedCrossCorrelationErrorMetric
      populationCollaborators).2 =
      ((getNormalizedCrossCorrelationDistortion halfRedImage halfRedImage compositeChannels
        populationCollaborators.statistics (fun _ => true) (fun _ => true)).2 .composite : EReal) := by
  have hmorph : validateImageMorphology halfRedImage halfRedImage = true := rfl
  simp only [getImageDistortion, getImageChannelDistortion, hmorph, channelDistortion, realSlots,
    Bool.true_eq_false, and_false, if_false]
  rfl

/-- Half-transparent red against itself: the red deviation is 0, so its epsilon reciprocal
is `1/MagickEpsilon`, while the cross product weighs the red values by alpha and not the
mean, `(32767 - QuantumRange)^2 = 32768^2`. The red slot is `32768^2/MagickEpsilon`, the
composite exceeds 1 and the similarity score is negative. -/
theorem getNormalizedCrossCorrelationDistortion_halfRed :
    (populationStatistics halfRedImage .red).standardDeviation = 0 ∧
    (getNormalizedCrossCorrelationDistortion halfRedImage halfRedImage compositeChannels
      populationCollaborators.statistics (fun _ => true) (fun _ => true)).2 .red =
      32768 ^ 2 / magickEpsilon ∧
    1 < (getNormalizedCrossCorrelationDistortion halfRedImage halfRedImage compositeChannels
      populationCollaborators.statistics (fun _ => true) (fun _ => true)).2 .composite ∧
    1 - (getImageDistortion halfRedImage halfRedImage .normalizedCrossCorrelationErrorMetric
      populationCollaborators).2 < 0 := by
  have hcomp := getNormalizedCrossCorrelationDistortion_halfRed_composite
  have hbig : (1 : ℝ) < 32768 ^ 2 / (2 * magickEpsilon) := by
    norm_num [magickEpsilon]
  refine ⟨by simp [populationStatistics_halfRed], getNormalizedCrossCorrelationDistortion_halfRed_red,
    hbig.trans_le hcomp, ?_⟩
  rw [getImageDistortion_halfRed, ← EReal.coe_one, ← EReal.coe_sub, ← EReal.coe_zero,
    EReal.coe_lt_coe_iff]
  linarith

end MagickCompare

end
