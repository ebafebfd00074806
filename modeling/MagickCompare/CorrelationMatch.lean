import MagickCompare.SearchOffsets
/-! The cross correlation of an exact match, in the exact real arithmetic of the model.
Against a reconstruction that agrees with it, read at full alpha weight, with every row
read and let through by the progress monitor and the statistics provider reporting
population statistics, each channel slot of `GetNormalizedCrossCorrelationDistortion` is
the channel's variance through `PerceptibleReciprocal`: 1 once the variance reaches
`MagickEpsilon`, less below it. So under the cross correlation a search candidate whose
crop succeeds and agrees with the reference scores `1-1 = 0`, the least score a
full-weight candidate can have, if every channel of the reference the composite reads
varies by at least `MagickEpsilon`. In doubles the products and the root round, and these
equalities hold only up to that rounding. -/

noncomputable section

namespace MagickCompare

theorem perceptibleReciprocal_mul_self {x : ℝ} (hx : 0 ≤ x) :
    perceptibleReciprocal x * x = if magickEpsilon ≤ x then 1 else x / magickEpsilon := by
  have heps : (0 : ℝ) < magickEpsilon := by norm_num [magickEpsilon]
  simp only [perceptibleReciprocal, if_neg (not_lt.mpr hx), one_mul]
  split_ifs with h
  · exact one_div_mul_cancel (heps.trans_le h).ne'
  · exact one_div_mul_eq_div _ _

section Agrees

variable {image reconstruct : Image} (hcols : image.columns = reconstruct.columns)
  (hrows : image.rows = reconstruct.rows) (h : image.Agrees reconstruct)

include hcols hrows h

theorem Image.Agrees.pixel_eq {p : ℕ × ℕ} (hp : p ∈ imagePixels image) :
    image.pixel p.2 p.1 = reconstruct.pixel p.2 p.1 := by
  obtain ⟨hy, hx⟩ := Finset.mem_product.mp hp
  exact h.pixel _ (by simpa [areaRows, hrows] using hy) _ (by simpa [areaColumns, hcols] using hx)

/-- Two images of one size that agree on it have the same population statistics. -/
theorem populationStatistics_of_agrees :
    populationStatistics image = populationStatistics reconstruct := by
  have hpix : imagePixels image = imagePixels reconstruct := by
    rw [imagePixels, imagePixels, hcols, hrows]
  have hv : ∀ c : Slot, ∀ p ∈ imagePixels image,
      c.value (image.pixel p.2 p.1) = c.value (reconstruct.pixel p.2 p.1) := fun c p hp => by
    rw [Image.Agrees.pixel_eq hcols hrows h hp]
  funext c
  simp only [populationStatistics, ← hpix]
  rw [Finset.sum_congr rfl (hv c),
    Finset.sum_congr rfl fun p hp => congrArg (fun v => (v - _) ^ 2) (hv c p hp)]

/-- The slot an exact match gives: every cross product is a squared deviation, so the
slot is the channel's variance times its epsilon reciprocal. -/
theorem getNormalizedCrossCorrelationDistortion_agrees_apply (channel : ChannelType)
    {statistics : Image → Option (Slot → ChannelStatistics)}
    (hi : statistics image = some (populationStatistics image))
    (hr : statistics reconstruct = some (populationStatistics reconstruct))
    (hweight : ∀ y < image.rows, ∀ x < image.columns, alphaWeight image.matte (image.pixel x y) = 1)
    {rowOk progressOk : ℕ → Bool} (hok : ∀ y < image.rows, rowOk y = true ∧ progressOk y = true)
    {c : Slot} (hc : c ≠ .composite) :
    (getNormalizedCrossCorrelationDistortion image reconstruct channel statistics rowOk
      progressOk).2 c =
      if channelGuard channel image.matte image.isCMYK c then
        perceptibleReciprocal ((populationStatistics image c).standardDeviation *
          (populationStatistics image c).standardDeviation) *
        ((populationStatistics image c).standardDeviation *
          (populationStatistics image c).standardDeviation)
      else 0 := by
  have hstat := populationStatistics_of_agrees hcols hrows h
  have hR : areaRows image reconstruct = image.rows := by simp [areaRows, hrows]
  have hC : areaColumns image reconstruct = image.columns := by simp [areaColumns, hcols]
  have hk : reconstruct.isCMYK = image.isCMYK := by simp [Image.isCMYK, h.colorspace]
  simp only [getNormalizedCrossCorrelationDistortion, hi, hr, ← hstat, hR, hC]
  rw [runMonitoredRows_of_ok _ _ _ fun y hy => hok y (List.mem_range.mp hy),
    correlationNormalize_apply _ _ _ _ _ hc]
  dsimp only
  rw [foldl_range_slot c _ _ (fun v y => foldl_range_slot c _ _
      (fun v x => correlationPixel_apply _ _ _ _ _ _ x y v hc) _ v), Pi.zero_apply, zero_add, hk,
    Bool.and_self]
  split_ifs with hg
  · have hσ : (populationStatistics image c).standardDeviation *
        (populationStatistics image c).standardDeviation =
        (∑ p in imagePixels image, (c.value (image.pixel p.2 p.1) -
          (populationStatistics image c).mean) ^ 2) / (imagePixels image).card :=
      Real.mul_self_sqrt (div_nonneg (Finset.sum_nonneg fun _ _ => sq_nonneg _) (Nat.cast_nonneg _))
    have hsum : ∑ y in Finset.range image.rows, ∑ x in Finset.range image.columns,
        1 / ((image.columns : ℝ) * image.rows) * quantumScale *
          correlationTerm image reconstruct (populationStatistics image) (populationStatistics image)
            (image.pixel x y) (reconstruct.pixel x y) c =
        quantumScale * ((∑ p in imagePixels image, (c.value (image.pixel p.2 p.1) -
          (populationStatistics image c).mean) ^ 2) / (imagePixels image).card) := by
      rw [Finset.sum_div, Finset.mul_sum, imagePixels, Finset.sum_product]
      refine Finset.sum_congr rfl fun y hy => Finset.sum_congr rfl fun x hx => ?_
      have hy' := Finset.mem_range.mp hy
      have hx' := Finset.mem_range.mp hx
      have hq : reconstruct.pixel x y = image.pixel x y :=
        (h.pixel y (hR ▸ hy') x (hC ▸ hx')).symm
      rw [correlationTerm_of_weight _ _ (hweight y hy' x hx')
        (by rw [hq, ← h.matte]; exact hweight y hy' x hx'), hq, Finset.card_product,
        Finset.card_range, Finset.card_range]
      push_cast
      ring
    rw [hsum, ← hσ]
    linear_combination (perceptibleReciprocal ((populationStatistics image c).standardDeviation *
      (populationStatistics image c).standardDeviation) *
      ((populationStatistics image c).standardDeviation *
        (populationStatistics image c).standardDeviation)) * quantumScale_mul_quantumRange
  · simp

/-- Under the same conditions the composite is 1 when the mask selects a channel and every
channel it selects varies by at least `MagickEpsilon`. -/
theorem getNormalizedCrossCorrelationDistortion_agrees_composite (channel : ChannelType)
    {statistics : Image → Option (Slot → ChannelStatistics)}
    (hi : statistics image = some (populationStatistics image))
    (hr : statistics reconstruct = some (populationStatistics reconstruct))
    (hweight : ∀ y < image.rows, ∀ x < image.columns, alphaWeight image.matte (image.pixel x y) = 1)
    {rowOk progressOk : ℕ → Bool} (hok : ∀ y < image.rows, rowOk y = true ∧ progressOk y = true)
    (hvar : ∀ c ∈ channelOrder, channelGuard channel image.matte image.isCMYK c = true →
      magickEpsilon ≤ (populationStatistics image c).standardDeviation *
        (populationStatistics image c).standardDeviation)
    (hcount : 0 < guardedCount (channelGuard channel image.matte image.isCMYK)) :
    (getNormalizedCrossCorrelationDistortion image reconstruct channel statistics rowOk
      progressOk).2 .composite = 1 := by
  have hslots : guardedSum (channelGuard channel image.matte image.isCMYK)
      (fun c => (getNormalizedCrossCorrelationDistortion image reconstruct channel statistics
        rowOk progressOk).2 c ^ 2) = guardedCount (channelGuard channel image.matte image.isCMYK) := by
    rw [guardedSum_congr fun c hc hg => by
      rw [getNormalizedCrossCorrelationDistortion_agrees_apply hcols hrows h channel hi hr hweight
        hok (ne_composite_of_mem hc), if_pos hg, perceptibleReciprocal_mul_self
        (mul_self_nonneg _), if_pos (hvar c hc hg), one_pow]]
    simp [guardedSum_eq_sum, guardedCount_eq_card]
  rw [getNormalizedCrossCorrelationDistortion_composite, hslots, getNumberChannels_of_pos hcount,
    div_self (Nat.cast_pos.mpr hcount).ne', Real.sqrt_one]

/-- Against a reconstruction it agrees with, at full alpha weight, with population
statistics and every row read and let through by the monitor, a channel slot the mask
selects is 1 when the channel's variance reaches `MagickEpsilon` and the variance over
`MagickEpsilon`, below 1, when it does not; a slot it does not select is 0. These are exact
real equalities: in doubles they hold up to rounding. -/
theorem getNormalizedCrossCorrelationDistortion_of_agrees (channel : ChannelType)
    {statistics : Image → Option (Slot → ChannelStatistics)}
    (hi : statistics image = some (populationStatistics image))
    (hr : statistics reconstruct = some (populationStatistics reconstruct))
    (hweight : ∀ y < image.rows, ∀ x < image.columns, alphaWeight image.matte (image.pixel x y) = 1)
    {rowOk progressOk : ℕ → Bool} (hok : ∀ y < image.rows, rowOk y = true ∧ progressOk y = true)
    {c : Slot} (hc : c ≠ .composite) :
    (getNormalizedCrossCorrelationDistortion image reconstruct channel statistics rowOk
      progressOk).2 c =
      if channelGuard channel image.matte image.isCMYK c then
        if magickEpsilon ≤ (populationStatistics image c).standardDeviation *
          (populationStatistics image c).standardDeviation then 1
        else (populationStatistics image c).standardDeviation *
          (populationStatistics image c).standardDeviation / magickEpsilon
      else 0 := by
  rw [getNormalizedCrossCorrelationDistortion_agrees_apply hcols hrows h channel hi hr hweight hok hc,
    perceptibleReciprocal_mul_self (mul_self_nonneg _)]

end Agrees

/-- A black pixel, then a white one, without matte. -/
def blackWhiteImage : Image :=
  ⟨2, 1, false, .otherColorspace, 0, fun x _ => if x = 0 then ⟨0, 0, 0, 0, 0⟩
    else ⟨quantumRange, quantumRange, quantumRange, 0, 0⟩, two_pos, one_pos⟩

theorem populationStatistics_blackWhite {c : Slot} (hc : c = .red ∨ c = .green ∨ c = .blue) :
    (populationStatistics blackWhiteImage c).standardDeviation *
      (populationStatistics blackWhiteImage c).standardDeviation = quantumRange ^ 2 / 4 := by
  simp only [populationStatistics]
  rw [Real.mul_self_sqrt (div_nonneg (Finset.sum_nonneg fun _ _ => sq_nonneg _) (Nat.cast_nonneg _))]
  rcases hc with rfl | rfl | rfl <;>
    simp [imagePixels, Finset.sum_product, Finset.sum_range_succ, blackWhiteImage, Slot.value] <;>
    ring

theorem getNormalizedCrossCorrelationDistortion_of_agrees_blackWhite :
    blackWhiteImage.Agrees blackWhiteImage ∧
    (∀ y < blackWhiteImage.rows, ∀ x < blackWhiteImage.columns,
      alphaWeight blackWhiteImage.matte (blackWhiteImage.pixel x y) = 1) ∧
    (getNormalizedCrossCorrelationDistortion blackWhiteImage blackWhiteImage allChannels
        populationCollaborators.statistics (fun _ => true) fun _ => true).2 .red =
      if channelGuard allChannels blackWhiteImage.matte blackWhiteImage.isCMYK .red then
        if magickEpsilon ≤ (populationStatistics blackWhiteImage .red).standardDeviation *
          (populationStatistics blackWhiteImage .red).standardDeviation then 1
        else (populationStatistics blackWhiteImage .red).standardDeviation *
          (populationStatistics blackWhiteImage .red).standardDeviation / magickEpsilon
      else 0 :=
  have hagree : blackWhiteImage.Agrees blackWhiteImage := ⟨rfl, rfl, fun _ _ _ _ => rfl⟩
  have hweight : ∀ y < blackWhiteImage.rows, ∀ x < blackWhiteImage.columns,
      alphaWeight blackWhiteImage.matte (blackWhiteImage.pixel x y) = 1 :=
    fun _ _ _ _ => alphaWeight_false _
  ⟨hagree, hweight, getNormalizedCrossCorrelationDistortion_of_agrees rfl rfl hagree allChannels rfl rfl
    hweight (fun _ _ => ⟨rfl, rfl⟩) (by decide)⟩


theorem guardedCount_compositeChannels_pos (opacityOk blackOk : Bool) :
    0 < guardedCount (channelGuard compositeChannels opacityOk blackOk) := by
  cases opacityOk <;> cases blackOk <;> decide

section Search

variable (image reference : Image) (search : SearchCollaborators)

theorem cropImage_fullWeight
    (hweight : ∀ y < image.rows, ∀ x < image.columns, alphaWeight image.matte (image.pixel x y) = 1)
    {x y : ℕ} (hx : x + reference.columns ≤ image.columns) (hy : y + reference.rows ≤ image.rows) :
    ∀ j < (cropImage image reference x y).rows, ∀ i < (cropImage image reference x y).columns,
      alphaWeight (cropImage image reference x y).matte ((cropImage image reference x y).pixel i j) =
        1 :=
  fun _ hj _ hi => hweight _ (by simp only [cropImage] at hj; omega) _
    (by simp only [cropImage] at hi; omega)

/-- With population statistics for every candidate and every pixel of both images at full
alpha weight, a candidate where the reference fits inside the image scores at least 0
under the cross correlation: a failed crop scores 1. -/
theorem similarityScore_correlation_nonneg
    (hstats : ∀ x y, (search.engine x y).statistics = fun im => some (populationStatistics im))
    (hweight : ∀ y < image.rows, ∀ x < image.columns, alphaWeight image.matte (image.pixel x y) = 1)
    (hweightR : ∀ y < reference.rows, ∀ x < reference.columns,
      alphaWeight reference.matte (reference.pixel x y) = 1) {x y : ℕ}
    (hx : x + reference.columns ≤ image.columns) (hy : y + reference.rows ≤ image.rows) :
    0 ≤ similarityScore image reference .normalizedCrossCorrelationErrorMetric search x y := by
  simp only [similarityScore, getSimilarityMetric, true_or, if_true]
  split_ifs
  · exact (@getImageDistortion_correlation_score_mem (cropImage image reference x y) reference
      (fun im => some (populationStatistics im)) rfl rfl rfl rfl
      (fun j hj i hi => ⟨cropImage_fullWeight image reference hweight hx hy j hj i hi,
        hweightR j hj i hi⟩) (search.engine x y) (hstats x y)).1
  · norm_num

/-- For sizes below `2^63`, under the cross correlation, a candidate whose crop succeeds,
is read and let through by the monitor, and agrees with a reference whose selected channels
all vary scores 0, no candidate scores less, and one worker's full scan returns 0 with a
white confidence pixel there. The score is an exact real equality: in doubles it holds up to
rounding. -/
theorem similarityMetricImage_exact_match_correlation (hW : image.columns < 2 ^ 63)
    (hw : reference.columns < 2 ^ 63) (hH : image.rows < 2 ^ 63) (hh : reference.rows < 2 ^ 63)
    {ox oy : ℕ} (hox : ox < searchColumns image reference) (hoy : oy < searchRows image reference)
    (hmatch : (cropImage image reference ox oy).Agrees reference)
    (hcrop : search.cropOk ox oy = true)
    (hstats : ∀ x y, (search.engine x y).statistics = fun im => some (populationStatistics im))
    (hread : ∀ y < reference.rows,
      (search.engine ox oy).rowOk y = true ∧ (search.engine ox oy).progressOk y = true)
    (hweight : ∀ y < image.rows, ∀ x < image.columns, alphaWeight image.matte (image.pixel x y) = 1)
    (hvar : ∀ c ∈ channelOrder, channelGuard compositeChannels reference.matte reference.isCMYK c =
      true → magickEpsilon ≤ (populationStatistics reference c).standardDeviation *
        (populationStatistics reference c).standardDeviation)
    (hclone : search.cloneOk = true)
    (hok : ∀ y < searchRows image reference, search.rowOk y = true ∧ search.syncOk y = true) :
    similarityScore image reference .normalizedCrossCorrelationErrorMetric search ox oy = 0 ∧
    (∀ c ∈ scanCandidates (searchColumns image reference) (searchRows image reference),
      similarityScore image reference .normalizedCrossCorrelationErrorMetric search ox oy ≤
        similarityScore image reference .normalizedCrossCorrelationErrorMetric search c.1 c.2) ∧
    ∃ N, ∀ n ≥ N,
      let r := similarityMetricImage image reference .normalizedCrossCorrelationErrorMetric search
        defaultSimilarityThreshold [List.range (searchRows image reference)] (List.replicate n 0)
      r.2.1 = 0 ∧ ∃ map, r.1 = some map ∧ map ox oy = some 65535 := by
  have hcols := searchColumns_eq hW hw
  have hrows := searchRows_eq hH hh
  have hk : (cropImage image reference ox oy).isCMYK = reference.isCMYK := by
    simp [Image.isCMYK, hmatch.colorspace]
  have hweightR : ∀ y < reference.rows, ∀ x < reference.columns,
      alphaWeight reference.matte (reference.pixel x y) = 1 := fun y hy x hx => by
    rw [← hmatch.pixel y (by simpa [areaRows, cropImage] using hy) x
      (by simpa [areaColumns, cropImage] using hx), ← hmatch.matte]
    exact hweight _ (by omega) _ (by omega)
  have hnonneg : ∀ x < searchColumns image reference, ∀ y < searchRows image reference,
      0 ≤ similarityScore image reference .normalizedCrossCorrelationErrorMetric search x y :=
    fun x hx y hy => similarityScore_correlation_nonneg image reference search hstats hweight
      hweightR (by omega) (by omega)
  have hstat := @populationStatistics_of_agrees (cropImage image reference ox oy) reference rfl rfl
    hmatch
  have hcomp := @getNormalizedCrossCorrelationDistortion_agrees_composite
    (cropImage image reference ox oy) reference rfl rfl hmatch compositeChannels
    (fun im => some (populationStatistics im)) rfl rfl
    (cropImage_fullWeight image reference hweight (by omega) (by omega)) _ _ hread
    (by rw [hmatch.matte, hk, hstat]; exact hvar)
    (guardedCount_compositeChannels_pos _ _)
  have hgate : validateImageMorphology (cropImage image reference ox oy) reference = true :=
    (validateImageMorphology_iff _ _).mpr (by simp [Image.isCMYK, hmatch.colorspace])
  have hzero : similarityScore image reference .normalizedCrossCorrelationErrorMetric search ox oy =
      0 := by
    simp only [similarityScore, getSimilarityMetric, hcrop, true_or, if_true, getImageDistortion,
      getImageChannelDistortion, hgate, Bool.true_eq_false, and_false, if_false, channelDistortion,
      realSlots, hstats ox oy, hcomp]
    rw [← EReal.coe_one, ← EReal.coe_sub, sub_self, EReal.coe_zero]
  refine ⟨hzero, fun c hc => hzero ▸ hnonneg c.1 (mem_scanCandidates.mp hc).1 c.2
    (mem_scanCandidates.mp hc).2, ?_⟩
  obtain ⟨N, hN⟩ := similarityScan_single image reference .normalizedCrossCorrelationErrorMetric
    search defaultSimilarityThreshold
  have hinit : (0 : EReal) ≤ magickMaximumValue :=
    EReal.coe_nonneg.mpr (by norm_num [magickMaximumValue])
  obtain ⟨hst, hm, hmap⟩ := serialScan_attained
    (searchEnv image reference .normalizedCrossCorrelationErrorMetric search defaultSimilarityThreshold)
    hok defaultSimilarityThreshold_lt_zero hinit hnonneg hox hoy hzero
  have hmorph : validateImageMorphology image reference = true :=
    (validateImageMorphology_iff _ _).mpr (by simpa [Image.isCMYK, cropImage] using hk)
  refine ⟨N, fun n hn => ?_⟩
  rw [similarityMetricImage_of_gate _ _ _ _ _ _ _ hmorph hclone, hN n hn]
  simp only [hst, hm, if_true]
  exact ⟨trivial, _, rfl, by rw [hmap, Option.map_some', confidencePixel_zero (by decide)]⟩

end Search

theorem cropImage_blackWhite_agrees : (cropImage blackWhiteImage blackWhiteImage 0 0).Agrees
    blackWhiteImage :=
  ⟨rfl, rfl, fun _ _ _ _ => by simp only [cropImage, Nat.zero_add]⟩

theorem similarityMetricImage_exact_match_correlation_blackWhite :
    blackWhiteImage.columns < 2 ^ 63 ∧ blackWhiteImage.rows < 2 ^ 63 ∧
    (cropImage blackWhiteImage blackWhiteImage 0 0).Agrees blackWhiteImage ∧
    (∀ c ∈ channelOrder, channelGuard compositeChannels blackWhiteImage.matte
      blackWhiteImage.isCMYK c = true → magickEpsilon ≤
        (populationStatistics blackWhiteImage c).standardDeviation *
          (populationStatistics blackWhiteImage c).standardDeviation) ∧
    similarityScore blackWhiteImage blackWhiteImage .normalizedCrossCorrelationErrorMetric
      populationSearch 0 0 = 0 ∧
    (∀ c ∈ scanCandidates (searchColumns blackWhiteImage blackWhiteImage)
        (searchRows blackWhiteImage blackWhiteImage),
      similarityScore blackWhiteImage blackWhiteImage .normalizedCrossCorrelationErrorMetric
          populationSearch 0 0 ≤
        similarityScore blackWhiteImage blackWhiteImage .normalizedCrossCorrelationErrorMetric
          populationSearch c.1 c.2) ∧
    ∃ N, ∀ n ≥ N,
      let r := similarityMetricImage blackWhiteImage blackWhiteImage
        .normalizedCrossCorrelationErrorMetric populationSearch defaultSimilarityThreshold
        [List.range (searchRows blackWhiteImage blackWhiteImage)] (List.replicate n 0)
      r.2.1 = 0 ∧ ∃ map, r.1 = some map ∧ map 0 0 = some 65535 :=
  have hvar : ∀ c ∈ channelOrder, channelGuard compositeChannels blackWhiteImage.matte
      blackWhiteImage.isCMYK c = true → magickEpsilon ≤
        (populationStatistics blackWhiteImage c).standardDeviation *
          (populationStatistics blackWhiteImage c).standardDeviation := by
    intro c hc hg
    have hrgb : c = .red ∨ c = .green ∨ c = .blue := by
      cases c <;> simp_all [channelOrder, channelGuard, blackWhiteImage, Image.isCMYK]
    rw [populationStatistics_blackWhite hrgb]
    norm_num [quantumRange, magickEpsilon]
  have hW : blackWhiteImage.columns < 2 ^ 63 := by norm_num [blackWhiteImage]
  have hH : blackWhiteImage.rows < 2 ^ 63 := by norm_num [blackWhiteImage]
  ⟨hW, hH, cropImage_blackWhite_agrees, hvar, similarityMetricImage_exact_match_correlation
    blackWhiteImage blackWhiteImage populationSearch hW hW hH hH (by decide) (by decide)
    cropImage_blackWhite_agrees rfl (fun _ _ => rfl) (fun _ _ => ⟨rfl, rfl⟩)
    (fun _ _ _ _ => alphaWeight_false _) hvar rfl fun _ _ => ⟨rfl, rfl⟩⟩

end MagickCompare

end
