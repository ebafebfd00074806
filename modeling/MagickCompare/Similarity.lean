import MagickCompare.MetricLaws
import MagickCompare.Scan
import MagickCompare.Symmetry
/-! `SimilarityMetricImage`, `GetSimilarityMetric` and `SimilarityImage`: every offset of
the reference inside the image is scored by the engine on the crop there, the lowest
score and its offset are kept, and each score is written to a confidence map. The row
loop is the scan machine of `Scan` at scores in `EReal`, since a score may be `INFINITY`. -/

noncomputable section

namespace MagickCompare

/-- Modelled from the spec: `CropImage` is not in the source. The crop at `(x, y)` has the
reference's size (`SetGeometry(reference,&geometry)`) and the image's pixels from
`(x, y)` on; it keeps the image's matte, colorspace and fuzz. -/
def cropImage (image reference : Image) (x y : ℕ) : Image :=
  { image with
    columns := reference.columns
    rows := reference.rows
    pixel := fun i j => image.pixel (x + i) (y + j)
    columns_pos := reference.columns_pos
    rows_pos := reference.rows_pos }

/-- What the search's collaborators do in one call: the clone of the confidence map with
its storage class, `CropImage` at each candidate, the engine's collaborators in each
candidate's `GetImageDistortion`, and each row's pixel access and its sync with the
progress monitor. -/
structure SearchCollaborators where
  cloneOk : Bool
  cropOk : ℕ → ℕ → Bool
  engine : ℕ → ℕ → Collaborators
  rowOk : ℕ → Bool
  syncOk : ℕ → Bool

/-- `similarity_threshold=(-1.0)` when the `compare:similarity-threshold` artifact is
absent. -/
def defaultSimilarityThreshold : EReal := -1

/-- Modelled from the spec: `ClampToQuantum` is not in the source. In the Q16 build
without HDRI it clamps to `[0, QuantumRange]` and rounds to the nearest quantum. -/
def clampToQuantum (value : EReal) : ℕ :=
  if value ≤ 0 then 0
  else if (quantumRange : EReal) ≤ value then 65535
  else ⌊value.toReal + 1 / 2⌋₊

def confidencePixel (metric : MetricType) (similarity : EReal) : ℕ :=
  let similarity := if metric = .perceptualHashErrorMetric then
    min (((0.01 : ℝ) : EReal) * similarity) 1 else similarity
  clampToQuantum ((quantumRange : EReal) - (quantumRange : EReal) * similarity)

section Search

variable (image reference : Image) (metric : MetricType) (search : SearchCollaborators)

/-- `0.0` for a failed crop; otherwise the distortion the engine published, whatever
status it returned. -/
def getSimilarityMetric (x y : ℕ) : EReal :=
  if search.cropOk x y then
    (getImageDistortion (cropImage image reference x y) reference metric (search.engine x y)).2
  else 0

/-- The score compared with `*similarity_metric`: `1.0-similarity` for the correlation
metrics. -/
def similarityScore (x y : ℕ) : EReal :=
  if metric = .normalizedCrossCorrelationErrorMetric ∨ metric = .undefinedErrorMetric then
    1 - getSimilarityMetric image reference metric search x y
  else getSimilarityMetric image reference metric search x y

/-- `(ssize_t) (a-b+1)` for `size_t` operands: the subtraction wraps modulo `2^64`, and
the cast reads the result in two's complement. -/
def ssizeBound (a b : ℕ) : ℤ :=
  let v := ((a : ℤ) - b + 1) % 2 ^ 64
  if v < 2 ^ 63 then v else v - 2 ^ 64

/-- The candidate columns: `for (x=0; x < (ssize_t) (image->columns-reference->columns+1);
x++)` runs while `x` is below the bound, so not at all for a bound of 0 or less. -/
def searchColumns : ℕ := (ssizeBound image.columns reference.columns).toNat

def searchRows : ℕ := (ssizeBound image.rows reference.rows).toNat

def searchEnv (threshold : EReal) : ScanEnv EReal :=
  ⟨searchColumns image reference, threshold, similarityScore image reference metric search,
    search.rowOk, search.syncOk⟩

/-- The scan from `*similarity_metric=MagickMaximumValue`, after the workers of the static
schedule `queues` have taken the steps `turns`. -/
def similarityScan (threshold : EReal) (queues : List (List ℕ)) (turns : List ℕ) :
    ScanState EReal :=
  runScan (searchEnv image reference metric search threshold)
    (scanStart (magickMaximumValue : EReal) queues) turns

/-- The confidence map or `NULL`, `*similarity_metric` and the offset. A morphology
mismatch throws, and a failed clone returns `NULL`, before the loop. -/
def similarityMetricImage (threshold : EReal) (queues : List (List ℕ)) (turns : List ℕ) :
    Option (ℕ → ℕ → Option ℕ) × EReal × ℕ × ℕ :=
  if validateImageMorphology image reference = false ∨ search.cloneOk = false then
    (none, magickMaximumValue, 0, 0)
  else
    let sh := (similarityScan image reference metric search threshold queues turns).shared
    (if sh.status then some fun x y => (sh.map x y).map (confidencePixel metric) else none,
      sh.similarityMetric, sh.offsetX, sh.offsetY)

end Search

def similarityImage (image reference : Image) (search : SearchCollaborators)
    (threshold : EReal) (queues : List (List ℕ)) (turns : List ℕ) :
    Option (ℕ → ℕ → Option ℕ) × EReal × ℕ × ℕ :=
  similarityMetricImage image reference .rootMeanSquaredErrorMetric search threshold queues turns

/-! ### Scores -/

section Scores

variable (image reference : Image) (metric : MetricType) (search : SearchCollaborators)

theorem similarityScore_of_isPixelError (hmetric : metric.isPixelError = true) (x y : ℕ) :
    similarityScore image reference metric search x y =
      getSimilarityMetric image reference metric search x y := by
  cases metric <;> simp_all [similarityScore, MetricType.isPixelError]

theorem getImageDistortion_nonneg {image reconstruct : Image} {metric : MetricType}
    (hmetric : metric.isPixelError = true) (env : Collaborators) :
    0 ≤ (getImageDistortion image reconstruct metric env).2 := by
  simp only [getImageDistortion, getImageChannelDistortion]
  split_ifs
  · exact le_rfl
  · exact channelDistortion_nonneg _ _ _ metric hmetric env

theorem similarityScore_nonneg (hmetric : metric.isPixelError = true) (x y : ℕ) :
    0 ≤ similarityScore image reference metric search x y := by
  rw [similarityScore_of_isPixelError _ _ _ _ hmetric, getSimilarityMetric]
  split_ifs
  · exact getImageDistortion_nonneg hmetric _
  · exact le_rfl

/-- A candidate whose crop agrees with the reference scores 0, whether or not the crop
fails. -/
theorem similarityScore_agrees (hmetric : metric.isPixelError = true) {x y : ℕ}
    (hmatch : (cropImage image reference x y).Agrees reference)
    (hsched : (search.engine x y).schedule.Complete reference.rows) :
    similarityScore image reference metric search x y = 0 := by
  have hgate : validateImageMorphology (cropImage image reference x y) reference = true :=
    (validateImageMorphology_iff _ _).mpr (by simp [Image.isCMYK, hmatch.colorspace])
  rw [similarityScore_of_isPixelError _ _ _ _ hmetric, getSimilarityMetric]
  split_ifs
  · simp only [getImageDistortion, getImageChannelDistortion, hgate, Bool.true_eq_false,
      and_false, if_false]
    exact channelDistortion_agrees _ metric hmetric _ hmatch (by simpa [areaRows, cropImage] using hsched)
  · rfl

theorem similarityScore_congr (search' : SearchCollaborators) {x y : ℕ}
    (hcrop : search.cropOk x y = search'.cropOk x y)
    (hengine : search.engine x y = search'.engine x y) :
    similarityScore image reference metric search x y =
      similarityScore image reference metric search' x y := by
  simp only [similarityScore, getSimilarityMetric, hcrop, hengine]

end Scores

theorem clampToQuantum_quantumRange : clampToQuantum quantumRange = 65535 := by
  have h : ¬((quantumRange : ℝ) : EReal) ≤ 0 := by
    rw [← EReal.coe_zero, EReal.coe_le_coe_iff]; norm_num [quantumRange]
  simp [clampToQuantum, h]

theorem confidencePixel_zero {metric : MetricType} (hmetric : metric ≠ .perceptualHashErrorMetric) :
    confidencePixel metric 0 = 65535 := by
  simp [confidencePixel, hmetric, clampToQuantum_quantumRange]

theorem magickMaximumValue_gt_one : (1 : EReal) < magickMaximumValue := by
  exact_mod_cast (show (1 : ℝ) < magickMaximumValue by norm_num [magickMaximumValue])

theorem defaultSimilarityThreshold_lt_zero : defaultSimilarityThreshold < 0 :=
  EReal.coe_lt_coe_iff.mpr (by norm_num : (-1 : ℝ) < 0)

theorem quantumRange_ne_zero : quantumRange ≠ 0 := by norm_num [quantumRange]

theorem peakSignalToNoise_zero : peakSignalToNoise 0 = ⊤ := by
  rw [peakSignalToNoise, if_pos (by norm_num [magickEpsilon])]

theorem peakSignalToNoise_lt_top {m : ℝ} (hm : magickEpsilon ≤ |m|) : peakSignalToNoise m < ⊤ := by
  rw [peakSignalToNoise, if_neg (not_lt.mpr hm)]
  exact EReal.coe_lt_top _

/-! ### Small inputs for the runs below -/

/-- An opaque image whose red channel is `red`, every other channel 0, with no fuzz. -/
def redImage (columns rows : ℕ) (red : ℕ → ℕ → ℝ) (hc : 0 < columns) (hr : 0 < rows) : Image :=
  ⟨columns, rows, false, .otherColorspace, 0, fun x y => ⟨red x y, 0, 0, 0, 0⟩, hc, hr⟩

/-- Nothing fails, and each candidate's engine call runs on one thread. -/
def okSearch : SearchCollaborators :=
  ⟨true, fun _ _ => true, fun _ _ => oneRowCollaborators, fun _ => true, fun _ => true⟩

theorem similarityScore_redImage (columns rows : ℕ) (red : ℕ → ℕ → ℝ) (hc : 0 < columns)
    (hr : 0 < rows) (x y : ℕ) :
    similarityScore (redImage columns rows red hc hr) (redPixelImage 0 0) .absoluteErrorMetric
      okSearch x y = if red x y = 0 then 0 else 1 := by
  set crop := cropImage (redImage columns rows red hc hr) (redPixelImage 0 0) x y
  have hfuzz : absoluteFuzz crop (redPixelImage 0 0) compositeChannels = 0 :=
    mul_eq_zero_of_right _ (by simp [crop, getFuzzyColorDistance, cropImage, redImage, redPixelImage])
  have hsum : (guardedSum (channelGuard compositeChannels false false) fun c =>
      absoluteDelta crop (redPixelImage 0 0) 0 0 c * absoluteDelta crop (redPixelImage 0 0) 0 0 c) =
      red x y * red x y := by
    simp [crop, guardedSum, channelOrder, channelGuard, absoluteDelta, channelDelta, Slot.value,
      cropImage, redImage, redPixelImage]
  have hdiff : absoluteDifference (absoluteFuzz crop (redPixelImage 0 0) compositeChannels)
      (channelGuard compositeChannels false false) (absoluteDelta crop (redPixelImage 0 0) 0 0) =
      !decide (red x y = 0) := by
    rw [Bool.eq_iff_iff, absoluteDifference_iff (absoluteFuzz_nonneg _ _ _), hfuzz, hsum,
      mul_self_pos]
    simp
  have hrow := getAbsoluteDistortion_composite crop (redPixelImage 0 0) compositeChannels
  rw [show areaRows crop (redPixelImage 0 0) = 1 from rfl,
    show areaColumns crop (redPixelImage 0 0) = 1 from rfl, Finset.sum_range_one,
    Finset.sum_range_one, show crop.matte = false from rfl, show crop.isCMYK = false from rfl,
    hdiff] at hrow
  have hmorph : validateImageMorphology crop (redPixelImage 0 0) = true := rfl
  simp [similarityScore, getSimilarityMetric, okSearch, getImageDistortion,
    getImageChannelDistortion, channelDistortion, realSlots, hmorph, oneRowCollaborators, hrow]
  split_ifs <;> simp

def twoRowImage (columns : ℕ) (top bottom : ℝ) (hc : 0 < columns) : Image :=
  redImage columns 2 (fun _ y => if y = 0 then top else bottom) hc two_pos

def blackRedImage : Image :=
  redImage 2 1 (fun x _ => if x = 0 then 0 else quantumRange) two_pos one_pos

theorem cropImage_redImage_agrees {columns rows : ℕ} {red : ℕ → ℕ → ℝ} (hc : 0 < columns)
    (hr : 0 < rows) {x y : ℕ} (h : red x y = 0) :
    (cropImage (redImage columns rows red hc hr) (redPixelImage 0 0) x y).Agrees
      (redPixelImage 0 0) := by
  refine ⟨rfl, rfl, fun j hj i hi => ?_⟩
  obtain rfl : j = 0 := Nat.lt_one_iff.mp hj
  obtain rfl : i = 0 := Nat.lt_one_iff.mp hi
  simp [cropImage, redImage, redPixelImage, h]

def cropFailsAtOrigin : SearchCollaborators :=
  { okSearch with cropOk := fun x y => !(x == 0 && y == 0) }

/-! ### The search's results -/

section Results

variable (image reference : Image) (metric : MetricType) (search : SearchCollaborators)

theorem similarityMetricImage_of_gate (threshold : EReal) (queues : List (List ℕ))
    (turns : List ℕ) (hmorph : validateImageMorphology image reference = true)
    (hclone : search.cloneOk = true) :
    similarityMetricImage image reference metric search threshold queues turns =
      let sh := (similarityScan image reference metric search threshold queues turns).shared
      (if sh.status then some fun x y => (sh.map x y).map (confidencePixel metric) else none,
        sh.similarityMetric, sh.offsetX, sh.offsetY) := by
  simp [similarityMetricImage, hmorph, hclone]

theorem similarityScan_single (threshold : EReal) :
    ∃ N, ∀ n ≥ N, (similarityScan image reference metric search threshold
        [List.range (searchRows image reference)] (List.replicate n 0)).shared =
      serialScan (searchEnv image reference metric search threshold) (magickMaximumValue : EReal)
        (searchRows image reference) :=
  runScan_single _ _ _

/-- Whatever `CropImage` and the engine do at each candidate, under every schedule and
interleaving: once the morphology check and the clone pass and no row access or sync
fails, the confidence map is returned. -/
theorem similarityMetricImage_isSome (threshold : EReal) (queues : List (List ℕ))
    (turns : List ℕ) (hmorph : validateImageMorphology image reference = true)
    (hclone : search.cloneOk = true) (hok : ∀ y, search.rowOk y = true ∧ search.syncOk y = true) :
    (similarityMetricImage image reference metric search threshold queues turns).1.isSome := by
  have hs := runScan_status (searchEnv image reference metric search threshold) hok turns
    (scanStart (magickMaximumValue : EReal) queues) rfl
  rw [similarityMetricImage_of_gate _ _ _ _ _ _ _ hmorph hclone]
  simp only [similarityScan, hs, if_true, Option.isSome_some]

theorem similarityMetricImage_isSome_failedCrop :
    cropFailsAtOrigin.cropOk 0 0 = false ∧
      (similarityMetricImage (twoRowImage 1 quantumRange quantumRange one_pos) (redPixelImage 0 0)
        .absoluteErrorMetric cropFailsAtOrigin defaultSimilarityThreshold [[0], [1]]
        (List.replicate 7 0)).1.isSome :=
  ⟨rfl, similarityMetricImage_isSome _ _ _ _ _ _ _ rfl rfl fun _ => ⟨rfl, rfl⟩⟩

/-- The crop at the origin fails, the candidate scores `0.0`, and it is returned as the best
offset of a map that is not `NULL`. -/
theorem similarityMetricImage_failed_crop :
    cropFailsAtOrigin.cropOk 0 0 = false ∧
      ∃ N, ∀ n ≥ N,
        let r := similarityMetricImage (twoRowImage 1 quantumRange quantumRange one_pos)
          (redPixelImage 0 0) .absoluteErrorMetric cropFailsAtOrigin defaultSimilarityThreshold
          [List.range 2] (List.replicate n 0)
        r.1.isSome ∧ r.2 = (0, 0, 0) := by
  have h₀ : similarityScore (twoRowImage 1 quantumRange quantumRange one_pos) (redPixelImage 0 0)
      .absoluteErrorMetric cropFailsAtOrigin 0 0 = 0 := by
    simp [similarityScore, getSimilarityMetric, cropFailsAtOrigin]
  have h₁ : similarityScore (twoRowImage 1 quantumRange quantumRange one_pos) (redPixelImage 0 0)
      .absoluteErrorMetric cropFailsAtOrigin 0 1 = 1 := by
    refine (similarityScore_congr _ _ _ _ okSearch rfl rfl).trans ?_
    rw [twoRowImage, similarityScore_redImage]
    simp [quantumRange_ne_zero]
  obtain ⟨N, hN⟩ := similarityScan_single (twoRowImage 1 quantumRange quantumRange one_pos)
    (redPixelImage 0 0) .absoluteErrorMetric cropFailsAtOrigin defaultSimilarityThreshold
  have hrows : searchRows (twoRowImage 1 quantumRange quantumRange one_pos) (redPixelImage 0 0) = 2 :=
    rfl
  rw [hrows] at hN
  refine ⟨rfl, N, fun n hn => ?_⟩
  rw [similarityMetricImage_of_gate (twoRowImage 1 quantumRange quantumRange one_pos)
    (redPixelImage 0 0) .absoluteErrorMetric cropFailsAtOrigin _ _ _ rfl rfl, hN n hn]
  have ht := defaultSimilarityThreshold_lt_zero
  have hmax₀ : (0 : EReal) < magickMaximumValue := zero_lt_one.trans magickMaximumValue_gt_one
  simp [serialScan, scanRow, scanColumns, scanCandidate, scanStart, searchEnv,
    show searchColumns (twoRowImage 1 quantumRange quantumRange one_pos) (redPixelImage 0 0) = 1 from rfl,
    show List.range 2 = [0, 1] from rfl, show List.range 1 = [0] from rfl,
    h₀, h₁, not_le.mpr ht, not_le.mpr (ht.trans hmax₀), hmax₀,
    show ∀ y, cropFailsAtOrigin.rowOk y = true from fun _ => rfl,
    show ∀ y, cropFailsAtOrigin.syncOk y = true from fun _ => rfl,
    not_lt.mpr (zero_le_one : (0 : EReal) ≤ 1)]

/-- Under a pixel-error metric, a candidate whose crop agrees with the reference scores 0,
no candidate scores less, and one worker's full scan returns that score with a white
confidence pixel there. -/
theorem similarityMetricImage_exact_match (hmetric : metric.isPixelError = true) {ox oy : ℕ}
    (hox : ox < searchColumns image reference) (hoy : oy < searchRows image reference)
    (hmatch : (cropImage image reference ox oy).Agrees reference)
    (hsched : (search.engine ox oy).schedule.Complete reference.rows)
    (hclone : search.cloneOk = true)
    (hok : ∀ y < searchRows image reference, search.rowOk y = true ∧ search.syncOk y = true) :
    similarityScore image reference metric search ox oy = 0 ∧
    (∀ c ∈ scanCandidates (searchColumns image reference) (searchRows image reference),
      similarityScore image reference metric search ox oy ≤
        similarityScore image reference metric search c.1 c.2) ∧
    ∃ N, ∀ n ≥ N,
      let r := similarityMetricImage image reference metric search defaultSimilarityThreshold
        [List.range (searchRows image reference)] (List.replicate n 0)
      r.2.1 = similarityScore image reference metric search ox oy ∧
        ∃ map, r.1 = some map ∧ map ox oy = some 65535 := by
  have hzero := similarityScore_agrees image reference metric search hmetric hmatch hsched
  have hnonneg := similarityScore_nonneg image reference metric search hmetric
  have hcs : image.colorspace = reference.colorspace := hmatch.colorspace
  have hgate : validateImageMorphology image reference = true :=
    (validateImageMorphology_iff _ _).mpr (by simp [Image.isCMYK, hcs])
  refine ⟨hzero, fun c _ => hzero ▸ hnonneg c.1 c.2, ?_⟩
  obtain ⟨N, hN⟩ := similarityScan_single image reference metric search defaultSimilarityThreshold
  have ht : defaultSimilarityThreshold < 0 :=
    EReal.coe_lt_coe_iff.mpr (by norm_num : (-1 : ℝ) < 0)
  have hinit : (0 : EReal) ≤ magickMaximumValue :=
    EReal.coe_nonneg.mpr (by norm_num [magickMaximumValue])
  obtain ⟨hst, hm, hmap⟩ := serialScan_attained
    (searchEnv image reference metric search defaultSimilarityThreshold) hok ht hinit
    (fun x _ y _ => hnonneg x y) hox hoy hzero
  refine ⟨N, fun n hn => ?_⟩
  rw [similarityMetricImage_of_gate _ _ _ _ _ _ _ hgate hclone, hN n hn]
  have hph : metric ≠ .perceptualHashErrorMetric := by
    rintro rfl
    exact absurd hmetric (by decide)
  simp only [hst, hm, hzero, if_true]
  exact ⟨trivial, _, rfl, by rw [hmap, Option.map_some', confidencePixel_zero hph]⟩

theorem similarityMetricImage_exact_match_blackRed :
    (cropImage blackRedImage (redPixelImage 0 0) 0 0).Agrees (redPixelImage 0 0) ∧
    similarityScore blackRedImage (redPixelImage 0 0) .absoluteErrorMetric okSearch 0 0 = 0 ∧
    (∀ c ∈ scanCandidates (searchColumns blackRedImage (redPixelImage 0 0))
        (searchRows blackRedImage (redPixelImage 0 0)),
      similarityScore blackRedImage (redPixelImage 0 0) .absoluteErrorMetric okSearch 0 0 ≤
        similarityScore blackRedImage (redPixelImage 0 0) .absoluteErrorMetric okSearch c.1 c.2) ∧
    ∃ N, ∀ n ≥ N,
      let r := similarityMetricImage blackRedImage (redPixelImage 0 0) .absoluteErrorMetric
        okSearch defaultSimilarityThreshold [List.range (searchRows blackRedImage (redPixelImage 0 0))]
        (List.replicate n 0)
      r.2.1 = similarityScore blackRedImage (redPixelImage 0 0) .absoluteErrorMetric okSearch 0 0 ∧
        ∃ map, r.1 = some map ∧ map 0 0 = some 65535 :=
  have hmatch := cropImage_redImage_agrees two_pos one_pos (x := 0) (y := 0) (if_pos rfl)
  ⟨hmatch, similarityMetricImage_exact_match blackRedImage (redPixelImage 0 0) .absoluteErrorMetric
    okSearch rfl (by decide) (by decide) hmatch (RowSchedule.single_complete 1) rfl
    fun _ _ => ⟨rfl, rfl⟩⟩

/-- The exact match at offset 0 scores `INFINITY` under the peak signal-to-noise ratio,
the worst score, and the other offset scores a finite value. -/
theorem similarityScore_peakSignalToNoise :
    (cropImage blackRedImage (redPixelImage 0 0) 0 0).Agrees (redPixelImage 0 0) ∧
    similarityScore blackRedImage (redPixelImage 0 0) .peakSignalToNoiseRatioMetric okSearch 0 0 = ⊤ ∧
    similarityScore blackRedImage (redPixelImage 0 0) .peakSignalToNoiseRatioMetric okSearch 1 0 < ⊤ := by
  set image := blackRedImage
  have hagree : (cropImage image (redPixelImage 0 0) 0 0).Agrees (redPixelImage 0 0) :=
    cropImage_redImage_agrees two_pos one_pos (if_pos rfl)
  have hmorph : ∀ x y, validateImageMorphology (cropImage image (redPixelImage 0 0) x y)
      (redPixelImage 0 0) = true := fun _ _ => rfl
  have hscore : ∀ x, similarityScore image (redPixelImage 0 0) .peakSignalToNoiseRatioMetric okSearch x 0 =
      peakSignalToNoise ((getMeanSquaredDistortion (cropImage image (redPixelImage 0 0) x 0)
        (redPixelImage 0 0) compositeChannels (.single 1) (fun _ => true)).2 .composite) := fun x => by
    simp [similarityScore, getSimilarityMetric, okSearch, getImageDistortion,
      getImageChannelDistortion, channelDistortion, getPeakSignalToNoiseRatio, hmorph,
      oneRowCollaborators]
  refine ⟨hagree, ?_, ?_⟩
  · rw [hscore, getMeanSquaredDistortion_agrees _ _ hagree (RowSchedule.single_complete 1)]
    exact peakSignalToNoise_zero
  · have hchannels : getNumberChannels (cropImage image (redPixelImage 0 0) 1 0)
        compositeChannels = 3 := by decide
    rw [hscore, @getMeanSquaredDistortion_pixel (cropImage image (redPixelImage 0 0) 1 0)
      (redPixelImage 0 0) _ rfl rfl, hchannels]
    apply peakSignalToNoise_lt_top
    simp [normalizeMean, meanSquaredPixel, accumulate_composite, guardedSum, channelOrder,
      channelGuard, channelDelta, Slot.value, cropImage, image, blackRedImage, redImage,
      redPixelImage, Image.isCMYK, quantumScale_mul_quantumRange]
    rw [abs_of_nonneg (by norm_num)]
    norm_num [magickEpsilon]

/-- One worker, run to the end, returns a map and either the initial best pair or a
candidate every earlier candidate in row-major order scores above: the first at or below
the threshold, or else the first minimum. -/
theorem similarityMetricImage_single_worker (threshold : EReal)
    (hmorph : validateImageMorphology image reference = true) (hclone : search.cloneOk = true)
    (hok : ∀ y < searchRows image reference, search.rowOk y = true ∧ search.syncOk y = true) :
    ∃ N, ∀ n ≥ N,
      let r := similarityMetricImage image reference metric search threshold
        [List.range (searchRows image reference)] (List.replicate n 0)
      r.1.isSome ∧
      (threshold < r.2.1 →
        ∀ c ∈ scanCandidates (searchColumns image reference) (searchRows image reference),
          r.2.1 ≤ similarityScore image reference metric search c.1 c.2) ∧
      ((r.2.1 = magickMaximumValue ∧ r.2.2.1 = 0 ∧ r.2.2.2 = 0) ∨
        (r.2.1 < magickMaximumValue ∧ ∃ l₁ l₂,
          scanCandidates (searchColumns image reference) (searchRows image reference) =
            l₁ ++ (r.2.2.1, r.2.2.2) :: l₂ ∧
          similarityScore image reference metric search r.2.2.1 r.2.2.2 = r.2.1 ∧
          ∀ c ∈ l₁, r.2.1 < similarityScore image reference metric search c.1 c.2 ∧
            threshold < similarityScore image reference metric search c.1 c.2)) := by
  obtain ⟨N, hN⟩ := similarityScan_single image reference metric search threshold
  refine ⟨N, fun n hn => ?_⟩
  obtain ⟨hst, hle, hoff⟩ := @serialScan_best _ _ (searchEnv image reference metric search threshold)
    (magickMaximumValue : EReal) _ hok
  rw [similarityMetricImage_of_gate _ _ _ _ _ _ _ hmorph hclone, hN n hn]
  simp only [hst, if_true, Option.isSome_some, true_and]
  exact ⟨hle, hoff⟩

theorem similarityMetricImage_single_worker_blackRed :
    validateImageMorphology blackRedImage (redPixelImage 0 0) = true ∧ okSearch.cloneOk = true ∧
    (∀ y < searchRows blackRedImage (redPixelImage 0 0), okSearch.rowOk y = true ∧
      okSearch.syncOk y = true) ∧
    ∃ N, ∀ n ≥ N,
      let r := similarityMetricImage blackRedImage (redPixelImage 0 0) .absoluteErrorMetric okSearch
        defaultSimilarityThreshold [List.range (searchRows blackRedImage (redPixelImage 0 0))]
        (List.replicate n 0)
      r.1.isSome ∧
      (defaultSimilarityThreshold < r.2.1 →
        ∀ c ∈ scanCandidates (searchColumns blackRedImage (redPixelImage 0 0))
            (searchRows blackRedImage (redPixelImage 0 0)),
          r.2.1 ≤ similarityScore blackRedImage (redPixelImage 0 0) .absoluteErrorMetric okSearch
            c.1 c.2) ∧
      ((r.2.1 = magickMaximumValue ∧ r.2.2.1 = 0 ∧ r.2.2.2 = 0) ∨
        (r.2.1 < magickMaximumValue ∧ ∃ l₁ l₂,
          scanCandidates (searchColumns blackRedImage (redPixelImage 0 0))
              (searchRows blackRedImage (redPixelImage 0 0)) =
            l₁ ++ (r.2.2.1, r.2.2.2) :: l₂ ∧
          similarityScore blackRedImage (redPixelImage 0 0) .absoluteErrorMetric okSearch r.2.2.1
            r.2.2.2 = r.2.1 ∧
          ∀ c ∈ l₁,
            r.2.1 < similarityScore blackRedImage (redPixelImage 0 0) .absoluteErrorMetric okSearch
              c.1 c.2 ∧
            defaultSimilarityThreshold <
              similarityScore blackRedImage (redPixelImage 0 0) .absoluteErrorMetric okSearch
                c.1 c.2)) :=
  ⟨rfl, rfl, fun _ _ => ⟨rfl, rfl⟩,
    similarityMetricImage_single_worker blackRedImage (redPixelImage 0 0) .absoluteErrorMetric okSearch
      defaultSimilarityThreshold rfl rfl fun _ _ => ⟨rfl, rfl⟩⟩

theorem similarityMetricImage_tie :
    (similarityScan (twoRowImage 1 0 0 one_pos) (redPixelImage 0 0)
        .absoluteErrorMetric okSearch defaultSimilarityThreshold [[0], [1]]
        (List.replicate 14 0 ++ List.replicate 14 1)).Finished 2 ∧
    (similarityScan (twoRowImage 1 0 0 one_pos) (redPixelImage 0 0)
        .absoluteErrorMetric okSearch defaultSimilarityThreshold [[0], [1]]
        (List.replicate 14 1 ++ List.replicate 14 0)).Finished 2 ∧
    (similarityMetricImage (twoRowImage 1 0 0 one_pos) (redPixelImage 0 0)
        .absoluteErrorMetric okSearch defaultSimilarityThreshold [[0], [1]]
        (List.replicate 14 0 ++ List.replicate 14 1)).1.isSome ∧
    (similarityMetricImage (twoRowImage 1 0 0 one_pos) (redPixelImage 0 0)
        .absoluteErrorMetric okSearch defaultSimilarityThreshold [[0], [1]]
        (List.replicate 14 1 ++ List.replicate 14 0)).1.isSome ∧
    (similarityMetricImage (twoRowImage 1 0 0 one_pos) (redPixelImage 0 0)
        .absoluteErrorMetric okSearch defaultSimilarityThreshold [[0], [1]]
        (List.replicate 14 0 ++ List.replicate 14 1)).2.1 =
      (similarityMetricImage (twoRowImage 1 0 0 one_pos) (redPixelImage 0 0)
        .absoluteErrorMetric okSearch defaultSimilarityThreshold [[0], [1]]
        (List.replicate 14 1 ++ List.replicate 14 0)).2.1 ∧
    (similarityMetricImage (twoRowImage 1 0 0 one_pos) (redPixelImage 0 0)
        .absoluteErrorMetric okSearch defaultSimilarityThreshold [[0], [1]]
        (List.replicate 14 0 ++ List.replicate 14 1)).2.2 = (0, 0) ∧
    (similarityMetricImage (twoRowImage 1 0 0 one_pos) (redPixelImage 0 0)
        .absoluteErrorMetric okSearch defaultSimilarityThreshold [[0], [1]]
        (List.replicate 14 1 ++ List.replicate 14 0)).2.2 = (0, 1) := by
  have hscore : ∀ x y, similarityScore (twoRowImage 1 0 0 one_pos) (redPixelImage 0 0)
      .absoluteErrorMetric okSearch x y = 0 := fun x y => by
    rw [twoRowImage, similarityScore_redImage]; simp
  obtain ⟨hs₀, hd₀₀, hd₀₁, hs₁, hd₁₀, hd₁₁, hm, ho₀, ho₁⟩ := runScan_tie
    (searchEnv (twoRowImage 1 0 0 one_pos) (redPixelImage 0 0) .absoluteErrorMetric okSearch
      defaultSimilarityThreshold) (magickMaximumValue : EReal) rfl (fun _ => ⟨rfl, rfl⟩)
    (by simp only [searchEnv, hscore]) (by simp only [searchEnv, hscore]; exact defaultSimilarityThreshold_lt_zero)
    (by simp only [searchEnv, hscore]; exact zero_lt_one.trans magickMaximumValue_gt_one)
  simp only [Prod.mk.injEq] at ho₀ ho₁
  refine ⟨ScanState.finished_two hd₀₀ hd₀₁, ScanState.finished_two hd₁₀ hd₁₁, ?_⟩
  have hgate := fun turns => similarityMetricImage_of_gate (twoRowImage 1 0 0 one_pos)
    (redPixelImage 0 0) .absoluteErrorMetric okSearch defaultSimilarityThreshold [[0], [1]] turns
    rfl rfl
  simp only [hgate, similarityScan, hs₀, hs₁, hm, ho₀, ho₁, if_true, Option.isSome_some, and_self]

end Results

/-! ### Interleavings of two workers -/

theorem similarityScore_twoRow_red :
    similarityScore (twoRowImage 1 quantumRange 0 one_pos) (redPixelImage 0 0) .absoluteErrorMetric
      okSearch 0 0 = 1 := by
  rw [twoRowImage, similarityScore_redImage]; simp [quantumRange_ne_zero]

theorem similarityScore_twoRow_black :
    similarityScore (twoRowImage 1 quantumRange 0 one_pos) (redPixelImage 0 0) .absoluteErrorMetric
      okSearch 0 1 = 0 := by
  rw [twoRowImage, similarityScore_redImage]; simp

theorem searchEnv_twoRow_scores :
    (searchEnv (twoRowImage 1 quantumRange 0 one_pos) (redPixelImage 0 0) .absoluteErrorMetric okSearch
        defaultSimilarityThreshold).threshold <
      (searchEnv (twoRowImage 1 quantumRange 0 one_pos) (redPixelImage 0 0) .absoluteErrorMetric okSearch
        defaultSimilarityThreshold).score 0 1 ∧
    (searchEnv (twoRowImage 1 quantumRange 0 one_pos) (redPixelImage 0 0) .absoluteErrorMetric okSearch
        defaultSimilarityThreshold).score 0 1 <
      (searchEnv (twoRowImage 1 quantumRange 0 one_pos) (redPixelImage 0 0) .absoluteErrorMetric okSearch
        defaultSimilarityThreshold).score 0 0 ∧
    (searchEnv (twoRowImage 1 quantumRange 0 one_pos) (redPixelImage 0 0) .absoluteErrorMetric okSearch
        defaultSimilarityThreshold).score 0 0 < (magickMaximumValue : EReal) := by
  simp only [searchEnv, similarityScore_twoRow_red, similarityScore_twoRow_black]
  exact ⟨defaultSimilarityThreshold_lt_zero, zero_lt_one, magickMaximumValue_gt_one⟩

/-- Two rows, one candidate each: the first worker compares its worse score, the second
stores the better one, and the first then overwrites it. -/
theorem similarityMetricImage_lostUpdateTurns :
    (similarityScan (twoRowImage 1 quantumRange 0 one_pos) (redPixelImage 0 0)
        .absoluteErrorMetric okSearch defaultSimilarityThreshold [[0], [1]]
        (List.replicate 7 0 ++ List.replicate 14 1 ++ List.replicate 7 0)).Finished 2 ∧
    (similarityMetricImage (twoRowImage 1 quantumRange 0 one_pos) (redPixelImage 0 0)
        .absoluteErrorMetric okSearch defaultSimilarityThreshold [[0], [1]]
        (List.replicate 7 0 ++ List.replicate 14 1 ++ List.replicate 7 0)).1.isSome ∧
    (similarityMetricImage (twoRowImage 1 quantumRange 0 one_pos) (redPixelImage 0 0)
        .absoluteErrorMetric okSearch defaultSimilarityThreshold [[0], [1]]
        (List.replicate 7 0 ++ List.replicate 14 1 ++ List.replicate 7 0)).2 = (1, 0, 0) := by
  obtain ⟨hs, hd₀, hd₁, hm, hx, hy⟩ := runScan_lost_update
    (searchEnv (twoRowImage 1 quantumRange 0 one_pos) (redPixelImage 0 0) .absoluteErrorMetric
      okSearch defaultSimilarityThreshold) (magickMaximumValue : EReal) rfl (fun _ => ⟨rfl, rfl⟩)
    searchEnv_twoRow_scores.1 searchEnv_twoRow_scores.2.1 searchEnv_twoRow_scores.2.2
  refine ⟨ScanState.finished_two hd₀ hd₁, ?_⟩
  rw [similarityMetricImage_of_gate (twoRowImage 1 quantumRange 0 one_pos) (redPixelImage 0 0)
    .absoluteErrorMetric okSearch _ _ _ rfl rfl]
  simp only [similarityScan, hs, hm, hx, hy, if_true, Option.isSome_some, true_and]
  simp only [searchEnv, similarityScore_twoRow_red]

theorem similarityMetricImage_rowOrderTurns :
    (similarityScan (twoRowImage 1 quantumRange 0 one_pos) (redPixelImage 0 0)
        .absoluteErrorMetric okSearch defaultSimilarityThreshold [[0], [1]]
        (List.replicate 14 0 ++ List.replicate 14 1)).Finished 2 ∧
    (similarityMetricImage (twoRowImage 1 quantumRange 0 one_pos) (redPixelImage 0 0)
        .absoluteErrorMetric okSearch defaultSimilarityThreshold [[0], [1]]
        (List.replicate 14 0 ++ List.replicate 14 1)).1.isSome ∧
    (similarityMetricImage (twoRowImage 1 quantumRange 0 one_pos) (redPixelImage 0 0)
        .absoluteErrorMetric okSearch defaultSimilarityThreshold [[0], [1]]
        (List.replicate 14 0 ++ List.replicate 14 1)).2 = (0, 0, 1) := by
  obtain ⟨hs, hd₀, hd₁, hm, hx, hy⟩ := runScan_in_row_order
    (searchEnv (twoRowImage 1 quantumRange 0 one_pos) (redPixelImage 0 0) .absoluteErrorMetric
      okSearch defaultSimilarityThreshold) (magickMaximumValue : EReal) rfl (fun _ => ⟨rfl, rfl⟩)
    searchEnv_twoRow_scores.1 searchEnv_twoRow_scores.2.1 searchEnv_twoRow_scores.2.2
  refine ⟨ScanState.finished_two hd₀ hd₁, ?_⟩
  rw [similarityMetricImage_of_gate (twoRowImage 1 quantumRange 0 one_pos) (redPixelImage 0 0)
    .absoluteErrorMetric okSearch _ _ _ rfl rfl]
  simp only [similarityScan, hs, hm, hx, hy, if_true, Option.isSome_some, true_and]
  simp only [searchEnv, similarityScore_twoRow_black]

theorem similarityMetricImage_lost_update :
    (similarityScan (twoRowImage 1 quantumRange 0 one_pos) (redPixelImage 0 0)
        .absoluteErrorMetric okSearch defaultSimilarityThreshold [[0], [1]]
        (List.replicate 7 0 ++ List.replicate 14 1 ++ List.replicate 7 0)).Finished 2 ∧
    similarityScore (twoRowImage 1 quantumRange 0 one_pos) (redPixelImage 0 0) .absoluteErrorMetric okSearch 0 0 = 1 ∧
    similarityScore (twoRowImage 1 quantumRange 0 one_pos) (redPixelImage 0 0) .absoluteErrorMetric okSearch 0 1 = 0 ∧
    (similarityMetricImage (twoRowImage 1 quantumRange 0 one_pos) (redPixelImage 0 0)
        .absoluteErrorMetric okSearch defaultSimilarityThreshold [[0], [1]]
        (List.replicate 7 0 ++ List.replicate 14 1 ++ List.replicate 7 0)).1.isSome ∧
    (similarityMetricImage (twoRowImage 1 quantumRange 0 one_pos) (redPixelImage 0 0)
        .absoluteErrorMetric okSearch defaultSimilarityThreshold [[0], [1]]
        (List.replicate 7 0 ++ List.replicate 14 1 ++ List.replicate 7 0)).2 = (1, 0, 0) :=
  ⟨similarityMetricImage_lostUpdateTurns.1, similarityScore_twoRow_red, similarityScore_twoRow_black,
    similarityMetricImage_lostUpdateTurns.2⟩

/-- The same input under two interleavings returns two scores: the minimum 0 in row order,
and 1 after the lost update. Two black rows tie at 0, and the offset returned is that of
whichever worker runs first. -/
theorem similarityMetricImage_schedule_dependent :
    ((similarityScan (twoRowImage 1 0 0 one_pos) (redPixelImage 0 0)
        .absoluteErrorMetric okSearch defaultSimilarityThreshold [[0], [1]]
        (List.replicate 14 0 ++ List.replicate 14 1)).Finished 2 ∧
    (similarityScan (twoRowImage 1 0 0 one_pos) (redPixelImage 0 0)
        .absoluteErrorMetric okSearch defaultSimilarityThreshold [[0], [1]]
        (List.replicate 14 1 ++ List.replicate 14 0)).Finished 2 ∧
    (similarityMetricImage (twoRowImage 1 0 0 one_pos) (redPixelImage 0 0)
        .absoluteErrorMetric okSearch defaultSimilarityThreshold [[0], [1]]
        (List.replicate 14 0 ++ List.replicate 14 1)).1.isSome ∧
    (similarityMetricImage (twoRowImage 1 0 0 one_pos) (redPixelImage 0 0)
        .absoluteErrorMetric okSearch defaultSimilarityThreshold [[0], [1]]
        (List.replicate 14 1 ++ List.replicate 14 0)).1.isSome ∧
    (similarityMetricImage (twoRowImage 1 0 0 one_pos) (redPixelImage 0 0)
        .absoluteErrorMetric okSearch defaultSimilarityThreshold [[0], [1]]
        (List.replicate 14 0 ++ List.replicate 14 1)).2.1 =
      (similarityMetricImage (twoRowImage 1 0 0 one_pos) (redPixelImage 0 0)
        .absoluteErrorMetric okSearch defaultSimilarityThreshold [[0], [1]]
        (List.replicate 14 1 ++ List.replicate 14 0)).2.1 ∧
    (similarityMetricImage (twoRowImage 1 0 0 one_pos) (redPixelImage 0 0)
        .absoluteErrorMetric okSearch defaultSimilarityThreshold [[0], [1]]
        (List.replicate 14 0 ++ List.replicate 14 1)).2.2 = (0, 0) ∧
    (similarityMetricImage (twoRowImage 1 0 0 one_pos) (redPixelImage 0 0)
        .absoluteErrorMetric okSearch defaultSimilarityThreshold [[0], [1]]
        (List.replicate 14 1 ++ List.replicate 14 0)).2.2 = (0, 1)) ∧
    (similarityScan (twoRowImage 1 quantumRange 0 one_pos) (redPixelImage 0 0)
        .absoluteErrorMetric okSearch defaultSimilarityThreshold [[0], [1]]
        (List.replicate 14 0 ++ List.replicate 14 1)).Finished 2 ∧
    (similarityScan (twoRowImage 1 quantumRange 0 one_pos) (redPixelImage 0 0)
        .absoluteErrorMetric okSearch defaultSimilarityThreshold [[0], [1]]
        (List.replicate 7 0 ++ List.replicate 14 1 ++ List.replicate 7 0)).Finished 2 ∧
    (similarityMetricImage (twoRowImage 1 quantumRange 0 one_pos) (redPixelImage 0 0)
        .absoluteErrorMetric okSearch defaultSimilarityThreshold [[0], [1]]
        (List.replicate 14 0 ++ List.replicate 14 1)).1.isSome ∧
    (similarityMetricImage (twoRowImage 1 quantumRange 0 one_pos) (redPixelImage 0 0)
        .absoluteErrorMetric okSearch defaultSimilarityThreshold [[0], [1]]
        (List.replicate 7 0 ++ List.replicate 14 1 ++ List.replicate 7 0)).1.isSome ∧
    (similarityMetricImage (twoRowImage 1 quantumRange 0 one_pos) (redPixelImage 0 0)
        .absoluteErrorMetric okSearch defaultSimilarityThreshold [[0], [1]]
        (List.replicate 14 0 ++ List.replicate 14 1)).2 = (0, 0, 1) ∧
    (similarityMetricImage (twoRowImage 1 quantumRange 0 one_pos) (redPixelImage 0 0)
        .absoluteErrorMetric okSearch defaultSimilarityThreshold [[0], [1]]
        (List.replicate 7 0 ++ List.replicate 14 1 ++ List.replicate 7 0)).2 = (1, 0, 0) :=
  have hrow := similarityMetricImage_rowOrderTurns
  have hlost := similarityMetricImage_lostUpdateTurns
  ⟨similarityMetricImage_tie, hrow.1, hlost.1, hrow.2.1, hlost.2.1, hrow.2.2, hlost.2.2⟩

/-- Three candidate columns over two rows, threshold 0: after the second worker stores 0,
the first overwrites it with 1 and evaluates two more candidates. -/
theorem similarityScan_threshold_overshoot :
    (similarityScan (twoRowImage 3 quantumRange 0 (Nat.succ_pos 2)) (redPixelImage 0 0)
        .absoluteErrorMetric okSearch 0 [[0], [1]]
        (List.replicate 7 0 ++ List.replicate 11 1)).shared.similarityMetric ≤ 0 ∧
    (similarityScan (twoRowImage 3 quantumRange 0 (Nat.succ_pos 2)) (redPixelImage 0 0)
        .absoluteErrorMetric okSearch 0 [[0], [1]]
        (List.replicate 7 0 ++ List.replicate 11 1)).shared.map 1 0 = none ∧
    (similarityScan (twoRowImage 3 quantumRange 0 (Nat.succ_pos 2)) (redPixelImage 0 0)
        .absoluteErrorMetric okSearch 0 [[0], [1]]
        (List.replicate 7 0 ++ List.replicate 11 1)).shared.map 2 0 = none ∧
    (similarityScan (twoRowImage 3 quantumRange 0 (Nat.succ_pos 2)) (redPixelImage 0 0)
        .absoluteErrorMetric okSearch 0 [[0], [1]]
        (List.replicate 7 0 ++ List.replicate 11 1 ++ (List.replicate 3 1 ++ List.replicate 15 0))).Finished 2 ∧
    (similarityScan (twoRowImage 3 quantumRange 0 (Nat.succ_pos 2)) (redPixelImage 0 0)
        .absoluteErrorMetric okSearch 0 [[0], [1]]
        (List.replicate 7 0 ++ List.replicate 11 1 ++ (List.replicate 3 1 ++ List.replicate 15 0))).shared.status = true ∧
    0 < (similarityScan (twoRowImage 3 quantumRange 0 (Nat.succ_pos 2)) (redPixelImage 0 0)
        .absoluteErrorMetric okSearch 0 [[0], [1]]
        (List.replicate 7 0 ++ List.replicate 11 1 ++ (List.replicate 3 1 ++ List.replicate 15 0))).shared.similarityMetric ∧
    (similarityScan (twoRowImage 3 quantumRange 0 (Nat.succ_pos 2)) (redPixelImage 0 0)
        .absoluteErrorMetric okSearch 0 [[0], [1]]
        (List.replicate 7 0 ++ List.replicate 11 1 ++ (List.replicate 3 1 ++ List.replicate 15 0))).shared.map 1 0 = some 1 ∧
    (similarityScan (twoRowImage 3 quantumRange 0 (Nat.succ_pos 2)) (redPixelImage 0 0)
        .absoluteErrorMetric okSearch 0 [[0], [1]]
        (List.replicate 7 0 ++ List.replicate 11 1 ++ (List.replicate 3 1 ++ List.replicate 15 0))).shared.map 2 0 = some 1 := by
  have hscore : ∀ x y, similarityScore (twoRowImage 3 quantumRange 0 (Nat.succ_pos 2)) (redPixelImage 0 0)
      .absoluteErrorMetric okSearch x y = if y = 0 then 1 else 0 := fun x y => by
    rw [twoRowImage, similarityScore_redImage]
    split_ifs <;> simp_all [quantumRange_ne_zero]
  obtain ⟨hm₁, hx₁, hy₁, hs₂, hd₀, hd₁, hm₂, hx₂, hy₂⟩ := runScan_threshold_overshoot
    (searchEnv (twoRowImage 3 quantumRange 0 (Nat.succ_pos 2)) (redPixelImage 0 0) .absoluteErrorMetric
      okSearch 0) (magickMaximumValue : EReal) rfl (fun _ => ⟨rfl, rfl⟩)
    (by simp [searchEnv, hscore]) (by simp [searchEnv, hscore])
    (by simp only [searchEnv, hscore, if_true]; exact magickMaximumValue_gt_one)
    (by simp [searchEnv, hscore]) (by simp [searchEnv, hscore])
  have hsplit : similarityScan (twoRowImage 3 quantumRange 0 (Nat.succ_pos 2)) (redPixelImage 0 0)
        .absoluteErrorMetric okSearch 0 [[0], [1]]
        (List.replicate 7 0 ++ List.replicate 11 1 ++ (List.replicate 3 1 ++ List.replicate 15 0)) =
      runScan (searchEnv (twoRowImage 3 quantumRange 0 (Nat.succ_pos 2)) (redPixelImage 0 0)
        .absoluteErrorMetric okSearch 0) (similarityScan (twoRowImage 3 quantumRange 0 (Nat.succ_pos 2))
          (redPixelImage 0 0) .absoluteErrorMetric okSearch 0 [[0], [1]]
          (List.replicate 7 0 ++ List.replicate 11 1))
        (List.replicate 3 1 ++ List.replicate 15 0) := runScan_append _ _ _ _
  rw [hsplit]
  refine ⟨hm₁, hx₁, hy₁, ScanState.finished_two hd₀ hd₁, hs₂, hm₂, ?_, ?_⟩
  · exact hx₂.trans (by simp [searchEnv, hscore])
  · exact hy₂.trans (by simp [searchEnv, hscore])

end MagickCompare

end
