import MagickCompare.ScanCalls
import MagickCompare.CorrelationBounds
import MagickCompare.Similarity
/-! The candidate offsets of `SimilarityMetricImage`. The loop bounds are
`(ssize_t) (image->columns-reference->columns+1)` and the same for the rows: the `size_t`
subtraction wraps modulo `2^64`, and the cast reads the result back in two's complement.
For sizes below `2^63` the bound is `W+1-w` when the reference fits and at most 0 when it
does not, so over any interleaving of the workers every crop the loop requests lies inside
the image; and a finished run without failures passes every candidate exactly once, unless
a score at or below the threshold stops the scan first. -/

noncomputable section

namespace MagickCompare

/-! ### The loop bounds -/

theorem ssizeBound_eq {a b : ℕ} (ha : a < 2 ^ 63) (hb : b < 2 ^ 63) (hb0 : 0 < b) :
    ssizeBound a b = (a : ℤ) - b + 1 := by
  unfold ssizeBound
  simp only
  split_ifs <;> omega

theorem toNat_ssizeBound {a b : ℕ} (ha : a < 2 ^ 63) (hb : b < 2 ^ 63) (hb0 : 0 < b) :
    (ssizeBound a b).toNat = a + 1 - b := by
  rw [ssizeBound_eq ha hb hb0]
  omega

section Bounds

variable {image reference : Image}

theorem searchColumns_eq (hW : image.columns < 2 ^ 63) (hw : reference.columns < 2 ^ 63) :
    searchColumns image reference = image.columns + 1 - reference.columns :=
  toNat_ssizeBound hW hw reference.columns_pos

theorem searchRows_eq (hH : image.rows < 2 ^ 63) (hh : reference.rows < 2 ^ 63) :
    searchRows image reference = image.rows + 1 - reference.rows :=
  toNat_ssizeBound hH hh reference.rows_pos

end Bounds

/-! ### The offsets passed to `GetSimilarityMetric` -/

section Offsets

variable (image reference : Image) (metric : MetricType) (search : SearchCollaborators)
  (threshold : EReal) (queues : List (List ℕ)) (turns : List ℕ)

/-- The offsets `SimilarityMetricImage` passes to `GetSimilarityMetric`, in order: none
when the morphology check throws or the clone fails before the loop. -/
def similarityCalls : List (ℕ × ℕ) :=
  if validateImageMorphology image reference = false ∨ search.cloneOk = false then []
  else scanCalls (searchEnv image reference metric search threshold)
    (scanStart (magickMaximumValue : EReal) queues) turns

/-- What the search keeps of its candidates: every offset it passes lies where the
reference fits inside the image; and a finished run without failures, from a threshold
below `MagickMaximumValue` that no candidate scores at or below, passes each candidate
`{0..W-w} × {0..H-h}` once, and none when the reference does not fit. -/
structure OffsetLaws : Prop where
  inside : ∀ c ∈ similarityCalls image reference metric search threshold queues turns,
    c.1 + reference.columns ≤ image.columns ∧ c.2 + reference.rows ≤ image.rows
  exact : validateImageMorphology image reference = true → search.cloneOk = true →
    (∀ y, search.rowOk y = true ∧ search.syncOk y = true) →
    threshold < (magickMaximumValue : EReal) →
    (∀ c ∈ scanCandidates (image.columns + 1 - reference.columns)
        (image.rows + 1 - reference.rows),
      threshold < similarityScore image reference metric search c.1 c.2) →
    (similarityScan image reference metric search threshold queues turns).Finished
      queues.length →
    (similarityCalls image reference metric search threshold queues turns).Perm
      (scanCandidates (image.columns + 1 - reference.columns) (image.rows + 1 - reference.rows))

variable {image reference queues}

/-- For sizes below `2^63` and a static schedule that splits the candidate rows among the
workers, the search keeps its offset laws, over any interleaving and whatever fails. -/
theorem offsetLaws_of_split (hW : image.columns < 2 ^ 63) (hw : reference.columns < 2 ^ 63)
    (hH : image.rows < 2 ^ 63) (hh : reference.rows < 2 ^ 63)
    (hsplit : queues.flatten.Perm (List.range (searchRows image reference))) :
    OffsetLaws image reference metric search threshold queues turns := by
  have hcands : (queuedCalls (searchColumns image reference) queues.flatten).Perm
      (scanCandidates (image.columns + 1 - reference.columns) (image.rows + 1 - reference.rows)) := by
    rw [← searchColumns_eq hW hw, ← searchRows_eq hH hh, ← queuedCalls_range]
    exact hsplit.flatMap_right _
  refine ⟨fun c hc => ?_, fun hmorph hclone hok hthr hscore hfin => ?_⟩
  · unfold similarityCalls at hc
    split_ifs at hc
    · exact absurd hc (List.not_mem_nil c)
    · have hmem := mem_scanCandidates.mp (hcands.subset ((scanCalls_subperm _ _ _ _).subset hc))
      omega
  · rw [similarityCalls, if_neg (by simp [hmorph, hclone])]
    exact (scanCalls_perm _ hok hthr (fun c hc => hscore c (hcands.subset hc)) hfin).trans hcands

end Offsets

theorem offsetLaws_of_split_blackRed :
    blackRedImage.columns < 2 ^ 63 ∧ (redPixelImage 0 0).columns < 2 ^ 63 ∧
    blackRedImage.rows < 2 ^ 63 ∧ (redPixelImage 0 0).rows < 2 ^ 63 ∧
    [[0]].flatten.Perm (List.range (searchRows blackRedImage (redPixelImage 0 0))) ∧
    OffsetLaws blackRedImage (redPixelImage 0 0) .absoluteErrorMetric okSearch
      defaultSimilarityThreshold [[0]] (List.replicate 14 0) := by
  have hsplit : [[0]].flatten.Perm (List.range (searchRows blackRedImage (redPixelImage 0 0))) := by
    rw [searchRows_eq (by norm_num [blackRedImage, redImage]) (by norm_num [redPixelImage])]; rfl
  exact ⟨by norm_num [blackRedImage, redImage], by norm_num [redPixelImage],
    by norm_num [blackRedImage, redImage], by norm_num [redPixelImage], hsplit,
    offsetLaws_of_split _ _ _ _ (by norm_num [blackRedImage, redImage]) (by norm_num [redPixelImage])
      (by norm_num [blackRedImage, redImage]) (by norm_num [redPixelImage]) hsplit⟩

/-! ### A correlation score at the threshold stops the search

The normalized cross correlation of a channel whose reference has no spread is huge, so
the search score `1 - NCC` falls below the default threshold `-1`, and the first offset
stops the scan: a finished run without failures passes one of the two candidates. -/

/-- A two-pixel row of the half red of `halfRedImage`. -/
def twoHalfRedImage : Image :=
  ⟨2, 1, true, .otherColorspace, 0, fun _ _ => ⟨quantumRange, 0, 0, 32768, 0⟩, two_pos, one_pos⟩

/-- The search collaborators with every read, clone and crop succeeding and the
statistics of `populationCollaborators`. -/
def populationSearch : SearchCollaborators :=
  ⟨true, fun _ _ => true, fun _ _ => populationCollaborators, fun _ => true, fun _ => true⟩

theorem similarityScore_twoHalfRed :
    similarityScore twoHalfRedImage halfRedImage .normalizedCrossCorrelationErrorMetric
      populationSearch 0 0 ≤ defaultSimilarityThreshold := by
  have hcrop : cropImage twoHalfRedImage halfRedImage 0 0 = halfRedImage := rfl
  have hbig : (2 : ℝ) ≤ 32768 ^ 2 / (2 * magickEpsilon) := by
    norm_num [magickEpsilon]
  have hcomp := hbig.trans getNormalizedCrossCorrelationDistortion_halfRed_composite
  simp only [similarityScore, getSimilarityMetric, populationSearch, hcrop, if_true, true_or]
  rw [getImageDistortion_halfRed, defaultSimilarityThreshold, ← EReal.coe_one, ← EReal.coe_sub,
    ← EReal.coe_neg, EReal.coe_le_coe_iff]
  linarith

theorem similarityCalls_twoHalfRed :
    validateImageMorphology twoHalfRedImage halfRedImage = true ∧
    similarityScore twoHalfRedImage halfRedImage .normalizedCrossCorrelationErrorMetric
      populationSearch 0 0 ≤ defaultSimilarityThreshold ∧
    (similarityScan twoHalfRedImage halfRedImage .normalizedCrossCorrelationErrorMetric
      populationSearch defaultSimilarityThreshold [[0]] (List.replicate 14 0)).Finished 1 ∧
    similarityCalls twoHalfRedImage halfRedImage .normalizedCrossCorrelationErrorMetric
      populationSearch defaultSimilarityThreshold [[0]] (List.replicate 14 0) = [(0, 0)] ∧
    scanCandidates (twoHalfRedImage.columns + 1 - halfRedImage.columns)
      (twoHalfRedImage.rows + 1 - halfRedImage.rows) = [(0, 0), (1, 0)] := by
  have hcols : searchColumns twoHalfRedImage halfRedImage = 2 := by
    rw [searchColumns_eq (by norm_num [twoHalfRedImage]) (by norm_num [halfRedImage])]; rfl
  have hs := similarityScore_twoHalfRed
  have hmax : ¬(magickMaximumValue : EReal) ≤ defaultSimilarityThreshold :=
    not_le.mpr ((defaultSimilarityThreshold_lt_zero.trans zero_lt_one).trans magickMaximumValue_gt_one)
  have hs' : similarityScore twoHalfRedImage halfRedImage .normalizedCrossCorrelationErrorMetric
      populationSearch 0 0 < magickMaximumValue := hs.trans_lt (not_le.mp hmax)
  have hrow : ∀ y, populationSearch.rowOk y = true := fun _ => rfl
  have hsync : ∀ y, populationSearch.syncOk y = true := fun _ => rfl
  have hclone : populationSearch.cloneOk = true := rfl
  have hmorph : validateImageMorphology twoHalfRedImage halfRedImage = true := rfl
  refine ⟨hmorph, hs, ?_, ?_, rfl⟩
  · intro w hw
    obtain rfl : w = 0 := by omega
    simp [similarityScan, runScan, scanStep, scanStart, searchEnv, hcols, hs, hs', hmax, hrow, hsync]
  · simp [similarityCalls, scanCalls, scanStep, stepCalls, scanStart, searchEnv, hcols, hs, hs',
      hmax, hrow, hsync, hclone, hmorph]

end MagickCompare

end
