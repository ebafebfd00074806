import MagickCompare.ScanTrace
import MagickCompare.SearchOffsets
/-! The confidence map and the best pair that `SimilarityMetricImage` returns, over every
schedule and interleaving of its row loop. The best offset may depend on the
interleaving; the confidence map does not: every pixel it holds is the confidence of its
own offset's score, and a finished run without a failure or a score at or below the
threshold holds every candidate's. -/

noncomputable section

namespace MagickCompare

section Returned

variable (image reference : Image) (metric : MetricType) (search : SearchCollaborators)
  (threshold : EReal) (queues : List (List ℕ)) (turns : List ℕ)

theorem traceInv_similarityScan :
    TraceInv (searchEnv image reference metric search threshold) (magickMaximumValue : EReal)
      (scanCalls (searchEnv image reference metric search threshold)
        (scanStart (magickMaximumValue : EReal) queues) turns)
      (similarityScan image reference metric search threshold queues turns) := by
  simpa using traceInv_runScan _ turns [] _ (traceInv_scanStart _ (magickMaximumValue : EReal) queues)

/-- Whatever the schedule and the interleaving, and whatever fails, every pixel of a
returned confidence map belongs to an offset passed to `GetSimilarityMetric` and holds the
confidence of that offset's score. -/
theorem similarityMetricImage_map_sound {m : ℕ → ℕ → Option ℕ}
    (hm : (similarityMetricImage image reference metric search threshold queues turns).1 = some m)
    {x y v : ℕ} (hv : m x y = some v) :
    (x, y) ∈ similarityCalls image reference metric search threshold queues turns ∧
      v = confidencePixel metric (similarityScore image reference metric search x y) := by
  unfold similarityMetricImage at hm
  split_ifs at hm with hgate
  simp only at hm
  split_ifs at hm
  obtain rfl := Option.some.inj hm
  obtain ⟨s, hs, rfl⟩ := Option.map_eq_some'.mp hv
  obtain ⟨rfl, hcall⟩ := (traceInv_similarityScan image reference metric search threshold queues
    turns).map x y s hs
  rw [similarityCalls, if_neg hgate]
  exact ⟨hcall, rfl⟩

/-- Whatever the schedule and the interleaving, and whatever fails, the best score returned
is `MagickMaximumValue` or the score of an offset passed to `GetSimilarityMetric`, and each
coordinate of the returned offset is 0 or that coordinate of such an offset. -/
theorem similarityMetricImage_reported :
    ((similarityMetricImage image reference metric search threshold queues turns).2.1 =
        magickMaximumValue ∨
      ∃ c ∈ similarityCalls image reference metric search threshold queues turns,
        (similarityMetricImage image reference metric search threshold queues turns).2.1 =
          similarityScore image reference metric search c.1 c.2) ∧
    ((similarityMetricImage image reference metric search threshold queues turns).2.2.1 = 0 ∨
      ∃ c ∈ similarityCalls image reference metric search threshold queues turns,
        (similarityMetricImage image reference metric search threshold queues turns).2.2.1 = c.1) ∧
    ((similarityMetricImage image reference metric search threshold queues turns).2.2.2 = 0 ∨
      ∃ c ∈ similarityCalls image reference metric search threshold queues turns,
        (similarityMetricImage image reference metric search threshold queues turns).2.2.2 =
          c.2) := by
  unfold similarityMetricImage
  split_ifs with hgate
  · exact ⟨.inl rfl, .inl rfl, .inl rfl⟩
  · have htrace := traceInv_similarityScan image reference metric search threshold queues turns
    rw [similarityCalls, if_neg hgate]
    exact ⟨htrace.metric, htrace.offsetX, htrace.offsetY⟩

end Returned

section Exact

variable {image reference : Image} {metric : MetricType} {search : SearchCollaborators}
  {threshold : EReal} {queues : List (List ℕ)}

theorem queuedCalls_perm_candidates (hW : image.columns < 2 ^ 63)
    (hw : reference.columns < 2 ^ 63) (hH : image.rows < 2 ^ 63) (hh : reference.rows < 2 ^ 63)
    (hsplit : queues.flatten.Perm (List.range (searchRows image reference))) :
    (queuedCalls (searchColumns image reference) queues.flatten).Perm
      (scanCandidates (image.columns + 1 - reference.columns) (image.rows + 1 - reference.rows)) := by
  rw [← searchColumns_eq hW hw, ← searchRows_eq hH hh, ← queuedCalls_range]
  exact hsplit.flatMap_right _

/-- For sizes below `2^63` and a static split of the offset rows among the workers, a
finished run without a failure, from a threshold below `MagickMaximumValue` that no
candidate scores at or below, returns the same confidence map under every interleaving:
the confidence of each offset's score where the reference fits inside the image, and
nothing elsewhere. -/
theorem similarityMetricImage_confidence_map (turns : List ℕ) (hW : image.columns < 2 ^ 63)
    (hw : reference.columns < 2 ^ 63) (hH : image.rows < 2 ^ 63) (hh : reference.rows < 2 ^ 63)
    (hsplit : queues.flatten.Perm (List.range (searchRows image reference)))
    (hmorph : validateImageMorphology image reference = true) (hclone : search.cloneOk = true)
    (hok : ∀ y, search.rowOk y = true ∧ search.syncOk y = true)
    (hthr : threshold < (magickMaximumValue : EReal))
    (hscore : ∀ c ∈ scanCandidates (image.columns + 1 - reference.columns)
        (image.rows + 1 - reference.rows),
      threshold < similarityScore image reference metric search c.1 c.2)
    (hfin : (similarityScan image reference metric search threshold queues turns).Finished
      queues.length) :
    (similarityMetricImage image reference metric search threshold queues turns).1 =
      some fun x y => if x + reference.columns ≤ image.columns ∧ y + reference.rows ≤ image.rows
        then some (confidencePixel metric (similarityScore image reference metric search x y))
        else none := by
  have hcands := queuedCalls_perm_candidates hW hw hH hh hsplit
  have hmap : ∀ x y, (similarityScan image reference metric search threshold queues turns).shared.map
      x y = if (x, y) ∈ queuedCalls (searchColumns image reference) queues.flatten then
        some (similarityScore image reference metric search x y) else none :=
    runScan_map_of_exact (searchEnv image reference metric search threshold) hok hthr
      (fun c hc => hscore c (hcands.subset hc)) hfin
  have hstatus : (similarityScan image reference metric search threshold queues turns).shared.status =
      true :=
    runScan_status _ hok turns _ rfl
  rw [similarityMetricImage_of_gate _ _ _ _ _ _ _ hmorph hclone]
  simp only [hstatus, if_true]
  congr 1
  funext x y
  rw [hmap x y]
  have hfit : (x, y) ∈ queuedCalls (searchColumns image reference) queues.flatten ↔
      x + reference.columns ≤ image.columns ∧ y + reference.rows ≤ image.rows := by
    rw [hcands.mem_iff, mem_scanCandidates]
    have := reference.columns_pos
    have := reference.rows_pos
    constructor <;> rintro ⟨h1, h2⟩ <;> constructor <;> simp only at h1 h2 ⊢ <;> omega
  simp only [hfit]
  split_ifs <;> rfl

end Exact

/-! ### Two workers, one candidate each -/

theorem similarityScore_twoRow_gt (x y : ℕ) :
    defaultSimilarityThreshold <
      similarityScore (twoRowImage 1 quantumRange 0 one_pos) (redPixelImage 0 0) .absoluteErrorMetric okSearch x y := by
  rw [twoRowImage, similarityScore_redImage]
  refine defaultSimilarityThreshold_lt_zero.trans_le ?_
  split_ifs <;> simp

/-- After the lost update of the best pair, the map still holds the score 0 of the
candidate of row 1, written by the worker that scored it. -/
theorem similarityScan_lostUpdateTurns_map :
    (similarityScan (twoRowImage 1 quantumRange 0 one_pos) (redPixelImage 0 0) .absoluteErrorMetric okSearch
      defaultSimilarityThreshold [[0], [1]] (List.replicate 7 0 ++ List.replicate 14 1 ++ List.replicate 7 0)).shared.map 0 1 = some 0 := by
  have hcols : searchColumns (twoRowImage 1 quantumRange 0 one_pos) (redPixelImage 0 0) = 1 := by
    rw [searchColumns_eq (by norm_num [twoRowImage, redImage]) (by norm_num [redPixelImage])]
    rfl
  rw [similarityScan, runScan_map_of_exact _ (fun _ => ⟨rfl, rfl⟩)
    ((defaultSimilarityThreshold_lt_zero.trans zero_lt_one).trans magickMaximumValue_gt_one)
    (fun c _ => similarityScore_twoRow_gt c.1 c.2) similarityMetricImage_lostUpdateTurns.1]
  simp only [searchEnv, hcols, similarityScore_twoRow_black]
  rfl

theorem similarityMetricImage_map_sound_lostUpdate :
    (similarityMetricImage (twoRowImage 1 quantumRange 0 one_pos) (redPixelImage 0 0) .absoluteErrorMetric okSearch
        defaultSimilarityThreshold [[0], [1]] (List.replicate 7 0 ++ List.replicate 14 1 ++ List.replicate 7 0)).1 =
      some (fun x y => ((similarityScan (twoRowImage 1 quantumRange 0 one_pos) (redPixelImage 0 0) .absoluteErrorMetric
        okSearch defaultSimilarityThreshold [[0], [1]] (List.replicate 7 0 ++ List.replicate 14 1 ++ List.replicate 7 0)).shared.map x y).map
          (confidencePixel .absoluteErrorMetric)) ∧
    ((similarityScan (twoRowImage 1 quantumRange 0 one_pos) (redPixelImage 0 0) .absoluteErrorMetric okSearch
        defaultSimilarityThreshold [[0], [1]] (List.replicate 7 0 ++ List.replicate 14 1 ++ List.replicate 7 0)).shared.map 0 1).map
          (confidencePixel .absoluteErrorMetric) = some (confidencePixel .absoluteErrorMetric 0) ∧
    (0, 1) ∈ similarityCalls (twoRowImage 1 quantumRange 0 one_pos) (redPixelImage 0 0) .absoluteErrorMetric okSearch
        defaultSimilarityThreshold [[0], [1]] (List.replicate 7 0 ++ List.replicate 14 1 ++ List.replicate 7 0) ∧
    confidencePixel .absoluteErrorMetric 0 = confidencePixel .absoluteErrorMetric
        (similarityScore (twoRowImage 1 quantumRange 0 one_pos) (redPixelImage 0 0) .absoluteErrorMetric okSearch 0 1) := by
  have hstatus : (similarityScan (twoRowImage 1 quantumRange 0 one_pos) (redPixelImage 0 0) .absoluteErrorMetric okSearch
      defaultSimilarityThreshold [[0], [1]] (List.replicate 7 0 ++ List.replicate 14 1 ++ List.replicate 7 0)).shared.status = true :=
    runScan_status _ (fun _ => ⟨rfl, rfl⟩) _ _ rfl
  have hm : (similarityMetricImage (twoRowImage 1 quantumRange 0 one_pos) (redPixelImage 0 0) .absoluteErrorMetric okSearch
      defaultSimilarityThreshold [[0], [1]] (List.replicate 7 0 ++ List.replicate 14 1 ++ List.replicate 7 0)).1 =
      some (fun x y => ((similarityScan (twoRowImage 1 quantumRange 0 one_pos) (redPixelImage 0 0) .absoluteErrorMetric
        okSearch defaultSimilarityThreshold [[0], [1]] (List.replicate 7 0 ++ List.replicate 14 1 ++ List.replicate 7 0)).shared.map x y).map
          (confidencePixel .absoluteErrorMetric)) := by
    rw [similarityMetricImage_of_gate (twoRowImage 1 quantumRange 0 one_pos) (redPixelImage 0 0) _ okSearch _ _ _ rfl rfl]
    simp only [hstatus, if_true]
  have hv : ((similarityScan (twoRowImage 1 quantumRange 0 one_pos) (redPixelImage 0 0) .absoluteErrorMetric okSearch
      defaultSimilarityThreshold [[0], [1]] (List.replicate 7 0 ++ List.replicate 14 1 ++ List.replicate 7 0)).shared.map 0 1).map
        (confidencePixel .absoluteErrorMetric) = some (confidencePixel .absoluteErrorMetric 0) := by
    rw [similarityScan_lostUpdateTurns_map, Option.map_some']
  exact ⟨hm, hv, similarityMetricImage_map_sound _ _ _ _ _ _ _ hm hv⟩

theorem similarityMetricImage_confidence_map_lostUpdate :
    (twoRowImage 1 quantumRange 0 one_pos).columns < 2 ^ 63 ∧ (redPixelImage 0 0).columns < 2 ^ 63 ∧
    (twoRowImage 1 quantumRange 0 one_pos).rows < 2 ^ 63 ∧ (redPixelImage 0 0).rows < 2 ^ 63 ∧
    [[0], [1]].flatten.Perm (List.range (searchRows (twoRowImage 1 quantumRange 0 one_pos) (redPixelImage 0 0))) ∧
    validateImageMorphology (twoRowImage 1 quantumRange 0 one_pos) (redPixelImage 0 0) = true ∧ okSearch.cloneOk = true ∧
    (∀ y, okSearch.rowOk y = true ∧ okSearch.syncOk y = true) ∧
    defaultSimilarityThreshold < (magickMaximumValue : EReal) ∧
    (∀ c ∈ scanCandidates ((twoRowImage 1 quantumRange 0 one_pos).columns + 1 - (redPixelImage 0 0).columns)
        ((twoRowImage 1 quantumRange 0 one_pos).rows + 1 - (redPixelImage 0 0).rows),
      defaultSimilarityThreshold <
        similarityScore (twoRowImage 1 quantumRange 0 one_pos) (redPixelImage 0 0) .absoluteErrorMetric okSearch c.1 c.2) ∧
    (similarityScan (twoRowImage 1 quantumRange 0 one_pos) (redPixelImage 0 0) .absoluteErrorMetric okSearch
      defaultSimilarityThreshold [[0], [1]] (List.replicate 7 0 ++ List.replicate 14 1 ++ List.replicate 7 0)).Finished [[0], [1]].length ∧
    (similarityMetricImage (twoRowImage 1 quantumRange 0 one_pos) (redPixelImage 0 0) .absoluteErrorMetric okSearch
        defaultSimilarityThreshold [[0], [1]] (List.replicate 7 0 ++ List.replicate 14 1 ++ List.replicate 7 0)).1 =
      some fun x y => if x + (redPixelImage 0 0).columns ≤ (twoRowImage 1 quantumRange 0 one_pos).columns ∧
          y + (redPixelImage 0 0).rows ≤ (twoRowImage 1 quantumRange 0 one_pos).rows
        then some (confidencePixel .absoluteErrorMetric (similarityScore (twoRowImage 1 quantumRange 0 one_pos)
          (redPixelImage 0 0) .absoluteErrorMetric okSearch x y))
        else none := by
  have hsize : (twoRowImage 1 quantumRange 0 one_pos).columns < 2 ^ 63 ∧ (redPixelImage 0 0).columns < 2 ^ 63 ∧
      (twoRowImage 1 quantumRange 0 one_pos).rows < 2 ^ 63 ∧ (redPixelImage 0 0).rows < 2 ^ 63 := by
    norm_num [twoRowImage, redImage, redPixelImage]
  have hsplit : [[0], [1]].flatten.Perm (List.range (searchRows (twoRowImage 1 quantumRange 0 one_pos) (redPixelImage 0 0))) := by
    rw [searchRows_eq hsize.2.2.1 hsize.2.2.2]
    rfl
  have hthr : defaultSimilarityThreshold < (magickMaximumValue : EReal) :=
    (defaultSimilarityThreshold_lt_zero.trans zero_lt_one).trans magickMaximumValue_gt_one
  have hscore : ∀ c ∈ scanCandidates ((twoRowImage 1 quantumRange 0 one_pos).columns + 1 - (redPixelImage 0 0).columns)
      ((twoRowImage 1 quantumRange 0 one_pos).rows + 1 - (redPixelImage 0 0).rows), defaultSimilarityThreshold <
        similarityScore (twoRowImage 1 quantumRange 0 one_pos) (redPixelImage 0 0) .absoluteErrorMetric okSearch c.1 c.2 :=
    fun c _ => similarityScore_twoRow_gt c.1 c.2
  have hfin := similarityMetricImage_lostUpdateTurns.1
  exact ⟨hsize.1, hsize.2.1, hsize.2.2.1, hsize.2.2.2, hsplit, rfl, rfl, fun _ => ⟨rfl, rfl⟩, hthr,
    hscore, hfin, similarityMetricImage_confidence_map _ hsize.1 hsize.2.1 hsize.2.2.1 hsize.2.2.2
      hsplit rfl rfl (fun _ => ⟨rfl, rfl⟩) hthr hscore hfin⟩

end MagickCompare

end
