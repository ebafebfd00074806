import MagickCompare.MetricLaws
/-! What the entry points return. `GetImageChannelDistortion` returns `MagickTrue`,
`GetImageChannelDistortions` a vector and `CompareImageChannels` a canvas exactly when the
morphology check passes (or is skipped for the perceptual hash) and the metric completes:
every read it needs succeeds (each row of the comparison area, and the statistics or
moments of both images from their providers) and, for the cross correlation, the progress
monitor lets it go on after every row. No schedule hides a failure, and none invents one.
A canvas of two images that agree has no highlight. -/

noncomputable section

namespace MagickCompare

/-- What a metric needs to return `MagickTrue`: the rows of the comparison area read, for
the pixel metrics; the statistics of both images, then each row read and let through by
the progress monitor, for the cross correlation; the moments of both images, for the
perceptual hash. -/
def MetricCompletes (image reconstruct : Image) (metric : MetricType) (env : Collaborators) :
    Prop :=
  match metric with
  | .perceptualHashErrorMetric =>
    (env.perceptualHash image).isSome ∧ (env.perceptualHash reconstruct).isSome
  | .normalizedCrossCorrelationErrorMetric | .undefinedErrorMetric =>
    (env.statistics image).isSome ∧ (env.statistics reconstruct).isSome ∧
      ∀ y < areaRows image reconstruct, env.rowOk y = true ∧ env.progressOk y = true
  | _ => ∀ y < areaRows image reconstruct, env.rowOk y = true

section Status

variable (image reconstruct : Image) (channel : ChannelType) (metric : MetricType)
  (env : Collaborators)

theorem range_rowOk_iff (rowOk : ℕ → Bool) (rows : ℕ) :
    (∀ y ∈ List.range rows, rowOk y = true) ↔ ∀ y < rows, rowOk y = true := by
  simp only [List.mem_range]

theorem channelDistortion_status_iff (hsched : env.schedule.Complete (areaRows image reconstruct)) :
    (channelDistortion image reconstruct channel metric env).1 = true ↔
      MetricCompletes image reconstruct metric env := by
  have hrows := fun {α : Type} (fold : α → ℕ → α) (init : α) =>
    runRows_trace_fst_iff env.rowOk fold hsched init
  cases metric with
  | perceptualHashErrorMetric =>
    simp only [channelDistortion, realSlots, getPerceptualHashDistortion, MetricCompletes]
    rcases env.perceptualHash image with _ | _ <;> rcases env.perceptualHash reconstruct with _ | _ <;>
      simp
  | normalizedCrossCorrelationErrorMetric | undefinedErrorMetric =>
    simp only [channelDistortion, realSlots, getNormalizedCrossCorrelationDistortion,
      MetricCompletes]
    rcases env.statistics image with _ | _ <;> rcases env.statistics reconstruct with _ | _ <;>
      simp [runMonitoredRows_fst_iff]
  | meanErrorPerPixelMetric =>
    simp only [channelDistortion, realSlots, getMeanErrorPerPixel, MetricCompletes]
    rw [runRows_fst_iff, range_rowOk_iff]
  | _ =>
    simp only [channelDistortion, realSlots, getAbsoluteDistortion, getFuzzDistortion,
      getMeanAbsoluteDistortion, getMeanSquaredDistortion, getPeakAbsoluteDistortion,
      getRootMeanSquaredDistortion, getPeakSignalToNoiseRatio, ompRows, MetricCompletes]
    exact hrows _ _

def GatePasses : Prop :=
  metric = .perceptualHashErrorMetric ∨ validateImageMorphology image reconstruct = true

theorem gate_iff :
    ¬(metric ≠ .perceptualHashErrorMetric ∧ validateImageMorphology image reconstruct = false) ↔
      GatePasses image reconstruct metric := by
  rw [GatePasses, ← Bool.not_eq_false]
  tauto

theorem getImageChannelDistortion_status_iff
    (hsched : env.schedule.Complete (areaRows image reconstruct)) :
    (getImageChannelDistortion image reconstruct channel metric env).1 = true ↔
      GatePasses image reconstruct metric ∧ MetricCompletes image reconstruct metric env := by
  rw [← gate_iff, ← channelDistortion_status_iff image reconstruct channel metric env hsched,
    getImageChannelDistortion]
  split_ifs with hgate <;> simp [hgate]

theorem getImageChannelDistortions_isSome_iff
    (hsched : env.schedule.Complete (areaRows image reconstruct)) :
    (getImageChannelDistortions image reconstruct metric env).isSome ↔
      GatePasses image reconstruct metric ∧ MetricCompletes image reconstruct metric env := by
  rw [← gate_iff, ← channelDistortion_status_iff image reconstruct compositeChannels metric env hsched,
    getImageChannelDistortions]
  split_ifs <;> simp_all

/-- The renderer returns a canvas when the metric call succeeds, its clones succeed and
every canvas row is read. -/
theorem compareImageChannels_isSome_iff (isMagickColorSimilar : PixelPacket → PixelPacket → Bool)
    (renv : RendererCollaborators) (hrender : renv.schedule.Complete (areaRows image reconstruct)) :
    (compareImageChannels isMagickColorSimilar image reconstruct channel metric env renv).1.isSome ↔
      (getImageChannelDistortion image reconstruct channel metric env).1 = true ∧
        renv.cloneOk = true ∧ ∀ y < areaRows image reconstruct, renv.rowOk y = true := by
  rw [← runRows_trace_fst_iff renv.rowOk
    (paintRow isMagickColorSimilar image reconstruct channel (areaColumns image reconstruct))
    hrender fun _ _ => none]
  simp only [compareImageChannels]
  split_ifs with hgate hfail h
  · simp [getImageChannelDistortion, hgate]
  · rcases hfail with hf | hf <;> simp [hf]
  all_goals
    simp only [not_or, Bool.not_eq_false] at hfail
    simp [hfail, h]

/-- Whatever the schedules, whatever fails and whatever the progress monitor answers,
`GetImageChannelDistortion` returns `MagickTrue`, `GetImageChannelDistortions` a vector and
`CompareImageChannels` a canvas exactly when the morphology gate passes and the metric
completes; the canvas needs besides its clones and every canvas row. -/
theorem engine_status_iff (isMagickColorSimilar : PixelPacket → PixelPacket → Bool)
    (renv : RendererCollaborators) (hsched : env.schedule.Complete (areaRows image reconstruct))
    (hrender : renv.schedule.Complete (areaRows image reconstruct)) :
    ((getImageChannelDistortion image reconstruct channel metric env).1 = true ↔
      GatePasses image reconstruct metric ∧ MetricCompletes image reconstruct metric env) ∧
    ((getImageChannelDistortions image reconstruct metric env).isSome ↔
      GatePasses image reconstruct metric ∧ MetricCompletes image reconstruct metric env) ∧
    ((compareImageChannels isMagickColorSimilar image reconstruct channel metric env renv).1.isSome ↔
      (GatePasses image reconstruct metric ∧ MetricCompletes image reconstruct metric env) ∧
        renv.cloneOk = true ∧ ∀ y < areaRows image reconstruct, renv.rowOk y = true) := by
  have hstatus := getImageChannelDistortion_status_iff image reconstruct channel metric env hsched
  exact ⟨hstatus, getImageChannelDistortions_isSome_iff image reconstruct metric env hsched,
    (compareImageChannels_isSome_iff image reconstruct channel metric env isMagickColorSimilar renv
      hrender).trans (and_congr_left' hstatus)⟩

end Status

section Canvas

variable (isMagickColorSimilar : PixelPacket → PixelPacket → Bool) (image reconstruct : Image)
  (channel : ChannelType)

/-- A pixel where the two images agree is never highlighted, under any mask, when
`IsMagickColorSimilar` holds of a pixel and itself. -/
theorem highlightDifference_of_eq (hsimilar : ∀ p, isMagickColorSimilar p p = true) {x y : ℕ}
    (hxy : image.pixel x y = reconstruct.pixel x y) :
    highlightDifference isMagickColorSimilar image reconstruct channel x y = false := by
  have hfuzz : 0 ≤ getFuzzyColorDistance image reconstruct := sq_nonneg _
  simp only [highlightDifference, ← hxy]
  split_ifs
  · simp [hsimilar]
  · refine List.any_eq_false.mpr fun c _ => ?_
    have hzero : channelDelta image image.matte 0 (image.pixel x y) (image.pixel x y) c = 0 := by
      cases c <;> simp [channelDelta]
    simp [hzero, hfuzz]

/-- Two images that agree on the comparison area get no highlight: every canvas
`CompareImageChannels` returns is the lowlight colour over the area and empty beyond it, for
every mask, metric and schedule, when `IsMagickColorSimilar` holds of a pixel and
itself. -/
theorem compareImageChannels_agrees_lowlight (metric : MetricType) (env : Collaborators)
    (renv : RendererCollaborators) (hsimilar : ∀ p, isMagickColorSimilar p p = true)
    (h : image.Agrees reconstruct) (hrender : renv.schedule.Complete (areaRows image reconstruct))
    {canvas : ℕ → ℕ → Option Paint}
    (hcanvas : (compareImageChannels isMagickColorSimilar image reconstruct channel metric env
      renv).1 = some canvas) (x y : ℕ) :
    canvas x y = if x < areaColumns image reconstruct ∧ y < areaRows image reconstruct then
      some .lowlight else none := by
  simp only [compareImageChannels] at hcanvas
  split_ifs at hcanvas with h1 h2 h3
  cases hcanvas
  have hmem : y ∈ renv.schedule.trace ↔ y < areaRows image reconstruct :=
    hrender.trace_perm.mem_iff.trans List.mem_range
  rw [(runRows_true _ _ h3).2, foldl_paintRow]
  by_cases hin : x < areaColumns image reconstruct ∧ y < areaRows image reconstruct
  · rw [if_pos ⟨hmem.mpr hin.2, hin.1⟩, if_pos hin,
      highlightDifference_of_eq _ _ _ _ hsimilar (h.pixel y hin.2 x hin.1), if_neg Bool.false_ne_true]
  · rw [if_neg fun h' => hin ⟨h'.2, hmem.mp h'.1⟩, if_neg hin]

end Canvas

theorem compareImageChannels_redPixel_self :
    (compareImageChannels (fun _ _ => true) (redPixelImage 2 3) (redPixelImage 2 3) allChannels
      .perceptualHashErrorMetric oneRowCollaborators oneRowRenderer).1 =
        some (paintRow (fun _ _ => true) (redPixelImage 2 3) (redPixelImage 2 3) allChannels 1
          (fun _ _ => none) 0) := by
  simp [compareImageChannels, getImageChannelDistortion, channelDistortion,
    getPerceptualHashDistortion, realSlots, oneRowCollaborators, oneRowRenderer, runRows,
    rowTrace_single, rowStep]
  exact ⟨rfl, rfl⟩

theorem compareImageChannels_agrees_lowlight_redPixel :
    (∀ p, (fun _ _ => true : PixelPacket → PixelPacket → Bool) p p = true) ∧
    (redPixelImage 2 3).Agrees (redPixelImage 2 3) ∧
    oneRowRenderer.schedule.Complete (areaRows (redPixelImage 2 3) (redPixelImage 2 3)) ∧
    (compareImageChannels (fun _ _ => true) (redPixelImage 2 3) (redPixelImage 2 3) allChannels
      .perceptualHashErrorMetric oneRowCollaborators oneRowRenderer).1 =
        some (paintRow (fun _ _ => true) (redPixelImage 2 3) (redPixelImage 2 3) allChannels 1
          (fun _ _ => none) 0) ∧
    ∀ x y, paintRow (fun _ _ => true) (redPixelImage 2 3) (redPixelImage 2 3) allChannels 1
        (fun _ _ => none) 0 x y =
      if x < areaColumns (redPixelImage 2 3) (redPixelImage 2 3) ∧
        y < areaRows (redPixelImage 2 3) (redPixelImage 2 3) then some .lowlight else none :=
  have hagree : (redPixelImage 2 3).Agrees (redPixelImage 2 3) := ⟨rfl, rfl, fun _ _ _ _ => rfl⟩
  ⟨fun _ => rfl, hagree, RowSchedule.single_complete 1, compareImageChannels_redPixel_self,
    compareImageChannels_agrees_lowlight _ _ _ allChannels .perceptualHashErrorMetric
      oneRowCollaborators oneRowRenderer (fun _ => rfl) hagree (RowSchedule.single_complete 1)
      compareImageChannels_redPixel_self⟩

/-- One thread, every read and both statistics succeeding, and a progress monitor that
cancels after the first row. -/
def cancelledCollaborators : Collaborators :=
  ⟨.single 1, fun _ => true, fun _ => false, fun _ => some fun _ => ⟨0, 0⟩, fun _ => none⟩

/-- The cross correlation of a one-row pair whose monitor cancels after that row returns
`MagickFalse` although every read succeeds, and so does every entry point. -/
theorem engine_status_iff_cancelled :
    cancelledCollaborators.schedule.Complete (areaRows (redPixelImage 2 3) (redPixelImage 2 0)) ∧
    oneRowRenderer.schedule.Complete (areaRows (redPixelImage 2 3) (redPixelImage 2 0)) ∧
    (getImageChannelDistortion (redPixelImage 2 3) (redPixelImage 2 0) allChannels
        .normalizedCrossCorrelationErrorMetric cancelledCollaborators).1 = false ∧
    ((getImageChannelDistortion (redPixelImage 2 3) (redPixelImage 2 0) allChannels
        .normalizedCrossCorrelationErrorMetric cancelledCollaborators).1 = true ↔
      GatePasses (redPixelImage 2 3) (redPixelImage 2 0) .normalizedCrossCorrelationErrorMetric ∧
        MetricCompletes (redPixelImage 2 3) (redPixelImage 2 0)
          .normalizedCrossCorrelationErrorMetric cancelledCollaborators) ∧
    ((getImageChannelDistortions (redPixelImage 2 3) (redPixelImage 2 0)
        .normalizedCrossCorrelationErrorMetric cancelledCollaborators).isSome ↔
      GatePasses (redPixelImage 2 3) (redPixelImage 2 0) .normalizedCrossCorrelationErrorMetric ∧
        MetricCompletes (redPixelImage 2 3) (redPixelImage 2 0)
          .normalizedCrossCorrelationErrorMetric cancelledCollaborators) ∧
    ((compareImageChannels (fun _ _ => true) (redPixelImage 2 3) (redPixelImage 2 0) allChannels
        .normalizedCrossCorrelationErrorMetric cancelledCollaborators oneRowRenderer).1.isSome ↔
      (GatePasses (redPixelImage 2 3) (redPixelImage 2 0) .normalizedCrossCorrelationErrorMetric ∧
        MetricCompletes (redPixelImage 2 3) (redPixelImage 2 0)
          .normalizedCrossCorrelationErrorMetric cancelledCollaborators) ∧
        oneRowRenderer.cloneOk = true ∧
          ∀ y < areaRows (redPixelImage 2 3) (redPixelImage 2 0), oneRowRenderer.rowOk y = true) :=
  have h := engine_status_iff (redPixelImage 2 3) (redPixelImage 2 0) allChannels
    .normalizedCrossCorrelationErrorMetric cancelledCollaborators (fun _ _ => true) oneRowRenderer
    (RowSchedule.single_complete 1) (RowSchedule.single_complete 1)
  ⟨RowSchedule.single_complete 1, RowSchedule.single_complete 1,
    Bool.eq_false_iff.mpr fun ht => absurd ((h.1.mp ht).2.2.2 0 one_pos).2 Bool.false_ne_true, h⟩

end MagickCompare

end
