import MagickCompare.Correlation
import MagickCompare.MeanError
/-! `GetImageChannelDistortion`, `GetImageDistortion` and `GetImageChannelDistortions`:
the morphology gate, the metric switch, and what is published.

The results here are about the row loop as a concurrent program: the vector a metric
returns does not depend on how the rows were split among workers or interleaved, and a
call that returns `MagickTrue` returns the value of the failure-free single-threaded
run. -/

noncomputable section

namespace MagickCompare

/-- What the engine's collaborators do in one call: how the OpenMP runtime schedules the
row loop, which row reads of the pixel source succeed, whether the progress monitor lets the
cross-correlation loop go on after each row (always, for an image without one), and what
the statistics and perceptual-hash providers return. -/
structure Collaborators where
  schedule : RowSchedule
  rowOk : ℕ → Bool
  progressOk : ℕ → Bool
  statistics : Image → Option (Slot → ChannelStatistics)
  perceptualHash : Image → Option (Slot → ChannelPerceptualHash)

/-- The same providers, one thread, no failed read and no monitor that stops the loop. -/
def Collaborators.failureFree (env : Collaborators) (rows : ℕ) : Collaborators :=
  { env with schedule := .single rows, rowOk := fun _ => true, progressOk := fun _ => true }

def realSlots (r : Bool × DistortionVector) : Bool × (Slot → EReal) :=
  (r.1, fun c => (r.2 c : EReal))

/-- The metric switch; `UndefinedErrorMetric` falls to the `default:` label of the
cross-correlation case. -/
def channelDistortion (image reconstruct : Image) (channel : ChannelType)
    (metric : MetricType) (env : Collaborators) : Bool × (Slot → EReal) :=
  match metric with
  | .absoluteErrorMetric =>
    realSlots (getAbsoluteDistortion image reconstruct channel env.schedule env.rowOk)
  | .fuzzErrorMetric =>
    realSlots (getFuzzDistortion image reconstruct channel env.schedule env.rowOk)
  | .meanAbsoluteErrorMetric =>
    realSlots (getMeanAbsoluteDistortion image reconstruct channel env.schedule env.rowOk)
  | .meanErrorPerPixelMetric =>
    let r := getMeanErrorPerPixel image reconstruct channel env.rowOk
    realSlots (r.1, r.2.1)
  | .meanSquaredErrorMetric =>
    realSlots (getMeanSquaredDistortion image reconstruct channel env.schedule env.rowOk)
  | .normalizedCrossCorrelationErrorMetric | .undefinedErrorMetric =>
    realSlots (getNormalizedCrossCorrelationDistortion image reconstruct channel
      env.statistics env.rowOk env.progressOk)
  | .peakAbsoluteErrorMetric =>
    realSlots (getPeakAbsoluteDistortion image reconstruct channel env.schedule env.rowOk)
  | .peakSignalToNoiseRatioMetric =>
    getPeakSignalToNoiseRatio image reconstruct channel env.schedule env.rowOk
  | .perceptualHashErrorMetric =>
    realSlots (getPerceptualHashDistortion image reconstruct channel env.perceptualHash)
  | .rootMeanSquaredErrorMetric =>
    realSlots (getRootMeanSquaredDistortion image reconstruct channel env.schedule env.rowOk)

/-- `*distortion` is set to 0.0, the morphology gate may throw (`MagickFalse`), and then
the composite slot is published whatever status the metric returned. -/
def getImageChannelDistortion (image reconstruct : Image) (channel : ChannelType)
    (metric : MetricType) (env : Collaborators) : Bool × EReal :=
  if metric ≠ .perceptualHashErrorMetric ∧ validateImageMorphology image reconstruct = false then
    (false, 0)
  else
    let r := channelDistortion image reconstruct channel metric env
    (r.1, r.2 .composite)

def getImageDistortion (image reconstruct : Image) (metric : MetricType)
    (env : Collaborators) : Bool × EReal :=
  getImageChannelDistortion image reconstruct compositeChannels metric env

/-- The vector of every slot, or `NULL` on a mismatch or a failed metric. -/
def getImageChannelDistortions (image reconstruct : Image) (metric : MetricType)
    (env : Collaborators) : Option (Slot → EReal) :=
  if metric ≠ .perceptualHashErrorMetric ∧ validateImageMorphology image reconstruct = false then
    none
  else
    let r := channelDistortion image reconstruct compositeChannels metric env
    if r.1 then some r.2 else none

/-! ### The row loop under any schedule -/

section Schedules

variable {rows : ℕ} {sched : RowSchedule} {rowOk : ℕ → Bool}
  {merge : DistortionVector → DistortionVector → DistortionVector}
  {row : ℕ → DistortionVector}

theorem runRows_of_status {α : Type*} {f : α → ℕ → α} {order : List ℕ} {init : α}
    (h : (runRows rowOk f order init).1 = true) :
    runRows rowOk f order init = runRows (fun _ => true) f order init := by
  rw [runRows_of_ok _ _ (fun _ _ => rfl), ← (runRows_true rowOk f h).2]
  exact Prod.ext h rfl

/-- The folds of the critical section commute: any order gives the same vector. -/
theorem ompRows_perm (hc : sched.Complete rows)
    (hcomm : ∀ d a b, merge (merge d a) b = merge (merge d b) a) :
    ompRows sched (fun _ => true) merge row = ompRows (.single rows) (fun _ => true) merge row := by
  simp only [ompRows, runRows_of_ok _ _ (fun _ _ => rfl), rowTrace_single]
  rw [hc.trace_perm.foldl_eq' (fun _ _ _ _ _ => hcomm _ _ _)]

theorem ompRows_of_status (hc : sched.Complete rows)
    (hcomm : ∀ d a b, merge (merge d a) b = merge (merge d b) a)
    (h : (ompRows sched rowOk merge row).1 = true) :
    ompRows sched rowOk merge row = ompRows (.single rows) (fun _ => true) merge row :=
  (runRows_of_status h).trans (ompRows_perm hc hcomm)

theorem ompRows_of_rowOk (hc : sched.Complete rows)
    (hcomm : ∀ d a b, merge (merge d a) b = merge (merge d b) a)
    (hok : ∀ y < rows, rowOk y = true) :
    ompRows sched rowOk merge row = ompRows (.single rows) rowOk merge row := by
  have hsched : ∀ y ∈ sched.trace, rowOk y = true := fun y hy =>
    hok y (List.mem_range.mp (hc.trace_perm.subset hy))
  have hsingle : ∀ y ∈ (RowSchedule.single rows).trace, rowOk y = true := fun y hy =>
    hok y (List.mem_range.mp (by rwa [rowTrace_single] at hy))
  rw [ompRows, runRows_of_ok _ _ hsched, ← runRows_of_ok (fun _ => true) _ (fun _ _ => rfl),
    ← ompRows, ompRows_perm hc hcomm, ompRows, ompRows, runRows_of_ok _ _ hsingle,
    runRows_of_ok _ _ (fun _ _ => rfl)]

end Schedules

theorem add_fold_comm (d a b : DistortionVector) : d + a + b = d + b + a := add_right_comm d a b

theorem maxFold_eq_sup (d cd : DistortionVector) : maxFold d cd = d ⊔ cd := by
  funext i
  simp only [maxFold, Pi.sup_apply, gt_iff_lt]
  split_ifs with h
  · exact (sup_of_le_right h.le).symm
  · exact (sup_of_le_left (not_lt.mp h)).symm

theorem maxFold_comm (d a b : DistortionVector) :
    maxFold (maxFold d a) b = maxFold (maxFold d b) a := by
  simp only [maxFold_eq_sup, sup_right_comm]

/-! ### Every metric under any schedule -/

section Metrics

variable (image reconstruct : Image) (channel : ChannelType) (env : Collaborators)

theorem ompRows_add_of_rowOk {rows : ℕ} (hc : env.schedule.Complete rows)
    (hok : ∀ y < rows, env.rowOk y = true) (row : ℕ → DistortionVector) :
    ompRows env.schedule env.rowOk (· + ·) row = ompRows (.single rows) env.rowOk (· + ·) row :=
  ompRows_of_rowOk hc add_fold_comm hok

theorem ompRows_max_of_rowOk {rows : ℕ} (hc : env.schedule.Complete rows)
    (hok : ∀ y < rows, env.rowOk y = true) (row : ℕ → DistortionVector) :
    ompRows env.schedule env.rowOk maxFold row = ompRows (.single rows) env.rowOk maxFold row :=
  ompRows_of_rowOk hc maxFold_comm hok

/-- Every metric's vector is the same for every split of the rows among workers and
every order of the critical folds, when no row read fails. -/
theorem channelDistortion_schedule_independent (metric : MetricType)
    (hsched : env.schedule.Complete (areaRows image reconstruct))
    (hok : ∀ y < areaRows image reconstruct, env.rowOk y = true) :
    channelDistortion image reconstruct channel metric env =
      channelDistortion image reconstruct channel metric
        { env with schedule := .single (areaRows image reconstruct) } := by
  have hadd := ompRows_add_of_rowOk env hsched hok
  have hmax := ompRows_max_of_rowOk env hsched hok
  cases metric <;>
    simp only [channelDistortion, getAbsoluteDistortion, getFuzzDistortion,
      getMeanAbsoluteDistortion, getMeanSquaredDistortion, getPeakAbsoluteDistortion,
      getRootMeanSquaredDistortion, getPeakSignalToNoiseRatio, hadd, hmax]

/-- A one-column, two-row opaque image: red `red`, every other channel 0, no fuzz. -/
def redColumnImage (red : ℝ) : Image :=
  ⟨1, 2, false, .otherColorspace, 0, fun _ _ => ⟨red, 0, 0, 0, 0⟩, one_pos, two_pos⟩

/-- Two workers with one row each; the worker holding the second row runs first. -/
def swappedRows : RowSchedule := ⟨[[1], [0]], [0, 1]⟩

theorem swappedRows_complete : swappedRows.Complete 2 := ⟨by decide, by decide⟩

def twoWorkers : Collaborators :=
  ⟨swappedRows, fun _ => true, fun _ => true, fun _ => none, fun _ => none⟩

theorem channelDistortion_twoWorkers :
    twoWorkers.schedule.Complete (areaRows (redColumnImage 0) (redColumnImage quantumRange)) ∧
    (∀ y < areaRows (redColumnImage 0) (redColumnImage quantumRange), twoWorkers.rowOk y = true) ∧
    channelDistortion (redColumnImage 0) (redColumnImage quantumRange) allChannels
        .absoluteErrorMetric twoWorkers =
      channelDistortion (redColumnImage 0) (redColumnImage quantumRange) allChannels
        .absoluteErrorMetric
        { twoWorkers with schedule := .single (areaRows (redColumnImage 0) (redColumnImage quantumRange)) } :=
  ⟨swappedRows_complete, fun _ _ => rfl,
    channelDistortion_schedule_independent _ _ _ _ _ swappedRows_complete fun _ _ => rfl⟩

/-- A call whose metric returns `MagickTrue` returns the failure-free single-threaded
vector, for every schedule and every failure behaviour of the pixel source. -/
theorem channelDistortion_of_status (metric : MetricType)
    (hsched : env.schedule.Complete (areaRows image reconstruct))
    (h : (channelDistortion image reconstruct channel metric env).1 = true) :
    channelDistortion image reconstruct channel metric env =
      channelDistortion image reconstruct channel metric
        (env.failureFree (areaRows image reconstruct)) := by
  cases metric with
  | perceptualHashErrorMetric => rfl
  | meanErrorPerPixelMetric =>
    simp only [channelDistortion, realSlots, getMeanErrorPerPixel] at h ⊢
    rw [runRows_of_status h]; rfl
  | normalizedCrossCorrelationErrorMetric | undefinedErrorMetric =>
    simp only [channelDistortion, realSlots, getNormalizedCrossCorrelationDistortion,
      Collaborators.failureFree] at h ⊢
    revert h
    rcases env.statistics image with _ | is <;> rcases env.statistics reconstruct with _ | rs <;>
      intro h <;> simp only [Bool.false_eq_true] at h
    simp only [runMonitoredRows_of_status _ _ _ h]
  | peakAbsoluteErrorMetric =>
    simp only [channelDistortion, realSlots, getPeakAbsoluteDistortion] at h ⊢
    rw [ompRows_of_status hsched maxFold_comm h]; rfl
  | _ =>
    simp only [channelDistortion, realSlots, getAbsoluteDistortion, getFuzzDistortion,
      getMeanAbsoluteDistortion, getMeanSquaredDistortion, getRootMeanSquaredDistortion,
      getPeakSignalToNoiseRatio] at h ⊢
    rw [ompRows_of_status hsched add_fold_comm h]; rfl

/-- A call that returns `MagickTrue` publishes the failure-free single-threaded value. -/
theorem getImageChannelDistortion_of_status (metric : MetricType)
    (hsched : env.schedule.Complete (areaRows image reconstruct))
    (h : (getImageChannelDistortion image reconstruct channel metric env).1 = true) :
    getImageChannelDistortion image reconstruct channel metric env =
      getImageChannelDistortion image reconstruct channel metric
        (env.failureFree (areaRows image reconstruct)) := by
  unfold getImageChannelDistortion at h ⊢
  split_ifs at h ⊢
  rw [channelDistortion_of_status image reconstruct channel env metric hsched h]

end Metrics

end MagickCompare

end
