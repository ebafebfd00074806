import MagickCompare.Highlight
/-! Laws of the pixel-error metrics: each is nonnegative whatever fails, and each vanishes
on two images that agree on the comparison area. -/

noncomputable section

namespace MagickCompare

/-- The metrics whose value is a count, sum, mean or maximum of pixel errors. -/
def MetricType.isPixelError : MetricType → Bool
  | .absoluteErrorMetric | .fuzzErrorMetric | .meanAbsoluteErrorMetric
  | .meanErrorPerPixelMetric | .meanSquaredErrorMetric | .rootMeanSquaredErrorMetric
  | .peakAbsoluteErrorMetric => true
  | _ => false

/-- Two images that agree on the comparison area: the same matte, the same colorspace and
the same pixels. -/
structure Image.Agrees (image reconstruct : Image) : Prop where
  matte : image.matte = reconstruct.matte
  colorspace : image.colorspace = reconstruct.colorspace
  pixel : ∀ y < areaRows image reconstruct, ∀ x < areaColumns image reconstruct,
    image.pixel x y = reconstruct.pixel x y

section Nonneg

theorem update_nonneg {v : DistortionVector} (hv : 0 ≤ v) (c : Slot) {a : ℝ} (ha : 0 ≤ a) :
    0 ≤ Function.update v c a :=
  le_update_iff.mpr ⟨ha, fun j _ => hv j⟩

theorem addTerm_nonneg {v : DistortionVector} (hv : 0 ≤ v) (c : Slot) {t : ℝ} (ht : 0 ≤ t) :
    0 ≤ addTerm v c t :=
  update_nonneg (update_nonneg hv c (add_nonneg (hv c) ht)) _ (add_nonneg (hv _) ht)

theorem accumulate_nonneg {guard : Slot → Bool} {term : Slot → ℝ} (hterm : ∀ c, 0 ≤ term c)
    {v : DistortionVector} (hv : 0 ≤ v) : 0 ≤ accumulate guard term v :=
  List.foldlRecOn (motive := fun v : DistortionVector => 0 ≤ v) _ _ _ hv fun v hv c _ => by
    split_ifs
    exacts [addTerm_nonneg hv c (hterm c), hv]

theorem rowVector_nonneg {columns : ℕ} {f : ℕ → DistortionVector → DistortionVector}
    (hf : ∀ x v, 0 ≤ v → 0 ≤ f x v) : 0 ≤ rowVector columns f :=
  List.foldlRecOn (motive := fun v : DistortionVector => 0 ≤ v) _ _ _ le_rfl
    fun v hv x _ => hf x v hv

theorem ompRows_nonneg {sched : RowSchedule} {rowOk : ℕ → Bool}
    {merge : DistortionVector → DistortionVector → DistortionVector} {row : ℕ → DistortionVector}
    (hrow : ∀ y, 0 ≤ row y) (hmerge : ∀ d v, 0 ≤ d → 0 ≤ v → 0 ≤ merge d v) :
    0 ≤ (ompRows sched rowOk merge row).2 :=
  runRows_induction rowOk _ (fun d : DistortionVector => 0 ≤ d) le_rfl
    fun d y _ hd => hmerge d (row y) hd (hrow y)

theorem absolutePixel_nonneg (fuzz : ℝ) (guard : Slot → Bool) (delta : Slot → ℝ)
    {v : DistortionVector} (hv : 0 ≤ v) : 0 ≤ absolutePixel fuzz guard delta v := by
  have hb : 0 ≤ (absoluteBlocks fuzz guard delta v).2.2 :=
    List.foldlRecOn (motive := fun s : ℝ × Bool × DistortionVector => 0 ≤ s.2.2) _ _ _ hv
      fun s hs c _ => by
        simp only [absoluteStep]
        split_ifs
        exacts [update_nonneg hs c (add_nonneg (hs c) zero_le_one), hs, hs]
  simp only [absolutePixel]
  split_ifs
  exacts [update_nonneg hb _ (add_nonneg (hb _) zero_le_one), hb]

theorem maxTerm_nonneg {v : DistortionVector} (hv : 0 ≤ v) (c : Slot) {d : ℝ} (hd : 0 ≤ d) :
    0 ≤ maxTerm v c d := by
  have h1 : 0 ≤ (if d > v c then Function.update v c d else v) := by
    split_ifs
    exacts [update_nonneg hv c hd, hv]
  simp only [maxTerm]
  generalize (if d > v c then Function.update v c d else v) = w at h1 ⊢
  split_ifs
  exacts [update_nonneg h1 _ hd, h1]

theorem maxFold_nonneg {d : DistortionVector} (hd : 0 ≤ d) (v : DistortionVector) :
    0 ≤ maxFold d v := by
  rw [maxFold_eq_sup]
  exact le_sup_of_le_left hd

theorem normalizeMean_nonneg {area : ℝ} (harea : 0 ≤ area) (channels : ℕ)
    {v : DistortionVector} (hv : 0 ≤ v) : 0 ≤ normalizeMean area channels v :=
  update_nonneg (fun i => div_nonneg (hv i) harea) _
    (div_nonneg (div_nonneg (hv _) harea) (Nat.cast_nonneg _))

end Nonneg

section MetricNonneg

variable (image reconstruct : Image) (channel : ChannelType) (sched : RowSchedule)
  (rowOk : ℕ → Bool)

theorem getAbsoluteDistortion_nonneg :
    0 ≤ (getAbsoluteDistortion image reconstruct channel sched rowOk).2 :=
  ompRows_nonneg (fun _ => rowVector_nonneg fun _ _ hv => absolutePixel_nonneg _ _ _ hv)
    fun _ _ hd hv => add_nonneg hd hv

theorem getMeanAbsoluteDistortion_nonneg :
    0 ≤ (getMeanAbsoluteDistortion image reconstruct channel sched rowOk).2 :=
  normalizeMean_nonneg (by positivity) _ (ompRows_nonneg
    (fun _ => rowVector_nonneg fun _ _ hv =>
      accumulate_nonneg (fun _ => mul_nonneg quantumScale_nonneg (abs_nonneg _)) hv)
    fun _ _ hd hv => add_nonneg hd hv)

theorem getMeanSquaredDistortion_nonneg :
    0 ≤ (getMeanSquaredDistortion image reconstruct channel sched rowOk).2 :=
  normalizeMean_nonneg (by positivity) _ (ompRows_nonneg
    (fun _ => rowVector_nonneg fun _ _ hv => accumulate_nonneg (fun _ => sq_nonneg _) hv)
    fun _ _ hd hv => add_nonneg hd hv)

theorem getPeakAbsoluteDistortion_nonneg :
    0 ≤ (getPeakAbsoluteDistortion image reconstruct channel sched rowOk).2 :=
  ompRows_nonneg (fun _ => rowVector_nonneg fun _ _ hv =>
    List.foldlRecOn (motive := fun v : DistortionVector => 0 ≤ v) _ _ _ hv fun v hv c _ => by
      split_ifs
      exacts [maxTerm_nonneg hv c (mul_nonneg quantumScale_nonneg (abs_nonneg _)), hv])
    fun _ _ hd _ => maxFold_nonneg hd _

theorem getMeanErrorPerPixel_nonneg :
    0 ≤ (getMeanErrorPerPixel image reconstruct channel rowOk).2.1 :=
  runRows_induction rowOk _ (fun s : DistortionVector × ErrorSums => 0 ≤ s.1) le_rfl
    fun _ _ _ hs => List.foldlRecOn (motive := fun s : DistortionVector × ErrorSums => 0 ≤ s.1)
      _ _ _ hs fun _ hs x _ =>
        List.foldlRecOn (motive := fun s : DistortionVector × ErrorSums => 0 ≤ s.1) _ _ _ hs
          fun _ hs c _ => by
            split_ifs
            exacts [addTerm_nonneg hs c (abs_nonneg _), hs]

/-- Every pixel-error metric is nonnegative, whatever the schedule and whatever fails. -/
theorem channelDistortion_nonneg (metric : MetricType) (hmetric : metric.isPixelError = true)
    (env : Collaborators) :
    0 ≤ (channelDistortion image reconstruct channel metric env).2 .composite := by
  cases metric <;> simp only [MetricType.isPixelError, Bool.false_eq_true] at hmetric <;>
    simp only [channelDistortion, realSlots, EReal.coe_nonneg]
  · exact getAbsoluteDistortion_nonneg _ _ _ _ _ _
  · exact getMeanAbsoluteDistortion_nonneg _ _ _ _ _ _
  · exact getMeanErrorPerPixel_nonneg _ _ _ _ _
  · exact getMeanSquaredDistortion_nonneg _ _ _ _ _ _
  · exact getPeakAbsoluteDistortion_nonneg _ _ _ _ _ _
  · simp [getRootMeanSquaredDistortion, Real.sqrt_nonneg]
  · simp [getFuzzDistortion, Real.sqrt_nonneg]

end MetricNonneg

section Zero

theorem channelDelta_same {image : Image} {daMatte : Bool} (hm : image.matte = daMatte)
    (p : PixelPacket) (c : Slot) : channelDelta image daMatte 0 p p c = 0 := by
  cases c <;> simp [channelDelta, hm]

@[simp] theorem addTerm_zero (v : DistortionVector) (c : Slot) : addTerm v c 0 = v := by
  simp [addTerm]

theorem accumulate_of_zero {guard : Slot → Bool} {term : Slot → ℝ} (hterm : ∀ c, term c = 0)
    (v : DistortionVector) : accumulate guard term v = v :=
  List.foldlRecOn (motive := fun w : DistortionVector => w = v) _ _ _ rfl fun w hw c _ => by
    split_ifs
    · rw [hterm, addTerm_zero, hw]
    · exact hw

theorem absolutePixel_of_zero {fuzz : ℝ} (hfuzz : 0 ≤ fuzz) (guard : Slot → Bool)
    {delta : Slot → ℝ} (hdelta : ∀ c, delta c = 0) (v : DistortionVector) :
    absolutePixel fuzz guard delta v = v := by
  have hb : absoluteBlocks fuzz guard delta v = (0, false, v) :=
    List.foldlRecOn (motive := fun s : ℝ × Bool × DistortionVector => s = (0, false, v)) _ _ _
      rfl fun s hs c _ => by
        subst hs
        simp only [absoluteStep, hdelta, mul_zero, add_zero, gt_iff_lt, not_lt.mpr hfuzz, if_false]
        split_ifs <;> rfl
  simp [absolutePixel, hb]

theorem maxTerm_zero (c : Slot) : maxTerm 0 c 0 = 0 := by
  simp [maxTerm]

theorem rowVector_eq_zero {columns : ℕ} {f : ℕ → DistortionVector → DistortionVector}
    (hf : ∀ x < columns, f x 0 = 0) : rowVector columns f = 0 :=
  List.foldlRecOn (motive := fun v : DistortionVector => v = 0) _ _ _ rfl fun v hv x hx => by
    rw [hv, hf x (List.mem_range.mp hx)]

theorem ompRows_eq_zero {sched : RowSchedule} {rowOk : ℕ → Bool}
    {merge : DistortionVector → DistortionVector → DistortionVector} {row : ℕ → DistortionVector}
    (hrow : ∀ y ∈ sched.trace, row y = 0) (hmerge : merge 0 0 = 0) :
    (ompRows sched rowOk merge row).2 = 0 :=
  runRows_induction rowOk _ (fun d : DistortionVector => d = 0) rfl
    fun d y hy hd => by rw [hd, hrow y hy, hmerge]

@[simp] theorem normalizeMean_zero (area : ℝ) (channels : ℕ) : normalizeMean area channels 0 = 0 := by
  funext i
  simp [normalizeMean, Function.update_apply]

end Zero

section MetricZero

variable {image reconstruct : Image} (channel : ChannelType) {sched : RowSchedule}
  (rowOk : ℕ → Bool) (h : image.Agrees reconstruct)
  (hsched : sched.Complete (areaRows image reconstruct))
include h hsched

theorem getAbsoluteDistortion_agrees :
    (getAbsoluteDistortion image reconstruct channel sched rowOk).2 = 0 := by
  refine ompRows_eq_zero (fun y hy => rowVector_eq_zero fun x hx => ?_) (add_zero 0)
  have hy := List.mem_range.mp (hsched.trace_perm.subset hy)
  refine absolutePixel_of_zero (absoluteFuzz_nonneg _ _ _) _ (fun c => ?_) 0
  simp only [absoluteDelta, h.pixel y hy x hx, sub_self]
  exact channelDelta_same rfl _ c

theorem getMeanAbsoluteDistortion_agrees :
    (getMeanAbsoluteDistortion image reconstruct channel sched rowOk).2 = 0 := by
  refine (congrArg _ (ompRows_eq_zero (fun y hy => rowVector_eq_zero fun x hx => ?_) (add_zero 0))).trans
    (normalizeMean_zero _ _)
  have hy := List.mem_range.mp (hsched.trace_perm.subset hy)
  refine accumulate_of_zero (fun c => ?_) 0
  simp only [h.pixel y hy x hx, sub_self, channelDelta_same h.matte, abs_zero, mul_zero]

theorem getMeanSquaredDistortion_agrees :
    (getMeanSquaredDistortion image reconstruct channel sched rowOk).2 = 0 := by
  refine (congrArg _ (ompRows_eq_zero (fun y hy => rowVector_eq_zero fun x hx => ?_) (add_zero 0))).trans
    (normalizeMean_zero _ _)
  have hy := List.mem_range.mp (hsched.trace_perm.subset hy)
  refine accumulate_of_zero (fun c => ?_) 0
  simp only [h.pixel y hy x hx, sub_self, channelDelta_same h.matte, mul_zero]
  norm_num

theorem getFuzzDistortion_agrees :
    (getFuzzDistortion image reconstruct channel sched rowOk).2 = 0 := by
  have hr : (ompRows sched rowOk (· + ·) fun y =>
      rowVector (areaColumns image reconstruct) (fuzzPixel image reconstruct channel · y)).2 = 0 := by
    refine ompRows_eq_zero (fun y hy => rowVector_eq_zero fun x hx => ?_) (add_zero 0)
    have hy := List.mem_range.mp (hsched.trace_perm.subset hy)
    refine accumulate_of_zero (fun c => ?_) 0
    simp only [h.pixel y hy x hx, h.matte, sub_self, channelDelta_same h.matte, mul_zero]
    norm_num
  simp only [getFuzzDistortion, hr, normalizeMean_zero, Pi.zero_apply, Real.sqrt_zero]
  exact Function.update_eq_self _ _

theorem getPeakAbsoluteDistortion_agrees :
    (getPeakAbsoluteDistortion image reconstruct channel sched rowOk).2 = 0 := by
  refine ompRows_eq_zero (fun y hy => rowVector_eq_zero fun x hx => ?_)
    (funext fun _ => by simp [maxFold])
  have hy := List.mem_range.mp (hsched.trace_perm.subset hy)
  refine List.foldlRecOn (motive := fun v : DistortionVector => v = 0) _ _ _ rfl
    fun v hv c _ => ?_
  subst hv
  simp only [h.pixel y hy x hx, sub_self, channelDelta_same h.matte, abs_zero, mul_zero,
    maxTerm_zero, ite_self]

end MetricZero

theorem getMeanErrorPerPixel_agrees {image reconstruct : Image} (channel : ChannelType)
    (rowOk : ℕ → Bool) (h : image.Agrees reconstruct) :
    (getMeanErrorPerPixel image reconstruct channel rowOk).2.1 = 0 :=
  runRows_induction rowOk _ (fun s : DistortionVector × ErrorSums => s.1 = 0) rfl
    fun s y hy hs => List.foldlRecOn (motive := fun s : DistortionVector × ErrorSums => s.1 = 0)
      _ _ _ hs fun s hs x hx => List.foldlRecOn
        (motive := fun s : DistortionVector × ErrorSums => s.1 = 0) _ _ _ hs fun s hs c _ => by
          simp only [h.pixel y (List.mem_range.mp hy) x (List.mem_range.mp hx), sub_self,
            channelDelta_same h.matte, abs_zero]
          split_ifs
          · simpa using hs
          · exact hs

/-- Every pixel-error metric vanishes on two images that agree on the comparison area,
for every complete schedule, whatever row reads fail. -/
theorem channelDistortion_agrees {image reconstruct : Image} (channel : ChannelType)
    (metric : MetricType) (hmetric : metric.isPixelError = true) (env : Collaborators)
    (h : image.Agrees reconstruct) (hsched : env.schedule.Complete (areaRows image reconstruct)) :
    (channelDistortion image reconstruct channel metric env).2 .composite = 0 := by
  cases metric <;> simp only [MetricType.isPixelError, Bool.false_eq_true] at hmetric <;>
    simp only [channelDistortion, realSlots, EReal.coe_eq_zero]
  · rw [getAbsoluteDistortion_agrees channel _ h hsched]; rfl
  · rw [getMeanAbsoluteDistortion_agrees channel _ h hsched]; rfl
  · rw [getMeanErrorPerPixel_agrees channel _ h]; rfl
  · rw [getMeanSquaredDistortion_agrees channel _ h hsched]; rfl
  · rw [getPeakAbsoluteDistortion_agrees channel _ h hsched]; rfl
  · simp [getRootMeanSquaredDistortion, getMeanSquaredDistortion_agrees channel _ h hsched]
  · rw [getFuzzDistortion_agrees channel _ h hsched]; rfl

end MagickCompare

end
