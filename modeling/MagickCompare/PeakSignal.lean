import MagickCompare.Symmetry
import MagickCompare.MetricLaws
/-! `GetPeakSignalToNoiseRatio` on the mean squared vector. `MagickLog10` clamps its
argument at `Log10Epsilon = 1e-11`, while a slot becomes `INFINITY` only below
`MagickEpsilon = 1e-12`: every error between the two converts to 110 dB. -/

noncomputable section

namespace MagickCompare

theorem log10_one : log10 1 = 0 := Real.logb_one

theorem log10_log10Epsilon : log10 log10Epsilon = -11 := by
  rw [log10, log10Epsilon, show (1.0e-11 : ℝ) = (10 : ℝ) ^ (-11 : ℝ) by
    rw [show (-11 : ℝ) = ((-11 : ℤ) : ℝ) by norm_num, Real.rpow_intCast]; norm_num,
    Real.logb_rpow (by norm_num) (by norm_num)]

/-- On a nonnegative argument, `MagickLog10` is `log10` of the larger of the argument
and `Log10Epsilon`. -/
theorem magickLog10_of_nonneg {m : ℝ} (hm : 0 ≤ m) :
    magickLog10 m = log10 (max m log10Epsilon) := by
  rw [magickLog10, abs_of_nonneg hm]
  split_ifs with h
  · rw [max_eq_right h.le]
  · rw [max_eq_left (not_lt.mp h)]

theorem magickLog10_one : magickLog10 1 = 0 := by
  rw [magickLog10_of_nonneg zero_le_one, max_eq_left (by norm_num [log10Epsilon]), log10_one]

/-- A converted slot of a nonnegative error: `INFINITY` below `MagickEpsilon`, and
otherwise `-10*log10` of the larger of the error and `Log10Epsilon`. -/
theorem peakSignalToNoise_of_nonneg {m : ℝ} (hm : 0 ≤ m) :
    peakSignalToNoise m =
      if m < magickEpsilon then ⊤ else ((-10 * log10 (max m log10Epsilon) : ℝ) : EReal) := by
  rw [peakSignalToNoise, abs_of_nonneg hm, magickLog10_one, magickLog10_of_nonneg hm, mul_zero,
    zero_sub, neg_mul]

/-- Between `MagickEpsilon` and `Log10Epsilon` every error converts to 110 dB. -/
theorem peakSignalToNoise_of_band {m : ℝ} (h0 : magickEpsilon ≤ m) (h1 : m < log10Epsilon) :
    peakSignalToNoise m = ((110 : ℝ) : EReal) := by
  rw [peakSignalToNoise_of_nonneg ((by norm_num [magickEpsilon] : (0 : ℝ) ≤ magickEpsilon).trans h0),
    if_neg (not_lt.mpr h0), max_eq_right h1.le, log10_log10Epsilon]
  norm_num

theorem lt_neg_ten_mul_log10 {m : ℝ} (h0 : 0 < m) (h1 : m < log10Epsilon) :
    (110 : ℝ) < -10 * log10 m := by
  have : log10 m < log10 log10Epsilon := Real.logb_lt_logb (by norm_num) h0 h1
  rw [log10_log10Epsilon] at this
  linarith

theorem getPeakSignalToNoiseRatio_apply (image reconstruct : Image) (channel : ChannelType)
    (sched : RowSchedule) (rowOk : ℕ → Bool) {c : Slot}
    (hc : c = .composite ∨ transformGuard image channel c = true) :
    (getPeakSignalToNoiseRatio image reconstruct channel sched rowOk).2 c =
      peakSignalToNoise ((getMeanSquaredDistortion image reconstruct channel sched rowOk).2 c) :=
  if_pos hc

/-- For every pair, mask, schedule and row reads, each slot the metric converts (the
composite, and every selected channel the image has active) is `INFINITY` when the mean
squared error of that slot is below `MagickEpsilon` and otherwise `-10*log10` of the larger
of that error and `Log10Epsilon = 1e-11`. -/
theorem getPeakSignalToNoiseRatio_eq (image reconstruct : Image) (channel : ChannelType)
    (sched : RowSchedule) (rowOk : ℕ → Bool) {c : Slot}
    (hc : c = .composite ∨ transformGuard image channel c = true) :
    (getPeakSignalToNoiseRatio image reconstruct channel sched rowOk).2 c =
      if (getMeanSquaredDistortion image reconstruct channel sched rowOk).2 c < magickEpsilon then ⊤
      else ((-10 * log10 (max ((getMeanSquaredDistortion image reconstruct channel sched rowOk).2 c)
        log10Epsilon) : ℝ) : EReal) := by
  rw [getPeakSignalToNoiseRatio_apply _ _ _ _ _ hc,
    peakSignalToNoise_of_nonneg (getMeanSquaredDistortion_nonneg image reconstruct channel sched rowOk c)]

theorem getPeakSignalToNoiseRatio_eq_redBlack :
    (Slot.composite = .composite ∨
      transformGuard (redPixelImage 0 quantumRange) allChannels .composite = true) ∧
    (getPeakSignalToNoiseRatio (redPixelImage 0 quantumRange) opaqueBlack allChannels (.single 1)
        (fun _ => true)).2 .composite =
      if (getMeanSquaredDistortion (redPixelImage 0 quantumRange) opaqueBlack allChannels (.single 1)
          (fun _ => true)).2 .composite < magickEpsilon then ⊤
      else ((-10 * log10 (max ((getMeanSquaredDistortion (redPixelImage 0 quantumRange) opaqueBlack
        allChannels (.single 1) (fun _ => true)).2 .composite) log10Epsilon) : ℝ) : EReal) :=
  ⟨Or.inl rfl, getPeakSignalToNoiseRatio_eq _ _ _ _ _ (Or.inl rfl)⟩

def faintRedImage : Image :=
  ⟨1, 1, true, .otherColorspace, 0, fun _ _ => ⟨1, 0, 0, 49151, 0⟩, one_pos, one_pos⟩

/-- Opaque black against one level of red at alpha `16384/65535`: the mean squared error
`16384^2/(3*65535^4)`, about `4.85e-12`, lies between `MagickEpsilon` and `Log10Epsilon`,
so the ratio is 110 dB where `-10*log10` of the error is about 113. -/
theorem getPeakSignalToNoiseRatio_faintRed :
    validateImageMorphology opaqueBlack faintRedImage = true ∧
    (getMeanSquaredDistortion opaqueBlack faintRedImage compositeChannels (.single 1)
      (fun _ => true)).2 .composite = 16384 ^ 2 / (3 * 65535 ^ 4) ∧
    magickEpsilon ≤ 16384 ^ 2 / (3 * 65535 ^ 4) ∧
    (getPeakSignalToNoiseRatio opaqueBlack faintRedImage compositeChannels (.single 1)
      (fun _ => true)).2 .composite = ((110 : ℝ) : EReal) ∧
    (110 : ℝ) < -10 * log10 (16384 ^ 2 / (3 * 65535 ^ 4)) := by
  have hchannels : getNumberChannels opaqueBlack compositeChannels = 3 := by decide
  have hmse : (getMeanSquaredDistortion opaqueBlack faintRedImage compositeChannels (.single 1)
      (fun _ => true)).2 .composite = 16384 ^ 2 / (3 * 65535 ^ 4) := by
    rw [@getMeanSquaredDistortion_pixel opaqueBlack faintRedImage _ rfl rfl, hchannels]
    simp [normalizeMean, meanSquaredPixel, accumulate_composite, guardedSum, channelOrder,
      channelGuard, channelDelta, Slot.value, opaqueBlack, faintRedImage, Image.isCMYK,
      alphaWeight, getPixelAlpha, quantumScale, quantumRange]
    norm_num
  have hband : magickEpsilon ≤ 16384 ^ 2 / (3 * 65535 ^ 4) := by norm_num [magickEpsilon]
  have hlt : (16384 : ℝ) ^ 2 / (3 * 65535 ^ 4) < log10Epsilon := by norm_num [log10Epsilon]
  refine ⟨rfl, hmse, hband, ?_, lt_neg_ten_mul_log10 (by norm_num) hlt⟩
  rw [getPeakSignalToNoiseRatio_apply _ _ _ _ _ (Or.inl rfl), hmse,
    peakSignalToNoise_of_band hband hlt]

end MagickCompare

end
