import MagickCompare.Bounds
import Mathlib.Algebra.Order.Chebyshev
/-! The mean absolute, root mean squared and peak absolute errors as power means of one
family of terms. With every read, the three loops run over the same comparison area with
the same alpha weighting, the same `QuantumScale` and, under the morphology check, the same
channel blocks, so each slot of the three is the mean, the root mean square and an upper
bound of the same terms. -/

noncomputable section

namespace MagickCompare

/-! ### Power means over a finite set -/

/-- The mean is at most the root mean square (Cauchy–Schwarz). -/
theorem mean_le_sqrt_mean_sq {ι : Type*} (s : Finset ι) (f : ι → ℝ) :
    (∑ i in s, f i) / s.card ≤ Real.sqrt ((∑ i in s, f i ^ 2) / s.card) := by
  rcases le_or_lt ((∑ i in s, f i) / s.card) 0 with h | h
  · exact h.trans (Real.sqrt_nonneg _)
  have hs : (0 : ℝ) < s.card := by
    rcases Nat.eq_zero_or_pos s.card with h0 | h0
    · simp [h0] at h
    · exact_mod_cast h0
  rw [Real.le_sqrt' h, div_pow, div_le_div_iff₀ (by positivity) hs]
  calc (∑ i in s, f i) ^ 2 * s.card ≤ (s.card * ∑ i in s, f i ^ 2) * s.card :=
        mul_le_mul_of_nonneg_right sq_sum_le_card_mul_sum_sq hs.le
    _ = (∑ i in s, f i ^ 2) * s.card ^ 2 := by ring

theorem sqrt_mean_sq_le {ι : Type*} (s : Finset ι) {f : ι → ℝ} {M : ℝ} (hM : 0 ≤ M)
    (hf : ∀ i ∈ s, 0 ≤ f i ∧ f i ≤ M) : Real.sqrt ((∑ i in s, f i ^ 2) / s.card) ≤ M := by
  rw [Real.sqrt_le_left hM]
  rcases Nat.eq_zero_or_pos s.card with h0 | h0
  · simp [h0, sq_nonneg]
  have hs : (0 : ℝ) < s.card := by exact_mod_cast h0
  rw [div_le_iff₀ hs]
  calc ∑ i in s, f i ^ 2 ≤ ∑ _i in s, M ^ 2 :=
        Finset.sum_le_sum fun i hi => pow_le_pow_left₀ (hf i hi).1 (hf i hi).2 2
    _ = M ^ 2 * s.card := by rw [Finset.sum_const, nsmul_eq_mul, mul_comm]

/-! ### The terms of a failure-free run -/

def areaPixels (image reconstruct : Image) : Finset (ℕ × ℕ) :=
  Finset.range (areaRows image reconstruct) ×ˢ Finset.range (areaColumns image reconstruct)

theorem card_areaPixels (image reconstruct : Image) :
    ((areaPixels image reconstruct).card : ℝ) =
      (areaColumns image reconstruct : ℝ) * areaRows image reconstruct := by
  simp [areaPixels, mul_comm]

theorem sum_scaled_sq {ι : Type*} (s : Finset ι) (f : ι → ℝ) :
    ∑ i in s, (quantumScale * f i) ^ 2 = ∑ i in s, (quantumScale * |f i|) ^ 2 :=
  Finset.sum_congr rfl fun _ _ => by rw [mul_pow, mul_pow, sq_abs]

section Terms

variable (image reconstruct : Image) {sched : RowSchedule} {rowOk : ℕ → Bool}
  (hsched : sched.Complete (areaRows image reconstruct))
  (hok : ∀ y < areaRows image reconstruct, rowOk y = true)
include hsched hok

/-- With every read, a normalised channel slot of a sum metric is the mean of its terms
over the comparison area. -/
theorem sumMetric_slot_eq {g : Slot → Bool} (t : ℕ → ℕ → Slot → ℝ) {c : Slot}
    (hc : c ≠ .composite) (hg : g c = true) (channels : ℕ) :
    normalizeMean ((areaColumns image reconstruct : ℝ) * areaRows image reconstruct) channels
        (ompRows sched rowOk (· + ·) fun y =>
          rowVector (areaColumns image reconstruct) fun x => accumulate g (t x y)).2 c =
      (∑ p in areaPixels image reconstruct, t p.2 p.1 c) / (areaPixels image reconstruct).card := by
  rw [normalizeMean_apply _ _ _ hc, sumRows_apply hsched hok _ hc, card_areaPixels, areaPixels,
    Finset.sum_product]
  simp only [hg, if_true]

/-- With every read, a normalised composite of a sum metric is the mean of its terms over
the comparison area and the guarded channel blocks, when the channel count is the number
of blocks. -/
theorem sumMetric_composite_eq {g : Slot → Bool} (t : ℕ → ℕ → Slot → ℝ) {channels : ℕ}
    (hchannels : 0 < guardedCount g → channels = guardedCount g) :
    normalizeMean ((areaColumns image reconstruct : ℝ) * areaRows image reconstruct) channels
        (ompRows sched rowOk (· + ·) fun y =>
          rowVector (areaColumns image reconstruct) fun x => accumulate g (t x y)).2 .composite =
      (∑ q in areaPixels image reconstruct ×ˢ guardedSet g, t q.1.2 q.1.1 q.2) /
        (areaPixels image reconstruct ×ˢ guardedSet g).card := by
  rw [normalizeMean_composite, sumRows_composite hsched hok, Finset.sum_product, areaPixels,
    Finset.sum_product, Finset.card_product, Nat.cast_mul, ← areaPixels, card_areaPixels,
    div_div]
  simp only [guardedSum_eq_sum]
  rcases Nat.eq_zero_or_pos (guardedCount g) with h0 | h0
  · rw [guardedCount_eq_card, Finset.card_eq_zero] at h0
    simp [h0]
  · rw [hchannels h0, guardedCount_eq_card]

end Terms

/-! ### The order of the three metrics -/

/-- With every read, under any schedule and the morphology check, each slot the three
metrics write orders mean absolute error, root mean squared error and peak absolute error,
and so does the composite. -/
theorem meanAbsolute_le_rootMeanSquared_le_peakAbsolute {image reconstruct : Image}
    (channel : ChannelType) (hmorph : validateImageMorphology image reconstruct = true)
    {sched : RowSchedule} {rowOk : ℕ → Bool} (hsched : sched.Complete (areaRows image reconstruct))
    (hok : ∀ y < areaRows image reconstruct, rowOk y = true) (c : Slot)
    (hc : c = .composite ∨ channelGuard channel image.matte image.isCMYK c = true) :
    (getMeanAbsoluteDistortion image reconstruct channel sched rowOk).2 c ≤
        (getRootMeanSquaredDistortion image reconstruct channel sched rowOk).2 c ∧
      (getRootMeanSquaredDistortion image reconstruct channel sched rowOk).2 c ≤
        (getPeakAbsoluteDistortion image reconstruct channel sched rowOk).2 c := by
  have hk := isCMYK_and_of_morphology hmorph
  have hpeak := getPeakAbsoluteDistortion_nonneg image reconstruct channel sched rowOk c
  have hrms : (getRootMeanSquaredDistortion image reconstruct channel sched rowOk).2 c =
      Real.sqrt ((getMeanSquaredDistortion image reconstruct channel sched rowOk).2 c) := by
    simp only [getRootMeanSquaredDistortion]
    exact if_pos hc
  rw [hrms]
  rcases eq_or_ne c .composite with rfl | hcc
  · -- the composite: the terms of every pixel and every guarded block
    have hn : 0 < guardedCount (channelGuard channel image.matte image.isCMYK) →
        getNumberChannels image channel =
          guardedCount (channelGuard channel image.matte image.isCMYK) := getNumberChannels_of_pos
    have hmae := sumMetric_composite_eq image reconstruct hsched hok
      (g := channelGuard channel image.matte image.isCMYK)
      (fun x y c => quantumScale * |pixelDelta image reconstruct x y c|) hn
    have hmse := sumMetric_composite_eq image reconstruct hsched hok
      (g := channelGuard channel image.matte (image.isCMYK && reconstruct.isCMYK))
      (fun x y c => (quantumScale * pixelDelta image reconstruct x y c) ^ 2) (hk ▸ hn)
    change (getMeanAbsoluteDistortion image reconstruct channel sched rowOk).2 .composite = _ at hmae
    change (getMeanSquaredDistortion image reconstruct channel sched rowOk).2 .composite = _ at hmse
    rw [hk, sum_scaled_sq] at hmse
    rw [hmae, hmse]
    refine ⟨mean_le_sqrt_mean_sq _ _, sqrt_mean_sq_le _ hpeak fun q hq => ?_⟩
    obtain ⟨hp, hq⟩ := Finset.mem_product.mp hq
    obtain ⟨hy, hx⟩ := Finset.mem_product.mp hp
    obtain ⟨hcm, hg⟩ := mem_guardedSet.mp hq
    exact ⟨mul_nonneg quantumScale_nonneg (abs_nonneg _),
      term_le_getPeakAbsoluteDistortion image reconstruct channel hsched hok
        (Finset.mem_range.mp hx) (Finset.mem_range.mp hy) hcm (hk.symm ▸ hg) (Or.inr rfl)⟩
  · -- a channel slot: the terms of every pixel
    have hg := hc.resolve_left hcc
    have hmae := sumMetric_slot_eq image reconstruct hsched hok
      (g := channelGuard channel image.matte image.isCMYK)
      (fun x y c => quantumScale * |pixelDelta image reconstruct x y c|) hcc hg
      (getNumberChannels image channel)
    have hmse := sumMetric_slot_eq image reconstruct hsched hok
      (g := channelGuard channel image.matte (image.isCMYK && reconstruct.isCMYK))
      (fun x y c => (quantumScale * pixelDelta image reconstruct x y c) ^ 2) hcc (hk.symm ▸ hg)
      (getNumberChannels image channel)
    change (getMeanAbsoluteDistortion image reconstruct channel sched rowOk).2 c = _ at hmae
    change (getMeanSquaredDistortion image reconstruct channel sched rowOk).2 c = _ at hmse
    rw [sum_scaled_sq] at hmse
    rw [hmae, hmse]
    refine ⟨mean_le_sqrt_mean_sq _ _, sqrt_mean_sq_le _ hpeak fun p hp => ?_⟩
    obtain ⟨hy, hx⟩ := Finset.mem_product.mp hp
    have hcm : c ∈ channelOrder := mem_channelOrder.mpr hcc
    exact ⟨mul_nonneg quantumScale_nonneg (abs_nonneg _),
      term_le_getPeakAbsoluteDistortion image reconstruct channel hsched hok
        (Finset.mem_range.mp hx) (Finset.mem_range.mp hy) hcm (hk.symm ▸ hg) (Or.inl rfl)⟩

theorem meanAbsolute_le_rootMeanSquared_le_peakAbsolute_redBlack :
    validateImageMorphology (redPixelImage 0 quantumRange) opaqueBlack = true ∧
    (RowSchedule.single 1).Complete (areaRows (redPixelImage 0 quantumRange) opaqueBlack) ∧
    (∀ y < areaRows (redPixelImage 0 quantumRange) opaqueBlack, (fun _ => true : ℕ → Bool) y = true) ∧
    (getMeanAbsoluteDistortion (redPixelImage 0 quantumRange) opaqueBlack allChannels (.single 1)
        (fun _ => true)).2 .composite ≤
      (getRootMeanSquaredDistortion (redPixelImage 0 quantumRange) opaqueBlack allChannels (.single 1)
        (fun _ => true)).2 .composite ∧
    (getRootMeanSquaredDistortion (redPixelImage 0 quantumRange) opaqueBlack allChannels (.single 1)
        (fun _ => true)).2 .composite ≤
      (getPeakAbsoluteDistortion (redPixelImage 0 quantumRange) opaqueBlack allChannels (.single 1)
        (fun _ => true)).2 .composite :=
  ⟨rfl, RowSchedule.single_complete 1, fun _ _ => rfl,
    @meanAbsolute_le_rootMeanSquared_le_peakAbsolute (redPixelImage 0 quantumRange) opaqueBlack
      allChannels rfl (.single 1) _ (RowSchedule.single_complete 1)
      (fun _ _ => rfl) .composite (Or.inl rfl)⟩

end MagickCompare

end
