import MagickCompare.ClosedForm
/-! The normalised metrics on channel values in `[0, QuantumRange]`. Each term a pixel
adds is in `[0, 1]`, a run adds at most one per pixel of the comparison area whatever reads
fail, and a composite mean divides by at least the number of slots it sums, except the fuzz
metric's, which may sum one slot more: an opacity slot written for the reconstruction's
matte alone. -/

noncomputable section

namespace MagickCompare

/-- Every channel of the pixel lies in `[0, QuantumRange]`, as in a build without HDRI. -/
def PixelPacket.InRange (p : PixelPacket) : Prop :=
  ∀ c ∈ channelOrder, 0 ≤ c.value p ∧ c.value p ≤ quantumRange

section Pixel

variable {p q : PixelPacket}

theorem alphaWeight_mem (hp : p.InRange) (m : Bool) : alphaWeight m p ∈ Set.Icc 0 1 := by
  obtain ⟨h0, h1⟩ := hp .opacity (by decide)
  have hqs := quantumScale_pos
  have hmul := quantumScale_mul_quantumRange
  simp only [Slot.value] at h0 h1
  unfold alphaWeight getPixelAlpha opaqueOpacity
  split_ifs
  · exact ⟨mul_nonneg hqs.le (by linarith), by rw [mul_sub, hmul]; linarith [mul_nonneg hqs.le h0]⟩
  · exact ⟨by rw [sub_zero, hmul]; exact zero_le_one, by rw [sub_zero, hmul]⟩

theorem abs_weighted_sub_le (hp : p.InRange) (hq : q.InRange) (m m' : Bool) {c : Slot}
    (hc : c ∈ channelOrder) :
    |alphaWeight m p * c.value p - alphaWeight m' q * c.value q| ≤ quantumRange := by
  obtain ⟨a0, a1⟩ := alphaWeight_mem hp m
  obtain ⟨b0, b1⟩ := alphaWeight_mem hq m'
  obtain ⟨p0, p1⟩ := hp c hc
  obtain ⟨q0, q1⟩ := hq c hc
  exact abs_sub_le_of_nonneg_of_le (mul_nonneg a0 p0) ((mul_le_of_le_one_left p0 a1).trans p1)
    (mul_nonneg b0 q0) ((mul_le_of_le_one_left q0 b1).trans q1)

theorem abs_channelDelta_le (hp : p.InRange) (hq : q.InRange) (image : Image) (daMatte : Bool)
    {opacity : ℝ} (ho : |opacity| ≤ quantumRange) (c : Slot) :
    |channelDelta image daMatte opacity p q c| ≤ quantumRange := by
  cases c with
  | opacity => exact ho
  | composite => simp [channelDelta, Slot.value, quantumRange]
  | _ => exact abs_weighted_sub_le hp hq _ _ (by decide)

theorem abs_opacity_sub_le (hp : p.InRange) (hq : q.InRange) :
    |p.opacity - q.opacity| ≤ quantumRange := by
  obtain ⟨p0, p1⟩ := hp .opacity (by decide)
  obtain ⟨q0, q1⟩ := hq .opacity (by decide)
  exact abs_sub_le_of_nonneg_of_le p0 p1 q0 q1

theorem abs_fuzzOpacity_le (hp : p.InRange) (hq : q.InRange) (m m' : Bool) :
    |(if m then p.opacity else opaqueOpacity) - (if m' then q.opacity else opaqueOpacity)| ≤
      quantumRange := by
  have hr : (0 : ℝ) ≤ quantumRange := by norm_num [quantumRange]
  have hmem : ∀ (p : PixelPacket), p.InRange → ∀ m : Bool,
      (if m then p.opacity else opaqueOpacity) ∈ Set.Icc 0 quantumRange := fun p hp m => by
    cases m
    · exact ⟨le_refl _, hr⟩
    · exact hp .opacity (by decide)
  exact abs_sub_le_of_nonneg_of_le (hmem p hp m).1 (hmem p hp m).2 (hmem q hq m').1 (hmem q hq m').2

end Pixel

theorem scaled_abs_le_one {d : ℝ} (hd : |d| ≤ quantumRange) : quantumScale * |d| ≤ 1 :=
  (mul_le_mul_of_nonneg_left hd quantumScale_nonneg).trans_eq quantumScale_mul_quantumRange

theorem scaled_sq_le_one {d : ℝ} (hd : |d| ≤ quantumRange) : (quantumScale * d) ^ 2 ≤ 1 := by
  rw [← sq_abs, abs_mul, abs_of_nonneg quantumScale_nonneg]
  exact pow_le_one₀ (mul_nonneg quantumScale_nonneg (abs_nonneg _)) (scaled_abs_le_one hd)

/-! ### Slots and means -/

theorem guardedSum_mem {g : Slot → Bool} {v : DistortionVector}
    (hv : ∀ c ∈ channelOrder, g c = true → v c ∈ Set.Icc 0 1) :
    guardedSum g v ∈ Set.Icc 0 (guardedCount g : ℝ) := by
  rw [guardedSum_eq_sum, guardedCount_eq_card]
  have hmem : ∀ c ∈ guardedSet g, v c ∈ Set.Icc 0 1 := fun c hc =>
    hv c (mem_guardedSet.mp hc).1 (mem_guardedSet.mp hc).2
  refine ⟨Finset.sum_nonneg fun c hc => (hmem c hc).1, ?_⟩
  simpa using Finset.sum_le_card_nsmul _ _ 1 fun c hc => (hmem c hc).2

/-- A mean over at least as many channels as it sums, of slots in `[0, 1]`, is in `[0, 1]`. -/
theorem guardedMean_mem {g : Slot → Bool} {v : DistortionVector}
    (hv : ∀ c ∈ channelOrder, g c = true → v c ∈ Set.Icc 0 1) {n : ℕ} (hn : 0 < n)
    (hcount : guardedCount g ≤ n) : guardedSum g v / n ∈ Set.Icc 0 1 := by
  obtain ⟨h0, h1⟩ := guardedSum_mem hv
  have hn' : (0 : ℝ) < n := Nat.cast_pos.mpr hn
  exact ⟨div_nonneg h0 hn'.le, (div_le_one hn').mpr (h1.trans (Nat.cast_le.mpr hcount))⟩

theorem guardedCount_le_succ {g h : Slot → Bool}
    (hgh : ∀ c, c ≠ .opacity → g c = true → h c = true) : guardedCount g ≤ guardedCount h + 1 := by
  rw [guardedCount_eq_card, guardedCount_eq_card]
  refine (Finset.card_le_card fun c hc => ?_).trans (Finset.card_insert_le .opacity _)
  rw [Finset.mem_insert]
  by_cases ho : c = .opacity
  · exact .inl ho
  · exact .inr (mem_guardedSet.mpr ⟨(mem_guardedSet.mp hc).1, hgh c ho (mem_guardedSet.mp hc).2⟩)

/-- The fuzz metric's guard runs at most the opacity block beyond the image's channels. -/
theorem guardedCount_fuzz_le (image reconstruct : Image) (channel : ChannelType) :
    guardedCount (channelGuard channel (image.matte || reconstruct.matte)
      (image.isCMYK && reconstruct.isCMYK)) ≤ getNumberChannels image channel + 1 :=
  (guardedCount_le_succ fun c hc hg => by cases c <;> simp_all [channelGuard]).trans
    (Nat.add_le_add_right (guardedCount_le_getNumberChannels _ _) 1)

/-- Whatever reads fail, a sum metric's channel slot is at most the area when each term is
in `[0, 1]`. -/
theorem sumRows_slot_le {sched : RowSchedule} {rows : ℕ} (hsched : sched.Complete rows)
    (rowOk : ℕ → Bool) {columns : ℕ} {g : Slot → Bool} {t : ℕ → ℕ → Slot → ℝ}
    (ht : ∀ x y c, t x y c ∈ Set.Icc 0 1) {c : Slot} (hc : c ≠ .composite) :
    (ompRows sched rowOk (· + ·) fun y => rowVector columns fun x => accumulate g (t x y)).2 c ≤
      columns * rows := by
  have hrow : ∀ y, 0 ≤ rowVector columns fun x => accumulate g (t x y) := fun y =>
    rowVector_nonneg fun x _ hv => accumulate_nonneg (fun c => (ht x y c).1) hv
  calc _ ≤ (∑ y in Finset.range rows, rowVector columns fun x => accumulate g (t x y)) c :=
        ompRows_add_le hsched rowOk hrow c
    _ = ∑ y in Finset.range rows, ∑ x in Finset.range columns, if g c then t x y c else 0 := by
        rw [Finset.sum_apply]
        exact Finset.sum_congr rfl fun y _ => rowVector_accumulate_apply _ _ _ hc
    _ ≤ ∑ y in Finset.range rows, ∑ x in Finset.range columns, (1 : ℝ) :=
        Finset.sum_le_sum fun y _ => Finset.sum_le_sum fun x _ => by
          split_ifs
          exacts [(ht x y c).2, zero_le_one]
    _ = columns * rows := by simp [mul_comm]

theorem normalizeMean_slot_mem {area : ℝ} (harea : 0 < area) {v : DistortionVector} {c : Slot}
    (hc : c ≠ .composite) (h0 : 0 ≤ v c) (h1 : v c ≤ area) (channels : ℕ) :
    normalizeMean area channels v c ∈ Set.Icc 0 1 := by
  rw [normalizeMean_apply _ _ _ hc]
  exact ⟨div_nonneg h0 harea.le, (div_le_one harea).mpr h1⟩

/-! ### The five metrics -/

/-- Every slot of the five normalised pixel-error metrics is in `[0, 1]`, except the fuzz
composite, which is in `[0, √2]`, and in `[0, 1]` unless only the reconstruction has
matte. -/
structure UnitBounds (image reconstruct : Image) (channel : ChannelType) (sched : RowSchedule)
    (rowOk : ℕ → Bool) : Prop where
  meanAbsolute : ∀ c, (getMeanAbsoluteDistortion image reconstruct channel sched rowOk).2 c ∈
    Set.Icc 0 1
  meanSquared : ∀ c, (getMeanSquaredDistortion image reconstruct channel sched rowOk).2 c ∈
    Set.Icc 0 1
  rootMeanSquared : ∀ c, (getRootMeanSquaredDistortion image reconstruct channel sched rowOk).2 c ∈
    Set.Icc 0 1
  peakAbsolute : ∀ c, (getPeakAbsoluteDistortion image reconstruct channel sched rowOk).2 c ∈
    Set.Icc 0 1
  fuzzChannel : ∀ c, c ≠ .composite →
    (getFuzzDistortion image reconstruct channel sched rowOk).2 c ∈ Set.Icc 0 1
  fuzzComposite : (getFuzzDistortion image reconstruct channel sched rowOk).2 .composite ∈
    Set.Icc 0 (Real.sqrt 2)
  fuzzCompositeOfMatte : image.matte = true ∨ reconstruct.matte = false →
    (getFuzzDistortion image reconstruct channel sched rowOk).2 .composite ∈ Set.Icc 0 1

theorem area_pos (image reconstruct : Image) :
    (0 : ℝ) < (areaColumns image reconstruct : ℝ) * areaRows image reconstruct :=
  mul_pos (Nat.cast_pos.mpr (areaColumns_pos _ _)) (Nat.cast_pos.mpr (areaRows_pos _ _))

section Metrics

variable {image reconstruct : Image} (channel : ChannelType) {sched : RowSchedule}
  (rowOk : ℕ → Bool) (himage : ∀ x y, (image.pixel x y).InRange)
  (hrecon : ∀ x y, (reconstruct.pixel x y).InRange)
  (hsched : sched.Complete (areaRows image reconstruct))
include himage hrecon hsched

theorem getMeanAbsoluteDistortion_slot_mem {c : Slot} (hc : c ≠ .composite) :
    (getMeanAbsoluteDistortion image reconstruct channel sched rowOk).2 c ∈ Set.Icc 0 1 :=
  normalizeMean_slot_mem (area_pos image reconstruct) hc
    (ompRows_nonneg (fun _ => rowVector_nonneg fun _ _ hv => accumulate_nonneg
      (fun _ => mul_nonneg quantumScale_nonneg (abs_nonneg _)) hv) (fun _ _ => add_nonneg) c)
    (@sumRows_slot_le sched _ hsched rowOk (areaColumns image reconstruct)
      (channelGuard channel image.matte image.isCMYK)
      (fun x y c => quantumScale * |pixelDelta image reconstruct x y c|)
      (fun x y c => ⟨mul_nonneg quantumScale_nonneg (abs_nonneg _), scaled_abs_le_one
        (abs_channelDelta_le (himage x y) (hrecon x y) _ _ (abs_opacity_sub_le (himage x y)
          (hrecon x y)) c)⟩) c hc) _

theorem getMeanSquaredDistortion_slot_mem {c : Slot} (hc : c ≠ .composite) :
    (getMeanSquaredDistortion image reconstruct channel sched rowOk).2 c ∈ Set.Icc 0 1 :=
  normalizeMean_slot_mem (area_pos image reconstruct) hc
    (ompRows_nonneg (fun _ => rowVector_nonneg fun _ _ hv => accumulate_nonneg
      (fun _ => sq_nonneg _) hv) (fun _ _ => add_nonneg) c)
    (@sumRows_slot_le sched _ hsched rowOk (areaColumns image reconstruct)
      (channelGuard channel image.matte (image.isCMYK && reconstruct.isCMYK))
      (fun x y c => (quantumScale * pixelDelta image reconstruct x y c) ^ 2)
      (fun x y c => ⟨sq_nonneg _, scaled_sq_le_one
        (abs_channelDelta_le (himage x y) (hrecon x y) _ _ (abs_opacity_sub_le (himage x y)
          (hrecon x y)) c)⟩) c hc) _

theorem getFuzzDistortion_slot_mem {c : Slot} (hc : c ≠ .composite) :
    (getFuzzDistortion image reconstruct channel sched rowOk).2 c ∈ Set.Icc 0 1 := by
  simp only [getFuzzDistortion, Function.update_noteq hc]
  exact normalizeMean_slot_mem (area_pos image reconstruct) hc
    (ompRows_nonneg (fun _ => rowVector_nonneg fun _ _ hv => accumulate_nonneg
      (fun _ => sq_nonneg _) hv) (fun _ _ => add_nonneg) c)
    (@sumRows_slot_le sched _ hsched rowOk (areaColumns image reconstruct)
      (channelGuard channel (image.matte || reconstruct.matte) (image.isCMYK && reconstruct.isCMYK))
      (fun x y c => (quantumScale * fuzzDelta image reconstruct x y c) ^ 2)
      (fun x y c => ⟨sq_nonneg _, scaled_sq_le_one
        (abs_channelDelta_le (himage x y) (hrecon x y) _ _ (abs_fuzzOpacity_le (himage x y)
          (hrecon x y) _ _) c)⟩) c hc) _

theorem getMeanSquaredDistortion_mem (c : Slot) :
    (getMeanSquaredDistortion image reconstruct channel sched rowOk).2 c ∈ Set.Icc 0 1 := by
  rcases eq_or_ne c .composite with rfl | hc
  · rw [getMeanSquaredDistortion_composite]
    exact guardedMean_mem (fun c hc _ => getMeanSquaredDistortion_slot_mem channel rowOk himage
      hrecon hsched (ne_composite_of_mem hc)) (getNumberChannels_pos _ _)
      ((guardedCount_mono (channelGuard_mono id fun h => (Bool.and_eq_true _ _ ▸ h).1)).trans
        (guardedCount_le_getNumberChannels _ _))
  · exact getMeanSquaredDistortion_slot_mem channel rowOk himage hrecon hsched hc

theorem getMeanAbsoluteDistortion_mem (c : Slot) :
    (getMeanAbsoluteDistortion image reconstruct channel sched rowOk).2 c ∈ Set.Icc 0 1 := by
  rcases eq_or_ne c .composite with rfl | hc
  · rw [getMeanAbsoluteDistortion_composite]
    exact guardedMean_mem (fun c hc _ => getMeanAbsoluteDistortion_slot_mem channel rowOk himage
      hrecon hsched (ne_composite_of_mem hc)) (getNumberChannels_pos _ _)
      (guardedCount_le_getNumberChannels _ _)
  · exact getMeanAbsoluteDistortion_slot_mem channel rowOk himage hrecon hsched hc

omit hsched in
/-- Every slot of the peak is a maximum of terms in `[0, 1]`, from 0. -/
theorem getPeakAbsoluteDistortion_mem (c : Slot) :
    (getPeakAbsoluteDistortion image reconstruct channel sched rowOk).2 c ∈ Set.Icc 0 1 := by
  have hinv : (0 ≤ (getPeakAbsoluteDistortion image reconstruct channel sched rowOk).2) ∧
      (getPeakAbsoluteDistortion image reconstruct channel sched rowOk).2 ≤ 1 := by
    refine ompRows_induction (fun v => 0 ≤ v ∧ v ≤ 1) ⟨le_rfl, zero_le_one⟩
      fun d y hd => ?_
    rw [maxFold_eq_sup]
    refine ⟨le_sup_of_le_left hd.1, sup_le hd.2 ?_⟩
    refine (rowVector_induction (fun v => 0 ≤ v ∧ v ≤ 1) ⟨le_rfl, zero_le_one⟩
      fun x v hv => ?_).2
    simp only [peakAbsolutePixel]
    refine foldl_blocks_induction (fun v => 0 ≤ v ∧ v ≤ 1) hv fun w c hc _ hw => ?_
    have hd : quantumScale * |pixelDelta image reconstruct x y c| ∈ Set.Icc 0 1 :=
      ⟨mul_nonneg quantumScale_nonneg (abs_nonneg _), scaled_abs_le_one
        (abs_channelDelta_le (himage x y) (hrecon x y) _ _ (abs_opacity_sub_le (himage x y)
          (hrecon x y)) c)⟩
    refine ⟨maxTerm_nonneg hw.1 c hd.1, fun i => ?_⟩
    rw [maxTerm_eq_update w (ne_composite_of_mem hc)]
    simp only [Function.update_apply]
    split_ifs <;> first | exact max_le (hw.2 _) hd.2 | exact hw.2 _
  exact ⟨hinv.1 c, hinv.2 c⟩

/-- On channel values in `[0, QuantumRange]`, under any schedule and whatever reads fail,
the five normalised pixel-error metrics keep every slot in `[0, 1]`, but for the fuzz
composite when only the reconstruction has matte, which stays in `[0, √2]`. -/
theorem unitBounds_of_inRange : UnitBounds image reconstruct channel sched rowOk := by
  have hfuzz : ∀ c, c ≠ .composite →
      (getFuzzDistortion image reconstruct channel sched rowOk).2 c ∈ Set.Icc 0 1 :=
    fun c hc => getFuzzDistortion_slot_mem channel rowOk himage hrecon hsched hc
  have hfuzzSum := guardedSum_mem (g := channelGuard channel (image.matte || reconstruct.matte)
    (image.isCMYK && reconstruct.isCMYK)) fun c hc _ => hfuzz c (ne_composite_of_mem hc)
  have hn := getNumberChannels_pos image channel
  have hn' : (0 : ℝ) < getNumberChannels image channel := Nat.cast_pos.mpr hn
  have hcount := guardedCount_fuzz_le image reconstruct channel
  refine ⟨getMeanAbsoluteDistortion_mem channel rowOk himage hrecon hsched,
    getMeanSquaredDistortion_mem channel rowOk himage hrecon hsched, fun c => ?_,
    getPeakAbsoluteDistortion_mem channel rowOk himage hrecon, fun c hc => hfuzz c hc, ?_,
    fun hm => ?_⟩
  · obtain ⟨h0, h1⟩ := getMeanSquaredDistortion_mem channel rowOk himage hrecon hsched c
    simp only [getRootMeanSquaredDistortion]
    split_ifs
    exacts [⟨Real.sqrt_nonneg _, Real.sqrt_le_one.mpr h1⟩, ⟨h0, h1⟩]
  · rw [getFuzzDistortion_composite]
    refine ⟨Real.sqrt_nonneg _, Real.sqrt_le_sqrt ((div_le_iff₀ hn').mpr ?_)⟩
    calc _ ≤ (guardedCount (channelGuard channel (image.matte || reconstruct.matte)
          (image.isCMYK && reconstruct.isCMYK)) : ℝ) := hfuzzSum.2
      _ ≤ getNumberChannels image channel + 1 := by exact_mod_cast hcount
      _ ≤ 2 * getNumberChannels image channel := by
        have : (1 : ℝ) ≤ getNumberChannels image channel := by exact_mod_cast hn
        linarith
  · have hguard : (image.matte || reconstruct.matte) = image.matte := by
      rcases hm with h | h <;> simp [h]
    rw [getFuzzDistortion_composite]
    obtain ⟨h0, h1⟩ := guardedMean_mem (g := channelGuard channel (image.matte || reconstruct.matte)
      (image.isCMYK && reconstruct.isCMYK)) (fun c hc _ => hfuzz c (ne_composite_of_mem hc)) hn
      (by rw [hguard]; exact (guardedCount_mono (channelGuard_mono id
        fun h => (Bool.and_eq_true _ _ ▸ h).1)).trans (guardedCount_le_getNumberChannels _ _))
    exact ⟨Real.sqrt_nonneg _, Real.sqrt_le_one.mpr h1⟩

end Metrics

theorem inRange_of_extremes {p : PixelPacket}
    (h : ∀ c ∈ channelOrder, c.value p = 0 ∨ c.value p = quantumRange) : p.InRange := fun c hc => by
  have hr : (0 : ℝ) ≤ quantumRange := by norm_num [quantumRange]
  rcases h c hc with h | h <;> rw [h] <;> exact ⟨by linarith, by linarith⟩

theorem opaqueBlack_inRange (x y : ℕ) : (opaqueBlack.pixel x y).InRange :=
  inRange_of_extremes fun c hc => by
    simp only [channelOrder, List.mem_cons, List.mem_singleton, List.not_mem_nil, or_false] at hc
    rcases hc with rfl | rfl | rfl | rfl | rfl <;> simp [Slot.value, opaqueBlack, opaqueOpacity]

theorem transparentBlack_inRange (x y : ℕ) : (transparentBlack.pixel x y).InRange :=
  inRange_of_extremes fun c hc => by
    simp only [channelOrder, List.mem_cons, List.mem_singleton, List.not_mem_nil, or_false] at hc
    rcases hc with rfl | rfl | rfl | rfl | rfl <;> simp [Slot.value, transparentBlack]

theorem opaqueWhite_inRange (x y : ℕ) : (opaqueWhite.pixel x y).InRange :=
  inRange_of_extremes fun c hc => by
    simp only [channelOrder, List.mem_cons, List.mem_singleton, List.not_mem_nil, or_false] at hc
    rcases hc with rfl | rfl | rfl | rfl | rfl <;> simp [Slot.value, opaqueWhite, opaqueOpacity]

theorem unitBounds_of_inRange_whiteTransparent :
    (∀ x y, (opaqueWhite.pixel x y).InRange) ∧ (∀ x y, (transparentBlack.pixel x y).InRange) ∧
    (RowSchedule.single 1).Complete (areaRows opaqueWhite transparentBlack) ∧
    UnitBounds opaqueWhite transparentBlack allChannels (.single 1) (fun _ => true) :=
  ⟨opaqueWhite_inRange, transparentBlack_inRange, RowSchedule.single_complete 1,
    unitBounds_of_inRange allChannels (fun _ => true) opaqueWhite_inRange transparentBlack_inRange
      (RowSchedule.single_complete 1)⟩

/-- White without matte against transparent black with matte, both in range and accepted by
the morphology check: the fuzz composite is √(4/3), above 1. -/
theorem getFuzzDistortion_composite_gt_one :
    (∀ x y, (opaqueWhite.pixel x y).InRange) ∧ (∀ x y, (transparentBlack.pixel x y).InRange) ∧
    validateImageMorphology opaqueWhite transparentBlack = true ∧
    1 < (getFuzzDistortion opaqueWhite transparentBlack allChannels (.single 1) (fun _ => true)).2
      .composite := by
  refine ⟨opaqueWhite_inRange, transparentBlack_inRange, rfl, ?_⟩
  rw [getFuzzDistortion_whiteTransparent.2, Real.lt_sqrt zero_le_one]
  norm_num

end MagickCompare

end
