import MagickCompare.ClosedForm
/-! The legacy fields against the metrics. `GetImageDistortion` leaves in `image->error` the
three fields `GetMeanErrorPerPixel` sums in its own loop: raw distances, their squares, their
largest and a count of blocks. With every row read and under the morphology check they are
what the metrics compute, whatever their schedules: `QuantumRange` times the mean absolute
error, the mean squared error and the peak absolute error. Beside them, the fuzz metric reads
what the mean squared error reads whenever the two mattes agree. -/

noncomputable section

namespace MagickCompare

theorem guardedSum_const_mul (g : Slot → Bool) (f : Slot → ℝ) (a : ℝ) :
    guardedSum g (fun c => a * f c) = a * guardedSum g f := by
  simp only [guardedSum_eq_sum, Finset.mul_sum]

theorem guardedSum_of_count_eq_zero {g : Slot → Bool} (h : guardedCount g = 0) (f : Slot → ℝ) :
    guardedSum g f = 0 := by
  rw [guardedSum_eq_sum, Finset.card_eq_zero.mp ((guardedCount_eq_card g).symm.trans h),
    Finset.sum_empty]

theorem if_gt_eq_max (a d : ℝ) : (if d > a then d else a) = max a d := by
  split_ifs with h
  · exact (max_eq_right h.le).symm
  · exact (max_eq_left (not_lt.mp h)).symm

theorem ErrorSums.add_maximumError (s : ErrorSums) (d : ℝ) :
    (s.add d).maximumError = max s.maximumError d := if_gt_eq_max _ _

theorem maxTerm_composite (v : DistortionVector) {c : Slot} (hc : c ≠ .composite) (d : ℝ) :
    maxTerm v c d .composite = max (v .composite) d := by
  rw [maxTerm_eq_update v hc, Function.update_same]

section Pixel

variable (image reconstruct : Image) (channel : ChannelType) (x y : ℕ)

theorem meanErrorPixel_fst (s : DistortionVector × ErrorSums) :
    (meanErrorPixel image reconstruct channel x y s).1 =
      accumulate (channelGuard channel image.matte (image.isCMYK && reconstruct.isCMYK))
        (fun c => |pixelDelta image reconstruct x y c|) s.1 := by
  unfold meanErrorPixel accumulate
  exact foldl_rel (fun (s : DistortionVector × ErrorSums) (v : DistortionVector) => s.1 = v)
    (fun a b c _ h => by dsimp only; split_ifs <;> simp [h, pixelDelta]) rfl

theorem meanErrorPixel_meanError (s : DistortionVector × ErrorSums) :
    (meanErrorPixel image reconstruct channel x y s).2.meanError = s.2.meanError +
      guardedSum (channelGuard channel image.matte (image.isCMYK && reconstruct.isCMYK))
        (fun c => |pixelDelta image reconstruct x y c| * |pixelDelta image reconstruct x y c|) := by
  rw [guardedSum, ← foldl_guarded_add]
  unfold meanErrorPixel
  exact foldl_rel (fun (s : DistortionVector × ErrorSums) (a : ℝ) => s.2.meanError = a)
    (fun a b c _ h => by dsimp only; split_ifs <;> simp [h, ErrorSums.add, pixelDelta]) rfl

theorem meanErrorPixel_area (s : DistortionVector × ErrorSums) :
    (meanErrorPixel image reconstruct channel x y s).2.area = s.2.area +
      guardedCount (channelGuard channel image.matte (image.isCMYK && reconstruct.isCMYK)) := by
  have hcount : (guardedCount (channelGuard channel image.matte
      (image.isCMYK && reconstruct.isCMYK)) : ℝ) = (channelOrder.map fun c =>
        if channelGuard channel image.matte (image.isCMYK && reconstruct.isCMYK) c
        then (1 : ℝ) else 0).sum := by
    simp [guardedCount, Nat.cast_list_sum, List.map_map, Function.comp_def, Nat.cast_ite]
  rw [hcount, ← foldl_guarded_add]
  unfold meanErrorPixel
  exact foldl_rel (fun (s : DistortionVector × ErrorSums) (a : ℝ) => s.2.area = a)
    (fun a b c _ h => by dsimp only; split_ifs <;> simp [h, ErrorSums.add]) rfl

/-- Block by block, the legacy loop keeps the largest raw distance and the peak metric the
largest scaled one. -/
theorem meanErrorPixel_maximum {s : DistortionVector × ErrorSums} {v : DistortionVector} {m : ℝ}
    (h : quantumScale * s.2.maximumError = max m (v .composite)) :
    quantumScale * (meanErrorPixel image reconstruct channel x y s).2.maximumError =
      max m (peakAbsolutePixel image reconstruct channel x y v .composite) := by
  unfold meanErrorPixel peakAbsolutePixel
  refine foldl_rel (fun (s : DistortionVector × ErrorSums) (v : DistortionVector) =>
    quantumScale * s.2.maximumError = max m (v .composite))
    (fun a b c hc h => ?_) h
  dsimp only
  split_ifs
  · rw [ErrorSums.add_maximumError, maxTerm_composite _ (ne_composite_of_mem hc),
      mul_max_of_nonneg _ _ quantumScale_nonneg, h, max_assoc]
  · exact h

end Pixel

/-- A loop over rows of a loop over columns whose pixel step adds `f x y` to a quantity
adds the sum over the area. -/
theorem foldl_rows_val {σ : Type*} (val : σ → ℝ) (step : ℕ → ℕ → σ → σ) (f : ℕ → ℕ → ℝ)
    (h : ∀ x y s, val (step x y s) = val s + f x y) (rows columns : ℕ) (s : σ) :
    val ((List.range rows).foldl (fun s y => (List.range columns).foldl (fun s x => step x y s) s) s) =
      val s + ∑ y in Finset.range rows, ∑ x in Finset.range columns, f x y :=
  foldl_range_val val _ _ (fun s y => foldl_range_val val _ (f · y) (fun s x => h x y s) columns s)
    rows s

theorem area_pos_of_sum_ne_zero {rows columns : ℕ} {g : Slot → Bool} {f : ℕ → ℕ → Slot → ℝ}
    (h : ∑ y in Finset.range rows, ∑ x in Finset.range columns, guardedSum g (f x y) ≠ 0) :
    0 < rows ∧ 0 < columns ∧ 0 < guardedCount g :=
  ⟨Nat.pos_of_ne_zero fun h0 => h (by simp [h0]), Nat.pos_of_ne_zero fun h0 => h (by simp [h0]),
    Nat.pos_of_ne_zero fun h0 => h (by simp [guardedSum_of_count_eq_zero h0])⟩

theorem perceptibleReciprocal_of_one_le {x : ℝ} (h : 1 ≤ x) : perceptibleReciprocal x = 1 / x := by
  have heps : magickEpsilon ≤ 1 := by norm_num [magickEpsilon]
  simp only [perceptibleReciprocal, if_neg (show ¬x < 0 by linarith), one_mul]
  rw [if_pos (heps.trans h)]

/-- The legacy loop divides by its count of blocks run, the metrics by the area and then by
the channel count: the same, when the sum vanishes or the two counts agree. -/
theorem perceptibleReciprocal_area_mul {rows columns count channels : ℕ} {S : ℝ}
    (hS : S ≠ 0 → 0 < rows ∧ 0 < columns ∧ 0 < count) (hcount : 0 < count → channels = count) :
    perceptibleReciprocal (rows * columns * count) * S = S / (columns * rows) / channels := by
  by_cases h0 : S = 0
  · simp [h0]
  obtain ⟨hR, hC, hn⟩ := hS h0
  have harea : (1 : ℝ) ≤ rows * columns * count := by
    exact_mod_cast Nat.mul_pos (Nat.mul_pos hR hC) hn
  rw [perceptibleReciprocal_of_one_le harea, hcount hn]
  ring

section Legacy

variable (image reconstruct : Image) (channel : ChannelType) {rowOk : ℕ → Bool}

theorem getMeanErrorPerPixel_of_ok (hok : ∀ y < areaRows image reconstruct, rowOk y = true) :
    getMeanErrorPerPixel image reconstruct channel rowOk =
      let s := (List.range (areaRows image reconstruct)).foldl (fun s y =>
        (List.range (areaColumns image reconstruct)).foldl
          (fun s x => meanErrorPixel image reconstruct channel x y s) s) (0, ⟨0, 0, 0⟩)
      (true, s.1, s.2.info (s.1 .composite)) := by
  rw [getMeanErrorPerPixel, runRows_of_ok _ _ fun y hy => hok y (List.mem_range.mp hy)]

/-- The legacy loop adds each raw distance to the composite. -/
theorem foldl_meanErrorPixel_composite (rows columns : ℕ) (s : DistortionVector × ErrorSums) :
    ((List.range rows).foldl (fun s y => (List.range columns).foldl
        (fun s x => meanErrorPixel image reconstruct channel x y s) s) s).1 .composite =
      s.1 .composite + ∑ y in Finset.range rows, ∑ x in Finset.range columns,
        guardedSum (channelGuard channel image.matte (image.isCMYK && reconstruct.isCMYK))
          fun c => |pixelDelta image reconstruct x y c| :=
  foldl_rows_val (fun s : DistortionVector × ErrorSums => s.1 .composite) _ _
    (fun x y s => by beta_reduce; rw [meanErrorPixel_fst, accumulate_composite]) rows columns s

theorem foldl_meanErrorPixel_meanError (rows columns : ℕ) (s : DistortionVector × ErrorSums) :
    ((List.range rows).foldl (fun s y => (List.range columns).foldl
        (fun s x => meanErrorPixel image reconstruct channel x y s) s) s).2.meanError =
      s.2.meanError + ∑ y in Finset.range rows, ∑ x in Finset.range columns,
        guardedSum (channelGuard channel image.matte (image.isCMYK && reconstruct.isCMYK))
          fun c => |pixelDelta image reconstruct x y c| * |pixelDelta image reconstruct x y c| :=
  foldl_rows_val (fun s : DistortionVector × ErrorSums => s.2.meanError) _ _
    (fun x y s => meanErrorPixel_meanError image reconstruct channel x y s) rows columns s

theorem foldl_meanErrorPixel_area (rows columns : ℕ) (s : DistortionVector × ErrorSums) :
    ((List.range rows).foldl (fun s y => (List.range columns).foldl
        (fun s x => meanErrorPixel image reconstruct channel x y s) s) s).2.area =
      s.2.area + rows * columns *
        guardedCount (channelGuard channel image.matte (image.isCMYK && reconstruct.isCMYK)) := by
  rw [foldl_rows_val (fun s : DistortionVector × ErrorSums => s.2.area) _ _
    (fun x y s => meanErrorPixel_area image reconstruct channel x y s) rows columns s]
  simp [mul_assoc]

/-- Under the morphology check, the metrics' channel count is the legacy loop's count of
blocks, once it is positive. -/
theorem getNumberChannels_of_morphology (hmorph : validateImageMorphology image reconstruct = true)
    (h : 0 < guardedCount (channelGuard channel image.matte (image.isCMYK && reconstruct.isCMYK))) :
    getNumberChannels image channel =
      guardedCount (channelGuard channel image.matte (image.isCMYK && reconstruct.isCMYK)) := by
  rw [isCMYK_and_of_morphology hmorph] at h ⊢
  exact getNumberChannels_of_pos h

variable {sched : RowSchedule}

/-- With every row read, `normalized_maximum_error` is the composite of the peak absolute
error, whatever the schedule of the latter. -/
theorem normalizedMaximumError_eq (hsched : sched.Complete (areaRows image reconstruct))
    (hok : ∀ y < areaRows image reconstruct, rowOk y = true) :
    (getMeanErrorPerPixel image reconstruct channel rowOk).2.2.normalizedMaximumError =
      (getPeakAbsoluteDistortion image reconstruct channel sched rowOk).2 .composite := by
  have hpeak : (getPeakAbsoluteDistortion image reconstruct channel sched rowOk).2 =
      (List.range (areaRows image reconstruct)).foldl (fun d y => maxFold d
        (rowVector (areaColumns image reconstruct) (peakAbsolutePixel image reconstruct channel · y)))
        0 := by
    rw [getPeakAbsoluteDistortion, ompRows_of_rowOk hsched maxFold_comm hok, ompRows,
      runRows_of_ok _ _ fun y hy => hok y (List.mem_range.mp (by rwa [rowTrace_single] at hy)),
      rowTrace_single]
  rw [getMeanErrorPerPixel_of_ok image reconstruct channel hok, hpeak]
  refine (foldl_rel (fun (s : DistortionVector × ErrorSums) (d : DistortionVector) =>
      quantumScale * s.2.maximumError = d .composite ∧ 0 ≤ s.2.maximumError)
    (fun s d y _ hsd => ?_) ⟨by simp, le_rfl⟩).1
  obtain ⟨h, h0⟩ := hsd
  have hd : 0 ≤ d .composite := h ▸ mul_nonneg quantumScale_nonneg h0
  have hrow := @foldl_rel _ _ _ (fun (s : DistortionVector × ErrorSums) (v : DistortionVector) =>
      quantumScale * s.2.maximumError = max (d .composite) (v .composite))
    (fun s x => meanErrorPixel image reconstruct channel x y s)
    (fun v x => peakAbsolutePixel image reconstruct channel x y v)
    (List.range (areaColumns image reconstruct))
    (fun _ _ x _ h => meanErrorPixel_maximum image reconstruct channel x y h) s 0
    (by beta_reduce; rw [h, Pi.zero_apply, max_eq_left hd])
  refine ⟨by rw [hrow, maxFold_eq_sup, Pi.sup_apply]; rfl, ?_⟩
  refine (mul_nonneg_iff_of_pos_left quantumScale_pos).mp ?_
  exact hrow ▸ hd.trans (le_max_left _ _)

/-- With every row read and under the morphology check, `mean_error_per_pixel` is
`QuantumRange` times the composite of the mean absolute error. -/
theorem meanErrorPerPixel_eq (hmorph : validateImageMorphology image reconstruct = true)
    (hsched : sched.Complete (areaRows image reconstruct))
    (hok : ∀ y < areaRows image reconstruct, rowOk y = true) :
    (getMeanErrorPerPixel image reconstruct channel rowOk).2.2.meanErrorPerPixel =
      quantumRange * (getMeanAbsoluteDistortion image reconstruct channel sched rowOk).2 .composite := by
  have hmae : (getMeanAbsoluteDistortion image reconstruct channel sched rowOk).2 .composite =
      (∑ y in Finset.range (areaRows image reconstruct), ∑ x in Finset.range
          (areaColumns image reconstruct), guardedSum (channelGuard channel image.matte image.isCMYK)
            fun c => quantumScale * |pixelDelta image reconstruct x y c|) /
        ((areaColumns image reconstruct : ℝ) * areaRows image reconstruct) /
        getNumberChannels image channel :=
    congrArg (· / ((areaColumns image reconstruct : ℝ) * areaRows image reconstruct) /
      getNumberChannels image channel) (sumRows_composite hsched hok
        (t := fun x y c => quantumScale * |pixelDelta image reconstruct x y c|))
  rw [getMeanErrorPerPixel_of_ok image reconstruct channel hok]
  simp only [ErrorSums.info, foldl_meanErrorPixel_composite, foldl_meanErrorPixel_area,
    isCMYK_and_of_morphology hmorph, hmae, guardedSum_const_mul, ← Finset.mul_sum,
    Pi.zero_apply, zero_add]
  rw [mul_div_assoc, mul_div_assoc, ← mul_assoc, mul_comm quantumRange,
    quantumScale_mul_quantumRange, one_mul]
  exact perceptibleReciprocal_area_mul area_pos_of_sum_ne_zero getNumberChannels_of_pos

/-- With every row read and under the morphology check, `normalized_mean_error` is the
composite of the mean squared error. -/
theorem normalizedMeanError_eq (hmorph : validateImageMorphology image reconstruct = true)
    (hsched : sched.Complete (areaRows image reconstruct))
    (hok : ∀ y < areaRows image reconstruct, rowOk y = true) :
    (getMeanErrorPerPixel image reconstruct channel rowOk).2.2.normalizedMeanError =
      (getMeanSquaredDistortion image reconstruct channel sched rowOk).2 .composite := by
  have hmse : (getMeanSquaredDistortion image reconstruct channel sched rowOk).2 .composite =
      (∑ y in Finset.range (areaRows image reconstruct), ∑ x in Finset.range
          (areaColumns image reconstruct),
            guardedSum (channelGuard channel image.matte (image.isCMYK && reconstruct.isCMYK))
              fun c => (quantumScale * pixelDelta image reconstruct x y c) ^ 2) /
        ((areaColumns image reconstruct : ℝ) * areaRows image reconstruct) /
        getNumberChannels image channel :=
    congrArg (· / ((areaColumns image reconstruct : ℝ) * areaRows image reconstruct) /
      getNumberChannels image channel) (sumRows_composite hsched hok
        (t := fun x y c => (quantumScale * pixelDelta image reconstruct x y c) ^ 2))
  have hsq : ∀ d : ℝ, (quantumScale * d) ^ 2 = quantumScale * (quantumScale * (|d| * |d|)) :=
    fun d => by rw [abs_mul_abs_self]; ring
  rw [getMeanErrorPerPixel_of_ok image reconstruct channel hok]
  simp only [ErrorSums.info, foldl_meanErrorPixel_meanError, foldl_meanErrorPixel_area, hmse, hsq,
    guardedSum_const_mul, ← Finset.mul_sum, Pi.zero_apply, zero_add]
  rw [mul_assoc, mul_assoc]
  exact perceptibleReciprocal_area_mul
    (fun h => area_pos_of_sum_ne_zero (right_ne_zero_of_mul (right_ne_zero_of_mul h)))
    (getNumberChannels_of_morphology image reconstruct channel hmorph)

/-- With every row read and under the morphology check, the three fields that
`GetMeanErrorPerPixel` leaves in `image->error` are what the metrics compute: `QuantumRange`
times the mean absolute error, the mean squared error and the peak absolute error, each the
composite of its vector and each under any schedule. -/
theorem getMeanErrorPerPixel_legacy_fields (hmorph : validateImageMorphology image reconstruct = true)
    (hsched : sched.Complete (areaRows image reconstruct))
    (hok : ∀ y < areaRows image reconstruct, rowOk y = true) :
    (getMeanErrorPerPixel image reconstruct channel rowOk).2.2 =
      ⟨quantumRange * (getMeanAbsoluteDistortion image reconstruct channel sched rowOk).2 .composite,
        (getMeanSquaredDistortion image reconstruct channel sched rowOk).2 .composite,
        (getPeakAbsoluteDistortion image reconstruct channel sched rowOk).2 .composite⟩ := by
  rw [← meanErrorPerPixel_eq image reconstruct channel hmorph hsched hok,
    ← normalizedMeanError_eq image reconstruct channel hmorph hsched hok,
    ← normalizedMaximumError_eq image reconstruct channel hsched hok]

end Legacy

theorem getMeanErrorPerPixel_legacy_fields_whiteBlack :
    validateImageMorphology opaqueWhite opaqueBlack = true ∧
    (RowSchedule.single 1).Complete (areaRows opaqueWhite opaqueBlack) ∧
    (∀ y < areaRows opaqueWhite opaqueBlack, (fun _ => true : ℕ → Bool) y = true) ∧
    (getMeanErrorPerPixel opaqueWhite opaqueBlack compositeChannels fun _ => true).2.2 =
      ⟨quantumRange * (getMeanAbsoluteDistortion opaqueWhite opaqueBlack compositeChannels
          (.single 1) fun _ => true).2 .composite,
        (getMeanSquaredDistortion opaqueWhite opaqueBlack compositeChannels (.single 1)
          fun _ => true).2 .composite,
        (getPeakAbsoluteDistortion opaqueWhite opaqueBlack compositeChannels (.single 1)
          fun _ => true).2 .composite⟩ :=
  ⟨rfl, RowSchedule.single_complete 1, fun _ _ => rfl,
    getMeanErrorPerPixel_legacy_fields opaqueWhite opaqueBlack compositeChannels rfl
      (RowSchedule.single_complete 1) fun _ _ => rfl⟩

theorem accumulate_congr {g : Slot → Bool} {t u : Slot → ℝ} (h : ∀ c, g c = true → t c = u c)
    (v : DistortionVector) : accumulate g t v = accumulate g u v := by
  unfold accumulate
  congr 1 with w c
  split_ifs with hg
  · rw [h c hg]
  · rfl

/-- When both images have a matte or neither has, the fuzz metric reads what the mean squared
error reads, block for block: its vector is the mean squared one with the root taken of the
composite only, whatever the schedule and whatever fails. -/
theorem getFuzzDistortion_of_matte_eq (image reconstruct : Image) (channel : ChannelType)
    (h : image.matte = reconstruct.matte) (sched : RowSchedule) (rowOk : ℕ → Bool) :
    getFuzzDistortion image reconstruct channel sched rowOk =
      ((getMeanSquaredDistortion image reconstruct channel sched rowOk).1,
        Function.update (getMeanSquaredDistortion image reconstruct channel sched rowOk).2
          .composite (Real.sqrt
            ((getMeanSquaredDistortion image reconstruct channel sched rowOk).2 .composite))) := by
  have hpixel : fuzzPixel image reconstruct channel = meanSquaredPixel image reconstruct channel := by
    funext x y v
    rw [fuzzPixel, meanSquaredPixel, ← h, Bool.or_self]
    refine accumulate_congr (fun c hg => ?_) v
    cases c <;> simp_all [channelGuard, channelDelta]
  simp only [getFuzzDistortion, getMeanSquaredDistortion, hpixel]

theorem getFuzzDistortion_of_matte_eq_black :
    opaqueWhite.matte = opaqueBlack.matte ∧
    getFuzzDistortion opaqueWhite opaqueBlack allChannels (.single 1) (fun _ => true) =
      ((getMeanSquaredDistortion opaqueWhite opaqueBlack allChannels (.single 1) fun _ => true).1,
        Function.update (getMeanSquaredDistortion opaqueWhite opaqueBlack allChannels (.single 1)
          fun _ => true).2 .composite (Real.sqrt ((getMeanSquaredDistortion opaqueWhite opaqueBlack
            allChannels (.single 1) fun _ => true).2 .composite))) :=
  ⟨rfl, getFuzzDistortion_of_matte_eq opaqueWhite opaqueBlack allChannels rfl _ _⟩


end MagickCompare

end
