import MagickCompare.Composite
/-! What a run of a metric's row loop computes. A run with every read folds each row once,
so a sum metric's raw vector is the sum over the comparison area of its pixel terms and the
peak metric's is at least each of them; a run with failed reads folds only some rows, each
at most once. From these, the composite of each metric vanishes exactly when every delta it
reads does. -/

noncomputable section

namespace MagickCompare

theorem sum_map_range {M : Type*} [AddCommMonoid M] (f : ℕ → M) (n : ℕ) :
    ((List.range n).map f).sum = ∑ y in Finset.range n, f y := by
  induction n with
  | zero => simp
  | succ n ih =>
    rw [List.range_succ, List.map_append, List.sum_append, ih, Finset.sum_range_succ]
    simp

theorem foldl_add_map {M : Type*} [AddCommMonoid M] (row : ℕ → M) (l : List ℕ) (d : M) :
    l.foldl (fun d y => d + row y) d = d + (l.map row).sum := by
  induction l generalizing d with
  | nil => simp
  | cons y l ih => rw [List.foldl_cons, ih, List.map_cons, List.sum_cons, add_assoc]

section Deltas

variable (image reconstruct : Image)

/-- The delta the mean absolute, mean squared and peak absolute metrics read at a pixel:
`Sa*p-Da*q` for red, green, blue and black, the opacity difference for opacity. -/
def pixelDelta (x y : ℕ) : Slot → ℝ :=
  channelDelta image reconstruct.matte
    ((image.pixel x y).opacity - (reconstruct.pixel x y).opacity) (image.pixel x y)
    (reconstruct.pixel x y)

/-- The delta the fuzz metric reads: its opacity block reads an image without matte as
opaque. -/
def fuzzDelta (x y : ℕ) : Slot → ℝ :=
  channelDelta image reconstruct.matte
    ((if image.matte then (image.pixel x y).opacity else opaqueOpacity) -
      (if reconstruct.matte then (reconstruct.pixel x y).opacity else opaqueOpacity))
    (image.pixel x y) (reconstruct.pixel x y)

/-- Every delta a metric reads vanishes on the comparison area: at every pixel, in every
channel block the metric's guard runs. -/
def DeltasVanish (guard : Slot → Bool) (delta : ℕ → ℕ → Slot → ℝ) : Prop :=
  ∀ y < areaRows image reconstruct, ∀ x < areaColumns image reconstruct,
    ∀ c ∈ channelOrder, guard c = true → delta x y c = 0

end Deltas

/-! ### Sum metrics -/

section Sums

variable {sched : RowSchedule} {rows : ℕ} {rowOk : ℕ → Bool}

/-- Whatever reads fail, the row loop of a sum metric folds each row at most once. -/
theorem ompRows_add_le (hc : sched.Complete rows) (rowOk : ℕ → Bool) {row : ℕ → DistortionVector}
    (hrow : ∀ y, 0 ≤ row y) :
    (ompRows sched rowOk (· + ·) row).2 ≤ ∑ y in Finset.range rows, row y := by
  obtain ⟨k, hk⟩ := runRows_prefix rowOk (fun d y => d + row y) sched.trace 0
  rw [ompRows, hk, foldl_add_map, zero_add, ← sum_map_range, ← (hc.trace_perm.map row).sum_eq]
  exact ((List.take_sublist k _).map row).sum_le_sum fun a ha => by
    obtain ⟨y, -, rfl⟩ := List.mem_map.mp ha
    exact hrow y

/-- With every read, the row loop of a sum metric folds each row exactly once. -/
theorem ompRows_add_eq_sum (hc : sched.Complete rows) (hok : ∀ y < rows, rowOk y = true)
    (row : ℕ → DistortionVector) :
    (ompRows sched rowOk (· + ·) row).2 = ∑ y in Finset.range rows, row y := by
  have hsingle : ∀ y ∈ (RowSchedule.single rows).trace, rowOk y = true := fun y hy =>
    hok y (List.mem_range.mp (by rwa [rowTrace_single] at hy))
  rw [ompRows_of_rowOk hc add_fold_comm hok, ompRows, runRows_of_ok _ _ hsingle, rowTrace_single,
    foldl_add_map, zero_add, sum_map_range]

theorem rowVector_accumulate_apply (columns : ℕ) (g : Slot → Bool) (t : ℕ → Slot → ℝ) {c : Slot}
    (hc : c ≠ .composite) :
    rowVector columns (fun x => accumulate g (t x)) c =
      ∑ x in Finset.range columns, if g c then t x c else 0 := by
  rw [rowVector, foldl_range_slot c _ _ (fun v x => accumulate_apply g (t x) v hc), Pi.zero_apply,
    zero_add]

theorem rowVector_accumulate_composite (columns : ℕ) (g : Slot → Bool) (t : ℕ → Slot → ℝ) :
    rowVector columns (fun x => accumulate g (t x)) .composite =
      ∑ x in Finset.range columns, guardedSum g (t x) := by
  rw [rowVector, foldl_range_slot .composite _ _ (fun v x => accumulate_composite g (t x) v),
    Pi.zero_apply, zero_add]

theorem sumRows_apply (hc : sched.Complete rows) (hok : ∀ y < rows, rowOk y = true)
    {columns : ℕ} {g : Slot → Bool} (t : ℕ → ℕ → Slot → ℝ) {c : Slot} (hcc : c ≠ .composite) :
    (ompRows sched rowOk (· + ·) fun y => rowVector columns fun x => accumulate g (t x y)).2 c =
      ∑ y in Finset.range rows, ∑ x in Finset.range columns, if g c then t x y c else 0 := by
  rw [ompRows_add_eq_sum hc hok, Finset.sum_apply]
  exact Finset.sum_congr rfl fun y _ => rowVector_accumulate_apply _ _ _ hcc

theorem sumRows_composite (hc : sched.Complete rows) (hok : ∀ y < rows, rowOk y = true)
    {columns : ℕ} {g : Slot → Bool} (t : ℕ → ℕ → Slot → ℝ) :
    (ompRows sched rowOk (· + ·) fun y => rowVector columns fun x => accumulate g (t x y)).2
        .composite =
      ∑ y in Finset.range rows, ∑ x in Finset.range columns, guardedSum g (t x y) := by
  rw [ompRows_add_eq_sum hc hok, Finset.sum_apply]
  exact Finset.sum_congr rfl fun y _ => rowVector_accumulate_composite _ _ _

theorem guardedSum_eq_zero_iff {g : Slot → Bool} {f : Slot → ℝ} (hf : ∀ c, 0 ≤ f c) :
    guardedSum g f = 0 ↔ ∀ c ∈ channelOrder, g c = true → f c = 0 := by
  rw [guardedSum_eq_sum, Finset.sum_eq_zero_iff_of_nonneg fun c _ => hf c]
  simp only [mem_guardedSet, and_imp]

/-- With every read, a sum metric's raw composite vanishes exactly when every guarded term
of the comparison area does. -/
theorem sumRows_composite_eq_zero_iff (hc : sched.Complete rows)
    (hok : ∀ y < rows, rowOk y = true) {columns : ℕ} {g : Slot → Bool} {t : ℕ → ℕ → Slot → ℝ}
    (ht : ∀ x y c, 0 ≤ t x y c) :
    (ompRows sched rowOk (· + ·) fun y => rowVector columns fun x => accumulate g (t x y)).2
        .composite = 0 ↔
      ∀ y < rows, ∀ x < columns, ∀ c ∈ channelOrder, g c = true → t x y c = 0 := by
  have hrow : ∀ y, 0 ≤ ∑ x in Finset.range columns, guardedSum g (t x y) := fun y =>
    Finset.sum_nonneg fun x _ => guardedSum_nonneg (ht x y)
  rw [sumRows_composite hc hok, Finset.sum_eq_zero_iff_of_nonneg fun y _ => hrow y]
  simp only [Finset.mem_range, Finset.sum_eq_zero_iff_of_nonneg fun x _ => guardedSum_nonneg (ht x _),
    guardedSum_eq_zero_iff (ht _ _)]

theorem normalizeMean_composite_eq_zero_iff {area : ℝ} (harea : area ≠ 0) {channels : ℕ}
    (hchannels : channels ≠ 0) (v : DistortionVector) :
    normalizeMean area channels v .composite = 0 ↔ v .composite = 0 := by
  rw [normalizeMean_composite, div_eq_zero_iff, div_eq_zero_iff]
  simp [harea, hchannels]

end Sums

/-! ### The peak metric -/

section Peak

theorem le_foldl_of_inflationary {β : Type*} {f : DistortionVector → β → DistortionVector}
    (hinf : ∀ v b, v ≤ f v b) (l : List β) (v : DistortionVector) : v ≤ l.foldl f v :=
  List.foldlRecOn (motive := (v ≤ ·)) _ _ _ le_rfl fun w hw b _ => hw.trans (hinf w b)

/-- In a loop whose steps only raise slots, a step that puts slot `i` at or above `a`
leaves it there. -/
theorem le_foldl_apply {β : Type*} {f : DistortionVector → β → DistortionVector}
    (hinf : ∀ v b, v ≤ f v b) {l : List β} {b : β} (hb : b ∈ l) {i : Slot} {a : ℝ}
    (ha : ∀ v, a ≤ f v b i) (v : DistortionVector) : a ≤ l.foldl f v i := by
  induction l generalizing v with
  | nil => simp at hb
  | cons b' l ih =>
    rw [List.foldl_cons]
    rcases List.mem_cons.mp hb with rfl | hb
    · exact (ha v).trans (le_foldl_of_inflationary hinf l _ i)
    · exact ih hb _

theorem le_update_max (v : DistortionVector) (j : Slot) (d : ℝ) :
    v ≤ Function.update v j (max (v j) d) := fun i => by
  rcases eq_or_ne i j with rfl | h
  · simp
  · simp [Function.update_noteq h]

theorem le_maxTerm (v : DistortionVector) (c : Slot) (d : ℝ) : v ≤ maxTerm v c d := by
  simp only [maxTerm, update_if_gt]
  exact (le_update_max v c d).trans (le_update_max _ _ _)

theorem le_maxTerm_apply (v : DistortionVector) {c : Slot} (hc : c ≠ .composite) (d : ℝ)
    {i : Slot} (hi : i = c ∨ i = .composite) : d ≤ maxTerm v c d i := by
  rw [maxTerm_eq_update v hc]
  rcases hi with rfl | rfl
  · simp [Function.update_noteq hc]
  · simp

variable (image reconstruct : Image) (channel : ChannelType)

theorem le_peakAbsolutePixel (x y : ℕ) (v : DistortionVector) :
    v ≤ peakAbsolutePixel image reconstruct channel x y v := by
  simp only [peakAbsolutePixel]
  exact le_foldl_of_inflationary (fun w c => by split_ifs; exacts [le_maxTerm _ _ _, le_rfl]) _ _

theorem term_le_peakAbsolutePixel {x y : ℕ} {c : Slot} (hc : c ∈ channelOrder)
    (hg : channelGuard channel image.matte (image.isCMYK && reconstruct.isCMYK) c = true)
    {i : Slot} (hi : i = c ∨ i = .composite) (v : DistortionVector) :
    quantumScale * |pixelDelta image reconstruct x y c| ≤
      peakAbsolutePixel image reconstruct channel x y v i := by
  simp only [peakAbsolutePixel]
  exact le_foldl_apply (fun w c => by split_ifs; exacts [le_maxTerm _ _ _, le_rfl]) hc
    (fun w => by rw [if_pos hg]; exact le_maxTerm_apply w (ne_composite_of_mem hc) _ hi) v

variable {sched : RowSchedule} {rowOk : ℕ → Bool}

/-- With every read, each term of the comparison area is at most the peak metric's slot
of its channel and its composite. -/
theorem term_le_getPeakAbsoluteDistortion (hsched : sched.Complete (areaRows image reconstruct))
    (hok : ∀ y < areaRows image reconstruct, rowOk y = true) {x y : ℕ}
    (hx : x < areaColumns image reconstruct) (hy : y < areaRows image reconstruct) {c : Slot}
    (hc : c ∈ channelOrder)
    (hg : channelGuard channel image.matte (image.isCMYK && reconstruct.isCMYK) c = true)
    {i : Slot} (hi : i = c ∨ i = .composite) :
    quantumScale * |pixelDelta image reconstruct x y c| ≤
      (getPeakAbsoluteDistortion image reconstruct channel sched rowOk).2 i := by
  have hsingle : ∀ y ∈ (RowSchedule.single (areaRows image reconstruct)).trace, rowOk y = true :=
    fun y hy => hok y (List.mem_range.mp (by rwa [rowTrace_single] at hy))
  rw [getPeakAbsoluteDistortion, ompRows_of_rowOk hsched maxFold_comm hok, ompRows,
    runRows_of_ok _ _ hsingle, rowTrace_single]
  refine le_foldl_apply (fun d r => by rw [maxFold_eq_sup]; exact le_sup_left)
    (List.mem_range.mpr hy) (fun d => ?_) 0
  rw [maxFold_eq_sup, Pi.sup_apply]
  exact le_sup_of_le_right (le_foldl_apply (fun v x => le_peakAbsolutePixel _ _ _ x y v)
    (List.mem_range.mpr hx) (term_le_peakAbsolutePixel image reconstruct channel hc hg hi) 0)

theorem getPeakAbsoluteDistortion_eq_zero (hsched : sched.Complete (areaRows image reconstruct))
    (h : DeltasVanish image reconstruct
      (channelGuard channel image.matte (image.isCMYK && reconstruct.isCMYK))
      (pixelDelta image reconstruct)) :
    (getPeakAbsoluteDistortion image reconstruct channel sched rowOk).2 = 0 := by
  refine ompRows_eq_zero (fun y hy => rowVector_eq_zero fun x hx => ?_)
    (funext fun _ => by simp [maxFold])
  have hy := List.mem_range.mp (hsched.trace_perm.subset hy)
  simp only [peakAbsolutePixel]
  refine List.foldlRecOn (motive := fun v : DistortionVector => v = 0) _ _ _ rfl
    fun v hv c hc => ?_
  subst hv
  split_ifs with hg
  · have h0 : pixelDelta image reconstruct x y c = 0 := h y hy x hx c hc hg
    simp only [pixelDelta] at h0
    rw [h0, abs_zero, mul_zero, maxTerm_zero]
  · rfl

end Peak

/-! ### When a composite vanishes -/

/-- The composite of each metric vanishes exactly when every delta the metric reads
vanishes on the comparison area. -/
structure ZeroLaws (image reconstruct : Image) (channel : ChannelType) (sched : RowSchedule)
    (rowOk : ℕ → Bool) : Prop where
  meanAbsolute :
    (getMeanAbsoluteDistortion image reconstruct channel sched rowOk).2 .composite = 0 ↔
      DeltasVanish image reconstruct (channelGuard channel image.matte image.isCMYK)
        (pixelDelta image reconstruct)
  meanSquared :
    (getMeanSquaredDistortion image reconstruct channel sched rowOk).2 .composite = 0 ↔
      DeltasVanish image reconstruct
        (channelGuard channel image.matte (image.isCMYK && reconstruct.isCMYK))
        (pixelDelta image reconstruct)
  rootMeanSquared :
    (getRootMeanSquaredDistortion image reconstruct channel sched rowOk).2 .composite = 0 ↔
      DeltasVanish image reconstruct
        (channelGuard channel image.matte (image.isCMYK && reconstruct.isCMYK))
        (pixelDelta image reconstruct)
  fuzz :
    (getFuzzDistortion image reconstruct channel sched rowOk).2 .composite = 0 ↔
      DeltasVanish image reconstruct
        (channelGuard channel (image.matte || reconstruct.matte)
          (image.isCMYK && reconstruct.isCMYK))
        (fuzzDelta image reconstruct)
  peakAbsolute :
    (getPeakAbsoluteDistortion image reconstruct channel sched rowOk).2 .composite = 0 ↔
      DeltasVanish image reconstruct
        (channelGuard channel image.matte (image.isCMYK && reconstruct.isCMYK))
        (pixelDelta image reconstruct)

section Zero

variable (image reconstruct : Image) (channel : ChannelType) {sched : RowSchedule}
  {rowOk : ℕ → Bool}

theorem area_ne_zero : ((areaColumns image reconstruct : ℝ) * areaRows image reconstruct) ≠ 0 :=
  mul_ne_zero (Nat.cast_ne_zero.mpr (areaColumns_pos _ _).ne')
    (Nat.cast_ne_zero.mpr (areaRows_pos _ _).ne')

/-- With every read, under any schedule, the composite of each of the five pixel-error
metrics vanishes exactly when every delta it reads vanishes on the comparison area. -/
theorem zeroLaws_of_complete (hsched : sched.Complete (areaRows image reconstruct))
    (hok : ∀ y < areaRows image reconstruct, rowOk y = true) :
    ZeroLaws image reconstruct channel sched rowOk := by
  have hch := (getNumberChannels_pos image channel).ne'
  have hqs := quantumScale_pos.ne'
  have hmse : (getMeanSquaredDistortion image reconstruct channel sched rowOk).2 .composite = 0 ↔
      DeltasVanish image reconstruct
        (channelGuard channel image.matte (image.isCMYK && reconstruct.isCMYK))
        (pixelDelta image reconstruct) := by
    refine (normalizeMean_composite_eq_zero_iff (area_ne_zero _ _) hch _).trans
      ((sumRows_composite_eq_zero_iff
        (t := fun x y c => (quantumScale * pixelDelta image reconstruct x y c) ^ 2) hsched hok
        fun _ _ _ => sq_nonneg _).trans ?_)
    simp only [DeltasVanish, pow_eq_zero_iff two_ne_zero, mul_eq_zero, hqs, false_or]
  refine ⟨?_, hmse, ?_, ?_, ⟨fun h y hy x hx c hc hg => ?_, fun h => ?_⟩⟩
  · refine (normalizeMean_composite_eq_zero_iff (area_ne_zero _ _) hch _).trans
      ((sumRows_composite_eq_zero_iff
        (t := fun x y c => quantumScale * |pixelDelta image reconstruct x y c|) hsched hok
        fun _ _ _ => mul_nonneg quantumScale_nonneg (abs_nonneg _)).trans ?_)
    simp only [DeltasVanish, mul_eq_zero, hqs, false_or, abs_eq_zero]
  · rw [← hmse]
    exact Real.sqrt_eq_zero (getMeanSquaredDistortion_nonneg _ _ _ _ _ _)
  · have hraw := @sumRows_composite_eq_zero_iff sched _ rowOk hsched hok
      (areaColumns image reconstruct)
      (channelGuard channel (image.matte || reconstruct.matte) (image.isCMYK && reconstruct.isCMYK))
      (fun x y c => (quantumScale * fuzzDelta image reconstruct x y c) ^ 2) fun _ _ _ => sq_nonneg _
    have hnonneg : 0 ≤ normalizeMean ((areaColumns image reconstruct : ℝ) * areaRows image reconstruct)
        (getNumberChannels image channel) (ompRows sched rowOk (· + ·) fun y =>
          rowVector (areaColumns image reconstruct) fun x =>
            fuzzPixel image reconstruct channel x y).2 .composite :=
      normalizeMean_nonneg (by positivity) _ (ompRows_nonneg (fun _ => rowVector_nonneg
        fun _ _ hv => accumulate_nonneg (fun _ => sq_nonneg _) hv)
        fun _ _ hd hv => add_nonneg hd hv) _
    simp only [getFuzzDistortion, Function.update_same]
    rw [Real.sqrt_eq_zero hnonneg, normalizeMean_composite_eq_zero_iff (area_ne_zero _ _) hch]
    refine hraw.trans ?_
    simp only [DeltasVanish, pow_eq_zero_iff two_ne_zero, mul_eq_zero, hqs, false_or]
  · have hle := term_le_getPeakAbsoluteDistortion image reconstruct channel hsched hok hx hy hc hg
      (Or.inr rfl)
    rw [h] at hle
    exact abs_eq_zero.mp ((mul_eq_zero.mp (le_antisymm hle
      (mul_nonneg quantumScale_nonneg (abs_nonneg _)))).resolve_left hqs)
  · rw [getPeakAbsoluteDistortion_eq_zero image reconstruct channel hsched h]
    rfl

theorem zeroLaws_of_complete_whiteBlack :
    (RowSchedule.single 1).Complete (areaRows opaqueWhite opaqueBlack) ∧
    (∀ y < areaRows opaqueWhite opaqueBlack, (fun _ => true : ℕ → Bool) y = true) ∧
    ZeroLaws opaqueWhite opaqueBlack allChannels (.single 1) (fun _ => true) :=
  ⟨RowSchedule.single_complete 1, fun _ _ => rfl,
    zeroLaws_of_complete opaqueWhite opaqueBlack allChannels (RowSchedule.single_complete 1)
      fun _ _ => rfl⟩

end Zero

end MagickCompare

end
