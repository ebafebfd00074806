import MagickCompare.Metrics
import Mathlib.Algebra.Order.BigOperators.Group.Finset
/-! The two loops that compute the legacy error fields of `image->error`:
`GetMeanErrorPerPixel`, a metric of the engine, and `IsImagesEqual`. Both run on one
thread and leave the row loop at the first failed read (`break`). -/

noncomputable section

namespace MagickCompare

/-- The running sums both loops keep beside their per-pixel error. -/
structure ErrorSums where
  meanError : ℝ
  maximumError : ℝ
  area : ℝ

/-- `mean_error+=distance*distance; if (distance > maximum_error)
maximum_error=distance; area++;` -/
def ErrorSums.add (s : ErrorSums) (distance : ℝ) : ErrorSums :=
  ⟨s.meanError + distance * distance,
    if distance > s.maximumError then distance else s.maximumError, s.area + 1⟩

structure ErrorInfo where
  meanErrorPerPixel : ℝ
  normalizedMeanError : ℝ
  normalizedMaximumError : ℝ

def ErrorSums.info (s : ErrorSums) (perPixel : ℝ) : ErrorInfo :=
  let gamma := perceptibleReciprocal s.area
  ⟨gamma * perPixel, gamma * quantumScale * quantumScale * s.meanError,
    quantumScale * s.maximumError⟩

section MeanErrorPerPixel

variable (image reconstruct : Image) (channel : ChannelType)

def meanErrorPixel (x y : ℕ) (s : DistortionVector × ErrorSums) :
    DistortionVector × ErrorSums :=
  let p := image.pixel x y
  let q := reconstruct.pixel x y
  let guard := channelGuard channel image.matte (image.isCMYK && reconstruct.isCMYK)
  channelOrder.foldl (fun s c =>
    if guard c then
      let distance := |channelDelta image reconstruct.matte (p.opacity - q.opacity) p q c|
      (addTerm s.1 c distance, s.2.add distance)
    else s) s

/-- The vector is left unnormalised; the side output is `image->error`. -/
def getMeanErrorPerPixel (rowOk : ℕ → Bool) : Bool × DistortionVector × ErrorInfo :=
  let r := runRows rowOk
    (fun s y => (List.range (areaColumns image reconstruct)).foldl
      (fun s x => meanErrorPixel image reconstruct channel x y s) s)
    (List.range (areaRows image reconstruct)) (0, ⟨0, 0, 0⟩)
  (r.1, r.2.1, r.2.2.info (r.2.1 .composite))

end MeanErrorPerPixel

section ImagesEqual

variable (image reconstruct : Image)

/-- Red, green and blue always; opacity for a matte image; black for two CMYK images. -/
def imagesEqualGuard : Slot → Bool
  | .opacity => image.matte
  | .black => image.isCMYK && reconstruct.isCMYK
  | _ => true

def imagesEqualPixel (x y : ℕ) (s : ℝ × ErrorSums) : ℝ × ErrorSums :=
  let p := image.pixel x y
  let q := reconstruct.pixel x y
  channelOrder.foldl (fun s c =>
    if imagesEqualGuard image reconstruct c then
      let distance := |c.value p - c.value q|
      (s.1 + distance, s.2.add distance)
    else s) s

/-- The verdict, and the legacy fields when they are written: a morphology mismatch
throws before any of them is set. A failed row read leaves the loop without touching
the verdict's inputs. -/
def isImagesEqual (rowOk : ℕ → Bool) : Bool × Option ErrorInfo :=
  if validateImageMorphology image reconstruct then
    let r := runRows rowOk
      (fun s y => (List.range (areaColumns image reconstruct)).foldl
        (fun s x => imagesEqualPixel image reconstruct x y s) s)
      (List.range (areaRows image reconstruct)) (0, ⟨0, 0, 0⟩)
    let info := r.2.2.info r.2.1
    (info.meanErrorPerPixel == 0, some info)
  else (false, none)

def imagesEqualDistance (x y : ℕ) : ℝ :=
  guardedSum (imagesEqualGuard image reconstruct) fun c =>
    |c.value (image.pixel x y) - c.value (reconstruct.pixel x y)|

theorem imagesEqualDistance_nonneg (x y : ℕ) : 0 ≤ imagesEqualDistance image reconstruct x y :=
  List.sum_nonneg (by simp only [List.mem_map]; rintro _ ⟨c, -, rfl⟩; split_ifs <;> simp)

theorem imagesEqualPixel_fst (x y : ℕ) (s : ℝ × ErrorSums) :
    (imagesEqualPixel image reconstruct x y s).1 =
      s.1 + imagesEqualDistance image reconstruct x y := by
  suffices ∀ (l : List Slot) (s : ℝ × ErrorSums), (l.foldl (fun s c =>
      if imagesEqualGuard image reconstruct c then
        (s.1 + |c.value (image.pixel x y) - c.value (reconstruct.pixel x y)|,
          s.2.add |c.value (image.pixel x y) - c.value (reconstruct.pixel x y)|)
      else s) s).1 = s.1 + (l.map fun c => if imagesEqualGuard image reconstruct c then
        |c.value (image.pixel x y) - c.value (reconstruct.pixel x y)| else 0).sum from
    this channelOrder s
  intro l
  induction l with
  | nil => simp
  | cons c l ih =>
    intro s
    by_cases hg : imagesEqualGuard image reconstruct c = true <;> simp [ih, hg, add_assoc]

theorem isImagesEqual_true_iff {rowOk : ℕ → Bool}
    (hok : ∀ y < areaRows image reconstruct, rowOk y = true) :
    (isImagesEqual image reconstruct rowOk).1 = true ↔
      validateImageMorphology image reconstruct = true ∧
        ∑ y in Finset.range (areaRows image reconstruct),
          ∑ x in Finset.range (areaColumns image reconstruct),
            imagesEqualDistance image reconstruct x y = 0 := by
  unfold isImagesEqual
  cases validateImageMorphology image reconstruct
  · simp
  · rw [runRows_of_ok _ _ (fun y hy => hok y (List.mem_range.mp hy))]
    simp only [if_true, ErrorSums.info, beq_iff_eq, mul_eq_zero, perceptibleReciprocal_ne_zero,
      false_or, true_and]
    rw [foldl_range_val Prod.fst _ _ (fun s y => foldl_range_val Prod.fst _ _
      (fun s x => imagesEqualPixel_fst image reconstruct x y s) _ s), zero_add]

/-- A failed read of the first row leaves the loop before any pixel is compared, and the
verdict is then `MagickTrue`. -/
theorem isImagesEqual_of_first_row_failure {rowOk : ℕ → Bool}
    (hmorph : validateImageMorphology image reconstruct = true) (h0 : rowOk 0 = false) :
    (isImagesEqual image reconstruct rowOk).1 = true := by
  obtain ⟨n, hn⟩ : ∃ n, areaRows image reconstruct = n + 1 :=
    Nat.exists_eq_succ_of_ne_zero (lt_max_of_lt_left image.rows_pos).ne'
  simp [isImagesEqual, hmorph, runRows, hn, List.range_succ_eq_map, rowStep, h0,
    foldl_rowStep_false, ErrorSums.info]

/-- With every row read, two images are equal exactly when the gate passes and, at every
pixel of the comparison area, red, green and blue agree, opacity agrees when the image
has matte, and black agrees when both are CMYK. -/
theorem isImagesEqual_iff_channels_equal {rowOk : ℕ → Bool}
    (hok : ∀ y < areaRows image reconstruct, rowOk y = true) :
    (isImagesEqual image reconstruct rowOk).1 = true ↔
      validateImageMorphology image reconstruct = true ∧
      ∀ y < areaRows image reconstruct, ∀ x < areaColumns image reconstruct,
        ∀ c ∈ channelOrder, imagesEqualGuard image reconstruct c = true →
          c.value (image.pixel x y) = c.value (reconstruct.pixel x y) := by
  rw [isImagesEqual_true_iff image reconstruct hok, Finset.sum_eq_zero_iff_of_nonneg
    fun y _ => Finset.sum_nonneg fun x _ => imagesEqualDistance_nonneg image reconstruct x y]
  simp only [Finset.mem_range]
  refine and_congr_right fun _ => forall₂_congr fun y _ => ?_
  rw [Finset.sum_eq_zero_iff_of_nonneg fun x _ => imagesEqualDistance_nonneg image reconstruct x y]
  simp only [Finset.mem_range, imagesEqualDistance, guardedSum_abs_eq_zero, sub_eq_zero]

end ImagesEqual

/-! One-pixel images: black without matte, black with matte and fully transparent, and
white without matte. -/

def opaqueBlack : Image :=
  ⟨1, 1, false, .otherColorspace, 0, fun _ _ => ⟨0, 0, 0, opaqueOpacity, 0⟩, one_pos, one_pos⟩

def transparentBlack : Image :=
  ⟨1, 1, true, .otherColorspace, 0, fun _ _ => ⟨0, 0, 0, quantumRange, 0⟩, one_pos, one_pos⟩

def opaqueWhite : Image :=
  ⟨1, 1, false, .otherColorspace, 0, fun _ _ => ⟨quantumRange, quantumRange, quantumRange,
    opaqueOpacity, 0⟩, one_pos, one_pos⟩

theorem isImagesEqual_iff_channels_equal_black :
    (∀ y < areaRows opaqueBlack transparentBlack, (fun _ => true : ℕ → Bool) y = true) ∧
    ((isImagesEqual opaqueBlack transparentBlack fun _ => true).1 = true ↔
      validateImageMorphology opaqueBlack transparentBlack = true ∧
      ∀ y < areaRows opaqueBlack transparentBlack, ∀ x < areaColumns opaqueBlack transparentBlack,
        ∀ c ∈ channelOrder, imagesEqualGuard opaqueBlack transparentBlack c = true →
          c.value (opaqueBlack.pixel x y) = c.value (transparentBlack.pixel x y)) :=
  ⟨fun _ _ => rfl, isImagesEqual_iff_channels_equal _ _ fun _ _ => rfl⟩

/-- An opaque image and a fully transparent one are reported equal: opacity is compared
only when the first image has matte. -/
theorem isImagesEqual_opaque_transparent :
    validateImageMorphology opaqueBlack transparentBlack = true ∧
    (transparentBlack.pixel 0 0).opacity ≠ (opaqueBlack.pixel 0 0).opacity ∧
    (isImagesEqual opaqueBlack transparentBlack fun _ => true).1 = true := by
  have hmorph : validateImageMorphology opaqueBlack transparentBlack = true := rfl
  refine ⟨hmorph, by norm_num [transparentBlack, opaqueBlack, quantumRange, opaqueOpacity],
    (isImagesEqual_true_iff _ _ fun _ _ => rfl).mpr ⟨hmorph, ?_⟩⟩
  simp [areaRows, areaColumns, opaqueBlack, transparentBlack, imagesEqualDistance, guardedSum,
    channelOrder, imagesEqualGuard, Slot.value]

end MagickCompare

end
