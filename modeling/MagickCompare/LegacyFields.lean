import MagickCompare.MeanError
/-! The legacy fields of `image->error` written twice. `GetImageDistortion` runs
`GetMeanErrorPerPixel` with `CompositeChannels`, and `IsImagesEqual` fills the same three
fields with its own loop: a guard of its own and no alpha weighting. On opaque pixels the
two loops are in step: pixel by pixel their running sums agree. -/

noncomputable section

namespace MagickCompare

theorem alphaWeight_of_opaqueOpacity (matte : Bool) {p : PixelPacket}
    (hp : p.opacity = opaqueOpacity) :
    alphaWeight matte p = 1 := by
  cases matte
  · exact alphaWeight_false p
  · simp [alphaWeight, getPixelAlpha, hp, opaqueOpacity, quantumScale_mul_quantumRange]

/-- Between opaque pixels, the alpha-weighted delta of a block is the plain difference
`IsImagesEqual` takes. -/
theorem abs_channelDelta_of_opaqueOpacity (image : Image) (daMatte : Bool) {p q : PixelPacket}
    (hp : p.opacity = opaqueOpacity) (hq : q.opacity = opaqueOpacity) (c : Slot) :
    |channelDelta image daMatte (p.opacity - q.opacity) p q c| = |c.value p - c.value q| := by
  cases c <;>
    simp [channelDelta, alphaWeight_of_opaqueOpacity _ hp, alphaWeight_of_opaqueOpacity _ hq, Slot.value]

theorem channelGuard_compositeChannels (image reconstruct : Image) :
    channelGuard compositeChannels image.matte (image.isCMYK && reconstruct.isCMYK) =
      imagesEqualGuard image reconstruct := by
  funext c
  cases c <;> simp [channelGuard, imagesEqualGuard]

/-- What the legacy fields read of the two accumulators: the composite of the vector
against the sum of `IsImagesEqual`, and the error sums. -/
structure LegacySums (s : DistortionVector × ErrorSums) (t : ℝ × ErrorSums) : Prop where
  composite : s.1 .composite = t.1
  sums : s.2 = t.2

section Opaque

variable {image reconstruct : Image}
  (himage : ∀ x y, (image.pixel x y).opacity = opaqueOpacity)
  (hrecon : ∀ x y, (reconstruct.pixel x y).opacity = opaqueOpacity)
include himage hrecon

theorem legacySums_pixel (x y : ℕ) {s : DistortionVector × ErrorSums} {t : ℝ × ErrorSums}
    (h : LegacySums s t) :
    LegacySums (meanErrorPixel image reconstruct compositeChannels x y s)
      (imagesEqualPixel image reconstruct x y t) := by
  unfold meanErrorPixel imagesEqualPixel
  rw [channelGuard_compositeChannels]
  refine foldl_rel LegacySums (fun s t c _ h => ?_) h
  simp only [abs_channelDelta_of_opaqueOpacity image reconstruct.matte (himage x y) (hrecon x y)]
  split_ifs
  · exact ⟨by simp [addTerm, h.composite], by simp [h.sums]⟩
  · exact h

/-- `GetMeanErrorPerPixel` with `CompositeChannels` (as `GetImageDistortion` runs it) and
`IsImagesEqual` write the same three legacy fields on every pair the morphology check
accepts, whatever rows fail to read: both loops leave at the same row with the same sums. -/
theorem getMeanErrorPerPixel_info_eq_isImagesEqual
    (hmorph : validateImageMorphology image reconstruct = true) (rowOk : ℕ → Bool) :
    (isImagesEqual image reconstruct rowOk).2 =
      some (getMeanErrorPerPixel image reconstruct compositeChannels rowOk).2.2 := by
  obtain ⟨-, hc, hs⟩ := @runRows_rel _ rowOk
    (fun s y => (List.range (areaColumns image reconstruct)).foldl
      (fun s x => meanErrorPixel image reconstruct compositeChannels x y s) s) _
    (fun t y => (List.range (areaColumns image reconstruct)).foldl
      (fun t x => imagesEqualPixel image reconstruct x y t) t) LegacySums
    (List.range (areaRows image reconstruct)) (0, ⟨0, 0, 0⟩) (0, ⟨0, 0, 0⟩) ⟨rfl, rfl⟩
    fun _ _ y _ _ h => foldl_rel LegacySums (fun _ _ x _ h => legacySums_pixel himage hrecon x y h) h
  simp only [isImagesEqual, getMeanErrorPerPixel, hmorph, if_true, hc, hs]

end Opaque

theorem getMeanErrorPerPixel_info_eq_isImagesEqual_whiteBlack :
    validateImageMorphology opaqueWhite opaqueBlack = true ∧
    (∀ x y, (opaqueWhite.pixel x y).opacity = opaqueOpacity) ∧
    (∀ x y, (opaqueBlack.pixel x y).opacity = opaqueOpacity) ∧
    (isImagesEqual opaqueWhite opaqueBlack fun _ => true).2 =
      some (getMeanErrorPerPixel opaqueWhite opaqueBlack compositeChannels fun _ => true).2.2 :=
  ⟨rfl, fun _ _ => rfl, fun _ _ => rfl,
    @getMeanErrorPerPixel_info_eq_isImagesEqual opaqueWhite opaqueBlack (fun _ _ => rfl)
      (fun _ _ => rfl) rfl _⟩

end MagickCompare

end
