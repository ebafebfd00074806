import MagickCompare.Highlight
import MagickCompare.Distortion
/-! Which image is passed as the reconstruction. Every loop reads the two pixels, the
two alpha weights and the two images' configurations; exchanging the images negates
each delta, which the metrics square or take the absolute value of. What does not
exchange is where a loop reads one image's configuration alone: the guard of the opacity
block and the channel count of the composite mean follow the image, and
`GetAbsoluteDistortion` takes both alpha weights from it. These agree when the two
mattes do, and the morphology check, which counts channels without opacity, does not
ask that they do. -/

noncomputable section

namespace MagickCompare

section Swap

variable {image reconstruct : Image}

end Swap

/-! ### Each metric under the exchange -/

section Metrics

variable {image reconstruct : Image} (hm : image.matte = reconstruct.matte)
  (hc : image.isCMYK = reconstruct.isCMYK) (channel : ChannelType)

end Metrics

/-! ### The published distortion -/

/-- On one pixel, the mean squared error is the guarded sum of the squared deltas over the
image's channel count. -/
theorem getMeanSquaredDistortion_pixel {image reconstruct : Image} (channel : ChannelType)
    (hcols : areaColumns image reconstruct = 1) (hrows : areaRows image reconstruct = 1) :
    getMeanSquaredDistortion image reconstruct channel (.single 1) (fun _ => true) =
      (true, normalizeMean 1 (getNumberChannels image channel)
        (meanSquaredPixel image reconstruct channel 0 0 0)) := by
  simp only [getMeanSquaredDistortion, ompRows, runRows_of_ok _ _ (fun _ _ => rfl),
    rowTrace_single, hcols, hrows, rowVector, show List.range 1 = [0] from rfl, List.foldl_cons,
    List.foldl_nil, zero_add, Nat.cast_one, mul_one]

end MagickCompare

end
