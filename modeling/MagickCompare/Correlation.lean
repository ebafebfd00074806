import MagickCompare.Metrics
/-! The metrics that read whole-image data from the external providers:
`GetNormalizedCrossCorrelationDistortion`, from per-channel statistics, and
`GetPerceptualHashDistortion`, from perceptual-hash moments. Each provider may fail,
and the metric then returns `MagickFalse` with the caller's zeroed vector. -/

noncomputable section

namespace MagickCompare

structure ChannelStatistics where
  mean : ℝ
  standardDeviation : ℝ

structure ChannelPerceptualHash where
  P : ℕ → ℝ
  Q : ℕ → ℝ

/-- `MaximumNumberOfImageMoments` (`statistic.h`, not part of the source). -/
def maximumNumberOfImageMoments : ℕ := 8

section CrossCorrelation

variable (image reconstruct : Image) (channel : ChannelType)
  (imageStatistics reconstructStatistics : Slot → ChannelStatistics)

def correlationTerm (p q : PixelPacket) : Slot → ℝ
  | .opacity => (p.opacity - (imageStatistics .opacity).mean) *
      (q.opacity - (reconstructStatistics .opacity).mean)
  | c => (alphaWeight image.matte p * c.value p - (imageStatistics c).mean) *
      (alphaWeight reconstruct.matte q * c.value q - (reconstructStatistics c).mean)

def correlationPixel (area : ℝ) (x y : ℕ) (v : DistortionVector) : DistortionVector :=
  let p := image.pixel x y
  let q := reconstruct.pixel x y
  let guard := channelGuard channel image.matte (image.isCMYK && reconstruct.isCMYK)
  channelOrder.foldl (fun v c =>
    if guard c then
      Function.update v c
        (v c + area * quantumScale *
          correlationTerm image reconstruct imageStatistics reconstructStatistics p q c)
    else v) v

/-- Division by the standard deviations, then the composite: the root of the mean
square of the channel slots the composite block selects. -/
def correlationNormalize (v : DistortionVector) : DistortionVector :=
  let d : DistortionVector := fun i =>
    if i = .composite then v i
    else quantumRange * perceptibleReciprocal ((imageStatistics i).standardDeviation *
      (reconstructStatistics i).standardDeviation) * v i
  let guard := channelGuard channel image.matte image.isCMYK
  let sum := channelOrder.foldl (fun s c => if guard c then s + d c * d c else s) 0
  Function.update d .composite (Real.sqrt (sum / getNumberChannels image channel))

end CrossCorrelation

/-- The loop runs on one thread, row by row; a failed row read, or the progress monitor
answering `MagickFalse` after a row (`progressOk`), clears `status` and skips the rest. -/
def getNormalizedCrossCorrelationDistortion (image reconstruct : Image) (channel : ChannelType)
    (statistics : Image → Option (Slot → ChannelStatistics)) (rowOk progressOk : ℕ → Bool) :
    Bool × DistortionVector :=
  match statistics image, statistics reconstruct with
  | some is, some rs =>
    let columns := areaColumns image reconstruct
    let rows := areaRows image reconstruct
    let area := 1 / ((columns : ℝ) * rows)
    let r := runMonitoredRows rowOk progressOk
      (fun v y => (List.range columns).foldl
        (fun v x => correlationPixel image reconstruct channel is rs area x y v) v)
      (List.range rows) 0
    (r.1, correlationNormalize image channel is rs r.2)
  | _, _ => (false, 0)

def getPerceptualHashDistortion (image reconstruct : Image) (channel : ChannelType)
    (perceptualHash : Image → Option (Slot → ChannelPerceptualHash)) :
    Bool × DistortionVector :=
  match perceptualHash image, perceptualHash reconstruct with
  | some ip, some rp =>
    let guard := channelGuard channel (image.matte && reconstruct.matte)
      (image.isCMYK && reconstruct.isCMYK)
    let moments := List.range maximumNumberOfImageMoments
    let v := moments.foldl (fun v i => accumulate guard (fun c => ((rp c).P i - (ip c).P i) ^ 2) v) 0
    (true, moments.foldl (fun v i => accumulate guard (fun c => ((rp c).Q i - (ip c).Q i) ^ 2) v) v)
  | _, _ => (false, 0)

end MagickCompare

end
