import Mathlib.Data.Real.EReal
import Mathlib.Tactic.DeriveFintype
/-! Data model of `magick/compare.c`: channel masks, pixels, images and the shared
helpers (`GetNumberChannels`, `ValidateImageMorphology`, the alpha weights).

Channel values and every accumulator are exact reals, so every equality proved of the
engine is one of real arithmetic: `double` rounding is not modelled, and in the source such
an equality holds only up to it. The constants of
`magick-type.h`, which is not part of the source, are those of the default Q16 build. -/

noncomputable section

namespace MagickCompare

/-- `ChannelType` is a bit mask (`magick-type.h`, not part of the source). -/
abbrev ChannelType := ℕ

def redChannel : ChannelType := 0x0001
def greenChannel : ChannelType := 0x0002
def blueChannel : ChannelType := 0x0004
def opacityChannel : ChannelType := 0x0008
/-- `IndexChannel`, also `BlackChannel`. -/
def indexChannel : ChannelType := 0x0020
def compositeChannels : ChannelType := 0x002F
def allChannels : ChannelType := 0x7ffffff
def syncChannels : ChannelType := 0x0100
/-- `(AllChannels | SyncChannels) &~ OpacityChannel`: the opacity bit is set in the
union, so clearing it is an exclusive or. -/
def defaultChannels : ChannelType := (allChannels ||| syncChannels) ^^^ opacityChannel

/-- The slots of a distortion vector that the metrics write. The source indexes its
`CompositeChannels+1` doubles by channel bit; the other indices are never written. -/
inductive Slot
  | red | green | blue | opacity | black | composite
  deriving DecidableEq, Repr, Fintype

def Slot.bit : Slot → ChannelType
  | .red => redChannel
  | .green => greenChannel
  | .blue => blueChannel
  | .opacity => opacityChannel
  | .black => indexChannel
  | .composite => compositeChannels

/-- `(channel & bit) != 0`. -/
def selects (channel : ChannelType) (c : Slot) : Bool := channel &&& c.bit != 0

@[simp] theorem selects_allChannels (c : Slot) : selects allChannels c = true := by
  cases c <;> decide

@[simp] theorem selects_compositeChannels (c : Slot) : selects compositeChannels c = true := by
  cases c <;> decide

/-- A `PixelPacket` together with the `IndexPacket` beside it (black of CMYK). -/
structure PixelPacket where
  red : ℝ
  green : ℝ
  blue : ℝ
  opacity : ℝ
  index : ℝ

/-- The value a channel slot reads from a pixel. -/
def Slot.value : Slot → PixelPacket → ℝ
  | .red, p => p.red
  | .green, p => p.green
  | .blue, p => p.blue
  | .opacity, p => p.opacity
  | .black, p => p.index
  | .composite, _ => 0

/-- The five channel blocks of every per-pixel loop, in source order. -/
def channelOrder : List Slot := [.red, .green, .blue, .opacity, .black]

theorem mem_channelOrder {c : Slot} : c ∈ channelOrder ↔ c ≠ .composite := by
  cases c <;> decide

theorem ne_composite_of_mem {c : Slot} (hc : c ∈ channelOrder) : c ≠ .composite :=
  mem_channelOrder.mp hc

inductive ColorspaceType
  | cmykColorspace
  | otherColorspace
  deriving DecidableEq, Repr

/-- An image as the comparison reads it. `pixel x y` is what a virtual cache view
returns at column `x` of row `y`: the stored pixel inside the image and, outside it,
the pixel source's boundary extension. Images have at least one row and column. -/
structure Image where
  columns : ℕ
  rows : ℕ
  matte : Bool
  colorspace : ColorspaceType
  fuzz : ℝ
  pixel : ℕ → ℕ → PixelPacket
  columns_pos : 0 < columns
  rows_pos : 0 < rows

def Image.isCMYK (image : Image) : Bool := image.colorspace == .cmykColorspace

/-! ### Constants and helpers the source takes from other headers -/

/-- `QuantumRange` of the Q16 build. -/
def quantumRange : ℝ := 65535

def quantumScale : ℝ := 1 / quantumRange

def opaqueOpacity : ℝ := 0

def magickEpsilon : ℝ := 1.0e-12

def magickMaximumValue : ℝ := 1.79769313486231570e308

/-- `GetPixelAlpha`: `QuantumRange - opacity`. -/
def getPixelAlpha (p : PixelPacket) : ℝ := quantumRange - p.opacity

/-- The alpha weight `Sa`/`Da`:
`QuantumScale*(matte ? GetPixelAlpha(p) : (QuantumRange-OpaqueOpacity))`. -/
def alphaWeight (matte : Bool) (p : PixelPacket) : ℝ :=
  quantumScale * (if matte then getPixelAlpha p else quantumRange - opaqueOpacity)

theorem quantumScale_nonneg : 0 ≤ quantumScale := by norm_num [quantumScale, quantumRange]

theorem quantumScale_mul_quantumRange : quantumScale * quantumRange = 1 := by
  norm_num [quantumScale, quantumRange]

theorem quantumScale_pos : 0 < quantumScale := by norm_num [quantumScale, quantumRange]

/-- Without matte, a pixel weighs fully. -/
@[simp] theorem alphaWeight_false (p : PixelPacket) : alphaWeight false p = 1 := by
  simp [alphaWeight, opaqueOpacity, quantumScale_mul_quantumRange]

/-- Modelled from the spec: `GetFuzzyColorDistance` is not in the source. The fuzz
threshold is the squared configured fuzz factor, the larger of the two images'. -/
def getFuzzyColorDistance (image reconstruct : Image) : ℝ :=
  max image.fuzz reconstruct.fuzz ^ 2

/-- Modelled from the spec: `PerceptibleReciprocal` is not in the source. It is the
reciprocal-with-epsilon policy for degenerate statistics and areas. -/
def perceptibleReciprocal (x : ℝ) : ℝ :=
  let sign : ℝ := if x < 0 then -1 else 1
  if magickEpsilon ≤ sign * x then 1 / x else sign / magickEpsilon

theorem perceptibleReciprocal_ne_zero (x : ℝ) : perceptibleReciprocal x ≠ 0 := by
  have heps : (0 : ℝ) < magickEpsilon := by norm_num [magickEpsilon]
  simp only [perceptibleReciprocal]
  split_ifs
  · exact one_div_ne_zero (by rintro rfl; linarith)
  · exact div_ne_zero (by norm_num) heps.ne'
  · exact one_div_ne_zero (by rintro rfl; linarith)
  · exact div_ne_zero one_ne_zero heps.ne'

/-! ### Channel counting and morphology -/

def getNumberChannels (image : Image) (channel : ChannelType) : ℕ :=
  let channels :=
    (if selects channel .red then 1 else 0) + (if selects channel .green then 1 else 0) +
    (if selects channel .blue then 1 else 0) +
    (if selects channel .opacity && image.matte then 1 else 0) +
    (if selects channel .black && image.isCMYK then 1 else 0)
  if channels = 0 then 1 else channels

theorem getNumberChannels_pos (image : Image) (channel : ChannelType) :
    0 < getNumberChannels image channel :=
  (fun n : ℕ => show 0 < if n = 0 then 1 else n by split_ifs <;> omega) _

def validateImageMorphology (image reconstruct : Image) : Bool :=
  getNumberChannels image defaultChannels == getNumberChannels reconstruct defaultChannels

inductive MetricType
  | undefinedErrorMetric
  | absoluteErrorMetric
  | meanAbsoluteErrorMetric
  | meanErrorPerPixelMetric
  | meanSquaredErrorMetric
  | peakAbsoluteErrorMetric
  | peakSignalToNoiseRatioMetric
  | rootMeanSquaredErrorMetric
  | normalizedCrossCorrelationErrorMetric
  | fuzzErrorMetric
  | perceptualHashErrorMetric
  deriving DecidableEq, Repr

end MagickCompare

end
