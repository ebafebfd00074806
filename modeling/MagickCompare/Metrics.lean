import MagickCompare.Image
import MagickCompare.RowLoop
import Mathlib.Analysis.SpecialFunctions.Log.Base
import Mathlib.Analysis.SpecialFunctions.Sqrt
import Mathlib.Algebra.BigOperators.Intervals
/-! The row-parallel metrics of the engine: `GetAbsoluteDistortion`,
`GetFuzzDistortion`, `GetMeanAbsoluteDistortion`, `GetMeanSquaredDistortion` and
`GetPeakAbsoluteDistortion`, and the two transforms of the mean squared vector,
`GetRootMeanSquaredDistortion` and `GetPeakSignalToNoiseRatio`.

Each loop body is five channel blocks in the order red, green, blue, opacity, black;
a block runs when its guard holds. Each metric has its own guard, delta and update,
written here as the source has them. -/

noncomputable section

namespace MagickCompare

/-- A distortion vector, indexed by channel slot. -/
abbrev DistortionVector := Slot → ℝ

/-- The comparison area: the larger columns and rows of the two images. -/
def areaColumns (image reconstruct : Image) : ℕ := max image.columns reconstruct.columns

def areaRows (image reconstruct : Image) : ℕ := max image.rows reconstruct.rows

theorem areaColumns_pos (image reconstruct : Image) : 0 < areaColumns image reconstruct :=
  lt_max_of_lt_left image.columns_pos

theorem areaRows_pos (image reconstruct : Image) : 0 < areaRows image reconstruct :=
  lt_max_of_lt_left image.rows_pos

/-- The guard of a channel block: `(channel & bit) != 0`, and for opacity and black the
test each loop adds on the images. -/
def channelGuard (channel : ChannelType) (opacityOk blackOk : Bool) : Slot → Bool
  | .opacity => selects channel .opacity && opacityOk
  | .black => selects channel .black && blackOk
  | c => selects channel c

/-- `Sa*p-Da*q` in the red, green, blue and black blocks, `Sa` from the image's matte
and `Da` from `daMatte`; the opacity block compares `opacity` unweighted. -/
def channelDelta (image : Image) (daMatte : Bool) (opacity : ℝ) (p q : PixelPacket) :
    Slot → ℝ
  | .opacity => opacity
  | c => alphaWeight image.matte p * c.value p - alphaWeight daMatte q * c.value q

/-- A row's partial vector: zeroed by `memset`, then updated pixel by pixel. -/
def rowVector (columns : ℕ) (pixelUpdate : ℕ → DistortionVector → DistortionVector) :
    DistortionVector :=
  (List.range columns).foldl (fun v x => pixelUpdate x v) 0

/-- The row loop of a metric: each row's vector folded into the shared vector by
`merge`, in the order of the schedule. -/
def ompRows (sched : RowSchedule) (rowOk : ℕ → Bool)
    (merge : DistortionVector → DistortionVector → DistortionVector)
    (row : ℕ → DistortionVector) : Bool × DistortionVector :=
  runRows rowOk (fun d y => merge d (row y)) sched.trace 0

/-- `distortion[i]/=((double) columns*rows)`, then the composite divided by the
channel count. -/
def normalizeMean (area : ℝ) (channels : ℕ) (v : DistortionVector) : DistortionVector :=
  Function.update (fun i => v i / area) .composite (v .composite / area / channels)

theorem normalizeMean_composite (area : ℝ) (channels : ℕ) (v : DistortionVector) :
    normalizeMean area channels v .composite = v .composite / area / channels :=
  Function.update_same _ _ _

theorem normalizeMean_apply (area : ℝ) (channels : ℕ) (v : DistortionVector) {c : Slot}
    (hc : c ≠ .composite) : normalizeMean area channels v c = v c / area :=
  Function.update_noteq hc _ _

/-- The sum of `f` over the channel blocks that `guard` runs. -/
def guardedSum (guard : Slot → Bool) (f : Slot → ℝ) : ℝ :=
  (channelOrder.map fun c => if guard c then f c else 0).sum

/-- The number of channel blocks that `guard` runs. -/
def guardedCount (guard : Slot → Bool) : ℕ :=
  (channelOrder.map fun c => if guard c then 1 else 0).sum

/-- A sum of guarded absolute values vanishes exactly when every guarded value does. -/
theorem guardedSum_abs_eq_zero {g : Slot → Bool} {f : Slot → ℝ} :
    guardedSum g (fun c => |f c|) = 0 ↔ ∀ c ∈ channelOrder, g c = true → f c = 0 := by
  suffices ∀ l : List Slot, (l.map fun c => if g c then |f c| else 0).sum = 0 ↔
      ∀ c ∈ l, g c = true → f c = 0 from this channelOrder
  have hnonneg : ∀ c, 0 ≤ if g c then |f c| else 0 := fun c => by split_ifs <;> simp
  intro l
  induction l with
  | nil => simp
  | cons c l ih =>
    rw [List.map_cons, List.sum_cons, add_eq_zero_iff_of_nonneg (hnonneg c)
      (List.sum_nonneg (by simpa using fun c _ => hnonneg c)), ih, List.forall_mem_cons]
    by_cases hg : g c = true <;> simp [hg]

/-- The channel blocks that `guard` runs, as a finite set. -/
def guardedSet (guard : Slot → Bool) : Finset Slot := channelOrder.toFinset.filter (guard · = true)

theorem mem_guardedSet {g : Slot → Bool} {c : Slot} :
    c ∈ guardedSet g ↔ c ∈ channelOrder ∧ g c = true := by
  simp [guardedSet]

theorem guardedSum_eq_sum (g : Slot → Bool) (f : Slot → ℝ) :
    guardedSum g f = ∑ c in guardedSet g, f c := by
  rw [guardedSet, Finset.sum_filter, List.sum_toFinset _ (by decide : channelOrder.Nodup), guardedSum]

theorem guardedCount_eq_card (g : Slot → Bool) : guardedCount g = (guardedSet g).card := by
  rw [guardedSet, Finset.card_filter, List.sum_toFinset _ (by decide : channelOrder.Nodup),
    guardedCount]

@[simp] theorem guardedSum_zero (g : Slot → Bool) : guardedSum g 0 = 0 := by
  simp [guardedSum_eq_sum]

theorem guardedSum_add (g : Slot → Bool) (f h : Slot → ℝ) :
    guardedSum g (f + h) = guardedSum g f + guardedSum g h := by
  simp only [guardedSum_eq_sum, Pi.add_apply, Finset.sum_add_distrib]

theorem guardedSum_div (g : Slot → Bool) (f : Slot → ℝ) (a : ℝ) :
    guardedSum g (fun c => f c / a) = guardedSum g f / a := by
  simp only [guardedSum_eq_sum, Finset.sum_div]

theorem guardedSum_nonneg {g : Slot → Bool} {f : Slot → ℝ} (hf : ∀ c, 0 ≤ f c) :
    0 ≤ guardedSum g f := by
  rw [guardedSum_eq_sum]
  exact Finset.sum_nonneg fun c _ => hf c

theorem guardedSum_congr {g : Slot → Bool} {f h : Slot → ℝ}
    (hfh : ∀ c ∈ channelOrder, g c = true → f c = h c) : guardedSum g f = guardedSum g h := by
  simp only [guardedSum_eq_sum]
  exact Finset.sum_congr rfl fun c hc => hfh c (mem_guardedSet.mp hc).1 (mem_guardedSet.mp hc).2

/-- A loop over `List.range n` whose body adds `f x` to a quantity adds their sum. -/
theorem foldl_range_val {σ : Type*} (val : σ → ℝ) (step : σ → ℕ → σ) (f : ℕ → ℝ)
    (h : ∀ s x, val (step s x) = val s + f x) (n : ℕ) (s : σ) :
    val ((List.range n).foldl step s) = val s + ∑ x in Finset.range n, f x := by
  induction n with
  | zero => simp
  | succ n ih =>
    rw [List.range_succ, List.foldl_append, List.foldl_cons, List.foldl_nil, h, ih,
      Finset.sum_range_succ, add_assoc]

theorem foldl_range_slot (c : Slot) (step : DistortionVector → ℕ → DistortionVector)
    (f : ℕ → ℝ) (h : ∀ v x, step v x c = v c + f x) (n : ℕ) (v : DistortionVector) :
    (List.range n).foldl step v c = v c + ∑ x in Finset.range n, f x :=
  foldl_range_val (· c) step f h n v

/-! ### Sums: fuzz, mean absolute and mean squared error -/

/-- `channel_distortion[c]+=t; channel_distortion[CompositeChannels]+=t;` -/
def addTerm (v : DistortionVector) (c : Slot) (t : ℝ) : DistortionVector :=
  Function.update (Function.update v c (v c + t)) .composite (v .composite + t)

def accumulate (guard : Slot → Bool) (term : Slot → ℝ) (v : DistortionVector) :
    DistortionVector :=
  channelOrder.foldl (fun v c => if guard c then addTerm v c (term c) else v) v

/-- `accumulate` adds every guarded term to the composite. -/
theorem accumulate_composite (guard : Slot → Bool) (term : Slot → ℝ) (v : DistortionVector) :
    accumulate guard term v .composite = v .composite + guardedSum guard term := by
  suffices ∀ (l : List Slot) (v : DistortionVector),
      (l.foldl (fun v c => if guard c then addTerm v c (term c) else v) v) .composite =
        v .composite + (l.map fun c => if guard c then term c else 0).sum from
    this channelOrder v
  intro l
  induction l with
  | nil => simp
  | cons c l ih =>
    intro v
    rw [List.foldl_cons, ih, List.map_cons, List.sum_cons]
    split_ifs <;> simp [addTerm, add_assoc]

theorem foldl_addTerm_apply (guard : Slot → Bool) (term : Slot → ℝ) {c : Slot}
    (hc : c ≠ .composite) (l : List Slot) (v : DistortionVector) :
    l.foldl (fun v c => if guard c then addTerm v c (term c) else v) v c =
      v c + (l.map fun c' => if c' = c ∧ guard c' = true then term c' else 0).sum := by
  induction l generalizing v with
  | nil => simp
  | cons c' l ih =>
    rw [List.foldl_cons, ih, List.map_cons, List.sum_cons, ← add_assoc]
    congr 1
    by_cases hg : guard c' = true
    · by_cases he : c' = c
      · subst he; simp [hg, addTerm, hc]
      · simp [hg, he, addTerm, hc, Function.update_noteq (Ne.symm he)]
    · simp [hg]

/-- `accumulate` adds each guarded term to its own channel slot. -/
theorem accumulate_apply (guard : Slot → Bool) (term : Slot → ℝ) (v : DistortionVector)
    {c : Slot} (hc : c ≠ .composite) :
    accumulate guard term v c = v c + if guard c then term c else 0 := by
  rw [accumulate, foldl_addTerm_apply guard term hc]
  cases c <;> simp [channelOrder] at hc ⊢

section Sums

variable (image reconstruct : Image) (channel : ChannelType)

def fuzzPixel (x y : ℕ) : DistortionVector → DistortionVector :=
  let p := image.pixel x y
  let q := reconstruct.pixel x y
  let opacity := (if image.matte then p.opacity else opaqueOpacity) -
    (if reconstruct.matte then q.opacity else opaqueOpacity)
  accumulate
    (channelGuard channel (image.matte || reconstruct.matte)
      (image.isCMYK && reconstruct.isCMYK))
    (fun c => (quantumScale * channelDelta image reconstruct.matte opacity p q c) ^ 2)

def getFuzzDistortion (sched : RowSchedule) (rowOk : ℕ → Bool) : Bool × DistortionVector :=
  let columns := areaColumns image reconstruct
  let r := ompRows sched rowOk (· + ·) (fun y => rowVector columns (fuzzPixel image reconstruct channel · y))
  let v := normalizeMean ((columns : ℝ) * areaRows image reconstruct)
    (getNumberChannels image channel) r.2
  (r.1, Function.update v .composite (Real.sqrt (v .composite)))

def meanAbsolutePixel (x y : ℕ) : DistortionVector → DistortionVector :=
  let p := image.pixel x y
  let q := reconstruct.pixel x y
  accumulate (channelGuard channel image.matte image.isCMYK)
    (fun c => quantumScale * |channelDelta image reconstruct.matte (p.opacity - q.opacity) p q c|)

def getMeanAbsoluteDistortion (sched : RowSchedule) (rowOk : ℕ → Bool) :
    Bool × DistortionVector :=
  let columns := areaColumns image reconstruct
  let r := ompRows sched rowOk (· + ·)
    (fun y => rowVector columns (meanAbsolutePixel image reconstruct channel · y))
  (r.1, normalizeMean ((columns : ℝ) * areaRows image reconstruct)
    (getNumberChannels image channel) r.2)

def meanSquaredPixel (x y : ℕ) : DistortionVector → DistortionVector :=
  let p := image.pixel x y
  let q := reconstruct.pixel x y
  accumulate (channelGuard channel image.matte (image.isCMYK && reconstruct.isCMYK))
    (fun c => (quantumScale * channelDelta image reconstruct.matte (p.opacity - q.opacity) p q c) ^ 2)

def getMeanSquaredDistortion (sched : RowSchedule) (rowOk : ℕ → Bool) :
    Bool × DistortionVector :=
  let columns := areaColumns image reconstruct
  let r := ompRows sched rowOk (· + ·)
    (fun y => rowVector columns (meanSquaredPixel image reconstruct channel · y))
  (r.1, normalizeMean ((columns : ℝ) * areaRows image reconstruct)
    (getNumberChannels image channel) r.2)

end Sums

/-! ### Counts: absolute error -/

/-- One channel block of `GetAbsoluteDistortion`. `distance` sums the squares of the
blocks run so far; the block counts when that running sum exceeds `fuzz`, and sets
`difference`. -/
def absoluteStep (fuzz : ℝ) (guard : Slot → Bool) (delta : Slot → ℝ)
    (s : ℝ × Bool × DistortionVector) (c : Slot) : ℝ × Bool × DistortionVector :=
  if guard c then
    let distance := s.1 + delta c * delta c
    if distance > fuzz then (distance, true, Function.update s.2.2 c (s.2.2 c + 1))
    else (distance, s.2.1, s.2.2)
  else s

/-- The five blocks of one pixel, from `distance=0.0` and `difference=MagickFalse`. -/
def absoluteBlocks (fuzz : ℝ) (guard : Slot → Bool) (delta : Slot → ℝ)
    (v : DistortionVector) : ℝ × Bool × DistortionVector :=
  channelOrder.foldl (absoluteStep fuzz guard delta) (0, false, v)

/-- One pixel: the blocks, then the composite counts once if any block did. -/
def absolutePixel (fuzz : ℝ) (guard : Slot → Bool) (delta : Slot → ℝ)
    (v : DistortionVector) : DistortionVector :=
  let r := absoluteBlocks fuzz guard delta v
  if r.2.1 then Function.update r.2.2 .composite (r.2.2 .composite + 1) else r.2.2

section Absolute

variable (image reconstruct : Image) (channel : ChannelType)

/-- `MagickMin(GetNumberChannels(image,channel),GetNumberChannels(reconstruct_image,
channel))*GetFuzzyColorDistance(image,reconstruct_image)`. -/
def absoluteFuzz : ℝ :=
  (min (getNumberChannels image channel) (getNumberChannels reconstruct channel) : ℕ) *
    getFuzzyColorDistance image reconstruct

/-- Both weights of `GetAbsoluteDistortion` follow `image->matte`. -/
def absoluteDelta (x y : ℕ) : Slot → ℝ :=
  let p := image.pixel x y
  let q := reconstruct.pixel x y
  channelDelta image image.matte (p.opacity - q.opacity) p q

def absoluteRow (y : ℕ) : DistortionVector :=
  rowVector (areaColumns image reconstruct) fun x =>
    absolutePixel (absoluteFuzz image reconstruct channel)
      (channelGuard channel image.matte image.isCMYK) (absoluteDelta image reconstruct x y)

def getAbsoluteDistortion (sched : RowSchedule) (rowOk : ℕ → Bool) :
    Bool × DistortionVector :=
  ompRows sched rowOk (· + ·) (absoluteRow image reconstruct channel)

end Absolute

/-! ### Maxima: peak absolute error -/

/-- `if (distance > channel_distortion[c]) channel_distortion[c]=distance;` and the same
for the composite. -/
def maxTerm (v : DistortionVector) (c : Slot) (d : ℝ) : DistortionVector :=
  let v := if d > v c then Function.update v c d else v
  if d > v .composite then Function.update v .composite d else v

/-- The critical fold of `GetPeakAbsoluteDistortion`:
`if (channel_distortion[i] > distortion[i]) distortion[i]=channel_distortion[i];` -/
def maxFold (d cd : DistortionVector) : DistortionVector :=
  fun i => if cd i > d i then cd i else d i

section Peak

variable (image reconstruct : Image) (channel : ChannelType)

def peakAbsolutePixel (x y : ℕ) (v : DistortionVector) : DistortionVector :=
  let p := image.pixel x y
  let q := reconstruct.pixel x y
  let guard := channelGuard channel image.matte (image.isCMYK && reconstruct.isCMYK)
  channelOrder.foldl (fun v c =>
    if guard c then
      maxTerm v c (quantumScale * |channelDelta image reconstruct.matte (p.opacity - q.opacity) p q c|)
    else v) v

def getPeakAbsoluteDistortion (sched : RowSchedule) (rowOk : ℕ → Bool) :
    Bool × DistortionVector :=
  ompRows sched rowOk maxFold fun y =>
    rowVector (areaColumns image reconstruct) (peakAbsolutePixel image reconstruct channel · y)

end Peak

/-! ### Transforms of the mean squared vector -/

/-- The channels the transforms rewrite: opacity for a matte image, black for a CMYK
image. -/
def transformGuard (image : Image) (channel : ChannelType) : Slot → Bool :=
  channelGuard channel image.matte image.isCMYK

def getRootMeanSquaredDistortion (image reconstruct : Image) (channel : ChannelType)
    (sched : RowSchedule) (rowOk : ℕ → Bool) : Bool × DistortionVector :=
  let r := getMeanSquaredDistortion image reconstruct channel sched rowOk
  (r.1, fun c => if c = .composite ∨ transformGuard image channel c then Real.sqrt (r.2 c) else r.2 c)

def log10Epsilon : ℝ := 1.0e-11

/-- `log10` of `math.h`. -/
def log10 (x : ℝ) : ℝ := Real.logb 10 x

def magickLog10 (x : ℝ) : ℝ :=
  if |x| < log10Epsilon then log10 log10Epsilon else log10 |x|

/-- One slot of `GetPeakSignalToNoiseRatio`: `INFINITY` for a vanishing error. -/
def peakSignalToNoise (m : ℝ) : EReal :=
  if |m| < magickEpsilon then ⊤ else ((10 * magickLog10 1 - 10 * magickLog10 m : ℝ) : EReal)

def getPeakSignalToNoiseRatio (image reconstruct : Image) (channel : ChannelType)
    (sched : RowSchedule) (rowOk : ℕ → Bool) : Bool × (Slot → EReal) :=
  let r := getMeanSquaredDistortion image reconstruct channel sched rowOk
  (r.1, fun c =>
    if c = .composite ∨ transformGuard image channel c then peakSignalToNoise (r.2 c)
    else (r.2 c : EReal))

end MagickCompare

end
