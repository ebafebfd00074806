import MagickCompare.Distortion
/-! `CompareImageChannels`: the distortion, then the highlight canvas. A pixel of the
canvas gets the highlight colour when the two images differ there and the lowlight colour
otherwise. The canvas is composited over a clone of the image by `CompositeImage`, which
is external; the model returns the canvas. -/

noncomputable section

namespace MagickCompare

/-- Which of the two configured colours the canvas gets at a pixel. -/
inductive Paint
  | highlight
  | lowlight
  deriving DecidableEq, Repr

/-- What can fail in the renderer after the metric: the two clones of the image, the
canvas clone and its storage class (`cloneOk`), and each canvas row: its two reads, its
queue and its sync (`rowOk`). -/
structure RendererCollaborators where
  cloneOk : Bool
  schedule : RowSchedule
  rowOk : ℕ → Bool

section Decision

variable (isMagickColorSimilar : PixelPacket → PixelPacket → Bool)
  (image reconstruct : Image) (channel : ChannelType)

/-- The per-pixel decision. The whole mask asks `IsMagickColorSimilar` (color.c, not
part of the source); any other mask tests each channel block's squared weighted delta
against `GetFuzzyColorDistance`, both weights following `image->matte`. -/
def highlightDifference (x y : ℕ) : Bool :=
  let p := image.pixel x y
  let q := reconstruct.pixel x y
  if channel = compositeChannels then !isMagickColorSimilar p q
  else
    let fuzz := getFuzzyColorDistance image reconstruct
    let delta := channelDelta image image.matte (p.opacity - q.opacity) p q
    channelOrder.any fun c =>
      channelGuard channel image.matte image.isCMYK c && decide (delta c * delta c > fuzz)

def paintRow (columns : ℕ) (canvas : ℕ → ℕ → Option Paint) (y : ℕ) :
    ℕ → ℕ → Option Paint := fun x' y' =>
  if y' = y ∧ x' < columns then
    some (if highlightDifference isMagickColorSimilar image reconstruct channel x' y
      then .highlight else .lowlight)
  else canvas x' y'

/-- The canvas, or `NULL`, and the published distortion. -/
def compareImageChannels (metric : MetricType) (env : Collaborators)
    (renv : RendererCollaborators) : Option (ℕ → ℕ → Option Paint) × EReal :=
  if metric ≠ .perceptualHashErrorMetric ∧ validateImageMorphology image reconstruct = false then
    (none, 0)
  else
    let r := getImageChannelDistortion image reconstruct channel metric env
    if r.1 = false ∨ renv.cloneOk = false then (none, r.2)
    else
      let s := runRows renv.rowOk (paintRow isMagickColorSimilar image reconstruct channel
        (areaColumns image reconstruct)) renv.schedule.trace (fun _ _ => none)
      (if s.1 then some s.2 else none, r.2)

end Decision

def compareImages (isMagickColorSimilar : PixelPacket → PixelPacket → Bool)
    (image reconstruct : Image) (metric : MetricType) (env : Collaborators)
    (renv : RendererCollaborators) : Option (ℕ → ℕ → Option Paint) × EReal :=
  compareImageChannels isMagickColorSimilar image reconstruct compositeChannels metric env renv

/-! ### The absolute-error count of one pixel -/

/-- The `difference` flag `GetAbsoluteDistortion` sets at a pixel. -/
def absoluteDifference (fuzz : ℝ) (guard : Slot → Bool) (delta : Slot → ℝ) : Bool :=
  (absoluteBlocks fuzz guard delta 0).2.1

section AbsoluteFlag

variable {fuzz : ℝ} {guard : Slot → Bool} {delta : Slot → ℝ}

theorem absoluteStep_distance (s : ℝ × Bool × DistortionVector) (c : Slot) :
    (absoluteStep fuzz guard delta s c).1 = s.1 + if guard c then delta c * delta c else 0 := by
  simp only [absoluteStep]
  split_ifs <;> simp

/-- The flag is set exactly when the running sum exceeds `fuzz`: the sum never falls. -/
theorem absoluteStep_flag {s : ℝ × Bool × DistortionVector} (hs : s.2.1 = true ↔ fuzz < s.1)
    (c : Slot) :
    (absoluteStep fuzz guard delta s c).2.1 = true ↔ fuzz < (absoluteStep fuzz guard delta s c).1 := by
  simp only [absoluteStep]
  split_ifs with hg hd
  · simpa using hd
  · have hsq := mul_self_nonneg (delta c)
    exact ⟨fun h => absurd (lt_of_lt_of_le (hs.mp h) (by linarith)) hd, fun h => absurd h hd⟩
  · exact hs

theorem absoluteStep_composite (s : ℝ × Bool × DistortionVector) {c : Slot}
    (hc : c ≠ .composite) :
    (absoluteStep fuzz guard delta s c).2.2 .composite = s.2.2 .composite := by
  simp only [absoluteStep]
  split_ifs <;> simp [Function.update_noteq hc.symm]

theorem absoluteBlocks_distance (v : DistortionVector) :
    (absoluteBlocks fuzz guard delta v).1 = guardedSum guard fun c => delta c * delta c := by
  suffices ∀ (l : List Slot) s, (l.foldl (absoluteStep fuzz guard delta) s).1 =
      s.1 + (l.map fun c => if guard c then delta c * delta c else 0).sum by
    simpa [absoluteBlocks, guardedSum] using this channelOrder (0, false, v)
  intro l
  induction l with
  | nil => simp
  | cons c l ih => intro s; simp [ih, absoluteStep_distance, add_assoc]

theorem absoluteBlocks_flag (hfuzz : 0 ≤ fuzz) (v : DistortionVector) :
    (absoluteBlocks fuzz guard delta v).2.1 = true ↔
      fuzz < guardedSum guard fun c => delta c * delta c := by
  rw [← absoluteBlocks_distance v]
  suffices ∀ (l : List Slot) s, (s.2.1 = true ↔ fuzz < s.1) →
      ((l.foldl (absoluteStep fuzz guard delta) s).2.1 = true ↔
        fuzz < (l.foldl (absoluteStep fuzz guard delta) s).1) from
    this channelOrder _ (by simpa using hfuzz)
  intro l
  induction l with
  | nil => exact fun _ h => h
  | cons c l ih => exact fun s h => ih _ (absoluteStep_flag h c)

theorem absoluteBlocks_composite (v : DistortionVector) :
    (absoluteBlocks fuzz guard delta v).2.2 .composite = v .composite := by
  suffices ∀ l : List Slot, (∀ c ∈ l, c ≠ .composite) → ∀ s,
      (l.foldl (absoluteStep fuzz guard delta) s).2.2 .composite = s.2.2 .composite from
    this channelOrder (by decide) _
  intro l
  induction l with
  | nil => exact fun _ _ => rfl
  | cons c l ih =>
    intro hl s
    rw [List.foldl_cons, ih (fun c' h => hl c' (List.mem_cons_of_mem _ h)),
      absoluteStep_composite s (hl c (List.mem_cons_self _ _))]

theorem absoluteDifference_iff (hfuzz : 0 ≤ fuzz) :
    absoluteDifference fuzz guard delta = true ↔
      fuzz < guardedSum guard fun c => delta c * delta c :=
  absoluteBlocks_flag hfuzz 0

/-- A pixel adds one to the composite exactly when its `difference` flag is set. -/
theorem absolutePixel_composite (hfuzz : 0 ≤ fuzz) (v : DistortionVector) :
    absolutePixel fuzz guard delta v .composite =
      v .composite + if absoluteDifference fuzz guard delta then 1 else 0 := by
  have hflag : (absoluteBlocks fuzz guard delta v).2.1 = absoluteDifference fuzz guard delta := by
    rw [Bool.eq_iff_iff, absoluteBlocks_flag hfuzz, absoluteDifference_iff hfuzz]
  simp only [absolutePixel, hflag]
  split_ifs <;> simp [absoluteBlocks_composite]

end AbsoluteFlag

/-! ### Channel counts and the morphology gate -/

/-- `GetNumberChannels` counts the blocks whose guard follows the image's matte and
colorspace, and returns 1 for none. -/
theorem getNumberChannels_eq (image : Image) (channel : ChannelType) :
    getNumberChannels image channel =
      let k := guardedCount (channelGuard channel image.matte image.isCMYK)
      if k = 0 then 1 else k := by
  simp only [getNumberChannels, guardedCount, channelOrder, channelGuard, List.map,
    List.sum_cons, List.sum_nil, add_zero, add_assoc]

theorem guardedCount_le_getNumberChannels (image : Image) (channel : ChannelType) :
    guardedCount (channelGuard channel image.matte image.isCMYK) ≤
      getNumberChannels image channel := by
  simp only [getNumberChannels_eq]
  split_ifs <;> omega

theorem guardedCount_mono {g h : Slot → Bool} (hgh : ∀ c, g c = true → h c = true) :
    guardedCount g ≤ guardedCount h := by
  apply List.sum_le_sum
  intro c _
  by_cases hc : g c = true <;> simp [hc, hgh c]

/-- A block the guard runs for one configuration runs for any configuration with at least
the same opacity and black channels. -/
theorem channelGuard_mono {channel : ChannelType} {m m' k k' : Bool} (hm : m = true → m' = true)
    (hk : k = true → k' = true) (c : Slot) (h : channelGuard channel m k c = true) :
    channelGuard channel m' k' c = true := by
  cases c <;> simp_all [channelGuard]

theorem guardedSum_le {g : Slot → Bool} {f : Slot → ℝ} {F : ℝ}
    (h : ∀ c ∈ channelOrder, g c = true → f c ≤ F) :
    guardedSum g f ≤ guardedCount g * F := by
  rw [guardedSum, guardedCount, Nat.cast_list_sum, List.map_map, ← List.sum_map_mul_right]
  apply List.sum_le_sum
  intro c hc
  by_cases hg : g c = true <;> simp [hg, h c hc]

theorem getNumberChannels_default (image : Image) :
    getNumberChannels image defaultChannels = if image.isCMYK then 4 else 3 := by
  have hr : selects defaultChannels .red = true := by decide
  have hg : selects defaultChannels .green = true := by decide
  have hb : selects defaultChannels .blue = true := by decide
  have ho : selects defaultChannels .opacity = false := by decide
  have hk : selects defaultChannels .black = true := by decide
  cases h : image.isCMYK <;> simp [getNumberChannels, hr, hg, hb, ho, hk, h]

/-- `DefaultChannels` leaves out opacity: the gate compares only whether the two images
are CMYK. -/
theorem validateImageMorphology_iff (image reconstruct : Image) :
    validateImageMorphology image reconstruct = true ↔ image.isCMYK = reconstruct.isCMYK := by
  simp only [validateImageMorphology, getNumberChannels_default, beq_iff_eq]
  cases image.isCMYK <;> cases reconstruct.isCMYK <;> simp

theorem absoluteFuzz_nonneg (image reconstruct : Image) (channel : ChannelType) :
    0 ≤ absoluteFuzz image reconstruct channel :=
  mul_nonneg (Nat.cast_nonneg _) (sq_nonneg _)

/-! ### The canvas against the absolute-error count -/

section Canvas

variable (isMagickColorSimilar : PixelPacket → PixelPacket → Bool)
  (image reconstruct : Image) (channel : ChannelType)

theorem highlightDifference_iff (hchannel : channel ≠ compositeChannels) (x y : ℕ) :
    highlightDifference isMagickColorSimilar image reconstruct channel x y = true ↔
      ∃ c ∈ channelOrder, channelGuard channel image.matte image.isCMYK c = true ∧
        getFuzzyColorDistance image reconstruct <
          absoluteDelta image reconstruct x y c * absoluteDelta image reconstruct x y c := by
  simp [highlightDifference, hchannel, absoluteDelta]

/-- Outside the whole mask, every pixel `GetAbsoluteDistortion` counts is highlighted,
provided the reconstruction counts opacity whenever the image does. -/
theorem absoluteDifference_highlight (hmorph : validateImageMorphology image reconstruct = true)
    (hchannel : channel ≠ compositeChannels)
    (hmatte : image.matte = true → reconstruct.matte = true) (x y : ℕ)
    (h : absoluteDifference (absoluteFuzz image reconstruct channel)
      (channelGuard channel image.matte image.isCMYK) (absoluteDelta image reconstruct x y) = true) :
    highlightDifference isMagickColorSimilar image reconstruct channel x y = true := by
  rw [absoluteDifference_iff (absoluteFuzz_nonneg image reconstruct channel)] at h
  by_contra hne
  rw [Bool.not_eq_true, ← Bool.not_eq_true, highlightDifference_iff _ _ _ _ hchannel] at hne
  push_neg at hne
  have hcmyk := (validateImageMorphology_iff image reconstruct).mp hmorph
  have hsum := guardedSum_le (fun c hc hg => hne c hc hg)
  have hb : guardedCount (channelGuard channel image.matte image.isCMYK) ≤
      getNumberChannels reconstruct channel :=
    (guardedCount_mono (channelGuard_mono hmatte (hcmyk ▸ id))).trans
      (guardedCount_le_getNumberChannels _ _)
  have hk : (guardedCount (channelGuard channel image.matte image.isCMYK) : ℝ) *
      getFuzzyColorDistance image reconstruct ≤ absoluteFuzz image reconstruct channel :=
    mul_le_mul_of_nonneg_right
      (Nat.cast_le.mpr (le_min (guardedCount_le_getNumberChannels _ _) hb)) (sq_nonneg _)
  linarith

theorem foldl_paintRow (columns : ℕ) (l : List ℕ) (canvas : ℕ → ℕ → Option Paint) (x y : ℕ) :
    l.foldl (paintRow isMagickColorSimilar image reconstruct channel columns) canvas x y =
      if y ∈ l ∧ x < columns then
        some (if highlightDifference isMagickColorSimilar image reconstruct channel x y
          then .highlight else .lowlight)
      else canvas x y := by
  induction l generalizing canvas with
  | nil => simp
  | cons y' l ih =>
    rw [List.foldl_cons, ih]
    by_cases hy : y = y' <;> by_cases hl : y ∈ l <;> by_cases hx : x < columns <;>
      simp [paintRow, hy, hl, hx]

/-- A returned canvas has every pixel of the comparison area painted by the per-pixel
decision, whatever the schedule. -/
theorem compareImageChannels_canvas (metric : MetricType) (env : Collaborators)
    (renv : RendererCollaborators) (hsched : renv.schedule.Complete (areaRows image reconstruct))
    {canvas : ℕ → ℕ → Option Paint}
    (h : (compareImageChannels isMagickColorSimilar image reconstruct channel metric env renv).1 =
      some canvas)
    {x y : ℕ} (hx : x < areaColumns image reconstruct) (hy : y < areaRows image reconstruct) :
    canvas x y = some (if highlightDifference isMagickColorSimilar image reconstruct channel x y
      then .highlight else .lowlight) := by
  simp only [compareImageChannels] at h
  split_ifs at h with h1 h2 h3
  cases h
  rw [(runRows_true _ _ h3).2, foldl_paintRow, if_pos ⟨hsched.trace_perm.mem_iff.mpr (List.mem_range.mpr hy), hx⟩]

theorem absoluteRow_composite (y : ℕ) :
    absoluteRow image reconstruct channel y .composite =
      ∑ x in Finset.range (areaColumns image reconstruct),
        if absoluteDifference (absoluteFuzz image reconstruct channel)
          (channelGuard channel image.matte image.isCMYK) (absoluteDelta image reconstruct x y)
        then 1 else 0 := by
  rw [absoluteRow, rowVector, foldl_range_slot .composite
    (fun v x => absolutePixel (absoluteFuzz image reconstruct channel)
      (channelGuard channel image.matte image.isCMYK) (absoluteDelta image reconstruct x y) v) _
    (fun v _ => absolutePixel_composite (absoluteFuzz_nonneg image reconstruct channel) v)]
  exact zero_add _

/-- Without failures, the composite of `GetAbsoluteDistortion` counts the pixels of the
comparison area whose `difference` flag is set. -/
theorem getAbsoluteDistortion_composite :
    (getAbsoluteDistortion image reconstruct channel (.single (areaRows image reconstruct))
        (fun _ => true)).2 .composite =
      ∑ y in Finset.range (areaRows image reconstruct),
        ∑ x in Finset.range (areaColumns image reconstruct),
          if absoluteDifference (absoluteFuzz image reconstruct channel)
            (channelGuard channel image.matte image.isCMYK) (absoluteDelta image reconstruct x y)
          then 1 else 0 := by
  simp only [getAbsoluteDistortion, ompRows, runRows_of_ok _ _ (fun _ _ => rfl), rowTrace_single]
  rw [foldl_range_slot .composite (fun d y => d + absoluteRow image reconstruct channel y) _
    (fun d y => Pi.add_apply _ _ _)]
  exact (zero_add _).trans (Finset.sum_congr rfl fun y _ => absoluteRow_composite image reconstruct channel y)

/-- Outside the whole mask, and when the reconstruction counts opacity whenever the image
does, every pixel that `GetAbsoluteDistortion` counts is painted with the highlight
colour, so the canvas has at least as many highlight pixels as that count. -/
theorem compareImageChannels_highlights_absolute (metric : MetricType) (env : Collaborators)
    (renv : RendererCollaborators) (hmorph : validateImageMorphology image reconstruct = true)
    (hchannel : channel ≠ compositeChannels)
    (hmatte : image.matte = true → reconstruct.matte = true)
    (hsched : renv.schedule.Complete (areaRows image reconstruct))
    {canvas : ℕ → ℕ → Option Paint}
    (h : (compareImageChannels isMagickColorSimilar image reconstruct channel metric env renv).1 =
      some canvas) :
    (∀ y < areaRows image reconstruct, ∀ x < areaColumns image reconstruct,
      absoluteDifference (absoluteFuzz image reconstruct channel)
        (channelGuard channel image.matte image.isCMYK) (absoluteDelta image reconstruct x y) = true →
      canvas x y = some .highlight) ∧
    (getAbsoluteDistortion image reconstruct channel (.single (areaRows image reconstruct))
        (fun _ => true)).2 .composite ≤
      ∑ y in Finset.range (areaRows image reconstruct),
        ∑ x in Finset.range (areaColumns image reconstruct),
          if canvas x y = some .highlight then 1 else 0 := by
  have hpix : ∀ y < areaRows image reconstruct, ∀ x < areaColumns image reconstruct,
      absoluteDifference (absoluteFuzz image reconstruct channel)
        (channelGuard channel image.matte image.isCMYK) (absoluteDelta image reconstruct x y) = true →
      canvas x y = some .highlight := fun y hy x hx hd => by
    rw [compareImageChannels_canvas isMagickColorSimilar image reconstruct channel metric env renv
      hsched h hx hy, absoluteDifference_highlight isMagickColorSimilar image reconstruct channel
      hmorph hchannel hmatte x y hd, if_pos rfl]
  refine ⟨hpix, ?_⟩
  rw [getAbsoluteDistortion_composite]
  refine Finset.sum_le_sum fun y hy => Finset.sum_le_sum fun x hx => ?_
  by_cases hd : absoluteDifference (absoluteFuzz image reconstruct channel)
    (channelGuard channel image.matte image.isCMYK) (absoluteDelta image reconstruct x y) = true
  · rw [if_pos hd, if_pos (hpix y (Finset.mem_range.mp hy) x (Finset.mem_range.mp hx) hd)]
  · rw [if_neg hd]
    split_ifs <;> norm_num

end Canvas

/-- A one-pixel opaque image: red `red`, every other channel 0, fuzz factor `fuzz`. -/
def redPixelImage (fuzz red : ℝ) : Image :=
  ⟨1, 1, false, .otherColorspace, fuzz, fun _ _ => ⟨red, 0, 0, 0, 0⟩, one_pos, one_pos⟩

theorem getNumberChannels_redPixelImage (fuzz red : ℝ) :
    getNumberChannels (redPixelImage fuzz red) allChannels = 3 := by
  rw [getNumberChannels_eq]; rfl

/-- Red 3 against red 0 with fuzz 2: the renderer tests `9 > 4` and paints the pixel
with the highlight colour; `GetAbsoluteDistortion` tests `9 > 3*4` and counts nothing. -/
theorem highlight_without_absolute_count :
    validateImageMorphology (redPixelImage 2 3) (redPixelImage 2 0) = true ∧
    highlightDifference (fun _ _ => true) (redPixelImage 2 3) (redPixelImage 2 0) allChannels 0 0 =
      true ∧
    (getAbsoluteDistortion (redPixelImage 2 3) (redPixelImage 2 0) allChannels (.single 1)
      (fun _ => true)).2 .composite = 0 := by
  have hchannel : allChannels ≠ compositeChannels := by decide
  refine ⟨rfl, ?_, ?_⟩
  · rw [highlightDifference_iff _ _ _ _ hchannel]
    refine ⟨.red, by decide, by decide, ?_⟩
    norm_num [getFuzzyColorDistance, absoluteDelta, channelDelta, redPixelImage, Slot.value]
  · have hflag : absoluteDifference (absoluteFuzz (redPixelImage 2 3) (redPixelImage 2 0) allChannels)
        (channelGuard allChannels (redPixelImage 2 3).matte (redPixelImage 2 3).isCMYK)
        (absoluteDelta (redPixelImage 2 3) (redPixelImage 2 0) 0 0) = false := by
      rw [← Bool.not_eq_true, absoluteDifference_iff (absoluteFuzz_nonneg _ _ _)]
      simp only [absoluteFuzz, getNumberChannels_redPixelImage]
      norm_num [getFuzzyColorDistance, absoluteDelta, channelDelta, redPixelImage, Slot.value,
        guardedSum, channelOrder, channelGuard]
    have hrows : areaRows (redPixelImage 2 3) (redPixelImage 2 0) = 1 := rfl
    have hcolumns : areaColumns (redPixelImage 2 3) (redPixelImage 2 0) = 1 := rfl
    refine (getAbsoluteDistortion_composite (redPixelImage 2 3) (redPixelImage 2 0) allChannels).trans ?_
    rw [hrows, hcolumns, Finset.sum_range_one, Finset.sum_range_one, hflag]
    simp

/-- One thread, no failure, and a perceptual-hash provider that always answers. -/
def oneRowCollaborators : Collaborators :=
  ⟨.single 1, fun _ => true, fun _ => true, fun _ => none,
    fun _ => some fun _ => ⟨fun _ => 0, fun _ => 0⟩⟩

def oneRowRenderer : RendererCollaborators := ⟨true, .single 1, fun _ => true⟩

def redPixelCanvas : ℕ → ℕ → Option Paint :=
  paintRow (fun _ _ => true) (redPixelImage 2 4) (redPixelImage 2 0) allChannels 1
    (fun _ _ => none) 0

theorem compareImageChannels_redPixel :
    (compareImageChannels (fun _ _ => true) (redPixelImage 2 4) (redPixelImage 2 0) allChannels
      .perceptualHashErrorMetric oneRowCollaborators oneRowRenderer).1 = some redPixelCanvas := by
  simp [compareImageChannels, getImageChannelDistortion, channelDistortion,
    getPerceptualHashDistortion, realSlots, oneRowCollaborators, oneRowRenderer, runRows,
    rowTrace_single, rowStep]
  exact ⟨rfl, rfl⟩

/-- Red 4 against red 0 with fuzz 2: `GetAbsoluteDistortion` tests `16 > 3*4` and counts
the pixel. -/
theorem absoluteDifference_redPixel :
    absoluteDifference (absoluteFuzz (redPixelImage 2 4) (redPixelImage 2 0) allChannels)
      (channelGuard allChannels (redPixelImage 2 4).matte (redPixelImage 2 4).isCMYK)
      (absoluteDelta (redPixelImage 2 4) (redPixelImage 2 0) 0 0) = true := by
  rw [absoluteDifference_iff (absoluteFuzz_nonneg _ _ _)]
  simp only [absoluteFuzz, getNumberChannels_redPixelImage]
  norm_num [getFuzzyColorDistance, absoluteDelta, channelDelta, redPixelImage, Slot.value,
    guardedSum, channelOrder, channelGuard]

theorem compareImageChannels_highlights_absolute_redPixel :
    validateImageMorphology (redPixelImage 2 4) (redPixelImage 2 0) = true ∧
    allChannels ≠ compositeChannels ∧
    ((redPixelImage 2 4).matte = true → (redPixelImage 2 0).matte = true) ∧
    oneRowRenderer.schedule.Complete (areaRows (redPixelImage 2 4) (redPixelImage 2 0)) ∧
    (compareImageChannels (fun _ _ => true) (redPixelImage 2 4) (redPixelImage 2 0) allChannels
      .perceptualHashErrorMetric oneRowCollaborators oneRowRenderer).1 = some redPixelCanvas ∧
    absoluteDifference (absoluteFuzz (redPixelImage 2 4) (redPixelImage 2 0) allChannels)
      (channelGuard allChannels (redPixelImage 2 4).matte (redPixelImage 2 4).isCMYK)
      (absoluteDelta (redPixelImage 2 4) (redPixelImage 2 0) 0 0) = true ∧
    (∀ y < areaRows (redPixelImage 2 4) (redPixelImage 2 0),
      ∀ x < areaColumns (redPixelImage 2 4) (redPixelImage 2 0),
        absoluteDifference (absoluteFuzz (redPixelImage 2 4) (redPixelImage 2 0) allChannels)
          (channelGuard allChannels (redPixelImage 2 4).matte (redPixelImage 2 4).isCMYK)
          (absoluteDelta (redPixelImage 2 4) (redPixelImage 2 0) x y) = true →
        redPixelCanvas x y = some .highlight) ∧
    (getAbsoluteDistortion (redPixelImage 2 4) (redPixelImage 2 0) allChannels
        (.single (areaRows (redPixelImage 2 4) (redPixelImage 2 0))) (fun _ => true)).2 .composite ≤
      ∑ y in Finset.range (areaRows (redPixelImage 2 4) (redPixelImage 2 0)),
        ∑ x in Finset.range (areaColumns (redPixelImage 2 4) (redPixelImage 2 0)),
          if redPixelCanvas x y = some .highlight then 1 else 0 :=
  have hmorph : validateImageMorphology (redPixelImage 2 4) (redPixelImage 2 0) = true := rfl
  have hchannel : allChannels ≠ compositeChannels := by decide
  have hmatte : (redPixelImage 2 4).matte = true → (redPixelImage 2 0).matte = true :=
    fun h => absurd h (by decide)
  have hsched := RowSchedule.single_complete 1
  ⟨hmorph, hchannel, hmatte, hsched, compareImageChannels_redPixel, absoluteDifference_redPixel,
    compareImageChannels_highlights_absolute _ _ _ _ _ _ _ hmorph hchannel hmatte hsched
      compareImageChannels_redPixel⟩

/-! ### What a call publishes -/

section Publish

variable (isMagickColorSimilar : PixelPacket → PixelPacket → Bool)
  (image reconstruct : Image) (channel : ChannelType) (metric : MetricType)
  (env : Collaborators) (renv : RendererCollaborators)

/-- The renderer publishes what the metric call published. -/
theorem compareImageChannels_snd :
    (compareImageChannels isMagickColorSimilar image reconstruct channel metric env renv).2 =
      (getImageChannelDistortion image reconstruct channel metric env).2 := by
  simp only [compareImageChannels]
  split_ifs with hgate
  · simp [getImageChannelDistortion, hgate]
  all_goals rfl

theorem compareImageChannels_status {canvas : ℕ → ℕ → Option Paint}
    (h : (compareImageChannels isMagickColorSimilar image reconstruct channel metric env renv).1 =
      some canvas) :
    (getImageChannelDistortion image reconstruct channel metric env).1 = true := by
  simp only [compareImageChannels] at h
  split_ifs at h with h1 h2
  simp only [not_or, Bool.not_eq_false] at h2
  exact h2.1

theorem compareImageChannels_of_failure
    (h : (getImageChannelDistortion image reconstruct channel metric env).1 = false) :
    compareImageChannels isMagickColorSimilar image reconstruct channel metric env renv =
      (none, (getImageChannelDistortion image reconstruct channel metric env).2) := by
  simp only [compareImageChannels, h, true_or, if_true]
  split_ifs with hgate
  · simp [getImageChannelDistortion, hgate]
  · rfl

/-- Whatever the schedule and whatever fails, a call that succeeds publishes the
failure-free single-threaded value: `GetImageChannelDistortion` when it returns
`MagickTrue`, and `CompareImageChannels` when it returns a canvas. -/
theorem published_distortion_of_success
    (hsched : env.schedule.Complete (areaRows image reconstruct)) :
    ((getImageChannelDistortion image reconstruct channel metric env).1 = true →
      (getImageChannelDistortion image reconstruct channel metric env).2 =
        (getImageChannelDistortion image reconstruct channel metric
          (env.failureFree (areaRows image reconstruct))).2) ∧
    ∀ canvas, (compareImageChannels isMagickColorSimilar image reconstruct channel metric env
        renv).1 = some canvas →
      (compareImageChannels isMagickColorSimilar image reconstruct channel metric env renv).2 =
        (getImageChannelDistortion image reconstruct channel metric
          (env.failureFree (areaRows image reconstruct))).2 :=
  ⟨fun h => by rw [getImageChannelDistortion_of_status _ _ _ _ _ hsched h],
    fun _ h => by
      rw [compareImageChannels_snd, getImageChannelDistortion_of_status _ _ _ _ _ hsched
        (compareImageChannels_status _ _ _ _ _ _ _ h)]⟩

end Publish

theorem published_distortion_twoWorkers :
    twoWorkers.schedule.Complete (areaRows (redColumnImage 0) (redColumnImage quantumRange)) ∧
    ((getImageChannelDistortion (redColumnImage 0) (redColumnImage quantumRange) allChannels
        .absoluteErrorMetric twoWorkers).1 = true →
      (getImageChannelDistortion (redColumnImage 0) (redColumnImage quantumRange) allChannels
        .absoluteErrorMetric twoWorkers).2 =
        (getImageChannelDistortion (redColumnImage 0) (redColumnImage quantumRange) allChannels
          .absoluteErrorMetric (twoWorkers.failureFree 2)).2) ∧
    ∀ canvas, (compareImageChannels (fun _ _ => true) (redColumnImage 0)
        (redColumnImage quantumRange) allChannels .absoluteErrorMetric twoWorkers
        oneRowRenderer).1 = some canvas →
      (compareImageChannels (fun _ _ => true) (redColumnImage 0) (redColumnImage quantumRange)
        allChannels .absoluteErrorMetric twoWorkers oneRowRenderer).2 =
        (getImageChannelDistortion (redColumnImage 0) (redColumnImage quantumRange) allChannels
          .absoluteErrorMetric (twoWorkers.failureFree 2)).2 :=
  ⟨swappedRows_complete, published_distortion_of_success _ _ _ _ _ _ _ swappedRows_complete⟩

/-- When the second row is read and the first fails, the call returns `MagickFalse` and
publishes the one row it folded, and so does the renderer. -/
theorem getImageChannelDistortion_partial_fold :
    getImageChannelDistortion (redColumnImage 0) (redColumnImage quantumRange) allChannels
        .absoluteErrorMetric { twoWorkers with rowOk := fun y => y == 1 } = (false, 1) ∧
    ∀ renv : RendererCollaborators,
      compareImageChannels (fun _ _ => true) (redColumnImage 0) (redColumnImage quantumRange)
          allChannels .absoluteErrorMetric { twoWorkers with rowOk := fun y => y == 1 } renv =
        (none, 1) := by
  have hdiff : absoluteDifference
      (absoluteFuzz (redColumnImage 0) (redColumnImage quantumRange) allChannels)
      (channelGuard allChannels (redColumnImage 0).matte (redColumnImage 0).isCMYK)
      (absoluteDelta (redColumnImage 0) (redColumnImage quantumRange) 0 1) = true := by
    have hfuzz : absoluteFuzz (redColumnImage 0) (redColumnImage quantumRange) allChannels = 0 :=
      mul_eq_zero_of_right _ (by simp [getFuzzyColorDistance, redColumnImage])
    rw [absoluteDifference_iff (absoluteFuzz_nonneg _ _ _), hfuzz]
    norm_num [guardedSum, channelOrder, channelGuard, absoluteDelta, channelDelta, Slot.value,
      redColumnImage, quantumRange]
  have hrow : absoluteRow (redColumnImage 0) (redColumnImage quantumRange) allChannels 1
      .composite = 1 := by
    rw [absoluteRow_composite, show areaColumns (redColumnImage 0) (redColumnImage quantumRange)
      = 1 from rfl, Finset.sum_range_one, if_pos hdiff]
  have hmorph : validateImageMorphology (redColumnImage 0) (redColumnImage quantumRange) = true :=
    rfl
  have hcall : getImageChannelDistortion (redColumnImage 0) (redColumnImage quantumRange)
      allChannels .absoluteErrorMetric { twoWorkers with rowOk := fun y => y == 1 } =
      (false, 1) := by
    simp [getImageChannelDistortion, channelDistortion, getAbsoluteDistortion, ompRows, runRows,
      realSlots, RowSchedule.trace, twoWorkers, swappedRows, rowTrace, rowStep, hrow, hmorph]
  exact ⟨hcall, fun renv => by
    rw [compareImageChannels_of_failure _ _ _ _ _ _ renv (by rw [hcall]), hcall]⟩

end MagickCompare

end
