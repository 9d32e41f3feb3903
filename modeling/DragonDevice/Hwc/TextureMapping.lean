/-
  Hwc/TextureMapping.lean --- where a region of a GL composition samples its layers.

  The vertex shader of `glworker.cpp` is run on the three vertices of its triangle, and
  the texture coordinates are interpolated over it.  What comes out at a point of the
  screen is compared with the point of the source crop that the layer's transform takes
  there.
-/
import DragonDevice.Hwc.GlWorker
import DragonDevice.Lib.Triangle
import Mathlib.Algebra.CharZero.Defs
import Mathlib.Algebra.Field.Rat
import Mathlib.Tactic.FieldSimp

set_option autoImplicit false

namespace DragonDevice.Hwc

open DragonDevice.Lib

variable {F : Type} [Field F]

/-! ## The vertex shader -/

/-- `vec4`. -/
structure Vec4 (F : Type) where
  x : F
  y : F
  z : F
  w : F
  deriving DecidableEq, Repr

/-- `v * m` of the shading language: the vector is a row, and `m` is in column-major order. -/
def vecMul (v : Vec2 F) (m : Mat2 F) : Vec2 F :=
  ⟨v.x * m.m0 + v.y * m.m1, v.x * m.m2 + v.y * m.m3⟩

/-- What the vertex shader computes for one layer. -/
structure ShadedVertex (F : Type) where
  fTexCoords : Vec2 F
  glPosition : Vec2 F
  deriving DecidableEq, Repr

/-- `GenerateVertexShader`, for one of its layers. -/
def vertexShader (uViewport uLayerCrop : Vec4 F) (uTexMatrix : Mat2 F)
    (vPosition vTexCoords : Vec2 F) : ShadedVertex F :=
  let tempCoords := vecMul vTexCoords uTexMatrix
  let scaledPosition : Vec2 F :=
    ⟨uViewport.x + vPosition.x * uViewport.z, uViewport.y + vPosition.y * uViewport.w⟩
  { fTexCoords := ⟨uLayerCrop.x + tempCoords.x * uLayerCrop.z,
      uLayerCrop.y + tempCoords.y * uLayerCrop.w⟩
    glPosition := ⟨scaledPosition.x * 2 - 1, scaledPosition.y * 2 - 1⟩ }

/-- The uniform `uViewport` of a command. -/
def viewportUniform (bounds : Rect F) (frameWidth frameHeight : Nat) : Vec4 F :=
  ⟨bounds.left / frameWidth, bounds.top / frameHeight,
    (bounds.right - bounds.left) / frameWidth, (bounds.bottom - bounds.top) / frameHeight⟩

/-- The uniform `uLayerCrop` of a source. -/
def layerCropUniform (src : TextureSource F) : Vec4 F :=
  ⟨src.cropBounds.left, src.cropBounds.top, src.cropBounds.right - src.cropBounds.left,
    src.cropBounds.bottom - src.cropBounds.top⟩

/-- `glViewport`: where a point of the clip space is in the frame. -/
def windowPoint (frameWidth frameHeight : Nat) (p : Vec2 F) : Vec2 F :=
  ⟨(p.x + 1) / 2 * frameWidth, (p.y + 1) / 2 * frameHeight⟩

/-- The texture coordinates of a source at a point of the frame: `verts` is the triangle
`(0, 0)`, `(0, 2)`, `(2, 0)`, with texture coordinates that are equal to the positions. -/
def textureCoordinate (bounds : Rect F) (src : TextureSource F) (frameWidth frameHeight : Nat)
    (p : Vec2 F) : Vec2 F :=
  let shade (v : Vec2 F) := vertexShader (viewportUniform bounds frameWidth frameHeight)
    (layerCropUniform src) src.textureMatrix v v
  let window (v : Vec2 F) := windowPoint frameWidth frameHeight (shade v).glPosition
  let across (coord : Vec2 F → F) := interpolate (window ⟨0, 0⟩) (window ⟨0, 2⟩) (window ⟨2, 0⟩)
    (coord (shade ⟨0, 0⟩).fTexCoords) (coord (shade ⟨0, 2⟩).fTexCoords)
    (coord (shade ⟨2, 0⟩).fTexCoords) p
  ⟨across Vec2.x, across Vec2.y⟩

/-! ## The transform of a layer -/

/-- A transform of the unit square: the flips, then the rotation by 90 degrees clockwise. -/
def flipThenRotate (sfTransform : BitVec 32) (p : Vec2 F) : Vec2 F :=
  let x := if sfTransform &&& hwcTransformFlipH ≠ 0#32 then 1 - p.x else p.x
  let y := if sfTransform &&& hwcTransformFlipV ≠ 0#32 then 1 - p.y else p.y
  if sfTransform &&& hwcTransformRot90 ≠ 0#32 then ⟨1 - y, x⟩ else ⟨x, y⟩

/-- The point of a rectangle, from its place in the unit square. -/
def Rect.pointAt (r : Rect F) (p : Vec2 F) : Vec2 F :=
  ⟨r.left + p.x * (r.right - r.left), r.top + p.y * (r.bottom - r.top)⟩

/-- The point of the source crop, in units of the buffer. -/
def GlLayer.sourcePoint (layer : GlLayer F) (p : Vec2 F) : Vec2 F :=
  ⟨(layer.sourceCrop.pointAt p).x / layer.bufferWidth,
    (layer.sourceCrop.pointAt p).y / layer.bufferHeight⟩

/-- The transform takes the point `u` of the source crop to the point `p` of the screen, when
it is applied to the whole display frame. -/
def GlLayer.TakesTo (layer : GlLayer F) (sfTransform : BitVec 32) (u p : Vec2 F) : Prop :=
  ∃ q : Vec2 F, u = layer.sourcePoint q ∧
    layer.displayFrame.toFloat.pointAt (flipThenRotate sfTransform q) = p

/-! ## The flips of a command -/

/-- The inverse of the transform, as the flips of a command have it. -/
def TextureFlips.unflip (flips : TextureFlips) (p : Vec2 F) : Vec2 F :=
  let s := if flips.swapXY then p.y else p.x
  let t := if flips.swapXY then p.x else p.y
  ⟨if flips.flipX then 1 - s else s, if flips.flipY then 1 - t else t⟩

/-- All three flags of a transform are set. -/
def AllFlags (sfTransform : BitVec 32) : Prop :=
  sfTransform &&& hwcTransformFlipH ≠ 0#32 ∧ sfTransform &&& hwcTransformFlipV ≠ 0#32 ∧
    sfTransform &&& hwcTransformRot90 ≠ 0#32

/-- The flips of a transform, from its flags. -/
theorem textureFlips_flags : ∀ h v r : Bool, (h && v && r) = false →
    textureFlips ((if h then kFlipH else 0#32) ||| (if v then kFlipV else 0#32) |||
      (if r then kRotate90 else 0#32)) = ⟨r, h, v.xor r⟩ := by
  decide

/-- A rotation exchanges the coordinates and, for one of them, the sense of its flip. -/
theorem textureFlips_setTransform {sfTransform : BitVec 32}
    (h : AllFlags sfTransform → sfTransform = hwcTransformRot270) :
    textureFlips (setTransform sfTransform) =
      ⟨sfTransform &&& hwcTransformRot90 ≠ 0#32, sfTransform &&& hwcTransformFlipH ≠ 0#32,
        (decide (sfTransform &&& hwcTransformFlipV ≠ 0#32)).xor
          (sfTransform &&& hwcTransformRot90 ≠ 0#32)⟩ := by
  by_cases h270 : sfTransform = hwcTransformRot270
  · rw [h270]
    decide
  by_cases h180 : sfTransform = hwcTransformRot180
  · rw [h180]
    decide
  have hflags : ¬ AllFlags sfTransform := fun hall => h270 (h hall)
  have hbits := textureFlips_flags (sfTransform &&& hwcTransformFlipH ≠ 0#32)
    (sfTransform &&& hwcTransformFlipV ≠ 0#32) (sfTransform &&& hwcTransformRot90 ≠ 0#32)
    (by simpa [AllFlags] using hflags)
  simp only [decide_eq_true_eq] at hbits
  unfold setTransform
  rw [if_neg h270, if_neg h180, hbits]

section Inverse

variable {sfTransform : BitVec 32} (h : AllFlags sfTransform → sfTransform = hwcTransformRot270)

include h in
theorem flipThenRotate_unflip (p : Vec2 F) :
    flipThenRotate sfTransform ((textureFlips (setTransform sfTransform)).unflip p) = p := by
  rw [textureFlips_setTransform h]
  by_cases hh : sfTransform &&& hwcTransformFlipH ≠ 0#32 <;>
    by_cases hv : sfTransform &&& hwcTransformFlipV ≠ 0#32 <;>
      by_cases hr : sfTransform &&& hwcTransformRot90 ≠ 0#32 <;>
        simp [flipThenRotate, TextureFlips.unflip, hh, hv, hr]

include h in
theorem unflip_flipThenRotate (p : Vec2 F) :
    (textureFlips (setTransform sfTransform)).unflip (flipThenRotate sfTransform p) = p := by
  rw [textureFlips_setTransform h]
  by_cases hh : sfTransform &&& hwcTransformFlipH ≠ 0#32 <;>
    by_cases hv : sfTransform &&& hwcTransformFlipV ≠ 0#32 <;>
      by_cases hr : sfTransform &&& hwcTransformRot90 ≠ 0#32 <;>
        simp [flipThenRotate, TextureFlips.unflip, hh, hv, hr]

end Inverse

/-! ## The coordinates over a region -/

/-- A rectangle of `int` that is not empty. -/
def Rect.HasArea (r : Rect Int) : Prop := r.left < r.right ∧ r.top < r.bottom

/-- Where a point of the plane is in the unit square of a rectangle. -/
def Rect.unitAt (r : Rect F) (p : Vec2 F) : Vec2 F :=
  ⟨(p.x - r.left) / (r.right - r.left), (p.y - r.top) / (r.bottom - r.top)⟩

section Region

variable [CharZero F] {r : Rect Int}

theorem Rect.HasArea.width_ne_zero (h : r.HasArea) :
    (r.toFloat : Rect F).right - (r.toFloat : Rect F).left ≠ 0 := by
  simp only [Rect.toFloat]
  rw [sub_ne_zero]
  exact fun heq => absurd (Int.cast_injective heq) (by have := h.1; omega)

theorem Rect.HasArea.height_ne_zero (h : r.HasArea) :
    (r.toFloat : Rect F).bottom - (r.toFloat : Rect F).top ≠ 0 := by
  simp only [Rect.toFloat]
  rw [sub_ne_zero]
  exact fun heq => absurd (Int.cast_injective heq) (by have := h.2; omega)

/-- The two ways between a rectangle and the unit square are inverse to each other. -/
theorem Rect.HasArea.pointAt_eq_iff (h : r.HasArea) (p q : Vec2 F) :
    r.toFloat.pointAt q = p ↔ q = r.toFloat.unitAt p := by
  have hw := h.width_ne_zero (F := F)
  have hh := h.height_ne_zero (F := F)
  rw [Vec2.ext_iff, Vec2.ext_iff]
  simp only [Rect.pointAt, Rect.unitAt]
  rw [eq_div_iff hw, eq_div_iff hh, eq_sub_iff_add_eq', eq_sub_iff_add_eq']

/-- The window position of a vertex. -/
theorem windowPoint_vertexShader {frameWidth frameHeight : Nat} (hwidth : 0 < frameWidth)
    (hheight : 0 < frameHeight) (bounds : Rect F) (crop : Vec4 F) (m : Mat2 F) (v : Vec2 F) :
    windowPoint frameWidth frameHeight
      (vertexShader (viewportUniform bounds frameWidth frameHeight) crop m v v).glPosition =
      bounds.pointAt v := by
  have hw : (frameWidth : F) ≠ 0 := Nat.cast_ne_zero.mpr (by omega)
  have hh : (frameHeight : F) ≠ 0 := Nat.cast_ne_zero.mpr (by omega)
  rw [Vec2.ext_iff]
  simp only [windowPoint, vertexShader, viewportUniform, Rect.pointAt]
  constructor
  · field_simp
    ring
  · field_simp
    ring

/-- The triangle covers the region. -/
theorem Rect.HasArea.signedArea_ne_zero (h : r.HasArea) :
    signedArea ((r.toFloat : Rect F).pointAt ⟨0, 0⟩) (r.toFloat.pointAt ⟨0, 2⟩)
      (r.toFloat.pointAt ⟨2, 0⟩) ≠ 0 := by
  have hne := mul_ne_zero (mul_ne_zero (h.width_ne_zero (F := F)) (h.height_ne_zero (F := F)))
    (OfNat.ofNat_ne_zero 4 : (4 : F) ≠ 0)
  intro harea
  apply hne
  simp only [signedArea, Rect.pointAt] at harea
  linear_combination -harea

end Region

/-- The point of the source crop is an affine function of the point of the screen. -/
theorem isAffine_sourcePoint (layer : GlLayer F) (flips : TextureFlips) (frame : Rect F) :
    IsAffine (fun p => (layer.sourcePoint (flips.unflip (frame.unitAt p))).x) ∧
    IsAffine (fun p => (layer.sourcePoint (flips.unflip (frame.unitAt p))).y) := by
  have hx : IsAffine fun p : Vec2 F => (frame.unitAt p).x :=
    (IsAffine.x.sub (.const frame.left)).div_const _
  have hy : IsAffine fun p : Vec2 F => (frame.unitAt p).y :=
    (IsAffine.y.sub (.const frame.top)).div_const _
  have hunflip : IsAffine (fun p => (flips.unflip (frame.unitAt p)).x) ∧
      IsAffine (fun p => (flips.unflip (frame.unitAt p)).y) := by
    obtain ⟨swapXY, flipX, flipY⟩ := flips
    have hs : IsAffine fun p => if swapXY then (frame.unitAt p).y else (frame.unitAt p).x := by
      cases swapXY with
      | false => exact hx
      | true => exact hy
    have ht : IsAffine fun p => if swapXY then (frame.unitAt p).x else (frame.unitAt p).y := by
      cases swapXY with
      | false => exact hy
      | true => exact hx
    constructor
    · cases flipX with
      | false => exact hs
      | true => exact (IsAffine.const 1).sub hs
    · cases flipY with
      | false => exact ht
      | true => exact (IsAffine.const 1).sub ht
  exact ⟨((IsAffine.const _).add (hunflip.1.mul_const _)).div_const _,
    ((IsAffine.const _).add (hunflip.2.mul_const _)).div_const _⟩

/-- At a vertex, the coordinates are those of the point of the screen where the vertex is. -/
theorem fTexCoords_eq (layer : GlLayer F) (textureIndex : Nat) (bounds : Rect F)
    (viewport : Vec4 F) (v : Vec2 F) :
    let src := textureSource layer textureIndex bounds
    (vertexShader viewport (layerCropUniform src) src.textureMatrix v v).fTexCoords =
      layer.sourcePoint ((textureFlips layer.transform).unflip
        (layer.displayFrame.toFloat.unitAt (bounds.pointAt v))) := by
  rw [Vec2.ext_iff]
  simp only [vertexShader, layerCropUniform, textureSource, GlLayer.sourcePoint]
  obtain ⟨swapXY, flipX, flipY⟩ := textureFlips layer.transform
  cases swapXY <;> cases flipX <;> cases flipY <;>
    simp [vecMul, kTextureTransformMatrices, cropBound, GlLayer.cropRect, Rect.bound,
      TextureFlips.flip, TextureFlips.unflip, Rect.unitAt, Rect.pointAt] <;>
    constructor <;> ring

section Mapping

variable [CharZero F] {layer : GlLayer F} {region : Rect Int} {frameWidth frameHeight : Nat}

/-- The coordinates of a region, at every point of the screen. -/
theorem textureCoordinate_eq (hregion : region.HasArea) (hwidth : 0 < frameWidth)
    (hheight : 0 < frameHeight) (textureIndex : Nat) (p : Vec2 F) :
    textureCoordinate region.toFloat (textureSource layer textureIndex region.toFloat)
      frameWidth frameHeight p =
      layer.sourcePoint ((textureFlips layer.transform).unflip
        (layer.displayFrame.toFloat.unitAt p)) := by
  obtain ⟨hx, hy⟩ := isAffine_sourcePoint layer (textureFlips layer.transform)
    layer.displayFrame.toFloat
  rw [Vec2.ext_iff]
  simp only [textureCoordinate, windowPoint_vertexShader hwidth hheight, fTexCoords_eq]
  exact ⟨hx.interpolate_eq hregion.signedArea_ne_zero p,
    hy.interpolate_eq hregion.signedArea_ne_zero p⟩

end Mapping

/-! ## The sources of a command -/

/-- Every source of a command is that of its layer over the region. -/
theorem mem_textureSources {layers : List (GlLayer F)} {bounds : Rect F} {src : TextureSource F} :
    ∀ {l : List Nat} {count : Nat} {srcs : List (TextureSource F)},
      textureSources layers bounds l count = some srcs → src ∈ srcs →
      ∃ layer, layers[src.textureIndex]? = some layer ∧
        src = textureSource layer src.textureIndex bounds := by
  intro l
  induction l with
  | nil =>
      intro count srcs h hsrc
      cases h
      exact absurd hsrc List.not_mem_nil
  | cons i rest ih =>
      intro count srcs h hsrc
      unfold textureSources at h
      obtain ⟨layer, hlayer, h⟩ := Option.bind_eq_some_iff.mp h
      by_cases hfull : maxOverlappingLayers ≤ count
      · rw [if_pos hfull] at h
        cases h
      · rw [if_neg hfull] at h
        by_cases hopaque : layer.blending = .none
        · rw [if_pos hopaque] at h
          cases h
          rw [List.mem_singleton.mp hsrc]
          exact ⟨layer, hlayer, rfl⟩
        · rw [if_neg hopaque] at h
          obtain ⟨rest', hrest, h⟩ := Option.bind_eq_some_iff.mp h
          cases h
          cases List.mem_cons.mp hsrc with
          | inl heq =>
              rw [heq]
              exact ⟨layer, hlayer, rfl⟩
          | inr hmem => exact ih hrest hmem

section Commands

variable {layers : List (GlLayer F)} {region : DrmCompositionRegion} {cmd : RenderingCommand F}
  {src : TextureSource F} {layer : GlLayer F} {frameWidth frameHeight : Nat}

/-- The bounds of a command are its region, and a source of it is that of its layer. -/
theorem constructCommand_source (hcmd : constructCommand layers region = some cmd)
    (hsrc : src ∈ cmd.textures) (hlayer : layers[src.textureIndex]? = some layer) :
    cmd.bounds = region.frame.toFloat ∧
      src = textureSource layer src.textureIndex region.frame.toFloat := by
  obtain ⟨srcs, hsrcs, rfl⟩ := Option.map_eq_some_iff.mp hcmd
  obtain ⟨layer', hlayer', heq⟩ := mem_textureSources hsrcs hsrc
  rw [hlayer] at hlayer'
  cases hlayer'
  exact ⟨rfl, heq⟩

variable [CharZero F]

/-- The coordinates of a source of a command, at every point of the screen. -/
theorem textureCoordinate_command (hcmd : constructCommand layers region = some cmd)
    (hsrc : src ∈ cmd.textures) (hlayer : layers[src.textureIndex]? = some layer)
    (hregion : region.frame.HasArea) (hwidth : 0 < frameWidth) (hheight : 0 < frameHeight)
    (p : Vec2 F) :
    textureCoordinate cmd.bounds src frameWidth frameHeight p =
      layer.sourcePoint ((textureFlips layer.transform).unflip
        (layer.displayFrame.toFloat.unitAt p)) := by
  obtain ⟨hbounds, heq⟩ := constructCommand_source hcmd hsrc hlayer
  rw [hbounds, heq]
  exact textureCoordinate_eq hregion hwidth hheight _ p

/-- For a transform whose flags are not all set, or that is the rotation by 270 degrees, the
coordinates of a source at a point of the screen are the point of the source crop that the
transform of the whole display frame takes there, and every other region that samples the
layer has the same coordinates at that point. -/
theorem textureCoordinate_takesTo (hcmd : constructCommand layers region = some cmd)
    (hsrc : src ∈ cmd.textures) (hlayer : layers[src.textureIndex]? = some layer)
    {sfTransform : BitVec 32}
    (hflags : AllFlags sfTransform → sfTransform = hwcTransformRot270)
    (htransform : layer.transform = setTransform sfTransform)
    (hframe : layer.displayFrame.HasArea) (hregion : region.frame.HasArea)
    (hwidth : 0 < frameWidth) (hheight : 0 < frameHeight) (p : Vec2 F) :
    (∀ u, layer.TakesTo sfTransform u p ↔
      textureCoordinate cmd.bounds src frameWidth frameHeight p = u) ∧
    ∀ (region' : DrmCompositionRegion) (cmd' : RenderingCommand F) (src' : TextureSource F),
      constructCommand layers region' = some cmd' → src' ∈ cmd'.textures →
      src'.textureIndex = src.textureIndex → region'.frame.HasArea →
      textureCoordinate cmd'.bounds src' frameWidth frameHeight p =
        textureCoordinate cmd.bounds src frameWidth frameHeight p := by
  have hcoord := textureCoordinate_command hcmd hsrc hlayer hregion hwidth hheight p
  refine ⟨fun u => ?_, fun region' cmd' src' hcmd' hsrc' hindex hregion' => ?_⟩
  · rw [hcoord, htransform, GlLayer.TakesTo]
    simp only [hframe.pointAt_eq_iff]
    constructor
    · rintro ⟨q, rfl, hq⟩
      rw [← hq, unflip_flipThenRotate hflags]
    · intro hu
      exact ⟨_, hu.symm, flipThenRotate_unflip hflags _⟩
  · rw [← hindex] at hlayer
    rw [hcoord]
    exact textureCoordinate_command hcmd' hsrc' hlayer hregion' hwidth hheight p

end Commands

/-! ## A layer of four by four pixels -/

/-- A layer with a transform. -/
def turnedLayer (sfTransform : BitVec 32) : GlLayer Rat :=
  { sfHandle := 1, grallocBufferUsage := 0#32, format := .abgr8888
    transform := setTransform sfTransform, blending := .preMult, sourceCrop := ⟨0, 0, 4, 4⟩
    displayFrame := ⟨0, 0, 4, 4⟩, bufferWidth := 4, bufferHeight := 4, alpha := 255 }

/-- The command of a region that has only this layer. -/
def turnedCommand (sfTransform : BitVec 32) (region : Rect Int) : RenderingCommand Rat :=
  ⟨region.toFloat, [textureSource (turnedLayer sfTransform) 0 region.toFloat]⟩

theorem constructCommand_turned (sfTransform : BitVec 32) (region : Rect Int) :
    constructCommand [turnedLayer sfTransform] ⟨region, [0]⟩ =
      some (turnedCommand sfTransform region) :=
  rfl

/-- The transform of such a layer, as a function of the point of the unit square. -/
theorem turnedLayer_takesTo (sfTransform : BitVec 32) (q : Vec2 Rat) :
    (turnedLayer sfTransform).TakesTo sfTransform q
      ⟨(flipThenRotate sfTransform q).x * 4, (flipThenRotate sfTransform q).y * 4⟩ := by
  refine ⟨q, ?_, ?_⟩
  · simp [GlLayer.sourcePoint, Rect.pointAt, turnedLayer]
  · simp [Rect.pointAt, Rect.toFloat, turnedLayer]

/-- With all flags set and a bit beyond them, the vertical flip is lost: the corner that comes
from the top right of the source is sampled at its bottom right. -/
theorem textureCoordinate_not_takesTo :
    ∃ cmd src, constructCommand [turnedLayer 15#32] ⟨⟨0, 0, 4, 4⟩, [0]⟩ = some cmd ∧
      src ∈ cmd.textures ∧ (turnedLayer 15#32).TakesTo 15#32 ⟨1, 0⟩ ⟨0, 0⟩ ∧
      textureCoordinate cmd.bounds src 4 4 ⟨0, 0⟩ ≠ ⟨1, 0⟩ := by
  refine ⟨_, _, constructCommand_turned _ _, List.mem_singleton.mpr rfl, ?_, ?_⟩
  · simpa [flipThenRotate, hwcTransformFlipH, hwcTransformFlipV, hwcTransformRot90] using
      turnedLayer_takesTo 15#32 ⟨1, 0⟩
  · have hflips : textureFlips (setTransform 15#32) = ⟨true, true, true⟩ := by decide
    have hcoord := @textureCoordinate_eq Rat _ _ (turnedLayer 15#32) ⟨0, 0, 4, 4⟩ 4 4
      ⟨by decide, by decide⟩ (by decide) (by decide) 0 ⟨0, 0⟩
    simp only [turnedCommand]
    rw [hcoord]
    simp [turnedLayer, hflips, TextureFlips.unflip, Rect.unitAt, Rect.toFloat,
      GlLayer.sourcePoint, Rect.pointAt]

theorem rotated_takesTo :
    (turnedLayer hwcTransformRot90).TakesTo hwcTransformRot90 ⟨1, 1⟩ ⟨0, 4⟩ ∧
    ∀ src ∈ (turnedCommand hwcTransformRot90 ⟨0, 2, 2, 4⟩).textures,
      textureCoordinate (turnedCommand hwcTransformRot90 ⟨0, 2, 2, 4⟩).bounds src 4 4 ⟨0, 4⟩ =
        ⟨1, 1⟩ := by
  have htakes : (turnedLayer hwcTransformRot90).TakesTo hwcTransformRot90 ⟨1, 1⟩ ⟨0, 4⟩ := by
    simpa [flipThenRotate, hwcTransformFlipH, hwcTransformFlipV, hwcTransformRot90] using
      turnedLayer_takesTo hwcTransformRot90 ⟨1, 1⟩
  refine ⟨htakes, fun src hsrc => ?_⟩
  have hindex : src.textureIndex = 0 := by
    rw [List.mem_singleton.mp hsrc]
    rfl
  have hflags : AllFlags hwcTransformRot90 → hwcTransformRot90 = hwcTransformRot270 :=
    fun h => absurd h.1 (by decide)
  exact ((textureCoordinate_takesTo (constructCommand_turned _ ⟨0, 2, 2, 4⟩) hsrc
    (by rw [hindex]; rfl) hflags rfl ⟨by decide, by decide⟩ ⟨by decide, by decide⟩ (by decide)
    (by decide) ⟨0, 4⟩).1 ⟨1, 1⟩).mp htakes

end DragonDevice.Hwc
