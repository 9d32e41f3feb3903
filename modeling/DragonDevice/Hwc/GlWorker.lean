/-
  Hwc/GlWorker.lean --- `GLWorkerCompositor` of `glworker.cpp`.

  The layers of each region are turned into a rendering command, the layers that any
  region uses are imported as textures, and each command is drawn with the textures
  of its layers.  The arithmetic of the commands is exact: the coordinate type is a
  field.  What the source leaves undefined (a layer outside the list, a source outside
  the array of a command, a texture outside the list) has no result.
-/
import DragonDevice.Hwc.SquashFrame
import Mathlib.Algebra.Field.Basic

set_option autoImplicit false

namespace DragonDevice.Hwc

variable {F : Type}

/-! ## Layers -/

/-- `MAX_OVERLAPPING_LAYERS`. -/
def maxOverlappingLayers : Nat := 64

/-- `HWC_TRANSFORM_FLIP_H`. -/
def hwcTransformFlipH : BitVec 32 := 0x1#32

/-- `HWC_TRANSFORM_FLIP_V`. -/
def hwcTransformFlipV : BitVec 32 := 0x2#32

/-- `HWC_TRANSFORM_ROT_90`. -/
def hwcTransformRot90 : BitVec 32 := 0x4#32

/-- `HWC_TRANSFORM_ROT_180`: both flips. -/
def hwcTransformRot180 : BitVec 32 := 0x3#32

/-- `HWC_TRANSFORM_ROT_270`: both flips and the rotation. -/
def hwcTransformRot270 : BitVec 32 := 0x7#32

/-- `DrmHwcLayer::SetTransform`. -/
def setTransform (sfTransform : BitVec 32) : BitVec 32 :=
  if sfTransform = hwcTransformRot270 then kRotate270
  else if sfTransform = hwcTransformRot180 then kRotate180
  else
    (if sfTransform &&& hwcTransformFlipH ≠ 0#32 then kFlipH else 0#32) |||
    (if sfTransform &&& hwcTransformFlipV ≠ 0#32 then kFlipV else 0#32) |||
    (if sfTransform &&& hwcTransformRot90 ≠ 0#32 then kRotate90 else 0#32)

/-- A layer with the rest of what rendering reads: the size of its buffer and its alpha. -/
structure GlLayer (F : Type) extends DrmHwcLayer F where
  bufferWidth : Nat
  bufferHeight : Nat
  alpha : Nat
  deriving DecidableEq, Repr

/-! ## Rendering commands -/

/-- `bounds[i]` of a rectangle. -/
def Rect.bound (r : Rect F) : Nat → F
  | 0 => r.left
  | 1 => r.top
  | 2 => r.right
  | _ => r.bottom

/-- `float[4]`, a matrix in column-major order. -/
structure Mat2 (F : Type) where
  m0 : F
  m1 : F
  m2 : F
  m3 : F
  deriving DecidableEq, Repr

/-- `RenderingCommand::TextureSource`. -/
structure TextureSource (F : Type) where
  textureIndex : Nat
  cropBounds : Rect F
  alpha : F
  premult : F
  textureMatrix : Mat2 F
  deriving DecidableEq, Repr

/-- `RenderingCommand`. -/
structure RenderingCommand (F : Type) where
  bounds : Rect F
  textures : List (TextureSource F)
  deriving DecidableEq, Repr

/-- `swap_xy` and `flip_xy`. -/
structure TextureFlips where
  swapXY : Bool
  flipX : Bool
  flipY : Bool
  deriving DecidableEq, Repr

/-- `flip_xy[j % 2]`. -/
def TextureFlips.flip (flips : TextureFlips) (j : Nat) : Bool :=
  if j % 2 = 0 then flips.flipX else flips.flipY

/-- What `ConstructCommand` makes of a transform. -/
def textureFlips (transform : BitVec 32) : TextureFlips :=
  if transform = kRotate180 then ⟨false, true, true⟩
  else if transform = kRotate270 then ⟨true, true, false⟩
  else if transform &&& kRotate90 ≠ 0#32 then
    if transform &&& kFlipH ≠ 0#32 then ⟨true, true, true⟩
    else if transform &&& kFlipV ≠ 0#32 then ⟨true, false, false⟩
    else ⟨true, false, true⟩
  else ⟨false, transform &&& kFlipH ≠ 0#32, transform &&& kFlipV ≠ 0#32⟩

section Commands

variable [Field F]

/-- `DrmHwcRect<float>` of a rectangle of `int`. -/
def Rect.toFloat (r : Rect Int) : Rect F := ⟨r.left, r.top, r.right, r.bottom⟩

/-- `kTextureTransformMatrices`: the identity, and the exchange of the coordinates. -/
def kTextureTransformMatrices (swapXY : Bool) : Mat2 F :=
  if swapXY then ⟨0, 1, 1, 0⟩ else ⟨1, 0, 0, 1⟩

/-- `crop_rect`: the source crop in units of the buffer. -/
def GlLayer.cropRect (layer : GlLayer F) : Rect F :=
  ⟨layer.sourceCrop.left / layer.bufferWidth, layer.sourceCrop.top / layer.bufferHeight,
    layer.sourceCrop.right / layer.bufferWidth, layer.sourceCrop.bottom / layer.bufferHeight⟩

/-- `crop_bounds[j]`: where the side of the region is in the crop. -/
def cropBound (displayRect cropRect bounds : Rect F) (flips : TextureFlips) (j : Nat) : F :=
  let b := j ^^^ (if flips.swapXY then 1 else 0)
  let displaySize := displayRect.bound (b % 2 + 2) - displayRect.bound (b % 2)
  let cropSize := cropRect.bound (j % 2 + 2) - cropRect.bound (j % 2)
  let boundPercent := (bounds.bound b - displayRect.bound (b % 2)) / displaySize
  if flips.flip j then cropRect.bound (j % 2 + 2) - boundPercent * cropSize
  else cropRect.bound (j % 2) + boundPercent * cropSize

/-- The texture source of one layer of a region. -/
def textureSource (layer : GlLayer F) (textureIndex : Nat) (bounds : Rect F) :
    TextureSource F :=
  let flips := textureFlips layer.transform
  let crop := cropBound layer.displayFrame.toFloat layer.cropRect bounds flips
  { textureIndex
    cropBounds := ⟨crop 0, crop 1, crop 2, crop 3⟩
    alpha := if layer.blending = .none then 1 else layer.alpha / 255
    premult := if layer.blending = .coverage then 0 else 1
    textureMatrix := kTextureTransformMatrices flips.swapXY }

/-- The loop of `ConstructCommand` over the layers of a region, from the top down to the first
one that is opaque. -/
def textureSources (layers : List (GlLayer F)) (bounds : Rect F) :
    List Nat → Nat → Option (List (TextureSource F))
  | [], _ => some []
  | textureIndex :: rest, textureCount => do
      let layer ← layers[textureIndex]?
      if maxOverlappingLayers ≤ textureCount then none
      let src := textureSource layer textureIndex bounds
      if layer.blending = .none then some [src]
      else
        let srcs ← textureSources layers bounds rest (textureCount + 1)
        some (src :: srcs)

/-- `ConstructCommand`. -/
def constructCommand (layers : List (GlLayer F)) (region : DrmCompositionRegion) :
    Option (RenderingCommand F) :=
  (textureSources layers region.frame.toFloat region.sourceLayers 0).map fun textures =>
    ⟨region.frame.toFloat, textures⟩

end Commands

/-! ## Compositing -/

/-- The results of the calls of one composition. -/
structure GlOutcomes where
  /-- `PrepareAndCacheFramebuffer` has a framebuffer -/
  framebuffer : Bool
  /-- `CreateTextureFromHandle`, for the layer of an index -/
  createTexture : Nat → Int
  /-- `EGLFenceWait`, for the acquire fence of the layer of an index -/
  fenceWait : Nat → Int
  /-- `PrepareAndCacheProgram` has a program for so many textures -/
  program : Nat → Bool

/-- The status of a layer that is used: its texture, then its fence. -/
def GlOutcomes.status (outcomes : GlOutcomes) (layerIndex : Nat) : Int :=
  if outcomes.createTexture layerIndex ≠ 0 then outcomes.createTexture layerIndex
  else outcomes.fenceWait layerIndex

/-- `layers_used_indices.count`. -/
def layersUsed (regions : List DrmCompositionRegion) (layerIndex : Nat) : Bool :=
  regions.any fun region => region.sourceLayers.contains layerIndex

/-- One turn of the loop over the layers, with `ret` and `layer_textures`.  A texture stands
for the layer it was made from; a layer that is not used has an empty one. -/
def importLayer (used : Nat → Bool) (outcomes : GlOutcomes) (s : Int × List (Option Nat))
    (layerIndex : Nat) : Int × List (Option Nat) :=
  if used layerIndex = false then (s.1, s.2 ++ [none])
  else if outcomes.status layerIndex ≠ 0 then (-einval, s.2)
  else (0, s.2 ++ [some layerIndex])

/-- The loop over the layers. -/
def importLayers (used : Nat → Bool) (outcomes : GlOutcomes) : Int × List (Option Nat) :=
  (List.range maxOverlappingLayers).foldl (importLayer used outcomes) (0, [])

/-- A command that was drawn, with the texture bound for each of its sources. -/
structure DrawnCommand (F : Type) where
  bounds : Rect F
  bindings : List (TextureSource F × Option Nat)
  deriving DecidableEq, Repr

/-- One turn of the loop over the commands. -/
def drawCommand (program : Nat → Bool) (layerTextures : List (Option Nat))
    (cmd : RenderingCommand F) : Option (List (DrawnCommand F)) :=
  if cmd.textures = [] then some []
  else if program cmd.textures.length = false then some []
  else do
    let bindings ← cmd.textures.mapM fun src =>
      (layerTextures[src.textureIndex]?).map fun texture => (src, texture)
    some [⟨cmd.bounds, bindings⟩]

/-- What a composition returns, and what it leaves behind. -/
structure GlResult (F : Type) where
  ret : Int
  layerTextures : List (Option Nat)
  drawn : List (DrawnCommand F)
  deriving DecidableEq, Repr

/-- `GLWorkerCompositor::Composite`. -/
def glComposite [Field F] (layers : List (GlLayer F)) (regions : List DrmCompositionRegion)
    (outcomes : GlOutcomes) : Option (GlResult F) :=
  if regions = [] then some ⟨-ealready, [], []⟩
  else if outcomes.framebuffer = false then some ⟨-einval, [], []⟩
  else do
    let commands ← regions.mapM (constructCommand layers)
    let (ret, layerTextures) := importLayers (layersUsed regions) outcomes
    if ret ≠ 0 then some ⟨ret, layerTextures, []⟩
    else
      let drawn ← commands.mapM (drawCommand outcomes.program layerTextures)
      some ⟨ret, layerTextures, drawn.flatten⟩

end DragonDevice.Hwc
