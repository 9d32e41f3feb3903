/-
  Hwc/Layer.lean --- the layers, planes and composition planes of `drm_hwcomposer`.

  The source crop of a layer has floating point coordinates.  The planner only
  compares quotients of them with small integers, so the model is generic in the
  coordinate type and in its arithmetic.
-/
import DragonDevice.Hwc.SeparateRects

set_option autoImplicit false

namespace DragonDevice.Hwc

/-! ## Layers -/

/-- The buffer formats the planner tells apart. -/
inductive DrmFormat where
  | argb8888 | abgr8888 | xbgr8888 | xrgb8888
  | yvu420 | yuv420 | yuv422 | uyvy | yuyv | nv12 | nv21
  | rgb565 | bgr565
  | other (fourcc : Nat)
  deriving DecidableEq, Repr

/-- `DrmHwcBlending`. -/
inductive DrmHwcBlending where
  | none | preMult | coverage
  deriving DecidableEq, Repr

/-- `GRALLOC_USAGE_PROTECTED`. -/
def grallocUsageProtected : BitVec 32 := 0x4000#32

/-- `DrmHwcTransform::kFlipH`. -/
def kFlipH : BitVec 32 := 0x1#32

/-- `DrmHwcTransform::kFlipV`. -/
def kFlipV : BitVec 32 := 0x2#32

/-- `DrmHwcTransform::kRotate90`. -/
def kRotate90 : BitVec 32 := 0x4#32

/-- `DrmHwcTransform::kRotate180`. -/
def kRotate180 : BitVec 32 := 0x8#32

/-- `DrmHwcTransform::kRotate270`. -/
def kRotate270 : BitVec 32 := 0x10#32

/-- `DrmHwcLayer`, as far as planning reads it; `format` is that of its buffer. -/
structure DrmHwcLayer (F : Type) where
  sfHandle : Nat
  grallocBufferUsage : BitVec 32
  format : DrmFormat
  transform : BitVec 32
  blending : DrmHwcBlending
  sourceCrop : Rect F
  displayFrame : Rect Int
  deriving DecidableEq, Repr

/-- `protected_usage`. -/
def DrmHwcLayer.protectedUsage {F : Type} (layer : DrmHwcLayer F) : Bool :=
  layer.grallocBufferUsage &&& grallocUsageProtected == grallocUsageProtected

/-! ## Planes -/

/-- `DRM_PLANE_TYPE_*`. -/
inductive PlaneType where
  | overlay | primary | cursor
  deriving DecidableEq, Repr

structure DrmCrtc where
  id : Nat
  pipe : Nat
  deriving DecidableEq, Repr

structure DrmPlane where
  id : Nat
  type : PlaneType
  possibleCrtcMask : BitVec 32
  deriving DecidableEq, Repr

/-- `GetCrtcSupported`. -/
def DrmPlane.getCrtcSupported (plane : DrmPlane) (crtc : DrmCrtc) : Bool :=
  (1#32 <<< crtc.pipe) &&& plane.possibleCrtcMask != 0#32

/-- `DrmPlane::type() == DRM_PLANE_TYPE_PRIMARY`. -/
def DrmPlane.isPrimary (plane : DrmPlane) : Bool := plane.type == .primary

/-! ## Composition planes -/

/-- `DrmCompositionPlane::Type`. -/
inductive CompositionPlaneType where
  | disable | layer | precomp | squash
  deriving DecidableEq, Repr

/-- `DrmCompositionPlane`; only a plane that is being disabled may lack a crtc. -/
structure DrmCompositionPlane where
  type : CompositionPlaneType
  plane : DrmPlane
  crtc : Option DrmCrtc
  sourceLayers : List Nat
  deriving DecidableEq, Repr

/-- `type() == Type::kPrecomp`. -/
def DrmCompositionPlane.isPrecomp (p : DrmCompositionPlane) : Bool := p.type == .precomp

/-- `DrmCompositionRegion`. -/
structure DrmCompositionRegion where
  frame : Rect Int
  sourceLayers : List Nat
  deriving DecidableEq, Repr

end DragonDevice.Hwc
