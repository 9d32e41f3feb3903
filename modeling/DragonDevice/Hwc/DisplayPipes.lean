/-
  Hwc/DisplayPipes.lean --- the display pipes of `DrmResources::Init`.

  A connector is driven by an encoder, and the encoder by a crtc.  `CreateDisplayPipe`
  gives one connector after the other the first encoder for which a crtc is free.  It
  asks a crtc whether it is taken, but never an encoder.  Pointers to the kernel's objects
  are positions in the lists they are kept in.
-/
import Mathlib.Data.List.Nodup
import DragonDevice.Hwc.Composition

set_option autoImplicit false

namespace DragonDevice.Hwc

/-! ## What the kernel reports -/

/-- `drmModeCrtc`, and what `DrmCrtc::Init` returns for it. -/
structure KernelCrtc where
  id : Nat
  initResult : Int
  deriving DecidableEq, Repr

/-- `drmModeEncoder`. -/
structure KernelEncoder where
  id : Nat
  crtcId : Nat
  possibleCrtcs : BitVec 32
  deriving DecidableEq, Repr

/-- `drmModeConnector`, and what `DrmConnector::Init` returns for it. -/
structure KernelConnector where
  id : Nat
  internal : Bool
  external : Bool
  encoderId : Nat
  encoders : List Nat
  initResult : Int
  deriving DecidableEq, Repr

/-- The objects of a card, `none` where the kernel does not give one out, and the result of
the rest of `Init`: the planes, the compositor and the event listener. -/
structure KernelResources where
  crtcs : List (Option KernelCrtc)
  encoders : List (Option KernelEncoder)
  connectors : List (Option KernelConnector)
  restResult : Int
  deriving DecidableEq, Repr

/-! ## Reading it -/

/-- `DrmEncoder`: the crtc it starts with, and those it can be driven by. -/
structure DrmEncoder (crtcCount : Nat) where
  id : Nat
  crtc : Option (Fin crtcCount)
  possibleCrtcs : List (Fin crtcCount)
  deriving DecidableEq, Repr

/-- `DrmConnector`, with the encoder it starts with and those it can be driven by. -/
structure PipeConnector (encoderCount : Nat) where
  connector : DrmConnector
  encoder : Option (Fin encoderCount)
  possibleEncoders : List (Fin encoderCount)
  deriving DecidableEq, Repr

/-- A loop over the kernel's objects, up to the first that cannot be had. -/
def readObjects {α : Type} (initResult : α → Int) : List (Option α) → Except Int (List α)
  | [] => .ok []
  | none :: _ => .error (-enodev)
  | some a :: rest =>
      if initResult a ≠ 0 then .error (initResult a)
      else (readObjects initResult rest).map (a :: ·)

/-- The last object of a list with an id. -/
def lastWithId {α : Type} (objects : List α) (objectId : α → Nat) (id : Nat) :
    Option (Fin objects.length) :=
  (List.finRange objects.length).reverse.find? fun i => objectId (objects.get i) == id

def readEncoder (crtcs : List KernelCrtc) (e : KernelEncoder) : DrmEncoder crtcs.length where
  id := e.id
  crtc := lastWithId crtcs (·.id) e.crtcId
  possibleCrtcs := (List.finRange crtcs.length).filter fun crtc =>
    (1#32 <<< crtc.val) &&& e.possibleCrtcs != 0#32

/-- The loop over the encoders of a connector: without any, its current one is not looked
for. -/
def readConnector {crtcCount : Nat} (encoders : List (DrmEncoder crtcCount))
    (c : KernelConnector) : PipeConnector encoders.length where
  connector := ⟨c.id, c.internal, c.external, -1⟩
  encoder := if c.encoders = [] then none else lastWithId encoders (·.id) c.encoderId
  possibleEncoders := c.encoders.flatMap fun id =>
    (List.finRange encoders.length).filter fun enc => (encoders.get enc).id == id

/-- The objects of `DrmResources`, as they are before pipes are created. -/
structure DisplayHardware where
  crtcCount : Nat
  encoders : List (DrmEncoder crtcCount)
  connectors : List (PipeConnector encoders.length)
  /-- the displays are those of `setDisplays` -/
  displays_nodup : (connectors.map (·.connector.display)).Nodup
  displays_nonneg : ∀ c ∈ connectors, 0 ≤ c.connector.display

/-- Number the displays. -/
def numberConnectors {encoderCount : Nat} (connectors : List (PipeConnector encoderCount)) :
    List (PipeConnector encoderCount) :=
  (connectors.zip (setDisplays (connectors.map (·.connector)))).map fun e =>
    { e.1 with connector := e.2 }

theorem length_setDisplays (connectors : List DrmConnector) :
    (setDisplays connectors).length = connectors.length := by
  have hnumber : ∀ (l : List DrmConnector) (found : Bool) (n : Int),
      (numberDisplays l found n).1.length = l.length := by
    intro l
    induction l with
    | nil => intro found n; rfl
    | cons conn rest ih =>
        intro found n
        unfold numberDisplays
        split
        · exact congrArg (· + 1) (ih true n)
        · exact congrArg (· + 1) (ih found (n + 1))
  have hfind : ∀ (l : List DrmConnector) (found : Bool),
      (findExternal l found).length = l.length := by
    intro l
    induction l with
    | nil => intro found; rfl
    | cons conn rest ih =>
        intro found
        unfold findExternal
        split
        · exact congrArg (· + 1) (ih true)
        · exact congrArg (· + 1) (ih found)
  unfold setDisplays
  rw [hfind, hnumber]

theorem setDisplays_nonneg (connectors : List DrmConnector) :
    ∀ conn ∈ setDisplays connectors, 0 ≤ conn.display := by
  obtain ⟨hnodup, hrange, hpos⟩ := numberDisplays_spec connectors false 1 (Int.le_refl 1)
  unfold setDisplays
  cases hfound : (numberDisplays connectors false 1).2 with
  | true =>
      simp only [hfound, findExternal_found]
      intro conn hconn
      cases hrange conn hconn with
      | inl hge => omega
      | inr hzero => omega
  | false =>
      simp only [hfound]
      intro conn hconn
      cases (findExternal_nodup _ hnodup (hpos hfound)).2 conn hconn with
      | inl hzero => omega
      | inr hfrom =>
          obtain ⟨conn', hconn', heq⟩ := hfrom
          have hge := hpos hfound conn' hconn'
          omega

theorem map_connector_numberConnectors {encoderCount : Nat}
    (connectors : List (PipeConnector encoderCount)) :
    (numberConnectors connectors).map (·.connector) =
      setDisplays (connectors.map (·.connector)) := by
  have hlength := length_setDisplays (connectors.map (·.connector))
  rw [List.length_map] at hlength
  unfold numberConnectors
  rw [List.map_map]
  exact List.map_snd_zip (Nat.le_of_eq hlength)

/-- `DrmResources` after its loops over the kernel's objects. -/
def readHardware (crtcs : List KernelCrtc) (encoders : List KernelEncoder)
    (connectors : List KernelConnector) : DisplayHardware where
  crtcCount := crtcs.length
  encoders := encoders.map (readEncoder crtcs)
  connectors := numberConnectors (connectors.map (readConnector (encoders.map (readEncoder crtcs))))
  displays_nodup := by
    have hmap := map_connector_numberConnectors
      (connectors.map (readConnector (encoders.map (readEncoder crtcs))))
    rw [show (fun c : PipeConnector _ => c.connector.display) = DrmConnector.display ∘ (·.connector)
      from rfl, ← List.map_map, hmap]
    exact setDisplays_nodup _
  displays_nonneg := by
    intro c hc
    have hmem := List.mem_map_of_mem (f := fun c => c.connector) hc
    rw [map_connector_numberConnectors] at hmem
    exact setDisplays_nonneg _ c.connector hmem

/-! ## Creating pipes -/

/-- What changes: `display_` of the crtcs, `crtc_` of the encoders and `encoder_` of the
connectors. -/
structure Bindings (hw : DisplayHardware) where
  crtcDisplay : Fin hw.crtcCount → Int
  encoderCrtc : Fin hw.encoders.length → Option (Fin hw.crtcCount)
  connectorEncoder : Fin hw.connectors.length → Option (Fin hw.encoders.length)

namespace Bindings

/-- Before the first pipe is created. -/
def initial (hw : DisplayHardware) : Bindings hw where
  crtcDisplay := fun _ => -1
  encoderCrtc := fun enc => (hw.encoders.get enc).crtc
  connectorEncoder := fun conn => (hw.connectors.get conn).encoder

variable {hw : DisplayHardware}

/-- `DrmCrtc::can_bind`. -/
def canBind (b : Bindings hw) (crtc : Fin hw.crtcCount) (display : Int) : Bool :=
  b.crtcDisplay crtc == -1 || b.crtcDisplay crtc == display

/-- `DrmCrtc::set_display`. -/
def setDisplay (b : Bindings hw) (crtc : Fin hw.crtcCount) (display : Int) : Bindings hw :=
  { b with crtcDisplay := fun c => if c = crtc then display else b.crtcDisplay c }

/-- `DrmEncoder::set_crtc`. -/
def setCrtc (b : Bindings hw) (enc : Fin hw.encoders.length) (crtc : Fin hw.crtcCount) :
    Bindings hw :=
  { b with encoderCrtc := fun e => if e = enc then some crtc else b.encoderCrtc e }

/-- `DrmConnector::set_encoder`. -/
def setEncoder (b : Bindings hw) (conn : Fin hw.connectors.length)
    (enc : Fin hw.encoders.length) : Bindings hw :=
  { b with connectorEncoder := fun c => if c = conn then some enc else b.connectorEncoder c }

/-- "Try to find a possible crtc which will work". -/
def tryPossibleCrtcs (b : Bindings hw) (display : Int) (enc : Fin hw.encoders.length) :
    Option (Bindings hw) :=
  ((hw.encoders.get enc).possibleCrtcs.find? fun crtc =>
    b.encoderCrtc enc != some crtc && b.canBind crtc display).map fun crtc =>
      (b.setCrtc enc crtc).setDisplay crtc display

/-- `TryEncoderForDisplay`; `none` is `-EAGAIN`. -/
def tryEncoderForDisplay (b : Bindings hw) (display : Int) (enc : Fin hw.encoders.length) :
    Option (Bindings hw) :=
  match b.encoderCrtc enc with
  | none => b.tryPossibleCrtcs display enc
  | some crtc =>
      if b.canBind crtc display then some (b.setDisplay crtc display)
      else b.tryPossibleCrtcs display enc

/-- The loop over the possible encoders of `CreateDisplayPipe`. -/
def tryPossibleEncoders (b : Bindings hw) (conn : Fin hw.connectors.length) (display : Int) :
    List (Fin hw.encoders.length) → Option (Bindings hw)
  | [] => none
  | enc :: rest =>
      match b.tryEncoderForDisplay display enc with
      | some b => some (b.setEncoder conn enc)
      | none => tryPossibleEncoders b conn display rest

/-- `CreateDisplayPipe`; `none` is `-ENODEV`. -/
def createDisplayPipe (b : Bindings hw) (conn : Fin hw.connectors.length) :
    Option (Bindings hw) :=
  let display := (hw.connectors.get conn).connector.display
  let possibleEncoders := (hw.connectors.get conn).possibleEncoders
  match b.connectorEncoder conn with
  | none => b.tryPossibleEncoders conn display possibleEncoders
  | some enc =>
      match b.tryEncoderForDisplay display enc with
      | some b => some b
      | none => b.tryPossibleEncoders conn display possibleEncoders

/-- The last loop of `Init`. -/
def createDisplayPipes (b : Bindings hw) : List (Fin hw.connectors.length) → Option (Bindings hw)
  | [] => some b
  | conn :: rest =>
      match b.createDisplayPipe conn with
      | none => none
      | some b => createDisplayPipes b rest

/-- `GetCrtcForDisplay`. -/
def getCrtcForDisplay (b : Bindings hw) (display : Int) : Option (Fin hw.crtcCount) :=
  (List.finRange hw.crtcCount).find? fun crtc => b.crtcDisplay crtc == display

end Bindings

/-- `DrmResources` with its display pipes. -/
structure DisplayPipes where
  hw : DisplayHardware
  bindings : Bindings hw

/-- `DrmResources::Init`. -/
def KernelResources.init (kernel : KernelResources) : Except Int DisplayPipes := do
  let crtcs ← readObjects (·.initResult) kernel.crtcs
  let encoders ← readObjects (fun _ => 0) kernel.encoders
  let connectors ← readObjects (·.initResult) kernel.connectors
  if kernel.restResult ≠ 0 then throw kernel.restResult
  let hw := readHardware crtcs encoders connectors
  match (Bindings.initial hw).createDisplayPipes (List.finRange hw.connectors.length) with
  | none => throw (-enodev)
  | some bindings => pure ⟨hw, bindings⟩

/-! ## The property -/

/-- The number of a connector's display. -/
def DisplayHardware.display (hw : DisplayHardware) (conn : Fin hw.connectors.length) : Int :=
  (hw.connectors.get conn).connector.display

/-- Every connector has a display, an encoder and a crtc of its own, and the crtc of its
display is that of its encoder. -/
structure PipesAssigned (p : DisplayPipes) : Prop where
  displays : ∀ i j, p.hw.display i = p.hw.display j → i = j
  encoders : ∀ i j, p.bindings.connectorEncoder i = p.bindings.connectorEncoder j → i = j
  crtcs : ∀ i j, p.bindings.getCrtcForDisplay (p.hw.display i) =
    p.bindings.getCrtcForDisplay (p.hw.display j) → i = j
  bound : ∀ i, ∃ enc crtc, p.bindings.connectorEncoder i = some enc ∧
    p.bindings.encoderCrtc enc = some crtc ∧
    p.bindings.getCrtcForDisplay (p.hw.display i) = some crtc

/-! ## First choices -/

namespace DisplayHardware

variable (hw : DisplayHardware)

/-- The crtcs of an encoder, the one it starts with first. -/
def crtcs (enc : Fin hw.encoders.length) : List (Fin hw.crtcCount) :=
  (hw.encoders.get enc).crtc.toList ++ (hw.encoders.get enc).possibleCrtcs

/-- The encoders of a connector, the one it starts with first. -/
def candidates (conn : Fin hw.connectors.length) : List (Fin hw.encoders.length) :=
  (hw.connectors.get conn).encoder.toList ++ (hw.connectors.get conn).possibleEncoders

/-- No connector before `i` has taken the crtc. -/
def leaves (taken : Fin hw.connectors.length → Fin hw.crtcCount → Bool)
    (i : Fin hw.connectors.length) (c : Fin hw.crtcCount) : Bool :=
  (List.finRange hw.connectors.length).all fun j => decide (i ≤ j) || !taken j c

/-- Each connector has the first of its encoders that has a crtc the connectors before it leave,
and the first such crtc of this encoder. -/
structure FirstChoices (enc : Fin hw.connectors.length → Fin hw.encoders.length)
    (crtc : Fin hw.connectors.length → Fin hw.crtcCount) : Prop where
  encoder : ∀ i, (hw.candidates i).find? (fun e =>
    (hw.crtcs e).any (hw.leaves (fun j c => crtc j == c) i)) = some (enc i)
  crtc : ∀ i, (hw.crtcs (enc i)).find? (hw.leaves (fun j c => crtc j == c) i) = some (crtc i)

/-- First choices under which no two connectors have one encoder. -/
def EncodersApart : Prop :=
  ∃ enc crtc, hw.FirstChoices enc crtc ∧ ∀ i j, enc i = enc j → i = j

variable {hw}

theorem leaves_eq_true_iff {taken : Fin hw.connectors.length → Fin hw.crtcCount → Bool}
    {i : Fin hw.connectors.length} {c : Fin hw.crtcCount} :
    hw.leaves taken i c = true ↔ ∀ j, j < i → taken j c = false := by
  unfold leaves
  rw [List.all_eq_true]
  refine ⟨fun h j hj => ?_, fun h j _ => ?_⟩
  · have hj' := h j (List.mem_finRange j)
    rw [decide_eq_false (Fin.not_le.mpr hj), Bool.false_or, Bool.not_eq_true'] at hj'
    exact hj'
  · by_cases hle : i ≤ j
    · rw [decide_eq_true hle, Bool.true_or]
    · rw [decide_eq_false hle, Bool.false_or, Bool.not_eq_true']
      exact h j (Fin.not_le.mp hle)

/-- Only what the connectors before `i` have taken matters. -/
theorem leaves_congr {taken taken' : Fin hw.connectors.length → Fin hw.crtcCount → Bool}
    {i : Fin hw.connectors.length} (h : ∀ j, j < i → taken j = taken' j) :
    hw.leaves taken i = hw.leaves taken' i := by
  funext c
  rw [Bool.eq_iff_iff, leaves_eq_true_iff, leaves_eq_true_iff]
  refine forall_congr' fun j => forall_congr' fun hj => ?_
  rw [h j hj]

/-- There are no others. -/
theorem FirstChoices.unique {enc enc' : Fin hw.connectors.length → Fin hw.encoders.length}
    {crtc crtc' : Fin hw.connectors.length → Fin hw.crtcCount} (h : hw.FirstChoices enc crtc)
    (h' : hw.FirstChoices enc' crtc') (i : Fin hw.connectors.length) :
    enc i = enc' i ∧ crtc i = crtc' i := by
  obtain ⟨n, hn⟩ := i
  induction n using Nat.strong_induction_on with
  | _ n ih =>
      have hleaves : hw.leaves (fun j c => crtc j == c) ⟨n, hn⟩ =
          hw.leaves (fun j c => crtc' j == c) ⟨n, hn⟩ := by
        refine leaves_congr fun j hj => ?_
        rw [(ih j hj j.isLt).2]
      have henc : enc ⟨n, hn⟩ = enc' ⟨n, hn⟩ := by
        have hfirst := h.encoder ⟨n, hn⟩
        rw [hleaves, h'.encoder] at hfirst
        exact (Option.some.inj hfirst).symm
      have hcrtc := h.crtc ⟨n, hn⟩
      rw [hleaves, henc, h'.crtc] at hcrtc
      exact ⟨henc, (Option.some.inj hcrtc).symm⟩

end DisplayHardware

/-! ## One pipe -/

namespace Bindings

variable {hw : DisplayHardware}

/-- The crtcs of an encoder, the current one first. -/
def crtcs (b : Bindings hw) (enc : Fin hw.encoders.length) : List (Fin hw.crtcCount) :=
  (b.encoderCrtc enc).toList ++ (hw.encoders.get enc).possibleCrtcs

/-- The encoders of a connector, the current one first. -/
def candidates (b : Bindings hw) (conn : Fin hw.connectors.length) :
    List (Fin hw.encoders.length) :=
  (b.connectorEncoder conn).toList ++ (hw.connectors.get conn).possibleEncoders

/-- An encoder and a crtc for a connector. -/
def bind (b : Bindings hw) (conn : Fin hw.connectors.length) (enc : Fin hw.encoders.length)
    (crtc : Fin hw.crtcCount) : Bindings hw :=
  ((b.setCrtc enc crtc).setDisplay crtc (hw.display conn)).setEncoder conn enc

section Bind

variable (b : Bindings hw) (conn : Fin hw.connectors.length) (enc : Fin hw.encoders.length)
  (crtc : Fin hw.crtcCount)

theorem bind_crtcDisplay (c : Fin hw.crtcCount) : (b.bind conn enc crtc).crtcDisplay c =
    if c = crtc then hw.display conn else b.crtcDisplay c := rfl

theorem bind_connectorEncoder (j : Fin hw.connectors.length) :
    (b.bind conn enc crtc).connectorEncoder j =
      if j = conn then some enc else b.connectorEncoder j := rfl

theorem bind_encoderCrtc (e : Fin hw.encoders.length) : (b.bind conn enc crtc).encoderCrtc e =
    if e = enc then some crtc else b.encoderCrtc e := rfl

end Bind

theorem setCrtc_self {b : Bindings hw} {enc : Fin hw.encoders.length} {crtc : Fin hw.crtcCount}
    (h : b.encoderCrtc enc = some crtc) : b.setCrtc enc crtc = b := by
  have hsame : (fun e => if e = enc then some crtc else b.encoderCrtc e) = b.encoderCrtc := by
    funext e
    split
    · rename_i heq
      rw [heq, h]
    · rfl
  rw [setCrtc, hsame]

theorem setEncoder_self {b : Bindings hw} {conn : Fin hw.connectors.length}
    {enc : Fin hw.encoders.length} (h : b.connectorEncoder conn = some enc) :
    b.setEncoder conn enc = b := by
  have hsame :
      (fun c => if c = conn then some enc else b.connectorEncoder c) = b.connectorEncoder := by
    funext c
    split
    · rename_i heq
      rw [heq, h]
    · rfl
  rw [setEncoder, hsame]

/-- An encoder takes the first of its crtcs that can be bound. -/
theorem tryEncoderForDisplay_eq (b : Bindings hw) (display : Int)
    (enc : Fin hw.encoders.length) :
    b.tryEncoderForDisplay display enc =
      ((b.crtcs enc).find? (b.canBind · display)).map fun crtc =>
        (b.setCrtc enc crtc).setDisplay crtc display := by
  unfold tryEncoderForDisplay tryPossibleCrtcs crtcs
  cases hcrtc : b.encoderCrtc enc with
  | none =>
      rfl
  | some current =>
      rw [Option.toList_some, List.singleton_append]
      dsimp only
      cases hbind : b.canBind current display with
      | true =>
          rw [if_pos rfl, List.find?_cons_of_pos (p := (b.canBind · display)) hbind,
            Option.map_some, setCrtc_self hcrtc]
      | false =>
          rw [if_neg Bool.false_ne_true,
            List.find?_cons_of_neg (p := (b.canBind · display)) (by rw [hbind]; decide)]
          congr 2
          funext crtc
          by_cases hsame : current = crtc
          · rw [← hsame, hbind, Bool.and_false]
          · rw [show (some current != some crtc) = true by simp [hsame], Bool.true_and]

/-- The loop takes the first encoder that has such a crtc. -/
theorem tryPossibleEncoders_eq (b : Bindings hw) (conn : Fin hw.connectors.length)
    (display : Int) (encoders : List (Fin hw.encoders.length)) :
    b.tryPossibleEncoders conn display encoders =
      encoders.findSome? fun enc =>
        (b.tryEncoderForDisplay display enc).map (·.setEncoder conn enc) := by
  induction encoders with
  | nil => rfl
  | cons enc rest ih =>
      rw [tryPossibleEncoders, List.findSome?_cons, ih]
      cases b.tryEncoderForDisplay display enc with
      | none => rfl
      | some b' => rfl

/-- So does `CreateDisplayPipe`, which tries the current encoder first. -/
theorem createDisplayPipe_eq (b : Bindings hw) (conn : Fin hw.connectors.length) :
    b.createDisplayPipe conn =
      (b.candidates conn).findSome? fun enc =>
        (b.tryEncoderForDisplay (hw.display conn) enc).map (·.setEncoder conn enc) := by
  unfold createDisplayPipe candidates
  rw [← DisplayHardware.display]
  dsimp only
  rw [tryPossibleEncoders_eq]
  cases hconn : b.connectorEncoder conn with
  | none => rfl
  | some enc =>
      rw [Option.toList_some, List.singleton_append, List.findSome?_cons]
      dsimp only
      cases htry : b.tryEncoderForDisplay (hw.display conn) enc with
      | none => rfl
      | some b' =>
          have hkept : b'.connectorEncoder conn = some enc := by
            rw [tryEncoderForDisplay_eq, Option.map_eq_some_iff] at htry
            obtain ⟨crtc, _, rfl⟩ := htry
            exact hconn
          rw [Option.map_some, setEncoder_self hkept]

/-- A connector gets the first of its encoders that has a crtc that can be bound, and the first
such crtc. -/
theorem createDisplayPipe_spec {b b' : Bindings hw} {conn : Fin hw.connectors.length}
    (h : b.createDisplayPipe conn = some b') :
    ∃ enc crtc,
      (b.candidates conn).find? (fun e => (b.crtcs e).any (b.canBind · (hw.display conn))) =
        some enc ∧
      (b.crtcs enc).find? (b.canBind · (hw.display conn)) = some crtc ∧
      b' = b.bind conn enc crtc := by
  rw [createDisplayPipe_eq, List.findSome?_eq_some_iff] at h
  obtain ⟨before, enc, after, hsplit, htry, hbefore⟩ := h
  rw [Option.map_eq_some_iff] at htry
  obtain ⟨b₁, htry, rfl⟩ := htry
  rw [tryEncoderForDisplay_eq, Option.map_eq_some_iff] at htry
  obtain ⟨crtc, hcrtc, rfl⟩ := htry
  refine ⟨enc, crtc, List.find?_eq_some_iff_append.mpr ⟨?_, before, after, hsplit, ?_⟩, hcrtc, rfl⟩
  · rw [← List.isSome_find?, hcrtc]
    rfl
  · intro e he
    have hnone := hbefore e he
    rw [Option.map_eq_none_iff, tryEncoderForDisplay_eq, Option.map_eq_none_iff] at hnone
    rw [← List.isSome_find?, hnone]
    rfl

/-! ## All pipes -/

/-- The crtc is bound to the display of the connector. -/
def taken (b : Bindings hw) (j : Fin hw.connectors.length) (c : Fin hw.crtcCount) : Bool :=
  b.crtcDisplay c == hw.display j

/-- The connectors of a list have their first choices, and the others what they started with. -/
structure ChosenInv (b : Bindings hw) (done : List (Fin hw.connectors.length)) : Prop where
  rest : ∀ j ∉ done, b.connectorEncoder j = (hw.connectors.get j).encoder
  choice : ∀ i ∈ done, ∃ enc crtc, b.connectorEncoder i = some enc ∧
    b.crtcDisplay crtc = hw.display i ∧
    (hw.candidates i).find? (fun e => (hw.crtcs e).any (hw.leaves b.taken i)) = some enc ∧
    (hw.crtcs enc).find? (hw.leaves b.taken i) = some crtc
  -- of an encoder that has been chosen, the crtc it started with is taken
  encoder : ∀ e, (b.encoderCrtc e = (hw.encoders.get e).crtc ∧
      ∀ i ∈ done, b.connectorEncoder i ≠ some e) ∨
    (∀ c ∈ (hw.encoders.get e).crtc, b.crtcDisplay c ≠ -1) ∧
      ∃ i ∈ done, b.connectorEncoder i = some e ∧
        ∃ crtc, b.encoderCrtc e = some crtc ∧ b.crtcDisplay crtc = hw.display i
  displays : ∀ crtc, b.crtcDisplay crtc = -1 ∨ ∃ i ∈ done, b.crtcDisplay crtc = hw.display i
  unique : ∀ crtc crtc', b.crtcDisplay crtc ≠ -1 → b.crtcDisplay crtc = b.crtcDisplay crtc' →
    crtc = crtc'

theorem display_injective (hw : DisplayHardware) {i j : Fin hw.connectors.length}
    (h : hw.display i = hw.display j) : i = j := by
  have hnodup := List.nodup_iff_injective_get.mp hw.displays_nodup
  have hi : i.val < (hw.connectors.map (·.connector.display)).length := by simp
  have hj : j.val < (hw.connectors.map (·.connector.display)).length := by simp
  have heq : (⟨i.val, hi⟩ : Fin _) = ⟨j.val, hj⟩ :=
    hnodup (by simpa [DisplayHardware.display] using h)
  exact Fin.ext (Fin.mk.inj heq)

theorem display_ne (hw : DisplayHardware) (i : Fin hw.connectors.length) : hw.display i ≠ -1 := by
  have hnonneg := hw.displays_nonneg (hw.connectors.get i) (List.get_mem _ i)
  unfold DisplayHardware.display
  omega

/-- The connectors that the loop has come to are those before the next one. -/
theorem mem_done_iff {done rest : List (Fin hw.connectors.length)}
    {conn : Fin hw.connectors.length}
    (hall : List.finRange hw.connectors.length = done ++ conn :: rest)
    (j : Fin hw.connectors.length) : j ∈ done ↔ j < conn := by
  have hsorted := List.pairwise_lt_finRange hw.connectors.length
  rw [hall, List.pairwise_append, List.pairwise_cons] at hsorted
  obtain ⟨_, ⟨hrest, _⟩, hdone⟩ := hsorted
  refine ⟨fun hj => hdone j hj conn List.mem_cons_self, fun hj => ?_⟩
  have hmem := List.mem_finRange j
  rw [hall, List.mem_append, List.mem_cons] at hmem
  rcases hmem with hmem | rfl | hmem
  · exact hmem
  · exact absurd hj (Nat.lt_irrefl _)
  · exact absurd (Nat.lt_trans hj (hrest j hmem)) (Nat.lt_irrefl _)

namespace ChosenInv

variable {b b' : Bindings hw} {done rest : List (Fin hw.connectors.length)}
  {conn : Fin hw.connectors.length}

theorem not_mem_done (hall : List.finRange hw.connectors.length = done ++ conn :: rest) :
    conn ∉ done := fun hmem => Nat.lt_irrefl _ ((mem_done_iff hall conn).mp hmem)

/-- What can be bound for the next connector is what the others leave. -/
theorem canBind_eq (h : ChosenInv b done)
    (hall : List.finRange hw.connectors.length = done ++ conn :: rest) (c : Fin hw.crtcCount) :
    b.canBind c (hw.display conn) = hw.leaves b.taken conn c := by
  rw [Bool.eq_iff_iff, DisplayHardware.leaves_eq_true_iff, canBind, Bool.or_eq_true_iff,
    beq_iff_eq, beq_iff_eq]
  constructor
  · intro hbind j hj
    rw [taken, beq_eq_false_iff_ne]
    intro htaken
    cases hbind with
    | inl hminus => exact display_ne hw j (htaken.symm.trans hminus)
    | inr hself =>
        have hsame := display_injective hw (htaken.symm.trans hself)
        exact absurd (hsame ▸ hj) (Nat.lt_irrefl _)
  · intro hleaves
    cases h.displays c with
    | inl hminus => exact Or.inl hminus
    | inr hdone =>
        obtain ⟨i, hi, heq⟩ := hdone
        have hfree := hleaves i ((mem_done_iff hall i).mp hi)
        rw [taken, beq_eq_false_iff_ne] at hfree
        exact absurd heq hfree

/-- A crtc that is bound is not left to the next connector. -/
theorem not_leaves (h : ChosenInv b done)
    (hall : List.finRange hw.connectors.length = done ++ conn :: rest) {c : Fin hw.crtcCount}
    (hbound : b.crtcDisplay c ≠ -1) : hw.leaves b.taken conn c = false := by
  obtain ⟨i, hi, heq⟩ := (h.displays c).resolve_left hbound
  rw [Bool.eq_false_iff, ne_eq, DisplayHardware.leaves_eq_true_iff]
  intro hleaves
  have hfree := hleaves i ((mem_done_iff hall i).mp hi)
  rw [taken, beq_eq_false_iff_ne] at hfree
  exact hfree heq

/-- An encoder offers the next connector what it would have offered at the start. -/
theorem find?_crtcs (h : ChosenInv b done)
    (hall : List.finRange hw.connectors.length = done ++ conn :: rest)
    (e : Fin hw.encoders.length) :
    (b.crtcs e).find? (b.canBind · (hw.display conn)) =
      (hw.crtcs e).find? (hw.leaves b.taken conn) := by
  rw [show (b.canBind · (hw.display conn)) = hw.leaves b.taken conn from
    funext (h.canBind_eq hall)]
  cases h.encoder e with
  | inl hfirst => rw [crtcs, hfirst.1, DisplayHardware.crtcs]
  | inr hlater =>
      obtain ⟨hstart, i, hi, _, crtc, hcrtc, hdisplay⟩ := hlater
      have hbound : b.crtcDisplay crtc ≠ -1 := hdisplay ▸ display_ne hw i
      rw [crtcs, DisplayHardware.crtcs, List.find?_append, List.find?_append, hcrtc,
        Option.toList_some, List.find?_singleton, h.not_leaves hall hbound]
      cases hfirst : (hw.encoders.get e).crtc with
      | none => rfl
      | some c =>
          rw [Option.toList_some, List.find?_singleton, h.not_leaves hall (hstart c hfirst)]
          rfl

theorem start (hw : DisplayHardware) : ChosenInv (initial hw) [] :=
  ⟨fun _ _ => rfl, fun _ hi => absurd hi List.not_mem_nil,
    fun _ => Or.inl ⟨rfl, fun _ hi => absurd hi List.not_mem_nil⟩, fun _ => Or.inl rfl,
    fun _ _ hne => absurd rfl hne⟩

/-- The next connector gets its first choice of what the others leave. -/
theorem firstChoice (h : ChosenInv b done)
    (hall : List.finRange hw.connectors.length = done ++ conn :: rest)
    (hpipe : b.createDisplayPipe conn = some b') :
    ∃ enc crtc,
      (hw.candidates conn).find? (fun e => (hw.crtcs e).any (hw.leaves b.taken conn)) = some enc ∧
      (hw.crtcs enc).find? (hw.leaves b.taken conn) = some crtc ∧ b.crtcDisplay crtc = -1 ∧
      b' = b.bind conn enc crtc := by
  obtain ⟨enc, crtc, henc, hcrtc, hbind⟩ := createDisplayPipe_spec hpipe
  have hcandidates : b.candidates conn = hw.candidates conn := by
    rw [candidates, h.rest conn (not_mem_done hall), DisplayHardware.candidates]
  have hany : (fun e => (b.crtcs e).any (b.canBind · (hw.display conn))) =
      fun e => (hw.crtcs e).any (hw.leaves b.taken conn) := by
    funext e
    rw [← List.isSome_find?, h.find?_crtcs hall, List.isSome_find?]
  rw [hcandidates, hany] at henc
  rw [h.find?_crtcs hall] at hcrtc
  refine ⟨enc, crtc, henc, hcrtc, ?_, hbind⟩
  by_contra hbound
  have hleaves := List.find?_some hcrtc
  rw [h.not_leaves hall hbound] at hleaves
  exact Bool.false_ne_true hleaves

/-- A choice for the next connector changes nothing for those before it. -/
theorem leaves_bind (hall : List.finRange hw.connectors.length = done ++ conn :: rest)
    {enc : Fin hw.encoders.length} {crtc : Fin hw.crtcCount} (hminus : b.crtcDisplay crtc = -1)
    {i : Fin hw.connectors.length} (hi : i ∈ done ++ [conn]) :
    hw.leaves (b.bind conn enc crtc).taken i = hw.leaves b.taken i := by
  refine DisplayHardware.leaves_congr fun j hj => ?_
  have hle : i ≤ conn := by
    cases List.mem_append.mp hi with
    | inl hi => exact Nat.le_of_lt ((mem_done_iff hall i).mp hi)
    | inr hi => exact Nat.le_of_eq (congrArg Fin.val (List.mem_singleton.mp hi))
  funext c
  rw [taken, taken, bind_crtcDisplay]
  split
  · rename_i heq
    have hself : (hw.display conn == hw.display j) = false := by
      rw [beq_eq_false_iff_ne]
      exact fun hsame =>
        absurd (display_injective hw hsame ▸ Nat.lt_of_lt_of_le hj hle) (Nat.lt_irrefl _)
    have hother : ((-1 : Int) == hw.display j) = false := by
      rw [beq_eq_false_iff_ne]
      exact fun hsame => display_ne hw j hsame.symm
    rw [hself, heq, hminus, hother]
  · rfl

/-- The connectors before the next one keep their encoders. -/
theorem connectorEncoder_bind (hall : List.finRange hw.connectors.length = done ++ conn :: rest)
    (enc : Fin hw.encoders.length) (crtc : Fin hw.crtcCount) {i : Fin hw.connectors.length}
    (hi : i ∈ done) : (b.bind conn enc crtc).connectorEncoder i = b.connectorEncoder i := by
  rw [bind_connectorEncoder, if_neg]
  exact fun heq => not_mem_done hall (heq ▸ hi)

/-- A display keeps its crtc when another is bound that was free. -/
theorem crtcDisplay_bind {crtc : Fin hw.crtcCount} (hminus : b.crtcDisplay crtc = -1)
    (enc : Fin hw.encoders.length) {c : Fin hw.crtcCount} {i : Fin hw.connectors.length}
    (hc : b.crtcDisplay c = hw.display i) :
    (b.bind conn enc crtc).crtcDisplay c = hw.display i := by
  rw [bind_crtcDisplay, if_neg]
  · exact hc
  · intro heq
    rw [heq, hminus] at hc
    exact display_ne hw i hc.symm

theorem bound_bind (h : ChosenInv b done) {crtc : Fin hw.crtcCount}
    (hminus : b.crtcDisplay crtc = -1) (enc : Fin hw.encoders.length) {c : Fin hw.crtcCount}
    (hc : b.crtcDisplay c ≠ -1) : (b.bind conn enc crtc).crtcDisplay c ≠ -1 := by
  obtain ⟨i, _, heq⟩ := (h.displays c).resolve_left hc
  rw [crtcDisplay_bind hminus enc heq]
  exact display_ne hw i

/-- The encoder that is chosen has its first crtc taken, by this choice or an earlier one. -/
theorem starts_bind (h : ChosenInv b done)
    (hall : List.finRange hw.connectors.length = done ++ conn :: rest)
    {enc : Fin hw.encoders.length} {crtc : Fin hw.crtcCount} (hminus : b.crtcDisplay crtc = -1)
    (hcrtc : (hw.crtcs enc).find? (hw.leaves b.taken conn) = some crtc) {c : Fin hw.crtcCount}
    (hc : c ∈ (hw.encoders.get enc).crtc) : (b.bind conn enc crtc).crtcDisplay c ≠ -1 := by
  by_cases hfree : b.crtcDisplay c = -1
  · -- the crtc it starts with is the first to be tried
    have hfirst : (hw.crtcs enc).find? (hw.leaves b.taken conn) = some c := by
      rw [DisplayHardware.crtcs, Option.mem_def.mp hc, Option.toList_some,
        List.singleton_append, List.find?_cons_of_pos]
      rw [← h.canBind_eq hall, canBind, hfree]
      rfl
    rw [hcrtc] at hfirst
    rw [bind_crtcDisplay, if_pos (Option.some.inj hfirst).symm]
    exact display_ne hw conn
  · exact h.bound_bind hminus enc hfree

/-- No two crtcs are bound to one display, and none was to that of the next connector. -/
theorem unique_bind (h : ChosenInv b done)
    (hall : List.finRange hw.connectors.length = done ++ conn :: rest)
    (enc : Fin hw.encoders.length) (crtc c c' : Fin hw.crtcCount)
    (hbound : (b.bind conn enc crtc).crtcDisplay c ≠ -1)
    (hsame : (b.bind conn enc crtc).crtcDisplay c = (b.bind conn enc crtc).crtcDisplay c') :
    c = c' := by
  have hnone : ∀ c, b.crtcDisplay c ≠ hw.display conn := by
    intro c hc
    cases h.displays c with
    | inl hminus => exact display_ne hw conn (hc.symm.trans hminus)
    | inr hdone =>
        obtain ⟨i, hi, heq⟩ := hdone
        exact not_mem_done hall (display_injective hw (heq.symm.trans hc) ▸ hi)
  rw [bind_crtcDisplay] at hbound hsame
  rw [bind_crtcDisplay] at hsame
  split at hsame
  · rename_i hc
    split at hsame
    · rename_i hc'
      exact hc.trans hc'.symm
    · exact absurd hsame.symm (hnone c')
  · rename_i hc
    rw [if_neg hc] at hbound
    split at hsame
    · exact absurd hsame (hnone c)
    · exact h.unique c c' hbound hsame

theorem step (h : ChosenInv b done)
    (hall : List.finRange hw.connectors.length = done ++ conn :: rest)
    (hpipe : b.createDisplayPipe conn = some b') : ChosenInv b' (done ++ [conn]) := by
  obtain ⟨enc, crtc, henc, hcrtc, hminus, rfl⟩ := h.firstChoice hall hpipe
  have hself : (b.bind conn enc crtc).connectorEncoder conn = some enc := by
    rw [bind_connectorEncoder, if_pos rfl]
  refine ⟨fun j hj => ?_, fun i hi => ?_, fun e => ?_, fun c => ?_, h.unique_bind hall enc crtc⟩
  · rw [List.mem_append, List.mem_singleton, not_or] at hj
    rw [bind_connectorEncoder, if_neg hj.2]
    exact h.rest j hj.1
  · rw [leaves_bind hall hminus hi]
    cases List.mem_append.mp hi with
    | inl hi =>
        obtain ⟨e, c, he, hc, hrest⟩ := h.choice i hi
        exact ⟨e, c, (connectorEncoder_bind hall enc crtc hi).trans he,
          crtcDisplay_bind hminus enc hc, hrest⟩
    | inr hi =>
        obtain rfl := List.mem_singleton.mp hi
        exact ⟨enc, crtc, hself, by rw [bind_crtcDisplay, if_pos rfl], henc, hcrtc⟩
  · by_cases heq : e = enc
    · subst heq
      exact Or.inr ⟨fun c hc => h.starts_bind hall hminus hcrtc hc, conn,
        List.mem_append_right done List.mem_cons_self, hself, crtc,
        by rw [bind_encoderCrtc, if_pos rfl], by rw [bind_crtcDisplay, if_pos rfl]⟩
    · rw [bind_encoderCrtc, if_neg heq]
      cases h.encoder e with
      | inl hfirst =>
          refine Or.inl ⟨hfirst.1, fun i hi hsame => ?_⟩
          cases List.mem_append.mp hi with
          | inl hi =>
              exact hfirst.2 i hi ((connectorEncoder_bind hall enc crtc hi).symm.trans hsame)
          | inr hi =>
              rw [List.mem_singleton.mp hi, hself] at hsame
              exact heq (Option.some.inj hsame).symm
      | inr hlater =>
          obtain ⟨hstart, i, hi, he, c, hc, hd⟩ := hlater
          exact Or.inr ⟨fun c' hc' => h.bound_bind hminus enc (hstart c' hc'), i,
            List.mem_append_left _ hi, (connectorEncoder_bind hall enc crtc hi).trans he, c, hc,
            crtcDisplay_bind hminus enc hd⟩
  · rw [bind_crtcDisplay]
    split
    · exact Or.inr ⟨conn, List.mem_append_right done List.mem_cons_self, rfl⟩
    · cases h.displays c with
      | inl hminus => exact Or.inl hminus
      | inr hdone =>
          obtain ⟨i, hi, heq⟩ := hdone
          exact Or.inr ⟨i, List.mem_append_left [conn] hi, heq⟩

theorem run : ∀ (rest done : List (Fin hw.connectors.length)) (b b' : Bindings hw),
    ChosenInv b done → List.finRange hw.connectors.length = done ++ rest →
    b.createDisplayPipes rest = some b' →
    ChosenInv b' (List.finRange hw.connectors.length) := by
  intro rest
  induction rest with
  | nil =>
      intro done b b' hinv hall h
      cases h
      rw [hall, List.append_nil]
      exact hinv
  | cons conn rest ih =>
      intro done b b' hinv hall h
      unfold createDisplayPipes at h
      cases hpipe : b.createDisplayPipe conn with
      | none =>
          rw [hpipe] at h
          cases h
      | some b₁ =>
          rw [hpipe] at h
          exact ih (done ++ [conn]) b₁ b' (hinv.step hall hpipe)
            (by rw [hall, List.append_assoc, List.singleton_append]) h

theorem getCrtcForDisplay_eq (h : ChosenInv b done) {i : Fin hw.connectors.length}
    {crtc : Fin hw.crtcCount} (hcrtc : b.crtcDisplay crtc = hw.display i) :
    b.getCrtcForDisplay (hw.display i) = some crtc := by
  unfold getCrtcForDisplay
  cases hfind : (List.finRange hw.crtcCount).find? fun c => b.crtcDisplay c == hw.display i with
  | none =>
      have hnot := List.find?_eq_none.mp hfind crtc (List.mem_finRange crtc)
      exact absurd (beq_iff_eq.mpr hcrtc) hnot
  | some c =>
      have hpred := List.find?_some hfind
      have hc : b.crtcDisplay c = hw.display i := beq_iff_eq.mp hpred
      rw [h.unique c crtc (by rw [hc]; exact display_ne hw i) (hc.trans hcrtc.symm)]

/-- With all connectors done, their encoders are first choices. -/
theorem firstChoices (h : ChosenInv b (List.finRange hw.connectors.length)) :
    ∃ enc crtc, hw.FirstChoices enc crtc ∧ ∀ i, b.connectorEncoder i = some (enc i) := by
  choose enc crtc henc hdisplay hfirst hcrtc using fun i => h.choice i (List.mem_finRange i)
  have htaken : b.taken = fun j c => crtc j == c := by
    funext j c
    rw [taken, Bool.eq_iff_iff, beq_iff_eq, beq_iff_eq]
    refine ⟨fun hc => ?_, fun hc => ?_⟩
    · exact h.unique (crtc j) c (by rw [hdisplay j]; exact display_ne hw j)
        ((hdisplay j).trans hc.symm)
    · rw [← hc]
      exact hdisplay j
  rw [htaken] at hfirst hcrtc
  exact ⟨enc, crtc, ⟨hfirst, hcrtc⟩, henc⟩

/-- The pipes are assigned once no two connectors have one encoder. -/
theorem assigned (h : ChosenInv b (List.finRange hw.connectors.length))
    (hapart : ∀ i j, b.connectorEncoder i = b.connectorEncoder j → i = j) :
    PipesAssigned ⟨hw, b⟩ := by
  have hbound : ∀ i, ∃ enc crtc, b.connectorEncoder i = some enc ∧
      b.encoderCrtc enc = some crtc ∧ b.crtcDisplay crtc = hw.display i ∧
      b.getCrtcForDisplay (hw.display i) = some crtc := by
    intro i
    obtain ⟨enc, _, henc, _⟩ := h.choice i (List.mem_finRange i)
    cases h.encoder enc with
    | inl hfirst => exact absurd henc (hfirst.2 i (List.mem_finRange i))
    | inr hlater =>
        obtain ⟨_, j, _, hj, crtc, hcrtc, hdisplay⟩ := hlater
        obtain rfl := hapart i j (henc.trans hj.symm)
        exact ⟨enc, crtc, henc, hcrtc, hdisplay, h.getCrtcForDisplay_eq hdisplay⟩
  refine ⟨fun i j => display_injective hw, hapart, fun i j hsame => ?_, fun i => ?_⟩
  · obtain ⟨_, crtc, _, _, hdisplay, hget⟩ := hbound i
    obtain ⟨_, crtc', _, _, hdisplay', hget'⟩ := hbound j
    have heq : crtc = crtc' := Option.some.inj (hget.symm.trans (hsame.trans hget'))
    rw [heq] at hdisplay
    exact display_injective hw (hdisplay.symm.trans hdisplay')
  · obtain ⟨enc, crtc, henc, hcrtc, _, hget⟩ := hbound i
    exact ⟨enc, crtc, henc, hcrtc, hget⟩

end ChosenInv

end Bindings

/-- A successful `Init` has run its last loop on what it has read. -/
theorem KernelResources.init_ok {kernel : KernelResources} {p : DisplayPipes}
    (h : kernel.init = .ok p) :
    (Bindings.initial p.hw).createDisplayPipes (List.finRange p.hw.connectors.length) =
      some p.bindings := by
  unfold init at h
  cases hcrtcs : readObjects (·.initResult) kernel.crtcs with
  | error e => rw [hcrtcs] at h; cases h
  | ok crtcs =>
      cases hencoders : readObjects (fun _ => 0) kernel.encoders with
      | error e => rw [hcrtcs, hencoders] at h; cases h
      | ok encoders =>
          cases hconnectors : readObjects (·.initResult) kernel.connectors with
          | error e => rw [hcrtcs, hencoders, hconnectors] at h; cases h
          | ok connectors =>
              rw [hcrtcs, hencoders, hconnectors] at h
              simp only [bind, Except.bind, pure, Except.pure, throw, throwThe,
                MonadExceptOf.throw] at h
              by_cases hrest : kernel.restResult ≠ 0
              · rw [if_pos hrest] at h
                cases h
              · rw [if_neg hrest] at h
                cases hpipes : (Bindings.initial (readHardware crtcs encoders
                    connectors)).createDisplayPipes (List.finRange _) with
                | none => rw [hpipes] at h; cases h
                | some b =>
                    rw [hpipes] at h
                    cases h
                    exact hpipes

/-- After a successful `Init` the pipes are assigned exactly when the first choices that the
connectors have in what the kernel reports are encoders apart. -/
theorem KernelResources.init_pipesAssigned_iff (kernel : KernelResources) (p : DisplayPipes)
    (h : kernel.init = .ok p) : PipesAssigned p ↔ p.hw.EncodersApart := by
  have hinv := Bindings.ChosenInv.run _ [] _ _ (Bindings.ChosenInv.start p.hw) rfl (init_ok h)
  obtain ⟨enc, crtc, hchoices, henc⟩ := hinv.firstChoices
  constructor
  · intro hassigned
    refine ⟨enc, crtc, hchoices, fun i j hsame => hassigned.encoders i j ?_⟩
    rw [henc, henc, hsame]
  · rintro ⟨enc', crtc', hchoices', hapart⟩
    refine hinv.assigned fun i j hsame => hapart i j ?_
    rw [henc, henc, Option.some_inj] at hsame
    rw [← (hchoices.unique hchoices' i).1, ← (hchoices.unique hchoices' j).1, hsame]

/-! ## A panel and an external display -/

/-- A panel with an encoder that can use some crtcs, and an external display with some encoders,
of which the second can use both crtcs. -/
def panelAndExternal (panelCrtcs : BitVec 32) (externalEncoders : List Nat) : KernelResources where
  crtcs := [some ⟨10, 0⟩, some ⟨11, 0⟩]
  encoders := [some ⟨20, 10, panelCrtcs⟩, some ⟨21, 0, 3#32⟩]
  connectors :=
    [some ⟨30, true, false, 20, [20], 0⟩, some ⟨31, false, true, 0, externalEncoders, 0⟩]
  restResult := 0

/-- The external display tries the encoder of the panel first, whose only crtc the panel has. -/
theorem KernelResources.init_pipesAssigned_panel :
    ∃ p, (panelAndExternal 1#32 [20, 21]).init = .ok p ∧ PipesAssigned p := by
  cases h : (panelAndExternal 1#32 [20, 21]).init with
  | error e => cases h
  | ok p =>
      refine ⟨p, rfl, (init_pipesAssigned_iff (panelAndExternal 1#32 [20, 21]) p h).mpr ?_⟩
      cases h
      exact ⟨fun i => Fin.cast rfl i, fun i => Fin.cast rfl i, ⟨by decide, by decide⟩, by decide⟩

/-- An external display that can only use the encoder of the panel gets it, and with it the
other crtc. -/
theorem KernelResources.init_shares_encoder :
    ∃ p, (panelAndExternal 3#32 [20]).init = .ok p ∧ ¬ PipesAssigned p := by
  cases h : (panelAndExternal 3#32 [20]).init with
  | error e => cases h
  | ok p =>
      refine ⟨p, rfl, fun hassigned => ?_⟩
      cases h
      have hsame := hassigned.encoders ⟨0, by decide⟩ ⟨1, by decide⟩ (by decide)
      exact absurd hsame (by decide)

end DragonDevice.Hwc
