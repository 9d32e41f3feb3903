/-
  Audio/Capture.lean --- how captured frames are read, buffered and given to the effects, from
  `audio_hw.c`.

  Buffers hold samples of 16 bits and are addressed in samples; a frame has as many as there
  are channels, of the PCM or of the stream's configuration, as the code has it at each
  place.  What the device records and how its reads end, what the effects consume and
  produce, what a resampler pulls and gives, and what is left of stretches that overlap when
  they are copied are the world's part.  A stream lists its PCM device here.
-/
import DragonDevice.Lib.FlatMemory

set_option autoImplicit false

namespace DragonDevice.Audio

open DragonDevice.Lib

/-! ## State -/

/-- The period size and channel count of `in->config`, the channel count of the PCM, and that
of the frames the caller gets. -/
structure CaptureFormat where
  periodSize : Nat
  channels : Nat
  pcmChannels : Nat
  mainChannels : Nat
  deriving DecidableEq, Repr

/-- The sizes of samples in bytes. -/
def bytesPerSample : Nat := 2

/-- The buffers of a `stream_in`.  `reads`, `rounds` and `resamplings` count the calls of
`pcm_read`, of the effects and of the resampler, and `position` the frames that the device
has delivered. -/
structure CaptureBuffers (α : Type) where
  readBuf : Nat → α
  readBufSize : Nat
  readBufFrames : Nat
  readStatus : Int
  procBufIn : Nat → α
  procBufFrames : Nat
  procBufSize : Nat
  procBufOut : Nat → α
  reads : Nat
  position : Nat
  rounds : Nat
  resamplings : Nat

/-- What `start_input_stream` leaves of the buffers. -/
def CaptureBuffers.started {α : Type} (b : CaptureBuffers α) : CaptureBuffers α :=
  { b with procBufFrames := 0, procBufSize := 0, readBufSize := 0, readBufFrames := 0 }

/-- What an effect reports of one call of `process`, and the samples it wrote. -/
structure ProcessAnswer (α : Type) where
  consumed : Nat
  produced : Nat
  output : List α

/-- What a resampler does in one call: the frames it asks its provider for, the frames it
gives, and their samples. -/
structure ResampleAnswer (α : Type) where
  pulls : List Nat
  frames : Nat
  output : List α

/-- The world of a stream: the samples that its device records, the error of each `pcm_read`
(0 if there is none), the effects and the resampler, and what a `memcpy` in a round leaves where
its two stretches overlap. -/
structure CaptureWorld (α : Type) where
  samples : Nat → α
  readError : Nat → Nat
  process : (round effect : Nat) → (offered : List α) → (room : Nat) → ProcessAnswer α
  resample : (call wanted : Nat) → ResampleAnswer α
  overlapped : (round : Nat) → (mem : Nat → α) → (dst src len : Nat) → Nat → α

/-- The effects report no more frames as consumed than they were offered. -/
def CaptureWorld.Compliant {α : Type} (world : CaptureWorld α) (channels : Nat) : Prop :=
  ∀ round effect (mem : Nat → α) frames room,
    (world.process round effect (load mem 0 (frames * channels)) room).consumed ≤ frames

section

variable {α : Type} (world : CaptureWorld α) (format : CaptureFormat)

/-! ## The period buffer -/

/-- `get_next_buffer`: how many frames there are, at most those asked for, and where they lie
in the period buffer; no place after an error. -/
def getNextBuffer (b : CaptureBuffers α) (frameCount : Nat) :
    CaptureBuffers α × Nat × Option Nat :=
  if b.readBufFrames = 0 then
    let b :=
      { b with
        readBufSize := max b.readBufSize format.periodSize
        readStatus := -(world.readError b.reads : Int)
        reads := b.reads + 1 }
    if b.readStatus ≠ 0 then
      (b, 0, none)
    else
      let period := load world.samples (b.position * format.pcmChannels)
        (format.periodSize * format.pcmChannels)
      let b :=
        { b with
          readBuf := store b.readBuf 0 period
          position := b.position + format.periodSize
          readBufFrames := format.periodSize }
      (b, min frameCount b.readBufFrames, some 0)
  else
    (b, min frameCount b.readBufFrames,
      some ((format.periodSize - b.readBufFrames) * format.channels))

/-- `release_buffer`. -/
def releaseBuffer (b : CaptureBuffers α) (frameCount : Nat) : CaptureBuffers α :=
  { b with readBufFrames := b.readBufFrames - frameCount }

/-- What a resampler does with its provider: each buffer it gets it releases. -/
def pullBuffers (b : CaptureBuffers α) (pulls : List Nat) : CaptureBuffers α :=
  pulls.foldl
    (fun b frameCount =>
      let (b, count, _) := getNextBuffer world format b frameCount
      releaseBuffer b count) b

/-- One turn of the loop of `read_frames`: the frames it gets, and the samples with their
place in the destination. -/
def readTurn (resampler : Bool) (b : CaptureBuffers α) (framesWr framesRd : Nat) :
    CaptureBuffers α × Nat × Option (Nat × List α) :=
  if resampler then
    let answer := world.resample b.resamplings framesRd
    (pullBuffers world format { b with resamplings := b.resamplings + 1 } answer.pulls,
      answer.frames, some (framesWr * format.pcmChannels, answer.output))
  else
    match getNextBuffer world format b framesRd with
    | (b, count, none) => (releaseBuffer b count, framesRd, none)
    | (b, count, some place) =>
        (releaseBuffer b count, count,
          some (framesWr * format.pcmChannels,
            load b.readBuf place (count * format.pcmChannels)))

/-- The loop of `read_frames`, for a number of turns: what it returns, if it does, and what it
wrote to the destination. -/
def readLoop (resampler : Bool) :
    Nat → CaptureBuffers α → (frames framesWr : Nat) →
      CaptureBuffers α × Option Int × List (Nat × List α)
  | 0, b, _, _ => (b, none, [])
  | turns + 1, b, frames, framesWr =>
      if framesWr < frames then
        let (b, framesRd, write) := readTurn world format resampler b framesWr (frames - framesWr)
        if b.readStatus ≠ 0 then
          (b, some b.readStatus, write.toList)
        else
          let (b, ret, writes) := readLoop resampler turns b frames (framesWr + framesRd)
          (b, ret, write.toList ++ writes)
      else
        (b, some framesWr, [])

/-- `read_frames`.  A resampler may take more turns than there are frames; without one each
turn gets a frame. -/
def readFrames (resampler : Bool) (patience : Nat) (b : CaptureBuffers α) (frames : Nat) :
    CaptureBuffers α × Option Int × List (Nat × List α) :=
  readLoop world format resampler (patience + frames + 1) b frames 0

/-- The writes of `read_frames` to a destination in a memory. -/
def storeAll (mem : Nat → α) (base : Nat) (writes : List (Nat × List α)) : Nat → α :=
  writes.foldl (fun mem write => store mem (base + write.1) write.2) mem

/-! ## Effects -/

/-- The effects of one round, one after another on the same two buffers: what is consumed and
produced in the end, and what they wrote. -/
def runEffects (round : Nat) (bufIn : Nat → α) :
    List Nat → (consumed produced : Nat) → Nat × Nat × List (List α)
  | [], consumed, produced => (consumed, produced, [])
  | effect :: effects, consumed, produced =>
      let answer := world.process round effect (load bufIn 0 (consumed * format.channels)) produced
      let (c, p, outputs) := runEffects round bufIn effects answer.consumed answer.produced
      (c, p, answer.output :: outputs)

/-- The buffers grow with the request. -/
def reallocProcBufs (b : CaptureBuffers α) (framesNum : Nat) : CaptureBuffers α :=
  { b with
    procBufSize := max b.procBufSize (framesNum * (format.channels * bytesPerSample)) }

/-- What happens in `read_and_process_frames` to be told apart later: what was offered to the
effects and consumed, the samples in front of the channel adjustment, and the stretches of the
caller's buffer that were written, in samples. -/
structure ReadTrace (α : Type) where
  offers : List (List α × Nat)
  handed : List α
  written : List (Nat × Nat)

/-- The reload at the head of the processing loop: what it returns is an error, if any; `none`
if the reading goes on for longer. -/
def reloadProcBuf (resampler : Bool) (patience : Nat) (b : CaptureBuffers α) (framesNum : Nat) :
    CaptureBuffers α × Option Int :=
  if b.procBufFrames < framesNum then
    let base := b.procBufFrames * format.channels
    let (b', ret, writes) :=
      readFrames world format resampler patience b (framesNum - b.procBufFrames)
    let b' := { b' with procBufIn := storeAll b.procBufIn base writes }
    match ret with
    | none => (b', none)
    | some framesRd =>
        if framesRd < 0 then (b', some framesRd)
        else ({ b' with procBufFrames := b'.procBufFrames + framesRd.toNat }, some 0)
  else
    (b, some 0)

/-- One round of the effects on what is in the buffer, and the shift of what they leave. -/
def processRound (effects : List Nat) (b : CaptureBuffers α) (framesNum framesWr : Nat) :
    CaptureBuffers α × Nat × Nat × List (List α) :=
  let (consumed, produced, outputs) :=
    runEffects world format b.rounds b.procBufIn effects b.procBufFrames (framesNum - framesWr)
  let left := b.procBufFrames - consumed
  let b :=
    { b with
      rounds := b.rounds + 1
      procBufFrames := left
      procBufIn :=
        if left ≠ 0 then
          memcpy (world.overlapped b.rounds) b.procBufIn 0 (consumed * format.channels)
            (left * format.channels)
        else
          b.procBufIn
      procBufOut := outputs.foldl (fun mem output =>
        store mem (framesWr * format.channels) output) b.procBufOut }
  (b, consumed, produced, outputs)

/-- The loop of `read_and_process_frames` with effects, for a number of rounds.  `inPlace` is
whether the effects write to the caller's buffer. -/
def processLoop (resampler : Bool) (patience : Nat) (effects : List Nat) (inPlace : Bool) :
    Nat → CaptureBuffers α → (framesNum framesWr : Nat) →
      CaptureBuffers α × Option Int × List (List α × Nat) × List (Nat × Nat)
  | 0, b, _, _ => (b, none, [], [])
  | rounds + 1, b, framesNum, framesWr =>
      if framesWr < framesNum then
        match reloadProcBuf world format resampler patience b framesNum with
        | (b, none) => (b, none, [], [])
        | (b, some status) =>
            if status < 0 then
              (b, some status, [], [])
            else
              let offered := load b.procBufIn 0 (b.procBufFrames * format.channels)
              let (b, consumed, produced, outputs) :=
                processRound world format effects b framesNum framesWr
              let next := if framesWr + produced ≤ framesNum then framesWr + produced else framesNum
              let (b, ret, offers, written) :=
                processLoop resampler patience effects inPlace rounds b framesNum next
              (b, ret, (offered, consumed) :: offers,
                (if inPlace then
                  outputs.map fun output => (framesWr * format.channels, output.length)
                else []) ++ written)
      else
        (b, some framesWr, [], [])

/-! ## Requests -/

/-- `channel_remapping_needed`. -/
def CaptureFormat.remaps (format : CaptureFormat) : Bool := format.mainChannels ≠ format.channels

/-- `adjust_channels` writes the frames to the caller's buffer with their main channels. -/
def adjustWrites (ret : Option Int) : List (Nat × Nat) :=
  match ret with
  | some (.ofNat (frames + 1)) =>
      if format.remaps then [(0, (frames + 1) * format.mainChannels)] else []
  | _ => []

/-- The buffers for a request: they grow when there is remapping or processing. -/
def requestBufs (effects : List Nat) (b : CaptureBuffers α) (framesNum : Nat) :
    CaptureBuffers α :=
  if format.remaps ∨ effects ≠ [] then reallocProcBufs format b framesNum else b

/-- `read_and_process_frames`: what it returns, if it does in a number of rounds, and the
trace.  Without effects the frames are read to the buffer that the channel adjustment takes
them from, which is the caller's if there is nothing to adjust. -/
def readAndProcessFrames (resampler : Bool) (patience rounds : Nat) (effects : List Nat)
    (b : CaptureBuffers α) (framesNum : Nat) :
    CaptureBuffers α × Option Int × ReadTrace α :=
  let b := requestBufs format effects b framesNum
  if effects ≠ [] then
    let (b, ret, offers, written) :=
      processLoop world format resampler patience effects (!format.remaps) rounds b framesNum 0
    (b, ret, ⟨offers, [], written ++ adjustWrites format ret⟩)
  else
    let (b, ret, writes) := readFrames world format resampler patience b framesNum
    let out := storeAll b.procBufOut 0 writes
    (if format.remaps then { b with procBufOut := out } else b, ret,
      ⟨[], load out 0 ((ret.getD 0).toNat * format.channels),
        (if format.remaps then [] else writes.map fun write => (write.1, write.2.length)) ++
          adjustWrites format ret⟩)

/-- A request for frames, and the rounds that the effects are watched for. -/
structure FrameRequest where
  frames : Nat
  rounds : Nat
  deriving DecidableEq, Repr

/-- The requests one after another: the buffers after each, what it returns and its trace. -/
def readRequests (resampler : Bool) (patience : Nat) (effects : List Nat) :
    List FrameRequest → CaptureBuffers α → List (CaptureBuffers α × Option Int × ReadTrace α)
  | [], _ => []
  | request :: requests, b =>
      let result := readAndProcessFrames world format resampler patience request.rounds effects b
        request.frames
      result :: readRequests resampler patience effects requests result.1

end

end DragonDevice.Audio
