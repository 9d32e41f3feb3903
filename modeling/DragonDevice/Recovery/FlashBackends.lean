/-
  Recovery/FlashBackends.lean --- the three flash backends below `struct flash_device`.

  An offset is an `off_t`, signed, and a length a `size_t`, both of 64 bits; what goes into
  an EC command or an MTD ioctl is cut to 32 bits.  Every system call may fail.  A `read`
  or `write` of an MTD device moves at least one byte and possibly fewer than it was asked
  for; at the end of the device `read` returns zero and `write` fails.  An EC command fails
  on a range outside the flash, and may fill the whole reply buffer.  A division by zero, a
  signed overflow or an access outside an object is a fault.  `malloc` is taken to succeed.
-/
import DragonDevice.Lib.TransferLoop
import DragonDevice.Recovery.Flash

set_option autoImplicit false

namespace DragonDevice.Recovery.Backend

open DragonDevice.Lib

/-! ## Integers -/

def u32Limit : Nat := 0x100000000

def sizeLimit : Nat := 0x10000000000000000

def offLimit : Int := 0x8000000000000000

/-- An `off_t` converted to `uint32_t`. -/
def asU32 (off : Int) : Nat := (off % (u32Limit : Int)).toNat

/-- An `off_t` converted to `size_t`. -/
def asSize (off : Int) : Nat := (off % (sizeLimit : Int)).toNat

/-- A `size_t` converted to `off_t`. -/
def asOff (count : Nat) : Int :=
  if (count : Int) < offLimit then count else (count : Int) - sizeLimit

/-! ## What the system calls do -/

def enospc : Int := 28

def enodev : Int := 19

/-- `EC_RES_ERROR`. -/
def ecResError : Int := 2

/-- How one system call ends, as far as the device is free in it. -/
inductive Answer where
  | fail (code : Int) (nonzero : code ≠ 0)
  | ok (more : Nat) (fill : Nat → Byte)

abbrev Answers : Type := Nat → Answer

/-- The memory of the caller, from the buffer on. -/
abbrev Caller : Type := Nat → Byte

def store (buff : Caller) (pos : Nat) (bytes : Bytes) : Caller := fun i =>
  if pos ≤ i then (bytes[i - pos]?).getD (buff i) else buff i

/-- `lseek` on a device: a position outside of it is refused. -/
def lseek (mem : Bytes) (off : Int) : Option Nat :=
  if 0 ≤ off ∧ off ≤ mem.length then some off.toNat else none

/-- `read`: nothing is left to read at the end of the device. -/
def sysRead (mem : Bytes) (pos count : Nat) : Answer → Except Int Bytes
  | .fail code _ => .error code
  | .ok more _ => .ok (slice mem pos (min (more + 1) count))

/-- `write`: how much is written, and the content after it. -/
def sysWrite (mem : Bytes) (pos : Nat) (data : Bytes) : Answer → Except Int (Nat × Bytes)
  | .fail code _ => .error code
  | .ok more _ =>
      if mem.length ≤ pos then .error enospc
      else
        let n := min (more + 1) (min data.length (mem.length - pos))
        .ok (n, splice mem pos (data.take n))

/-- `MEMERASE`, and the EC's erase. -/
def sysErase (mem : Bytes) (start length : Nat) : Answer → Except Int Bytes
  | .fail code _ => .error code
  | .ok _ _ =>
      if start + length ≤ mem.length then .ok (splice mem start (List.replicate length 0xff#8))
      else .error einval

/-- `EC_CMD_FLASH_READ`: the reply, of `insize` bytes. -/
def ecFlashRead (mem : Bytes) (offset size insize : Nat) : Answer → Except Int Bytes
  | .fail code _ => .error code
  | .ok _ fill =>
      if offset + size ≤ mem.length then
        .ok (slice mem offset size ++ (List.range (insize - size)).map fill)
      else .error ecResError

/-- `EC_CMD_FLASH_WRITE`. -/
def ecFlashWrite (mem : Bytes) (offset : Nat) (data : Bytes) : Answer → Except Int Bytes
  | .fail code _ => .error code
  | .ok _ _ =>
      if offset + data.length ≤ mem.length then .ok (splice mem offset data)
      else .error ecResError

/-! ## The mtd backend -/

/-- `struct mtd_data` of an open device, with the content of the flash. -/
structure MtdData where
  fd : Int
  size : Nat
  writesize : Nat
  erasesize : Nat
  content : Bytes
  opened : 0 ≤ fd
  size_lt : size < u32Limit
  content_length : content.length = if 0 < fd then size else 0

def mtdReadTurn (dev : MtdData) (start : Nat) (answers : Answers) :
    Nat → Nat → Nat → Caller → Turn Caller :=
  fun call done count buff =>
    match sysRead dev.content (start + done) count (answers call) with
    | .error code => .failed code buff
    | .ok bytes => .moved bytes.length (store buff done bytes)

def mtdRead (dev : MtdData) (off : Int) (count : Nat) (answers : Answers) (fuel : Nat)
    (buff : Caller) : Run Caller :=
  match lseek dev.content off with
  | none => .returned einval buff
  | some start => transfer (mtdReadTurn dev start answers) fuel 0 0 count buff

def mtdWriteTurn (start : Nat) (data : Bytes) (answers : Answers) :
    Nat → Nat → Nat → Bytes → Turn Bytes :=
  fun call done count mem =>
    match sysWrite mem (start + done) (slice data done count) (answers call) with
    | .error code => .failed code mem
    | .ok (n, mem) => .moved n mem

def mtdWrite (dev : MtdData) (off : Int) (data : Bytes) (answers : Answers) (fuel : Nat) :
    Run Bytes :=
  match lseek dev.content off with
  | none => .returned einval dev.content
  | some start => transfer (mtdWriteTurn start data answers) fuel 0 0 data.length dev.content

/-- One ioctl that erases `[start, start + length)`, both cut to 32 bits. -/
def eraseOnce (mem : Bytes) (off : Int) (count : Nat) (answers : Answers) : Run Bytes :=
  match sysErase mem (asU32 off) (count % u32Limit) (answers 0) with
  | .error code => .returned code mem
  | .ok mem => .returned 0 mem

def mtdErase (dev : MtdData) (off : Int) (count : Nat) (answers : Answers) : Run Bytes :=
  eraseOnce dev.content off count answers

/-! ## The ec backend -/

/-- `struct ec_data` of an open device, with the content of the flash. -/
structure EcData where
  fd : Int
  maxResponsePacketSize : Nat
  flashSize : Nat
  writeIdealSize : Nat
  eraseBlockSize : Nat
  content : Bytes
  opened : 0 ≤ fd
  maxResponsePacketSize_lt : maxResponsePacketSize < 0x10000
  flashSize_lt : flashSize < u32Limit
  writeIdealSize_lt : writeIdealSize < u32Limit
  content_length : content.length = if 0 < fd then flashSize else 0

/-- `sizeof(struct ec_host_response)`. -/
def sizeofHostResponse : Nat := 8

/-- `sizeof(struct ec_params_flash_write)`. -/
def sizeofFlashWrite : Nat := 8

/-- `ec_command`, with what the ioctl gives. -/
def ecCommand {α : Type} (dev : EcData) (reply : Except Int α) : Except Int α :=
  if dev.fd < 0 then .error (-enodev) else reply

/-- `read_size`, a `uint32_t`. -/
def EcData.readSize (dev : EcData) : Nat :=
  (dev.maxResponsePacketSize + u32Limit - sizeofHostResponse) % u32Limit

def ecReadTurn (dev : EcData) (off : Int) (answers : Answers) :
    Nat → Nat → Nat → Caller → Turn Caller :=
  fun call done count buff =>
    let size := min dev.readSize count
    match ecCommand dev
        (ecFlashRead dev.content (asU32 (off + done)) size dev.readSize (answers call)) with
    | .error res => .failed res buff
    | .ok indata => .moved size (store buff done indata)

def ecRead (dev : EcData) (off : Int) (count : Nat) (answers : Answers) (fuel : Nat)
    (buff : Caller) : Run Caller :=
  transfer (ecReadTurn dev off answers) fuel 0 0 count buff

/-- The packet is allocated with `total_size` bytes, a `uint32_t`, and filled with
`write_size` bytes of the data behind its header. -/
def ecWriteTurn (dev : EcData) (off : Int) (data : Bytes) (answers : Answers) :
    Nat → Nat → Nat → Bytes → Turn Bytes :=
  fun call done count mem =>
    let writeSize := dev.writeIdealSize
    let totalSize := (sizeofFlashWrite + writeSize) % u32Limit
    if totalSize < sizeofFlashWrite + writeSize ∨ count < writeSize then .fault
    else
      match ecCommand dev
          (ecFlashWrite mem (asU32 (off + done)) (slice data done writeSize) (answers call)) with
      | .error res => .failed res mem
      | .ok mem => .moved writeSize mem

def ecWrite (dev : EcData) (off : Int) (data : Bytes) (answers : Answers) (fuel : Nat) :
    Run Bytes :=
  transfer (ecWriteTurn dev off data answers) fuel 0 0 data.length dev.content

def ecErase (dev : EcData) (off : Int) (count : Nat) (answers : Answers) : Run Bytes :=
  if dev.fd < 0 then .returned (-enodev) dev.content else eraseOnce dev.content off count answers

/-! ## The file backend -/

/-- `struct file_data`, with the bytes that `data` points to.  A blob has no file, and
its `fd` is `-1`. -/
structure FileData where
  fd : Int
  stSize : Nat
  stBlksize : Nat
  content : Bytes
  stSize_lt : (stSize : Int) < offLimit
  content_length : content.length = stSize

/-- The check `offset + (off_t)count > st_size`; the sum may overflow. -/
def FileData.refuses (dev : FileData) (off : Int) (count : Nat) : Option Bool :=
  let fin := off + asOff count
  if fin < -offLimit ∨ offLimit ≤ fin then none else some ((dev.stSize : Int) < fin)

/-- `count` bytes at `data + offset` are touched, after the check. -/
def fileAccess {σ : Type} (dev : FileData) (off : Int) (count : Nat) (old new : σ) : Run σ :=
  match dev.refuses off count with
  | none => .fault
  | some true => .returned (-einval) old
  | some false =>
      if count = 0 ∨ 0 ≤ off ∧ off + count ≤ dev.content.length then .returned 0 new else .fault

def fileRead (dev : FileData) (off : Int) (count : Nat) (buff : Caller) : Run Caller :=
  fileAccess dev off count buff (store buff 0 (slice dev.content off.toNat count))

def fileWrite (dev : FileData) (off : Int) (data : Bytes) : Run Bytes :=
  fileAccess dev off data.length dev.content (splice dev.content off.toNat data)

def fileErase (dev : FileData) (off : Int) (count : Nat) : Run Bytes :=
  fileAccess dev off count dev.content
    (splice dev.content off.toNat (List.replicate count 0xff#8))

/-! ## The flash layer -/

/-- The private data of an open device. -/
inductive Device where
  | mtd (dev : MtdData)
  | ec (dev : EcData)
  | file (dev : FileData)

def Device.content : Device → Bytes
  | .mtd dev => dev.content
  | .ec dev => dev.content
  | .file dev => dev.content

def Device.getSize : Device → Nat
  | .mtd dev => if 0 < dev.fd then dev.size else 0
  | .ec dev => if 0 < dev.fd then dev.flashSize else 0
  | .file dev => dev.stSize

def Device.getWriteSize : Device → Nat
  | .mtd dev => if 0 < dev.fd then dev.writesize else 0
  | .ec dev => if 0 < dev.fd then dev.writeIdealSize else 0
  | .file dev => if 0 < dev.fd then dev.stBlksize else 0

def Device.getEraseSize : Device → Nat
  | .mtd dev => if 0 < dev.fd then dev.erasesize else 0
  | .ec dev => if 0 < dev.fd then dev.eraseBlockSize else 0
  | .file dev => if 0 < dev.fd then dev.stBlksize else 0

theorem Device.content_length (dev : Device) : dev.content.length = dev.getSize := by
  cases dev with
  | mtd dev => exact dev.content_length
  | ec dev => exact dev.content_length
  | file dev => exact dev.content_length

def flashRead (dev : Device) (off : Int) (len : Nat) (answers : Answers) (fuel : Nat)
    (buff : Caller) : Run Caller :=
  match dev with
  | .mtd dev => mtdRead dev off len answers fuel buff
  | .ec dev => ecRead dev off len answers fuel buff
  | .file dev => fileRead dev off len buff

def flashWrite (dev : Device) (off : Int) (data : Bytes) (answers : Answers) (fuel : Nat) :
    Run Bytes :=
  match badAlignment dev.getWriteSize (asSize off) data.length with
  | none => .fault
  | some true => .returned (-einval) dev.content
  | some false =>
      match dev with
      | .mtd dev => mtdWrite dev off data answers fuel
      | .ec dev => ecWrite dev off data answers fuel
      | .file dev => fileWrite dev off data

def flashErase (dev : Device) (off : Int) (len : Nat) (answers : Answers) : Run Bytes :=
  match badAlignment dev.getEraseSize (asSize off) len with
  | none => .fault
  | some true => .returned (-einval) dev.content
  | some false =>
      match dev with
      | .mtd dev => mtdErase dev off len answers
      | .ec dev => ecErase dev off len answers
      | .file dev => fileErase dev off len

end DragonDevice.Recovery.Backend
