import ParanukOS.Foundation.Bitmap
import ParanukOS.Foundation.Loops
import ParanukOS.KernelMemory.Map

/-!
# The frame allocator

The embedding of `kernel-memory/src/frame.rs`.  The allocator keeps two bitmaps over a window of
physical frames: `allocatable` marks the frames that may be handed out at all, `used` those that are
handed out.  A `FrameAllocator` carries the facts that its bitmaps cover the window and that the
window ends inside of the address space, so that no index computed from it can be out of bounds.
-/

namespace ParanukOS

open Foundation

namespace KernelMemory

/-- `MIN_FREE_ADDR`: no frame below is handed out. -/
def minFreeAddr : ℕ := 1024 * 1024

/-- `MAX_RESERVED_RANGES`. -/
def maxReservedRanges : ℕ := 8

/-- A frame, by its physical address. -/
structure PhysFrame where
  /-- The physical address. -/
  address : ℕ
  deriving DecidableEq, Repr

/-- A contiguous range of frames. -/
structure PhysRange where
  /-- The physical address. -/
  start : ℕ
  /-- The length in bytes. -/
  len : ℕ
  deriving DecidableEq, Repr

/-- `frames`: the number of frames of a range. -/
def PhysRange.frames (self : PhysRange) : ℕ := self.len / pageSize

/-- A range of addresses that is not handed out. -/
structure ReservedRange where
  /-- The first address. -/
  start : ℕ
  /-- The address behind the range. -/
  stop : ℕ
  deriving DecidableEq, Repr

/-- `overlaps`. -/
def ReservedRange.overlaps (self : ReservedRange) (start stop : ℕ) : Bool :=
  self.start < stop && start < self.stop

/-- The window that is managed. -/
structure Config where
  /-- The first address. -/
  managedStart : ℕ
  /-- The address behind the window. -/
  limit : ℕ
  deriving DecidableEq, Repr

/-- `Config::new`: from 1 MiB up to the limit. -/
def Config.new (limit : ℕ) : Config := { managedStart := minFreeAddr, limit }

/-- The numbers of frames. -/
structure FrameStats where
  /-- The frames of the window. -/
  managed : ℕ
  /-- The frames that are free. -/
  free : ℕ
  deriving DecidableEq, Repr

/-- The reasons for which no allocator is built. -/
inductive InitError where
  | bitmapTooSmall (needed got : ℕ)
  | tooManyReservedRanges (count : ℕ)
  | emptyRange (managedStart limit : ℕ)
  | noUsableMemory
  deriving DecidableEq, Repr

/-- The reasons for which a frame is not taken back. -/
inductive FreeError where
  | notManaged (address : ℕ)
  | alreadyFree (address : ℕ)
  | reserved (address : ℕ)
  deriving DecidableEq, Repr

/-- The allocator. -/
structure FrameAllocator where
  /-- The frames that may be handed out. -/
  allocatable : Slice UInt8
  /-- The frames that are handed out. -/
  used : Slice UInt8
  /-- The number of the first frame of the window. -/
  firstFrame : ℕ
  /-- The number of frames of the window. -/
  frames : ℕ
  /-- The number of free frames. -/
  freeFrames : ℕ
  /-- The reserved ranges. -/
  reserved : List ReservedRange
  /-- The first bitmap covers the window. -/
  allocatable_le : frames ≤ 8 * allocatable.length
  /-- The second bitmap covers the window. -/
  used_le : frames ≤ 8 * used.length
  /-- The window ends inside of the address space. -/
  stop_lt : (firstFrame + frames) * pageSize < 2 ^ 64

/-- `bit`. -/
def bit (bytes : Slice UInt8) (index : ℕ) : Checked Bool :=
  if index / 8 < bytes.length then .ok (bytes.bitAt index) else .error .outOfBounds

namespace FrameAllocator

/-- `set_bit` on the frames that may be handed out. -/
def setAllocatable (self : FrameAllocator) (index : ℕ) (value : Bool) : Checked FrameAllocator :=
  if index / 8 < self.allocatable.length then
    .ok { self with
          allocatable := self.allocatable.setBitAt index value
          allocatable_le := by rw [Slice.length_setBitAt]; exact self.allocatable_le }
  else .error .outOfBounds

/-- `set_bit` on the frames that are handed out. -/
def setUsed (self : FrameAllocator) (index : ℕ) (value : Bool) : Checked FrameAllocator :=
  if index / 8 < self.used.length then
    .ok { self with
          used := self.used.setBitAt index value
          used_le := by rw [Slice.length_setBitAt]; exact self.used_le }
  else .error .outOfBounds

/-- `frame_index`: the index in the window of the frame at an address. -/
def frameIndex (self : FrameAllocator) (address : ℕ) : Option ℕ :=
  let frame := address / pageSize
  if address % pageSize ≠ 0 ∨ frame < self.firstFrame ∨ self.firstFrame + self.frames ≤ frame then
    none
  else some (frame - self.firstFrame)

/-- `is_reserved`. -/
def isReserved (self : FrameAllocator) (address : ℕ) : Checked Bool := do
  let stop ← addWord address pageSize
  return self.reserved.any fun range => range.overlaps address stop

/-- `is_allocatable`. -/
def isAllocatable (self : FrameAllocator) (index : ℕ) : Checked Bool := bit self.allocatable index

/-- `is_used`. -/
def isUsed (self : FrameAllocator) (index : ℕ) : Checked Bool := bit self.used index

/-- `is_free`. -/
def isFree (self : FrameAllocator) (index : ℕ) : Checked Bool := do
  if ← self.isAllocatable index then
    return !(← self.isUsed index)
  else return false

/-- `mark_available`: add a frame to those that may be handed out. -/
def markAvailable (self : FrameAllocator) (address : ℕ) : Checked FrameAllocator :=
  match self.frameIndex address with
  | none => return self
  | some index => do
    let self ← self.setAllocatable index true
    let self ← self.setUsed index false
    return { self with freeFrames := ← addWord self.freeFrames 1 }

/-- `mark_used`. -/
def markUsed (self : FrameAllocator) (index : ℕ) : Checked FrameAllocator := do
  let self ← self.setUsed index true
  return { self with freeFrames := ← subWord self.freeFrames 1 }

/-- The loop of `find_free_run` for the last `n` indices: `run` frames from `runStart` on are
free. -/
def findFreeRunFrom (self : FrameAllocator) (count : ℕ) : ℕ → ℕ → ℕ → ℕ → Checked (Option ℕ)
  | 0, _, _, _ => return none
  | n + 1, index, runStart, run => do
    if ← self.isFree index then
      let runStart := if run = 0 then index else runStart
      if run + 1 = count then return some runStart
      else self.findFreeRunFrom count n (index + 1) runStart (run + 1)
    else self.findFreeRunFrom count n (index + 1) runStart 0

/-- `find_free_run`: the first `count` consecutive frames that are free. -/
def findFreeRun (self : FrameAllocator) (count : ℕ) : Checked (Option ℕ) :=
  if count = 0 ∨ self.frames < count then return none
  else self.findFreeRunFrom count self.frames 0 0 0

/-- `alloc`. -/
def alloc (self : FrameAllocator) : Checked (Option PhysFrame × FrameAllocator) := do
  match ← self.findFreeRun 1 with
  | none => return (none, self)
  | some index =>
    let self ← self.markUsed index
    return (some ⟨← mulWord (← addWord self.firstFrame index) pageSize⟩, self)

/-- `alloc_contiguous`. -/
def allocContiguous (self : FrameAllocator) (count : ℕ) :
    Checked (Option PhysRange × FrameAllocator) := do
  if count = 0 then return (none, self)
  match ← self.findFreeRun count with
  | none => return (none, self)
  | some start =>
    let self ← forRange count self fun i self => self.markUsed (start + i)
    return (some { start := ← mulWord (← addWord self.firstFrame start) pageSize
                   len := ← mulWord count pageSize }, self)

/-- `free`. -/
def free (self : FrameAllocator) (frame : PhysFrame) :
    Checked (Except FreeError Unit × FrameAllocator) :=
  match self.frameIndex frame.address with
  | none => return (.error (.notManaged frame.address), self)
  | some index => do
    if ← self.isReserved frame.address then
      return (.error (.reserved frame.address), self)
    if !(← self.isAllocatable index) then
      return (.error (.notManaged frame.address), self)
    if !(← self.isUsed index) then
      return (.error (.alreadyFree frame.address), self)
    let self ← self.setUsed index false
    return (.ok (), { self with freeFrames := ← addWord self.freeFrames 1 })

/-- `stats`. -/
def stats (self : FrameAllocator) : FrameStats :=
  { managed := self.frames, free := self.freeFrames }

/-- `reserved_ranges`. -/
def reservedRanges (self : FrameAllocator) : List ReservedRange := self.reserved

/-- The loop of `first_free_in`, for `n` frames. -/
def firstFreeInFrom (self : FrameAllocator) : ℕ → ℕ → Checked (Option PhysFrame)
  | 0, _ => return none
  | n + 1, frame => do
    match self.frameIndex (← mulWord frame pageSize) with
    | none => self.firstFreeInFrom n (frame + 1)
    | some index =>
      if ← self.isFree index then return some ⟨← mulWord frame pageSize⟩
      else self.firstFreeInFrom n (frame + 1)

/-- `first_free_in`: the first free frame that meets a range. -/
def firstFreeIn (self : FrameAllocator) (start stop : ℕ) : Checked (Option PhysFrame) :=
  let first := start / pageSize
  let last := divCeil stop pageSize
  self.firstFreeInFrom (last - first) first

/-- The allocator at the start of the loops of `init`: no frame may be handed out. -/
def blank (bitmap : Slice UInt8) (firstFrame frames : ℕ) (reserved : List ReservedRange)
    (hbitmap : 2 * divCeil frames 8 ≤ bitmap.length)
    (hstop : (firstFrame + frames) * pageSize < 2 ^ 64) : FrameAllocator where
  allocatable := (bitmap.takeFirst (divCeil frames 8)).overwrite 0
    (List.replicate (divCeil frames 8) 0x00)
  used := (bitmap.dropFirst (divCeil frames 8)).overwrite 0
    (List.replicate (divCeil frames 8) 0xFF)
  firstFrame := firstFrame
  frames := frames
  freeFrames := 0
  reserved := reserved
  allocatable_le := by
    have := le_divCeil_mul frames (show 0 < 8 by norm_num)
    rw [Slice.length_overwrite, Slice.length_takeFirst]
    omega
  used_le := by
    have := le_divCeil_mul frames (show 0 < 8 by norm_num)
    rw [Slice.length_overwrite, Slice.length_dropFirst]
    omega
  stop_lt := hstop

/-- The body of the inner loop of `init`. -/
def offer (self : FrameAllocator) (address : ℕ) : Checked FrameAllocator := do
  if ← self.isReserved address then return self
  else self.markAvailable address

/-- The body of the outer loop of `init`. -/
def offerRegion (managedStart limit : ℕ) (self : FrameAllocator) (region : Region) :
    Checked FrameAllocator :=
  if region.kind ≠ .conventional then return self
  else
    let start := max region.base managedStart
    let stop := min region.stop limit
    forStep start stop pageSize self fun address self => self.offer address

/-- `init`. -/
def init (bitmap : Slice UInt8) (map : MemoryMap) (reserved : List ReservedRange)
    (config : Config) :
    Checked (Except InitError FrameAllocator) :=
  if maxReservedRanges < reserved.length then
    return .error (.tooManyReservedRanges reserved.length)
  else
    let firstFrame := divCeil config.managedStart pageSize
    let endFrame := config.limit / pageSize
    if endFrame ≤ firstFrame then
      return .error (.emptyRange config.managedStart config.limit)
    else
      let frames := endFrame - firstFrame
      let needed := 2 * divCeil frames 8
      if hbitmap : bitmap.length < needed then
        return .error (.bitmapTooSmall needed bitmap.length)
      else if hstop : 2 ^ 64 ≤ (firstFrame + frames) * pageSize then
        -- the product `end_frame * PAGE_SIZE`
        .error .overflow
      else do
        let allocator := blank bitmap firstFrame frames reserved (not_lt.mp hbitmap)
          (not_le.mp hstop)
        let allocator ← map.regions.foldlM
          (offerRegion (firstFrame * pageSize) (endFrame * pageSize)) allocator
        if allocator.freeFrames = 0 then return .error .noUsableMemory
        else return .ok allocator

end FrameAllocator

end KernelMemory

end ParanukOS
