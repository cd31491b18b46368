import ParanukOS.BootInfo
import ParanukOS.Foundation.Fallible
import ParanukOS.Foundation.Words
import ParanukOS.KernelMemory.Frame.Model
import ParanukOS.KernelMemory.Paging.Model

/-!
# The memory of the kernel

The embedding of `kernel/src/memory.rs`: the page tables are installed, and the frame allocator and
the heap are set up.  The registers of the processor are an argument; the write to `CR3` is left
out, and so are the self-checks.

The memory map lies in memory at `mmap_ptr`; the functions have the bytes from there on as an
argument.  The page table arena and the bitmap of the frame allocator are static variables of the
kernel, and `Statics` has their addresses.
-/

namespace ParanukOS

open Foundation Foundation.Fallible KernelMemory

namespace Kernel

/-- `heap::HEAP_SIZE`. -/
def heapSize : ℕ := 1024 * 1024

/-- `KERNEL_TABLE_PAGES`. -/
def kernelTablePages : ℕ := tablesNeeded maxIdentityBytes blockSize

/-- `USER_TABLE_PAGES`. -/
def userTablePages : ℕ := 4

/-- `ARENA_PAGES`. -/
def arenaPages : ℕ := kernelTablePages + userTablePages

/-- `ARENA_BYTES`. -/
def arenaBytes : ℕ := arenaPages * pageSize

/-- `FRAME_BITMAP_BYTES`. -/
def frameBitmapBytes : ℕ := 2 * divCeil ((maxIdentityBytes - minFreeAddr) / pageSize) 8

/-- What is wrong with the mode of the processor. -/
inductive CpuModeProblem where
  | pagingOff
  | paeOff
  | fiveLevelPaging
  | notInLongMode
  | pcideEnabled
  deriving DecidableEq, Repr

/-- The reasons for which the memory is not initialised. -/
inductive MemoryError where
  | unexpectedCpuMode (detail : CpuModeProblem)
  | arenaOutsideKernel (arena : ℕ)
  | map (e : MapError)
  | build (e : BuildError)
  | bootInfoLostAfterSwitch
  | frames (e : InitError)
  | heapRegionUnavailable (frames : ℕ)
  deriving DecidableEq, Repr

/-- The registers that `read_cr0`, `read_cr4` and `read_efer` read. -/
structure ControlRegisters where
  cr0 : UInt64
  cr4 : UInt64
  efer : UInt64
  deriving DecidableEq, Repr

/-- `CR0_PG`. -/
def cr0Pg : UInt64 := (1 : UInt64) <<< 31

/-- `CR4_PAE`. -/
def cr4Pae : UInt64 := (1 : UInt64) <<< 5

/-- `CR4_LA57`. -/
def cr4La57 : UInt64 := (1 : UInt64) <<< 12

/-- `CR4_PCIDE`. -/
def cr4Pcide : UInt64 := (1 : UInt64) <<< 17

/-- `CR4_OSFXSR`. -/
def cr4OsfxsrBit : UInt64 := (1 : UInt64) <<< 9

/-- `EFER_LMA`. -/
def eferLma : UInt64 := (1 : UInt64) <<< 10

/-- `check_cpu_mode`. -/
def checkCpuMode (control : ControlRegisters) : Except MemoryError Unit :=
  if control.cr0 &&& cr0Pg = 0 then .error (.unexpectedCpuMode .pagingOff)
  else if control.cr4 &&& cr4Pae = 0 then .error (.unexpectedCpuMode .paeOff)
  else if control.cr4 &&& cr4La57 ≠ 0 then .error (.unexpectedCpuMode .fiveLevelPaging)
  else if control.efer &&& eferLma = 0 then .error (.unexpectedCpuMode .notInLongMode)
  else if control.cr4 &&& cr4Pcide ≠ 0 then .error (.unexpectedCpuMode .pcideEnabled)
  else .ok ()

/-- `cr4_osfxsr`. -/
def cr4Osfxsr (control : ControlRegisters) : Bool := control.cr4 &&& cr4OsfxsrBit ≠ 0

/-- The addresses of the boot information and of two static variables. -/
structure Statics where
  /-- The boot information. -/
  bootInfo : UInt64
  /-- `PAGE_ARENA`. -/
  arena : UInt64
  /-- `FRAME_BITMAP`. -/
  frameBitmap : UInt64
  deriving DecidableEq, Repr

/-- `boot_info_memory_map`: the bytes are those at `mmap_ptr`. -/
def bootInfoMemoryMap (info : BootInfo) (bytes : Slice UInt8) : Except MapError MemoryMap :=
  let stride := info.mmapDescSize.toNat
  if stride < descriptorMinSize then .error (.strideTooSmall stride)
  else match bufferLen info.mmapLen.toNat stride with
    | none => .error (.tooLarge info.mmapLen.toNat stride)
    | some len => MemoryMap.fromBytes (bytes.takeFirst len) info.mmapLen.toNat stride
        info.mmapDescVer.toNat

/-- `install`. -/
def install (control : ControlRegisters) (info : BootInfo) (arena : TableArena)
    (bytes : Slice UInt8) : Fallible MemoryError (PageTables × TableArena) := do
  ofExcept (checkCpuMode control)
  let kernelEnd := saturatingAdd info.kernelBase.toNat info.kernelSize.toNat
  throwIf (arena.address < info.kernelBase.toNat ∨ kernelEnd ≤ arena.address)
    (.arenaOutsideKernel arena.address)
  let map ← mapError .map (ofExcept (bootInfoMemoryMap info bytes))
  let (tables, arena) ← mapError .build (ExceptT.mk (build arena map .m2))
  mapError (fun _ : BootInfoError => .bootInfoLostAfterSwitch) (ofExcept info.validate)
  return (tables, arena)

/-- `page_range`: a range widened to pages. -/
def pageRange (start len : ℕ) : ReservedRange :=
  if len = 0 then ⟨0, 0⟩
  else
    let first := start &&& notWord (pageSize - 1)
    let last := saturatingAdd (saturatingAdd start len) (pageSize - 1) &&& notWord (pageSize - 1)
    ⟨first, last⟩

/-- `owned_ranges`: what must not be handed out. -/
def ownedRanges (info : BootInfo) (statics : Statics) : List ReservedRange :=
  let mmapLen := saturatingMul info.mmapLen.toNat info.mmapDescSize.toNat
  let bootInfoPage := statics.bootInfo.toNat &&& notWord (pageSize - 1)
  let stackStart := info.stackTop.toNat - info.stackSize.toNat
  [ pageRange info.kernelBase.toNat info.kernelSize.toNat,
    pageRange stackStart info.stackSize.toNat,
    pageRange bootInfoPage pageSize,
    pageRange info.mmapPtr.toNat mmapLen,
    pageRange statics.arena.toNat arenaBytes,
    pageRange statics.frameBitmap.toNat frameBitmapBytes,
    ⟨0, 0⟩,
    ⟨0, 0⟩ ]

/-- The result of `init_allocators`. -/
structure MemoryLayout where
  /-- The limit of the identity map. -/
  limit : ℕ
  /-- The numbers of frames. -/
  frames : FrameStats
  /-- The heap: address and length. -/
  heap : ℕ × ℕ
  deriving DecidableEq, Repr

/-- `init_allocators`. -/
def initAllocators (info : BootInfo) (statics : Statics) (bitmap bytes : Slice UInt8) (limit : ℕ) :
    Fallible MemoryError (MemoryLayout × FrameAllocator) := do
  let map ← mapError .map (ofExcept (bootInfoMemoryMap info bytes))
  let allocator ← mapError .frames (ExceptT.mk (FrameAllocator.init bitmap map
    (ownedRanges info statics) (.new (min limit maxIdentityBytes))))
  let statsBeforeHeap := allocator.stats
  let heapFrames := heapSize / pageSize
  let (region, allocator) ← allocator.allocContiguous heapFrames
  let region ← okOr region (.heapRegionUnavailable heapFrames)
  return ({ limit
            frames := { managed := statsBeforeHeap.managed, free := allocator.stats.free }
            heap := (region.start, heapSize) }, allocator)

end Kernel

end ParanukOS
