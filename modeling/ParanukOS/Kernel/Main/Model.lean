import ParanukOS.Kernel.Interrupt.Tables
import ParanukOS.Kernel.Memory.SelfCheck
import ParanukOS.Kernel.User.Model

/-!
# The start of the kernel, and its memory

The embedding of `kernel_main` of `kernel/src/main.rs` up to the point at which it enables
interrupts, and of what can happen to the memory of the kernel from then on.

From then on the boot thread goes on in parallel with the threads that it creates.  Besides creating
threads it allocates frames for itself: one that it frees at once, as a check, and the stack of the
user service, which it then maps for user mode.  `Running.Step` allows this at any moment and in any
order, for any number of frames, between any two sections of the other threads and the interrupts.

Messages are left out, but not the additions in them that can overflow.

## Outline

* `Platform`: what the kernel finds; `startUp`: `kernel_main`.
* `Running`, `Running.Step`: the kernel from then on.
* `MemoryRegion`, `Running.region`: who has which memory.
-/

namespace ParanukOS

open Foundation Foundation.Fallible KernelMemory KernelSched Heap

/-- `has_memory_map`. -/
def BootInfo.hasMemoryMap (self : BootInfo) : Bool :=
  self.mmapPtr ≠ 0 && self.mmapLen ≠ 0 && self.mmapDescSize ≠ 0

/-- The boot stack. -/
def BootInfo.bootStack (self : BootInfo) : PhysRange :=
  ⟨self.stackTop.toNat - self.stackSize.toNat, self.stackSize.toNat⟩

namespace Kernel

/-! ## The start -/

/-- The reasons for which `kernel_main` ends before it enables interrupts. -/
inductive StartError where
  | bootInfo (e : BootInfoError)
  | noMemoryMap
  | noRsdp
  | memory (e : MemoryError)
  | selfCheck (e : CheckFailure)
  | noIstStacks
  | gdt
  | noFxsave

/-- What the kernel finds: the boot information, its static variables and their addresses, the
contents of memory, and the processor. -/
structure Platform where
  info : BootInfo
  statics : Statics
  /-- `PAGE_ARENA`. -/
  arena : TableArena
  /-- `FRAME_BITMAP`. -/
  bitmap : Slice UInt8
  /-- The bytes at `mmap_ptr`. -/
  mmap : Slice UInt8
  /-- The bytes in the frames that the heap gets. -/
  contents : Slice UInt8
  contents_length : contents.length = heapSize
  /-- The representation of vectors of vectors in memory. -/
  blockLayout : Stored (Option ByteVec)
  vecLayout : Stored ByteVec
  /-- The control registers. -/
  control : ControlRegisters
  /-- The address of the descriptors of the segments. -/
  gdtBase : BitVec 64
  /-- The address of the task state. -/
  tssBase : BitVec 64
  /-- What `sgdt` reads back. -/
  sgdt : DescriptorTablePointer
  /-- The address of `thread_trampoline`. -/
  trampoline : ℕ

/-- The kernel when it enables interrupts. -/
structure Startup where
  tables : PageTables
  /-- `PAGE_ARENA`, with the page tables. -/
  arena : TableArena
  layout : MemoryLayout
  heap : HeapMemory
  /-- The stacks for double faults and for the non-maskable interrupt. -/
  ist : PhysRange
  descriptors : Descriptors
  machine : Machine

/-- `kernel_main`, up to `enable_interrupts`. -/
def startUp (p : Platform) : Fallible StartError Startup := do
  mapError .bootInfo (ofExcept p.info.validate)
  throwIf (p.info.hasMemoryMap = false) .noMemoryMap
  let _ ← addWord p.info.kernelBase.toNat p.info.kernelSize.toNat
  let _ ← subWord p.info.stackTop.toNat p.info.stackSize.toNat
  throwIf (p.info.rsdp = 0) .noRsdp
  let (tables, arena) ← mapError .memory (install p.control p.info p.arena p.mmap)
  let (layout, frames) ← mapError .memory
    (initAllocators p.info p.statics p.bitmap p.mmap tables.limit)
  let before ← mapError .memory
    (freeFramesAfterInit p.info p.statics p.bitmap p.mmap tables.limit)
  let (heap, heapArena) ← liftM (KernelHeap.init layout.heap.1 p.contents)
  let _ ← mulWord layout.frames.managed 4096
  let _ ← addWord layout.heap.1 layout.heap.2
  let (heap, frames) ← mapError .selfCheck
    (selfCheck p.blockLayout p.vecLayout p.info p.statics before ⟨heap, heapArena⟩ frames)
  let (ist, frames) ← liftM (frames.allocContiguous 2)
  let ist ← okOr ist .noIstStacks
  let doubleFault ← addWord ist.start 4096
  let nmi ← addWord ist.start 8192
  let descriptors := Descriptors.new.install p.tssBase (.ofNat 64 doubleFault) (.ofNat 64 nmi)
  throwIf (p.sgdt ≠ descriptors.gdtr p.gdtBase) .gdt
  throwIf (cr4Osfxsr p.control = false) .noFxsave
  let machine ← liftM (Machine.boot frames p.info.bootStack p.trampoline)
  return { tables, arena, layout, heap, ist, descriptors, machine }

/-! ## The kernel from then on -/

/-- The kernel with its threads. -/
structure Running where
  machine : Machine
  /-- The page tables. -/
  arena : TableArena
  /-- The frames that the boot thread has allocated for itself and not freed, by a number for each
  call of `alloc_frames`. -/
  loans : ℕ → Option PhysRange

/-- The kernel when it enables interrupts. -/
def Startup.running (s : Startup) : Running := ⟨s.machine, s.arena, fun _ => none⟩

namespace Running

/-- One step of the kernel. -/
inductive Step (info : BootInfo) : Running → Running → Prop
  /-- A step of a thread that creates another one, or an interrupt. -/
  | event {s : Running} {machine : Machine} (e : Event) (h : s.machine.step e = .ok machine) :
    Step info s { s with machine }
  /-- A call of `alloc_frames` that returns frames. -/
  | alloc {s : Running} {n count : ℕ} {range : PhysRange} {frames : FrameAllocator}
    (hn : s.loans n = none)
    (h : s.machine.frames.allocContiguous count = .ok (some range, frames)) :
    Step info s { s with
      machine := { s.machine with frames }, loans := Function.update s.loans n (some range) }
  /-- A call of `free_frames`. -/
  | free {s : Running} {n : ℕ} {range : PhysRange} {result : Except FreeError Unit}
    {frames : FrameAllocator} (hn : s.loans n = some range)
    (h : freeFrames s.machine.frames range = .ok (result, frames)) :
    Step info s { s with
      machine := { s.machine with frames }, loans := Function.update s.loans n none }
  /-- The user image and a stack are mapped.  If this fails, the kernel ends. -/
  | map {s : Running} {n : ℕ} {stack : PhysRange} {mapped : Mapped} {arena : TableArena}
    (hn : s.loans n = some stack)
    (h : mapUserRegion s.arena 0 (kernelTablePages * pageSize)
      [imageMapping info, stackMapping stack] = .ok (.ok mapped, arena)) :
    Step info s { s with arena }

end Running

/-! ## Memory -/

/-- What the kernel uses memory for. -/
inductive MemoryRegion where
  | heap
  /-- The stacks for double faults and for the non-maskable interrupt. -/
  | ist
  /-- Frames that the boot thread has allocated. -/
  | loan (n : ℕ)
  /-- The stack in a slot. -/
  | stack (i : Fin maxThreads)
  /-- The stack that a thread has allocated for another one that it is creating. -/
  | call (t : ℕ)
  deriving DecidableEq

/-- The stack that a call under way has allocated. -/
def Call.stack : Call → Option PhysRange
  | .stacked _ _ stack => some stack
  | .framed _ _ stack => some stack
  | _ => Option.none

/-- The memory for each use. -/
def regions (heap ist : PhysRange) (loans : ℕ → Option PhysRange) (slots : Fin maxThreads → Slot)
    (calls : ℕ → Call) : MemoryRegion → Option PhysRange
  | .heap => some heap
  | .ist => some ist
  | .loan n => loans n
  | .stack i => (slots i).stack
  | .call t => (calls t).stack

/-- The memory of the kernel. -/
def Running.region (s : Running) (start : Startup) : MemoryRegion → Option PhysRange :=
  regions ⟨start.layout.heap.1, start.layout.heap.2⟩ start.ist s.loans s.machine.slots
    s.machine.calls

end Kernel

end ParanukOS
