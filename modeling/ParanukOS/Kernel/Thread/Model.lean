import Mathlib.Data.Finset.Basic
import ParanukOS.KernelMemory.Frame.Model
import ParanukOS.KernelSched.Abstract

/-!
# Threads and interrupts

The embedding of `kernel/src/thread.rs`, of the interrupt handler of `kernel/src/sched.rs` with the
entry `irq_common` of `kernel/src/idt.rs`, and of `alloc_frames` and `free_frames` of
`kernel/src/memory.rs`.

A `Machine` is one processor with the scheduler, the table of slots and the frame allocator.  The
code that creates a thread runs with interrupts enabled and protects each of the three by itself, so
that a call of `create` is a sequence of atomic sections; `Call` says how far a thread has come in
such a call, and an interrupt can arrive between any two sections.

Of the memory, only the `IrqFrame`s matter.  `memory` has the frame that lies at an address together
with the thread whose registers it holds; storing a frame destroys what it overlaps.  The processor
runs the thread whose frame it has loaded last.  The state of the floating point unit is left out,
and so is the check of the canary, which only counts and prints.

## Outline

* `IrqFrame`, `Slot`, `Call`, `Machine`: the state.
* `Machine.beginCall`, `Machine.continueCall`: the sections of `create`, `create_user`,
  `create_idle`.
* `Machine.irqHandler`, `Machine.irqCommon`: an interrupt.
* `Machine.step`, `Machine.Allowed`: the steps of a run.
-/

namespace ParanukOS

open Foundation KernelMemory KernelSched

namespace Kernel

/-! ## Constants -/

/-- `THREAD_STACK_PAGES`. -/
def threadStackPages : ℕ := 4

/-- `THREAD_STACK_SIZE`. -/
def threadStackSize : ℕ := threadStackPages * 4096

/-- `KERNEL_CODE`. -/
def kernelCode : ℕ := 0x08

/-- `KERNEL_DATA`. -/
def kernelData : ℕ := 0x10

/-- `USER_CODE`. -/
def userCode : ℕ := 0x28

/-- `USER_DATA`. -/
def userData : ℕ := 0x30

/-- `TIMER_VECTOR`. -/
def timerVector : ℕ := 0x20

/-- `YIELD_VECTOR`. -/
def yieldVector : ℕ := 0x30

/-- `EXIT_VECTOR`. -/
def exitVector : ℕ := 0x31

/-- `SYSCALL_VECTOR`. -/
def syscallVector : ℕ := 0x40

/-- `PREEMPTION_ENABLED`. -/
def preemptionEnabled : Bool := true

/-! ## Frames in memory -/

/-- The registers that an interrupt saves, in the order of their addresses. -/
structure IrqFrame where
  r15 : ℕ := 0
  r14 : ℕ := 0
  r13 : ℕ := 0
  r12 : ℕ := 0
  r11 : ℕ := 0
  r10 : ℕ := 0
  r9 : ℕ := 0
  r8 : ℕ := 0
  rdi : ℕ := 0
  rsi : ℕ := 0
  rbp : ℕ := 0
  rbx : ℕ := 0
  rdx : ℕ := 0
  rcx : ℕ := 0
  rax : ℕ := 0
  vector : ℕ := 0
  errorCode : ℕ := 0
  rip : ℕ := 0
  cs : ℕ := 0
  rflags : ℕ := 0
  rsp : ℕ := 0
  ss : ℕ := 0
  deriving DecidableEq, Repr

/-- `size_of::<IrqFrame>()`: 22 words. -/
def irqFrameSize : ℕ := 22 * 8

/-- A frame in memory, and the thread whose registers it holds. -/
structure SavedFrame where
  /-- The thread. -/
  thread : ℕ
  /-- Its registers. -/
  frame : IrqFrame
  deriving DecidableEq, Repr

/-- The frames in memory, by their addresses. -/
abbrev FrameMemory := ℕ → Option SavedFrame

/-- Store a frame.  Frames that overlap it are destroyed. -/
def FrameMemory.store (memory : FrameMemory) (address : ℕ) (saved : SavedFrame) : FrameMemory :=
  fun p =>
    if p = address then some saved
    else if p < address + irqFrameSize ∧ address < p + irqFrameSize then none
    else memory p

/-- A frame at the address lies inside of the stack. -/
def OnStack (stack : PhysRange) (address : ℕ) : Prop :=
  stack.start ≤ address ∧ address + irqFrameSize ≤ stack.start + stack.len

instance (stack : PhysRange) (address : ℕ) : Decidable (OnStack stack address) :=
  inferInstanceAs (Decidable (_ ∧ _))

/-! ## The state -/

/-- What the kernel stores for each thread: the saved `rsp` and the number of its `Context`, and the
other fields of its `Slot`. -/
structure Slot where
  /-- The address of the saved frame. -/
  rsp : ℕ
  /-- The number of the thread. -/
  thread : ℕ
  /-- The kernel stack. -/
  stack : Option PhysRange
  /-- The address of the canary. -/
  canaryAddress : ℕ
  /-- The entry point. -/
  entry : ℕ
  /-- Whether it is a user thread. -/
  user : Bool
  /-- The end of the kernel stack. -/
  kernelStackTop : ℕ
  deriving DecidableEq, Repr

/-- `Slot::new`. -/
def Slot.new : Slot where
  rsp := 0
  thread := 0
  stack := none
  canaryAddress := 0
  entry := 0
  user := false
  kernelStackTop := 0

/-- The reasons for which no thread is created. -/
inductive CreateError where
  | noFreeSlot
  | noStack
  deriving DecidableEq, Repr

/-- Where a new thread starts. -/
inductive Start where
  | kernel (entry : ℕ)
  | user (entryVa userStackTop : ℕ)
  deriving DecidableEq, Repr

/-- How far a thread has come in a call that creates another one. -/
inductive Call where
  /-- There has been no call. -/
  | none
  /-- The new thread is registered with the scheduler. -/
  | registered (id : ℕ) (start : Start)
  /-- It has a stack. -/
  | stacked (id : ℕ) (start : Start) (stack : PhysRange)
  /-- Its first frame is written. -/
  | framed (id : ℕ) (start : Start) (stack : PhysRange)
  /-- The call has returned. -/
  | returned (result : Except CreateError ℕ)

/-- The thread that a call under way creates. -/
def Call.target : Call → Option ℕ
  | .registered id _ => some id
  | .stacked id _ _ => some id
  | .framed id _ _ => some id
  | _ => Option.none

/-- The processor and the kernel. -/
structure Machine where
  /-- The scheduler (`SCHED`). -/
  sched : Scheduler
  /-- The table of slots (`SLOTS`). -/
  slots : Fin maxThreads → Slot
  /-- The frame allocator (`FRAME_ALLOCATOR`). -/
  frames : FrameAllocator
  /-- The stack that an interrupt in user mode switches to. -/
  rsp0 : ℕ
  /-- The frames in memory. -/
  memory : FrameMemory
  /-- The thread that the processor executes; none when it has loaded something else than a
  frame. -/
  running : Option ℕ
  /-- The calls under way, by the calling thread. -/
  calls : ℕ → Call
  /-- The threads that have been registered and whose slot has not been written since. -/
  unprepared : Finset ℕ
  /-- The stack of the boot thread. -/
  bootStack : PhysRange
  /-- The address of `thread_trampoline`. -/
  trampoline : ℕ

namespace Machine

/-- The slot of a thread. -/
def slot (m : Machine) (id : ℕ) : Slot := if h : id < maxThreads then m.slots ⟨id, h⟩ else .new

/-- The stack of a thread.  The boot thread has none in its slot. -/
def stackOf (m : Machine) (id : ℕ) : PhysRange := (m.slot id).stack.getD m.bootStack

end Machine

/-! ## Creation of threads -/

/-- `end`. -/
def stackTop (stack : PhysRange) : Checked ℕ := addWord stack.start stack.len

/-- The loop of `free_frames` for `n` frames. -/
def freeFramesFrom : ℕ → ℕ → FrameAllocator → Checked (Except FreeError Unit × FrameAllocator)
  | 0, _, allocator => return (.ok (), allocator)
  | n + 1, address, allocator => do
    let (result, allocator) ← allocator.free ⟨address⟩
    match result with
    | .error e => return (.error e, allocator)
    | .ok () => freeFramesFrom n (← addWord address pageSize) allocator

/-- `free_frames`. -/
def freeFrames (allocator : FrameAllocator) (range : PhysRange) :
    Checked (Except FreeError Unit × FrameAllocator) := do
  let _ ← stackTop range
  freeFramesFrom (divCeil range.len pageSize) range.start allocator

namespace Start

/-- The entry point in the slot. -/
def entry : Start → ℕ
  | kernel entry => entry
  | user entryVa _ => entryVa

/-- Whether it is a user thread. -/
def isUser : Start → Bool
  | kernel _ => false
  | user _ _ => true

/-- The assertions that are made for kernel threads only. -/
def debugAssert (start : Start) (p : Prop) [Decidable p] : Checked Unit :=
  match start with
  | kernel _ => Foundation.debugAssert p
  | user _ _ => return ()

/-- The first frame of a thread. -/
def frame (start : Start) (id top trampoline : ℕ) : IrqFrame :=
  match start with
  | kernel entry =>
    { rdi := entry, rsi := id, vector := yieldVector, rip := trampoline, cs := kernelCode,
      ss := kernelData, rflags := 0x202, rsp := top - 8 }
  | user entryVa userStackTop =>
    { rip := entryVa, rsp := userStackTop, cs := userCode ||| 3, ss := userData ||| 3,
      rflags := 0x202, vector := yieldVector }

end Start

/-- The calls that create a thread. -/
inductive CreateCall where
  | create (entry : ℕ)
  | createUser (entryVa userStackTop : ℕ)
  | createIdle (entry : ℕ)
  deriving DecidableEq, Repr

namespace Machine

/-- The calling thread goes on. -/
def setCall (m : Machine) (caller : ℕ) (call : Call) : Machine :=
  { m with calls := Function.update m.calls caller call }

/-- The scheduler has returned. -/
def registered (m : Machine) (caller : ℕ) (start : Start) : Except SchedError ℕ → Machine
  | .error _ => m.setCall caller (.returned (.error .noFreeSlot))
  | .ok id => { m with unprepared := insert id m.unprepared }.setCall caller (.registered id start)

/-- The first section of `create`, `create_user` and `create_idle`: the scheduler gives the new
thread a number, and for the first two puts it into the ready queue. -/
def beginCall (m : Machine) (caller : ℕ) : CreateCall → Checked Machine
  | .create entry => do
    let (result, sched) ← m.sched.create
    return { m with sched }.registered caller (.kernel entry) result
  | .createUser entryVa userStackTop => do
    let (result, sched) ← m.sched.create
    return { m with sched }.registered caller (.user entryVa userStackTop) result
  | .createIdle entry => do
    let (result, sched) ← m.sched.registerIdleAny
    return { m with sched }.registered caller (.kernel entry) result

/-- The first part of `prepare_stack` and `prepare_user_frame`: the first frame of the thread. -/
def writeFrame (m : Machine) (id : ℕ) (start : Start) (stack : PhysRange) : Checked Machine := do
  start.debugAssert (stack.len = threadStackSize)
  let top ← stackTop stack
  let frameAddress ← subWord top irqFrameSize
  start.debugAssert (stack.start + 8 < frameAddress)
  return { m with
    memory := m.memory.store frameAddress ⟨id, start.frame id top m.trampoline⟩ }

/-- The second part: the slot. -/
def writeSlot (m : Machine) (id : ℕ) (start : Start) (stack : PhysRange) : Checked Machine := do
  let top ← stackTop stack
  let slots ← writeAt m.slots id
    { rsp := ← subWord top irqFrameSize
      thread := id
      stack := some stack
      canaryAddress := stack.start
      entry := start.entry
      user := start.isUser
      kernelStackTop := top }
  return { m with slots, unprepared := m.unprepared.erase id }

/-- The next section of a call under way. -/
def continueCall (m : Machine) (caller : ℕ) : Checked Machine :=
  match m.calls caller with
  | .registered id start => do
    let (result, frames) ← m.frames.allocContiguous threadStackPages
    match result with
    | none => return { m with frames }.setCall caller (.returned (.error .noStack))
    | some stack =>
      start.debugAssert (id < maxThreads)
      return { m with frames }.setCall caller (.stacked id start stack)
  | .stacked id start stack => do
    return (← m.writeFrame id start stack).setCall caller (.framed id start stack)
  | .framed id start stack => do
    return (← m.writeSlot id start stack).setCall caller (.returned (.ok id))
  | _ => return m

/-- A call of `create`, `create_user` or `create_idle` that is not interrupted: all of its
sections. -/
def perform (m : Machine) (caller : ℕ) (call : CreateCall) : Checked Machine := do
  let m ← m.beginCall caller call
  let m ← m.continueCall caller
  let m ← m.continueCall caller
  m.continueCall caller

/-- What the last call of a thread has returned. -/
def result (m : Machine) (caller : ℕ) : Option (Except CreateError ℕ) :=
  match m.calls caller with
  | .returned result => some result
  | _ => none

/-! ## Interrupts -/

/-- `release`: free the stack of a thread and clear its slot. -/
def release (m : Machine) (id : ℕ) : Checked Machine := do
  let slot ← readAt m.slots id
  let slots ← writeAt m.slots id { Slot.new with thread := slot.thread }
  match slot.stack with
  | none => return { m with slots }
  | some stack => do
    let (_, frames) ← freeFrames m.frames stack
    return { m with slots, frames }

/-- `reap_exited`, where the loop makes at most `n` rounds. -/
def reapExited : ℕ → Machine → Checked Machine
  | 0, m => return m
  | n + 1, m => do
    let (thread, sched) ← m.sched.takeReapable
    match thread with
    | none => return { m with sched }
    | some id => reapExited n (← { m with sched }.release id)

/-- `exit_thread`, which `on_syscall` calls, too. -/
def exitThread (m : Machine) : Checked (Decision × Machine) := do
  let (result, sched) ← m.sched.exitCurrent
  match result with
  | .ok decision => return (decision, { m with sched })
  | .error _ => return (.keep, { m with sched })

/-- What `irq_handler` does for the vector of the interrupt. -/
def dispatch (m : Machine) (vector : ℕ) : Checked (Decision × Machine) :=
  if vector = timerVector then do
    let (decision, sched) ← m.sched.onTick preemptionEnabled
    return (decision, { m with sched })
  else if vector = yieldVector then do
    let (decision, sched) ← m.sched.yieldCurrent
    return (decision, { m with sched })
  else if vector = exitVector then m.exitThread
  else if vector = syscallVector then m.exitThread
  else return (.keep, m)

/-- `switch_to`: the value is the `rsp` of the next thread. -/
def switchTo (m : Machine) (previous next address : ℕ) : Checked (ℕ × Machine) := do
  debugAssert (previous < maxThreads)
  debugAssert (next < maxThreads)
  let slots ← writeAt m.slots previous { ← readAt m.slots previous with rsp := address }
  let slot ← readAt slots next
  return (slot.rsp, { m with slots, rsp0 := if slot.user then slot.kernelStackTop else m.rsp0 })

/-- The first part of `irq_handler`: threads that have exited are reaped, then the scheduler
decides.  A table with `maxThreads` entries has been reaped after as many rounds. -/
def irqDecision (m : Machine) (frame : IrqFrame) : Checked (Decision × Machine) := do
  (← reapExited maxThreads m).dispatch (frame.vector % 2 ^ 8)

/-- `irq_handler`, for a frame that has been saved at an address. -/
def irqHandler (m : Machine) (address : ℕ) (frame : IrqFrame) : Checked (ℕ × Machine) := do
  let (decision, m) ← m.irqDecision frame
  match decision with
  | .keep => return (0, m)
  | .switch previous next => m.switchTo previous next address

/-- The processor and the stub save the registers of the thread that is running. -/
def push (m : Machine) (address : ℕ) (frame : IrqFrame) : Machine :=
  match m.running with
  | none => m
  | some id => { m with memory := m.memory.store address ⟨id, frame⟩ }

/-- The processor loads the frame at an address. -/
def pop (m : Machine) (address : ℕ) : Machine :=
  { m with running := (m.memory address).map SavedFrame.thread }

/-- `irq_common`: a result of 0 resumes the frame that was interrupted. -/
def irqCommon (m : Machine) (address : ℕ) (frame : IrqFrame) : Checked Machine := do
  let (rax, m) ← (m.push address frame).irqHandler address frame
  return m.pop (if rax = 0 then address else rax)

/-! ## Runs -/

/-- `init_boot`: the boot thread 0 runs, and there is no other thread. -/
def boot (frames : FrameAllocator) (bootStack : PhysRange) (trampoline : ℕ) : Checked Machine := do
  let (_, sched) ← Scheduler.new.registerBoot 0
  return {
    sched
    slots := fun _ => .new
    frames
    rsp0 := 0
    memory := fun _ => none
    running := some 0
    calls := fun _ => .none
    unprepared := ∅
    bootStack
    trampoline }

end Machine

/-- The steps of a run. -/
inductive Event where
  /-- The running thread calls a function that creates a thread. -/
  | call (call : CreateCall)
  /-- The running thread executes the next section of its call. -/
  | proceed
  /-- An interrupt saves a frame at an address. -/
  | interrupt (address : ℕ) (frame : IrqFrame)

namespace Machine

/-- One step. -/
def step (m : Machine) (e : Event) : Checked Machine :=
  match m.running, e with
  | none, _ => return m
  | some caller, .call call => m.beginCall caller call
  | some caller, .proceed => m.continueCall caller
  | some _, .interrupt address frame => m.irqCommon address frame

/-- Where the processor saves the registers of the running thread: for a user thread on the stack in
`rsp0`, for another one on the stack it is using, which is its own. -/
def SavesAt (m : Machine) (id address : ℕ) : Prop :=
  if (m.slot id).user then address + irqFrameSize = m.rsp0 else OnStack (m.stackOf id) address

instance (m : Machine) (id address : ℕ) : Decidable (m.SavesAt id address) :=
  inferInstanceAs (Decidable (if (m.slot id).user then address + irqFrameSize = m.rsp0
    else OnStack (m.stackOf id) address))

/-- The steps that can be made.  User threads do not call the kernel's functions.  A thread that is
in a call does not execute a software interrupt, and it exits only when there is an idle thread, and
the idle thread never exits. -/
def Allowed (m : Machine) (e : Event) : Prop :=
  ∃ id, m.running = some id ∧
    match e with
    | .call _ => (m.slot id).user = false ∧ (m.calls id).target = none
    | .proceed => (m.calls id).target ≠ none
    | .interrupt address frame =>
      m.SavesAt id address ∧
      (frame.vector % 2 ^ 8 ∈ [yieldVector, exitVector, syscallVector] →
        (m.calls id).target = none) ∧
      (frame.vector % 2 ^ 8 ∈ [exitVector, syscallVector] →
        m.sched.idle ≠ noThread ∧ m.sched.idle ≠ m.sched.current)

instance (m : Machine) : ∀ e, Decidable (m.Allowed e)
  | .call _ => inferInstanceAs (Decidable (∃ _ ∈ m.running, _))
  | .proceed => inferInstanceAs (Decidable (∃ _ ∈ m.running, _))
  | .interrupt _ _ => inferInstanceAs (Decidable (∃ _ ∈ m.running, _))

/-- The thread that an interrupt would switch to. -/
def candidate (m : Machine) (vector : ℕ) : Option ℕ :=
  if vector ∈ [timerVector, yieldVector] then m.sched.readyQueue.head?
  else if vector ∈ [exitVector, syscallVector] then
    some (m.sched.readyQueue.head?.getD m.sched.idle)
  else none

/-- An interrupt does not arrive at a moment when the thread that it would switch to is registered
but not prepared. -/
def Guarded (m : Machine) : Event → Prop
  | .interrupt _ frame => ∀ id ∈ m.candidate (frame.vector % 2 ^ 8), id ∉ m.unprepared
  | _ => True

instance (m : Machine) : ∀ e, Decidable (m.Guarded e)
  | .call _ => .isTrue trivial
  | .proceed => .isTrue trivial
  | .interrupt _ _ => inferInstanceAs (Decidable (∀ _ ∈ _, _))

/-- The slot of a thread has the address of a frame of this thread on its own stack. -/
def Prepared (m : Machine) (id : ℕ) : Prop :=
  (m.slot id).rsp ≠ 0 ∧ (∃ frame, m.memory (m.slot id).rsp = some ⟨id, frame⟩) ∧
    OnStack (m.stackOf id) (m.slot id).rsp

end Machine

end Kernel

end ParanukOS
