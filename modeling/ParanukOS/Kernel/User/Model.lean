import ParanukOS.Kernel.Memory.Model
import ParanukOS.Kernel.Thread.Model

/-!
# The user service

The embedding of `kernel/src/user.rs`: the user image and a stack are mapped, and a thread is
created that runs it.  The system call of the service ends its thread; it is the interrupt with the
system call vector of `Machine.dispatch`.  The counters for the self-check are left out.
-/

namespace ParanukOS

open Foundation KernelMemory KernelSched

namespace Kernel

/-- `USER_STACK_PAGES`. -/
def userStackPages : ℕ := 4

/-- `USER_STACK_VA`. -/
def userStackVa : ℕ := userBase + 0x200000

/-- The reasons for which the service is not started. -/
inductive UserInitError where
  | noUserImage
  | noStack
  | map (e : UserMapError)
  | thread (e : CreateError)
  deriving DecidableEq, Repr

/-- The mapping of the user image. -/
def imageMapping (info : BootInfo) : Mapping where
  vaddr := info.userVaddr.toNat
  paddr := info.userPhys.toNat
  size := info.userSize.toNat
  writable := false

/-- The mapping of the user stack. -/
def stackMapping (stack : PhysRange) : Mapping where
  vaddr := userStackVa
  paddr := stack.start
  size := userStackPages * 4096
  writable := true

/-- The first part of `init`: the stack is allocated, and both are mapped. -/
def mapImage (info : BootInfo) (frames : FrameAllocator) (arena : TableArena) :
    Checked (Except UserInitError (PhysRange × Mapped) × FrameAllocator × TableArena) := do
  if !info.hasUserImage then return (.error .noUserImage, frames, arena)
  else
    let (stack, frames) ← frames.allocContiguous userStackPages
    match stack with
    | none => return (.error .noStack, frames, arena)
    | some stack =>
      let (result, arena) ← mapUserRegion arena 0 (kernelTablePages * pageSize)
        [imageMapping info, stackMapping stack]
      match result with
      | .error e => return (.error (.map e), frames, arena)
      | .ok mapped => return (.ok (stack, mapped), frames, arena)

/-- The threads, the page tables and the thread of the service. -/
structure System where
  /-- The threads. -/
  machine : Machine
  /-- The page tables (`PAGE_ARENA`). -/
  arena : TableArena
  /-- The thread of the service (`SERVICE`). -/
  service : Option ℕ

/-- `init`.  The current thread creates the thread of the service. -/
def System.init (self : System) (info : BootInfo) :
    Checked (Except UserInitError ℕ × System) := do
  let (result, frames, arena) ← mapImage info self.machine.frames self.arena
  let self := { self with machine := { self.machine with frames }, arena }
  match result with
  | .error e => return (.error e, self)
  | .ok _ =>
    let caller := self.machine.sched.current
    let machine ← self.machine.perform caller
      (.createUser info.userEntry.toNat (userStackVa + 4096 * userStackPages))
    match machine.result caller with
    | some (.ok id) => return (.ok id, { self with machine, service := some id })
    | some (.error e) => return (.error (.thread e), { self with machine })
    -- a call that is not interrupted has always returned
    | none => return (.error (.thread .noStack), { self with machine })

end Kernel

end ParanukOS
