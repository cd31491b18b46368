import Mathlib.Logic.Function.Basic
import ParanukOS.Foundation.Checked

/-!
# Locks and critical sections

The embedding of `kernel/src/lock.rs`, of `yield_now` and `exit` of `kernel/src/thread.rs`, and of
the interrupts that can arrive in between, one instruction at a time.

An `Activation` is the code of a thread or of an interrupt handler: the guards that it holds, the
innermost first, and the place inside of a function of `lock.rs`.  Threads and handlers take and
drop guards in a nested way.  A timer interrupt can arrive between any two instructions while the
interrupt flag is set, a software interrupt comes from `yield_now` and `exit`, and both clear the
flag and start a handler on top of the thread.  At its end the handler returns to the thread or to
another one, whose flag was saved with it.  Which thread this is does not matter here, and neither
does what the locks protect: a handler may take any of them.

## Outline

* `Guard`, `Pc`, `Activation`, `Core`: the state.
* `Core.step`, `Core.Enabled`: the steps.
-/

namespace ParanukOS

open Foundation

namespace Kernel

/-! ## The state -/

/-- A guard: a `CriticalSection`, or a `SpinLockGuard` with the one inside of it.  Both remember the
interrupt flag. -/
inductive Guard (Λ : Type) where
  | critical (restore : Bool)
  | lock (l : Λ) (restore : Bool)
  deriving DecidableEq, Repr

/-- The software interrupts that lead to another thread. -/
inductive Leave where
  | yieldNow
  | exit
  deriving DecidableEq, Repr

/-- The place inside of the functions of `lock.rs`; `lock` is the lock to be taken, and none for
`critical`. -/
inductive Pc (Λ : Type) where
  /-- Outside of these functions. -/
  | outside
  /-- `CriticalSection::enter`: the interrupt flag is read next. -/
  | enter (lock : Option Λ)
  /-- The flag has been read, and `cli` comes next if it was set. -/
  | disable (lock : Option Λ) (restore : Bool)
  /-- `SpinLock::lock`: the loop that swaps the flag of the lock. -/
  | swap (l : Λ) (restore : Bool)
  /-- The lock is taken, and `HELD` is incremented next. -/
  | count (l : Λ) (restore : Bool)
  /-- A `SpinLockGuard` is dropped: `HELD` is decremented, and the lock's flag is cleared next. -/
  | store (l : Λ) (restore : Bool)
  /-- A `CriticalSection` is dropped, and `sti` comes next if it was set. -/
  | restore (restore : Bool)
  /-- `yield_now` or `exit`: no lock is held, and the software interrupt comes next. -/
  | int (leave : Leave)
  deriving DecidableEq, Repr

/-- The code of a thread or of a handler. -/
structure Activation (Λ : Type) where
  /-- Where it is. -/
  pc : Pc Λ
  /-- The guards that it holds, the innermost first. -/
  guards : List (Guard Λ)
  /-- What the interrupt flag was before the outermost guard was taken.  No code reads this. -/
  before : Bool
  deriving DecidableEq, Repr

/-- Code that has not started. -/
def Activation.fresh {Λ : Type} : Activation Λ := ⟨.outside, [], false⟩

/-- Code that does not run, and its interrupt flag. -/
structure Suspended (Λ : Type) where
  /-- The code. -/
  activation : Activation Λ
  /-- The interrupt flag in its saved frame. -/
  interruptFlag : Bool
  deriving DecidableEq, Repr

/-- The processor with its threads. -/
structure Core (Λ Τ : Type) where
  /-- The interrupt flag. -/
  interruptFlag : Bool
  /-- `HELD`. -/
  held : ℕ
  /-- The flags of the locks. -/
  locked : Λ → Bool
  /-- The code that runs. -/
  active : Activation Λ
  /-- What the handlers under way have interrupted, and whether it exits. -/
  handlers : List (Suspended Λ × Bool)
  /-- The thread that runs or has been interrupted. -/
  current : Τ
  /-- The other threads. -/
  threads : Τ → Option (Suspended Λ)

/-! ## Steps -/

/-- The steps. -/
inductive LockEvent (Λ Τ : Type) where
  /-- A call of `critical` or of `SpinLock::lock`. -/
  | acquire (lock : Option Λ)
  /-- The innermost guard is dropped. -/
  | drop
  /-- The next instruction of a function of `lock.rs`. -/
  | advance
  /-- A call of `yield_now` or `exit`. -/
  | leave (leave : Leave)
  /-- A timer interrupt. -/
  | timer
  /-- The handler returns, to the thread that was interrupted or to another one. -/
  | iret (next : Option Τ)
  /-- Another thread is created. -/
  | spawn (t : Τ)
  /-- `enable_interrupts`. -/
  | enable
  deriving DecidableEq, Repr

/-- `fetch_add(1)`. -/
def fetchIncrement (n : ℕ) : ℕ := (n + 1) % 2 ^ 64

/-- `fetch_sub(1)`. -/
def fetchDecrement (n : ℕ) : ℕ := (n + (2 ^ 64 - 1)) % 2 ^ 64

namespace Core

variable {Λ Τ : Type}

/-- Interrupts are disabled, no lock is taken, and only one thread is there. -/
def boot (t : Τ) : Core Λ Τ where
  interruptFlag := false
  held := 0
  locked := fun _ => false
  active := .fresh
  handlers := []
  current := t
  threads := fun _ => none

/-- An interrupt: the flag is cleared and the handler starts. -/
def interrupt (s : Core Λ Τ) (a : Activation Λ) (exits : Bool) : Core Λ Τ :=
  { s with
    interruptFlag := false
    active := .fresh
    handlers := (⟨a, s.interruptFlag⟩, exits) :: s.handlers }

/-- The code that runs goes on somewhere else. -/
def goto (s : Core Λ Τ) (pc : Pc Λ) : Core Λ Τ := { s with active := { s.active with pc } }

/-- The code that runs has a new guard. -/
def push (s : Core Λ Τ) (g : Guard Λ) : Core Λ Τ :=
  { s with active := { s.active with pc := .outside, guards := g :: s.active.guards } }

/-- `cli`, if the flag was set. -/
def cli (s : Core Λ Τ) (restore : Bool) : Core Λ Τ :=
  { s with interruptFlag := if restore then false else s.interruptFlag }

/-- `sti`, if the flag was set. -/
def sti (s : Core Λ Τ) (restore : Bool) : Core Λ Τ :=
  { s with interruptFlag := if restore then true else s.interruptFlag }

variable [DecidableEq Λ]

/-- The next instruction. -/
def advance (s : Core Λ Τ) : Core Λ Τ :=
  match s.active.pc with
  | .outside => s
  | .enter lock => s.goto (.disable lock s.interruptFlag)
  | .disable none restore => (s.cli restore).push (.critical restore)
  | .disable (some l) restore => (s.cli restore).goto (.swap l restore)
  | .swap l restore =>
    -- a flag that is set already stays set, and the loop goes on
    if s.locked l then s
    else { s with locked := Function.update s.locked l true }.goto (.count l restore)
  | .count l restore => { s with held := fetchIncrement s.held }.push (.lock l restore)
  | .store l restore =>
    { s with locked := Function.update s.locked l false }.goto (.restore restore)
  | .restore restore => (s.sti restore).goto .outside
  | .int leave => s.interrupt { s.active with pc := .outside } (leave = .exit)

/-- The innermost guard is dropped, up to its first instruction. -/
def dropGuard (s : Core Λ Τ) : Core Λ Τ :=
  match s.active.guards with
  | [] => s
  | .critical restore :: guards =>
    { s with active := { s.active with pc := .restore restore, guards } }
  | .lock l restore :: guards =>
    { s with
      held := fetchDecrement s.held
      active := { s.active with pc := .store l restore, guards } }

variable [DecidableEq Τ]

/-- The end of a handler. -/
def iret (s : Core Λ Τ) (next : Option Τ) : Core Λ Τ :=
  match s.handlers with
  | [] => s
  | (interrupted, exits) :: handlers =>
    match next with
    | none =>
      { s with
        interruptFlag := interrupted.interruptFlag
        active := interrupted.activation
        handlers }
    | some t =>
      match s.threads t with
      | none => s
      | some saved =>
        let left := if exits then none else some interrupted
        { s with
          interruptFlag := saved.interruptFlag
          active := saved.activation
          handlers
          current := t
          threads := Function.update (Function.update s.threads s.current left) t none }

/-- One step; a call of `yield_now` or `exit` stops when a lock is held. -/
def step (s : Core Λ Τ) : LockEvent Λ Τ → Checked (Core Λ Τ)
  | .acquire lock => return { s with active := { s.active with
      pc := .enter lock
      before := if s.active.guards = [] then s.interruptFlag else s.active.before } }
  | .drop => return s.dropGuard
  | .advance => return s.advance
  | .leave leave => if s.held ≠ 0 then .error .assertion else return s.goto (.int leave)
  | .timer => return s.interrupt s.active false
  | .iret next => return s.iret next
  | .spawn t => return { s with threads := Function.update s.threads t (some ⟨.fresh, true⟩) }
  | .enable => return { s with interruptFlag := true }

end Core

/-- The lock of a guard. -/
def Guard.lock? {Λ : Type} : Guard Λ → Option Λ
  | critical _ => none
  | lock l _ => some l

/-- The locks whose guards the code holds. -/
def Activation.locks {Λ : Type} (a : Activation Λ) : List Λ := a.guards.filterMap Guard.lock?

namespace Core

variable {Λ Τ : Type}

/-- The steps that can be made.  Guards are taken and dropped outside of the functions of `lock.rs`,
and no code takes a lock that it holds.  A handler has dropped its guards when it returns, and does
not call `yield_now` or `exit`; interrupts are enabled outside of all guards. -/
def Enabled (s : Core Λ Τ) : LockEvent Λ Τ → Prop
  | .acquire lock => s.active.pc = .outside ∧ ∀ l ∈ lock, l ∉ s.active.locks
  | .drop => s.active.pc = .outside ∧ s.active.guards ≠ []
  | .advance => s.active.pc ≠ .outside
  | .leave _ => s.active.pc = .outside ∧ s.handlers = []
  | .timer => s.interruptFlag = true
  | .iret next => s.active.pc = .outside ∧ s.active.guards = [] ∧ s.handlers ≠ [] ∧
      ∀ t ∈ next, (s.threads t).isSome = true
  | .spawn t => s.handlers = [] ∧ s.threads t = none ∧ t ≠ s.current
  | .enable => s.active.pc = .outside ∧ s.active.guards = [] ∧ s.handlers = []

end Core

end Kernel

end ParanukOS
