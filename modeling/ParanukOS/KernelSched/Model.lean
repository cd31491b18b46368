import ParanukOS.Foundation.Ring

/-!
# The scheduler

The embedding of `kernel-sched/src/lib.rs`: round robin over a ready queue in a ring buffer, an idle
thread outside of the queue, and threads that have exited and wait to be reaped.  Thread numbers are
words, as in the source, with `NO_THREAD` for none; an access of a table with a number that is not
an index stops.
-/

namespace ParanukOS

open Foundation

namespace KernelSched

/-- `MAX_THREADS`. -/
def maxThreads : ℕ := 16

instance : NeZero maxThreads := ⟨by decide⟩

/-- `NO_THREAD`: the largest word. -/
def noThread : ℕ := 2 ^ 64 - 1

/-- The states of a thread. -/
inductive ThreadState where
  | unused
  | ready
  | running
  | exited
  deriving DecidableEq, Repr

/-- The kinds of threads. -/
inductive ThreadKind where
  | normal
  | idle
  | boot
  deriving DecidableEq, Repr

/-- The errors of the scheduler. -/
inductive SchedError where
  | noFreeSlot
  | invalidId (id : ℕ)
  | noCurrentThread
  | idleAlreadyRegistered
  | nothingToRun
  deriving DecidableEq, Repr

/-- A decision of the scheduler. -/
inductive Decision where
  | keep
  | switch (previous next : ℕ)
  deriving DecidableEq, Repr

/-- Statistics. -/
structure SchedStats where
  /-- The number of ticks. -/
  ticks : ℕ
  /-- The number of switches. -/
  switches : ℕ
  /-- The length of the ready queue. -/
  ready : ℕ
  /-- The number of slots in use. -/
  live : ℕ
  deriving DecidableEq, Repr

/-- The scheduler. -/
structure Scheduler where
  /-- The states of all threads. -/
  states : Fin maxThreads → ThreadState
  /-- Their kinds. -/
  kinds : Fin maxThreads → ThreadKind
  /-- The buffer of the ready queue. -/
  queue : Fin maxThreads → ℕ
  /-- The position of its first element. -/
  head : ℕ
  /-- Its length. -/
  len : ℕ
  /-- The thread that is running. -/
  current : ℕ
  /-- The idle thread. -/
  idle : ℕ
  /-- The number of ticks. -/
  ticks : ℕ
  /-- The number of switches. -/
  switches : ℕ

/-- The first slot with the given state (`position`). -/
def firstWith (states : Fin maxThreads → ThreadState) (state : ThreadState) :
    Option (Fin maxThreads) :=
  (List.finRange maxThreads).find? fun id => states id = state

/-- The number of slots in use. -/
def liveCount (states : Fin maxThreads → ThreadState) : ℕ :=
  (List.finRange maxThreads).countP fun id => states id ≠ .unused

namespace Scheduler

/-- `new`. -/
def new : Scheduler where
  states := fun _ => .unused
  kinds := fun _ => .normal
  queue := fun _ => noThread
  head := 0
  len := 0
  current := noThread
  idle := noThread
  ticks := 0
  switches := 0

/-- `enqueue`. -/
def enqueue (self : Scheduler) (id : ℕ) : Checked Scheduler := do
  debugAssert (self.len < maxThreads)
  let queue ← writeAt self.queue ((self.head + self.len) % maxThreads) id
  return { self with queue, len := ← addWord self.len 1 }

/-- `dequeue`. -/
def dequeue (self : Scheduler) : Checked (ℕ × Scheduler) := do
  debugAssert (0 < self.len)
  let id ← readAt self.queue self.head
  let queue ← writeAt self.queue self.head noThread
  return (id, { self with
    queue
    head := (self.head + 1) % maxThreads
    len := ← subWord self.len 1 })

/-- `register_boot`. -/
def registerBoot (self : Scheduler) (id : ℕ) : Checked (Except SchedError Unit × Scheduler) := do
  if maxThreads ≤ id then return (.error (.invalidId id), self)
  let states ← writeAt self.states id .running
  let kinds ← writeAt self.kinds id .boot
  return (.ok (), { self with states, kinds, current := id })

/-- `register_idle`. -/
def registerIdle (self : Scheduler) (id : ℕ) : Checked (Except SchedError Unit × Scheduler) := do
  if maxThreads ≤ id then return (.error (.invalidId id), self)
  if self.idle ≠ noThread then return (.error .idleAlreadyRegistered, self)
  if (← readAt self.states id) ≠ .unused then return (.error (.invalidId id), self)
  let states ← writeAt self.states id .ready
  let kinds ← writeAt self.kinds id .idle
  return (.ok (), { self with states, kinds, idle := id })

/-- `register_idle_any`. -/
def registerIdleAny (self : Scheduler) : Checked (Except SchedError ℕ × Scheduler) :=
  match firstWith self.states .unused with
  | none => return (.error .noFreeSlot, self)
  | some id => do
    let (result, self) ← self.registerIdle id
    match result with
    | .error e => return (.error e, self)
    | .ok () => return (.ok id.val, self)

/-- `create`. -/
def create (self : Scheduler) : Checked (Except SchedError ℕ × Scheduler) :=
  match firstWith self.states .unused with
  | none => return (.error .noFreeSlot, self)
  | some id => do
    let states ← writeAt self.states id .ready
    let kinds ← writeAt self.kinds id .normal
    let self ← { self with states, kinds }.enqueue id
    return (.ok id.val, self)

/-- The last part of `rotate`: the first thread of the queue runs. -/
def switchToFirst (self : Scheduler) (previous : ℕ) : Checked (Decision × Scheduler) := do
  let (next, self) ← self.dequeue
  let states ← writeAt self.states next .running
  return (.switch previous next,
    { self with states, current := next, switches := ← addWord self.switches 1 })

/-- `rotate`. -/
def rotate (self : Scheduler) : Checked (Decision × Scheduler) := do
  let previous := self.current
  if previous = noThread then return (.keep, self)
  let isIdle := (← readAt self.kinds previous) = .idle
  if self.len = 0 then return (.keep, self)
  let states ← writeAt self.states previous .ready
  let self := { self with states }
  if isIdle then self.switchToFirst previous
  else (← self.enqueue previous).switchToFirst previous

/-- `on_tick`. -/
def onTick (self : Scheduler) (reschedule : Bool) : Checked (Decision × Scheduler) := do
  let self := { self with ticks := ← addWord self.ticks 1 }
  if !reschedule then return (.keep, self)
  self.rotate

/-- `yield_current`. -/
def yieldCurrent (self : Scheduler) : Checked (Decision × Scheduler) := self.rotate

/-- `pick_after_stop`. -/
def pickAfterStop (self : Scheduler) : Checked (Except SchedError ℕ × Scheduler) := do
  if 0 < self.len then
    let (next, self) ← self.dequeue
    let states ← writeAt self.states next .running
    return (.ok next, { self with states })
  if self.idle ≠ noThread then
    let states ← writeAt self.states self.idle .running
    return (.ok self.idle, { self with states })
  return (.error .nothingToRun, self)

/-- `exit_current`. -/
def exitCurrent (self : Scheduler) : Checked (Except SchedError Decision × Scheduler) := do
  let previous := self.current
  if previous = noThread then return (.error .noCurrentThread, self)
  let states ← writeAt self.states previous .exited
  let (picked, self) ← { self with states }.pickAfterStop
  match picked with
  | .error e => return (.error e, self)
  | .ok next =>
    return (.ok (.switch previous next),
      { self with current := next, switches := ← addWord self.switches 1 })

/-- `take_reapable`. -/
def takeReapable (self : Scheduler) : Checked (Option ℕ × Scheduler) :=
  match firstWith self.states .exited with
  | none => return (none, self)
  | some id => do
    let states ← writeAt self.states id .unused
    let kinds ← writeAt self.kinds id .normal
    return (some id.val, { self with states, kinds })

/-- `stats`. -/
def stats (self : Scheduler) : SchedStats where
  ticks := self.ticks
  switches := self.switches
  ready := self.len
  live := liveCount self.states

/-- `ready_queue`. -/
def readyQueue (self : Scheduler) : List ℕ := ringList self.queue self.head self.len

end Scheduler

end KernelSched

end ParanukOS
