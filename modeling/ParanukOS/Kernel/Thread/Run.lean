import ParanukOS.Foundation.Simulation
import ParanukOS.Kernel.Thread.Invariant

/-!
# Interrupts during the creation of threads

A thread is registered with the scheduler before it has a stack and before its slot is written.  An
interrupt that arrives in between can switch to it, and then `irq_handler` returns the 0 of the
empty slot, which means something else to `irq_common`: it resumes the thread that was interrupted,
while the scheduler takes the new thread for the current one.

The main theorem says when this does not happen.  Along every run in which no interrupt arrives
while the thread that it would switch to is not prepared, a switch always goes to a thread with a
saved frame on its own stack, and the processor executes the current thread of the scheduler; an
interrupt at such a moment is exactly what breaks it.

## Outline

* `Moved`, `dispatch_spec`: the decision of the scheduler.
* `Inv.beginCall`, `Inv.continueCall`, `Inv.interrupt`: the steps.
* `interrupt_safe_iff_guarded`: the main theorem, and `create_interrupted`, the failure.
-/

namespace ParanukOS

open Foundation KernelMemory KernelSched FrameAllocator

namespace Kernel

variable {map : MemoryMap} {a₀ : FrameAllocator} {S : Finset ℕ} {place : ThreadId → Option ℕ}
  {a a' : AbstractSched} {m : Machine}

/-! ## The decision -/

/-- What a decision of the scheduler does: the current thread stays, or it is left in another state
and the candidate, which was ready, runs. -/
def Moved (a a' : AbstractSched) (decision : Decision) (candidate : Option ℕ) : Prop :=
  decision = .keep ∧ candidate = none ∧ a'.states = a.states ∧ a'.current = a.current ∨
  ∃ (next : ThreadId) (left : ThreadState), decision = .switch a.current next ∧
    candidate = some next.val ∧ a.states next = .ready ∧ (left = .ready ∨ left = .exited) ∧
    a'.states = Function.update (Function.update a.states a.current left) next .running ∧
    a'.current = next

lemma moved_rotate (h : Valid a) :
    Moved a a.rotate.2 a.rotate.1 (a.queue.map Fin.val).head? := by
  rw [AbstractSched.rotate]
  cases hqueue : a.queue with
  | nil => exact .inl ⟨rfl, rfl, rfl, rfl⟩
  | cons next rest =>
    have hnext := ((h.mem_queue_iff next).mp (by rw [hqueue]; exact List.mem_cons_self)).1
    exact .inr ⟨next, .ready, rfl, rfl, hnext, .inl rfl, rfl, rfl⟩

lemma moved_exit (h : Valid a) (hallowed : a.Allowed .exitCurrent) : ∃ decision,
    a.exitCurrent.1 = .ok decision ∧ Moved a a.exitCurrent.2 decision
      (some ((a.queue.map Fin.val).head?.getD (idleId a.idle))) := by
  rw [AbstractSched.exitCurrent]
  cases hqueue : a.queue with
  | cons next rest =>
    have hnext := ((h.mem_queue_iff next).mp (by rw [hqueue]; exact List.mem_cons_self)).1
    exact ⟨_, rfl, .inr ⟨next, .exited, rfl, rfl, hnext, .inr rfl, rfl, rfl⟩⟩
  | nil =>
    cases hidle : a.idle with
    | none => exact absurd hidle hallowed.1
    | some next =>
      have hnext : a.states next = .ready := by
        refine (h.idle_state next hidle).resolve_right fun hcon => ?_
        exact hallowed.2 (hidle.trans (congrArg some ((h.running_iff next).mp hcon)))
      exact ⟨_, rfl, .inr ⟨next, .exited, rfl, rfl, hnext, .inr rfl, rfl, rfl⟩⟩

/-- A decision of the scheduler, unless a counter overflows. -/
def Decides (m : Machine) (a : AbstractSched) (x : Checked (Decision × Machine))
    (candidate : Option ℕ) : Prop :=
  (∃ decision sched a', x = .ok (decision, { m with sched }) ∧ Refines sched a' ∧ Valid a' ∧
    Moved a a' decision candidate) ∨ x = .error .overflow ∧ CounterFull m.sched

lemma exitThread_spec (hrefines : Refines m.sched a) (hvalid : Valid a)
    (hidle : m.sched.idle ≠ noThread ∧ m.sched.idle ≠ m.sched.current) :
    Decides m a m.exitThread (some (m.sched.readyQueue.head?.getD m.sched.idle)) := by
  have hallowed := hrefines.allowed_exitCurrent hidle
  obtain ⟨decision, hdecision, hmoved⟩ := moved_exit hvalid hallowed
  rw [hrefines.readyQueue_eq, hrefines.idle_eq, Machine.exitThread]
  rcases hrefines.exitCurrent hvalid hallowed with ⟨sched, heq, hsched⟩ | ⟨heq, hfull⟩
  · refine .inl ⟨decision, sched, _, ?_, hsched, hvalid.exitCurrent hallowed, hmoved⟩
    rw [heq, hdecision]
    rfl
  · exact .inr ⟨by rw [heq]; rfl, .inr hfull⟩

/-- What the handler decides. -/
lemma dispatch_spec (hrefines : Refines m.sched a) (hvalid : Valid a) {vector : ℕ}
    (hexit : vector ∈ [exitVector, syscallVector] →
      m.sched.idle ≠ noThread ∧ m.sched.idle ≠ m.sched.current) :
    Decides m a (m.dispatch vector) (m.candidate vector) := by
  rw [Machine.dispatch]
  by_cases htimer : vector = timerVector
  · subst htimer
    rw [if_pos rfl, Machine.candidate, if_pos (by decide), hrefines.readyQueue_eq]
    have hticks : Valid { a with ticks := a.ticks + 1 } :=
      ⟨hvalid.running_iff, hvalid.nodup, hvalid.mem_queue_iff, hvalid.idle_state⟩
    rcases hrefines.onTick hvalid true with ⟨sched, heq, hsched⟩ | ⟨heq, hfull⟩
    · exact .inl ⟨_, sched, _, by rw [preemptionEnabled, heq]; rfl, hsched, hticks.rotate,
        moved_rotate hticks⟩
    · exact .inr ⟨by rw [preemptionEnabled, heq]; rfl, hfull⟩
  rw [if_neg htimer]
  by_cases hyield : vector = yieldVector
  · subst hyield
    rw [if_pos rfl, Machine.candidate, if_pos (by decide), hrefines.readyQueue_eq,
      Scheduler.yieldCurrent]
    rcases hrefines.rotate hvalid with ⟨sched, heq, hsched⟩ | ⟨heq, hfull⟩
    · exact .inl ⟨_, sched, _, by rw [heq]; rfl, hsched, hvalid.rotate, moved_rotate hvalid⟩
    · exact .inr ⟨by rw [heq]; rfl, .inr hfull⟩
  rw [if_neg hyield]
  have hnot : vector ∉ [timerVector, yieldVector] := by simp [htimer, hyield]
  rw [Machine.candidate, if_neg hnot]
  by_cases hstop : vector ∈ [exitVector, syscallVector]
  · rw [if_pos hstop]
    have hspec := exitThread_spec hrefines hvalid (hexit hstop)
    split_ifs with h1 h2
    · exact hspec
    · exact hspec
    · simp [h1, h2] at hstop
  · simp only [List.mem_cons, List.not_mem_nil, or_false, not_or] at hstop
    rw [if_neg hstop.1, if_neg hstop.2, if_neg (by simp [hstop.1, hstop.2])]
    exact .inl ⟨.keep, m.sched, a, rfl, hrefines, hvalid, .inl ⟨rfl, rfl, rfl, rfl⟩⟩

/-! ## Steps of calls -/

lemma Start.debugAssert_of (start : Start) {p : Prop} [Decidable p] (h : p) :
    start.debugAssert p = .ok () := by
  cases start with
  | kernel entry => exact Foundation.debugAssert_of h
  | user entryVa userStackTop => rfl

/-- The first frame fits below the end of the stack. -/
lemma subWord_stackTop (a₀ : FrameAllocator) (k : ℕ) :
    subWord (a₀.addressOf (k + threadStackPages)) irqFrameSize =
      .ok (firstFrame (stackAt a₀ k)) := by
  rw [firstFrame, stackAt_stop]
  refine subWord_of_le ?_
  rw [addressOf_add]
  exact le_trans (by decide) (Nat.le_add_left _ _)

/-- Whether the new thread is the idle thread. -/
def CreateCall.isIdle : CreateCall → Bool
  | createIdle _ => true
  | _ => false

/-- Where the new thread starts. -/
def CreateCall.start : CreateCall → Start
  | create entry => .kernel entry
  | createUser entryVa userStackTop => .user entryVa userStackTop
  | createIdle entry => .kernel entry

namespace Machine

variable {caller : ℕ} {start : Start}

/-- The first section of a call: the scheduler refuses the thread, or an unused thread is ready
afterwards. -/
lemma beginCall_cases (hrefines : Refines m.sched a) (hvalid : Valid a) (caller : ℕ)
    (call : CreateCall) : ∃ (sched : Scheduler) (a' : AbstractSched) (r : Except SchedError ℕ),
      m.beginCall caller call = .ok ({ m with sched }.registered caller call.start r) ∧
      Refines sched a' ∧ Valid a' ∧
      ((∃ e, r = .error e) ∧ a' = a ∨ ∃ i : ThreadId, r = .ok i.val ∧ a.states i = .unused ∧
        a'.states = Function.update a.states i .ready ∧ a'.current = a.current ∧
        a'.idle = if call.isIdle then some i else a.idle) := by
  -- `create` and `create_user` register a thread in the same way
  have hcreate : ∃ r sched a', m.sched.create = .ok (r, sched) ∧ Refines sched a' ∧ Valid a' ∧
      ((∃ e, r = .error e) ∧ a' = a ∨ ∃ i : ThreadId, r = .ok i.val ∧ a.states i = .unused ∧
        a'.states = Function.update a.states i .ready ∧ a'.current = a.current ∧
        a'.idle = a.idle) := by
    obtain ⟨sched, heq, hrefines'⟩ := hrefines.create hvalid
    rw [AbstractSched.create] at hrefines' heq
    cases hid : firstWith a.states .unused with
    | none =>
      rw [hid] at hrefines' heq
      exact ⟨_, sched, a, heq, hrefines', hvalid, .inl ⟨⟨_, rfl⟩, rfl⟩⟩
    | some i =>
      have hstate := state_of_firstWith hid
      rw [hid] at hrefines' heq
      exact ⟨_, sched, _, heq, hrefines', hvalid.create hstate,
        .inr ⟨i, rfl, hstate, rfl, rfl, rfl⟩⟩
  cases call with
  | create entry =>
    obtain ⟨r, sched, a', heq, hcases⟩ := hcreate
    exact ⟨sched, a', r, by rw [beginCall, heq]; rfl, hcases⟩
  | createUser entryVa userStackTop =>
    obtain ⟨r, sched, a', heq, hcases⟩ := hcreate
    exact ⟨sched, a', r, by rw [beginCall, heq]; rfl, hcases⟩
  | createIdle entry =>
    obtain ⟨sched, heq, hrefines'⟩ := hrefines.registerIdleAny
    refine ⟨sched, _, _, by rw [beginCall, heq]; rfl, hrefines', ?_⟩
    rw [AbstractSched.registerIdleAny]
    cases hid : firstWith a.states .unused with
    | none => exact ⟨hvalid, .inl ⟨⟨_, rfl⟩, rfl⟩⟩
    | some i =>
      have hstate := state_of_firstWith hid
      dsimp only
      by_cases hidle : a.idle = none
      · rw [if_neg (not_not.mpr hidle)]
        exact ⟨hvalid.addIdle hidle hstate, .inr ⟨i, rfl, hstate, rfl, rfl, rfl⟩⟩
      · rw [if_pos hidle]
        exact ⟨hvalid, .inl ⟨⟨_, rfl⟩, rfl⟩⟩

/-- A call finds no memory for a stack. -/
lemma continueCall_noStack {id : ℕ} (hcall : m.calls caller = .registered id start)
    {frames : FrameAllocator}
    (heq : m.frames.allocContiguous threadStackPages = .ok (none, frames)) :
    m.continueCall caller =
      .ok ({ m with frames }.setCall caller (.returned (.error .noStack))) := by
  simp only [continueCall, hcall, heq, Checked.ok_bind]
  rfl

/-- A call gets a stack. -/
lemma continueCall_registered {i : ThreadId} (hcall : m.calls caller = .registered i.val start)
    {stack : PhysRange} {frames : FrameAllocator}
    (heq : m.frames.allocContiguous threadStackPages = .ok (some stack, frames)) :
    m.continueCall caller = .ok ({ m with frames }.setCall caller
      (.stacked i.val start stack)) := by
  simp only [continueCall, hcall, heq, Checked.ok_bind, start.debugAssert_of i.isLt]
  rfl

/-- A call writes the first frame. -/
lemma continueCall_stacked {id k : ℕ} (hcall : m.calls caller = .stacked id start (stackAt a₀ k))
    (htop : stackTop (stackAt a₀ k) = .ok (a₀.addressOf (k + threadStackPages))) :
    m.continueCall caller = .ok ({ m with
      memory := m.memory.store (firstFrame (stackAt a₀ k))
        ⟨id, start.frame id (a₀.addressOf (k + threadStackPages)) m.trampoline⟩
    }.setCall caller (.framed id start (stackAt a₀ k))) := by
  have hsize : (stackAt a₀ k).len = threadStackSize := rfl
  have hroom : (stackAt a₀ k).start + 8 < firstFrame (stackAt a₀ k) := by
    rw [firstFrame, hsize]
    exact Nat.lt_sub_of_add_lt (by
      rw [Nat.add_assoc]
      exact Nat.add_lt_add_left (by decide) _)
  simp only [continueCall, hcall, writeFrame, start.debugAssert_of hsize, htop, subWord_stackTop,
    start.debugAssert_of hroom, Checked.ok_bind]
  rfl

/-- A call writes the slot. -/
lemma continueCall_framed {i : ThreadId} {k : ℕ}
    (hcall : m.calls caller = .framed i.val start (stackAt a₀ k))
    (htop : stackTop (stackAt a₀ k) = .ok (a₀.addressOf (k + threadStackPages))) :
    m.continueCall caller = .ok ({ m with
      slots := Function.update m.slots i
        { rsp := firstFrame (stackAt a₀ k)
          thread := i.val
          stack := some (stackAt a₀ k)
          canaryAddress := (stackAt a₀ k).start
          entry := start.entry
          user := start.isUser
          kernelStackTop := a₀.addressOf (k + threadStackPages) }
      unprepared := m.unprepared.erase i.val
    }.setCall caller (.returned (.ok i.val))) := by
  simp only [continueCall, hcall, writeSlot, htop, subWord_stackTop, writeAt_val, Checked.ok_bind]
  rfl

/-- Nothing is left to be done. -/
lemma continueCall_returned {result : Except CreateError ℕ}
    (hcall : m.calls caller = .returned result) : m.continueCall caller = .ok m := by
  simp only [continueCall, hcall]
  rfl

end Machine

namespace Inv

/-- A call of `create` or one of the other two begins. -/
lemma beginCall (h : Inv a₀ S place a m) (caller : ℕ) (call : CreateCall) :
    ∃ m' a', m.beginCall caller call = .ok m' ∧ Inv a₀ S place a' m' := by
  obtain ⟨sched, a', r, heq, hrefines, hvalid, hcases⟩ :=
    Machine.beginCall_cases h.refines h.valid caller call
  rcases hcases with ⟨⟨e, rfl⟩, rfl⟩ | ⟨i, rfl, hunused, hstates, hcurrent, -⟩
  · exact ⟨_, _, heq, h.fail hrefines caller .noFreeSlot⟩
  · exact ⟨_, a', heq, h.register hrefines hvalid hunused hstates hcurrent caller call.start⟩

/-- The next section of a call. -/
lemma continueCall (hfresh : Fresh map a₀) (h : Inv a₀ S place a m) (caller : ℕ) :
    ∃ m' S' place', m.continueCall caller = .ok m' ∧ Inv a₀ S' place' a m' := by
  have hok := h.calls.call_ok caller
  cases hcall : m.calls caller with
  | none => exact ⟨m, S, place, by rw [Machine.continueCall, hcall]; rfl, h⟩
  | returned result => exact ⟨m, S, place, Machine.continueCall_returned hcall, h⟩
  | registered id start =>
    rw [hcall] at hok
    obtain ⟨i, rfl, -⟩ := h.calls.unprepared_ready id hok
    rcases h.layout.alloc hfresh i with heq | ⟨k, frames, heq, hlayout, -⟩
    · exact ⟨_, S, place, Machine.continueCall_noStack hcall heq, h.fail h.refines caller .noStack⟩
    · exact ⟨_, _, _, Machine.continueCall_registered hcall heq, h.stacked hcall hlayout⟩
  | stacked id start stack =>
    rw [hcall] at hok
    obtain ⟨-, i, k, rfl, hk, rfl⟩ := hok
    exact ⟨_, S, place, Machine.continueCall_stacked hcall (h.layout.stackTop_eq hk),
      h.framed hcall hk _⟩
  | framed id start stack =>
    rw [hcall] at hok
    obtain ⟨-, ⟨i, k, rfl, hk, rfl⟩, -⟩ := hok
    exact ⟨_, S, place, Machine.continueCall_framed hcall (h.layout.stackTop_eq hk),
      h.prepared hcall hk rfl rfl (stackAt_stop a₀ k).symm⟩

end Inv

/-! ## Interrupts -/

lemma candidate_congr {m m' : Machine} (hqueue : m'.sched.readyQueue = m.sched.readyQueue)
    (hidle : m'.sched.idle = m.sched.idle) (vector : ℕ) :
    m'.candidate vector = m.candidate vector := by
  rw [Machine.candidate, Machine.candidate, hqueue, hidle]

/-- `switch_to` for two different threads. -/
lemma switchTo_eq (m : Machine) {previous next : ThreadId} (hne : next ≠ previous) (address : ℕ) :
    m.switchTo previous next address = .ok ((m.slots next).rsp, { m with
      slots := Function.update m.slots previous { m.slots previous with rsp := address }
      rsp0 := if (m.slots next).user then (m.slots next).kernelStackTop else m.rsp0 }) := by
  rw [Machine.switchTo, debugAssert_of previous.isLt, debugAssert_of next.isLt]
  simp only [readAt_val, writeAt_val, Checked.ok_bind, Function.update_of_ne hne]
  rfl

namespace Inv

/-- The first part of the handler: threads are reaped and the scheduler decides. -/
lemma irqDecision (hfresh : Fresh map a₀) (h : Inv a₀ S place a m) {address : ℕ} {frame : IrqFrame}
    (haddress : OnStack (m.stackOf a.current) address)
    (hexit : frame.vector % 2 ^ 8 ∈ [exitVector, syscallVector] →
      m.sched.idle ≠ noThread ∧ m.sched.idle ≠ m.sched.current) :
    (∃ decision m₁ S' place' a₁ sched a',
      (m.push address frame).irqDecision frame = .ok (decision, { m₁ with sched }) ∧
      Inv a₀ S' place' a₁ m₁ ∧ Reaped a a₁ (m.push address frame) m₁ ∧ Refines sched a' ∧ Valid a' ∧
      Moved a₁ a' decision (m.candidate (frame.vector % 2 ^ 8))) ∨
    (m.push address frame).irqDecision frame = .error .overflow ∧ CounterFull m.sched := by
  have hcard : (Finset.univ.filter fun i => a.states i = .exited).card ≤ maxThreads :=
    (Finset.card_le_univ _).trans (Fintype.card_fin maxThreads).le
  obtain ⟨m₁, S', place', a₁, hreap, h₁, hreaped, -⟩ :=
    (h.push haddress frame).reapExited hfresh hcard
  -- the scheduler looks the same as before reaping, except for the states of exited threads
  have hidle : m₁.sched.idle = m.sched.idle := by
    rw [h₁.refines.idle_eq, h.refines.idle_eq, hreaped.idle_eq]
  have hcurrent : m₁.sched.current = m.sched.current := by
    rw [h₁.refines.current_eq, h.refines.current_eq, hreaped.current_eq]
  have hqueue : m₁.sched.readyQueue = m.sched.readyQueue := by
    rw [h₁.refines.readyQueue_eq, h.refines.readyQueue_eq, hreaped.queue_eq]
  have hticks : m₁.sched.ticks = m.sched.ticks := by
    rw [h₁.refines.ticks_eq, h.refines.ticks_eq, hreaped.ticks_eq]
  have hswitches : m₁.sched.switches = m.sched.switches := by
    rw [h₁.refines.switches_eq, h.refines.switches_eq, hreaped.switches_eq]
  have hdecides : Decides m₁ a₁ (m₁.dispatch (frame.vector % 2 ^ 8))
      (m₁.candidate (frame.vector % 2 ^ 8)) :=
    dispatch_spec h₁.refines h₁.valid (by rwa [hidle, hcurrent])
  rw [Machine.irqDecision, hreap, Checked.ok_bind]
  rw [candidate_congr hqueue hidle] at hdecides
  rcases hdecides with ⟨decision, sched, a', heq, hrefines, hvalid, hmoved⟩ | ⟨heq, hfull⟩
  · exact .inl ⟨decision, m₁, S', place', a₁, sched, a', heq, h₁, hreaped, hrefines, hvalid, hmoved⟩
  · refine .inr ⟨heq, ?_⟩
    rwa [CounterFull, hticks, hswitches] at hfull

/-- An interrupt.  When it is guarded, the invariant holds again; otherwise the handler switches to
a thread that is not prepared, and returns 0. -/
lemma interrupt (hfresh : Fresh map a₀) (h : Inv a₀ S place a m) {address : ℕ} {frame : IrqFrame}
    (haddress : OnStack (m.stackOf a.current) address)
    (hexit : frame.vector % 2 ^ 8 ∈ [exitVector, syscallVector] →
      m.sched.idle ≠ noThread ∧ m.sched.idle ≠ m.sched.current) :
    (∃ decision m₁ rax m₂,
      (m.push address frame).irqDecision frame = .ok (decision, m₁) ∧
      (m.push address frame).irqHandler address frame = .ok (rax, m₂) ∧
      (m.Guarded (.interrupt address frame) →
        (∀ previous next, decision = .switch previous next → m₁.Prepared next) ∧
        (rax = 0 ↔ decision = .keep) ∧
        ∃ S' place' a', Inv a₀ S' place' a' (m₂.pop (if rax = 0 then address else rax))) ∧
      (¬ m.Guarded (.interrupt address frame) → rax = 0 ∧ decision ≠ .keep)) ∨
    (m.push address frame).irqHandler address frame = .error .overflow ∧ CounterFull m.sched := by
  rcases h.irqDecision hfresh haddress hexit with
    ⟨decision, m₁, S', place', a₁, sched, a', heq, h₁, hreaped, hrefines, hvalid, hmoved⟩ |
    ⟨heq, hfull⟩
  swap
  · exact .inr ⟨by rw [Machine.irqHandler, heq]; rfl, hfull⟩
  have hmemory : m₁.memory address = some ⟨a₁.current.val, frame⟩ := by
    rw [hreaped.memory_eq, h.push_eq, hreaped.current_eq]
    exact store_self _ _ _
  have haddress₁ : OnStack (m₁.stackOf a₁.current) address := by
    rw [hreaped.current_eq, hreaped.stackOf_eq, h.push_eq]
    exact haddress
  have hunprepared : m₁.unprepared = m.unprepared := by
    rw [hreaped.unprepared_eq, h.push_eq]
  refine .inl ?_
  rw [Machine.irqHandler, heq, Checked.ok_bind]
  rcases hmoved with ⟨rfl, hcandidate, hstates, hcurrent⟩ |
    ⟨next, left, rfl, hcandidate, hready, hleft, hstates, hcurrent⟩
  · refine ⟨.keep, _, 0, _, rfl, rfl, fun _ => ⟨?_, ?_, S', place', a', ?_⟩,
      fun hcon => absurd (fun id hid => ?_) hcon⟩
    · intro previous next hcon
      cases hcon
    · exact iff_of_true rfl rfl
    · have hpop : ({ m₁ with sched } : Machine).pop (if (0 : ℕ) = 0 then address else 0) =
          { m₁ with sched } := by
        rw [if_pos rfl, Machine.pop, hmemory, Option.map_some, ← h₁.running]
      rw [hpop]
      exact h₁.keep hrefines hvalid hstates hcurrent
    · rw [hcandidate] at hid
      cases hid
  · have hne : next ≠ a₁.current := by
      rintro rfl
      rw [h₁.current_state] at hready
      cases hready
    refine ⟨_, _, _, _, rfl, switchTo_eq _ hne address, fun hguarded => ?_, fun hcon => ?_⟩
    · have hprepared : next.val ∉ m₁.unprepared := by
        rw [hunprepared]
        exact hguarded _ hcandidate
      have hsaved := h₁.slots.saved next hready hprepared
      obtain ⟨hrsp, ⟨saved, hframe⟩, -⟩ := (m₁.prepared_iff next).mp hsaved
      refine ⟨?_, ?_, S', place', a', ?_⟩
      · intro previous next' heq'
        cases heq'
        exact hsaved
      · exact iff_of_false hrsp (by simp)
      · rw [if_neg hrsp, Machine.pop]
        simp only [hframe, Option.map_some]
        exact h₁.switch haddress₁ hmemory hready hprepared hleft hrefines hvalid hstates hcurrent
    · have hmem : next.val ∈ m₁.unprepared := by
        by_contra hnot
        refine hcon fun id hid => ?_
        rw [hcandidate] at hid
        obtain rfl := Option.some.inj hid
        rwa [← hunprepared]
      exact ⟨(h₁.slots.cleared next (.inr hmem)).1, by simp⟩

end Inv

/-! ## Runs -/

/-- The steps of a run in which every interrupt is guarded. -/
def GuardedStep (m m' : Machine) : Prop :=
  ∃ e, m.Allowed e ∧ m.Guarded e ∧ m.step e = .ok m'

/-- What is expected of an interrupt: a thread that is switched to has the address of a saved frame
on its own stack in its slot, the handler returns 0 exactly when the scheduler keeps the current
thread, and afterwards the processor executes the current thread of the scheduler. -/
def SafeInterrupt (m : Machine) (address : ℕ) (frame : IrqFrame) : Prop :=
  ∃ decision m₁ rax m₂ m₃,
    (m.push address frame).irqDecision frame = .ok (decision, m₁) ∧
    (m.push address frame).irqHandler address frame = .ok (rax, m₂) ∧
    m.irqCommon address frame = .ok m₃ ∧
    (∀ previous next, decision = .switch previous next → m₁.Prepared next) ∧
    (rax = 0 ↔ decision = .keep) ∧ m₃.running = some m₃.sched.current

namespace Inv

/-- The processor executes the current thread of the scheduler. -/
lemma running_eq (h : Inv a₀ S place a m) : m.running = some m.sched.current := by
  rw [h.running, h.refines.current_eq]

/-- The conditions under which an interrupt arrives. -/
lemma of_allowed_interrupt (h : Inv a₀ S place a m) {address : ℕ} {frame : IrqFrame}
    (hallowed : m.Allowed (.interrupt address frame)) :
    OnStack (m.stackOf a.current) address ∧
      (frame.vector % 2 ^ 8 ∈ [exitVector, syscallVector] →
        m.sched.idle ≠ noThread ∧ m.sched.idle ≠ m.sched.current) := by
  obtain ⟨id, hid, hsaves, -, hexit⟩ := hallowed
  rw [h.running] at hid
  obtain rfl := Option.some.inj hid
  exact ⟨h.onStack_of_savesAt hsaves, hexit⟩

/-- Every step returns, unless a counter of the scheduler overflows; a guarded one keeps the
invariant. -/
lemma step (hfresh : Fresh map a₀) (h : Inv a₀ S place a m) {e : Event} (hallowed : m.Allowed e) :
    (∃ m', m.step e = .ok m' ∧ (m.Guarded e → ∃ S' place' a', Inv a₀ S' place' a' m')) ∨
      m.step e = .error .overflow ∧ CounterFull m.sched := by
  unfold Machine.step
  rw [h.running]
  cases e with
  | call call =>
    obtain ⟨m', a', heq, h'⟩ := h.beginCall a.current call
    exact .inl ⟨m', heq, fun _ => ⟨S, place, a', h'⟩⟩
  | proceed =>
    obtain ⟨m', S', place', heq, h'⟩ := h.continueCall hfresh a.current
    exact .inl ⟨m', heq, fun _ => ⟨S', place', a, h'⟩⟩
  | interrupt address frame =>
    obtain ⟨haddress, hexit⟩ := h.of_allowed_interrupt hallowed
    simp only [Machine.irqCommon]
    rcases h.interrupt hfresh haddress hexit with
      ⟨decision, m₁, rax, m₂, -, heq, hguarded, -⟩ | ⟨heq, hfull⟩
    · exact .inl ⟨_, by rw [heq]; rfl, fun hg => (hguarded hg).2.2⟩
    · exact .inr ⟨by rw [heq]; rfl, hfull⟩

/-- An interrupt is safe if and only if it is guarded. -/
lemma safeInterrupt_iff (hfresh : Fresh map a₀) (h : Inv a₀ S place a m) {address : ℕ}
    {frame : IrqFrame} (hallowed : m.Allowed (.interrupt address frame)) {m' : Machine}
    (hstep : m.step (.interrupt address frame) = .ok m') :
    SafeInterrupt m address frame ↔ m.Guarded (.interrupt address frame) := by
  obtain ⟨haddress, hexit⟩ := h.of_allowed_interrupt hallowed
  have hcommon : m.irqCommon address frame = .ok m' := by
    unfold Machine.step at hstep
    rwa [h.running] at hstep
  rcases h.interrupt hfresh haddress hexit with
    ⟨decision, m₁, rax, m₂, hdecision, hhandler, hguarded, hnot⟩ | ⟨heq, -⟩
  · constructor
    · rintro ⟨decision', m₁', rax', m₂', m₃', hdecision', hhandler', -, -, hiff, -⟩
      rw [hdecision] at hdecision'
      rw [hhandler] at hhandler'
      obtain ⟨rfl, -⟩ : decision = decision' ∧ m₁ = m₁' := by simpa using hdecision'
      obtain ⟨rfl, -⟩ : rax = rax' ∧ m₂ = m₂' := by simpa using hhandler'
      by_contra hcon
      exact (hnot hcon).2 (hiff.mp (hnot hcon).1)
    · intro hg
      obtain ⟨hprepared, hiff, S', place', a', h'⟩ := hguarded hg
      refine ⟨decision, m₁, rax, m₂, m', hdecision, hhandler, hcommon, hprepared, hiff, ?_⟩
      rw [Machine.irqCommon, hhandler] at hcommon
      obtain rfl := Except.ok.inj hcommon
      exact h'.running_eq
  · rw [Machine.irqCommon, heq] at hcommon
    cases hcommon

end Inv

/-- The invariant holds when the boot thread has been registered. -/
lemma inv_boot {reserved : List ReservedRange} {limit : ℕ} {frames : FrameAllocator}
    (hinitial : Initial map reserved (.new limit) a₀) (hlent : Lent a₀ S frames)
    {bootStack : PhysRange} (hstart : 0 < bootStack.start) (hlen : 0 < bootStack.len)
    (hreserved : ∃ r ∈ reserved, r.start ≤ bootStack.start ∧
      bootStack.start + bootStack.len ≤ r.stop) {trampoline : ℕ}
    (hboot : Machine.boot frames bootStack trampoline = .ok m) :
    Inv a₀ S (fun _ => none) (.start 0) m := by
  obtain ⟨sched, hregister, hrefines⟩ := registerBoot_refines 0
  have hregister' : Scheduler.new.registerBoot 0 = .ok (.ok (), sched) := hregister
  rw [Machine.boot, hregister'] at hboot
  obtain rfl := Except.ok.inj hboot
  have hstate : ∀ i : ThreadId, i ≠ 0 → (AbstractSched.start 0).states i = .unused := by
    intro i hi
    simp only [AbstractSched.start, Function.update_of_ne hi]
  have hzero : (AbstractSched.start 0).states 0 = .running := by
    simp only [AbstractSched.start, Function.update_self]
  refine ⟨hrefines, Valid.start 0, rfl, ⟨hlent, ?_, hstart, hlen, fun k hk => ?_, ?_, ?_⟩,
    ⟨fun i _ => ⟨rfl, rfl, rfl⟩, ?_, fun i hi _ _ => ?_, ?_, fun i hi => ?_⟩,
    ⟨?_, fun t => trivial, ?_⟩, ?_⟩
  · rw [hinitial.firstFrame_eq]
    exact show 0 < divCeil minFreeAddr pageSize by decide
  · obtain ⟨r, hr, hlow, hhigh⟩ := hreserved
    rcases hinitial.apart_of_reserved hr hk with hle | hle
    · exact .inl (hhigh.trans hle)
    · exact .inr (hle.trans hlow)
  · intro id k hcon
    cases hcon
  · intro id id' k k' _ hcon
    cases hcon
  · intro i r hcon
    cases hcon
  · by_contra hne
    exact hi (hstate i hne)
  · intro i hcon
    cases hcon
  · by_cases hne : i = 0
    · rw [hne, hzero] at hi
      cases hi
    · rw [hstate i hne] at hi
      cases hi
  · intro id hid
    exact absurd hid (Finset.notMem_empty id)
  · intro t t' id hcon
    cases hcon
  · intro hcon
    cases hcon

lemma length_zeros_lt : ([0, 0] : List UInt8).length < 2 ^ 63 := by decide

/-- The test whether the small machine, with a boot stack below 1 MiB reserved, boots into a state
with a property. -/
def bootsSmall (p : Machine → Bool) : Bool :=
  Checked.okAnd (FrameAllocator.init ⟨[0, 0], length_zeros_lt⟩ smallMap [⟨0x8000, 0xC000⟩]
    (.new 0x108000)) fun r => r.toOption.any fun a₀ =>
      Checked.okAnd (Machine.boot a₀ ⟨0x8000, 0x4000⟩ 0x200000) p

lemma exists_boot_of_bootsSmall {p : Machine → Bool} (h : bootsSmall p = true) : ∃ a₀ m₀,
    FrameAllocator.init ⟨[0, 0], by decide⟩ smallMap [⟨0x8000, 0xC000⟩] (.new 0x108000) =
      .ok (.ok a₀) ∧
    Machine.boot a₀ ⟨0x8000, 0x4000⟩ 0x200000 = .ok m₀ ∧ p m₀ = true := by
  obtain ⟨a₀, hinit, h⟩ := Checked.okAnd_any_eq_true_iff.mp h
  obtain ⟨m₀, hboot, hp⟩ := Checked.okAnd_eq_true_iff.mp h
  exact ⟨a₀, m₀, hinit, hboot, hp⟩

/-- **Interrupts during the creation of threads.**  The kernel boots with an initialised frame
allocator that has lent some frames, and its boot stack is reserved.  Then threads call `create`,
`create_user` and `create_idle` and interrupts arrive between any two atomic sections, in every
order, but no interrupt arrives while the thread that it would switch to is registered and not
prepared.  In every state that is reached the processor executes the current thread of the
scheduler; every step returns, unless a counter of the scheduler overflows; and the next interrupt
is safe if and only if it does not arrive at such a moment either. -/
theorem interrupt_safe_iff_guarded (bitmap : Slice UInt8) (map : MemoryMap)
    (reserved : List ReservedRange) (limit : ℕ) (a₀ : FrameAllocator)
    (hinit : FrameAllocator.init bitmap map reserved (.new limit) = .ok (.ok a₀)) (s : FrameState)
    (hframes : FrameState.Reached a₀ s) (bootStack : PhysRange) (hstart : 0 < bootStack.start)
    (hlen : 0 < bootStack.len)
    (hreserved : ∃ r ∈ reserved, r.start ≤ bootStack.start ∧
      bootStack.start + bootStack.len ≤ r.stop) (trampoline : ℕ) (m₀ m : Machine)
    (hboot : Machine.boot s.allocator bootStack trampoline = .ok m₀)
    (hrun : Relation.ReflTransGen GuardedStep m₀ m) :
    m.running = some m.sched.current ∧
    (∀ e, m.Allowed e →
      (∃ m', m.step e = .ok m') ∨ m.step e = .error .overflow ∧ CounterFull m.sched) ∧
    ∀ address frame m', m.Allowed (.interrupt address frame) →
      m.step (.interrupt address frame) = .ok m' →
      (SafeInterrupt m address frame ↔ m.Guarded (.interrupt address frame)) := by
  have hinitial := initial_of_init hinit
  have hfresh := hinitial.fresh
  obtain ⟨S₀, hlent, -⟩ := Owned.of_reached hfresh hframes
  obtain ⟨S, place, a, h⟩ : ∃ S place a, Inv a₀ S place a m := by
    induction hrun with
    | refl => exact ⟨S₀, _, _, inv_boot hinitial hlent hstart hlen hreserved hboot⟩
    | tail _ hstep ih =>
      obtain ⟨S, place, a, h⟩ := ih
      obtain ⟨e, hallowed, hguarded, heq⟩ := hstep
      rcases h.step hfresh hallowed with ⟨m', heq', hnext⟩ | ⟨heq', -⟩
      · rw [heq] at heq'
        obtain rfl := Except.ok.inj heq'
        exact hnext hguarded
      · rw [heq] at heq'
        cases heq'
  refine ⟨h.running_eq, fun e hallowed => ?_, fun address frame m' hallowed hstep => ?_⟩
  · rcases h.step hfresh hallowed with ⟨m', heq, -⟩ | hfull
    · exact .inl ⟨m', heq⟩
    · exact .inr hfull
  · exact h.safeInterrupt_iff hfresh hallowed hstep

/-- The boot thread creates the thread 1, and the call returns.  The tick that follows switches to
the thread 1, and the next one switches back; both of them are safe. -/
theorem interrupt_safe_iff_guarded_switch : ∃ a₀ m₀ m m',
    FrameAllocator.init ⟨[0, 0], by decide⟩ smallMap [⟨0x8000, 0xC000⟩] (.new 0x108000) =
      .ok (.ok a₀) ∧
    Machine.boot a₀ ⟨0x8000, 0x4000⟩ 0x200000 = .ok m₀ ∧
    Relation.ReflTransGen GuardedStep m₀ m ∧ m.result 0 = some (.ok 1) ∧
    SafeInterrupt m 0xBF00 { vector := timerVector } ∧
    m.step (.interrupt 0xBF00 { vector := timerVector }) = .ok m' ∧ m'.running = some 1 ∧
    m'.candidate timerVector = some 0 ∧
    SafeInterrupt m' 0x103F00 { vector := timerVector } := by
  let tick : Event := .interrupt 0xBF00 { vector := timerVector }
  let tick' : Event := .interrupt 0x103F00 { vector := timerVector }
  let p : Machine → Bool := fun m => m.result 0 = some (.ok 1) && m.Allowed tick &&
    m.Guarded tick && Checked.okAnd (m.step tick) fun m' => m'.running = some 1 &&
      m'.candidate timerVector = some 0 && m'.Allowed tick' && m'.Guarded tick' &&
      Checked.okAnd (m'.step tick') fun _ => true
  have hok : bootsSmall (fun m₀ => Checked.okAnd
      (replay (fun m e => m.Allowed e && m.Guarded e) Machine.step
        [.call (.create 0x201000), .proceed, .proceed, .proceed] m₀)
      fun x => x.any fun trace => trace.getLast?.any fun y => p y.2) = true := by
    decide +kernel
  obtain ⟨a₀, m₀, hinit, hboot, hrun⟩ := exists_boot_of_bootsSmall hok
  obtain ⟨m, hrun, hp⟩ := exists_reached_of_replay hrun
  simp only [Bool.and_eq_true, decide_eq_true_eq, and_assoc] at hrun
  simp only [p, Bool.and_eq_true, decide_eq_true_eq, Checked.okAnd_eq_true_iff, and_assoc,
    and_true] at hp
  obtain ⟨hresult, hallowed, hguarded, m', hstep, hrunning, hcandidate, hallowed', hguarded', _,
    hstep'⟩ := hp
  have hsafe : ∀ m, Relation.ReflTransGen GuardedStep m₀ m → ∀ address frame m',
      m.Allowed (.interrupt address frame) → m.step (.interrupt address frame) = .ok m' →
      (SafeInterrupt m address frame ↔ m.Guarded (.interrupt address frame)) := fun m hm =>
    (interrupt_safe_iff_guarded _ _ _ _ a₀ hinit ⟨a₀, []⟩ .refl ⟨0x8000, 0x4000⟩ (by decide)
      (by decide) ⟨⟨0x8000, 0xC000⟩, by simp, by decide, by decide⟩ 0x200000 m₀ m hboot hm).2.2
  exact ⟨a₀, m₀, m, m', hinit, hboot, hrun, hresult,
    (hsafe m hrun _ _ _ hallowed hstep).mpr hguarded, hstep, hrunning, hcandidate,
    (hsafe m' (hrun.tail ⟨tick, hallowed, hguarded, hstep⟩) _ _ _ hallowed' hstep').mpr hguarded'⟩

/-- A tick breaks the creation of a thread.  The boot thread 0 has registered the thread 1 with the
scheduler, and the interrupt arrives before the slot of the thread 1 is written.  The scheduler
switches from 0 to 1, the handler returns 0, and the processor goes on with the thread 0, while the
thread 1 is the current one. -/
theorem create_interrupted : ∃ a₀ m₀ m₁ m₂ m₃ m₄,
    FrameAllocator.init ⟨[0, 0], by decide⟩ smallMap [⟨0x8000, 0xC000⟩] (.new 0x108000) =
      .ok (.ok a₀) ∧
    Machine.boot a₀ ⟨0x8000, 0x4000⟩ 0x200000 = .ok m₀ ∧
    m₀.Allowed (.call (.create 0x201000)) ∧ m₀.step (.call (.create 0x201000)) = .ok m₁ ∧
    m₁.Allowed (.interrupt 0xBF00 { vector := timerVector }) ∧
    (m₁.push 0xBF00 { vector := timerVector }).irqDecision { vector := timerVector } =
      .ok (.switch 0 1, m₂) ∧ ¬ m₂.Prepared 1 ∧
    (m₁.push 0xBF00 { vector := timerVector }).irqHandler 0xBF00 { vector := timerVector } =
      .ok (0, m₃) ∧
    m₁.step (.interrupt 0xBF00 { vector := timerVector }) = .ok m₄ ∧
    m₄.running = some 0 ∧ m₄.sched.current = 1 := by
  obtain ⟨a₀, _, hinit, -, -⟩ := exists_boot_of_bootsSmall
    (show bootsSmall (fun _ => true) = true by decide +kernel)
  refine ⟨a₀, _, _, _, _, _, hinit, rfl, ⟨0, rfl, rfl, rfl⟩, rfl, ⟨0, rfl, ?_, ?_, ?_⟩, rfl,
    ?_, rfl, rfl, rfl, rfl⟩
  · exact show OnStack ⟨0x8000, 0x4000⟩ 0xBF00 from ⟨by decide, by decide⟩
  · intro hcon
    exact absurd hcon (by decide)
  · intro hcon
    exact absurd hcon (by decide)
  · intro hcon
    exact hcon.1 rfl

end Kernel

end ParanukOS
