import ParanukOS.Kernel.Thread.Model

/-!
# What the functions leave alone

`on_tick` is the only function of the scheduler that counts ticks, and `irq_handler` calls it for
the vector of the timer only.  So an interrupt adds one to the counter or leaves it, which its
vector decides, and the creation of a thread leaves it.  An interrupt does not touch the calls that
are under way.
-/

namespace ParanukOS

open Foundation KernelMemory KernelSched

namespace KernelSched

namespace Scheduler

variable {s s' : Scheduler}

/-! ## The scheduler -/

lemma ticks_enqueue {id : ℕ} (h : s.enqueue id = .ok s') : s'.ticks = s.ticks := by
  simp only [enqueue, Checked.bind_eq_ok] at h
  obtain ⟨-, -, queue, -, len, -, h⟩ := h
  obtain rfl := Except.ok.inj h
  rfl

lemma ticks_dequeue {id : ℕ} (h : s.dequeue = .ok (id, s')) : s'.ticks = s.ticks := by
  simp only [dequeue, Checked.bind_eq_ok] at h
  obtain ⟨-, -, first, -, queue, -, len, -, h⟩ := h
  obtain ⟨-, rfl⟩ := Prod.mk.inj (Except.ok.inj h)
  rfl

lemma ticks_switchToFirst {previous : ℕ} {d : Decision}
    (h : s.switchToFirst previous = .ok (d, s')) : s'.ticks = s.ticks := by
  simp only [switchToFirst, Checked.bind_eq_ok] at h
  obtain ⟨⟨next, s₁⟩, hnext, states, -, switches, -, h⟩ := h
  obtain ⟨-, rfl⟩ := Prod.mk.inj (Except.ok.inj h)
  exact (ticks_dequeue hnext :)

lemma ticks_rotate {d : Decision} (h : s.rotate = .ok (d, s')) : s'.ticks = s.ticks := by
  simp only [rotate] at h
  split at h
  · obtain ⟨-, rfl⟩ := Prod.mk.inj (Except.ok.inj h)
    rfl
  obtain ⟨kind, -, h⟩ := Checked.bind_eq_ok.mp h
  split at h
  · obtain ⟨-, rfl⟩ := Prod.mk.inj (Except.ok.inj h)
    rfl
  obtain ⟨states, -, h⟩ := Checked.bind_eq_ok.mp h
  split at h
  · exact (ticks_switchToFirst h :)
  · obtain ⟨s₁, henqueue, h⟩ := Checked.bind_eq_ok.mp h
    exact ((ticks_switchToFirst h).trans (ticks_enqueue henqueue) :)

/-- `on_tick` counts, whatever it decides. -/
lemma ticks_onTick {reschedule : Bool} {d : Decision}
    (h : s.onTick reschedule = .ok (d, s')) : s'.ticks = s.ticks + 1 := by
  obtain ⟨ticks, hticks, h⟩ := Checked.bind_eq_ok.mp h
  obtain rfl := (addWord_eq_ok_iff.mp hticks).2
  split_ifs at h
  · obtain ⟨-, rfl⟩ := Prod.mk.inj (Except.ok.inj h)
    rfl
  · exact ticks_rotate h

lemma ticks_pickAfterStop {r : Except SchedError ℕ} (h : s.pickAfterStop = .ok (r, s')) :
    s'.ticks = s.ticks := by
  simp only [pickAfterStop] at h
  split at h
  · obtain ⟨⟨next, s₁⟩, hnext, h⟩ := Checked.bind_eq_ok.mp h
    obtain ⟨states, -, h⟩ := Checked.bind_eq_ok.mp h
    obtain ⟨-, rfl⟩ := Prod.mk.inj (Except.ok.inj h)
    exact (ticks_dequeue hnext :)
  split at h
  · obtain ⟨states, -, h⟩ := Checked.bind_eq_ok.mp h
    obtain ⟨-, rfl⟩ := Prod.mk.inj (Except.ok.inj h)
    rfl
  · obtain ⟨-, rfl⟩ := Prod.mk.inj (Except.ok.inj h)
    rfl

lemma ticks_exitCurrent {r : Except SchedError Decision} (h : s.exitCurrent = .ok (r, s')) :
    s'.ticks = s.ticks := by
  simp only [exitCurrent] at h
  split at h
  · obtain ⟨-, rfl⟩ := Prod.mk.inj (Except.ok.inj h)
    rfl
  obtain ⟨states, -, h⟩ := Checked.bind_eq_ok.mp h
  obtain ⟨⟨picked, s₁⟩, hpicked, h⟩ := Checked.bind_eq_ok.mp h
  cases picked with
  | error e =>
    obtain ⟨-, rfl⟩ := Prod.mk.inj (Except.ok.inj h)
    exact (ticks_pickAfterStop hpicked :)
  | ok next =>
    obtain ⟨switches, -, h⟩ := Checked.bind_eq_ok.mp h
    obtain ⟨-, rfl⟩ := Prod.mk.inj (Except.ok.inj h)
    exact (ticks_pickAfterStop hpicked :)

lemma ticks_takeReapable {r : Option ℕ} (h : s.takeReapable = .ok (r, s')) :
    s'.ticks = s.ticks := by
  unfold takeReapable at h
  split at h
  · obtain ⟨-, rfl⟩ := Prod.mk.inj (Except.ok.inj h)
    rfl
  · simp only [Checked.bind_eq_ok] at h
    obtain ⟨states, -, kinds, -, h⟩ := h
    obtain ⟨-, rfl⟩ := Prod.mk.inj (Except.ok.inj h)
    rfl

lemma ticks_create {r : Except SchedError ℕ} (h : s.create = .ok (r, s')) :
    s'.ticks = s.ticks := by
  unfold create at h
  split at h
  · obtain ⟨-, rfl⟩ := Prod.mk.inj (Except.ok.inj h)
    rfl
  · simp only [Checked.bind_eq_ok] at h
    obtain ⟨states, -, kinds, -, s₁, henqueue, h⟩ := h
    obtain ⟨-, rfl⟩ := Prod.mk.inj (Except.ok.inj h)
    exact (ticks_enqueue henqueue :)

lemma ticks_registerIdle {id : ℕ} {r : Except SchedError Unit}
    (h : s.registerIdle id = .ok (r, s')) : s'.ticks = s.ticks := by
  simp only [registerIdle] at h
  split at h
  · obtain ⟨-, rfl⟩ := Prod.mk.inj (Except.ok.inj h)
    rfl
  split at h
  · obtain ⟨-, rfl⟩ := Prod.mk.inj (Except.ok.inj h)
    rfl
  obtain ⟨state, -, h⟩ := Checked.bind_eq_ok.mp h
  split at h
  · obtain ⟨-, rfl⟩ := Prod.mk.inj (Except.ok.inj h)
    rfl
  · simp only [Checked.bind_eq_ok] at h
    obtain ⟨states, -, kinds, -, h⟩ := h
    obtain ⟨-, rfl⟩ := Prod.mk.inj (Except.ok.inj h)
    rfl

lemma ticks_registerIdleAny {r : Except SchedError ℕ} (h : s.registerIdleAny = .ok (r, s')) :
    s'.ticks = s.ticks := by
  unfold registerIdleAny at h
  split at h
  · obtain ⟨-, rfl⟩ := Prod.mk.inj (Except.ok.inj h)
    rfl
  · obtain ⟨⟨result, s₁⟩, hregister, h⟩ := Checked.bind_eq_ok.mp h
    cases result with
    | error e =>
      obtain ⟨-, rfl⟩ := Prod.mk.inj (Except.ok.inj h)
      exact ticks_registerIdle hregister
    | ok u =>
      obtain ⟨-, rfl⟩ := Prod.mk.inj (Except.ok.inj h)
      exact ticks_registerIdle hregister

end Scheduler

end KernelSched

namespace Kernel

namespace Machine

variable {m m' : Machine}

/-! ## The machine -/

/-- The first section of a call uses the scheduler only. -/
lemma beginCall_eq {caller : ℕ} {call : CreateCall} (h : m.beginCall caller call = .ok m') :
    ∃ sched calls unprepared, m' = { m with sched, calls, unprepared } ∧
      sched.ticks = m.sched.ticks := by
  have hregistered : ∀ (sched : Scheduler) (start : Start) (r : Except SchedError ℕ),
      ∃ calls unprepared, ({ m with sched } : Machine).registered caller start r =
        { m with sched, calls, unprepared } := by
    intro sched start r
    cases r with
    | error e => exact ⟨_, m.unprepared, rfl⟩
    | ok id => exact ⟨_, _, rfl⟩
  cases call with
  | create entry =>
    obtain ⟨⟨r, sched⟩, hcreate, h⟩ := Checked.bind_eq_ok.mp h
    obtain ⟨calls, unprepared, heq⟩ := hregistered sched (.kernel entry) r
    exact ⟨sched, calls, unprepared, (Except.ok.inj h).symm.trans heq,
      Scheduler.ticks_create hcreate⟩
  | createUser entryVa userStackTop =>
    obtain ⟨⟨r, sched⟩, hcreate, h⟩ := Checked.bind_eq_ok.mp h
    obtain ⟨calls, unprepared, heq⟩ := hregistered sched (.user entryVa userStackTop) r
    exact ⟨sched, calls, unprepared, (Except.ok.inj h).symm.trans heq,
      Scheduler.ticks_create hcreate⟩
  | createIdle entry =>
    obtain ⟨⟨r, sched⟩, hregister, h⟩ := Checked.bind_eq_ok.mp h
    obtain ⟨calls, unprepared, heq⟩ := hregistered sched (.kernel entry) r
    exact ⟨sched, calls, unprepared, (Except.ok.inj h).symm.trans heq,
      Scheduler.ticks_registerIdleAny hregister⟩

/-- The later sections of a creation do not use the scheduler. -/
lemma continueCall_eq {caller : ℕ} (h : m.continueCall caller = .ok m') :
    ∃ slots frames memory calls unprepared,
      m' = { m with slots, frames, memory, calls, unprepared } := by
  unfold continueCall at h
  split at h
  · obtain ⟨⟨r, frames⟩, -, h⟩ := Checked.bind_eq_ok.mp h
    cases r with
    | none => exact ⟨m.slots, frames, m.memory, _, m.unprepared, (Except.ok.inj h).symm⟩
    | some stack =>
      obtain ⟨-, -, h⟩ := Checked.bind_eq_ok.mp h
      exact ⟨m.slots, frames, m.memory, _, m.unprepared, (Except.ok.inj h).symm⟩
  · simp only [writeFrame, Checked.bind_eq_ok] at h
    obtain ⟨m₁, ⟨-, -, top, -, address, -, -, -, h₁⟩, h⟩ := h
    obtain rfl := Except.ok.inj h₁
    exact ⟨m.slots, m.frames, _, _, m.unprepared, (Except.ok.inj h).symm⟩
  · simp only [writeSlot, Checked.bind_eq_ok] at h
    obtain ⟨m₁, ⟨top, -, rsp, -, slots, -, h₁⟩, h⟩ := h
    obtain rfl := Except.ok.inj h₁
    exact ⟨slots, m.frames, m.memory, _, _, (Except.ok.inj h).symm⟩
  · exact ⟨m.slots, m.frames, m.memory, m.calls, m.unprepared, (Except.ok.inj h).symm⟩

/-- A creation does not move the boot stack. -/
lemma bootStack_perform {caller : ℕ} {call : CreateCall} (h : m.perform caller call = .ok m') :
    m'.bootStack = m.bootStack := by
  obtain ⟨m₁, h₁, h⟩ := Checked.bind_eq_ok.mp h
  obtain ⟨m₂, h₂, h⟩ := Checked.bind_eq_ok.mp h
  obtain ⟨m₃, h₃, h⟩ := Checked.bind_eq_ok.mp h
  obtain ⟨_, _, _, rfl, -⟩ := beginCall_eq h₁
  obtain ⟨_, _, _, _, _, rfl⟩ := continueCall_eq h₂
  obtain ⟨_, _, _, _, _, rfl⟩ := continueCall_eq h₃
  obtain ⟨_, _, _, _, _, rfl⟩ := continueCall_eq h
  rfl

/-- The registers are saved in memory. -/
lemma exists_push (m : Machine) (address : ℕ) (frame : IrqFrame) :
    ∃ memory, m.push address frame = { m with memory } := by
  unfold push
  split
  · exact ⟨m.memory, rfl⟩
  · exact ⟨_, rfl⟩

/-- `release` changes a slot and the frame allocator. -/
lemma release_eq {id : ℕ} (h : m.release id = .ok m') :
    ∃ slots frames, m' = { m with slots, frames } := by
  obtain ⟨slot, -, h⟩ := Checked.bind_eq_ok.mp h
  obtain ⟨slots, -, h⟩ := Checked.bind_eq_ok.mp h
  split at h
  · exact ⟨slots, m.frames, (Except.ok.inj h).symm⟩
  · obtain ⟨⟨r, frames⟩, -, h⟩ := Checked.bind_eq_ok.mp h
    exact ⟨slots, frames, (Except.ok.inj h).symm⟩

/-- `reap_exited`, whose loop the induction is on. -/
lemma reapExited_eq {n : ℕ} : ∀ {m : Machine}, reapExited n m = .ok m' →
    ∃ sched slots frames, m' = { m with sched, slots, frames } ∧ sched.ticks = m.sched.ticks := by
  induction n with
  | zero =>
    intro m h
    obtain rfl := Except.ok.inj h
    exact ⟨m.sched, m.slots, m.frames, rfl, rfl⟩
  | succ n ih =>
    intro m h
    obtain ⟨⟨thread, sched⟩, htake, h⟩ := Checked.bind_eq_ok.mp h
    have hticks := Scheduler.ticks_takeReapable htake
    cases thread with
    | none =>
      obtain rfl := Except.ok.inj h
      exact ⟨sched, m.slots, m.frames, rfl, hticks⟩
    | some id =>
      obtain ⟨m₁, hrelease, h⟩ := Checked.bind_eq_ok.mp h
      obtain ⟨slots, frames, rfl⟩ := release_eq hrelease
      obtain ⟨sched', slots', frames', rfl, hticks'⟩ := ih h
      exact ⟨sched', slots', frames', rfl, hticks'.trans hticks⟩

lemma ticks_exitThread {d : Decision} (h : m.exitThread = .ok (d, m')) :
    m'.sched.ticks = m.sched.ticks := by
  obtain ⟨⟨r, sched⟩, hexit, h⟩ := Checked.bind_eq_ok.mp h
  cases r with
  | ok decision =>
    obtain ⟨-, rfl⟩ := Prod.mk.inj (Except.ok.inj h)
    exact Scheduler.ticks_exitCurrent hexit
  | error e =>
    obtain ⟨-, rfl⟩ := Prod.mk.inj (Except.ok.inj h)
    exact Scheduler.ticks_exitCurrent hexit

/-- The decision changes only the scheduler. -/
lemma dispatch_eq {vector : ℕ} {decision : Decision}
    (heq : m.dispatch vector = .ok (decision, m')) : ∃ sched, m' = { m with sched } := by
  have hexit : ∀ {decision m'}, m.exitThread = .ok (decision, m') →
      ∃ sched, m' = { m with sched } := by
    intro decision m' heq
    obtain ⟨⟨result, sched⟩, -, heq⟩ := Checked.bind_eq_ok.mp heq
    cases result with
    | ok d => exact ⟨sched, (Prod.mk.inj (Except.ok.inj heq)).2.symm⟩
    | error e => exact ⟨sched, (Prod.mk.inj (Except.ok.inj heq)).2.symm⟩
  rw [dispatch] at heq
  split_ifs at heq
  · obtain ⟨x, -, heq⟩ := Checked.bind_eq_ok.mp heq
    exact ⟨x.2, (Prod.mk.inj (Except.ok.inj heq)).2.symm⟩
  · obtain ⟨x, -, heq⟩ := Checked.bind_eq_ok.mp heq
    exact ⟨x.2, (Prod.mk.inj (Except.ok.inj heq)).2.symm⟩
  · exact hexit heq
  · exact hexit heq
  · exact ⟨m.sched, (Prod.mk.inj (Except.ok.inj heq)).2.symm⟩

/-- The vector decides whether a tick is counted. -/
lemma ticks_dispatch {vector : ℕ} {d : Decision} (h : m.dispatch vector = .ok (d, m')) :
    m'.sched.ticks = if vector = timerVector then m.sched.ticks + 1 else m.sched.ticks := by
  unfold dispatch at h
  split_ifs at h with htimer hyield hexit hsyscall
  · obtain ⟨⟨d₁, sched⟩, htick, h⟩ := Checked.bind_eq_ok.mp h
    obtain ⟨-, rfl⟩ := Prod.mk.inj (Except.ok.inj h)
    rw [if_pos htimer]
    exact Scheduler.ticks_onTick htick
  · obtain ⟨⟨d₁, sched⟩, hrotate, h⟩ := Checked.bind_eq_ok.mp h
    obtain ⟨-, rfl⟩ := Prod.mk.inj (Except.ok.inj h)
    rw [if_neg htimer]
    exact Scheduler.ticks_rotate hrotate
  · rw [if_neg htimer]
    exact ticks_exitThread h
  · rw [if_neg htimer]
    exact ticks_exitThread h
  · obtain ⟨-, rfl⟩ := Prod.mk.inj (Except.ok.inj h)
    rw [if_neg htimer]

/-- `switch_to` changes a slot and `rsp0`. -/
lemma switchTo_ok {previous next address rax : ℕ}
    (h : m.switchTo previous next address = .ok (rax, m')) :
    ∃ slots rsp0, m' = { m with slots, rsp0 } := by
  simp only [switchTo, Checked.bind_eq_ok] at h
  obtain ⟨-, -, -, -, slot, -, slots, -, slot', -, h⟩ := h
  exact ⟨slots, _, (Prod.mk.inj (Except.ok.inj h)).2.symm⟩

/-- **An interrupt.**  `irq_handler` counts a tick if and only if the vector in the frame is the one
of the timer.  The calls under way stay as they are. -/
lemma irqCommon_eq {address : ℕ} {frame : IrqFrame} (h : m.irqCommon address frame = .ok m') :
    (m'.sched.ticks =
      if frame.vector % 2 ^ 8 = timerVector then m.sched.ticks + 1 else m.sched.ticks) ∧
    m'.calls = m.calls ∧ m'.unprepared = m.unprepared := by
  obtain ⟨⟨rax, m₁⟩, hhandler, h⟩ := Checked.bind_eq_ok.mp h
  obtain rfl := Except.ok.inj h
  obtain ⟨⟨decision, m₂⟩, hdecision, hhandler⟩ := Checked.bind_eq_ok.mp hhandler
  obtain ⟨m₃, hreap, hdispatch⟩ := Checked.bind_eq_ok.mp hdecision
  obtain ⟨memory, hpush⟩ := m.exists_push address frame
  rw [hpush] at hreap
  obtain ⟨sched, slots, frames, rfl, hreaped⟩ := reapExited_eq hreap
  have hticks := ticks_dispatch hdispatch
  obtain ⟨sched', rfl⟩ := dispatch_eq hdispatch
  rw [show ({ m with memory, sched, slots, frames } : Machine).sched.ticks = m.sched.ticks from
    hreaped] at hticks
  cases decision with
  | keep =>
    obtain ⟨-, rfl⟩ := Prod.mk.inj (Except.ok.inj hhandler)
    exact ⟨hticks, rfl, rfl⟩
  | switch previous next =>
    obtain ⟨slots', rsp0, rfl⟩ := switchTo_ok hhandler
    exact ⟨hticks, rfl, rfl⟩

end Machine

end Kernel

end ParanukOS
