import ParanukOS.Kernel.Thread.Kept

/-!
# Calls that fail

A call of `create`, `create_user` or `create_idle` registers a thread with the scheduler, then asks
for the frames of a stack, and then writes the slot.  The first step can fail, and nothing has
happened then.  The second one can fail, too, and the call returns without taking back the first
one: the new thread stays with the scheduler, where it is ready, and its slot is the one of an
unused thread.

## Outline

* `Machine.HasSlot`, `Registers`: the scheduler.
* `Begins`, `begins_of_beginCall`: the first section of a call.
* `continueCall_cases`: the section that needs frames.
* `failed_create_unchanged_iff`: the main theorem.
-/

namespace ParanukOS

open Foundation KernelMemory KernelSched FrameAllocator

namespace Kernel

variable {m m' : Machine} {caller : ℕ} {call : CreateCall}

/-! ## The scheduler -/

/-- The scheduler has a place for the thread of a call. -/
def Machine.HasSlot (m : Machine) (call : CreateCall) : Prop :=
  (∃ i, m.sched.states i = .unused) ∧ (call.isIdle = true → m.sched.idle = noThread)

/-- The scheduler refuses a thread and stays as it is, or an unused thread is ready afterwards. -/
def Registers (s s' : Scheduler) (place : Prop) (r : Except SchedError ℕ) : Prop :=
  (∃ e, r = .error e) ∧ s' = s ∧ ¬ place ∨
    place ∧ ∃ i : ThreadId, r = .ok i.val ∧ s.states i = .unused ∧ s'.states i = .ready

lemma registers_create {s s' : Scheduler} {r : Except SchedError ℕ}
    (h : s.create = .ok (r, s')) : Registers s s' (∃ i, s.states i = .unused) r := by
  rcases create_cases h with ⟨herror, hsame, hnone⟩ | ⟨i, hr, hunused, hset, -⟩
  · exact .inl ⟨herror, hsame, not_exists.mpr hnone⟩
  · refine .inr ⟨⟨i, hunused⟩, i, hr, hunused, ?_⟩
    rw [hset.1, Function.update_self]

lemma registers_registerIdleAny {s s' : Scheduler} {r : Except SchedError ℕ}
    (h : s.registerIdleAny = .ok (r, s')) :
    Registers s s' ((∃ i, s.states i = .unused) ∧ s.idle = noThread) r := by
  rcases registerIdleAny_cases h with ⟨herror, hsame, hnone⟩ | ⟨i, hr, hunused, hidle, hset, -⟩
  · refine .inl ⟨herror, hsame, ?_⟩
    rintro ⟨⟨i, hi⟩, hidle⟩
    exact hnone.elim (fun hall => hall i hi) (fun hne => hne hidle)
  · refine .inr ⟨⟨⟨i, hunused⟩, hidle⟩, i, hr, hunused, ?_⟩
    rw [hset.1, Function.update_self]

/-! ## The sections of a call -/

/-- The first section: the call has failed and nothing else has changed, or an unused thread is
ready. -/
def Begins (m m' : Machine) (caller : ℕ) (call : CreateCall) : Prop :=
  m' = m.setCall caller (.returned (.error .noFreeSlot)) ∧ ¬ m.HasSlot call ∨
    m.HasSlot call ∧ m'.slots = m.slots ∧ m'.frames = m.frames ∧
      ∃ (i : ThreadId) (start : Start), m'.calls caller = .registered i.val start ∧
        m.sched.states i = .unused ∧ m'.sched.states i = .ready

lemma begins_of_registers {sched : Scheduler} {r : Except SchedError ℕ} {place : Prop}
    (h : Registers m.sched sched place r) (hplace : place ↔ m.HasSlot call) (start : Start) :
    Begins m ({ m with sched }.registered caller start r) caller call := by
  rcases h with ⟨⟨e, rfl⟩, rfl, hnone⟩ | ⟨hsome, i, rfl, hunused, hready⟩
  · exact .inl ⟨rfl, fun hcon => hnone (hplace.mpr hcon)⟩
  · exact .inr ⟨hplace.mp hsome, rfl, rfl, i, start, Function.update_self .., hunused, hready⟩

lemma begins_of_beginCall (h : m.beginCall caller call = .ok m') : Begins m m' caller call := by
  have hnormal : call.isIdle = false → ((∃ i, m.sched.states i = .unused) ↔ m.HasSlot call) := by
    intro hcall
    refine ⟨fun hsome => ⟨hsome, fun hcon => ?_⟩, And.left⟩
    rw [hcall] at hcon
    cases hcon
  cases call with
  | create entry =>
    obtain ⟨⟨r, sched⟩, hcreate, h⟩ := Checked.bind_eq_ok.mp h
    obtain rfl := Except.ok.inj h
    exact begins_of_registers (registers_create hcreate) (hnormal rfl) _
  | createUser entryVa userStackTop =>
    obtain ⟨⟨r, sched⟩, hcreate, h⟩ := Checked.bind_eq_ok.mp h
    obtain rfl := Except.ok.inj h
    exact begins_of_registers (registers_create hcreate) (hnormal rfl) _
  | createIdle entry =>
    obtain ⟨⟨r, sched⟩, hregister, h⟩ := Checked.bind_eq_ok.mp h
    obtain rfl := Except.ok.inj h
    refine begins_of_registers (registers_registerIdleAny hregister) ?_ _
    exact and_congr_right fun _ => ⟨fun hidle _ => hidle, fun hidle => hidle rfl⟩

/-- The second section: without a run of free frames the call fails, and the registered thread stays
as it is. -/
lemma continueCall_cases {id : ℕ} {start : Start} (hcall : m.calls caller = .registered id start)
    (h : m.continueCall caller = .ok m') :
    m' = m.setCall caller (.returned (.error .noStack)) ∧
      (∀ k, ¬ m.frames.RunAt threadStackPages k) ∨
    ∃ stack, m'.calls caller = .stacked id start stack := by
  simp only [Machine.continueCall, hcall] at h
  obtain ⟨⟨result, frames⟩, halloc, h⟩ := Checked.bind_eq_ok.mp h
  cases result with
  | none =>
    obtain ⟨rfl, hnone⟩ := of_allocContiguous_none (by decide) halloc
    obtain rfl := Except.ok.inj h
    exact .inl ⟨rfl, hnone⟩
  | some stack =>
    obtain ⟨-, -, h⟩ := Checked.bind_eq_ok.mp h
    obtain rfl := Except.ok.inj h
    exact .inr ⟨stack, Function.update_self ..⟩

/-- With a stack the call succeeds. -/
lemma result_of_stacked {m₁ : Machine} {id : ℕ} {start : Start} {stack : PhysRange}
    (hcall : m.calls caller = .stacked id start stack) (h₁ : m.continueCall caller = .ok m₁)
    (h₂ : m₁.continueCall caller = .ok m') : m'.result caller = some (.ok id) := by
  simp only [Machine.continueCall, hcall] at h₁
  obtain ⟨m₂, -, h₁⟩ := Checked.bind_eq_ok.mp h₁
  obtain rfl := Except.ok.inj h₁
  simp only [Machine.continueCall, Machine.setCall, Function.update_self] at h₂
  obtain ⟨m₃, -, h₂⟩ := Checked.bind_eq_ok.mp h₂
  obtain rfl := Except.ok.inj h₂
  simp [Machine.result]

/-- The sections after the first one, when the call fails. -/
lemma continueCalls_of_error {id : ℕ} {start : Start} {e : CreateError}
    (hcall : m.calls caller = .registered id start)
    (h : (do
      let m ← m.continueCall caller
      let m ← m.continueCall caller
      m.continueCall caller) = .ok m') (hresult : m'.result caller = some (.error e)) :
    m' = m.setCall caller (.returned (.error .noStack)) ∧
      ∀ k, ¬ m.frames.RunAt threadStackPages k := by
  obtain ⟨m₁, h₁, h⟩ := Checked.bind_eq_ok.mp h
  obtain ⟨m₂, h₂, h₃⟩ := Checked.bind_eq_ok.mp h
  rcases continueCall_cases hcall h₁ with ⟨rfl, hnone⟩ | ⟨stack, hstacked⟩
  · rw [Machine.continueCall_returned (Function.update_self ..)] at h₂
    obtain rfl := Except.ok.inj h₂
    rw [Machine.continueCall_returned (Function.update_self ..)] at h₃
    obtain rfl := Except.ok.inj h₃
    exact ⟨rfl, hnone⟩
  · rw [result_of_stacked hstacked h₂ h₃] at hresult
    cases hresult

/-! ## The main theorem -/

/-- **Calls that fail.**  Let a call of `create`, `create_user` or `create_idle` return an error, in
any state.  The scheduler, the slots and the frame allocator are the same as before exactly when the
error is `NoFreeSlot`, that is when the scheduler has no place for the thread.  When it is
`NoStack`, there is no run of four free frames; the slots and the allocator are the same as before,
but a thread that was unused is ready, with its slot as it was. -/
theorem failed_create_unchanged_iff (m m' : Machine) (caller : ℕ) (call : CreateCall)
    (e : CreateError) (hperform : m.perform caller call = .ok m')
    (hresult : m'.result caller = some (.error e)) :
    ((m'.sched = m.sched ∧ m'.slots = m.slots ∧ m'.frames = m.frames) ↔ e = .noFreeSlot) ∧
    (e = .noFreeSlot ↔ ¬ m.HasSlot call) ∧
    (e = .noStack → (∀ k, ¬ m.frames.RunAt threadStackPages k) ∧
      m'.slots = m.slots ∧ m'.frames = m.frames ∧
      ∃ i, m.sched.states i = .unused ∧ m'.sched.states i = .ready) := by
  obtain ⟨m₁, hbegin, hrest⟩ := Checked.bind_eq_ok.mp hperform
  rcases begins_of_beginCall hbegin with
    ⟨rfl, hslot⟩ | ⟨hslot, hslots, hframes, i, start, hcall, hunused, hready⟩
  · -- the three sections that are left do nothing
    rw [Machine.continueCall_returned (Function.update_self ..), Checked.ok_bind,
      Machine.continueCall_returned (Function.update_self ..), Checked.ok_bind,
      Machine.continueCall_returned (Function.update_self ..)] at hrest
    obtain rfl := Except.ok.inj hrest
    obtain rfl : CreateError.noFreeSlot = e := by
      simpa [Machine.result, Machine.setCall] using hresult
    have hne : CreateError.noFreeSlot ≠ .noStack := by decide
    exact ⟨⟨fun _ => rfl, fun _ => ⟨rfl, rfl, rfl⟩⟩, ⟨fun _ => hslot, fun _ => rfl⟩,
      fun hcon => absurd hcon hne⟩
  · obtain ⟨rfl, hnone⟩ := continueCalls_of_error hcall hrest hresult
    obtain rfl : CreateError.noStack = e := by
      simpa [Machine.result, Machine.setCall] using hresult
    have hchanged : m₁.sched ≠ m.sched := by
      intro hsame
      rw [hsame, hunused] at hready
      cases hready
    have hne : CreateError.noStack ≠ .noFreeSlot := by decide
    refine ⟨⟨fun hsame => absurd hsame.1 hchanged, fun hcon => absurd hcon hne⟩,
      ⟨fun hcon => absurd hcon hne, fun hcon => absurd hslot hcon⟩,
      fun _ => ⟨?_, hslots, hframes, i, hunused, hready⟩⟩
    rw [← hframes]
    exact hnone

/-- The small machine has frames for two stacks.  It starts, creates an idle thread and another one,
and then tries to create one more idle thread, and one more thread. -/
def createsTooMany : Checked (Option (FrameAllocator × Machine × Machine × Machine)) := do
  match ← FrameAllocator.init ⟨[0, 0], by decide⟩ smallMap [] (.new 0x108000) with
  | .error _ => return none
  | .ok a₀ =>
    let m₀ ← Machine.boot a₀ ⟨0x8000, 0x4000⟩ 0x200000
    let m₁ ← m₀.perform 0 (.createIdle 0x201000)
    let m₂ ← m₁.perform 0 (.create 0x202000)
    let m₃ ← m₂.perform 0 (.createIdle 0x201000)
    let m₄ ← m₂.perform 0 (.create 0x203000)
    return some (a₀, m₂, m₃, m₄)

/-- The kernel after two calls that have succeeded. -/
def Machine.Filled (a₀ : FrameAllocator) (m : Machine) : Prop :=
  ∃ m₀ m₁, Machine.boot a₀ ⟨0x8000, 0x4000⟩ 0x200000 = .ok m₀ ∧
    m₀.perform 0 (.createIdle 0x201000) = .ok m₁ ∧ m₁.perform 0 (.create 0x202000) = .ok m

lemma exists_createsTooMany : ∃ (a₀ : FrameAllocator) (m₂ m₃ m₄ : Machine),
    FrameAllocator.init ⟨[0, 0], by decide⟩ smallMap [] (.new 0x108000) = .ok (.ok a₀) ∧
    m₂.Filled a₀ ∧ m₂.perform 0 (.createIdle 0x201000) = .ok m₃ ∧
    m₂.perform 0 (.create 0x203000) = .ok m₄ ∧
    m₃.result 0 = some (.error .noFreeSlot) ∧ m₄.result 0 = some (.error .noStack) ∧
    m₂.sched.states 3 = .unused ∧ m₄.sched.states 3 = .ready ∧ (m₄.slots 3).stack = none := by
  have hok : Checked.okAnd createsTooMany (fun x => x.any fun (_, m₂, m₃, m₄) =>
      m₃.result 0 = some (.error .noFreeSlot) && m₄.result 0 = some (.error .noStack) &&
        m₂.sched.states 3 = .unused && m₄.sched.states 3 = .ready &&
        (m₄.slots 3).stack = none) = true := by decide +kernel
  obtain ⟨x, hx, hpred⟩ := Checked.okAnd_eq_true_iff.mp hok
  obtain ⟨result, hinit, hx⟩ := Checked.bind_eq_ok.mp hx
  cases result with
  | error e =>
    obtain rfl := Except.ok.inj hx
    cases hpred
  | ok a₀ =>
    obtain ⟨m₀, hboot, hx⟩ := Checked.bind_eq_ok.mp hx
    obtain ⟨m₁, hidle, hx⟩ := Checked.bind_eq_ok.mp hx
    obtain ⟨m₂, hcreate, hx⟩ := Checked.bind_eq_ok.mp hx
    obtain ⟨m₃, hidle', hx⟩ := Checked.bind_eq_ok.mp hx
    obtain ⟨m₄, hcreate', hx⟩ := Checked.bind_eq_ok.mp hx
    obtain rfl := Except.ok.inj hx
    simp only [Option.any_some, Bool.and_eq_true, decide_eq_true_eq] at hpred
    obtain ⟨⟨⟨⟨hidleError, herror⟩, hunused⟩, hready⟩, hstack⟩ := hpred
    exact ⟨a₀, m₂, m₃, m₄, hinit, ⟨m₀, m₁, hboot, hidle, hcreate⟩, hidle', hcreate', hidleError,
      herror, hunused, hready, hstack⟩

/-- A second idle thread is refused without a trace. -/
theorem failed_create_unchanged_idle : ∃ (a₀ : FrameAllocator) (m m' : Machine),
    FrameAllocator.init ⟨[0, 0], by decide⟩ smallMap [] (.new 0x108000) = .ok (.ok a₀) ∧
    m.Filled a₀ ∧ m.perform 0 (.createIdle 0x201000) = .ok m' ∧
    m'.result 0 = some (.error .noFreeSlot) ∧
    m'.sched = m.sched ∧ m'.slots = m.slots ∧ m'.frames = m.frames := by
  obtain ⟨a₀, m, m', -, hinit, hfilled, hperform, -, hresult, -⟩ := exists_createsTooMany
  exact ⟨a₀, m, m', hinit, hfilled, hperform, hresult,
    (failed_create_unchanged_iff m m' 0 _ _ hperform hresult).1.mpr rfl⟩

/-- When the frames for stacks are used up, the next call fails, but its thread 3 has become ready,
and it has no stack. -/
theorem failed_create_leaves_thread : ∃ (a₀ : FrameAllocator) (m m' : Machine),
    FrameAllocator.init ⟨[0, 0], by decide⟩ smallMap [] (.new 0x108000) = .ok (.ok a₀) ∧
    m.Filled a₀ ∧ m.perform 0 (.create 0x203000) = .ok m' ∧
    m'.result 0 = some (.error .noStack) ∧ m.sched.states 3 = .unused ∧
    m'.sched.states 3 = .ready ∧ (m'.slots 3).stack = none := by
  obtain ⟨a₀, m, -, m', hinit, hfilled, -, hperform, -, hresult, hunused, hready, hstack⟩ :=
    exists_createsTooMany
  exact ⟨a₀, m, m', hinit, hfilled, hperform, hresult, hunused, hready, hstack⟩

end Kernel

end ParanukOS
