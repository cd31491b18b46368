import ParanukOS.Kernel.Thread.Handler

/-!
# Who owns the stacks

After `init_boot` and `create_idle`, calls of `create` and `create_user` and interrupts follow in
every order.  Every stack in a slot is lent by the allocator, and the stacks of two slots have no
frame in common.  A stack leaves its slot only when its thread is reaped, which has exited and is
not the current one, and `free_frames` takes it back without an error.  The stack that the handler
runs on is the one of the current thread as long as every interrupt is backed.  For a user thread
that is the current one, the end of its stack is in `rsp0`.

## Outline

* `Machine.Started`, `Kept.started`, `Kept.run`, `Inv.run`: the invariants along a run.
* `stack_ownership`, `rsp0_of_user`: the main theorems.
* `handler_stack_released`: the handler runs on a stack that it has freed.
-/

namespace ParanukOS

open Foundation KernelMemory KernelSched FrameAllocator

namespace Kernel

variable {map : MemoryMap} {a₀ : FrameAllocator} {base : ℕ} {S : Finset ℕ}
  {place : ThreadId → Option ℕ} {a : AbstractSched} {m m' : Machine}

/-! ## Runs -/

/-- The kernel after `init_boot` and a call of `create_idle` that has succeeded.  Before, the frame
allocator has lent some frames to other code. -/
def Machine.Started (a₀ : FrameAllocator) (m : Machine) : Prop :=
  ∃ s bootStack trampoline entry id m₀, FrameState.Reached a₀ s ∧
    Machine.boot s.allocator bootStack trampoline = .ok m₀ ∧
    m₀.perform 0 (.createIdle entry) = .ok m ∧ m.result 0 = some (.ok id)

/-- There is an idle thread, on both levels. -/
lemma idle_ne_iff (h : Refines m.sched a) : m.sched.idle ≠ noThread ↔ a.idle ≠ none := by
  rw [h.idle_eq]
  cases hidle : a.idle with
  | none => simp [idleId]
  | some id => simp [idleId, val_ne_noThread]

namespace Kept

/-- The invariant holds when the boot thread has been registered. -/
lemma boot {reserved : List ReservedRange} {limit : ℕ} {frames : FrameAllocator}
    (hinitial : Initial map reserved (.new limit) a₀) (hlent : Lent a₀ S frames)
    {bootStack : PhysRange} {trampoline : ℕ}
    (hboot : Machine.boot frames bootStack trampoline = .ok m) :
    Kept a₀ S.card S (fun _ => none) (.start 0) m := by
  obtain ⟨sched, hregister, hrefines⟩ := registerBoot_refines 0
  have hregister' : Scheduler.new.registerBoot 0 = .ok (.ok (), sched) := hregister
  rw [Machine.boot, hregister'] at hboot
  obtain rfl := Except.ok.inj hboot
  refine ⟨hrefines, Valid.start 0, ⟨hlent, ?_, by decide, by decide, fun k hk => .inr ?_, ?_,
    ?_⟩, fun _ => rfl, fun _ _ => ⟨rfl, rfl⟩, ?_, ?_, ?_⟩
  · rw [hinitial.firstFrame_eq]
    exact show 0 < divCeil minFreeAddr pageSize by decide
  · exact (addressOf_add_lt (mem_freeSet.mp hk).1).le
  -- no thread has a stack
  · intro id k hplace
    cases hplace
  · intro id id' k k' hne hplace
    cases hplace
  · intro i huser
    cases huser
  · intro huser
    cases huser
  · simp [placed]

/-- The invariant holds at the start of a run. -/
lemma started {reserved : List ReservedRange} {limit : ℕ}
    (hinitial : Initial map reserved (.new limit) a₀) (h : m.Started a₀) :
    ∃ base S place a, Kept a₀ base S place a m ∧ m.sched.idle ≠ noThread := by
  obtain ⟨s, bootStack, trampoline, entry, id, m₀, hframes, hboot, hperform, hresult⟩ := h
  obtain ⟨S₀, hlent, -⟩ := Owned.of_reached hinitial.fresh hframes
  obtain ⟨m', S, place, a, heq, h', hadds⟩ :=
    (Kept.boot hinitial hlent hboot).perform hinitial.fresh 0 (.createIdle entry)
  rw [hperform] at heq
  obtain rfl := Except.ok.inj heq
  refine ⟨_, S, place, a, h', (idle_ne_iff h'.refines).mpr ?_⟩
  rcases hadds with ⟨hcon, -⟩ | ⟨i, -, hadds⟩
  · exact absurd hresult (hcon id)
  · rw [hadds.idle_eq]
    exact nofun

/-- Every operation returns, unless a counter of the scheduler overflows, and keeps the
invariant. -/
lemma operate (hfresh : Fresh map a₀) (h : Kept a₀ base S place a m)
    (hidle : m.sched.idle ≠ noThread) {op : Operation} (hop : m.Permits op) :
    (∃ m' S' place' a', m.operate op = .ok m' ∧ Kept a₀ base S' place' a' m' ∧
      m'.sched.idle ≠ noThread) ∨
    m.operate op = .error .overflow ∧ CounterFull m.sched := by
  have hperform : ∀ caller call, ∃ m' S' place' a', m.perform caller call = .ok m' ∧
      Kept a₀ base S' place' a' m' ∧ m'.sched.idle ≠ noThread := by
    intro caller call
    obtain ⟨m', S', place', a', heq, h', hadds⟩ := h.perform hfresh caller call
    refine ⟨m', S', place', a', heq, h', (idle_ne_iff h'.refines).mpr ?_⟩
    have hsome := (idle_ne_iff h.refines).mp hidle
    rcases hadds with ⟨-, rfl, -⟩ | ⟨i, -, hadds⟩
    · exact hsome
    · rw [hadds.idle_eq]
      split_ifs
      · exact nofun
      · exact hsome
  cases op with
  | create caller entry => exact .inl (hperform caller (.create entry))
  | createUser caller entryVa userStackTop =>
    exact .inl (hperform caller (.createUser entryVa userStackTop))
  | interrupt address frame =>
    rw [Machine.operate]
    rcases h.irqCommon hfresh address fun hexit => ⟨hidle, (hop hexit).symm⟩ with
      ⟨m', S', place', a', heq, h', heffect⟩ | hfull
    · exact .inl ⟨m', S', place', a', heq, h', heffect.idle_eq ▸ hidle⟩
    · exact .inr hfull

/-- The invariant holds along every run, with the same number of frames for other code. -/
lemma run (hfresh : Fresh map a₀) (h : Kept a₀ base S place a m) (hidle : m.sched.idle ≠ noThread)
    (hrun : Relation.ReflTransGen Machine.Operates m m') :
    ∃ S' place' a', Kept a₀ base S' place' a' m' ∧ m'.sched.idle ≠ noThread := by
  induction hrun with
  | refl => exact ⟨S, place, a, h, hidle⟩
  | tail _ hstep ih =>
    obtain ⟨S₁, place₁, a₁, h₁, hidle₁⟩ := ih
    obtain ⟨op, hop, heq⟩ := hstep
    rcases h₁.operate hfresh hidle₁ hop with ⟨m₂, S', place', a', heq', h', hidle'⟩ | ⟨heq', -⟩
    · rw [heq] at heq'
      obtain rfl := Except.ok.inj heq'
      exact ⟨S', place', a', h', hidle'⟩
    · rw [heq] at heq'
      cases heq'

end Kept

/-! ## The stack of the handler -/

/-- The boot stack lies in a range that the frame allocator does not hand out. -/
def Machine.BootReserved (reserved : List ReservedRange) (m : Machine) : Prop :=
  0 < m.bootStack.start ∧ 0 < m.bootStack.len ∧
    ∃ r ∈ reserved, r.start ≤ m.bootStack.start ∧ m.bootStack.start + m.bootStack.len ≤ r.stop

namespace Inv

/-- The invariant holds at the start of a run, and every thread is prepared. -/
lemma started {reserved : List ReservedRange} {limit : ℕ}
    (hinitial : Initial map reserved (.new limit) a₀) (h : m.Started a₀)
    (hreserved : m.BootReserved reserved) :
    ∃ S place a, Inv a₀ S place a m ∧ m.unprepared = ∅ := by
  obtain ⟨s, bootStack, trampoline, entry, id, m₀, hframes, hboot, hperform, hresult⟩ := h
  obtain ⟨S₀, hlent, -⟩ := Owned.of_reached hinitial.fresh hframes
  have hparts : m₀.bootStack = bootStack ∧ m₀.unprepared = ∅ := by
    obtain ⟨⟨r, sched⟩, -, hboot⟩ := Checked.bind_eq_ok.mp hboot
    obtain rfl := Except.ok.inj hboot
    exact ⟨rfl, rfl⟩
  obtain ⟨hstart, hlen, hrange⟩ := hreserved
  rw [Machine.bootStack_perform hperform, hparts.1] at hstart hlen hrange
  obtain ⟨m', S, place, a, heq, h', hprepared⟩ :=
    (inv_boot hinitial hlent hstart hlen hrange hboot).perform hinitial.fresh 0 (.createIdle entry)
  obtain rfl := Except.ok.inj (heq.symm.trans hperform)
  refine ⟨S, place, a, h', ?_⟩
  rw [hresult] at hprepared
  exact (hprepared.resolve_right (by simp)).trans hparts.2

/-- The invariant holds as long as every interrupt is backed. -/
lemma run (hfresh : Fresh map a₀) (h : Inv a₀ S place a m) (hkept : ∀ m',
      Relation.ReflTransGen Machine.Operates m m' → m'.sched.idle ≠ noThread)
    (hrun : Relation.ReflTransGen Machine.ExecutesBacked m m') :
    ∃ S' place' a', Inv a₀ S' place' a' m' := by
  induction hrun with
  | refl => exact ⟨S, place, a, h⟩
  | tail hrun hstep ih =>
    obtain ⟨S₁, place₁, a₁, h₁⟩ := ih
    exact h₁.executes hfresh
      (hkept _ (hrun.lift id fun _ _ hop => hop.operates)) hstep

/-- As long as no creation has ended for lack of memory for a stack, every interrupt is backed. -/
lemma backed_of_stocked (hfresh : Fresh map a₀) (h : Inv a₀ S place a m)
    (hprepared : m.unprepared = ∅) (hkept : ∀ m',
      Relation.ReflTransGen Machine.Operates m m' → m'.sched.idle ≠ noThread)
    (hrun : Relation.ReflTransGen Machine.ExecutesStocked m m') :
    Relation.ReflTransGen Machine.ExecutesBacked m m' ∧ m'.unprepared = ∅ := by
  induction hrun with
  | refl => exact ⟨.refl, hprepared⟩
  | @tail m₁ m₂ hrun hstep ih =>
    obtain ⟨hbacked, hprepared₁⟩ := ih
    obtain ⟨S₁, place₁, a₁, h₁⟩ := h.run hfresh hkept hbacked
    have hidle : m₁.sched.idle ≠ noThread :=
      hkept _ (hrun.lift id fun _ _ hop => hop.operates)
    obtain ⟨op, hpermits, harrives, heq, hstocked⟩ := hstep
    have hperform : ∀ {caller call}, m₁.perform caller call = .ok m₂ →
        m₂.result caller ≠ some (.error .noStack) → m₂.unprepared = ∅ := by
      intro caller call heq hresult
      obtain ⟨m', -, -, -, heq', -, hunprepared⟩ := h₁.perform hfresh caller call
      obtain rfl := Except.ok.inj (heq'.symm.trans heq)
      exact (hunprepared.resolve_right hresult).trans hprepared₁
    cases op with
    | create caller entry =>
      exact ⟨hbacked.tail ⟨_, hpermits, harrives, trivial, heq⟩, hperform heq hstocked⟩
    | createUser caller entryVa userStackTop =>
      exact ⟨hbacked.tail ⟨_, hpermits, harrives, trivial, heq⟩, hperform heq hstocked⟩
    | interrupt address frame =>
      have hguarded : m₁.Guarded (.interrupt address frame) := fun id _ => by
        rw [hprepared₁]
        exact Finset.notMem_empty id
      refine ⟨hbacked.tail ⟨_, hpermits, harrives, ?_, heq⟩,
        (Machine.irqCommon_eq heq).2.2.trans hprepared₁⟩
      exact (h₁.backed_iff_guarded fun hvector => ⟨hidle, (hpermits hvector).symm⟩).mpr hguarded

/-- What an interrupt leaves: the processor executes the current thread, and the next interrupt
spares it, under exact conditions. -/
lemma interrupt_iff_backed (hfresh : Fresh map a₀) (h : Inv a₀ S place a m)
    {S' : Finset ℕ} {place' : ThreadId → Option ℕ} {a' : AbstractSched}
    (hkept : Kept a₀ base S' place' a' m) (hidle : m.sched.idle ≠ noThread) {address : ℕ}
    {frame : IrqFrame} (hpermits : m.Permits (.interrupt address frame))
    (harrives : m.Arrives (.interrupt address frame))
    (heq : m.operate (.interrupt address frame) = .ok m') :
    (m'.running = some m'.sched.current ↔ m.Backed (.interrupt address frame)) ∧
    (m'.SparesRunning ↔ m.Backed (.interrupt address frame) ∨
      frame.vector % 2 ^ 8 ∉ [exitVector, syscallVector]) := by
  have hexit : frame.vector % 2 ^ 8 ∈ [exitVector, syscallVector] →
      m.sched.idle ≠ noThread ∧ m.sched.idle ≠ m.sched.current :=
    fun hvector => ⟨hidle, (hpermits hvector).symm⟩
  obtain ⟨S₁, place₁, a₁, h₁, heffect⟩ : ∃ S₁ place₁ a₁, Kept a₀ base S₁ place₁ a₁ m' ∧
      Interrupted m m' (frame.vector % 2 ^ 8) := by
    rcases hkept.irqCommon hfresh address hexit with ⟨m'', S₁, place₁, a₁, heq', h₁, heffect⟩ |
      ⟨heq', -⟩
    · obtain rfl := Except.ok.inj (heq'.symm.trans heq)
      exact ⟨S₁, place₁, a₁, h₁, heffect⟩
    · cases heq'.symm.trans heq
  by_cases hbacked : m.Backed (.interrupt address frame)
  · obtain ⟨S₂, place₂, a₂, h₂⟩ :=
      h.executes hfresh hidle ⟨_, hpermits, harrives, hbacked, heq⟩
    refine ⟨iff_of_true h₂.running_eq hbacked, iff_of_true ?_ (.inl hbacked)⟩
    refine (h₁.sparesRunning_iff hfresh h₂.running).mpr (h₁.current_ne_exited _ ?_)
    exact h₂.refines.current_eq.symm
  · have hguarded : ¬ m.Guarded (.interrupt address frame) :=
      fun hcon => hbacked ((h.backed_iff_guarded hexit).mpr hcon)
    obtain ⟨hrunning, hother, hexited⟩ :=
      h.interrupt_running hfresh (h.onStack_of_arrives harrives) hexit heq hguarded
    refine ⟨iff_of_false (fun hcon => ?_) hbacked, ?_⟩
    · exact hother (Option.some.inj (hcon.symm.trans hrunning))
    · rw [h₁.sparesRunning_iff hfresh hrunning, or_iff_right hbacked]
      constructor
      · exact fun hspared hvector => hspared (hexited hvector)
      · exact fun hvector hcon => hvector (heffect.exited _ hcon).1

end Inv

/-- **The stacks of the threads.**  After `init_boot` and a successful `create_idle`, calls of
`create` and `create_user` and interrupts follow in every order, but the idle thread does not exit.
In every state that is reached the stacks in the slots are four frames each that the allocator has
lent, and those of different slots are disjoint; the number of free frames and of the frames in the
slots together does not change; `reap_exited` releases exactly the threads that have exited, each
once, not the current one, and `free_frames` returns no error; and the next operation returns,
unless a counter of the scheduler overflows.

The thread on whose stack the handler runs is the current one, and `reap_exited` does not release
it, as long as every interrupt so far was backed, that is, did not switch to a thread without a
frame; in particular as long as no creation has ended for lack of memory for a stack.  The next
interrupt leaves it so if and only if it is backed as well, and it makes the one after it release
the stack on which this runs if and only if it is not backed and its thread exits. -/
theorem stack_ownership (bitmap : Slice UInt8) (map : MemoryMap) (reserved : List ReservedRange)
    (limit : ℕ) (a₀ : FrameAllocator)
    (hinit : FrameAllocator.init bitmap map reserved (.new limit) = .ok (.ok a₀)) (m₁ m : Machine)
    (hstarted : m₁.Started a₀) (hrun : Relation.ReflTransGen Machine.Operates m₁ m) :
    (∀ i r, (m.slots i).stack = some r → ∃ k, r = stackAt a₀ k ∧
      ∀ j < threadStackPages, k + j ∈ a₀.freeSet ∧ k + j ∉ m.frames.freeSet) ∧
    (∀ i j r r', i ≠ j → (m.slots i).stack = some r → (m.slots j).stack = some r' → Apart r r') ∧
    m.frames.freeFrames + threadStackPages * m.stackCount =
      m₁.frames.freeFrames + threadStackPages * m₁.stackCount ∧
    (∃ m' log, m.reapExited maxThreads = .ok m' ∧ m.reapLog maxThreads = .ok log ∧
      ReapsExited m m' log) ∧
    (∀ op, m.Permits op → (∃ m', m.operate op = .ok m') ∨
      m.operate op = .error .overflow ∧ CounterFull m.sched) ∧
    (m₁.BootReserved reserved → Relation.ReflTransGen Machine.ExecutesBacked m₁ m →
      m.running = some m.sched.current ∧ m.SparesRunning ∧
      ∀ address frame m', m.Permits (.interrupt address frame) →
        m.Arrives (.interrupt address frame) → m.operate (.interrupt address frame) = .ok m' →
        (m'.running = some m'.sched.current ↔ m.Backed (.interrupt address frame)) ∧
        (m'.SparesRunning ↔ m.Backed (.interrupt address frame) ∨
          frame.vector % 2 ^ 8 ∉ [exitVector, syscallVector])) ∧
    (m₁.BootReserved reserved → Relation.ReflTransGen Machine.ExecutesStocked m₁ m →
      Relation.ReflTransGen Machine.ExecutesBacked m₁ m) := by
  have hinitial := initial_of_init hinit
  have hfresh := hinitial.fresh
  obtain ⟨base, S₁, place₁, a₁, h₁, hidle₁⟩ := Kept.started hinitial hstarted
  obtain ⟨S, place, a, h, hidle⟩ := h₁.run hfresh hidle₁ hrun
  have hidles : ∀ m', Relation.ReflTransGen Machine.Operates m₁ m' →
      m'.sched.idle ≠ noThread := fun m' hrun' => by
    obtain ⟨-, -, -, -, hidle'⟩ := h₁.run hfresh hidle₁ hrun'
    exact hidle'
  refine ⟨fun i r hr => ?_, fun i j r r' hne hr hr' => h.apart hne hr hr', ?_, ?_, fun op hop => ?_,
    fun hboot hbacked => ?_, fun hboot hstocked => ?_⟩
  · obtain ⟨k, -, hk, hframes⟩ := h.outstanding hr
    exact ⟨k, hk, hframes⟩
  · exact Nat.add_right_cancel (h.freeFrames_eq.trans h₁.freeFrames_eq.symm)
  · obtain ⟨m', log, -, -, -, hreap, hlog, -, hreaps, -⟩ := h.reapExited hfresh
      ((Finset.card_le_univ _).trans (Fintype.card_fin maxThreads).le)
    exact ⟨m', log, hreap, hlog, hreaps⟩
  · rcases h.operate hfresh hidle hop with ⟨m', -, -, -, heq, -⟩ | hfull
    · exact .inl ⟨m', heq⟩
    · exact .inr hfull
  · obtain ⟨S₀, place₀, a₀', hinv₁, -⟩ := Inv.started hinitial hstarted hboot
    obtain ⟨S', place', a', hinv⟩ := hinv₁.run hfresh hidles hbacked
    refine ⟨hinv.running_eq, (h.sparesRunning_iff hfresh hinv.running).mpr
      (h.current_ne_exited _ hinv.refines.current_eq.symm), fun address frame m' => ?_⟩
    exact hinv.interrupt_iff_backed hfresh h hidle
  · obtain ⟨S₀, place₀, a₀', hinv₁, hprepared⟩ := Inv.started hinitial hstarted hboot
    exact (hinv₁.backed_of_stocked hfresh hprepared hidles hstocked).1

/-- The test whether the small machine starts and executes some operations that pass a test, and
then has a property. -/
def executesOnSmall (test : Machine → Operation → Bool) (ops : List Operation)
    (p : Machine → Bool) : Bool :=
  bootsSmall fun m₀ => Checked.okAnd (m₀.perform 0 (.createIdle 0x201000)) fun m₁ =>
    m₁.result 0 = some (.ok 1) && Checked.okAnd
      (replay (fun m op => m.Permits op && m.Arrives op && test m op) Machine.operate ops m₁)
      fun x => x.any fun trace => trace.getLast?.any fun y => p y.2

/-- Such a run. -/
lemma exists_executesOnSmall {test : Machine → Operation → Bool} {ops : List Operation}
    {p : Machine → Bool} (hok : executesOnSmall test ops p = true) : ∃ a₀ m₁ m,
    FrameAllocator.init ⟨[0, 0], by decide⟩ smallMap [⟨0x8000, 0xC000⟩] (.new 0x108000) =
      .ok (.ok a₀) ∧ m₁.Started a₀ ∧ m₁.BootReserved [⟨0x8000, 0xC000⟩] ∧
    Relation.ReflTransGen (fun m m' => ∃ op, m.Permits op ∧ m.Arrives op ∧ test m op = true ∧
      m.operate op = .ok m') m₁ m ∧ p m = true := by
  obtain ⟨a₀, m₀, hinit, hboot, hok⟩ := exists_boot_of_bootsSmall hok
  obtain ⟨m₁, hidle, hok⟩ := Checked.okAnd_eq_true_iff.mp hok
  obtain ⟨hresult, hok⟩ := Bool.and_eq_true_iff.mp hok
  obtain ⟨m, hrun, hp⟩ := exists_reached_of_replay hok
  simp only [Bool.and_eq_true, decide_eq_true_eq, and_assoc] at hrun hresult
  have hstack : m₁.bootStack = ⟨0x8000, 0x4000⟩ := by
    rw [Machine.bootStack_perform hidle]
    obtain ⟨⟨r, sched⟩, -, hboot⟩ := Checked.bind_eq_ok.mp hboot
    rw [← Except.ok.inj hboot]
  refine ⟨a₀, m₁, m, hinit, ⟨⟨a₀, []⟩, _, _, _, 1, m₀, .refl, hboot, hidle, hresult⟩, ?_, hrun, hp⟩
  rw [Machine.BootReserved, hstack]
  exact ⟨by decide, by decide, ⟨0x8000, 0xC000⟩, by simp, by decide, by decide⟩

/-- A thread is created and switched to, it exits, and the boot thread goes on: the next interrupt
frees the stack of the thread that has exited, and not the one it runs on. -/
theorem stack_ownership_exit : ∃ a₀ m₁ m m', m₁.Started a₀ ∧
    Relation.ReflTransGen Machine.ExecutesBacked m₁ m ∧ m.running = some 0 ∧
    m.sched.states 2 = .exited ∧ m.SparesRunning ∧ m.reapExited maxThreads = .ok m' ∧
    (m.slots 2).stack.isSome = true ∧ (m'.slots 2).stack = none ∧ m'.slots 0 = m.slots 0 := by
  let p : Machine → Bool := fun m => m.running = some 0 && m.sched.states 2 = .exited &&
    m.sched.states 0 = .running && (m.slots 2).stack.isSome
  have hok : executesOnSmall (fun m op => m.Backed op)
      [.create 0 0x202000, .interrupt 0xBF00 { vector := timerVector },
        .interrupt 0x107F00 { vector := exitVector }] p = true := by
    decide +kernel
  obtain ⟨a₀, m₁, m, hinit, hstarted, hboot, hrun, hpred⟩ := exists_executesOnSmall hok
  simp only [p, Bool.and_eq_true, decide_eq_true_eq] at hpred hrun
  obtain ⟨⟨⟨hrunning, hexited⟩, hzero⟩, hstack⟩ := hpred
  have hbacked : Relation.ReflTransGen Machine.ExecutesBacked m₁ m := hrun
  obtain ⟨-, -, -, ⟨m', log, hreap, -, hreaps⟩, -, hhandler, -⟩ :=
    stack_ownership _ _ _ _ a₀ hinit m₁ m hstarted
      (hbacked.lift id fun _ _ hop => hop.operates)
  exact ⟨a₀, m₁, m, m', hstarted, hbacked, hrunning, hexited, (hhandler hboot hbacked).2.1, hreap,
    hstack, (hreaps.released 2 hexited).2, (hreaps.kept 0 (by rw [hzero]; exact nofun)).2⟩

/-- The handler frees the stack that it runs on.  The machine has frames for two stacks.  The boot
thread creates the thread 2, and then the thread 3, for which there is no stack.  A tick switches to
the thread 2.  This exits, and the scheduler picks the thread 3; the handler returns 0, so that the
processor goes on with the thread 2, on its stack.  The next interrupt releases this stack: four
frames are free that the processor uses. -/
theorem handler_stack_released : ∃ a₀ m₁ m m' r, m₁.Started a₀ ∧
    m₁.BootReserved [⟨0x8000, 0xC000⟩] ∧ Relation.ReflTransGen Machine.Executes m₁ m ∧
    m.running = some 2 ∧ m.sched.current = 3 ∧ (m.slots 2).stack = some r ∧
    m.Arrives (.interrupt 0x107F00 { vector := timerVector }) ∧ OnStack r 0x107F00 ∧
    ¬ m.SparesRunning ∧ m.reapExited maxThreads = .ok m' ∧ (m'.slots 2).stack = none ∧
    m'.frames.freeFrames = m.frames.freeFrames + threadStackPages := by
  let p : Machine → Bool := fun m => m.running = some 2 && m.sched.current = 3 &&
    (m.slots 2).stack = some ⟨0x104000, 0x4000⟩ &&
    m.Arrives (.interrupt 0x107F00 { vector := timerVector }) &&
    Checked.okAnd (m.reapLog maxThreads) (fun log => 2 ∈ log.map Prod.fst) &&
    Checked.okAnd (m.reapExited maxThreads) (fun m' => (m'.slots 2).stack = none &&
      m'.frames.freeFrames = m.frames.freeFrames + threadStackPages)
  have hok : executesOnSmall (fun _ _ => true)
      [.create 0 0x202000, .create 0 0x203000, .interrupt 0xBF00 { vector := timerVector },
        .interrupt 0x107F00 { vector := exitVector }] p = true := by
    decide +kernel
  obtain ⟨a₀, m₁, m, hinit, hstarted, hboot, hrun, hpred⟩ := exists_executesOnSmall hok
  simp only [p, Bool.and_eq_true, decide_eq_true_eq, Checked.okAnd_eq_true_iff] at hpred
  obtain ⟨⟨⟨⟨⟨hrunning, hcurrent⟩, hstack⟩, harrives⟩, log, hlog, hmem⟩, m', hreap, hnone, hfree⟩ :=
    hpred
  refine ⟨a₀, m₁, m, m', _, hstarted, hboot, hrun.lift id fun _ _ hop => ?_,
    hrunning, hcurrent, hstack, harrives, by decide, fun hcon => hcon log 2 hlog hrunning hmem,
    hreap, hnone, hfree⟩
  obtain ⟨op, hpermits, harrives, -, heq⟩ := hop
  exact ⟨op, hpermits, harrives, heq⟩

/-- Which slots are those of user threads: the ones that `create_user` has written, until their
thread is reaped. -/
lemma Kept.user_operate (hfresh : Fresh map a₀) (h : Kept a₀ base S place a m)
    (hidle : m.sched.idle ≠ noThread) :
    (∀ caller entryVa userStackTop m' id,
      m.operate (.createUser caller entryVa userStackTop) = .ok m' →
      m'.result caller = some (.ok id) → (m'.slot id).user = true) ∧
    (∀ caller entry m' id, m.operate (.create caller entry) = .ok m' →
      m'.result caller = some (.ok id) → (m'.slot id).user = false) ∧
    ∀ op m' j, m.Permits op → m.operate op = .ok m' → m.sched.states j ≠ .unused →
      m.sched.states j ≠ .exited → (m'.slots j).user = (m.slots j).user := by
  have hnew : ∀ {caller call m' id}, m.perform caller call = .ok m' →
      m'.result caller = some (.ok id) → (m'.slot id).user = call.start.isUser := by
    intro caller call m' id heq hresult
    obtain ⟨m'', S', place', a', heq', -, hadds⟩ := h.perform hfresh caller call
    obtain rfl := Except.ok.inj (heq'.symm.trans heq)
    rcases hadds with ⟨hcon, -⟩ | ⟨i, hi, -⟩
    · exact absurd hresult (hcon id)
    · obtain ⟨rfl, huser⟩ := hi id hresult
      rw [Machine.slot_val, huser]
  have hold : ∀ {caller call m'}, m.perform caller call = .ok m' → ∀ j,
      m.sched.states j ≠ .unused → (m'.slots j).user = (m.slots j).user := by
    intro caller call m' heq j hj
    obtain ⟨m'', S', place', a', heq', -, hadds⟩ := h.perform hfresh caller call
    obtain rfl := Except.ok.inj (heq'.symm.trans heq)
    rcases hadds with ⟨-, -, hslots⟩ | ⟨i, -, hadds⟩
    · rw [hslots]
    · rw [hadds.slots_eq j fun hcon => hj ?_]
      rw [h.refines.states_eq, hcon, hadds.unused]
  refine ⟨fun caller entryVa userStackTop m' id heq => hnew heq,
    fun caller entry m' id heq => hnew heq, fun op m' j hop heq hunused hexited => ?_⟩
  cases op with
  | create caller entry => exact hold heq j hunused
  | createUser caller entryVa userStackTop => exact hold heq j hunused
  | interrupt address frame =>
    rcases h.irqCommon hfresh address fun hexit => ⟨hidle, (hop hexit).symm⟩ with
      ⟨m'', -, -, -, heq', -, heffect⟩ | ⟨heq', -⟩
    · obtain rfl := Except.ok.inj (heq'.symm.trans heq)
      exact heffect.user_eq j hexited
    · cases heq'.symm.trans heq

/-- **The stack for interrupts in user mode.**  In every state that operations in every order reach,
also when calls have found no stack for their threads: if the current thread of the scheduler is a
user thread, then `rsp0` is its `kernel_stack_top`, and this is the end of the stack in its slot,
four frames that the allocator has lent and that belong to no other slot.  The user threads are
those that `create_user` has created: it marks the slot of its thread, `create` does not, and no
operation changes the mark until the thread is reaped. -/
theorem rsp0_of_user (bitmap : Slice UInt8) (map : MemoryMap) (reserved : List ReservedRange)
    (limit : ℕ) (a₀ : FrameAllocator)
    (hinit : FrameAllocator.init bitmap map reserved (.new limit) = .ok (.ok a₀)) (m₁ m : Machine)
    (hstarted : m₁.Started a₀) (hrun : Relation.ReflTransGen Machine.Operates m₁ m) (i : ThreadId)
    (hcurrent : m.sched.current = i.val) (huser : (m.slots i).user = true) :
    m.rsp0 = (m.slots i).kernelStackTop ∧
    (∃ r k, (m.slots i).stack = some r ∧ r = stackAt a₀ k ∧ m.rsp0 = r.start + r.len ∧
      (∀ j < threadStackPages, k + j ∈ a₀.freeSet ∧ k + j ∉ m.frames.freeSet) ∧
      ∀ i' r', i' ≠ i → (m.slots i').stack = some r' → Apart r r') ∧
    (∀ caller entryVa userStackTop m' id,
      m.operate (.createUser caller entryVa userStackTop) = .ok m' →
      m'.result caller = some (.ok id) → (m'.slot id).user = true) ∧
    (∀ caller entry m' id, m.operate (.create caller entry) = .ok m' →
      m'.result caller = some (.ok id) → (m'.slot id).user = false) ∧
    ∀ op m' j, m.Permits op → m.operate op = .ok m' → m.sched.states j ≠ .unused →
      m.sched.states j ≠ .exited → (m'.slots j).user = (m.slots j).user := by
  have hinitial := initial_of_init hinit
  obtain ⟨base, S₁, place₁, a₁, h₁, hidle₁⟩ := Kept.started hinitial hstarted
  obtain ⟨S, place, a, h, hidle⟩ := h₁.run hinitial.fresh hidle₁ hrun
  obtain rfl : a.current = i := Fin.ext (h.refines.current_eq.symm.trans hcurrent)
  have hrsp0 := h.rsp0_eq huser
  obtain ⟨k, hk, htop⟩ := h.user_eq _ huser
  have hstack : (m.slots a.current).stack = some (stackAt a₀ k) := by
    rw [h.stack_eq, hk]
    rfl
  obtain ⟨k', hk', -, hframes⟩ := h.outstanding hstack
  obtain rfl : k' = k := Option.some.inj (hk'.symm.trans hk)
  exact ⟨hrsp0, ⟨_, k', hstack, rfl, hrsp0.trans htop, hframes,
    fun i' r' hne hr' => h.apart hne.symm hstack hr'⟩, h.user_operate hinitial.fresh hidle⟩

/-- The kernel has created a user thread and switched to it. -/
theorem rsp0_of_user_yield : ∃ a₀ m₁ m, m₁.Started a₀ ∧
    Relation.ReflTransGen Machine.Operates m₁ m ∧ m.sched.current = 2 ∧
    (m.slots 2).user = true ∧ m.rsp0 = (m.slots 2).kernelStackTop := by
  let p : Machine → Bool := fun m => m.sched.current = 2 && (m.slots 2).user
  have hok : executesOnSmall (fun _ _ => true)
      [.createUser 0 0x400000 0x500000, .interrupt 0xBF00 { vector := yieldVector }] p = true := by
    decide +kernel
  obtain ⟨a₀, m₁, m, hinit, hstarted, -, hrun, hpred⟩ := exists_executesOnSmall hok
  simp only [p, Bool.and_eq_true, decide_eq_true_eq] at hpred
  have hoperates : Relation.ReflTransGen Machine.Operates m₁ m := hrun.lift id fun _ _ hop => by
    obtain ⟨op, hpermits, -, -, heq⟩ := hop
    exact ⟨op, hpermits, heq⟩
  exact ⟨a₀, m₁, m, hstarted, hoperates, hpred.1, hpred.2,
    (rsp0_of_user _ _ _ _ a₀ hinit m₁ m hstarted hoperates 2 hpred.1 hpred.2).1⟩

end Kernel

end ParanukOS
