import ParanukOS.Kernel.Thread.Ownership
import ParanukOS.Kernel.User.Pages

/-!
# The frames of the user service

`init` takes frames twice: four for the user stack, which only the page tables know, and four for
the stack of the thread, which are in its slot.  When the service has ended and is reaped, `release`
frees what is in the slot, and nothing frees the user stack.  Hence the frames of the user stack are
lost with every service, whatever the schedule is.

## Outline

* `Kept.lend`: other code takes frames.
* `ServiceStep`, `Scheduled`: the schedule after the start of the service.
* `service_loses_stack`: the main theorem, and `service_frames_not_returned`, a run.
-/

namespace ParanukOS

open Foundation KernelMemory KernelSched FrameAllocator

namespace Kernel

variable {map : MemoryMap} {a₀ : FrameAllocator} {base : ℕ} {S : Finset ℕ}
  {place : ThreadId → Option ℕ} {a : AbstractSched} {m m' m₂ : Machine} {i : ThreadId}

/-! ## The schedule -/

/-- An invocation of the handler.  The thread of the service may exit, by `exit` or by its system
call; no other thread does. -/
def ServiceStep (id : ℕ) (m m' : Machine) : Prop :=
  ∃ address frame, (frame.vector % 2 ^ 8 ∈ [exitVector, syscallVector] → m.sched.current = id) ∧
    m.operate (.interrupt address frame) = .ok m'

/-- What stays the same after the start of the service: the idle thread, and the stacks of the other
threads, none of which has exited. -/
structure Scheduled (m₂ : Machine) (i : ThreadId) (m : Machine) : Prop where
  idle_eq : m.sched.idle = m₂.sched.idle
  stack_eq : ∀ j, j ≠ i → (m.slots j).stack = (m₂.slots j).stack
  ne_exited : ∀ j, j ≠ i → m.sched.states j ≠ .exited

/-- One invocation of the handler. -/
lemma Scheduled.step (hfresh : Fresh map a₀) (h : Kept a₀ base S place a m)
    (hscheduled : Scheduled m₂ i m) (hidle : m₂.sched.idle ≠ noThread ∧ m₂.sched.idle ≠ i.val)
    (hstep : ServiceStep i.val m m') :
    ∃ S' place' a', Kept a₀ base S' place' a' m' ∧ Scheduled m₂ i m' := by
  obtain ⟨address, frame, hservice, heq⟩ := hstep
  have hexit : frame.vector % 2 ^ 8 ∈ [exitVector, syscallVector] →
      m.sched.idle ≠ noThread ∧ m.sched.idle ≠ m.sched.current := by
    intro hvector
    rw [hservice hvector, hscheduled.idle_eq]
    exact hidle
  rw [Machine.operate] at heq
  rcases h.irqCommon hfresh address hexit with
    ⟨m₁, S', place', a', hhandler, h', heffect⟩ | ⟨hhandler, -⟩
  · rw [hhandler] at heq
    obtain rfl := Except.ok.inj heq
    refine ⟨S', place', a', h', heffect.idle_eq.trans hscheduled.idle_eq, fun j hj => ?_,
      fun j hj hcon => ?_⟩
    · rw [heffect.stack_eq j (hscheduled.ne_exited j hj)]
      exact hscheduled.stack_eq j hj
    · obtain ⟨hvector, hcurrent⟩ := heffect.exited j hcon
      exact hj (Fin.ext (hcurrent.trans (hservice hvector)))
  · rw [hhandler] at heq
    cases heq

/-- The schedule. -/
lemma Scheduled.run (hfresh : Fresh map a₀) (h : Kept a₀ base S place a m₂)
    (hnone : ∀ j, j ≠ i → m₂.sched.states j ≠ .exited)
    (hidle : m₂.sched.idle ≠ noThread ∧ m₂.sched.idle ≠ i.val)
    (hrun : Relation.ReflTransGen (ServiceStep i.val) m₂ m) :
    ∃ S' place' a', Kept a₀ base S' place' a' m ∧ Scheduled m₂ i m := by
  induction hrun with
  | refl => exact ⟨S, place, a, h, rfl, fun _ _ => rfl, hnone⟩
  | tail _ hstep ih =>
    obtain ⟨S₁, place₁, a₁, h₁, hscheduled⟩ := ih
    exact hscheduled.step hfresh h₁ hidle hstep

/-! ## The start of the service -/

namespace Kept

/-- Other code takes frames. -/
lemma lend (hfresh : Fresh map a₀) (h : Kept a₀ base S place a m) {count : ℕ} {r : PhysRange}
    {frames : FrameAllocator} (heq : m.frames.allocContiguous count = .ok (some r, frames)) :
    ∃ S', Kept a₀ (base + count) S' place a { m with frames } := by
  obtain ⟨k, -, hrun, hlent⟩ := h.layout.lent.of_allocContiguous hfresh heq
  have hdisjoint : Disjoint S (Finset.Ico k (k + count)) :=
    Finset.disjoint_right.mpr fun j hj =>
      h.layout.lent.notMem_of_runAt hrun (Finset.mem_Ico.mp hj).1 (Finset.mem_Ico.mp hj).2
  have hlayout : Stacks a₀ frames noBootStack (S ∪ Finset.Ico k (k + count)) place :=
    { h.layout with
      lent := hlent
      subset := fun id j hj => (h.layout.subset id j hj).trans Finset.subset_union_left }
  refine ⟨_, { h with layout := hlayout, card_eq := ?_ }⟩
  rw [Finset.card_union_of_disjoint hdisjoint, h.card_eq, Nat.card_Ico, Nat.add_sub_cancel_left,
    Nat.add_right_comm]

/-- The idle thread is not unused. -/
lemma idle_ne_of_unused (h : Kept a₀ base S place a m) (hi : a.states i = .unused)
    (hidle : m.sched.idle ≠ noThread) : m.sched.idle ≠ i.val := by
  rw [h.refines.idle_eq] at hidle ⊢
  cases hcase : a.idle with
  | none =>
    rw [hcase] at hidle
    exact absurd rfl hidle
  | some t =>
    intro hcon
    obtain rfl : t = i := Fin.ext hcon
    rcases h.valid.idle_state t hcase with hstate | hstate
    · rw [hi] at hstate
      cases hstate
    · rw [hi] at hstate
      cases hstate

end Kept

/-- The number of stacks depends on which slots have one. -/
lemma stackCount_congr (h : ∀ j, (m'.slots j).stack.isSome = (m.slots j).stack.isSome) :
    m'.stackCount = m.stackCount := by
  rw [Machine.stackCount, Machine.stackCount]
  congr 1
  ext j
  simp only [Finset.mem_filter_univ, h j]

/-! ## A run -/

/-- The memory map of a machine with one descriptor: conventional memory, 1 MiB and 12 pages
long. -/
def serviceMap : MemoryMap where
  bytes := ⟨[7, 0, 0, 0, 0, 0, 0, 0] ++ List.replicate 8 0 ++ List.replicate 8 0 ++
    [12, 1, 0, 0, 0, 0, 0, 0] ++ List.replicate 8 0, by decide⟩
  entries := 1
  stride := 40
  version := 1
  stop_lt := by decide

/-- The frames and the threads in a run of the service: it is started, it is switched to, it makes
its system call, and it is reaped. -/
def runsService : Checked (Option (FrameAllocator × Machine × FrameAllocator × Machine × Machine ×
    Machine × Machine)) := do
  match ← FrameAllocator.init ⟨[0, 0, 0, 0], by decide⟩ serviceMap [] (.new 0x10c000) with
  | .error _ => return none
  | .ok a₀ =>
    let m₀ ← Machine.boot a₀ ⟨0x8000, 0x4000⟩ 0x200000
    let m₁ ← m₀.perform 0 (.createIdle 0x201000)
    let (stack, frames) ← m₁.frames.allocContiguous userStackPages
    if stack ≠ some ⟨0x104000, 0x4000⟩ then return none
    let m₂ ← { m₁ with frames }.perform 0
      (.createUser 0x100000000 (userStackVa + 4096 * userStackPages))
    let m₃ ← m₂.operate (.interrupt 0xbf00 { vector := yieldVector })
    let m₄ ← m₃.operate (.interrupt 0x10bf50 { vector := syscallVector })
    let m₅ ← m₄.operate (.interrupt 0xbf00 { vector := timerVector })
    return some (a₀, m₁, frames, m₂, m₃, m₄, m₅)

/-- Such a run. -/
lemma exists_runsService : ∃ a₀ m₁ m, ∃ system system' : System,
    FrameAllocator.init ⟨[0, 0, 0, 0], by decide⟩ serviceMap [] (.new 0x10c000) = .ok (.ok a₀) ∧
    m₁.Started a₀ ∧ system.machine = m₁ ∧ (∀ j, m₁.sched.states j ≠ .exited) ∧
    system.init (smallBoot 0x80000 0x2000) = .ok (.ok 2, system') ∧
    Relation.ReflTransGen (ServiceStep 2) system'.machine m ∧ m.sched.states 2 = .unused ∧
    m₁.frames.freeFrames = 8 ∧ m.frames.freeFrames = 4 := by
  have hok : Checked.okAnd runsService (fun x => x.any fun (_, m₁, _, m₂, m₃, _, m₅) =>
      m₁.result 0 = some (.ok 1) && m₁.sched.current = 0 && (∀ j, m₁.sched.states j ≠ .exited) &&
        m₂.result 0 = some (.ok 2) && m₃.sched.current = 2 && m₅.sched.states 2 = .unused &&
        m₁.frames.freeFrames = 8 && m₅.frames.freeFrames = 4) = true := by decide +kernel
  obtain ⟨x, hx, hpred⟩ := Checked.okAnd_eq_true_iff.mp hok
  obtain ⟨result, hinit, hx⟩ := Checked.bind_eq_ok.mp hx
  cases result with
  | error e =>
    obtain rfl := Except.ok.inj hx
    cases hpred
  | ok a₀ =>
    obtain ⟨m₀, hboot, hx⟩ := Checked.bind_eq_ok.mp hx
    obtain ⟨m₁, hidle, hx⟩ := Checked.bind_eq_ok.mp hx
    obtain ⟨⟨stack, frames⟩, halloc, hx⟩ := Checked.bind_eq_ok.mp hx
    by_cases hstack : stack ≠ some ⟨0x104000, 0x4000⟩
    · simp only [if_pos hstack] at hx
      obtain rfl := Except.ok.inj hx
      cases hpred
    simp only [if_neg hstack] at hx
    obtain rfl := not_not.mp hstack
    obtain ⟨m₂, hcreate, hx⟩ := Checked.bind_eq_ok.mp hx
    obtain ⟨m₃, hyield, hx⟩ := Checked.bind_eq_ok.mp hx
    obtain ⟨m₄, hsyscall, hx⟩ := Checked.bind_eq_ok.mp hx
    obtain ⟨m₅, htimer, hx⟩ := Checked.bind_eq_ok.mp hx
    obtain rfl := Except.ok.inj hx
    simp only [Option.any_some, Bool.and_eq_true, decide_eq_true_eq] at hpred
    obtain ⟨⟨⟨⟨⟨⟨⟨hresult₁, hcurrent₁⟩, hnone⟩, hresult₂⟩, hcurrent₃⟩, hreaped⟩, h8⟩, h4⟩ := hpred
    obtain ⟨-, arena, -, -, -, -, -, -, htables, hlength⟩ := exists_ready 0x80000 0x2000
    obtain ⟨mapped, arena', hmap⟩ := @exists_mapImage (smallBoot 0x80000 0x2000) _ _ _ _ (by decide)
      ⟨by decide, by decide, by decide, by decide, by decide, by decide⟩
      ⟨by decide, by decide, by decide, by decide, by decide, by decide⟩ (by decide +kernel)
      (by decide) (by decide) htables hlength halloc
    have hservice : System.init ⟨m₁, arena, none⟩ (smallBoot 0x80000 0x2000) =
        .ok (.ok 2, ⟨m₂, arena', some 2⟩) := by
      refine init_of_parts hmap ?_ ?_
      · rw [hcurrent₁]
        exact hcreate
      · rw [hcurrent₁]
        exact hresult₂
    have hfirst : ServiceStep 2 m₂ m₃ :=
      ⟨_, _, fun hcon => absurd hcon (by decide), hyield⟩
    have hsecond : ServiceStep 2 m₃ m₄ := ⟨_, _, fun _ => hcurrent₃, hsyscall⟩
    have hthird : ServiceStep 2 m₄ m₅ := ⟨_, _, fun hcon => absurd hcon (by decide), htimer⟩
    exact ⟨a₀, m₁, m₅, ⟨m₁, arena, none⟩, ⟨m₂, arena', some 2⟩, hinit,
      ⟨⟨a₀, []⟩, _, _, _, 1, m₀, .refl, hboot, hidle, hresult₁⟩, rfl, hnone, hservice,
      .tail (.tail (.single hfirst) hsecond) hthird, hreaped, h8, h4⟩

/-- **The service loses frames.**  Let the service be started in any state that the kernel reaches,
when no thread waits to be reaped.  Let the handler be invoked any number of times, and let no other
thread exit.  When the service has been reaped, there are fewer free frames than before its start,
exactly by the frames of the user stack. -/
theorem service_loses_stack (bitmap : Slice UInt8) (map : MemoryMap) (reserved : List ReservedRange)
    (limit : ℕ) (a₀ : FrameAllocator)
    (hinit : FrameAllocator.init bitmap map reserved (.new limit) = .ok (.ok a₀)) (m₁ : Machine)
    (hstarted : m₁.Started a₀) (system system' : System)
    (hreached : Relation.ReflTransGen Machine.Operates m₁ system.machine)
    (hnone : ∀ j, system.machine.sched.states j ≠ .exited) (info : BootInfo) (i : ThreadId)
    (hservice : system.init info = .ok (.ok i.val, system')) (m : Machine)
    (hrun : Relation.ReflTransGen (ServiceStep i.val) system'.machine m)
    (hreaped : m.sched.states i = .unused) :
    m.frames.freeFrames + userStackPages = system.machine.frames.freeFrames ∧
    m.frames.freeFrames ≠ system.machine.frames.freeFrames := by
  have hinitial := initial_of_init hinit
  have hfresh := hinitial.fresh
  obtain ⟨base, S₁, place₁, a₁, h₁, hidle₁⟩ := Kept.started hinitial hstarted
  obtain ⟨S, place, a, h, hidle⟩ := h₁.run hfresh hidle₁ hreached
  obtain ⟨stack, mapped, frames', hmap, hperform, hresult⟩ := parts_of_init hservice
  obtain ⟨-, halloc, -⟩ := mapImage_eq_ok_iff.mp hmap
  -- the user stack becomes part of what other code holds
  obtain ⟨S', hlent⟩ := h.lend hfresh halloc
  obtain ⟨m₂, S₂, place₂, a₂, heq, h₂, hadds⟩ := hlent.perform hfresh system.machine.sched.current
    (.createUser info.userEntry.toNat (userStackVa + 4096 * userStackPages))
  rw [hperform] at heq
  obtain rfl := Except.ok.inj heq
  obtain ⟨i', hi', hadds⟩ := hadds.resolve_left fun hcon => hcon.1 _ hresult
  obtain rfl : i = i' := Fin.ext (hi' _ hresult).1
  have hidle₂ : system'.machine.sched.idle = system.machine.sched.idle := by
    rw [h₂.refines.idle_eq, h.refines.idle_eq, hadds.idle_eq]
    rfl
  have hnone₂ : ∀ j, j ≠ i → system'.machine.sched.states j ≠ .exited := by
    intro j hj
    rw [h₂.refines.states_eq, hadds.states_eq, Function.update_of_ne hj, ← h.refines.states_eq]
    exact hnone j
  obtain ⟨S₃, place₃, a₃, h₃, hscheduled⟩ := Scheduled.run hfresh h₂ hnone₂
    (hidle₂ ▸ ⟨hidle, h.idle_ne_of_unused hadds.unused hidle⟩) hrun
  -- the same slots have a stack as before the start
  have hcount : m.stackCount = system.machine.stackCount := by
    refine stackCount_congr fun j => ?_
    by_cases hj : j = i
    · rw [h₃.refines.states_eq] at hreaped
      rw [hj, h₃.stack_eq, h.stack_eq, (h₃.cleared i hreaped).1, (h.cleared i hadds.unused).1]
    · rw [hscheduled.stack_eq j hj, hadds.slots_eq j hj]
  have hbefore := h.freeFrames_eq
  have hafter := h₃.freeFrames_eq
  rw [hcount] at hafter
  have hpages : 0 < userStackPages := by decide
  constructor
  · omega
  · omega

/-- The theorem at a run of the service. -/
theorem service_loses_stack_run : ∃ a₀ m₁ m, ∃ system system' : System,
    FrameAllocator.init ⟨[0, 0, 0, 0], by decide⟩ serviceMap [] (.new 0x10c000) = .ok (.ok a₀) ∧
    m₁.Started a₀ ∧ system.machine = m₁ ∧ system.init (smallBoot 0x80000 0x2000) =
      .ok (.ok 2, system') ∧
    Relation.ReflTransGen (ServiceStep 2) system'.machine m ∧ m.sched.states 2 = .unused ∧
    m.frames.freeFrames + userStackPages = system.machine.frames.freeFrames := by
  obtain ⟨a₀, m₁, m, system, system', hinit, hstarted, rfl, hnone, hservice, hrun, hreaped, -, -⟩ :=
    exists_runsService
  exact ⟨a₀, _, m, system, system', hinit, hstarted, rfl, hservice, hrun, hreaped,
    (service_loses_stack _ _ _ _ a₀ hinit _ hstarted system system' .refl hnone _ 2 hservice m hrun
      hreaped).1⟩

/-- A machine with twelve frames.  The idle thread has four, and eight are free.  The service is
started, makes its system call and is reaped, and then four are free. -/
theorem service_frames_not_returned : ∃ a₀ m₁ m, ∃ system system' : System,
    FrameAllocator.init ⟨[0, 0, 0, 0], by decide⟩ serviceMap [] (.new 0x10c000) = .ok (.ok a₀) ∧
    m₁.Started a₀ ∧ system.machine = m₁ ∧ (∀ j, m₁.sched.states j ≠ .exited) ∧
    system.init (smallBoot 0x80000 0x2000) = .ok (.ok 2, system') ∧
    Relation.ReflTransGen (ServiceStep 2) system'.machine m ∧ m.sched.states 2 = .unused ∧
    system.machine.frames.freeFrames = 8 ∧ m.frames.freeFrames = 4 := by
  obtain ⟨a₀, m₁, m, system, system', hinit, hstarted, rfl, hnone, hservice, hrun, hreaped, h8,
    h4⟩ := exists_runsService
  exact ⟨a₀, _, m, system, system', hinit, hstarted, rfl, hnone, hservice, hrun, hreaped, h8, h4⟩

end Kernel

end ParanukOS
