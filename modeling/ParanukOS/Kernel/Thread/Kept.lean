import ParanukOS.Kernel.Thread.Counter
import ParanukOS.Kernel.Thread.Run
import ParanukOS.KernelSched.Reaping

/-!
# Operations on threads

Calls of `create` and `create_user` and interrupts, each as one operation.  A call that finds no
memory for a stack leaves its thread with the scheduler, without a stack in its slot, and the
scheduler can switch to it as to any other thread.  What counts here are the states of the
scheduler, the stacks in the slots and the frames of the allocator: which stack the processor really
uses, and what is saved on it, plays no role.

## Outline

* `Machine.operate`: the operations.
* `Machine.reapLog`, `ReapsExited`: what `reap_exited` releases.
* `Kept`: the invariant.
* `Kept.perform`, `Kept.reapExited`, `Kept.irqCommon`: the operations keep it.
-/

namespace ParanukOS

open Foundation KernelMemory KernelSched FrameAllocator

namespace Kernel

variable {map : MemoryMap} {a₀ : FrameAllocator} {base : ℕ} {S : Finset ℕ}
  {place : ThreadId → Option ℕ} {a a' : AbstractSched} {m m' : Machine}

/-! ## Operations -/

/-- The operations. -/
inductive Operation where
  | create (caller entry : ℕ)
  | createUser (caller entryVa userStackTop : ℕ)
  | interrupt (address : ℕ) (frame : IrqFrame)

namespace Machine

/-- One operation. -/
def operate (m : Machine) : Operation → Checked Machine
  | .create caller entry => m.perform caller (.create entry)
  | .createUser caller entryVa userStackTop => m.perform caller (.createUser entryVa userStackTop)
  | .interrupt address frame => m.irqCommon address frame

/-- The idle thread does not exit. -/
def Permits (m : Machine) : Operation → Prop
  | .interrupt _ frame => frame.vector % 2 ^ 8 ∈ [exitVector, syscallVector] →
      m.sched.current ≠ m.sched.idle
  | _ => True

/-- One operation that returns. -/
def Operates (m m' : Machine) : Prop := ∃ op, m.Permits op ∧ m.operate op = .ok m'

/-- The number of slots with a stack. -/
def stackCount (m : Machine) : ℕ := (Finset.univ.filter fun i => (m.slots i).stack.isSome).card

/-- The stack that `release` frees, with the result of `free_frames`. -/
def freed (m : Machine) (id : ℕ) : Checked (Option (PhysRange × Except FreeError Unit)) := do
  let slot ← readAt m.slots id
  match slot.stack with
  | none => return none
  | some stack => do
    let (result, _) ← freeFrames m.frames stack
    return some (stack, result)

/-- The threads that `reap_exited` releases, one after the other, with what is freed for each. -/
def reapLog : ℕ → Machine → Checked (List (ℕ × Option (PhysRange × Except FreeError Unit)))
  | 0, _ => return []
  | n + 1, m => do
    let (thread, sched) ← m.sched.takeReapable
    match thread with
    | none => return []
    | some id =>
      let freed ← { m with sched }.freed id
      let log ← reapLog n (← { m with sched }.release id)
      return (id, freed) :: log

end Machine

/-- What reaping does: the threads that have exited are released, each of them once; its stack is
freed without an error and is no longer in its slot.  Other threads, the current one among them,
keep their slots. -/
structure ReapsExited (m m' : Machine)
    (log : List (ℕ × Option (PhysRange × Except FreeError Unit))) : Prop where
  nodup : (log.map Prod.fst).Nodup
  mem_iff : ∀ i : ThreadId, i.val ∈ log.map Prod.fst ↔ m.sched.states i = .exited
  freed : ∀ (i : ThreadId) freed, (i.val, freed) ∈ log →
    freed = (m.slots i).stack.map fun stack => (stack, .ok ())
  released : ∀ i, m.sched.states i = .exited →
    m'.sched.states i = .unused ∧ (m'.slots i).stack = none
  kept : ∀ i, m.sched.states i ≠ .exited →
    m'.sched.states i = m.sched.states i ∧ m'.slots i = m.slots i
  current_eq : m'.sched.current = m.sched.current
  current_kept : ∀ i : ThreadId, i.val = m.sched.current → m.sched.states i ≠ .exited

/-! ## The invariant -/

/-- A range beyond all memory. -/
def noBootStack : PhysRange := ⟨2 ^ 64, 1⟩

/-- The number of threads with a stack. -/
def placed (place : ThreadId → Option ℕ) : ℕ := (Finset.univ.filter fun i => place i ≠ none).card

/-- The invariant: the stacks in the slots are those of the layout, unused slots have none, and
`rsp0` is the end of the stack of the current thread if this is a user thread.  The boot stack plays
no role, and other code holds `base` frames. -/
structure Kept (a₀ : FrameAllocator) (base : ℕ) (S : Finset ℕ) (place : ThreadId → Option ℕ)
    (a : AbstractSched) (m : Machine) : Prop where
  refines : Refines m.sched a
  valid : Valid a
  layout : Stacks a₀ m.frames noBootStack S place
  stack_eq : ∀ i, (m.slots i).stack = (place i).map (stackAt a₀)
  cleared : ∀ i, a.states i = .unused → place i = none ∧ (m.slots i).user = false
  user_eq : ∀ i, (m.slots i).user = true → ∃ k, place i = some k ∧
    (m.slots i).kernelStackTop = (stackAt a₀ k).start + (stackAt a₀ k).len
  rsp0_eq : (m.slots a.current).user = true → m.rsp0 = (m.slots a.current).kernelStackTop
  card_eq : S.card = base + threadStackPages * placed place

/-- A call registers a new thread and leaves the slots of all others as they are. -/
structure Adds (call : CreateCall) (a a' : AbstractSched) (m m' : Machine) (i : ThreadId) :
    Prop where
  unused : a.states i = .unused
  states_eq : a'.states = Function.update a.states i .ready
  current_eq : a'.current = a.current
  idle_eq : a'.idle = if call.isIdle then some i else a.idle
  slots_eq : ∀ j, j ≠ i → m'.slots j = m.slots j

/-- What the first section of a call leaves: an error, or a thread that has been registered. -/
def Begun (call : CreateCall) (a a' : AbstractSched) (m m' : Machine) (caller : ℕ) : Prop :=
  m'.calls caller = .returned (.error .noFreeSlot) ∧ a' = a ∧ m'.slots = m.slots ∨
    ∃ i : ThreadId, m'.calls caller = .registered i.val call.start ∧ Adds call a a' m m' i

/-- One more thread has a stack. -/
lemma placed_update_some {i : ThreadId} (h : place i = none) (k : ℕ) :
    placed (Function.update place i (some k)) = placed place + 1 := by
  have hset : (Finset.univ.filter fun j => Function.update place i (some k) j ≠ none) =
      insert i (Finset.univ.filter fun j => place j ≠ none) := by
    ext j
    by_cases hj : j = i
    · simp [hj]
    · simp [hj]
  rw [placed, hset, Finset.card_insert_of_notMem (by simp [h]), placed]

/-- One thread less has a stack. -/
lemma placed_update_none {i : ThreadId} {k : ℕ} (h : place i = some k) :
    placed (Function.update place i none) + 1 = placed place := by
  have hset : (Finset.univ.filter fun j => Function.update place i none j ≠ none) =
      (Finset.univ.filter fun j => place j ≠ none).erase i := by
    ext j
    by_cases hj : j = i
    · simp [hj]
    · simp [hj]
  rw [placed, hset, Finset.card_erase_add_one (by simp [h]), placed]

namespace Kept

/-- The current thread is running. -/
lemma current_state (h : Kept a₀ base S place a m) : a.states a.current = .running :=
  (h.valid.running_iff _).mpr rfl

/-- The counter of free frames. -/
lemma freeFrames_eq (h : Kept a₀ base S place a m) :
    m.frames.freeFrames + threadStackPages * m.stackCount + base = a₀.freeFrames := by
  have hcount : m.stackCount = placed place := by
    rw [Machine.stackCount, placed]
    congr 1
    ext i
    simp [h.stack_eq i, Option.isSome_iff_ne_none]
  have hfree := h.layout.lent.freeFrames_eq
  rw [h.card_eq] at hfree
  rw [hcount]
  omega

/-- What is saved in memory and which thread the processor executes plays no role. -/
lemma withProcessor (h : Kept a₀ base S place a m) (memory : FrameMemory) (running : Option ℕ) :
    Kept a₀ base S place a { m with memory, running } :=
  ⟨h.refines, h.valid, h.layout, h.stack_eq, h.cleared, h.user_eq, h.rsp0_eq, h.card_eq⟩

/-- The frames of a stack are lent. -/
lemma outstanding (h : Kept a₀ base S place a m) {i : ThreadId} {r : PhysRange}
    (hr : (m.slots i).stack = some r) : ∃ k, place i = some k ∧ r = stackAt a₀ k ∧
      ∀ j < threadStackPages, k + j ∈ a₀.freeSet ∧ k + j ∉ m.frames.freeSet := by
  rw [h.stack_eq i] at hr
  obtain ⟨k, hk, rfl⟩ := Option.map_eq_some_iff.mp hr
  refine ⟨k, hk, rfl, fun j hj => ⟨h.layout.mem_freeSet_of_place hk hj, fun hcon => ?_⟩⟩
  have hmem : k + j ∈ S := h.layout.subset i k hk (Finset.mem_Ico.mpr ⟨by omega, by omega⟩)
  exact (h.layout.lent.freeAt_eq_true_iff.mp (mem_freeSet.mp hcon).2).2 hmem

/-- The stacks of two slots have no byte in common. -/
lemma apart (h : Kept a₀ base S place a m) {i j : ThreadId} (hne : i ≠ j) {r r' : PhysRange}
    (hr : (m.slots i).stack = some r) (hr' : (m.slots j).stack = some r') : Apart r r' := by
  obtain ⟨k, hk, rfl, -⟩ := h.outstanding hr
  obtain ⟨k', hk', rfl, -⟩ := h.outstanding hr'
  exact h.layout.apart hne (.inr ⟨k, hk, rfl⟩) (.inr ⟨k', hk', rfl⟩)

/-! ### Calls -/

/-- The scheduler has given a number to a new thread. -/
lemma register (h : Kept a₀ base S place a m) {sched : Scheduler} (hrefines : Refines sched a')
    (hvalid : Valid a') {id : ThreadId} (hstates : a'.states = Function.update a.states id .ready)
    (hcurrent : a'.current = a.current) (calls : ℕ → Call) (unprepared : Finset ℕ) :
    Kept a₀ base S place a' { m with sched, calls, unprepared } := by
  refine ⟨hrefines, hvalid, h.layout, h.stack_eq, fun i hi => ?_, h.user_eq, ?_, h.card_eq⟩
  · have hne : i ≠ id := by
      rintro rfl
      rw [hstates, Function.update_self] at hi
      cases hi
    rw [hstates, Function.update_of_ne hne] at hi
    exact h.cleared i hi
  · rw [hcurrent]
    exact h.rsp0_eq

/-- The scheduler keeps its threads. -/
lemma keep (h : Kept a₀ base S place a m) {sched : Scheduler} (hrefines : Refines sched a')
    (hvalid : Valid a') (hstates : a'.states = a.states) (hcurrent : a'.current = a.current)
    (calls : ℕ → Call) : Kept a₀ base S place a' { m with sched, calls } := by
  refine ⟨hrefines, hvalid, h.layout, h.stack_eq, ?_, h.user_eq, ?_, h.card_eq⟩
  · rw [hstates]
    exact h.cleared
  · rw [hcurrent]
    exact h.rsp0_eq

/-- A thread without a stack gets one, and its slot is written. -/
lemma prepare (h : Kept a₀ base S place a m) {id : ThreadId} (hstate : a.states id = .ready)
    (hplace : place id = none) {k : ℕ} {frames : FrameAllocator}
    (hlayout : Stacks a₀ frames noBootStack (S ∪ Finset.Ico k (k + threadStackPages))
      (Function.update place id (some k)))
    (hdisjoint : Disjoint S (Finset.Ico k (k + threadStackPages))) {slot : Slot}
    (hstack : slot.stack = some (stackAt a₀ k))
    (htop : slot.kernelStackTop = (stackAt a₀ k).start + (stackAt a₀ k).len)
    (memory : FrameMemory) (calls : ℕ → Call) (unprepared : Finset ℕ) :
    Kept a₀ base (S ∪ Finset.Ico k (k + threadStackPages)) (Function.update place id (some k)) a
      { m with frames, slots := Function.update m.slots id slot, memory, calls, unprepared } := by
  have hcurrent : a.current ≠ id := by
    rintro rfl
    rw [h.current_state] at hstate
    cases hstate
  refine ⟨h.refines, h.valid, hlayout, fun i => ?_, fun i hi => ?_, fun i hi => ?_, ?_, ?_⟩
  · by_cases hi : i = id
    · simp only [hi, Function.update_self, hstack, Option.map_some]
    · simp only [Function.update_of_ne hi]
      exact h.stack_eq i
  · have hne : i ≠ id := by
      rintro rfl
      rw [hstate] at hi
      cases hi
    simp only [Function.update_of_ne hne]
    exact h.cleared i hi
  · by_cases hne : i = id
    · simp only [hne, Function.update_self]
      exact ⟨k, rfl, htop⟩
    · simp only [Function.update_of_ne hne] at hi ⊢
      exact h.user_eq i hi
  · simp only [Function.update_of_ne hcurrent]
    exact h.rsp0_eq
  · rw [Finset.card_union_of_disjoint hdisjoint, h.card_eq, placed_update_some hplace,
      Nat.card_Ico, Nat.add_sub_cancel_left, Nat.mul_add, Nat.mul_one, Nat.add_assoc]

/-- The first section of a call. -/
lemma beginCall (h : Kept a₀ base S place a m) (caller : ℕ) (call : CreateCall) :
    ∃ m₁ a₁, m.beginCall caller call = .ok m₁ ∧ Kept a₀ base S place a₁ m₁ ∧
      Begun call a a₁ m m₁ caller := by
  obtain ⟨sched, a₁, r, heq, hrefines, hvalid, hcases⟩ :=
    Machine.beginCall_cases h.refines h.valid caller call
  refine ⟨_, a₁, heq, ?_⟩
  rcases hcases with ⟨⟨e, rfl⟩, rfl⟩ | ⟨i, rfl, hunused, hstates, hcurrent, hidle⟩
  · exact ⟨h.keep hrefines hvalid rfl rfl _, .inl ⟨Function.update_self .., rfl, rfl⟩⟩
  · exact ⟨h.register hrefines hvalid hstates hcurrent _ _, .inr ⟨i,
      Function.update_self .., hunused, hstates, hcurrent, hidle, fun _ _ => rfl⟩⟩

/-- The other sections of a call that has registered its thread. -/
lemma finishCall (hfresh : Fresh map a₀) (h : Kept a₀ base S place a m) {caller : ℕ} {id : ThreadId}
    {start : Start} (hcall : m.calls caller = .registered id.val start)
    (hstate : a.states id = .ready) (hplace : place id = none) :
    ∃ m' S' place', (do
      let m ← m.continueCall caller
      let m ← m.continueCall caller
      m.continueCall caller) = .ok m' ∧ Kept a₀ base S' place' a m' ∧
      (∀ j, j ≠ id → m'.slots j = m.slots j) ∧
      ∀ id', m'.result caller = some (.ok id') →
        id' = id.val ∧ (m'.slots id).user = start.isUser := by
  rcases h.layout.alloc hfresh id with heq | ⟨k, frames, heq, hlayout, hdisjoint⟩
  · rw [Machine.continueCall_noStack hcall heq, Checked.ok_bind,
      Machine.continueCall_returned (Function.update_self ..), Checked.ok_bind,
      Machine.continueCall_returned (Function.update_self ..)]
    refine ⟨_, S, place, rfl, h.keep h.refines h.valid rfl rfl _, fun _ _ => rfl,
      fun id' hid' => ?_⟩
    simp [Machine.result, Machine.setCall] at hid'
  · have htop := hlayout.stackTop_eq (Function.update_self id (some k) place)
    rw [Machine.continueCall_registered hcall heq, Checked.ok_bind,
      Machine.continueCall_stacked (Function.update_self ..) htop, Checked.ok_bind,
      Machine.continueCall_framed (Function.update_self ..) htop]
    refine ⟨_, _, _, rfl, h.prepare hstate hplace hlayout hdisjoint rfl (stackAt_stop a₀ k).symm
      _ _ _, fun j hj => Function.update_of_ne hj .., fun id' hid' => ⟨?_, ?_⟩⟩
    · simpa [Machine.result, Machine.setCall, eq_comm] using hid'
    · simp [Machine.setCall]

/-- A call of `create`, `create_user` or `create_idle`. -/
lemma perform (hfresh : Fresh map a₀) (h : Kept a₀ base S place a m) (caller : ℕ)
    (call : CreateCall) :
    ∃ m' S' place' a', m.perform caller call = .ok m' ∧ Kept a₀ base S' place' a' m' ∧
      ((∀ id, m'.result caller ≠ some (.ok id)) ∧ a' = a ∧ m'.slots = m.slots ∨
        ∃ i : ThreadId, (∀ id, m'.result caller = some (.ok id) →
          id = i.val ∧ (m'.slots i).user = call.start.isUser) ∧ Adds call a a' m m' i) := by
  obtain ⟨m₁, a₁, heq, h₁, hbegun⟩ := h.beginCall caller call
  rw [Machine.perform, heq, Checked.ok_bind]
  rcases hbegun with ⟨hcall, rfl, hslots⟩ | ⟨i, hcall, hadds⟩
  · rw [Machine.continueCall_returned hcall, Checked.ok_bind, Machine.continueCall_returned hcall,
      Checked.ok_bind, Machine.continueCall_returned hcall]
    refine ⟨m₁, S, place, a₁, rfl, h₁, .inl ⟨fun id hresult => ?_, rfl, hslots⟩⟩
    rw [Machine.result, hcall] at hresult
    cases hresult
  · have hstate : a₁.states i = .ready := by rw [hadds.states_eq, Function.update_self]
    obtain ⟨m', S', place', heq', h', hslots, hresult⟩ :=
      h₁.finishCall hfresh hcall hstate (h.cleared i hadds.unused).1
    refine ⟨m', S', place', a₁, heq', h', .inr ⟨i, hresult, { hadds with slots_eq := ?_ }⟩⟩
    exact fun j hj => (hslots j hj).trans (hadds.slots_eq j hj)

/-! ### Reaping -/

/-- A thread that has exited is reaped. -/
lemma clear (h : Kept a₀ base S place a m) {i : ThreadId} (hstate : a.states i = .exited)
    {sched : Scheduler} (hrefines : Refines sched a') (hvalid : Valid a')
    (hstates : a'.states = Function.update a.states i .unused) (hcurrent : a'.current = a.current)
    {frames : FrameAllocator} {S' : Finset ℕ}
    (hlayout : Stacks a₀ frames noBootStack S' (Function.update place i none))
    (hcard : S'.card = base + threadStackPages * placed (Function.update place i none))
    (thread : ℕ) :
    Kept a₀ base S' (Function.update place i none) a' { m with
      sched
      slots := Function.update m.slots i { Slot.new with thread }
      frames } := by
  have hne : a.current ≠ i := by
    rintro rfl
    rw [h.current_state] at hstate
    cases hstate
  refine ⟨hrefines, hvalid, hlayout, fun j => ?_, fun j hj => ?_, fun j hj => ?_, ?_, hcard⟩
  · by_cases hji : j = i
    · simp only [hji, Function.update_self]
      rfl
    · simp only [Function.update_of_ne hji]
      exact h.stack_eq j
  · by_cases hji : j = i
    · simp only [hji, Function.update_self]
      exact ⟨trivial, rfl⟩
    · rw [hstates, Function.update_of_ne hji] at hj
      simp only [Function.update_of_ne hji]
      exact h.cleared j hj
  · have hji : j ≠ i := by
      rintro rfl
      simp only [Function.update_self] at hj
      cases hj
    simp only [Function.update_of_ne hji] at hj ⊢
    exact h.user_eq j hj
  · rw [hcurrent]
    simp only [Function.update_of_ne hne]
    exact h.rsp0_eq

/-- `release` of a thread that has exited, with what it frees. -/
lemma release (hfresh : Fresh map a₀) (h : Kept a₀ base S place a m) {i : ThreadId}
    (hstate : a.states i = .exited) {sched : Scheduler}
    (hrefines : Refines sched { a with states := Function.update a.states i .unused })
    (hvalid : Valid { a with states := Function.update a.states i .unused }) :
    ∃ m' S', ({ m with sched } : Machine).release i = .ok m' ∧
      Kept a₀ base S' (Function.update place i none)
        { a with states := Function.update a.states i .unused } m' ∧
      ({ m with sched } : Machine).freed i =
        .ok ((m.slots i).stack.map fun stack => (stack, .ok ())) ∧
      m'.slots = Function.update m.slots i { Slot.new with thread := (m.slots i).thread } := by
  rw [Machine.release, Machine.freed]
  simp only [readAt_val, writeAt_val, Checked.ok_bind]
  cases hstack : (m.slots i).stack with
  | none =>
    have hplace : place i = none := by
      rw [h.stack_eq i] at hstack
      exact Option.map_eq_none_iff.mp hstack
    have hsame : Function.update place i none = place := by
      rw [← hplace]
      exact Function.update_eq_self i place
    refine ⟨_, S, rfl, h.clear hstate hrefines hvalid rfl rfl ?_ ?_ _, rfl, rfl⟩
    · rw [hsame]
      exact h.layout
    · rw [hsame]
      exact h.card_eq
  | some r =>
    obtain ⟨k, hk, rfl, -⟩ := h.outstanding hstack
    obtain ⟨frames, hfree, hlayout⟩ := h.layout.free hfresh hk
    simp only [hfree, Checked.ok_bind]
    refine ⟨_, _, rfl, h.clear hstate hrefines hvalid rfl rfl hlayout ?_ _, rfl, rfl⟩
    have hcard := h.card_eq
    rw [← placed_update_none hk, Nat.mul_add, Nat.mul_one] at hcard
    rw [Finset.card_sdiff_of_subset (h.layout.subset i k hk), Nat.card_Ico,
      Nat.add_sub_cancel_left, hcard, ← Nat.add_assoc, Nat.add_sub_cancel]

end Kept

/-- No thread has exited. -/
lemma ReapsExited.nil (hnone : ∀ i, m.sched.states i ≠ .exited)
    (hstates : m'.sched.states = m.sched.states) (hslots : m'.slots = m.slots)
    (hcurrent : m'.sched.current = m.sched.current) : ReapsExited m m' [] where
  nodup := List.nodup_nil
  mem_iff := fun i => iff_of_false List.not_mem_nil (hnone i)
  freed := nofun
  released := fun i hi => absurd hi (hnone i)
  kept := fun i _ => ⟨by rw [hstates], by rw [hslots]⟩
  current_eq := hcurrent
  current_kept := fun i _ => hnone i

/-- One thread is released, and then the others. -/
lemma ReapsExited.cons {m₁ : Machine} {i : ThreadId} {slot : Slot}
    {freed : Option (PhysRange × Except FreeError Unit)}
    {log : List (ℕ × Option (PhysRange × Except FreeError Unit))} (h : ReapsExited m₁ m' log)
    (hstate : m.sched.states i = .exited)
    (hcurrent : ∀ j : ThreadId, j.val = m.sched.current → m.sched.states j ≠ .exited)
    (hstates₁ : m₁.sched.states = Function.update m.sched.states i .unused)
    (hcurrent₁ : m₁.sched.current = m.sched.current)
    (hslots₁ : m₁.slots = Function.update m.slots i slot) (hslot : slot.stack = none)
    (hfreed : freed = (m.slots i).stack.map fun stack => (stack, .ok ())) :
    ReapsExited m m' ((i.val, freed) :: log) := by
  have hself : m₁.sched.states i ≠ .exited := by
    rw [hstates₁, Function.update_self]
    exact nofun
  have hother : ∀ j, j ≠ i → m₁.sched.states j = m.sched.states j ∧ m₁.slots j = m.slots j := by
    intro j hj
    rw [hstates₁, hslots₁, Function.update_of_ne hj, Function.update_of_ne hj]
    exact ⟨rfl, rfl⟩
  have hnot : i.val ∉ log.map Prod.fst := fun hcon => hself ((h.mem_iff i).mp hcon)
  refine ⟨List.nodup_cons.mpr ⟨hnot, h.nodup⟩, fun j => ?_, fun j f hj => ?_, fun j hj => ?_,
    fun j hj => ?_, h.current_eq.trans hcurrent₁, hcurrent⟩
  · rw [List.map_cons, List.mem_cons]
    by_cases hji : j = i
    · rw [hji]
      exact iff_of_true (.inl rfl) hstate
    · rw [h.mem_iff j, (hother j hji).1]
      exact or_iff_right fun hcon => hji (Fin.ext hcon)
  · rcases List.mem_cons.mp hj with heq | hmem
    · obtain ⟨hval, rfl⟩ := Prod.mk.inj heq
      rw [Fin.ext hval]
      exact hfreed
    · have hji : j ≠ i := fun hcon => hnot (List.mem_map.mpr ⟨_, hcon ▸ hmem, rfl⟩)
      rw [h.freed j f hmem, (hother j hji).2]
  · by_cases hji : j = i
    · obtain ⟨hstate', hslot'⟩ := h.kept i hself
      rw [hji, hstate', hslot', hstates₁, hslots₁, Function.update_self, Function.update_self]
      exact ⟨rfl, hslot⟩
    · refine h.released j ?_
      rw [(hother j hji).1]
      exact hj
  · have hji : j ≠ i := by
      rintro rfl
      exact hj hstate
    rw [← (hother j hji).1, ← (hother j hji).2]
    refine h.kept j ?_
    rw [(hother j hji).1]
    exact hj

/-- No thread that has exited is left. -/
lemma ReapsExited.ne_exited {log : List (ℕ × Option (PhysRange × Except FreeError Unit))}
    (h : ReapsExited m m' log) (i : ThreadId) : m'.sched.states i ≠ .exited := by
  by_cases hi : m.sched.states i = .exited
  · rw [(h.released i hi).1]
    exact nofun
  · rw [(h.kept i hi).1]
    exact hi

/-- What reaping leaves as it is in the scheduler. -/
structure SameQueue (a a' : AbstractSched) : Prop where
  current_eq : a'.current = a.current
  idle_eq : a'.idle = a.idle
  ticks_eq : a'.ticks = a.ticks
  switches_eq : a'.switches = a.switches

/-- The idle thread stays the same when a thread exits. -/
lemma idle_of_exitThread (hrefines : Refines m.sched a) (hvalid : Valid a)
    (hidle : m.sched.idle ≠ noThread ∧ m.sched.idle ≠ m.sched.current) {decision : Decision}
    (heq : m.exitThread = .ok (decision, m')) : m'.sched.idle = m.sched.idle := by
  have hallowed : a.Allowed .exitCurrent := hrefines.allowed_exitCurrent hidle
  have habstract : a.exitCurrent.2.idle = a.idle := by
    unfold AbstractSched.exitCurrent
    split <;> simp_all [AbstractSched.switchTo]
  rw [Machine.exitThread] at heq
  rcases hrefines.exitCurrent hvalid hallowed with ⟨sched, hexit, hsched⟩ | ⟨hexit, -⟩
  · have hsame : sched.idle = m.sched.idle := by
      rw [hsched.idle_eq, hrefines.idle_eq, habstract]
    rw [hexit, Checked.ok_bind] at heq
    cases hresult : a.exitCurrent.1 with
    | ok d =>
      rw [hresult] at heq
      obtain ⟨-, rfl⟩ := Prod.mk.inj (Except.ok.inj heq)
      exact hsame
    | error e =>
      rw [hresult] at heq
      obtain ⟨-, rfl⟩ := Prod.mk.inj (Except.ok.inj heq)
      exact hsame
  · rw [hexit] at heq
    cases heq

/-- After a switch, only the thread that has been left can have exited. -/
lemma exited_of_switches {s s' : Scheduler} {left : ThreadState} {next : ThreadId}
    (h : Switches s s' left next) {j : ThreadId} (hj : s'.states j = .exited) :
    s.states j = .exited ∨ left = .exited ∧ j.val = s.current := by
  obtain ⟨previous, hcurrent, hstates, -, -⟩ := h
  rw [hstates] at hj
  by_cases h1 : j = next
  · rw [h1, Function.update_self] at hj
    cases hj
  rw [Function.update_of_ne h1] at hj
  by_cases h2 : j = previous
  · rw [h2, Function.update_self] at hj
    rw [h2, hcurrent]
    exact .inr ⟨hj, rfl⟩
  · rw [Function.update_of_ne h2] at hj
    exact .inl hj

/-- Only the current thread exits. -/
lemma exited_of_exitThread {decision : Decision} (heq : m.exitThread = .ok (decision, m'))
    {j : ThreadId} (hj : m'.sched.states j = .exited) :
    m.sched.states j = .exited ∨ j.val = m.sched.current := by
  rw [Machine.exitThread] at heq
  obtain ⟨⟨result, sched⟩, hexit, heq⟩ := Checked.bind_eq_ok.mp heq
  have hsched : m'.sched = sched := by
    cases result with
    | ok d =>
      obtain ⟨-, rfl⟩ := Prod.mk.inj (Except.ok.inj heq)
      rfl
    | error e =>
      obtain ⟨-, rfl⟩ := Prod.mk.inj (Except.ok.inj heq)
      rfl
  rw [hsched] at hj
  rcases exitCurrent_cases hexit with ⟨-, rfl⟩ | ⟨next, -, hswitches⟩ | ⟨i, -, hcurrent, hset⟩
  · exact .inl hj
  · exact (exited_of_switches hswitches hj).imp_right And.right
  · by_cases hji : j = i
    · exact .inr (hji ▸ hcurrent.symm)
    · rw [hset.1, Function.update_of_ne hji] at hj
      exact .inl hj

/-- What the handler does for its vector: the idle thread stays the same, and the current thread
exits for two of the vectors only. -/
lemma dispatch_effect (hrefines : Refines m.sched a) (hvalid : Valid a) {vector : ℕ}
    (hexit : vector ∈ [exitVector, syscallVector] →
      m.sched.idle ≠ noThread ∧ m.sched.idle ≠ m.sched.current)
    {decision : Decision} (heq : m.dispatch vector = .ok (decision, m')) :
    m'.sched.idle = m.sched.idle ∧ ∀ j, m'.sched.states j = .exited →
      m.sched.states j = .exited ∨
        vector ∈ [exitVector, syscallVector] ∧ j.val = m.sched.current := by
  have hready : ∀ {sched : Scheduler} {next : ThreadId}, Switches m.sched sched .ready next →
      sched.idle = m.sched.idle ∧ ∀ j, sched.states j = .exited → m.sched.states j = .exited := by
    intro sched next hswitches
    refine ⟨?_, fun j hj => (exited_of_switches hswitches hj).resolve_right fun hcon => ?_⟩
    · obtain ⟨-, -, -, -, hidle⟩ := hswitches
      exact hidle
    · cases hcon.1
  rw [Machine.dispatch] at heq
  by_cases htimer : vector = timerVector
  · rw [if_pos htimer] at heq
    obtain ⟨⟨d, sched⟩, htick, heq⟩ := Checked.bind_eq_ok.mp heq
    obtain ⟨-, rfl⟩ := Prod.mk.inj (Except.ok.inj heq)
    rcases onTick_cases htick with hsame | ⟨next, hswitches⟩
    · exact ⟨hsame.2.2, fun j hj => .inl (hsame.1 ▸ hj)⟩
    · exact ⟨(hready hswitches).1, fun j hj => .inl ((hready hswitches).2 j hj)⟩
  rw [if_neg htimer] at heq
  by_cases hyield : vector = yieldVector
  · rw [if_pos hyield] at heq
    obtain ⟨⟨d, sched⟩, hrotate, heq⟩ := Checked.bind_eq_ok.mp heq
    obtain ⟨-, rfl⟩ := Prod.mk.inj (Except.ok.inj heq)
    rcases rotate_cases hrotate with rfl | ⟨next, hswitches⟩
    · exact ⟨rfl, fun j hj => .inl hj⟩
    · exact ⟨(hready hswitches).1, fun j hj => .inl ((hready hswitches).2 j hj)⟩
  rw [if_neg hyield] at heq
  by_cases hstop : vector ∈ [exitVector, syscallVector]
  · have hexits : m.exitThread = .ok (decision, m') := by
      split_ifs at heq with h1 h2
      · exact heq
      · exact heq
      · simp [h1, h2] at hstop
    refine ⟨idle_of_exitThread hrefines hvalid (hexit hstop) hexits, fun j hj => ?_⟩
    exact (exited_of_exitThread hexits hj).imp_right fun hcurrent => ⟨hstop, hcurrent⟩
  · simp only [List.mem_cons, List.not_mem_nil, or_false, not_or] at hstop
    rw [if_neg hstop.1, if_neg hstop.2] at heq
    obtain ⟨-, rfl⟩ := Prod.mk.inj (Except.ok.inj heq)
    exact ⟨rfl, fun j hj => .inl hj⟩

/-- What an invocation of the handler does: a thread keeps its stack, and stays a user thread if it
is one, unless it has exited before, and only the current thread can have exited after it. -/
structure Interrupted (m m' : Machine) (vector : ℕ) : Prop where
  idle_eq : m'.sched.idle = m.sched.idle
  stack_eq : ∀ j, m.sched.states j ≠ .exited → (m'.slots j).stack = (m.slots j).stack
  user_eq : ∀ j, m.sched.states j ≠ .exited → (m'.slots j).user = (m.slots j).user
  exited : ∀ j, m'.sched.states j = .exited →
    vector ∈ [exitVector, syscallVector] ∧ j.val = m.sched.current

namespace Kept

/-- The current thread has not exited. -/
lemma current_ne_exited (h : Kept a₀ base S place a m) (i : ThreadId)
    (hi : i.val = m.sched.current) : m.sched.states i ≠ .exited := by
  rw [h.refines.current_eq] at hi
  rw [h.refines.states_eq, Fin.ext hi, h.current_state]
  exact nofun

/-- `reap_exited`, with as many rounds as there are threads that have exited. -/
lemma reapExited (hfresh : Fresh map a₀) {n : ℕ} : ∀ {S : Finset ℕ} {place : ThreadId → Option ℕ}
    {a : AbstractSched} {m : Machine}, Kept a₀ base S place a m →
      (Finset.univ.filter fun i => a.states i = .exited).card ≤ n →
      ∃ m' log S' place' a', Machine.reapExited n m = .ok m' ∧ Machine.reapLog n m = .ok log ∧
        Kept a₀ base S' place' a' m' ∧ ReapsExited m m' log ∧ SameQueue a a' := by
  induction n with
  | zero =>
    intro S place a m h hcount
    have hempty := Finset.card_eq_zero.mp (Nat.le_zero.mp hcount)
    have hnone : ∀ i, m.sched.states i ≠ .exited := fun i hi =>
      Finset.filter_eq_empty_iff.mp hempty (Finset.mem_univ i) (h.refines.states_eq ▸ hi)
    exact ⟨m, [], S, place, a, rfl, rfl, h, .nil hnone rfl rfl rfl, rfl, rfl, rfl, rfl⟩
  | succ n ih =>
    intro S place a m h hcount
    obtain ⟨sched, htake, hrefines⟩ := h.refines.takeReapable h.valid
    have hvalid := h.valid.takeReapable
    rw [Machine.reapExited, Machine.reapLog, htake, Checked.ok_bind, Checked.ok_bind]
    rw [AbstractSched.takeReapable] at hrefines hvalid ⊢
    cases hid : firstWith a.states .exited with
    | none =>
      rw [hid] at hrefines
      have hnone : ∀ i, m.sched.states i ≠ .exited := by
        rw [h.refines.states_eq]
        exact ne_of_firstWith_eq_none hid
      refine ⟨_, [], S, place, a, rfl, rfl, h.keep hrefines h.valid rfl rfl _,
        .nil hnone ?_ rfl ?_, rfl, rfl, rfl, rfl⟩
      · exact hrefines.states_eq.trans h.refines.states_eq.symm
      · exact hrefines.current_eq.trans h.refines.current_eq.symm
    | some i =>
      have hstate := state_of_firstWith hid
      rw [hid] at hrefines hvalid
      obtain ⟨m₁, S₁, hrelease, h₁, hfreed, hslots⟩ := h.release hfresh hstate hrefines hvalid
      obtain ⟨m', log, S', place', a', hreap, hlog, h', hreaps, hsame⟩ :=
        ih h₁ (card_exited_update hstate hcount)
      refine ⟨m', (i.val, _) :: log, S', place', a', ?_, ?_, h',
        hreaps.cons ?_ h.current_ne_exited ?_ ?_ hslots rfl rfl, hsame.current_eq, hsame.idle_eq,
        hsame.ticks_eq, hsame.switches_eq⟩
      · simp only
        rw [hrelease, Checked.ok_bind, hreap]
      · simp only
        rw [hfreed, Checked.ok_bind, hrelease, Checked.ok_bind, hlog]
        rfl
      · rw [h.refines.states_eq]
        exact hstate
      · rw [h₁.refines.states_eq, h.refines.states_eq]
      · rw [h₁.refines.current_eq, h.refines.current_eq]

/-! ### Switches -/

/-- A switch changes only the saved `rsp` of a slot. -/
lemma slot_of_saveRsp (slots : ThreadId → Slot) (i : ThreadId) (address : ℕ) (j : ThreadId) :
    (Function.update slots i { slots i with rsp := address } j).stack = (slots j).stack ∧
    (Function.update slots i { slots i with rsp := address } j).user = (slots j).user ∧
    (Function.update slots i { slots i with rsp := address } j).kernelStackTop =
      (slots j).kernelStackTop := by
  by_cases hj : j = i
  · rw [hj, Function.update_self]
    exact ⟨rfl, rfl, rfl⟩
  · rw [Function.update_of_ne hj]
    exact ⟨rfl, rfl, rfl⟩

/-- The handler switches to another thread. -/
lemma switch (h : Kept a₀ base S place a m) {next : ThreadId} {left : ThreadState}
    (hnext : a.states next = .ready) (hleft : left = .ready ∨ left = .exited) {sched : Scheduler}
    (hrefines : Refines sched a') (hvalid : Valid a')
    (hstates : a'.states = Function.update (Function.update a.states a.current left) next .running)
    (hcurrent : a'.current = next) (address : ℕ) :
    Kept a₀ base S place a' { m with
      sched
      slots := Function.update m.slots a.current { m.slots a.current with rsp := address }
      rsp0 := if (m.slots next).user then (m.slots next).kernelStackTop else m.rsp0 } := by
  have hne : next ≠ a.current := by
    rintro rfl
    rw [h.current_state] at hnext
    cases hnext
  have hslot := slot_of_saveRsp m.slots a.current address
  refine ⟨hrefines, hvalid, h.layout, fun i => (hslot i).1.trans (h.stack_eq i), fun i hi => ?_,
    fun i hi => ?_, fun huser => ?_, h.card_eq⟩
  · have hi' : a.states i = .unused := by
      rw [hstates] at hi
      by_cases h1 : i = next
      · rw [h1, Function.update_self] at hi
        cases hi
      by_cases h2 : i = a.current
      · rw [h2, Function.update_of_ne hne.symm, Function.update_self] at hi
        rcases hleft with rfl | rfl <;> cases hi
      · rwa [Function.update_of_ne h1, Function.update_of_ne h2] at hi
    exact ⟨(h.cleared i hi').1, (hslot i).2.1.trans (h.cleared i hi').2⟩
  · obtain ⟨k, hk, htop⟩ := h.user_eq i ((hslot i).2.1.symm.trans hi)
    exact ⟨k, hk, (hslot i).2.2.trans htop⟩
  · rw [hcurrent] at huser ⊢
    have huser' := (hslot next).2.1.symm.trans huser
    simp only [if_pos huser']
    exact (hslot next).2.2.symm

/-- `irq_handler`. -/
lemma interrupt (hfresh : Fresh map a₀) (h : Kept a₀ base S place a m) (address : ℕ)
    {frame : IrqFrame} (hexit : frame.vector % 2 ^ 8 ∈ [exitVector, syscallVector] →
      m.sched.idle ≠ noThread ∧ m.sched.idle ≠ m.sched.current) :
    (∃ rax m' S' place' a', m.irqHandler address frame = .ok (rax, m') ∧
      Kept a₀ base S' place' a' m' ∧ Interrupted m m' (frame.vector % 2 ^ 8)) ∨
    m.irqHandler address frame = .error .overflow ∧ CounterFull m.sched := by
  obtain ⟨m₁, log, S', place', a₁, hreap, -, h₁, hreaps, hsame⟩ := h.reapExited hfresh
    ((Finset.card_le_univ _).trans (Fintype.card_fin maxThreads).le)
  have hidle : m₁.sched.idle = m.sched.idle := by
    rw [h₁.refines.idle_eq, h.refines.idle_eq, hsame.idle_eq]
  have hexit₁ : frame.vector % 2 ^ 8 ∈ [exitVector, syscallVector] →
      m₁.sched.idle ≠ noThread ∧ m₁.sched.idle ≠ m₁.sched.current := by
    rwa [hidle, hreaps.current_eq]
  rw [Machine.irqHandler, Machine.irqDecision, hreap, Checked.ok_bind]
  rcases dispatch_spec h₁.refines h₁.valid hexit₁ with
    ⟨decision, sched, a', heq, hrefines, hvalid, hmoved⟩ | ⟨heq, hfull⟩
  · left
    obtain ⟨hkeeps, hexited⟩ := dispatch_effect h₁.refines h₁.valid hexit₁ heq
    -- the handler has reaped all threads that had exited before
    have hleft : ∀ j, sched.states j = .exited →
        frame.vector % 2 ^ 8 ∈ [exitVector, syscallVector] ∧ j.val = m.sched.current := by
      intro j hj
      rw [← hreaps.current_eq]
      exact (hexited j hj).resolve_left (hreaps.ne_exited j)
    rw [heq, Checked.ok_bind]
    rcases hmoved with ⟨rfl, -, hstates, hcurrent'⟩ |
      ⟨next, left, rfl, -, hready, hleaves, hstates, hcurrent'⟩
    · exact ⟨0, _, S', place', a', rfl, h₁.keep hrefines hvalid hstates hcurrent' _,
        hkeeps.trans hidle, fun j hj => by rw [(hreaps.kept j hj).2],
        fun j hj => by rw [(hreaps.kept j hj).2], hleft⟩
    · have hne : next ≠ a₁.current := by
        rintro rfl
        rw [h₁.current_state] at hready
        cases hready
      refine ⟨_, _, S', place', a', switchTo_eq _ hne address,
        h₁.switch hready hleaves hrefines hvalid hstates hcurrent' address, hkeeps.trans hidle,
        fun j hj => ?_, fun j hj => ?_, hleft⟩
      · rw [← (hreaps.kept j hj).2]
        exact (slot_of_saveRsp m₁.slots a₁.current address j).1
      · rw [← (hreaps.kept j hj).2]
        exact (slot_of_saveRsp m₁.slots a₁.current address j).2.1
  · right
    refine ⟨by rw [heq]; rfl, ?_⟩
    rwa [CounterFull, h₁.refines.ticks_eq, h₁.refines.switches_eq, hsame.ticks_eq,
      hsame.switches_eq, ← h.refines.ticks_eq, ← h.refines.switches_eq] at hfull

/-- `irq_common`. -/
lemma irqCommon (hfresh : Fresh map a₀) (h : Kept a₀ base S place a m) (address : ℕ)
    {frame : IrqFrame} (hexit : frame.vector % 2 ^ 8 ∈ [exitVector, syscallVector] →
      m.sched.idle ≠ noThread ∧ m.sched.idle ≠ m.sched.current) :
    (∃ m' S' place' a', m.irqCommon address frame = .ok m' ∧
      Kept a₀ base S' place' a' m' ∧ Interrupted m m' (frame.vector % 2 ^ 8)) ∨
    m.irqCommon address frame = .error .overflow ∧ CounterFull m.sched := by
  obtain ⟨memory, hpush⟩ := m.exists_push address frame
  rw [Machine.irqCommon, hpush]
  rcases (h.withProcessor memory m.running).interrupt hfresh address hexit with
    ⟨rax, m₁, S', place', a', heq, h', heffect⟩ | ⟨heq, hfull⟩
  · refine .inl ⟨_, S', place', a', by rw [heq]; rfl, h'.withProcessor m₁.memory _, ?_⟩
    exact ⟨heffect.idle_eq, heffect.stack_eq, heffect.user_eq, heffect.exited⟩
  · exact .inr ⟨by rw [heq]; rfl, hfull⟩

end Kept

end Kernel

end ParanukOS
