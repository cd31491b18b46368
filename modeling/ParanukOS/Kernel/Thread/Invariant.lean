import ParanukOS.Kernel.Thread.Stacks
import ParanukOS.KernelSched.Refinement

/-!
# The invariant of the threads

What holds between any two atomic sections, as long as no interrupt switches to a thread that is
registered but not prepared.  The scheduler refines a queue of threads, every thread has its own
stack, the slot of a thread that is ready has the address of a frame of this thread on this stack,
and the slot of a thread that is not prepared is empty.

## Outline

* `SlotsOk`, `CallsOk`, `Inv`: the invariant.
* `Inv.register`, `Inv.stacked`, `Inv.framed`, `Inv.prepared`: the sections of a call.
* `Inv.push`, `Inv.reapExited`, `Inv.switch`: the parts of an interrupt.
-/

namespace ParanukOS

open Foundation KernelMemory KernelSched FrameAllocator

namespace Kernel

variable {map : MemoryMap} {a₀ : FrameAllocator} {S : Finset ℕ} {place : ThreadId → Option ℕ}
  {a a' : AbstractSched} {m : Machine}

@[simp] lemma Machine.slot_val (m : Machine) (i : ThreadId) : m.slot i.val = m.slots i :=
  dif_pos i.isLt

lemma Machine.prepared_iff (m : Machine) (i : ThreadId) : m.Prepared i ↔
    (m.slots i).rsp ≠ 0 ∧ (∃ frame, m.memory (m.slots i).rsp = some ⟨i, frame⟩) ∧
      OnStack ((m.slots i).stack.getD m.bootStack) (m.slots i).rsp := by
  rw [Prepared, stackOf, slot_val]

/-- The slots.  An unused slot and the slot of a thread that is not prepared are empty; only the
boot thread has no stack in its slot; threads that are ready can be resumed. -/
structure SlotsOk (a₀ : FrameAllocator) (place : ThreadId → Option ℕ) (a : AbstractSched)
    (m : Machine) : Prop where
  cleared : ∀ i : ThreadId, a.states i = .unused ∨ i.val ∈ m.unprepared →
    (m.slots i).rsp = 0 ∧ (m.slots i).stack = none ∧ (m.slots i).user = false
  stack_eq : ∀ i r, (m.slots i).stack = some r → ∃ k, place i = some k ∧ r = stackAt a₀ k
  boot_eq : ∀ i : ThreadId, a.states i ≠ .unused → i.val ∉ m.unprepared →
    (m.slots i).stack = none → i = 0
  user_eq : ∀ i, (m.slots i).user = true →
    ∃ r, (m.slots i).stack = some r ∧ (m.slots i).kernelStackTop = r.start + r.len
  saved : ∀ i : ThreadId, a.states i = .ready → i.val ∉ m.unprepared → m.Prepared i

/-- What `SlotsOk` says about one slot. -/
structure SlotOk (a₀ : FrameAllocator) (place : ThreadId → Option ℕ) (a : AbstractSched)
    (m : Machine) (i : ThreadId) : Prop where
  cleared : a.states i = .unused ∨ i.val ∈ m.unprepared →
    (m.slots i).rsp = 0 ∧ (m.slots i).stack = none ∧ (m.slots i).user = false
  stack_eq : ∀ r, (m.slots i).stack = some r → ∃ k, place i = some k ∧ r = stackAt a₀ k
  boot_eq : a.states i ≠ .unused → i.val ∉ m.unprepared → (m.slots i).stack = none → i = 0
  user_eq : (m.slots i).user = true →
    ∃ r, (m.slots i).stack = some r ∧ (m.slots i).kernelStackTop = r.start + r.len
  saved : a.states i = .ready → i.val ∉ m.unprepared → m.Prepared i

lemma slotsOk_iff : SlotsOk a₀ place a m ↔ ∀ i, SlotOk a₀ place a m i := by
  constructor
  · intro h i
    exact ⟨h.cleared i, h.stack_eq i, h.boot_eq i, h.user_eq i, h.saved i⟩
  · intro h
    exact ⟨fun i => (h i).cleared, fun i => (h i).stack_eq, fun i => (h i).boot_eq,
      fun i => (h i).user_eq, fun i => (h i).saved⟩

/-- A slot that is not affected by a step. -/
lemma SlotsOk.slot_congr {m' : Machine} {place' : ThreadId → Option ℕ} {i : ThreadId}
    (h : SlotsOk a₀ place a m) (hstate : a'.states i = a.states i) (hslot : m'.slots i = m.slots i)
    (hmem : i.val ∈ m'.unprepared ↔ i.val ∈ m.unprepared) (hplace : place' i = place i)
    (hmemory : m'.memory = m.memory) (hboot : m'.bootStack = m.bootStack) :
    SlotOk a₀ place' a' m' i := by
  constructor
  · rw [hstate, hmem, hslot]
    exact h.cleared i
  · rw [hslot, hplace]
    exact h.stack_eq i
  · rw [hstate, hmem, hslot]
    exact h.boot_eq i
  · rw [hslot]
    exact h.user_eq i
  · rw [hstate, hmem, Machine.prepared_iff, hslot, hmemory, hboot, ← Machine.prepared_iff]
    exact h.saved i

/-- The address of the first frame of a thread. -/
def firstFrame (stack : PhysRange) : ℕ := stack.start + stack.len - irqFrameSize

/-- A call under way creates a thread that is not prepared yet; its stack and its first frame are
there when the call has come so far. -/
def CallOk (a₀ : FrameAllocator) (place : ThreadId → Option ℕ) (m : Machine) : Call → Prop
  | .registered id _ => id ∈ m.unprepared
  | .stacked id _ stack => id ∈ m.unprepared ∧
      ∃ (i : ThreadId) (k : ℕ), i.val = id ∧ place i = some k ∧ stack = stackAt a₀ k
  | .framed id _ stack => id ∈ m.unprepared ∧
      (∃ (i : ThreadId) (k : ℕ), i.val = id ∧ place i = some k ∧ stack = stackAt a₀ k) ∧
      ∃ frame, m.memory (firstFrame stack) = some ⟨id, frame⟩
  | _ => True

/-- The calls under way create different threads, which are ready for the scheduler. -/
structure CallsOk (a₀ : FrameAllocator) (place : ThreadId → Option ℕ) (a : AbstractSched)
    (m : Machine) : Prop where
  unprepared_ready : ∀ id ∈ m.unprepared, ∃ i : ThreadId, i.val = id ∧ a.states i = .ready
  call_ok : ∀ t, CallOk a₀ place m (m.calls t)
  target_inj : ∀ t t' id, (m.calls t).target = some id → (m.calls t').target = some id → t = t'

/-- The invariant. -/
structure Inv (a₀ : FrameAllocator) (S : Finset ℕ) (place : ThreadId → Option ℕ)
    (a : AbstractSched) (m : Machine) : Prop where
  refines : Refines m.sched a
  valid : Valid a
  running : m.running = some a.current.val
  layout : Stacks a₀ m.frames m.bootStack S place
  slots : SlotsOk a₀ place a m
  calls : CallsOk a₀ place a m
  rsp0_eq : (m.slots a.current).user = true → m.rsp0 = (m.slots a.current).kernelStackTop

/-- The first frame of a thread lies on its stack. -/
lemma onStack_first (a₀ : FrameAllocator) (k : ℕ) :
    OnStack (stackAt a₀ k) (firstFrame (stackAt a₀ k)) := by
  have hlen : irqFrameSize ≤ (stackAt a₀ k).len :=
    show irqFrameSize ≤ threadStackPages * pageSize by decide
  rw [firstFrame]
  constructor <;> omega

lemma CallOk.mem {c : Call} (h : CallOk a₀ place m c) {id : ℕ} (hid : c.target = some id) :
    id ∈ m.unprepared := by
  cases c with
  | none => cases hid
  | returned result => cases hid
  | registered id' start => exact Option.some.inj hid ▸ h
  | stacked id' start stack => exact Option.some.inj hid ▸ h.1
  | framed id' start stack => exact Option.some.inj hid ▸ h.1

/-- A call is not affected by a step that keeps its thread unprepared, the place of its stack and
the first frame on it. -/
lemma CallOk.mono {m' : Machine} {place' : ThreadId → Option ℕ} {c : Call}
    (h : CallOk a₀ place m c) (hmem : ∀ id, c.target = some id → id ∈ m'.unprepared)
    (hplace : ∀ i : ThreadId, c.target = some i.val → place' i = place i)
    (hmemory : ∀ (i : ThreadId) k p, c.target = some i.val → place i = some k →
      OnStack (stackAt a₀ k) p → m'.memory p = m.memory p) : CallOk a₀ place' m' c := by
  cases c with
  | none => trivial
  | returned result => trivial
  | registered id start => exact hmem id rfl
  | stacked id start stack =>
    obtain ⟨-, i, k, rfl, hk, rfl⟩ := h
    exact ⟨hmem _ rfl, i, k, rfl, (hplace i rfl).trans hk, rfl⟩
  | framed id start stack =>
    obtain ⟨-, ⟨i, k, rfl, hk, rfl⟩, frame, hframe⟩ := h
    refine ⟨hmem _ rfl, ⟨i, k, rfl, (hplace i rfl).trans hk, rfl⟩, frame, ?_⟩
    rw [hmemory i k _ rfl hk (onStack_first a₀ k)]
    exact hframe

/-- One thread goes on in its call. -/
lemma CallsOk.update {m' : Machine} {place' : ThreadId → Option ℕ} {caller : ℕ} {c : Call}
    (h : CallsOk a₀ place a m) (hcalls : m'.calls = Function.update m.calls caller c)
    (hready : ∀ id ∈ m'.unprepared, ∃ i : ThreadId, i.val = id ∧ a'.states i = .ready)
    (hself : CallOk a₀ place' m' c) (hother : ∀ t, t ≠ caller → CallOk a₀ place' m' (m.calls t))
    (hinj : ∀ t id, t ≠ caller → (m.calls t).target = some id → c.target ≠ some id) :
    CallsOk a₀ place' a' m' := by
  refine ⟨hready, fun t => ?_, fun t t' id ht ht' => ?_⟩
  · rw [hcalls, Function.update_apply]
    split_ifs with heq
    · exact hself
    · exact hother t heq
  · rw [hcalls, Function.update_apply] at ht ht'
    split_ifs at ht ht' with h1 h2 h2
    · rw [h1, h2]
    · exact absurd ht (hinj t' id h2 ht')
    · exact absurd ht' (hinj t id h1 ht)
    · exact h.target_inj t t' id ht ht'

namespace Inv

/-- A thread that is not prepared is ready. -/
lemma state_of_unprepared (h : Inv a₀ S place a m) {i : ThreadId} (hi : i.val ∈ m.unprepared) :
    a.states i = .ready := by
  obtain ⟨j, hj, hstate⟩ := h.calls.unprepared_ready i hi
  rwa [Fin.ext hj] at hstate

/-- A thread in another state than ready is prepared. -/
lemma notMem_unprepared (h : Inv a₀ S place a m) {i : ThreadId} (hi : a.states i ≠ .ready) :
    i.val ∉ m.unprepared := fun hcon => hi (h.state_of_unprepared hcon)

lemma current_state (h : Inv a₀ S place a m) : a.states a.current = .running :=
  (h.valid.running_iff _).mpr rfl

lemma current_notMem (h : Inv a₀ S place a m) : a.current.val ∉ m.unprepared :=
  h.notMem_unprepared (by rw [h.current_state]; simp)

/-- A thread that is prepared owns the stack that it uses. -/
lemma owns (h : Inv a₀ S place a m) {i : ThreadId} (hstate : a.states i ≠ .unused)
    (hi : i.val ∉ m.unprepared) : Owns a₀ m.bootStack place i (m.stackOf i) := by
  rw [Machine.stackOf, Machine.slot_val]
  cases hstack : (m.slots i).stack with
  | none => exact .inl ⟨h.slots.boot_eq i hstate hi hstack, rfl⟩
  | some r => exact .inr (h.slots.stack_eq i r hstack)

lemma owns_current (h : Inv a₀ S place a m) :
    Owns a₀ m.bootStack place a.current (m.stackOf a.current) :=
  h.owns (by rw [h.current_state]; simp) h.current_notMem

/-! ### The sections of a call -/

/-- The scheduler has given a number to a new thread. -/
lemma register (h : Inv a₀ S place a m) {sched : Scheduler} (hrefines : Refines sched a')
    (hvalid : Valid a') {id : ThreadId} (hstate : a.states id = .unused)
    (hstates : a'.states = Function.update a.states id .ready) (hcurrent : a'.current = a.current)
    (caller : ℕ) (start : Start) :
    Inv a₀ S place a' ({ m with sched }.registered caller start (.ok id.val)) := by
  have hnew : id.val ∉ m.unprepared := h.notMem_unprepared (by rw [hstate]; simp)
  have hother : ∀ i : ThreadId, i ≠ id → a'.states i = a.states i := fun i hi => by
    rw [hstates, Function.update_of_ne hi]
  refine ⟨hrefines, hvalid, ?_, h.layout, ⟨?_, h.slots.stack_eq, ?_, h.slots.user_eq, ?_⟩,
    h.calls.update rfl ?_ (Finset.mem_insert_self _ _) (fun t _ => ?_) ?_, ?_⟩
  · rw [hcurrent]
    exact h.running
  · intro i hi
    by_cases heq : i = id
    · rw [heq]
      exact h.slots.cleared id (.inl hstate)
    · refine h.slots.cleared i ?_
      rcases hi with hi | hi
      · exact .inl (hother i heq ▸ hi)
      · exact .inr ((Finset.mem_insert.mp hi).resolve_left fun hcon => heq (Fin.ext hcon))
  · intro i hi hmem
    obtain ⟨hne, hmem⟩ := not_or.mp (mt Finset.mem_insert.mpr hmem)
    rw [hother i fun hcon => hne (congrArg Fin.val hcon)] at hi
    exact h.slots.boot_eq i hi hmem
  · intro i hi hmem
    obtain ⟨hne, hmem⟩ := not_or.mp (mt Finset.mem_insert.mpr hmem)
    rw [hother i fun hcon => hne (congrArg Fin.val hcon)] at hi
    exact h.slots.saved i hi hmem
  · intro i hi
    rcases Finset.mem_insert.mp hi with rfl | hi
    · exact ⟨id, rfl, by rw [hstates, Function.update_self]⟩
    · obtain ⟨j, rfl, hj⟩ := h.calls.unprepared_ready i hi
      refine ⟨j, rfl, ?_⟩
      rwa [hother j fun hcon => hnew (hcon ▸ hi)]
  · exact (h.calls.call_ok t).mono
      (fun i hi => Finset.mem_insert_of_mem ((h.calls.call_ok t).mem hi)) (fun _ _ => rfl)
      fun _ _ _ _ _ _ => rfl
  · rintro t i - hi hcon
    obtain rfl : id.val = i := Option.some.inj hcon
    exact hnew ((h.calls.call_ok t).mem hi)
  · rw [hcurrent]
    exact h.rsp0_eq

/-- A call returns with an error. -/
lemma fail (h : Inv a₀ S place a m) {sched : Scheduler} (hrefines : Refines sched a) (caller : ℕ)
    (e : CreateError) :
    Inv a₀ S place a ({ m with sched }.setCall caller (.returned (.error e))) := by
  refine ⟨hrefines, h.valid, h.running, h.layout, ⟨h.slots.cleared, h.slots.stack_eq,
    h.slots.boot_eq, h.slots.user_eq, h.slots.saved⟩,
    h.calls.update rfl h.calls.unprepared_ready trivial (fun t _ => ?_) ?_, h.rsp0_eq⟩
  · exact (h.calls.call_ok t).mono (fun i hi => (h.calls.call_ok t).mem hi) (fun _ _ => rfl)
      fun _ _ _ _ _ _ => rfl
  · rintro t i - - hcon
    cases hcon

/-- The other calls create other threads. -/
lemma target_ne (h : Inv a₀ S place a m) {caller t id : ℕ}
    (hcaller : (m.calls caller).target = some id)
    (hne : t ≠ caller) {id' : ℕ} (ht : (m.calls t).target = some id') : id' ≠ id := by
  rintro rfl
  exact hne (h.calls.target_inj t caller id' ht hcaller)

/-- The new thread has got a stack. -/
lemma stacked (h : Inv a₀ S place a m) {caller : ℕ} {i : ThreadId} {start : Start}
    (hcall : m.calls caller = .registered i.val start) {S' : Finset ℕ} {k : ℕ}
    {frames : FrameAllocator}
    (hlayout : Stacks a₀ frames m.bootStack S' (Function.update place i (some k))) :
    Inv a₀ S' (Function.update place i (some k)) a
      ({ m with frames }.setCall caller (.stacked i.val start (stackAt a₀ k))) := by
  have hmem : i.val ∈ m.unprepared := (h.calls.call_ok caller).mem (by rw [hcall]; rfl)
  have htarget : (m.calls caller).target = some i.val := by rw [hcall]; rfl
  refine ⟨h.refines, h.valid, h.running, hlayout, ⟨h.slots.cleared, ?_, h.slots.boot_eq,
    h.slots.user_eq, h.slots.saved⟩,
    h.calls.update rfl h.calls.unprepared_ready ⟨hmem, i, k, rfl, Function.update_self .., rfl⟩
      (fun t hne => ?_) ?_, h.rsp0_eq⟩
  · intro j r hr
    have hne : j ≠ i := by
      rintro rfl
      change (m.slots j).stack = some r at hr
      rw [(h.slots.cleared j (.inr hmem)).2.1] at hr
      cases hr
    rw [Function.update_of_ne hne]
    exact h.slots.stack_eq j r hr
  · refine (h.calls.call_ok t).mono (fun id hid => (h.calls.call_ok t).mem hid) (fun j hj => ?_)
      fun _ _ _ _ _ _ => rfl
    exact Function.update_of_ne (fun hcon => h.target_ne htarget hne hj (congrArg Fin.val hcon)) ..
  · rintro t id hne hid hcon
    exact h.target_ne htarget hne hid (Option.some.inj hcon).symm

/-- A frame is stored on the stack of a thread.  The frames of the other threads stay. -/
lemma memory_of_store (h : Inv a₀ S place a m) {i j : ThreadId} (hne : i ≠ j) {r r' : PhysRange}
    (hr : Owns a₀ m.bootStack place i r) {address p : ℕ} (haddress : OnStack r address)
    (hr' : Owns a₀ m.bootStack place j r') (hp : OnStack r' p) (saved : SavedFrame) :
    m.memory.store address saved p = m.memory p :=
  h.layout.store_eq hne hr hr' haddress hp m.memory saved

/-- Threads that are ready can still be resumed after a frame has been stored on another stack. -/
lemma saved_of_store (h : Inv a₀ S place a m) {i : ThreadId} {r : PhysRange}
    (hr : Owns a₀ m.bootStack place i r) {address : ℕ} (haddress : OnStack r address)
    (saved : SavedFrame) {j : ThreadId} (hne : i ≠ j) (hstate : a.states j = .ready)
    (hj : j.val ∉ m.unprepared) :
    ({ m with memory := m.memory.store address saved } : Machine).Prepared j := by
  obtain ⟨h1, ⟨frame, h2⟩, h3⟩ := h.slots.saved j hstate hj
  refine ⟨h1, ⟨frame, ?_⟩, h3⟩
  refine (h.memory_of_store hne hr haddress ?_ h3 saved).trans h2
  exact h.owns (by rw [hstate]; simp) hj

/-- The first frame of the new thread is written. -/
lemma framed (h : Inv a₀ S place a m) {caller k : ℕ} {i : ThreadId} {start : Start}
    (hcall : m.calls caller = .stacked i.val start (stackAt a₀ k)) (hk : place i = some k)
    (frame : IrqFrame) :
    Inv a₀ S place a
      (({ m with memory := m.memory.store (firstFrame (stackAt a₀ k)) ⟨i.val, frame⟩ } :
        Machine).setCall caller (.framed i.val start (stackAt a₀ k))) := by
  have hmem : i.val ∈ m.unprepared := (h.calls.call_ok caller).mem (by rw [hcall]; rfl)
  have htarget : (m.calls caller).target = some i.val := by rw [hcall]; rfl
  have howns : Owns a₀ m.bootStack place i (stackAt a₀ k) := .inr ⟨k, hk, rfl⟩
  have hstore := store_self m.memory (firstFrame (stackAt a₀ k)) ⟨i.val, frame⟩
  refine ⟨h.refines, h.valid, h.running, h.layout, ⟨h.slots.cleared, h.slots.stack_eq,
    h.slots.boot_eq, h.slots.user_eq, fun j hstate hj => ?_⟩,
    h.calls.update rfl h.calls.unprepared_ready ⟨hmem, ⟨i, k, rfl, hk, rfl⟩, frame, ?_⟩
      (fun t hne => ?_) ?_, h.rsp0_eq⟩
  · have hne : i ≠ j := fun hcon => hj (hcon ▸ hmem)
    exact h.saved_of_store howns (onStack_first a₀ k) _ hne hstate hj
  · simpa only [Machine.setCall] using hstore
  · refine (h.calls.call_ok t).mono (fun id hid => (h.calls.call_ok t).mem hid) (fun _ _ => rfl)
      fun j k' p hj hk' hp => ?_
    have hij : i ≠ j := fun hcon => h.target_ne htarget hne hj (congrArg Fin.val hcon.symm)
    exact h.memory_of_store hij howns (onStack_first a₀ k) (.inr ⟨k', hk', rfl⟩) hp _
  · rintro t id hne hid hcon
    exact h.target_ne htarget hne hid (Option.some.inj hcon).symm

/-- The slot of the new thread is written. -/
lemma prepared (h : Inv a₀ S place a m) {caller k : ℕ} {i : ThreadId} {start : Start}
    (hcall : m.calls caller = .framed i.val start (stackAt a₀ k)) (hk : place i = some k)
    {slot : Slot} (hrsp : slot.rsp = firstFrame (stackAt a₀ k))
    (hstack : slot.stack = some (stackAt a₀ k))
    (htop : slot.kernelStackTop = (stackAt a₀ k).start + (stackAt a₀ k).len) :
    Inv a₀ S place a ({ m with
      slots := Function.update m.slots i slot
      unprepared := m.unprepared.erase i.val
    }.setCall caller (.returned (.ok i.val))) := by
  have hok := h.calls.call_ok caller
  have htarget : (m.calls caller).target = some i.val := by rw [hcall]; rfl
  have hmem : i.val ∈ m.unprepared := hok.mem htarget
  have hstate := h.state_of_unprepared hmem
  have howns : Owns a₀ m.bootStack place i (stackAt a₀ k) := .inr ⟨k, hk, rfl⟩
  rw [hcall] at hok
  obtain ⟨-, -, frame, hframe⟩ := hok
  have hcurrent : a.current ≠ i := by
    rintro rfl
    rw [h.current_state] at hstate
    cases hstate
  refine ⟨h.refines, h.valid, h.running, h.layout, slotsOk_iff.mpr fun j => ?_,
    h.calls.update rfl ?_ trivial (fun t hne => ?_) ?_, ?_⟩
  · by_cases hji : j = i
    · subst hji
      refine ⟨?_, ?_, ?_, ?_, ?_⟩
      · rintro (hunused | hcon)
        · rw [hstate] at hunused
          cases hunused
        · exact absurd rfl (Finset.mem_erase.mp hcon).1
      · intro r hr
        simp only [Machine.setCall, Function.update_self, hstack] at hr
        exact ⟨k, hk, (Option.some.inj hr).symm⟩
      · intro _ _ hnone
        simp only [Machine.setCall, Function.update_self, hstack] at hnone
        cases hnone
      · intro _
        simp only [Machine.setCall, Function.update_self]
        exact ⟨_, hstack, htop⟩
      · intro _ _
        rw [Machine.prepared_iff]
        simp only [Machine.setCall, Function.update_self]
        rw [hrsp, hstack]
        exact ⟨h.layout.address_ne_zero howns (onStack_first a₀ k), ⟨frame, hframe⟩,
          onStack_first a₀ k⟩
    · refine h.slots.slot_congr rfl (Function.update_of_ne hji ..) ?_ rfl rfl rfl
      exact Finset.mem_erase.trans (and_iff_right fun hcon => hji (Fin.ext hcon))
  · exact fun id hid => h.calls.unprepared_ready id (Finset.mem_erase.mp hid).2
  · refine (h.calls.call_ok t).mono (fun id hid => ?_) (fun _ _ => rfl) fun _ _ _ _ _ _ => rfl
    exact Finset.mem_erase.mpr ⟨h.target_ne htarget hne hid, (h.calls.call_ok t).mem hid⟩
  · rintro t id - - hcon
    cases hcon
  · simp only [Machine.setCall, Function.update_of_ne hcurrent]
    exact h.rsp0_eq

/-! ### The parts of an interrupt -/

/-- The processor saves the registers on the stack of the running thread.  For a user thread this is
so because `rsp0` has been set when it was switched to. -/
lemma onStack_of_savesAt (h : Inv a₀ S place a m) {address : ℕ}
    (hsaves : m.SavesAt a.current address) : OnStack (m.stackOf a.current) address := by
  rw [Machine.SavesAt, Machine.slot_val] at hsaves
  split_ifs at hsaves with huser
  · obtain ⟨r, hstack, htop⟩ := h.slots.user_eq _ huser
    obtain ⟨k, -, rfl⟩ := h.slots.stack_eq _ r hstack
    have hlen : irqFrameSize ≤ (stackAt a₀ k).len :=
      show irqFrameSize ≤ threadStackPages * pageSize by decide
    rw [h.rsp0_eq huser, htop] at hsaves
    rw [Machine.stackOf, Machine.slot_val, hstack, Option.getD_some]
    constructor <;> omega
  · exact hsaves

lemma push_eq (h : Inv a₀ S place a m) (address : ℕ) (frame : IrqFrame) :
    m.push address frame =
      { m with memory := m.memory.store address ⟨a.current.val, frame⟩ } := by
  rw [Machine.push, h.running]

/-- The registers of the running thread are saved. -/
lemma push (h : Inv a₀ S place a m) {address : ℕ} (haddress : OnStack (m.stackOf a.current) address)
    (frame : IrqFrame) : Inv a₀ S place a (m.push address frame) := by
  rw [h.push_eq]
  refine ⟨h.refines, h.valid, h.running, h.layout, ⟨h.slots.cleared, h.slots.stack_eq,
    h.slots.boot_eq, h.slots.user_eq, fun j hstate hj => ?_⟩,
    ⟨h.calls.unprepared_ready, fun t => ?_, h.calls.target_inj⟩, h.rsp0_eq⟩
  · have hne : a.current ≠ j := by
      rintro rfl
      rw [h.current_state] at hstate
      cases hstate
    exact h.saved_of_store h.owns_current haddress _ hne hstate hj
  · refine (h.calls.call_ok t).mono (fun id hid => (h.calls.call_ok t).mem hid) (fun _ _ => rfl)
      fun j k p hj hk hp => ?_
    have hne : a.current ≠ j := by
      rintro rfl
      exact h.current_notMem ((h.calls.call_ok t).mem hj)
    exact h.memory_of_store hne h.owns_current haddress (.inr ⟨k, hk, rfl⟩) hp _

/-- A thread that has exited is reaped. -/
lemma clear (h : Inv a₀ S place a m) {i : ThreadId} (hstate : a.states i = .exited)
    {sched : Scheduler} (hrefines : Refines sched a') (hvalid : Valid a')
    (hstates : a'.states = Function.update a.states i .unused) (hcurrent : a'.current = a.current)
    {frames : FrameAllocator} {S' : Finset ℕ} {place' : ThreadId → Option ℕ}
    (hlayout : Stacks a₀ frames m.bootStack S' place') (hplace : ∀ j, j ≠ i → place' j = place j)
    (thread : ℕ) :
    Inv a₀ S' place' a' { m with
      sched
      slots := Function.update m.slots i { Slot.new with thread }
      frames } := by
  have hother : ∀ j : ThreadId, j ≠ i → a'.states j = a.states j := fun j hj => by
    rw [hstates, Function.update_of_ne hj]
  have hself : a'.states i = .unused := by rw [hstates, Function.update_self]
  have hready : ∀ j : ThreadId, a.states j = .ready → j ≠ i := by
    rintro j hj rfl
    rw [hstate] at hj
    cases hj
  have hne : a.current ≠ i := by
    intro hcon
    rw [← hcon, h.current_state] at hstate
    cases hstate
  refine ⟨hrefines, hvalid, ?_, hlayout, slotsOk_iff.mpr fun j => ?_,
    ⟨?_, fun t => ?_, h.calls.target_inj⟩, ?_⟩
  · rw [hcurrent]
    exact h.running
  · by_cases hji : j = i
    · subst hji
      refine ⟨fun _ => ?_, fun r hr => ?_, fun hcon => absurd hself hcon, fun huser => ?_,
        fun hcon => ?_⟩
      · simp only [Function.update_self]
        exact ⟨rfl, rfl, rfl⟩
      · simp only [Function.update_self] at hr
        cases hr
      · simp only [Function.update_self] at huser
        cases huser
      · rw [hself] at hcon
        cases hcon
    · exact h.slots.slot_congr (hother j hji) (Function.update_of_ne hji ..) Iff.rfl
        (hplace j hji) rfl rfl
  · intro id hid
    obtain ⟨j, rfl, hj⟩ := h.calls.unprepared_ready id hid
    exact ⟨j, rfl, (hother j (hready j hj)).trans hj⟩
  · refine (h.calls.call_ok t).mono (fun id hid => (h.calls.call_ok t).mem hid) (fun j hj => ?_)
      fun _ _ _ _ _ _ => rfl
    exact hplace j (hready j (h.state_of_unprepared ((h.calls.call_ok t).mem hj)))
  · rw [hcurrent]
    simp only [Function.update_of_ne hne]
    exact h.rsp0_eq

end Inv

/-- One thread less has exited when it has been taken. -/
lemma card_exited_update {i : ThreadId} (hstate : a.states i = .exited) {n : ℕ}
    (hcount : (Finset.univ.filter fun j => a.states j = .exited).card ≤ n + 1) :
    (Finset.univ.filter fun j => Function.update a.states i .unused j = .exited).card ≤ n := by
  have herase : (Finset.univ.filter fun j => Function.update a.states i .unused j = .exited) =
      (Finset.univ.filter fun j => a.states j = .exited).erase i := by
    ext j
    by_cases hj : j = i
    · simp [hj]
    · simp [hj]
  rw [herase, Finset.card_erase_of_mem (by simp [hstate])]
  omega

/-- What reaping leaves as it is. -/
structure Reaped (a a' : AbstractSched) (m m' : Machine) : Prop where
  current_eq : a'.current = a.current
  queue_eq : a'.queue = a.queue
  idle_eq : a'.idle = a.idle
  ticks_eq : a'.ticks = a.ticks
  switches_eq : a'.switches = a.switches
  memory_eq : m'.memory = m.memory
  unprepared_eq : m'.unprepared = m.unprepared
  stackOf_eq : m'.stackOf a.current = m.stackOf a.current

lemma Reaped.refl (a : AbstractSched) (m : Machine) (sched : Scheduler) :
    Reaped a a m { m with sched } := ⟨rfl, rfl, rfl, rfl, rfl, rfl, rfl, rfl⟩

lemma Reaped.trans {a₁ a₂ a₃ : AbstractSched} {m₁ m₂ m₃ : Machine} (h : Reaped a₁ a₂ m₁ m₂)
    (h' : Reaped a₂ a₃ m₂ m₃) : Reaped a₁ a₃ m₁ m₃ where
  current_eq := h'.current_eq.trans h.current_eq
  queue_eq := h'.queue_eq.trans h.queue_eq
  idle_eq := h'.idle_eq.trans h.idle_eq
  ticks_eq := h'.ticks_eq.trans h.ticks_eq
  switches_eq := h'.switches_eq.trans h.switches_eq
  memory_eq := h'.memory_eq.trans h.memory_eq
  unprepared_eq := h'.unprepared_eq.trans h.unprepared_eq
  stackOf_eq := by
    have := h'.stackOf_eq
    rw [h.current_eq] at this
    exact this.trans h.stackOf_eq

namespace Inv

/-- The scheduler keeps the current thread. -/
lemma keep (h : Inv a₀ S place a m) {sched : Scheduler} (hrefines : Refines sched a')
    (hvalid : Valid a') (hstates : a'.states = a.states) (hcurrent : a'.current = a.current) :
    Inv a₀ S place a' { m with sched } := by
  refine ⟨hrefines, hvalid, ?_, h.layout, ⟨?_, h.slots.stack_eq, ?_, h.slots.user_eq, ?_⟩,
    ⟨?_, h.calls.call_ok, h.calls.target_inj⟩, ?_⟩
  · rw [hcurrent]
    exact h.running
  · rw [hstates]
    exact h.slots.cleared
  · rw [hstates]
    exact h.slots.boot_eq
  · rw [hstates]
    exact h.slots.saved
  · rw [hstates]
    exact h.calls.unprepared_ready
  · rw [hcurrent]
    exact h.rsp0_eq

/-- `release` of a thread that has exited. -/
lemma release (hfresh : Fresh map a₀) (h : Inv a₀ S place a m) {i : ThreadId}
    (hstate : a.states i = .exited) {sched : Scheduler}
    (hrefines : Refines sched { a with states := Function.update a.states i .unused })
    (hvalid : Valid { a with states := Function.update a.states i .unused }) :
    ∃ m' S' place', ({ m with sched } : Machine).release i = .ok m' ∧
      Inv a₀ S' place' { a with states := Function.update a.states i .unused } m' ∧
      Reaped a { a with states := Function.update a.states i .unused } m m' := by
  have hne : a.current ≠ i := by
    intro hcon
    rw [← hcon, h.current_state] at hstate
    cases hstate
  rw [Machine.release]
  simp only [readAt_val, writeAt_val, Checked.ok_bind]
  cases hstack : (m.slots i).stack with
  | none =>
    refine ⟨_, S, place, rfl, h.clear hstate hrefines hvalid rfl rfl h.layout (fun _ _ => rfl) _,
      rfl, rfl, rfl, rfl, rfl, rfl, rfl, ?_⟩
    simp only [Machine.stackOf, Machine.slot_val, Function.update_of_ne hne]
  | some r =>
    obtain ⟨k, hk, rfl⟩ := h.slots.stack_eq i r hstack
    obtain ⟨frames, hfree, hlayout⟩ := h.layout.free hfresh hk
    simp only [hfree, Checked.ok_bind]
    refine ⟨_, _, _, rfl, h.clear hstate hrefines hvalid rfl rfl hlayout
      (fun j hj => Function.update_of_ne hj ..) _, rfl, rfl, rfl, rfl, rfl, rfl, rfl, ?_⟩
    simp only [Machine.stackOf, Machine.slot_val, Function.update_of_ne hne]

/-- `reap_exited`: when there are rounds enough, nothing that has exited is left. -/
lemma reapExited (hfresh : Fresh map a₀) {n : ℕ} : ∀ {S : Finset ℕ} {place : ThreadId → Option ℕ}
    {a : AbstractSched} {m : Machine}, Inv a₀ S place a m →
      (Finset.univ.filter fun i => a.states i = .exited).card ≤ n →
      ∃ m' S' place' a', Machine.reapExited n m = .ok m' ∧ Inv a₀ S' place' a' m' ∧
        Reaped a a' m m' ∧ ∀ i, a'.states i ≠ .exited := by
  induction n with
  | zero =>
    intro S place a m h hcount
    refine ⟨m, S, place, a, rfl, h, .refl a m m.sched, fun i hi => ?_⟩
    have hempty := Finset.card_eq_zero.mp (Nat.le_zero.mp hcount)
    exact Finset.filter_eq_empty_iff.mp hempty (Finset.mem_univ i) hi
  | succ n ih =>
    intro S place a m h hcount
    obtain ⟨sched, htake, hrefines⟩ := h.refines.takeReapable h.valid
    have hvalid := h.valid.takeReapable
    rw [Machine.reapExited, htake, Checked.ok_bind]
    rw [AbstractSched.takeReapable] at hrefines hvalid ⊢
    cases hid : firstWith a.states .exited with
    | none =>
      rw [hid] at hrefines
      exact ⟨_, S, place, a, rfl, h.keep hrefines h.valid rfl rfl, .refl a m sched,
        ne_of_firstWith_eq_none hid⟩
    | some i =>
      have hstate := state_of_firstWith hid
      rw [hid] at hrefines hvalid
      obtain ⟨m₁, S₁, place₁, hrelease, h₁, hreaped⟩ := h.release hfresh hstate hrefines hvalid
      obtain ⟨m', S', place', a', hreap, h', hreaped', hnone⟩ :=
        ih h₁ (card_exited_update hstate hcount)
      refine ⟨m', S', place', a', ?_, h', hreaped.trans hreaped', hnone⟩
      simp only
      rw [hrelease, Checked.ok_bind, hreap]

/-- The processor switches to a thread that is prepared. -/
lemma switch (h : Inv a₀ S place a m) {address : ℕ} {frame : IrqFrame}
    (haddress : OnStack (m.stackOf a.current) address)
    (hmemory : m.memory address = some ⟨a.current.val, frame⟩) {next : ThreadId}
    {left : ThreadState} (hnext : a.states next = .ready) (hprepared : next.val ∉ m.unprepared)
    (hleft : left = .ready ∨ left = .exited) {sched : Scheduler} (hrefines : Refines sched a')
    (hvalid : Valid a')
    (hstates : a'.states = Function.update (Function.update a.states a.current left) next .running)
    (hcurrent : a'.current = next) :
    Inv a₀ S place a' { m with
      sched
      slots := Function.update m.slots a.current { m.slots a.current with rsp := address }
      rsp0 := if (m.slots next).user then (m.slots next).kernelStackTop else m.rsp0
      running := some next.val } := by
  have hne : next ≠ a.current := by
    rintro rfl
    rw [h.current_state] at hnext
    cases hnext
  have hother : ∀ j : ThreadId, j ≠ next → j ≠ a.current → a'.states j = a.states j :=
    fun j h1 h2 => by rw [hstates, Function.update_of_ne h1, Function.update_of_ne h2]
  have hself : a'.states next = .running := by rw [hstates, Function.update_self]
  have hleave : a'.states a.current = left := by
    rw [hstates, Function.update_of_ne hne.symm, Function.update_self]
  refine ⟨hrefines, hvalid, by rw [hcurrent], h.layout, slotsOk_iff.mpr fun j => ?_,
    ⟨?_, fun t => ?_, h.calls.target_inj⟩, ?_⟩
  · by_cases hjn : j = next
    · -- the thread that runs next keeps its slot
      subst hjn
      have hslot := (slotsOk_iff.mp h.slots) j
      refine ⟨?_, ?_, ?_, ?_, ?_⟩
      · rintro (hunused | hcon)
        · rw [hself] at hunused
          cases hunused
        · exact absurd hcon hprepared
      · simp only [Function.update_of_ne hne]
        exact hslot.stack_eq
      · simp only [Function.update_of_ne hne]
        exact fun _ => hslot.boot_eq (by rw [hnext]; simp)
      · simp only [Function.update_of_ne hne]
        exact hslot.user_eq
      · intro hcon
        rw [hself] at hcon
        cases hcon
    by_cases hjc : j = a.current
    · -- the thread that is left can be resumed where it was interrupted
      subst hjc
      have hslot := (slotsOk_iff.mp h.slots) a.current
      refine ⟨?_, ?_, ?_, ?_, fun _ _ => ?_⟩
      · rintro (hunused | hcon)
        · rw [hleave] at hunused
          rcases hleft with rfl | rfl <;> cases hunused
        · exact absurd hcon h.current_notMem
      · simp only [Function.update_self]
        exact hslot.stack_eq
      · simp only [Function.update_self]
        exact fun _ => hslot.boot_eq (by rw [h.current_state]; simp)
      · simp only [Function.update_self]
        exact hslot.user_eq
      · rw [Machine.prepared_iff]
        simp only [Function.update_self]
        rw [Machine.stackOf, Machine.slot_val] at haddress
        exact ⟨h.layout.address_ne_zero h.owns_current (by rwa [Machine.stackOf, Machine.slot_val]),
          ⟨frame, hmemory⟩, haddress⟩
    · exact h.slots.slot_congr (hother j hjn hjc) (Function.update_of_ne hjc ..) Iff.rfl rfl rfl rfl
  · intro id hid
    obtain ⟨j, rfl, hj⟩ := h.calls.unprepared_ready id hid
    refine ⟨j, rfl, ?_⟩
    rwa [hother j (by rintro rfl; exact hprepared hid)
      (by rintro rfl; exact h.current_notMem hid)]
  · exact (h.calls.call_ok t).mono (fun id hid => (h.calls.call_ok t).mem hid) (fun _ _ => rfl)
      fun _ _ _ _ _ _ => rfl
  · rw [hcurrent]
    simp only [Function.update_of_ne hne]
    intro huser
    rw [if_pos huser]

end Inv

end Kernel

end ParanukOS
