import ParanukOS.Foundation.Simulation
import ParanukOS.Kernel.Thread.Kept

/-!
# Every thread has a processor of its own

A `Processor` is the machine of `Kernel.Thread.Model` together with the registers and the floating
point unit, which `switch_to` of `kernel/src/sched.rs` stores in the `FxSaveArea` of the slot.  The
handler itself does not use the floating point unit: the kernel is compiled without it.

A `Virtual` machine is what the kernel is to make of the one processor.  Every thread has registers
and a floating point unit; only the running thread changes them, and an interrupt does nothing but
choose the thread that runs next.  The main theorem says that the processor behaves like the virtual
machine along every run in which no interrupt arrives while the thread that it would switch to is
not prepared.

## Outline

* `FxSaveArea`, `Processor`, `Processor.step`: the processor with the kernel.
* `Virtual`, `Virtual.Step`: the virtual machine.
* `Holds`: where the kernel keeps the contexts.
* `threads_have_own_processors`: the main theorem.
-/

namespace ParanukOS

open Foundation KernelMemory KernelSched FrameAllocator

namespace Kernel

/-! ## Registers -/

/-- The registers in a frame: all of its words except the vector and the error code. -/
abbrev RegisterFile := { frame : IrqFrame // frame.vector = 0 ∧ frame.errorCode = 0 }

/-- The registers that are loaded from a frame. -/
def IrqFrame.registers (frame : IrqFrame) : RegisterFile :=
  ⟨{ frame with vector := 0, errorCode := 0 }, rfl, rfl⟩

/-- The frame that an interrupt saves. -/
def RegisterFile.frame (registers : RegisterFile) (vector : ℕ) : IrqFrame :=
  { registers.val with vector }

@[simp] lemma registers_frame (registers : RegisterFile) (vector : ℕ) :
    (registers.frame vector).registers = registers := by
  obtain ⟨frame, hvector, herror⟩ := registers
  refine Subtype.ext ?_
  cases frame
  cases hvector
  cases herror
  rfl

/-- What `fxsave` stores: all bytes of the area but the last 48. -/
abbrev FpuState := Fin 464 → UInt8

/-- `FxSaveArea`. -/
abbrev FxSaveArea := Fin 512 → UInt8

/-- `FxSaveArea::zeroed`. -/
def FxSaveArea.zeroed : FxSaveArea := fun _ => 0

/-- `FxSaveArea::default_state`. -/
def FxSaveArea.defaultState : FxSaveArea := fun i =>
  if i = 0 then 0x7F else if i = 1 then 0x03 else if i = 24 then 0x80 else if i = 25 then 0x1F
  else 0

/-- `fxsave`. -/
def fxsave (fpu : FpuState) (area : FxSaveArea) : FxSaveArea := fun i =>
  if h : i.val < 464 then fpu ⟨i.val, h⟩ else area i

/-- `fxrstor`. -/
def fxrstor (area : FxSaveArea) : FpuState := fun i => area ⟨i.val, i.isLt.trans (by decide)⟩

@[simp] lemma fxrstor_fxsave (fpu : FpuState) (area : FxSaveArea) :
    fxrstor (fxsave fpu area) = fpu := by
  funext i
  exact dif_pos i.isLt

/-- What a thread computes with. -/
@[ext] structure Context where
  registers : RegisterFile
  fpu : FpuState

/-- What a new thread starts with. -/
def Start.context (start : Start) (id top trampoline : ℕ) : Context where
  registers := (start.frame id top trampoline).registers
  fpu := fxrstor .defaultState

/-- Where the thread starts that a call under way creates. -/
def Call.start : Call → Option Start
  | .registered _ start => some start
  | .stacked _ start _ => some start
  | .framed _ start _ => some start
  | _ => Option.none

/-! ## The processor -/

/-- The processor and the kernel, with what the running thread computes with. -/
structure Processor where
  /-- The kernel, with the frames in memory. -/
  machine : Machine
  /-- The fields `fx` of the slots. -/
  fx : Fin maxThreads → FxSaveArea
  registers : RegisterFile
  fpu : FpuState

/-- What happens. -/
inductive Action where
  /-- The running thread computes. -/
  | compute (registers : RegisterFile) (fpu : FpuState)
  /-- It calls a function that creates a thread. -/
  | call (call : CreateCall)
  /-- It executes the next section of its call. -/
  | proceed
  /-- An interrupt saves a frame at an address. -/
  | interrupt (address vector : ℕ)

namespace Processor

/-- The event of the machine without registers. -/
def event (p : Processor) : Action → Option Event
  | .compute _ _ => none
  | .call call => some (.call call)
  | .proceed => some .proceed
  | .interrupt address vector => some (.interrupt address (p.registers.frame vector))

/-- The registers are loaded from the frame at an address. -/
def load (p : Processor) (address : ℕ) : Processor :=
  { p with
    machine := p.machine.pop address
    registers := ((p.machine.memory address).map fun saved => saved.frame.registers).getD
      p.registers }

/-- The areas after the next section of a call, of which the last one writes the slot. -/
def nextFx (p : Processor) : Call → Fin maxThreads → FxSaveArea
  | .framed id _ _ => fun i => if i.val = id then .defaultState else p.fx i
  | _ => p.fx

/-- `irq_common` with `irq_handler`, where `switch_to` saves the floating point unit of the thread
that is left and loads the one of the next thread. -/
def irqCommon (p : Processor) (address vector : ℕ) : Checked Processor := do
  let frame := p.registers.frame vector
  let (decision, machine) ← (p.machine.push address frame).irqDecision frame
  match decision with
  | .keep => return { p with machine }.load address
  | .switch previous next => do
    let (rax, machine) ← machine.switchTo previous next address
    let fx ← writeAt p.fx previous (fxsave p.fpu (← readAt p.fx previous))
    let fpu := fxrstor (← readAt fx next)
    return { p with machine, fx, fpu }.load (if rax = 0 then address else rax)

/-- One step. -/
def step (p : Processor) (action : Action) : Checked Processor :=
  match p.machine.running, action with
  | none, _ => return p
  | some _, .compute registers fpu => return { p with registers, fpu }
  | some caller, .call call => do
    return { p with machine := ← p.machine.beginCall caller call }
  | some caller, .proceed => do
    let machine ← p.machine.continueCall caller
    return { p with machine, fx := p.nextFx (p.machine.calls caller) }
  | some _, .interrupt address vector => p.irqCommon address vector

/-- A step that can be made, where an interrupt is guarded. -/
def GuardedStep (p : Processor) (action : Action) (p' : Processor) : Prop :=
  (∀ e ∈ p.event action, p.machine.Allowed e ∧ p.machine.Guarded e) ∧ p.step action = .ok p'

end Processor

/-! ## The virtual machine -/

/-- A processor for every thread. -/
structure Virtual where
  /-- What the threads compute with, if they are there. -/
  contexts : ThreadId → Option Context
  /-- The thread that runs. -/
  running : ThreadId
  /-- The last call of each thread that creates a thread. -/
  asked : ThreadId → Option CreateCall

namespace Virtual

/-- The running thread changes its own context.  Its calls can add a thread, which starts as the
call says.  An interrupt leaves all contexts as they are; only the running thread disappears when it
exits. -/
inductive Step (trampoline : ℕ) : Virtual → Action → Virtual → Prop
  | compute (v : Virtual) (registers : RegisterFile) (fpu : FpuState) :
      Step trampoline v (.compute registers fpu)
        { v with contexts := Function.update v.contexts v.running (some ⟨registers, fpu⟩) }
  | call (v : Virtual) (call : CreateCall) :
      Step trampoline v (.call call)
        { v with asked := Function.update v.asked v.running (some call) }
  | proceed (v : Virtual) : Step trampoline v .proceed v
  | create (v : Virtual) (call : CreateCall) (hasked : v.asked v.running = some call)
      (id : ThreadId) (hid : v.contexts id = none) (top : ℕ) :
      Step trampoline v .proceed { v with
        contexts := Function.update v.contexts id (some (call.start.context id top trampoline)) }
  | stay (v : Virtual) (address vector : ℕ) : Step trampoline v (.interrupt address vector) v
  | switch (v : Virtual) (address vector : ℕ) (next : ThreadId) (hnext : v.contexts next ≠ none) :
      Step trampoline v (.interrupt address vector) { v with running := next }
  | exit (v : Virtual) (address vector : ℕ)
      (hvector : vector % 2 ^ 8 ∈ [exitVector, syscallVector]) (next : ThreadId)
      (hnext : v.contexts next ≠ none) (hne : next ≠ v.running) :
      Step trampoline v (.interrupt address vector) { v with
        contexts := Function.update v.contexts v.running none
        running := next }

/-- The boot thread is alone. -/
def boot (context : Context) : Virtual where
  contexts := Function.update (fun _ => none) 0 (some context)
  running := 0
  asked := fun _ => none

end Virtual

/-- The processor executes the running thread of the virtual machine, with its context. -/
def Executes (p : Processor) (v : Virtual) : Prop :=
  p.machine.running = some v.running.val ∧ v.contexts v.running = some ⟨p.registers, p.fpu⟩

/-! ## Where the contexts are -/

variable {map : MemoryMap} {a₀ : FrameAllocator} {S : Finset ℕ} {place : ThreadId → Option ℕ}
  {a a' : AbstractSched} {p p' : Processor} {v : Virtual}

/-- The context of the current thread is in the processor.  The registers of a thread that is ready
are in the frame whose address is in its slot, and its floating point unit is in the area of the
slot.  There are no other contexts.  When a call under way has written the first frame of a thread,
the frame is as the call says. -/
structure Holds (a : AbstractSched) (p : Processor) (v : Virtual) : Prop where
  running : v.running = a.current
  current : v.contexts a.current = some ⟨p.registers, p.fpu⟩
  ready : ∀ i, a.states i = .ready → i.val ∉ p.machine.unprepared →
    ∃ frame, p.machine.memory (p.machine.slots i).rsp = some ⟨i.val, frame⟩ ∧
      v.contexts i = some ⟨frame.registers, fxrstor (p.fx i)⟩
  alive : ∀ i, v.contexts i ≠ none →
    a.states i = .running ∨ a.states i = .ready ∧ i.val ∉ p.machine.unprepared
  framed : ∀ t id start stack, p.machine.calls t = .framed id start stack →
    p.machine.memory (firstFrame stack) =
      some ⟨id, start.frame id (stack.start + stack.len) p.machine.trampoline⟩
  asked : ∀ (t : ThreadId) start, (p.machine.calls t).start = some start →
    ∃ call, v.asked t = some call ∧ call.start = start

/-- The first section of a call remembers where the new thread starts. -/
lemma Machine.beginCall_start {m m' : Machine} {caller : ℕ} {call : CreateCall}
    (heq : m.beginCall caller call = .ok m') {start : Start}
    (hstart : (m'.calls caller).start = some start) : call.start = start := by
  have hregistered : ∀ (m : Machine) (start' : Start) (r : Except SchedError ℕ),
      ((m.registered caller start' r).calls caller).start = some start → start' = start := by
    intro m start' r h
    cases r with
    | error e =>
      simp only [registered, setCall, Function.update_self] at h
      cases h
    | ok id =>
      simp only [registered, setCall, Function.update_self] at h
      exact Option.some.inj h
  cases call with
  | create entry =>
    obtain ⟨x, -, heq⟩ := Checked.bind_eq_ok.mp heq
    obtain rfl := Except.ok.inj heq
    exact hregistered _ _ _ hstart
  | createUser entryVa userStackTop =>
    obtain ⟨x, -, heq⟩ := Checked.bind_eq_ok.mp heq
    obtain rfl := Except.ok.inj heq
    exact hregistered _ _ _ hstart
  | createIdle entry =>
    obtain ⟨x, -, heq⟩ := Checked.bind_eq_ok.mp heq
    obtain rfl := Except.ok.inj heq
    exact hregistered _ _ _ hstart

/-- A call that writes the first frame was there before. -/
lemma framed_of_update {calls : ℕ → Call} {caller t id : ℕ} {c : Call} {start : Start}
    {stack : PhysRange} (hc : ∀ id start stack, c ≠ .framed id start stack)
    (h : Function.update calls caller c t = .framed id start stack) :
    calls t = .framed id start stack := by
  by_cases ht : t = caller
  · rw [ht, Function.update_self] at h
    exact absurd h (hc id start stack)
  · rwa [Function.update_of_ne ht] at h

/-- A call that goes on creates the same thread as before. -/
lemma start_of_update {calls : ℕ → Call} {caller t : ℕ} {c : Call} {start : Start}
    (hc : ∀ start, c.start = some start → (calls caller).start = some start)
    (h : (Function.update calls caller c t).start = some start) :
    (calls t).start = some start := by
  by_cases ht : t = caller
  · rw [ht, Function.update_self] at h
    rw [ht]
    exact hc start h
  · rwa [Function.update_of_ne ht] at h

/-- Only the call of the caller changes. -/
lemma Machine.calls_registered (m : Machine) (caller : ℕ) (start : Start)
    (r : Except SchedError ℕ) :
    ∃ c, (∀ id start stack, c ≠ .framed id start stack) ∧
      (m.registered caller start r).calls = Function.update m.calls caller c := by
  cases r with
  | error e => exact ⟨.returned (.error .noFreeSlot), by simp, rfl⟩
  | ok id => exact ⟨.registered id start, by simp, rfl⟩

namespace Inv

variable {m : Machine} {i j : ThreadId} {r : PhysRange} {address : ℕ}

/-- A frame on the stack of another thread does not touch the frame in the slot of a thread. -/
lemma memory_of_ready (h : Inv a₀ S place a m) (hr : Owns a₀ m.bootStack place i r)
    (haddress : OnStack r address) (hne : i ≠ j) (hstate : a.states j = .ready)
    (hj : j.val ∉ m.unprepared) (saved : SavedFrame) :
    m.memory.store address saved (m.slots j).rsp = m.memory (m.slots j).rsp := by
  obtain ⟨-, -, honstack⟩ := h.slots.saved j hstate hj
  rw [Machine.slot_val] at honstack
  exact h.memory_of_store hne hr haddress (h.owns (by rw [hstate]; simp) hj) honstack saved

/-- A frame on the stack of another thread does not touch the first frame of a thread. -/
lemma memory_of_framed (h : Inv a₀ S place a m) (hr : Owns a₀ m.bootStack place i r)
    (haddress : OnStack r address) {t id : ℕ} {start : Start} {stack : PhysRange}
    (hcall : m.calls t = .framed id start stack) (hne : i.val ≠ id) (saved : SavedFrame) :
    m.memory.store address saved (firstFrame stack) = m.memory (firstFrame stack) := by
  have hok := h.calls.call_ok t
  rw [hcall] at hok
  obtain ⟨-, ⟨j, k, rfl, hk, rfl⟩, -⟩ := hok
  exact h.memory_of_store (fun hcon => hne (congrArg Fin.val hcon)) hr haddress
    (.inr ⟨k, hk, rfl⟩) (onStack_first a₀ k) saved

end Inv

namespace Holds

/-- The running thread computes. -/
lemma compute (h : Holds a p v) (hvalid : Valid a) (registers : RegisterFile) (fpu : FpuState) :
    Holds a { p with registers, fpu }
      { v with contexts := Function.update v.contexts v.running (some ⟨registers, fpu⟩) } := by
  have hcurrent : a.states a.current = .running := (hvalid.running_iff _).mpr rfl
  rw [h.running]
  refine ⟨rfl, Function.update_self .., fun i hi hprepared => ?_, fun i hi => ?_, h.framed,
    h.asked⟩
  · have hne : i ≠ a.current := by
      rintro rfl
      rw [hcurrent] at hi
      cases hi
    obtain ⟨frame, hframe, hcontext⟩ := h.ready i hi hprepared
    exact ⟨frame, hframe, by rw [← hcontext]; exact Function.update_of_ne hne ..⟩
  · by_cases hne : i = a.current
    · exact .inl (hne ▸ hcurrent)
    · exact h.alive i fun hcon => hi (by rw [← hcon]; exact Function.update_of_ne hne ..)

/-- A call of `create` or one of the other two begins. -/
lemma beginCall (h : Holds a p v) (hinv : Inv a₀ S place a p.machine) {call : CreateCall}
    {m' : Machine} (heq : p.machine.beginCall a.current call = .ok m') :
    ∃ a', Inv a₀ S place a' m' ∧ m'.trampoline = p.machine.trampoline ∧
      Holds a' { p with machine := m' }
        { v with asked := Function.update v.asked v.running (some call) } := by
  obtain ⟨sched, a', r, heq', hrefines, hvalid, hcases⟩ :=
    Machine.beginCall_cases hinv.refines hinv.valid a.current call
  rw [heq] at heq'
  obtain ⟨c, hc, hcalls⟩ :=
    ({ p.machine with sched } : Machine).calls_registered a.current call.start r
  rw [← Except.ok.inj heq'] at hcalls
  have hasked : ∀ (t : ThreadId) start, (m'.calls t).start = some start →
      ∃ call', Function.update v.asked v.running (some call) t = some call' ∧
        call'.start = start := by
    intro t start' hstart
    by_cases hne : t = a.current
    · subst hne
      exact ⟨call, by rw [h.running, Function.update_self], Machine.beginCall_start heq hstart⟩
    · rw [h.running, Function.update_of_ne hne]
      refine h.asked t start' ?_
      rw [← hstart, hcalls, Function.update_of_ne fun hcon => hne (Fin.ext hcon)]
  have hframed : ∀ t id start' stack, m'.calls t = .framed id start' stack →
      p.machine.memory (firstFrame stack) =
        some ⟨id, start'.frame id (stack.start + stack.len) p.machine.trampoline⟩ := by
    intro t id start' stack hcall
    rw [hcalls] at hcall
    exact h.framed t id start' stack (framed_of_update hc hcall)
  obtain rfl := Except.ok.inj heq'
  rcases hcases with ⟨⟨e, rfl⟩, rfl⟩ | ⟨i, rfl, hunused, hstates, hcurrent, -⟩
  · exact ⟨a', hinv.fail hrefines a'.current .noFreeSlot, rfl,
      ⟨h.running, h.current, h.ready, h.alive, hframed, hasked⟩⟩
  · refine ⟨a', hinv.register hrefines hvalid hunused hstates hcurrent a.current call.start, rfl,
      ⟨by rw [hcurrent]; exact h.running, by rw [hcurrent]; exact h.current, ?_, ?_, hframed,
        hasked⟩⟩
    · intro j hj hprepared
      obtain ⟨hne, hnot⟩ := not_or.mp (mt Finset.mem_insert.mpr hprepared)
      rw [hstates, Function.update_of_ne fun hcon => hne (congrArg Fin.val hcon)] at hj
      exact h.ready j hj hnot
    · intro j hj
      have hne : j ≠ i := by
        rintro rfl
        rcases h.alive j hj with hcon | ⟨hcon, -⟩ <;> rw [hunused] at hcon <;> cases hcon
      rw [hstates, Function.update_of_ne hne]
      refine (h.alive j hj).imp_right fun ⟨hready, hnot⟩ => ⟨hready, ?_⟩
      exact fun hcon => (Finset.mem_insert.mp hcon).elim (fun heq => hne (Fin.ext heq)) hnot

/-- A call goes on without a new frame or slot. -/
lemma setCall (h : Holds a p v) (frames : FrameAllocator) (caller : ℕ) {c : Call}
    (hc : ∀ id start stack, c ≠ .framed id start stack)
    (hstart : ∀ start, c.start = some start → (p.machine.calls caller).start = some start) :
    Holds a { p with machine := { p.machine with frames }.setCall caller c } v :=
  ⟨h.running, h.current, h.ready, h.alive,
    fun t id start stack hcall => h.framed t id start stack (framed_of_update hc hcall),
    fun t start ht => h.asked t start (start_of_update hstart ht)⟩

/-- A call writes the first frame of its thread. -/
lemma writeFrame (h : Holds a p v) (hinv : Inv a₀ S place a p.machine) {caller k : ℕ}
    {i : ThreadId} {start : Start}
    (hcall : p.machine.calls caller = .stacked i.val start (stackAt a₀ k)) (hk : place i = some k) :
    Holds a { p with
      machine := { p.machine with
        memory := p.machine.memory.store (firstFrame (stackAt a₀ k))
          ⟨i, start.frame i ((stackAt a₀ k).start + (stackAt a₀ k).len) p.machine.trampoline⟩
        }.setCall caller (.framed i start (stackAt a₀ k)) } v := by
  have hmem : i.val ∈ p.machine.unprepared :=
    (hinv.calls.call_ok caller).mem (by rw [hcall]; rfl)
  have howns : Owns a₀ p.machine.bootStack place i (stackAt a₀ k) := .inr ⟨k, hk, rfl⟩
  refine ⟨h.running, h.current, fun j hj hprepared => ?_, h.alive, fun t id start' stack ht => ?_,
    fun t start' ht => h.asked t start' (start_of_update ?_ ht)⟩
  · obtain ⟨frame, hframe, hcontext⟩ := h.ready j hj hprepared
    have hne : i ≠ j := by
      rintro rfl
      exact hprepared hmem
    refine ⟨frame, ?_, hcontext⟩
    rw [← hframe]
    exact hinv.memory_of_ready howns (onStack_first a₀ k) hne hj hprepared _
  · simp only [Machine.setCall] at ht ⊢
    by_cases hne : t = caller
    · rw [hne, Function.update_self, Call.framed.injEq] at ht
      obtain ⟨rfl, rfl, rfl⟩ := ht
      exact store_self ..
    · rw [Function.update_of_ne hne] at ht
      have htarget : (p.machine.calls caller).target = some i.val := by rw [hcall]; rfl
      have hid : id ≠ i.val := hinv.target_ne htarget hne (by rw [ht]; rfl)
      exact (hinv.memory_of_framed howns (onStack_first a₀ k) ht hid.symm _).trans
        (h.framed t id start' stack ht)
  · intro start' hstart'
    rw [hcall]
    exact hstart'

/-- A thread that is not prepared has no context. -/
lemma contexts_of_unprepared (h : Holds a p v) (hinv : Inv a₀ S place a p.machine) {i : ThreadId}
    (hi : i.val ∈ p.machine.unprepared) : v.contexts i = none := by
  by_contra hcon
  rcases h.alive i hcon with hrunning | ⟨-, hnot⟩
  · rw [hinv.state_of_unprepared hi] at hrunning
    cases hrunning
  · exact hnot hi

/-- A call writes the slot of its thread. -/
lemma writeSlot (h : Holds a p v) (hinv : Inv a₀ S place a p.machine) {k : ℕ} {i : ThreadId}
    {start : Start} (hcall : p.machine.calls a.current = .framed i.val start (stackAt a₀ k))
    {slot : Slot} (hrsp : slot.rsp = firstFrame (stackAt a₀ k)) :
    Holds a
      { p with
        machine := { p.machine with
          slots := Function.update p.machine.slots i slot
          unprepared := p.machine.unprepared.erase i.val
          }.setCall a.current (.returned (.ok i.val))
        fx := p.nextFx (.framed i.val start (stackAt a₀ k)) }
      { v with
        contexts := Function.update v.contexts i (some (start.context i
          ((stackAt a₀ k).start + (stackAt a₀ k).len) p.machine.trampoline)) } := by
  have hmem : i.val ∈ p.machine.unprepared :=
    (hinv.calls.call_ok a.current).mem (by rw [hcall]; rfl)
  have hcurrent : a.current ≠ i := by
    rintro hcon
    have hnone := h.contexts_of_unprepared hinv hmem
    rw [← hcon, h.current] at hnone
    cases hnone
  refine ⟨h.running, ?_, fun j hj hprepared => ?_, fun j hj => ?_, fun t id start' stack ht => ?_,
    fun t start' ht => ?_⟩
  · exact (Function.update_of_ne hcurrent ..).trans h.current
  · simp only [Machine.setCall, Processor.nextFx] at hprepared ⊢
    by_cases hji : j = i
    · subst hji
      rw [Function.update_self, Function.update_self, if_pos rfl, hrsp]
      exact ⟨_, h.framed a.current j start (stackAt a₀ k) hcall, rfl⟩
    · have hne : j.val ≠ i.val := fun hcon => hji (Fin.ext hcon)
      rw [Function.update_of_ne hji, Function.update_of_ne hji, if_neg hne]
      exact h.ready j hj fun hcon => hprepared (Finset.mem_erase.mpr ⟨hne, hcon⟩)
  · simp only [Machine.setCall] at hj ⊢
    by_cases hji : j = i
    · rw [hji]
      exact .inr ⟨hinv.state_of_unprepared hmem, Finset.notMem_erase _ _⟩
    · rw [Function.update_of_ne hji] at hj
      refine (h.alive j hj).imp_right fun halive => ⟨halive.1, fun hcon => halive.2 ?_⟩
      exact (Finset.mem_erase.mp hcon).2
  · exact h.framed t id start' stack (framed_of_update (by simp) ht)
  · exact h.asked t start' (start_of_update (fun _ hcon => by cases hcon) ht)

/-- The next section of a call. -/
lemma continueCall (h : Holds a p v) (hfresh : Fresh map a₀) (hinv : Inv a₀ S place a p.machine)
    {m' : Machine} (heq : p.machine.continueCall a.current = .ok m') :
    ∃ S' place' v', Inv a₀ S' place' a m' ∧ m'.trampoline = p.machine.trampoline ∧
      Virtual.Step p.machine.trampoline v .proceed v' ∧
      Holds a { p with machine := m', fx := p.nextFx (p.machine.calls a.current) } v' := by
  have hok := hinv.calls.call_ok a.current
  cases hcall : p.machine.calls a.current with
  | none =>
    have heq' : p.machine.continueCall a.current = .ok p.machine := by
      rw [Machine.continueCall, hcall]
      rfl
    obtain rfl := Except.ok.inj (heq.symm.trans heq')
    exact ⟨S, place, v, hinv, rfl, .proceed v, h⟩
  | returned result =>
    obtain rfl := Except.ok.inj (heq.symm.trans (Machine.continueCall_returned hcall))
    exact ⟨S, place, v, hinv, rfl, .proceed v, h⟩
  | registered id start =>
    rw [hcall] at hok
    obtain ⟨i, rfl, -⟩ := hinv.calls.unprepared_ready id hok
    rcases hinv.layout.alloc hfresh i with halloc | ⟨k, frames, halloc, hlayout, -⟩
    · obtain rfl := Except.ok.inj (heq.symm.trans (Machine.continueCall_noStack hcall halloc))
      exact ⟨S, place, v, hinv.fail hinv.refines a.current .noStack, rfl, .proceed v,
        h.setCall _ _ (by simp) fun _ hcon => by cases hcon⟩
    · obtain rfl := Except.ok.inj (heq.symm.trans (Machine.continueCall_registered hcall halloc))
      refine ⟨_, _, v, hinv.stacked hcall hlayout, rfl, .proceed v,
        h.setCall _ _ (by simp) fun start' hstart' => ?_⟩
      rw [hcall]
      exact hstart'
  | stacked id start stack =>
    rw [hcall] at hok
    obtain ⟨-, i, k, rfl, hk, rfl⟩ := hok
    have htop := hinv.layout.stackTop_eq hk
    obtain rfl := Except.ok.inj (heq.symm.trans (Machine.continueCall_stacked hcall htop))
    rw [← stackAt_stop]
    exact ⟨S, place, v, hinv.framed hcall hk _, by simp only [Machine.setCall], .proceed v,
      h.writeFrame hinv hcall hk⟩
  | framed id start stack =>
    rw [hcall] at hok
    obtain ⟨-, ⟨i, k, rfl, hk, rfl⟩, -⟩ := hok
    have htop := hinv.layout.stackTop_eq hk
    obtain rfl := Except.ok.inj (heq.symm.trans (Machine.continueCall_framed hcall htop))
    obtain ⟨call, hasked, rfl⟩ := h.asked a.current start (by rw [hcall]; rfl)
    rw [← h.running] at hasked
    have hmem := (hinv.calls.call_ok a.current).mem (by rw [hcall]; rfl)
    exact ⟨S, place, _, hinv.prepared hcall hk rfl rfl (stackAt_stop a₀ k).symm, rfl,
      .create v call hasked i (h.contexts_of_unprepared hinv hmem) _, h.writeSlot hinv hcall rfl⟩

end Holds

/-! ## Interrupts -/

/-- What the first part of the handler leaves as it is. -/
structure KeepsSlots (m m' : Machine) : Prop where
  states : ∀ i, m'.sched.states i = .exited → m.sched.states i = .exited
  slots_eq : ∀ i, m.sched.states i ≠ .exited → m'.slots i = m.slots i
  calls_eq : m'.calls = m.calls
  trampoline_eq : m'.trampoline = m.trampoline

namespace KeepsSlots

variable {m m' m'' : Machine}

lemma refl (m : Machine) (sched : Scheduler) (hsched : sched.states = m.sched.states) :
    KeepsSlots m { m with sched } :=
  ⟨fun i hi => by rwa [← hsched], fun _ _ => rfl, rfl, rfl⟩

lemma trans (h : KeepsSlots m m') (h' : KeepsSlots m' m'') : KeepsSlots m m'' where
  states := fun i hi => h.states i (h'.states i hi)
  slots_eq := fun i hi => by rw [h'.slots_eq i fun hcon => hi (h.states i hcon), h.slots_eq i hi]
  calls_eq := h'.calls_eq.trans h.calls_eq
  trampoline_eq := h'.trampoline_eq.trans h.trampoline_eq

/-- A thread that has exited is released. -/
lemma release {sched : Scheduler} {i : ThreadId} (hstate : m.sched.states i = .exited)
    (hsched : sched.states = Function.update m.sched.states i .unused)
    (heq : ({ m with sched } : Machine).release i = .ok m') : KeepsSlots m m' := by
  obtain ⟨slot, frames, rfl⟩ : ∃ slot frames,
      m' = { m with sched, slots := Function.update m.slots i slot, frames } := by
    simp only [Machine.release, readAt_val, writeAt_val, Checked.ok_bind] at heq
    cases hstack : (m.slots i).stack with
    | none =>
      rw [hstack] at heq
      exact ⟨_, m.frames, (Except.ok.inj heq).symm⟩
    | some stack =>
      rw [hstack] at heq
      obtain ⟨x, -, heq⟩ := Checked.bind_eq_ok.mp heq
      exact ⟨_, x.2, (Except.ok.inj heq).symm⟩
  refine ⟨fun j hj => ?_, fun j hj => ?_, rfl, rfl⟩
  · simp only [hsched] at hj
    by_cases hji : j = i
    · rw [hji]
      exact hstate
    · rwa [Function.update_of_ne hji] at hj
  · refine Function.update_of_ne ?_ ..
    rintro rfl
    exact hj hstate

/-- Threads that have exited are reaped. -/
lemma reapExited {n : ℕ} (heq : Machine.reapExited n m = .ok m') : KeepsSlots m m' := by
  induction n generalizing m with
  | zero =>
    obtain rfl := Except.ok.inj heq
    exact refl m m.sched rfl
  | succ n ih =>
    obtain ⟨⟨thread, sched⟩, htake, heq⟩ := Checked.bind_eq_ok.mp heq
    rcases takeReapable_cases htake with ⟨rfl, rfl⟩ | ⟨i, rfl, hstate, hsched, -⟩
    · obtain rfl := Except.ok.inj heq
      exact refl m m.sched rfl
    · obtain ⟨m₁, hrelease, heq⟩ := Checked.bind_eq_ok.mp heq
      exact (release hstate hsched hrelease).trans (ih heq)

end KeepsSlots

/-- The first part of the handler keeps the slots of all threads but those that have exited. -/
lemma Machine.irqDecision_keeps {m m' : Machine} {frame : IrqFrame} {decision : Decision}
    (heq : m.irqDecision frame = .ok (decision, m')) :
    (∀ i, m.sched.states i ≠ .exited → m'.slots i = m.slots i) ∧ m'.calls = m.calls ∧
      m'.trampoline = m.trampoline := by
  obtain ⟨m₁, hreap, hdispatch⟩ := Checked.bind_eq_ok.mp heq
  obtain ⟨sched, rfl⟩ := dispatch_eq hdispatch
  have hkeeps := KeepsSlots.reapExited hreap
  exact ⟨hkeeps.slots_eq, hkeeps.calls_eq, hkeeps.trampoline_eq⟩

/-- A thread is ready if it is in the queue, or if it is the idle thread and does not run. -/
lemma ready_iff_of_valid (h : Valid a) (i : ThreadId) :
    a.states i = .ready ↔ i ∈ a.queue ∨ a.idle = some i ∧ i ≠ a.current := by
  have hrunning : i ≠ a.current ↔ a.states i ≠ .running := (not_congr (h.running_iff i)).symm
  rw [h.mem_queue_iff, hrunning]
  constructor
  · intro hready
    by_cases hidle : a.idle = some i
    · exact .inr ⟨hidle, by rw [hready]; simp⟩
    · exact .inl ⟨hready, hidle⟩
  · rintro (⟨hready, -⟩ | ⟨hidle, hne⟩)
    · exact hready
    · exact (h.idle_state i hidle).resolve_right hne

namespace Inv

variable {m : Machine} {address : ℕ} {frame : IrqFrame}

/-- Only a thread that exits has exited after the decision. -/
lemma exit_of_irqDecision (hfresh : Fresh map a₀) (h : Inv a₀ S place a m)
    (haddress : OnStack (m.stackOf a.current) address)
    (hexit : frame.vector % 2 ^ 8 ∈ [exitVector, syscallVector] →
      m.sched.idle ≠ noThread ∧ m.sched.idle ≠ m.sched.current) {decision : Decision}
    {m' : Machine} (heq : (m.push address frame).irqDecision frame = .ok (decision, m'))
    {j : ThreadId} (hj : m'.sched.states j = .exited) :
    frame.vector % 2 ^ 8 ∈ [exitVector, syscallVector] := by
  have hcard : (Finset.univ.filter fun i => a.states i = .exited).card ≤ maxThreads :=
    (Finset.card_le_univ _).trans (Fintype.card_fin maxThreads).le
  obtain ⟨m₁, S', place', a₁, hreap, h₁, hreaped, hnone⟩ :=
    (h.push haddress frame).reapExited hfresh hcard
  have hidle : m₁.sched.idle = m.sched.idle := by
    rw [h₁.refines.idle_eq, h.refines.idle_eq, hreaped.idle_eq]
  have hcurrent : m₁.sched.current = m.sched.current := by
    rw [h₁.refines.current_eq, h.refines.current_eq, hreaped.current_eq]
  rw [Machine.irqDecision, hreap, Checked.ok_bind] at heq
  obtain ⟨-, heffect⟩ := dispatch_effect h₁.refines h₁.valid (by rwa [hidle, hcurrent]) heq
  rcases heffect j hj with hcon | ⟨hvector, -⟩
  · rw [h₁.refines.states_eq] at hcon
    exact absurd hcon (hnone j)
  · exact hvector

end Inv

namespace Holds

variable {address vector : ℕ} {a₁ : AbstractSched} {m₁ : Machine} {S' : Finset ℕ}
  {place' : ThreadId → Option ℕ}

/-- The registers are saved and threads are reaped. -/
lemma reaped (h : Holds a p v) (hinv : Inv a₀ S place a p.machine) {frame : IrqFrame}
    (haddress : OnStack (p.machine.stackOf a.current) address) (hinv₁ : Inv a₀ S' place' a₁ m₁)
    (hreaped : Reaped a a₁ (p.machine.push address frame) m₁) (sched : Scheduler)
    (hslots : ∀ i, p.machine.sched.states i ≠ .exited → m₁.slots i = p.machine.slots i)
    (hcalls : m₁.calls = p.machine.calls) (htrampoline : m₁.trampoline = p.machine.trampoline) :
    Holds a₁ { p with machine := { m₁ with sched } } v := by
  have hready : ∀ i, a₁.states i = .ready ↔ a.states i = .ready := fun i => by
    rw [ready_iff_of_valid hinv₁.valid, ready_iff_of_valid hinv.valid, hreaped.queue_eq,
      hreaped.idle_eq, hreaped.current_eq]
  have hrunning : ∀ i, a₁.states i = .running ↔ a.states i = .running := fun i => by
    rw [hinv₁.valid.running_iff, hinv.valid.running_iff, hreaped.current_eq]
  have hmemory := hreaped.memory_eq
  have hunprepared := hreaped.unprepared_eq
  rw [hinv.push_eq] at hmemory hunprepared
  refine ⟨by rw [hreaped.current_eq]; exact h.running, by rw [hreaped.current_eq]; exact h.current,
    fun i hi hprepared => ?_, fun i hi => ?_, fun t id start stack ht => ?_, ?_⟩
  · rw [hready] at hi
    simp only [hunprepared] at hprepared
    obtain ⟨frame, hframe, hcontext⟩ := h.ready i hi hprepared
    refine ⟨frame, ?_, hcontext⟩
    have hne : a.current ≠ i := by
      rintro rfl
      rw [hinv.current_state] at hi
      cases hi
    have hexited : p.machine.sched.states i ≠ .exited := by
      rw [hinv.refines.states_eq, hi]
      simp
    simp only [hmemory, hslots i hexited]
    exact (hinv.memory_of_ready hinv.owns_current haddress hne hi hprepared _).trans hframe
  · rw [hready, hrunning, hunprepared]
    exact h.alive i hi
  · simp only [hcalls] at ht
    have hne : a.current.val ≠ id := by
      rintro rfl
      exact hinv.current_notMem ((hinv.calls.call_ok t).mem (by rw [ht]; rfl))
    simp only [hmemory, htrampoline]
    exact (hinv.memory_of_framed hinv.owns_current haddress ht hne _).trans
      (h.framed t id start stack ht)
  · rw [hcalls]
    exact h.asked

/-- The scheduler keeps the current thread. -/
lemma congr (h : Holds a p v) (hstates : a'.states = a.states) (hcurrent : a'.current = a.current)
    (running : Option ℕ) : Holds a' { p with machine := { p.machine with running } } v :=
  ⟨by rw [hcurrent]; exact h.running, by rw [hcurrent]; exact h.current,
    by rw [hstates]; exact h.ready, by rw [hstates]; exact h.alive, h.framed, h.asked⟩

/-- The processor switches to another thread. -/
lemma switch (h : Holds a p v) (hvalid : Valid a) {next : ThreadId} {left : ThreadState}
    (hmemory : p.machine.memory address = some ⟨a.current.val, p.registers.frame vector⟩)
    (hcurrent : a.current.val ∉ p.machine.unprepared) (hready : a.states next = .ready)
    (hnext : next.val ∉ p.machine.unprepared)
    (hleft : left = .ready ∨ left = .exited ∧ vector % 2 ^ 8 ∈ [exitVector, syscallVector])
    (hstates : a'.states = Function.update (Function.update a.states a.current left) next .running)
    (hcurrent' : a'.current = next) (trampoline rsp0 : ℕ) {saved : IrqFrame}
    (hsaved : p.machine.memory (p.machine.slots next).rsp = some ⟨next.val, saved⟩) :
    ∃ v', Virtual.Step trampoline v (.interrupt address vector) v' ∧
      Holds a'
        { machine := { p.machine with
            slots := Function.update p.machine.slots a.current
              { p.machine.slots a.current with rsp := address }
            rsp0
            running := some next.val }
          fx := Function.update p.fx a.current (fxsave p.fpu (p.fx a.current))
          fpu := fxrstor (p.fx next)
          registers := saved.registers } v' := by
  have hne : next ≠ a.current := by
    rintro rfl
    rw [(hvalid.running_iff _).mpr rfl] at hready
    cases hready
  obtain ⟨frame, hframe, hcontext⟩ := h.ready next hready hnext
  obtain ⟨-, rfl⟩ : next.val = next.val ∧ saved = frame := by
    simpa using hsaved.symm.trans hframe
  -- the contexts of the virtual machine afterwards, for both ways to leave the thread
  obtain ⟨contexts, hstep, hother, hself⟩ : ∃ contexts, Virtual.Step trampoline v
      (.interrupt address vector) { v with contexts, running := next } ∧
      (∀ i, i ≠ a.current → contexts i = v.contexts i) ∧
      contexts a.current = if left = .ready then v.contexts a.current else none := by
    have hsome : v.contexts next ≠ none := by
      rw [hcontext]
      simp
    rcases hleft with rfl | ⟨rfl, hvector⟩
    · exact ⟨v.contexts, .switch v address vector next hsome, fun _ _ => rfl, by rw [if_pos rfl]⟩
    · have hrunning : next ≠ v.running := by rwa [h.running]
      refine ⟨_, .exit v address vector hvector next hsome hrunning, fun i hi => ?_, ?_⟩
      · rw [h.running, Function.update_of_ne hi]
      · rw [h.running, Function.update_self]
        rfl
  have hstate : ∀ i, i ≠ next → i ≠ a.current → a'.states i = a.states i := fun i h1 h2 => by
    rw [hstates, Function.update_of_ne h1, Function.update_of_ne h2]
  have hleave : a'.states a.current = left := by
    rw [hstates, Function.update_of_ne hne.symm, Function.update_self]
  refine ⟨_, hstep, hcurrent'.symm, ?_, fun i hi hprepared => ?_, fun i hi => ?_, h.framed, h.asked⟩
  · simp only [hcurrent', hother next hne]
    exact hcontext
  · by_cases hin : i = next
    · rw [hin, hstates, Function.update_self] at hi
      cases hi
    by_cases hic : i = a.current
    · subst hic
      rw [hleave] at hi
      simp only [Function.update_self, hself, if_pos hi]
      exact ⟨_, hmemory, by rw [registers_frame, fxrstor_fxsave]; exact h.current⟩
    · rw [hstate i hin hic] at hi
      simp only [Function.update_of_ne hic, hother i hic]
      exact h.ready i hi hprepared
  · by_cases hin : i = next
    · exact .inl (by rw [hin, hstates, Function.update_self])
    by_cases hic : i = a.current
    · subst hic
      simp only [hself] at hi
      have hleft : left = .ready := by
        by_contra hcon
        exact hi (if_neg hcon)
      exact .inr ⟨hleave.trans hleft, hcurrent⟩
    · simp only [hother i hic] at hi
      rw [hstate i hin hic]
      exact h.alive i hi

/-- An interrupt. -/
lemma interrupt (h : Holds a p v) (hfresh : Fresh map a₀) (hinv : Inv a₀ S place a p.machine)
    (hallowed : p.machine.Allowed (.interrupt address (p.registers.frame vector)))
    (hguarded : p.machine.Guarded (.interrupt address (p.registers.frame vector)))
    (heq : p.irqCommon address vector = .ok p') :
    ∃ S' place' a' v', Inv a₀ S' place' a' p'.machine ∧
      p'.machine.trampoline = p.machine.trampoline ∧
      Virtual.Step p.machine.trampoline v (.interrupt address vector) v' ∧ Holds a' p' v' := by
  obtain ⟨haddress, hexit⟩ := hinv.of_allowed_interrupt hallowed
  rcases hinv.irqDecision hfresh haddress hexit with
    ⟨decision, m₁, S', place', a₁, sched, a', hdecision, h₁, hreaped, hrefines, hvalid, hmoved⟩ |
    ⟨hdecision, -⟩
  swap
  · rw [Processor.irqCommon, hdecision] at heq
    cases heq
  obtain ⟨hslots, hcalls, htrampoline⟩ := Machine.irqDecision_keeps hdecision
  have hpush := hinv.push_eq address (p.registers.frame vector)
  rw [hpush] at hslots hcalls htrampoline
  have hholds : Holds a₁ { p with machine := { m₁ with sched } } v :=
    h.reaped hinv haddress h₁ hreaped sched hslots hcalls htrampoline
  have hmemory : m₁.memory address = some ⟨a₁.current.val, p.registers.frame vector⟩ := by
    rw [hreaped.memory_eq, hpush, hreaped.current_eq]
    exact store_self _ _ _
  have haddress₁ : OnStack (m₁.stackOf a₁.current) address := by
    rw [hreaped.current_eq, hreaped.stackOf_eq, hpush]
    exact haddress
  rw [Processor.irqCommon, hdecision, Checked.ok_bind] at heq
  rcases hmoved with ⟨rfl, -, hstates, hcurrent⟩ |
    ⟨next, left, rfl, hcandidate, hready, hleft, hstates, hcurrent⟩
  · have hload : ({ p with machine := { m₁ with sched } } : Processor).load address =
        { p with machine := { m₁ with sched, running := some a₁.current.val } } := by
      simp only [Processor.load, Machine.pop, hmemory, Option.map_some, Option.getD_some,
        registers_frame]
    obtain rfl := (Except.ok.inj heq).symm.trans hload
    refine ⟨S', place', a', v, ?_, htrampoline, .stay v address vector,
      hholds.congr hstates hcurrent _⟩
    rw [← h₁.running]
    exact h₁.keep hrefines hvalid hstates hcurrent
  · have hne : next ≠ a₁.current := by
      rintro rfl
      rw [h₁.current_state] at hready
      cases hready
    have hnext : next.val ∉ m₁.unprepared := by
      rw [hreaped.unprepared_eq, hpush]
      exact hguarded _ hcandidate
    obtain ⟨hrsp, ⟨saved, hsaved⟩, -⟩ :=
      (m₁.prepared_iff next).mp (h₁.slots.saved next hready hnext)
    have hleft' : left = .ready ∨
        left = .exited ∧ vector % 2 ^ 8 ∈ [exitVector, syscallVector] := by
      refine hleft.imp_right fun hexited => ⟨hexited, ?_⟩
      refine hinv.exit_of_irqDecision hfresh haddress hexit hdecision (j := a₁.current) ?_
      rw [hrefines.states_eq, hstates, Function.update_of_ne hne.symm, Function.update_self,
        hexited]
    have hp' : p' =
        { machine := { m₁ with
            sched
            slots := Function.update m₁.slots a₁.current
              { m₁.slots a₁.current with rsp := address }
            rsp0 := if (m₁.slots next).user then (m₁.slots next).kernelStackTop else m₁.rsp0
            running := some next.val }
          fx := Function.update p.fx a₁.current (fxsave p.fpu (p.fx a₁.current))
          fpu := fxrstor (p.fx next)
          registers := saved.registers } := by
      simp only [switchTo_eq _ hne address, Checked.ok_bind, readAt_val, writeAt_val,
        Function.update_of_ne hne] at heq
      rw [← Except.ok.inj heq]
      simp only [Processor.load, Machine.pop, if_neg hrsp, hsaved, Option.map_some,
        Option.getD_some]
    obtain ⟨v', hstep, hholds'⟩ := hholds.switch h₁.valid hmemory h₁.current_notMem hready hnext
      hleft' hstates hcurrent p.machine.trampoline
      (if (m₁.slots next).user then (m₁.slots next).kernelStackTop else m₁.rsp0) hsaved
    subst hp'
    exact ⟨S', place', a', v', h₁.switch haddress₁ hmemory hready hnext hleft hrefines hvalid
      hstates hcurrent, htrampoline, hstep, hholds'⟩

end Holds

/-! ## Runs -/

/-- The relation between the processor and the virtual machine. -/
def Shares (a₀ : FrameAllocator) (trampoline : ℕ) (p : Processor) (v : Virtual) : Prop :=
  p.machine.trampoline = trampoline ∧ ∃ S place a, Inv a₀ S place a p.machine ∧ Holds a p v

lemma Shares.executes {trampoline : ℕ} (h : Shares a₀ trampoline p v) : Executes p v := by
  obtain ⟨-, S, place, a, hinv, hholds⟩ := h
  rw [Executes, hholds.running]
  exact ⟨hinv.running, hholds.current⟩

/-- The virtual machine answers every step of the processor. -/
lemma isSimulation_shares (hfresh : Fresh map a₀) (trampoline : ℕ) :
    IsSimulation Processor.GuardedStep (Virtual.Step trampoline) (Shares a₀ trampoline) := by
  rintro p v action p' ⟨rfl, S, place, a, hinv, hholds⟩ ⟨hevent, heq⟩
  unfold Processor.step at heq
  rw [hinv.running] at heq
  cases action with
  | compute registers fpu =>
    obtain rfl := Except.ok.inj heq
    exact ⟨_, .compute v registers fpu, rfl, S, place, a, hinv,
      hholds.compute hinv.valid registers fpu⟩
  | call call =>
    obtain ⟨m', hbegin, heq⟩ := Checked.bind_eq_ok.mp heq
    obtain rfl := Except.ok.inj heq
    obtain ⟨a', hinv', htrampoline, hholds'⟩ := hholds.beginCall hinv hbegin
    exact ⟨_, .call v call, htrampoline, S, place, a', hinv', hholds'⟩
  | proceed =>
    obtain ⟨m', hcontinue, heq⟩ := Checked.bind_eq_ok.mp heq
    obtain rfl := Except.ok.inj heq
    obtain ⟨S', place', v', hinv', htrampoline, hstep, hholds'⟩ :=
      hholds.continueCall hfresh hinv hcontinue
    exact ⟨v', hstep, htrampoline, S', place', a, hinv', hholds'⟩
  | interrupt address vector =>
    obtain ⟨hallowed, hguarded⟩ := hevent _ rfl
    obtain ⟨S', place', a', v', hinv', htrampoline, hstep, hholds'⟩ :=
      hholds.interrupt hfresh hinv hallowed hguarded heq
    exact ⟨v', hstep, htrampoline, S', place', a', hinv', hholds'⟩

/-- Without the registers, an interrupt is one of the machine. -/
lemma Processor.irqCommon_machine {address vector : ℕ} (heq : p.irqCommon address vector = .ok p') :
    p.machine.irqCommon address (p.registers.frame vector) = .ok p'.machine := by
  obtain ⟨⟨decision, m⟩, hdecision, heq⟩ := Checked.bind_eq_ok.mp heq
  rw [Machine.irqCommon, Machine.irqHandler, hdecision, Checked.ok_bind]
  cases decision with
  | keep =>
    obtain rfl := Except.ok.inj heq
    rfl
  | switch previous next =>
    obtain ⟨⟨rax, m'⟩, hswitch, heq⟩ := Checked.bind_eq_ok.mp heq
    obtain ⟨area, -, heq⟩ := Checked.bind_eq_ok.mp heq
    obtain ⟨fx, -, heq⟩ := Checked.bind_eq_ok.mp heq
    obtain ⟨area', -, heq⟩ := Checked.bind_eq_ok.mp heq
    obtain rfl := Except.ok.inj heq
    simp only [hswitch, Checked.ok_bind]
    rfl

/-- Without the registers, the processor makes the steps of the machine. -/
lemma Processor.GuardedStep.machine {action : Action} (h : p.GuardedStep action p') :
    p.machine = p'.machine ∨ Kernel.GuardedStep p.machine p'.machine := by
  obtain ⟨hevent, heq⟩ := h
  unfold Processor.step at heq
  cases hrunning : p.machine.running with
  | none =>
    rw [hrunning] at heq
    exact .inl (congrArg Processor.machine (Except.ok.inj heq))
  | some caller =>
    rw [hrunning] at heq
    cases action with
    | compute registers fpu =>
      obtain rfl := Except.ok.inj heq
      exact .inl rfl
    | call call =>
      obtain ⟨m', hbegin, heq⟩ := Checked.bind_eq_ok.mp heq
      obtain rfl := Except.ok.inj heq
      obtain ⟨hallowed, hguarded⟩ := hevent _ rfl
      exact .inr ⟨.call call, hallowed, hguarded, by
        unfold Machine.step
        rwa [hrunning]⟩
    | proceed =>
      obtain ⟨m', hcontinue, heq⟩ := Checked.bind_eq_ok.mp heq
      obtain rfl := Except.ok.inj heq
      obtain ⟨hallowed, hguarded⟩ := hevent _ rfl
      exact .inr ⟨.proceed, hallowed, hguarded, by
        unfold Machine.step
        rwa [hrunning]⟩
    | interrupt address vector =>
      obtain ⟨hallowed, hguarded⟩ := hevent _ rfl
      refine .inr ⟨_, hallowed, hguarded, ?_⟩
      unfold Machine.step
      rw [hrunning]
      exact irqCommon_machine heq

/-- The processor and the virtual machine at the start. -/
lemma holds_boot {frames : FrameAllocator} {bootStack : PhysRange} {trampoline : ℕ} {m : Machine}
    (hboot : Machine.boot frames bootStack trampoline = .ok m) (context : Context) :
    m.trampoline = trampoline ∧ Holds (.start 0)
      ⟨m, fun _ => .zeroed, context.registers, context.fpu⟩ (.boot context) := by
  obtain ⟨x, -, hboot⟩ := Checked.bind_eq_ok.mp hboot
  obtain rfl := Except.ok.inj hboot
  have hstate : ∀ i : ThreadId, i ≠ 0 → (AbstractSched.start 0).states i = .unused := by
    intro i hi
    simp only [AbstractSched.start, Function.update_of_ne hi]
  have hzero : (AbstractSched.start 0).states 0 = .running := by
    simp only [AbstractSched.start, Function.update_self]
  refine ⟨rfl, rfl, rfl, fun i hi => ?_, fun i hi => ?_, ?_, ?_⟩
  · by_cases hne : i = 0
    · rw [hne, hzero] at hi
      cases hi
    · rw [hstate i hne] at hi
      cases hi
  · by_cases hne : i = 0
    · exact .inl (hne ▸ hzero)
    · simp only [Virtual.boot, Function.update_of_ne hne] at hi
      exact absurd rfl hi
  · intro t id start stack hcon
    cases hcon
  · intro t start hcon
    cases hcon

/-- **Every thread has a processor of its own.**  The kernel boots with an initialised frame
allocator that has lent some frames, and its boot stack is reserved.  Then threads compute and
create other threads, and interrupts arrive between any two atomic sections, in every order, but no
interrupt arrives while the thread that it would switch to is registered and not prepared.  The
virtual machine can go through the same actions: in every state, the processor has the registers and
the floating point unit of the thread that the virtual machine runs.  Without registers, these are
the runs of the machine. -/
theorem threads_have_own_processors (bitmap : Slice UInt8) (map : MemoryMap)
    (reserved : List ReservedRange) (limit : ℕ) (a₀ : FrameAllocator)
    (hinit : FrameAllocator.init bitmap map reserved (.new limit) = .ok (.ok a₀)) (s : FrameState)
    (hframes : FrameState.Reached a₀ s) (bootStack : PhysRange) (hstart : 0 < bootStack.start)
    (hlen : 0 < bootStack.len)
    (hreserved : ∃ r ∈ reserved, r.start ≤ bootStack.start ∧
      bootStack.start + bootStack.len ≤ r.stop) (trampoline : ℕ) (m₀ : Machine)
    (hboot : Machine.boot s.allocator bootStack trampoline = .ok m₀) (context : Context)
    (trace : List (Action × Processor))
    (hrun : Trace Processor.GuardedStep
      ⟨m₀, fun _ => .zeroed, context.registers, context.fpu⟩ trace) :
    (∃ trace', Trace (Virtual.Step trampoline) (.boot context) trace' ∧
      List.Forall₂ (fun x y => x.1 = y.1 ∧ Executes x.2 y.2) trace trace') ∧
    ∀ x ∈ trace, Relation.ReflTransGen GuardedStep m₀ x.2.machine := by
  have hinitial := initial_of_init hinit
  have hfresh := hinitial.fresh
  obtain ⟨S₀, hlent, -⟩ := Owned.of_reached hfresh hframes
  have hinv := inv_boot hinitial hlent hstart hlen hreserved hboot
  obtain ⟨htrampoline, hholds⟩ := holds_boot hboot context
  constructor
  · obtain ⟨trace', htrace', hall⟩ := (isSimulation_shares hfresh trampoline).trace
      ⟨htrampoline, _, _, _, hinv, hholds⟩ hrun
    exact ⟨trace', htrace', hall.imp fun x y hxy => ⟨hxy.1, hxy.2.executes⟩⟩
  · exact hrun.reached fun p action p' hstep => hstep.machine

/-- The boot thread computes and creates the thread 1.  A tick switches to it, it computes, too, and
the next tick switches back.  The boot thread finds its registers and its floating point unit. -/
theorem threads_have_own_processors_switch : ∃ a₀ m₀ trace,
    FrameAllocator.init ⟨[0, 0], by decide⟩ smallMap [⟨0x8000, 0xC000⟩] (.new 0x108000) =
      .ok (.ok a₀) ∧
    Machine.boot a₀ ⟨0x8000, 0x4000⟩ 0x200000 = .ok m₀ ∧
    Trace Processor.GuardedStep
      ⟨m₀, fun _ => .zeroed, ({} : IrqFrame).registers, fun _ => 0⟩ trace ∧
    trace.map (fun x => (x.2.machine.running, x.2.registers.val.rax, x.2.fpu 0)) =
      [(some 0, 7, 1), (some 0, 7, 1), (some 0, 7, 1), (some 0, 7, 1), (some 0, 7, 1),
        (some 1, 0, 0x7F), (some 1, 9, 2), (some 0, 7, 1)] ∧
    ∀ x ∈ trace, ∃ v, Executes x.2 v := by
  have hok : bootsSmall (fun m₀ => Checked.okAnd
      (replay (fun p action => decide (∀ e ∈ p.event action, p.machine.Allowed e ∧
          p.machine.Guarded e)) Processor.step
        [.compute ({ rax := 7 } : IrqFrame).registers fun _ => 1, .call (.create 0x201000),
          .proceed, .proceed, .proceed, .interrupt 0xBF00 timerVector,
          .compute ({ rax := 9 } : IrqFrame).registers fun _ => 2,
          .interrupt 0x103F00 timerVector]
        ⟨m₀, fun _ => .zeroed, ({} : IrqFrame).registers, fun _ => 0⟩)
      fun x => x.any fun trace =>
        trace.map (fun x => (x.2.machine.running, x.2.registers.val.rax, x.2.fpu 0)) =
          [(some 0, 7, 1), (some 0, 7, 1), (some 0, 7, 1), (some 0, 7, 1), (some 0, 7, 1),
            (some 1, 0, 0x7F), (some 1, 9, 2), (some 0, 7, 1)]) = true := by
    decide +kernel
  obtain ⟨a₀, m₀, hinit, hboot, hok⟩ := exists_boot_of_bootsSmall hok
  obtain ⟨trace, hrun, hmap⟩ := exists_trace_of_replay hok
  simp only [decide_eq_true_eq] at hrun hmap
  obtain ⟨⟨trace', -, hall⟩, -⟩ := threads_have_own_processors _ _ _ _ a₀ hinit ⟨a₀, []⟩ .refl
    ⟨0x8000, 0x4000⟩ (by decide) (by decide) ⟨⟨0x8000, 0xC000⟩, by simp, by decide, by decide⟩
    0x200000 m₀ hboot ⟨({} : IrqFrame).registers, fun _ => 0⟩ trace hrun
  have hexecutes : List.Forall₂ (fun x y => (∃ v, Executes x.2 v) ∧ x.1 = y.1) trace trace' :=
    hall.imp fun x y h => ⟨⟨y.2, h.2⟩, h.1⟩
  exact ⟨a₀, m₀, trace, hinit, hboot, hrun, hmap,
    ((List.forall₂_and_left trace trace').mp hexecutes).1⟩

end Kernel

end ParanukOS
