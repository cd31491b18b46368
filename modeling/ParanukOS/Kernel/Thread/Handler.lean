import ParanukOS.Kernel.Thread.Kept

/-!
# The stack of the handler

`reap_exited` runs at the start of every interrupt, on the stack of the thread that the processor
was executing.  It relies on the threads that have exited having switched away.  When a thread exits
and the scheduler picks a thread without a saved frame, which a creation without memory for a stack
has left, `switch_to` returns 0 and the processor goes on on the stack of the thread that has
exited; the next interrupt frees this stack while it runs on it.

As long as no interrupt picks such a thread, the processor executes the current thread of the
scheduler, which has not exited.

## Outline

* `Machine.Arrives`, `Machine.Backed`, `Machine.Executes`: operations on the processor.
* `Machine.SparesRunning`: the stack of the handler is not released.
* `Inv.executes`: what holds while every interrupt is backed.
* `Inv.interrupt_running`: what an interrupt that is not backed leaves.
-/

namespace ParanukOS

open Foundation KernelMemory KernelSched FrameAllocator

namespace Kernel

variable {map : MemoryMap} {a₀ : FrameAllocator} {base : ℕ} {S : Finset ℕ}
  {place : ThreadId → Option ℕ} {a : AbstractSched} {m m' : Machine}

namespace Machine

/-- An interrupt saves the registers of the thread that the processor executes, on its stack. -/
def Arrives (m : Machine) : Operation → Prop
  | .interrupt address _ => ∃ id ∈ m.running, m.SavesAt id address
  | _ => True

/-- The thread that an interrupt would switch to has the address of a frame in its slot. -/
def Backed (m : Machine) : Operation → Prop
  | .interrupt _ frame => ∀ id ∈ m.candidate (frame.vector % 2 ^ 8), (m.slot id).rsp ≠ 0
  | _ => True

/-- A creation does not end for lack of memory for a stack. -/
def Stocked (m' : Machine) : Operation → Prop
  | .create caller _ => m'.result caller ≠ some (.error .noStack)
  | .createUser caller _ _ => m'.result caller ≠ some (.error .noStack)
  | .interrupt _ _ => True

/-- One operation on the processor that returns. -/
def Executes (m m' : Machine) : Prop :=
  ∃ op, m.Permits op ∧ m.Arrives op ∧ m.operate op = .ok m'

/-- The same, and if it is an interrupt, it is backed. -/
def ExecutesBacked (m m' : Machine) : Prop :=
  ∃ op, m.Permits op ∧ m.Arrives op ∧ m.Backed op ∧ m.operate op = .ok m'

/-- The same, and if it is a creation, it does not end for lack of memory for a stack. -/
def ExecutesStocked (m m' : Machine) : Prop :=
  ∃ op, m.Permits op ∧ m.Arrives op ∧ m.operate op = .ok m' ∧ m'.Stocked op

lemma ExecutesBacked.operates (h : m.ExecutesBacked m') : m.Operates m' := by
  obtain ⟨op, hpermits, -, -, heq⟩ := h
  exact ⟨op, hpermits, heq⟩

lemma ExecutesStocked.operates (h : m.ExecutesStocked m') : m.Operates m' := by
  obtain ⟨op, hpermits, -, heq, -⟩ := h
  exact ⟨op, hpermits, heq⟩

/-- `reap_exited` does not release the thread on whose stack it runs. -/
def SparesRunning (m : Machine) : Prop :=
  ∀ log id, m.reapLog maxThreads = .ok log → m.running = some id → id ∉ log.map Prod.fst

instance (m : Machine) : ∀ op, Decidable (m.Permits op)
  | .create _ _ => .isTrue trivial
  | .createUser _ _ _ => .isTrue trivial
  | .interrupt _ _ => inferInstanceAs (Decidable (_ → _))

instance (m : Machine) : ∀ op, Decidable (m.Arrives op)
  | .create _ _ => .isTrue trivial
  | .createUser _ _ _ => .isTrue trivial
  | .interrupt _ _ => inferInstanceAs (Decidable (∃ _ ∈ _, _))

instance (m : Machine) : ∀ op, Decidable (m.Backed op)
  | .create _ _ => .isTrue trivial
  | .createUser _ _ _ => .isTrue trivial
  | .interrupt _ _ => inferInstanceAs (Decidable (∀ _ ∈ _, _))

end Machine

/-- What is reaped is what has exited. -/
lemma Kept.sparesRunning_iff (hfresh : Fresh map a₀) (h : Kept a₀ base S place a m) {i : ThreadId}
    (hrunning : m.running = some i.val) : m.SparesRunning ↔ m.sched.states i ≠ .exited := by
  obtain ⟨m', log, -, -, -, -, hlog, -, hreaps, -⟩ := h.reapExited hfresh
    ((Finset.card_le_univ _).trans (Fintype.card_fin maxThreads).le)
  constructor
  · intro hspares hstate
    exact hspares log i hlog hrunning ((hreaps.mem_iff i).mpr hstate)
  · intro hstate log' id hlog' hid hmem
    obtain rfl := Except.ok.inj (hlog.symm.trans hlog')
    obtain rfl := Option.some.inj (hrunning.symm.trans hid)
    exact hstate ((hreaps.mem_iff i).mp hmem)

/-! ## Backed interrupts -/

/-- The thread that an interrupt would switch to is ready. -/
lemma ready_of_candidate (hrefines : Refines m.sched a) (hvalid : Valid a) {vector id : ℕ}
    (hexit : vector ∈ [exitVector, syscallVector] →
      m.sched.idle ≠ noThread ∧ m.sched.idle ≠ m.sched.current)
    (hid : id ∈ m.candidate vector) : ∃ i : ThreadId, i.val = id ∧ a.states i = .ready := by
  have hhead : ∀ {id}, m.sched.readyQueue.head? = some id →
      ∃ i : ThreadId, i.val = id ∧ a.states i = .ready := by
    intro id hhead
    rw [hrefines.readyQueue_eq] at hhead
    obtain ⟨i, hi, rfl⟩ := List.mem_map.mp (List.mem_of_mem_head? hhead)
    exact ⟨i, rfl, ((hvalid.mem_queue_iff i).mp hi).1⟩
  unfold Machine.candidate at hid
  split_ifs at hid with hswitch hstop
  · exact hhead hid
  · cases hqueue : m.sched.readyQueue.head? with
    | some first =>
      rw [hqueue, Option.getD_some] at hid
      obtain rfl := Option.some.inj hid
      exact hhead hqueue
    | none =>
      rw [hqueue, Option.getD_none] at hid
      obtain rfl := Option.some.inj hid
      obtain ⟨hidle, hcurrent⟩ := hexit hstop
      rw [hrefines.idle_eq] at hidle hcurrent ⊢
      cases hsome : a.idle with
      | none =>
        rw [hsome] at hidle
        exact absurd rfl hidle
      | some i =>
        rw [hsome, hrefines.current_eq] at hcurrent
        refine ⟨i, rfl, (hvalid.idle_state i hsome).resolve_right fun hrunning => hcurrent ?_⟩
        rw [(hvalid.running_iff i).mp hrunning]
        rfl
  · cases hid

namespace Inv

/-- A thread that is ready has the address of a frame in its slot if and only if it is prepared. -/
lemma rsp_ne_zero_iff (h : Inv a₀ S place a m) {i : ThreadId} (hstate : a.states i = .ready) :
    (m.slot i).rsp ≠ 0 ↔ i.val ∉ m.unprepared := by
  constructor
  · intro hrsp hmem
    rw [Machine.slot_val] at hrsp
    exact hrsp (h.slots.cleared i (.inr hmem)).1
  · exact fun hmem => (h.slots.saved i hstate hmem).1

lemma backed_iff_guarded (h : Inv a₀ S place a m) {address : ℕ} {frame : IrqFrame}
    (hexit : frame.vector % 2 ^ 8 ∈ [exitVector, syscallVector] →
      m.sched.idle ≠ noThread ∧ m.sched.idle ≠ m.sched.current) :
    m.Backed (.interrupt address frame) ↔ m.Guarded (.interrupt address frame) := by
  refine forall₂_congr fun id hid => ?_
  obtain ⟨i, rfl, hstate⟩ := ready_of_candidate h.refines h.valid hexit hid
  exact h.rsp_ne_zero_iff hstate

/-- All sections of a call.  The new thread is prepared in the end, unless there is no memory for
its stack. -/
lemma perform (hfresh : Fresh map a₀) (h : Inv a₀ S place a m) (caller : ℕ) (call : CreateCall) :
    ∃ m' S' place' a', m.perform caller call = .ok m' ∧ Inv a₀ S' place' a' m' ∧
      (m'.unprepared = m.unprepared ∨ m'.result caller = some (.error .noStack)) := by
  obtain ⟨sched, a', r, heq, hrefines, hvalid, hcases⟩ :=
    Machine.beginCall_cases h.refines h.valid caller call
  rw [Machine.perform, heq, Checked.ok_bind]
  rcases hcases with ⟨⟨e, rfl⟩, rfl⟩ | ⟨i, rfl, hunused, hstates, hcurrent, -⟩
  · have hreturned := Machine.continueCall_returned
      (m := { m with sched }.registered caller call.start (.error e)) (Function.update_self ..)
    rw [hreturned, Checked.ok_bind, hreturned, Checked.ok_bind, hreturned]
    exact ⟨_, S, place, _, rfl, h.fail hrefines caller .noFreeSlot, .inl rfl⟩
  have hnew : i.val ∉ m.unprepared := h.notMem_unprepared (by simp [hunused])
  have h₁ := h.register hrefines hvalid hunused hstates hcurrent caller call.start
  rcases h₁.layout.alloc hfresh i with hnone | ⟨k, frames, halloc, hlayout, -⟩
  · rw [Machine.continueCall_noStack (Function.update_self ..) hnone, Checked.ok_bind,
      Machine.continueCall_returned (Function.update_self ..), Checked.ok_bind,
      Machine.continueCall_returned (Function.update_self ..)]
    refine ⟨_, S, place, a', rfl, h₁.fail h₁.refines caller .noStack, .inr ?_⟩
    simp [Machine.result, Machine.setCall]
  · have hk := Function.update_self i (some k) place
    have htop := hlayout.stackTop_eq hk
    have h₂ := h₁.stacked (Function.update_self ..) hlayout
    have h₃ := h₂.framed (Function.update_self ..) hk
      (call.start.frame i.val (a₀.addressOf (k + threadStackPages)) m.trampoline)
    rw [Machine.continueCall_registered (Function.update_self ..) halloc, Checked.ok_bind,
      Machine.continueCall_stacked (Function.update_self ..) htop, Checked.ok_bind,
      Machine.continueCall_framed (Function.update_self ..) htop]
    refine ⟨_, _, _, a', rfl, h₃.prepared (Function.update_self ..) hk rfl rfl
      (stackAt_stop a₀ k).symm, .inl ?_⟩
    exact Finset.erase_insert hnew

/-- The conditions under which an interrupt arrives. -/
lemma onStack_of_arrives (h : Inv a₀ S place a m) {address : ℕ} {frame : IrqFrame}
    (harrives : m.Arrives (.interrupt address frame)) :
    OnStack (m.stackOf a.current) address := by
  obtain ⟨id, hid, hsaves⟩ := harrives
  obtain rfl := Option.some.inj (h.running.symm.trans hid)
  exact h.onStack_of_savesAt hsaves

/-- One operation, where an interrupt is backed. -/
lemma executes (hfresh : Fresh map a₀) (h : Inv a₀ S place a m) (hidle : m.sched.idle ≠ noThread)
    (hstep : m.ExecutesBacked m') : ∃ S' place' a', Inv a₀ S' place' a' m' := by
  obtain ⟨op, hpermits, harrives, hbacked, heq⟩ := hstep
  have hperform : ∀ caller call, m.perform caller call = .ok m' →
      ∃ S' place' a', Inv a₀ S' place' a' m' := by
    intro caller call heq
    obtain ⟨m'', S', place', a', heq', h', -⟩ := h.perform hfresh caller call
    obtain rfl := Except.ok.inj (heq'.symm.trans heq)
    exact ⟨S', place', a', h'⟩
  cases op with
  | create caller entry => exact hperform _ _ heq
  | createUser caller entryVa userStackTop => exact hperform _ _ heq
  | interrupt address frame =>
    have hexit : frame.vector % 2 ^ 8 ∈ [exitVector, syscallVector] →
        m.sched.idle ≠ noThread ∧ m.sched.idle ≠ m.sched.current :=
      fun hvector => ⟨hidle, (hpermits hvector).symm⟩
    rw [Machine.operate, Machine.irqCommon] at heq
    rcases h.interrupt hfresh (h.onStack_of_arrives harrives) hexit with
      ⟨decision, m₁, rax, m₂, -, hhandler, hguarded, -⟩ | ⟨hhandler, -⟩
    · rw [hhandler] at heq
      obtain rfl := Except.ok.inj heq
      exact (hguarded ((h.backed_iff_guarded hexit).mp hbacked)).2.2
    · rw [hhandler] at heq
      cases heq

end Inv

/-! ## Interrupts that are not backed -/

/-- A thread that exits, when another one is the current thread afterwards. -/
lemma exited_of_dispatch {vector : ℕ} (hvector : vector ∈ [exitVector, syscallVector])
    {decision : Decision} (heq : m.dispatch vector = .ok (decision, m')) {i : ThreadId}
    (hi : m.sched.current = i.val) (hne : m'.sched.current ≠ i.val) :
    m'.sched.states i = .exited := by
  have hexits : m.exitThread = .ok (decision, m') := by
    simp only [List.mem_cons, List.not_mem_nil, or_false] at hvector
    rcases hvector with rfl | rfl
    · exact heq
    · exact heq
  obtain ⟨⟨result, sched⟩, hexit, hexits⟩ := Checked.bind_eq_ok.mp hexits
  have hsched : m'.sched = sched := by
    cases result with
    | ok d => rw [← (Prod.mk.inj (Except.ok.inj hexits)).2]
    | error e => rw [← (Prod.mk.inj (Except.ok.inj hexits)).2]
  rw [hsched] at hne ⊢
  rcases exitCurrent_cases hexit with
    ⟨hnone, -⟩ | ⟨next, -, previous, hprevious, hstates, hnext, -⟩ | ⟨j, -, hj, hset⟩
  · exact absurd (hi.symm.trans hnone) (val_ne_noThread i)
  · obtain rfl : previous = i := Fin.ext (hprevious.symm.trans hi)
    have hother : previous ≠ next := fun hcon => hne (hnext.trans (congrArg Fin.val hcon.symm))
    rw [hstates, Function.update_of_ne hother, Function.update_self]
  · obtain rfl : j = i := Fin.ext (hj.symm.trans hi)
    rw [hset.1, Function.update_self]

/-- An interrupt that switches to a thread without a frame: the processor goes on with the thread
that was interrupted, which is not the current one any longer and may have exited. -/
lemma Inv.interrupt_running (hfresh : Fresh map a₀) (h : Inv a₀ S place a m) {address : ℕ}
    {frame : IrqFrame} (haddress : OnStack (m.stackOf a.current) address)
    (hexit : frame.vector % 2 ^ 8 ∈ [exitVector, syscallVector] →
      m.sched.idle ≠ noThread ∧ m.sched.idle ≠ m.sched.current)
    (heq : m.irqCommon address frame = .ok m')
    (hnot : ¬ m.Guarded (.interrupt address frame)) :
    m'.running = some a.current.val ∧ m'.sched.current ≠ a.current.val ∧
      (frame.vector % 2 ^ 8 ∈ [exitVector, syscallVector] →
        m'.sched.states a.current = .exited) := by
  rw [Machine.irqCommon] at heq
  rcases h.irqDecision hfresh haddress hexit with
    ⟨decision, m₁, S', place', a₁, sched, a', hdecision, h₁, hreaped, hrefines, -, hmoved⟩ |
    ⟨hdecision, -⟩
  swap
  · rw [Machine.irqHandler, hdecision] at heq
    cases heq
  rcases hmoved with ⟨-, hcandidate, -⟩ | ⟨next, left, rfl, hcandidate, hready, -, -, hcurrent⟩
  · refine absurd (fun id hid => ?_) hnot
    rw [hcandidate] at hid
    cases hid
  have hne : next ≠ a₁.current := by
    rintro rfl
    rw [h₁.current_state] at hready
    cases hready
  have hmem : next.val ∈ m₁.unprepared := by
    rw [hreaped.unprepared_eq, h.push_eq]
    by_contra hcon
    refine hnot fun id hid => ?_
    rw [hcandidate] at hid
    exact Option.some.inj hid ▸ hcon
  have hmemory : m₁.memory address = some ⟨a₁.current.val, frame⟩ := by
    rw [hreaped.memory_eq, h.push_eq, hreaped.current_eq]
    exact store_self _ _ _
  obtain ⟨⟨rax, m₂⟩, hhandler, heq⟩ := Checked.bind_eq_ok.mp heq
  rw [Machine.irqHandler, hdecision] at hhandler
  obtain ⟨rfl, rfl⟩ := Prod.mk.inj (Except.ok.inj
    ((switchTo_eq { m₁ with sched } hne address).symm.trans hhandler))
  obtain rfl := Except.ok.inj heq
  have hother : sched.current ≠ a.current.val := by
    rw [hrefines.current_eq, hcurrent, ← hreaped.current_eq]
    exact fun hcon => hne (Fin.ext hcon)
  refine ⟨?_, hother, fun hvector => ?_⟩
  · simp only [Machine.pop, (h₁.slots.cleared next (.inr hmem)).1, if_true, hmemory,
      Option.map_some, hreaped.current_eq]
  · -- the decision after reaping
    obtain ⟨m₂, hreap, hdispatch⟩ := Checked.bind_eq_ok.mp hdecision
    obtain ⟨m₃, S₃, place₃, a₃, hreap', h₃, hreaped', -⟩ :=
      (h.push haddress frame).reapExited hfresh
        ((Finset.card_le_univ _).trans (Fintype.card_fin maxThreads).le)
    obtain rfl := Except.ok.inj (hreap'.symm.trans hreap)
    refine exited_of_dispatch hvector hdispatch ?_ hother
    rw [h₃.refines.current_eq, hreaped'.current_eq]

end Kernel

end ParanukOS
