import ParanukOS.Foundation.Portions
import ParanukOS.Kernel.Main.Model
import ParanukOS.Kernel.Memory.Owned
import ParanukOS.Kernel.Thread.Contexts

/-!
# Owners of frames

Whatever the kernel does with frames is a sequence of four moves: an owner takes new frames from the
allocator, gives its frames back, passes them on to another owner, or forgets them.  The last one
happens when a thread that is in a call makes another call; its frames are lost then, but they stay
lent and nobody else gets them.

## Outline

* `Move`: the moves; `Partitioned`: every owner has lent frames, and no frame has two owners.
* `Partitioned.move`: the moves keep this.
* `moves_of_step`: a step of the machine is a sequence of moves.
-/

namespace ParanukOS

open Foundation KernelMemory KernelSched FrameAllocator

namespace Kernel

section Moves

variable {ω : Type} {map : MemoryMap} {a₀ a a' : FrameAllocator}
  {region region' : ω → Option PhysRange} {S : Finset ℕ} {run : ω → Option (ℕ × ℕ)}

/-- The memory of some frames in a row: the first one, and their number. -/
def runRange (a₀ : FrameAllocator) (run : ℕ × ℕ) : PhysRange :=
  ⟨a₀.addressOf run.1, run.2 * pageSize⟩

/-- The frames of an owner. -/
def runFrames (run : Option (ℕ × ℕ)) : Finset ℕ :=
  run.elim ∅ fun run => Finset.Ico run.1 (run.1 + run.2)

/-- Every owner has some lent frames in a row, and no frame has two owners. -/
structure Partitioned (a₀ : FrameAllocator) (S : Finset ℕ) (run : ω → Option (ℕ × ℕ))
    (region : ω → Option PhysRange) (a : FrameAllocator) : Prop where
  lent : Lent a₀ S a
  portions : Portions S (runFrames ∘ run)
  region_eq : region = Option.map (runRange a₀) ∘ run

namespace Partitioned

/-- The frames of an owner that has memory. -/
lemma exists_run (h : Partitioned a₀ S run region a) {o : ω} {range : PhysRange}
    (ho : region o = some range) : ∃ k n, run o = some (k, n) ∧ range = runRange a₀ (k, n) := by
  rw [h.region_eq, Function.comp_apply, Option.map_eq_some_iff] at ho
  obtain ⟨⟨k, n⟩, hrun, rfl⟩ := ho
  exact ⟨k, n, hrun, rfl⟩

/-- A byte of an owner lies in one of its frames. -/
lemma exists_frame (h : Partitioned a₀ S run region a) {o : ω} {range : PhysRange}
    (ho : region o = some range) {q : ℕ} (hq : Has range q) :
    ∃ k ∈ runFrames (run o), a₀.addressOf k ≤ q ∧ q < a₀.addressOf k + pageSize := by
  obtain ⟨k, n, hrun, rfl⟩ := h.exists_run ho
  obtain ⟨j, hj, hle, hlt⟩ := a₀.exists_frame_of_lt hq.1 hq.2
  rw [hrun]
  exact ⟨k + j, Finset.mem_Ico.mpr ⟨Nat.le_add_right k j, Nat.add_lt_add_left hj k⟩, hle, hlt⟩

end Partitioned

/-- A byte lies in one frame only. -/
lemma frame_unique {i j q : ℕ} (hi : a₀.addressOf i ≤ q) (hi' : q < a₀.addressOf i + pageSize)
    (hj : a₀.addressOf j ≤ q) (hj' : q < a₀.addressOf j + pageSize) : i = j := by
  simp only [addressOf, pageSize] at *
  omega

variable [DecidableEq ω]

/-- One change of the memory of the owners and of the frame allocator. -/
inductive Move : (ω → Option PhysRange) × FrameAllocator → (ω → Option PhysRange) × FrameAllocator →
    Prop
  /-- An owner forgets its memory. -/
  | drop {region : ω → Option PhysRange} {a : FrameAllocator} (o : ω) :
    Move (region, a) (Function.update region o none, a)
  /-- An owner gets frames from the allocator. -/
  | take {region : ω → Option PhysRange} {a a' : FrameAllocator} {count : ℕ} {range : PhysRange}
    (o : ω) (h : a.allocContiguous count = .ok (some range, a')) :
    Move (region, a) (Function.update region o (some range), a')
  /-- An owner passes its memory on. -/
  | pass {region : ω → Option PhysRange} {a : FrameAllocator} {range : PhysRange} (o o' : ω)
    (h : region o = some range) :
    Move (region, a) (Function.update (Function.update region o none) o' (some range), a)
  /-- An owner gives its frames back. -/
  | give {region : ω → Option PhysRange} {a a' : FrameAllocator} {range : PhysRange}
    {result : Except FreeError Unit} (o : ω) (h : region o = some range)
    (hfree : freeFrames a range = .ok (result, a')) :
    Move (region, a) (Function.update region o none, a')

namespace Partitioned

/-- Every move keeps the frames of the owners apart. -/
lemma move (hfresh : Fresh map a₀) (h : Partitioned a₀ S run region a)
    (hmove : Move (region, a) (region', a')) : ∃ S' run', Partitioned a₀ S' run' region' a' := by
  cases hmove with
  | drop o =>
    refine ⟨S, Function.update run o none, h.lent, ?_, ?_⟩
    · rw [Function.comp_update]
      exact h.portions.drop o
    · rw [Function.comp_update, h.region_eq]
      rfl
  | @take _ _ _ count range o halloc =>
    obtain ⟨k, rfl, hrun, hlent⟩ := h.lent.of_allocContiguous hfresh halloc
    have hnew : Disjoint S (Finset.Ico k (k + count)) := by
      refine Finset.disjoint_right.mpr fun i hi => ?_
      exact h.lent.notMem_of_runAt hrun (Finset.mem_Ico.mp hi).1 (Finset.mem_Ico.mp hi).2
    refine ⟨_, Function.update run o (some (k, count)), hlent, ?_, ?_⟩
    · rw [Function.comp_update]
      exact h.portions.take o hnew
    · rw [Function.comp_update, h.region_eq]
      rfl
  | @pass _ _ range o o' ho =>
    refine ⟨S, Function.update (Function.update run o none) o' (run o), h.lent, ?_, ?_⟩
    · rw [Function.comp_update, Function.comp_update]
      exact h.portions.pass o o'
    · have hrange : Option.map (runRange a₀) (run o) = some range := by
        rw [← ho, h.region_eq]
        rfl
      rw [Function.comp_update, Function.comp_update, h.region_eq, hrange]
      rfl
  | @give _ _ _ range result o ho hfree =>
    obtain ⟨k, n, hrun, rfl⟩ := h.exists_run ho
    have hframes : (runFrames ∘ run) o = Finset.Ico k (k + n) := by
      rw [Function.comp_apply, hrun]
      rfl
    have hsubset : Finset.Ico k (k + n) ⊆ S := hframes ▸ h.portions.subset o
    have hcount : divCeil (n * pageSize) pageSize = n := by
      simp only [divCeil, pageSize]
      omega
    -- the loop of `free_frames` gives all frames of the owner back
    obtain ⟨frames, hloop, hlent⟩ := freeFramesFrom_spec hfresh h.lent hsubset
    rw [freeFrames] at hfree
    obtain ⟨top, -, hfree⟩ := Checked.bind_eq_ok.mp hfree
    simp only [runRange, hcount, hloop] at hfree
    obtain ⟨-, rfl⟩ := Prod.mk.inj (Except.ok.inj hfree)
    refine ⟨_, Function.update run o none, hlent, ?_, ?_⟩
    · rw [Function.comp_update, ← hframes]
      exact h.portions.give o
    · rw [Function.comp_update, h.region_eq]
      rfl

/-- Any moves keep the frames of the owners apart. -/
lemma moves (hfresh : Fresh map a₀) (h : Partitioned a₀ S run region a)
    (hmoves : Relation.ReflTransGen Move (region, a) (region', a')) :
    ∃ S' run', Partitioned a₀ S' run' region' a' := by
  have hinv : ∀ x : (ω → Option PhysRange) × FrameAllocator,
      Relation.ReflTransGen Move (region, a) x → ∃ S' run', Partitioned a₀ S' run' x.1 x.2 := by
    intro x hx
    induction hx with
    | refl => exact ⟨S, run, h⟩
    | tail _ hmove ih =>
      obtain ⟨S', run', h'⟩ := ih
      exact h'.move hfresh hmove
  exact hinv _ hmoves

end Partitioned

end Moves

/-! ## The moves of the machine -/

section Machine

variable {heap ist : PhysRange} {loans : ℕ → Option PhysRange} {m m' : Machine}

/-- The memory of the owners, and the frame allocator. -/
def Machine.view (heap ist : PhysRange) (loans : ℕ → Option PhysRange) (m : Machine) :
    (MemoryRegion → Option PhysRange) × FrameAllocator :=
  (regions heap ist loans m.slots m.calls, m.frames)

lemma regions_update_calls (slots : Fin maxThreads → Slot) (calls : ℕ → Call) (t : ℕ)
    (call : Call) : regions heap ist loans slots (Function.update calls t call) =
      Function.update (regions heap ist loans slots calls) (.call t) call.stack := by
  refine Function.eq_update_iff.mpr ⟨?_, ?_⟩
  · rw [regions, Function.update_self]
  · intro R hR
    cases R with
    | call t' =>
      have ht : t' ≠ t := fun hcon => hR (congrArg _ hcon)
      rw [regions, Function.update_of_ne ht]
      rfl
    | _ => rfl

lemma regions_update_slots (slots : Fin maxThreads → Slot) (calls : ℕ → Call)
    (i : Fin maxThreads) (slot : Slot) :
    regions heap ist loans (Function.update slots i slot) calls =
      Function.update (regions heap ist loans slots calls) (.stack i) slot.stack := by
  refine Function.eq_update_iff.mpr ⟨?_, ?_⟩
  · rw [regions, Function.update_self]
  · intro R hR
    cases R with
    | stack i' =>
      have hi : i' ≠ i := fun hcon => hR (congrArg _ hcon)
      rw [regions, Function.update_of_ne hi]
      rfl
    | _ => rfl

lemma regions_update_loans (slots : Fin maxThreads → Slot) (calls : ℕ → Call) (n : ℕ)
    (range : Option PhysRange) : regions heap ist (Function.update loans n range) slots calls =
      Function.update (regions heap ist loans slots calls) (.loan n) range := by
  refine Function.eq_update_iff.mpr ⟨?_, ?_⟩
  · rw [regions, Function.update_self]
  · intro R hR
    cases R with
    | loan n' =>
      have hn : n' ≠ n := fun hcon => hR (congrArg _ hcon)
      rw [regions, Function.update_of_ne hn]
      rfl
    | _ => rfl

/-- A thread goes on, and forgets the stack that it has allocated. -/
lemma moves_setCall {caller : ℕ} {call : Call} (hcall : call.stack = none) :
    Relation.ReflTransGen Move (m.view heap ist loans)
      ((m.setCall caller call).view heap ist loans) := by
  refine .single ?_
  rw [Machine.view, Machine.view, Machine.setCall, regions_update_calls, hcall]
  exact .drop _

lemma moves_of_beginCall {caller : ℕ} {call : CreateCall} (h : m.beginCall caller call = .ok m') :
    Relation.ReflTransGen Move (m.view heap ist loans) (m'.view heap ist loans) := by
  have hregistered : ∀ (sched : Scheduler) (start : Start) (result : Except SchedError ℕ),
      Relation.ReflTransGen Move (m.view heap ist loans)
        (({ m with sched }.registered caller start result).view heap ist loans) := by
    intro sched start result
    cases result with
    | error e => exact moves_setCall (m := { m with sched }) rfl
    | ok id =>
      exact moves_setCall (m := { m with sched, unprepared := insert id m.unprepared }) rfl
  -- every kind of call registers a thread, and the scheduler has no frames
  cases call with
  | _ =>
    obtain ⟨⟨result, sched⟩, -, h⟩ := Checked.bind_eq_ok.mp h
    obtain rfl := Except.ok.inj h
    exact hregistered sched _ result

lemma moves_of_continueCall {caller : ℕ} (h : m.continueCall caller = .ok m') :
    Relation.ReflTransGen Move (m.view heap ist loans) (m'.view heap ist loans) := by
  rw [Machine.continueCall] at h
  cases hcall : m.calls caller with
  | none =>
    rw [hcall] at h
    obtain rfl := Except.ok.inj h
    exact .refl
  | returned result =>
    rw [hcall] at h
    obtain rfl := Except.ok.inj h
    exact .refl
  | registered id start =>
    rw [hcall] at h
    obtain ⟨⟨result, frames⟩, halloc, h⟩ := Checked.bind_eq_ok.mp h
    cases result with
    | none =>
      obtain ⟨rfl, -⟩ := of_allocContiguous_none (by decide) halloc
      obtain rfl := Except.ok.inj h
      exact moves_setCall rfl
    | some stack =>
      obtain ⟨-, -, h⟩ := Checked.bind_eq_ok.mp h
      obtain rfl := Except.ok.inj h
      refine .single ?_
      rw [Machine.view, Machine.view, Machine.setCall, regions_update_calls]
      exact .take _ halloc
  | stacked id start stack =>
    rw [hcall] at h
    obtain ⟨m₁, hwrite, h⟩ := Checked.bind_eq_ok.mp h
    obtain rfl := Except.ok.inj h
    rw [Machine.writeFrame] at hwrite
    simp only [Checked.bind_eq_ok] at hwrite
    obtain ⟨-, -, top, -, address, -, -, -, hwrite⟩ := hwrite
    obtain rfl := Except.ok.inj hwrite
    -- the stack stays with the thread
    have hsame : regions heap ist loans m.slots
        (Function.update m.calls caller (.framed id start stack)) =
          regions heap ist loans m.slots m.calls := by
      rw [regions_update_calls]
      refine Function.update_eq_self_iff.mpr ?_
      rw [regions, hcall]
      rfl
    rw [Machine.view, Machine.view, Machine.setCall]
    simp only [hsame]
    exact .refl
  | framed id start stack =>
    rw [hcall] at h
    obtain ⟨m₁, hwrite, h⟩ := Checked.bind_eq_ok.mp h
    obtain rfl := Except.ok.inj h
    rw [Machine.writeSlot] at hwrite
    simp only [Checked.bind_eq_ok] at hwrite
    obtain ⟨top, -, rsp, -, slots, hslots, hwrite⟩ := hwrite
    obtain rfl := Except.ok.inj hwrite
    obtain ⟨i, -, rfl⟩ := writeAt_eq_ok_iff.mp hslots
    have howner : regions heap ist loans m.slots m.calls (.call caller) = some stack := by
      rw [regions, hcall]
      rfl
    refine .single ?_
    rw [Machine.view, Machine.view, Machine.setCall, regions_update_calls, regions_update_slots,
      Function.update_comm (fun hcon => MemoryRegion.noConfusion hcon)]
    exact Move.pass (MemoryRegion.call caller) (.stack i) howner

lemma moves_of_release {id : ℕ} (h : m.release id = .ok m') :
    Relation.ReflTransGen Move (m.view heap ist loans) (m'.view heap ist loans) := by
  rw [Machine.release] at h
  obtain ⟨slot, hslot, h⟩ := Checked.bind_eq_ok.mp h
  obtain ⟨slots, hslots, h⟩ := Checked.bind_eq_ok.mp h
  obtain ⟨i, rfl, rfl⟩ := readAt_eq_ok_iff.mp hslot
  obtain ⟨j, hj, rfl⟩ := writeAt_eq_ok_iff.mp hslots
  obtain rfl := Fin.ext hj
  cases hstack : (m.slots j).stack with
  | none =>
    rw [hstack] at h
    obtain rfl := Except.ok.inj h
    refine .single ?_
    rw [Machine.view, Machine.view, regions_update_slots]
    exact .drop _
  | some stack =>
    rw [hstack] at h
    obtain ⟨⟨result, frames⟩, hfree, h⟩ := Checked.bind_eq_ok.mp h
    obtain rfl := Except.ok.inj h
    refine .single ?_
    rw [Machine.view, Machine.view, regions_update_slots]
    exact Move.give (MemoryRegion.stack j) hstack hfree

lemma moves_of_reapExited {n : ℕ} : ∀ {m : Machine}, Machine.reapExited n m = .ok m' →
    Relation.ReflTransGen Move (m.view heap ist loans) (m'.view heap ist loans) := by
  induction n with
  | zero =>
    intro m h
    obtain rfl := Except.ok.inj h
    exact .refl
  | succ n ih =>
    intro m h
    rw [Machine.reapExited] at h
    obtain ⟨⟨thread, sched⟩, -, h⟩ := Checked.bind_eq_ok.mp h
    cases thread with
    | none =>
      obtain rfl := Except.ok.inj h
      exact .refl
    | some id =>
      obtain ⟨m₁, hrelease, h⟩ := Checked.bind_eq_ok.mp h
      exact (moves_of_release (m := { m with sched }) hrelease).trans (ih h)

lemma moves_of_irqCommon {address : ℕ} {frame : IrqFrame} (h : m.irqCommon address frame = .ok m') :
    Relation.ReflTransGen Move (m.view heap ist loans) (m'.view heap ist loans) := by
  obtain ⟨⟨rax, m₁⟩, hhandler, h⟩ := Checked.bind_eq_ok.mp h
  obtain rfl := Except.ok.inj h
  obtain ⟨⟨decision, m₂⟩, hdecision, hhandler⟩ := Checked.bind_eq_ok.mp hhandler
  obtain ⟨m₃, hreap, hdispatch⟩ := Checked.bind_eq_ok.mp hdecision
  obtain ⟨sched, rfl⟩ := Machine.dispatch_eq hdispatch
  have hpush : (m.push address frame).view heap ist loans = m.view heap ist loans := by
    rw [Machine.push]
    cases m.running <;> rfl
  have hmoves : Relation.ReflTransGen Move (m.view heap ist loans) (m₃.view heap ist loans) :=
    hpush ▸ moves_of_reapExited hreap
  cases decision with
  | keep =>
    obtain ⟨-, rfl⟩ := Prod.mk.inj (Except.ok.inj hhandler)
    exact hmoves
  | switch previous next =>
    -- the slot of the previous thread keeps its stack
    simp only [Machine.switchTo, Checked.bind_eq_ok] at hhandler
    obtain ⟨-, -, -, -, slot, hslot, slots, hslots, next', -, hhandler⟩ := hhandler
    obtain ⟨-, rfl⟩ := Prod.mk.inj (Except.ok.inj hhandler)
    obtain ⟨i, rfl, rfl⟩ := readAt_eq_ok_iff.mp hslot
    obtain ⟨j, hj, rfl⟩ := writeAt_eq_ok_iff.mp hslots
    obtain rfl := Fin.ext hj
    have hsame : regions heap ist loans
        (Function.update m₃.slots j { m₃.slots j with rsp := address }) m₃.calls =
          regions heap ist loans m₃.slots m₃.calls := by
      rw [regions_update_slots]
      exact Function.update_eq_self_iff.mpr rfl
    change Relation.ReflTransGen Move (m.view heap ist loans) (regions heap ist loans
      (Function.update m₃.slots j { m₃.slots j with rsp := address }) m₃.calls, m₃.frames)
    rw [hsame]
    exact hmoves

/-- **A step of the machine is a sequence of moves.** -/
lemma moves_of_step {e : Event} (h : m.step e = .ok m') :
    Relation.ReflTransGen Move (m.view heap ist loans) (m'.view heap ist loans) := by
  unfold Machine.step at h
  cases hrunning : m.running with
  | none =>
    rw [hrunning] at h
    obtain rfl := Except.ok.inj h
    exact .refl
  | some caller =>
    rw [hrunning] at h
    cases e with
    | call call => exact moves_of_beginCall h
    | proceed => exact moves_of_continueCall h
    | interrupt address frame => exact moves_of_irqCommon h

end Machine

end Kernel

end ParanukOS
