import Mathlib.Tactic
import ParanukOS.Kernel.Interrupt.Tables

/-!
# Delivery of interrupts

What the processor does with the tables of the kernel.  It finds every field where the kernel has
put it: the address of the task state and of the stubs, which are cut into pieces, and the stacks in
the task state.  From user mode an instruction `int` leads into the kernel for the system call only;
every other vector gives a general protection fault, whether there is a gate or not.

## Outline

* `GateFields.decode_withDpl`, `taskState_install`, `tssWord_rsp0`, `tssWord_ist`: round trips.
* `Idt.install_eq`: the table after it has been installed.
* `interrupt_entry_exact`: every interrupt.
-/

namespace ParanukOS

open Foundation

namespace Kernel

/-! ## Round trips -/

section Gates

variable (g : Gate)

lemma Gate.offsetLow_bits : g.bits.extractLsb' 0 16 = g.offsetLow := by
  ext i hi
  simp [Gate.bits]
  grind

lemma Gate.selector_bits : g.bits.extractLsb' 16 16 = g.selector := by
  ext i hi
  simp [Gate.bits]
  grind

lemma Gate.ist_bits : g.bits.extractLsb' 32 3 = g.ist.setWidth 3 := by
  ext i hi
  simp [Gate.bits]
  grind

lemma Gate.typeAttr_bits (start : ℕ) {n : ℕ} (h : start + n ≤ 8) :
    g.bits.extractLsb' (40 + start) n = g.typeAttr.extractLsb' start n := by
  ext i hi
  simp [Gate.bits]
  grind

lemma Gate.present_bits : g.bits.getLsbD 47 = g.typeAttr.getLsbD 7 := by
  simp [Gate.bits]
  grind

lemma Gate.offsetMid_bits : g.bits.extractLsb' 48 16 = g.offsetMid := by
  ext i hi
  simp [Gate.bits]
  grind

lemma Gate.offsetHigh_bits : g.bits.extractLsb' 64 32 = g.offsetHigh := by
  ext i hi
  simp [Gate.bits]
  grind

end Gates

/-- An address that has been cut into three pieces. -/
lemma append_offset (handler : BitVec 64) : (handler >>> 32).setWidth 32 ++
    (handler >>> 16).setWidth 16 ++ handler.setWidth 16 = handler := by
  ext i hi
  simp
  grind

/-- The processor finds in a gate what the kernel has put there. -/
lemma GateFields.decode_withDpl (handler : BitVec 64) (selector : BitVec 16) (ist dpl : BitVec 8) :
    GateFields.decode (Gate.withDpl handler selector ist dpl).bits =
      { offset := handler
        selector := selector
        ist := ist.setWidth 3
        type := 0b01110#5
        dpl := dpl.setWidth 2
        present := true } := by
  have htype : (0x8E#8 ||| ((dpl &&& 3#8) <<< 5)).extractLsb' 0 5 = 0b01110#5 := by
    ext i hi
    interval_cases i <;> simp
  have hdpl : (0x8E#8 ||| ((dpl &&& 3#8) <<< 5)).extractLsb' 5 2 = dpl.setWidth 2 := by
    ext i hi
    interval_cases i <;> simp
  have hpresent : (0x8E#8 ||| ((dpl &&& 3#8) <<< 5)).getLsbD 7 = true := by simp
  rw [decode, Gate.offsetHigh_bits, Gate.offsetMid_bits, Gate.offsetLow_bits, Gate.selector_bits,
    Gate.ist_bits, Gate.typeAttr_bits _ 0 (by decide), Gate.typeAttr_bits _ 5 (by decide),
    Gate.present_bits]
  simp only [Gate.withDpl, append_offset, htype, hdpl, hpresent]

/-- The lower half of the descriptor of the task state. -/
lemma tssDescriptor_fst (base : BitVec 64) : (tssDescriptor base).1 =
    0x67#64 ||| ((base &&& 0x00FFFFFF#64) <<< 16) ||| 0x890000000000#64 |||
      (((base >>> 24) &&& 0xFF#64) <<< 56) := by
  simp [tssDescriptor, tssSize]

/-- The processor finds the task state. -/
lemma taskState_install (d : Descriptors) (tssBase doubleFault nmi : BitVec 64) :
    taskState (d.install tssBase doubleFault nmi).gdt tssSelector =
      some (tssBase, .ofNat 20 (tssSize - 1)) := by
  have hlow : (tssDescriptor tssBase).1.extractLsb' 16 24 = tssBase.setWidth 24 := by
    rw [tssDescriptor_fst]
    ext i hi
    interval_cases i <;> simp
  have hhigh : (tssDescriptor tssBase).1.extractLsb' 56 8 = (tssBase >>> 24).setWidth 8 := by
    rw [tssDescriptor_fst]
    ext i hi
    interval_cases i <;> simp
  have hlimit : (tssDescriptor tssBase).1.extractLsb' 0 16 = 0x67#16 := by
    rw [tssDescriptor_fst]
    ext i hi
    interval_cases i <;> simp
  have hupper : (tssDescriptor tssBase).1.extractLsb' 48 4 = 0#4 := by
    rw [tssDescriptor_fst]
    ext i hi
    interval_cases i <;> simp
  have htype : segmentType (tssDescriptor tssBase).1 = 0b01001#5 := by
    rw [segmentType, tssDescriptor_fst]
    ext i hi
    interval_cases i <;> simp
  have hpresent : segmentPresent (tssDescriptor tssBase).1 = true := by
    rw [segmentPresent, tssDescriptor_fst]
    simp
  have hbase : (tssBase >>> 32).setWidth 32 ++ (tssBase >>> 24).setWidth 8 ++
      tssBase.setWidth 24 = tssBase := by
    ext i hi
    simp
    grind
  show (if segmentType (tssDescriptor tssBase).1 = 0b01001#5 ∧
    segmentPresent (tssDescriptor tssBase).1 then _ else none) = _
  rw [if_pos ⟨htype, hpresent⟩, hlow, hhigh, hlimit, hupper]
  exact congrArg some (Prod.ext hbase rfl)

/-- Eight bytes behind others. -/
lemma leVal_take_drop {l r : List UInt8} {offset : ℕ} (hlen : l.length = offset) (v : BitVec 64) :
    BitVec.ofNat 64 (leVal (((l ++ (leBytes 8 v.toNat ++ r)).drop offset).take 8)) = v := by
  have hbytes : (leBytes 8 v.toNat).length = 8 := length_leBytes 8 v.toNat
  rw [← hlen, List.drop_left, List.take_append_of_le_length hbytes.ge,
    List.take_of_length_le hbytes.le, leVal_leBytes_of_lt (by norm_num; exact v.isLt),
    BitVec.ofNat_toNat, BitVec.setWidth_eq]

/-- The stack for interrupts in user mode. -/
lemma tssWord_rsp0 (d : Descriptors) (idt : Idt) : (d.tables idt).tssWord 4 = d.tss.rsp0 :=
  leVal_take_drop (length_leBytes 4 0) d.tss.rsp0

/-- The other stacks. -/
lemma tssWord_ist (d : Descriptors) (idt : Idt) (i : Fin 7) :
    (d.tables idt).tssWord (36 + 8 * i.val) = d.tss.ist i := by
  have hsplit : List.finRange 7 =
      (List.finRange 7).take i ++ i :: (List.finRange 7).drop (i + 1) := by
    revert i
    decide
  have hbytes : d.tss.bytes =
      (leBytes 4 0 ++ leBytes 8 d.tss.rsp0.toNat ++ leBytes 8 d.tss.rsp1.toNat ++
        leBytes 8 d.tss.rsp2.toNat ++ leBytes 8 0 ++
        ((List.finRange 7).take i).flatMap (fun i => leBytes 8 (d.tss.ist i).toNat)) ++
      (leBytes 8 (d.tss.ist i).toNat ++
        (((List.finRange 7).drop (i + 1)).flatMap (fun i => leBytes 8 (d.tss.ist i).toNat) ++
          (leBytes 8 0 ++ (leBytes 2 0 ++ leBytes 2 d.tss.iomapBase.toNat)))) := by
    rw [Tss.bytes]
    nth_rewrite 1 [hsplit]
    simp only [List.flatMap_append, List.flatMap_cons, List.append_assoc]
  show BitVec.ofNat 64 (leVal ((d.tss.bytes.drop _).take 8)) = _
  rw [hbytes]
  refine leVal_take_drop ?_ _
  have hlen : (((List.finRange 7).take i).flatMap
      (fun i => leBytes 8 (d.tss.ist i).toNat)).length = 8 * i.val := by
    rw [List.length_flatMap, List.map_congr_left fun j _ => length_leBytes 8 (d.tss.ist j).toNat,
      List.map_const', List.sum_replicate, List.length_take, List.length_finRange,
      Nat.min_eq_left i.isLt.le, smul_eq_mul, Nat.mul_comm]
  simp only [List.length_append, length_leBytes, hlen]

/-! ## The table -/

/-- Writing consecutive elements of a table one after the other. -/
lemma forRange_writeAt {α : Type} {n k base : ℕ} (h : base + k ≤ n) (f : ℕ → α) (t : Fin n → α) :
    forRange k t (fun i t => writeAt t (base + i) (f i)) = .ok fun j =>
      if base ≤ j.val ∧ j.val < base + k then f (j.val - base) else t j := by
  induction k with
  | zero =>
    refine congrArg Except.ok (funext fun j => ?_)
    rw [if_neg (by omega)]
  | succ k ih =>
    have hwrite := fun t : Fin n → α => writeAt_val t ⟨base + k, by omega⟩ (f k)
    rw [forRange, ih (by omega), Checked.ok_bind, hwrite]
    refine congrArg Except.ok (funext fun j => ?_)
    by_cases hj : j = ⟨base + k, by omega⟩
    · subst hj
      rw [Function.update_self, if_pos ⟨by simp, by simp⟩, Nat.add_sub_cancel_left]
    · have hne : j.val ≠ base + k := fun hcon => hj (Fin.ext hcon)
      rw [Function.update_of_ne hj]
      split_ifs <;> first | rfl | omega

/-- The gate of a vector, when the table has been installed. -/
def Stubs.gate (stubs : Stubs) (selector : BitVec 16) (vector : ℕ) : Option Gate :=
  if vector < 32 then
    some (Gate.withIst (stubs.isr vector) selector (istOfVector vector))
  else if vector < irqVectorBase + 16 then
    some (Gate.withIst (stubs.irq (vector - irqVectorBase)) selector 0)
  else if vector = yieldVector then some (Gate.withIst stubs.isrYield selector 0)
  else if vector = exitVector then some (Gate.withIst stubs.isrExit selector 0)
  else if vector = syscallVector then some (Gate.withDpl stubs.isrSyscall selector 0 3)
  else none

/-- The table after it has been installed. -/
lemma Idt.install_eq (idt : Idt) (stubs : Stubs) (selector : BitVec 16) :
    idt.install stubs selector = .ok fun v => (stubs.gate selector v).getD (idt v) := by
  have hisr := forRange_writeAt (show 0 + 32 ≤ 256 by decide)
    (fun vector => Gate.withIst (stubs.isr vector) selector (istOfVector vector)) idt
  simp only [Nat.zero_add, Nat.zero_le, Nat.sub_zero, true_and] at hisr
  have hirq := fun idt : Idt => forRange_writeAt (show irqVectorBase + 16 ≤ 256 by decide)
    (fun offset => Gate.withIst (stubs.irq offset) selector 0) idt
  have hyield := fun (idt : Idt) (g : Gate) => writeAt_val idt ⟨yieldVector, by decide⟩ g
  have hexit := fun (idt : Idt) (g : Gate) => writeAt_val idt ⟨exitVector, by decide⟩ g
  have hsyscall := fun (idt : Idt) (g : Gate) => writeAt_val idt ⟨syscallVector, by decide⟩ g
  rw [install, hisr, Checked.ok_bind, hirq, Checked.ok_bind, hyield, Checked.ok_bind, hexit,
    Checked.ok_bind, hsyscall]
  refine congrArg Except.ok (funext fun v => ?_)
  simp only [Function.update_apply, Fin.ext_iff, Stubs.gate, yieldVector, exitVector, syscallVector,
    irqVectorBase]
  grind

/-! ## Every interrupt -/

/-- The stub of a vector. -/
def Stubs.stub (stubs : Stubs) (vector : ℕ) : Option (BitVec 64) :=
  if vector < 32 then some (stubs.isr vector)
  else if vector < irqVectorBase + 16 then some (stubs.irq (vector - irqVectorBase))
  else if vector = yieldVector then some stubs.isrYield
  else if vector = exitVector then some stubs.isrExit
  else if vector = syscallVector then some stubs.isrSyscall
  else none

/-- The error code for a vector. -/
def vectorErrorCode (cause : Cause) (vector : Fin 256) : ℕ :=
  8 * vector.val + 2 + if cause = .hardware then 1 else 0

/-- What is expected of an interrupt: the stub of its vector runs in the kernel's code segment.  A
double fault and the non-maskable interrupt have stacks of their own, and from user mode the stack
is the one in `rsp0`.  A vector without a stub, and in user mode an instruction `int` with another
vector than that of the system call, is a general protection fault. -/
def expectedEntry (stubs : Stubs) (doubleFault nmi rsp0 : BitVec 64) (cause : Cause)
    (cpl : BitVec 2) (rsp : BitVec 64) (vector : Fin 256) : Except Fault Entry :=
  match stubs.stub vector with
  | none => .error (.generalProtection (vectorErrorCode cause vector))
  | some rip =>
    if cause = .software ∧ cpl ≠ 0 ∧ vector.val ≠ syscallVector then
      .error (.generalProtection (vectorErrorCode cause vector))
    else .ok
      { rip
        cs := .ofNat 16 kernelCode
        stack :=
          if vector.val = istVectorDoubleFault then doubleFault
          else if vector.val = istVectorNmi then nmi
          else if cpl ≠ 0 then rsp0
          else rsp }

/-- An interrupt whose gate the kernel has written. -/
lemma enter_withDpl {t : Tables} {vector : Fin 256} {handler : BitVec 64} {ist dpl : BitVec 8}
    (hgate : t.idt vector = (Gate.withDpl handler (.ofNat 16 kernelCode) ist dpl).bits)
    (hgdt : t.gdt[1]? = some codeDescriptor) (cause : Cause) (cpl : BitVec 2) (rsp : BitVec 64) :
    t.enter cause cpl rsp vector =
      if cause = .software ∧ dpl.setWidth 2 < cpl then
        .error (.generalProtection (vectorErrorCode cause vector))
      else .ok
        { rip := handler
          cs := .ofNat 16 kernelCode
          stack := t.stack (ist.setWidth 3) cpl 0 rsp } := by
  have hselector : (BitVec.ofNat 16 kernelCode).toNat / 8 = 1 := by decide
  have hcode : isLongCode codeDescriptor = true := by decide
  have hdpl : segmentDpl codeDescriptor = 0 := by decide
  have hpresent : segmentPresent codeDescriptor = true := by decide
  have hcs : (BitVec.ofNat 16 kernelCode).extractLsb' 2 14 ++ (0 : BitVec 2) =
      BitVec.ofNat 16 kernelCode := by
    decide
  have hlow : ¬ cpl < 0 := by simp
  simp only [Tables.enter, hgate, GateFields.decode_withDpl, hselector, hgdt, hcode, hdpl, hpresent]
  simp only [ne_eq, not_true, false_and, if_false, Bool.not_true, Bool.false_eq_true, one_ne_zero,
    false_or, hlow, vectorErrorCode, hcs]

/-- An interrupt without a gate. -/
lemma enter_missing {t : Tables} {vector : Fin 256} (hgate : t.idt vector = Gate.missing.bits)
    (cause : Cause) (cpl : BitVec 2) (rsp : BitVec 64) :
    t.enter cause cpl rsp vector =
      .error (.generalProtection (vectorErrorCode cause vector)) := by
  have htype : (GateFields.decode Gate.missing.bits).type = 0#5 := by decide
  simp [Tables.enter, hgate, htype, vectorErrorCode]

/-- The descriptors after they have been installed, with the stack for interrupts in user mode. -/
def kernelDescriptors (tssBase doubleFault nmi rsp0 : BitVec 64) : Descriptors :=
  (Descriptors.new.install tssBase doubleFault nmi).setRsp0 rsp0

/-- The stacks that the processor finds in the task state. -/
lemma stack_eq (tssBase doubleFault nmi rsp0 : BitVec 64) (idt : Idt) (vector : ℕ) (cpl : BitVec 2)
    (rsp : BitVec 64) :
    ((kernelDescriptors tssBase doubleFault nmi rsp0).tables idt).stack
      ((istOfVector vector).setWidth 3) cpl 0 rsp =
      if vector = istVectorDoubleFault then doubleFault
      else if vector = istVectorNmi then nmi
      else if cpl ≠ 0 then rsp0
      else rsp := by
  rw [Tables.stack, istOfVector]
  by_cases hdouble : vector = istVectorDoubleFault
  · rw [if_pos hdouble, if_pos hdouble, if_pos (by decide)]
    exact tssWord_ist _ idt 0
  · rw [if_neg hdouble, if_neg hdouble]
    by_cases hnmi : vector = istVectorNmi
    · rw [if_pos hnmi, if_pos hnmi, if_pos (by decide)]
      exact tssWord_ist _ idt 1
    · rw [if_neg hnmi, if_neg hnmi, if_neg (by decide), tssWord_rsp0]
      have hlow : 0 < cpl ↔ cpl ≠ 0 := by
        revert cpl
        decide
      exact if_congr hlow rfl rfl

/-- The descriptor privilege level in the gate of a vector. -/
def gateDpl (vector : ℕ) : BitVec 8 := if vector = syscallVector then 3 else 0

/-- The gate of a vector has the address of its stub. -/
lemma Stubs.gate_eq (stubs : Stubs) (selector : BitVec 16) (vector : ℕ) :
    stubs.gate selector vector = (stubs.stub vector).map fun rip =>
      Gate.withDpl rip selector (istOfVector vector) (gateDpl vector) := by
  rw [Stubs.gate, Stubs.stub]
  simp only [Gate.withIst, gateDpl, istOfVector, yieldVector, exitVector, syscallVector,
    irqVectorBase, istVectorDoubleFault, istVectorNmi]
  grind

/-- The privilege level in the gate of a vector is too low in user mode, except for the system
call. -/
lemma gateDpl_lt_iff (vector : ℕ) (cpl : BitVec 2) :
    (gateDpl vector).setWidth 2 < cpl ↔ cpl ≠ 0 ∧ vector ≠ syscallVector := by
  rw [gateDpl]
  by_cases hvector : vector = syscallVector
  · simp only [hvector, ne_eq, not_true, and_false, iff_false]
    revert cpl
    decide
  · simp only [hvector, ne_eq, not_false_iff, and_true]
    revert cpl
    decide

/-- The table of gates after it has been installed twice. -/
def Stubs.table (stubs : Stubs) (firmwareCode : BitVec 16) : Idt := fun v =>
  (stubs.gate (.ofNat 16 kernelCode) v).getD ((stubs.gate firmwareCode v).getD .missing)

/-- Every vector, from each privilege level and for each cause, leads where it should. -/
lemma enter_table (stubs : Stubs) (firmwareCode : BitVec 16)
    (tssBase doubleFault nmi rsp0 : BitVec 64) (cause : Cause) (cpl : BitVec 2) (rsp : BitVec 64)
    (vector : Fin 256) :
    ((kernelDescriptors tssBase doubleFault nmi rsp0).tables (stubs.table firmwareCode)).enter cause
      cpl rsp vector = expectedEntry stubs doubleFault nmi rsp0 cause cpl rsp vector := by
  rw [expectedEntry]
  cases hstub : stubs.stub vector with
  | none =>
    refine enter_missing ?_ cause cpl rsp
    simp only [Descriptors.tables, Stubs.table, Stubs.gate_eq, hstub]
    rfl
  | some rip =>
    have hgate : ((kernelDescriptors tssBase doubleFault nmi rsp0).tables
        (stubs.table firmwareCode)).idt vector = (Gate.withDpl rip (.ofNat 16 kernelCode)
          (istOfVector vector) (gateDpl vector)).bits := by
      simp only [Descriptors.tables, Stubs.table, Stubs.gate_eq, hstub]
      rfl
    rw [enter_withDpl hgate rfl cause cpl rsp, stack_eq]
    simp only [gateDpl_lt_iff]

/-- **Delivery of interrupts.**  The kernel installs its table of gates, the descriptors of its
segments and the table of gates once more, now with its own code segment; later it sets `rsp0`.
Wherever the stubs and the task state lie, the processor finds the task state at its address, and
every vector, from each privilege level and for each cause, leads where it should. -/
theorem interrupt_entry_exact (stubs : Stubs) (firmwareCode : BitVec 16)
    (tssBase doubleFault nmi rsp0 : BitVec 64) :
    taskState (kernelDescriptors tssBase doubleFault nmi rsp0).gdt tssSelector =
      some (tssBase, .ofNat 20 (tssSize - 1)) ∧
    ∃ idt₁ idt, Idt.new.install stubs firmwareCode = .ok idt₁ ∧
      idt₁.install stubs (.ofNat 16 kernelCode) = .ok idt ∧
      ∀ cause cpl rsp vector,
        ((kernelDescriptors tssBase doubleFault nmi rsp0).tables idt).enter cause cpl rsp vector =
          expectedEntry stubs doubleFault nmi rsp0 cause cpl rsp vector := by
  exact ⟨taskState_install Descriptors.new tssBase doubleFault nmi, _, stubs.table firmwareCode,
    Idt.install_eq _ _ _, Idt.install_eq _ _ _,
    enter_table stubs firmwareCode tssBase doubleFault nmi rsp0⟩

end Kernel

end ParanukOS
