import Mathlib.Tactic
import ParanukOS.Kernel.Device.Serial
import ParanukOS.Kernel.Interrupt.Delivery
import ParanukOS.Kernel.Interrupt.Saved

/-!
# Exceptions

The embedding of `exception_handler` in `kernel/src/idt.rs`, with the code in front of it.  The
handler reports the registers that it finds on the stack, the stack that it runs on and, for a page
fault, the address; then the kernel ends, with one exit value for faults in user mode and another
one for its own.

Some exceptions come with an error code and some do not; which ones, `Trap` says for the processor,
apart from the list in the kernel.  The stubs make up for the difference, so that the handler finds
the same frame for all of them.

## Outline

* `ExceptionFrame`, `StackKind`, `exceptionHandler`: the handler.
* `Exception`, `Trap`: what the processor raises.
* `Cpu.atException`: the processor when it calls the handler.
* `exception_report_exact`: every exception.
-/

namespace ParanukOS

open Foundation

namespace Kernel

/-! ## The handler -/

/-- `ExceptionFrame`. -/
@[ext] structure ExceptionFrame where
  vector : BitVec 64
  errorCode : BitVec 64
  rip : BitVec 64
  cs : BitVec 64
  rflags : BitVec 64
  rsp : BitVec 64
  ss : BitVec 64
  deriving DecidableEq, Repr

/-- `EXCEPTION_NAMES`. -/
def exceptionNames : List String :=
  [ "#DE 除零",
    "#DB 调试",
    "NMI 不可屏蔽中断",
    "#BP 断点",
    "#OF 溢出",
    "#BR 越界",
    "#UD 非法指令",
    "#NM 设备不可用",
    "#DF 双重故障",
    "保留(9)",
    "#TS 无效 TSS",
    "#NP 段不存在",
    "#SS 栈段错误",
    "#GP 通用保护",
    "#PF 页错误",
    "保留(15)",
    "#MF x87 浮点",
    "#AC 对齐检查",
    "#MC 机器检查",
    "#XM SIMD 浮点",
    "#VE 虚拟化异常",
    "#CP 控制流保护",
    "保留(22)",
    "保留(23)",
    "保留(24)",
    "保留(25)",
    "保留(26)",
    "保留(27)",
    "#HV 虚拟化注入",
    "#VC SEV 异常",
    "#SX 安全异常",
    "保留(31)" ]

/-- `EXIT_VALUE_KERNEL_FAULT`. -/
def exitValueKernelFault : Byte := 0x14

/-- `EXIT_VALUE_USER_FAILURE`. -/
def exitValueUserFailure : Byte := 0x17

/-- `is_user_fault`. -/
def isUserFault (frame : ExceptionFrame) : Bool := frame.cs &&& 3#64 == 3#64

/-- `ist_top`. -/
def Descriptors.istTop (d : Descriptors) (index : ℕ) : BitVec 64 :=
  if h : 1 ≤ index ∧ index ≤ 7 then d.tss.ist ⟨index - 1, by omega⟩ else 0

/-- The answers of `current_stack_kind`. -/
inductive StackKind where
  | doubleFault
  | nmi
  | other
  deriving DecidableEq, Repr

/-- The texts of `current_stack_kind`. -/
def StackKind.text : StackKind → String
  | doubleFault => "IST1 栈（#DF）"
  | nmi => "IST2 栈（NMI）"
  | other => "当前栈（非 IST）"

/-- Whether the stack pointer is in the page below `top`. -/
def inPageBelow (top rsp : BitVec 64) : Bool :=
  top != 0 && decide (rsp.toNat ≤ top.toNat) && decide (top.toNat - 4096 < rsp.toNat)

/-- `current_stack_kind`, for the stack pointer `rsp`. -/
def currentStackKind (d : Descriptors) (rsp : BitVec 64) : StackKind :=
  if inPageBelow (d.istTop istDoubleFault) rsp then .doubleFault
  else if inPageBelow (d.istTop istNmi) rsp then .nmi
  else .other

/-- The format `{:X}`. -/
def hex (v : BitVec 64) : String := String.ofList ((Nat.toDigits 16 v.toNat).map Char.toUpper)

/-- The lines that `exception_handler` prints. -/
def exceptionReport (frame : ExceptionFrame) (kind : StackKind) (cr2 : BitVec 64) : List String :=
  [ "未处理的 CPU 异常: " ++ exceptionNames.getD frame.vector.toNat "未知向量" ++ " (vector " ++
      toString frame.vector.toNat ++ ")",
    "  error_code=0x" ++ hex frame.errorCode ++ " rip=0x" ++ hex frame.rip ++ " cs=0x" ++
      hex frame.cs ++ " rflags=0x" ++ hex frame.rflags,
    "  rsp=0x" ++ hex frame.rsp ++ " ss=0x" ++ hex frame.ss,
    "  实际运行栈：" ++ kind.text ] ++
  (if frame.vector = 14 then ["  cr2=0x" ++ hex cr2 ++ " (触发页错误的地址)"] else []) ++
  if isUserFault frame then ["服务在 CPL 3 上发生异常（用户态故障，不是内核崩溃）"] else []

/-- `exception_handler`: what it prints, and the value for `finish`.  It reads the stack pointer and
the address of a page fault from the processor. -/
def exceptionHandler (d : Descriptors) (rsp cr2 : BitVec 64) (frame : ExceptionFrame) :
    List String × Byte :=
  (exceptionReport frame (currentStackKind d rsp) cr2,
    if isUserFault frame then exitValueUserFailure else exitValueKernelFault)

/-! ## The exceptions of the processor -/

/-- The exceptions that a processor raises by itself in 64-bit mode.  A breakpoint is not one of
them: it is the instruction `int3`. -/
inductive Exception where
  | divideError
  | debug
  | nonMaskableInterrupt
  | boundRange
  | invalidOpcode
  | deviceNotAvailable
  | doubleFault
  | invalidTss
  | segmentNotPresent
  | stackFault
  | generalProtection
  | pageFault
  | floatingPoint
  | alignmentCheck
  | machineCheck
  | simd
  | virtualization
  | controlProtection
  | hypervisorInjection
  | vmmCommunication
  | security
  deriving DecidableEq, Repr

namespace Exception

def vector : Exception → Fin 256
  | divideError => 0
  | debug => 1
  | nonMaskableInterrupt => 2
  | boundRange => 5
  | invalidOpcode => 6
  | deviceNotAvailable => 7
  | doubleFault => 8
  | invalidTss => 10
  | segmentNotPresent => 11
  | stackFault => 12
  | generalProtection => 13
  | pageFault => 14
  | floatingPoint => 16
  | alignmentCheck => 17
  | machineCheck => 18
  | simd => 19
  | virtualization => 20
  | controlProtection => 21
  | hypervisorInjection => 28
  | vmmCommunication => 29
  | security => 30

/-- Whether the processor pushes an error code. -/
def hasErrorCode : Exception → Bool
  | doubleFault | invalidTss | segmentNotPresent | stackFault | generalProtection | pageFault
  | alignmentCheck | controlProtection | vmmCommunication | security => true
  | _ => false

end Exception

/-- What leads to the stub of an exception: the processor raises it, with an error code, if it has
one, and perhaps sets RF in the flags that it pushes; or an instruction `int` or `int3`. -/
inductive Trap where
  | exception (x : Exception) (errorCode : BitVec 64) (resume : Bool)
  | instruction (vector : Fin 256)

namespace Trap

def vector : Trap → Fin 256
  | exception x _ _ => x.vector
  | instruction vector => vector

def cause : Trap → Cause
  | exception _ _ _ => .hardware
  | instruction _ => .software

/-- The error code that the processor pushes, if it does. -/
def pushedErrorCode : Trap → Option (BitVec 64)
  | exception x errorCode _ => if x.hasErrorCode then some errorCode else none
  | instruction _ => none

/-- The flags that the processor pushes. -/
def pushedFlags (rflags : BitVec 64) : Trap → BitVec 64
  | exception _ _ true => rflags ||| 0x10000#64
  | _ => rflags

/-- An instruction does not have the vector of an exception with an error code. -/
def Regular : Trap → Prop
  | exception _ _ _ => True
  | instruction vector => ∀ x : Exception, x.hasErrorCode = true → x.vector ≠ vector

/-- The kernel's stubs know which exceptions have an error code. -/
lemma mem_errorCodeVectors_iff (x : Exception) :
    x.vector.val ∈ errorCodeVectors ↔ x.hasErrorCode = true := by
  cases x <;> decide

/-- The list in the kernel has no other vectors. -/
lemma exists_of_mem_errorCodeVectors {vector : ℕ} (h : vector ∈ errorCodeVectors) :
    ∃ x : Exception, x.hasErrorCode = true ∧ x.vector.val = vector := by
  simp only [errorCodeVectors, List.mem_cons, List.not_mem_nil, or_false] at h
  rcases h with rfl | rfl | rfl | rfl | rfl | rfl | rfl | rfl | rfl | rfl
  exacts [⟨.doubleFault, rfl, rfl⟩, ⟨.invalidTss, rfl, rfl⟩, ⟨.segmentNotPresent, rfl, rfl⟩,
    ⟨.stackFault, rfl, rfl⟩, ⟨.generalProtection, rfl, rfl⟩, ⟨.pageFault, rfl, rfl⟩,
    ⟨.alignmentCheck, rfl, rfl⟩, ⟨.controlProtection, rfl, rfl⟩, ⟨.vmmCommunication, rfl, rfl⟩,
    ⟨.security, rfl, rfl⟩]

/-- An error code is pushed if and only if the stub expects one. -/
lemma Regular.isSome_iff {t : Trap} (h : t.Regular) :
    t.pushedErrorCode.isSome = true ↔ t.vector.val ∈ errorCodeVectors := by
  cases t with
  | exception x errorCode resume =>
    rw [vector, mem_errorCodeVectors_iff, pushedErrorCode]
    split_ifs with hcode <;> simp [hcode]
  | instruction vector =>
    refine iff_of_false (by simp [pushedErrorCode]) fun hmem => ?_
    obtain ⟨x, hcode, hx⟩ := exists_of_mem_errorCodeVectors hmem
    exact h x hcode (Fin.ext hx)

end Trap

/-! ## The code in front of the handler -/

/-- The frame at an address. -/
def exceptionFrameAt (memory : BitVec 64 → BitVec 64) (p : BitVec 64) : ExceptionFrame where
  vector := memory p
  errorCode := memory (p + 8)
  rip := memory (p + 16)
  cs := memory (p + 24)
  rflags := memory (p + 32)
  rsp := memory (p + 40)
  ss := memory (p + 48)

namespace Cpu

/-- The processor with the flags that it pushes. -/
def raising (c : Cpu) (t : Trap) : Cpu := { c with rflags := t.pushedFlags c.rflags }

/-- The processor when it calls `exception_handler`. -/
def atException (c : Cpu) (entry : Entry) (t : Trap) : Cpu :=
  exec id (isrStub t.vector ++ isrCommon) 0 ((c.raising t).deliver entry t.pushedErrorCode)

/-- All words below the place where the processor starts to push. -/
def exceptionWords (c : Cpu) (t : Trap) : List (BitVec 64) :=
  (c.raising t).interruptWords none ++ [t.pushedErrorCode.getD 0, .ofNat 64 t.vector]

/-- The frame of an exception. -/
def exceptionFrame (c : Cpu) (t : Trap) : ExceptionFrame where
  vector := .ofNat 64 t.vector
  errorCode := t.pushedErrorCode.getD 0
  rip := c.rip
  cs := c.cs.setWidth 64
  rflags := t.pushedFlags c.rflags
  rsp := c.rsp
  ss := c.ss.setWidth 64

lemma length_exceptionWords (c : Cpu) (t : Trap) : (c.exceptionWords t).length = 7 := rfl

/-- The stub pushes what the processor has not pushed. -/
lemma exec_isrStub (c : Cpu) {t : Trap} (ht : t.Regular) :
    ∃ words, (c.raising t).interruptWords t.pushedErrorCode ++ words = c.exceptionWords t ∧
      ∀ c' : Cpu, exec id (isrStub t.vector ++ isrCommon) 0 c' =
        exec id isrCommon 0 (c'.pushes words) := by
  cases hpushed : t.pushedErrorCode with
  | some errorCode =>
    have hmem : t.vector.val ∈ errorCodeVectors := ht.isSome_iff.mp (by rw [hpushed]; rfl)
    have hcode : isrStub t.vector = [.pushImmediate (.ofNat 64 t.vector)] := if_pos hmem
    refine ⟨[.ofNat 64 t.vector], ?_, fun c' => ?_⟩
    · rw [exceptionWords, hpushed]
      rfl
    · rw [hcode]
      rfl
  | none =>
    have hmem : t.vector.val ∉ errorCodeVectors := fun hmem => by
      have hsome := ht.isSome_iff.mpr hmem
      rw [hpushed] at hsome
      cases hsome
    have hcode : isrStub t.vector = [.pushImmediate 0, .pushImmediate (.ofNat 64 t.vector)] :=
      if_neg hmem
    refine ⟨[0] ++ [.ofNat 64 t.vector], ?_, fun c' => ?_⟩
    · rw [exceptionWords, hpushed]
      rfl
    · rw [hcode, pushes_append]
      rfl

/-- The processor when it calls the handler of an exception. -/
lemma exec_isr (c : Cpu) (entry : Entry) {t : Trap} (ht : t.Regular) :
    c.atException entry t =
      { (c.raising t).deliver entry t.pushedErrorCode with
        memory := pushWords c.memory entry.alignedStack (c.exceptionWords t)
        rsp := wordsBelow entry.alignedStack 7 &&& ~~~0xF#64
        registers := Function.update c.registers .rdi (wordsBelow entry.alignedStack 7) } := by
  obtain ⟨words, hwords, hstub⟩ := c.exec_isrStub ht
  have hcommon : ∀ c : Cpu, exec id isrCommon 0 c =
      { c with
        registers := Function.update c.registers .rdi c.rsp
        rsp := c.rsp &&& ~~~0xF#64 } := fun _ => rfl
  have hrsp : wordsBelow (wordsBelow entry.alignedStack
      ((c.raising t).interruptWords t.pushedErrorCode).length) words.length =
      wordsBelow entry.alignedStack 7 := by
    rw [← wordsBelow_add, ← List.length_append, hwords, length_exceptionWords]
  rw [atException, hstub, hcommon, ← hwords, pushWords_append]
  refine Cpu.ext ?_ rfl rfl rfl ?_ rfl rfl
  · simp only [registers_pushes, registers_deliver, rsp_pushes, rsp_deliver, hrsp]
    rfl
  · simp only [rsp_pushes, rsp_deliver, hrsp]

/-- The handler finds the frame. -/
lemma exceptionFrameAt_pushWords (c : Cpu) (p : BitVec 64) (t : Trap) :
    exceptionFrameAt (pushWords c.memory p (c.exceptionWords t)) (wordsBelow p 7) =
      c.exceptionFrame t := by
  have hwords : wordsAt (pushWords c.memory p (c.exceptionWords t)) (wordsBelow p 7) 7 =
      (c.exceptionWords t).reverse := by
    rw [← length_exceptionWords c t]
    exact wordsAt_pushWords (by rw [length_exceptionWords]; decide)
  have hword : ∀ i < 7, pushWords c.memory p (c.exceptionWords t)
      (wordsBelow p 7 + BitVec.ofNat 64 (8 * i)) = (c.exceptionWords t).reverse.getD i 0 :=
    fun i hi => by rw [← hwords, getD_wordsAt _ _ hi]
  have hfirst := hword 0 (by decide)
  rw [Nat.mul_zero, BitVec.add_zero] at hfirst
  exact ExceptionFrame.ext hfirst (hword 1 (by decide)) (hword 2 (by decide)) (hword 3 (by decide))
    (hword 4 (by decide)) (hword 5 (by decide)) (hword 6 (by decide))

end Cpu

/-! ## Every exception -/

/-- The privilege level in the frame is that of the processor. -/
lemma isUserFault_exceptionFrame (c : Cpu) (t : Trap) :
    isUserFault (c.exceptionFrame t) = decide (c.cpl = 3) := by
  have hbits : (c.cs.setWidth 64 &&& 3#64 = 3#64) ↔ c.cs.setWidth 2 = 3#2 := by
    have hcs : c.cs.toNat < 2 ^ 64 := c.cs.isLt.trans (by decide)
    rw [← BitVec.toNat_inj, ← BitVec.toNat_inj, BitVec.toNat_and, BitVec.toNat_setWidth,
      BitVec.toNat_setWidth, Nat.mod_eq_of_lt hcs]
    exact Eq.congr_left (Nat.and_two_pow_sub_one_eq_mod c.cs.toNat 2)
  rw [isUserFault, Bool.eq_iff_iff, beq_iff_eq, decide_eq_true_iff]
  exact hbits

/-- The stack that is reported for an exception. -/
def expectedKind (vector : ℕ) : StackKind :=
  if vector = istVectorDoubleFault then .doubleFault
  else if vector = istVectorNmi then .nmi
  else .other

/-- The pages of the two stacks lie one above the other. -/
lemma currentStackKind_eq {tssBase ist rsp0 : BitVec 64} (hend : ist.toNat + 8192 < 2 ^ 64)
    (r : BitVec 64) :
    currentStackKind (kernelDescriptors tssBase (ist + 4096#64) (ist + 8192#64) rsp0) r =
      if ist.toNat < r.toNat ∧ r.toNat ≤ ist.toNat + 4096 then .doubleFault
      else if ist.toNat + 4096 < r.toNat ∧ r.toNat ≤ ist.toNat + 8192 then .nmi
      else .other := by
  have htop : ∀ n : ℕ, 0 < n → n ≤ 8192 → ∀ top : BitVec 64, top.toNat = ist.toNat + n →
      (inPageBelow top r = true ↔ ist.toNat + n - 4096 < r.toNat ∧ r.toNat ≤ ist.toNat + n) := by
    intro n hpos hle top htop
    have hne : top ≠ 0 := by
      rintro rfl
      have hzero : (0 : BitVec 64).toNat = 0 := rfl
      omega
    simp only [inPageBelow, Bool.and_eq_true, bne_iff_ne, ne_eq, hne, not_false_iff, true_and,
      decide_eq_true_iff, htop]
    exact And.comm
  have hfirst := htop 4096 (by decide) (by decide) (ist + 4096#64) (by
    rw [BitVec.toNat_add, BitVec.toNat_ofNat]
    omega)
  have hsecond := htop 8192 (by decide) (by decide) (ist + 8192#64) (by
    rw [BitVec.toNat_add, BitVec.toNat_ofNat]
    omega)
  have htops : ∀ d : Descriptors, d.istTop istDoubleFault = d.tss.ist 0 ∧
      d.istTop istNmi = d.tss.ist 1 := fun _ => ⟨rfl, rfl⟩
  obtain ⟨hdouble, hnmi⟩ := htops (kernelDescriptors tssBase (ist + 4096#64) (ist + 8192#64) rsp0)
  have hist : (kernelDescriptors tssBase (ist + 4096#64) (ist + 8192#64) rsp0).tss.ist 0 =
      ist + 4096#64 ∧ (kernelDescriptors tssBase (ist + 4096#64) (ist + 8192#64) rsp0).tss.ist 1 =
      ist + 8192#64 := ⟨rfl, rfl⟩
  rw [Nat.add_sub_cancel] at hfirst
  rw [show ist.toNat + 8192 - 4096 = ist.toNat + 4096 by omega] at hsecond
  rw [currentStackKind, hdouble, hnmi, hist.1, hist.2]
  exact if_congr hfirst rfl (if_congr hsecond rfl rfl)

/-- The entry for an exception. -/
def exceptionEntry (stubs : Stubs) (ist rsp0 : BitVec 64) (c : Cpu) (vector : ℕ) : Entry where
  rip := stubs.isr vector
  cs := .ofNat 16 kernelCode
  stack :=
    if vector = istVectorDoubleFault then ist + 4096#64
    else if vector = istVectorNmi then ist + 8192#64
    else if c.cpl ≠ 0 then rsp0
    else c.rsp

/-- Where the tables lead for the vector of an exception. -/
lemma enter_exception (stubs : Stubs) (firmwareCode : BitVec 16) (tssBase ist rsp0 : BitVec 64)
    (c : Cpu) {cause : Cause} {vector : Fin 256} (hvector : vector.val < 32) :
    ((kernelDescriptors tssBase (ist + 4096#64) (ist + 8192#64) rsp0).tables
      (stubs.table firmwareCode)).enter cause c.cpl c.rsp vector =
        if cause = .software ∧ c.cpl ≠ 0 then .error (.generalProtection (8 * vector.val + 2))
        else .ok (exceptionEntry stubs ist rsp0 c vector) := by
  have hstub : stubs.stub vector = some (stubs.isr vector) := if_pos hvector
  have hsyscall : vector.val ≠ syscallVector := by
    rw [syscallVector]
    omega
  rw [enter_table, expectedEntry, hstub]
  by_cases hsoftware : cause = .software ∧ c.cpl ≠ 0
  · have hcode : vectorErrorCode cause vector = 8 * vector.val + 2 := by
      rw [vectorErrorCode, hsoftware.1]
      rfl
    rw [if_pos hsoftware, ← hcode]
    exact if_pos ⟨hsoftware.1, hsoftware.2, hsyscall⟩
  · rw [if_neg hsoftware]
    exact if_neg fun h => hsoftware ⟨h.1, h.2.1⟩

/-- The stack of an exception other than these two is not one of their pages. -/
def StackApart (ist : BitVec 64) (entry : Entry) (vector : ℕ) : Prop :=
  vector ≠ istVectorDoubleFault → vector ≠ istVectorNmi →
    entry.alignedStack.toNat ≤ ist.toNat ∨ ist.toNat + 12288 ≤ entry.alignedStack.toNat

instance (ist : BitVec 64) (entry : Entry) (vector : ℕ) : Decidable (StackApart ist entry vector) :=
  inferInstanceAs (Decidable (_ → _ → _))

/-- Within a page of the place where the processor starts to push, the right stack is reported. -/
lemma currentStackKind_entry {tssBase ist rsp0 : BitVec 64} (hend : ist.toNat + 8192 < 2 ^ 64)
    (haligned : ist.toNat % 4096 = 0) {stubs : Stubs} {c : Cpu} {vector : ℕ} {r : BitVec 64}
    (hr : r.toNat ≤ (exceptionEntry stubs ist rsp0 c vector).alignedStack.toNat)
    (hpage : (exceptionEntry stubs ist rsp0 c vector).alignedStack.toNat - 4096 < r.toNat)
    (hapart : StackApart ist (exceptionEntry stubs ist rsp0 c vector) vector) :
    currentStackKind (kernelDescriptors tssBase (ist + 4096#64) (ist + 8192#64) rsp0) r =
      expectedKind vector := by
  have htop : ∀ n < 2, (ist + BitVec.ofNat 64 (4096 * (n + 1))).toNat =
      ist.toNat + 4096 * (n + 1) := fun n hn => by
    rw [BitVec.toNat_add, BitVec.toNat_ofNat]
    omega
  rw [currentStackKind_eq hend, expectedKind]
  by_cases hdouble : vector = istVectorDoubleFault
  · have hstack : (exceptionEntry stubs ist rsp0 c vector).stack = ist + 4096#64 := if_pos hdouble
    rw [Entry.toNat_alignedStack, hstack, htop 0 (by decide)] at hr hpage
    rw [if_pos hdouble, if_pos ⟨by omega, by omega⟩]
  · by_cases hnmi : vector = istVectorNmi
    · have hstack : (exceptionEntry stubs ist rsp0 c vector).stack = ist + 8192#64 :=
        (if_neg hdouble).trans (if_pos hnmi)
      rw [Entry.toNat_alignedStack, hstack, htop 1 (by decide)] at hr hpage
      rw [if_neg hdouble, if_pos hnmi, if_neg (by omega), if_pos ⟨by omega, by omega⟩]
    · have houtside := hapart hdouble hnmi
      rw [if_neg hdouble, if_neg hnmi, if_neg (by omega), if_neg (by omega)]

/-- **Exceptions.**  The kernel has installed its tables, with two pages from `ist` on as the stacks
for double faults and for the non-maskable interrupt.  Whatever the processor does, an exception
leads to its stub, and so does an instruction `int` of the kernel with such a vector; in user mode
the instruction is a general protection fault instead.  If there is room on the stack, the handler
is called with interrupts disabled and with an aligned stack, and it finds the vector, the error
code, or 0 if there is none, and the registers of the processor.  As long as the handler has used
less than a page, its report names the right stack.  The exit value is the one for user mode if and
only if the processor was in user mode. -/
theorem exception_report_exact (stubs : Stubs) (firmwareCode : BitVec 16)
    (tssBase ist rsp0 : BitVec 64) (hend : ist.toNat + 8192 < 2 ^ 64)
    (haligned : ist.toNat % 4096 = 0) :
    let d := kernelDescriptors tssBase (ist + 4096#64) (ist + 8192#64) rsp0
    ∃ idt₁ idt, Idt.new.install stubs firmwareCode = .ok idt₁ ∧
      idt₁.install stubs (.ofNat 16 kernelCode) = .ok idt ∧
      ∀ (c : Cpu) (t : Trap), t.vector.val < 32 →
        let entry := exceptionEntry stubs ist rsp0 c t.vector
        let c₁ := c.atException entry t
        (d.tables idt).enter t.cause c.cpl c.rsp t.vector =
          (if t.cause = .software ∧ c.cpl ≠ 0 then
            .error (.generalProtection (8 * t.vector.val + 2)) else .ok entry) ∧
        (t.Regular → 64 ≤ entry.alignedStack.toNat →
          c₁.rsp.toNat = entry.alignedStack.toNat - 64 ∧ c₁.rsp.toNat % 16 = 0 ∧
          c₁.interruptFlag = false ∧
          ∀ r cr2 : BitVec 64, r.toNat ≤ c₁.rsp.toNat →
            entry.alignedStack.toNat - 4096 < r.toNat → StackApart ist entry t.vector →
            exceptionHandler d r cr2 (exceptionFrameAt c₁.memory (c₁.registers .rdi)) =
              (exceptionReport (c.exceptionFrame t) (expectedKind t.vector) cr2,
                if c.cpl = 3 then exitValueUserFailure else exitValueKernelFault)) := by
  intro d
  refine ⟨_, stubs.table firmwareCode, Idt.install_eq _ _ _, Idt.install_eq _ _ _,
    fun c t hvector => ?_⟩
  intro entry c₁
  refine ⟨enter_exception stubs firmwareCode tssBase ist rsp0 c hvector, fun ht hroom => ?_⟩
  have hc₁ : c₁ = _ := c.exec_isr entry ht
  have hrsp : c₁.rsp.toNat = entry.alignedStack.toNat - 64 := by
    have hbelow : (wordsBelow entry.alignedStack 7).toNat = entry.alignedStack.toNat - 56 :=
      toNat_wordsBelow (by omega)
    have hmod := entry.alignedStack_mod
    have hand : c₁.rsp.toNat = (wordsBelow entry.alignedStack 7).toNat &&& notWord (2 ^ 4 - 1) := by
      rw [hc₁, BitVec.toNat_and]
      rfl
    rw [hand, and_notWord_two_pow_sub_one (by decide) (wordsBelow _ _).isLt, hbelow]
    omega
  refine ⟨hrsp, ?_, ?_, fun r cr2 hr hpage hapart => ?_⟩
  · have hmod := entry.alignedStack_mod
    omega
  · rw [hc₁]
    simp [Cpu.interruptFlag, Cpu.deliver]
  · have hframe : exceptionFrameAt c₁.memory (c₁.registers .rdi) = c.exceptionFrame t := by
      rw [hc₁]
      exact c.exceptionFrameAt_pushWords _ t
    rw [hframe, exceptionHandler, isUserFault_exceptionFrame,
      currentStackKind_entry hend haligned (hr.trans (hrsp.trans_le (Nat.sub_le _ _)))
        hpage hapart]
    simp only [decide_eq_true_iff]

/-- A page fault in user mode, with its error code and with RF set in the flags. -/
theorem exception_report_exact_user_page_fault :
    let stubs : Stubs := ⟨fun v => .ofNat 64 (0x1000 + 16 * v), fun _ => 0x2000, 1, 2, 3⟩
    let c : Cpu := ⟨fun _ => 7, 0x400000, 0x2B, 0x202, 0x7FF8, 0x33, fun _ => 0⟩
    let d := kernelDescriptors 0x3000 (0x10000 + 4096#64) (0x10000 + 8192#64) 0x9008
    let c₁ :=
      c.atException (exceptionEntry stubs 0x10000 0x9008 c 14) (.exception .pageFault 5 true)
    exceptionHandler d 0x8F00 0x1234 (exceptionFrameAt c₁.memory (c₁.registers .rdi)) =
      (exceptionReport ⟨14, 5, 0x400000, 0x2B, 0x10202, 0x7FF8, 0x33⟩ .other 0x1234,
        exitValueUserFailure) := by
  intro stubs c d c₁
  obtain ⟨-, idt, -, -, hall⟩ :=
    exception_report_exact stubs 0x38 0x3000 0x10000 0x9008 (by decide) (by decide)
  obtain ⟨-, hreport⟩ := hall c (.exception .pageFault 5 true) (by decide)
  obtain ⟨hrsp, -, -, hreport⟩ := hreport trivial (by decide)
  have hframe : c.exceptionFrame (.exception .pageFault 5 true) =
      ⟨14, 5, 0x400000, 0x2B, 0x10202, 0x7FF8, 0x33⟩ := by decide
  have hkind : expectedKind (Trap.exception .pageFault 5 true).vector = .other := by decide
  have hcpl : c.cpl = 3 := by decide
  have heq := hreport 0x8F00 0x1234 (by rw [hrsp]; decide) (by decide) (by decide)
  rw [hframe, hkind, if_pos hcpl] at heq
  exact heq

end Kernel

end ParanukOS
