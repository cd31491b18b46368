import Mathlib.Tactic
import ParanukOS.Foundation.Words
import ParanukOS.Kernel.Interrupt.Entry

/-!
# What the code around a handler does

The words that the processor, a stub and `irq_common` push are the fields of an `IrqFrame` in the
order of their addresses, and the rest of `irq_common` loads such a frame.
-/

namespace ParanukOS

open Foundation

namespace Kernel

namespace Cpu

variable {handler : Cpu → Cpu} {c : Cpu}

/-! ## Pushes -/

@[simp] lemma memory_pushes (c : Cpu) (ws : List (BitVec 64)) :
    (c.pushes ws).memory = pushWords c.memory c.rsp ws := rfl

@[simp] lemma rsp_pushes (c : Cpu) (ws : List (BitVec 64)) :
    (c.pushes ws).rsp = wordsBelow c.rsp ws.length := rfl

@[simp] lemma registers_pushes (c : Cpu) (ws : List (BitVec 64)) :
    (c.pushes ws).registers = c.registers := rfl

lemma memory_deliver (c : Cpu) (entry : Entry) (errorCode : Option (BitVec 64)) :
    (c.deliver entry errorCode).memory =
      pushWords c.memory entry.alignedStack (c.interruptWords errorCode) := rfl

lemma rsp_deliver (c : Cpu) (entry : Entry) (errorCode : Option (BitVec 64)) :
    (c.deliver entry errorCode).rsp =
      wordsBelow entry.alignedStack (c.interruptWords errorCode).length := rfl

@[simp] lemma registers_deliver (c : Cpu) (entry : Entry) (errorCode : Option (BitVec 64)) :
    (c.deliver entry errorCode).registers = c.registers := rfl

lemma pushes_append (c : Cpu) (ws ws' : List (BitVec 64)) :
    c.pushes (ws ++ ws') = (c.pushes ws).pushes ws' := by
  simp only [pushes, pushWords_append, List.length_append, wordsBelow_add]

/-- A list of `push` instructions. -/
lemma exec_push (regs : List Register) (code : List Instruction) (c : Cpu) :
    exec handler (regs.map .push ++ code) 0 c =
      exec handler code 0 (c.pushes (regs.map c.registers)) := by
  induction regs generalizing c with
  | nil => rw [List.map_nil, List.nil_append, List.map_nil, pushes, List.length_nil,
      wordsBelow_zero, pushWords]
  | cons r regs ih =>
    have hsplit : c.pushes (c.registers r :: regs.map c.registers) =
        (c.pushes [c.registers r]).pushes (regs.map c.registers) := pushes_append c [_] _
    rw [List.map_cons, List.cons_append, exec, ih, List.map_cons, hsplit]
    · rfl
    · intro count hcon
      cases hcon

/-! ## Pops -/

/-- Pop some registers, the first one first. -/
def pops (c : Cpu) : List Register → Cpu
  | [] => c
  | r :: regs => ({ c with
      registers := Function.update c.registers r (c.memory c.rsp)
      rsp := c.rsp + 8 } : Cpu).pops regs

/-- A list of `pop` instructions. -/
lemma exec_pop (regs : List Register) (code : List Instruction) (c : Cpu) :
    exec handler (regs.map .pop ++ code) 0 c = exec handler code 0 (c.pops regs) := by
  induction regs generalizing c with
  | nil => rfl
  | cons r regs ih =>
    rw [List.map_cons, List.cons_append, exec, ih]
    · rfl
    · intro count hcon
      cases hcon

@[simp] lemma memory_pops (c : Cpu) (regs : List Register) : (c.pops regs).memory = c.memory := by
  induction regs generalizing c with
  | nil => rfl
  | cons r regs ih => rw [pops, ih]

lemma rsp_pops (c : Cpu) (regs : List Register) :
    (c.pops regs).rsp = c.rsp + BitVec.ofNat 64 (8 * regs.length) := by
  induction regs generalizing c with
  | nil => simp [pops]
  | cons r regs ih =>
    rw [pops, ih, List.length_cons, Nat.mul_succ, Nat.add_comm (8 * _), BitVec.ofNat_add,
      BitVec.add_assoc]
    rfl

lemma registers_pops_of_notMem (c : Cpu) {regs : List Register} {r : Register} (h : r ∉ regs) :
    (c.pops regs).registers r = c.registers r := by
  induction regs generalizing c with
  | nil => rfl
  | cons r' regs ih =>
    obtain ⟨hne, hmem⟩ := not_or.mp (mt List.mem_cons.mpr h)
    rw [pops, ih _ hmem]
    exact Function.update_of_ne hne _ _

/-- Each register gets its word. -/
lemma registers_pops (c : Cpu) {regs : List Register} (hnodup : regs.Nodup) {i : ℕ} {r : Register}
    (hr : regs[i]? = some r) :
    (c.pops regs).registers r = c.memory (c.rsp + BitVec.ofNat 64 (8 * i)) := by
  induction regs generalizing c i with
  | nil => cases hr
  | cons r' regs ih =>
    obtain ⟨hmem, hnodup⟩ := List.nodup_cons.mp hnodup
    cases i with
    | zero =>
      obtain rfl : r' = r := by simpa using hr
      rw [pops, registers_pops_of_notMem _ hmem]
      simp
    | succ i =>
      rw [pops, ih _ hnodup (by simpa using hr), Nat.mul_succ, Nat.add_comm (8 * i),
        BitVec.ofNat_add, ← BitVec.add_assoc]
      rfl

/-! ## The frame is loaded -/

/-- A word of a frame in memory, as a word again. -/
lemma ofNat_word (memory : BitVec 64 → BitVec 64) (p : BitVec 64) {i : ℕ} (h : i < 22) :
    BitVec.ofNat 64 ((wordsAt memory p 22).getD i 0).toNat =
      memory (p + BitVec.ofNat 64 (8 * i)) := by
  rw [BitVec.ofNat_toNat, BitVec.setWidth_eq, getD_wordsAt memory p h]

/-- The general registers of a frame in memory. -/
lemma registers_resume (c : Cpu) (memory : BitVec 64 → BitVec 64) (p : BitVec 64) {i : ℕ}
    {r : Register} (hr : savedRegisters.reverse[i]? = some r) :
    (c.resume (frameAt memory p)).registers r = memory (p + BitVec.ofNat 64 (8 * i)) := by
  have hi : i < 15 := (List.getElem?_eq_some_iff.mp hr).1
  interval_cases i <;> cases hr <;> exact ofNat_word memory p (by decide)

/-- `iretq` loads the five words above the registers, the vector and the error code. -/
lemma iretq_eq (c : Cpu) {p : BitVec 64} (hrsp : c.rsp = p + BitVec.ofNat 64 (8 * 15))
    (hregisters : ∀ r, c.registers r = (c.resume (frameAt c.memory p)).registers r) :
    ({ c with rsp := c.rsp + 16 } : Cpu).iretq = c.resume (frameAt c.memory p) := by
  have hword : ∀ i : ℕ, i < 5 → c.memory (c.rsp + 16 + BitVec.ofNat 64 (8 * i)) =
      BitVec.ofNat 64 ((wordsAt c.memory p 22).getD (17 + i) 0).toNat := by
    intro i hi
    have hsum : BitVec.ofNat 64 (8 * 15) + (16 + BitVec.ofNat 64 (8 * i)) =
        BitVec.ofNat 64 (8 * (17 + i)) := by
      rw [show (16 : BitVec 64) = BitVec.ofNat 64 16 from rfl, ← BitVec.ofNat_add,
        ← BitVec.ofNat_add]
      congr 1
      omega
    rw [ofNat_word c.memory p (by omega), hrsp, BitVec.add_assoc, BitVec.add_assoc, hsum]
  refine Cpu.ext (funext hregisters) ?_ ?_ (hword 2 (by decide)) (hword 3 (by decide)) ?_ rfl
  · have h := hword 0 (by decide)
    rwa [Nat.mul_zero, BitVec.add_zero] at h
  · exact (congrArg (BitVec.setWidth 16) (hword 1 (by decide))).trans
      (by simp [resume, frameAt, frameOfWords])
  · exact (congrArg (BitVec.setWidth 16) (hword 4 (by decide))).trans
      (by simp [resume, frameAt, frameOfWords])

/-- The registers are popped, and `iretq` loads the others. -/
lemma exec_load (c : Cpu) :
    exec handler (savedRegisters.reverse.map .pop ++ [.addRsp 16, .iretq]) 0 c =
      c.resume (frameAt c.memory c.rsp) := by
  have hmem : ∀ r, r ∈ savedRegisters.reverse := by
    intro r
    cases r <;> decide
  have hiretq := iretq_eq (c.pops savedRegisters.reverse) (rsp_pops c savedRegisters.reverse)
    fun r => by
      obtain ⟨i, hi⟩ := List.getElem?_of_mem (hmem r)
      rw [c.registers_pops (by decide) hi, registers_resume _ _ _ hi, memory_pops]
  rw [exec_pop]
  refine hiretq.trans ?_
  rw [memory_pops]
  rfl

/-- The rest of `irq_common`: the frame that was interrupted is loaded, or the one in `rax`. -/
lemma exec_irqRestore (c : Cpu) : exec handler irqRestore 0 c =
    c.resume (frameAt c.memory (if c.registers .rax = 0 then c.rsp else c.registers .rax)) := by
  have hcode : irqRestore = .testRax :: .jz 1 :: .movRspRax ::
      (savedRegisters.reverse.map .pop ++ [.addRsp 16, .iretq]) := rfl
  by_cases hrax : c.registers .rax = 0
  · have hstep : c.step handler .testRax = { c with rflags := c.rflags ||| 0x40#64 } := by
      rw [step, if_pos hrax]
    have hflag : ({ c with rflags := c.rflags ||| 0x40#64 } : Cpu).zeroFlag = true := by
      simp [zeroFlag]
    rw [hcode, exec, hstep, exec, hflag, if_pos rfl, exec, exec_load, if_pos hrax]
    · rfl
    · intro count hcon
      cases hcon
  · have hstep : c.step handler .testRax = { c with rflags := c.rflags &&& ~~~0x40#64 } := by
      rw [step, if_neg hrax]
    have hflag : ({ c with rflags := c.rflags &&& ~~~0x40#64 } : Cpu).zeroFlag = false := by
      simp [zeroFlag]
    rw [hcode, exec, hstep, exec, hflag, if_neg Bool.false_ne_true, exec, exec_load, if_neg hrax]
    · rfl
    · intro count hcon
      cases hcon
    · intro count hcon
      cases hcon

/-! ## The frame is saved -/

/-- What a stub and `irq_common` push. -/
def stubWords (c : Cpu) (vector : ℕ) : List (BitVec 64) :=
  0 :: BitVec.ofNat 64 vector :: savedRegisters.map c.registers

/-- All words below the place where the processor starts to push. -/
def frameWords (c : Cpu) (vector : ℕ) : List (BitVec 64) :=
  c.interruptWords none ++ c.stubWords vector

lemma length_frameWords (c : Cpu) (vector : ℕ) : (c.frameWords vector).length = 22 := rfl

/-- The processor when it calls the handler of an interrupt. -/
lemma exec_irqSave (c : Cpu) (entry : Entry) (vector : ℕ) :
    exec handler (irqStub vector ++ irqSave) 0 (c.deliver entry none) =
      { c.deliver entry none with
        memory := pushWords c.memory entry.alignedStack (c.frameWords vector)
        rsp := wordsBelow entry.alignedStack 22
        registers := Function.update c.registers .rdi (wordsBelow entry.alignedStack 22) } := by
  have hstub : ∀ c : Cpu, exec handler (irqStub vector ++ irqSave) 0 c =
      exec handler (savedRegisters.map .push ++ [.movRdiRsp]) 0
        ((c.pushes [0]).pushes [.ofNat 64 vector]) := fun _ => rfl
  have hmov : ∀ c : Cpu, exec handler [.movRdiRsp] 0 c =
      { c with registers := Function.update c.registers .rdi c.rsp } := fun _ => rfl
  have hwords : [0] ++ ([BitVec.ofNat 64 vector] ++ savedRegisters.map c.registers) =
      c.stubWords vector := rfl
  have hrsp : wordsBelow (wordsBelow entry.alignedStack (c.interruptWords none).length)
      (c.stubWords vector).length = wordsBelow entry.alignedStack 22 :=
    (wordsBelow_add _ _ _).symm
  rw [hstub, exec_push, ← pushes_append]
  simp only [registers_pushes, registers_deliver]
  rw [← pushes_append, hwords, hmov]
  refine Cpu.ext ?_ rfl rfl rfl ?_ rfl ?_
  · simp only [registers_pushes, registers_deliver, rsp_pushes, rsp_deliver, hrsp]
  · simp only [rsp_pushes, rsp_deliver, hrsp]
  · simp only [memory_pushes, memory_deliver, rsp_deliver]
    rw [frameWords, pushWords_append]

/-- The words below the place where the processor starts to push are the registers. -/
lemma frameAt_pushWords (c : Cpu) (p : BitVec 64) (vector : Fin 256) :
    frameAt (pushWords c.memory p (c.frameWords vector)) (wordsBelow p 22) = c.saved vector := by
  have hwords : wordsAt (pushWords c.memory p (c.frameWords vector)) (wordsBelow p 22) 22 =
      (c.frameWords vector).reverse := by
    rw [← length_frameWords c vector]
    exact wordsAt_pushWords (by rw [length_frameWords]; decide)
  have hvector : vector.val % 18446744073709551616 = vector.val := Nat.mod_eq_of_lt (by omega)
  have hcs : c.cs.toNat < 18446744073709551616 := c.cs.isLt.trans (by decide)
  have hss : c.ss.toNat < 18446744073709551616 := c.ss.isLt.trans (by decide)
  rw [frameAt, hwords]
  simp [frameOfWords, frameWords, stubWords, interruptWords, savedRegisters, saved, hvector, hcs,
    hss]

/-- A frame with the registers of the processor. -/
lemma resume_saved (c c' : Cpu) (vector : ℕ) :
    c'.resume (c.saved vector) = { c with memory := c'.memory } := by
  refine Cpu.ext (funext fun r => ?_) ?_ ?_ ?_ ?_ ?_ rfl
  · cases r <;> simp [resume, saved]
  all_goals simp [resume, saved]

/-! ## The whole path -/

/-- Code without jumps in front of other code. -/
lemma exec_append {code : List Instruction} (h : ∀ i ∈ code, ∀ count, i ≠ .jz count)
    (code' : List Instruction) (c : Cpu) :
    exec handler (code ++ code') 0 c = exec handler code' 0 (exec handler code 0 c) := by
  induction code generalizing c with
  | nil => rfl
  | cons i code ih =>
    have hi := h i List.mem_cons_self
    rw [List.cons_append, exec, exec, ih fun j hj => h j (List.mem_cons_of_mem _ hj)]
    · exact hi
    · exact hi

/-- An interrupt from its arrival to `iretq`. -/
def irqPath (handler : Cpu → Cpu) (c : Cpu) (entry : Entry) (vector : ℕ) : Cpu :=
  exec handler (irqStub vector ++ irqSave ++ .callHandler :: irqRestore) 0 (c.deliver entry none)

/-- The processor when it calls the handler. -/
def atHandler (handler : Cpu → Cpu) (c : Cpu) (entry : Entry) (vector : ℕ) : Cpu :=
  exec handler (irqStub vector ++ irqSave) 0 (c.deliver entry none)

/-- The path consists of three parts. -/
lemma irqPath_eq (handler : Cpu → Cpu) (c : Cpu) (entry : Entry) (vector : ℕ) :
    c.irqPath handler entry vector =
      exec handler irqRestore 0 (handler (c.atHandler handler entry vector)) := by
  have hjumps : ∀ i ∈ irqStub vector ++ irqSave, ∀ count, i ≠ .jz count := by
    intro i hi count hcon
    subst hcon
    simp [irqStub, irqSave] at hi
  rw [irqPath, exec_append hjumps, exec]
  · rfl
  · intro count hcon
    cases hcon

end Cpu

/-! ## Frames in memory -/

/-- The words in memory have the frames that the memory of frames says. -/
def Represents (frames : FrameMemory) (memory : BitVec 64 → BitVec 64) : Prop :=
  ∀ address saved, frames address = some saved →
    address + irqFrameSize ≤ 2 ^ 64 ∧ frameAt memory (.ofNat 64 address) = saved.frame

/-- The place where the processor starts to push. -/
lemma Entry.toNat_alignedStack (entry : Entry) :
    entry.alignedStack.toNat = entry.stack.toNat / 16 * 16 := by
  have h : entry.alignedStack.toNat = entry.stack.toNat &&& notWord (2 ^ 4 - 1) := by
    rw [alignedStack, BitVec.toNat_and]
    rfl
  exact h.trans (and_notWord_two_pow_sub_one (by decide) entry.stack.isLt)

lemma Entry.alignedStack_mod (entry : Entry) : entry.alignedStack.toNat % 16 = 0 := by
  rw [entry.toNat_alignedStack]
  exact Nat.mul_mod_left _ _

/-- The address of some words below another one. -/
lemma toNat_wordsBelow {p : BitVec 64} {n : ℕ} (h : 8 * n ≤ p.toNat) :
    (wordsBelow p n).toNat = p.toNat - 8 * n := by
  have hlt : 8 * n < 2 ^ 64 := lt_of_le_of_lt h p.isLt
  rw [wordsBelow, BitVec.toNat_sub_of_le, BitVec.toNat_ofNat, Nat.mod_eq_of_lt hlt]
  rw [BitVec.le_def, BitVec.toNat_ofNat, Nat.mod_eq_of_lt hlt]
  exact h

/-- Pushing a frame stores it. -/
lemma Represents.store {frames : FrameMemory} {memory : BitVec 64 → BitVec 64}
    (h : Represents frames memory) {p : BitVec 64} (hroom : irqFrameSize ≤ p.toNat)
    {words : List (BitVec 64)} (hlen : words.length = 22) {saved : SavedFrame}
    (hsaved : frameAt (pushWords memory p words) (wordsBelow p 22) = saved.frame) :
    Represents (frames.store (p.toNat - irqFrameSize) saved) (pushWords memory p words) := by
  have hp : (wordsBelow p 22).toNat = p.toNat - irqFrameSize := toNat_wordsBelow hroom
  have hsize : irqFrameSize = 176 := rfl
  intro address saved' heq
  rw [FrameMemory.store] at heq
  split_ifs at heq with hself hoverlap
  · obtain rfl := Option.some.inj heq
    rw [hself, ← hp, BitVec.ofNat_toNat, BitVec.setWidth_eq]
    have := p.isLt
    exact ⟨by omega, hsaved⟩
  · obtain ⟨hbound, hframe⟩ := h address saved' heq
    refine ⟨hbound, ?_⟩
    rw [frameAt, wordsAt_congr fun i hi => ?_, ← frameAt, hframe]
    refine pushWords_of_ne fun j hj hcon => hoverlap ?_
    -- a word of the frame that is also a word of the other one
    have hj' : 8 * (j + 1) ≤ p.toNat := by omega
    have hnat := congrArg BitVec.toNat hcon
    rw [toNat_wordsBelow hj', BitVec.toNat_add, BitVec.toNat_ofNat, BitVec.toNat_ofNat,
      Nat.mod_eq_of_lt (show address < 2 ^ 64 by omega),
      Nat.mod_eq_of_lt (show 8 * i < 2 ^ 64 by omega), Nat.mod_eq_of_lt (by omega)] at hnat
    omega

/-- **The path of an interrupt.**  The words in memory represent some saved frames, and there is
room for another one where the processor starts to push.  When the handler is called, the words
represent the frames with the registers of the processor stored as one more; the handler gets its
address, the stack is aligned for the call, and interrupts are disabled.  If the handler leaves the
stack pointer as it is, the processor afterwards has the registers of the frame that was
interrupted, or of the frame at the address that the handler returns; if a processor in some state
has saved this frame earlier, all registers are those of that state again. -/
theorem irq_path_refines (frames : FrameMemory) (handler : Cpu → Cpu) (c : Cpu) (entry : Entry)
    (vector : Fin 256) (id : ℕ) (hroom : irqFrameSize ≤ entry.alignedStack.toNat)
    (hframes : Represents frames c.memory) :
    let address := entry.alignedStack.toNat - irqFrameSize
    let c₁ := c.atHandler handler entry vector
    let c₂ := handler c₁
    (c₁.rsp.toNat = address ∧ c₁.registers .rdi = c₁.rsp ∧ address % 16 = 0 ∧
      c₁.interruptFlag = false ∧
      Represents (frames.store address ⟨id, c.saved vector⟩) c₁.memory) ∧
    (c₂.rsp = c₁.rsp → ∀ frames' next frame, Represents frames' c₂.memory →
      frames' (if c₂.registers .rax = 0 then address else (c₂.registers .rax).toNat) =
        some ⟨next, frame⟩ →
      c.irqPath handler entry vector = c₂.resume frame ∧
      ∀ (c' : Cpu) (vector' : ℕ), frame = c'.saved vector' →
        c.irqPath handler entry vector = { c' with memory := c₂.memory }) := by
  intro address c₁ c₂
  have hc₁ : c₁ = _ := @Cpu.exec_irqSave handler c entry vector
  have hrsp : c₁.rsp = wordsBelow entry.alignedStack 22 := by rw [hc₁]
  have haddress : c₁.rsp.toNat = address := by
    rw [hrsp, toNat_wordsBelow hroom]
    rfl
  constructor
  · refine ⟨haddress, ?_, ?_, ?_, ?_⟩
    · rw [hc₁]
      exact Function.update_self Register.rdi _ c.registers
    · have hmod := entry.alignedStack_mod
      have hsize : irqFrameSize = 176 := rfl
      omega
    · rw [hc₁]
      simp [Cpu.interruptFlag, Cpu.deliver]
    · rw [hc₁]
      exact hframes.store hroom (c.length_frameWords vector) (c.frameAt_pushWords _ vector)
  · intro hkept frames' next frame hframes' hnext
    have hpath : c.irqPath handler entry vector = c₂.resume frame := by
      rw [Cpu.irqPath_eq, Cpu.exec_irqRestore]
      -- the word that `irq_common` takes as the stack is the address of the frame
      have hword : (if c₂.registers .rax = 0 then c₂.rsp else c₂.registers .rax) =
          .ofNat 64 (if c₂.registers .rax = 0 then address else (c₂.registers .rax).toNat) := by
        split_ifs
        · rw [hkept, ← haddress, BitVec.ofNat_toNat, BitVec.setWidth_eq]
        · rw [BitVec.ofNat_toNat, BitVec.setWidth_eq]
      have hframe := (hframes' _ _ hnext).2
      rw [← hword] at hframe
      exact congrArg c₂.resume hframe
    refine ⟨hpath, fun c' vector' hframe => ?_⟩
    rw [hpath, hframe, Cpu.resume_saved]

/-- A tick interrupts a user thread, and a later one interrupts another thread.  The handler returns
the address of the first frame, and the processor goes on with the first thread, whose registers are
those of the moment when it was interrupted. -/
theorem irq_path_refines_switch :
    let first : Cpu := ⟨fun _ => 7, 0x400000, 0x33, 0x202, 0x7FF8, 0x2B, fun _ => 0⟩
    let handler (c : Cpu) : Cpu := { c with registers := Function.update c.registers .rax 0x8F50 }
    let vector : Fin 256 := 0x20
    let interrupted := first.atHandler handler ⟨0x1000, 0x08, 0x9008⟩ vector
    let second : Cpu := ⟨fun _ => 9, 0x401000, 0x33, 0x202, 0x6FF8, 0x2B, interrupted.memory⟩
    let entry : Entry := ⟨0x1000, 0x08, 0xA008⟩
    irqFrameSize ≤ entry.alignedStack.toNat ∧
      Represents (FrameMemory.store (fun _ => none) 0x8F50 ⟨0, first.saved vector⟩)
        second.memory ∧
      second.irqPath handler entry vector =
        { first with memory := (handler (second.atHandler handler entry vector)).memory } := by
  intro first handler vector interrupted second entry
  have hroom : irqFrameSize ≤ entry.alignedStack.toNat := by decide
  have hrsp : ∀ c, (handler c).rsp = c.rsp := fun _ => rfl
  have hmemory : ∀ c, (handler c).memory = c.memory := fun _ => rfl
  have hrax : ∀ c, (handler c).registers .rax = 0x8F50 := fun _ => rfl
  obtain ⟨⟨-, -, -, -, hfirst⟩, -⟩ := irq_path_refines (fun _ => none) handler first
    ⟨0x1000, 0x08, 0x9008⟩ vector 0 (by decide) fun _ _ h => by cases h
  rw [show (Entry.mk 0x1000 0x08 0x9008).alignedStack.toNat - irqFrameSize = 0x8F50 by decide]
    at hfirst
  have hkept : second.memory = interrupted.memory := by dsimp only [second]
  rw [← hkept] at hfirst
  obtain ⟨⟨-, -, -, -, hsecond⟩, hpath⟩ :=
    irq_path_refines _ handler second entry vector 1 hroom hfirst
  rw [← hmemory] at hsecond
  refine ⟨hroom, hfirst, (hpath (hrsp _) _ 0 (first.saved vector) hsecond ?_).2 first vector rfl⟩
  rw [if_neg (by rw [hrax]; decide), hrax,
    show entry.alignedStack.toNat - irqFrameSize = 0x9F50 by decide]
  rfl

end Kernel

end ParanukOS
