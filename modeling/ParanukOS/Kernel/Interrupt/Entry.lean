import ParanukOS.Foundation.Stack
import ParanukOS.Kernel.Interrupt.Tables

/-!
# The code around a handler

The embedding of the assembly in `kernel/src/idt.rs`: the stubs, `irq_common` and `isr_common`, one
instruction after the other, on a processor with registers and a memory of words.  The handler is a
parameter, and so is the place where the processor starts to push; `Tables.enter` gives it.

The stack pointer is rounded to a multiple of 16 before the processor pushes, so that all words lie
at multiples of 8.  Of the flags that `test` changes only the zero flag is there.

## Outline

* `Register`, `Cpu`, `Cpu.deliver`: the processor.
* `Instruction`, `Cpu.step`, `Cpu.exec`: code.
* `irqStub`, `irqSave`, `irqRestore`, `isrStub`, `isrCommon`: the code of `idt.rs`.
* `Cpu.saved`, `Cpu.resume`, `frameAt`: registers and frames.
-/

namespace ParanukOS

open Foundation

namespace Kernel

/-! ## The processor -/

/-- The general registers, without the stack pointer. -/
inductive Register where
  | rax | rcx | rdx | rbx | rbp | rsi | rdi | r8 | r9 | r10 | r11 | r12 | r13 | r14 | r15
  deriving DecidableEq, Repr

/-- The state of the processor, with the words in memory. -/
@[ext] structure Cpu where
  registers : Register → BitVec 64
  rip : BitVec 64
  cs : BitVec 16
  rflags : BitVec 64
  rsp : BitVec 64
  ss : BitVec 16
  memory : BitVec 64 → BitVec 64

/-- The place where the processor starts to push: a multiple of 16. -/
def Entry.alignedStack (entry : Entry) : BitVec 64 := entry.stack &&& ~~~0xF#64

namespace Cpu

/-- The privilege level. -/
def cpl (c : Cpu) : BitVec 2 := c.cs.setWidth 2

/-- The interrupt flag. -/
def interruptFlag (c : Cpu) : Bool := c.rflags.getLsbD 9

/-- The zero flag. -/
def zeroFlag (c : Cpu) : Bool := c.rflags.getLsbD 6

/-- Push some words, the first one first. -/
def pushes (c : Cpu) (words : List (BitVec 64)) : Cpu :=
  { c with memory := pushWords c.memory c.rsp words, rsp := wordsBelow c.rsp words.length }

/-- What the processor pushes: the registers that the handler could not restore, and the error code
of some exceptions. -/
def interruptWords (c : Cpu) (errorCode : Option (BitVec 64)) : List (BitVec 64) :=
  [c.ss.setWidth 64, c.rsp, c.rflags, c.cs.setWidth 64, c.rip] ++ errorCode.toList

/-- The processor enters a stub.  It clears the flags TF, IF, NT, RF and VM, and the stack segment
when the privilege level changes.  The flags that it pushes are those it has; where the processor
sets RF in what it pushes, as for most faults, RF is to be set before. -/
def deliver (c : Cpu) (entry : Entry) (errorCode : Option (BitVec 64)) : Cpu :=
  { ({ c with rsp := entry.alignedStack } : Cpu).pushes (c.interruptWords errorCode) with
    rip := entry.rip
    cs := entry.cs
    ss := if c.cpl = entry.cs.setWidth 2 then c.ss else 0
    rflags := c.rflags &&& ~~~0x34300#64 }

end Cpu

/-! ## Code -/

/-- The instructions of the stubs and of the code behind them. -/
inductive Instruction where
  | push (r : Register)
  | pushImmediate (value : BitVec 64)
  | pop (r : Register)
  /-- `mov rdi, rsp`. -/
  | movRdiRsp
  /-- `call {handler}`, together with the return. -/
  | callHandler
  /-- `test rax, rax`. -/
  | testRax
  /-- `jz`, over so many instructions. -/
  | jz (count : ℕ)
  /-- `mov rsp, rax`. -/
  | movRspRax
  /-- `add rsp, …`. -/
  | addRsp (value : BitVec 64)
  /-- `and rsp, …`. -/
  | andRsp (value : BitVec 64)
  | iretq
  deriving DecidableEq, Repr

namespace Cpu

/-- `iretq`. -/
def iretq (c : Cpu) : Cpu :=
  { c with
    rip := c.memory c.rsp
    cs := (c.memory (c.rsp + 8)).setWidth 16
    rflags := c.memory (c.rsp + 16)
    rsp := c.memory (c.rsp + 24)
    ss := (c.memory (c.rsp + 32)).setWidth 16 }

/-- One instruction that does not jump. -/
def step (handler : Cpu → Cpu) (c : Cpu) : Instruction → Cpu
  | .push r => c.pushes [c.registers r]
  | .pushImmediate value => c.pushes [value]
  | .pop r => { c with
      registers := Function.update c.registers r (c.memory c.rsp), rsp := c.rsp + 8 }
  | .movRdiRsp => { c with registers := Function.update c.registers .rdi c.rsp }
  | .callHandler => handler c
  | .testRax => { c with
      rflags := if c.registers .rax = 0 then c.rflags ||| 0x40#64 else c.rflags &&& ~~~0x40#64 }
  | .jz _ => c
  | .movRspRax => { c with rsp := c.registers .rax }
  | .addRsp value => { c with rsp := c.rsp + value }
  | .andRsp value => { c with rsp := c.rsp &&& value }
  | .iretq => c.iretq

/-- Some instructions one after the other, of which the first `skip` ones are jumped over. -/
def exec (handler : Cpu → Cpu) : List Instruction → ℕ → Cpu → Cpu
  | [], _, c => c
  | _ :: code, skip + 1, c => exec handler code skip c
  | .jz count :: code, 0, c => exec handler code (if c.zeroFlag then count else 0) c
  | i :: code, 0, c => exec handler code 0 (c.step handler i)

end Cpu

/-- The registers in the order in which `irq_common` pushes them. -/
def savedRegisters : List Register :=
  [.rax, .rcx, .rdx, .rbx, .rbp, .rsi, .rdi, .r8, .r9, .r10, .r11, .r12, .r13, .r14, .r15]

/-- `irq_stub!`: a placeholder for the error code, and the vector. -/
def irqStub (vector : ℕ) : List Instruction :=
  [.pushImmediate 0, .pushImmediate (.ofNat 64 vector)]

/-- `irq_common`, up to the call of the handler. -/
def irqSave : List Instruction := savedRegisters.map .push ++ [.movRdiRsp]

/-- `irq_common`, after the call: a result other than 0 is the stack of another thread. -/
def irqRestore : List Instruction :=
  [.testRax, .jz 1, .movRspRax] ++ savedRegisters.reverse.map .pop ++ [.addRsp 16, .iretq]

/-- The exceptions whose stub is `isr_stub!` with `with_error`. -/
def errorCodeVectors : List ℕ := [8, 10, 11, 12, 13, 14, 17, 21, 29, 30]

/-- `isr_stub!`: a placeholder if the processor has pushed no error code, and the vector. -/
def isrStub (vector : ℕ) : List Instruction :=
  if vector ∈ errorCodeVectors then [.pushImmediate (.ofNat 64 vector)]
  else [.pushImmediate 0, .pushImmediate (.ofNat 64 vector)]

/-- `isr_common`, up to the call of `exception_handler`, which does not return. -/
def isrCommon : List Instruction := [.movRdiRsp, .andRsp (-16)]

/-! ## Frames -/

/-- The structure `IrqFrame` in memory: its fields are words in their order. -/
def frameOfWords (words : List (BitVec 64)) : IrqFrame :=
  let word (i : ℕ) : ℕ := (words.getD i 0).toNat
  { r15 := word 0
    r14 := word 1
    r13 := word 2
    r12 := word 3
    r11 := word 4
    r10 := word 5
    r9 := word 6
    r8 := word 7
    rdi := word 8
    rsi := word 9
    rbp := word 10
    rbx := word 11
    rdx := word 12
    rcx := word 13
    rax := word 14
    vector := word 15
    errorCode := word 16
    rip := word 17
    cs := word 18
    rflags := word 19
    rsp := word 20
    ss := word 21 }

/-- The frame at an address. -/
def frameAt (memory : BitVec 64 → BitVec 64) (p : BitVec 64) : IrqFrame :=
  frameOfWords (wordsAt memory p 22)

namespace Cpu

/-- The registers of the processor as a frame. -/
def saved (c : Cpu) (vector : ℕ) : IrqFrame where
  r15 := (c.registers .r15).toNat
  r14 := (c.registers .r14).toNat
  r13 := (c.registers .r13).toNat
  r12 := (c.registers .r12).toNat
  r11 := (c.registers .r11).toNat
  r10 := (c.registers .r10).toNat
  r9 := (c.registers .r9).toNat
  r8 := (c.registers .r8).toNat
  rdi := (c.registers .rdi).toNat
  rsi := (c.registers .rsi).toNat
  rbp := (c.registers .rbp).toNat
  rbx := (c.registers .rbx).toNat
  rdx := (c.registers .rdx).toNat
  rcx := (c.registers .rcx).toNat
  rax := (c.registers .rax).toNat
  vector := vector
  errorCode := 0
  rip := c.rip.toNat
  cs := c.cs.toNat
  rflags := c.rflags.toNat
  rsp := c.rsp.toNat
  ss := c.ss.toNat

/-- The processor with the registers of a frame. -/
def resume (c : Cpu) (frame : IrqFrame) : Cpu where
  registers
    | .rax => .ofNat 64 frame.rax
    | .rcx => .ofNat 64 frame.rcx
    | .rdx => .ofNat 64 frame.rdx
    | .rbx => .ofNat 64 frame.rbx
    | .rbp => .ofNat 64 frame.rbp
    | .rsi => .ofNat 64 frame.rsi
    | .rdi => .ofNat 64 frame.rdi
    | .r8 => .ofNat 64 frame.r8
    | .r9 => .ofNat 64 frame.r9
    | .r10 => .ofNat 64 frame.r10
    | .r11 => .ofNat 64 frame.r11
    | .r12 => .ofNat 64 frame.r12
    | .r13 => .ofNat 64 frame.r13
    | .r14 => .ofNat 64 frame.r14
    | .r15 => .ofNat 64 frame.r15
  rip := .ofNat 64 frame.rip
  cs := .ofNat 16 frame.cs
  rflags := .ofNat 64 frame.rflags
  rsp := .ofNat 64 frame.rsp
  ss := .ofNat 16 frame.ss
  memory := c.memory

end Cpu

end Kernel

end ParanukOS
