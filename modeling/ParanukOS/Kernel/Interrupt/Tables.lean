import Mathlib.Data.BitVec
import ParanukOS.Foundation.Bytes
import ParanukOS.Foundation.Loops
import ParanukOS.Foundation.Ring
import ParanukOS.Kernel.Thread.Model

/-!
# Descriptor tables

The embedding of `kernel/src/gdt.rs` and of the table of `kernel/src/idt.rs`: the segments, the task
state segment with the stacks of the processor, and the gates of the interrupts.  The tables are
raw memory for the processor, which has its own idea of where the fields lie; `Tables.enter` is what
it does when an interrupt arrives, up to the choice of the stack.

The instructions that load the tables, the segment registers and the task register are left out, and
so is the check that the processor has kept the address of the table of segments.

## Outline

* `tssDescriptor`, `Tss`, `Descriptors`: `gdt.rs`.
* `Gate`, `Stubs`, `Idt.install`: the table of `idt.rs`.
* `GateFields`, `Tables`, `Tables.enter`: the processor.
-/

namespace ParanukOS

open Foundation

namespace Kernel

/-! ## Segments and the task state -/

/-- `TSS_SELECTOR`. -/
def tssSelector : ℕ := 0x18

/-- `IST_DOUBLE_FAULT`. -/
def istDoubleFault : ℕ := 1

/-- `IST_NMI`. -/
def istNmi : ℕ := 2

/-- `IST_VECTOR_DOUBLE_FAULT`. -/
def istVectorDoubleFault : ℕ := 8

/-- `IST_VECTOR_NMI`. -/
def istVectorNmi : ℕ := 2

/-- `size_of::<Tss>()`. -/
def tssSize : ℕ := 104

/-- `Tss`, without the reserved fields. -/
structure Tss where
  rsp0 : BitVec 64
  rsp1 : BitVec 64
  rsp2 : BitVec 64
  /-- The ends of the stacks IST1, …, IST7. -/
  ist : Fin 7 → BitVec 64
  /-- The offset of the permission bitmap. -/
  iomapBase : BitVec 16

/-- `Tss::new`. -/
def Tss.new : Tss where
  rsp0 := 0
  rsp1 := 0
  rsp2 := 0
  ist := fun _ => 0
  iomapBase := .ofNat 16 tssSize

/-- The structure in memory: its fields follow each other without gaps. -/
def Tss.bytes (tss : Tss) : List UInt8 :=
  leBytes 4 0 ++ (leBytes 8 tss.rsp0.toNat ++ (leBytes 8 tss.rsp1.toNat ++
    (leBytes 8 tss.rsp2.toNat ++ (leBytes 8 0 ++
      ((List.finRange 7).flatMap (fun i => leBytes 8 (tss.ist i).toNat) ++ (leBytes 8 0 ++
        (leBytes 2 0 ++ leBytes 2 tss.iomapBase.toNat)))))))

/-- `code_descriptor`. -/
def codeDescriptor : BitVec 64 := 0x00AF9A000000FFFF

/-- `user_code_descriptor`. -/
def userCodeDescriptor : BitVec 64 := 0x00AFFA000000FFFF

/-- `user_data_descriptor`. -/
def userDataDescriptor : BitVec 64 := 0x00CFF2000000FFFF

/-- `data_descriptor`. -/
def dataDescriptor : BitVec 64 := 0x00CF92000000FFFF

/-- `tss_descriptor`. -/
def tssDescriptor (base : BitVec 64) : BitVec 64 × BitVec 64 :=
  let limit : BitVec 64 := .ofNat 64 (tssSize - 1)
  let low := (limit &&& 0xFFFF#64) ||| ((base &&& 0x00FFFFFF#64) <<< 16) ||| (0x89#64 <<< 40) |||
    (((limit >>> 16) &&& 0xF#64) <<< 48) ||| (((base >>> 24) &&& 0xFF#64) <<< 56)
  (low, base >>> 32)

/-- `DescriptorTablePointer`. -/
structure DescriptorTablePointer where
  limit : BitVec 16
  base : BitVec 64
  deriving DecidableEq

/-- `GdtHolder`. -/
structure Descriptors where
  /-- The descriptors of the segments. -/
  gdt : List (BitVec 64)
  /-- The task state. -/
  tss : Tss

namespace Descriptors

/-- The static variable `GDT` before it is installed. -/
def new : Descriptors := ⟨List.replicate 8 0, .new⟩

/-- `install`, for a task state at `tssBase`. -/
def install (d : Descriptors) (tssBase doubleFault nmi : BitVec 64) : Descriptors where
  gdt :=
    [ 0,
      codeDescriptor,
      dataDescriptor,
      (tssDescriptor tssBase).1,
      (tssDescriptor tssBase).2,
      userCodeDescriptor,
      userDataDescriptor,
      0 ]
  tss := { d.tss with
    ist := Function.update (Function.update d.tss.ist (.ofNat 7 (istDoubleFault - 1)) doubleFault)
      (.ofNat 7 (istNmi - 1)) nmi }

/-- The register that `install` loads, for a table at `base`. -/
def gdtr (d : Descriptors) (base : BitVec 64) : DescriptorTablePointer :=
  ⟨.ofNat 16 (d.gdt.length * 8 - 1), base⟩

/-- `set_rsp0`. -/
def setRsp0 (d : Descriptors) (top : BitVec 64) : Descriptors :=
  { d with tss := { d.tss with rsp0 := top } }

end Descriptors

/-! ## Gates -/

/-- `Gate`. -/
structure Gate where
  offsetLow : BitVec 16
  selector : BitVec 16
  ist : BitVec 8
  typeAttr : BitVec 8
  offsetMid : BitVec 16
  offsetHigh : BitVec 32
  reserved : BitVec 32
  deriving DecidableEq, Repr

namespace Gate

/-- `missing`. -/
def missing : Gate := ⟨0, 0, 0, 0, 0, 0, 0⟩

/-- `with_dpl`. -/
def withDpl (handler : BitVec 64) (selector : BitVec 16) (ist dpl : BitVec 8) : Gate where
  offsetLow := handler.setWidth 16
  selector := selector
  ist := ist
  typeAttr := 0x8E#8 ||| ((dpl &&& 3#8) <<< 5)
  offsetMid := (handler >>> 16).setWidth 16
  offsetHigh := (handler >>> 32).setWidth 32
  reserved := 0

/-- `with_ist`. -/
def withIst (handler : BitVec 64) (selector : BitVec 16) (ist : BitVec 8) : Gate :=
  withDpl handler selector ist 0

/-- The gate in memory: its fields follow each other without gaps, the first one lowest. -/
def bits (g : Gate) : BitVec 128 :=
  g.reserved ++ g.offsetHigh ++ g.offsetMid ++ g.typeAttr ++ g.ist ++ g.selector ++ g.offsetLow

end Gate

/-- The addresses of the stubs. -/
structure Stubs where
  /-- `isr_0`, …, `isr_31`, by their vectors. -/
  isr : ℕ → BitVec 64
  /-- `irq_32`, …, `irq_47`, by the numbers `0, …, 15` of the interrupt requests. -/
  irq : ℕ → BitVec 64
  isrYield : BitVec 64
  isrExit : BitVec 64
  isrSyscall : BitVec 64

/-- `IRQ_VECTOR_BASE`. -/
def irqVectorBase : ℕ := 0x20

/-- The stack in the gate of an exception. -/
def istOfVector (vector : ℕ) : BitVec 8 :=
  if vector = istVectorDoubleFault then .ofNat 8 istDoubleFault
  else if vector = istVectorNmi then .ofNat 8 istNmi
  else 0

/-- `Idt`. -/
abbrev Idt := Fin 256 → Gate

/-- The static variable `IDT` before it is installed. -/
def Idt.new : Idt := fun _ => .missing

/-- `install`, with `selector` the code segment of the kernel. -/
def Idt.install (idt : Idt) (stubs : Stubs) (selector : BitVec 16) : Checked Idt := do
  let idt ← forRange 32 idt fun vector idt =>
    writeAt idt vector (Gate.withIst (stubs.isr vector) selector (istOfVector vector))
  let idt ← forRange 16 idt fun offset idt =>
    writeAt idt (irqVectorBase + offset) (Gate.withIst (stubs.irq offset) selector 0)
  let idt ← writeAt idt yieldVector (Gate.withIst stubs.isrYield selector 0)
  let idt ← writeAt idt exitVector (Gate.withIst stubs.isrExit selector 0)
  writeAt idt syscallVector (Gate.withDpl stubs.isrSyscall selector 0 3)

/-! ## The processor -/

/-- What the processor finds in a gate. -/
structure GateFields where
  offset : BitVec 64
  selector : BitVec 16
  ist : BitVec 3
  /-- The type, with the bit above it that has to be clear. -/
  type : BitVec 5
  dpl : BitVec 2
  present : Bool
  deriving DecidableEq, Repr

/-- The fields of the 16 bytes of a gate. -/
def GateFields.decode (bits : BitVec 128) : GateFields where
  offset := bits.extractLsb' 64 32 ++ bits.extractLsb' 48 16 ++ bits.extractLsb' 0 16
  selector := bits.extractLsb' 16 16
  ist := bits.extractLsb' 32 3
  type := bits.extractLsb' 40 5
  dpl := bits.extractLsb' 45 2
  present := bits.getLsbD 47

/-- The kind of a segment, with the bit that tells it from a system descriptor. -/
def segmentType (d : BitVec 64) : BitVec 5 := d.extractLsb' 40 5

/-- The privilege level of a segment. -/
def segmentDpl (d : BitVec 64) : BitVec 2 := d.extractLsb' 45 2

/-- Whether a segment is present. -/
def segmentPresent (d : BitVec 64) : Bool := d.getLsbD 47

/-- Whether a segment has 64-bit code that does not keep the privilege level of its caller. -/
def isLongCode (d : BitVec 64) : Bool :=
  segmentType d &&& 0b11100#5 = 0b11000#5 && d.getLsbD 53 && !d.getLsbD 54

/-- The base and the limit of an available task state whose descriptor begins at a selector. -/
def taskState (gdt : List (BitVec 64)) (selector : ℕ) : Option (BitVec 64 × BitVec 20) := do
  let low ← gdt[selector / 8]?
  let high ← gdt[selector / 8 + 1]?
  if segmentType low = 0b01001#5 ∧ segmentPresent low then
    some (high.setWidth 32 ++ low.extractLsb' 56 8 ++ low.extractLsb' 16 24,
      low.extractLsb' 48 4 ++ low.extractLsb' 0 16)
  else none

/-- The tables that the processor has loaded. -/
structure Tables where
  /-- The descriptors of the segments. -/
  gdt : List (BitVec 64)
  /-- The gates. -/
  idt : Fin 256 → BitVec 128
  /-- The task state. -/
  tss : List UInt8

/-- How an interrupt comes about. -/
inductive Cause where
  /-- By an instruction `int`. -/
  | software
  /-- As an exception or from a device. -/
  | hardware
  deriving DecidableEq, Repr

/-- The exceptions that prevent the delivery of an interrupt, with their error codes. -/
inductive Fault where
  | generalProtection (errorCode : ℕ)
  | segmentNotPresent (errorCode : ℕ)
  deriving DecidableEq, Repr

/-- Where the processor goes on, and on which stack. -/
structure Entry where
  rip : BitVec 64
  cs : BitVec 16
  stack : BitVec 64
  deriving DecidableEq, Repr

namespace Tables

/-- A word of the task state. -/
def tssWord (t : Tables) (offset : ℕ) : BitVec 64 := .ofNat 64 (leVal ((t.tss.drop offset).take 8))

/-- The stack for an interrupt. -/
def stack (t : Tables) (ist : BitVec 3) (cpl cpl' : BitVec 2) (rsp : BitVec 64) : BitVec 64 :=
  if ist ≠ 0 then t.tssWord (28 + 8 * ist.toNat)
  else if cpl' < cpl then t.tssWord 4
  else rsp

/-- An interrupt at a privilege level. -/
def enter (t : Tables) (cause : Cause) (cpl : BitVec 2) (rsp : BitVec 64) (vector : Fin 256) :
    Except Fault Entry :=
  let gate := GateFields.decode (t.idt vector)
  let errorCode := 8 * vector.val + 2 + (if cause = .hardware then 1 else 0)
  if gate.type ≠ 0b01110#5 ∧ gate.type ≠ 0b01111#5 then .error (.generalProtection errorCode)
  else if cause = .software ∧ gate.dpl < cpl then .error (.generalProtection errorCode)
  else if !gate.present then .error (.segmentNotPresent errorCode)
  else
    match t.gdt[gate.selector.toNat / 8]? with
    | none => .error (.generalProtection (gate.selector.toNat / 8 * 8))
    | some d =>
      if gate.selector.toNat / 8 = 0 ∨ !isLongCode d ∨ cpl < segmentDpl d then
        .error (.generalProtection (gate.selector.toNat / 8 * 8))
      else if !segmentPresent d then .error (.segmentNotPresent (gate.selector.toNat / 8 * 8))
      else .ok
        { rip := gate.offset
          cs := gate.selector.extractLsb' 2 14 ++ segmentDpl d
          stack := t.stack gate.ist cpl (segmentDpl d) rsp }

end Tables

/-- The tables of the kernel as the processor sees them. -/
def Descriptors.tables (d : Descriptors) (idt : Idt) : Tables where
  gdt := d.gdt
  idt := fun v => (idt v).bits
  tss := d.tss.bytes

end Kernel

end ParanukOS
