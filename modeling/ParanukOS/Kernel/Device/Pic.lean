import ParanukOS.Foundation.Ports
import ParanukOS.Kernel.Thread.Model

/-!
# The interrupt controllers and the timer

The embedding of `kernel/src/pic.rs`, of the accesses to ports that `irq_handler` of
`kernel/src/sched.rs` makes, and of the devices they talk to: two 8259 interrupt controllers, of
which the second one is connected to an input of the first one, and channel 0 of the timer 8253.

The requests of devices come and go at any moment.  A controller that is asked for a vector when the
request has gone answers with the vector of its input 7, without putting anything into service.

Of the second command word of a controller only the ends of interrupts are there, not the rotations
of priorities, and of the timer only channel 0 with its two bytes.

## Outline

* `Chip`, `Pit`, `Controllers`, `Pics`: the devices.
* `Pics.acknowledge`: the processor asks for a vector.
* `remap`, `unmask`, `mask`, `eoi`, `handleSpuriousIrq7`, `initPit`, `init`: the programs.
* `irqPorts`: what `irq_handler` does for a vector.
-/

namespace ParanukOS

open Foundation PortProgram

namespace Kernel

namespace Pic

/-! ## An interrupt controller -/

/-- What a controller expects at its data port: the mask, or one of the initialisation words. -/
inductive Expects where
  | mask
  | icw2 (cascade icw4 : Bool)
  | icw3 (icw4 : Bool)
  | icw4
  deriving DecidableEq, Repr

/-- An interrupt controller without its requests. -/
structure Chip where
  /-- The interrupts in service. -/
  isr : Byte
  /-- The interrupts that are masked. -/
  imr : Byte
  /-- The vector of input 0. -/
  base : Byte
  /-- The inputs with another controller, or the number of the input this one is connected to. -/
  cascade : Byte
  /-- Whether an interrupt ends by itself when it is acknowledged. -/
  autoEoi : Bool
  /-- Whether vectors have the form for the 8086. -/
  mode8086 : Bool
  /-- Whether the command port gives the interrupts in service, not the requests. -/
  readIsr : Bool
  expects : Expects
  deriving DecidableEq, Repr

/-- The lowest bit that is set: the input with the highest priority. -/
def lowest (b : Byte) : Option (Fin 8) := (List.finRange 8).find? fun i => b.getLsbD i

/-- The byte with one bit. -/
def bit (i : Fin 8) : Byte := 1#8 <<< i.val

namespace Chip

/-- The interrupt in service with the highest priority ends. -/
def endOfInterrupt (c : Chip) : Chip :=
  match lowest c.isr with
  | none => c
  | some i => { c with isr := c.isr &&& ~~~bit i }

/-- A byte at the command port: the first initialisation word, or one of two command words. -/
def command (c : Chip) (v : Byte) : Chip :=
  if v.getLsbD 4 then
    { c with
      isr := 0
      imr := 0
      autoEoi := false
      mode8086 := false
      readIsr := false
      expects := .icw2 (!v.getLsbD 1) (v.getLsbD 0) }
  else if v.getLsbD 3 then
    if v.getLsbD 1 then { c with readIsr := v.getLsbD 0 } else c
  else if v >>> 5 = 1#8 then c.endOfInterrupt
  else if v >>> 5 = 3#8 then { c with isr := c.isr &&& ~~~(1#8 <<< (v.toNat % 8)) }
  else c

/-- A byte at the data port. -/
def data (c : Chip) (v : Byte) : Chip :=
  match c.expects with
  | .mask => { c with imr := v }
  | .icw2 cascade icw4 =>
    { c with
      base := v &&& 0xF8#8
      expects := if cascade then .icw3 icw4 else if icw4 then .icw4 else .mask }
  | .icw3 icw4 => { c with cascade := v, expects := if icw4 then .icw4 else .mask }
  | .icw4 => { c with mode8086 := v.getLsbD 0, autoEoi := v.getLsbD 1, expects := .mask }

/-- The request that is served next: none while an interrupt with the same or a higher priority is
in service. -/
def pending (c : Chip) (irr : Byte) : Option (Fin 8) :=
  match lowest (irr &&& ~~~c.imr) with
  | none => none
  | some i => if (List.finRange 8).any fun j => j ≤ i && c.isr.getLsbD j then none else some i

/-- An interrupt is put into service. -/
def serve (c : Chip) (i : Fin 8) : Chip :=
  if c.autoEoi then c else { c with isr := c.isr ||| bit i }

end Chip

/-! ## The timer -/

/-- Channel 0 of the timer. -/
structure Pit where
  /-- The last control word. -/
  control : Byte
  /-- The low byte, when it has been written and the high byte has not. -/
  low : Option Byte
  /-- The value from which the channel counts down. -/
  reload : BitVec 16
  deriving DecidableEq, Repr

namespace Pit

/-- A byte at the control port; the two upper bits are the number of the channel. -/
def command (t : Pit) (v : Byte) : Pit :=
  if v >>> 6 = 0#8 then { t with control := v, low := none } else t

/-- A byte at the data port. -/
def data (t : Pit) (v : Byte) : Pit :=
  match t.low with
  | none => { t with low := some v }
  | some low => { t with low := none, reload := v ++ low }

end Pit

/-! ## All devices -/

/-- `PIC1`. -/
def pic1 : Port := 0x20

/-- `PIC1_DATA`. -/
def pic1Data : Port := 0x21

/-- `PIC2`. -/
def pic2 : Port := 0xA0

/-- `PIC2_DATA`. -/
def pic2Data : Port := 0xA1

/-- The ports of the timer. -/
def pitChannel0 : Port := 0x40

def pitCommand : Port := 0x43

/-- The devices without the requests. -/
structure Controllers where
  master : Chip
  slave : Chip
  pit : Pit
  deriving DecidableEq, Repr

namespace Controllers

/-- A byte is written. -/
def write (c : Controllers) (port : Port) (v : Byte) : Controllers :=
  if port = pic1 then { c with master := c.master.command v }
  else if port = pic1Data then { c with master := c.master.data v }
  else if port = pic2 then { c with slave := c.slave.command v }
  else if port = pic2Data then { c with slave := c.slave.data v }
  else if port = pitChannel0 then { c with pit := c.pit.data v }
  else if port = pitCommand then { c with pit := c.pit.command v }
  else c

/-- The bytes that do not depend on the requests. -/
def read (c : Controllers) (port : Port) : Option Byte :=
  if port = pic1 then if c.master.readIsr then some c.master.isr else none
  else if port = pic1Data then some c.master.imr
  else if port = pic2 then if c.slave.readIsr then some c.slave.isr else none
  else if port = pic2Data then some c.slave.imr
  else none

end Controllers

/-- The devices. -/
structure Pics where
  controllers : Controllers
  /-- The requests at the inputs of both controllers. -/
  masterIrr : Byte
  slaveIrr : Byte
  deriving DecidableEq, Repr

namespace Pics

/-- A byte is read; ports without a device give 0xFF. -/
def read (s : Pics) (port : Port) : Byte :=
  (s.controllers.read port).getD
    (if port = pic1 then s.masterIrr else if port = pic2 then s.slaveIrr else 0xFF)

/-- The processor asks for the vector of an interrupt. -/
def acknowledge (s : Pics) : Byte × Pics :=
  let c := s.controllers
  match c.master.pending s.masterIrr with
  | none => (c.master.base ||| 7#8, s)
  | some i =>
    let s₁ : Pics := { s with
      controllers := { c with master := c.master.serve i }
      masterIrr := s.masterIrr &&& ~~~bit i }
    if c.master.cascade.getLsbD i then
      -- the other controller answers when its number is the one of the input
      if c.slave.cascade &&& 7#8 = BitVec.ofNat 8 i then
        match c.slave.pending s.slaveIrr with
        | none => (c.slave.base ||| 7#8, s₁)
        | some j =>
          (c.slave.base ||| BitVec.ofNat 8 j, { s₁ with
            controllers := { s₁.controllers with slave := c.slave.serve j }
            slaveIrr := s.slaveIrr &&& ~~~bit j })
      else (0xFF, s₁)
    else (c.master.base ||| BitVec.ofNat 8 i, s₁)

end Pics

/-- The devices as they are seen by a program.  The requests change at any moment; the first
initialisation word clears those that have been there. -/
def device : Device Pics where
  write s port v :=
    { controllers := s.controllers.write port v
      masterIrr := if port = pic1 ∧ v.getLsbD 4 then 0 else s.masterIrr
      slaveIrr := if port = pic2 ∧ v.getLsbD 4 then 0 else s.slaveIrr }
  read s port := (s.read port, s)
  Drift s s' := s'.controllers = s.controllers

/-- The devices without the requests determine what programs do to them. -/
def view : device.View Controllers where
  core := Pics.controllers
  write := Controllers.write
  read := Controllers.read
  core_drift := fun _ _ h => h
  core_write := fun _ _ _ => rfl
  core_read := fun _ _ => rfl
  read_eq := fun s port value h => by
    change (s.controllers.read port).getD _ = value
    rw [h]
    rfl

/-! ## The programs -/

/-- `PIC1_OFFSET`. -/
def pic1Offset : Byte := 0x20

/-- `PIC2_OFFSET`. -/
def pic2Offset : Byte := 0x28

/-- `TIMER_IRQ`. -/
def timerIrq : Fin 16 := 0

/-- `SPURIOUS_IRQ7_VECTOR`. -/
def spuriousIrq7Vector : Byte := pic1Offset + 7

/-- `PIT_FREQUENCY`. -/
def pitFrequency : ℕ := 1193182

/-- `TIMER_HZ`. -/
def timerHz : ℕ := 100

/-- `io_wait`. -/
def ioWait : PortProgram Unit := outb 0x80 0

/-- `remap`. -/
def remap : PortProgram Unit := do
  outb pic1 0x11
  ioWait
  outb pic2 0x11
  ioWait
  outb pic1Data pic1Offset
  ioWait
  outb pic2Data pic2Offset
  ioWait
  outb pic1Data 0x04
  ioWait
  outb pic2Data 0x02
  ioWait
  outb pic1Data 0x01
  ioWait
  outb pic2Data 0x01
  ioWait
  outb pic1Data 0xFF
  outb pic2Data 0xFF

/-- The port and the bit of an interrupt in the masks. -/
def portBit (irq : Fin 16) : Port × ℕ :=
  if irq.val < 8 then (pic1Data, irq.val) else (pic2Data, irq.val - 8)

/-- `unmask`. -/
def unmask (irq : Fin 16) : PortProgram Unit := do
  let (port, bit) := portBit irq
  let mask ← inb port
  outb port (mask &&& ~~~(1#8 <<< bit))
  if 8 ≤ irq.val then
    let mask ← inb pic1Data
    outb pic1Data (mask &&& ~~~(1#8 <<< 2))

/-- `mask`. -/
def mask (irq : Fin 16) : PortProgram Unit := do
  let (port, bit) := portBit irq
  let value ← inb port
  outb port (value ||| 1#8 <<< bit)

/-- `eoi`. -/
def eoi (irq : Fin 16) : PortProgram Unit := do
  if 8 ≤ irq.val then
    outb pic2 0x20
  outb pic1 0x20

/-- `master_in_service`. -/
def masterInService : PortProgram Byte := do
  outb pic1 0x0B
  inb pic1

/-- `handle_spurious_irq7`. -/
def handleSpuriousIrq7 : PortProgram Bool := do
  let inService ← masterInService
  let spurious := inService &&& 0x80#8 == 0
  if !spurious then
    eoi 7
  return spurious

/-- The value from which the timer counts down, for a frequency.  The sum fits into 32 bits when the
frequency does. -/
def pitDivisor (hz : ℕ) : Checked ℕ := do
  let quotient ← divWord (pitFrequency + hz / 2) hz
  return max 1 (min quotient 65535)

/-- `init_pit`.  The divisor is computed before the first access to a port. -/
def initPit (hz : ℕ) : PortProgram (Checked ℕ) :=
  match pitDivisor hz with
  | .error e => return .error e
  | .ok divisor => do
    outb pitCommand 0x36
    ioWait
    outb pitChannel0 (.ofNat 8 (divisor % 256))
    ioWait
    outb pitChannel0 (.ofNat 8 (divisor / 256))
    ioWait
    return .ok divisor

/-- `init`. -/
def init : PortProgram (Checked ℕ) := do
  remap
  match ← initPit timerHz with
  | .error e => return .error e
  | .ok divisor =>
    unmask timerIrq
    return .ok divisor

/-- The accesses to ports of `irq_handler`. -/
def irqPorts (vector : Byte) : PortProgram Unit :=
  if vector = .ofNat 8 timerVector then eoi timerIrq
  else if vector = .ofNat 8 yieldVector then return ()
  else if vector = .ofNat 8 exitVector then return ()
  else if vector = .ofNat 8 syscallVector then return ()
  else if vector = spuriousIrq7Vector then do
    let _ ← handleSpuriousIrq7
    return ()
  else do
    let irq : Fin 16 := .ofNat 16 ((vector - pic1Offset) &&& 0x0F#8).toNat
    mask irq
    eoi irq

end Pic

end Kernel

end ParanukOS
