import Mathlib.Tactic
import ParanukOS.Foundation.Ports

/-!
# The serial line

The embedding of `kernel/src/serial.rs` and of `log` of `kernel/src/logging.rs`, together with the
transmitter of a 16550.  It has one byte to hold; a byte that is written while another one is held
destroys that one.  The device sends the byte that it holds at any moment.  Before each byte the
kernel waits until the device holds none, so nothing is destroyed, whatever time the device takes,
and what the line gets is the text with a carriage return before each line feed.  The text can be
read back from it.

## Outline

* `Uart`, `uart`: the device.
* `Serial.init`, `Serial.waitTxReady`, `Serial.writeByte`, `Serial.writeStr`, `log`: the programs.
* `encode`, `decode`: the bytes on the line.
* `serial_output_exact`: the main theorem.
-/

namespace ParanukOS

open Foundation PortProgram

namespace Kernel

/-! ## The device -/

/-- The registers that control a 16550. -/
structure UartRegisters where
  /-- Interrupt enable. -/
  ier : Byte
  /-- The control of the line; bit 7 switches the first two registers to the divisor. -/
  lcr : Byte
  mcr : Byte
  fcr : Byte
  divisorLow : Byte
  divisorHigh : Byte
  deriving DecidableEq, Repr

/-- A 16550 without its receiver. -/
structure Uart where
  registers : UartRegisters
  /-- The byte that the transmitter holds. -/
  holding : Option Byte
  /-- The bytes that the line has got. -/
  sent : List Byte
  /-- Whether a byte has been destroyed. -/
  destroyed : Bool
  /-- The other bits of the line status. -/
  status : Byte
  deriving DecidableEq, Repr

/-- `COM1`. -/
def com1 : Port := 0x3F8

/-- `REG_DATA`. -/
def regData : Port := 0

/-- `REG_IER`. -/
def regIer : Port := 1

/-- `REG_FCR`. -/
def regFcr : Port := 2

/-- `REG_LCR`. -/
def regLcr : Port := 3

/-- `REG_MCR`. -/
def regMcr : Port := 4

/-- `REG_LSR`. -/
def regLsr : Port := 5

/-- Whether the first two registers are the divisor. -/
def UartRegisters.dlab (r : UartRegisters) : Bool := r.lcr.getLsbD 7

/-- A byte is written to a register.  The transmitter is not one of them. -/
def UartRegisters.write (r : UartRegisters) (port : Port) (v : Byte) : UartRegisters :=
  if port = com1 + regData then
    if r.dlab then { r with divisorLow := v } else r
  else if port = com1 + regIer then
    if r.dlab then { r with divisorHigh := v } else { r with ier := v }
  else if port = com1 + regFcr then { r with fcr := v }
  else if port = com1 + regLcr then { r with lcr := v }
  else if port = com1 + regMcr then { r with mcr := v }
  else r

namespace UartRegisters

lemma dlab_lcr (r : UartRegisters) (v : Byte) :
    ({ r with lcr := v } : UartRegisters).dlab = v.getLsbD 7 := rfl

lemma write_ier (r : UartRegisters) (v : Byte) : r.write (com1 + regIer) v =
    if r.dlab then { r with divisorHigh := v } else { r with ier := v } := by
  simp [write, com1, regData, regIer]

/-- Both halves of the divisor. -/
lemma write_divisor {r : UartRegisters} (h : r.dlab = true) (low high : Byte) :
    (r.write (com1 + regData) low).write (com1 + regIer) high =
      { r with divisorLow := low, divisorHigh := high } := by
  have hlow : r.write (com1 + regData) low = { r with divisorLow := low } := by simp [write, h]
  rw [hlow, write_ier]
  exact if_pos h

lemma write_fcr (r : UartRegisters) (v : Byte) :
    r.write (com1 + regFcr) v = { r with fcr := v } := by
  simp [write, com1, regData, regIer, regFcr]

lemma write_lcr (r : UartRegisters) (v : Byte) :
    r.write (com1 + regLcr) v = { r with lcr := v } := by
  simp [write, com1, regData, regIer, regFcr, regLcr]

lemma write_mcr (r : UartRegisters) (v : Byte) :
    r.write (com1 + regMcr) v = { r with mcr := v } := by
  simp [write, com1, regData, regIer, regFcr, regLcr, regMcr]

end UartRegisters

namespace Uart

/-- A byte for the transmitter. -/
def transmit (u : Uart) (v : Byte) : Uart :=
  { u with holding := some v, destroyed := u.destroyed || u.holding.isSome }

/-- A byte is written.  Bit 2 of `FCR` empties the transmitter. -/
def write (u : Uart) (port : Port) (v : Byte) : Uart :=
  if port = com1 + regData ∧ u.registers.dlab = false then u.transmit v
  else
    { u with
      registers := u.registers.write port v
      holding := if port = com1 + regFcr ∧ v.getLsbD 2 then none else u.holding }

/-- The line status; bit 5 says that the transmitter holds no byte. -/
def lineStatus (u : Uart) : Byte :=
  (u.status &&& ~~~0x20#8) ||| if u.holding.isNone then 0x20#8 else 0

/-- The device sends the byte that it holds. -/
def send (u : Uart) : Uart := { u with holding := none, sent := u.sent ++ u.holding.toList }

end Uart

/-- The device as it is seen by a program.  It sends bytes at any moment, and the other bits of the
line status change. -/
def uart : Device Uart where
  write := Uart.write
  read u port := (if port = com1 + regLsr then u.lineStatus else 0xFF, u)
  Drift u u' := u' = u.send ∨ ∃ status, u' = { u with status }

@[simp] lemma uart_write (u : Uart) (port : Port) (v : Byte) :
    uart.write u port v = u.write port v := rfl

/-! ## The programs -/

namespace Serial

/-- `Serial::init`. -/
def init : PortProgram Unit := do
  outb (com1 + regIer) 0x00
  outb (com1 + regLcr) 0x80
  outb (com1 + regData) 0x01
  outb (com1 + regIer) 0x00
  outb (com1 + regLcr) 0x03
  outb (com1 + regFcr) 0xC7
  outb (com1 + regMcr) 0x03

/-- `Serial::wait_tx_ready`. -/
def waitTxReady : PortProgram Unit :=
  pollUntil (com1 + regLsr) fun status => status &&& 0x20#8 != 0

/-- Wait, and write one byte. -/
def put (byte : Byte) : PortProgram Unit := do
  waitTxReady
  outb (com1 + regData) byte

/-- `Serial::write_byte`. -/
def writeByte (byte : Byte) : PortProgram Unit := do
  if byte = 0x0A#8 then
    put 0x0D#8
  put byte

/-- `Serial::write_str`. -/
def writeStr : List Byte → PortProgram Unit
  | [] => return ()
  | byte :: text => do
    writeByte byte
    writeStr text

end Serial

/-- `Level`. -/
inductive Level where
  | info
  | warn
  | error
  deriving DecidableEq, Repr

/-- The bytes of a text. -/
def utf8 (text : String) : List Byte := text.toUTF8.toList.map UInt8.toBitVec

/-- `Level::tag`. -/
def Level.tag : Level → String
  | info => ""
  | warn => "[WARN] "
  | error => "[ERROR] "

/-- One line of the log. -/
def logLine (level : Level) (args : List Byte) : List Byte :=
  utf8 "[kernel] " ++ utf8 level.tag ++ args ++ [0x0A#8]

/-- `log`. -/
def log (level : Level) (args : List Byte) : PortProgram Unit :=
  Serial.writeStr (logLine level args)

/-- Some lines one after the other. -/
def logAll : List (Level × List Byte) → PortProgram Unit
  | [] => return ()
  | (level, args) :: lines => do
    log level args
    logAll lines

/-! ## The bytes on the line -/

namespace Serial

/-- The bytes for a text. -/
def encode (text : List Byte) : List Byte :=
  text.flatMap fun byte => if byte = 0x0A#8 then [0x0D#8, byte] else [byte]

/-- The text for some bytes. -/
def decode : List Byte → List Byte
  | [] => []
  | [byte] => [byte]
  | byte :: next :: bytes =>
    if byte = 0x0D#8 ∧ next = 0x0A#8 then next :: decode bytes else byte :: decode (next :: bytes)

lemma encode_append (text text' : List Byte) :
    encode (text ++ text') = encode text ++ encode text' :=
  List.flatMap_append

/-- A carriage return stands before each line feed. -/
lemma head_encode (text : List Byte) : (encode text).head? ≠ some 0x0A#8 := by
  cases text with
  | nil => simp [encode]
  | cons byte text =>
    by_cases h : byte = 0x0A#8
    · simp [encode, h]
    · simp [encode, h]

/-- The text can be read back. -/
lemma decode_encode (text : List Byte) : decode (encode text) = text := by
  induction text with
  | nil => rfl
  | cons byte text ih =>
    by_cases h : byte = 0x0A#8
    · have hencode : encode (byte :: text) = 0x0D#8 :: 0x0A#8 :: encode text := by simp [encode, h]
      rw [hencode, decode, if_pos ⟨rfl, rfl⟩, ih, h]
    · have hencode : encode (byte :: text) = byte :: encode text := by simp [encode, h]
      rw [hencode]
      cases hrest : encode text with
      | nil =>
        rw [hrest] at ih
        rw [decode, ← ih]
        rfl
      | cons next rest =>
        have hnext : next ≠ 0x0A#8 := by
          have hhead := head_encode text
          rw [hrest] at hhead
          simpa using hhead
        rw [decode, if_neg fun hcon => hnext hcon.2, ← hrest, ih]

/-! ## Runs -/

/-- The registers are as `R` says, no byte is destroyed, and the line has got the bytes `output`,
except for the one that the transmitter holds. -/
structure Accepts (R : UartRegisters → Prop) (output : List Byte) (u : Uart) : Prop where
  registers : R u.registers
  destroyed : u.destroyed = false
  output_eq : u.sent ++ u.holding.toList = output

variable {R : UartRegisters → Prop} {output : List Byte}

lemma Accepts.stable (R : UartRegisters → Prop) (output : List Byte) :
    uart.Stable (Accepts R output) := by
  rintro u u' h (rfl | ⟨status, rfl⟩)
  · exact ⟨h.registers, h.destroyed, by simpa [Uart.send] using h.output_eq⟩
  · exact ⟨h.registers, h.destroyed, h.output_eq⟩

/-- The transmitter stays empty. -/
lemma stable_empty (R : UartRegisters → Prop) (output : List Byte) :
    uart.Stable fun u => Accepts R output u ∧ u.holding = none := by
  rintro u u' ⟨h, hempty⟩ hdrift
  refine ⟨Accepts.stable R output u u' h hdrift, ?_⟩
  rcases hdrift with rfl | ⟨status, rfl⟩
  · rfl
  · exact hempty

/-! ### Initialisation -/

/-- The registers are given.  The line has got at least the bytes `sent`, and all that it gets are
the bytes `output`, or fewer. -/
structure Begins (r : UartRegisters) (sent output : List Byte) (u : Uart) : Prop where
  registers : u.registers = r
  destroyed : u.destroyed = false
  sent_le : sent <+: u.sent
  output_le : u.sent ++ u.holding.toList <+: output

lemma Begins.stable (r : UartRegisters) (sent output : List Byte) :
    uart.Stable (Begins r sent output) := by
  rintro u u' h (rfl | ⟨status, rfl⟩)
  · refine ⟨h.registers, h.destroyed, h.sent_le.trans (List.prefix_append _ _), ?_⟩
    simpa [Uart.send] using h.output_le
  · exact ⟨h.registers, h.destroyed, h.sent_le, h.output_le⟩

/-- A register is written. -/
lemma triple_register {port : Port} {v : Byte} {r : UartRegisters} {sent output : List Byte}
    (hport : ¬(port = com1 + regData ∧ r.dlab = false)) :
    uart.Triple (Begins r sent output) (outb port v)
      fun _ => Begins (r.write port v) sent output := by
  refine .outb (Begins.stable r sent output) (Begins.stable _ sent output) fun u h => ?_
  rw [uart_write, Uart.write, h.registers, if_neg hport]
  refine ⟨rfl, h.destroyed, h.sent_le, ?_⟩
  dsimp only
  split_ifs
  · exact (List.append_nil u.sent).symm ▸ (List.prefix_append _ _).trans h.output_le
  · exact h.output_le

/-- The registers after `init`.  When the first two registers have been the divisor before, the
first byte goes there, and interrupts stay as they were. -/
def initialised (r : UartRegisters) : UartRegisters where
  ier := if r.dlab then r.ier else 0
  lcr := 0x03
  mcr := 0x03
  fcr := 0xC7
  divisorLow := 0x01
  divisorHigh := 0x00

open UartRegisters in
/-- `init`. -/
lemma triple_init (r : UartRegisters) (sent output : List Byte) :
    uart.Triple (Begins r sent output) init fun _ => Begins (initialised r) sent output := by
  have hother : ∀ {port : Port} {r : UartRegisters}, port ≠ com1 + regData →
      ¬(port = com1 + regData ∧ r.dlab = false) := fun hne h => hne h.1
  have hdivisor : ∀ r : UartRegisters, (r.write (com1 + regLcr) 0x80).dlab = true := fun r => by
    rw [write_lcr, dlab_lcr]
    decide
  have hlast : ((((((r.write (com1 + regIer) 0x00).write (com1 + regLcr) 0x80).write
      (com1 + regData) 0x01).write (com1 + regIer) 0x00).write (com1 + regLcr) 0x03).write
      (com1 + regFcr) 0xC7).write (com1 + regMcr) 0x03 = initialised r := by
    rw [write_divisor (hdivisor _), write_lcr, write_lcr, write_fcr, write_mcr, write_ier]
    by_cases hdlab : r.dlab = true
    · rw [if_pos hdlab, initialised, if_pos hdlab]
    · rw [if_neg hdlab, initialised, if_neg hdlab]
  rw [← hlast]
  exact (triple_register (hother (by decide))).bind fun _ =>
    (triple_register (hother (by decide))).bind fun _ =>
    (triple_register fun h => Bool.false_ne_true (h.2.symm.trans (hdivisor _))).bind fun _ =>
    (triple_register (hother (by decide))).bind fun _ =>
    (triple_register (hother (by decide))).bind fun _ =>
    (triple_register (hother (by decide))).bind fun _ => triple_register (hother (by decide))

/-! ### Output -/

/-- Bit 5 of the line status. -/
lemma lineStatus_and (u : Uart) :
    (u.lineStatus &&& 0x20#8 != 0) = u.holding.isNone := by
  have hbits : ∀ status : Byte, ((status &&& ~~~0x20#8) ||| 0x20#8) &&& 0x20#8 ≠ 0 ∧
      ((status &&& ~~~0x20#8) ||| 0#8) &&& 0x20#8 = 0 := by decide +kernel
  obtain ⟨hsome, hnone⟩ := hbits u.status
  cases hholding : u.holding with
  | none => simpa [Uart.lineStatus, hholding] using hsome
  | some byte => simpa [Uart.lineStatus, hholding] using hnone

/-- `wait_tx_ready`. -/
lemma triple_waitTxReady : uart.Triple (Accepts R output) waitTxReady
    fun _ u => Accepts R output u ∧ u.holding = none := by
  refine .pollUntil (Accepts.stable R output) (stable_empty R output) (fun u h hready => ?_)
    fun u h _ => h
  refine ⟨h, Option.isNone_iff_eq_none.mp ?_⟩
  rw [← lineStatus_and]
  exact hready

/-- One byte. -/
lemma triple_put (hdlab : ∀ r, R r → r.dlab = false) (byte : Byte) :
    uart.Triple (Accepts R output) (put byte) fun _ => Accepts R (output ++ [byte]) := by
  refine triple_waitTxReady.bind fun _ => ?_
  refine .outb (stable_empty R output) (Accepts.stable R _) fun u ⟨h, hempty⟩ => ?_
  have hwrite : uart.write u (com1 + regData) byte = u.transmit byte := by
    simp [Uart.write, hdlab _ h.registers]
  have houtput := h.output_eq
  rw [hempty] at houtput
  rw [hwrite]
  refine ⟨h.registers, ?_, ?_⟩
  · simp [Uart.transmit, h.destroyed, hempty]
  · simpa [Uart.transmit] using houtput

/-- `write_byte`. -/
lemma triple_writeByte (hdlab : ∀ r, R r → r.dlab = false) (byte : Byte) :
    uart.Triple (Accepts R output) (writeByte byte)
      fun _ => Accepts R (output ++ encode [byte]) := by
  by_cases h : byte = 0x0A#8
  · have hbytes : output ++ encode [byte] = output ++ [0x0D#8] ++ [byte] := by simp [encode, h]
    rw [hbytes, writeByte, if_pos h]
    exact (triple_put hdlab _).bind fun _ => triple_put hdlab _
  · have hbytes : output ++ encode [byte] = output ++ [byte] := by simp [encode, h]
    rw [hbytes, writeByte, if_neg h]
    exact triple_put hdlab _

/-- `write_str`. -/
lemma triple_writeStr (hdlab : ∀ r, R r → r.dlab = false) (text : List Byte) :
    uart.Triple (Accepts R output) (writeStr text) fun _ => Accepts R (output ++ encode text) := by
  induction text generalizing output with
  | nil => exact .pure (Accepts.stable R output) fun u h => by simpa [encode] using h
  | cons byte text ih =>
    have hbytes : output ++ encode (byte :: text) = output ++ encode [byte] ++ encode text := by
      rw [List.append_assoc, ← encode_append]
      rfl
    rw [hbytes]
    exact (triple_writeByte hdlab byte).bind fun _ => ih

/-- The text of some lines. -/
def logText (lines : List (Level × List Byte)) : List Byte :=
  lines.flatMap fun line => logLine line.1 line.2

/-- Some lines. -/
lemma triple_logAll (hdlab : ∀ r, R r → r.dlab = false) (lines : List (Level × List Byte)) :
    uart.Triple (Accepts R output) (logAll lines) fun _ =>
      Accepts R (output ++ encode (logText lines)) := by
  induction lines generalizing output with
  | nil => exact .pure (Accepts.stable R output) fun u h => by simpa [encode, logText] using h
  | cons line lines ih =>
    have hbytes : output ++ encode (logText (line :: lines)) =
        output ++ encode (logLine line.1 line.2) ++ encode (logText lines) := by
      rw [List.append_assoc, ← encode_append]
      rfl
    rw [hbytes]
    exact (triple_writeStr hdlab _).bind fun _ => ih

/-! ### Progress -/

/-- The device can send the byte that it holds, and then the transmitter is free. -/
lemma live_put (byte : Byte) : uart.Live (put byte) :=
  ⟨fun u => ⟨u.send, .inl rfl, lineStatus_and u.send⟩, trivial⟩

lemma live_writeByte (byte : Byte) : uart.Live (writeByte byte) := by
  rw [writeByte]
  split_ifs
  · exact (live_put _).bind fun _ => live_put byte
  · exact live_put byte

lemma live_writeStr (text : List Byte) : uart.Live (writeStr text) := by
  induction text with
  | nil => trivial
  | cons byte text ih => exact (live_writeByte byte).bind fun _ => ih

lemma live_logAll (lines : List (Level × List Byte)) : uart.Live (logAll lines) := by
  induction lines with
  | nil => trivial
  | cons line lines ih => exact (live_writeStr _).bind fun _ => ih

/-! ## The main theorem -/

/-- After `init`, the line gets exactly the lines of the log, after the bytes of the firmware that
it has got so far and perhaps the one that the transmitter still held; no byte is destroyed,
whatever time the device takes for each.  The lines can be read back.  Wherever the kernel is and
whatever the device has done so far, the kernel can go on until all lines are written.  The divisor
is 1, and interrupts are off unless the first two registers were the divisor. -/
theorem serial_output_exact (lines : List (Level × List Byte)) (u : Uart)
    (hu : u.destroyed = false) :
    (∀ p u₁, Relation.ReflTransGen uart.Step (do init; logAll lines, u) (p, u₁) →
      ∃ u', uart.Runs p u₁ () u' ∧ uart.Runs (do init; logAll lines) u () u') ∧
    (∀ u', uart.Runs (do init; logAll lines) u () u' →
      u'.registers = initialised u.registers ∧ u'.destroyed = false ∧
      ∃ earlier, u.sent <+: earlier ∧ earlier <+: u.sent ++ u.holding.toList ∧
        u'.sent ++ u'.holding.toList = earlier ++ encode (logText lines)) ∧
    decode (encode (logText lines)) = logText lines := by
  refine ⟨fun p u₁ hsteps => ?_, fun u' hrun => ?_, decode_encode _⟩
  · -- `init` does not wait
    have hlive : uart.Live (do init; logAll lines) :=
      Device.Live.bind (p := init) trivial fun _ => live_logAll lines
    obtain ⟨⟨⟩, u', hrun⟩ := (hlive.steps hsteps).exists_runs u₁
    exact ⟨u', hrun, .of_steps hsteps hrun⟩
  · obtain ⟨⟨⟩, u₁, h1, h2⟩ := Device.Runs.bind_cases hrun
    have hbegins := triple_init u.registers u.sent (u.sent ++ u.holding.toList) u () u₁
      ⟨rfl, hu, List.prefix_rfl, List.prefix_rfl⟩ h1
    have hdlab : (initialised u.registers).dlab = false :=
      show (0x03 : Byte).getLsbD 7 = false by decide
    -- what has been sent when `init` returns, together with what is held then, stays at the front
    have hend := triple_logAll (R := (· = initialised u.registers))
      (fun r hr => by subst hr; exact hdlab) lines u₁ () u'
      ⟨hbegins.registers, hbegins.destroyed, rfl⟩ h2
    exact ⟨hend.registers, hend.destroyed, u₁.sent ++ u₁.holding.toList,
      hbegins.sent_le.trans (List.prefix_append _ _), hbegins.output_le, hend.output_eq⟩

/-- One warning, on a device that holds a byte of the firmware and has the divisor selected. -/
theorem serial_output_exact_warning :
    ∃ u' : Uart, u'.destroyed = false ∧ u'.registers.ier = 0x0F#8 ∧
      ∃ earlier, [0x41#8] <+: earlier ∧ earlier <+: [0x41#8, 0x42#8] ∧
        u'.sent ++ u'.holding.toList = earlier ++ encode (logLine .warn [0x78#8]) := by
  let u : Uart :=
    { registers := ⟨0x0F, 0x83, 0, 0, 0x0C, 0⟩
      holding := some 0x42
      sent := [0x41]
      destroyed := false
      status := 0 }
  obtain ⟨hlive, hall, -⟩ := serial_output_exact [(.warn, [0x78#8])] u rfl
  obtain ⟨u', -, hrun⟩ := hlive _ u .refl
  obtain ⟨hregisters, hdestroyed, earlier, hfront, hback, houtput⟩ := hall u' hrun
  have hier : (initialised u.registers).ier = 0x0F#8 := by decide
  have htext : logText [(.warn, [0x78#8])] = logLine .warn [0x78#8] := List.append_nil _
  refine ⟨u', hdestroyed, hregisters ▸ hier, earlier, hfront, hback, ?_⟩
  rw [houtput, htext]

end Serial

end Kernel

end ParanukOS
