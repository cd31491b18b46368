import Mathlib.Tactic
import ParanukOS.Kernel.Device.Pic
import ParanukOS.Kernel.Thread.Counter

/-!
# No tick is lost

`init` of `kernel/src/pic.rs` brings the interrupt controllers from any state into a known one, in
which only the timer is not masked.  From then on `irq_handler` ends every interrupt that it has
been called for, and no other one: between two interrupts nothing is in service.  So a request of
the timer is always the next one to be served, whatever other requests come and go, and also when
the controllers answer for a request that has gone.

## Outline

* `configured`, `exec_remap`, `exec_initPit`, …: the effect of the programs.
* `Configured`, `InService`: the controllers between and during interrupts.
* `pic_init_exact`: the result of `init`.
* `ticks_eq_served`: the main theorem.
-/

namespace ParanukOS

open Foundation PortProgram

namespace Kernel

namespace Pic

/-! ## The effect of the programs -/

/-- A controller after the initialisation words. -/
def configured (base cascade imr isr : Byte) (readIsr : Bool) : Chip where
  isr := isr
  imr := imr
  base := base
  cascade := cascade
  autoEoi := false
  mode8086 := true
  readIsr := readIsr
  expects := .mask

section Programs

variable (c : Controllers)

@[simp] lemma view_write (port : Port) (v : Byte) : view.write c port v = c.write port v := rfl

@[simp] lemma view_read (port : Port) : view.read c port = c.read port := rfl

@[simp] lemma write_pic1 (v : Byte) :
    c.write pic1 v = { c with master := c.master.command v } := rfl

@[simp] lemma write_pic1Data (v : Byte) :
    c.write pic1Data v = { c with master := c.master.data v } := rfl

@[simp] lemma write_pic2 (v : Byte) :
    c.write pic2 v = { c with slave := c.slave.command v } := rfl

@[simp] lemma write_pic2Data (v : Byte) :
    c.write pic2Data v = { c with slave := c.slave.data v } := rfl

@[simp] lemma read_pic1Data : c.read pic1Data = some c.master.imr := rfl

@[simp] lemma read_pic2Data : c.read pic2Data = some c.slave.imr := rfl

@[simp] lemma exec_ioWait : view.exec ioWait c = some ((), c) := rfl

/-- `remap`, from any state. -/
lemma exec_remap : view.exec remap c = some ((), { c with
    master := configured 0x20 0x04 0xFF 0 false
    slave := configured 0x28 0x02 0xFF 0 false }) := by
  simp [remap, Chip.command, Chip.data, configured, pic1Offset, pic2Offset]

lemma pitDivisor_zero : pitDivisor 0 = .error .divisionByZero := rfl

lemma pitDivisor_of_ne_zero {hz : ℕ} (hz0 : hz ≠ 0) :
    pitDivisor hz = .ok (max 1 (min ((pitFrequency + hz / 2) / hz) 65535)) := by
  rw [pitDivisor, divWord, if_neg hz0]
  rfl

/-- `init_pit` for a frequency without a divisor does not access a port. -/
lemma exec_initPit_of_error {hz : ℕ} {e : Panic} (hdivisor : pitDivisor hz = .error e) :
    view.exec (initPit hz) c = some (.error e, c) := by
  rw [initPit, hdivisor]
  rfl

/-- `init_pit`, from any state. -/
lemma exec_initPit {hz n : ℕ} (hdivisor : pitDivisor hz = .ok n) (hlt : n < 2 ^ 16) :
    view.exec (initPit hz) c = some (.ok n, { c with pit := ⟨0x36, none, .ofNat 16 n⟩ }) := by
  have hbytes : BitVec.ofNat 8 (n / 256) ++ BitVec.ofNat 8 (n % 256) = BitVec.ofNat 16 n := by
    refine BitVec.eq_of_toNat_eq ?_
    rw [BitVec.toNat_append, BitVec.toNat_ofNat, BitVec.toNat_ofNat, BitVec.toNat_ofNat,
      ← Nat.shiftLeft_add_eq_or_of_lt (Nat.mod_lt _ (by decide)), Nat.shiftLeft_eq]
    omega
  have hcommand : ∀ c : Controllers, ∀ v, c.write pitCommand v =
      { c with pit := c.pit.command v } := fun _ _ => rfl
  have hdata : ∀ c : Controllers, ∀ v, c.write pitChannel0 v =
      { c with pit := c.pit.data v } := fun _ _ => rfl
  simp [initPit, hdivisor, hcommand, hdata, Pit.command, Pit.data, hbytes]

/-- `init`, from any state. -/
lemma exec_init : view.exec init c = some (.ok 11932, {
    master := configured 0x20 0x04 0xFE 0 false
    slave := configured 0x28 0x02 0xFF 0 false
    pit := ⟨0x36, none, 11932⟩ }) := by
  have hdivisor : pitDivisor timerHz = .ok 11932 := by rfl
  simp [init, exec_remap, exec_initPit _ hdivisor, unmask, timerIrq, portBit, Chip.data, configured]

/-- `eoi` of an interrupt of the first controller. -/
lemma exec_eoi_master {irq : Fin 16} (h : irq.val < 8) :
    view.exec (eoi irq) c = some ((), { c with master := c.master.command 0x20 }) := by
  simp [eoi, Nat.not_le.mpr h]

/-- `eoi` of an interrupt of the second controller. -/
lemma exec_eoi_slave {irq : Fin 16} (h : 8 ≤ irq.val) : view.exec (eoi irq) c = some ((), { c with
    master := c.master.command 0x20
    slave := c.slave.command 0x20 }) := by
  simp [eoi, h]

/-- `mask` of an interrupt of the first controller. -/
lemma exec_mask_master {irq : Fin 16} (h : irq.val < 8) :
    view.exec (mask irq) c = some ((), { c with
      master := c.master.data (c.master.imr ||| 1#8 <<< irq.val) }) := by
  simp [mask, portBit, h]

/-- `mask` of an interrupt of the second controller. -/
lemma exec_mask_slave {irq : Fin 16} (h : 8 ≤ irq.val) :
    view.exec (mask irq) c = some ((), { c with
      slave := c.slave.data (c.slave.imr ||| 1#8 <<< (irq.val - 8)) }) := by
  simp [mask, portBit, Nat.not_lt.mpr h]

/-- `master_in_service`. -/
lemma exec_masterInService : view.exec masterInService c = some (c.master.isr, { c with
    master := { c.master with readIsr := true } }) := rfl

/-- `handle_spurious_irq7` when an interrupt with the number 7 is in service. -/
lemma exec_handleSpuriousIrq7 (h : c.master.isr.getLsbD 7 = true) :
    view.exec handleSpuriousIrq7 c = some (false, { c with
      master := ({ c.master with readIsr := true } : Chip).command 0x20 }) := by
  have htest : (c.master.isr &&& 0x80#8 == 0) = false := by
    refine beq_eq_false_iff_ne.mpr fun hcon => ?_
    have hbit : (c.master.isr &&& 0x80#8).getLsbD 7 = (0#8).getLsbD 7 :=
      congrArg (fun b => b.getLsbD 7) hcon
    rw [BitVec.getLsbD_and, h] at hbit
    exact absurd hbit (by decide)
  rw [handleSpuriousIrq7, Device.View.exec_bind, exec_masterInService, Option.bind_some]
  simp only [htest]
  rfl

/-- `handle_spurious_irq7` when no interrupt is in service. -/
lemma exec_handleSpuriousIrq7_gone (h : c.master.isr = 0) :
    view.exec handleSpuriousIrq7 c = some (true, { c with
      master := { c.master with readIsr := true } }) := by
  have htest : (c.master.isr &&& 0x80#8 == 0) = true := by
    rw [h]
    rfl
  rw [handleSpuriousIrq7, Device.View.exec_bind, exec_masterInService, Option.bind_some]
  simp only [htest]
  rfl

end Programs

/-- The value from which the timer counts down fits into 16 bits, and it is the nearest one as long
as that fits. -/
lemma pitDivisor_near {hz n : ℕ} (hdivisor : pitDivisor hz = .ok n) :
    1 ≤ n ∧ n < 2 ^ 16 ∧ (19 ≤ hz → hz ≤ 2 * pitFrequency →
      2 * (n * hz) ≤ 2 * pitFrequency + hz ∧ 2 * pitFrequency ≤ 2 * (n * hz) + hz) := by
  have hpos : hz ≠ 0 := by
    rintro rfl
    cases hdivisor
  rw [pitDivisor_of_ne_zero hpos, Except.ok.injEq] at hdivisor
  refine ⟨by omega, by omega, fun hlow hhigh => ?_⟩
  have hfrequency : pitFrequency = 1193182 := rfl
  have hquot : (pitFrequency + hz / 2) / hz ≤ 65535 := by
    refine Nat.div_le_of_le_mul ?_
    omega
  have hone : 1 ≤ (pitFrequency + hz / 2) / hz := by
    refine (Nat.one_le_div_iff (by omega)).mpr ?_
    omega
  have hdiv := Nat.div_add_mod (pitFrequency + hz / 2) hz
  have hmod := Nat.mod_lt (pitFrequency + hz / 2) (Nat.pos_of_ne_zero hpos)
  rw [min_eq_left hquot, max_eq_right hone] at hdivisor
  rw [← hdivisor, Nat.mul_comm _ hz]
  omega

/-- **Initialisation.**  Whatever the controllers and the timer were doing before and whatever
requests come meanwhile, `init` returns and leaves them in one state: interrupts have the vectors
from 0x20 on, none is in service, only the timer is not masked, and it counts down from 11932.  For
every frequency but 0, `init_pit` returns and programs the value that it returns, which fits into 16
bits; it is the nearest one to the quotient of the frequencies unless that is too large or too
small.  For the frequency 0 it stops with a panic and has not written to any device. -/
theorem pic_init_exact :
    (∀ s r s', device.Runs init s r s' → r = .ok 11932 ∧ s'.controllers = {
      master := configured 0x20 0x04 0xFE 0 false
      slave := configured 0x28 0x02 0xFF 0 false
      pit := ⟨0x36, none, 11932⟩ }) ∧
    (∀ s, ∃ r s', device.Runs init s r s') ∧
    (∀ hz s, ∃ r s', device.Runs (initPit hz) s r s') ∧
    (∀ hz ≠ 0, ∀ s r s', device.Runs (initPit hz) s r s' → ∃ n, r = .ok n ∧
      s'.controllers = { s.controllers with pit := ⟨0x36, none, .ofNat 16 n⟩ } ∧ 1 ≤ n ∧
        n < 2 ^ 16 ∧ (19 ≤ hz → hz ≤ 2 * pitFrequency →
          2 * (n * hz) ≤ 2 * pitFrequency + hz ∧ 2 * pitFrequency ≤ 2 * (n * hz) + hz)) ∧
    ∀ s r s', device.Runs (initPit 0) s r s' →
      r = .error .divisionByZero ∧ s'.controllers = s.controllers := by
  have hexec : ∀ hz ≠ 0, ∃ n, pitDivisor hz = .ok n ∧ ∀ c, view.exec (initPit hz) c =
      some (.ok n, { c with pit := ⟨0x36, none, .ofNat 16 n⟩ }) := by
    intro hz hz0
    have hdivisor := pitDivisor_of_ne_zero hz0
    exact ⟨_, hdivisor, fun c => exec_initPit c hdivisor (pitDivisor_near hdivisor).2.1⟩
  refine ⟨fun s r s' hrun => ?_, fun s => ?_, fun hz s => ?_, fun hz hz0 s r s' hrun => ?_,
    fun s r s' hrun => ?_⟩
  · exact Device.View.exec_of_runs (v := view) hrun (exec_init s.controllers)
  · exact ⟨_, Device.View.runs_of_exec (v := view) (s := s) (exec_init s.controllers)⟩
  · by_cases hz0 : hz = 0
    · subst hz0
      exact ⟨_, Device.View.runs_of_exec (v := view) (s := s)
        (exec_initPit_of_error s.controllers pitDivisor_zero)⟩
    · obtain ⟨n, -, hn⟩ := hexec hz hz0
      exact ⟨_, Device.View.runs_of_exec (v := view) (s := s) (hn s.controllers)⟩
  · obtain ⟨n, hdivisor, hn⟩ := hexec hz hz0
    obtain ⟨rfl, hcore⟩ := Device.View.exec_of_runs (v := view) hrun (hn s.controllers)
    exact ⟨n, rfl, hcore, pitDivisor_near hdivisor⟩
  · exact Device.View.exec_of_runs (v := view) hrun
      (exec_initPit_of_error s.controllers pitDivisor_zero)

/-- A run of `init_pit` for the frequency of the kernel. -/
theorem pic_init_exact_100 : ∃ s n s', device.Runs (initPit 100) s (.ok n) s' ∧ 1 ≤ n ∧
    2 * (n * 100) ≤ 2 * pitFrequency + 100 ∧ 2 * pitFrequency ≤ 2 * (n * 100) + 100 := by
  let chip : Chip := ⟨0, 0, 0, 0, false, false, false, .mask⟩
  let s : Pics := ⟨⟨chip, chip, ⟨0, none, 0⟩⟩, 0, 0⟩
  obtain ⟨r, s', hrun⟩ := pic_init_exact.2.2.1 100 s
  obtain ⟨n, rfl, -, hone, -, hnear⟩ := pic_init_exact.2.2.2.1 100 (by decide) s r s' hrun
  exact ⟨s, n, s', hrun, hone, hnear (by decide) (by decide)⟩

/-! ## Interrupts -/

/-- The vector of an interrupt. -/
def vectorOf (irq : Fin 16) : Byte := pic1Offset + .ofNat 8 irq

/-- The controllers after `init`, with masks in which the timer is not masked, and with some
interrupts in service. -/
def Configured (isr isr' : Byte) (c : Controllers) : Prop :=
  ∃ imr imr' readIsr readIsr', imr.getLsbD 0 = false ∧
    c.master = configured 0x20 0x04 imr isr readIsr ∧
    c.slave = configured 0x28 0x02 imr' isr' readIsr'

/-- What is in service when the processor has got the vector of an interrupt.  The last inputs of
both controllers also stand for requests that have gone. -/
inductive InService : Fin 16 → Byte → Byte → Prop
  | master (i : Fin 8) (hi : i ≠ 2) : InService (i.castLE (by decide)) (bit i) 0
  | masterGone : InService 7 0 0
  | slave (j : Fin 8) : InService (j.natAdd 8) (bit 2) (bit j)
  | slaveGone : InService 15 (bit 2) 0

lemma lowest_bit : ∀ i, lowest (bit i) = some i := by decide

lemma lowest_zero : lowest 0#8 = none := by decide

/-- The end of the only interrupt in service. -/
lemma command_eoi (base cascade imr : Byte) (readIsr : Bool) (i : Fin 8) :
    (configured base cascade imr (bit i) readIsr).command 0x20 =
      configured base cascade imr 0 readIsr := by
  simp [Chip.command, Chip.endOfInterrupt, configured, lowest_bit]

/-- The end of an interrupt when none is in service. -/
lemma command_eoi_zero (base cascade imr : Byte) (readIsr : Bool) :
    (configured base cascade imr 0 readIsr).command 0x20 =
      configured base cascade imr 0 readIsr := by
  simp [Chip.command, Chip.endOfInterrupt, configured, lowest_zero]

/-- The interrupt that also stands for a request that has gone. -/
lemma irqPorts_irq7 :
    irqPorts (vectorOf 7) = (do let _ ← handleSpuriousIrq7; return ()) := rfl

/-- Interrupts that are not expected are masked. -/
lemma irqPorts_unexpected {irq : Fin 16} (h0 : irq ≠ 0) (h7 : irq ≠ 7) :
    irqPorts (vectorOf irq) = (do mask irq; eoi irq) := by
  fin_cases irq
  all_goals first | exact absurd rfl h0 | exact absurd rfl h7 | rfl

/-- An interrupt of the first controller that is not expected. -/
lemma exec_unexpected_master {irq : Fin 16} (h0 : irq ≠ 0) (h7 : irq ≠ 7) (hlt : irq.val < 8)
    (imr : Byte) (readIsr : Bool) (i : Fin 8) (slave : Chip) (pit : Pit) :
    view.exec (irqPorts (vectorOf irq)) ⟨configured 0x20 0x04 imr (bit i) readIsr, slave, pit⟩ =
      some ((), ⟨configured 0x20 0x04 (imr ||| 1#8 <<< irq.val) 0 readIsr, slave, pit⟩) := by
  have hdata : (configured 0x20 0x04 imr (bit i) readIsr).data (imr ||| 1#8 <<< irq.val) =
      configured 0x20 0x04 (imr ||| 1#8 <<< irq.val) (bit i) readIsr := rfl
  rw [irqPorts_unexpected h0 h7, Device.View.exec_bind, exec_mask_master _ hlt, Option.bind_some,
    exec_eoi_master _ hlt]
  simp only [show (configured 0x20 0x04 imr (bit i) readIsr).imr = imr from rfl, hdata,
    command_eoi]

/-- An interrupt of the second controller. -/
lemma exec_unexpected_slave {irq : Fin 16} (hle : 8 ≤ irq.val) (imr imr' isr' : Byte)
    (readIsr readIsr' : Bool) (hisr : (configured 0x28 0x02 (imr' ||| 1#8 <<< (irq.val - 8)) isr'
      readIsr').command 0x20 = configured 0x28 0x02 (imr' ||| 1#8 <<< (irq.val - 8)) 0 readIsr')
    (pit : Pit) :
    view.exec (irqPorts (vectorOf irq)) ⟨configured 0x20 0x04 imr (bit 2) readIsr,
        configured 0x28 0x02 imr' isr' readIsr', pit⟩ =
      some ((), ⟨configured 0x20 0x04 imr 0 readIsr,
        configured 0x28 0x02 (imr' ||| 1#8 <<< (irq.val - 8)) 0 readIsr', pit⟩) := by
  have h0 : irq ≠ 0 := fun hcon => by simp [hcon] at hle
  have h7 : irq ≠ 7 := fun hcon => by simp [hcon] at hle
  have hdata : (configured 0x28 0x02 imr' isr' readIsr').data (imr' ||| 1#8 <<< (irq.val - 8)) =
      configured 0x28 0x02 (imr' ||| 1#8 <<< (irq.val - 8)) isr' readIsr' := rfl
  rw [irqPorts_unexpected h0 h7, Device.View.exec_bind, exec_mask_slave _ hle, Option.bind_some,
    exec_eoi_slave _ hle]
  simp only [show (configured 0x28 0x02 imr' isr' readIsr').imr = imr' from rfl, hdata,
    command_eoi, hisr]

/-- `irq_handler` ends what is in service. -/
lemma exec_irqPorts {irq : Fin 16} {isr isr' : Byte} (h : InService irq isr isr')
    {c : Controllers} (hc : Configured isr isr' c) :
    ∃ c', view.exec (irqPorts (vectorOf irq)) c = some ((), c') ∧ Configured 0 0 c' := by
  obtain ⟨master, slave, pit⟩ := c
  obtain ⟨imr, imr', readIsr, readIsr', hbit, rfl, rfl⟩ := hc
  cases h with
  | master i hi =>
    have hlt : (i.castLE (by decide) : Fin 16).val < 8 := i.isLt
    by_cases h0 : i = 0
    · subst h0
      have hexec := exec_eoi_master ⟨configured 0x20 0x04 imr (bit 0) readIsr,
        configured 0x28 0x02 imr' 0 readIsr', pit⟩ hlt
      rw [command_eoi] at hexec
      exact ⟨_, hexec, imr, imr', readIsr, readIsr', hbit, rfl, rfl⟩
    by_cases h7 : i = 7
    · subst h7
      have hexec := exec_handleSpuriousIrq7 ⟨configured 0x20 0x04 imr (bit 7) readIsr,
        configured 0x28 0x02 imr' 0 readIsr', pit⟩ (show (bit 7).getLsbD 7 = true by decide)
      refine ⟨⟨configured 0x20 0x04 imr 0 true, configured 0x28 0x02 imr' 0 readIsr', pit⟩, ?_, imr,
        imr', true, readIsr', hbit, rfl, rfl⟩
      have hvector : vectorOf (Fin.castLE (by decide) (7 : Fin 8)) = vectorOf 7 := rfl
      rw [← command_eoi 0x20 0x04 imr true 7, hvector, irqPorts_irq7, Device.View.exec_bind, hexec]
      rfl
    · refine ⟨_, exec_unexpected_master ?_ ?_ hlt .., _, imr', readIsr, readIsr', ?_, rfl, rfl⟩
      · exact fun hcon => h0 (Fin.ext (congrArg (fun irq : Fin 16 => irq.val) hcon))
      · exact fun hcon => h7 (Fin.ext (congrArg (fun irq : Fin 16 => irq.val) hcon))
      · have hi0 : i.val ≠ 0 := fun hcon => h0 (Fin.ext hcon)
        rw [BitVec.getLsbD_or, hbit, Fin.val_castLE, BitVec.getLsbD_shiftLeft]
        simp [Nat.pos_of_ne_zero hi0]
  | masterGone =>
    have hexec := exec_handleSpuriousIrq7_gone ⟨configured 0x20 0x04 imr 0 readIsr,
      configured 0x28 0x02 imr' 0 readIsr', pit⟩ rfl
    refine ⟨⟨configured 0x20 0x04 imr 0 true, configured 0x28 0x02 imr' 0 readIsr', pit⟩, ?_, imr,
      imr', true, readIsr', hbit, rfl, rfl⟩
    rw [irqPorts_irq7, Device.View.exec_bind, hexec]
    rfl
  | slave j =>
    exact ⟨_, exec_unexpected_slave (Nat.le_add_right 8 j.val) _ _ _ _ _ (command_eoi ..) pit,
      imr, _, readIsr, readIsr', hbit, rfl, rfl⟩
  | slaveGone =>
    exact ⟨_, exec_unexpected_slave (by decide) _ _ _ _ _ (command_eoi_zero ..) pit,
      imr, _, readIsr, readIsr', hbit, rfl, rfl⟩

/-- The input with the highest priority. -/
lemma lowest_eq_zero_iff : ∀ b : Byte, lowest b = some 0 ↔ b.getLsbD 0 = true := by decide +kernel

/-- While nothing is in service, the request with the highest priority is served. -/
lemma pending_configured (base cascade imr irr : Byte) (readIsr : Bool) :
    (configured base cascade imr 0 readIsr).pending irr = lowest (irr &&& ~~~imr) := by
  rw [Chip.pending]
  cases hlowest : lowest (irr &&& ~~~imr) with
  | none => simp [configured, hlowest]
  | some i => simp [configured, hlowest]

/-- The processor gets the vector of an interrupt that is put into service, and it is the one of the
timer if and only if the timer has made a request. -/
lemma inService_of_acknowledge {s : Pics} (h : Configured 0 0 s.controllers) :
    ∃ irq isr isr', s.acknowledge.1 = vectorOf irq ∧ InService irq isr isr' ∧
      Configured isr isr' s.acknowledge.2.controllers ∧
      (irq = 0 ↔ s.masterIrr.getLsbD 0 = true) := by
  obtain ⟨⟨master, slave, pit⟩, masterIrr, slaveIrr⟩ := s
  obtain ⟨imr, imr', readIsr, readIsr', hbit, rfl, rfl⟩ := h
  have htimer : lowest (masterIrr &&& ~~~imr) = some 0 ↔ masterIrr.getLsbD 0 = true := by
    rw [lowest_eq_zero_iff, BitVec.getLsbD_and, BitVec.getLsbD_not, hbit]
    simp
  have hserve : ∀ base cascade imr readIsr i,
      (configured base cascade imr 0 readIsr).serve i =
        configured base cascade imr (bit i) readIsr := by
    intro base cascade imr readIsr i
    simp [Chip.serve, configured]
  simp only [Pics.acknowledge, pending_configured, hserve]
  cases hmaster : lowest (masterIrr &&& ~~~imr) with
  | none =>
    refine ⟨7, 0, 0, show (0x20 ||| 7#8 : Byte) = vectorOf 7 by decide, .masterGone,
      ⟨imr, imr', readIsr, readIsr', hbit, rfl, rfl⟩, ?_⟩
    rw [← htimer, hmaster]
    decide
  | some i =>
    rw [hmaster, Option.some_inj] at htimer
    by_cases hi : i = 2
    · -- the second controller answers
      subst hi
      have hcascade : (0x04 : Byte).getLsbD (2 : Fin 8) = true := by decide
      have hnumber : (0x02 : Byte) &&& 7#8 = BitVec.ofNat 8 (2 : Fin 8) := by decide
      have hne : ∀ j : Fin 8, (j.natAdd 8 : Fin 16) ≠ 0 := by decide
      simp only [configured, hcascade, hnumber, if_true]
      cases hslave : lowest (slaveIrr &&& ~~~imr') with
      | none =>
        exact ⟨15, bit 2, 0, show (0x28 ||| 7#8 : Byte) = vectorOf 15 by decide, .slaveGone,
          ⟨imr, imr', readIsr, readIsr', hbit, rfl, rfl⟩, by rw [← htimer]; decide⟩
      | some j =>
        have hvector : ∀ j : Fin 8, (0x28 ||| BitVec.ofNat 8 j : Byte) = vectorOf (j.natAdd 8) := by
          decide
        exact ⟨j.natAdd 8, bit 2, bit j, hvector j, .slave j,
          ⟨imr, imr', readIsr, readIsr', hbit, rfl, rfl⟩,
          by rw [← htimer]; exact iff_of_false (hne j) (by decide)⟩
    · have hcascade : ∀ i : Fin 8, i ≠ 2 → (0x04 : Byte).getLsbD i = false := by decide
      have hvector : ∀ i : Fin 8, (0x20 ||| BitVec.ofNat 8 i : Byte) =
          vectorOf (i.castLE (by decide)) := by decide
      simp only [configured, hcascade i hi, Bool.false_eq_true, if_false]
      refine ⟨i.castLE (by decide), bit i, 0, hvector i, .master i hi,
        ⟨imr, imr', readIsr, readIsr', hbit, rfl, rfl⟩, ?_⟩
      rw [← htimer, Fin.ext_iff, Fin.ext_iff]
      rfl

/-! ## Runs -/

/-- The devices, the machine with the scheduler, and how often the timer had made a request when the
processor asked for a vector. -/
structure Clock where
  pics : Pics
  machine : Machine
  served : ℕ

/-- Requests come and go; or the processor asks for a vector, saves a frame with it and
`irq_common` runs; or `irq_common` runs for a software interrupt; or a thread executes a section of
a call that creates another one. -/
inductive Clock.Step : Clock → Clock → Prop
  | requests (k : Clock) (masterIrr slaveIrr : Byte) :
      Step k { k with pics := { k.pics with masterIrr, slaveIrr } }
  | interrupt (k : Clock) (address : ℕ) (frame : IrqFrame)
      (hvector : frame.vector = k.pics.acknowledge.1.toNat) (pics : Pics)
      (hports : device.Runs (irqPorts (.ofNat 8 frame.vector)) k.pics.acknowledge.2 () pics)
      (machine : Machine) (hmachine : k.machine.irqCommon address frame = .ok machine) :
      Step k {
        pics
        machine
        served := if k.pics.masterIrr.getLsbD 0 then k.served + 1 else k.served }
  | software (k : Clock) (address : ℕ) (frame : IrqFrame)
      (hvector : frame.vector ∈ [yieldVector, exitVector, syscallVector]) (pics : Pics)
      (hports : device.Runs (irqPorts (.ofNat 8 frame.vector)) k.pics () pics)
      (machine : Machine) (hmachine : k.machine.irqCommon address frame = .ok machine) :
      Step k { k with pics, machine }
  | call (k : Clock) (caller : ℕ) (call : CreateCall) (machine : Machine)
      (hmachine : k.machine.beginCall caller call = .ok machine) : Step k { k with machine }
  | proceed (k : Clock) (caller : ℕ) (machine : Machine)
      (hmachine : k.machine.continueCall caller = .ok machine) : Step k { k with machine }

/-- What holds between interrupts, when the scheduler had counted `n` ticks at first. -/
structure Clock.Ok (n : ℕ) (k : Clock) : Prop where
  configured : Configured 0 0 k.pics.controllers
  ticks_eq : k.machine.sched.ticks = n + k.served

/-- The vector of the timer belongs to the interrupt 0 only. -/
lemma vectorOf_eq_timer_iff : ∀ irq, vectorOf irq = .ofNat 8 timerVector ↔ irq = 0 := by decide

/-- The same for the word in the frame. -/
lemma toNat_vectorOf_eq_timer_iff :
    ∀ irq, (vectorOf irq).toNat % 2 ^ 8 = timerVector ↔ irq = 0 := by decide

/-- One step. -/
lemma Clock.Ok.step {n : ℕ} {k k' : Clock} (h : k.Ok n) (hstep : k.Step k') : k'.Ok n := by
  cases hstep with
  | requests masterIrr slaveIrr => exact ⟨h.configured, h.ticks_eq⟩
  | interrupt address frame hframe pics hports machine hmachine =>
    obtain ⟨irq, isr, isr', hvector, hservice, hconfigured, htimer⟩ :=
      inService_of_acknowledge h.configured
    obtain ⟨c', hexec, hquiet⟩ := exec_irqPorts hservice hconfigured
    rw [hvector] at hframe
    rw [hframe, BitVec.ofNat_toNat, BitVec.setWidth_eq] at hports
    obtain ⟨-, rfl⟩ := Device.View.exec_of_runs (v := view) hports hexec
    refine ⟨hquiet, ?_⟩
    change machine.sched.ticks = n + if k.pics.masterIrr.getLsbD 0 then k.served + 1 else k.served
    simp only [(Machine.irqCommon_eq hmachine).1, hframe, toNat_vectorOf_eq_timer_iff, htimer,
      h.ticks_eq]
    split_ifs <;> rfl
  | software address frame hvector pics hports machine hmachine =>
    have hexec : view.exec (irqPorts (.ofNat 8 frame.vector)) k.pics.controllers =
        some ((), k.pics.controllers) := by
      simp only [List.mem_cons, List.not_mem_nil, or_false] at hvector
      rcases hvector with heq | heq | heq <;> rw [heq] <;> rfl
    obtain ⟨-, hcore⟩ := Device.View.exec_of_runs (v := view) hports hexec
    have hsame : pics.controllers = k.pics.controllers := hcore
    refine ⟨by rw [hsame]; exact h.configured, ?_⟩
    have hother : frame.vector % 2 ^ 8 ≠ timerVector := by
      simp only [List.mem_cons, List.not_mem_nil, or_false] at hvector
      rcases hvector with heq | heq | heq <;> rw [heq] <;> decide
    have hticks := (Machine.irqCommon_eq hmachine).1
    rw [if_neg hother] at hticks
    exact hticks.trans h.ticks_eq
  | call caller call machine hmachine =>
    obtain ⟨sched, calls, unprepared, rfl, hticks⟩ := Machine.beginCall_eq hmachine
    exact ⟨h.configured, hticks.trans h.ticks_eq⟩
  | proceed caller machine hmachine =>
    obtain ⟨slots, frames, memory, calls, unprepared, rfl⟩ := Machine.continueCall_eq hmachine
    exact ⟨h.configured, h.ticks_eq⟩

/-- **No tick is lost.**  After `init`, requests come and go in any way, the processor asks for
vectors, also when a request has gone, and `irq_common` runs for them and for software interrupts;
meanwhile threads create others.  In every state between interrupts nothing is in service; the
counter of the scheduler, which `on_tick` increments, has grown by one for every time that the
processor asked for a vector while the timer had made a request, and not otherwise; the next vector
belongs to an interrupt, and to the timer if this has made a request; and the accesses to ports that
`irq_handler` makes for it come to an end. -/
theorem ticks_eq_served (s s₀ : Pics) (r : Checked ℕ) (hinit : device.Runs init s r s₀)
    (m₀ : Machine) (k : Clock) (hrun : Relation.ReflTransGen Clock.Step ⟨s₀, m₀, 0⟩ k) :
    k.machine.sched.ticks = m₀.sched.ticks + k.served ∧
    k.pics.controllers.master.isr = 0 ∧ k.pics.controllers.slave.isr = 0 ∧
    (∃ irq, k.pics.acknowledge.1 = vectorOf irq) ∧
    (k.pics.acknowledge.1 = .ofNat 8 timerVector ↔ k.pics.masterIrr.getLsbD 0 = true) ∧
    ∃ pics, device.Runs (irqPorts k.pics.acknowledge.1) k.pics.acknowledge.2 () pics := by
  have hok : k.Ok m₀.sched.ticks := by
    induction hrun with
    | refl =>
      obtain ⟨-, hcore⟩ := Device.View.exec_of_runs (v := view) hinit (exec_init s.controllers)
      have hcontrollers : s₀.controllers = _ := hcore
      refine ⟨⟨0xFE, 0xFF, false, false, by decide, ?_, ?_⟩, rfl⟩
      · rw [hcontrollers]
      · rw [hcontrollers]
    | tail _ hstep ih => exact ih.step hstep
  obtain ⟨irq, isr, isr', hvector, hservice, hconfigured, htimer⟩ :=
    inService_of_acknowledge hok.configured
  obtain ⟨c', hexec, -⟩ := exec_irqPorts hservice hconfigured
  obtain ⟨imr, imr', readIsr, readIsr', -, hmaster, hslave⟩ := hok.configured
  refine ⟨hok.ticks_eq, by rw [hmaster]; rfl, by rw [hslave]; rfl, ⟨irq, hvector⟩, ?_, ?_⟩
  · rw [hvector, vectorOf_eq_timer_iff, htimer]
  · rw [hvector]
    exact Device.View.runs_of_exec (v := view) hexec

/-- The machine after `init_boot`, without any frames. -/
def bootedMachine : Checked Machine :=
  Machine.boot ⟨⟨[], by decide⟩, ⟨[], by decide⟩, 0, 0, 0, [], by decide, by decide, by decide⟩
    ⟨0x8000, 0x4000⟩ 0x200000

/-- The timer and input 7 make requests, and the processor asks for a vector: one tick is
counted. -/
theorem ticks_eq_served_request : ∃ s r s₀ m₀ k, device.Runs init s r s₀ ∧
    bootedMachine = .ok m₀ ∧ Relation.ReflTransGen Clock.Step ⟨s₀, m₀, 0⟩ k ∧
      k.served = 1 ∧ k.machine.sched.ticks = m₀.sched.ticks + 1 := by
  let chip : Chip := ⟨0, 0, 0, 0, false, false, false, .mask⟩
  let s : Pics := ⟨⟨chip, chip, ⟨0, none, 0⟩⟩, 0, 0⟩
  let frame : IrqFrame := { vector := timerVector }
  obtain ⟨s₀, hinit⟩ :=
    Device.View.runs_of_exec (v := view) (s := s) (exec_init s.controllers)
  have hok : Checked.okAnd (do let m ← bootedMachine; return (m, ← m.irqCommon 0x9000 frame))
      (fun _ => true) = true := by decide +kernel
  obtain ⟨m, hm, -⟩ := Checked.okAnd_eq_true_iff.mp hok
  obtain ⟨m₀, hboot, hm⟩ := Checked.bind_eq_ok.mp hm
  obtain ⟨machine, hmachine, -⟩ := Checked.bind_eq_ok.mp hm
  have hrequests : Relation.ReflTransGen Clock.Step ⟨s₀, m₀, 0⟩ _ := .single (.requests _ 0x81 0)
  have hrequest : (0x81 : Byte).getLsbD 0 = true := by decide
  obtain ⟨-, -, -, -, hvector, pics, hports⟩ := ticks_eq_served s s₀ _ hinit m₀ _ hrequests
  rw [hvector.mpr hrequest] at hports
  have hstep := Clock.Step.interrupt ⟨{ s₀ with masterIrr := 0x81, slaveIrr := 0 }, m₀, 0⟩ 0x9000
    frame (by rw [hvector.mpr hrequest]; rfl) pics hports machine hmachine
  rw [if_pos hrequest] at hstep
  have hrun := hrequests.tail hstep
  exact ⟨s, _, s₀, m₀, _, hinit, hboot, hrun, rfl, (ticks_eq_served s s₀ _ hinit m₀ _ hrun).1⟩

end Pic

end Kernel

end ParanukOS
