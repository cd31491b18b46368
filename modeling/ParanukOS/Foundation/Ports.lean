import Mathlib.Data.BitVec
import Mathlib.Logic.Relation

/-!
# Programs that use ports

A `PortProgram` writes bytes to ports and reads bytes from them; it does not know the devices behind
the ports.  A `Device` says what an access does to its state, and in which ways the state changes by
itself between two accesses.  `Device.Runs` is a run of a program on a device, where such changes
happen at any moment.

The rules for pre- and postconditions need one more thing than usual: what is known between two
accesses must be `Stable`, that is, the device does not make it false by itself.  A program that is
`Live` never gets stuck: from every state that it reaches it can return.
-/

namespace Foundation

/-- The number of a port. -/
abbrev Port := BitVec 16

/-- A byte. -/
abbrev Byte := BitVec 8

/-- A program that uses ports. -/
inductive PortProgram (α : Type) where
  /-- It returns. -/
  | ret (a : α)
  /-- It writes a byte and goes on. -/
  | write (port : Port) (value : Byte) (next : PortProgram α)
  /-- It reads a byte and goes on. -/
  | read (port : Port) (next : Byte → PortProgram α)
  /-- It reads a port again and again until the byte passes a test. -/
  | await (port : Port) (ready : Byte → Bool) (next : PortProgram α)

namespace PortProgram

variable {α β : Type}

/-- One program after the other. -/
protected def bind : PortProgram α → (α → PortProgram β) → PortProgram β
  | ret a, f => f a
  | write port value next, f => write port value (next.bind f)
  | read port next, f => read port fun value => (next value).bind f
  | await port ready next, f => await port ready (next.bind f)

instance : Monad PortProgram where
  pure := ret
  bind := PortProgram.bind

/-- Write one byte. -/
def outb (port : Port) (value : Byte) : PortProgram Unit := write port value (ret ())

/-- Read one byte. -/
def inb (port : Port) : PortProgram Byte := read port ret

/-- Read a port until the byte passes a test. -/
def pollUntil (port : Port) (ready : Byte → Bool) : PortProgram Unit := await port ready (ret ())

end PortProgram

/-- A device with the states `δ`. -/
structure Device (δ : Type) where
  /-- A byte is written to a port. -/
  write : δ → Port → Byte → δ
  /-- A byte is read from a port. -/
  read : δ → Port → Byte × δ
  /-- The device changes by itself. -/
  Drift : δ → δ → Prop

namespace Device

variable {α β δ : Type} (d : Device δ)

/-- A run of a program: its result, and the state of the device at the end. -/
inductive Runs : PortProgram α → δ → α → δ → Prop
  | ret (a : α) (s : δ) : Runs (.ret a) s a s
  | drift {p : PortProgram α} {s s₁ s' : δ} {a : α} (hdrift : d.Drift s s₁)
      (hrest : Runs p s₁ a s') : Runs p s a s'
  | write {port : Port} {value : Byte} {next : PortProgram α} {s s' : δ} {a : α}
      (hrest : Runs next (d.write s port value) a s') : Runs (.write port value next) s a s'
  | read {port : Port} {next : Byte → PortProgram α} {s s' : δ} {a : α}
      (hrest : Runs (next (d.read s port).1) (d.read s port).2 a s') : Runs (.read port next) s a s'
  | ready {port : Port} {ready : Byte → Bool} {next : PortProgram α} {s s' : δ} {a : α}
      (hready : ready (d.read s port).1 = true) (hrest : Runs next (d.read s port).2 a s') :
      Runs (.await port ready next) s a s'
  | again {port : Port} {ready : Byte → Bool} {next : PortProgram α} {s s' : δ} {a : α}
      (hready : ready (d.read s port).1 = false)
      (hrest : Runs (.await port ready next) (d.read s port).2 a s') :
      Runs (.await port ready next) s a s'

/-- One step: the device changes by itself, or the program makes an access. -/
inductive Step : PortProgram α × δ → PortProgram α × δ → Prop
  | drift {p : PortProgram α} {s s₁ : δ} (hdrift : d.Drift s s₁) : Step (p, s) (p, s₁)
  | write {port : Port} {value : Byte} {next : PortProgram α} {s : δ} :
      Step (.write port value next, s) (next, d.write s port value)
  | read {port : Port} {next : Byte → PortProgram α} {s : δ} :
      Step (.read port next, s) (next (d.read s port).1, (d.read s port).2)
  | ready {port : Port} {ready : Byte → Bool} {next : PortProgram α} {s : δ}
      (hready : ready (d.read s port).1 = true) :
      Step (.await port ready next, s) (next, (d.read s port).2)
  | again {port : Port} {ready : Byte → Bool} {next : PortProgram α} {s : δ}
      (hready : ready (d.read s port).1 = false) :
      Step (.await port ready next, s) (.await port ready next, (d.read s port).2)

/-- Wherever the program waits, the device can always change by itself so that the byte passes the
test. -/
def Live : PortProgram α → Prop
  | .ret _ => True
  | .write _ _ next => Live next
  | .read _ next => ∀ value, Live (next value)
  | .await port ready next =>
    (∀ s, ∃ s₁, d.Drift s s₁ ∧ ready (d.read s₁ port).1 = true) ∧ Live next

/-- The device does not make the assertion false by itself. -/
def Stable (P : δ → Prop) : Prop := ∀ s s', P s → d.Drift s s' → P s'

/-- Every run from a state with `P` ends in a state with `Q`. -/
def Triple (P : δ → Prop) (p : PortProgram α) (Q : α → δ → Prop) : Prop :=
  ∀ s a s', P s → d.Runs p s a s' → Q a s'

variable {d} {P : δ → Prop} {Q : α → δ → Prop}

/-- A run of two programs consists of a run of each. -/
lemma Runs.bind_cases {p : PortProgram α} {f : α → PortProgram β} {s s' : δ} {b : β}
    (h : d.Runs (p.bind f) s b s') : ∃ a s₁, d.Runs p s a s₁ ∧ d.Runs (f a) s₁ b s' := by
  induction p generalizing s with
  | ret a => exact ⟨a, s, .ret a s, h⟩
  | write port value next ih =>
    generalize hq : (PortProgram.write port value next).bind f = q at h
    induction h with
    | drift hdrift _ ih' =>
      obtain ⟨a, s₁, h1, h2⟩ := ih' ih hq
      exact ⟨a, s₁, .drift hdrift h1, h2⟩
    | write hrest =>
      cases hq
      obtain ⟨a, s₁, h1, h2⟩ := ih hrest
      exact ⟨a, s₁, .write h1, h2⟩
    | ret => cases hq
    | read => cases hq
    | ready => cases hq
    | again => cases hq
  | read port next ih =>
    generalize hq : (PortProgram.read port next).bind f = q at h
    induction h with
    | drift hdrift _ ih' =>
      obtain ⟨a, s₁, h1, h2⟩ := ih' ih hq
      exact ⟨a, s₁, .drift hdrift h1, h2⟩
    | read hrest =>
      cases hq
      obtain ⟨a, s₁, h1, h2⟩ := ih _ hrest
      exact ⟨a, s₁, .read h1, h2⟩
    | ret => cases hq
    | write => cases hq
    | ready => cases hq
    | again => cases hq
  | await port test next ih =>
    generalize hq : (PortProgram.await port test next).bind f = q at h
    induction h with
    | drift hdrift _ ih' =>
      obtain ⟨a, s₁, h1, h2⟩ := ih' ih hq
      exact ⟨a, s₁, .drift hdrift h1, h2⟩
    | ready hready hrest =>
      cases hq
      obtain ⟨a, s₁, h1, h2⟩ := ih hrest
      exact ⟨a, s₁, .ready hready h1, h2⟩
    | again hready _ ih' =>
      cases hq
      obtain ⟨a, s₁, h1, h2⟩ := ih' ih rfl
      exact ⟨a, s₁, .again hready h1, h2⟩
    | ret => cases hq
    | write => cases hq
    | read => cases hq

/-- A run that begins after some steps. -/
lemma Runs.of_steps {x y : PortProgram α × δ} {a : α} {s' : δ}
    (h : Relation.ReflTransGen d.Step x y) (hrun : d.Runs y.1 y.2 a s') :
    d.Runs x.1 x.2 a s' := by
  induction h using Relation.ReflTransGen.head_induction_on with
  | refl => exact hrun
  | head hstep _ ih =>
    cases hstep with
    | drift hdrift => exact .drift hdrift ih
    | write => exact .write ih
    | read => exact .read ih
    | ready hready => exact .ready hready ih
    | again hready => exact .again hready ih

namespace Live

/-- The rule for two programs. -/
lemma bind {p : PortProgram α} {f : α → PortProgram β} (h : d.Live p) (hf : ∀ a, d.Live (f a)) :
    d.Live (p >>= f) := by
  change d.Live (p.bind f)
  induction p with
  | ret a => exact hf a
  | write port value next ih => exact ih h
  | read port next ih => exact fun value => ih value (h value)
  | await port ready next ih => exact ⟨h.1, ih h.2⟩

/-- What is left of the program after a step. -/
lemma step {x y : PortProgram α × δ} (h : d.Live x.1) (hstep : d.Step x y) : d.Live y.1 := by
  cases hstep with
  | drift => exact h
  | write => exact h
  | read => exact h _
  | ready => exact h.2
  | again => exact h

/-- What is left after some steps. -/
lemma steps {x y : PortProgram α × δ} (h : d.Live x.1)
    (hsteps : Relation.ReflTransGen d.Step x y) : d.Live y.1 := by
  induction hsteps with
  | refl => exact h
  | tail _ hstep ih => exact ih.step hstep

/-- The program can return, from every state. -/
lemma exists_runs {p : PortProgram α} (h : d.Live p) (s : δ) : ∃ a s', d.Runs p s a s' := by
  induction p generalizing s with
  | ret a => exact ⟨a, s, .ret a s⟩
  | write port value next ih =>
    obtain ⟨a, s', hrun⟩ := ih h (d.write s port value)
    exact ⟨a, s', .write hrun⟩
  | read port next ih =>
    obtain ⟨a, s', hrun⟩ := ih _ (h _) (d.read s port).2
    exact ⟨a, s', .read hrun⟩
  | await port ready next ih =>
    obtain ⟨s₁, hdrift, hready⟩ := h.1 s
    obtain ⟨a, s', hrun⟩ := ih h.2 (d.read s₁ port).2
    exact ⟨a, s', .drift hdrift (.ready hready hrun)⟩

end Live

namespace Triple

/-- The rule for two programs. -/
lemma bind {p : PortProgram α} {f : α → PortProgram β} {R : β → δ → Prop} (h : d.Triple P p Q)
    (hf : ∀ a, d.Triple (Q a) (f a) R) : d.Triple P (p >>= f) R := by
  intro s b s' hs hrun
  obtain ⟨a, s₁, h1, h2⟩ := Runs.bind_cases hrun
  exact hf a s₁ b s' (h s a s₁ hs h1) h2

/-- The rule for a value. -/
lemma pure {a : α} (hstable : d.Stable P) (h : ∀ s, P s → Q a s) :
    d.Triple P (Pure.pure a : PortProgram α) Q := by
  intro s b s' hs hrun
  generalize hq : (Pure.pure a : PortProgram α) = q at hrun
  induction hrun with
  | ret b s =>
    cases hq
    exact h s hs
  | drift hdrift _ ih => exact ih (hstable _ _ hs hdrift) hq
  | write => cases hq
  | read => cases hq
  | ready => cases hq
  | again => cases hq

/-- The rule for a byte that is written. -/
lemma outb {port : Port} {value : Byte} {R : Unit → δ → Prop} (hstable : d.Stable P)
    (hstable' : d.Stable (R ())) (h : ∀ s, P s → R () (d.write s port value)) :
    d.Triple P (.outb port value) R := by
  intro s b s' hs hrun
  generalize hq : PortProgram.outb port value = q at hrun
  induction hrun with
  | drift hdrift _ ih => exact ih (hstable _ _ hs hdrift) hq
  | write hrest =>
    cases hq
    exact pure hstable' (fun s hs => hs) _ _ _ (h _ hs) hrest
  | ret => cases hq
  | read => cases hq
  | ready => cases hq
  | again => cases hq

/-- The rule for a port that is read until the byte passes the test. -/
lemma pollUntil {port : Port} {test : Byte → Bool} {R : Unit → δ → Prop} (hstable : d.Stable P)
    (hstable' : d.Stable (R ()))
    (hready : ∀ s, P s → test (d.read s port).1 = true → R () (d.read s port).2)
    (hagain : ∀ s, P s → test (d.read s port).1 = false → P (d.read s port).2) :
    d.Triple P (.pollUntil port test) R := by
  intro s b s' hs hrun
  generalize hq : PortProgram.pollUntil port test = q at hrun
  induction hrun with
  | drift hdrift _ ih => exact ih (hstable _ _ hs hdrift) hq
  | ready htest hrest =>
    cases hq
    exact pure hstable' (fun s hs => hs) _ _ _ (hready _ hs htest) hrest
  | again htest _ ih =>
    cases hq
    exact ih (hagain _ hs htest) rfl
  | ret => cases hq
  | write => cases hq
  | read => cases hq

end Triple

/-! ## Programs that a part of the device determines -/

/-- A part of the state that the device does not change by itself, and that determines what accesses
do to it; it determines the bytes of some ports. -/
structure View (d : Device δ) (κ : Type) where
  core : δ → κ
  write : κ → Port → Byte → κ
  read : κ → Port → Option Byte
  core_drift : ∀ s s', d.Drift s s' → core s' = core s
  core_write : ∀ s port value, core (d.write s port value) = write (core s) port value
  core_read : ∀ s port, core (d.read s port).2 = core s
  read_eq : ∀ s port value, read (core s) port = some value → (d.read s port).1 = value

namespace View

variable {κ : Type} (v : View d κ)

/-- What a program returns and does to the part, if the part determines it. -/
def exec : PortProgram α → κ → Option (α × κ)
  | .ret a, k => some (a, k)
  | .write port value next, k => exec next (v.write k port value)
  | .read port next, k =>
    match v.read k port with
    | none => none
    | some value => exec (next value) k
  | .await _ _ _, _ => none

@[simp] lemma exec_pure (a : α) (k : κ) : v.exec (pure a) k = some (a, k) := rfl

@[simp] lemma exec_outb (port : Port) (value : Byte) (k : κ) :
    v.exec (.outb port value) k = some ((), v.write k port value) := rfl

@[simp] lemma exec_inb (port : Port) (k : κ) :
    v.exec (.inb port) k = (v.read k port).map fun value => (value, k) := by
  rw [PortProgram.inb, exec]
  cases v.read k port <;> rfl

@[simp] lemma exec_bind (p : PortProgram α) (f : α → PortProgram β) (k : κ) :
    v.exec (p >>= f) k = (v.exec p k).bind fun x => v.exec (f x.1) x.2 := by
  change v.exec (p.bind f) k = _
  induction p generalizing k with
  | ret a => rfl
  | write port value next ih => exact ih _
  | read port next ih =>
    rw [PortProgram.bind, exec, exec]
    cases v.read k port with
    | none => rfl
    | some value => exact ih value k
  | await port ready next => rfl

variable {v}

/-- Every run does what the part says. -/
lemma exec_of_runs {p : PortProgram α} {s s' : δ} {a b : α} {k : κ} (hrun : d.Runs p s a s')
    (hexec : v.exec p (v.core s) = some (b, k)) : a = b ∧ v.core s' = k := by
  induction hrun with
  | ret a s =>
    obtain ⟨rfl, rfl⟩ := Prod.mk.inj (Option.some.inj hexec)
    exact ⟨rfl, rfl⟩
  | drift hdrift _ ih => exact ih (by rwa [v.core_drift _ _ hdrift])
  | write _ ih =>
    rw [exec, ← v.core_write] at hexec
    exact ih hexec
  | @read port next s s' a _ ih =>
    rw [exec] at hexec
    cases hvalue : v.read (v.core s) port with
    | none =>
      rw [hvalue] at hexec
      cases hexec
    | some value =>
      rw [hvalue] at hexec
      rw [v.read_eq s port value hvalue, v.core_read] at ih
      exact ih hexec
  | ready => cases hexec
  | again => cases hexec

/-- There is a run. -/
lemma runs_of_exec {p : PortProgram α} {s : δ} {b : α} {k : κ}
    (hexec : v.exec p (v.core s) = some (b, k)) : ∃ s', d.Runs p s b s' := by
  induction p generalizing s with
  | ret a =>
    obtain ⟨rfl, -⟩ := Prod.mk.inj (Option.some.inj hexec)
    exact ⟨s, .ret a s⟩
  | write port value next ih =>
    rw [exec, ← v.core_write] at hexec
    obtain ⟨s', hrun⟩ := ih hexec
    exact ⟨s', .write hrun⟩
  | read port next ih =>
    rw [exec] at hexec
    cases hvalue : v.read (v.core s) port with
    | none =>
      rw [hvalue] at hexec
      cases hexec
    | some value =>
      rw [hvalue, ← v.core_read s port] at hexec
      obtain ⟨s', hrun⟩ := ih value hexec
      exact ⟨s', .read (by rwa [v.read_eq s port value hvalue])⟩
  | await port ready next => cases hexec

end View

end Device

end Foundation
