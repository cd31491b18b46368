import Mathlib.Tactic

/-!
# Checked machine arithmetic

Programs compiled with overflow checks stop at the first arithmetic operation whose result does
not fit its type, at the first index outside a slice and at the first assertion that fails.  A
computation that may stop in this way is a value of `Checked α`: either the result of type `α`, or
the `Panic` that stopped it.

Machine words are natural numbers below `2 ^ 64`.  Each partial operation comes in the two forms
programs use: `checkedAdd`, `checkedMul` and `checkedSub` return an option, whereas `addWord`,
`mulWord` and `subWord` stop the program.
-/

namespace Foundation

/-- The reasons for which a checked program stops. -/
inductive Panic where
  /-- The result of an arithmetic operation does not fit its type. -/
  | overflow
  /-- An index or a range lies outside of its slice. -/
  | outOfBounds
  /-- An assertion does not hold. -/
  | assertion
  /-- A number is divided by zero. -/
  | divisionByZero
  deriving DecidableEq, Repr

/-- A computation that either returns a value or stops with a panic. -/
abbrev Checked (α : Type) := Except Panic α

namespace Checked

variable {α β : Type}

/-- A sequence of two computations returns exactly when both of them do. -/
lemma bind_eq_ok {x : Checked α} {f : α → Checked β} {r : β} :
    (x >>= f) = .ok r ↔ ∃ a, x = .ok a ∧ f a = .ok r := by
  constructor
  · intro h
    cases x with
    | error e => exact absurd h (by simp [bind, Except.bind])
    | ok a => exact ⟨a, rfl, h⟩
  · rintro ⟨a, rfl, hf⟩
    exact hf

/-- A sequence whose second computation always returns does so when the first one does. -/
lemma bind_returns_iff {x : Checked α} {f : α → Checked β} (hf : ∀ a, ∃ r, f a = .ok r) :
    (∃ r, (x >>= f) = .ok r) ↔ ∃ a, x = .ok a := by
  constructor
  · rintro ⟨r, hr⟩
    obtain ⟨a, ha, -⟩ := bind_eq_ok.mp hr
    exact ⟨a, ha⟩
  · rintro ⟨a, ha⟩
    obtain ⟨r, hr⟩ := hf a
    exact ⟨r, bind_eq_ok.mpr ⟨a, ha, hr⟩⟩

/-- A computation with a state whose result is wrapped. -/
lemma mapFst_eq_ok {γ : Type} {x : Checked (α × γ)} {f : α → β} {b : β} {c : γ} :
    (do let (a, c) ← x; return (f a, c)) = .ok (b, c) ↔ ∃ a, x = .ok (a, c) ∧ f a = b := by
  constructor
  · intro h
    obtain ⟨⟨a, c₁⟩, hx, h⟩ := bind_eq_ok.mp h
    obtain ⟨rfl, rfl⟩ := Prod.mk.inj (Except.ok.inj h)
    exact ⟨a, hx, rfl⟩
  · rintro ⟨a, rfl, rfl⟩
    rfl

/-- A sequence whose first computation returns continues with the value returned. -/
@[simp] lemma ok_bind (a : α) (f : α → Checked β) : ((.ok a : Checked α) >>= f) = f a := rfl

/-- A sequence whose first computation stops stops for the same reason. -/
@[simp] lemma error_bind (e : Panic) (f : α → Checked β) :
    ((.error e : Checked α) >>= f) = .error e := rfl

/-- Returning a value never stops. -/
@[simp] lemma pure_eq_ok (a : α) : (pure a : Checked α) = .ok a := rfl

/-- The test whether a computation returns a value with a property. -/
def okAnd (x : Checked α) (p : α → Bool) : Bool :=
  match x with
  | .ok a => p a
  | .error _ => false

lemma okAnd_eq_true_iff {x : Checked α} {p : α → Bool} :
    okAnd x p = true ↔ ∃ a, x = .ok a ∧ p a = true := by
  cases x <;> simp [okAnd]

/-- The test whether a computation stops for a given reason. -/
def stopsWith (x : Checked α) (e : Panic) : Bool :=
  match x with
  | .ok _ => false
  | .error e' => decide (e' = e)

lemma stopsWith_eq_true_iff {x : Checked α} {e : Panic} :
    stopsWith x e = true ↔ x = .error e := by
  cases x <;> simp [stopsWith]

/-- The test for a computation whose value is a result or an error. -/
lemma okAnd_any_eq_true_iff {ε : Type} {x : Checked (Except ε α)} {p : α → Bool} :
    okAnd x (fun r => r.toOption.any p) = true ↔ ∃ a, x = .ok (.ok a) ∧ p a = true := by
  rw [okAnd_eq_true_iff]
  constructor
  · rintro ⟨r, hr, hp⟩
    cases r with
    | error e => cases hp
    | ok a => exact ⟨a, hr, hp⟩
  · rintro ⟨a, ha, hp⟩
    exact ⟨.ok a, ha, hp⟩

end Checked

/-! ## Word arithmetic -/

/-- The sum of two words, when it is a word. -/
def checkedAdd (a b : ℕ) : Option ℕ := if a + b < 2 ^ 64 then some (a + b) else none

/-- The product of two words, when it is a word. -/
def checkedMul (a b : ℕ) : Option ℕ := if a * b < 2 ^ 64 then some (a * b) else none

/-- The difference of two words, when it is not negative. -/
def checkedSub (a b : ℕ) : Option ℕ := if b ≤ a then some (a - b) else none

/-- The sum of two words; stops on overflow. -/
def addWord (a b : ℕ) : Checked ℕ := if a + b < 2 ^ 64 then .ok (a + b) else .error .overflow

/-- The sum of two 16-bit words; stops on overflow. -/
def addU16 (a b : ℕ) : Checked ℕ := if a + b < 2 ^ 16 then .ok (a + b) else .error .overflow

/-- The product of two words; stops on overflow. -/
def mulWord (a b : ℕ) : Checked ℕ := if a * b < 2 ^ 64 then .ok (a * b) else .error .overflow

/-- The difference of two words; stops when it is negative. -/
def subWord (a b : ℕ) : Checked ℕ := if b ≤ a then .ok (a - b) else .error .overflow

/-- The quotient of two words; stops when the second one is zero. -/
def divWord (a b : ℕ) : Checked ℕ := if b = 0 then .error .divisionByZero else .ok (a / b)

/-- The sum of two words, or the largest word. -/
def saturatingAdd (a b : ℕ) : ℕ := min (a + b) (2 ^ 64 - 1)

/-- The product of two words, or the largest word. -/
def saturatingMul (a b : ℕ) : ℕ := min (a * b) (2 ^ 64 - 1)

/-- The quotient rounded up. -/
def divCeil (a b : ℕ) : ℕ := (a + b - 1) / b

/-- A `debug_assert!` of the decidable proposition `p`. -/
def debugAssert (p : Prop) [Decidable p] : Checked Unit :=
  if p then .ok () else .error .assertion

lemma checkedAdd_eq_some_iff {a b c : ℕ} :
    checkedAdd a b = some c ↔ a + b < 2 ^ 64 ∧ c = a + b := by
  unfold checkedAdd
  split <;> simp_all [eq_comm]

lemma checkedAdd_of_lt {a b : ℕ} (h : a + b < 2 ^ 64) : checkedAdd a b = some (a + b) := if_pos h

lemma checkedAdd_eq_none_iff {a b : ℕ} : checkedAdd a b = none ↔ 2 ^ 64 ≤ a + b := by
  unfold checkedAdd
  split <;> simp_all

lemma checkedSub_of_le {a b : ℕ} (h : b ≤ a) : checkedSub a b = some (a - b) := if_pos h

lemma addWord_eq_ok_iff {a b c : ℕ} : addWord a b = .ok c ↔ a + b < 2 ^ 64 ∧ c = a + b := by
  unfold addWord
  split <;> simp_all [eq_comm]

lemma addWord_of_lt {a b : ℕ} (h : a + b < 2 ^ 64) : addWord a b = .ok (a + b) := if_pos h

lemma addU16_of_lt {a b : ℕ} (h : a + b < 2 ^ 16) : addU16 a b = .ok (a + b) := if_pos h

lemma mulWord_eq_ok_iff {a b c : ℕ} : mulWord a b = .ok c ↔ a * b < 2 ^ 64 ∧ c = a * b := by
  unfold mulWord
  split <;> simp_all [eq_comm]

lemma mulWord_of_lt {a b : ℕ} (h : a * b < 2 ^ 64) : mulWord a b = .ok (a * b) := if_pos h

lemma subWord_of_le {a b : ℕ} (h : b ≤ a) : subWord a b = .ok (a - b) := if_pos h

lemma debugAssert_of {p : Prop} [Decidable p] (h : p) : debugAssert p = .ok () := if_pos h

/-- The rounded quotient is the least number of parts that cover the whole. -/
lemma le_divCeil_mul (a : ℕ) {b : ℕ} (hb : 0 < b) : a ≤ divCeil a b * b := by
  have hlt : a + b - 1 < divCeil a b * b + b := Nat.lt_div_mul_add hb
  omega

/-- A positive quotient of at most one, rounded up. -/
lemma divCeil_eq_one {a b : ℕ} (ha : 0 < a) (hab : a ≤ b) : divCeil a b = 1 := by
  rw [divCeil]
  exact Nat.div_eq_of_lt_le (by omega) (by omega)

lemma divCeil_le {a b n : ℕ} (hb : 0 < b) (h : a ≤ b * n) : divCeil a b ≤ n := by
  rw [divCeil]
  refine Nat.lt_succ_iff.mp ((Nat.div_lt_iff_lt_mul hb).mpr ?_)
  rw [Nat.succ_mul, mul_comm]
  omega

end Foundation
