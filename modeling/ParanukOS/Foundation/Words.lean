import Mathlib.Tactic
import Mathlib.Data.Nat.Bitwise
import ParanukOS.Foundation.Checked

/-!
# Bit masks of machine words

Programs round addresses to a power of two by masking the low bits away, and pack flags into the
low bits of an aligned address.  This file states what these masks do in terms of quotients and
remainders.
-/

namespace Foundation

/-- The bitwise complement of a word. -/
def notWord (x : ℕ) : ℕ := 2 ^ 64 - 1 - x

/-- Whether a word is a power of two. -/
def isPowerOfTwo (n : ℕ) : Bool := (List.range 64).any fun k => n == 2 ^ k

lemma isPowerOfTwo_iff {n : ℕ} : isPowerOfTwo n = true ↔ ∃ k < 64, n = 2 ^ k := by
  simp [isPowerOfTwo]

/-- The bits of a number below `2 ^ n` vanish from position `n` on. -/
lemma testBit_eq_false_of_lt_two_pow {v n i : ℕ} (hv : v < 2 ^ n) (hi : n ≤ i) :
    v.testBit i = false :=
  Nat.testBit_lt_two_pow (lt_of_lt_of_le hv (Nat.pow_le_pow_right (by norm_num) hi))

/-- The complement of the low `k` bits is a block of `64 - k` ones. -/
lemma notWord_two_pow_sub_one {k : ℕ} (hk : k ≤ 64) :
    notWord (2 ^ k - 1) = (2 ^ (64 - k) - 1) * 2 ^ k := by
  have hpow : 2 ^ (64 - k) * 2 ^ k = 2 ^ 64 := by rw [← pow_add]; congr 1; omega
  have hpos : 0 < 2 ^ k := by positivity
  rw [notWord, Nat.sub_mul, hpow]
  omega

/-- Masking with the complement of the low `k` bits rounds down to a multiple of `2 ^ k`. -/
lemma and_notWord_two_pow_sub_one {v k : ℕ} (hk : k ≤ 64) (hv : v < 2 ^ 64) :
    v &&& notWord (2 ^ k - 1) = v / 2 ^ k * 2 ^ k := by
  rw [notWord_two_pow_sub_one hk]
  refine Nat.eq_of_testBit_eq fun i => ?_
  rw [Nat.testBit_and, Nat.testBit_mul_two_pow, Nat.testBit_mul_two_pow,
    Nat.testBit_two_pow_sub_one,
    Nat.testBit_div_two_pow]
  by_cases hki : k ≤ i
  · have hik : i - k + k = i := by omega
    rw [hik]
    by_cases hi : i < 64
    · simp [hki, show i - k < 64 - k by omega]
    · simp [hki, testBit_eq_false_of_lt_two_pow hv (not_lt.mp hi)]
  · simp [hki]

/-- Setting flags in the low bits of an aligned word adds them. -/
lemma mul_two_pow_or {a k f : ℕ} (hf : f < 2 ^ k) : a * 2 ^ k ||| f = a * 2 ^ k + f := by
  rw [mul_comm]
  exact (Nat.two_pow_add_eq_or_of_lt hf a).symm

/-- A test of one flag reads the corresponding bit. -/
lemma and_two_pow_eq_zero_iff {v i : ℕ} : v &&& 2 ^ i = 0 ↔ v.testBit i = false := by
  rw [Nat.and_two_pow]
  cases v.testBit i <;> simp

end Foundation
