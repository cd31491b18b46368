import Mathlib.Data.BitVec
import Mathlib.Data.List.Basic
import Mathlib.Logic.Function.Basic
import Mathlib.Tactic.NormNum

/-!
# Words below a stack pointer

A memory of words, addressed by bytes with 64-bit addresses that wrap around: the word after the one
at `p` is at `p + 8`.  A stack grows towards lower addresses.  `pushWords` pushes a list of words,
the first one first, and `wordsAt` reads a list of words upwards, so that what has been pushed is
read back in the reverse order.

Nothing here asks that the addresses do not wrap around; it is enough that there are not more than
`2 ^ 61` words.
-/

namespace Foundation

variable {α : Type}

/-- The address that lies `n` words below `p`. -/
def wordsBelow (p : BitVec 64) (n : ℕ) : BitVec 64 := p - BitVec.ofNat 64 (8 * n)

/-- The `n` words from `p` upwards. -/
def wordsAt (memory : BitVec 64 → α) (p : BitVec 64) : ℕ → List α
  | 0 => []
  | n + 1 => memory p :: wordsAt memory (p + 8) n

/-- The memory after some words have been pushed below `p`, the first one first. -/
def pushWords (memory : BitVec 64 → α) (p : BitVec 64) : List α → BitVec 64 → α
  | [] => memory
  | w :: ws => pushWords (Function.update memory (p - 8) w) (p - 8) ws

variable {memory memory' : BitVec 64 → α} {p q : BitVec 64}

@[simp] lemma wordsBelow_zero (p : BitVec 64) : wordsBelow p 0 = p := by simp [wordsBelow]

/-- One word below `p`. -/
lemma wordsBelow_one (p : BitVec 64) : wordsBelow p 1 = p - 8 := rfl

lemma wordsBelow_add (p : BitVec 64) (m n : ℕ) :
    wordsBelow p (m + n) = wordsBelow (wordsBelow p m) n := by
  rw [wordsBelow, wordsBelow, wordsBelow, Nat.mul_add, BitVec.ofNat_add, sub_add_eq_sub_sub]

/-- Different words have different addresses. -/
lemma wordsBelow_injective {m n : ℕ} (hm : m < 2 ^ 61) (hn : n < 2 ^ 61)
    (h : wordsBelow p m = wordsBelow p n) : m = n := by
  have heq : BitVec.ofNat 64 (8 * m) = BitVec.ofNat 64 (8 * n) := by
    rw [wordsBelow, wordsBelow] at h
    exact sub_right_injective h
  have hnat := congrArg BitVec.toNat heq
  rw [BitVec.toNat_ofNat, BitVec.toNat_ofNat, Nat.mod_eq_of_lt (by omega),
    Nat.mod_eq_of_lt (by omega)] at hnat
  omega

@[simp] lemma length_wordsAt (memory : BitVec 64 → α) (p : BitVec 64) (n : ℕ) :
    (wordsAt memory p n).length = n := by
  induction n generalizing p with
  | zero => rfl
  | succ n ih => rw [wordsAt, List.length_cons, ih]

/-- One of the words from `p` upwards. -/
lemma getD_wordsAt (memory : BitVec 64 → α) (p : BitVec 64) {i n : ℕ} (h : i < n) (w : α) :
    (wordsAt memory p n).getD i w = memory (p + BitVec.ofNat 64 (8 * i)) := by
  induction n generalizing p i with
  | zero => exact absurd h (Nat.not_lt_zero i)
  | succ n ih =>
    cases i with
    | zero => simp [wordsAt]
    | succ i =>
      rw [wordsAt, List.getD_cons_succ, ih (p + 8) (Nat.lt_of_succ_lt_succ h), Nat.mul_succ,
        Nat.add_comm (8 * i), BitVec.ofNat_add, BitVec.add_assoc]
      rfl

/-- The words depend on the memory at their addresses only. -/
lemma wordsAt_congr {n : ℕ} (h : ∀ i < n, memory' (p + BitVec.ofNat 64 (8 * i)) =
    memory (p + BitVec.ofNat 64 (8 * i))) : wordsAt memory' p n = wordsAt memory p n := by
  induction n generalizing p with
  | zero => rfl
  | succ n ih =>
    have hhead : memory' p = memory p := by simpa using h 0 (Nat.succ_pos n)
    have htail : wordsAt memory' (p + 8) n = wordsAt memory (p + 8) n := by
      refine ih fun i hi => ?_
      have hnext := h (i + 1) (Nat.succ_lt_succ hi)
      rwa [Nat.mul_succ, Nat.add_comm, BitVec.ofNat_add, ← BitVec.add_assoc] at hnext
    rw [wordsAt, wordsAt, hhead, htail]

/-- The words from `p` upwards, the last one at the end. -/
lemma wordsAt_succ (memory : BitVec 64 → α) (p : BitVec 64) (n : ℕ) :
    wordsAt memory p (n + 1) = wordsAt memory p n ++ [memory (p + BitVec.ofNat 64 (8 * n))] := by
  induction n generalizing p with
  | zero => simp [wordsAt]
  | succ n ih =>
    rw [wordsAt, ih, wordsAt, List.cons_append, Nat.mul_succ, Nat.add_comm (8 * n),
      BitVec.ofNat_add, ← BitVec.add_assoc]
    rfl

/-- Pushing two lists of words one after the other. -/
lemma pushWords_append (memory : BitVec 64 → α) (p : BitVec 64) (ws ws' : List α) :
    pushWords memory p (ws ++ ws') =
      pushWords (pushWords memory p ws) (wordsBelow p ws.length) ws' := by
  induction ws generalizing memory p with
  | nil => rw [List.nil_append, List.length_nil, wordsBelow_zero, pushWords]
  | cons w ws ih =>
    rw [List.cons_append, pushWords, ih, pushWords, List.length_cons, Nat.add_comm, wordsBelow_add,
      wordsBelow_one]

/-- Pushing leaves all words alone that are not directly below `p`. -/
lemma pushWords_of_ne {ws : List α} (h : ∀ i < ws.length, q ≠ wordsBelow p (i + 1)) :
    pushWords memory p ws q = memory q := by
  induction ws generalizing memory p with
  | nil => rfl
  | cons w ws ih =>
    have hfirst : q ≠ p - 8 := h 0 (Nat.succ_pos _)
    rw [pushWords, ih fun i hi => ?_, Function.update_of_ne hfirst]
    have hnext := h (i + 1) (Nat.succ_lt_succ hi)
    rwa [Nat.add_comm (i + 1), wordsBelow_add, wordsBelow_one] at hnext

/-- What has been pushed is read back in the reverse order. -/
lemma wordsAt_pushWords {ws : List α} (hlen : ws.length < 2 ^ 61) :
    wordsAt (pushWords memory p ws) (wordsBelow p ws.length) ws.length = ws.reverse := by
  induction ws generalizing memory p with
  | nil => rfl
  | cons w ws ih =>
    rw [List.length_cons] at hlen ⊢
    have hbelow : wordsBelow p (ws.length + 1) = wordsBelow (p - 8) ws.length := by
      rw [Nat.add_comm, wordsBelow_add, wordsBelow_one]
    have hsum : wordsBelow (p - 8) ws.length + BitVec.ofNat 64 (8 * ws.length) = p - 8 :=
      BitVec.sub_add_cancel _ _
    -- the first word is the uppermost one, and the other pushes do not reach it
    have hfirst : pushWords (Function.update memory (p - 8) w) (p - 8) ws (p - 8) = w := by
      rw [pushWords_of_ne fun i hi hcon => ?_, Function.update_self]
      have hzero : wordsBelow (p - 8) 0 = wordsBelow (p - 8) (i + 1) := by
        rw [wordsBelow_zero]
        exact hcon
      have := wordsBelow_injective (by norm_num) (by omega) hzero
      omega
    rw [hbelow, wordsAt_succ, hsum, pushWords, ih (by omega), hfirst, List.reverse_cons]

end Foundation
