import ParanukOS.Foundation.Bytes
import ParanukOS.Foundation.Words

/-!
# Slices of bytes as bitmaps

Bit `i` of a bitmap is bit `i % 8` of its byte `i / 8`.  Programs test it with a mask and change it
by `or` and `and` with a mask; `bitAt` and `setBitAt` are these operations, and `bitAt_setBitAt` is
all that is needed about them.  Bitmaps of the same length with the same bits are equal.
-/

namespace Foundation

/-- The byte whose only bit is the one of index `i`. -/
def bitMask (i : ℕ) : UInt8 := 1 <<< UInt8.ofNat (i % 8)

lemma toNat_bitMask (i : ℕ) : (bitMask i).toNat = 2 ^ (i % 8) := by
  have hi : i % 8 < 8 := Nat.mod_lt _ (by norm_num)
  rw [bitMask]
  interval_cases i % 8 <;> rfl

/-- A test with a mask reads one bit. -/
lemma and_bitMask_ne_zero (b : UInt8) (i : ℕ) :
    (b &&& bitMask i != 0) = b.toNat.testBit (i % 8) := by
  have hzero : b &&& bitMask i = 0 ↔ b.toNat.testBit (i % 8) = false := by
    rw [← and_two_pow_eq_zero_iff, ← toNat_bitMask, ← UInt8.toNat_and]
    exact UInt8.toNat_inj.symm
  cases h : b.toNat.testBit (i % 8) with
  | false => rw [hzero.mpr h]; rfl
  | true =>
    refine bne_iff_ne.mpr fun hcon => ?_
    rw [hzero.mp hcon] at h
    exact Bool.noConfusion h

/-- The byte with one bit set or cleared. -/
def putBit (b : UInt8) (i : ℕ) (v : Bool) : UInt8 :=
  if v then b ||| bitMask i else b &&& ~~~ bitMask i

lemma testBit_putBit (b : UInt8) (i : ℕ) (v : Bool) {j : ℕ} (hj : j < 8) :
    (putBit b i v).toNat.testBit j = if j = i % 8 then v else b.toNat.testBit j := by
  have hi : i % 8 < 8 := Nat.mod_lt _ (by norm_num)
  cases v with
  | true =>
    simp only [putBit, if_true, UInt8.toNat_or, Nat.testBit_or, toNat_bitMask, Nat.testBit_two_pow]
    split_ifs with h
    · simp [h]
    · simp [show ¬ i % 8 = j from fun hcon => h hcon.symm]
  | false =>
    have hnot : (~~~ bitMask i).toNat = 2 ^ 8 - (2 ^ (i % 8) + 1) := by
      rw [UInt8.toNat_not, toNat_bitMask, Nat.sub_sub, Nat.add_comm]
      rfl
    have hpow : 2 ^ (i % 8) < 2 ^ 8 := Nat.pow_lt_pow_right (by norm_num) hi
    simp only [putBit, Bool.false_eq_true, if_false, UInt8.toNat_and, Nat.testBit_and, hnot,
      Nat.testBit_two_pow_sub_succ hpow, Nat.testBit_two_pow]
    split_ifs with h
    · simp [h]
    · simp [hj, show ¬ i % 8 = j from fun hcon => h hcon.symm]

namespace Slice

variable {s t : Slice UInt8} {i j n : ℕ} {v : Bool}

/-- The bit with index `i`; no bit is set beyond the end. -/
def bitAt (s : Slice UInt8) (i : ℕ) : Bool :=
  match s.get? (i / 8) with
  | some b => b &&& bitMask i != 0
  | none => false

/-- The bitmap with one bit changed; nothing is changed beyond the end. -/
def setBitAt (s : Slice UInt8) (i : ℕ) (v : Bool) : Slice UInt8 :=
  match s.get? (i / 8) with
  | some b => s.overwrite (i / 8) [putBit b i v]
  | none => s

@[simp] lemma length_setBitAt (s : Slice UInt8) (i : ℕ) (v : Bool) :
    (s.setBitAt i v).length = s.length := by
  rw [setBitAt]
  split
  · exact length_overwrite _ _ _
  · rfl

lemma bitAt_eq {b : UInt8} (h : s.get? (i / 8) = some b) : s.bitAt i = b.toNat.testBit (i % 8) := by
  simp only [bitAt, h]
  exact and_bitMask_ne_zero b i

/-- The bits after one of them is changed. -/
lemma bitAt_setBitAt (h : i < 8 * s.length) (v : Bool) (j : ℕ) :
    (s.setBitAt i v).bitAt j = if j = i then v else s.bitAt j := by
  have hin : i / 8 < s.length := by omega
  obtain ⟨b, hb⟩ : ∃ b, s.get? (i / 8) = some b :=
    Option.ne_none_iff_exists'.mp fun hcon => absurd (get?_eq_none_iff.mp hcon) (not_le.mpr hin)
  have hset : s.setBitAt i v = s.overwrite (i / 8) [putBit b i v] := by simp only [setBitAt, hb]
  by_cases hj : j / 8 = i / 8
  · -- the same byte
    have hget : (s.setBitAt i v).get? (j / 8) = some (putBit b i v) := by
      rw [hset, hj, get?_overwrite (by simpa using hin), if_pos (by simp), Nat.sub_self]
      rfl
    rw [bitAt_eq hget, testBit_putBit b i v (Nat.mod_lt _ (by norm_num)), bitAt_eq (hj.symm ▸ hb)]
    by_cases hji : j = i
    · rw [if_pos hji, if_pos (by rw [hji])]
    · rw [if_neg hji, if_neg (by omega)]
  · have hget : (s.setBitAt i v).get? (j / 8) = s.get? (j / 8) := by
      rw [hset]
      exact get?_overwrite_of_notMem s (by simp only [List.length_singleton]; omega)
    rw [bitAt, hget, if_neg (fun hcon => hj (by rw [hcon])), bitAt]

/-- Bitmaps with the same bits are equal. -/
lemma ext_bitAt (hlen : s.length = t.length) (h : ∀ i, s.bitAt i = t.bitAt i) : s = t := by
  ext1 k
  by_cases hk : k < s.length
  · obtain ⟨b, hb⟩ : ∃ b, s.get? k = some b :=
      Option.ne_none_iff_exists'.mp fun hcon => absurd (get?_eq_none_iff.mp hcon) (not_le.mpr hk)
    obtain ⟨c, hc⟩ : ∃ c, t.get? k = some c :=
      Option.ne_none_iff_exists'.mp fun hcon =>
        absurd (get?_eq_none_iff.mp hcon) (not_le.mpr (hlen ▸ hk))
    rw [hb, hc]
    congr 1
    refine UInt8.toNat_inj.mp (Nat.eq_of_testBit_eq fun i => ?_)
    by_cases hi : i < 8
    · have hdiv : (8 * k + i) / 8 = k := by omega
      have hmod : (8 * k + i) % 8 = i := by omega
      have hbit := h (8 * k + i)
      rwa [bitAt_eq (hdiv.symm ▸ hb), bitAt_eq (hdiv.symm ▸ hc), hmod] at hbit
    · have hpow : 2 ^ 8 ≤ 2 ^ i := Nat.pow_le_pow_right (by norm_num) (not_lt.mp hi)
      rw [Nat.testBit_lt_two_pow (lt_of_lt_of_le b.toNat_lt hpow),
        Nat.testBit_lt_two_pow (lt_of_lt_of_le c.toNat_lt hpow)]
  · rw [get?_eq_none_iff.mpr (not_lt.mp hk), get?_eq_none_iff.mpr (hlen ▸ not_lt.mp hk)]

/-- The bits of bytes that have all been set to the same value. -/
lemma bitAt_fill (h : n ≤ s.length) (b : UInt8) (hi : i < 8 * n) :
    (s.overwrite 0 (List.replicate n b)).bitAt i = b.toNat.testBit (i % 8) := by
  refine bitAt_eq ?_
  rw [get?_overwrite (by rw [List.length_replicate]; omega),
    if_pos (by rw [List.length_replicate]; omega), Nat.sub_zero, List.getElem?_replicate,
    if_pos (by omega)]

end Slice

end Foundation
