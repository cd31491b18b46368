import ParanukOS.Foundation.Bytes
import ParanukOS.Foundation.Words

/-!
# Slices of bytes as arrays of words

`s.word k` is the little-endian word in the bytes `8 * k, …, 8 * k + 7` of a slice, and `0` beyond
its end.  Programs that keep tables of words in raw memory write them one at a time or clear whole
ranges; the lemmas say what this does to every word.  The second part is about words that pack an
aligned address and flags: `packed_and_mask` and `testBit_packed` take them apart.
-/

namespace Foundation

namespace Slice

/-- The `k`-th word. -/
def word (s : Slice UInt8) (k : ℕ) : ℕ := (s.leWord? (8 * k) 8).getD 0

/-- The slice with its `k`-th word replaced. -/
def setWord (s : Slice UInt8) (k v : ℕ) : Slice UInt8 := s.overwrite (8 * k) (leBytes 8 v)

/-- The slice with `m` words from the `k`-th on replaced by zeros. -/
def clearWords (s : Slice UInt8) (k m : ℕ) : Slice UInt8 :=
  s.overwrite (8 * k) (List.replicate (8 * m) 0)

variable {s : Slice UInt8} {k m v : ℕ}

@[simp] lemma length_setWord (s : Slice UInt8) (k v : ℕ) : (s.setWord k v).length = s.length :=
  length_overwrite _ _ _

@[simp] lemma length_clearWords (s : Slice UInt8) (k m : ℕ) :
    (s.clearWords k m).length = s.length := length_overwrite _ _ _

/-- A word inside of the slice can be read. -/
lemma leWord?_eq_word (h : 8 * k + 8 ≤ s.length) : s.leWord? (8 * k) 8 = some (s.word k) := by
  obtain ⟨v, hv⟩ := leWord?_isSome h
  rw [word, hv]
  rfl

/-- Words after a word has been written. -/
lemma word_setWord (hk : 8 * k + 8 ≤ s.length) (hv : v < 2 ^ 64) (j : ℕ) :
    (s.setWord k v).word j = if j = k then v else s.word j := by
  have hin : 8 * k + (leBytes 8 v).length ≤ s.length := by rwa [length_leBytes]
  split_ifs with hj
  · subst hj
    have hread : (s.overwrite (8 * j) (leBytes 8 v)).leWord? (8 * j + 0) 8 = some v :=
      leWord?_overwrite_self hin (by simp) (by simp [List.take_of_length_le])
        (by norm_num; exact hv)
    rw [Nat.add_zero] at hread
    rw [word, setWord, hread]
    rfl
  · rw [word, setWord, leWord?_overwrite_of_disjoint s (by rw [length_leBytes]; omega), ← word]

/-- A list of zeros stands for the number zero. -/
lemma leVal_replicate_zero (n : ℕ) : leVal (List.replicate n 0) = 0 := by
  induction n with
  | zero => rfl
  | succ n ih => rw [List.replicate_succ, leVal, ih]; rfl

/-- Words after a range has been cleared. -/
lemma word_clearWords (hk : 8 * (k + m) ≤ s.length) (j : ℕ) :
    (s.clearWords k m).word j = if k ≤ j ∧ j < k + m then 0 else s.word j := by
  have hlen : (List.replicate (8 * m) (0 : UInt8)).length = 8 * m := List.length_replicate
  split_ifs with hj
  · have hrange : (s.overwrite (8 * k) (List.replicate (8 * m) 0)).range? (8 * k + 8 * (j - k)) 8 =
        some (((List.replicate (8 * m) (0 : UInt8)).drop (8 * (j - k))).take 8) :=
      range?_overwrite_self (by rw [hlen]; omega) (by rw [hlen]; omega)
    rw [show 8 * k + 8 * (j - k) = 8 * j by omega, List.drop_replicate,
      List.take_replicate] at hrange
    rw [word, clearWords, leWord?, hrange, Option.map_some, leVal_replicate_zero]
    rfl
  · rw [word, clearWords, leWord?_overwrite_of_disjoint s (by rw [hlen]; omega), ← word]

/-- A word depends on its bytes only. -/
lemma word_congr {t : Slice UInt8} (hs : 8 * k + 8 ≤ s.length) (ht : 8 * k + 8 ≤ t.length)
    (h : ∀ i, 8 * k ≤ i → i < 8 * k + 8 → s.get? i = t.get? i) : s.word k = t.word k := by
  have hsr := range?_of_le hs
  have htr := range?_of_le ht
  have hbytes : (s.toList.drop (8 * k)).take 8 = (t.toList.drop (8 * k)).take 8 := by
    refine List.ext_getElem? fun i => ?_
    rw [getElem?_range? hsr, getElem?_range? htr]
    split_ifs with hi
    · exact h _ (by omega) (by omega)
    · rfl
  rw [word, word, leWord?, leWord?, hsr, htr, hbytes]

/-- Equal words have equal bytes. -/
lemma get?_eq_of_word_eq {t : Slice UInt8} (hs : 8 * k + 8 ≤ s.length) (ht : 8 * k + 8 ≤ t.length)
    (h : s.word k = t.word k) {i : ℕ} (hlow : 8 * k ≤ i) (hhigh : i < 8 * k + 8) :
    s.get? i = t.get? i := by
  have hsr := range?_of_le hs
  have htr := range?_of_le ht
  have hbytes := leVal_injective ((length_range? hsr).trans (length_range? htr).symm) (by
    rwa [word, word, leWord?, leWord?, hsr, htr] at h)
  have hsi := getElem?_range? hsr (i - 8 * k)
  have hti := getElem?_range? htr (i - 8 * k)
  rw [if_pos (by omega), Nat.add_sub_cancel' hlow] at hsi hti
  rw [← hsi, ← hti, hbytes]

/-- A written word changes no byte outside of it. -/
lemma get?_setWord_of_notMem {i : ℕ} (h : i < 8 * k ∨ 8 * k + 8 ≤ i) :
    (s.setWord k v).get? i = s.get? i :=
  get?_overwrite_of_notMem s (by rwa [length_leBytes])

/-- Clearing a range changes no byte outside of it. -/
lemma get?_clearWords_of_notMem {i : ℕ} (h : i < 8 * k ∨ 8 * (k + m) ≤ i) :
    (s.clearWords k m).get? i = s.get? i :=
  get?_overwrite_of_notMem s (by rw [List.length_replicate]; omega)

end Slice

/-! ## Filling a range -/

/-- The function `f` with its values at `start, …, start + n - 1` replaced by `g 0, …, g (n -
1)`. -/
def overlay (f : ℕ → ℕ) (start n : ℕ) (g : ℕ → ℕ) (k : ℕ) : ℕ :=
  if start ≤ k ∧ k < start + n then g (k - start) else f k

@[simp] lemma overlay_zero (f : ℕ → ℕ) (start : ℕ) (g : ℕ → ℕ) : overlay f start 0 g = f := by
  funext k
  exact if_neg (by omega)

/-- Filling one more place. -/
lemma update_overlay (f : ℕ → ℕ) (start n : ℕ) (g : ℕ → ℕ) :
    Function.update (overlay f start n g) (start + n) (g n) = overlay f start (n + 1) g := by
  funext k
  simp only [Function.update_apply, overlay]
  by_cases hk : k = start + n
  · subst hk
    rw [if_pos rfl, if_pos (by omega), Nat.add_sub_cancel_left]
  · rw [if_neg hk]
    by_cases hin : start ≤ k ∧ k < start + n
    · rw [if_pos hin, if_pos (by omega)]
    · rw [if_neg hin, if_neg (by omega)]

/-- A place that has its value already need not be filled. -/
lemma overlay_succ_of_eq {f : ℕ → ℕ} {start n : ℕ} {g : ℕ → ℕ} (h : f (start + n) = g n) :
    overlay f start (n + 1) g = overlay f start n g := by
  rw [← update_overlay, ← h]
  refine Function.update_eq_self_iff.mpr ?_
  exact (if_neg (by omega)).symm

lemma overlay_of_mem {f : ℕ → ℕ} {start n : ℕ} {g : ℕ → ℕ} {i : ℕ} (hi : i < n) :
    overlay f start n g (start + i) = g i := by
  rw [overlay, if_pos (by omega), Nat.add_sub_cancel_left]

lemma overlay_of_notMem {f : ℕ → ℕ} {start n : ℕ} {g : ℕ → ℕ} {k : ℕ}
    (h : k < start ∨ start + n ≤ k) : overlay f start n g k = f k := if_neg (by omega)

/-! ## Packed words -/

/-- A mask of the bits from `lo` up to `hi` keeps this part of a word. -/
lemma and_mask {v lo hi : ℕ} (h : lo ≤ hi) :
    v &&& (2 ^ hi - 2 ^ lo) = v % 2 ^ hi / 2 ^ lo * 2 ^ lo := by
  have hmask : 2 ^ hi - 2 ^ lo = (2 ^ (hi - lo) - 1) * 2 ^ lo := by
    rw [Nat.sub_mul, one_mul, ← pow_add, Nat.sub_add_cancel h]
  rw [hmask]
  refine Nat.eq_of_testBit_eq fun i => ?_
  rw [Nat.testBit_and, Nat.testBit_mul_two_pow, Nat.testBit_mul_two_pow,
    Nat.testBit_two_pow_sub_one,
    Nat.testBit_div_two_pow, Nat.testBit_mod_two_pow]
  by_cases hlo : lo ≤ i
  · have hi' : i - lo + lo = i := Nat.sub_add_cancel hlo
    rw [hi']
    by_cases hhi : i < hi
    · simp [hlo, hhi, show i - lo < hi - lo by omega]
    · simp [hhi, show ¬ i - lo < hi - lo by omega]
  · simp [hlo]

/-- The address of a packed word. -/
lemma packed_and_mask {a f lo hi : ℕ} (h : lo ≤ hi) (ha : a % 2 ^ lo = 0) (hhi : a < 2 ^ hi)
    (hf : f < 2 ^ lo) : (a ||| f) &&& (2 ^ hi - 2 ^ lo) = a := by
  obtain ⟨b, rfl⟩ := Nat.dvd_of_mod_eq_zero ha
  rw [mul_comm] at hhi ⊢
  rw [mul_two_pow_or hf, and_mask h]
  have hpow : 2 ^ hi = 2 ^ (hi - lo) * 2 ^ lo := by rw [← pow_add, Nat.sub_add_cancel h]
  have hpos : 0 < 2 ^ lo := by positivity
  have hb : b < 2 ^ (hi - lo) := by
    rw [hpow] at hhi
    exact Nat.lt_of_mul_lt_mul_right hhi
  have hlt : b * 2 ^ lo + f < 2 ^ hi := by
    calc b * 2 ^ lo + f < b * 2 ^ lo + 2 ^ lo := Nat.add_lt_add_left hf _
      _ = (b + 1) * 2 ^ lo := by ring
      _ ≤ 2 ^ (hi - lo) * 2 ^ lo := Nat.mul_le_mul_right _ hb
      _ = 2 ^ hi := hpow.symm
  rw [Nat.mod_eq_of_lt hlt, mul_comm b, Nat.mul_add_div hpos, Nat.div_eq_of_lt hf, Nat.add_zero,
    mul_comm]

/-- The flags of a packed word. -/
lemma testBit_packed {a f lo i : ℕ} (ha : a % 2 ^ lo = 0) (hi : i < lo) :
    (a ||| f).testBit i = f.testBit i := by
  obtain ⟨b, rfl⟩ := Nat.dvd_of_mod_eq_zero ha
  rw [Nat.testBit_or, mul_comm, Nat.testBit_mul_two_pow]
  simp [show ¬ lo ≤ i by omega]

/-- A packed word is a word. -/
lemma packed_lt {a f hi : ℕ} (ha : a < 2 ^ hi) (hf : f < 2 ^ hi) : a ||| f < 2 ^ hi :=
  Nat.or_lt_two_pow ha hf

end Foundation
