import Mathlib.Tactic
import ParanukOS.Foundation.Checked

/-!
# Slices and little-endian words

A `Slice` is a finite sequence no longer than the address space lets an object be: fewer than
`2 ^ 63` elements.  Reading a range of a slice outside of its bounds has no value, writing there
stops the program.

The second half reads and writes little-endian words in slices of bytes.  The lemmas come in
pairs: a word just written is read back, and a write leaves every word alone whose bytes it does
not touch.
-/

namespace Foundation

/-- Replace the elements of `l` from position `off` on by those of `bs`; whatever would extend
beyond the end of `l` is dropped. -/
def overwriteList {α : Type} : List α → ℕ → List α → List α
  | l, _, [] => l
  | [], _, _ :: _ => []
  | _ :: l, 0, b :: bs => b :: overwriteList l 0 bs
  | x :: l, off + 1, b :: bs => x :: overwriteList l off (b :: bs)

section OverwriteList

variable {α : Type}

@[simp] lemma overwriteList_nil (l : List α) (off : ℕ) : overwriteList l off [] = l := by
  cases l <;> cases off <;> rfl

@[simp] lemma length_overwriteList (l : List α) (off : ℕ) (bs : List α) :
    (overwriteList l off bs).length = l.length := by
  fun_induction overwriteList l off bs <;> simp_all

/-- Element `i` after an overwrite: the new element inside of the range, the old one outside. -/
lemma getElem?_overwriteList (l : List α) (off : ℕ) (bs : List α) (i : ℕ) :
    (overwriteList l off bs)[i]? =
      if off ≤ i ∧ i < off + bs.length ∧ i < l.length then bs[i - off]? else l[i]? := by
  fun_induction overwriteList l off bs generalizing i with
  | case1 l off =>
    have h : ¬ (off ≤ i ∧ i < off + ([] : List α).length ∧ i < l.length) := by
      rintro ⟨h1, h2, -⟩
      simp only [List.length_nil] at h2
      omega
    rw [if_neg h]
  | case2 => simp
  | case3 x l b bs ih =>
    cases i with
    | zero => simp
    | succ i => simp [ih i]
  | case4 x l off b bs ih =>
    cases i with
    | zero => simp
    | succ i =>
      have hsub : i + 1 - off.succ = i - off := by omega
      rw [List.getElem?_cons_succ, List.getElem?_cons_succ, ih i, hsub]
      congr 1
      simp only [List.length_cons, eq_iff_iff]
      omega

end OverwriteList

/-- A slice: a sequence of fewer than `2 ^ 63` elements. -/
structure Slice (α : Type) where
  /-- The elements. -/
  toList : List α
  /-- No object is larger than half of the address space. -/
  length_lt : toList.length < 2 ^ 63

namespace Slice

variable {α : Type}

/-- The number of elements. -/
def length (s : Slice α) : ℕ := s.toList.length

/-- The element at position `i`, if there is one. -/
def get? (s : Slice α) (i : ℕ) : Option α := s.toList[i]?

/-- The `len` elements from `off` on, if the slice has them. -/
def range? (s : Slice α) (off len : ℕ) : Option (List α) :=
  if off + len ≤ s.length then some ((s.toList.drop off).take len) else none

/-- The slice with its elements from `off` on replaced by `bs`. -/
def overwrite (s : Slice α) (off : ℕ) (bs : List α) : Slice α where
  toList := overwriteList s.toList off bs
  length_lt := by rw [length_overwriteList]; exact s.length_lt

/-- The first `n` elements. -/
def takeFirst (s : Slice α) (n : ℕ) : Slice α where
  toList := s.toList.take n
  length_lt := by
    rw [List.length_take]
    exact (Nat.min_le_right _ _).trans_lt s.length_lt

/-- The elements from `n` on. -/
def dropFirst (s : Slice α) (n : ℕ) : Slice α where
  toList := s.toList.drop n
  length_lt := by
    rw [List.length_drop]
    exact (Nat.sub_le _ _).trans_lt s.length_lt

/-- The slice `s[..n]`; stops when it is shorter. -/
def upTo (s : Slice α) (n : ℕ) : Checked (Slice α) :=
  if n ≤ s.length then .ok (s.takeFirst n) else .error .outOfBounds

/-- Copy `bs` into the slice at `off`; stops when the range lies outside of the slice. -/
def write (s : Slice α) (off : ℕ) (bs : List α) : Checked (Slice α) :=
  if off + bs.length ≤ s.length then .ok (s.overwrite off bs) else .error .outOfBounds

@[ext] lemma ext {s t : Slice α} (h : ∀ i, s.get? i = t.get? i) : s = t := by
  obtain ⟨l, hl⟩ := s
  obtain ⟨m, hm⟩ := t
  have hlm : l = m := List.ext_getElem? h
  subst hlm
  rfl

@[simp] lemma length_overwrite (s : Slice α) (off : ℕ) (bs : List α) :
    (s.overwrite off bs).length = s.length :=
  length_overwriteList _ _ _

@[simp] lemma length_takeFirst (s : Slice α) (n : ℕ) : (s.takeFirst n).length = min n s.length :=
  List.length_take

@[simp] lemma length_dropFirst (s : Slice α) (n : ℕ) : (s.dropFirst n).length = s.length - n :=
  List.length_drop

lemma length_lt' (s : Slice α) : s.length < 2 ^ 63 := s.length_lt

lemma get?_eq_none_iff {s : Slice α} {i : ℕ} : s.get? i = none ↔ s.length ≤ i := by
  simp [get?, length]

/-- Element `i` after an overwrite that fits. -/
lemma get?_overwrite {s : Slice α} {off : ℕ} {bs : List α} (h : off + bs.length ≤ s.length)
    (i : ℕ) : (s.overwrite off bs).get? i =
      if off ≤ i ∧ i < off + bs.length then bs[i - off]? else s.get? i := by
  have hlen : s.length = s.toList.length := rfl
  simp only [get?, overwrite, getElem?_overwriteList]
  congr 1
  simp only [eq_iff_iff]
  omega

/-- An overwrite leaves every element outside of its range alone. -/
lemma get?_overwrite_of_notMem (s : Slice α) {off : ℕ} {bs : List α} {i : ℕ}
    (h : i < off ∨ off + bs.length ≤ i) : (s.overwrite off bs).get? i = s.get? i := by
  simp only [get?, overwrite, getElem?_overwriteList]
  rw [if_neg]
  omega

/-- Two adjacent overwrites are one. -/
lemma overwrite_overwrite_append (s : Slice α) (off : ℕ) (as bs : List α)
    (h : off + (as.length + bs.length) ≤ s.length) :
    (s.overwrite off as).overwrite (off + as.length) bs = s.overwrite off (as ++ bs) := by
  ext1 i
  have has : off + as.length ≤ s.length := by omega
  have hbs : off + as.length + bs.length ≤ (s.overwrite off as).length := by
    rw [length_overwrite]; omega
  have hab : off + (as ++ bs).length ≤ s.length := by rwa [List.length_append]
  rw [get?_overwrite hbs, get?_overwrite has, get?_overwrite hab, List.length_append,
    List.getElem?_append]
  by_cases h1 : off ≤ i
  · by_cases h2 : i < off + as.length
    · rw [if_neg (by omega), if_pos ⟨h1, h2⟩, if_pos (by omega), if_pos (by omega)]
    · by_cases h3 : i < off + as.length + bs.length
      · rw [if_pos (by omega), if_pos (by omega), if_neg (by omega)]
        congr 1
        omega
      · rw [if_neg (by omega), if_neg (by omega), if_neg (by omega)]
  · rw [if_neg (by omega), if_neg (by omega), if_neg (by omega)]

/-- Overwrites of disjoint ranges commute. -/
lemma overwrite_comm (s : Slice α) {off off' : ℕ} {as bs : List α}
    (h : off + as.length ≤ off' ∨ off' + bs.length ≤ off) :
    (s.overwrite off as).overwrite off' bs = (s.overwrite off' bs).overwrite off as := by
  ext1 i
  simp only [get?, overwrite, getElem?_overwriteList, length_overwriteList]
  split_ifs
  · omega
  all_goals rfl

lemma write_of_le {s : Slice α} {off : ℕ} {bs : List α} (h : off + bs.length ≤ s.length) :
    s.write off bs = .ok (s.overwrite off bs) := if_pos h

lemma write_eq_ok_iff {s t : Slice α} {off : ℕ} {bs : List α} :
    s.write off bs = .ok t ↔ off + bs.length ≤ s.length ∧ t = s.overwrite off bs := by
  unfold write
  split <;> simp_all [eq_comm]

lemma range?_of_le {s : Slice α} {off len : ℕ} (h : off + len ≤ s.length) :
    s.range? off len = some ((s.toList.drop off).take len) := if_pos h

lemma range?_eq_none_iff {s : Slice α} {off len : ℕ} :
    s.range? off len = none ↔ s.length < off + len := by
  unfold range?
  split <;> simp_all

/-- The elements of a range. -/
lemma getElem?_range? {s : Slice α} {off len : ℕ} {l : List α} (h : s.range? off len = some l)
    (i : ℕ) : l[i]? = if i < len then s.get? (off + i) else none := by
  unfold range? at h
  split at h
  · simp only [Option.some.injEq] at h
    subst h
    simp [List.getElem?_take, get?]
  · exact absurd h (by simp)

lemma length_range? {s : Slice α} {off len : ℕ} {l : List α} (h : s.range? off len = some l) :
    l.length = len := by
  unfold range? at h
  split at h
  · next hle =>
    simp only [Option.some.injEq] at h
    subst h
    simp only [length] at hle
    simp only [List.length_take, List.length_drop]
    omega
  · exact absurd h (by simp)

/-- A range depends only on the length of the slice and on the elements inside of the range. -/
lemma range?_congr {s t : Slice α} {off len : ℕ} (hlen : s.length = t.length)
    (h : ∀ i, off ≤ i → i < off + len → s.get? i = t.get? i) :
    s.range? off len = t.range? off len := by
  unfold range?
  rw [hlen]
  split
  · congr 1
    refine List.ext_getElem? fun i => ?_
    simp only [List.getElem?_take, List.getElem?_drop]
    split
    · exact h (off + i) (by omega) (by omega)
    · rfl
  · rfl

/-- A range inside of the first elements. -/
lemma range?_takeFirst {s : Slice α} {n off len : ℕ} (hn : n ≤ s.length) (h : off + len ≤ n) :
    (s.takeFirst n).range? off len = s.range? off len := by
  have hlength : (s.takeFirst n).length = n := by rw [length_takeFirst, min_eq_left hn]
  rw [range?_of_le (by rwa [hlength]), range?_of_le (h.trans hn)]
  congr 1
  refine List.ext_getElem? fun i => ?_
  simp only [takeFirst, List.getElem?_take, List.getElem?_drop]
  by_cases hi : i < len
  · rw [if_pos hi, if_pos hi, if_pos (by omega)]
  · rw [if_neg hi, if_neg hi]

/-- A range inside of a range. -/
lemma range?_of_range? {s : Slice α} {off len : ℕ} {l : List α} (h : s.range? off len = some l)
    {k n : ℕ} (hk : k + n ≤ len) : s.range? (off + k) n = some ((l.drop k).take n) := by
  have hle : off + len ≤ s.length := by
    by_contra hlt
    rw [range?_eq_none_iff.mpr (by omega)] at h
    exact absurd h (by simp)
  rw [range?_of_le (by omega)]
  congr 1
  refine List.ext_getElem? fun i => ?_
  have hi := getElem?_range? h (k + i)
  simp only [get?] at hi
  simp only [List.getElem?_take, List.getElem?_drop]
  split
  · rw [hi, if_pos (by omega)]
    congr 1
    omega
  · rfl

/-- A range disjoint from an overwritten one is unchanged. -/
lemma range?_overwrite_of_disjoint (s : Slice α) {off off' len : ℕ} {bs : List α}
    (h : off' + len ≤ off ∨ off + bs.length ≤ off') :
    (s.overwrite off bs).range? off' len = s.range? off' len := by
  refine range?_congr (length_overwrite s off bs) fun i hi hi' => ?_
  exact get?_overwrite_of_notMem s (by omega)

/-- A range inside of an overwritten one holds the elements written. -/
lemma range?_overwrite_self {s : Slice α} {off k len : ℕ} {bs : List α}
    (hs : off + bs.length ≤ s.length) (hk : k + len ≤ bs.length) :
    (s.overwrite off bs).range? (off + k) len = some ((bs.drop k).take len) := by
  rw [range?_of_le (by rw [length_overwrite]; omega)]
  congr 1
  refine List.ext_getElem? fun i => ?_
  have hget := get?_overwrite hs (off + k + i)
  simp only [get?] at hget
  simp only [List.getElem?_take, List.getElem?_drop]
  split
  · rw [hget, if_pos (by omega)]
    congr 1
    omega
  · rfl

end Slice

/-! ## Little-endian words -/

/-- The number whose base-256 digits, the least significant one first, are the bytes given. -/
def leVal : List UInt8 → ℕ
  | [] => 0
  | b :: bs => b.toNat + 256 * leVal bs

/-- The `n` least significant base-256 digits of `v`, the least significant one first. -/
def leBytes : ℕ → ℕ → List UInt8
  | 0, _ => []
  | n + 1, v => UInt8.ofNat v :: leBytes n (v / 256)

@[simp] lemma length_leBytes (n v : ℕ) : (leBytes n v).length = n := by
  induction n generalizing v with
  | zero => rfl
  | succ n ih => simp [leBytes, ih]

/-- Decoding an encoded number reduces it modulo the range of the encoding. -/
lemma leVal_leBytes (n v : ℕ) : leVal (leBytes n v) = v % 256 ^ n := by
  induction n generalizing v with
  | zero => simp [leBytes, leVal, Nat.mod_one]
  | succ n ih =>
    have hmod : v % (256 * 256 ^ n) = v % 256 + 256 * (v / 256 % 256 ^ n) := Nat.mod_mul
    simp only [leBytes, leVal, ih, UInt8.toNat_ofNat', pow_succ' 256 n, hmod, Nat.reducePow]

/-- Decoding an encoded number in range returns the number. -/
lemma leVal_leBytes_of_lt {n v : ℕ} (h : v < 256 ^ n) : leVal (leBytes n v) = v := by
  rw [leVal_leBytes, Nat.mod_eq_of_lt h]

lemma leVal_lt (l : List UInt8) : leVal l < 256 ^ l.length := by
  induction l with
  | nil => simp [leVal]
  | cons b bs ih =>
    have hb : b.toNat < 256 := b.toNat_lt
    rw [leVal, List.length_cons, pow_succ']
    omega

namespace Slice

/-- Bytes are determined by their value and their number. -/
lemma leVal_injective {l l' : List UInt8} (hlen : l.length = l'.length) (h : leVal l = leVal l') :
    l = l' := by
  induction l generalizing l' with
  | nil => exact (List.length_eq_zero_iff.mp hlen.symm).symm
  | cons b bs ih =>
    cases l' with
    | nil => simp at hlen
    | cons c cs =>
      rw [leVal, leVal] at h
      have hb := b.toNat_lt
      have hc := c.toNat_lt
      rw [ih (Nat.succ.inj hlen) (by omega), UInt8.toNat_inj.mp (show b.toNat = c.toNat by omega)]

/-- The little-endian word of `n` bytes at `off`, if the slice has these bytes. -/
def leWord? (s : Slice UInt8) (off n : ℕ) : Option ℕ := (s.range? off n).map leVal

lemma leWord?_lt {s : Slice UInt8} {off n v : ℕ} (h : s.leWord? off n = some v) :
    v < 256 ^ n := by
  obtain ⟨l, hl, rfl⟩ := Option.map_eq_some_iff.mp h
  have hlt := leVal_lt l
  rwa [length_range? hl] at hlt

lemma leWord?_isSome {s : Slice UInt8} {off n : ℕ} (h : off + n ≤ s.length) :
    ∃ v, s.leWord? off n = some v :=
  ⟨_, by rw [leWord?, range?_of_le h]; rfl⟩

/-- A write leaves the words alone whose bytes it does not touch. -/
lemma leWord?_overwrite_of_disjoint (s : Slice UInt8) {off off' n : ℕ} {bs : List UInt8}
    (h : off' + n ≤ off ∨ off + bs.length ≤ off') :
    (s.overwrite off bs).leWord? off' n = s.leWord? off' n := by
  rw [leWord?, leWord?, range?_overwrite_of_disjoint s h]

/-- A word inside of a range just written is read back. -/
lemma leWord?_overwrite_self {s : Slice UInt8} {off k n v : ℕ} {bs : List UInt8}
    (hs : off + bs.length ≤ s.length) (hk : k + n ≤ bs.length)
    (hv : (bs.drop k).take n = leBytes n v) (hlt : v < 256 ^ n) :
    (s.overwrite off bs).leWord? (off + k) n = some v := by
  rw [leWord?, range?_overwrite_self hs hk, hv, Option.map_some, leVal_leBytes_of_lt hlt]

end Slice

end Foundation
