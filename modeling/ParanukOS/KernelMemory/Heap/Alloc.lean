import ParanukOS.KernelMemory.Heap.Layout

/-!
# Allocation on a layout

`alloc` on a heap that represents a list of blocks: the search stops at the first free block with
room for the request (`search_spec`), and the writes replace this block by the pieces it is cut
into (`commit_spec`).  `alloc_spec` puts both together and is all that later files use.

Inside of a free block at `c` the payload may start at `c + 24`, with no gap in front of its
header, or at `c + 64` or later, where the gap is a block of its own; `Admissible` is this rule
together with the alignment requested, and `PayloadFit` says that the payload chosen is the first
admissible one.
-/

namespace ParanukOS

open Foundation

namespace Heap

/-- The places where the payload of an allocation from a free block at `current` may start. -/
def Admissible (current align p : ℕ) : Prop :=
  p % align = 0 ∧ (p = current + headerSize ∨ current + headerSize + minBlock ≤ p)

/-- The block has room for the request at no admissible place. -/
def NoRoom (size align : ℕ) (b : HeapBlock) : Prop :=
  ∀ p, Admissible b.start align p → b.stop < p + size

/-- The payload and the gap chosen in a free block at `current`. -/
structure PayloadFit (current align payload gap : ℕ) : Prop where
  /-- The payload has an admissible place. -/
  admissible : Admissible current align payload
  /-- It is the first one. -/
  least : ∀ p, Admissible current align p → payload ≤ p
  /-- The gap lies between the block's own header and the header of the payload. -/
  eq_add : payload = current + headerSize + gap
  /-- The header of the payload is aligned. -/
  mod_eight : payload % headerAlign = 0
  /-- The payload is not far from the start of the block. -/
  lt_add : payload < current + headerSize + minBlock + maxAlign

/-- Rounding up to a power of two finds the first multiple. -/
lemma alignUp_spec {v align : ℕ} (ha : isPowerOfTwo align = true) (hv : v + align ≤ 2 ^ 64) :
    ∃ p, alignUp v align = some p ∧ v ≤ p ∧ p < v + align ∧ p % align = 0 := by
  obtain ⟨k, hk, rfl⟩ := isPowerOfTwo_iff.mp ha
  have hpos : 0 < 2 ^ k := by positivity
  refine ⟨(v + (2 ^ k - 1)) / 2 ^ k * 2 ^ k, ?_, ?_, ?_, Nat.mul_mod_left _ _⟩
  · rw [alignUp, checkedAdd_of_lt (by omega), Option.map_some,
      and_notWord_two_pow_sub_one hk.le (by omega)]
  · have h1 := Nat.div_add_mod' (v + (2 ^ k - 1)) (2 ^ k)
    have h2 := Nat.mod_lt (v + (2 ^ k - 1)) hpos
    omega
  · have h1 := Nat.div_mul_le_self (v + (2 ^ k - 1)) (2 ^ k)
    omega

/-- Two multiples of `align` less than `align` apart are equal. -/
lemma le_of_mod_eq_zero {p q align : ℕ} (hp : p % align = 0) (hq : q % align = 0)
    (h : p < q + align) : p ≤ q := by
  obtain ⟨i, rfl⟩ := Nat.dvd_of_mod_eq_zero hp
  obtain ⟨j, rfl⟩ := Nat.dvd_of_mod_eq_zero hq
  by_contra hlt
  have hij : j < i := by
    by_contra hij
    exact hlt (Nat.mul_le_mul_left align (not_lt.mp hij))
  have hstep : align * (j + 1) ≤ align * i := Nat.mul_le_mul_left align hij
  rw [Nat.mul_add] at hstep
  omega

/-- A power of two divides 8 or is a multiple of it. -/
lemma dvd_eight_or_eight_dvd {align : ℕ} (ha : isPowerOfTwo align = true) :
    align ∣ 8 ∨ 8 ∣ align := by
  obtain ⟨k, -, rfl⟩ := isPowerOfTwo_iff.mp ha
  rcases le_total k 3 with h | h
  · exact Or.inl (pow_dvd_pow 2 h)
  · exact Or.inr (pow_dvd_pow 2 h)

/-- The choice of the payload in a free block: the first admissible place. -/
lemma payloadIn_least {current align : ℕ} (ha : isPowerOfTwo align = true) (hle : align ≤ maxAlign)
    (hlt : current < 2 ^ 63) :
    ∃ payload gap, payloadIn current align = .ok (some (payload, gap)) ∧
      Admissible current align payload ∧ (∀ p, Admissible current align p → payload ≤ p) ∧
      payload = current + headerSize + gap ∧
      payload < current + headerSize + minBlock + maxAlign := by
  have hpos : 0 < align := by
    obtain ⟨k, -, rfl⟩ := isPowerOfTwo_iff.mp ha
    positivity
  simp only [maxAlign] at hle
  obtain ⟨p, hp, hp1, hp2, hp3⟩ := alignUp_spec ha (v := current + 24) (by omega)
  have hadd : addWord current headerSize = .ok (current + 24) :=
    addWord_of_lt (by simp only [headerSize]; omega)
  have hsub : subWord p (current + 24) = .ok (p - (current + 24)) := subWord_of_le hp1
  by_cases hgap : 0 < p - (current + 24) ∧ p - (current + 24) < minBlock
  · -- a small gap is raised to the size of a block
    have hgap' := hgap
    simp only [minBlock, headerSize, minPayload] at hgap'
    obtain ⟨r, hr, hr1, hr2, hr3⟩ := alignUp_spec ha (v := current + 24 + 40) (by omega)
    have hlift : checkedAdd (current + 24) minBlock = some (current + 24 + 40) :=
      checkedAdd_of_lt (by simp only [minBlock, headerSize, minPayload]; omega)
    refine ⟨r, r - (current + 24), ?_, ?_, ?_, ?_, ?_⟩
    · simp only [payloadIn, hadd, Checked.ok_bind, hp, hsub, if_pos hgap, hlift, hr,
        subWord_of_le (show current + 24 ≤ r by omega), Checked.pure_eq_ok]
    · exact ⟨hr3, Or.inr (by simp only [minBlock, headerSize, minPayload]; omega)⟩
    · rintro q ⟨hq, hq'⟩
      simp only [headerSize, minBlock, minPayload] at hq'
      rcases hq' with rfl | hq'
      · have := le_of_mod_eq_zero hp3 hq hp2
        omega
      · exact le_of_mod_eq_zero hr3 hq (by omega)
    · simp only [headerSize]; omega
    · simp only [headerSize, minBlock, minPayload, maxAlign]; omega
  · refine ⟨p, p - (current + 24), ?_, ?_, ?_, ?_, ?_⟩
    · simp only [payloadIn, hadd, Checked.ok_bind, hp, hsub, if_neg hgap, Checked.pure_eq_ok]
    · simp only [minBlock, headerSize, minPayload] at hgap
      exact ⟨hp3, by simp only [minBlock, headerSize, minPayload]; omega⟩
    · rintro q ⟨hq, hq'⟩
      simp only [headerSize, minBlock, minPayload] at hq'
      exact le_of_mod_eq_zero hp3 hq (by omega)
    · simp only [headerSize]; omega
    · simp only [headerSize, minBlock, minPayload, maxAlign]; omega

/-- The choice of the payload in an aligned free block. -/
lemma payloadIn_spec {current align : ℕ} (ha : isPowerOfTwo align = true) (hle : align ≤ maxAlign)
    (hmod : current % headerAlign = 0) (hlt : current < 2 ^ 63) :
    ∃ payload gap, payloadIn current align = .ok (some (payload, gap)) ∧
      PayloadFit current align payload gap := by
  obtain ⟨payload, gap, heq, hadmissible, hleast, hadd, hbound⟩ := payloadIn_least ha hle hlt
  refine ⟨payload, gap, heq, hadmissible, hleast, hadd, ?_, hbound⟩
  simp only [headerAlign] at hmod ⊢
  rcases dvd_eight_or_eight_dvd ha with h8 | h8
  · -- directly behind the header the payload is aligned because the block is
    have hc : (current + 24) % align = 0 :=
      Nat.mod_eq_zero_of_dvd (h8.trans (Nat.dvd_of_mod_eq_zero (by omega)))
    have hfirst := hleast (current + 24) ⟨hc, Or.inl rfl⟩
    simp only [headerSize] at hadd
    omega
  · exact Nat.mod_eq_zero_of_dvd (h8.trans (Nat.dvd_of_mod_eq_zero hadmissible.1))

/-! ## The search -/

/-- Where the rest of a block starts after an allocation whose payload ends at `payloadEnd`. -/
def tailStartOf (payloadEnd : ℕ) : ℕ := (payloadEnd + 7) / 8 * 8

/-- The placement in the block `b` between the blocks `pre` and `post`. -/
def placementIn (pre post : List HeapBlock) (b : HeapBlock) (size payload gap : ℕ) : Placement where
  previous := lastFree pre
  previousSize := ((lastFree? pre).map Block.size).getD 0
  current := b.start
  next := firstFree noneOffset post
  frontGap := gap
  payload := payload
  headerOffset := payload - headerSize
  tailStart := tailStartOf (payload + size)
  tailBlock := if minBlock ≤ b.stop - tailStartOf (payload + size) then
    some (b.stop - tailStartOf (payload + size)) else none
  allocSize := if minBlock ≤ b.stop - tailStartOf (payload + size) then
    tailStartOf (payload + size) - (payload - headerSize) else b.stop - (payload - headerSize)

section Search

variable {list : FreeList} {arena : Slice UInt8} {pre post bs : List HeapBlock} {b : HeapBlock}
  {size align payload gap : ℕ}

/-- The start of the last free block is an offset, or there is no free block. -/
lemma lastFree_eq_noneOffset_iff (h : Linked list arena (pre ++ bs)) :
    lastFree pre = noneOffset ↔ lastFree? pre = none := by
  cases hq : lastFree? pre with
  | none => simp [lastFree, hq]
  | some q =>
    obtain ⟨pre₁, pre₂, rfl, -, -⟩ := exists_split_of_lastFree? hq
    have hstop := h.stop_le (b := q) (by simp)
    have hlen := h.arenaLen_lt
    simp only [Block.stop] at hstop
    simp only [lastFree, hq, Option.map_some, Option.getD_some, noneOffset]
    constructor
    · intro hcon
      omega
    · intro hcon
      exact absurd hcon (by simp)

/-- The last free block of the blocks before has the header of a free block. -/
lemma readHeader_lastFree (h : Linked list arena (pre ++ bs)) {q : HeapBlock}
    (hq : lastFree? pre = some q) :
    readHeader arena q.start = some (magicFree, q.size, firstFree noneOffset bs) := by
  obtain ⟨pre₁, pre₂, rfl, hfree, hnil⟩ := exists_split_of_lastFree? hq
  have hh : readHeader arena q.start = some (headerOf q (firstFree noneOffset (pre₂ ++ bs))) :=
    Headers.of_split (show Headers arena noneOffset (pre₁ ++ q :: (pre₂ ++ bs)) by
      simpa using h.headers)
  rw [hh, firstFree_append, firstFree_of_frees_eq_nil hnil]
  simp [headerOf, hfree]

/-- Rounding up to the alignment of headers. -/
lemma alignUp_headerAlign {v : ℕ} (hv : v < 2 ^ 64 - 8) :
    alignUp v headerAlign = some (tailStartOf v) := by
  have hmask := and_notWord_two_pow_sub_one (k := 3) (v := v + 7) (by norm_num) (by omega)
  rw [alignUp, headerAlign, checkedAdd_of_lt (by omega), Option.map_some, tailStartOf]
  exact congrArg some hmask

/-- A block with room for the request is cut up. -/
lemma place_eq (h : Linked list arena (pre ++ b :: post))
    (hfit : PayloadFit b.start align payload gap) (hroom : payload + size ≤ b.stop) :
    place arena (lastFree pre) b.start (firstFree noneOffset post) b.stop payload gap
      (payload + size) = .ok (.ok (placementIn pre post b size payload gap)) := by
  have hstop := h.stop_le (b := b) (by simp)
  have hlen := h.arenaLen_lt
  have hwf := h.wellFormed b (by simp)
  have hge : headerSize ≤ payload := by have := hfit.eq_add; omega
  -- the end of the block is aligned, so the rounded end of the payload stays inside of it
  have htail : tailStartOf (payload + size) ≤ b.stop := by
    have h1 := hwf.start_mod
    have h2 := hwf.size_mod
    simp only [headerAlign] at h1 h2
    simp only [tailStartOf, Block.stop] at hroom ⊢
    omega
  have hhead : payload - headerSize ≤ tailStartOf (payload + size) := by
    simp only [tailStartOf]; omega
  have hprev : lastFree pre = noneOffset ∧ lastFree? pre = none ∨ ∃ q, lastFree pre ≠ noneOffset ∧
      lastFree? pre = some q ∧ readHeader arena (lastFree pre) =
        some (magicFree, q.size, firstFree noneOffset (b :: post)) := by
    cases hq : lastFree? pre with
    | none => exact Or.inl ⟨(lastFree_eq_noneOffset_iff h).mpr hq, rfl⟩
    | some q =>
      refine Or.inr ⟨q, fun hcon => ?_, rfl, ?_⟩
      · rw [(lastFree_eq_noneOffset_iff h).mp hcon] at hq
        exact absurd hq (by simp)
      · have hstart : lastFree pre = q.start := by simp [lastFree, hq]
        rw [hstart]
        exact readHeader_lastFree h hq
  rw [place, subWord_of_le hge, Checked.ok_bind, alignUp_headerAlign (by omega)]
  simp only [checkedSub_of_le htail, subWord_of_le hhead, subWord_of_le (hhead.trans htail),
    placementIn]
  rcases hprev with ⟨hnone, hq⟩ | ⟨q, hnone, hq, hread⟩
  · by_cases htb : minBlock ≤ b.stop - tailStartOf (payload + size) <;> simp [htb, hnone, hq]
  · by_cases htb : minBlock ≤ b.stop - tailStartOf (payload + size) <;>
      simp [htb, hnone, hq, hread]

/-- The first free block with room for the request, as the search finds it. -/
structure Found (align size : ℕ) (bs before : List HeapBlock) (b : HeapBlock)
    (after : List HeapBlock) (payload gap : ℕ) : Prop where
  /-- Where the block is. -/
  split : bs = before ++ b :: after
  /-- It is free. -/
  free : isFree b = true
  /-- The place of the payload in it. -/
  fit : PayloadFit b.start align payload gap
  /-- It has room for the request there. -/
  room : payload + size ≤ b.stop
  /-- No free block before it has room. -/
  first : ∀ c ∈ before, isFree c = true → NoRoom size align c

/-- A block whose first admissible payload does not fit has no room at all. -/
lemma PayloadFit.noRoom (h : PayloadFit b.start align payload gap) (hlt : b.stop < payload + size) :
    NoRoom size align b := fun p hp => by
  have := h.least p hp
  omega

/-- What the walk of `alloc` along the free blocks of `bs`, which follow the blocks `pre`, may
return: the placement in the first block with room, or the exit for a list without such a block. -/
def SearchOutcome (align size : ℕ) (pre bs : List HeapBlock)
    (result : Checked (Except AllocExit Placement)) : Prop :=
  (∃ before b after payload gap, Found align size bs before b after payload gap ∧
    result = .ok (.ok (placementIn (pre ++ before) after b size payload gap))) ∨
  (∀ b ∈ bs, isFree b = true → NoRoom size align b) ∧
    ∃ e, (e = .exhausted ∨ e = .overflow) ∧ result = .ok (.error e)

/-- The walk goes past a block that is allocated or has no room. -/
lemma SearchOutcome.cons {result : Checked (Except AllocExit Placement)}
    (h : SearchOutcome align size (pre ++ [b]) bs result)
    (hb : isFree b = true → NoRoom size align b) :
    SearchOutcome align size pre (b :: bs) result := by
  have hall : ∀ cs : List HeapBlock, (∀ c ∈ cs, isFree c = true → NoRoom size align c) →
      ∀ c ∈ b :: cs, isFree c = true → NoRoom size align c := by
    intro cs hcs c hc
    rcases List.mem_cons.mp hc with rfl | hc
    · exact hb
    · exact hcs c hc
  rcases h with ⟨before, c, after, payload, gap, hfound, heq⟩ | ⟨hno, e, he, heq⟩
  · refine Or.inl ⟨b :: before, c, after, payload, gap, ⟨?_, hfound.free, hfound.fit, hfound.room,
      hall before hfound.first⟩, ?_⟩
    · rw [hfound.split, List.cons_append]
    · rw [heq, List.append_assoc, List.singleton_append]
  · exact Or.inr ⟨hall bs hno, e, he, heq⟩

/-- One round of the walk, at the free block `b`. -/
lemma search_step (ha : isPowerOfTwo align = true) (hle : align ≤ maxAlign)
    (h : Linked list arena (pre ++ b :: bs)) (hfree : isFree b = true) (size guard previous : ℕ) :
    ∃ payload gap, PayloadFit b.start align payload gap ∧
      list.search arena size align (guard + 1) previous b.start =
        match checkedAdd payload size with
        | none => .ok (.error .overflow)
        | some payloadEnd => if b.stop < payloadEnd then
            list.search arena size align guard b.start (firstFree noneOffset bs)
          else place arena previous b.start (firstFree noneOffset bs) b.stop payload gap
            payloadEnd := by
  have hlen := h.arenaLen_lt
  have hstop := h.stop_le (b := b) (by simp)
  have hwf := h.wellFormed b (by simp)
  have hstart : b.start + b.size = b.stop := rfl
  have hne : b.start ≠ noneOffset := by simp only [noneOffset]; omega
  have hread : readHeader arena b.start = some (magicFree, b.size, firstFree noneOffset bs) := by
    rw [Headers.of_split h.headers]
    simp [headerOf, hfree]
  have hcond : ¬ (magicFree ≠ magicFree ∨ b.size < headerSize) := by simp [hwf.header_le]
  obtain ⟨payload, gap, hpay, hfit⟩ := payloadIn_spec ha hle hwf.start_mod
    (show b.start < 2 ^ 63 by omega)
  refine ⟨payload, gap, hfit, ?_⟩
  rw [FreeList.search]
  simp only [hne, if_false, hread, hcond, hstart, not_lt.mpr hstop, hpay, Checked.ok_bind,
    checkedAdd_of_lt (show b.start + b.size < 2 ^ 64 by omega)]
  cases checkedAdd payload size <;> rfl

/-- The walk of `alloc` along the free blocks of `bs`.  It meets neither the bound on its rounds nor
a damaged header. -/
lemma search_spec (ha : isPowerOfTwo align = true) (hle : align ≤ maxAlign) {guard : ℕ} (size : ℕ)
    (h : Linked list arena (pre ++ bs)) (hguard : (frees bs).length ≤ guard) :
    SearchOutcome align size pre bs
      (list.search arena size align guard (lastFree pre) (firstFree noneOffset bs)) := by
  induction bs generalizing pre guard with
  | nil =>
    refine Or.inr ⟨by simp, .exhausted, Or.inl rfl, ?_⟩
    cases guard <;> simp [FreeList.search]
  | cons b bs ih =>
    have hassoc : pre ++ b :: bs = (pre ++ [b]) ++ bs := by simp
    have hnext : Linked list arena ((pre ++ [b]) ++ bs) := hassoc ▸ h
    cases hfree : isFree b with
    | false =>
      -- an allocated block is not on the list
      rw [frees_cons_of_live hfree] at hguard
      have hlast : lastFree (pre ++ [b]) = lastFree pre := by
        rw [lastFree, lastFree?_append_of_live hfree, lastFree]
      rw [firstFree_cons_of_live hfree, ← hlast]
      exact (ih hnext hguard).cons (by simp [hfree])
    | true =>
      rw [frees_cons_of_free hfree, List.length_cons] at hguard
      obtain ⟨guard, rfl⟩ : ∃ g, guard = g + 1 := ⟨guard - 1, by omega⟩
      obtain ⟨payload, gap, hfit, hstep⟩ := search_step ha hle h hfree size guard
        (lastFree pre)
      rw [firstFree_cons_of_free hfree, hstep]
      by_cases hover : payload + size < 2 ^ 64
      · rw [checkedAdd_of_lt hover]
        simp only
        split_ifs with hroom
        · -- the block is too small, so the walk goes on
          have hlast : lastFree (pre ++ [b]) = b.start := by
            rw [lastFree, lastFree?_append_of_free hfree]
            rfl
          rw [← hlast]
          exact (ih hnext (Nat.le_of_succ_le_succ hguard)).cons fun _ => hfit.noRoom hroom
        · refine Or.inl ⟨[], b, bs, payload, gap, ⟨rfl, hfree, hfit, not_lt.mp hroom, by simp⟩, ?_⟩
          rw [place_eq h hfit (not_lt.mp hroom), List.append_nil]
      · -- a request that overflows here is too large for this block and the ones after it
        rw [checkedAdd_eq_none_iff.mpr (not_lt.mp hover)]
        refine Or.inr ⟨fun c hc _ p hp => ?_, .overflow, Or.inr rfl, rfl⟩
        have hstart : b.start ≤ c.start := by
          rcases List.mem_cons.mp hc with rfl | hc
          · exact le_rfl
          · have hcs := (h.tiles.bounds_of_split.2.2.bounds_of_mem hc).1
            simp only [Block.stop] at hcs
            omega
        have hlen := h.arenaLen_lt
        have hcstop := h.stop_le (b := c) (by simp only [List.mem_append, hc, or_true])
        have hpay := hfit.lt_add
        have hplace := hp.2
        simp only [headerSize, minBlock, minPayload, maxAlign] at hpay hplace
        omega

end Search

/-! ## Cutting up a block -/

section Cut

variable {list : FreeList} {arena : Slice UInt8} {pre post : List HeapBlock} {b : HeapBlock}
  {size align payload gap : ℕ}

/-- The gap in front of an allocation. -/
def frontPiece (b : HeapBlock) (gap : ℕ) : List HeapBlock :=
  if 0 < gap then [⟨b.start, gap, none⟩] else []

/-- The rest behind an allocation, when it is large enough to be a block. -/
def tailPiece (b : HeapBlock) (size payload : ℕ) : List HeapBlock :=
  if minBlock ≤ b.stop - tailStartOf (payload + size) then
    [⟨tailStartOf (payload + size), b.stop - tailStartOf (payload + size), none⟩] else []

/-- The block allocated; a rest that is too small for a block stays part of it. -/
def allocPiece (b : HeapBlock) (size payload : ℕ) : HeapBlock where
  start := payload - headerSize
  size := if minBlock ≤ b.stop - tailStartOf (payload + size) then
    tailStartOf (payload + size) - (payload - headerSize) else b.stop - (payload - headerSize)
  tag := some size

/-- The pieces a free block is cut into by an allocation. -/
def cut (b : HeapBlock) (size payload gap : ℕ) : List HeapBlock :=
  frontPiece b gap ++ allocPiece b size payload :: tailPiece b size payload

lemma isFree_allocPiece : isFree (allocPiece b size payload) = false := rfl

/-- What the lemmas about the pieces need: the addresses in the order in which they occur. -/
lemma cut_bounds (hwf : WellFormed b) (hfit : PayloadFit b.start align payload gap)
    (hroom : payload + size ≤ b.stop) :
    (gap = 0 ∨ minBlock ≤ gap) ∧ payload = b.start + headerSize + gap ∧
      payload + size ≤ tailStartOf (payload + size) ∧ tailStartOf (payload + size) ≤ b.stop ∧
      payload % 8 = 0 ∧ tailStartOf (payload + size) % 8 = 0 ∧ b.stop % 8 = 0 := by
  have h1 := hwf.start_mod
  have h2 := hwf.size_mod
  have h3 := hfit.mod_eight
  have h4 := hfit.eq_add
  have h5 := hfit.admissible.2
  simp only [headerAlign] at h1 h2 h3
  simp only [Block.stop] at hroom
  refine ⟨by omega, h4, ?_, ?_, h3, ?_, ?_⟩
  · simp only [tailStartOf]; omega
  · simp only [tailStartOf, Block.stop]; omega
  · exact Nat.mul_mod_left _ _
  · simp only [Block.stop]; omega

/-- The pieces cover the block. -/
lemma tiles_cut (hwf : WellFormed b) (hfit : PayloadFit b.start align payload gap)
    (hroom : payload + size ≤ b.stop) : Tiles b.start b.stop (cut b size payload gap) := by
  obtain ⟨hgap, hpay, hts, hts', -⟩ := cut_bounds hwf hfit hroom
  have hfront : Tiles b.start (payload - headerSize) (frontPiece b gap) := by
    unfold frontPiece
    split_ifs with h
    · simp only [tiles_cons, tiles_nil, Block.stop, true_and]
      omega
    · simp only [tiles_nil]
      omega
  have hrest : Tiles (payload - headerSize) b.stop
      (allocPiece b size payload :: tailPiece b size payload) := by
    simp only [headerSize, minBlock, minPayload] at hpay hgap
    unfold tailPiece allocPiece
    split_ifs with h
    · simp only [minBlock, headerSize, minPayload, Block.stop] at h
      simp only [tiles_cons, tiles_nil, Block.stop, headerSize, true_and] at hts' ⊢
      omega
    · simp only [tiles_cons, tiles_nil, headerSize, true_and]
      simp only [Block.stop] at hts' ⊢
      omega
  exact tiles_append.mpr ⟨_, hfront, hrest⟩

/-- The pieces are well formed. -/
lemma wellFormed_cut (hwf : WellFormed b) (hfit : PayloadFit b.start align payload gap)
    (hroom : payload + size ≤ b.stop) (hpos : 0 < size) :
    ∀ c ∈ cut b size payload gap, WellFormed c := by
  obtain ⟨hgap, hpay, hts, hts', hmod, hmod', hmod''⟩ := cut_bounds hwf hfit hroom
  have hstart := hwf.start_mod
  simp only [headerSize, headerAlign, minBlock, minPayload] at hpay hgap hstart
  intro c hc
  simp only [cut, List.mem_append, List.mem_cons] at hc
  rcases hc with hc | rfl | hc
  · unfold frontPiece at hc
    split_ifs at hc with h
    · rw [List.mem_singleton] at hc
      subst hc
      refine ⟨hwf.start_mod, ?_, ?_, fun n hn => absurd hn (by simp)⟩
      · simp only [headerAlign]; omega
      · simp only [headerSize]; omega
    · simp at hc
  · refine ⟨?_, ?_, ?_, ?_⟩
    · simp only [allocPiece, headerAlign, headerSize]; omega
    · simp only [allocPiece, headerAlign, headerSize]
      split_ifs <;> omega
    · simp only [allocPiece, headerSize]
      split_ifs <;> omega
    · intro n hn
      obtain rfl : size = n := Option.some.inj hn
      refine ⟨hpos, ?_⟩
      simp only [allocPiece, headerSize]
      split_ifs <;> omega
  · unfold tailPiece at hc
    split_ifs at hc with h
    · rw [List.mem_singleton] at hc
      subst hc
      simp only [minBlock, headerSize, minPayload] at h
      refine ⟨hmod', ?_, ?_, fun n hn => absurd hn (by simp)⟩
      · simp only [headerAlign]; omega
      · simp only [headerSize]; omega
    · simp at hc

/-- The blocks next to a free block are allocated, so any pieces with an allocated block in between
can take its place. -/
lemma separated_cut
    (h : (pre ++ b :: post).IsChain fun a c => ¬ (isFree a = true ∧ isFree c = true))
    (hfree : isFree b = true) :
    (pre ++ cut b size payload gap ++ post).IsChain
      fun a c => ¬ (isFree a = true ∧ isFree c = true) := by
  obtain ⟨hpre, hbpost, hjoin⟩ := List.isChain_append.mp h
  have hlast : ∀ x ∈ pre.getLast?, isFree x = false := by
    intro x hx
    have := hjoin x hx b (by simp)
    simpa [hfree] using this
  obtain ⟨hhead, hpost⟩ := List.isChain_cons.mp hbpost
  have hfirst : ∀ y ∈ post.head?, isFree y = false := by
    intro y hy
    have := hhead y hy
    simpa [hfree] using this
  have hcut : (cut b size payload gap).IsChain
      fun a c => ¬ (isFree a = true ∧ isFree c = true) := by
    unfold cut frontPiece tailPiece
    split_ifs <;> simp [isFree_allocPiece]
  refine List.isChain_append.mpr ⟨List.isChain_append.mpr ⟨hpre, hcut, ?_⟩, hpost, ?_⟩
  · intro x hx y _
    simp [hlast x hx]
  · intro x _ y hy
    simp [hfirst y hy]

/-- The header of the allocation and that of the rest behind it. -/
lemma writeTail_eq (hwf : WellFormed b) (hfit : PayloadFit b.start align payload gap)
    (hroom : payload + size ≤ b.stop) (hstop : b.stop ≤ arena.length) :
    FreeList.writeTail arena (placementIn pre post b size payload gap) =
      .ok (setHeaders arena (firstFree noneOffset post)
          (allocPiece b size payload :: tailPiece b size payload),
        firstFree (firstFree noneOffset post)
          (allocPiece b size payload :: tailPiece b size payload)) := by
  obtain ⟨-, hpay, hts, hts', -⟩ := cut_bounds hwf hfit hroom
  simp only [headerSize] at hpay
  have hbstop : b.start + b.size = b.stop := rfl
  have hin : (placementIn pre post b size payload gap).headerOffset + 24 ≤ arena.length := by
    simp only [placementIn, headerSize]
    omega
  rw [FreeList.writeTail, writeHeader_of_le hin, Checked.ok_bind]
  by_cases htail : minBlock ≤ b.stop - tailStartOf (payload + size)
  · have htail' := htail
    simp only [minBlock, headerSize, minPayload] at htail'
    simp only [placementIn, allocPiece, tailPiece, if_pos htail, setHeaders, headerOf, isFree,
      Option.isNone_none, Option.isNone_some, if_true, firstFree, Bool.false_eq_true, if_false]
    rw [writeHeader_of_le (by rw [length_setHeader]; omega), Checked.ok_bind,
      setHeader_comm arena (by simp only [headerSize]; omega)]
    rfl
  · simp only [placementIn, allocPiece, tailPiece, if_neg htail, setHeaders, headerOf, isFree,
      Option.isNone_some, firstFree, Bool.false_eq_true, if_false]
    rfl

/-- The header of the gap in front of the allocation. -/
lemma writeFront_eq (hin : b.start + 24 ≤ arena.length) (nxt : ℕ) (rest : List HeapBlock) :
    FreeList.writeFront (setHeaders arena nxt rest) (placementIn pre post b size payload gap)
        (firstFree nxt rest) =
      .ok (setHeaders arena nxt (frontPiece b gap ++ rest),
        firstFree nxt (frontPiece b gap ++ rest)) := by
  have hin' : (placementIn pre post b size payload gap).current + 24 ≤
      (setHeaders arena nxt rest).length := by rwa [length_setHeaders]
  by_cases hgap : 0 < gap
  · have hgap' : 0 < (placementIn pre post b size payload gap).frontGap := hgap
    rw [FreeList.writeFront, if_pos hgap', writeHeader_of_le hin', Checked.ok_bind]
    simp only [frontPiece, if_pos hgap]
    rfl
  · have hgap' : ¬ 0 < (placementIn pre post b size payload gap).frontGap := hgap
    rw [FreeList.writeFront, if_neg hgap']
    simp only [frontPiece, if_neg hgap]
    rfl

/-- The writes of `alloc` replace the block by its pieces. -/
lemma commit_eq (h : Linked list arena (pre ++ b :: post))
    (hfit : PayloadFit b.start align payload gap) (hroom : payload + size ≤ b.stop) :
    list.commit arena (placementIn pre post b size payload gap) =
      (replaced list arena pre (cut b size payload gap) post).1.recompute
        (replaced list arena pre (cut b size payload gap) post).2 >>= fun list' =>
      .ok (list', (replaced list arena pre (cut b size payload gap) post).2) := by
  have hwf := h.wellFormed b (by simp)
  have hstop := (h.stop_le (b := b) (by simp)).trans h.arenaLen_le
  have hin := h.start_add_le (b := b) (by simp)
  have hfront : FreeList.writeFront (setHeaders arena (firstFree noneOffset post)
        (allocPiece b size payload :: tailPiece b size payload))
        (placementIn pre post b size payload gap)
        (firstFree (firstFree noneOffset post)
          (allocPiece b size payload :: tailPiece b size payload)) =
      .ok (setHeaders arena (firstFree noneOffset post) (cut b size payload gap),
        firstFree (firstFree noneOffset post) (cut b size payload gap)) := writeFront_eq hin _ _
  rw [FreeList.commit, writeTail_eq hwf hfit hroom hstop, Checked.ok_bind]
  simp only [hfront, Checked.ok_bind]
  cases hq : lastFree? pre with
  | none =>
    have hprev : (placementIn pre post b size payload gap).previous = noneOffset :=
      (lastFree_eq_noneOffset_iff h).mpr hq
    rw [if_pos hprev, replaced, hq]
    rfl
  | some q =>
    obtain ⟨pre₁, pre₂, rfl, -, -⟩ := exists_split_of_lastFree? hq
    have hne : (placementIn (pre₁ ++ q :: pre₂) post b size payload gap).previous ≠ noneOffset :=
      fun hcon => by
        rw [(lastFree_eq_noneOffset_iff h).mp hcon] at hq
        exact absurd hq (by simp)
    have hprev : (placementIn (pre₁ ++ q :: pre₂) post b size payload gap).previous = q.start := by
      simp [placementIn, lastFree, hq]
    have hsize :
        (placementIn (pre₁ ++ q :: pre₂) post b size payload gap).previousSize = q.size := by
      simp [placementIn, hq]
    have hqin := h.start_add_le (b := q) (by simp)
    rw [if_neg hne, hprev, hsize, replaced, hq,
      writeHeader_of_le (by rwa [length_setHeaders]), Checked.ok_bind]
    rfl

/-- The requests `alloc` accepts. -/
structure ValidRequest (size align : ℕ) : Prop where
  /-- Something is requested. -/
  pos : 0 < size
  /-- The alignment is a power of two. -/
  isPowerOfTwo : isPowerOfTwo align = true
  /-- The alignment is supported. -/
  le_maxAlign : align ≤ maxAlign

/-- The new state after a successful allocation of the block `b`. -/
structure Allocated (list : FreeList) (arena : Slice UInt8) (before : List HeapBlock)
    (b : HeapBlock) (after : List HeapBlock) (size payload gap : ℕ) (list' : FreeList)
    (arena' : Slice UInt8) : Prop where
  /-- The block is cut up, all others stay. -/
  layout : Layout list' arena' (before ++ cut b size payload gap ++ after)
  /-- The list manages the same bytes. -/
  arenaLen_eq : list'.arenaLen = list.arenaLen
  /-- The arena is as long as before. -/
  length_eq : arena'.length = arena.length
  /-- Nothing is written into a payload. -/
  get?_eq : ∀ c ∈ before ++ cut b size payload gap ++ after, ∀ i,
    c.start + headerSize ≤ i → i < c.stop → arena'.get? i = arena.get? i

/-- The writes of `alloc`, as a step between layouts. -/
lemma commit_spec (h : Linked list arena (pre ++ b :: post)) (hfree : isFree b = true)
    (hfit : PayloadFit b.start align payload gap) (hroom : payload + size ≤ b.stop)
    (hpos : 0 < size) :
    ∃ list' arena', list.commit arena (placementIn pre post b size payload gap) =
      .ok (list', arena') ∧ Allocated list arena pre b post size payload gap list' arena' := by
  have hwf := h.wellFormed b (by simp)
  have h' : Linked list arena (pre ++ [b] ++ post) := by simpa using h
  have hreplace : Linked (replaced list arena pre (cut b size payload gap) post).1
      (replaced list arena pre (cut b size payload gap) post).2
      (pre ++ cut b size payload gap ++ post) := h'.replace
    (fun lo hi hb => by
      obtain ⟨rfl, -, rfl⟩ := hb
      exact tiles_cut hwf hfit hroom)
    (wellFormed_cut hwf hfit hroom hpos) (separated_cut h.separated hfree) (by simp)
  obtain ⟨list', hrecompute, hlayout, harenaLen⟩ := hreplace.recompute
  refine ⟨list', (replaced list arena pre (cut b size payload gap) post).2, ?_, hlayout, ?_, ?_, ?_⟩
  · rw [commit_eq h hfit hroom, hrecompute, Checked.ok_bind]
  · rw [harenaLen, arenaLen_replaced]
  · exact length_replaced _ _ _ _ _
  · exact fun c hc i hi hi' => hreplace.get?_replaced hc hi hi'

/-- `alloc` on a layout.  It returns in any case; it fails for a request that is not valid or for
which no free block has room, leaving everything as it is, and otherwise cuts up the first free
block that has room. -/
lemma alloc_spec {bs : List HeapBlock} (h : Layout list arena bs) (size align : ℕ) :
    ((¬ ValidRequest size align ∨ ∀ b ∈ bs, isFree b = true → NoRoom size align b) ∧
      (∃ e, e ≠ .guard ∧ e ≠ .corrupted ∧ list.plan arena size align = .ok (.error e)) ∧
      list.alloc arena size align = .ok (none, list, arena)) ∨
    ∃ before b after payload gap list' arena', ValidRequest size align ∧
      Found align size bs before b after payload gap ∧
      (∃ p, list.plan arena size align = .ok (.ok p)) ∧
      list.alloc arena size align = .ok (some payload, list', arena') ∧
      Allocated list arena before b after size payload gap list' arena' := by
  by_cases hreq : ValidRequest size align
  swap
  · -- the request is refused before the walk
    have hplan : list.plan arena size align = .ok (.error .refused) := by
      refine if_pos ?_
      by_contra hcon
      simp only [not_or, Bool.not_eq_false, not_lt] at hcon
      exact hreq ⟨Nat.pos_of_ne_zero hcon.1, hcon.2.1, hcon.2.2.1⟩
    refine Or.inl ⟨Or.inl hreq, ⟨_, by simp, by simp, hplan⟩, ?_⟩
    rw [FreeList.alloc, hplan]
    rfl
  by_cases hhead : list.head = noneOffset
  · -- there is no free block
    have hplan : list.plan arena size align = .ok (.error .refused) :=
      if_pos (by simp [hhead])
    refine Or.inl ⟨Or.inr fun b hb hfree => ?_, ⟨_, by simp, by simp, hplan⟩, ?_⟩
    · have hlen := h.arenaLen_lt
      rw [h.head_eq, firstFree_eq_noneOffset_iff h.tiles (by omega)] at hhead
      exact absurd (mem_frees.mpr ⟨hb, hfree⟩) (by simp [hhead])
    · rw [FreeList.alloc, hplan]
      rfl
  have hne : bs ≠ [] := fun hnil => hhead (by rw [h.head_eq, hnil]; rfl)
  have hplan : list.plan arena size align =
      list.search arena size align list.maxBlocks (lastFree []) (firstFree noneOffset bs) := by
    rw [FreeList.plan, if_neg, h.head_eq]
    · rfl
    · simp only [not_or, Bool.not_eq_false, not_lt]
      exact ⟨hreq.pos.ne', hreq.isPowerOfTwo, hreq.le_maxAlign, hhead, h.arenaMatches hne⟩
  rcases search_spec hreq.isPowerOfTwo hreq.le_maxAlign size
    (show Linked list arena ([] ++ bs) from h.toLinked) h.length_frees_le with ⟨before, b, after,
    payload, gap, hfound, heq⟩ | ⟨hno, e, he, heq⟩
  · obtain ⟨list', arena', hcommit, halloc⟩ := commit_spec (hfound.split ▸ h.toLinked) hfound.free
      hfound.fit hfound.room hreq.pos
    refine Or.inr ⟨before, b, after, payload, gap, list', arena', hreq, hfound,
      ⟨_, hplan.trans heq⟩, ?_, halloc⟩
    rw [FreeList.alloc, hplan, heq, Checked.ok_bind]
    simp only [List.nil_append, hcommit, Checked.ok_bind]
    rfl
  · have hexit : e ≠ .guard ∧ e ≠ .corrupted := by
      rcases he with rfl | rfl <;> simp
    refine Or.inl ⟨Or.inr hno, ⟨e, hexit.1, hexit.2, hplan.trans heq⟩, ?_⟩
    rw [FreeList.alloc, hplan, heq]
    rfl

/-- The walk of `alloc` meets neither its bound on the rounds nor a damaged header. -/
lemma plan_spec {bs : List HeapBlock} (h : Layout list arena bs) (size align : ℕ) :
    ∃ result, list.plan arena size align = .ok result ∧ result ≠ .error .guard ∧
      result ≠ .error .corrupted := by
  rcases alloc_spec h size align with
    ⟨-, ⟨e, hguard, hcorrupted, heq⟩, -⟩ | ⟨-, -, -, -, -, -, -, -, -, ⟨p, heq⟩, -⟩
  · exact ⟨_, heq, by simpa using hguard, by simpa using hcorrupted⟩
  · exact ⟨_, heq, by simp, by simp⟩

end Cut

end Heap

end ParanukOS
