import ParanukOS.Foundation.Rounds
import ParanukOS.KernelMemory.Heap.Alloc

/-!
# The walks along the free list

The free list is a chain of headers in the arena, and nothing protects it from being overwritten.
Here are the four loops that walk along it, one round at a time, for an arena with any contents:
the one of `alloc`, the one of `dealloc`, `previous_free` and `recompute`.  Each of them is a loop
with at most `max_blocks` rounds, and what a round does depends on the header that it reads.

## Outline

* `FreeList.Sound`, `Wraps`, `Trail`: headers, and chains of them.
* `FreeList.searchRound`, `insertRound`, `previousRound`, `countRound`: the rounds of the loops.
* `search_eq_loop`, `insertPoint_eq_loop`, `previousFreeFrom_eq_loop`, `countFree_eq_loop`: the
  loops.
* `trail_of_rounds`: a loop whose rounds follow sound headers walks along a trail.
* `FreeList.Slot`, `slot_of_insertPoint`, `FreeList.Slot.insertPoint_eq`: where `dealloc` puts a
  block.
-/

namespace ParanukOS

open Foundation

namespace Heap

/-! ## Headers -/

namespace FreeList

/-- The header at `current` belongs to a free block that lies inside of the arena. -/
def Sound (self : FreeList) (arena : Slice UInt8) (current size next : ℕ) : Prop :=
  readHeader arena current = some (magicFree, size, next) ∧ headerSize ≤ size ∧
    current + size ≤ self.arenaLen

/-- A walk along sound headers, from the first offset to the second one, with the blocks on its
way. -/
inductive Trail (self : FreeList) (arena : Slice UInt8) : ℕ → List HeapBlock → ℕ → Prop
  | nil (current : ℕ) : Trail self arena current [] current
  | cons {current size next stop : ℕ} {l : List HeapBlock}
      (hsound : self.Sound arena current size next) (hrest : Trail self arena next l stop) :
      Trail self arena current (⟨current, size, none⟩ :: l) stop

end FreeList

/-- The header at `current` is that of a free block whose end is not a word. -/
def Wraps (arena : Slice UInt8) (current : ℕ) : Prop :=
  ∃ size next, readHeader arena current = some (magicFree, size, next) ∧ 2 ^ 64 ≤ current + size

/-! ## Rounds -/

namespace FreeList

variable (self : FreeList) (arena : Slice UInt8)

/-- A round of the loop of `alloc`.  The state is the block before the current one, and the current
one. -/
def searchRound (size align : ℕ) : ℕ × ℕ → Checked (Round (ℕ × ℕ) (Except AllocExit Placement))
  | (previous, current) => do
    if current = noneOffset then
      return .done (.error .exhausted)
    let some (magic, blockSize, next) := readHeader arena current | return .done (.error .corrupted)
    if magic ≠ magicFree ∨ blockSize < headerSize then
      return .done (.error .corrupted)
    let some blockEnd := checkedAdd current blockSize | return .done (.error .corrupted)
    if self.arenaLen < blockEnd then
      return .done (.error .corrupted)
    let some (payload, frontGap) ← payloadIn current align | return .done (.error .overflow)
    let some payloadEnd := checkedAdd payload size | return .done (.error .overflow)
    if blockEnd < payloadEnd then
      return .next (current, next)
    return .done (← place arena previous current next blockEnd payload frontGap payloadEnd)

/-- A round of the loop of `dealloc`. -/
def insertRound (header blockEnd offset : ℕ) :
    ℕ × ℕ → Checked (Round (ℕ × ℕ) (Except FreeListError (ℕ × ℕ)))
  | (previous, current) => do
    if current = noneOffset then
      return .done (.ok (previous, current))
    let some (magic, size, next) := readHeader arena current
      | return .done (.error (.corrupted current))
    if magic ≠ magicFree ∨ size < headerSize then
      return .done (.error (.corrupted current))
    if self.arenaLen < (← addWord current size) then
      return .done (.error (.corrupted current))
    if header ≤ current then
      if current < blockEnd then
        return .done (.error (.alreadyFree offset))
      return .done (.ok (previous, current))
    if header < (← addWord current size) then
      return .done (.error (.alreadyFree offset))
    return .next (current, next)

/-- A round of the loop of `previous_free`. -/
def previousRound (target : ℕ) : ℕ × ℕ → Checked (Round (ℕ × ℕ) (Option ℕ))
  | (previous, current) => do
    if current = noneOffset then
      return .done none
    if current = target then
      return .done (some previous)
    let some (_, _, next) := readHeader arena current | return .done none
    return .next (current, next)

/-- A round of the loop of `recompute`.  The state is the current block and what has been
counted. -/
def countRound : ℕ × HeapStats → Checked (Round (ℕ × HeapStats) HeapStats)
  | (current, counted) => do
    if current = noneOffset then
      return .done counted
    let some (magic, size, next) := readHeader arena current | return .done counted
    if magic ≠ magicFree ∨ size < headerSize then
      return .done counted
    if self.arenaLen < (← addWord current size) then
      return .done counted
    let payload ← subWord size headerSize
    return .next (next, { freeBlocks := ← addWord counted.freeBlocks 1
                          freeBytes := ← addWord counted.freeBytes payload
                          largestFree := max counted.largestFree payload })

/-- The loop of `alloc`. -/
lemma search_eq_loop (size align n previous current : ℕ) :
    self.search arena size align n previous current =
      loopAtMost (self.searchRound arena size align)
        (fun s => .error (if s.2 = noneOffset then .exhausted else .guard)) n
        (previous, current) := by
  induction n generalizing previous current with
  | zero => rfl
  | succ n ih =>
    rw [search, loopAtMost, searchRound]
    by_cases hnone : current = noneOffset
    · rw [if_pos hnone, if_pos hnone]
      rfl
    rw [if_neg hnone, if_neg hnone]
    cases readHeader arena current with
    | none => rfl
    | some header =>
      obtain ⟨magic, blockSize, next⟩ := header
      dsimp only
      by_cases hmagic : magic ≠ magicFree ∨ blockSize < headerSize
      · rw [if_pos hmagic, if_pos hmagic]
        rfl
      rw [if_neg hmagic, if_neg hmagic]
      cases checkedAdd current blockSize with
      | none => rfl
      | some blockEnd =>
        dsimp only
        by_cases hend : self.arenaLen < blockEnd
        · rw [if_pos hend, if_pos hend]
          rfl
        rw [if_neg hend, if_neg hend]
        cases payloadIn current align with
        | error e => rfl
        | ok r =>
          cases r with
          | none => rfl
          | some fit =>
            obtain ⟨payload, frontGap⟩ := fit
            simp only [Checked.ok_bind]
            cases checkedAdd payload size with
            | none => rfl
            | some payloadEnd =>
              dsimp only
              by_cases hroom : blockEnd < payloadEnd
              · rw [if_pos hroom, if_pos hroom, ih]
                rfl
              · rw [if_neg hroom, if_neg hroom]
                cases place arena previous current next blockEnd payload frontGap payloadEnd <;> rfl

/-- The loop of `dealloc`. -/
lemma insertPoint_eq_loop (header blockEnd offset n previous current : ℕ) :
    self.insertPoint arena header blockEnd offset n previous current =
      loopAtMost (self.insertRound arena header blockEnd offset)
        (fun s => if s.2 = noneOffset then .ok s else .error (.corrupted s.2)) n
        (previous, current) := by
  induction n generalizing previous current with
  | zero => rfl
  | succ n ih =>
    rw [insertPoint, loopAtMost, insertRound]
    by_cases hnone : current = noneOffset
    · rw [if_pos hnone, if_pos hnone]
      rfl
    rw [if_neg hnone, if_neg hnone]
    cases readHeader arena current with
    | none => rfl
    | some fields =>
      obtain ⟨magic, size, next⟩ := fields
      dsimp only
      by_cases hmagic : magic ≠ magicFree ∨ size < headerSize
      · rw [if_pos hmagic, if_pos hmagic]
        rfl
      rw [if_neg hmagic, if_neg hmagic]
      cases addWord current size with
      | error e => rfl
      | ok stop =>
        simp only [Checked.ok_bind]
        by_cases hend : self.arenaLen < stop
        · rw [if_pos hend, if_pos hend]
          rfl
        rw [if_neg hend, if_neg hend]
        by_cases hheader : header ≤ current
        · rw [if_pos hheader, if_pos hheader]
          split_ifs <;> rfl
        rw [if_neg hheader, if_neg hheader]
        by_cases hover : header < stop
        · rw [if_pos hover, if_pos hover]
          rfl
        · rw [if_neg hover, if_neg hover, ih]
          rfl

/-- The loop of `previous_free`. -/
lemma previousFreeFrom_eq_loop (target n previous current : ℕ) :
    loopAtMost (previousRound arena target) (fun _ => none) n (previous, current) =
      .ok (previousFreeFrom arena target n previous current) := by
  induction n generalizing previous current with
  | zero => rfl
  | succ n ih =>
    rw [previousFreeFrom, loopAtMost, previousRound]
    by_cases hnone : current = noneOffset
    · rw [if_pos hnone, if_pos hnone]
      rfl
    rw [if_neg hnone, if_neg hnone]
    by_cases htarget : current = target
    · rw [if_pos htarget, if_pos htarget]
      rfl
    rw [if_neg htarget, if_neg htarget]
    cases readHeader arena current with
    | none => rfl
    | some fields => exact ih current fields.2.2

/-- The loop of `recompute`. -/
lemma countFree_eq_loop (n current : ℕ) (counted : HeapStats) :
    self.countFree arena n current counted =
      loopAtMost (self.countRound arena) Prod.snd n (current, counted) := by
  induction n generalizing current counted with
  | zero => rfl
  | succ n ih =>
    rw [countFree, loopAtMost, countRound]
    by_cases hnone : current = noneOffset
    · rw [if_pos hnone, if_pos hnone]
      rfl
    rw [if_neg hnone, if_neg hnone]
    cases readHeader arena current with
    | none => rfl
    | some fields =>
      obtain ⟨magic, size, next⟩ := fields
      dsimp only
      by_cases hmagic : magic ≠ magicFree ∨ size < headerSize
      · rw [if_pos hmagic, if_pos hmagic]
        rfl
      rw [if_neg hmagic, if_neg hmagic]
      cases addWord current size with
      | error e => rfl
      | ok stop =>
        simp only [Checked.ok_bind]
        by_cases hend : self.arenaLen < stop
        · rw [if_pos hend, if_pos hend]
          rfl
        rw [if_neg hend, if_neg hend]
        cases subWord size headerSize with
        | error e => rfl
        | ok payload =>
          simp only [Checked.ok_bind]
          cases addWord counted.freeBlocks 1 with
          | error e => rfl
          | ok blocks =>
            simp only [Checked.ok_bind]
            cases addWord counted.freeBytes payload with
            | error e => rfl
            | ok bytes =>
              simp only [Checked.ok_bind, ih]
              rfl

end FreeList

/-! ## What a round does -/

section Rounds

variable {list : FreeList} {arena : Slice UInt8} {current size next previous : ℕ}

/-- A header that is not usable: no walk goes on from it, and none stops the program. -/
def FreeList.Unusable (self : FreeList) (arena : Slice UInt8) (current : ℕ) : Prop :=
  ∀ size next, readHeader arena current = some (magicFree, size, next) →
    size < headerSize ∨ self.arenaLen < current + size ∧ current + size < 2 ^ 64

/-- The three kinds of headers. -/
lemma header_cases (list : FreeList) (arena : Slice UInt8) (current : ℕ) :
    (∃ size next, list.Sound arena current size next) ∨ Wraps arena current ∨
      list.Unusable arena current := by
  by_cases hsound : ∃ size next, list.Sound arena current size next
  · exact .inl hsound
  by_cases hwraps : Wraps arena current
  · exact .inr (.inl hwraps)
  refine .inr (.inr fun size next hread => ?_)
  by_contra hcon
  push Not at hcon
  obtain ⟨hsize, hend⟩ := hcon
  by_cases hle : current + size ≤ list.arenaLen
  · exact hsound ⟨size, next, hread, hsize, hle⟩
  · exact hwraps ⟨size, next, hread, hend (not_le.mp hle)⟩

/-- A header that can be read lies in the arena. -/
lemma le_of_readHeader {fields : ℕ × ℕ × ℕ} (h : readHeader arena current = some fields) :
    current + 24 ≤ arena.length := by
  obtain ⟨magic, size, next⟩ := fields
  exact (readHeader_eq_some_iff.mp h).1

lemma ne_noneOffset_of_readHeader {fields : ℕ × ℕ × ℕ}
    (h : readHeader arena current = some fields) : current ≠ noneOffset := by
  rintro rfl
  rw [readHeader_noneOffset] at h
  cases h

/-- The tests of a sound header pass. -/
lemma FreeList.Sound.tests (h : list.Sound arena current size next) :
    ¬ (magicFree ≠ magicFree ∨ size < headerSize) :=
  not_or.mpr ⟨not_not.mpr rfl, not_lt.mpr h.2.1⟩

/-- A block that ends beyond the address space is larger than a header. -/
lemma Wraps.exists_tests (h : Wraps arena current) : ∃ size next,
    readHeader arena current = some (magicFree, size, next) ∧
      ¬ (magicFree ≠ magicFree ∨ size < headerSize) ∧ addWord current size = .error .overflow := by
  obtain ⟨size, next, hread, hwraps⟩ := h
  have hle := le_of_readHeader hread
  have hlen := arena.length_lt'
  refine ⟨size, next, hread, not_or.mpr ⟨not_not.mpr rfl, ?_⟩, if_neg (not_lt.mpr hwraps)⟩
  simp only [headerSize]
  omega

/-- Which test an unusable header fails. -/
lemma FreeList.Unusable.cases (h : list.Unusable arena current) :
    readHeader arena current = none ∨ ∃ magic size next,
      readHeader arena current = some (magic, size, next) ∧
      ((magic ≠ magicFree ∨ size < headerSize) ∨
        ¬ (magic ≠ magicFree ∨ size < headerSize) ∧
          addWord current size = .ok (current + size) ∧ list.arenaLen < current + size) := by
  cases hread : readHeader arena current with
  | none => exact .inl rfl
  | some fields =>
    obtain ⟨magic, size, next⟩ := fields
    refine .inr ⟨magic, size, next, rfl, ?_⟩
    by_cases htests : magic ≠ magicFree ∨ size < headerSize
    · exact .inl htests
    · refine .inr ⟨htests, ?_⟩
      push Not at htests
      obtain ⟨rfl, hsize⟩ := htests
      obtain ⟨hend, hlt⟩ := (h size next hread).resolve_left (not_lt.mpr hsize)
      exact ⟨addWord_of_lt hlt, hend⟩

/-- A round of `dealloc` at a sound header. -/
lemma insertRound_of_sound (hlen : list.arenaLen < 2 ^ 63)
    (h : list.Sound arena current size next) (header blockEnd offset : ℕ) :
    list.insertRound arena header blockEnd offset (previous, current) = .ok (
      if header ≤ current then
        if current < blockEnd then .done (.error (.alreadyFree offset))
        else .done (.ok (previous, current))
      else if header < current + size then .done (.error (.alreadyFree offset))
      else .next (current, next)) := by
  obtain ⟨hread, hsize, hend⟩ := id h
  have hadd : addWord current size = .ok (current + size) := addWord_of_lt (by omega)
  rw [FreeList.insertRound, if_neg (ne_noneOffset_of_readHeader hread), hread]
  dsimp only
  rw [if_neg h.tests, hadd]
  simp only [Checked.ok_bind]
  rw [if_neg (not_lt.mpr hend)]
  split_ifs <;> rfl

/-- A round of `dealloc` at a header that wraps. -/
lemma insertRound_of_wraps (h : Wraps arena current) (header blockEnd offset : ℕ) :
    list.insertRound arena header blockEnd offset (previous, current) = .error .overflow := by
  obtain ⟨size, next, hread, htests, hadd⟩ := h.exists_tests
  rw [FreeList.insertRound, if_neg (ne_noneOffset_of_readHeader hread), hread]
  dsimp only
  rw [if_neg htests, hadd]
  rfl

/-- A round of `dealloc` at any other header. -/
lemma insertRound_of_unusable (h : list.Unusable arena current) (header blockEnd offset : ℕ) :
    list.insertRound arena header blockEnd offset (previous, current) = .ok (.done (
      if current = noneOffset then .ok (previous, current) else .error (.corrupted current))) := by
  rw [FreeList.insertRound]
  by_cases hnone : current = noneOffset
  · rw [if_pos hnone, if_pos hnone]
    rfl
  rw [if_neg hnone, if_neg hnone]
  rcases h.cases with hread | ⟨magic, size, next, hread, htests | ⟨htests, hadd, hend⟩⟩
  · rw [hread]
    rfl
  · rw [hread]
    dsimp only
    rw [if_pos htests]
    rfl
  · rw [hread]
    dsimp only
    rw [if_neg htests, hadd, Checked.ok_bind, if_pos hend]
    rfl

/-- A round of `recompute` at a sound header. -/
lemma countRound_of_sound (hlen : list.arenaLen < 2 ^ 63) (h : list.Sound arena current size next)
    (counted : HeapStats) :
    list.countRound arena (current, counted) = (do
      let blocks ← addWord counted.freeBlocks 1
      let bytes ← addWord counted.freeBytes (size - headerSize)
      return .next (next, ⟨blocks, bytes, max counted.largestFree (size - headerSize)⟩)) := by
  obtain ⟨hread, hsize, hend⟩ := id h
  have hadd : addWord current size = .ok (current + size) := addWord_of_lt (by omega)
  rw [FreeList.countRound, if_neg (ne_noneOffset_of_readHeader hread), hread]
  dsimp only
  rw [if_neg h.tests, hadd]
  simp only [Checked.ok_bind]
  rw [if_neg (not_lt.mpr hend), subWord_of_le hsize]
  rfl

/-- A round of `recompute` at a header that wraps. -/
lemma countRound_of_wraps (h : Wraps arena current) (counted : HeapStats) :
    list.countRound arena (current, counted) = .error .overflow := by
  obtain ⟨size, next, hread, htests, hadd⟩ := h.exists_tests
  rw [FreeList.countRound, if_neg (ne_noneOffset_of_readHeader hread), hread]
  dsimp only
  rw [if_neg htests, hadd]
  rfl

/-- A round of `recompute` at any other header. -/
lemma countRound_of_unusable (h : list.Unusable arena current) (counted : HeapStats) :
    list.countRound arena (current, counted) = .ok (.done counted) := by
  rw [FreeList.countRound]
  split_ifs with hnone
  · rfl
  rcases h.cases with hread | ⟨magic, size, next, hread, htests | ⟨htests, hadd, hend⟩⟩
  · rw [hread]
    rfl
  · rw [hread]
    dsimp only
    rw [if_pos htests]
    rfl
  · rw [hread]
    dsimp only
    rw [if_neg htests, hadd, Checked.ok_bind, if_pos hend]
    rfl

/-- A round of `previous_free` that goes on has read a header. -/
lemma of_previousRound_next {target : ℕ} {s s' : ℕ × ℕ}
    (h : FreeList.previousRound arena target s = .ok (.next s')) :
    s'.1 = s.2 ∧ s.2 ≠ target ∧ ∃ magic size, readHeader arena s.2 = some (magic, size, s'.2) := by
  obtain ⟨previous, current⟩ := s
  rw [FreeList.previousRound] at h
  split_ifs at h with hnone htarget
  · cases h
  · cases h
  · cases hread : readHeader arena current with
    | none =>
      rw [hread] at h
      cases h
    | some fields =>
      rw [hread] at h
      obtain rfl := Round.next.inj (Except.ok.inj h)
      exact ⟨rfl, htarget, fields.1, fields.2.1, rfl⟩

/-- A round of `previous_free` that ends with a block is at the target. -/
lemma of_previousRound_done {target before : ℕ} {s : ℕ × ℕ}
    (h : FreeList.previousRound arena target s = .ok (.done (some before))) : before = s.1 := by
  obtain ⟨previous, current⟩ := s
  rw [FreeList.previousRound] at h
  split_ifs at h with hnone htarget
  · cases h
  · exact (Option.some.inj (Round.done.inj (Except.ok.inj h))).symm
  · cases hread : readHeader arena current with
    | none =>
      rw [hread] at h
      cases h
    | some fields =>
      rw [hread] at h
      cases h

end Rounds

/-! ## Placements -/

/-- `alloc` cuts up the free block of `size` bytes at `current`, between the blocks `previous` and
`next`: in front of the allocation is no gap or one with a header, and behind it no rest or one with
a header, which goes to the end of the block. -/
structure Cuts (arena : Slice UInt8) (previous current size next : ℕ) (p : Placement) : Prop where
  previous_eq : p.previous = previous
  current_eq : p.current = current
  next_eq : p.next = next
  gap_cases : p.frontGap = 0 ∨ 24 ≤ p.frontGap
  header_eq : p.headerOffset = current + p.frontGap
  header_le : p.headerOffset + 24 ≤ current + size
  tail : ∀ n, p.tailBlock = some n →
    p.headerOffset + 24 ≤ p.tailStart ∧ 24 ≤ n ∧ p.tailStart + n = current + size
  allocSize_le : p.allocSize ≤ size
  previous_size : previous = noneOffset ∨
    ∃ magic after, readHeader arena previous = some (magic, p.previousSize, after)

/-- The headers that `alloc` writes for a placement lie in the arena. -/
structure Placeable (arena : Slice UInt8) (p : Placement) : Prop where
  header_le : p.headerOffset + 24 ≤ arena.length
  tail_le : ∀ size, p.tailBlock = some size → p.tailStart + 24 ≤ arena.length
  current_le : p.current + 24 ≤ arena.length
  previous_le : p.previous = noneOffset ∨ p.previous + 24 ≤ arena.length

section Search

variable {list : FreeList} {arena : Slice UInt8} {align current size next previous : ℕ}

/-- A block that is cut up lies in the arena, with all its headers. -/
lemma Cuts.placeable {p : Placement} (h : Cuts arena previous current size next p)
    (hle : current + size ≤ arena.length) : Placeable arena p where
  header_le := h.header_le.trans hle
  tail_le := fun n hn => by
    obtain ⟨-, hsize, hstop⟩ := h.tail n hn
    omega
  current_le := by
    have := h.header_le
    rw [h.header_eq] at this
    rw [h.current_eq]
    omega
  previous_le := h.previous_eq ▸ h.previous_size.imp_right fun ⟨_, _, hread⟩ =>
    le_of_readHeader hread

/-- Rounding up either leaves the address space or does not decrease the value. -/
lemma alignUp_cases (ha : isPowerOfTwo align = true) (v : ℕ) :
    alignUp v align = none ∨ ∃ p, alignUp v align = some p ∧ v ≤ p := by
  by_cases hv : v + align ≤ 2 ^ 64
  · obtain ⟨p, hp, hle, -⟩ := alignUp_spec ha hv
    exact .inr ⟨p, hp, hle⟩
  · obtain ⟨k, -, rfl⟩ := isPowerOfTwo_iff.mp ha
    refine .inl ?_
    rw [alignUp, checkedAdd_eq_none_iff.mpr (by omega)]
    rfl

/-- The place of the payload, in a block at any address: none, directly behind the header, or behind
a gap that has room for a header. -/
lemma payloadIn_cases (ha : isPowerOfTwo align = true) (hcurrent : current + 24 < 2 ^ 64) :
    payloadIn current align = .ok none ∨
      ∃ payload gap, payloadIn current align = .ok (some (payload, gap)) ∧
        payload = current + 24 + gap ∧ (gap = 0 ∨ 24 ≤ gap) := by
  rw [payloadIn, headerSize, addWord_of_lt hcurrent, Checked.ok_bind]
  rcases alignUp_cases ha (current + 24) with hnone | ⟨payload, hpayload, hle⟩
  · rw [hnone]
    exact .inl rfl
  rw [hpayload]
  dsimp only
  rw [subWord_of_le hle, Checked.ok_bind]
  split_ifs with hsmall
  · cases hlift : checkedAdd (current + 24) minBlock with
    | none => exact .inl rfl
    | some lifted =>
      obtain ⟨-, rfl⟩ := checkedAdd_eq_some_iff.mp hlift
      dsimp only
      rcases alignUp_cases ha (current + 24 + minBlock) with hnone | ⟨payload', hpayload', hle'⟩
      · rw [hnone]
        exact .inl rfl
      · have hle'' : current + 24 ≤ payload' := (Nat.le_add_right _ _).trans hle'
        rw [hpayload']
        dsimp only
        rw [subWord_of_le hle'']
        simp only [minBlock, headerSize, minPayload] at hle'
        exact .inr ⟨payload', _, rfl, by omega, .inr (by omega)⟩
  · simp only [minBlock, headerSize, minPayload] at hsmall
    exact .inr ⟨payload, _, rfl, by omega, by omega⟩

/-- Cutting up a block: an exit, or a placement in it. -/
lemma place_cases {payload gap request : ℕ} (hpayload : payload = current + 24 + gap)
    (hgap : gap = 0 ∨ 24 ≤ gap) (hroom : payload + request ≤ current + size) :
    (∃ e, place arena previous current next (current + size) payload gap (payload + request) =
      .ok (.error e)) ∨
      ∃ p, place arena previous current next (current + size) payload gap (payload + request) =
        .ok (.ok p) ∧ Cuts arena previous current size next p := by
  rw [place, headerSize, subWord_of_le (by omega), Checked.ok_bind]
  have halign : isPowerOfTwo headerAlign = true := by decide
  rcases alignUp_cases halign (payload + request) with hnone | ⟨tailStart, htail, htailStart⟩
  · rw [hnone]
    exact .inl ⟨_, rfl⟩
  rw [htail]
  dsimp only
  by_cases hrest : tailStart ≤ current + size
  swap
  · rw [checkedSub, if_neg hrest]
    exact .inl ⟨_, rfl⟩
  rw [checkedSub_of_le hrest]
  dsimp only
  have htailBlock : ∀ n, (if minBlock ≤ current + size - tailStart then
      some (current + size - tailStart) else none) = some n →
        payload - 24 + 24 ≤ tailStart ∧ 24 ≤ n ∧ tailStart + n = current + size := by
    intro n hn
    split_ifs at hn with hmin
    simp only [minBlock, headerSize, minPayload] at hmin
    obtain rfl := Option.some.inj hn
    omega
  rw [subWord_of_le (show payload - 24 ≤ tailStart by omega), Checked.ok_bind,
    subWord_of_le (show payload - 24 ≤ current + size by omega), Checked.ok_bind]
  -- of the rest it only matters that it has room for its header
  generalize (if minBlock ≤ current + size - tailStart then some (current + size - tailStart)
    else none) = tailBlock at htailBlock ⊢
  by_cases hprevious : previous = noneOffset
  · rw [if_pos hprevious, if_pos hprevious]
    split_ifs <;>
      exact .inr ⟨_, rfl, rfl, rfl, rfl, hgap, by dsimp only; omega, by dsimp only; omega,
        htailBlock, by dsimp only; omega, .inl hprevious⟩
  rw [if_neg hprevious, if_neg hprevious]
  cases hread : readHeader arena previous with
  | none => split_ifs <;> exact .inl ⟨_, rfl⟩
  | some fields =>
    split_ifs <;>
      exact .inr ⟨_, rfl, rfl, rfl, rfl, hgap, by dsimp only; omega, by dsimp only; omega,
        htailBlock, by dsimp only; omega, .inr ⟨fields.1, fields.2.2, hread⟩⟩

/-- A round of `alloc`: it ends without a block, it goes on from a sound header, whatever the block
before is, or it cuts up a block with a sound header. -/
lemma searchRound_cases (ha : isPowerOfTwo align = true) (request : ℕ) (s : ℕ × ℕ) :
    (∃ e, list.searchRound arena request align s = .ok (.done (.error e))) ∨
    (∃ size next, list.Sound arena s.2 size next ∧
      ∀ previous, list.searchRound arena request align (previous, s.2) = .ok (.next (s.2, next))) ∨
    ∃ size next p, list.Sound arena s.2 size next ∧ Cuts arena s.1 s.2 size next p ∧
      list.searchRound arena request align s = .ok (.done (.ok p)) := by
  obtain ⟨previous, current⟩ := s
  have hlength := arena.length_lt'
  simp only [FreeList.searchRound]
  by_cases hnone : current = noneOffset
  · rw [if_pos hnone]
    exact .inl ⟨_, rfl⟩
  rw [if_neg hnone]
  cases hread : readHeader arena current with
  | none => exact .inl ⟨_, rfl⟩
  | some fields =>
    obtain ⟨magic, size, next⟩ := fields
    have hle := le_of_readHeader hread
    dsimp only
    by_cases htests : magic ≠ magicFree ∨ size < headerSize
    · rw [if_pos htests]
      exact .inl ⟨_, rfl⟩
    rw [if_neg htests]
    push Not at htests
    obtain ⟨rfl, hsize⟩ := htests
    cases hadd : checkedAdd current size with
    | none => exact .inl ⟨_, rfl⟩
    | some blockEnd =>
      obtain ⟨-, rfl⟩ := checkedAdd_eq_some_iff.mp hadd
      dsimp only
      by_cases hend : list.arenaLen < current + size
      · rw [if_pos hend]
        exact .inl ⟨_, rfl⟩
      rw [if_neg hend]
      have hsound : list.Sound arena current size next := ⟨hread, hsize, not_lt.mp hend⟩
      have hheader : current + 24 < 2 ^ 64 := by omega
      rcases payloadIn_cases ha hheader with heq | ⟨payload, gap, heq, hpayload, hgap⟩
      · rw [heq]
        exact .inl ⟨_, rfl⟩
      rw [heq, Checked.ok_bind]
      dsimp only
      cases hplus : checkedAdd payload request with
      | none => exact .inl ⟨_, rfl⟩
      | some payloadEnd =>
        obtain ⟨-, rfl⟩ := checkedAdd_eq_some_iff.mp hplus
        dsimp only
        by_cases hroom : current + size < payload + request
        · -- too small: the only way to go on
          refine .inr (.inl ⟨size, next, hsound, fun _ => ?_⟩)
          rw [if_neg hnone, if_neg hsound.tests, if_neg hend, Checked.ok_bind]
          dsimp only
          rw [hplus]
          dsimp only
          rw [if_pos hroom]
          rfl
        rw [if_neg hroom]
        rcases place_cases hpayload hgap (not_lt.mp hroom) with ⟨e, he⟩ | ⟨p, hp, hcuts⟩
        · rw [he]
          exact .inl ⟨e, rfl⟩
        · rw [hp]
          exact .inr (.inr ⟨size, next, p, hsound, hcuts, rfl⟩)

/-- A round of `alloc` that goes on follows a sound header, and would do so behind any block. -/
lemma of_searchRound_next (ha : isPowerOfTwo align = true) {request : ℕ} {s s' : ℕ × ℕ}
    (h : list.searchRound arena request align s = .ok (.next s')) :
    s'.1 = s.2 ∧ (∃ size, list.Sound arena s.2 size s'.2) ∧
      ∀ previous, list.searchRound arena request align (previous, s.2) = .ok (.next s') := by
  rcases searchRound_cases ha request s with
    ⟨e, he⟩ | ⟨size, next, hsound, hnext⟩ | ⟨_, _, p, -, -, hp⟩
  · rw [he] at h
    cases h
  · rw [hnext s.1] at h
    cases h
    exact ⟨rfl, ⟨size, hsound⟩, hnext⟩
  · rw [hp] at h
    cases h

end Search

/-! ## Trails -/

section Trails

variable {list : FreeList} {arena : Slice UInt8} {start current size next previous : ℕ}
  {l m : List HeapBlock} {header blockEnd offset : ℕ}

/-- The last block of a list of free blocks. -/
lemma lastFree_snoc {b : HeapBlock} (htag : b.tag = none) : lastFree (l ++ [b]) = b.start := by
  have hfree : isFree b = true := by rw [isFree, htag]; rfl
  rw [lastFree, lastFree?_append_of_free hfree]
  rfl

namespace FreeList.Trail

/-- A trail goes on along one more sound header. -/
lemma snoc (h : list.Trail arena start l current) (hsound : list.Sound arena current size next) :
    list.Trail arena start (l ++ [⟨current, size, none⟩]) next := by
  induction h with
  | nil current => exact .cons hsound (.nil next)
  | cons hfirst _ ih => exact .cons hfirst (ih hsound)

/-- A trail can be cut anywhere. -/
lemma split (h : list.Trail arena start (l ++ m) current) :
    ∃ mid, list.Trail arena start l mid ∧ list.Trail arena mid m current := by
  induction l generalizing start with
  | nil => exact ⟨start, .nil start, h⟩
  | cons b l ih =>
    cases h with
    | cons hsound hrest =>
      obtain ⟨mid, hl, hm⟩ := ih hrest
      exact ⟨mid, .cons hsound hl, hm⟩

/-- The last block of a trail. -/
lemma of_snoc {b : HeapBlock} (h : list.Trail arena start (l ++ [b]) current) :
    list.Trail arena start l b.start ∧ list.Sound arena b.start b.size current ∧ b.tag = none := by
  obtain ⟨mid, hl, hlast⟩ := h.split
  cases hlast with
  | cons hsound hnil =>
    cases hnil
    exact ⟨hl, hsound, rfl⟩

/-- The block before the end of a trail: there is none, or it has a sound header. -/
lemma lastFree_cases (h : list.Trail arena start l current) :
    lastFree l = noneOffset ∨ ∃ size, list.Sound arena (lastFree l) size current := by
  rcases List.eq_nil_or_concat l with rfl | ⟨l, b, rfl⟩
  · exact .inl rfl
  · rw [List.concat_eq_append] at h ⊢
    obtain ⟨-, hsound, htag⟩ := h.of_snoc
    rw [lastFree_snoc htag]
    exact .inr ⟨b.size, hsound⟩

end FreeList.Trail

/-- A round of `dealloc` that goes on follows a sound header of a block before `header`. -/
lemma of_insertRound_next (hlen : list.arenaLen < 2 ^ 63) {s : ℕ × ℕ}
    (h : list.insertRound arena header blockEnd offset (previous, current) = .ok (.next s)) :
    ∃ size, list.Sound arena current size s.2 ∧ s.1 = current ∧ current + size ≤ header := by
  rcases header_cases list arena current with ⟨size, next, hsound⟩ | hwraps | hunusable
  · rw [insertRound_of_sound hlen hsound] at h
    replace h := Except.ok.inj h
    split_ifs at h with hbefore hinside hover
    obtain rfl := Round.next.inj h
    exact ⟨size, hsound, rfl, not_lt.mp hover⟩
  · rw [insertRound_of_wraps hwraps] at h
    cases h
  · rw [insertRound_of_unusable hunusable] at h
    cases h

/-- A loop whose rounds follow sound headers walks along a trail.  What else a round does may depend
on the blocks on its way. -/
lemma trail_of_rounds {σ β : Type} {body : σ → Checked (Round σ β)} (position : σ → ℕ)
    (Q : List HeapBlock → σ → Prop) {k : ℕ} {s s' : σ} (h : Rounds body k s s')
    (hs : position s = list.head) (hQ : Q [] s)
    (hbody : ∀ l s s', Q l s → body s = .ok (.next s') →
      ∃ size, list.Sound arena (position s) size (position s') ∧
        Q (l ++ [⟨position s, size, none⟩]) s') :
    ∃ l, l.length = k ∧ list.Trail arena list.head l (position s') ∧ Q l s' := by
  rw [← Nat.zero_add k]
  refine h.inv (P := fun k s => ∃ l, l.length = k ∧ list.Trail arena list.head l (position s) ∧
    Q l s) ⟨[], rfl, hs ▸ .nil _, hQ⟩ ?_
  intro i s s' ⟨l, hl, htrail, hQ⟩ hs
  obtain ⟨size, hsound, hQ'⟩ := hbody l s s' hQ hs
  refine ⟨l ++ [⟨position s, size, none⟩], ?_, htrail.snoc hsound, hQ'⟩
  rw [List.length_append, hl, List.length_singleton]

/-- The walk of `dealloc` is along a trail of blocks before `header`. -/
lemma trail_of_insertRounds (hlen : list.arenaLen < 2 ^ 63) {k : ℕ} {s : ℕ × ℕ}
    (h : Rounds (list.insertRound arena header blockEnd offset) k (noneOffset, list.head) s) :
    ∃ l, l.length = k ∧ list.Trail arena list.head l s.2 ∧ s.1 = lastFree l ∧
      ∀ b ∈ l, b.stop ≤ header := by
  refine trail_of_rounds Prod.snd (fun l s => s.1 = lastFree l ∧ ∀ b ∈ l, b.stop ≤ header) h rfl
    ⟨rfl, fun b hb => absurd hb List.not_mem_nil⟩ ?_
  intro l s s' ⟨_, hstop⟩ hs
  obtain ⟨size, hsound, hfst, hend⟩ := of_insertRound_next hlen hs
  refine ⟨size, hsound, ?_, ?_⟩
  · rw [hfst, lastFree, lastFree?_append_of_free rfl]
    rfl
  · intro b hb
    rcases List.mem_append.mp hb with hb | hb
    · exact hstop b hb
    · rw [List.mem_singleton.mp hb]
      exact hend

/-- Every trail of blocks before `header` is walked by `dealloc`. -/
lemma insertRounds_of_trail (hlen : list.arenaLen < 2 ^ 63)
    (h : list.Trail arena start l current) (hstop : ∀ b ∈ l, b.stop ≤ header) (previous : ℕ) :
    ∃ previous', Rounds (list.insertRound arena header blockEnd offset) l.length (previous, start)
      (previous', current) := by
  induction h generalizing previous with
  | nil current => exact ⟨previous, .refl _⟩
  | @cons current size next stop l hsound _ ih =>
    obtain ⟨previous', hrest⟩ := ih (fun b hb => hstop b (List.mem_cons_of_mem _ hb)) current
    have hend : current + size ≤ header := hstop _ List.mem_cons_self
    have hsize := hsound.2.1
    simp only [headerSize] at hsize
    refine ⟨previous', .step ?_ hrest⟩
    rw [insertRound_of_sound hlen hsound, if_neg (by omega), if_neg (not_lt.mpr hend)]

/-- The slot of a block from `header` to `blockEnd` in the list: behind the blocks `l`, which end
before it, and in front of the block at `current` or at the end of the list. -/
structure FreeList.Slot (list : FreeList) (arena : Slice UInt8) (header blockEnd : ℕ)
    (l : List HeapBlock) (current : ℕ) : Prop where
  trail : list.Trail arena list.head l current
  before : ∀ b ∈ l, b.stop ≤ header
  current_cases : current = noneOffset ∧ l.length ≤ list.maxBlocks ∨
    (∃ size next, list.Sound arena current size next) ∧ blockEnd ≤ current ∧
      l.length < list.maxBlocks

namespace FreeList.Slot

lemma length_le (h : list.Slot arena header blockEnd l current) : l.length ≤ list.maxBlocks :=
  h.current_cases.elim And.right fun hsound => hsound.2.2.le

lemma sound_or_none (h : list.Slot arena header blockEnd l current) :
    current = noneOffset ∨ ∃ size next, list.Sound arena current size next :=
  h.current_cases.imp And.left And.left

end FreeList.Slot

/-- `dealloc` puts a block into its slot. -/
lemma slot_of_insertPoint (hlen : list.arenaLen < 2 ^ 63)
    (h : list.insertPoint arena header blockEnd offset list.maxBlocks noneOffset list.head =
      .ok (.ok (previous, current))) :
    ∃ l, list.Slot arena header blockEnd l current ∧ previous = lastFree l := by
  rw [FreeList.insertPoint_eq_loop] at h
  rcases rounds_of_loopAtMost h with ⟨s, hrounds, hlate⟩ | ⟨k, hk, s, hrounds, hdone⟩
  · -- after as many rounds as there may be, the loop is at the end of the list
    obtain ⟨l, hl, htrail, hprev, hstop⟩ := trail_of_insertRounds hlen hrounds
    split_ifs at hlate with hnone
    obtain rfl := Except.ok.inj hlate
    exact ⟨l, ⟨htrail, hstop, .inl ⟨hnone, hl.le⟩⟩, hprev⟩
  · obtain ⟨l, hl, htrail, hprev, hstop⟩ := trail_of_insertRounds hlen hrounds
    obtain ⟨p, c⟩ := s
    rcases header_cases list arena c with ⟨size, next, hsound⟩ | hwraps | hunusable
    · rw [insertRound_of_sound hlen hsound] at hdone
      replace hdone := Except.ok.inj hdone
      split_ifs at hdone with hbefore hinside hover
      · cases hdone
      · cases hdone
        exact ⟨l, ⟨htrail, hstop, .inr ⟨⟨size, next, hsound⟩, not_lt.mp hinside, hl.trans_lt hk⟩⟩,
          hprev⟩
      · cases hdone
    · rw [insertRound_of_wraps hwraps] at hdone
      cases hdone
    · rw [insertRound_of_unusable hunusable] at hdone
      replace hdone := Round.done.inj (Except.ok.inj hdone)
      split_ifs at hdone with hnone
      cases hdone
      exact ⟨l, ⟨htrail, hstop, .inl ⟨hnone, (hl.trans_lt hk).le⟩⟩, hprev⟩

/-- `dealloc` finds a block's slot. -/
lemma FreeList.Slot.insertPoint_eq (h : list.Slot arena header blockEnd l current)
    (hlen : list.arenaLen < 2 ^ 63) (hblock : header ≤ blockEnd) (offset : ℕ) : ∃ previous,
    list.insertPoint arena header blockEnd offset list.maxBlocks noneOffset list.head =
      .ok (.ok (previous, current)) := by
  obtain ⟨previous, hrounds⟩ : ∃ previous, Rounds
      (list.insertRound arena header blockEnd offset) l.length (noneOffset, list.head)
      (previous, current) := insertRounds_of_trail hlen h.trail h.before noneOffset
  obtain ⟨n, hn⟩ := Nat.exists_eq_add_of_le h.length_le
  refine ⟨previous, ?_⟩
  rw [FreeList.insertPoint_eq_loop, hn, hrounds.loopAtMost_eq]
  rcases h.current_cases with ⟨hnone, -⟩ | ⟨⟨size, next, hsound⟩, hle, hlt⟩
  · cases n with
    | zero => rw [loopAtMost, if_pos hnone]; rfl
    | succ n =>
      refine loopAtMost_of_done ?_
      rw [FreeList.insertRound, if_pos hnone]
      rfl
  · obtain ⟨n, rfl⟩ := Nat.exists_eq_succ_of_ne_zero (show n ≠ 0 by omega)
    refine loopAtMost_of_done ?_
    rw [insertRound_of_sound hlen hsound, if_pos (hblock.trans hle), if_neg (not_lt.mpr hle)]

/-- The block that `previous_free` finds: there is none, or it has a header. -/
lemma previousFree_eq_some {target before : ℕ} (h : list.previousFree arena target = some before) :
    before = noneOffset ∨ before + 24 ≤ arena.length := by
  have hloop := FreeList.previousFreeFrom_eq_loop arena target list.maxBlocks noneOffset list.head
  rw [show FreeList.previousFreeFrom arena target list.maxBlocks noneOffset list.head =
    some before from h] at hloop
  rcases rounds_of_loopAtMost hloop with ⟨s, -, hlate⟩ | ⟨k, -, s, hrounds, hdone⟩
  · cases hlate
  · rw [of_previousRound_done hdone]
    refine hrounds.inv (P := fun _ s => s.1 = noneOffset ∨ s.1 + 24 ≤ arena.length) (n := 0)
      (.inl rfl) fun i s s' _ hs => ?_
    obtain ⟨hfst, -, magic, size, hread⟩ := of_previousRound_next hs
    rw [hfst]
    exact .inr (le_of_readHeader hread)

end Trails

end Heap

end ParanukOS
