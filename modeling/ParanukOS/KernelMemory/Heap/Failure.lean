import ParanukOS.KernelMemory.Heap.Walks
import ParanukOS.KernelMemory.Heap.Run

/-!
# Failed calls of the heap

A call of `alloc` or `dealloc` that fails changes nothing.  Nothing is assumed of the arena: the
headers may have been overwritten, and the list may be cyclic or lead anywhere.

`alloc` settles everything before its first write.  `dealloc` has an exit after its first write, for
a block before the one released whose header cannot be read.  That block has been found by one of
two walks along the list, which have read its header, and the write does not change the length of
the arena; so this exit is never taken.

## Outline

* `FreeList.Joins`: what `dealloc` has settled before its first write.
* `FreeList.Joins.le_length`: the block before the one released has its header in the arena.
* `release_cases`: what the second half of `dealloc` does.
* `failed_call_unchanged`: the main result.
-/

namespace ParanukOS

open Foundation

namespace Heap

/-- `dealloc` is about to write: the block from `header` to `blockEnd`, merged with its neighbours,
becomes the free block of `size` bytes at `start`, between the blocks `previous` and `next`. -/
def FreeList.Joins (self : FreeList) (arena : Slice UInt8) (header blockSize blockEnd offset start
    size previous next : ℕ) : Prop :=
  ∃ before current merged,
    self.insertPoint arena header blockEnd offset self.maxBlocks noneOffset self.head =
      .ok (.ok (before, current)) ∧
    mergeNext arena blockEnd blockSize current = .ok (.ok (merged, next)) ∧
    self.mergePrevious arena header merged before = .ok (.ok (start, size, previous))

section Failure

variable {list : FreeList} {arena : Slice UInt8}
  {header blockSize blockEnd offset start size previous next : ℕ}

lemma arenaLen_le_of_arenaMatches (h : list.arenaMatches arena = true) :
    list.arenaLen ≤ arena.length := by
  rw [← beq_iff_eq.mp h]
  exact Nat.and_le_left

lemma arenaLen_lt_of_arenaMatches (h : list.arenaMatches arena = true) :
    list.arenaLen < 2 ^ 63 :=
  (arenaLen_le_of_arenaMatches h).trans_lt arena.length_lt'

/-- What `dealloc` is about to write to: the merged block starts where the block released or the
one before it does, and there is no block before it or its header lies in the arena. -/
lemma FreeList.Joins.le_length (hlen : list.arenaLen < 2 ^ 63)
    (h : list.Joins arena header blockSize blockEnd offset start size previous next) :
    (start = header ∨ start + 24 ≤ arena.length) ∧
      (previous = noneOffset ∨ previous + 24 ≤ arena.length) := by
  obtain ⟨before, current, merged, hpoint, -, hmerge⟩ := h
  obtain ⟨l, ⟨htrail, -, -⟩, rfl⟩ := slot_of_insertPoint hlen hpoint
  rw [FreeList.mergePrevious] at hmerge
  by_cases hnone : lastFree l = noneOffset
  · rw [if_neg (not_not.mpr hnone)] at hmerge
    cases hmerge
    exact ⟨.inl rfl, .inl hnone⟩
  obtain ⟨stored, hsound⟩ := htrail.lastFree_cases.resolve_left hnone
  have hle := le_of_readHeader hsound.1
  rw [if_pos hnone, hsound.1] at hmerge
  dsimp only at hmerge
  obtain ⟨stop, -, hmerge⟩ := Checked.bind_eq_ok.mp hmerge
  by_cases hstart : stop = header
  · rw [if_pos hstart] at hmerge
    obtain ⟨total, -, hmerge⟩ := Checked.bind_eq_ok.mp hmerge
    cases hfree : list.previousFree arena (lastFree l) with
    | none =>
      rw [hfree] at hmerge
      cases hmerge
    | some before =>
      -- merged with the block before; the one before that comes from the second walk
      rw [hfree] at hmerge
      cases hmerge
      exact ⟨.inr hle, previousFree_eq_some hfree⟩
  · rw [if_neg hstart] at hmerge
    cases hmerge
    exact ⟨.inl rfl, .inr hle⟩

/-- The second half of `dealloc`: an exit before the first write, or the writes. -/
lemma release_cases {r : Except FreeListError Unit × FreeList × Slice UInt8}
    (h : list.release arena header blockSize blockEnd offset = .ok r) :
    (∃ e, r = (.error e, list, arena)) ∨
      ∃ start size previous next,
        list.Joins arena header blockSize blockEnd offset start size previous next ∧
        list.link arena start size previous next = .ok r := by
  rw [FreeList.release] at h
  obtain ⟨point, hpoint, h⟩ := Checked.bind_eq_ok.mp h
  cases point with
  | error e => exact .inl ⟨e, (Except.ok.inj h).symm⟩
  | ok point =>
    obtain ⟨before, current⟩ := point
    obtain ⟨first, hfirst, h⟩ := Checked.bind_eq_ok.mp h
    cases first with
    | error e => exact .inl ⟨e, (Except.ok.inj h).symm⟩
    | ok first =>
      obtain ⟨merged, next⟩ := first
      obtain ⟨second, hsecond, h⟩ := Checked.bind_eq_ok.mp h
      cases second with
      | error e => exact .inl ⟨e, (Except.ok.inj h).symm⟩
      | ok second =>
        obtain ⟨start, size, previous⟩ := second
        exact .inr ⟨start, size, previous, next, ⟨before, current, merged, hpoint, hfirst, hsecond⟩,
          h⟩

/-- What is left of `dealloc` are its writes. -/
lemma FreeList.Joins.release_eq
    (h : list.Joins arena header blockSize blockEnd offset start size previous next) :
    list.release arena header blockSize blockEnd offset =
      list.link arena start size previous next := by
  obtain ⟨before, current, merged, hpoint, hfirst, hsecond⟩ := h
  rw [FreeList.release, hpoint, Checked.ok_bind]
  dsimp only
  rw [hfirst, Checked.ok_bind]
  dsimp only
  rw [hsecond, Checked.ok_bind]

/-- A call of `alloc` that finds no block. -/
lemma alloc_eq_none {align : ℕ} {list' : FreeList} {arena' : Slice UInt8}
    (h : list.alloc arena size align = .ok (none, list', arena')) :
    list' = list ∧ arena' = arena := by
  rw [FreeList.alloc] at h
  obtain ⟨planned, -, h⟩ := Checked.bind_eq_ok.mp h
  cases planned with
  | error e =>
    cases h
    exact ⟨rfl, rfl⟩
  | ok p =>
    obtain ⟨_, -, h⟩ := Checked.bind_eq_ok.mp h
    cases h

/-- A call of `dealloc` that fails. -/
lemma dealloc_eq_error {e : FreeListError} {list' : FreeList} {arena' : Slice UInt8}
    (h : list.dealloc arena offset = .ok (.error e, list', arena')) :
    list' = list ∧ arena' = arena := by
  by_cases htests : ∃ blockSize, HeaderTests list arena offset blockSize
  · obtain ⟨blockSize, htests⟩ := htests
    have hlen := arenaLen_lt_of_arenaMatches htests.arenaMatches
    rw [dealloc_eq_release htests hlen] at h
    rcases release_cases h with ⟨_, hr⟩ | ⟨start, size, previous, next, hjoins, hlink⟩
    · cases hr
      exact ⟨rfl, rfl⟩
    · exact absurd hlink (link_ne_error (hjoins.le_length hlen).2 _ _ _ e list' arena')
  · obtain ⟨_, hr⟩ := dealloc_of_not_tests fun blockSize ht => htests ⟨blockSize, ht⟩
    rw [hr] at h
    cases h
    exact ⟨rfl, rfl⟩

/-- **Failed calls change nothing.**  For every list and every contents of the arena: if `alloc`
returns `None` or `dealloc` returns an error, then the list and the arena are as before.  The exit
of `dealloc` after its first write is never taken. -/
theorem failed_call_unchanged (list : FreeList) (arena : Slice UInt8) :
    (∀ size align list' arena', list.alloc arena size align = .ok (none, list', arena') →
      list' = list ∧ arena' = arena) ∧
    (∀ offset e list' arena', list.dealloc arena offset = .ok (.error e, list', arena') →
      list' = list ∧ arena' = arena) ∧
    ∀ header blockSize blockEnd offset start size previous next,
      list.arenaMatches arena = true →
      list.Joins arena header blockSize blockEnd offset start size previous next →
      ∀ e list' arena',
        list.link arena start size previous next ≠ .ok (.error e, list', arena') := by
  refine ⟨fun size align list' arena' h => alloc_eq_none h,
    fun offset e list' arena' h => dealloc_eq_error h, ?_⟩
  intro header blockSize blockEnd offset start size previous next hmatches hjoins
  have hlen := arenaLen_lt_of_arenaMatches hmatches
  exact link_ne_error (hjoins.le_length hlen).2 start size next

/-- A list whose only block is its own successor. -/
def cyclicList : FreeList where
  head := 0
  arenaLen := 64
  freeBlocks := 1
  freeBytes := 0
  largestFree := 0

/-- The arena of that list.  Behind the block is an allocated one. -/
def cyclicArena : Slice UInt8 :=
  setHeader (setHeader (zeroArena 64 (by decide)) 0 magicFree 24 0) 24 magicAlloc 40 noneOffset

/-- The arena with the cycle cut: the block is the only one of the list. -/
def cutArena : Slice UInt8 := setHeader cyclicArena 0 magicFree 24 noneOffset

/-- Without the cycle, `dealloc` gets to its writes. -/
lemma joins_cutArena : cyclicList.Joins cutArena 24 40 64 48 0 64 noneOffset noneOffset :=
  ⟨0, noneOffset, 40, by rfl, by rfl, by rfl⟩

/-- On a cyclic list both calls give up in the middle of their walks. -/
theorem failed_call_unchanged_cyclic :
    (∃ list' arena', cyclicList.alloc cyclicArena 16 8 = .ok (none, list', arena') ∧
      list' = cyclicList ∧ arena' = cyclicArena) ∧
    (∃ e list' arena', cyclicList.dealloc cyclicArena 48 = .ok (.error e, list', arena') ∧
      list' = cyclicList ∧ arena' = cyclicArena) ∧
    ∀ e list' arena', cyclicList.link cutArena 0 64 noneOffset noneOffset ≠
      .ok (.error e, list', arena') := by
  have halloc : Checked.okAnd (cyclicList.alloc cyclicArena 16 8) (fun r => r.1.isNone) = true := by
    decide +kernel
  have hdealloc : Checked.okAnd (cyclicList.dealloc cyclicArena 48) (fun r => !r.1.toBool) =
      true := by
    decide +kernel
  obtain ⟨⟨offset, list', arena'⟩, halloc, hnone⟩ := Checked.okAnd_eq_true_iff.mp halloc
  obtain rfl := Option.isNone_iff_eq_none.mp hnone
  obtain ⟨⟨result, list'', arena''⟩, hdealloc, herror⟩ := Checked.okAnd_eq_true_iff.mp hdealloc
  refine ⟨⟨list', arena', halloc, (failed_call_unchanged _ _).1 _ _ _ _ halloc⟩, ?_,
    (failed_call_unchanged _ _).2.2 _ _ _ _ _ _ _ _ (by decide) joins_cutArena⟩
  cases result with
  | ok u => cases herror
  | error e =>
    exact ⟨e, list'', arena'', hdealloc, (failed_call_unchanged _ _).2.1 _ _ _ _ hdealloc⟩

end Failure

end Heap

end ParanukOS
