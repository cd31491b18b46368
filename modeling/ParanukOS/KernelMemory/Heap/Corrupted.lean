import ParanukOS.KernelMemory.Heap.Failure

/-!
# The heap on overwritten headers

A client that writes beyond its payload overwrites the header behind it.  The calls of the heap read
that header again, with any size and any next pointer.  This file says when they still return.

All four loops keep to `max_blocks` rounds, and they only go on from sound headers, those of free
blocks inside of the arena.  The loop of `alloc` computes the end of a block with a checked
addition; those of `dealloc` and `recompute` use a plain one, which stops on a free header whose
block ends beyond the address space.  So a call returns exactly when these two loops do not come to
such a header, and when the sum of the free bytes that `recompute` forms is a word (which a cyclic
list can prevent in a large arena).

## Outline

* `Countable`, `recompute_returns_iff`: when the list can be counted.
* `FreeList.committed`, `FreeList.joined`: the headers as `alloc` and `dealloc` leave them.
* `plan_returns`, `alloc_returns_iff`: the calls of `alloc`.
* `FreeList.Passable`, `dealloc_returns_iff`: the calls of `dealloc`.
* `BoundedWalks`: the rounds of the four loops.
-/

namespace ParanukOS

open Foundation

namespace Heap

/-! ## Counting -/

/-- The free bytes of blocks. -/
def payloadBytes (l : List HeapBlock) : ℕ := (l.map fun b => b.size - headerSize).sum

@[simp] lemma payloadBytes_nil : payloadBytes [] = 0 := rfl

@[simp] lemma payloadBytes_cons (b : HeapBlock) (l : List HeapBlock) :
    payloadBytes (b :: l) = b.size - headerSize + payloadBytes l := by
  rw [payloadBytes, List.map_cons, List.sum_cons, ← payloadBytes]

lemma payloadBytes_snoc (l : List HeapBlock) (b : HeapBlock) :
    payloadBytes (l ++ [b]) = payloadBytes l + (b.size - headerSize) := by
  rw [payloadBytes, List.map_append, List.sum_append, ← payloadBytes, List.map_singleton,
    List.sum_singleton]

/-- The list can be counted: no walk comes to a header that wraps, and the free bytes on its way add
up to a word. -/
structure Countable (s : FreeList × Slice UInt8) : Prop where
  not_wraps : ∀ l current, s.1.Trail s.2 s.1.head l current → l.length < s.1.maxBlocks →
    ¬ Wraps s.2 current
  bytes_lt : ∀ l current, s.1.Trail s.2 s.1.head l current → l.length ≤ s.1.maxBlocks →
    payloadBytes l < 2 ^ 64

section Counting

variable {list : FreeList} {arena : Slice UInt8} {start current : ℕ} {l : List HeapBlock}
  {counted : HeapStats}

lemma maxBlocks_lt (hlen : list.arenaLen < 2 ^ 63) : list.maxBlocks < 2 ^ 63 := by
  simp only [FreeList.maxBlocks, headerAlign]
  omega

/-- A round of `recompute` that goes on adds a block with a sound header. -/
lemma of_countRound_next (hlen : list.arenaLen < 2 ^ 63) {s : ℕ × HeapStats}
    (h : list.countRound arena (current, counted) = .ok (.next s)) :
    ∃ size, list.Sound arena current size s.1 ∧ s.2.freeBlocks = counted.freeBlocks + 1 ∧
      s.2.freeBytes = counted.freeBytes + (size - headerSize) := by
  rcases header_cases list arena current with ⟨size, next, hsound⟩ | hwraps | hunusable
  · rw [countRound_of_sound hlen hsound] at h
    obtain ⟨blocks, hblocks, h⟩ := Checked.bind_eq_ok.mp h
    obtain ⟨bytes, hbytes, h⟩ := Checked.bind_eq_ok.mp h
    obtain rfl := Round.next.inj (Except.ok.inj h)
    obtain ⟨-, rfl⟩ := addWord_eq_ok_iff.mp hblocks
    obtain ⟨-, rfl⟩ := addWord_eq_ok_iff.mp hbytes
    exact ⟨size, hsound, rfl, rfl⟩
  · rw [countRound_of_wraps hwraps] at h
    cases h
  · rw [countRound_of_unusable hunusable] at h
    cases h

/-- The walk of `recompute` is along a trail, whose blocks it counts. -/
lemma trail_of_countRounds (hlen : list.arenaLen < 2 ^ 63) {k : ℕ} {s : ℕ × HeapStats}
    (h : Rounds (list.countRound arena) k (list.head, ⟨0, 0, 0⟩) s) :
    ∃ l, l.length = k ∧ list.Trail arena list.head l s.1 ∧ s.2.freeBlocks = k ∧
      s.2.freeBytes = payloadBytes l := by
  have hwalk : ∃ l, l.length = k ∧ list.Trail arena list.head l s.1 ∧
      s.2.freeBlocks = l.length ∧ s.2.freeBytes = payloadBytes l := by
    refine trail_of_rounds Prod.fst (fun l s => s.2.freeBlocks = l.length ∧
      s.2.freeBytes = payloadBytes l) h rfl ⟨rfl, rfl⟩ ?_
    intro l s s' ⟨hblocks, hbytes⟩ hs
    obtain ⟨size, hsound, hblocks', hbytes'⟩ := of_countRound_next hlen hs
    refine ⟨size, hsound, ?_, ?_⟩
    · rw [hblocks', hblocks, List.length_append, List.length_singleton]
    · rw [hbytes', hbytes, payloadBytes_snoc]
  obtain ⟨l, rfl, htrail, hblocks, hbytes⟩ := hwalk
  exact ⟨l, rfl, htrail, hblocks, hbytes⟩

/-- Every trail is walked by `recompute`, as long as the counters are words. -/
lemma countRounds_of_trail (hlen : list.arenaLen < 2 ^ 63)
    (h : list.Trail arena start l current) (counted : HeapStats)
    (hblocks : counted.freeBlocks + l.length < 2 ^ 64)
    (hbytes : counted.freeBytes + payloadBytes l < 2 ^ 64) :
    ∃ counted', Rounds (list.countRound arena) l.length (start, counted) (current, counted') ∧
      counted'.freeBytes = counted.freeBytes + payloadBytes l := by
  induction h generalizing counted with
  | nil current => exact ⟨counted, .refl _, rfl⟩
  | @cons current size next stop l hsound _ ih =>
    rw [payloadBytes_cons, ← Nat.add_assoc] at hbytes
    rw [List.length_cons, Nat.add_comm l.length, ← Nat.add_assoc] at hblocks
    obtain ⟨counted', hrest, heq⟩ := ih ⟨counted.freeBlocks + 1,
      counted.freeBytes + (size - headerSize), max counted.largestFree (size - headerSize)⟩
      hblocks hbytes
    refine ⟨counted', .step ?_ hrest, ?_⟩
    · rw [countRound_of_sound hlen hsound, addWord_of_lt ((Nat.le_add_right _ _).trans_lt hblocks),
        Checked.ok_bind, addWord_of_lt ((Nat.le_add_right _ _).trans_lt hbytes)]
      rfl
    · rw [heq, payloadBytes_cons, Nat.add_assoc]

/-- Every round of `recompute` that is reached returns, if the list can be counted. -/
lemma Countable.countRound_returns (hlen : list.arenaLen < 2 ^ 63) (h : Countable (list, arena))
    {k : ℕ} (hk : k < list.maxBlocks) {s : ℕ × HeapStats}
    (hrounds : Rounds (list.countRound arena) k (list.head, ⟨0, 0, 0⟩) s) :
    ∃ r, list.countRound arena s = .ok r := by
  obtain ⟨l, rfl, htrail, hblocks, hbytes⟩ := trail_of_countRounds hlen hrounds
  obtain ⟨current, counted⟩ := s
  rcases header_cases list arena current with ⟨size, next, hsound⟩ | hwraps | hunusable
  · have hmax := maxBlocks_lt hlen
    have hlt := h.bytes_lt _ _ (htrail.snoc hsound) (by simpa using hk)
    rw [payloadBytes_snoc] at hlt
    dsimp only at hblocks hbytes
    rw [countRound_of_sound hlen hsound, hblocks, hbytes, addWord_of_lt (by omega), Checked.ok_bind,
      addWord_of_lt hlt]
    exact ⟨_, rfl⟩
  · exact absurd hwraps (h.not_wraps l current htrail hk)
  · exact ⟨_, countRound_of_unusable hunusable counted⟩

/-- If every round of `recompute` that is reached returns, then the free bytes on every trail add up
to a word. -/
lemma payloadBytes_lt (hlen : list.arenaLen < 2 ^ 63)
    (h : ∀ k < list.maxBlocks, ∀ s, Rounds (list.countRound arena) k (list.head, ⟨0, 0, 0⟩) s →
      ∃ r, list.countRound arena s = .ok r)
    (htrail : list.Trail arena list.head l current) (hl : l.length ≤ list.maxBlocks) :
    payloadBytes l < 2 ^ 64 := by
  have hmax := maxBlocks_lt hlen
  -- the last addition is that of the round at the last block
  induction l using List.reverseRecOn generalizing current with
  | nil => exact Nat.two_pow_pos 64
  | append_singleton l b ih =>
    rw [List.length_append, List.length_singleton] at hl
    obtain ⟨hfirst, hsound, -⟩ := htrail.of_snoc
    have hlt := ih hfirst (by omega)
    obtain ⟨counted, hrounds, hbytes⟩ := countRounds_of_trail hlen hfirst ⟨0, 0, 0⟩
      (by dsimp only; omega) (by dsimp only; omega)
    obtain ⟨r, hr⟩ := h l.length hl _ hrounds
    rw [countRound_of_sound hlen hsound] at hr
    obtain ⟨blocks, -, hr⟩ := Checked.bind_eq_ok.mp hr
    obtain ⟨bytes, hadd, -⟩ := Checked.bind_eq_ok.mp hr
    rw [hbytes, Nat.zero_add] at hadd
    rw [payloadBytes_snoc]
    exact (addWord_eq_ok_iff.mp hadd).1

/-- `recompute` returns if and only if the list can be counted. -/
lemma recompute_returns_iff (hlen : list.arenaLen < 2 ^ 63) :
    (∃ r, list.recompute arena = .ok r) ↔ Countable (list, arena) := by
  rw [FreeList.recompute, Checked.bind_returns_iff (by exact fun _ => ⟨_, rfl⟩),
    FreeList.countFree_eq_loop, loopAtMost_returns_iff]
  constructor
  · intro h
    have hbytes : ∀ l current, list.Trail arena list.head l current →
        l.length ≤ list.maxBlocks → payloadBytes l < 2 ^ 64 := fun l current htrail hl =>
      payloadBytes_lt hlen h htrail hl
    refine ⟨fun l current htrail hl hwraps => ?_, hbytes⟩
    -- `recompute` walks along the trail and stops at its end
    have hmax := maxBlocks_lt hlen
    have hlt := hbytes l current htrail hl.le
    obtain ⟨counted, hrounds, -⟩ := countRounds_of_trail hlen htrail ⟨0, 0, 0⟩
      (by dsimp only at hl ⊢; omega) (by dsimp only; omega)
    obtain ⟨r, hr⟩ := h _ hl _ hrounds
    rw [countRound_of_wraps hwraps] at hr
    cases hr
  · exact fun h k hk s hrounds => h.countRound_returns hlen hk hrounds

end Counting

/-! ## Allocation -/

/-- `alloc` is about to write: behind the blocks `l`, which it has passed, it has picked a block of
`n` bytes for the request. -/
structure FreeList.Picks (list : FreeList) (arena : Slice UInt8) (size align : ℕ)
    (l : List HeapBlock) (n : ℕ) (p : Placement) : Prop where
  trail : list.Trail arena list.head l p.current
  length_lt : l.length < list.maxBlocks
  sound : list.Sound arena p.current n p.next
  cuts : Cuts arena (lastFree l) p.current n p.next p
  passed : ∀ b ∈ l, ∀ previous, ∃ s,
    list.searchRound arena size align (previous, b.start) = .ok (.next s)
  picked : list.searchRound arena size align (lastFree l, p.current) = .ok (.done (.ok p))

namespace FreeList.Picks

variable {list : FreeList} {arena : Slice UInt8} {l : List HeapBlock} {size align n : ℕ}
  {p : Placement}

lemma placeable (h : list.Picks arena size align l n p) (hle : list.arenaLen ≤ arena.length) :
    Placeable arena p :=
  h.cuts.placeable (h.sound.2.2.trans hle)

/-- A block that has been passed is not picked. -/
lemma fresh (h : list.Picks arena size align l n p) : p.current ∉ l.map Block.start := by
  rw [List.mem_map]
  rintro ⟨b, hb, hstart⟩
  obtain ⟨s, hs⟩ := h.passed b hb (lastFree l)
  rw [hstart, h.picked] at hs
  cases hs

end FreeList.Picks

namespace FreeList

variable (self : FreeList) (arena : Slice UInt8)

/-- The arena with the headers of an allocation and of the rest behind it, and where the list goes
on. -/
def tailWritten (p : Placement) : Slice UInt8 × ℕ :=
  let written := setHeader arena p.headerOffset magicAlloc p.allocSize noneOffset
  match p.tailBlock with
  | some tailSize => (setHeader written p.tailStart magicFree tailSize p.next, p.tailStart)
  | none => (written, p.next)

/-- The arena with the header of the gap in front of an allocation. -/
def frontWritten (p : Placement) (newNext : ℕ) : Slice UInt8 × ℕ :=
  if 0 < p.frontGap then (setHeader arena p.current magicFree p.frontGap newNext, p.current)
  else (arena, newNext)

/-- The list and the arena with the headers that `alloc` writes for a placement, before the list is
counted anew. -/
def committed (p : Placement) : FreeList × Slice UInt8 :=
  let (written, newNext) := frontWritten (tailWritten arena p).1 p (tailWritten arena p).2
  if p.previous = noneOffset then ({ self with head := newNext }, written)
  else (self, setHeader written p.previous magicFree p.previousSize newNext)

/-- The list and the arena with the headers that `dealloc` writes. -/
def joined (start size previous next : ℕ) : FreeList × Slice UInt8 :=
  let written := setHeader arena start magicFree size next
  if previous = noneOffset then ({ self with head := start }, written)
  else
    let previousSize := ((readHeader written previous).map fun fields => fields.2.1).getD 0
    (self, setHeader written previous magicFree previousSize start)

@[simp] lemma arenaLen_committed (p : Placement) :
    (self.committed arena p).1.arenaLen = self.arenaLen := by
  rw [committed]
  split_ifs <;> rfl

@[simp] lemma arenaLen_joined (start size previous next : ℕ) :
    (self.joined arena start size previous next).1.arenaLen = self.arenaLen := by
  rw [joined]
  split_ifs <;> rfl

end FreeList

section Alloc

variable {list : FreeList} {arena : Slice UInt8} {p : Placement} {size align : ℕ}

@[simp] lemma length_tailWritten : (FreeList.tailWritten arena p).1.length = arena.length := by
  rw [FreeList.tailWritten]
  cases p.tailBlock <;> simp

@[simp] lemma length_frontWritten (newNext : ℕ) :
    (FreeList.frontWritten arena p newNext).1.length = arena.length := by
  rw [FreeList.frontWritten]
  split_ifs <;> simp

lemma writeTail_of_placeable (hp : Placeable arena p) :
    FreeList.writeTail arena p = .ok (FreeList.tailWritten arena p) := by
  rw [FreeList.writeTail, FreeList.tailWritten, writeHeader_of_le hp.header_le, Checked.ok_bind]
  cases hblock : p.tailBlock with
  | none => rfl
  | some tailSize =>
    have hle := hp.tail_le tailSize hblock
    dsimp only
    rw [writeHeader_of_le (by rwa [length_setHeader])]
    rfl

lemma writeFront_of_le (h : p.current + 24 ≤ arena.length) (newNext : ℕ) :
    FreeList.writeFront arena p newNext = .ok (FreeList.frontWritten arena p newNext) := by
  rw [FreeList.writeFront, FreeList.frontWritten]
  split_ifs
  · rw [writeHeader_of_le h]
    rfl
  · rfl

/-- The writes of `alloc` stay in the arena, and the count follows them. -/
lemma commit_eq_recompute (hp : Placeable arena p) :
    list.commit arena p = (list.committed arena p).1.recompute (list.committed arena p).2 >>=
      fun list' => .ok (list', (list.committed arena p).2) := by
  have hfront : p.current + 24 ≤ (FreeList.tailWritten arena p).1.length := by
    rw [length_tailWritten]
    exact hp.current_le
  rw [FreeList.commit, writeTail_of_placeable hp, Checked.ok_bind]
  dsimp only
  rw [writeFront_of_le hfront, Checked.ok_bind, FreeList.committed]
  dsimp only
  by_cases hnone : p.previous = noneOffset
  · rw [if_pos hnone, if_pos hnone]
    rfl
  · have hle : p.previous + 24 ≤ (FreeList.frontWritten (FreeList.tailWritten arena p).1 p
        (FreeList.tailWritten arena p).2).1.length := by
      rw [length_frontWritten, length_tailWritten]
      exact hp.previous_le.resolve_left hnone
    rw [if_neg hnone, if_neg hnone, writeHeader_of_le hle]
    rfl

/-- The search of `alloc` is along a trail of blocks that it passes. -/
lemma trail_of_searchRounds (halign : isPowerOfTwo align = true) {k : ℕ} {s : ℕ × ℕ}
    (h : Rounds (list.searchRound arena size align) k (noneOffset, list.head) s) :
    ∃ l, l.length = k ∧ list.Trail arena list.head l s.2 ∧ s.1 = lastFree l ∧
      ∀ b ∈ l, ∀ previous, ∃ s', list.searchRound arena size align (previous, b.start) =
        .ok (.next s') := by
  refine trail_of_rounds Prod.snd (fun l s => s.1 = lastFree l ∧ ∀ b ∈ l, ∀ previous, ∃ s',
    list.searchRound arena size align (previous, b.start) = .ok (.next s')) h rfl
    ⟨rfl, fun b hb => absurd hb List.not_mem_nil⟩ ?_
  intro l s s' ⟨_, hpassed⟩ hs
  obtain ⟨hfst, ⟨n, hsound⟩, hnext⟩ := of_searchRound_next halign hs
  refine ⟨n, hsound, ?_, ?_⟩
  · rw [hfst, lastFree, lastFree?_append_of_free rfl]
    rfl
  · intro b hb
    rcases List.mem_append.mp hb with hb | hb
    · exact hpassed b hb
    · rw [List.mem_singleton.mp hb]
      exact fun previous => ⟨s', hnext previous⟩

/-- The search of `alloc` returns on any headers, and what it settles is a block with a sound header
on its way. -/
lemma plan_returns (list : FreeList) (arena : Slice UInt8) (size align : ℕ) :
    ∃ r, list.plan arena size align = .ok r ∧
      ∀ p, r = .ok p → ValidRequest size align ∧ list.arenaMatches arena = true ∧
        ∃ l n, list.Picks arena size align l n p := by
  rw [FreeList.plan]
  by_cases hrefused : size = 0 ∨ isPowerOfTwo align = false ∨ maxAlign < align ∨
      list.head = noneOffset ∨ list.arenaMatches arena = false
  · rw [if_pos hrefused]
    refine ⟨_, rfl, fun p hp => ?_⟩
    cases hp
  rw [if_neg hrefused]
  simp only [not_or, Bool.not_eq_false] at hrefused
  obtain ⟨hsize, halign, hmax, -, hmatches⟩ := hrefused
  have hreturns : ∃ r,
      list.search arena size align list.maxBlocks noneOffset list.head = .ok r := by
    rw [FreeList.search_eq_loop, loopAtMost_returns_iff]
    intro k _ s _
    rcases searchRound_cases halign size s with ⟨e, he⟩ | ⟨_, next, -, hnext⟩ | ⟨_, _, p, -, -, hp⟩
    · exact ⟨_, he⟩
    · exact ⟨_, hnext s.1⟩
    · exact ⟨_, hp⟩
  obtain ⟨r, hr⟩ := hreturns
  refine ⟨r, hr, ?_⟩
  rintro p rfl
  rw [FreeList.search_eq_loop] at hr
  rcases rounds_of_loopAtMost hr with ⟨s, -, hlate⟩ | ⟨k, hk, s, hrounds, hdone⟩
  · cases hlate
  · obtain ⟨l, hl, htrail, hlast, hpassed⟩ := trail_of_searchRounds halign hrounds
    rcases searchRound_cases halign size s with
      ⟨e, he⟩ | ⟨_, next, -, hnext⟩ | ⟨n, next, p', hsound, hcuts, hp⟩
    · rw [he] at hdone
      cases hdone
    · rw [hnext s.1] at hdone
      cases hdone
    · rw [hp] at hdone
      cases hdone
      obtain ⟨previous, current⟩ := s
      obtain rfl : previous = lastFree l := hlast
      obtain rfl : p.current = current := hcuts.current_eq
      obtain rfl : p.next = next := hcuts.next_eq
      exact ⟨⟨Nat.pos_of_ne_zero hsize, halign, not_lt.mp hmax⟩, hmatches, l, n,
        ⟨htrail, hl.trans_lt hk, hsound, hcuts, hpassed, hp⟩⟩

/-- A call of `alloc` returns if and only if the list can be counted after its writes. -/
lemma alloc_returns_iff (list : FreeList) (arena : Slice UInt8) (size align : ℕ) :
    (∃ r, list.alloc arena size align = .ok r) ↔
      ∀ p, list.plan arena size align = .ok (.ok p) → Countable (list.committed arena p) := by
  obtain ⟨r, hr, hplaceable⟩ := plan_returns list arena size align
  rw [FreeList.alloc, hr, Checked.ok_bind]
  cases r with
  | error e =>
    refine ⟨fun _ p hp => ?_, fun _ => ⟨_, rfl⟩⟩
    cases hp
  | ok p =>
    obtain ⟨-, hmatches, l, n, hpicks⟩ := hplaceable p rfl
    have hp := hpicks.placeable (arenaLen_le_of_arenaMatches hmatches)
    have hlen : (list.committed arena p).1.arenaLen < 2 ^ 63 := by
      rw [FreeList.arenaLen_committed]
      exact arenaLen_lt_of_arenaMatches hmatches
    dsimp only
    rw [Checked.bind_returns_iff (by exact fun _ => ⟨_, rfl⟩), commit_eq_recompute hp,
      Checked.bind_returns_iff fun _ => ⟨_, rfl⟩, recompute_returns_iff hlen]
    constructor
    · intro h p' hp'
      cases hp'
      exact h
    · exact fun h => h p rfl

end Alloc

/-! ## Release -/

namespace FreeList

/-- The walk of `dealloc` for the block at `header` does not come to a header that wraps. -/
def Passable (self : FreeList) (arena : Slice UInt8) (header : ℕ) : Prop :=
  ∀ l current, self.Trail arena self.head l current → (∀ b ∈ l, b.stop ≤ header) →
    l.length < self.maxBlocks → ¬ Wraps arena current

end FreeList

section Dealloc

variable {list : FreeList} {arena : Slice UInt8}
  {header blockSize blockEnd offset start size previous current next : ℕ}

/-- The walk of `dealloc` returns if and only if it does not come to a header that wraps. -/
lemma insertPoint_returns_iff (hlen : list.arenaLen < 2 ^ 63) (header blockEnd offset : ℕ) :
    (∃ r, list.insertPoint arena header blockEnd offset list.maxBlocks noneOffset list.head =
      .ok r) ↔ list.Passable arena header := by
  rw [FreeList.insertPoint_eq_loop, loopAtMost_returns_iff]
  constructor
  · intro h l current htrail hstop hl hwraps
    obtain ⟨previous, hrounds⟩ := insertRounds_of_trail hlen htrail hstop noneOffset
    obtain ⟨r, hr⟩ := h _ hl _ hrounds
    rw [insertRound_of_wraps hwraps] at hr
    cases hr
  · intro h k hk s hrounds
    obtain ⟨l, rfl, htrail, -, hstop⟩ := trail_of_insertRounds hlen hrounds
    rcases header_cases list arena s.2 with ⟨size, next, hsound⟩ | hwraps | hunusable
    · exact ⟨_, insertRound_of_sound hlen hsound header blockEnd offset⟩
    · exact absurd hwraps (h l s.2 htrail hstop hk)
    · exact ⟨_, insertRound_of_unusable hunusable header blockEnd offset⟩

/-- The first merge returns.  The merged block stays inside of the arena, and the list goes on at
the current block or, if this has been merged, behind it. -/
lemma mergeNext_returns (hlen : list.arenaLen < 2 ^ 63)
    (hend : header + blockSize ≤ list.arenaLen)
    (hcurrent : current = noneOffset ∨ ∃ size next, list.Sound arena current size next) :
    ∃ merged next, FreeList.mergeNext arena (header + blockSize) blockSize current =
      .ok (.ok (merged, next)) ∧ blockSize ≤ merged ∧ header + merged ≤ list.arenaLen ∧
      (next = current ∨ ∃ n, list.Sound arena current n next) := by
  rw [FreeList.mergeNext]
  split_ifs with hadjacent
  · obtain ⟨size, next, hsound⟩ := hcurrent.resolve_left hadjacent.1
    obtain ⟨hread, -, hstop⟩ := id hsound
    rw [← hadjacent.2] at hstop
    rw [hread]
    dsimp only
    rw [addWord_of_lt (by omega)]
    exact ⟨_, _, rfl, by omega, by omega, .inr ⟨size, hsound⟩⟩
  · exact ⟨_, _, rfl, le_rfl, hend, .inl rfl⟩

/-- The second merge returns. -/
lemma mergePrevious_returns (hlen : list.arenaLen < 2 ^ 63)
    (hend : header + size ≤ list.arenaLen)
    (hprevious : previous = noneOffset ∨ ∃ size next, list.Sound arena previous size next) :
    ∃ r, list.mergePrevious arena header size previous = .ok r := by
  rw [FreeList.mergePrevious]
  split_ifs with hsome
  · obtain ⟨stored, next, hread, -, hstop⟩ := hprevious.resolve_left hsome
    rw [hread]
    dsimp only
    rw [addWord_of_lt (by omega), Checked.ok_bind]
    split_ifs with hadjacent
    · rw [addWord_of_lt (by omega), Checked.ok_bind]
      cases list.previousFree arena previous with
      | none => exact ⟨_, rfl⟩
      | some before => exact ⟨_, rfl⟩
    · exact ⟨_, rfl⟩
  · exact ⟨_, rfl⟩

/-- The writes of `dealloc` stay in the arena, and the count follows them. -/
lemma link_eq_recompute (hstart : start + 24 ≤ arena.length)
    (hprevious : previous = noneOffset ∨ previous + 24 ≤ arena.length) :
    list.link arena start size previous next =
      (list.joined arena start size previous next).1.recompute
          (list.joined arena start size previous next).2 >>=
        fun list' => .ok (.ok (), list', (list.joined arena start size previous next).2) := by
  rw [FreeList.link, writeHeader_of_le hstart, Checked.ok_bind, FreeList.joined]
  dsimp only
  by_cases hnone : previous = noneOffset
  · rw [if_pos hnone, if_pos hnone]
    rfl
  · have hle : previous + 24 ≤ (setHeader arena start magicFree size next).length := by
      rw [length_setHeader]
      exact hprevious.resolve_left hnone
    obtain ⟨magic, previousSize, after, hread⟩ := readHeader_isSome hle
    rw [if_neg hnone, if_neg hnone, hread]
    dsimp only
    rw [writeHeader_of_le hle]
    rfl

/-- The header of a block has one size. -/
lemma HeaderTests.blockSize_unique {blockSize' : ℕ} (h : HeaderTests list arena offset blockSize)
    (h' : HeaderTests list arena offset blockSize') : blockSize = blockSize' := by
  obtain ⟨next, hread⟩ := h.header
  obtain ⟨next', hread'⟩ := h'.header
  rw [hread] at hread'
  exact (Prod.mk.inj (Prod.mk.inj (Option.some.inj hread')).2).1

/-- The second half of `dealloc` returns if and only if its walk does and the list can be counted
after the writes. -/
lemma release_returns_iff (hlen : list.arenaLen < 2 ^ 63) (hle : list.arenaLen ≤ arena.length)
    (hsize : 24 ≤ blockSize) (hend : header + blockSize ≤ list.arenaLen) (offset : ℕ) :
    (∃ r, list.release arena header blockSize (header + blockSize) offset = .ok r) ↔
      list.Passable arena header ∧ ∀ start size previous next,
        list.Joins arena header blockSize (header + blockSize) offset start size previous next →
        Countable (list.joined arena start size previous next) := by
  have hlink : ∀ start size previous next,
      list.Joins arena header blockSize (header + blockSize) offset start size previous next →
      ((∃ r, list.link arena start size previous next = .ok r) ↔
        Countable (list.joined arena start size previous next)) := by
    intro start size previous next hjoins
    obtain ⟨hstart, hprevious⟩ := hjoins.le_length hlen
    have hin : start + 24 ≤ arena.length := by
      rcases hstart with rfl | hstart
      · omega
      · exact hstart
    rw [link_eq_recompute hin hprevious, Checked.bind_returns_iff fun _ => ⟨_, rfl⟩,
      recompute_returns_iff (by rwa [FreeList.arenaLen_joined])]
  rw [← insertPoint_returns_iff hlen header (header + blockSize) offset]
  constructor
  · rintro ⟨r, hr⟩
    refine ⟨?_, fun start size previous next hjoins => ?_⟩
    · obtain ⟨point, hpoint, -⟩ := Checked.bind_eq_ok.mp hr
      exact ⟨point, hpoint⟩
    · rw [hjoins.release_eq] at hr
      exact (hlink start size previous next hjoins).mp ⟨r, hr⟩
  · rintro ⟨⟨point, hpoint⟩, hcount⟩
    cases point with
    | error e =>
      rw [FreeList.release, hpoint]
      exact ⟨_, rfl⟩
    | ok point =>
      obtain ⟨before, current⟩ := point
      obtain ⟨l, hslot, rfl⟩ := slot_of_insertPoint hlen hpoint
      have hbefore : lastFree l = noneOffset ∨
          ∃ size next, list.Sound arena (lastFree l) size next := by
        rcases hslot.trail.lastFree_cases with hnone | ⟨size, hsound⟩
        · exact .inl hnone
        · exact .inr ⟨size, current, hsound⟩
      -- the blocks that are merged lie side by side in the arena, so the sizes add up to a word
      obtain ⟨merged, next, hfirst, -, hmerged, -⟩ :=
        mergeNext_returns hlen hend hslot.sound_or_none
      obtain ⟨second, hsecond⟩ := mergePrevious_returns hlen hmerged hbefore
      cases second with
      | error e =>
        rw [FreeList.release, hpoint, Checked.ok_bind]
        dsimp only
        rw [hfirst, Checked.ok_bind]
        dsimp only
        rw [hsecond]
        exact ⟨_, rfl⟩
      | ok second =>
        obtain ⟨start, size, previous⟩ := second
        have hjoins : list.Joins arena header blockSize (header + blockSize) offset start size
            previous next := ⟨_, current, merged, hpoint, hfirst, hsecond⟩
        rw [hjoins.release_eq]
        exact (hlink start size previous next hjoins).mpr (hcount start size previous next hjoins)

/-- A call of `dealloc` returns if and only if its walk does not come to a header that wraps and the
list can be counted after the writes. -/
lemma dealloc_returns_iff (list : FreeList) (arena : Slice UInt8) (offset : ℕ) :
    (∃ r, list.dealloc arena offset = .ok r) ↔
      ∀ blockSize, HeaderTests list arena offset blockSize →
        list.Passable arena (offset - headerSize) ∧ ∀ start size previous next,
          list.Joins arena (offset - headerSize) blockSize (offset - headerSize + blockSize) offset
            start size previous next →
          Countable (list.joined arena start size previous next) := by
  by_cases htests : ∃ blockSize, HeaderTests list arena offset blockSize
  · obtain ⟨blockSize, htests⟩ := htests
    have hlen := arenaLen_lt_of_arenaMatches htests.arenaMatches
    have hle := arenaLen_le_of_arenaMatches htests.arenaMatches
    rw [dealloc_eq_release htests hlen, release_returns_iff hlen hle htests.size_le htests.end_le]
    constructor
    · intro h blockSize' htests'
      obtain rfl := htests.blockSize_unique htests'
      exact h
    · exact fun h => h blockSize htests
  · obtain ⟨e, he⟩ := dealloc_of_not_tests (not_exists.mp htests)
    exact ⟨fun _ blockSize ht => absurd ⟨blockSize, ht⟩ htests, fun _ => ⟨_, he⟩⟩

end Dealloc

/-! ## The rounds of the loops -/

/-- A loop along the free list: it takes at most `max_blocks` rounds, and every round that goes on
follows a sound header.  `current` is the block at which a state of the loop is. -/
structure BoundedWalk (list : FreeList) (arena : Slice UInt8) {σ β : Type} (result : Checked β)
    (body : σ → Checked (Round σ β)) (s : σ) (current : σ → ℕ) : Prop where
  loop_eq : ∃ late, result = loopAtMost body late list.maxBlocks s
  trail : ∀ k s', Rounds body k s s' →
    ∃ l, l.length = k ∧ list.Trail arena list.head l (current s')

/-- The loops of `alloc`, `dealloc`, `previous_free` (for the block that `dealloc` asks for) and
`recompute`. -/
structure BoundedWalks (list : FreeList) (arena : Slice UInt8) : Prop where
  search : ∀ size align, isPowerOfTwo align = true →
    BoundedWalk list arena (list.search arena size align list.maxBlocks noneOffset list.head)
      (list.searchRound arena size align) (noneOffset, list.head) Prod.snd
  insert : ∀ header blockEnd offset,
    BoundedWalk list arena
      (list.insertPoint arena header blockEnd offset list.maxBlocks noneOffset list.head)
      (list.insertRound arena header blockEnd offset) (noneOffset, list.head) Prod.snd
  previous : ∀ header blockEnd offset previous current,
    list.insertPoint arena header blockEnd offset list.maxBlocks noneOffset list.head =
      .ok (.ok (previous, current)) → previous ≠ noneOffset →
    BoundedWalk list arena (.ok (list.previousFree arena previous))
      (FreeList.previousRound arena previous) (noneOffset, list.head) Prod.snd
  count : BoundedWalk list arena (list.countFree arena list.maxBlocks list.head ⟨0, 0, 0⟩)
    (list.countRound arena) (list.head, ⟨0, 0, 0⟩) Prod.fst

section Walks

variable {list : FreeList} {arena : Slice UInt8} {start current : ℕ} {l : List HeapBlock}

/-- A round of `previous_free` on a trail that comes to its target follows the trail. -/
lemma previousRound_on_trail {target : ℕ} {s s' : ℕ × ℕ}
    (h : FreeList.previousRound arena target s = .ok (.next s'))
    (htrail : list.Trail arena s.2 l current) (htarget : target ∈ l.map Block.start) :
    ∃ size l', list.Sound arena s.2 size s'.2 ∧ list.Trail arena s'.2 l' current ∧
      target ∈ l'.map Block.start := by
  obtain ⟨-, hne, magic, size, hread⟩ := of_previousRound_next h
  cases htrail with
  | nil => cases htarget
  | @cons _ size' next _ l hsound hrest =>
    -- both walks read the same header
    have hfields := hsound.1.symm.trans hread
    simp only [Option.some.injEq, Prod.mk.injEq] at hfields
    obtain ⟨-, -, rfl⟩ := hfields
    rw [List.map_cons, List.mem_cons] at htarget
    exact ⟨size', l, hsound, hrest, htarget.resolve_left (Ne.symm hne)⟩

/-- The walk of `previous_free` to a block of a trail is along the trail. -/
lemma trail_of_previousRounds {target k : ℕ} {s : ℕ × ℕ}
    (h : Rounds (FreeList.previousRound arena target) k (noneOffset, list.head) s)
    (htrail : list.Trail arena list.head l current) (htarget : target ∈ l.map Block.start) :
    ∃ l', l'.length = k ∧ list.Trail arena list.head l' s.2 := by
  have hwalk : ∃ l', l'.length = k ∧ list.Trail arena list.head l' s.2 ∧
      ∃ rest, list.Trail arena s.2 rest current ∧ target ∈ rest.map Block.start := by
    refine trail_of_rounds Prod.snd (fun _ s => ∃ rest, list.Trail arena s.2 rest current ∧
      target ∈ rest.map Block.start) h rfl ⟨l, htrail, htarget⟩ ?_
    intro _ s s' ⟨rest, hrest, hmem⟩ hs
    obtain ⟨size, rest', hsound, hrest', hmem'⟩ := previousRound_on_trail hs hrest hmem
    exact ⟨size, hsound, rest', hrest', hmem'⟩
  obtain ⟨l', hl', hdone, -⟩ := hwalk
  exact ⟨l', hl', hdone⟩

/-- The last block of a trail is one of its blocks. -/
lemma lastFree_mem_starts (h : lastFree l ≠ noneOffset) : lastFree l ∈ l.map Block.start := by
  cases hlast : lastFree? l with
  | none => exact absurd (by rw [lastFree, hlast]; rfl) h
  | some b =>
    obtain ⟨l₁, l₂, rfl, -, -⟩ := exists_split_of_lastFree? hlast
    simp [lastFree, hlast]

/-- The four loops keep to their bound and follow sound headers only. -/
lemma boundedWalks (hmatches : list.arenaMatches arena = true) : BoundedWalks list arena where
  search := by
    intro size align halign
    refine ⟨⟨_, FreeList.search_eq_loop _ _ _ _ _ _ _⟩, fun k s' hrounds => ?_⟩
    obtain ⟨l, hl, htrail, -⟩ := trail_of_searchRounds halign hrounds
    exact ⟨l, hl, htrail⟩
  insert := by
    intro header blockEnd offset
    refine ⟨⟨_, FreeList.insertPoint_eq_loop _ _ _ _ _ _ _ _⟩, fun k s' hrounds => ?_⟩
    obtain ⟨l, hl, htrail, -⟩ :=
      trail_of_insertRounds (arenaLen_lt_of_arenaMatches hmatches) hrounds
    exact ⟨l, hl, htrail⟩
  previous := by
    intro header blockEnd offset previous current hpoint hne
    obtain ⟨l, ⟨htrail, -, -⟩, rfl⟩ :=
      slot_of_insertPoint (arenaLen_lt_of_arenaMatches hmatches) hpoint
    refine ⟨⟨_, (FreeList.previousFreeFrom_eq_loop _ _ _ _ _).symm⟩, fun k s' hrounds => ?_⟩
    exact trail_of_previousRounds hrounds htrail (lastFree_mem_starts hne)
  count := by
    refine ⟨⟨_, FreeList.countFree_eq_loop _ _ _ _ _⟩, fun k s' hrounds => ?_⟩
    obtain ⟨l, hl, htrail, -⟩ :=
      trail_of_countRounds (arenaLen_lt_of_arenaMatches hmatches) hrounds
    exact ⟨l, hl, htrail⟩

end Walks

end Heap

end ParanukOS
