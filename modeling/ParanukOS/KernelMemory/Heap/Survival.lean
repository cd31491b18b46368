import ParanukOS.KernelMemory.Heap.Settled

/-!
# Which overwritten headers the heap survives

A client that writes beyond its payload may leave any bytes in the arena.  If the list is untangled,
that is, no header that it leads to lies in another block of it, then it can be said of the headers
before a call whether the call returns: `alloc` returns if the list offers no block for the request
or leads to no header that wraps, and `dealloc` returns if its walk does not come to such a header
and, in case that the block has a slot, the list leads to none at all.  A list in a circle is no
problem.

## Outline

* `Picks.spliced`, `alloc_returns_iff_intact`: the calls of `alloc`.
* `Inserts.spliced`, `dealloc_returns_iff_intact`: the calls of `dealloc`.
* `call_returns_iff`: the main result.
* `wrapping_header_stops_calls`: a call that does not return.
-/

namespace ParanukOS

open Foundation

namespace Heap

/-- The next pointer of a header is a word. -/
lemma next_lt_of_readHeader {arena : Slice UInt8} {x magic size next : ℕ}
    (h : readHeader arena x = some (magic, size, next)) : next < 2 ^ 64 :=
  Slice.leWord?_lt (readHeader_eq_some_iff.mp h).2.2.2

/-! ## Allocation -/

section Alloc

variable {list : FreeList} {arena : Slice UInt8} {l : List HeapBlock} {n size align : ℕ}
  {p : Placement}

/-- The blocks that an allocation leaves of the block that it cuts up. -/
def leftover (p : Placement) : List HeapBlock :=
  (if 0 < p.frontGap then [⟨p.current, p.frontGap, none⟩] else []) ++
    (p.tailBlock.map fun n => ⟨p.tailStart, n, none⟩).toList

/-- The headers that `alloc` writes into the block of `n` bytes that it cuts up. -/
structure CutUp (list : FreeList) (arena written : Slice UInt8) (p : Placement) (n first : ℕ) :
    Prop where
  length_eq : written.length = arena.length
  first_lt : first < 2 ^ 64
  parts_trail : list.Trail written first (leftover p) p.next
  same : ∀ x, x + 24 ≤ p.current ∨ p.current + n ≤ x → readHeader written x = readHeader arena x
  current_cases : p.current ∈ (leftover p).map Block.start ∨
    ∀ size next, readHeader written p.current ≠ some (magicFree, size, next)

/-- The header of the allocation and the rest behind it. -/
lemma tailWritten_spec (h : list.Picks arena size align l n p)
    (hlen : list.arenaLen ≤ arena.length) :
    (FreeList.tailWritten arena p).2 < 2 ^ 64 ∧
    list.Trail (FreeList.tailWritten arena p).1 (FreeList.tailWritten arena p).2
      (p.tailBlock.map fun n => ⟨p.tailStart, n, none⟩).toList p.next ∧
    (∀ x, x + 24 ≤ p.headerOffset ∨ p.current + n ≤ x →
      readHeader (FreeList.tailWritten arena p).1 x = readHeader arena x) ∧
    readHeader (FreeList.tailWritten arena p).1 p.headerOffset =
      some (magicAlloc, p.allocSize, noneOffset) := by
  obtain ⟨hread, -, hend⟩ := h.sound
  have hlength := arena.length_lt'
  have hheader := h.cuts.header_le
  have hsize := h.cuts.allocSize_le
  have hnext := next_lt_of_readHeader hread
  have hself : readHeader (setHeader arena p.headerOffset magicAlloc p.allocSize noneOffset)
      p.headerOffset = some (magicAlloc, p.allocSize, noneOffset) :=
    readHeader_setHeader_self (by omega) (by decide) (by omega) noneOffset_lt
  rw [FreeList.tailWritten]
  cases htail : p.tailBlock with
  | none =>
    refine ⟨hnext, .nil _, fun x hx => ?_, hself⟩
    exact readHeader_setHeader_of_disjoint _ _ _ _ (by omega)
  | some t =>
    obtain ⟨hstart, hroom, hstop⟩ := h.cuts.tail t htail
    have hin : p.tailStart + t ≤ list.arenaLen := by omega
    refine ⟨show p.tailStart < 2 ^ 64 by omega, .cons ⟨?_, hroom, hin⟩ (.nil _), fun x hx => ?_, ?_⟩
    · exact readHeader_setHeader_self (by rw [length_setHeader]; omega) (by decide) (by omega) hnext
    · dsimp only
      rw [readHeader_setHeader_of_disjoint _ _ _ _ (by omega),
        readHeader_setHeader_of_disjoint _ _ _ _ (by omega)]
    · dsimp only
      rw [readHeader_setHeader_of_disjoint _ _ _ _ (by omega), hself]

/-- All headers in the block. -/
lemma cutUp_of_picks (h : list.Picks arena size align l n p) (hlen : list.arenaLen ≤ arena.length) :
    CutUp list arena
      (FreeList.frontWritten (FreeList.tailWritten arena p).1 p (FreeList.tailWritten arena p).2).1
      p n
      (FreeList.frontWritten (FreeList.tailWritten arena p).1 p
        (FreeList.tailWritten arena p).2).2 := by
  obtain ⟨hlt, htrail, hsame, hself⟩ := tailWritten_spec h hlen
  obtain ⟨-, -, hend⟩ := h.sound
  have hlength := arena.length_lt'
  have heq := h.cuts.header_eq
  have hheader := h.cuts.header_le
  have hgap := h.cuts.gap_cases
  have hlength' : (FreeList.tailWritten arena p).1.length = arena.length := length_tailWritten
  generalize FreeList.tailWritten arena p = written at *
  obtain ⟨written, tailNext⟩ := written
  dsimp only at *
  rw [FreeList.frontWritten]
  by_cases hfront : 0 < p.frontGap
  · rw [if_pos hfront]
    have hgap' : 24 ≤ p.frontGap := hgap.resolve_left hfront.ne'
    have hlead : leftover p = ⟨p.current, p.frontGap, none⟩ ::
        (p.tailBlock.map fun n => ⟨p.tailStart, n, none⟩).toList := by
      rw [leftover, if_pos hfront]
      rfl
    refine ⟨by simp [hlength'], show p.current < 2 ^ 64 by omega, ?_, fun x hx => ?_, .inl ?_⟩
    · rw [hlead]
      refine .cons ⟨?_, hgap', by omega⟩ (htrail.congr rfl fun b hb => ?_)
      · exact readHeader_setHeader_self (by omega) (by decide) (by omega) hlt
      · -- the rest is behind the allocation
        simp only [Option.mem_toList, Option.map_eq_some_iff] at hb
        obtain ⟨t, ht, rfl⟩ := hb
        obtain ⟨hstart, -⟩ := h.cuts.tail t ht
        exact readHeader_setHeader_of_disjoint _ _ _ _ (by dsimp only; omega)
    · dsimp only
      rw [readHeader_setHeader_of_disjoint _ _ _ _ (by omega), hsame x (by omega)]
    · rw [hlead]
      simp
  · rw [if_neg hfront]
    obtain hzero : p.frontGap = 0 := by omega
    have hlead : leftover p = (p.tailBlock.map fun n => ⟨p.tailStart, n, none⟩).toList := by
      rw [leftover, if_neg hfront]
      rfl
    rw [hzero, Nat.add_zero] at heq
    refine ⟨hlength', hlt, hlead ▸ htrail, fun x hx => hsame x (by omega), .inr ?_⟩
    intro size next hcon
    rw [← heq, hself] at hcon
    exact absurd (Prod.mk.inj (Option.some.inj hcon)).1 (by decide)

/-- The new blocks lie in the block that is cut up. -/
lemma bounds_of_mem_leftover (h : list.Picks arena size align l n p) {b : HeapBlock}
    (hb : b ∈ leftover p) :
    p.current ≤ b.start ∧ b.start + 24 ≤ p.current + n := by
  have heq := h.cuts.header_eq
  have hheader := h.cuts.header_le
  rw [leftover, List.mem_append, Option.mem_toList, Option.map_eq_some_iff] at hb
  rcases hb with hb | ⟨t, ht, rfl⟩
  · split_ifs at hb
    · rw [List.mem_singleton.mp hb]
      dsimp only
      omega
    · cases hb
  · obtain ⟨hstart, hroom, hstop⟩ := h.cuts.tail t ht
    dsimp only
    omega

/-- `alloc` replaces the block that it cuts up by what it leaves of it. -/
lemma FreeList.Picks.spliced (h : list.Picks arena size align l n p)
    (hlen : list.arenaLen ≤ arena.length) (huntangled : list.Untangled arena) : ∃ first,
    Spliced list arena (list.committed arena p).1 (list.committed arena p).2 l (leftover p) first
      p.next (· = p.current) := by
  have hcutUp := cutUp_of_picks h hlen
  have hreaches : list.Reaches arena p.current := ⟨l, h.trail⟩
  have hapart : ∀ x, list.Reaches arena x → x ≠ p.current →
      x + 24 ≤ p.current ∨ p.current + n ≤ x := huntangled _ _ _ hreaches h.sound
  have hsize := h.sound.2.1
  simp only [headerSize] at hsize
  rw [FreeList.committed]
  generalize FreeList.frontWritten (FreeList.tailWritten arena p).1 p
    (FreeList.tailWritten arena p).2 = w at hcutUp
  obtain ⟨written, first⟩ := w
  dsimp only at hcutUp ⊢
  refine ⟨first, .of_written hlen huntangled h.trail (hreaches.of_sound h.sound) hcutUp.length_eq
    hcutUp.first_lt hcutUp.parts_trail (fun x hx hne => hcutUp.same x (hapart x hx hne))
    (fun x hx => hx ▸ hcutUp.current_cases) (fun b hb x hx => ?_) ?_⟩
  · -- the blocks before are outside of the block that is cut up
    have hb' := hapart b.start (h.trail.of_mem hb).1 fun hcon =>
      h.fresh (hcon ▸ List.mem_map_of_mem hb)
    rcases hx with rfl | hx
    · omega
    · obtain ⟨c, hc, rfl⟩ := List.mem_map.mp hx
      have hbounds := bounds_of_mem_leftover h hc
      omega
  · rcases List.eq_nil_or_concat l with rfl | ⟨k, b, rfl⟩
    · rw [if_pos (show p.previous = noneOffset from h.cuts.previous_eq)]
      exact .inl ⟨rfl, rfl, rfl⟩
    · rw [List.concat_eq_append] at h ⊢
      obtain ⟨-, hsound, htag⟩ := h.trail.of_snoc
      have hprevious : p.previous = b.start := h.cuts.previous_eq.trans (lastFree_snoc htag)
      have hnone := ne_noneOffset_of_readHeader hsound.1
      have hstored : p.previousSize = b.size := by
        obtain ⟨magic, after, hread⟩ := h.cuts.previous_size.resolve_left
          (by rwa [lastFree_snoc htag])
        rw [lastFree_snoc htag, hsound.1] at hread
        exact (Prod.mk.inj (Prod.mk.inj (Option.some.inj hread)).2).1.symm
      rw [hprevious, hstored, if_neg hnone]
      exact .inr ⟨k, b, rfl, rfl, rfl⟩

/-- An untangled list can be counted after the writes of `alloc` if and only if it leads to no
header that wraps. -/
lemma FreeList.Picks.countable_iff (h : list.Picks arena size align l n p)
    (hmatches : list.arenaMatches arena = true) (hsmall : list.Small)
    (huntangled : list.Untangled arena) :
    Countable (list.committed arena p) ↔ list.Intact arena := by
  have hlen := arenaLen_lt_of_arenaMatches hmatches
  obtain ⟨first, hspliced⟩ := h.spliced (arenaLen_le_of_arenaMatches hmatches) huntangled
  refine hspliced.countable_iff hlen hsmall huntangled fun way x hway hwraps => ?_
  have hx : ∀ size next, ¬ list.Sound arena x size next := hwraps.not_sound hlen
  obtain ⟨rest, rfl, hrest⟩ := hway.exists_rest hx h.trail
  cases hrest with
  | nil => exact absurd h.sound (hx _ _)
  | @cons _ _ _ _ rest hsound hrest =>
    obtain ⟨rfl, rfl⟩ := h.sound.unique hsound
    have hnodup := hway.nodup hx
    refine ⟨[⟨p.current, n, none⟩], rest, by simp, ?_, hrest, fun b hb hcon => ?_, fun hcon => ?_⟩
    · rw [leftover]
      cases p.tailBlock <;> split_ifs <;> simp
    · rcases List.mem_append.mp hb with hb | hb
      · exact h.fresh (hcon ▸ List.mem_map_of_mem hb)
      · rw [List.map_append, List.nodup_append, List.map_cons, List.nodup_cons] at hnodup
        refine hnodup.2.1.1 (show p.current ∈ rest.map Block.start from ?_)
        rw [← hcon]
        exact List.mem_map_of_mem hb
    · exact hx _ _ (hcon ▸ h.sound)

/-- On an untangled list, a call of `alloc` returns if and only if the list offers no block or leads
to no header that wraps. -/
lemma alloc_returns_iff_intact (hsmall : list.Small) (huntangled : list.Untangled arena)
    (size align : ℕ) : (∃ r, list.alloc arena size align = .ok r) ↔
      (list.Offers arena size align → list.Intact arena) := by
  have hcount : ∀ p, list.plan arena size align = .ok (.ok p) →
      (Countable (list.committed arena p) ↔ list.Intact arena) := by
    intro p hp
    obtain ⟨r, hr, hpicks⟩ := plan_returns list arena size align
    obtain rfl := Except.ok.inj (hr.symm.trans hp)
    obtain ⟨-, hmatches, l, n, h⟩ := hpicks p rfl
    exact h.countable_iff hmatches hsmall huntangled
  rw [alloc_returns_iff, ← plan_finds_iff hsmall.arenaLen_lt]
  constructor
  · rintro h ⟨p, hp⟩
    exact (hcount p hp).mp (h p hp)
  · exact fun h p hp => (hcount p hp).mpr (h ⟨p, hp⟩)

end Alloc

/-! ## Release -/

section Release

variable {list : FreeList} {arena : Slice UInt8} {l passed : List HeapBlock}
  {header blockEnd start size current next x : ℕ}

/-- No header that the list leads to overlaps the one at `header`. -/
def FreeList.Spares (list : FreeList) (arena : Slice UInt8) (header : ℕ) : Prop :=
  ∀ x, list.Reaches arena x → x = header ∨ x + 24 ≤ header ∨ header + 24 ≤ x

namespace FreeList.Inserts

/-- No other header that the list leads to overlaps the one that is written. -/
lemma apart (h : list.Inserts arena header blockEnd start size next l passed current)
    (huntangled : list.Untangled arena) (hspares : list.Spares arena header)
    (hx : list.Reaches arena x) (hne : x ≠ start) : x + 24 ≤ start ∨ start + 24 ≤ x := by
  rcases h.start_cases with ⟨-, rfl⟩ | ⟨b, rfl, rfl, -⟩
  · exact (hspares x hx).resolve_left hne
  · obtain ⟨hk, hsound, -⟩ := h.slot.trail.of_snoc
    have hapart := huntangled _ _ _ ⟨l, hk⟩ hsound x hx hne
    have hsize := hsound.2.1
    simp only [headerSize] at hsize
    omega

/-- The blocks before the new one are others. -/
lemma start_notMem (h : list.Inserts arena header blockEnd start size next l passed current) :
    start ∉ l.map Block.start := by
  rcases h.start_cases with ⟨rfl, rfl⟩ | ⟨b, -, rfl, hfresh⟩
  · intro hmem
    obtain ⟨b, hb, rfl⟩ := List.mem_map.mp hmem
    have hstop := h.slot.before b hb
    obtain ⟨-, _, hsound, -⟩ := h.slot.trail.of_mem hb
    have hsize := hsound.2.1
    simp only [headerSize] at hsize
    rw [Block.stop] at hstop
    omega
  · exact hfresh

lemma trail_left (h : list.Inserts arena header blockEnd start size next l passed current) :
    ∃ stop, list.Trail arena list.head l stop := by
  rcases h.start_cases with ⟨rfl, -⟩ | ⟨b, rfl, -, -⟩
  · exact ⟨current, h.slot.trail⟩
  · exact ⟨_, h.slot.trail.of_snoc.1⟩

/-- `dealloc` puts the block in its place. -/
lemma spliced (h : list.Inserts arena header blockEnd start size next l passed current)
    (hlen : list.arenaLen ≤ arena.length) (huntangled : list.Untangled arena)
    (hspares : list.Spares arena header) :
    Spliced list arena (list.joined arena start size (lastFree l) next).1
      (list.joined arena start size (lastFree l) next).2 l [⟨start, size, none⟩] start next
      (· = start) := by
  have hlength := arena.length_lt'
  have hsize := h.size_le
  have hstop := h.stop_le
  have hreaches : list.Reaches arena current := ⟨passed, h.slot.trail⟩
  have hreaches_next : list.Reaches arena next := by
    rcases h.next_cases with rfl | ⟨n, hsound⟩
    · exact hreaches
    · exact hreaches.of_sound hsound
  have hnext : next < 2 ^ 64 := by
    rcases h.next_cases with rfl | ⟨n, hsound⟩
    · rcases h.slot.sound_or_none with rfl | ⟨n, after, hsound⟩
      · exact noneOffset_lt
      · have := le_of_readHeader hsound.1
        omega
    · exact next_lt_of_readHeader hsound.1
  have hself : readHeader (setHeader arena start magicFree size next) start =
      some (magicFree, size, next) :=
    readHeader_setHeader_self (by omega) (by decide) (by omega) hnext
  have hsame : ∀ x, list.Reaches arena x → x ≠ start →
      readHeader (setHeader arena start magicFree size next) x = readHeader arena x :=
    fun x hx hne => readHeader_setHeader_of_disjoint _ _ _ _ (h.apart huntangled hspares hx hne)
  obtain ⟨stop, htrail⟩ := h.trail_left
  have hfresh : ∀ b ∈ l, b.start ≠ start := fun b hb hcon =>
    h.start_notMem (hcon ▸ List.mem_map_of_mem hb)
  refine .of_written hlen huntangled htrail hreaches_next (length_setHeader ..) (by omega)
    (.cons ⟨hself, hsize, hstop⟩ (.nil _)) hsame (fun x hx => .inl (by simpa using hx))
    (fun b hb x hx => ?_) ?_
  · obtain rfl : x = start := by simpa using hx
    have hb' := h.apart huntangled hspares (htrail.of_mem hb).1 (hfresh b hb)
    omega
  · rw [FreeList.joined]
    rcases List.eq_nil_or_concat l with rfl | ⟨k, b, rfl⟩
    · exact .inl ⟨rfl, rfl, rfl⟩
    · rw [List.concat_eq_append] at *
      obtain ⟨hk, hsound, htag⟩ := htrail.of_snoc
      have hread := (hsame b.start ⟨k, hk⟩ (hfresh b (by simp))).trans hsound.1
      rw [lastFree_snoc htag, if_neg (ne_noneOffset_of_readHeader hsound.1), hread]
      exact .inr ⟨k, b, rfl, rfl, rfl⟩

/-- An untangled list can be counted after the writes of `dealloc` if and only if it leads to no
header that wraps. -/
lemma countable_iff (h : list.Inserts arena header blockEnd start size next l passed current)
    (hmatches : list.arenaMatches arena = true) (hsmall : list.Small)
    (huntangled : list.Untangled arena) (hspares : list.Spares arena header)
    (hheader : ∀ size next, readHeader arena header ≠ some (magicFree, size, next)) :
    Countable (list.joined arena start size (lastFree l) next) ↔ list.Intact arena := by
  have hlen := arenaLen_lt_of_arenaMatches hmatches
  have hspliced := h.spliced (arenaLen_le_of_arenaMatches hmatches) huntangled hspares
  refine hspliced.countable_iff hlen hsmall huntangled fun way x hway hwraps => ?_
  have hx : ∀ size next, ¬ list.Sound arena x size next := hwraps.not_sound hlen
  have hnodup := hway.nodup hx
  obtain ⟨rest, rfl, hrest⟩ := hway.exists_rest hx h.slot.trail
  -- where the list goes on behind the new block
  obtain ⟨mid, rest', rfl, hrest'⟩ : ∃ mid rest', rest = mid ++ rest' ∧
      list.Trail arena next rest' x := by
    rcases h.next_cases with rfl | ⟨n, hsound⟩
    · exact ⟨[], rest, rfl, hrest⟩
    · cases hrest with
      | nil => exact absurd hsound (hx _ _)
      | @cons _ _ _ _ rest' hsound' hrest' =>
        obtain ⟨-, rfl⟩ := hsound.unique hsound'
        exact ⟨[_], rest', rfl, hrest'⟩
  rcases h.start_cases with ⟨rfl, rfl⟩ | ⟨b, rfl, rfl, hfresh⟩
  · refine ⟨mid, rest', by simp, by simp, hrest', fun c hc hcon => ?_, fun hcon => ?_⟩
    · have hmem : c ∈ passed ++ (mid ++ rest') := by
        simp only [List.mem_append] at hc ⊢
        tauto
      obtain ⟨-, _, hsound, -⟩ := hway.of_mem hmem
      exact hheader _ _ (hcon ▸ hsound.1)
    · obtain ⟨n, after, hread, -⟩ := hwraps
      exact hheader _ _ (hcon ▸ hread)
  · refine ⟨b :: mid, rest', by simp, by simp, hrest', fun c hc hcon => ?_, fun hcon => ?_⟩
    · rcases List.mem_append.mp hc with hc | hc
      · exact hfresh (hcon ▸ List.mem_map_of_mem hc)
      · rw [List.map_append, List.nodup_append] at hnodup
        refine hnodup.2.2 b.start (by simp) c.start (List.mem_map_of_mem ?_) hcon.symm
        exact List.mem_append_right _ hc
    · obtain ⟨-, hsound, -⟩ := h.slot.trail.of_snoc
      exact hx _ _ (hcon ▸ hsound)

end FreeList.Inserts

/-- On an untangled list, a call of `dealloc` returns if and only if its walk does not come to a
header that wraps and, if the block has a slot, the list leads to none. -/
lemma dealloc_returns_iff_intact (hsmall : list.Small) (huntangled : list.Untangled arena)
    (offset : ℕ) (hspares : list.Spares arena (offset - headerSize)) :
    (∃ r, list.dealloc arena offset = .ok r) ↔
      ∀ blockSize, HeaderTests list arena offset blockSize →
        list.Passable arena (offset - headerSize) ∧
          (list.HasSlot arena (offset - headerSize) (offset - headerSize + blockSize) →
            list.Intact arena) := by
  rw [dealloc_returns_iff]
  refine forall₂_congr fun blockSize htests => and_congr_right fun _ => ?_
  have hlen := arenaLen_lt_of_arenaMatches htests.arenaMatches
  have hcount : ∀ start size previous next, list.Joins arena (offset - headerSize) blockSize
      (offset - headerSize + blockSize) offset start size previous next →
      (Countable (list.joined arena start size previous next) ↔ list.Intact arena) := by
    intro start size previous next hjoins
    obtain ⟨l, passed, current, rfl, hinserts⟩ := hjoins.inserts hlen htests.size_le htests.end_le
    obtain ⟨after', hread⟩ := htests.header
    refine hinserts.countable_iff htests.arenaMatches hsmall huntangled hspares
      fun n after hcon => ?_
    exact absurd (Prod.mk.inj (Option.some.inj (hread.symm.trans hcon))).1 (by decide)
  rw [← exists_joins_iff hlen htests.size_le htests.end_le offset]
  constructor
  · rintro h ⟨start, size, previous, next, hjoins⟩
    exact (hcount _ _ _ _ hjoins).mp (h _ _ _ _ hjoins)
  · exact fun h start size previous next hjoins =>
      (hcount _ _ _ _ hjoins).mpr (h ⟨start, size, previous, next, hjoins⟩)

end Release

/-- **The heap on overwritten headers.**  For every list and every contents of the arena:

If the arena is small and the list is untangled, then `alloc` returns if and only if the list offers
no block for the request or leads to no free header whose block ends beyond the address space; and
`dealloc` of a block whose header the list spares returns if and only if its walk does not come to
such a header and, if the block has a slot in the list, the list leads to none.

In general `alloc` returns if and only if the list can be counted after its writes, and `dealloc`
returns if and only if moreover its walk does not come to a header that wraps.

All loops keep to `max_blocks` rounds and never follow a header whose block leaves the arena. -/
theorem call_returns_iff (list : FreeList) (arena : Slice UInt8) :
    (list.Small → list.Untangled arena →
      (∀ size align, (∃ r, list.alloc arena size align = .ok r) ↔
        (list.Offers arena size align → list.Intact arena)) ∧
      ∀ offset, list.Spares arena (offset - headerSize) →
        ((∃ r, list.dealloc arena offset = .ok r) ↔
          ∀ blockSize, HeaderTests list arena offset blockSize →
            list.Passable arena (offset - headerSize) ∧
              (list.HasSlot arena (offset - headerSize) (offset - headerSize + blockSize) →
                list.Intact arena))) ∧
    (∀ size align, (∃ r, list.alloc arena size align = .ok r) ↔
      ∀ p, list.plan arena size align = .ok (.ok p) → Countable (list.committed arena p)) ∧
    (∀ offset, (∃ r, list.dealloc arena offset = .ok r) ↔
      ∀ blockSize, HeaderTests list arena offset blockSize →
        list.Passable arena (offset - headerSize) ∧ ∀ start size previous next,
          list.Joins arena (offset - headerSize) blockSize (offset - headerSize + blockSize) offset
            start size previous next →
          Countable (list.joined arena start size previous next)) ∧
    (list.arenaMatches arena = true → BoundedWalks list arena) := by
  refine ⟨fun hsmall huntangled => ⟨?_, ?_⟩, alloc_returns_iff list arena,
    dealloc_returns_iff list arena, boundedWalks⟩
  · exact alloc_returns_iff_intact hsmall huntangled
  · exact dealloc_returns_iff_intact hsmall huntangled

/-- A list of two blocks in a circle. -/
def circleList : FreeList where
  head := 0
  arenaLen := 128
  freeBlocks := 2
  freeBytes := 40
  largestFree := 24

/-- The arena of that list.  Between the blocks is an allocated one. -/
def circleArena : Slice UInt8 :=
  setHeader (setHeader (setHeader (zeroArena 128 (by decide)) 0 magicFree 40 80) 40 magicAlloc 40
    noneOffset) 80 magicFree 48 0

/-- The headers of its two blocks. -/
lemma readHeader_circle {x magic size next : ℕ}
    (h : readHeader circleArena x = some (magic, size, next)) :
    (x = 0 → size = 40 ∧ next = 80) ∧ (x = 80 → size = 48 ∧ next = 0) := by
  have hfirst : readHeader circleArena 0 = some (magicFree, 40, 80) := by decide +kernel
  have hsecond : readHeader circleArena 80 = some (magicFree, 48, 0) := by decide +kernel
  constructor
  · rintro rfl
    have hfields := h.symm.trans hfirst
    simp only [Option.some.injEq, Prod.mk.injEq] at hfields
    exact hfields.2
  · rintro rfl
    have hfields := h.symm.trans hsecond
    simp only [Option.some.injEq, Prod.mk.injEq] at hfields
    exact hfields.2

/-- The list leads to its two blocks. -/
lemma of_reaches_circle {x : ℕ} (h : circleList.Reaches circleArena x) : x = 0 ∨ x = 80 := by
  refine h.inv (Q := fun x => x = 0 ∨ x = 80) (.inl rfl) ?_
  rintro x size next hx ⟨hread, -⟩
  have hfields := readHeader_circle hread
  omega

/-- The first block has room for a small request. -/
lemma offers_circle : circleList.Offers circleArena 16 8 := by
  refine ⟨⟨by decide, by decide, by decide⟩, by decide +kernel, [], ⟨0, 40, none⟩, 80, .nil 0,
    by decide, ⟨by decide +kernel, by decide, by decide⟩, fun c hc => absurd hc List.not_mem_nil,
    24, ⟨by decide, .inl rfl⟩, by decide⟩

/-- The allocated block has its slot between the two. -/
lemma hasSlot_circle : circleList.HasSlot circleArena 40 80 := by
  refine ⟨[⟨0, 40, none⟩], 80, .cons ⟨by decide +kernel, by decide, by decide⟩ (.nil 80), ?_,
    .inr ⟨⟨48, 0, by decide +kernel, by decide, by decide⟩, le_rfl, by decide⟩⟩
  intro b hb
  rw [List.mem_singleton.mp hb]
  exact le_rfl

/-- A client has overwritten the next pointer of the last free block, so that the list runs in a
circle.  The list offers a block, the block released has a slot, and both calls return. -/
theorem call_returns_circle :
    (∃ list₀ arena₀ s, FreeList.init (zeroArena 128 (by decide)) = .ok (list₀, arena₀) ∧
      HeapState.run ⟨list₀, arena₀, []⟩ [.alloc 16 8, .alloc 16 8, .dealloc 24] = .ok s ∧
      circleList = s.list ∧ circleArena = setHeader s.arena 80 magicFree 48 0) ∧
    circleList.Offers circleArena 16 8 ∧ (∃ r, circleList.alloc circleArena 16 8 = .ok r) ∧
    HeaderTests circleList circleArena 64 40 ∧ circleList.HasSlot circleArena 40 80 ∧
    ∃ r, circleList.dealloc circleArena 64 = .ok r := by
  have hrun : Checked.okAnd (FreeList.init (zeroArena 128 (by decide))) (fun r =>
      Checked.okAnd (HeapState.run ⟨r.1, r.2, []⟩ [.alloc 16 8, .alloc 16 8, .dealloc 24])
        (fun s => decide (circleList = s.list) &&
          circleArena.toList == (setHeader s.arena 80 magicFree 48 0).toList)) = true := by
    decide +kernel
  obtain ⟨⟨list₀, arena₀⟩, hinit, hrun⟩ := Checked.okAnd_eq_true_iff.mp hrun
  obtain ⟨s, hs, hstate⟩ := Checked.okAnd_eq_true_iff.mp hrun
  rw [Bool.and_eq_true, decide_eq_true_eq, beq_iff_eq] at hstate
  have htests : HeaderTests circleList circleArena 64 40 :=
    ⟨by decide +kernel, by decide, by decide, by decide, ⟨noneOffset, by decide +kernel⟩, by decide,
      by decide⟩
  have hintact : circleList.Intact circleArena := by
    rintro x hx ⟨size, next, hread, hwraps⟩
    have hfields := readHeader_circle hread
    rcases of_reaches_circle hx with rfl | rfl <;> omega
  have huntangled : circleList.Untangled circleArena := by
    rintro x size next hx ⟨hread, -⟩ y hy hne
    have hfields := readHeader_circle hread
    rcases of_reaches_circle hx with rfl | rfl <;>
      rcases of_reaches_circle hy with rfl | rfl <;> omega
  have hspares : circleList.Spares circleArena (64 - headerSize) := by
    intro x hx
    rw [headerSize]
    rcases of_reaches_circle hx with rfl | rfl <;> omega
  have hsmall : circleList.Small := show circleList.maxBlocks * 128 < 2 ^ 64 by decide
  obtain ⟨hallocs, hdeallocs⟩ := (call_returns_iff circleList circleArena).1 hsmall huntangled
  refine ⟨⟨list₀, arena₀, s, hinit, hs, hstate.1, Slice.ext fun i => congrArg (·[i]?) hstate.2⟩,
    offers_circle, (hallocs 16 8).mpr fun _ => hintact, htests, hasSlot_circle,
    (hdeallocs 64 hspares).mpr fun blockSize _ => ⟨?_, fun _ => hintact⟩⟩
  exact fun l current htrail _ _ => hintact current ⟨l, htrail⟩

/-- A client writes beyond its payload, into the size of the free block behind it.  The next release
stops with an overflow.  So does an allocation that uses another block. -/
theorem wrapping_header_stops_calls :
    ∃ list₀ arena₀, FreeList.init (zeroArena 200 (by decide)) = .ok (list₀, arena₀) ∧
      (∃ s, HeapState.run ⟨list₀, arena₀, []⟩ [.alloc 16 8] = .ok s ∧
        s.list.dealloc (setHeader s.arena 40 magicFree (2 ^ 64 - 8) noneOffset) 24 =
          .error .overflow) ∧
      ∃ s, HeapState.run ⟨list₀, arena₀, []⟩ [.alloc 16 8, .alloc 16 8, .dealloc 24] = .ok s ∧
        s.list.alloc (setHeader s.arena 80 magicFree (2 ^ 64 - 8) noneOffset) 16 8 =
          .error .overflow := by
  have hrun : Checked.okAnd (FreeList.init (zeroArena 200 (by decide))) (fun r =>
      Checked.okAnd (HeapState.run ⟨r.1, r.2, []⟩ [.alloc 16 8]) (fun s => Checked.stopsWith
        (s.list.dealloc (setHeader s.arena 40 magicFree (2 ^ 64 - 8) noneOffset) 24) .overflow) &&
      Checked.okAnd (HeapState.run ⟨r.1, r.2, []⟩ [.alloc 16 8, .alloc 16 8, .dealloc 24])
        (fun s => Checked.stopsWith
          (s.list.alloc (setHeader s.arena 80 magicFree (2 ^ 64 - 8) noneOffset) 16 8)
          .overflow)) = true := by
    decide +kernel
  obtain ⟨⟨list₀, arena₀⟩, hinit, hrun⟩ := Checked.okAnd_eq_true_iff.mp hrun
  obtain ⟨hfirst, hsecond⟩ := Bool.and_eq_true_iff.mp hrun
  obtain ⟨s₁, hs₁, hdealloc⟩ := Checked.okAnd_eq_true_iff.mp hfirst
  obtain ⟨s₂, hs₂, halloc⟩ := Checked.okAnd_eq_true_iff.mp hsecond
  exact ⟨list₀, arena₀, hinit, ⟨s₁, hs₁, Checked.stopsWith_eq_true_iff.mp hdealloc⟩, s₂, hs₂,
    Checked.stopsWith_eq_true_iff.mp halloc⟩

end Heap

end ParanukOS
