import ParanukOS.KernelMemory.Heap.Chain

/-!
# What a call settles before its writes

On any contents of the arena, it can be said of the headers alone whether a call gets to its writes.
`alloc` does if the list offers a block: behind blocks without room for the request comes one that
has room for it.  `dealloc` does if the block has a slot: behind blocks that end before it comes the
end of the list or a block behind it.

## Outline

* `HasRoom`, `searchRound_of_sound`: a round of `alloc` at a sound header.
* `FreeList.Offers`, `plan_finds_iff`: the search of `alloc`.
* `FreeList.Inserts`, `FreeList.Slot.merges`: the merges of `dealloc`.
* `FreeList.HasSlot`, `exists_joins_iff`: the walk of `dealloc`.
-/

namespace ParanukOS

open Foundation

namespace Heap

/-! ## Allocation -/

/-- The block has room for the request at an admissible place, with its end rounded up. -/
def HasRoom (size align : ℕ) (b : HeapBlock) : Prop :=
  ∃ p, Admissible b.start align p ∧ tailStartOf (p + size) ≤ b.stop

/-- The list offers a block for the request: it has room, and the blocks before it have none. -/
def FreeList.Offers (list : FreeList) (arena : Slice UInt8) (size align : ℕ) : Prop :=
  ValidRequest size align ∧ list.arenaMatches arena = true ∧ ∃ l b next,
    list.Trail arena list.head l b.start ∧ l.length < list.maxBlocks ∧
    list.Sound arena b.start b.size next ∧ (∀ c ∈ l, NoRoom size align c) ∧ HasRoom size align b

lemma FreeList.Small.arenaLen_lt {list : FreeList} (h : list.Small) : list.arenaLen < 2 ^ 62 := by
  by_contra hle
  rw [not_lt] at hle
  have hblocks : 4 ≤ list.maxBlocks := by
    simp only [FreeList.maxBlocks, headerAlign]
    omega
  have hprod := Nat.mul_le_mul hblocks hle
  rw [FreeList.Small] at h
  omega

section Alloc

variable {list : FreeList} {arena : Slice UInt8} {l : List HeapBlock}
  {size align n start current next previous : ℕ}

/-- A block that is large enough is cut up if and only if the rounded end of the payload lies in
it. -/
lemma place_finds_iff {blockEnd payload gap : ℕ} (hpayload : headerSize ≤ payload)
    (hend : payload + size < 2 ^ 63)
    (hprevious : previous = noneOffset ∨ ∃ fields, readHeader arena previous = some fields) :
    (∃ p, place arena previous current next blockEnd payload gap (payload + size) =
      .ok (.ok p)) ↔ tailStartOf (payload + size) ≤ blockEnd := by
  rw [place, subWord_of_le hpayload, Checked.ok_bind, alignUp_headerAlign (by omega)]
  dsimp only
  by_cases htail : tailStartOf (payload + size) ≤ blockEnd
  · have hheader : payload - headerSize ≤ tailStartOf (payload + size) := by
      rw [tailStartOf]
      omega
    refine ⟨fun _ => htail, fun _ => ?_⟩
    rw [checkedSub_of_le htail]
    dsimp only
    rw [subWord_of_le hheader, Checked.ok_bind, subWord_of_le (hheader.trans htail),
      Checked.ok_bind]
    rcases hprevious with hnone | ⟨fields, hread⟩
    · rw [if_pos hnone, if_pos hnone]
      split_ifs <;> exact ⟨_, rfl⟩
    · rw [if_neg (ne_noneOffset_of_readHeader hread), if_neg (ne_noneOffset_of_readHeader hread),
        hread]
      split_ifs <;> exact ⟨_, rfl⟩
  · rw [checkedSub, if_neg htail]
    constructor
    · rintro ⟨p, hp⟩
      cases hp
    · exact fun hcon => absurd hcon htail

/-- A round of `alloc` at a sound header: it tries the first admissible place. -/
lemma searchRound_of_sound (hreq : ValidRequest size align) (hlen : list.arenaLen < 2 ^ 62)
    (h : list.Sound arena current n next) :
    ∃ payload gap, Admissible current align payload ∧
      (∀ p, Admissible current align p → payload ≤ p) ∧ headerSize ≤ payload ∧
      payload < 2 ^ 63 ∧ ∀ previous, list.searchRound arena size align (previous, current) =
        match checkedAdd payload size with
        | none => .ok (.done (.error .overflow))
        | some payloadEnd =>
          if current + n < payloadEnd then .ok (.next (current, next))
          else place arena previous current next (current + n) payload gap payloadEnd >>=
            fun r => .ok (.done r) := by
  obtain ⟨hread, hsize, hend⟩ := id h
  obtain ⟨payload, gap, heq, hadmissible, hleast, hadd, hbound⟩ :=
    payloadIn_least hreq.isPowerOfTwo hreq.le_maxAlign (show current < 2 ^ 63 by omega)
  simp only [headerSize, minBlock, minPayload, maxAlign] at hadd hbound
  have hheader : headerSize ≤ payload := by
    rw [headerSize]
    omega
  refine ⟨payload, gap, hadmissible, hleast, hheader, by omega, fun previous => ?_⟩
  rw [FreeList.searchRound, if_neg (ne_noneOffset_of_readHeader hread), hread]
  dsimp only
  rw [if_neg h.tests, checkedAdd_of_lt (by omega)]
  dsimp only
  rw [if_neg (not_lt.mpr hend), heq, Checked.ok_bind]
  dsimp only
  cases checkedAdd payload size with
  | none => rfl
  | some payloadEnd =>
    dsimp only
    split_ifs <;> rfl

/-- `alloc` passes a block only if it has no room. -/
lemma noRoom_of_searchRound_next (hreq : ValidRequest size align) (hlen : list.arenaLen < 2 ^ 62)
    (h : list.Sound arena current n next) {s : ℕ × ℕ}
    (hround : list.searchRound arena size align (previous, current) = .ok (.next s)) :
    NoRoom size align ⟨current, n, none⟩ := by
  obtain ⟨payload, gap, -, hleast, -, -, heq⟩ := searchRound_of_sound hreq hlen h
  rw [heq previous] at hround
  cases hadd : checkedAdd payload size with
  | none =>
    rw [hadd] at hround
    cases hround
  | some payloadEnd =>
    obtain ⟨-, rfl⟩ := checkedAdd_eq_some_iff.mp hadd
    rw [hadd] at hround
    dsimp only at hround
    split_ifs at hround with hfits
    · intro p hp
      have hle := hleast p hp
      show current + n < p + size
      omega
    · obtain ⟨r, -, hr⟩ := Checked.bind_eq_ok.mp hround
      cases hr

/-- `alloc` passes every block that has no room, if the request is not too large. -/
lemma searchRound_of_noRoom (hreq : ValidRequest size align) (hlen : list.arenaLen < 2 ^ 62)
    (hsize : size < 2 ^ 62) (h : list.Sound arena current n next)
    (hno : NoRoom size align ⟨current, n, none⟩) (previous : ℕ) :
    list.searchRound arena size align (previous, current) = .ok (.next (current, next)) := by
  obtain ⟨payload, gap, hadmissible, -, -, hlt, heq⟩ := searchRound_of_sound hreq hlen h
  have hfits : current + n < payload + size := hno payload hadmissible
  rw [heq previous, checkedAdd_of_lt (by omega)]
  dsimp only
  rw [if_pos hfits]

/-- `alloc` picks a block if and only if it has room. -/
lemma searchRound_picks_iff (hreq : ValidRequest size align) (hlen : list.arenaLen < 2 ^ 62)
    (h : list.Sound arena current n next)
    (hprevious : previous = noneOffset ∨ ∃ fields, readHeader arena previous = some fields) :
    (∃ p, list.searchRound arena size align (previous, current) = .ok (.done (.ok p))) ↔
      HasRoom size align ⟨current, n, none⟩ := by
  have hend := h.2.2
  obtain ⟨payload, gap, hadmissible, hleast, hheader, hlt, heq⟩ := searchRound_of_sound hreq hlen h
  rw [heq previous]
  constructor
  · rintro ⟨p, hp⟩
    cases hadd : checkedAdd payload size with
    | none =>
      rw [hadd] at hp
      cases hp
    | some payloadEnd =>
      obtain ⟨-, rfl⟩ := checkedAdd_eq_some_iff.mp hadd
      rw [hadd] at hp
      dsimp only at hp
      split_ifs at hp with hfits
      · cases hp
      · obtain ⟨r, hr, hp⟩ := Checked.bind_eq_ok.mp hp
        obtain rfl := Round.done.inj (Except.ok.inj hp)
        exact ⟨payload, hadmissible, (place_finds_iff hheader (by omega) hprevious).mp ⟨p, hr⟩⟩
  · rintro ⟨q, hq, hroom⟩
    have hle := hleast q hq
    change tailStartOf (q + size) ≤ current + n at hroom
    have htail : tailStartOf (payload + size) ≤ current + n := by
      rw [tailStartOf] at hroom ⊢
      omega
    have hfits : payload + size ≤ current + n := by
      rw [tailStartOf] at htail
      omega
    obtain ⟨p, hp⟩ : ∃ p, place arena previous current next (current + n) payload gap
        (payload + size) = .ok (.ok p) :=
      (place_finds_iff hheader (by omega) hprevious).mpr htail
    rw [checkedAdd_of_lt (by omega)]
    dsimp only
    rw [if_neg (not_lt.mpr hfits), hp]
    exact ⟨p, rfl⟩

/-- Every trail of blocks without room is walked by `alloc`. -/
lemma searchRounds_of_trail (hreq : ValidRequest size align) (hlen : list.arenaLen < 2 ^ 62)
    (hsize : size < 2 ^ 62) (h : list.Trail arena start l current)
    (hno : ∀ b ∈ l, NoRoom size align b) (previous : ℕ) :
    ∃ previous', Rounds (list.searchRound arena size align) l.length (previous, start)
      (previous', current) ∧
      (previous' = previous ∨ ∃ fields, readHeader arena previous' = some fields) := by
  induction h generalizing previous with
  | nil current => exact ⟨previous, .refl _, .inl rfl⟩
  | @cons current n next stop l hsound _ ih =>
    obtain ⟨previous', hrest, hread⟩ := ih (fun b hb => hno b (List.mem_cons_of_mem _ hb)) current
    refine ⟨previous', .step ?_ hrest, .inr ?_⟩
    · exact searchRound_of_noRoom hreq hlen hsize hsound (hno _ List.mem_cons_self) previous
    · rcases hread with rfl | hread
      · exact ⟨_, hsound.1⟩
      · exact hread

/-- A trail to a header starts at one. -/
lemma FreeList.Trail.exists_readHeader (h : list.Trail arena start l current)
    (hread : ∃ fields, readHeader arena current = some fields) :
    ∃ fields, readHeader arena start = some fields := by
  cases h with
  | nil => exact hread
  | cons hsound _ => exact ⟨_, hsound.1⟩

/-- The search of `alloc` succeeds if and only if the list offers a block. -/
lemma plan_finds_iff (hlen : list.arenaLen < 2 ^ 62) :
    (∃ p, list.plan arena size align = .ok (.ok p)) ↔ list.Offers arena size align := by
  constructor
  · rintro ⟨p, hp⟩
    obtain ⟨r, hr, hpicks⟩ := plan_returns list arena size align
    obtain rfl := Except.ok.inj (hr.symm.trans hp)
    obtain ⟨hreq, hmatches, l, n, h⟩ := hpicks p rfl
    refine ⟨hreq, hmatches, l, ⟨p.current, n, none⟩, p.next, h.trail, h.length_lt, h.sound,
      fun b hb => ?_, ?_⟩
    · obtain ⟨-, next, hsound, -⟩ := h.trail.of_mem hb
      obtain ⟨s, hs⟩ := h.passed b hb noneOffset
      exact noRoom_of_searchRound_next hreq hlen hsound hs
    · refine (searchRound_picks_iff hreq hlen h.sound ?_).mp ⟨p, h.picked⟩
      exact h.trail.lastFree_cases.imp_right fun ⟨size, hsound⟩ => ⟨_, hsound.1⟩
  · rintro ⟨hreq, hmatches, l, b, next, htrail, hl, hsound, hno, hroom⟩
    have hend := hsound.2.2
    have hsize : size < 2 ^ 62 := by
      obtain ⟨q, -, hq⟩ := hroom
      rw [tailStartOf, Block.stop] at hq
      omega
    have hhead : list.head ≠ noneOffset := by
      obtain ⟨fields, hread⟩ := htrail.exists_readHeader ⟨_, hsound.1⟩
      exact ne_noneOffset_of_readHeader hread
    have htests : ¬ (size = 0 ∨ isPowerOfTwo align = false ∨ maxAlign < align ∨
        list.head = noneOffset ∨ list.arenaMatches arena = false) := by
      simp [hreq.pos.ne', hreq.isPowerOfTwo, hreq.le_maxAlign, hhead, hmatches]
    obtain ⟨previous, hrounds, hread⟩ :=
      searchRounds_of_trail hreq hlen hsize htrail hno noneOffset
    obtain ⟨p, hp⟩ := (searchRound_picks_iff hreq hlen hsound hread).mpr hroom
    obtain ⟨k, hk⟩ := Nat.exists_eq_add_of_lt hl
    refine ⟨p, ?_⟩
    rw [FreeList.plan, if_neg htests, FreeList.search_eq_loop, hk, Nat.add_assoc,
      hrounds.loopAtMost_eq]
    exact loopAtMost_of_done hp

end Alloc

/-! ## Release -/

/-- The block from `header` to `blockEnd` has a slot in the list. -/
def FreeList.HasSlot (list : FreeList) (arena : Slice UInt8) (header blockEnd : ℕ) : Prop :=
  ∃ l current, list.Slot arena header blockEnd l current

/-- `dealloc` is about to write: the block of `size` bytes at `start` comes behind the blocks `l`,
and the list then goes on at `next`.  The block released has its slot behind the blocks `passed`;
the last of them may have been merged with it, and so may the one at `current`. -/
structure FreeList.Inserts (list : FreeList) (arena : Slice UInt8) (header blockEnd start size
    next : ℕ) (l passed : List HeapBlock) (current : ℕ) : Prop where
  slot : list.Slot arena header blockEnd passed current
  next_cases : next = current ∨ ∃ n, list.Sound arena current n next
  size_le : 24 ≤ size
  stop_le : start + size ≤ list.arenaLen
  start_cases : passed = l ∧ start = header ∨
    ∃ b, passed = l ++ [b] ∧ start = b.start ∧ b.start ∉ l.map Block.start

section Release

variable {list : FreeList} {arena : Slice UInt8} {l passed : List HeapBlock}
  {header blockSize blockEnd offset start size merged previous current next x : ℕ}

/-- `previous_free` finds the last block on the way to a block that is not on this way. -/
lemma previousFreeFrom_of_trail (htrail : list.Trail arena start l x) (hx : x ∉ l.map Block.start)
    (hnone : x ≠ noneOffset) {guard : ℕ} (hguard : l.length < guard) (previous : ℕ) :
    FreeList.previousFreeFrom arena x guard previous start =
      some (((lastFree? l).map Block.start).getD previous) := by
  induction htrail generalizing guard previous with
  | nil current =>
    obtain ⟨guard, rfl⟩ := Nat.exists_eq_succ_of_ne_zero (Nat.ne_of_gt hguard)
    rw [FreeList.previousFreeFrom, if_neg hnone, if_pos rfl]
    rfl
  | @cons current size next stop l hsound _ ih =>
    obtain ⟨guard, rfl⟩ := Nat.exists_eq_succ_of_ne_zero (Nat.ne_zero_of_lt hguard)
    rw [List.map_cons, List.mem_cons, not_or] at hx
    rw [FreeList.previousFreeFrom, if_neg (ne_noneOffset_of_readHeader hsound.1),
      if_neg (Ne.symm hx.1), hsound.1]
    dsimp only
    rw [ih hx.2 hnone (by simpa using hguard)]
    have hlast : lastFree? (⟨current, size, none⟩ :: l) =
        some ((lastFree? l).getD ⟨current, size, none⟩) := by
      rw [lastFree?, frees_cons_of_free rfl, List.getLast?_cons]
      rfl
    rw [hlast]
    cases lastFree? l <;> rfl

/-- The blocks before a slot are not in a circle. -/
lemma FreeList.Slot.notMem {k : List HeapBlock} {b : HeapBlock}
    (h : list.Slot arena header blockEnd (k ++ [b]) current) (hblock : header ≤ blockEnd) :
    b.start ∉ k.map Block.start := by
  intro hmem
  obtain ⟨c, hc, hstart⟩ := List.mem_map.mp hmem
  obtain ⟨k₁, k₂, rfl⟩ := List.append_of_mem hc
  obtain ⟨-, hlast, -⟩ := h.trail.of_snoc
  have htrail := h.trail
  rw [List.append_assoc] at htrail
  obtain ⟨mid, -, hrest⟩ := htrail.split
  cases hrest with
  | @cons _ size next _ _ hsound hrest =>
    -- the same header leads to `current`, and from there to itself
    obtain ⟨-, rfl⟩ := hsound.unique (hstart ▸ hlast)
    have hround : list.Trail arena next (k₂ ++ [b]) next := hrest
    obtain ⟨d, m, hm⟩ := List.exists_cons_of_ne_nil (List.concat_ne_nil b k₂)
    have hd : d ∈ k₂ ++ [b] := hm ▸ List.mem_cons_self
    obtain rfl : d.start = next := by
      rw [hm] at hround
      cases hround
      rfl
    have hstop := h.before d (by
      rw [List.append_assoc]
      exact List.mem_append_right _ (List.mem_cons_of_mem _ hd))
    obtain ⟨-, _, hsound', -⟩ := hround.of_mem hd
    have hsize := hsound'.2.1
    simp only [headerSize] at hsize
    rw [Block.stop] at hstop
    rcases h.current_cases with ⟨hnone, -⟩ | ⟨-, hle, -⟩
    · exact ne_noneOffset_of_readHeader hsound'.1 hnone
    · omega

/-- The merge with the block before the slot succeeds. -/
lemma FreeList.Slot.mergePrevious_eq (h : list.Slot arena header blockEnd passed current)
    (hlen : list.arenaLen < 2 ^ 63) (hblock : header ≤ blockEnd) (hsize : 24 ≤ merged)
    (hend : header + merged ≤ list.arenaLen) :
    ∃ l start size, list.mergePrevious arena header merged (lastFree passed) =
        .ok (.ok (start, size, lastFree l)) ∧ 24 ≤ size ∧ start + size ≤ list.arenaLen ∧
      (passed = l ∧ start = header ∨
        ∃ b, passed = l ++ [b] ∧ start = b.start ∧ b.start ∉ l.map Block.start) := by
  rw [FreeList.mergePrevious]
  by_cases hnone : lastFree passed = noneOffset
  · rw [if_neg (not_not.mpr hnone)]
    exact ⟨passed, header, merged, rfl, hsize, hend, .inl ⟨rfl, rfl⟩⟩
  rw [if_pos hnone]
  rcases List.eq_nil_or_concat passed with rfl | ⟨k, b, rfl⟩
  · exact absurd rfl hnone
  rw [List.concat_eq_append] at *
  obtain ⟨hk, hlast, htag⟩ := h.trail.of_snoc
  have hstop := hlast.2.2
  rw [lastFree_snoc htag] at hnone ⊢
  rw [hlast.1]
  dsimp only
  rw [addWord_of_lt (by omega), Checked.ok_bind]
  by_cases hadjacent : b.start + b.size = header
  · have hfresh := h.notMem hblock
    have hlength := h.length_le
    have hfree : list.previousFree arena b.start = some (lastFree k) :=
      previousFreeFrom_of_trail hk hfresh hnone (by simpa using hlength) noneOffset
    rw [if_pos hadjacent, addWord_of_lt (by omega), Checked.ok_bind, hfree]
    exact ⟨k, b.start, merged + b.size, rfl, by omega, by omega, .inr ⟨b, rfl, rfl, hfresh⟩⟩
  · rw [if_neg hadjacent]
    exact ⟨k ++ [b], header, merged, by rw [lastFree_snoc htag]; rfl, hsize, hend, .inl ⟨rfl, rfl⟩⟩

/-- In its slot, a block can be merged with its neighbours. -/
lemma FreeList.Slot.merges (h : list.Slot arena header (header + blockSize) passed current)
    (hlen : list.arenaLen < 2 ^ 63) (hsize : 24 ≤ blockSize)
    (hend : header + blockSize ≤ list.arenaLen) :
    ∃ merged next l start size,
      FreeList.mergeNext arena (header + blockSize) blockSize current = .ok (.ok (merged, next)) ∧
      list.mergePrevious arena header merged (lastFree passed) =
        .ok (.ok (start, size, lastFree l)) ∧
      list.Inserts arena header (header + blockSize) start size next l passed current := by
  obtain ⟨merged, next, hnext, hle, hmerged, hnext_cases⟩ :=
    mergeNext_returns hlen hend h.sound_or_none
  obtain ⟨l, start, size, hprevious, hsize', hstop, hstart⟩ :=
    h.mergePrevious_eq hlen (Nat.le_add_right _ _) (hsize.trans hle) hmerged
  exact ⟨merged, next, l, start, size, hnext, hprevious, ⟨h, hnext_cases, hsize', hstop, hstart⟩⟩

/-- What `dealloc` has settled when it is about to write. -/
lemma FreeList.Joins.inserts (hlen : list.arenaLen < 2 ^ 63) (hsize : 24 ≤ blockSize)
    (hend : header + blockSize ≤ list.arenaLen)
    (h : list.Joins arena header blockSize (header + blockSize) offset start size previous next) :
    ∃ l passed current, previous = lastFree l ∧
      list.Inserts arena header (header + blockSize) start size next l passed current := by
  obtain ⟨before, current, merged, hpoint, hnext, hprevious⟩ := h
  obtain ⟨passed, hslot, rfl⟩ := slot_of_insertPoint hlen hpoint
  obtain ⟨merged', next', l, start', size', hnext', hprevious', hinserts⟩ :=
    hslot.merges hlen hsize hend
  obtain ⟨rfl, rfl⟩ := Prod.mk.inj (Except.ok.inj (Except.ok.inj (hnext'.symm.trans hnext)))
  have hfields := Except.ok.inj (Except.ok.inj (hprevious'.symm.trans hprevious))
  simp only [Prod.mk.injEq] at hfields
  obtain ⟨rfl, rfl, rfl⟩ := hfields
  exact ⟨l, passed, current, rfl, hinserts⟩

/-- `dealloc` gets to its writes if and only if the block has a slot. -/
lemma exists_joins_iff (hlen : list.arenaLen < 2 ^ 63) (hsize : 24 ≤ blockSize)
    (hend : header + blockSize ≤ list.arenaLen) (offset : ℕ) :
    (∃ start size previous next, list.Joins arena header blockSize (header + blockSize) offset start
      size previous next) ↔ list.HasSlot arena header (header + blockSize) := by
  constructor
  · rintro ⟨start, size, previous, next, hjoins⟩
    obtain ⟨l, passed, current, -, hinserts⟩ := hjoins.inserts hlen hsize hend
    exact ⟨passed, current, hinserts.slot⟩
  · rintro ⟨passed, current, hslot⟩
    obtain ⟨before, hpoint⟩ := hslot.insertPoint_eq hlen (Nat.le_add_right _ _) offset
    obtain ⟨passed', hslot', rfl⟩ := slot_of_insertPoint hlen hpoint
    obtain ⟨merged, next, l, start, size, hnext, hprevious, -⟩ := hslot'.merges hlen hsize hend
    exact ⟨start, size, lastFree l, next, lastFree passed', current, merged, hpoint, hnext,
      hprevious⟩

end Release

end Heap

end ParanukOS
