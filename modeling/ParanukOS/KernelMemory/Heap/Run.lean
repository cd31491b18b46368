import ParanukOS.KernelMemory.Heap.Dealloc

/-!
# Runs of the heap

The heap together with its clients: a run starts from `FreeList::init` and then allocates, releases
and writes to payloads in any order.  `HeapState` keeps the allocations the clients hold, each with
its offset and the size requested.

A client that respects the interface (`HeapState.Allowed`) releases only what it holds.  On such
runs the heap keeps the invariant `HeapInvariant`, which speaks about the bytes of the arena and
not about the abstract layout, no operation stops, and the payloads are disjoint and stay as their
holders have left them.

A client that releases other offsets is `HeapState.Reckless`.  Whether the heap notices depends on
the bytes in front of the offset (`Credible`): headers that a merge has left behind inside of a
larger block are still there when this block is handed out again.
-/

namespace ParanukOS

open Foundation

namespace Heap

/-! ## States and steps -/

/-- The heap and the allocations held, each with its offset and size. -/
structure HeapState where
  /-- The free list. -/
  list : FreeList
  /-- The bytes of the arena. -/
  arena : Slice UInt8
  /-- Offset and size of the allocations held. -/
  live : List (ℕ × ℕ)

/-- The operations of a run. -/
inductive HeapOp where
  /-- A call of `alloc`. -/
  | alloc (size align : ℕ)
  /-- A call of `dealloc`. -/
  | dealloc (offset : ℕ)
  /-- A write of a client into the arena. -/
  | write (offset : ℕ) (bytes : List UInt8)

namespace HeapState

/-- One step of a run. -/
def step (s : HeapState) : HeapOp → Checked HeapState
  | .alloc size align => do
    match ← s.list.alloc s.arena size align with
    | (some offset, list, arena) => return { list, arena, live := (offset, size) :: s.live }
    | (none, list, arena) => return { list, arena, live := s.live }
  | .dealloc offset => do
    match ← s.list.dealloc s.arena offset with
    | (.ok (), list, arena) =>
      return { list, arena, live := s.live.filter fun p => p.1 ≠ offset }
    | (.error _, list, arena) => return { list, arena, live := s.live }
  | .write offset bytes => do
    let arena ← s.arena.write offset bytes
    return { s with arena }

/-- The bytes of a write lie in a payload that is held. -/
def Owns (s : HeapState) (offset : ℕ) (bytes : List UInt8) : Prop :=
  ∃ p ∈ s.live, p.1 ≤ offset ∧ offset + bytes.length ≤ p.1 + p.2

/-- What a client may do: allocate, release what it holds, and write to it. -/
def Allowed (s : HeapState) : HeapOp → Prop
  | .alloc _ _ => True
  | .dealloc offset => ∃ size, (offset, size) ∈ s.live
  | .write offset bytes => s.Owns offset bytes

/-- A step of a client that keeps to the operations it may use. -/
def StepBy (may : HeapState → HeapOp → Prop) (s s' : HeapState) : Prop :=
  ∃ op, may s op ∧ s.step op = .ok s'

end HeapState

/-! ## The invariant -/

/-- The free list from `offset` on passes through the blocks `free` and then ends. -/
def FreeChain (arena : Slice UInt8) : ℕ → List HeapBlock → Prop
  | offset, [] => offset = noneOffset
  | offset, b :: free => offset = b.start ∧ b.tag = none ∧ ∃ next,
      readHeader arena offset = some (magicFree, b.size, next) ∧ FreeChain arena next free

/-- The size recorded in the header of the payload at `offset`. -/
def recordedSize (arena : Slice UInt8) (offset : ℕ) : ℕ :=
  ((readHeader arena (offset - headerSize)).map fun header => header.2.1).getD 0

/-- The block of an allocation. -/
def liveBlock (arena : Slice UInt8) (p : ℕ × ℕ) : HeapBlock where
  start := p.1 - headerSize
  size := recordedSize arena p.1
  tag := some p.2

/-- The free list and the bytes of the arena are in order; `free` are the blocks of the list. -/
structure HeapInvariant (s : HeapState) (free : List HeapBlock) : Prop where
  /-- The list runs through the blocks `free`, each with a header of a free block, and ends. -/
  chain : FreeChain s.arena s.list.head free
  /-- Its blocks are in increasing order, and no two of them are adjacent. -/
  increasing : free.Pairwise fun a b => a.stop < b.start
  /-- Free and allocated blocks cover the managed part of the arena, without gap or overlap. -/
  tiled : ∃ bs, bs.Perm (free ++ s.live.map (liveBlock s.arena)) ∧ Tiles 0 s.list.arenaLen bs
  /-- The managed part lies in the arena. -/
  arenaLen_le : s.list.arenaLen ≤ s.arena.length
  /-- All blocks are aligned and have room for their header. -/
  aligned : ∀ b ∈ free ++ s.live.map (liveBlock s.arena),
    b.start % headerAlign = 0 ∧ b.size % headerAlign = 0 ∧ headerSize ≤ b.size
  /-- The allocated blocks have the header of an allocated block and hold their payload. -/
  allocated : ∀ p ∈ s.live, headerSize ≤ p.1 ∧
    (∃ next, readHeader s.arena (p.1 - headerSize) =
      some (magicAlloc, recordedSize s.arena p.1, next)) ∧
    p.1 + p.2 ≤ (liveBlock s.arena p).stop
  /-- The statistics count the blocks of the list. -/
  stats : s.list.stats = ⟨free.length, (free.map fun b => b.size - headerSize).sum,
    (free.map fun b => b.size - headerSize).foldr max 0⟩

/-- The invariant in terms of the layout, which the steps are proved to keep. -/
def Laid (s : HeapState) (bs : List HeapBlock) : Prop :=
  Layout s.list s.arena bs ∧ s.live.Perm (liveOf bs)

section Invariant

variable {s : HeapState} {arena : Slice UInt8} {bs pre post : List HeapBlock}

/-- The free blocks of a layout are the chain. -/
lemma freeChain_of_headers (h : Headers arena noneOffset bs) :
    FreeChain arena (firstFree noneOffset bs) (frees bs) := by
  induction bs with
  | nil => rfl
  | cons b bs ih =>
    obtain ⟨hb, hbs⟩ := h
    cases hfree : isFree b with
    | false =>
      rw [firstFree_cons_of_live hfree, frees_cons_of_live hfree]
      exact ih hbs
    | true =>
      rw [firstFree_cons_of_free hfree, frees_cons_of_free hfree]
      refine ⟨rfl, by simpa [isFree] using hfree, firstFree noneOffset bs, ?_, ih hbs⟩
      rw [hb]
      simp [headerOf, hfree]

/-- There is only one chain. -/
lemma FreeChain.unique {free free' : List HeapBlock} {offset : ℕ} (h : FreeChain arena offset free)
    (h' : FreeChain arena offset free') : free = free' := by
  induction free generalizing offset free' with
  | nil =>
    cases free' with
    | nil => rfl
    | cons c free' =>
      obtain ⟨-, -, next, hread, -⟩ := h'
      rw [show offset = noneOffset from h, readHeader_noneOffset] at hread
      exact absurd hread (by simp)
  | cons b free ih =>
    obtain ⟨hb, htag, next, hread, hrest⟩ := h
    cases free' with
    | nil =>
      rw [show offset = noneOffset from h', readHeader_noneOffset] at hread
      exact absurd hread (by simp)
    | cons c free' =>
      obtain ⟨hc, htag', next', hread', hrest'⟩ := h'
      rw [hread] at hread'
      simp only [Option.some.injEq, Prod.mk.injEq, true_and] at hread'
      obtain ⟨hsize, rfl⟩ := hread'
      obtain ⟨start, size, tag⟩ := b
      obtain ⟨start', size', tag'⟩ := c
      simp only at hb hc htag htag' hsize
      subst hb hc htag htag' hsize
      rw [ih hrest hrest']

/-- The free blocks of a layout are in increasing order and not adjacent. -/
lemma pairwise_frees {lo hi : ℕ} (ht : Tiles lo hi bs)
    (hsep : bs.IsChain fun a b => ¬ (isFree a = true ∧ isFree b = true)) :
    (frees bs).Pairwise fun a b => a.stop < b.start := by
  induction bs generalizing lo with
  | nil => exact List.Pairwise.nil
  | cons b bs ih =>
    obtain ⟨rfl, -, hbs⟩ := ht
    obtain ⟨hhead, htail⟩ := List.isChain_cons.mp hsep
    cases hfree : isFree b with
    | false =>
      rw [frees_cons_of_live hfree]
      exact ih hbs htail
    | true =>
      rw [frees_cons_of_free hfree]
      refine List.Pairwise.cons (fun c hc => ?_) (ih hbs htail)
      obtain ⟨hc, hcfree⟩ := mem_frees.mp hc
      -- the block right after `b` is allocated, so `c` comes after that one
      cases bs with
      | nil => simp at hc
      | cons d ds =>
        obtain ⟨hd, hdpos, hds⟩ := hbs
        have hdlive : isFree d = false := by
          have := hhead d (by simp)
          simpa [hfree] using this
        rcases List.mem_cons.mp hc with rfl | hc
        · rw [hcfree] at hdlive
          exact absurd hdlive (by simp)
        · have hstart := (hds.bounds_of_mem hc).1
          simp only [Block.stop] at hd hstart ⊢
          omega

/-- The recorded size of an allocated block is its size. -/
lemma liveBlock_eq {nxt size : ℕ} {b : HeapBlock} (htag : b.tag = some size)
    (hread : readHeader arena b.start = some (headerOf b nxt)) :
    liveBlock arena (b.start + headerSize, size) = b := by
  obtain ⟨start, bsize, tag⟩ := b
  simp only at htag
  subst htag
  simp only [liveBlock, recordedSize, Nat.add_sub_cancel, hread]
  rfl

/-- The blocks of the allocations are the allocated blocks of the layout. -/
lemma map_liveBlock {nxt : ℕ} (h : Headers arena nxt bs) :
    (liveOf bs).map (liveBlock arena) = bs.filter fun b => !isFree b := by
  induction bs with
  | nil => rfl
  | cons b bs ih =>
    obtain ⟨hb, hbs⟩ := h
    cases htag : b.tag with
    | none =>
      have hfree : isFree b = true := by simp [isFree, htag]
      rw [List.filter_cons_of_neg (by simp [hfree]), ← ih hbs]
      simp [liveOf, htag]
    | some size =>
      have hfree : isFree b = false := by simp [isFree, htag]
      rw [List.filter_cons_of_pos (by simp [hfree]), ← ih hbs]
      simp only [liveOf, List.filterMap_cons, htag, Option.map_some, List.map_cons]
      rw [liveBlock_eq htag hb]

/-- The invariant follows from the layout. -/
lemma Laid.invariant (h : Laid s bs) : HeapInvariant s (frees bs) := by
  obtain ⟨hlayout, hperm⟩ := h
  have hblocks : bs.Perm (frees bs ++ s.live.map (liveBlock s.arena)) := by
    refine (List.filter_append_perm isFree bs).symm.trans (List.Perm.append_left _ ?_)
    rw [← map_liveBlock hlayout.headers]
    exact (hperm.map _).symm
  refine ⟨?_, pairwise_frees hlayout.tiles hlayout.separated, ⟨bs, hblocks, hlayout.tiles⟩,
    hlayout.arenaLen_le, fun b hb => ?_, fun p hp => ?_, hlayout.stats_eq⟩
  · rw [hlayout.head_eq]
    exact freeChain_of_headers hlayout.headers
  · have hwf := hlayout.wellFormed b (hblocks.mem_iff.mpr hb)
    exact ⟨hwf.start_mod, hwf.size_mod, hwf.header_le⟩
  · obtain ⟨offset, size⟩ := p
    obtain ⟨b, hb, htag, hoffset⟩ := mem_liveOf.mp (hperm.mem_iff.mp hp)
    simp only at htag hoffset
    subst hoffset
    obtain ⟨pre, post, rfl⟩ := List.append_of_mem hb
    have hread := Headers.of_split hlayout.headers
    have hblock := liveBlock_eq htag hread
    have hrequest := ((hlayout.wellFormed b hb).request size htag).2
    refine ⟨Nat.le_add_left _ _, ⟨noneOffset, ?_⟩, ?_⟩
    · have hsize : recordedSize s.arena (b.start + headerSize) = b.size :=
        congrArg Block.size hblock
      rw [hsize, Nat.add_sub_cancel, hread]
      simp [headerOf, isFree, htag]
    · rw [hblock]
      simp only [Block.stop]
      omega

/-- The place of the allocations in the arena. -/
lemma Laid.bounds (h : Laid s bs) {p : ℕ × ℕ} (hp : p ∈ s.live) :
    0 < p.2 ∧ headerSize ≤ p.1 ∧ p.1 % headerAlign = 0 ∧ p.1 + p.2 ≤ s.list.arenaLen ∧
      ∃ b ∈ bs, b.start + headerSize = p.1 ∧ p.1 + p.2 ≤ b.stop := by
  obtain ⟨b, hb, htag, hoffset⟩ := mem_liveOf.mp (h.2.mem_iff.mp hp)
  have hwf := h.1.wellFormed b hb
  have hstop := h.1.stop_le hb
  have hmod := hwf.start_mod
  obtain ⟨hpos, hrequest⟩ := hwf.request p.2 htag
  have hpay : p.1 + p.2 ≤ b.stop := by simp only [Block.stop]; omega
  refine ⟨hpos, by omega, ?_, hpay.trans hstop, b, hb, hoffset.symm, hpay⟩
  simp only [headerSize, headerAlign] at hoffset hmod ⊢
  omega

/-- An allocation together with its header does not meet another one. -/
def Apart (p q : ℕ × ℕ) : Prop := p.1 + p.2 ≤ q.1 - headerSize ∨ q.1 + q.2 ≤ p.1 - headerSize

/-- Any two allocations are apart. -/
lemma Laid.pairwise_live (h : Laid s bs) : s.live.Pairwise Apart := by
  have hsymm : ∀ {p q : ℕ × ℕ}, Apart p q → Apart q p := fun hpq => Or.symm hpq
  rw [h.2.pairwise_iff hsymm, liveOf, List.pairwise_filterMap]
  refine h.1.tiles.pairwise.imp_of_mem fun {a b} ha _ hab p hp q hq => Or.inl ?_
  obtain ⟨n, htag, rfl⟩ := Option.map_eq_some_iff.mp hp
  obtain ⟨m, -, rfl⟩ := Option.map_eq_some_iff.mp hq
  have hrequest := ((h.1.wellFormed a ha).request n htag).2
  simp only [Block.stop, Nat.add_sub_cancel] at hab ⊢
  omega

/-- An operation that writes no payload of the new blocks leaves the contents of the allocations
alone that are held afterwards. -/
lemma Laid.get?_eq {arena₀ : Slice UInt8} (h : Laid s bs)
    (hget : ∀ c ∈ bs, ∀ i, c.start + headerSize ≤ i → i < c.stop →
      s.arena.get? i = arena₀.get? i) {p : ℕ × ℕ} (hp : p ∈ s.live) {i : ℕ} (hi : p.1 ≤ i)
    (hi' : i < p.1 + p.2) : s.arena.get? i = arena₀.get? i := by
  obtain ⟨-, -, -, -, b, hb, hstart, hstop⟩ := h.bounds hp
  exact hget b hb i (by omega) (by omega)

end Invariant

/-! ## The steps keep the invariant -/

section Steps

variable {s : HeapState} {bs : List HeapBlock}

/-- How much of an arena of length `n` is managed. -/
def managedLen (n : ℕ) : ℕ := if n / 8 * 8 < minBlock then 0 else n / 8 * 8

/-- The start of a run. -/
lemma init_laid (arena : Slice UInt8) :
    ∃ list₀ arena₀ bs, FreeList.init arena = .ok (list₀, arena₀) ∧ Laid ⟨list₀, arena₀, []⟩ bs ∧
      arena₀.length = arena.length ∧ list₀.arenaLen = managedLen arena.length := by
  have hlen := arena.length_lt'
  have hmask : arena.length &&& notWord (headerAlign - 1) = arena.length / 8 * 8 :=
    and_notWord_two_pow_sub_one (k := 3) (by norm_num) (by omega)
  by_cases hsmall : arena.length / 8 * 8 < minBlock
  · -- the arena is too small for a heap
    refine ⟨FreeList.empty, arena, [], ?_, ⟨⟨⟨rfl, by simp, List.isChain_nil, trivial, rfl,
      Nat.zero_le _, fun h => absurd rfl h⟩, rfl⟩, List.Perm.refl _⟩, rfl, (if_pos hsmall).symm⟩
    simp only [FreeList.init, hmask]
    rw [if_pos hsmall]
    rfl
  · have hlarge : 24 ≤ arena.length / 8 * 8 := by
      simp only [minBlock, headerSize, minPayload] at hsmall
      omega
    have hin : 0 + 24 ≤ arena.length := by omega
    have hread : readHeader (setHeader arena 0 magicFree (arena.length / 8 * 8) noneOffset) 0 =
        some (magicFree, arena.length / 8 * 8, noneOffset) :=
      readHeader_setHeader_self hin (by simp [magicFree]) (by omega) noneOffset_lt
    refine ⟨{ head := 0
              arenaLen := arena.length / 8 * 8
              freeBlocks := 1
              freeBytes := arena.length / 8 * 8 - headerSize
              largestFree := arena.length / 8 * 8 - headerSize },
      setHeader arena 0 magicFree (arena.length / 8 * 8) noneOffset,
      [⟨0, arena.length / 8 * 8, none⟩], ?_, ⟨⟨⟨?_, fun b hb => ?_, List.isChain_singleton _,
      ⟨hread, trivial⟩, rfl, ?_, fun _ => ?_⟩, ?_⟩, List.Perm.refl _⟩, length_setHeader _ _ _ _ _,
      (if_neg hsmall).symm⟩
    · simp only [FreeList.init, hmask]
      rw [if_neg hsmall, writeHeader_of_le hin]
      rfl
    · simp only [tiles_cons, tiles_nil, Block.stop]
      exact ⟨trivial, by omega, Nat.zero_add _⟩
    · rw [List.mem_singleton.mp hb]
      exact ⟨rfl, Nat.mul_mod_left _ _, hlarge, fun n hn => absurd hn (by simp)⟩
    · rw [length_setHeader]
      exact Nat.div_mul_le_self _ _
    · rw [FreeList.arenaMatches, length_setHeader, hmask]
      exact beq_self_eq_true _
    · have hfrees : frees [⟨0, arena.length / 8 * 8, none⟩] =
        [⟨0, arena.length / 8 * 8, none⟩] := rfl
      simp [FreeList.stats, statsOf, hfrees]

/-- A call of `alloc` in a run. -/
lemma Laid.alloc (h : Laid s bs) (size align : ℕ) :
    s.list.alloc s.arena size align = .ok (none, s.list, s.arena) ∨
    ∃ offset list' arena' bs', s.list.alloc s.arena size align = .ok (some offset, list', arena') ∧
      Laid ⟨list', arena', (offset, size) :: s.live⟩ bs' ∧
      (∀ c ∈ bs, isFree c = false → c ∈ bs') ∧ ValidRequest size align ∧
      offset % align = 0 ∧ list'.arenaLen = s.list.arenaLen ∧
      arena'.length = s.arena.length ∧
      ∀ c ∈ bs', ∀ i, c.start + headerSize ≤ i → i < c.stop → arena'.get? i = s.arena.get? i := by
  rcases alloc_spec h.1 size align with
    ⟨-, -, heq⟩ | ⟨before, b, after, payload, gap, list', arena', hreq, hfound, -, heq, halloc⟩
  · exact Or.inl heq
  refine Or.inr ⟨payload, list', arena', before ++ cut b size payload gap ++ after, heq,
    ⟨halloc.layout, ?_⟩, fun c hc hlive => ?_, hreq, hfound.fit.admissible.1, halloc.arenaLen_eq,
    halloc.length_eq, halloc.get?_eq⟩
  swap
  · -- the block that is cut up is free
    rw [hfound.split] at hc
    rcases List.mem_append.mp hc with hc | hc
    · exact List.mem_append_left _ (List.mem_append_left _ hc)
    · rcases List.mem_cons.mp hc with rfl | hc
      · rw [hfound.free] at hlive
        cases hlive
      · exact List.mem_append_right _ hc
  -- the pieces hold one allocation, and the block cut up held none
  have hcut : liveOf (cut b size payload gap) = [(payload, size)] := by
    have hge : headerSize ≤ payload := by have := hfound.fit.eq_add; omega
    have hfront : liveOf (frontPiece b gap) = [] := by
      unfold frontPiece
      split_ifs <;> rfl
    have htail : liveOf (tailPiece b size payload) = [] := by
      unfold tailPiece
      split_ifs <;> rfl
    rw [cut, liveOf_append, hfront, List.nil_append, ← List.singleton_append, liveOf_append, htail]
    simp [liveOf, allocPiece, Nat.sub_add_cancel hge]
  have hold : liveOf bs = liveOf before ++ liveOf after := by
    have htag : b.tag = none := by simpa [isFree] using hfound.free
    rw [hfound.split, liveOf_append]
    simp [liveOf, htag]
  have hnew : liveOf (before ++ cut b size payload gap ++ after) =
      liveOf before ++ (payload, size) :: liveOf after := by
    rw [liveOf_append, liveOf_append, hcut, List.append_assoc, List.singleton_append]
  rw [hnew]
  refine (List.Perm.cons _ ?_).trans List.perm_middle.symm
  rw [← hold]
  exact h.2

/-- A call of `dealloc` with an allocation that is held. -/
lemma Laid.dealloc (h : Laid s bs) {offset size : ℕ} (hp : (offset, size) ∈ s.live) :
    ∃ list' arena' bs', s.list.dealloc s.arena offset = .ok (.ok (), list', arena') ∧
      Laid ⟨list', arena', s.live.filter fun p => p.1 ≠ offset⟩ bs' ∧
      (∀ c ∈ bs, isFree c = false → c.start + headerSize ≠ offset → c ∈ bs') ∧
      list'.arenaLen = s.list.arenaLen ∧ arena'.length = s.arena.length ∧
      ∀ c ∈ bs', ∀ i, c.start + headerSize ≤ i → i < c.stop → arena'.get? i = s.arena.get? i := by
  obtain ⟨b, hb, htag, hoffset⟩ := mem_liveOf.mp (h.2.mem_iff.mp hp)
  simp only at htag hoffset
  subst hoffset
  obtain ⟨pre, post, rfl⟩ := List.append_of_mem hb
  obtain ⟨pre', left, right, post', list', arena', hn, heq, hreleased⟩ :=
    dealloc_live h.1.toLinked htag
  refine ⟨list', arena', _, heq, ⟨hreleased.layout, ?_⟩, fun c hc hlive hne => ?_,
    hreleased.arenaLen_eq, hreleased.length_eq, hreleased.get?_eq⟩
  swap
  · -- the blocks that are merged are the one released and free ones
    have hneighbour : ∀ o : Option HeapBlock, (∀ q ∈ o, isFree q = true) → c ∉ o.toList := by
      intro o hfree hmem
      rw [hfree c (Option.mem_toList.mp hmem)] at hlive
      cases hlive
    rw [hn.pre_eq, hn.post_eq] at hc
    rcases List.mem_append.mp hc with hc | hc
    · rcases List.mem_append.mp hc with hc | hc
      · exact List.mem_append_left _ (List.mem_append_left _ hc)
      · exact absurd hc (hneighbour left hn.left_free)
    · rcases List.mem_cons.mp hc with rfl | hc
      · exact absurd rfl hne
      · rcases List.mem_append.mp hc with hc | hc
        · exact absurd hc (hneighbour right hn.right_free)
        · exact List.mem_append_right _ hc
  -- the free neighbours hold no allocation
  have hfree : ∀ o : Option HeapBlock, (∀ c ∈ o, isFree c = true) → liveOf o.toList = [] := by
    intro o ho
    cases o with
    | none => rfl
    | some c =>
      have htag : c.tag = none := by simpa [isFree] using ho c rfl
      simp [liveOf, htag]
  have hold : liveOf (pre ++ b :: post) =
      liveOf pre' ++ (b.start + headerSize, size) :: liveOf post' := by
    rw [hn.pre_eq, hn.post_eq, ← List.singleton_append, liveOf_append, liveOf_append, liveOf_append,
      liveOf_append, hfree left hn.left_free, hfree right hn.right_free]
    simp [liveOf, htag]
  have hnew : liveOf (pre' ++ [merged b left right] ++ post') = liveOf pre' ++ liveOf post' := by
    rw [liveOf_append, liveOf_append]
    simp [liveOf, merged]
  -- no other allocation has this offset
  have hne : ∀ p ∈ liveOf pre' ++ liveOf post', p.1 ≠ b.start + headerSize := by
    have hapart := (h.2.pairwise_iff (fun hpq => Or.symm hpq)).mp h.pairwise_live
    rw [hold, List.pairwise_middle (fun hpq => Or.symm hpq), List.pairwise_cons] at hapart
    intro p hmem heq
    have hpos := h.bounds hp
    have hpos' : 0 < p.2 := by
      refine (h.bounds (p := p) (h.2.mem_iff.mpr ?_)).1
      rw [hold]
      simp only [List.mem_append, List.mem_cons] at hmem ⊢
      tauto
    rcases hapart.1 p hmem with hle | hle <;> simp only [headerSize] at hle heq hpos <;> omega
  rw [hnew]
  refine (h.2.filter _).trans ?_
  rw [hold, List.filter_append, List.filter_cons_of_neg (by simp), ← List.filter_append,
    List.filter_eq_self.mpr fun p hp => by simpa using hne p hp]

/-- A write of a client into an allocation that is held. -/
lemma Laid.write (h : Laid s bs) {offset : ℕ} {bytes : List UInt8} (hown : s.Owns offset bytes) :
    ∃ arena', s.arena.write offset bytes = .ok arena' ∧ Laid ⟨s.list, arena', s.live⟩ bs := by
  obtain ⟨p, hp, hle, hle'⟩ := hown
  obtain ⟨-, hheader, -, hlen, b, hb, hstart, hstop⟩ := h.bounds hp
  have hin : offset + bytes.length ≤ s.arena.length := by
    have := h.1.arenaLen_le
    omega
  refine ⟨s.arena.overwrite offset bytes, Slice.write_of_le hin, ⟨⟨h.1.tiles, h.1.wellFormed,
    h.1.separated, h.1.headers.congr fun c hc => ?_, h.1.head_eq, ?_, fun hne => ?_⟩, h.1.stats_eq⟩,
    h.2⟩
  · -- the payload of a block meets no header
    refine readHeader_congr (Slice.length_overwrite _ _ _) fun i hi hi' => ?_
    refine Slice.get?_overwrite_of_notMem _ ?_
    by_contra hcon
    rw [not_or, not_lt, not_le] at hcon
    have hc24 : 24 ≤ c.size := (h.1.wellFormed c hc).header_le
    have hcontains : c.Contains i := by simp only [Block.Contains, Block.stop]; omega
    simp only [headerSize] at hstart
    have hcb : c = b := h.1.tiles.eq_of_contains hc hb hcontains ⟨by omega, by omega⟩
    subst hcb
    omega
  · rw [Slice.length_overwrite]
    exact h.1.arenaLen_le
  · rw [FreeList.arenaMatches, Slice.length_overwrite, ← FreeList.arenaMatches]
    exact h.1.arenaMatches hne

/-- Every step a client may take is possible and keeps the layout. -/
lemma Laid.step (h : Laid s bs) {op : HeapOp} (hop : s.Allowed op) :
    ∃ s' bs', s.step op = .ok s' ∧ Laid s' bs' := by
  cases op with
  | alloc size align =>
    rcases h.alloc size align with heq | ⟨offset, list', arena', bs', heq, hlaid, -⟩
    · exact ⟨s, bs, by rw [HeapState.step, heq]; rfl, h⟩
    · exact ⟨_, bs', by rw [HeapState.step, heq]; rfl, hlaid⟩
  | dealloc offset =>
    obtain ⟨size, hp⟩ := hop
    obtain ⟨list', arena', bs', heq, hlaid, -⟩ := h.dealloc hp
    exact ⟨_, bs', by rw [HeapState.step, heq]; rfl, hlaid⟩
  | write offset bytes =>
    obtain ⟨arena', heq, hlaid⟩ := h.write hop
    exact ⟨_, bs, by rw [HeapState.step, heq]; rfl, hlaid⟩

/-- Every state of a run has a layout, if the steps keep it. -/
lemma Laid.of_run {may : HeapState → HeapOp → Prop} {s' : HeapState} (h : Laid s bs)
    (hmay : ∀ {s bs op}, Laid s bs → may s op → ∃ s' bs', s.step op = .ok s' ∧ Laid s' bs')
    (hrun : Relation.ReflTransGen (HeapState.StepBy may) s s') : ∃ bs', Laid s' bs' := by
  induction hrun with
  | refl => exact ⟨bs, h⟩
  | tail _ hstep ih =>
    obtain ⟨bs', h'⟩ := ih
    obtain ⟨op, hop, heq⟩ := hstep
    obtain ⟨s'', bs'', heq', hlaid⟩ := hmay h' hop
    rw [heq, Except.ok.injEq] at heq'
    exact ⟨bs'', heq' ▸ hlaid⟩

end Steps

/-! ## What the clients see -/

section Clients

variable {s : HeapState} {bs : List HeapBlock} {list' : FreeList} {arena' : Slice UInt8}
  {size align offset i : ℕ} {p : ℕ × ℕ}

/-- Where a new allocation lies. -/
lemma Laid.place (h : Laid s bs)
    (heq : s.list.alloc s.arena size align = .ok (some offset, list', arena')) :
    ValidRequest size align ∧ offset % align = 0 ∧ offset % 8 = 0 ∧ 24 ≤ offset ∧
      offset + size ≤ s.list.arenaLen ∧ ∀ p ∈ s.live, Apart (offset, size) p := by
  rcases h.alloc size align with
    heq' | ⟨offset', list'', arena'', bs', heq', hlaid, -, hreq, hmod, hlen, -⟩
  · rw [heq] at heq'
    simp at heq'
  · rw [heq] at heq'
    simp only [Except.ok.injEq, Prod.mk.injEq, Option.some.injEq] at heq'
    obtain ⟨rfl, rfl, rfl⟩ := heq'
    obtain ⟨-, hheader, hmod', hstop, -⟩ := hlaid.bounds (p := (offset, size)) (by simp)
    exact ⟨hreq, hmod, hmod', hheader, hlen ▸ hstop, (List.pairwise_cons.mp hlaid.pairwise_live).1⟩

/-- `alloc` does not change what is held. -/
lemma Laid.get?_alloc (h : Laid s bs) {result : Option ℕ}
    (heq : s.list.alloc s.arena size align = .ok (result, list', arena')) (hp : p ∈ s.live)
    (hi : p.1 ≤ i) (hi' : i < p.1 + p.2) : arena'.get? i = s.arena.get? i := by
  rcases h.alloc size align with
    heq' | ⟨offset, list'', arena'', bs', heq', hlaid, -, -, -, -, -, hget⟩
  · rw [heq] at heq'
    simp only [Except.ok.injEq, Prod.mk.injEq] at heq'
    rw [heq'.2.2]
  · rw [heq] at heq'
    simp only [Except.ok.injEq, Prod.mk.injEq] at heq'
    obtain ⟨-, -, rfl⟩ := heq'
    exact hlaid.get?_eq hget (List.mem_cons_of_mem _ hp) hi hi'

/-- `dealloc` does not change what is held afterwards. -/
lemma Laid.get?_dealloc (h : Laid s bs) (hheld : ∃ size, (offset, size) ∈ s.live)
    {result : Except FreeListError Unit}
    (heq : s.list.dealloc s.arena offset = .ok (result, list', arena')) (hp : p ∈ s.live)
    (hne : p.1 ≠ offset) (hi : p.1 ≤ i) (hi' : i < p.1 + p.2) :
    arena'.get? i = s.arena.get? i := by
  obtain ⟨size, hmem⟩ := hheld
  obtain ⟨list'', arena'', bs', heq', hlaid, -, -, -, hget⟩ := h.dealloc hmem
  rw [heq] at heq'
  simp only [Except.ok.injEq, Prod.mk.injEq] at heq'
  obtain ⟨-, -, rfl⟩ := heq'
  exact hlaid.get?_eq hget (List.mem_filter.mpr ⟨hp, by simpa using hne⟩) hi hi'

/-- A call of `dealloc` that fails does not change anything. -/
lemma Laid.dealloc_error (h : Laid s bs) {e : FreeListError}
    (heq : s.list.dealloc s.arena offset = .ok (.error e, list', arena')) :
    list' = s.list ∧ arena' = s.arena := by
  by_cases hp : Credible s.list s.arena bs offset
  · exact absurd heq (dealloc_of_credible h.1.toLinked hp e list' arena')
  · obtain ⟨e', heq'⟩ := dealloc_of_not_credible h.1.toLinked hp
    rw [heq] at heq'
    simp only [Except.ok.injEq, Prod.mk.injEq] at heq'
    exact heq'.2

/-- The pointer of the global allocator is as aligned as the offset, up to the alignment of the
arena. -/
lemma Laid.pointer (h : Laid s bs) {base pointer : ℕ} {heap' : KernelHeap}
    (hbase : base % maxAlign = 0)
    (heq : KernelHeap.alloc ⟨s.list, base, s.arena.length⟩ s.arena size align =
      .ok (pointer, heap', arena')) (hpointer : pointer ≠ 0) :
    pointer % align = 0 ∧ base ≤ pointer ∧ pointer + size ≤ base + s.arena.length := by
  unfold KernelHeap.alloc at heq
  split_ifs at heq with hinit
  · simp only [Checked.pure_eq_ok, Except.ok.injEq, Prod.mk.injEq] at heq
    exact absurd heq.1.symm hpointer
  · obtain ⟨⟨result, list'', arena''⟩, halloc, heq⟩ := Checked.bind_eq_ok.mp heq
    cases result with
    | none =>
      simp only [Checked.pure_eq_ok, Except.ok.injEq, Prod.mk.injEq] at heq
      exact absurd heq.1.symm hpointer
    | some offset =>
      obtain ⟨pointer', hadd, heq⟩ := Checked.bind_eq_ok.mp heq
      simp only [Checked.pure_eq_ok, Except.ok.injEq, Prod.mk.injEq] at heq
      obtain ⟨rfl, -, -⟩ := heq
      obtain ⟨-, rfl⟩ := addWord_eq_ok_iff.mp hadd
      obtain ⟨hreq, hmod, -, -, hstop, -⟩ := h.place halloc
      have hlen := h.1.arenaLen_le
      -- every alignment supported divides that of the arena
      have hdvd : align ∣ maxAlign := by
        obtain ⟨k, -, hk⟩ := isPowerOfTwo_iff.mp hreq.isPowerOfTwo
        have hle := hreq.le_maxAlign
        have hmax : maxAlign = 2 ^ 12 := rfl
        rw [hk, hmax] at hle ⊢
        exact pow_dvd_pow 2 ((Nat.pow_le_pow_iff_right (by norm_num)).mp hle)
      refine ⟨?_, Nat.le_add_right _ _, show base + offset + size ≤ base + s.arena.length by omega⟩
      exact Nat.mod_eq_zero_of_dvd (Nat.dvd_add (hdvd.trans (Nat.dvd_of_mod_eq_zero hbase))
        (Nat.dvd_of_mod_eq_zero hmod))

end Clients

/-! ## Main results -/

/-- The representation invariant: in every state of a run, from an arena of any length and contents,
the heap is in order; all further steps are possible, the walk of `alloc` meets neither its bound on
the rounds nor a damaged header, and a release of what is held succeeds. -/
theorem heap_run_invariant (arena : Slice UInt8) :
    ∃ list₀ arena₀, FreeList.init arena = .ok (list₀, arena₀) ∧
      ∀ s, Relation.ReflTransGen (HeapState.StepBy HeapState.Allowed) ⟨list₀, arena₀, []⟩ s →
        (∃ free, HeapInvariant s free) ∧
        (∀ op, s.Allowed op → ∃ s', s.step op = .ok s') ∧
        (∀ size align, ∃ result, s.list.plan s.arena size align = .ok result ∧
          result ≠ .error .guard ∧ result ≠ .error .corrupted) ∧
        ∀ p ∈ s.live, ∃ list arena, s.list.dealloc s.arena p.1 = .ok (.ok (), list, arena) := by
  obtain ⟨list₀, arena₀, bs, hinit, hlaid, -⟩ := init_laid arena
  refine ⟨list₀, arena₀, hinit, fun s hrun => ?_⟩
  obtain ⟨bs', h⟩ := hlaid.of_run (fun h hop => h.step hop) hrun
  refine ⟨⟨_, h.invariant⟩, fun op hop => ?_, fun size align => ?_, fun p hp => ?_⟩
  · obtain ⟨s', -, heq, -⟩ := h.step hop
    exact ⟨s', heq⟩
  · exact plan_spec h.1 size align
  · obtain ⟨list', arena', -, heq, -⟩ := h.dealloc hp
    exact ⟨list', arena', heq⟩

/-- The guarantee for the clients: an allocation is aligned as requested, lies in the arena and
meets neither the payload nor the header of another one; no call of `alloc` or `dealloc` changes the
contents of an allocation that is held before and after it; and the pointer that the global
allocator makes of the offset is aligned when the arena is aligned to a page. -/
theorem heap_run_guarantee (arena : Slice UInt8) :
    ∃ list₀ arena₀, FreeList.init arena = .ok (list₀, arena₀) ∧
      ∀ s, Relation.ReflTransGen (HeapState.StepBy HeapState.Allowed) ⟨list₀, arena₀, []⟩ s →
        (∀ size align offset list' arena',
          s.list.alloc s.arena size align = .ok (some offset, list', arena') →
          offset % align = 0 ∧ offset % 8 = 0 ∧ 24 ≤ offset ∧ offset + size ≤ s.list.arenaLen ∧
          ∀ p ∈ s.live, offset + size ≤ p.1 - 24 ∨ p.1 + p.2 ≤ offset - 24) ∧
        (∀ size align result list' arena',
          s.list.alloc s.arena size align = .ok (result, list', arena') →
          ∀ p ∈ s.live, ∀ i, p.1 ≤ i → i < p.1 + p.2 → arena'.get? i = s.arena.get? i) ∧
        (∀ offset result list' arena', (∃ size, (offset, size) ∈ s.live) →
          s.list.dealloc s.arena offset = .ok (result, list', arena') →
          ∀ p ∈ s.live, p.1 ≠ offset → ∀ i, p.1 ≤ i → i < p.1 + p.2 →
            arena'.get? i = s.arena.get? i) ∧
        (∀ offset e list' arena',
          s.list.dealloc s.arena offset = .ok (.error e, list', arena') → arena' = s.arena) ∧
        ∀ base size align pointer heap' arena', base % 4096 = 0 →
          KernelHeap.alloc ⟨s.list, base, s.arena.length⟩ s.arena size align =
            .ok (pointer, heap', arena') →
          pointer ≠ 0 → pointer % align = 0 ∧ base ≤ pointer ∧
            pointer + size ≤ base + s.arena.length := by
  obtain ⟨list₀, arena₀, bs₀, hinit, hlaid, -⟩ := init_laid arena
  refine ⟨list₀, arena₀, hinit, fun s hrun => ?_⟩
  obtain ⟨bs, h⟩ := hlaid.of_run (fun h hop => h.step hop) hrun
  refine ⟨?_, ?_, ?_, ?_, ?_⟩
  · exact fun size align offset list' arena' heq => (h.place heq).2
  · exact fun size align result list' arena' heq p hp i hi hi' => h.get?_alloc heq hp hi hi'
  · exact fun offset result list' arena' hheld heq p hp hne i hi hi' =>
      h.get?_dealloc hheld heq hp hne hi hi'
  · exact fun offset e list' arena' heq => (h.dealloc_error heq).2
  · exact fun base size align pointer heap' arena' hbase heq hne => h.pointer hbase heq hne

/-! ## Releasing what is not held -/

namespace HeapState

/-- The bytes in front of `offset` look like the header of an allocated block that ends in the arena
and meets no block of the free list. -/
def LooksAllocated (s : HeapState) (offset : ℕ) : Prop :=
  ∃ blockSize free, HeaderTests s.list s.arena offset blockSize ∧
    FreeChain s.arena s.list.head free ∧
    ∀ b ∈ free, ¬ Meets (offset - headerSize) (offset - headerSize + blockSize) b

/-- What a client may do that does not care about offsets: as `Allowed`, but with a release of any
offset. -/
def Reckless (s : HeapState) : HeapOp → Prop
  | .alloc _ _ => True
  | .dealloc _ => True
  | .write offset bytes => s.Owns offset bytes

/-- A step of a client that releases what it holds, or what does not look like an allocation. -/
def Noticed (s : HeapState) : HeapOp → Prop
  | .alloc _ _ => True
  | .dealloc offset => (∃ size, (offset, size) ∈ s.live) ∨ ¬ s.LooksAllocated offset
  | .write offset bytes => s.Owns offset bytes

end HeapState

section Foreign

variable {s : HeapState} {bs : List HeapBlock} {offset : ℕ}

/-- The free list of a layout is the list of its free blocks. -/
lemma Laid.looksAllocated_iff (h : Laid s bs) :
    s.LooksAllocated offset ↔ Credible s.list s.arena bs offset := by
  have hchain := h.invariant.chain
  constructor
  · rintro ⟨blockSize, free, htests, hfree, hno⟩
    obtain rfl := hfree.unique hchain
    exact ⟨blockSize, htests, fun b hb hb' => hno b (mem_frees.mpr ⟨hb, hb'⟩)⟩
  · rintro ⟨blockSize, htests, hno⟩
    refine ⟨blockSize, frees bs, htests, hchain, fun b hb => ?_⟩
    obtain ⟨hmem, hfree⟩ := mem_frees.mp hb
    exact hno b hmem hfree

/-- An offset is refused exactly if it does not look like an allocation. -/
lemma Laid.dealloc_refused_iff (h : Laid s bs) :
    (∃ e, s.list.dealloc s.arena offset = .ok (.error e, s.list, s.arena)) ↔
      ¬ s.LooksAllocated offset := by
  rw [h.looksAllocated_iff]
  constructor
  · rintro ⟨e, heq⟩ hp
    exact dealloc_of_credible h.1.toLinked hp e _ _ heq
  · exact dealloc_of_not_credible h.1.toLinked

/-- Steps whose releases are noticed keep the layout. -/
lemma Laid.step_noticed (h : Laid s bs) {op : HeapOp} (hop : s.Noticed op) :
    ∃ s' bs', s.step op = .ok s' ∧ Laid s' bs' := by
  cases op with
  | alloc size align => exact h.step (show s.Allowed (.alloc size align) from trivial)
  | write offset bytes => exact h.step (show s.Allowed (.write offset bytes) from hop)
  | dealloc offset =>
    rcases hop with hheld | hlooks
    · exact h.step (show s.Allowed (.dealloc offset) from hheld)
    · obtain ⟨e, heq⟩ := h.dealloc_refused_iff.mpr hlooks
      exact ⟨s, bs, by rw [HeapState.step, heq]; rfl, h⟩

end Foreign

/-- Runs whose releases are of what is held or of what does not look like an allocation: in every
state reached, an offset that is not held is refused, without any effect, exactly if it does not
look like an allocation. -/
theorem dealloc_refuses_iff_not_looksAllocated (arena : Slice UInt8) :
    ∃ list₀ arena₀, FreeList.init arena = .ok (list₀, arena₀) ∧
      ∀ s, Relation.ReflTransGen (HeapState.StepBy HeapState.Noticed) ⟨list₀, arena₀, []⟩ s →
        ∀ offset, (∀ size, (offset, size) ∉ s.live) →
          ((∃ e, s.list.dealloc s.arena offset = .ok (.error e, s.list, s.arena)) ↔
            ¬ s.LooksAllocated offset) := by
  obtain ⟨list₀, arena₀, bs₀, hinit, hlaid, -⟩ := init_laid arena
  refine ⟨list₀, arena₀, hinit, fun s hrun offset _ => ?_⟩
  obtain ⟨bs, h⟩ := hlaid.of_run (fun h hop => h.step_noticed hop) hrun
  exact h.dealloc_refused_iff

/-- An arena of zeros. -/
def zeroArena (n : ℕ) (h : n < 2 ^ 63) : Slice UInt8 := ⟨List.replicate n 0, by simpa using h⟩

namespace HeapState

/-- The operations one after another. -/
def run (s : HeapState) : List HeapOp → Checked HeapState
  | [] => return s
  | op :: ops => do run (← s.step op) ops

/-- Whether the operation is a call of the heap. -/
def isCall : HeapOp → Bool
  | .write _ _ => false
  | _ => true

/-- Calls of the heap are steps of a reckless client. -/
lemma reaches_of_run {s s' : HeapState} {ops : List HeapOp} (hcalls : ops.all isCall = true)
    (h : s.run ops = .ok s') : Relation.ReflTransGen (StepBy Reckless) s s' := by
  induction ops generalizing s with
  | nil =>
    obtain rfl : s = s' := by simpa [run] using h
    exact Relation.ReflTransGen.refl
  | cons op ops ih =>
    rw [List.all_cons, Bool.and_eq_true] at hcalls
    obtain ⟨s₁, hstep, hrun⟩ := Checked.bind_eq_ok.mp h
    refine Relation.ReflTransGen.head ⟨op, ?_, hstep⟩ (ih hcalls.2 hrun)
    cases op with
    | alloc size align => trivial
    | dealloc offset => trivial
    | write offset bytes => exact absurd hcalls.1 (by simp [isCall])

end HeapState

/-- Two adjacent blocks are allocated, released (which merges them into one block) and handed out
again as one: the header of the second is still there, and its offset is accepted. -/
theorem dealloc_accepts_stale_offset :
    ∃ list₀ arena₀, FreeList.init (zeroArena 256 (by decide)) = .ok (list₀, arena₀) ∧
      ∃ s, Relation.ReflTransGen (HeapState.StepBy HeapState.Reckless) ⟨list₀, arena₀, []⟩ s ∧
        s.live = [(24, 200)] ∧
        ∃ list' arena', s.list.dealloc s.arena 88 = .ok (.ok (), list', arena') := by
  have hrun : Checked.okAnd (FreeList.init (zeroArena 256 (by decide))) (fun r =>
      Checked.okAnd (HeapState.run ⟨r.1, r.2, []⟩ [.alloc 40 8, .alloc 40 8, .dealloc 24,
        .dealloc 88, .alloc 200 8]) fun s => decide (s.live = [(24, 200)]) &&
          Checked.okAnd (s.list.dealloc s.arena 88) fun r => r.1.toBool) = true := by
    decide +kernel
  obtain ⟨⟨list₀, arena₀⟩, hinit, hrun⟩ := Checked.okAnd_eq_true_iff.mp hrun
  obtain ⟨s, hs, hstate⟩ := Checked.okAnd_eq_true_iff.mp hrun
  rw [Bool.and_eq_true, decide_eq_true_eq] at hstate
  obtain ⟨⟨result, list', arena'⟩, hdealloc, hok⟩ := Checked.okAnd_eq_true_iff.mp hstate.2
  refine ⟨list₀, arena₀, hinit, s, HeapState.reaches_of_run rfl hs, hstate.1, list', arena', ?_⟩
  cases result with
  | error e => exact absurd hok (by simp [Except.toBool])
  | ok u => exact hdealloc

end Heap

end ParanukOS
