import ParanukOS.KernelMemory.Heap.Run

/-!
# The heap does not remember its history

The free list consists of the gaps between the allocated blocks, and of nothing else: splitting,
absorption of short tails and merging always leave the largest possible free blocks.  So it depends
only on the blocks that are allocated, and not on the order of the calls that have led to them, nor
on what the arena contained before.

## Outline

* `HeapState.liveBlocks`, `mem_liveBlocks`: the allocated blocks.
* `Laid.frees_eq`, `Laid.list_eq`: two heaps with the same allocated blocks.
* `Laid.alloc_dealloc`: an allocation that is released at once.
* `Laid.releaseAll`: all allocations are released.
* `heap_history_independent`: the main theorem.
-/

namespace ParanukOS

open Foundation

namespace Heap

variable {s s' s₁ s₂ : HeapState} {bs bs' bs₁ bs₂ : List HeapBlock}

/-! ## Allocated blocks -/

/-- The start and the recorded size of the allocated blocks. -/
def HeapState.liveBlocks (s : HeapState) : Finset (ℕ × ℕ) :=
  (s.live.map fun p => (p.1 - headerSize, recordedSize s.arena p.1)).toFinset

/-- The marked blocks of a layout are the allocated ones. -/
lemma mem_liveBlocks (h : Laid s bs) {start size : ℕ} :
    (start, size) ∈ s.liveBlocks ↔ MarkedAt Option.isSome bs start size := by
  have hperm : (s.live.map (liveBlock s.arena)).Perm (bs.filter fun b => !isFree b) := by
    rw [← map_liveBlock h.1.headers]
    exact h.2.map _
  have hplace : s.liveBlocks =
      ((s.live.map (liveBlock s.arena)).map fun b => (b.start, b.size)).toFinset := by
    rw [List.map_map]
    rfl
  rw [hplace, List.mem_toFinset, (hperm.map _).mem_iff, List.mem_map]
  constructor
  · rintro ⟨b, hb, heq⟩
    obtain ⟨hmem, hlive⟩ := List.mem_filter.mp hb
    obtain ⟨rfl, rfl⟩ := Prod.mk.inj heq
    exact ⟨b, hmem, by simpa [isFree] using hlive, rfl, rfl⟩
  · rintro ⟨b, hb, hmarked, rfl, rfl⟩
    exact ⟨b, List.mem_filter.mpr ⟨hb, by simpa [isFree] using hmarked⟩, rfl⟩

lemma Laid.filled (h : Laid s bs) : Filled Option.isSome bs := by
  refine h.1.separated.imp fun a b hab => ?_
  by_contra hcon
  simp only [not_or, Bool.not_eq_true, Option.isSome_eq_false_iff] at hcon
  exact hab hcon

/-! ## Equal free lists -/

/-- Blocks at the same places have the same free blocks among them. -/
lemma frees_eq_of_samePlace (h : List.Forall₂ (SamePlace Option.isSome) bs₁ bs₂) :
    frees bs₁ = frees bs₂ := by
  induction h with
  | nil => rfl
  | @cons a b as bs hab _ ih =>
    obtain ⟨astart, asize, atag⟩ := a
    obtain ⟨bstart, bsize, btag⟩ := b
    obtain ⟨hstart, hsize, htag⟩ := hab
    simp only at hstart hsize htag
    subst hstart hsize
    cases atag with
    | none =>
      cases btag with
      | none => rw [frees_cons_of_free rfl, frees_cons_of_free rfl, ih]
      | some n => cases htag
    | some m =>
      cases btag with
      | none => cases htag
      | some n => rw [frees_cons_of_live rfl, frees_cons_of_live rfl, ih]

namespace Laid

lemma frees_eq (h₁ : Laid s₁ bs₁) (h₂ : Laid s₂ bs₂) (hlen : s₁.list.arenaLen = s₂.list.arenaLen)
    (hlive : s₁.liveBlocks = s₂.liveBlocks) : frees bs₁ = frees bs₂ := by
  refine frees_eq_of_samePlace (h₁.1.tiles.samePlaces ?_ h₁.filled h₂.filled fun start size => ?_)
  · rw [hlen]
    exact h₂.1.tiles
  · rw [← mem_liveBlocks h₁, ← mem_liveBlocks h₂, hlive]

/-- Two heaps with the same allocated blocks have the same free list. -/
lemma list_eq (h₁ : Laid s₁ bs₁) (h₂ : Laid s₂ bs₂) (hlen : s₁.list.arenaLen = s₂.list.arenaLen)
    (hlive : s₁.liveBlocks = s₂.liveBlocks) : s₁.list = s₂.list ∧
      ∃ free, FreeChain s₁.arena s₁.list.head free ∧ FreeChain s₂.arena s₂.list.head free := by
  have hfrees := h₁.frees_eq h₂ hlen hlive
  have hhead : s₁.list.head = s₂.list.head := by
    rw [h₁.1.head_eq, h₂.1.head_eq, firstFree_eq_headD, firstFree_eq_headD, hfrees]
  have hstats : s₁.list.stats = s₂.list.stats := by
    rw [h₁.1.stats_eq, h₂.1.stats_eq, statsOf, statsOf, hfrees]
  refine ⟨?_, frees bs₁, h₁.invariant.chain, ?_⟩
  · obtain ⟨list₁, arena₁, live₁⟩ := s₁
    obtain ⟨list₂, arena₂, live₂⟩ := s₂
    cases list₁
    cases list₂
    simp only [FreeList.stats, HeapStats.mk.injEq] at hhead hlen hstats ⊢
    simp only [hhead, hlen, hstats]
  · rw [hfrees]
    exact h₂.invariant.chain

/-! ## Steps -/

/-- The managed part of the arena stays the same. -/
lemma arenaLen_step (h : Laid s bs) {op : HeapOp} (hop : s.Allowed op) (heq : s.step op = .ok s') :
    s'.list.arenaLen = s.list.arenaLen := by
  cases op with
  | alloc size align =>
    rcases h.alloc size align with heq' | ⟨offset, list', arena', bs', heq', -, -, -, -, hlen, -⟩
    · rw [HeapState.step, heq'] at heq
      obtain rfl := Except.ok.inj heq
      rfl
    · rw [HeapState.step, heq'] at heq
      obtain rfl := Except.ok.inj heq
      exact hlen
  | dealloc offset =>
    obtain ⟨size, hp⟩ := hop
    obtain ⟨list', arena', bs', heq', -, -, hlen, -⟩ := h.dealloc hp
    rw [HeapState.step, heq'] at heq
    obtain rfl := Except.ok.inj heq
    exact hlen
  | write offset bytes =>
    obtain ⟨arena', heq', -⟩ := h.write hop
    rw [HeapState.step, heq'] at heq
    obtain rfl := Except.ok.inj heq
    rfl

lemma arenaLen_run (h : Laid s bs)
    (hrun : Relation.ReflTransGen (HeapState.StepBy HeapState.Allowed) s s') :
    ∃ bs', Laid s' bs' ∧ s'.list.arenaLen = s.list.arenaLen := by
  induction hrun with
  | refl => exact ⟨bs, h, rfl⟩
  | tail _ hstep ih =>
    obtain ⟨bs', h', hlen⟩ := ih
    obtain ⟨op, hop, heq⟩ := hstep
    obtain ⟨s'', bs'', heq', hlaid⟩ := h'.step hop
    rw [heq] at heq'
    obtain rfl := Except.ok.inj heq'
    exact ⟨bs'', hlaid, (h'.arenaLen_step hop heq).trans hlen⟩

/-- A block that two layouts share is recorded with the same size. -/
lemma recordedSize_eq (h₁ : Laid s₁ bs₁) (h₂ : Laid s₂ bs₂) {p : ℕ × ℕ} (hp : p ∈ s₁.live)
    (hkept : ∀ c ∈ bs₁, isFree c = false → c.start + headerSize = p.1 → c ∈ bs₂) :
    recordedSize s₁.arena p.1 = recordedSize s₂.arena p.1 := by
  obtain ⟨b, hb, htag, hoffset⟩ := mem_liveOf.mp (h₁.2.mem_iff.mp hp)
  have hlive : isFree b = false := by simp [isFree, htag]
  have hb₂ := hkept b hb hlive hoffset.symm
  have hblock : ∀ {t : HeapState} {cs : List HeapBlock}, Laid t cs → b ∈ cs →
      recordedSize t.arena p.1 = b.size := by
    intro t cs ht hmem
    obtain ⟨pre, post, rfl⟩ := List.append_of_mem hmem
    have hread := liveBlock_eq htag (Headers.of_split ht.1.headers)
    rw [hoffset]
    exact congrArg Block.size hread
  rw [hblock h₁ hb, hblock h₂ hb₂]

/-- No two allocations have the same offset. -/
lemma nodup_offsets (h : Laid s bs) : (s.live.map Prod.fst).Nodup := by
  refine List.pairwise_map.mpr (h.pairwise_live.imp_of_mem fun {p q} hp hq hapart hcon => ?_)
  have hp' := h.bounds hp
  have hq' := h.bounds hq
  simp only [Apart, headerSize] at hapart hp' hq'
  omega

/-- After an allocation and its release, the same blocks are allocated as before. -/
lemma alloc_dealloc (h : Laid s bs) {size align offset : ℕ} {list' : FreeList}
    {arena' : Slice UInt8} (heq : s.list.alloc s.arena size align =
    .ok (some offset, list', arena')) :
    ∃ list'' arena'' bs'', list'.dealloc arena' offset = .ok (.ok (), list'', arena'') ∧
      Laid ⟨list'', arena'', s.live⟩ bs'' ∧ list''.arenaLen = s.list.arenaLen ∧
      HeapState.liveBlocks ⟨list'', arena'', s.live⟩ = s.liveBlocks := by
  rcases h.alloc size align with
    heq' | ⟨offset', list₁, arena₁, bs', heq', h', hkept', -, -, hlen', -⟩
  · rw [heq] at heq'
    cases heq'
  rw [heq] at heq'
  simp only [Except.ok.injEq, Prod.mk.injEq, Option.some.injEq] at heq'
  obtain ⟨rfl, rfl, rfl⟩ := heq'
  obtain ⟨list'', arena'', bs'', hdealloc, h'', hkept'', hlen'', -⟩ :=
    h'.dealloc (show (offset, size) ∈ (offset, size) :: s.live from List.mem_cons_self)
  have hne : ∀ p ∈ s.live, p.1 ≠ offset := by
    have hnodup := h'.nodup_offsets
    rw [List.map_cons, List.nodup_cons] at hnodup
    exact fun p hp hcon => hnodup.1 (List.mem_map.mpr ⟨p, hp, hcon⟩)
  have hlive : ((offset, size) :: s.live).filter (fun p => p.1 ≠ offset) = s.live := by
    rw [List.filter_cons_of_neg (by simp), List.filter_eq_self]
    exact fun p hp => by simpa using hne p hp
  rw [hlive] at h''
  refine ⟨list'', arena'', bs'', hdealloc, h'', hlen''.trans hlen', ?_⟩
  refine congrArg List.toFinset (List.map_congr_left fun p hp => ?_)
  have hsize := h.recordedSize_eq h'' hp fun c hc hcfree hcp => by
    refine hkept'' c (hkept' c hc hcfree) hcfree ?_
    rw [hcp]
    exact hne p hp
  rw [hsize]

/-! ## Releasing everything -/

/-- All allocations are released, in any order. -/
lemma releaseAll (h : Laid s bs) {offsets : List ℕ} (hperm : offsets.Perm (s.live.map Prod.fst)) :
    ∃ s' bs', s.run (offsets.map .dealloc) = .ok s' ∧ Laid s' bs' ∧ s'.live = [] ∧
      s'.list.arenaLen = s.list.arenaLen := by
  induction offsets generalizing s bs with
  | nil => exact ⟨s, bs, rfl, h, List.map_eq_nil_iff.mp hperm.nil_eq.symm, rfl⟩
  | cons offset offsets ih =>
    obtain ⟨⟨offset', size⟩, hp, rfl⟩ := List.mem_map.mp (hperm.mem_iff.mp List.mem_cons_self)
    obtain ⟨list', arena', bs', heq, h', -, hlen, -⟩ := h.dealloc hp
    have hrest : offsets.Perm ((s.live.filter fun p => p.1 ≠ offset').map Prod.fst) := by
      have herase := hperm.erase offset'
      rw [List.erase_cons_head, h.nodup_offsets.erase_eq_filter, List.filter_map] at herase
      refine herase.trans (List.Perm.of_eq (congrArg _ (List.filter_congr fun p _ => ?_)))
      simp only [Function.comp_apply, bne, decide_not, Bool.beq_eq_decide_eq]
    obtain ⟨s', bs'', hrun, hlaid, hlive, hlen'⟩ := ih h' hrest
    refine ⟨s', bs'', ?_, hlaid, hlive, hlen'.trans hlen⟩
    rw [List.map_cons, HeapState.run, HeapState.step, heq]
    exact hrun

/-- Without allocations there is one free block, unless the arena is too small for a heap. -/
lemma frees_eq_single (h : Laid s bs) (hlive : s.live = []) (hlen : s.list.arenaLen ≠ 0) :
    frees bs = [⟨0, s.list.arenaLen, none⟩] := by
  have hfree : ∀ b ∈ bs, b.tag = none := by
    intro b hb
    cases htag : b.tag with
    | none => rfl
    | some size =>
      have hmem : (b.start + headerSize, size) ∈ s.live :=
        h.2.mem_iff.mpr (mem_liveOf.mpr ⟨b, hb, htag, rfl⟩)
      rw [hlive] at hmem
      exact absurd hmem List.not_mem_nil
  have htiles := h.1.tiles
  cases bs with
  | nil => exact absurd (Eq.symm htiles) hlen
  | cons b rest =>
    obtain ⟨hstart, -, hrest⟩ := htiles
    have hb := hfree b List.mem_cons_self
    cases rest with
    | cons c rest =>
      have hc := hfree c (List.mem_cons_of_mem _ List.mem_cons_self)
      have hadjacent := (List.isChain_cons.mp h.1.separated).1 c rfl
      exact absurd ⟨by simp [isFree, hb], by simp [isFree, hc]⟩ hadjacent
    | nil =>
      obtain ⟨start, size, tag⟩ := b
      simp only [Block.stop, tiles_nil] at hstart hb hrest
      subst hstart hb
      rw [Nat.zero_add] at hrest
      rw [frees_cons_of_free rfl, hrest]
      rfl

end Laid

/-! ## Runs -/

lemma init_spec {arena arena' : Slice UInt8} {list : FreeList}
    (h : FreeList.init arena = .ok (list, arena')) :
    ∃ bs, Laid ⟨list, arena', []⟩ bs ∧ list.arenaLen = managedLen arena.length := by
  obtain ⟨list₀, arena₀, bs, hinit, hlaid, -, hlen⟩ := init_laid arena
  rw [h] at hinit
  obtain ⟨rfl, rfl⟩ := Prod.mk.inj (Except.ok.inj hinit)
  exact ⟨bs, hlaid, hlen⟩

/-- **The heap does not remember its history.**  Take two arenas of the same length and a run of the
heap on each of them, with arbitrary allocations, releases of what is held, and writes to it.  If
the same blocks are allocated in the end, then both free lists are the same: head, statistics, and
the offsets and sizes of their blocks.  Every release of what is held succeeds; an allocation that
is released at once leaves the free list as it was; and when everything is released, in any order,
then the free list is the one of the beginning, with one block that is the whole arena. -/
theorem heap_history_independent (arena₁ arena₂ : Slice UInt8)
    (hlength : arena₁.length = arena₂.length) (list₁ list₂ : FreeList)
    (arena₁' arena₂' : Slice UInt8)
    (hinit₁ : FreeList.init arena₁ = .ok (list₁, arena₁'))
    (hinit₂ : FreeList.init arena₂ = .ok (list₂, arena₂')) (s₁ s₂ : HeapState)
    (hrun₁ : Relation.ReflTransGen (HeapState.StepBy HeapState.Allowed) ⟨list₁, arena₁', []⟩ s₁)
    (hrun₂ : Relation.ReflTransGen (HeapState.StepBy HeapState.Allowed) ⟨list₂, arena₂', []⟩ s₂) :
    (s₁.liveBlocks = s₂.liveBlocks → s₁.list = s₂.list ∧ s₁.list.stats = s₂.list.stats ∧
      ∃ free, FreeChain s₁.arena s₁.list.head free ∧ FreeChain s₂.arena s₂.list.head free) ∧
    (∀ p ∈ s₁.live, ∃ list arena, s₁.list.dealloc s₁.arena p.1 = .ok (.ok (), list, arena)) ∧
    (∀ size align offset list arena,
      s₁.list.alloc s₁.arena size align = .ok (some offset, list, arena) →
      ∃ arena', list.dealloc arena offset = .ok (.ok (), s₁.list, arena') ∧
        ∃ free, FreeChain s₁.arena s₁.list.head free ∧ FreeChain arena' s₁.list.head free) ∧
    ∀ offsets : List ℕ, offsets.Perm (s₁.live.map Prod.fst) →
      ∃ s, s₁.run (offsets.map .dealloc) = .ok s ∧ s.live = [] ∧ s.list = list₁ ∧
        (s.list.arenaLen ≠ 0 → FreeChain s.arena 0 [⟨0, s.list.arenaLen, none⟩]) := by
  obtain ⟨bs₁, hlaid₁, hlen₁⟩ := init_spec hinit₁
  obtain ⟨bs₂, hlaid₂, hlen₂⟩ := init_spec hinit₂
  obtain ⟨cs₁, h₁, hlen₁'⟩ := hlaid₁.arenaLen_run hrun₁
  obtain ⟨cs₂, h₂, hlen₂'⟩ := hlaid₂.arenaLen_run hrun₂
  dsimp only at hlen₁' hlen₂'
  refine ⟨fun hlive => ?_, fun p hp => ?_, fun size align offset list arena heq => ?_,
    fun offsets hperm => ?_⟩
  · obtain ⟨hlist, hchain⟩ := h₁.list_eq h₂ (by rw [hlen₁', hlen₂', hlen₁, hlen₂, hlength]) hlive
    exact ⟨hlist, by rw [hlist], hchain⟩
  · obtain ⟨list, arena, -, heq, -⟩ := h₁.dealloc hp
    exact ⟨list, arena, heq⟩
  · obtain ⟨list', arena', bs', hdealloc, h', hlen', hlive⟩ := h₁.alloc_dealloc heq
    obtain ⟨hlist, hchain⟩ := h₁.list_eq h' hlen'.symm hlive.symm
    dsimp only at hlist hchain
    rw [← hlist] at hdealloc hchain
    exact ⟨arena', hdealloc, hchain⟩
  · obtain ⟨s, bs, hrun, h, hlive, hlen⟩ := h₁.releaseAll hperm
    obtain ⟨hlist, -⟩ := h.list_eq hlaid₁ (hlen.trans hlen₁')
      (by rw [HeapState.liveBlocks, hlive]; rfl)
    refine ⟨s, hrun, hlive, hlist, fun hne => ?_⟩
    have hchain := h.invariant.chain
    have hsingle := h.frees_eq_single hlive hne
    rw [hsingle] at hchain
    have hhead : s.list.head = 0 := hchain.1
    rwa [hhead] at hchain

/-- An arena with other contents. -/
def onesArena (n : ℕ) (h : n < 2 ^ 63) : Slice UInt8 := ⟨List.replicate n 0xff, by simpa using h⟩

namespace HeapState

instance (s : HeapState) (op : HeapOp) : Decidable (s.Allowed op) :=
  match op with
  | .alloc _ _ => inferInstanceAs (Decidable True)
  | .dealloc offset => decidable_of_iff (∃ p ∈ s.live, p.1 = offset)
      ⟨fun ⟨p, hp, hoffset⟩ => ⟨p.2, hoffset ▸ hp⟩, fun ⟨_, hp⟩ => ⟨_, hp, rfl⟩⟩
  | .write offset bytes => inferInstanceAs
      (Decidable (∃ p ∈ s.live, p.1 ≤ offset ∧ offset + bytes.length ≤ p.1 + p.2))

/-- Whether the client may make the operations, one after another. -/
def permits (s : HeapState) : List HeapOp → Bool
  | [] => true
  | op :: ops => decide (s.Allowed op) && Checked.okAnd (s.step op) fun s' => s'.permits ops

/-- Operations that a client may make are a run. -/
lemma reaches_of_permits {s s' : HeapState} {ops : List HeapOp} (hpermits : s.permits ops = true)
    (h : s.run ops = .ok s') : Relation.ReflTransGen (StepBy Allowed) s s' := by
  induction ops generalizing s with
  | nil =>
    obtain rfl : s = s' := by simpa [run] using h
    exact .refl
  | cons op ops ih =>
    rw [permits, Bool.and_eq_true, decide_eq_true_eq] at hpermits
    obtain ⟨s₁, hstep, hrest⟩ := Checked.okAnd_eq_true_iff.mp hpermits.2
    rw [run, hstep, Checked.ok_bind] at h
    exact .head ⟨op, hpermits.1, hstep⟩ (ih hrest h)

end HeapState

/-- One history: a block of 40 bytes is allocated before one of 16 bytes, and released. -/
def firstHistory : List HeapOp := [.alloc 40 8, .alloc 16 8, .dealloc 24]

/-- Another history: two blocks of 8 bytes before it, which are released after a write to it. -/
def secondHistory : List HeapOp :=
  [.alloc 8 8, .alloc 8 8, .alloc 16 8, .write 88 [1, 2, 3], .dealloc 56, .dealloc 24]

/-- The allocation at 88 is left. -/
lemma exists_history {arena : Slice UInt8} {ops : List HeapOp}
    (h : Checked.okAnd (FreeList.init arena) (fun r => HeapState.permits ⟨r.1, r.2, []⟩ ops &&
      Checked.okAnd (HeapState.run ⟨r.1, r.2, []⟩ ops) fun s =>
        decide (s.live = [(88, 16)]) && decide (s.liveBlocks = {(64, 40)})) = true) :
    ∃ list arena' s, FreeList.init arena = .ok (list, arena') ∧
      HeapState.run ⟨list, arena', []⟩ ops = .ok s ∧
      Relation.ReflTransGen (HeapState.StepBy HeapState.Allowed) ⟨list, arena', []⟩ s ∧
      s.live = [(88, 16)] ∧ s.liveBlocks = {(64, 40)} := by
  obtain ⟨⟨list, arena'⟩, hinit, h⟩ := Checked.okAnd_eq_true_iff.mp h
  obtain ⟨hpermits, h⟩ := Bool.and_eq_true_iff.mp h
  obtain ⟨s, hrun, h⟩ := Checked.okAnd_eq_true_iff.mp h
  rw [Bool.and_eq_true, decide_eq_true_eq, decide_eq_true_eq] at h
  exact ⟨list, arena', s, hinit, hrun, HeapState.reaches_of_permits hpermits hrun, h⟩

/-- Two histories on arenas with different contents that leave the same allocation.  The free lists
are the same, and when the allocation is released both are those of the beginning. -/
theorem heap_history_independent_orders : ∃ list₁ list₂ arena₁ arena₂ s₁ s₂,
    FreeList.init (zeroArena 256 (by decide)) = .ok (list₁, arena₁) ∧
    FreeList.init (onesArena 256 (by decide)) = .ok (list₂, arena₂) ∧
    HeapState.run ⟨list₁, arena₁, []⟩ firstHistory = .ok s₁ ∧
    HeapState.run ⟨list₂, arena₂, []⟩ secondHistory = .ok s₂ ∧
    s₁.live = [(88, 16)] ∧ s₂.live = [(88, 16)] ∧ s₁.list = s₂.list ∧
    ∃ s, s₁.run [.dealloc 88] = .ok s ∧ s.live = [] ∧ s.list = list₁ := by
  obtain ⟨list₁, arena₁, s₁, hinit₁, hrun₁, hreach₁, hlive₁, hblocks₁⟩ :=
    @exists_history (zeroArena 256 (by decide)) firstHistory (by decide +kernel)
  obtain ⟨list₂, arena₂, s₂, hinit₂, hrun₂, hreach₂, hlive₂, hblocks₂⟩ :=
    @exists_history (onesArena 256 (by decide)) secondHistory (by decide +kernel)
  have hlength : (zeroArena 256 (by decide)).length = (onesArena 256 (by decide)).length :=
    List.length_replicate.trans List.length_replicate.symm
  obtain ⟨hsame, -, -, hrelease⟩ := heap_history_independent _ _ hlength _ _ _ _ hinit₁ hinit₂ _ _
    hreach₁ hreach₂
  obtain ⟨s, hdealloc, hempty, hlist, -⟩ := hrelease [88] (by rw [hlive₁]; rfl)
  exact ⟨list₁, list₂, arena₁, arena₂, s₁, s₂, hinit₁, hinit₂, hrun₁, hrun₂, hlive₁, hlive₂,
    (hsame (hblocks₁.trans hblocks₂.symm)).1, s, hdealloc, hempty, hlist⟩

end Heap

end ParanukOS
