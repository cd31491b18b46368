import ParanukOS.Foundation.Tiling
import ParanukOS.KernelMemory.Heap.Header

/-!
# The layout of the heap

The abstract view of the heap is the list of all its blocks, free and allocated, in the order of
their addresses.  `Layout list arena bs` says that the free list and the bytes of the arena
represent the blocks `bs`: the blocks tile the arena, no two free blocks are adjacent, every block
has the header of its kind, the next pointers of the free blocks lead from each of them to the one
after it, and the statistics count them.

Both operations of the heap replace a few adjacent blocks by others, so the main lemma here is
`Linked.replace`: what has to be known about the headers after such a replacement.  `Linked` is the
layout without the statistics; `Linked.recompute` adds these.
-/

namespace ParanukOS

open Foundation

namespace Heap

/-- A block of the heap; the tag is the size requested for it, or nothing for a free block. -/
abbrev HeapBlock := Block (Option ℕ)

/-- Whether a block is free. -/
def isFree (b : HeapBlock) : Bool := b.tag.isNone

/-- The free blocks of a list. -/
def frees (bs : List HeapBlock) : List HeapBlock := bs.filter isFree

/-- Where the first free block starts; `nxt` if there is none. -/
def firstFree (nxt : ℕ) : List HeapBlock → ℕ
  | [] => nxt
  | b :: bs => if isFree b then b.start else firstFree nxt bs

/-- The last free block. -/
def lastFree? (bs : List HeapBlock) : Option HeapBlock := (frees bs).getLast?

/-- Where the last free block starts; `noneOffset` if there is none. -/
def lastFree (bs : List HeapBlock) : ℕ := ((lastFree? bs).map Block.start).getD noneOffset

/-- The offset and the requested size of the allocated blocks. -/
def liveOf (bs : List HeapBlock) : List (ℕ × ℕ) :=
  bs.filterMap fun b => b.tag.map fun size => (b.start + headerSize, size)

/-- The header a block has when the free block after it starts at `nxt`. -/
def headerOf (b : HeapBlock) (nxt : ℕ) : ℕ × ℕ × ℕ :=
  if isFree b then (magicFree, b.size, nxt) else (magicAlloc, b.size, noneOffset)

/-- Every block has its header, the last free block pointing to `nxt`. -/
def Headers (arena : Slice UInt8) (nxt : ℕ) : List HeapBlock → Prop
  | [] => True
  | b :: bs => readHeader arena b.start = some (headerOf b (firstFree nxt bs)) ∧
      Headers arena nxt bs

/-- The statistics of the free blocks: their number, the sum of their payloads and the largest. -/
def statsOf (bs : List HeapBlock) : HeapStats where
  freeBlocks := (frees bs).length
  freeBytes := ((frees bs).map fun b => b.size - headerSize).sum
  largestFree := ((frees bs).map fun b => b.size - headerSize).foldr max 0

/-- The form of a single block: aligned, with room for its header and for its request. -/
structure WellFormed (b : HeapBlock) : Prop where
  start_mod : b.start % headerAlign = 0
  size_mod : b.size % headerAlign = 0
  header_le : headerSize ≤ b.size
  request : ∀ size, b.tag = some size → 0 < size ∧ headerSize + size ≤ b.size

/-- The free list and the arena represent the blocks `bs`; nothing is said about statistics. -/
structure Linked (list : FreeList) (arena : Slice UInt8) (bs : List HeapBlock) : Prop where
  /-- The blocks cover the arena exactly. -/
  tiles : Tiles 0 list.arenaLen bs
  /-- Every block has the form of a block. -/
  wellFormed : ∀ b ∈ bs, WellFormed b
  /-- No two free blocks are adjacent. -/
  separated : bs.IsChain fun a b => ¬ (isFree a = true ∧ isFree b = true)
  /-- Every block has its header. -/
  headers : Headers arena noneOffset bs
  /-- The list starts at the first free block. -/
  head_eq : list.head = firstFree noneOffset bs
  /-- The arena is long enough. -/
  arenaLen_le : list.arenaLen ≤ arena.length
  /-- The arena is the one the list was initialised with, unless that was too small for a heap. -/
  arenaMatches : bs ≠ [] → list.arenaMatches arena = true

/-- The free list and the arena represent the blocks `bs`. -/
structure Layout (list : FreeList) (arena : Slice UInt8) (bs : List HeapBlock) : Prop
    extends Linked list arena bs where
  /-- The statistics count the free blocks. -/
  stats_eq : list.stats = statsOf bs

/-! ## Reading block lists -/

section Lists

variable {nxt nxt' : ℕ} {b : HeapBlock} {as bs : List HeapBlock}

lemma frees_append (as bs : List HeapBlock) : frees (as ++ bs) = frees as ++ frees bs :=
  List.filter_append ..

lemma frees_cons_of_free (h : isFree b = true) : frees (b :: bs) = b :: frees bs :=
  List.filter_cons_of_pos h

lemma frees_cons_of_live (h : isFree b = false) : frees (b :: bs) = frees bs :=
  List.filter_cons_of_neg (by simp [h])

lemma mem_frees : b ∈ frees bs ↔ b ∈ bs ∧ isFree b = true := List.mem_filter

@[simp] lemma firstFree_nil : firstFree nxt [] = nxt := rfl

lemma firstFree_cons_of_free (h : isFree b = true) : firstFree nxt (b :: bs) = b.start := if_pos h

lemma firstFree_cons_of_live (h : isFree b = false) :
    firstFree nxt (b :: bs) = firstFree nxt bs := if_neg (by simp [h])

lemma firstFree_append (nxt : ℕ) (as bs : List HeapBlock) :
    firstFree nxt (as ++ bs) = firstFree (firstFree nxt bs) as := by
  induction as with
  | nil => rfl
  | cons a as ih => simp only [List.cons_append, firstFree, ih]

/-- The first free block is where the list of free blocks starts. -/
lemma firstFree_eq_headD (nxt : ℕ) (bs : List HeapBlock) :
    firstFree nxt bs = ((frees bs).map Block.start).headD nxt := by
  induction bs with
  | nil => rfl
  | cons b bs ih =>
    cases hb : isFree b with
    | true => rw [firstFree_cons_of_free hb, frees_cons_of_free hb]; rfl
    | false => rw [firstFree_cons_of_live hb, frees_cons_of_live hb, ih]

lemma firstFree_of_frees_eq_nil (h : frees bs = []) : firstFree nxt bs = nxt := by
  rw [firstFree_eq_headD, h]; rfl

/-- The first free block does not depend on what follows when there is one. -/
lemma firstFree_of_frees_ne_nil (h : frees bs ≠ []) : firstFree nxt bs = firstFree nxt' bs := by
  rw [firstFree_eq_headD, firstFree_eq_headD]
  cases hf : frees bs with
  | nil => exact absurd hf h
  | cons c cs => rfl

lemma lastFree?_eq_none_iff : lastFree? bs = none ↔ frees bs = [] := List.getLast?_eq_none_iff

lemma lastFree?_append_of_free (h : isFree b = true) : lastFree? (as ++ [b]) = some b := by
  rw [lastFree?, frees_append, frees_cons_of_free h]
  exact List.getLast?_concat

lemma lastFree?_append_of_live (h : isFree b = false) :
    lastFree? (as ++ [b]) = lastFree? as := by
  rw [lastFree?, frees_append, frees_cons_of_live h]
  simp [frees, lastFree?]

/-- A list with a last free block is cut at it. -/
lemma exists_split_of_lastFree? {q : HeapBlock} (h : lastFree? as = some q) :
    ∃ as₁ as₂, as = as₁ ++ q :: as₂ ∧ isFree q = true ∧ frees as₂ = [] := by
  induction as using List.reverseRecOn with
  | nil => simp [lastFree?, frees] at h
  | append_singleton as b ih =>
    cases hb : isFree b with
    | true =>
      rw [lastFree?_append_of_free hb, Option.some.injEq] at h
      subst h
      exact ⟨as, [], rfl, hb, rfl⟩
    | false =>
      rw [lastFree?_append_of_live hb] at h
      obtain ⟨as₁, as₂, rfl, hq, hnil⟩ := ih h
      refine ⟨as₁, as₂ ++ [b], by simp, hq, ?_⟩
      rw [frees_append, hnil, frees_cons_of_live hb]
      rfl

lemma liveOf_append (as bs : List HeapBlock) : liveOf (as ++ bs) = liveOf as ++ liveOf bs :=
  List.filterMap_append ..

/-- The allocated blocks, by their offset and request. -/
lemma mem_liveOf {p : ℕ × ℕ} :
    p ∈ liveOf bs ↔ ∃ b ∈ bs, b.tag = some p.2 ∧ p.1 = b.start + headerSize := by
  simp only [liveOf, List.mem_filterMap, Option.map_eq_some_iff]
  constructor
  · rintro ⟨b, hb, size, hsize, rfl⟩
    exact ⟨b, hb, hsize, rfl⟩
  · rintro ⟨b, hb, htag, hoff⟩
    exact ⟨b, hb, p.2, htag, Prod.ext hoff.symm rfl⟩

end Lists

/-! ## Headers -/

section Headers

variable {arena arena' : Slice UInt8} {nxt nxt' : ℕ} {as bs : List HeapBlock}

lemma headers_append : Headers arena nxt (as ++ bs) ↔
    Headers arena (firstFree nxt bs) as ∧ Headers arena nxt bs := by
  induction as with
  | nil => simp [Headers]
  | cons a as ih => simp only [List.cons_append, Headers, ih, firstFree_append, and_assoc]

/-- The header of a block inside of a list. -/
lemma Headers.of_split {b : HeapBlock} (h : Headers arena nxt (as ++ b :: bs)) :
    readHeader arena b.start = some (headerOf b (firstFree nxt bs)) :=
  (headers_append.mp h).2.1

/-- The headers stay when nothing is written over them. -/
lemma Headers.congr (h : Headers arena nxt bs)
    (heq : ∀ b ∈ bs, readHeader arena' b.start = readHeader arena b.start) :
    Headers arena' nxt bs := by
  induction bs with
  | nil => trivial
  | cons b bs ih =>
    obtain ⟨hb, hbs⟩ := h
    refine ⟨(heq b List.mem_cons_self).trans hb, ih hbs fun c hc => ?_⟩
    exact heq c (List.mem_cons_of_mem _ hc)

/-- The headers of a list without free blocks do not depend on what follows. -/
lemma Headers.of_frees_eq_nil (h : Headers arena nxt bs) (hnil : frees bs = []) :
    Headers arena nxt' bs := by
  induction bs with
  | nil => trivial
  | cons b bs ih =>
    obtain ⟨hb, hbs⟩ := h
    cases hfree : isFree b with
    | true => rw [frees_cons_of_free hfree] at hnil; exact absurd hnil (by simp)
    | false =>
      rw [frees_cons_of_live hfree] at hnil
      refine ⟨?_, ih hbs hnil⟩
      rw [hb]
      simp [headerOf, hfree]

/-- Redirecting the last free block of a list: only its header has to be written. -/
lemma Headers.redirect {q : HeapBlock} (h : Headers arena nxt as) (hq : lastFree? as = some q)
    (hread : readHeader arena' q.start = some (magicFree, q.size, nxt'))
    (heq : ∀ b ∈ as, b ≠ q → readHeader arena' b.start = readHeader arena b.start)
    (hnd : as.Nodup) :
    Headers arena' nxt' as := by
  obtain ⟨as₁, as₂, rfl, hfree, hnil⟩ := exists_split_of_lastFree? hq
  obtain ⟨h1, -, h2⟩ := headers_append.mp h
  have hnd' := List.nodup_append.mp hnd
  have hne1 : ∀ b ∈ as₁, b ≠ q := fun b hb hbq => hnd'.2.2 b hb q List.mem_cons_self hbq
  have hne2 : ∀ b ∈ as₂, b ≠ q := fun b hb hbq =>
    (List.nodup_cons.mp hnd'.2.1).1 (hbq ▸ hb)
  refine headers_append.mpr ⟨?_, ?_, ?_⟩
  · rw [firstFree_cons_of_free hfree] at h1 ⊢
    exact h1.congr fun b hb => heq b (List.mem_append_left _ hb) (hne1 b hb)
  · rw [hread, firstFree_of_frees_eq_nil hnil]
    simp [headerOf, hfree]
  · refine (h2.of_frees_eq_nil hnil).congr fun b hb => heq b ?_ (hne2 b hb)
    exact List.mem_append_right _ (List.mem_cons_of_mem _ hb)

end Headers

/-! ## Replacing blocks -/

/-- The headers of two blocks of a tiling do not overlap. -/
lemma header_disjoint {lo hi : ℕ} {bs : List HeapBlock} (ht : Tiles lo hi bs)
    (hwf : ∀ b ∈ bs, WellFormed b) {a b : HeapBlock} (ha : a ∈ bs) (hb : b ∈ bs) (hne : a ≠ b) :
    a.start + 24 ≤ b.start ∨ b.start + 24 ≤ a.start := by
  by_contra hcon
  rw [not_or, not_le, not_le] at hcon
  have hasize : 24 ≤ a.size := (hwf a ha).header_le
  have hbsize : 24 ≤ b.size := (hwf b hb).header_le
  have hshared : a.Contains (max a.start b.start) ∧ b.Contains (max a.start b.start) := by
    simp only [Block.Contains, Block.stop]
    omega
  exact hne (ht.eq_of_contains ha hb hshared.1 hshared.2)

lemma noneOffset_lt : noneOffset < 2 ^ 64 := by norm_num [noneOffset]

/-- A next pointer inside of a tiling is a word. -/
lemma firstFree_lt {nxt lo hi : ℕ} {bs cs : List HeapBlock} (ht : Tiles lo hi bs)
    (hhi : hi < 2 ^ 64) (hsub : ∀ b ∈ cs, b ∈ bs) (hnxt : nxt < 2 ^ 64) :
    firstFree nxt cs < 2 ^ 64 := by
  rw [firstFree_eq_headD]
  cases hf : frees cs with
  | nil => exact hnxt
  | cons c rest =>
    have hc : c ∈ bs := hsub c (mem_frees.mp (hf ▸ List.mem_cons_self)).1
    have hstop := (ht.bounds_of_mem hc).2.2
    simp only [Block.stop] at hstop
    simp only [List.map_cons, List.headD_cons]
    omega

/-- The last free block of `as` is redirected to the first one of `bs`.  Writing its header leaves
all other headers alone. -/
lemma Headers.relink {arena : Slice UInt8} {nxt lo hi : ℕ} {as bs : List HeapBlock} {q : HeapBlock}
    (has : Headers arena nxt as) (hbs : Headers arena noneOffset bs) (ht : Tiles lo hi (as ++ bs))
    (hwf : ∀ b ∈ as ++ bs, WellFormed b) (hhi : hi < 2 ^ 64) (hq : lastFree? as = some q)
    (hqin : q.start + 24 ≤ arena.length) (hqsize : q.size < 2 ^ 64) :
    Headers (setHeader arena q.start magicFree q.size (firstFree noneOffset bs)) noneOffset
      (as ++ bs) := by
  obtain ⟨as₁, as₂, hsplit, -, -⟩ := exists_split_of_lastFree? hq
  have hqas : q ∈ as := by simp [hsplit]
  obtain ⟨hnodup, -, hapart⟩ := List.nodup_append.mp ht.nodup
  have hnxt : firstFree noneOffset bs < 2 ^ 64 :=
    firstFree_lt ht hhi (fun b hb => List.mem_append_right _ hb) noneOffset_lt
  have hother : ∀ b ∈ as ++ bs, b ≠ q →
      readHeader (setHeader arena q.start magicFree q.size (firstFree noneOffset bs)) b.start =
        readHeader arena b.start := by
    intro b hb hbq
    refine readHeader_setHeader_of_disjoint arena _ _ _ ?_
    exact header_disjoint ht hwf hb (List.mem_append_left _ hqas) hbq
  refine headers_append.mpr ⟨has.redirect hq ?_ (fun b hb => ?_) hnodup, hbs.congr fun b hb => ?_⟩
  · exact readHeader_setHeader_self hqin (by simp [magicFree]) hqsize hnxt
  · exact hother b (List.mem_append_left _ hb)
  · exact hother b (List.mem_append_right _ hb) fun hbq => hapart q hqas b hb hbq.symm

/-- The list is empty exactly if there is no free block. -/
lemma firstFree_eq_noneOffset_iff {lo hi : ℕ} {bs : List HeapBlock} (ht : Tiles lo hi bs)
    (hhi : hi < 2 ^ 64) : firstFree noneOffset bs = noneOffset ↔ frees bs = [] := by
  refine ⟨fun h => ?_, firstFree_of_frees_eq_nil⟩
  rw [firstFree_eq_headD] at h
  cases hf : frees bs with
  | nil => rfl
  | cons c rest =>
    have hc := ht.bounds_of_mem (mem_frees.mp (hf ▸ List.mem_cons_self)).1
    simp only [hf, List.map_cons, List.headD_cons, noneOffset] at h
    simp only [Block.stop] at hc
    omega

/-- Write the headers of all blocks of a list, the last free block pointing to `nxt`. -/
def setHeaders (arena : Slice UInt8) (nxt : ℕ) : List HeapBlock → Slice UInt8
  | [] => arena
  | b :: bs => setHeader (setHeaders arena nxt bs) b.start (headerOf b (firstFree nxt bs)).1
      (headerOf b (firstFree nxt bs)).2.1 (headerOf b (firstFree nxt bs)).2.2

@[simp] lemma length_setHeaders (arena : Slice UInt8) (nxt : ℕ) (bs : List HeapBlock) :
    (setHeaders arena nxt bs).length = arena.length := by
  induction bs with
  | nil => rfl
  | cons b bs ih => rw [setHeaders, length_setHeader, ih]

/-- No byte outside of the headers changes. -/
lemma get?_setHeaders_of_notMem (arena : Slice UInt8) (nxt : ℕ) {bs : List HeapBlock} {i : ℕ}
    (h : ∀ b ∈ bs, i < b.start ∨ b.start + 24 ≤ i) :
    (setHeaders arena nxt bs).get? i = arena.get? i := by
  induction bs with
  | nil => rfl
  | cons b bs ih =>
    rw [setHeaders, get?_setHeader_of_notMem _ _ _ _ (h b List.mem_cons_self)]
    exact ih fun c hc => h c (List.mem_cons_of_mem _ hc)

/-- The headers written are the headers of the blocks. -/
lemma headers_setHeaders {arena : Slice UInt8} {nxt lo hi : ℕ} {bs : List HeapBlock}
    (ht : Tiles lo hi bs) (hwf : ∀ b ∈ bs, WellFormed b) (hhi : hi ≤ arena.length)
    (hnxt : nxt < 2 ^ 64) : Headers (setHeaders arena nxt bs) nxt bs := by
  induction bs generalizing lo with
  | nil => trivial
  | cons b bs ih =>
    obtain ⟨rfl, -, hbs⟩ := ht
    have hlen := arena.length_lt'
    have hsize : 24 ≤ b.size := (hwf b List.mem_cons_self).header_le
    have hstop := hbs.le
    have hstart : b.start + b.size = b.stop := rfl
    have hnext : firstFree nxt bs < 2 ^ 64 := firstFree_lt hbs (by omega) (fun c hc => hc) hnxt
    refine ⟨?_, (ih hbs fun c hc => hwf c (List.mem_cons_of_mem _ hc)).congr fun c hc => ?_⟩
    · refine readHeader_setHeader_self (by rw [length_setHeaders]; omega) ?_ ?_ ?_
      · simp only [headerOf, magicFree, magicAlloc]
        split_ifs <;> norm_num
      · simp only [headerOf]
        split_ifs <;> (simp only; omega)
      · simp only [headerOf, noneOffset]
        split_ifs
        · exact hnext
        · norm_num
    · have hcs := (hbs.bounds_of_mem hc).1
      exact readHeader_setHeader_of_disjoint _ _ _ _ (by omega)

/-- The last step of both operations: let the block before, or the list itself, point to `nxt`. -/
def relink (list : FreeList) (arena : Slice UInt8) (previous : Option HeapBlock) (nxt : ℕ) :
    FreeList × Slice UInt8 :=
  match previous with
  | none => ({ list with head := nxt }, arena)
  | some q => (list, setHeader arena q.start magicFree q.size nxt)

@[simp] lemma length_relink (list : FreeList) (arena : Slice UInt8) (previous : Option HeapBlock)
    (nxt : ℕ) : (relink list arena previous nxt).2.length = arena.length := by
  cases previous <;> simp [relink]

@[simp] lemma arenaLen_relink (list : FreeList) (arena : Slice UInt8) (previous : Option HeapBlock)
    (nxt : ℕ) : (relink list arena previous nxt).1.arenaLen = list.arenaLen := by
  cases previous <;> rfl

/-- The heap after the blocks between `pre` and `post` have been replaced by the blocks `mid`. -/
def replaced (list : FreeList) (arena : Slice UInt8) (pre mid post : List HeapBlock) :
    FreeList × Slice UInt8 :=
  relink list (setHeaders arena (firstFree noneOffset post) mid) (lastFree? pre)
    (firstFree (firstFree noneOffset post) mid)

@[simp] lemma length_replaced (list : FreeList) (arena : Slice UInt8)
    (pre mid post : List HeapBlock) :
    (replaced list arena pre mid post).2.length = arena.length := by
  rw [replaced, length_relink, length_setHeaders]

@[simp] lemma arenaLen_replaced (list : FreeList) (arena : Slice UInt8)
    (pre mid post : List HeapBlock) :
    (replaced list arena pre mid post).1.arenaLen = list.arenaLen := by
  rw [replaced, arenaLen_relink]

namespace Linked

variable {list : FreeList} {arena arena' : Slice UInt8} {bs pre mid mid' post : List HeapBlock}

/-- The heap is smaller than half of the address space. -/
lemma arenaLen_lt (h : Linked list arena bs) : list.arenaLen < 2 ^ 63 :=
  h.arenaLen_le.trans_lt arena.length_lt'

/-- A block ends inside of the arena. -/
lemma stop_le (h : Linked list arena bs) {b : HeapBlock} (hb : b ∈ bs) :
    b.stop ≤ list.arenaLen := (h.tiles.bounds_of_mem hb).2.2

/-- The header of a block lies in the arena. -/
lemma start_add_le (h : Linked list arena bs) {b : HeapBlock} (hb : b ∈ bs) :
    b.start + 24 ≤ arena.length := by
  have h1 : 24 ≤ b.size := (h.wellFormed b hb).header_le
  have h2 := h.stop_le hb
  have h3 := h.arenaLen_le
  simp only [Block.stop] at h2
  omega

/-- Blocks that cover the same addresses as those of `mid` tile the arena in their place. -/
lemma tiles_replace (h : Linked list arena (pre ++ mid ++ post))
    (htiles : ∀ lo hi, Tiles lo hi mid → Tiles lo hi mid') :
    Tiles 0 list.arenaLen (pre ++ mid' ++ post) := by
  obtain ⟨m₂, hleft, hpost⟩ := tiles_append.mp h.tiles
  obtain ⟨m₁, hpre, hm⟩ := tiles_append.mp hleft
  exact tiles_append.mpr ⟨m₂, tiles_append.mpr ⟨m₁, hpre, htiles _ _ hm⟩, hpost⟩

lemma wellFormed_replace (h : Linked list arena (pre ++ mid ++ post))
    (hwf : ∀ b ∈ mid', WellFormed b) : ∀ b ∈ pre ++ mid' ++ post, WellFormed b := by
  intro b hb
  simp only [List.mem_append] at hb
  rcases hb with (hb | hb) | hb
  · exact h.wellFormed b (by simp [hb])
  · exact hwf b hb
  · exact h.wellFormed b (by simp [hb])

/-- The list still starts at the same block when a free block comes before those that are
replaced. -/
lemma head_replace (h : Linked list arena (pre ++ mid ++ post)) {q : HeapBlock}
    (hq : lastFree? pre = some q) : list.head = firstFree noneOffset (pre ++ mid' ++ post) := by
  have hfrees : frees pre ≠ [] := fun hnil => by
    rw [lastFree?_eq_none_iff.mpr hnil] at hq
    cases hq
  rw [h.head_eq, List.append_assoc, List.append_assoc,
    firstFree_append noneOffset pre (mid ++ post), firstFree_append noneOffset pre (mid' ++ post)]
  exact firstFree_of_frees_ne_nil hfrees

/-- Blocks `mid` of the heap are replaced by blocks `mid'` that cover the same addresses, after
their headers have been written to `arena'`, by relinking the free block before them. -/
lemma replace_of_headers (h : Linked list arena (pre ++ mid ++ post))
    (hlen : arena'.length = arena.length)
    (hkeep : ∀ b ∈ pre ++ post, readHeader arena' b.start = readHeader arena b.start)
    (hmid : Headers arena' (firstFree noneOffset post) mid')
    (htiles : ∀ lo hi, Tiles lo hi mid → Tiles lo hi mid')
    (hwf : ∀ b ∈ mid', WellFormed b)
    (hsep : (pre ++ mid' ++ post).IsChain fun a b => ¬ (isFree a = true ∧ isFree b = true))
    (hne : mid ≠ []) :
    Linked (relink list arena' (lastFree? pre) (firstFree (firstFree noneOffset post) mid')).1
      (relink list arena' (lastFree? pre) (firstFree (firstFree noneOffset post) mid')).2
      (pre ++ mid' ++ post) := by
  rw [← firstFree_append noneOffset mid' post]
  have ht := h.tiles_replace htiles
  have hwf' := h.wellFormed_replace hwf
  -- the headers of the blocks before and after are those of the old arena
  obtain ⟨hleft, hpost⟩ := headers_append.mp h.headers
  have hpre := (headers_append.mp hleft).1.congr fun b hb => hkeep b (List.mem_append_left _ hb)
  have hrest : Headers arena' noneOffset (mid' ++ post) :=
    headers_append.mpr ⟨hmid, hpost.congr fun b hb => hkeep b (List.mem_append_right _ hb)⟩
  have hmatch : ∀ l : FreeList, l.arenaLen = list.arenaLen → ∀ a : Slice UInt8,
      a.length = arena.length → l.arenaMatches a = true := by
    intro l hl a ha
    have := h.arenaMatches (by simp [hne])
    rwa [FreeList.arenaMatches, ha, hl, ← FreeList.arenaMatches]
  cases hq : lastFree? pre with
  | none =>
    have hnil := lastFree?_eq_none_iff.mp hq
    refine ⟨ht, hwf', hsep, ?_, ?_, ?_, fun _ => hmatch _ rfl _ hlen⟩
    · rw [List.append_assoc, headers_append]
      exact ⟨hpre.of_frees_eq_nil hnil, hrest⟩
    · rw [List.append_assoc, firstFree_append noneOffset pre, firstFree_of_frees_eq_nil hnil]
      rfl
    · simpa [relink, hlen] using h.arenaLen_le
  | some q =>
    obtain ⟨pre₁, pre₂, hsplit, -, -⟩ := exists_split_of_lastFree? hq
    have hqmem : q ∈ pre ++ mid ++ post := by simp [hsplit]
    have hqsize : q.size < 2 ^ 64 := by
      have h1 := h.stop_le hqmem
      have h2 := h.arenaLen_lt
      simp only [Block.stop] at h1
      omega
    have hqin : q.start + 24 ≤ arena'.length := by
      rw [hlen]
      exact h.start_add_le hqmem
    refine ⟨ht, hwf', hsep, ?_, h.head_replace hq, ?_,
      fun _ => hmatch _ rfl _ (by simp [relink, hlen])⟩
    · rw [List.append_assoc] at ht hwf' ⊢
      exact hpre.relink hrest ht hwf' (by have := h.arenaLen_lt; omega) hq hqin hqsize
    · simpa [relink, hlen] using h.arenaLen_le

/-- Blocks `mid` of the heap are replaced by blocks `mid'` that cover the same addresses. -/
lemma replace (h : Linked list arena (pre ++ mid ++ post))
    (htiles : ∀ lo hi, Tiles lo hi mid → Tiles lo hi mid') (hwf : ∀ b ∈ mid', WellFormed b)
    (hsep : (pre ++ mid' ++ post).IsChain fun a b => ¬ (isFree a = true ∧ isFree b = true))
    (hne : mid ≠ []) :
    Linked (replaced list arena pre mid' post).1 (replaced list arena pre mid' post).2
      (pre ++ mid' ++ post) := by
  obtain ⟨m₂, hleft, hpost⟩ := tiles_append.mp h.tiles
  obtain ⟨m₁, hpre, hm⟩ := tiles_append.mp hleft
  have hm' := htiles _ _ hm
  have hlen := h.arenaLen_lt
  have hnxt : firstFree noneOffset post < 2 ^ 64 :=
    firstFree_lt hpost (by omega) (fun b hb => hb) noneOffset_lt
  have hheaders : Headers (setHeaders arena (firstFree noneOffset post) mid')
      (firstFree noneOffset post) mid' :=
    headers_setHeaders hm' hwf (hpost.le.trans h.arenaLen_le) hnxt
  refine h.replace_of_headers (length_setHeaders _ _ _)
    (fun b hb => ?_) hheaders htiles hwf hsep hne
  -- the blocks before and after lie outside of the addresses of `mid`
  have hb24 : 24 ≤ b.size := (h.wellFormed b (by
    rcases List.mem_append.mp hb with hb | hb <;> simp [hb])).header_le
  have hout : b.start + 24 ≤ m₁ ∨ m₂ ≤ b.start := by
    rcases List.mem_append.mp hb with hb | hb
    · have hstop := (hpre.bounds_of_mem hb).2.2
      simp only [Block.stop] at hstop
      omega
    · exact Or.inr (hpost.bounds_of_mem hb).1
  refine readHeader_congr (length_setHeaders _ _ _) fun i hi hi' => ?_
  refine get?_setHeaders_of_notMem _ _ fun c hc => ?_
  have hcb := hm'.bounds_of_mem hc
  have hc24 : 24 ≤ c.size := (hwf c hc).header_le
  simp only [Block.stop] at hcb
  omega

/-- A replacement writes headers only: the payloads of the new blocks keep their contents. -/
lemma get?_replaced
    (h : Linked (replaced list arena pre mid' post).1 (replaced list arena pre mid' post).2
      (pre ++ mid' ++ post)) {b : HeapBlock} (hb : b ∈ pre ++ mid' ++ post) {i : ℕ}
    (hi : b.start + headerSize ≤ i) (hi' : i < b.stop) :
    (replaced list arena pre mid' post).2.get? i = arena.get? i := by
  -- the byte lies in `b`, so it is in the header of no other block, nor in that of `b`
  have hheader : ∀ c ∈ pre ++ mid' ++ post, i < c.start ∨ c.start + 24 ≤ i := by
    intro c hc
    by_contra hcon
    rw [not_or, not_lt, not_le] at hcon
    have h24 : 24 ≤ c.size := (h.wellFormed c hc).header_le
    have hcontains : c.Contains i := by
      simp only [Block.Contains, Block.stop]
      omega
    have heq : c = b := h.tiles.eq_of_contains hc hb hcontains ⟨by omega, hi'⟩
    subst heq
    simp only [headerSize] at hi
    omega
  have hmid : (setHeaders arena (firstFree noneOffset post) mid').get? i = arena.get? i :=
    get?_setHeaders_of_notMem _ _ fun c hc => hheader c (by simp [hc])
  unfold replaced
  cases hq : lastFree? pre with
  | none => exact hmid
  | some q =>
    obtain ⟨pre₁, pre₂, rfl, -, -⟩ := exists_split_of_lastFree? hq
    exact (get?_setHeader_of_notMem _ _ _ _ (hheader q (by simp))).trans hmid

end Linked

/-! ## Statistics -/

/-- The statistics counted so far together with those of the blocks still ahead. -/
def HeapStats.addBlocks (counted : HeapStats) (bs : List HeapBlock) : HeapStats where
  freeBlocks := counted.freeBlocks + (statsOf bs).freeBlocks
  freeBytes := counted.freeBytes + (statsOf bs).freeBytes
  largestFree := max counted.largestFree (statsOf bs).largestFree

/-- The loop of `recompute` counts the free blocks of the part of the heap ahead of it. -/
lemma countFree_eq {list : FreeList} {arena : Slice UInt8} {bs : List HeapBlock} {lo guard : ℕ}
    (counted : HeapStats) (hh : Headers arena noneOffset bs) (ht : Tiles lo list.arenaLen bs)
    (hwf : ∀ b ∈ bs, WellFormed b) (hlen : list.arenaLen < 2 ^ 63)
    (hguard : (frees bs).length ≤ guard) (hblocks : counted.freeBlocks + bs.length < 2 ^ 64)
    (hbytes : counted.freeBytes ≤ lo) :
    list.countFree arena guard (firstFree noneOffset bs) counted =
      .ok (counted.addBlocks bs) := by
  induction bs generalizing lo guard counted with
  | nil =>
    cases guard <;>
      simp [FreeList.countFree, HeapStats.addBlocks, statsOf, frees, firstFree, pure, Except.pure]
  | cons b bs ih =>
    obtain ⟨hb, hbs⟩ := hh
    obtain ⟨rfl, hpos, htbs⟩ := ht
    have hwf' : ∀ c ∈ bs, WellFormed c := fun c hc => hwf c (List.mem_cons_of_mem _ hc)
    have hstop := htbs.le
    simp only [Block.stop] at hstop htbs
    rw [List.length_cons] at hblocks
    cases hfree : isFree b with
    | false =>
      -- an allocated block is not on the list
      rw [frees_cons_of_live hfree] at hguard
      rw [firstFree_cons_of_live hfree, ih _ hbs htbs hwf' hguard (by omega) (by omega)]
      simp [HeapStats.addBlocks, statsOf, frees_cons_of_live hfree]
    | true =>
      rw [frees_cons_of_free hfree, List.length_cons] at hguard
      obtain ⟨guard, rfl⟩ : ∃ g, guard = g + 1 := ⟨guard - 1, by omega⟩
      have hne : b.start ≠ noneOffset := by simp only [noneOffset]; omega
      have hsize : 24 ≤ b.size := (hwf b List.mem_cons_self).header_le
      have hb' : readHeader arena b.start = some (magicFree, b.size, firstFree noneOffset bs) := by
        rw [hb]; simp [headerOf, hfree]
      have hcond : ¬ (magicFree ≠ magicFree ∨ b.size < headerSize) := by
        simp only [headerSize]; omega
      rw [firstFree_cons_of_free hfree, FreeList.countFree]
      simp only [hne, if_false, hb', hcond]
      rw [addWord_of_lt (by omega), Checked.ok_bind, if_neg (by omega),
        subWord_of_le (by simpa [headerSize] using hsize), Checked.ok_bind,
        addWord_of_lt (by omega), Checked.ok_bind,
        addWord_of_lt (by simp only [headerSize]; omega), Checked.ok_bind,
        ih _ hbs htbs hwf' (by omega) (by simp only; omega) (by simp only [headerSize]; omega)]
      simp only [HeapStats.addBlocks, statsOf, frees_cons_of_free hfree, List.length_cons,
        List.map_cons, List.sum_cons, List.foldr_cons, Except.ok.injEq, HeapStats.mk.injEq]
      exact ⟨by omega, by omega, max_assoc _ _ _⟩

namespace Linked

variable {list : FreeList} {arena : Slice UInt8} {bs : List HeapBlock}

/-- The bound on the rounds of the list walks is not reached. -/
lemma length_frees_le (h : Linked list arena bs) : (frees bs).length ≤ list.maxBlocks := by
  have h1 := h.tiles.length_mul_le fun b hb => (h.wellFormed b hb).header_le
  have h2 : (frees bs).length ≤ bs.length := List.length_filter_le _ _
  simp only [FreeList.maxBlocks, headerAlign, headerSize] at h1 ⊢
  omega

/-- `recompute` returns, and restores the statistics. -/
lemma recompute (h : Linked list arena bs) :
    ∃ list', list.recompute arena = .ok list' ∧ Layout list' arena bs ∧
      list'.arenaLen = list.arenaLen := by
  have hlen := h.arenaLen_lt
  have hblocks := h.tiles.length_mul_le fun b hb => (h.wellFormed b hb).header_le
  have hcount := countFree_eq ⟨0, 0, 0⟩ h.headers h.tiles h.wellFormed hlen
    h.length_frees_le (by simp only [headerSize] at hblocks; simp only; omega) le_rfl
  rw [← h.head_eq] at hcount
  refine ⟨{ list with
    freeBlocks := (statsOf bs).freeBlocks
    freeBytes := (statsOf bs).freeBytes
    largestFree := (statsOf bs).largestFree }, ?_, ⟨⟨h.tiles, h.wellFormed, h.separated, h.headers,
    h.head_eq, h.arenaLen_le, h.arenaMatches⟩, rfl⟩, rfl⟩
  rw [FreeList.recompute, hcount, Checked.ok_bind]
  simp [HeapStats.addBlocks]

end Linked

end Heap

end ParanukOS
