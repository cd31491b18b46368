import ParanukOS.KernelMemory.Heap.Alloc

/-!
# Release on a layout

`dealloc` on a heap that represents a list of blocks.  The walk `insertPoint` looks for a free block
that meets the block to be released (`insertPoint_spec`); the merges then join the block with the
free blocks next to it.  For the offset of an allocated block the result is described by
`dealloc_live`: the block and its free neighbours become one free block.

`dealloc` finds out what an offset stands for by the 24 bytes in front of it.  `Credible` collects
the tests it makes, and `dealloc_of_not_credible` and `dealloc_of_credible` say that these tests
decide whether the offset is refused, be it the offset of an allocation or not.
-/

namespace ParanukOS

open Foundation

namespace Heap

/-- The block has an address with the range from `header` to `blockEnd` in common. -/
def Meets (header blockEnd : ℕ) (b : HeapBlock) : Prop := b.start < blockEnd ∧ header < b.stop

/-! ## The walk -/

section Walk

variable {list : FreeList} {arena : Slice UInt8} {pre post bs : List HeapBlock} {b : HeapBlock}
  {header blockEnd offset : ℕ}

/-- The header of a free block. -/
lemma Linked.readHeader_free (h : Linked list arena (pre ++ b :: post)) (hfree : isFree b = true) :
    readHeader arena b.start = some (magicFree, b.size, firstFree noneOffset post) := by
  rw [Headers.of_split h.headers]
  simp [headerOf, hfree]

/-- The blocks that start before `header`. -/
def startingBefore (header : ℕ) (bs : List HeapBlock) : List HeapBlock :=
  bs.filter fun b => b.start < header

/-- The blocks that start at `header` or later. -/
def startingFrom (header : ℕ) (bs : List HeapBlock) : List HeapBlock :=
  bs.filter fun b => header ≤ b.start

/-- One round of the walk, at the free block `b`. -/
lemma insertPoint_step (h : Linked list arena (pre ++ b :: bs)) (hfree : isFree b = true)
    (guard previous : ℕ) :
    list.insertPoint arena header blockEnd offset (guard + 1) previous b.start =
      if header ≤ b.start then
        if b.start < blockEnd then .ok (.error (.alreadyFree offset))
        else .ok (.ok (previous, b.start))
      else if header < b.stop then .ok (.error (.alreadyFree offset))
      else list.insertPoint arena header blockEnd offset guard b.start
        (firstFree noneOffset bs) := by
  have hlen := h.arenaLen_lt
  have hstop := h.stop_le (b := b) (by simp)
  have hwf := h.wellFormed b (by simp)
  have hstart : b.start + b.size = b.stop := rfl
  have hne : b.start ≠ noneOffset := by simp only [noneOffset]; omega
  have hcond : ¬ (magicFree ≠ magicFree ∨ b.size < headerSize) := by simp [hwf.header_le]
  rw [FreeList.insertPoint]
  simp only [hne, if_false, h.readHeader_free hfree, hcond, hstart, not_lt.mpr hstop,
    addWord_of_lt (show b.start + b.size < 2 ^ 64 by omega), Checked.ok_bind]
  split_ifs <;> rfl

/-- What the walk of `dealloc` along the free blocks of `bs`, which follow the blocks `pre`, may
return: an error if one of them meets the range, and otherwise the free blocks around the range. -/
def WalkOutcome (header blockEnd offset : ℕ) (pre bs : List HeapBlock)
    (result : Checked (Except FreeListError (ℕ × ℕ))) : Prop :=
  ((∃ b ∈ bs, isFree b = true ∧ Meets header blockEnd b) ∧
    result = .ok (.error (.alreadyFree offset))) ∨
  (∀ b ∈ bs, isFree b = true → ¬ Meets header blockEnd b) ∧
    result = .ok (.ok (lastFree (pre ++ startingBefore header bs),
      firstFree noneOffset (startingFrom header bs)))

/-- The walk goes past an allocated block and past a free one that ends before the range. -/
lemma WalkOutcome.cons {result : Checked (Except FreeListError (ℕ × ℕ))}
    (h : WalkOutcome header blockEnd offset (pre ++ [b]) bs result)
    (hb : isFree b = true → b.start < header ∧ b.stop ≤ header) :
    WalkOutcome header blockEnd offset pre (b :: bs) result := by
  rcases h with ⟨⟨c, hc, hcfree, hmeets⟩, heq⟩ | ⟨hno, heq⟩
  · exact Or.inl ⟨⟨c, List.mem_cons_of_mem _ hc, hcfree, hmeets⟩, heq⟩
  · refine Or.inr ⟨fun c hc hcfree hmeets => ?_, ?_⟩
    · rcases List.mem_cons.mp hc with rfl | hc
      · exact absurd hmeets.2 (not_lt.mpr (hb hcfree).2)
      · exact hno c hc hcfree hmeets
    · by_cases hlt : b.start < header
      · rw [heq]
        simp [startingBefore, startingFrom, hlt, not_le.mpr hlt]
      · -- only an allocated block starts later, and it does not count
        have hlive : isFree b = false := by
          by_contra hcon
          exact hlt (hb (by simpa using hcon)).1
        have hlast : lastFree (pre ++ [b] ++ startingBefore header bs) =
            lastFree (pre ++ startingBefore header bs) := by
          simp only [lastFree, lastFree?, frees_append, frees_cons_of_live hlive]
          simp [frees]
        rw [heq, hlast]
        simp [startingBefore, startingFrom, hlt, not_lt.mp hlt, firstFree_cons_of_live hlive]

/-- The walk of `dealloc` along the free blocks of `bs`. -/
lemma insertPoint_spec (hrange : header < blockEnd) {guard : ℕ} (h : Linked list arena (pre ++ bs))
    (hguard : (frees bs).length ≤ guard) :
    WalkOutcome header blockEnd offset pre bs (list.insertPoint arena header blockEnd offset guard
      (lastFree pre) (firstFree noneOffset bs)) := by
  induction bs generalizing pre guard with
  | nil =>
    refine Or.inr ⟨by simp, ?_⟩
    cases guard <;> simp [FreeList.insertPoint, startingBefore, startingFrom]
  | cons b bs ih =>
    have hassoc : pre ++ b :: bs = (pre ++ [b]) ++ bs := by simp
    have hnext : Linked list arena ((pre ++ [b]) ++ bs) := hassoc ▸ h
    cases hfree : isFree b with
    | false =>
      rw [frees_cons_of_live hfree] at hguard
      have hlast : lastFree (pre ++ [b]) = lastFree pre := by
        rw [lastFree, lastFree?_append_of_live hfree, lastFree]
      rw [firstFree_cons_of_live hfree, ← hlast]
      exact (ih hnext hguard).cons (by simp [hfree])
    | true =>
      rw [frees_cons_of_free hfree, List.length_cons] at hguard
      obtain ⟨guard, rfl⟩ : ∃ g, guard = g + 1 := ⟨guard - 1, by omega⟩
      obtain ⟨-, hpos, hbs⟩ := h.tiles.bounds_of_split
      have hstop : b.start < b.stop := by simp only [Block.stop]; omega
      rw [firstFree_cons_of_free hfree, insertPoint_step h hfree]
      split_ifs with hle hlt hlt
      · exact Or.inl ⟨⟨b, List.mem_cons_self, hfree, hlt, by omega⟩, rfl⟩
      · -- the blocks of the list after `b` start even later
        have hstart : ∀ c ∈ b :: bs, b.start ≤ c.start := by
          intro c hc
          rcases List.mem_cons.mp hc with rfl | hc
          · exact le_rfl
          · exact hstop.le.trans (hbs.bounds_of_mem hc).1
        refine Or.inr ⟨fun c hc _ hmeets => ?_, ?_⟩
        · have := hstart c hc
          have := hmeets.1
          omega
        · have hbefore : startingBefore header (b :: bs) = [] := by
            refine List.filter_eq_nil_iff.mpr fun c hc => ?_
            have := hstart c hc
            simp only [decide_eq_true_eq]
            omega
          rw [hbefore, List.append_nil]
          simp [startingFrom, hle, firstFree_cons_of_free hfree]
      · exact Or.inl ⟨⟨b, List.mem_cons_self, hfree, by omega, hlt⟩, rfl⟩
      · have hlast : lastFree (pre ++ [b]) = b.start := by
          rw [lastFree, lastFree?_append_of_free hfree]
          rfl
        rw [← hlast]
        exact (ih hnext (Nat.le_of_succ_le_succ hguard)).cons fun _ => ⟨by omega, not_lt.mp hlt⟩

/-- The walk along the whole list. -/
lemma Linked.walkOutcome (h : Linked list arena bs) (hrange : header < blockEnd) (offset : ℕ) :
    WalkOutcome header blockEnd offset [] bs (list.insertPoint arena header blockEnd offset
      list.maxBlocks noneOffset list.head) := by
  rw [h.head_eq]
  exact insertPoint_spec hrange (show Linked list arena ([] ++ bs) from h) h.length_frees_le

/-- The blocks around an address where a block starts. -/
lemma startingBefore_of_split {lo hi : ℕ} (ht : Tiles lo hi (pre ++ b :: post)) :
    startingBefore b.start (pre ++ b :: post) = pre ∧
      startingFrom b.start (pre ++ b :: post) = b :: post := by
  obtain ⟨hpre, hpos, hpost⟩ := ht.bounds_of_split
  have h1 : ∀ c ∈ pre, c.start < b.start := by
    intro c hc
    have := hpre.bounds_of_mem hc
    simp only [Block.stop] at this
    omega
  have h2 : ∀ c ∈ b :: post, b.start ≤ c.start := by
    intro c hc
    rcases List.mem_cons.mp hc with rfl | hc
    · exact le_rfl
    · have := (hpost.bounds_of_mem hc).1
      simp only [Block.stop] at this
      omega
  constructor
  · rw [startingBefore, List.filter_append, List.filter_eq_self.mpr fun c hc => by simp [h1 c hc],
      List.filter_eq_nil_iff.mpr fun c hc => by simp [h2 c hc], List.append_nil]
  · rw [startingFrom, List.filter_append,
      List.filter_eq_nil_iff.mpr fun c hc => by simp [h1 c hc],
      List.filter_eq_self.mpr fun c hc => by simp [h2 c hc], List.nil_append]

/-- The walk of `previous_free` up to the block `b`. -/
lemma previousFreeFrom_eq {mid : List HeapBlock} (h : Linked list arena (pre ++ (mid ++ b :: post)))
    (hfree : isFree b = true) {guard : ℕ} (hguard : (frees mid).length < guard) :
    FreeList.previousFreeFrom arena b.start guard (lastFree pre)
      (firstFree noneOffset (mid ++ b :: post)) = some (lastFree (pre ++ mid)) := by
  have hlen := h.arenaLen_lt
  induction mid generalizing pre guard with
  | nil =>
    obtain ⟨guard, rfl⟩ : ∃ g, guard = g + 1 := ⟨guard - 1, by omega⟩
    have hstop := h.stop_le (b := b) (by simp)
    have hne : b.start ≠ noneOffset := by simp only [noneOffset, Block.stop] at hstop ⊢; omega
    rw [List.nil_append, firstFree_cons_of_free hfree, List.append_nil]
    simp [FreeList.previousFreeFrom, hne]
  | cons c mid ih =>
    have hassoc : pre ++ (c :: mid ++ b :: post) = (pre ++ [c]) ++ (mid ++ b :: post) := by simp
    have hnext : Linked list arena ((pre ++ [c]) ++ (mid ++ b :: post)) := hassoc ▸ h
    have hmem : lastFree (pre ++ c :: mid) = lastFree (pre ++ [c] ++ mid) := by simp
    cases hc : isFree c with
    | false =>
      have hlast : lastFree (pre ++ [c]) = lastFree pre := by
        rw [lastFree, lastFree?_append_of_live hc, lastFree]
      rw [frees_cons_of_live hc] at hguard
      rw [List.cons_append, firstFree_cons_of_live hc, hmem, ← hlast]
      exact ih hnext hguard
    | true =>
      rw [frees_cons_of_free hc, List.length_cons] at hguard
      obtain ⟨guard, rfl⟩ : ∃ g, guard = g + 1 := ⟨guard - 1, by omega⟩
      have hlast : lastFree (pre ++ [c]) = c.start := by
        rw [lastFree, lastFree?_append_of_free hc]
        rfl
      -- `c` ends before `b` starts, so the walk does not stop at it
      have hbounds := h.tiles.bounds_of_split.2.2.bounds_of_mem (b := b) (by simp)
      have hcpos := h.tiles.bounds_of_split.2.1
      have hstop := h.stop_le (b := b) (by simp)
      simp only [Block.stop] at hbounds hstop
      have hne : c.start ≠ noneOffset := by simp only [noneOffset]; omega
      have hne' : c.start ≠ b.start := by omega
      have hread := (show Linked list arena (pre ++ c :: (mid ++ b :: post)) from h).readHeader_free
        hc
      rw [List.cons_append, firstFree_cons_of_free hc, hmem, FreeList.previousFreeFrom, if_neg hne,
        if_neg hne', hread]
      simp only
      rw [← hlast]
      exact ih hnext (by omega)

/-- `previous_free` finds the free block before a free block. -/
lemma previousFree_eq (h : Linked list arena (pre ++ b :: post)) (hfree : isFree b = true) :
    list.previousFree arena b.start = some (lastFree pre) := by
  have hguard : (frees pre).length < list.maxBlocks := by
    have := h.length_frees_le
    rw [frees_append, frees_cons_of_free hfree, List.length_append, List.length_cons] at this
    omega
  rw [FreeList.previousFree, h.head_eq]
  exact previousFreeFrom_eq (show Linked list arena ([] ++ (pre ++ b :: post)) from h) hfree hguard

end Walk

/-! ## The merges -/

section Merge

variable {list : FreeList} {arena : Slice UInt8} {pre post pre' post' : List HeapBlock}
  {b : HeapBlock} {left right : Option HeapBlock}

/-- The free blocks right before and right after a block: `pre` ends in the block `left`, if there
is one, `post` starts with the block `right`, and what remains of the two lists does not end or
start with a free block. -/
structure Neighbours (pre post pre' : List HeapBlock) (left right : Option HeapBlock)
    (post' : List HeapBlock) : Prop where
  pre_eq : pre = pre' ++ left.toList
  post_eq : post = right.toList ++ post'
  left_free : ∀ q ∈ left, isFree q = true
  right_free : ∀ c ∈ right, isFree c = true
  pre'_live : ∀ x ∈ pre'.getLast?, isFree x = false
  post'_live : ∀ y ∈ post'.head?, isFree y = false

/-- The total size of a block that may be there. -/
def sizeOf (b : Option HeapBlock) : ℕ := (b.map Block.size).getD 0

/-- Every block has neighbours in this sense. -/
lemma exists_neighbours
    (h : (pre ++ b :: post).IsChain fun a c => ¬ (isFree a = true ∧ isFree c = true)) :
    ∃ pre' left right post', Neighbours pre post pre' left right post' := by
  obtain ⟨hpre, hbpost, -⟩ := List.isChain_append.mp h
  obtain ⟨-, hpost⟩ := List.isChain_cons.mp hbpost
  have hleft : ∃ pre' left, pre = pre' ++ Option.toList left ∧ (∀ q ∈ left, isFree q = true) ∧
      ∀ x ∈ pre'.getLast?, isFree x = false := by
    induction pre using List.reverseRecOn with
    | nil => exact ⟨[], none, rfl, by simp, by simp⟩
    | append_singleton pre q _ =>
      cases hq : isFree q with
      | false => exact ⟨pre ++ [q], none, by simp, by simp, by simp [hq]⟩
      | true =>
        refine ⟨pre, some q, rfl, by simp [hq], fun x hx => ?_⟩
        have := (List.isChain_append.mp hpre).2.2 x hx q (by simp)
        simpa [hq] using this
  have hright : ∃ right post', post = Option.toList right ++ post' ∧
    (∀ c ∈ right, isFree c = true) ∧
      ∀ y ∈ post'.head?, isFree y = false := by
    cases post with
    | nil => exact ⟨none, [], rfl, by simp, by simp⟩
    | cons c post =>
      cases hc : isFree c with
      | false => exact ⟨none, c :: post, by simp, by simp, by simp [hc]⟩
      | true =>
        refine ⟨some c, post, rfl, by simp [hc], fun y hy => ?_⟩
        have := (List.isChain_cons.mp hpost).1 y hy
        simpa [hc] using this
  obtain ⟨pre', left, h1, h2, h3⟩ := hleft
  obtain ⟨right, post', h4, h5, h6⟩ := hright
  exact ⟨pre', left, right, post', h1, h4, h2, h5, h3, h6⟩

/-- The first free block of a tiling is not at its start when an allocated block is there. -/
lemma firstFree_ne_of_live {lo hi : ℕ} {bs : List HeapBlock} (ht : Tiles lo hi bs)
    (hlive : ∀ y ∈ bs.head?, isFree y = false) (hnone : firstFree noneOffset bs ≠ noneOffset) :
    firstFree noneOffset bs ≠ lo := by
  cases bs with
  | nil => exact absurd rfl hnone
  | cons y ys =>
    obtain ⟨rfl, hpos, hys⟩ := ht
    have hy : isFree y = false := hlive y (by simp)
    rw [firstFree_cons_of_live hy, firstFree_eq_headD] at hnone ⊢
    cases hf : frees ys with
    | nil => rw [hf] at hnone; exact absurd rfl hnone
    | cons c rest =>
      have hc := (hys.bounds_of_mem (mem_frees.mp (hf ▸ List.mem_cons_self)).1).1
      simp only [Block.stop] at hc
      simp only [List.map_cons, List.headD_cons]
      omega

/-- The first merge: the block takes over the free block right after it. -/
lemma mergeNext_eq (h : Linked list arena (pre ++ b :: post))
    (hn : Neighbours pre post pre' left right post') :
    FreeList.mergeNext arena b.stop b.size (firstFree noneOffset post) =
      .ok (.ok (b.size + sizeOf right, firstFree noneOffset post')) := by
  obtain ⟨-, hpos, hpost⟩ := h.tiles.bounds_of_split
  have hlen := h.arenaLen_lt
  cases right with
  | none =>
    obtain rfl : post = post' := hn.post_eq
    have hcond : ¬ (firstFree noneOffset post ≠ noneOffset ∧
        b.stop = firstFree noneOffset post) := fun ⟨hnone, heq⟩ =>
      firstFree_ne_of_live hpost hn.post'_live hnone heq.symm
    rw [FreeList.mergeNext, if_neg hcond]
    rfl
  | some c =>
    obtain rfl : post = c :: post' := hn.post_eq
    have hc : isFree c = true := hn.right_free c (by simp)
    obtain ⟨hstart, -, hrest⟩ := hpost
    have hstop := h.stop_le (b := c) (by simp)
    have hassoc : Linked list arena ((pre ++ [b]) ++ c :: post') := by simpa using h
    have hread := hassoc.readHeader_free hc
    simp only [Block.stop] at hstart hstop
    have hne : c.start ≠ noneOffset := by simp only [noneOffset]; omega
    rw [FreeList.mergeNext, firstFree_cons_of_free hc, if_pos ⟨hne, hstart.symm⟩, hread]
    simp only
    rw [addWord_of_lt (by omega), Checked.ok_bind]
    rfl

/-- The second merge: the free block right before the block takes it over. -/
lemma mergePrevious_eq (h : Linked list arena (pre ++ b :: post))
    (hn : Neighbours pre post pre' left right post') {size : ℕ} (hsize : size ≤ list.arenaLen) :
    list.mergePrevious arena b.start size (lastFree pre) =
      .ok (.ok (b.start - sizeOf left, size + sizeOf left, lastFree pre')) := by
  obtain ⟨hpre, hpos, -⟩ := h.tiles.bounds_of_split
  have hlen := h.arenaLen_lt
  have hstop := h.stop_le (b := b) (by simp)
  simp only [Block.stop] at hstop
  cases left with
  | none =>
    obtain rfl : pre = pre' := by simpa using hn.pre_eq
    cases hq : lastFree? pre with
    | none =>
      rw [FreeList.mergePrevious, (lastFree_eq_noneOffset_iff h).mpr hq]
      simp [sizeOf]
    | some q =>
      -- the last free block is not the last block, so it ends before `b` starts
      have hne : lastFree pre ≠ noneOffset := fun hcon => by
        rw [(lastFree_eq_noneOffset_iff h).mp hcon] at hq
        exact absurd hq (by simp)
      have hstart : lastFree pre = q.start := by simp [lastFree, hq]
      have hread := readHeader_lastFree h hq
      obtain ⟨pre₁, pre₂, rfl, hqfree, -⟩ := exists_split_of_lastFree? hq
      obtain ⟨-, hqpos, hpre₂⟩ := hpre.bounds_of_split
      have hqb : q.start + q.size ≠ b.start := by
        cases pre₂ with
        | nil =>
          have := hn.pre'_live q (by simp)
          rw [hqfree] at this
          exact absurd this (by simp)
        | cons d ds =>
          obtain ⟨hd, hdpos, hds⟩ := hpre₂
          have hle := hds.le
          simp only [Block.stop] at hd hle
          omega
      have hqstop := hpre₂.le
      simp only [Block.stop] at hqstop
      rw [FreeList.mergePrevious, if_pos hne, hstart, hread]
      simp only
      rw [addWord_of_lt (by omega), Checked.ok_bind, if_neg hqb]
      simp [sizeOf]
  | some q =>
    obtain rfl : pre = pre' ++ [q] := hn.pre_eq
    have hqfree : isFree q = true := hn.left_free q (by simp)
    have hq : lastFree? (pre' ++ [q]) = some q := lastFree?_append_of_free hqfree
    have hstart : lastFree (pre' ++ [q]) = q.start := by simp [lastFree, hq]
    have hread := readHeader_lastFree h hq
    obtain ⟨-, hqpos, hqb⟩ := hpre.bounds_of_split
    simp only [tiles_nil, Block.stop] at hqb
    have hne : q.start ≠ noneOffset := by simp only [noneOffset]; omega
    have hbefore : list.previousFree arena q.start = some (lastFree pre') :=
      previousFree_eq (show Linked list arena (pre' ++ q :: b :: post) by simpa using h) hqfree
    rw [FreeList.mergePrevious, hstart, if_pos hne, hread]
    simp only
    rw [addWord_of_lt (by omega), Checked.ok_bind, if_pos hqb, addWord_of_lt (by omega),
      Checked.ok_bind, hbefore]
    simp only [sizeOf, Option.map_some, Option.getD_some]
    rw [show b.start - q.size = q.start by omega]
    rfl

/-- The block that a released block and its free neighbours become. -/
def merged (b : HeapBlock) (left right : Option HeapBlock) : HeapBlock where
  start := b.start - sizeOf left
  size := b.size + sizeOf right + sizeOf left
  tag := none

/-- The merged block covers the blocks it is made of. -/
lemma tiles_merged {lo hi : ℕ} (ht : Tiles lo hi (left.toList ++ b :: right.toList)) :
    Tiles lo hi [merged b left right] := by
  cases left <;> cases right <;>
    simp only [Option.toList_none, Option.toList_some, List.nil_append, List.cons_append,
      tiles_cons,
      tiles_nil, Block.stop, merged, sizeOf, Option.map_none, Option.map_some, Option.getD_none,
      Option.getD_some] at ht ⊢ <;>
    omega

/-- The merged block is well formed. -/
lemma wellFormed_merged (hwf : ∀ c ∈ left.toList ++ b :: right.toList, WellFormed c) :
    WellFormed (merged b left right) := by
  have hb := hwf b (by simp)
  have hb1 := hb.start_mod
  have hb2 := hb.size_mod
  have hb3 := hb.header_le
  have hsizes : ∀ o : Option HeapBlock, (∀ c ∈ o, WellFormed c) → sizeOf o % headerAlign = 0 := by
    intro o ho
    cases o with
    | none => rfl
    | some c => exact (ho c rfl).size_mod
  have hl := hsizes left fun c hc => hwf c (by simp [Option.mem_def.mp hc])
  have hr := hsizes right fun c hc => hwf c (by simp [Option.mem_def.mp hc])
  simp only [headerAlign] at hb1 hb2 hl hr
  refine ⟨?_, ?_, ?_, fun n hn => absurd hn (by simp [merged])⟩
  · simp only [merged, headerAlign]; omega
  · simp only [merged, headerAlign]; omega
  · simp only [merged]; omega

/-- The blocks after a release. -/
lemma Linked.release (h : Linked list arena (pre ++ b :: post))
    (hn : Neighbours pre post pre' left right post') :
    Linked (replaced list arena pre' [merged b left right] post').1
      (replaced list arena pre' [merged b left right] post').2
      (pre' ++ [merged b left right] ++ post') := by
  have hmid : pre ++ b :: post = pre' ++ (left.toList ++ b :: right.toList) ++ post' := by
    rw [hn.pre_eq, hn.post_eq]
    simp
  rw [hmid] at h
  have hsep := h.separated
  rw [List.append_assoc, List.isChain_append, List.isChain_append] at hsep
  refine h.replace (fun lo hi ht => tiles_merged ht) (fun c hc => ?_) ?_ (by simp)
  · rw [List.mem_singleton.mp hc]
    exact wellFormed_merged fun d hd => h.wellFormed d (by
      rw [List.mem_append, List.mem_append]
      exact Or.inl (Or.inr hd))
  · rw [List.append_assoc, List.isChain_append]
    refine ⟨hsep.1, List.isChain_cons.mpr ⟨fun y hy => ?_, hsep.2.1.2.1⟩, fun x hx y _ => ?_⟩
    · simp [hn.post'_live y hy]
    · simp [hn.pre'_live x hx]

/-- The writes of `dealloc` replace the block and its neighbours by the merged block. -/
lemma link_eq (h : Linked list arena (pre ++ b :: post))
    (hn : Neighbours pre post pre' left right post') :
    list.link arena (merged b left right).start (merged b left right).size (lastFree pre')
        (firstFree noneOffset post') =
      (replaced list arena pre' [merged b left right] post').1.recompute
        (replaced list arena pre' [merged b left right] post').2 >>= fun list' =>
      .ok (.ok (), list', (replaced list arena pre' [merged b left right] post').2) := by
  have hnew := h.release hn
  have hin := hnew.start_add_le (b := merged b left right) (by simp)
  rw [length_replaced] at hin
  have hset : setHeaders arena (firstFree noneOffset post') [merged b left right] =
      setHeader arena (merged b left right).start magicFree (merged b left right).size
        (firstFree noneOffset post') := rfl
  have hpre : Linked list arena (pre' ++ (left.toList ++ b :: post)) := by
    rw [← List.append_assoc, ← hn.pre_eq]
    exact h
  rw [FreeList.link, writeHeader_of_le hin, Checked.ok_bind, ← hset]
  cases hq : lastFree? pre' with
  | none =>
    rw [if_pos ((lastFree_eq_noneOffset_iff hpre).mpr hq), replaced, hq]
    rfl
  | some q =>
    have hne : lastFree pre' ≠ noneOffset := fun hcon => by
      rw [(lastFree_eq_noneOffset_iff hpre).mp hcon] at hq
      exact absurd hq (by simp)
    have hstart : lastFree pre' = q.start := by simp [lastFree, hq]
    have hread := readHeader_lastFree hpre hq
    obtain ⟨pre₁, pre₂, rfl, -, -⟩ := exists_split_of_lastFree? hq
    have hqin := hpre.start_add_le (b := q) (by simp)
    -- the header just written is that of another block
    have hqm : q ≠ merged b left right := by
      have hnd := hnew.tiles.nodup
      simp only [List.append_assoc, List.cons_append, List.nodup_append, List.nodup_cons] at hnd
      intro hcon
      exact hnd.2.1.1 (by simp [hcon])
    have hdisj := header_disjoint hnew.tiles hnew.wellFormed (a := q) (by simp)
      (b := merged b left right) (by simp) hqm
    have hread' : readHeader (setHeaders arena (firstFree noneOffset post') [merged b left right])
        q.start = some (magicFree, q.size, firstFree noneOffset (left.toList ++ b :: post)) := by
      rw [hset, readHeader_setHeader_of_disjoint _ _ _ _ hdisj, hread]
    rw [if_neg hne, hstart, hread', replaced, hq]
    simp only
    rw [writeHeader_of_le (by rwa [length_setHeaders]), Checked.ok_bind]
    rfl

end Merge

/-! ## The tests of `dealloc` -/

section Tests

variable {list : FreeList} {arena : Slice UInt8} {bs pre post : List HeapBlock} {b : HeapBlock}
  {offset blockSize : ℕ}

/-- The tests `dealloc` makes on an offset and on the bytes in front of it, before it looks at the
free list; `blockSize` is the size found there. -/
structure HeaderTests (list : FreeList) (arena : Slice UInt8) (offset blockSize : ℕ) : Prop where
  arenaMatches : list.arenaMatches arena = true
  header_le : headerSize ≤ offset
  lt_arenaLen : offset < list.arenaLen
  mod_eq : offset % headerAlign = 0
  header : ∃ next, readHeader arena (offset - headerSize) = some (magicAlloc, blockSize, next)
  size_le : headerSize ≤ blockSize
  end_le : offset - headerSize + blockSize ≤ list.arenaLen

/-- With these tests passed, it depends on the free list. -/
lemma dealloc_eq_release (h : HeaderTests list arena offset blockSize)
    (hlen : list.arenaLen < 2 ^ 63) :
    list.dealloc arena offset = list.release arena (offset - headerSize) blockSize
      (offset - headerSize + blockSize) offset := by
  obtain ⟨next, hread⟩ := h.header
  have h1 : ¬ (list.arenaMatches arena = false ∨ offset < headerSize ∨ list.arenaLen ≤ offset ∨
      offset % headerAlign ≠ 0) := by
    simp [h.arenaMatches, h.header_le, h.lt_arenaLen, h.mod_eq]
  have h2 : ¬ (blockSize < headerSize ∨ list.arenaLen < offset - headerSize + blockSize) := by
    simp [h.size_le, h.end_le]
  have h3 : offset - headerSize + blockSize < 2 ^ 64 := h.end_le.trans_lt (by omega)
  rw [FreeList.dealloc, if_neg h1]
  simp only [hread, checkedAdd_of_lt h3, if_neg h2]
  rw [if_neg (by decide), if_neg (by decide)]

/-- An offset that fails one of these tests is refused. -/
lemma dealloc_of_not_tests (h : ∀ blockSize, ¬ HeaderTests list arena offset blockSize) :
    ∃ e, list.dealloc arena offset = .ok (.error e, list, arena) := by
  unfold FreeList.dealloc
  split_ifs with h1
  · exact ⟨_, rfl⟩
  · simp only [not_or, Bool.not_eq_false, not_lt, not_le, not_not] at h1
    cases hread : readHeader arena (offset - headerSize) with
    | none => simp only [hread]; exact ⟨_, rfl⟩
    | some t =>
      obtain ⟨magic, blockSize, next⟩ := t
      simp only [hread]
      split_ifs with h2 h3
      · exact ⟨_, rfl⟩
      · exact ⟨_, rfl⟩
      · rw [not_not] at h3
        subst h3
        cases hend : checkedAdd (offset - headerSize) blockSize with
        | none => exact ⟨_, rfl⟩
        | some blockEnd =>
          obtain ⟨-, rfl⟩ := checkedAdd_eq_some_iff.mp hend
          simp only
          split_ifs with h4
          · exact ⟨_, rfl⟩
          · rw [not_or, not_lt, not_lt] at h4
            exact absurd ⟨h1.1, h1.2.1, h1.2.2.1, h1.2.2.2, ⟨next, hread⟩, h4.1, h4.2⟩
              (h blockSize)

/-- The tests are passed by every allocated block. -/
lemma headerTests_of_live (h : Linked list arena (pre ++ b :: post)) {size : ℕ}
    (htag : b.tag = some size) : HeaderTests list arena (b.start + headerSize) b.size := by
  have hwf := h.wellFormed b (by simp)
  have hstop := h.stop_le (b := b) (by simp)
  have hmod := hwf.start_mod
  obtain ⟨hpos, hreq⟩ := hwf.request size htag
  simp only [headerSize, headerAlign, Block.stop] at hreq hstop hmod
  refine ⟨h.arenaMatches (by simp), ?_, ?_, ?_, ⟨noneOffset, ?_⟩, hwf.header_le, ?_⟩
  · exact Nat.le_add_left _ _
  · simp only [headerSize]; omega
  · simp only [headerSize, headerAlign]; omega
  · rw [Nat.add_sub_cancel, Headers.of_split h.headers]
    simp [headerOf, isFree, htag]
  · rw [Nat.add_sub_cancel]
    exact hstop

/-- The new state after a release: the block `b` and its neighbours have become one free block. -/
structure Released (list : FreeList) (arena : Slice UInt8) (pre' : List HeapBlock)
    (b : HeapBlock) (left right : Option HeapBlock) (post' : List HeapBlock) (list' : FreeList)
    (arena' : Slice UInt8) : Prop where
  /-- The merged block takes the place of the others. -/
  layout : Layout list' arena' (pre' ++ [merged b left right] ++ post')
  /-- The list manages the same bytes. -/
  arenaLen_eq : list'.arenaLen = list.arenaLen
  /-- The arena is as long as before. -/
  length_eq : arena'.length = arena.length
  /-- Nothing is written into a payload. -/
  get?_eq : ∀ c ∈ pre' ++ [merged b left right] ++ post', ∀ i,
    c.start + headerSize ≤ i → i < c.stop → arena'.get? i = arena.get? i

/-- No free block meets an allocated one. -/
lemma not_meets_of_live (ht : Tiles 0 list.arenaLen (pre ++ b :: post)) (hb : isFree b = false) :
    ∀ c ∈ pre ++ b :: post, isFree c = true → ¬ Meets b.start b.stop c := by
  rintro c hc hfree ⟨h1, h2⟩
  have hpos := (ht.bounds_of_mem (b := b) (by simp)).2.1
  have hcpos := (ht.bounds_of_mem hc).2.1
  have hcb : c = b := by
    refine ht.eq_of_contains hc (by simp) (p := max c.start b.start) ?_ ?_ <;>
      · simp only [Block.Contains, Block.stop] at h1 h2 ⊢
        omega
  rw [hcb, hb] at hfree
  exact absurd hfree (by simp)

/-- `dealloc` of an allocated block succeeds. -/
lemma dealloc_live (h : Linked list arena (pre ++ b :: post)) {size : ℕ}
    (htag : b.tag = some size) :
    ∃ pre' left right post' list' arena', Neighbours pre post pre' left right post' ∧
      list.dealloc arena (b.start + headerSize) = .ok (.ok (), list', arena') ∧
      Released list arena pre' b left right post' list' arena' := by
  have hlive : isFree b = false := by simp [isFree, htag]
  have hlen := h.arenaLen_lt
  obtain ⟨pre', left, right, post', hn⟩ := exists_neighbours h.separated
  have hnew := h.release hn
  obtain ⟨list', hrecompute, hlayout, harenaLen⟩ := hnew.recompute
  refine ⟨pre', left, right, post', list', (replaced list arena pre' [merged b left right] post').2,
    hn, ?_, hlayout, ?_, ?_, ?_⟩
  · have hpos := h.tiles.bounds_of_split.2.1
    have hwalk : list.insertPoint arena b.start b.stop (b.start + headerSize) list.maxBlocks
        noneOffset list.head = .ok (.ok (lastFree pre, firstFree noneOffset post)) := by
      obtain ⟨hbefore, hfrom⟩ := startingBefore_of_split h.tiles
      rcases h.walkOutcome (show b.start < b.stop by simp only [Block.stop]; omega)
        (b.start + headerSize) with
        ⟨⟨c, hc, hfree, hmeets⟩, -⟩ | ⟨-, heq⟩
      · exact absurd hmeets (not_meets_of_live h.tiles hlive c hc hfree)
      · rw [hbefore, hfrom, firstFree_cons_of_live hlive] at heq
        exact heq
    have hright : b.size + sizeOf right ≤ list.arenaLen := by
      have := hnew.stop_le (b := merged b left right) (by simp)
      simp only [Block.stop, merged, arenaLen_replaced] at this
      omega
    have hlink := link_eq h hn
    simp only [merged] at hlink
    rw [dealloc_eq_release (headerTests_of_live h htag) hlen, Nat.add_sub_cancel, FreeList.release,
      show b.start + b.size = b.stop from rfl, hwalk, Checked.ok_bind]
    simp only [mergeNext_eq h hn, mergePrevious_eq h hn hright, Checked.ok_bind, hlink, merged]
    simp only [merged] at hrecompute
    rw [hrecompute, Checked.ok_bind]
  · rw [harenaLen, arenaLen_replaced]
  · exact length_replaced _ _ _ _ _
  · exact fun c hc i hi hi' => hnew.get?_replaced hc hi hi'

/-- The bytes in front of the offset look like the header of an allocated block, of a block that
meets no free block. -/
def Credible (list : FreeList) (arena : Slice UInt8) (bs : List HeapBlock) (offset : ℕ) : Prop :=
  ∃ blockSize, HeaderTests list arena offset blockSize ∧
    ∀ b ∈ bs, isFree b = true → ¬ Meets (offset - headerSize) (offset - headerSize + blockSize) b

/-- An offset that is not credible is refused, and nothing changes. -/
lemma dealloc_of_not_credible (h : Linked list arena bs) (hp : ¬ Credible list arena bs offset) :
    ∃ e, list.dealloc arena offset = .ok (.error e, list, arena) := by
  by_cases htests : ∃ blockSize, HeaderTests list arena offset blockSize
  · obtain ⟨blockSize, htests⟩ := htests
    have hpos : offset - headerSize < offset - headerSize + blockSize := by
      have := htests.size_le
      simp only [headerSize] at this ⊢
      omega
    rw [dealloc_eq_release htests h.arenaLen_lt, FreeList.release]
    rcases h.walkOutcome hpos offset with ⟨-, heq⟩ | ⟨hno, -⟩
    · rw [heq]
      exact ⟨.alreadyFree offset, rfl⟩
    · exact absurd ⟨blockSize, htests, hno⟩ hp
  · exact dealloc_of_not_tests (not_exists.mp htests)

/-- The pointers of the list: the end mark, or the start of a free block. -/
def Points (bs : List HeapBlock) (p : ℕ) : Prop :=
  p = noneOffset ∨ ∃ b ∈ bs, isFree b = true ∧ p = b.start

lemma points_firstFree {cs : List HeapBlock} (hsub : ∀ b ∈ cs, b ∈ bs) :
    Points bs (firstFree noneOffset cs) := by
  rw [firstFree_eq_headD]
  cases hf : frees cs with
  | nil => exact Or.inl rfl
  | cons c rest =>
    obtain ⟨hc, hfree⟩ := mem_frees.mp (hf ▸ List.mem_cons_self : c ∈ frees cs)
    exact Or.inr ⟨c, hsub c hc, hfree, rfl⟩

lemma points_lastFree {cs : List HeapBlock} (hsub : ∀ b ∈ cs, b ∈ bs) :
    Points bs (lastFree cs) := by
  cases hq : lastFree? cs with
  | none => exact Or.inl (by simp [lastFree, hq])
  | some q =>
    obtain ⟨cs₁, cs₂, rfl, hfree, -⟩ := exists_split_of_lastFree? hq
    exact Or.inr ⟨q, hsub q (by simp), hfree, by simp [lastFree, hq]⟩

/-- The first merge does not fail on a layout (it may stop with an overflow). -/
lemma mergeNext_ne_error (h : Linked list arena bs) {current : ℕ} (hc : Points bs current)
    (blockEnd size : ℕ) (e : FreeListError) :
    FreeList.mergeNext arena blockEnd size current ≠ .ok (.error e) := by
  unfold FreeList.mergeNext
  split_ifs with hcond
  · rcases hc with hnone | ⟨b, hb, -, rfl⟩
    · exact absurd hnone hcond.1
    · obtain ⟨magic, nextSize, next, hread⟩ := readHeader_isSome (h.start_add_le hb)
      simp only [hread]
      cases addWord size nextSize <;> simp
  · simp

/-- Nor does the second merge, and it keeps to the pointers of the list. -/
lemma mergePrevious_cases (h : Linked list arena bs) {previous : ℕ} (hp : Points bs previous)
    (start size : ℕ) {result : Except FreeListError (ℕ × ℕ × ℕ)}
    (hresult : list.mergePrevious arena start size previous = .ok result) :
    ∃ start' size' previous', result = .ok (start', size', previous') ∧ Points bs previous' := by
  unfold FreeList.mergePrevious at hresult
  rcases hp with rfl | ⟨q, hq, hqfree, rfl⟩
  · simp only [ne_eq, not_true_eq_false, if_false, Checked.pure_eq_ok, Except.ok.injEq] at hresult
    exact ⟨_, _, _, hresult.symm, Or.inl rfl⟩
  · obtain ⟨pre, post, rfl⟩ := List.append_of_mem hq
    have hlen := h.arenaLen_lt
    have hstop := h.stop_le hq
    simp only [Block.stop] at hstop
    have hne : q.start ≠ noneOffset := by simp only [noneOffset]; omega
    rw [if_pos hne, h.readHeader_free hqfree] at hresult
    simp only at hresult
    obtain ⟨stop, -, hresult⟩ := Checked.bind_eq_ok.mp hresult
    split_ifs at hresult with hmerge
    · obtain ⟨size', -, hresult⟩ := Checked.bind_eq_ok.mp hresult
      rw [previousFree_eq h hqfree] at hresult
      simp only [Checked.pure_eq_ok, Except.ok.injEq] at hresult
      exact ⟨_, _, _, hresult.symm, points_lastFree fun b hb => by simp [hb]⟩
    · simp only [Checked.pure_eq_ok, Except.ok.injEq] at hresult
      exact ⟨_, _, _, hresult.symm, Or.inr ⟨q, hq, hqfree, rfl⟩⟩

/-- The block of a pointer has its header in the arena. -/
lemma Points.le_length (h : Linked list arena bs) {p : ℕ} (hp : Points bs p) :
    p = noneOffset ∨ p + 24 ≤ arena.length := by
  rcases hp with rfl | ⟨q, hq, -, rfl⟩
  · exact .inl rfl
  · exact .inr (h.start_add_le hq)

/-- The writes of `dealloc` do not fail: the first of them does not change whether the header of
the block before can be read. -/
lemma link_ne_error {previous : ℕ} (hp : previous = noneOffset ∨ previous + 24 ≤ arena.length)
    (start size current : ℕ) (e : FreeListError) (list' : FreeList) (arena' : Slice UInt8) :
    list.link arena start size previous current ≠ .ok (.error e, list', arena') := by
  intro hlink
  unfold FreeList.link at hlink
  obtain ⟨arena₁, hwrite, hlink⟩ := Checked.bind_eq_ok.mp hlink
  split_ifs at hlink with hnone
  · obtain ⟨list₁, -, hlink⟩ := Checked.bind_eq_ok.mp hlink
    simp at hlink
  · have hin : previous + 24 ≤ arena₁.length := by
      rw [length_of_writeHeader hwrite]
      exact hp.resolve_left hnone
    obtain ⟨magic, previousSize, next, hread⟩ := readHeader_isSome hin
    simp only [hread] at hlink
    obtain ⟨arena₂, -, hlink⟩ := Checked.bind_eq_ok.mp hlink
    obtain ⟨list₁, -, hlink⟩ := Checked.bind_eq_ok.mp hlink
    simp at hlink

/-- A credible offset is not refused. -/
lemma dealloc_of_credible (h : Linked list arena bs) (hp : Credible list arena bs offset)
    (e : FreeListError) (list' : FreeList) (arena' : Slice UInt8) :
    list.dealloc arena offset ≠ .ok (.error e, list', arena') := by
  obtain ⟨blockSize, htests, hno⟩ := hp
  have hpos : offset - headerSize < offset - headerSize + blockSize := by
    have := htests.size_le
    simp only [headerSize] at this ⊢
    omega
  have hsub : ∀ header, (∀ b ∈ startingBefore header bs, b ∈ bs) ∧
      ∀ b ∈ startingFrom header bs, b ∈ bs := fun header =>
    ⟨fun b hb => List.mem_of_mem_filter hb, fun b hb => List.mem_of_mem_filter hb⟩
  intro hdealloc
  rw [dealloc_eq_release htests h.arenaLen_lt, FreeList.release] at hdealloc
  rcases h.walkOutcome hpos offset with ⟨⟨b, hb, hfree, hmeets⟩, -⟩ | ⟨-, heq⟩
  · exact hno b hb hfree hmeets
  · rw [heq, Checked.ok_bind] at hdealloc
    simp only [List.nil_append] at hdealloc
    obtain ⟨next, hnext, hdealloc⟩ := Checked.bind_eq_ok.mp hdealloc
    rcases next with e' | ⟨size, current⟩
    · exact mergeNext_ne_error h (points_firstFree (hsub _).2) _ _ _ hnext
    · obtain ⟨previous, hprevious, hdealloc⟩ := Checked.bind_eq_ok.mp hdealloc
      obtain ⟨start', size', previous', rfl, hpoints⟩ :=
        mergePrevious_cases h (points_lastFree (hsub _).1) _ _ hprevious
      exact link_ne_error (hpoints.le_length h) _ _ _ _ _ _ hdealloc

end Tests

end Heap

end ParanukOS
