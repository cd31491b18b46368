import ParanukOS.Kernel.Memory.HeapCheck
import ParanukOS.Kernel.Memory.Owned
import ParanukOS.KernelMemory.Frame.Offers

/-!
# The self-check succeeds

After `init_allocators` has returned, the self-check of the memory finds nothing wrong: whatever the
boot information says, whatever the memory map contains and whatever bytes the heap has at first, it
returns and leaves both allocators as they were.  The only exception is an allocator that has less
than two frames left, which is the failure that the check then reports.

## Outline

* `exists_allocAgain`, `exists_freeAgain`: one call of the check.
* `returns_checkNoneFree`: no frame of an owned range is free.
* `frameSelfCheck_returns`, `frameSelfCheck_throws`: the check of the frame allocator.
* `selfCheck_returns`, `selfCheck_throws`: the whole check after `init_allocators`.
* `memory_self_check_exact`: the main theorem.
-/

namespace ParanukOS

open Foundation Foundation.Fallible KernelMemory FrameAllocator Heap

namespace Kernel

variable {info : BootInfo} {statics : Statics} {map : MemoryMap} {a₀ a : FrameAllocator}
  {S : Finset ℕ}

/-! ## Frames -/

/-- The frames that are free are those that are not lent. -/
lemma freeSet_of_lent (h : Lent a₀ S a) : a.freeSet = a₀.freeSet \ S := by
  ext i
  rw [mem_freeSet, Finset.mem_sdiff, mem_freeSet, h.freeAt_eq_true_iff, h.window.frames_eq,
    and_assoc]

/-- An allocator without a free frame. -/
lemma alloc_eq_none (hfresh : Fresh map a₀) (h : Lent a₀ S a) (hempty : a.freeSet = ∅) :
    a.alloc = .ok (none, a) := by
  rcases h.alloc hfresh with ⟨heq, -⟩ | ⟨i, a', -, hrun, -⟩
  · exact heq
  · have hmem : i ∈ a.freeSet := mem_freeSet.mpr ⟨hrun.1, hrun.2 0 one_pos⟩
    rw [hempty] at hmem
    exact absurd hmem (Finset.notMem_empty i)

/-- A call of `alloc` while there is a free frame. -/
lemma exists_allocAgain (hfresh : Fresh map a₀) (h : Lent a₀ S a) (hfree : a.freeSet.Nonempty) :
    ∃ i a', allocAgain a = pure (⟨a₀.addressOf i⟩, a') ∧ i ∉ S ∧ Lent a₀ (insert i S) a' := by
  rcases h.alloc hfresh with ⟨-, hnone⟩ | ⟨i, a', heq, hrun, -, hlent⟩
  · obtain ⟨k, hk⟩ := hfree
    obtain ⟨hlt, hbit⟩ := mem_freeSet.mp hk
    refine absurd ⟨hlt, fun j hj => ?_⟩ (hnone k)
    rwa [Nat.lt_one_iff.mp hj]
  · rw [Nat.Ico_succ_singleton, Finset.union_comm, ← Finset.insert_eq] at hlent
    refine ⟨i, a', ?_, h.notMem_of_runAt hrun le_rfl (Nat.lt_succ_self i), hlent⟩
    rw [allocAgain, heq, lift_ok, pure_bind]
    rfl

/-- A call of `free` with a frame that is lent. -/
lemma exists_freeAgain (hfresh : Fresh map a₀) (h : Lent a₀ S a) {i : ℕ} (hi : i ∈ S) :
    ∃ a', freeAgain a ⟨a₀.addressOf i⟩ = pure a' ∧ Lent a₀ (S.erase i) a' := by
  obtain ⟨a', heq, hlent⟩ := h.free_of_mem hfresh hi
  refine ⟨a', ?_, hlent⟩
  rw [freeAgain, heq, lift_ok, pure_bind]
  rfl

/-- The owned ranges end inside of the address space. -/
lemma stop_lt_of_mem_ownedRanges {range : ReservedRange} (h : range ∈ ownedRanges info statics) :
    range.stop < 2 ^ 64 := by
  have hpage : ∀ start len, (pageRange start len).stop < 2 ^ 64 := by
    intro start len
    rw [pageRange]
    split_ifs
    · exact Nat.two_pow_pos 64
    · exact Nat.and_le_left.trans_lt ((min_le_right _ _).trans_lt (by norm_num))
  simp only [ownedRanges, List.mem_cons, List.not_mem_nil, or_false] at h
  rcases h with rfl | rfl | rfl | rfl | rfl | rfl | rfl | rfl
  all_goals first | exact hpage _ _ | exact Nat.two_pow_pos 64

/-- No frame of an owned range is free. -/
lemma returns_checkNoneFree {config : Config}
    (hinitial : Initial map (ownedRanges info statics) config a₀) (h : Lent a₀ S a)
    (what : String) :
    Returns ((ownedRanges info statics).forM (checkNoneFree a what)) () := by
  refine forM_returns fun range hrange => ?_
  rw [checkNoneFree, firstFreeIn_reserved hinitial h hrange (stop_lt_of_mem_ownedRanges hrange),
    lift_ok, pure_bind]
  exact returns_pure.mpr rfl

/-! ## The check of the frame allocator -/

/-- The check succeeds when there are two free frames. -/
lemma frameSelfCheck_returns {config : Config}
    (hinitial : Initial map (ownedRanges info statics) config a₀) (h : Lent a₀ S a)
    (hheap : S.card = heapSize / pageSize) (hfree : 2 ≤ a.freeSet.card) :
    Returns (frameSelfCheck info statics a₀.stats.free a) a := by
  have hfresh := hinitial.fresh
  obtain ⟨i, a₁, halloc₁, hi, h₁⟩ := exists_allocAgain hfresh h
    (Finset.card_pos.mp (by omega))
  have hfree₁ : a₁.freeSet.Nonempty := by
    rw [freeSet_of_lent h₁, Finset.sdiff_insert, ← freeSet_of_lent h]
    refine Finset.card_pos.mp ?_
    have hle := Finset.pred_card_le_card_erase (s := a.freeSet) (a := i)
    omega
  obtain ⟨j, a₂, halloc₂, hj, h₂⟩ := exists_allocAgain hfresh h₁ hfree₁
  have hne : i ≠ j := by
    rintro rfl
    exact hj (Finset.mem_insert_self i S)
  have hframes : (⟨a₀.addressOf i⟩ : PhysFrame) ≠ ⟨a₀.addressOf j⟩ := fun hcon =>
    hne (a₀.addressOf_injective (PhysFrame.mk.inj hcon))
  -- after both frames have been freed the allocator is the one of the beginning
  obtain ⟨a₃, hfree₃, h₃⟩ := exists_freeAgain hfresh h₂
    (Finset.mem_insert_of_mem (Finset.mem_insert_self i S))
  obtain ⟨a₄, hfree₄, h₄⟩ := exists_freeAgain hfresh h₃
    (Finset.mem_erase.mpr ⟨hne.symm, Finset.mem_insert_self j _⟩)
  have hset : ((insert j (insert i S)).erase i).erase j = S := by
    rw [Finset.erase_right_comm, Finset.erase_insert hj, Finset.erase_insert hi]
  rw [hset] at h₄
  obtain rfl := h₄.ext h
  obtain ⟨a₅, hfree₅, h₅⟩ := exists_freeAgain hfresh h₁ (Finset.mem_insert_self i S)
  rw [Finset.erase_insert hi] at h₅
  obtain rfl := h₅.ext h
  obtain ⟨e, hrefused⟩ := h.free_of_notMem hfresh
    (fun k hk (hcon : a₀.addressOf i = a₀.addressOf k) => hi (a₀.addressOf_injective hcon ▸ hk))
  have hreserved : a₅.reservedRanges = ownedRanges info statics :=
    h.window.reserved_eq.trans hinitial.reserved_eq
  have hcount : a₅.stats.free + heapSize / pageSize = a₀.stats.free := hheap ▸ h.freeFrames_eq
  have hword : a₅.stats.free + heapSize / pageSize < 2 ^ 64 := by
    rw [hcount]
    exact hfresh.freeFrames_lt
  rw [frameSelfCheck, halloc₁, pure_bind]
  simp only
  rw [halloc₂, pure_bind]
  simp only
  rw [throwIf_of_not hframes, pure_bind, hfree₃, pure_bind, hfree₄, pure_bind, halloc₁, pure_bind]
  simp only
  rw [throwIf_of_not (not_not.mpr rfl), pure_bind, hfree₅, pure_bind, hrefused, lift_ok, pure_bind]
  simp only
  rw [throwIf_of_not (by rintro ⟨⟩), pure_bind, hreserved]
  refine returns_bind.mpr ⟨(), returns_checkNoneFree hinitial h _,
    returns_bind.mpr ⟨(), returns_checkNoneFree hinitial h _, ?_⟩⟩
  rw [addWord_of_lt hword, lift_ok, pure_bind, hcount, throwIf_of_not (not_not.mpr rfl), pure_bind]
  exact returns_pure.mpr rfl

/-- The failure of the check when there are less than two free frames. -/
lemma frameSelfCheck_throws (info : BootInfo) (statics : Statics) (hfresh : Fresh map a₀)
    (h : Lent a₀ S a) (before : ℕ) (hfree : a.freeSet.card < 2) :
    Throws (frameSelfCheck info statics before a) (failure 6 "页帧分配器已无空闲页帧" 0) := by
  have hthrows : ∀ {S : Finset ℕ} {a : FrameAllocator}, Lent a₀ S a → a.freeSet = ∅ →
      Throws (allocAgain a) (failure 6 "页帧分配器已无空闲页帧" 0) := by
    intro S a h hempty
    rw [allocAgain, alloc_eq_none hfresh h hempty, lift_ok, pure_bind]
    exact throws_throw.mpr rfl
  rw [frameSelfCheck]
  rcases Finset.eq_empty_or_nonempty a.freeSet with hempty | hnonempty
  · exact throws_bind.mpr (.inl (hthrows h hempty))
  · obtain ⟨i, a₁, halloc₁, hi, h₁⟩ := exists_allocAgain hfresh h hnonempty
    have hmem : i ∈ a.freeSet := by
      rw [freeSet_of_lent h]
      exact Finset.mem_sdiff.mpr ⟨h₁.subset (Finset.mem_insert_self i S), hi⟩
    have hempty₁ : a₁.freeSet = ∅ := by
      rw [freeSet_of_lent h₁, Finset.sdiff_insert, ← freeSet_of_lent h, ← Finset.card_eq_zero,
        Finset.card_erase_of_mem hmem]
      omega
    rw [halloc₁, pure_bind]
    exact throws_bind.mpr (.inl (hthrows h₁ hempty₁))

/-! ## The main theorem -/

/-- What `init_allocators` stores before it takes the heap. -/
lemma freeFramesAfterInit_returns_iff {bitmap bytes : Slice UInt8} {limit before : ℕ}
    (hmap : bootInfoMemoryMap info bytes = .ok map)
    (hinit : FrameAllocator.init bitmap map (ownedRanges info statics)
      (.new (min limit maxIdentityBytes)) = .ok (.ok a₀)) :
    Returns (freeFramesAfterInit info statics bitmap bytes limit) before ↔
      a₀.stats.free = before := by
  simp only [freeFramesAfterInit, returns_bind, returns_mapError, returns_ofExcept, returns_mk,
    returns_pure, hmap, hinit, Except.ok.injEq, exists_eq_left']

/-- The place of the heap. -/
lemma heap_place {start : ℕ} (hfirst : 0 < a₀.firstFrame)
    (hrun : a₀.RunAt (heapSize / pageSize) start) :
    0 < a₀.addressOf start ∧ a₀.addressOf start + heapSize < 2 ^ 64 := by
  refine ⟨Nat.mul_pos (Nat.add_pos_left hfirst start) (by decide), ?_⟩
  have hsize : heapSize = heapSize / pageSize * pageSize := by decide
  have hle : a₀.addressOf (start + heapSize / pageSize) ≤
      (a₀.firstFrame + a₀.frames) * pageSize := by
    rw [addressOf]
    exact Nat.mul_le_mul_right _ (Nat.add_le_add_left hrun.1 _)
  rw [hsize, ← addressOf_add]
  exact hle.trans_lt a₀.stop_lt

section Init

variable {bitmap bytes contents arena : Slice UInt8} {limit before : ℕ} {layout : MemoryLayout}
  {heap : KernelHeap} (blockLayout : Stored (Option ByteVec)) (vecLayout : Stored ByteVec)

/-- The check of the heap succeeds after `init_allocators`, whatever the heap region contains. -/
lemma heapSelfCheck_of_init (hinit : Returns (initAllocators info statics bitmap bytes limit)
      (layout, a)) (hlength : contents.length = heapSize)
    (hheap : KernelHeap.init layout.heap.1 contents = .ok (heap, arena)) :
    ∃ arena', Returns (heapSelfCheck blockLayout vecLayout ⟨heap, arena⟩) ⟨heap, arena'⟩ := by
  obtain ⟨map, a₀, start, -, hinit₀, hlayout, hrun, -⟩ := initAllocators_returns hinit
  have hfirst : 0 < a₀.firstFrame := by
    rw [(initial_of_init hinit₀).firstFrame_eq]
    exact show 0 < divCeil minFreeAddr pageSize by decide
  obtain ⟨hpos, hstop⟩ := heap_place hfirst hrun
  rw [hlayout] at hheap
  have hheld := held_init hpos (hlength ▸ hstop) hheap
  rw [hlength] at hheld
  obtain ⟨⟨heap', arena'⟩, hcheck, -, hsame⟩ :=
    heapSelfCheck_returns blockLayout vecLayout hheld
  obtain rfl : heap' = heap := hsame
  exact ⟨arena', hcheck⟩

/-- The self-check succeeds if two frames are free. -/
lemma selfCheck_returns (hinit : Returns (initAllocators info statics bitmap bytes limit)
      (layout, a)) (hbefore : Returns (freeFramesAfterInit info statics bitmap bytes limit) before)
    (hlength : contents.length = heapSize)
    (hheap : KernelHeap.init layout.heap.1 contents = .ok (heap, arena))
    (hfree : 2 ≤ a.freeSet.card) : ∃ arena',
    Returns (selfCheck blockLayout vecLayout info statics before ⟨heap, arena⟩ a)
      (⟨heap, arena'⟩, a) := by
  obtain ⟨arena', hcheck⟩ := heapSelfCheck_of_init blockLayout vecLayout hinit hlength hheap
  obtain ⟨map, a₀, start, hmap, hinit₀, -, -, hlent⟩ := initAllocators_returns hinit
  obtain rfl := (freeFramesAfterInit_returns_iff hmap hinit₀).mp hbefore
  have hframes := frameSelfCheck_returns (initial_of_init hinit₀) hlent
    (by rw [Nat.card_Ico, Nat.add_sub_cancel_left]) hfree
  exact ⟨arena', returns_bind.mpr ⟨_, hcheck, returns_bind.mpr
    ⟨_, hframes, returns_pure.mpr rfl⟩⟩⟩

/-- The self-check fails if there are less than two free frames. -/
lemma selfCheck_throws (hinit : Returns (initAllocators info statics bitmap bytes limit)
      (layout, a)) (hbefore : Returns (freeFramesAfterInit info statics bitmap bytes limit) before)
    (hlength : contents.length = heapSize)
    (hheap : KernelHeap.init layout.heap.1 contents = .ok (heap, arena))
    (hfree : a.freeSet.card < 2) : Throws
      (selfCheck blockLayout vecLayout info statics before ⟨heap, arena⟩ a)
      (failure 6 "页帧分配器已无空闲页帧" 0) := by
  obtain ⟨arena', hcheck⟩ := heapSelfCheck_of_init blockLayout vecLayout hinit hlength hheap
  obtain ⟨map, a₀, start, hmap, hinit₀, -, -, hlent⟩ := initAllocators_returns hinit
  obtain rfl := (freeFramesAfterInit_returns_iff hmap hinit₀).mp hbefore
  have hframes := frameSelfCheck_throws info statics (initial_of_init hinit₀).fresh hlent
    a₀.stats.free hfree
  exact throws_bind.mpr (.inr ⟨_, hcheck, throws_bind.mpr (.inl hframes)⟩)

end Init

/-- **The self-check of the memory.**  After `init_allocators` has succeeded, for every boot
information and every memory map, every contents of the heap region and every representation of
vectors in memory, `self_check` returns and leaves the heap and the frame allocator as they are if
two frames are free; otherwise it fails, and says that there is no free frame. -/
theorem memory_self_check_exact (info : BootInfo) (statics : Statics)
    (bitmap bytes contents arena : Slice UInt8) (limit before : ℕ) (layout : MemoryLayout)
    (a : FrameAllocator) (heap : KernelHeap) (blockLayout : Stored (Option ByteVec))
    (vecLayout : Stored ByteVec)
    (hinit : Returns (initAllocators info statics bitmap bytes limit) (layout, a))
    (hbefore : Returns (freeFramesAfterInit info statics bitmap bytes limit) before)
    (hlength : contents.length = heapSize)
    (hheap : KernelHeap.init layout.heap.1 contents = .ok (heap, arena)) :
    (2 ≤ a.freeSet.card → ∃ arena', Returns
      (selfCheck blockLayout vecLayout info statics before ⟨heap, arena⟩ a) (⟨heap, arena'⟩, a)) ∧
    (a.freeSet.card < 2 → Throws
      (selfCheck blockLayout vecLayout info statics before ⟨heap, arena⟩ a)
      (failure 6 "页帧分配器已无空闲页帧" 0)) := by
  constructor
  · intro hfree
    exact selfCheck_returns blockLayout vecLayout hinit hbefore hlength hheap hfree
  · intro hfree
    exact selfCheck_throws blockLayout vecLayout hinit hbefore hlength hheap hfree

/-- A vector in three words, the first one is a flag. -/
def encodeWords (flag : ℕ) (v : ByteVec) : List UInt8 :=
  leBytes 8 flag ++ (leBytes 8 v.ptr ++ leBytes 8 v.len)

/-- The flag and the vector. -/
def decodeWords (bytes : List UInt8) : ℕ × ByteVec :=
  let rest := bytes.drop 8
  (leVal (bytes.take 8), ⟨.ofNat (leVal (rest.take 8)), .ofNat (leVal (rest.drop 8))⟩)

lemma length_encodeWords (flag : ℕ) (v : ByteVec) :
    (encodeWords flag v).length = elementSize := by
  simp [encodeWords, elementSize]

lemma decodeWords_encodeWords {flag : ℕ} (hflag : flag < 2 ^ 64) (v : ByteVec) :
    decodeWords (encodeWords flag v) = (flag, v) := by
  have hptr : UInt64.ofNat (leVal (leBytes 8 v.ptr)) = v.address := by
    rw [leVal_leBytes_of_lt v.address.toNat_lt, ByteVec.ptr, UInt64.ofNat_toNat]
  have hlen : UInt64.ofNat (leVal (leBytes 8 v.len)) = v.count := by
    rw [leVal_leBytes_of_lt v.count.toNat_lt, ByteVec.len, UInt64.ofNat_toNat]
  rw [decodeWords, encodeWords]
  simp only [List.take_left' (length_leBytes _ _), List.drop_left' (length_leBytes _ _), hptr, hlen,
    leVal_leBytes_of_lt (n := 8) hflag]

lemma decodeWords_option (v : Option ByteVec) :
    (let (flag, v) := decodeWords (v.elim (encodeWords 0 ⟨0, 0⟩) (encodeWords 1))
     if flag = 0 then none else some v) = v := by
  cases v with
  | none => rw [Option.elim_none, decodeWords_encodeWords (by decide)]; rfl
  | some v => rw [Option.elim_some, decodeWords_encodeWords (by decide)]; rfl

/-- A representation of vectors that may be there. -/
def optionWords : Stored (Option ByteVec) where
  encode v := v.elim (encodeWords 0 ⟨0, 0⟩) (encodeWords 1)
  decode bytes :=
    let (flag, v) := decodeWords bytes
    if flag = 0 then none else some v
  length_encode v := v.rec (length_encodeWords _ _) (length_encodeWords _)
  decode_encode := decodeWords_option

/-- A representation of vectors. -/
def vecWords : Stored ByteVec where
  encode := encodeWords 1
  decode bytes := (decodeWords bytes).2
  length_encode := length_encodeWords 1
  decode_encode v := congrArg Prod.snd (decodeWords_encodeWords (by decide) v)

/-- A memory map with one region of conventional memory, from 0 to 0x204000. -/
def roomyTable : Slice UInt8 where
  toList := leBytes 8 7 ++ leBytes 8 0 ++ leBytes 8 0 ++ leBytes 8 0x204 ++ leBytes 8 0
  length_lt := by decide

/-- The heap leaves four frames. -/
lemma initAllocators_roomy :
    (initAllocators (lowBoot 0x9000) lowStatics lowBitmap roomyTable 0x204000).returnsAnd
      (fun r => r.2.freeSet.card = 4) = true := by
  decide +kernel

/-- On such a machine the self-check succeeds. -/
theorem memory_self_check_exact_roomy : ∃ layout a before heap arena arena',
    Returns (initAllocators (lowBoot 0x9000) lowStatics lowBitmap roomyTable 0x204000)
      (layout, a) ∧
    KernelHeap.init layout.heap.1 (zeroArena heapSize (by decide)) = .ok (heap, arena) ∧
    Returns (selfCheck optionWords vecWords (lowBoot 0x9000) lowStatics before ⟨heap, arena⟩ a)
      (⟨heap, arena'⟩, a) := by
  obtain ⟨⟨layout, a⟩, hinit, hcard⟩ := returnsAnd_eq_true_iff.mp initAllocators_roomy
  obtain ⟨map, a₀, start, hmap, hinit₀, -⟩ := initAllocators_returns hinit
  obtain ⟨list, arena, -, hlist, -⟩ := init_laid (zeroArena heapSize (by decide))
  have hheap : KernelHeap.init layout.heap.1 (zeroArena heapSize (by decide)) =
      .ok (⟨list, layout.heap.1, arena.length⟩, arena) := by
    rw [KernelHeap.init, hlist]
    rfl
  have hfree : 2 ≤ a.freeSet.card := by
    rw [of_decide_eq_true hcard]
    decide
  obtain ⟨arena', hcheck⟩ := (memory_self_check_exact (lowBoot 0x9000) lowStatics lowBitmap
    roomyTable (zeroArena heapSize (by decide)) arena 0x204000 a₀.stats.free layout a _ optionWords
    vecWords hinit ((freeFramesAfterInit_returns_iff hmap hinit₀).mpr rfl)
    (List.length_replicate ..) hheap).1 hfree
  exact ⟨layout, a, _, _, arena, arena', hinit, hheap, hcheck⟩

end Kernel

end ParanukOS
