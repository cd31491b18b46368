import ParanukOS.KernelMemory.Heap.Capacity

/-!
# The heap as its clients use it

A client of the global allocator has pointers to payloads, and knows what the bytes there are.  All
of this is one assertion: `Held base len held m` says that the heap of `len` bytes at `base` is in
order and that exactly the payloads in the list `held` are allocated, each with its contents.  The
rules below say what the calls of the allocator and the accesses to memory do to such an assertion;
the free list does not occur in them.

## Outline

* `HeapMemory`: the allocator together with the bytes of the heap.
* `Held`, `Room`: the assertion, and when there is room for one more payload.
* `Held.alloc`, `Held.dealloc`, `Held.store`, `Held.load`: the rules.
* `Held.apart`, `Held.stats_of_nil`, `Held.alloc_eq_zero`: what a client can observe.
-/

namespace ParanukOS

open Foundation

namespace Heap

/-- The global allocator and the bytes of its arena. -/
structure HeapMemory where
  /-- The allocator. -/
  heap : KernelHeap
  /-- The bytes of the arena. -/
  arena : Slice UInt8

namespace HeapMemory

/-- `GlobalAlloc::alloc`. -/
def alloc (m : HeapMemory) (size align : ℕ) : Checked (ℕ × HeapMemory) := do
  let (pointer, heap, arena) ← m.heap.alloc m.arena size align
  return (pointer, ⟨heap, arena⟩)

/-- `GlobalAlloc::dealloc`. -/
def dealloc (m : HeapMemory) (pointer : ℕ) : Checked HeapMemory := do
  let (heap, arena) ← m.heap.dealloc m.arena pointer
  return ⟨heap, arena⟩

/-- Some bytes are written to an address of the heap. -/
def store (m : HeapMemory) (address : ℕ) (bytes : List UInt8) : Checked HeapMemory := do
  let arena ← m.arena.write (← subWord address m.heap.base) bytes
  return { m with arena }

/-- Some bytes are read from an address of the heap. -/
def load (m : HeapMemory) (address len : ℕ) : Checked (List UInt8) := do
  match m.arena.range? (← subWord address m.heap.base) len with
  | some bytes => return bytes
  | none => .error .outOfBounds

end HeapMemory

/-- The payloads as offset and size. -/
def offsets (base : ℕ) (held : List (ℕ × List UInt8)) : List (ℕ × ℕ) :=
  held.map fun h => (h.1 - base, h.2.length)

/-- The heap is in order, and exactly the payloads of the list are allocated, each at its pointer
and with its bytes. -/
structure Held (base len : ℕ) (held : List (ℕ × List UInt8)) (m : HeapMemory) : Prop where
  base_eq : m.heap.base = base
  len_eq : m.heap.len = len
  base_pos : 0 < base
  stop_lt : base + len < 2 ^ 64
  length_eq : m.arena.length = len
  arenaLen_eq : m.heap.list.arenaLen = managedLen len
  laid : ∃ bs, Laid ⟨m.heap.list, m.arena, offsets base held⟩ bs
  snug : HeapState.Snug ⟨m.heap.list, m.arena, offsets base held⟩
  base_le : ∀ h ∈ held, base ≤ h.1
  contents : ∀ h ∈ held, ∀ i < h.2.length, m.arena.get? (h.1 - base + i) = h.2[i]?

/-- Whatever the order of the calls was, there is room for one more payload. -/
def Room (len : ℕ) (held : List (ℕ × List UInt8)) (size align : ℕ) : Prop :=
  (held.map fun h => blockBound h.2.length).sum +
    (held.length + 1) * (needed size align - 1) < managedLen len

variable {base len : ℕ} {held : List (ℕ × List UInt8)} {m : HeapMemory} {pointer : ℕ}
  {bytes : List UInt8}

/-- The heap of the kernel after `init`. -/
lemma held_init {arena arena' : Slice UInt8} {heap : KernelHeap} (hpos : 0 < base)
    (hstop : base + arena.length < 2 ^ 64)
    (h : KernelHeap.init base arena = .ok (heap, arena')) :
    Held base arena.length [] ⟨heap, arena'⟩ := by
  obtain ⟨⟨list, arena₀⟩, hinit, h⟩ := Checked.bind_eq_ok.mp h
  obtain ⟨rfl, rfl⟩ := Prod.mk.inj (Except.ok.inj h)
  obtain ⟨list', arena₁, bs, hinit', hlaid, hlength, harenaLen⟩ := init_laid arena
  rw [hinit] at hinit'
  obtain ⟨rfl, rfl⟩ := Prod.mk.inj (Except.ok.inj hinit')
  exact ⟨rfl, hlength, hpos, hstop, hlength, harenaLen, ⟨bs, hlaid⟩,
    fun p hp => absurd hp List.not_mem_nil, fun h hh => absurd hh List.not_mem_nil,
    fun h hh => absurd hh List.not_mem_nil⟩

namespace Held

/-- The order of the payloads does not matter. -/
lemma perm {held' : List (ℕ × List UInt8)} (h : Held base len held m) (hperm : held.Perm held') :
    Held base len held' m := by
  obtain ⟨bs, hlaid⟩ := h.laid
  have hoffsets : (offsets base held).Perm (offsets base held') := hperm.map _
  exact ⟨h.base_eq, h.len_eq, h.base_pos, h.stop_lt, h.length_eq, h.arenaLen_eq,
    ⟨bs, hlaid.1, hoffsets.symm.trans hlaid.2⟩, fun p hp => h.snug p (hoffsets.mem_iff.mpr hp),
    fun x hx => h.base_le x (hperm.mem_iff.mpr hx),
    fun x hx => h.contents x (hperm.mem_iff.mpr hx)⟩

/-- Where a payload lies. -/
lemma bounds (h : Held base len held m) (hmem : (pointer, bytes) ∈ held) :
    0 < bytes.length ∧ base < pointer ∧ pointer + bytes.length ≤ base + len := by
  obtain ⟨bs, hlaid⟩ := h.laid
  have hle := h.base_le _ hmem
  obtain ⟨hpos, hheader, -, hstop, -⟩ := hlaid.bounds (p := (pointer - base, bytes.length))
    (List.mem_map_of_mem (f := fun x : ℕ × List UInt8 => (x.1 - base, x.2.length)) hmem)
  have hlen := hlaid.1.arenaLen_le
  have hlength := h.length_eq
  simp only [headerSize] at hpos hheader hstop hle hlen
  omega

/-- Different payloads have no byte in common. -/
lemma apart (h : Held base len held m) :
    held.Pairwise fun x y => x.1 + x.2.length ≤ y.1 ∨ y.1 + y.2.length ≤ x.1 := by
  obtain ⟨bs, hlaid⟩ := h.laid
  have hpairwise := List.pairwise_map.mp hlaid.pairwise_live
  refine hpairwise.imp_of_mem fun {x y} hx hy hxy => ?_
  have hx' := h.base_le x hx
  have hy' := h.base_le y hy
  simp only [Apart, headerSize] at hxy
  omega

/-- The rule for `alloc`. -/
lemma alloc (h : Held base len held m) {size align : ℕ} (hpos : 0 < size)
    (hpow : isPowerOfTwo align = true) (hle : align ≤ maxAlign) (hroom : Room len held size align) :
    ∃ pointer bytes m', m.alloc size align = .ok (pointer, m') ∧ pointer ≠ 0 ∧
      bytes.length = size ∧ Held base len ((pointer, bytes) :: held) m' := by
  obtain ⟨bs, hlaid⟩ := h.laid
  have hlt : ((offsets base held).map fun p => blockBound p.2).sum +
      ((offsets base held).length + 1) * (needed size align - 1) < m.heap.list.arenaLen := by
    rw [h.arenaLen_eq, offsets, List.map_map, List.length_map]
    exact hroom
  -- the blocks that are held are within their bounds
  have hheld := Nat.add_le_add_right (List.sum_le_sum h.snug)
    (((offsets base held).length + 1) * (needed size align - 1))
  obtain ⟨offset, list', arena', heq⟩ :=
    hlaid.alloc_of_lt ⟨hpos, hpow, hle⟩ (lt_of_le_of_lt hheld hlt)
  obtain ⟨-, -, -, hheader, hstop, -⟩ := hlaid.place heq
  rcases hlaid.alloc size align with
    hnone | ⟨offset', list'', arena'', bs', heq', hlaid', -, -, -, hlen', hlength', -⟩
  · rw [heq] at hnone
    cases hnone
  rw [heq] at heq'
  simp only [Except.ok.injEq, Prod.mk.injEq, Option.some.injEq] at heq'
  obtain ⟨rfl, rfl, rfl⟩ := heq'
  have hlen := h.len_eq
  have hbase := h.base_eq
  have hbpos := h.base_pos
  have hword := h.stop_lt
  have hlength := h.length_eq
  have harena := hlaid.1.arenaLen_le
  simp only at harena hstop hlength'
  have hin : offset + size ≤ arena'.length := by omega
  have hrange := Slice.range?_of_le hin
  have hsize := Slice.length_range? hrange
  refine ⟨base + offset, (arena'.toList.drop offset).take size,
    ⟨{ m.heap with list := list' }, arena'⟩, ?_, by omega, hsize, hbase, hlen, hbpos, hword,
    hlength'.trans hlength, hlen'.trans h.arenaLen_eq, ⟨bs', ?_⟩, ?_, ?_, ?_⟩
  · rw [HeapMemory.alloc, KernelHeap.alloc, if_neg (by omega), heq, Checked.ok_bind]
    simp only
    rw [hbase, addWord_of_lt (by omega)]
    rfl
  · rw [offsets, List.map_cons, Nat.add_sub_cancel_left, hsize]
    exact hlaid'
  · have hsnug := hlaid.snug_step h.snug (.alloc size align) trivial
      (by rw [HeapState.step, heq]; rfl)
    rw [offsets, List.map_cons, Nat.add_sub_cancel_left, hsize]
    exact hsnug
  · intro x hx
    rcases List.mem_cons.mp hx with rfl | hx
    · exact Nat.le_add_right _ _
    · exact h.base_le x hx
  · intro x hx i hi
    rcases List.mem_cons.mp hx with rfl | hx
    · -- the contents of the new payload are what is there
      rw [hsize] at hi
      rw [Nat.add_sub_cancel_left, Slice.getElem?_range? hrange i, if_pos hi]
    · rw [← h.contents x hx i hi]
      refine hlaid.get?_alloc heq (p := (x.1 - base, x.2.length))
        (List.mem_map_of_mem (f := fun x : ℕ × List UInt8 => (x.1 - base, x.2.length)) hx)
        (Nat.le_add_right _ _) (Nat.add_lt_add_left hi _)

/-- A request that is larger than the heap fails, and changes nothing. -/
lemma alloc_eq_zero (h : Held base len held m) (size align : ℕ) (hlarge : len < size) :
    m.alloc size align = .ok (0, m) := by
  obtain ⟨bs, hlaid⟩ := h.laid
  rcases hlaid.alloc size align with
    hnone | ⟨offset, list', arena', bs', hsome, hlaid', -, -, -, hlen', -⟩
  · rw [HeapMemory.alloc, KernelHeap.alloc]
    split_ifs with hzero
    · rfl
    · simp only at hnone
      rw [hnone]
      rfl
  · obtain ⟨-, -, -, -, hstop, -⟩ := hlaid.place hsome
    have harena := hlaid.1.arenaLen_le
    have hlength := h.length_eq
    simp only at hstop harena
    omega

/-- The rule for `dealloc`. -/
lemma dealloc (h : Held base len ((pointer, bytes) :: held) m) :
    ∃ m', m.dealloc pointer = .ok m' ∧ Held base len held m' := by
  obtain ⟨bs, hlaid⟩ := h.laid
  obtain ⟨hpos, hlow, hhigh⟩ := h.bounds List.mem_cons_self
  have hbase := h.base_eq
  have hlen := h.len_eq
  have hbpos := h.base_pos
  have hword := h.stop_lt
  have hmem : (pointer - base, bytes.length) ∈ offsets base ((pointer, bytes) :: held) :=
    List.mem_cons_self
  obtain ⟨list', arena', bs', heq, hlaid', -, hlen', hlength', -⟩ := hlaid.dealloc hmem
  -- the pointer identifies the payload
  have hne : ∀ x ∈ held, x.1 - base ≠ pointer - base := by
    intro x hx hcon
    have hapart := List.rel_of_pairwise_cons h.apart hx
    obtain ⟨hxpos, hxlow, -⟩ := h.bounds
      (show (x.1, x.2) ∈ (pointer, bytes) :: held from List.mem_cons_of_mem _ hx)
    simp only at hapart
    omega
  have hfilter : (offsets base ((pointer, bytes) :: held)).filter
      (fun p => p.1 ≠ pointer - base) = offsets base held := by
    rw [offsets, List.map_cons, List.filter_cons_of_neg (by simp)]
    refine List.filter_eq_self.mpr fun p hp => ?_
    obtain ⟨x, hx, rfl⟩ := List.mem_map.mp hp
    simpa using hne x hx
  simp only at heq hlen' hlength'
  rw [hfilter] at hlaid'
  refine ⟨⟨⟨list', base, len⟩, arena'⟩, ?_, rfl, rfl, hbpos, hword, hlength'.trans h.length_eq,
    hlen'.trans h.arenaLen_eq, ⟨bs', hlaid'⟩, ?_,
    fun x hx => h.base_le x (List.mem_cons_of_mem _ hx), ?_⟩
  · rw [HeapMemory.dealloc, KernelHeap.dealloc, if_neg (by omega), if_neg (by omega), hbase, hlen,
      addWord_of_lt hword, Checked.ok_bind, if_neg (by omega), heq]
    rfl
  · have hsnug := hlaid.snug_step h.snug (.dealloc (pointer - base)) ⟨_, hmem⟩
      (by rw [HeapState.step, heq]; rfl)
    rw [hfilter] at hsnug
    exact hsnug
  · intro x hx i hi
    rw [← h.contents x (List.mem_cons_of_mem _ hx) i hi]
    exact hlaid.get?_dealloc ⟨_, hmem⟩ heq (p := (x.1 - base, x.2.length))
      (List.mem_cons_of_mem _ (List.mem_map_of_mem
        (f := fun x : ℕ × List UInt8 => (x.1 - base, x.2.length)) hx))
      (hne x hx) (Nat.le_add_right _ _) (Nat.add_lt_add_left hi _)

/-- The rule for writing into a payload. -/
lemma store (h : Held base len ((pointer, bytes) :: held) m) (i : ℕ) (new : List UInt8)
    (hle : i + new.length ≤ bytes.length) :
    ∃ m', m.store (pointer + i) new = .ok m' ∧
      Held base len ((pointer, overwriteList bytes i new) :: held) m' := by
  obtain ⟨bs, hlaid⟩ := h.laid
  obtain ⟨hpos, hlow, hhigh⟩ := h.bounds List.mem_cons_self
  have hbase := h.base_eq
  have hlength := h.length_eq
  have hmem : (pointer - base, bytes.length) ∈ offsets base ((pointer, bytes) :: held) :=
    List.mem_cons_self
  have howns : HeapState.Owns ⟨m.heap.list, m.arena, offsets base ((pointer, bytes) :: held)⟩
      (pointer + i - base) new := ⟨_, hmem, by simp only; omega, by simp only; omega⟩
  obtain ⟨arena', hwrite, hlaid'⟩ := hlaid.write howns
  simp only at hwrite hlaid'
  have hsnug := hlaid.snug_step h.snug (.write (pointer + i - base) new) howns
    (by rw [HeapState.step, hwrite]; rfl)
  obtain ⟨hfits, rfl⟩ := Slice.write_eq_ok_iff.mp hwrite
  have hoffsets : offsets base ((pointer, overwriteList bytes i new) :: held) =
      offsets base ((pointer, bytes) :: held) := by
    simp only [offsets, List.map_cons, length_overwriteList]
  refine ⟨⟨m.heap, m.arena.overwrite (pointer + i - base) new⟩, ?_, hbase, h.len_eq, h.base_pos,
    h.stop_lt, ?_, h.arenaLen_eq, ⟨bs, by rw [hoffsets]; exact hlaid'⟩,
    by rw [hoffsets]; exact hsnug, ?_, ?_⟩
  · rw [HeapMemory.store, hbase, subWord_of_le (by omega), Checked.ok_bind, hwrite]
    rfl
  · rw [Slice.length_overwrite]
    exact hlength
  · intro x hx
    rcases List.mem_cons.mp hx with rfl | hx
    · exact hlow.le
    · exact h.base_le x (List.mem_cons_of_mem _ hx)
  · intro x hx j hj
    simp only
    rw [Slice.get?_overwrite hfits]
    rcases List.mem_cons.mp hx with rfl | hx
    · simp only [length_overwriteList] at hj ⊢
      rw [getElem?_overwriteList]
      have hcontents := h.contents _ List.mem_cons_self j hj
      simp only at hcontents
      by_cases hin : i ≤ j ∧ j < i + new.length
      · rw [if_pos (by omega), if_pos (by omega)]
        congr 1
        omega
      · rw [if_neg (by omega), if_neg (by omega), hcontents]
    · -- another payload
      have hapart := List.rel_of_pairwise_cons h.apart hx
      have hxle := h.base_le x (List.mem_cons_of_mem _ hx)
      simp only at hapart
      rw [if_neg (by omega)]
      exact h.contents x (List.mem_cons_of_mem _ hx) j hj

/-- The rule for reading from a payload. -/
lemma load (h : Held base len held m) (hmem : (pointer, bytes) ∈ held) {i n : ℕ}
    (hle : i + n ≤ bytes.length) :
    m.load (pointer + i) n = .ok ((bytes.drop i).take n) := by
  obtain ⟨hpos, hlow, hhigh⟩ := h.bounds hmem
  have hbase := h.base_eq
  have hlength := h.length_eq
  have hrange : m.arena.range? (pointer - base) bytes.length =
      some ((m.arena.toList.drop (pointer - base)).take bytes.length) :=
    Slice.range?_of_le (by omega)
  have hbytes : (m.arena.toList.drop (pointer - base)).take bytes.length = bytes := by
    refine List.ext_getElem? fun j => ?_
    rw [Slice.getElem?_range? hrange j]
    split_ifs with hj
    · exact h.contents _ hmem j hj
    · exact (List.getElem?_eq_none (not_lt.mp hj)).symm
  rw [hbytes] at hrange
  have hpart := Slice.range?_of_range? hrange hle
  have hoffset : pointer + i - base = pointer - base + i := by omega
  rw [HeapMemory.load, hbase, subWord_of_le (by omega), Checked.ok_bind, hoffset, hpart]
  rfl

/-- The statistics of a heap without allocations. -/
lemma stats_of_nil (h : Held base len [] m) (hlen : managedLen len ≠ 0) :
    m.heap.list.stats.freeBlocks = 1 ∧
      m.heap.list.stats.freeBytes = managedLen len - headerSize := by
  obtain ⟨bs, hlaid⟩ := h.laid
  have hsingle := hlaid.frees_eq_single rfl (by rw [h.arenaLen_eq]; exact hlen)
  have hstats := hlaid.1.stats_eq
  simp only at hstats hsingle
  rw [hstats, statsOf, hsingle, h.arenaLen_eq]
  simp

end Held

end Heap

end ParanukOS
