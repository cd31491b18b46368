import ParanukOS.Foundation.Bytes
import ParanukOS.Foundation.Words

/-!
# The kernel heap: a first-fit free list

The embedding of `kernel-memory/src/heap.rs`.  All state of the allocator lives in block headers
inside of the arena it manages, a slice of bytes; the structure `FreeList` keeps only the offset of
the first free block and the statistics.  A header takes 24 bytes: the magic word, four bytes of
padding, the size of the block and the offset of the next free block.

Every function that writes takes the list and the arena and returns both.  `usize` is 64 bits wide;
plain additions and subtractions of the source stop on overflow, as do writes outside of the arena
(`Checked`), whereas its `checked_` operations and the `?` after them become early returns.

### Outline

* `readHeader` and `writeHeader`, the only accesses to the arena;
* `FreeList.alloc`, cut into the walk `FreeList.search` along the list, which settles a
  `Placement` without writing anything, and `FreeList.commit`, which writes the headers;
* `FreeList.dealloc`, cut into the walk `FreeList.insertPoint`, the two merges and the writes;
* the kernel's `GlobalAlloc` wrapper (`kernel/src/heap.rs`).
-/

namespace ParanukOS

open Foundation

namespace Heap

/-- The length of a block header. -/
def headerSize : ℕ := 24

/-- The smallest payload a block that is split off may have. -/
def minPayload : ℕ := 16

/-- The smallest block that is split off. -/
def minBlock : ℕ := headerSize + minPayload

/-- The alignment of headers. -/
def headerAlign : ℕ := 8

/-- The largest alignment supported. -/
def maxAlign : ℕ := 4096

/-- The magic word of a free block (`"FREE"`). -/
def magicFree : ℕ := 0x46524545

/-- The magic word of an allocated block (`"ALLO"`). -/
def magicAlloc : ℕ := 0x414C4C4F

/-- `NONE`, the mark of the end of the list: `usize::MAX`. -/
def noneOffset : ℕ := 2 ^ 64 - 1

/-- The reasons for which `dealloc` refuses an offset. -/
inductive FreeListError where
  /-- The offset is outside of the arena or not aligned. -/
  | outOfArena (offset : ℕ)
  /-- The block is free already. -/
  | alreadyFree (offset : ℕ)
  /-- There is no header of an allocated block before the offset. -/
  | notAllocated (offset : ℕ)
  /-- The list or a header is damaged. -/
  | corrupted (offset : ℕ)
  deriving DecidableEq, Repr

/-- The statistics of the heap. -/
structure HeapStats where
  /-- The number of free blocks. -/
  freeBlocks : ℕ
  /-- The total of the payloads of the free blocks. -/
  freeBytes : ℕ
  /-- The largest payload of a free block. -/
  largestFree : ℕ
  deriving DecidableEq, Repr

/-- The first-fit free list. -/
structure FreeList where
  /-- The offset of the first free block, or `noneOffset`. -/
  head : ℕ
  /-- The length of the arena, rounded down to `headerAlign`. -/
  arenaLen : ℕ
  /-- The number of free blocks. -/
  freeBlocks : ℕ
  /-- The total of the payloads of the free blocks. -/
  freeBytes : ℕ
  /-- The largest payload of a free block. -/
  largestFree : ℕ
  deriving DecidableEq, Repr

/-! ## Headers -/

/-- `align_up`: round up to a multiple of `align`, if the sum does not overflow. -/
def alignUp (value align : ℕ) : Option ℕ :=
  (checkedAdd value (align - 1)).map fun value => value &&& notWord (align - 1)

/-- `write_header`. -/
def writeHeader (arena : Slice UInt8) (offset magic size next : ℕ) : Checked (Slice UInt8) := do
  let arena ← arena.write offset (leBytes 4 magic)
  let arena ← arena.write (offset + 4) (leBytes 4 0)
  let arena ← arena.write (offset + 8) (leBytes 8 size)
  arena.write (offset + 16) (leBytes 8 next)

/-- `read_header`: magic word, size and next pointer of the header at `offset`. -/
def readHeader (arena : Slice UInt8) (offset : ℕ) : Option (ℕ × ℕ × ℕ) := do
  let _ ← checkedAdd offset headerSize
  let header ← arena.range? offset headerSize
  return (leVal (header.take 4), leVal ((header.drop 8).take 8), leVal ((header.drop 16).take 8))

namespace FreeList

/-- `FreeList::empty`: the list before its initialisation. -/
def empty : FreeList where
  head := noneOffset
  arenaLen := 0
  freeBlocks := 0
  freeBytes := 0
  largestFree := 0

/-- `FreeList::init`: make the whole arena one free block. -/
def init (arena : Slice UInt8) : Checked (FreeList × Slice UInt8) := do
  let arenaLen := arena.length &&& notWord (headerAlign - 1)
  if arenaLen < minBlock then
    return (empty, arena)
  let arena ← writeHeader arena 0 magicFree arenaLen noneOffset
  return ({ head := 0
            arenaLen := arenaLen
            freeBlocks := 1
            freeBytes := arenaLen - headerSize
            largestFree := arenaLen - headerSize }, arena)

/-- `stats`. -/
def stats (self : FreeList) : HeapStats where
  freeBlocks := self.freeBlocks
  freeBytes := self.freeBytes
  largestFree := self.largestFree

/-- `arena_matches`: the arena has the length the list was initialised with. -/
def arenaMatches (self : FreeList) (arena : Slice UInt8) : Bool :=
  (arena.length &&& notWord (headerAlign - 1)) == self.arenaLen

/-- `max_blocks`: a bound on the length of the list. -/
def maxBlocks (self : FreeList) : ℕ := self.arenaLen / headerAlign + 2

/-- The loop of `recompute`, from the block `current` on, with `guard` rounds left. -/
def countFree (self : FreeList) (arena : Slice UInt8) : ℕ → ℕ → HeapStats → Checked HeapStats
  | 0, _, counted => return counted
  | guard + 1, current, counted => do
    if current = noneOffset then
      return counted
    let some (magic, size, next) := readHeader arena current | return counted
    if magic ≠ magicFree ∨ size < headerSize then
      return counted
    if self.arenaLen < (← addWord current size) then
      return counted
    let payload ← subWord size headerSize
    countFree self arena guard next
      { freeBlocks := ← addWord counted.freeBlocks 1
        freeBytes := ← addWord counted.freeBytes payload
        largestFree := max counted.largestFree payload }

/-- `recompute`: count the free list anew. -/
def recompute (self : FreeList) (arena : Slice UInt8) : Checked FreeList := do
  let counted ← countFree self arena self.maxBlocks self.head ⟨0, 0, 0⟩
  return { self with
    freeBlocks := counted.freeBlocks
    freeBytes := counted.freeBytes
    largestFree := counted.largestFree }

end FreeList

/-! ## Allocation -/

/-- The exits of `alloc` that return `None`.  The source does not tell them apart. -/
inductive AllocExit where
  /-- The request is not valid, the list is empty or the arena is not the one of the list. -/
  | refused
  /-- More rounds than a list without a cycle can take. -/
  | guard
  /-- A header of the list is damaged. -/
  | corrupted
  /-- An address of the placement is beyond the address space. -/
  | overflow
  /-- No block of the list is large enough. -/
  | exhausted
  deriving DecidableEq, Repr

/-- What `alloc` has settled before its first write. -/
structure Placement where
  /-- The free block before the one used, or `noneOffset`. -/
  previous : ℕ
  /-- The size of that block (`0` when there is none). -/
  previousSize : ℕ
  /-- The free block used. -/
  current : ℕ
  /-- The free block after the one used, or `noneOffset`. -/
  next : ℕ
  /-- The size of the block left in front of the allocation (`0` for none). -/
  frontGap : ℕ
  /-- The payload of the allocation. -/
  payload : ℕ
  /-- The header of the allocation. -/
  headerOffset : ℕ
  /-- Where the rest of the block starts. -/
  tailStart : ℕ
  /-- The size of the rest, if it is split off. -/
  tailBlock : Option ℕ
  /-- The size of the block allocated. -/
  allocSize : ℕ
  deriving DecidableEq, Repr

/-- The payload `alloc` chooses in a free block at `current`, and the gap in front of its header.
A gap that cannot be a block of its own is raised to `minBlock`. -/
def payloadIn (current align : ℕ) : Checked (Option (ℕ × ℕ)) := do
  let payloadMin ← addWord current headerSize
  let some payload := alignUp payloadMin align | return none
  let frontGap ← subWord payload payloadMin
  if 0 < frontGap ∧ frontGap < minBlock then
    let some lifted := checkedAdd payloadMin minBlock | return none
    let some payload := alignUp lifted align | return none
    let frontGap ← subWord payload payloadMin
    return some (payload, frontGap)
  return some (payload, frontGap)

/-- The part of the loop of `alloc` that cuts up a block that is large enough. -/
def place (arena : Slice UInt8) (previous current next blockEnd payload frontGap payloadEnd : ℕ) :
    Checked (Except AllocExit Placement) := do
  let headerOffset ← subWord payload headerSize
  let some tailStart := alignUp payloadEnd headerAlign | return .error .overflow
  let some tail := checkedSub blockEnd tailStart | return .error .corrupted
  let tailBlock := if minBlock ≤ tail then some tail else none
  let allocSize ← if tailBlock.isSome then subWord tailStart headerOffset
    else subWord blockEnd headerOffset
  if previous = noneOffset then
    return .ok { previous, previousSize := 0, current, next, frontGap, payload, headerOffset,
                 tailStart, tailBlock, allocSize }
  let some (_, previousSize, _) := readHeader arena previous | return .error .corrupted
  return .ok { previous, previousSize, current, next, frontGap, payload, headerOffset,
               tailStart, tailBlock, allocSize }

namespace FreeList

/-- The loop of `alloc`, from the block `current` on, with `guard` rounds left. -/
def search (self : FreeList) (arena : Slice UInt8) (size align : ℕ) :
    ℕ → ℕ → ℕ → Checked (Except AllocExit Placement)
  | 0, _, current => return .error (if current = noneOffset then .exhausted else .guard)
  | guard + 1, previous, current => do
    if current = noneOffset then
      return .error .exhausted
    let some (magic, blockSize, next) := readHeader arena current | return .error .corrupted
    if magic ≠ magicFree ∨ blockSize < headerSize then
      return .error .corrupted
    let some blockEnd := checkedAdd current blockSize | return .error .corrupted
    if self.arenaLen < blockEnd then
      return .error .corrupted
    let some (payload, frontGap) ← payloadIn current align | return .error .overflow
    let some payloadEnd := checkedAdd payload size | return .error .overflow
    if blockEnd < payloadEnd then
      search self arena size align guard current next
    else
      place arena previous current next blockEnd payload frontGap payloadEnd

/-- The first writes of `alloc`: the header of the allocation and the rest of the block.  The second
component is where the list goes on. -/
def writeTail (arena : Slice UInt8) (p : Placement) : Checked (Slice UInt8 × ℕ) := do
  let arena ← writeHeader arena p.headerOffset magicAlloc p.allocSize noneOffset
  match p.tailBlock with
  | some tailSize =>
    let arena ← writeHeader arena p.tailStart magicFree tailSize p.next
    return (arena, p.tailStart)
  | none => return (arena, p.next)

/-- The write for the gap in front of an allocation. -/
def writeFront (arena : Slice UInt8) (p : Placement) (newNext : ℕ) : Checked (Slice UInt8 × ℕ) := do
  if 0 < p.frontGap then
    let arena ← writeHeader arena p.current magicFree p.frontGap newNext
    return (arena, p.current)
  return (arena, newNext)

/-- The writes of `alloc`: the header of the allocation, the rest of the block, the gap in front of
it, and the link to the first of the two from the block before. -/
def commit (self : FreeList) (arena : Slice UInt8) (p : Placement) :
    Checked (FreeList × Slice UInt8) := do
  let (arena, newNext) ← writeTail arena p
  let (arena, newNext) ← writeFront arena p newNext
  if p.previous = noneOffset then
    let list ← ({ self with head := newNext }).recompute arena
    return (list, arena)
  else
    let arena ← writeHeader arena p.previous magicFree p.previousSize newNext
    let list ← self.recompute arena
    return (list, arena)

/-- The request checks of `alloc` and its search. -/
def plan (self : FreeList) (arena : Slice UInt8) (size align : ℕ) :
    Checked (Except AllocExit Placement) :=
  if size = 0 ∨ isPowerOfTwo align = false ∨ maxAlign < align ∨ self.head = noneOffset ∨
      self.arenaMatches arena = false then
    return .error .refused
  else
    self.search arena size align self.maxBlocks noneOffset self.head

/-- `FreeList::alloc`: the offset of a payload of `size` bytes aligned to `align`. -/
def alloc (self : FreeList) (arena : Slice UInt8) (size align : ℕ) :
    Checked (Option ℕ × FreeList × Slice UInt8) := do
  match ← self.plan arena size align with
  | .error _ => return (none, self, arena)
  | .ok p =>
    let (list, arena) ← self.commit arena p
    return (some p.payload, list, arena)

/-! ## Release -/

/-- The loop of `dealloc`: the free blocks around the block from `header` to `blockEnd`. -/
def insertPoint (self : FreeList) (arena : Slice UInt8) (header blockEnd offset : ℕ) :
    ℕ → ℕ → ℕ → Checked (Except FreeListError (ℕ × ℕ))
  | 0, previous, current =>
    return if current = noneOffset then .ok (previous, current) else .error (.corrupted current)
  | guard + 1, previous, current => do
    if current = noneOffset then
      return .ok (previous, current)
    let some (magic, size, next) := readHeader arena current | return .error (.corrupted current)
    if magic ≠ magicFree ∨ size < headerSize then
      return .error (.corrupted current)
    if self.arenaLen < (← addWord current size) then
      return .error (.corrupted current)
    if header ≤ current then
      if current < blockEnd then
        return .error (.alreadyFree offset)
      return .ok (previous, current)
    if header < (← addWord current size) then
      return .error (.alreadyFree offset)
    insertPoint self arena header blockEnd offset guard current next

/-- The loop of `previous_free`, from the block `current` on, with `guard` rounds left. -/
def previousFreeFrom (arena : Slice UInt8) (target : ℕ) : ℕ → ℕ → ℕ → Option ℕ
  | 0, _, _ => none
  | guard + 1, previous, current =>
    if current = noneOffset then none
    else if current = target then some previous
    else match readHeader arena current with
      | none => none
      | some (_, _, next) => previousFreeFrom arena target guard current next

/-- `previous_free`: the free block before `target`. -/
def previousFree (self : FreeList) (arena : Slice UInt8) (target : ℕ) : Option ℕ :=
  previousFreeFrom arena target self.maxBlocks noneOffset self.head

/-- The first merge of `dealloc`: a free block that starts where the block released ends. -/
def mergeNext (arena : Slice UInt8) (blockEnd size current : ℕ) :
    Checked (Except FreeListError (ℕ × ℕ)) := do
  if current ≠ noneOffset ∧ blockEnd = current then
    let some (_, nextSize, nextNext) := readHeader arena current
      | return .error (.corrupted current)
    return .ok (← addWord size nextSize, nextNext)
  return .ok (size, current)

/-- The second merge of `dealloc`: a free block that ends where the block released starts.  The
result is the start and the size of the merged block and the free block before it. -/
def mergePrevious (self : FreeList) (arena : Slice UInt8) (start size previous : ℕ) :
    Checked (Except FreeListError (ℕ × ℕ × ℕ)) := do
  if previous ≠ noneOffset then
    let some (_, previousSize, _) := readHeader arena previous
      | return .error (.corrupted previous)
    if (← addWord previous previousSize) = start then
      let size ← addWord size previousSize
      let some before := self.previousFree arena previous | return .error (.corrupted previous)
      return .ok (previous, size, before)
  return .ok (start, size, previous)

/-- The writes of `dealloc`.  The last error exit comes after the first write. -/
def link (self : FreeList) (arena : Slice UInt8) (start size previous current : ℕ) :
    Checked (Except FreeListError Unit × FreeList × Slice UInt8) := do
  let arena ← writeHeader arena start magicFree size current
  if previous = noneOffset then
    let list ← ({ self with head := start }).recompute arena
    return (.ok (), list, arena)
  else
    let some (_, previousSize, _) := readHeader arena previous
      | return (.error (.corrupted previous), self, arena)
    let arena ← writeHeader arena previous magicFree previousSize start
    let list ← self.recompute arena
    return (.ok (), list, arena)

/-- The second half of `dealloc`, from the walk on: put the block from `header` to `blockEnd` back
into the list. -/
def release (self : FreeList) (arena : Slice UInt8) (header blockSize blockEnd offset : ℕ) :
    Checked (Except FreeListError Unit × FreeList × Slice UInt8) := do
  match ← self.insertPoint arena header blockEnd offset self.maxBlocks noneOffset self.head with
  | .error e => return (.error e, self, arena)
  | .ok (previous, current) =>
    match ← mergeNext arena blockEnd blockSize current with
    | .error e => return (.error e, self, arena)
    | .ok (size, current) =>
      match ← self.mergePrevious arena header size previous with
      | .error e => return (.error e, self, arena)
      | .ok (start, size, previous) => self.link arena start size previous current

/-- `FreeList::dealloc`: release the payload at `offset`. -/
def dealloc (self : FreeList) (arena : Slice UInt8) (offset : ℕ) :
    Checked (Except FreeListError Unit × FreeList × Slice UInt8) := do
  if self.arenaMatches arena = false ∨ offset < headerSize ∨ self.arenaLen ≤ offset ∨
      offset % headerAlign ≠ 0 then
    return (.error (.outOfArena offset), self, arena)
  let header := offset - headerSize
  let some (magic, blockSize, _) := readHeader arena header
    | return (.error (.corrupted header), self, arena)
  if magic = magicFree then
    return (.error (.alreadyFree offset), self, arena)
  if magic ≠ magicAlloc then
    return (.error (.notAllocated offset), self, arena)
  let some blockEnd := checkedAdd header blockSize
    | return (.error (.corrupted header), self, arena)
  if blockSize < headerSize ∨ self.arenaLen < blockEnd then
    return (.error (.corrupted header), self, arena)
  self.release arena header blockSize blockEnd offset

end FreeList

/-! ## The global allocator -/

/-- `HeapState` of `kernel/src/heap.rs`: the list and the place of the arena in memory.  The bytes
of the arena are passed to every operation; the lock around the state is not modelled. -/
structure KernelHeap where
  /-- The free list. -/
  list : FreeList
  /-- The address of the arena; `0` before the initialisation. -/
  base : ℕ
  /-- The length of the arena. -/
  len : ℕ
  deriving DecidableEq, Repr

namespace KernelHeap

/-- `KernelHeap::new`. -/
def new : KernelHeap where
  list := FreeList.empty
  base := 0
  len := 0

/-- `KernelHeap::init`, for an arena at `base`. -/
def init (base : ℕ) (arena : Slice UInt8) : Checked (KernelHeap × Slice UInt8) := do
  let (list, arena) ← FreeList.init arena
  return ({ list, base, len := arena.length }, arena)

/-- `GlobalAlloc::alloc`: the pointer to the payload, or `0`. -/
def alloc (self : KernelHeap) (arena : Slice UInt8) (size align : ℕ) :
    Checked (ℕ × KernelHeap × Slice UInt8) := do
  if self.len = 0 ∨ self.base = 0 then
    return (0, self, arena)
  match ← self.list.alloc arena size align with
  | (some offset, list, arena) =>
    return (← addWord self.base offset, { self with list }, arena)
  | (none, list, arena) => return (0, { self with list }, arena)

/-- `GlobalAlloc::dealloc`: pointers outside of the heap and errors are ignored. -/
def dealloc (self : KernelHeap) (arena : Slice UInt8) (pointer : ℕ) :
    Checked (KernelHeap × Slice UInt8) := do
  if self.len = 0 ∨ self.base = 0 ∨ pointer = 0 then
    return (self, arena)
  if pointer < self.base then
    return (self, arena)
  if (← addWord self.base self.len) ≤ pointer then
    return (self, arena)
  let (_, list, arena) ← self.list.dealloc arena (pointer - self.base)
  return ({ self with list }, arena)

end KernelHeap

end Heap

end ParanukOS
