import ParanukOS.Kernel.Memory.Model
import ParanukOS.KernelMemory.Heap.Client

/-!
# The self-check of the memory

The embedding of `memory::self_check` and of what it calls in `kernel/src/memory.rs`: the check of
the heap, which allocates vectors, compares their bytes and releases them, and the check of the
frame allocator.  The texts of the failures are those of the source.

A vector of bytes is a pointer and a length.  The vectors that hold other vectors have their
elements in a buffer on the heap, 24 bytes for each; how an element is represented there is not
specified, so that it is a parameter (`Stored`).  A vector is never pushed to when it is full, and a
push that had to move the buffer stops in this model.

## Outline

* `CheckFailure`: failures.
* `ByteVec`, `ElementVec`: vectors.
* `heapSelfCheck`, `frameSelfCheck`, `selfCheck`: the checks.
-/

namespace ParanukOS

open Foundation Foundation.Fallible KernelMemory Heap

namespace Kernel

/-- `MemoryError::SelfCheck`. -/
structure CheckFailure where
  /-- The number of the step. -/
  step : ℕ
  /-- What has failed. -/
  what : String
  /-- An address, or 0. -/
  address : ℕ
  deriving DecidableEq, Repr

/-- `failure`. -/
def failure (step : ℕ) (what : String) (address : ℕ) : CheckFailure := { step, what, address }

/-! ## Vectors -/

/-- `Vec<u8>`. -/
structure ByteVec where
  /-- The pointer to the bytes. -/
  address : UInt64
  /-- The number of bytes. -/
  count : UInt64
  deriving DecidableEq, Repr

/-- `as_ptr`. -/
def ByteVec.ptr (v : ByteVec) : ℕ := v.address.toNat

/-- `len`. -/
def ByteVec.len (v : ByteVec) : ℕ := v.count.toNat

/-- The size of an element. -/
def elementSize : ℕ := 24

/-- How the values of a type are stored in `elementSize` bytes. -/
structure Stored (α : Type) where
  /-- The bytes of a value. -/
  encode : α → List UInt8
  /-- The value of some bytes. -/
  decode : List UInt8 → α
  length_encode : ∀ a, (encode a).length = elementSize
  decode_encode : ∀ a, decode (encode a) = a

/-- A vector with such elements. -/
structure ElementVec where
  /-- The pointer to the buffer. -/
  ptr : ℕ
  /-- The number of elements that the buffer has room for. -/
  capacity : ℕ
  /-- The number of elements. -/
  len : ℕ
  deriving DecidableEq, Repr

/-- An allocation by a collection: it stops when there is no memory (`handle_alloc_error`). -/
def allocate (m : HeapMemory) (size align : ℕ) : Checked (ℕ × HeapMemory) := do
  let (pointer, m) ← m.alloc size align
  if pointer = 0 then .error .assertion else return (pointer, m)

/-- `vec![byte; size]`. -/
def ByteVec.fromElem (m : HeapMemory) (byte : UInt8) (size : ℕ) :
    Checked (ByteVec × HeapMemory) := do
  let (ptr, m) ← allocate m size 1
  let m ← m.store ptr (List.replicate size byte)
  return (⟨.ofNat ptr, .ofNat size⟩, m)

namespace ElementVec

variable {α : Type}

/-- `Vec::with_capacity`. -/
def withCapacity (m : HeapMemory) (capacity : ℕ) : Checked (ElementVec × HeapMemory) := do
  let (ptr, m) ← allocate m (elementSize * capacity) 8
  return (⟨ptr, capacity, 0⟩, m)

/-- `push`, while there is room in the buffer. -/
def push (layout : Stored α) (m : HeapMemory) (v : ElementVec) (a : α) :
    Checked (ElementVec × HeapMemory) := do
  if v.len = v.capacity then .error .assertion
  let m ← m.store (v.ptr + elementSize * v.len) (layout.encode a)
  return ({ v with len := v.len + 1 }, m)

/-- The element at an index. -/
def get (layout : Stored α) (m : HeapMemory) (v : ElementVec) (index : ℕ) : Checked α := do
  if v.len ≤ index then .error .outOfBounds
  return layout.decode (← m.load (v.ptr + elementSize * index) elementSize)

/-- The element at an index is replaced. -/
def set (layout : Stored α) (m : HeapMemory) (v : ElementVec) (index : ℕ) (a : α) :
    Checked HeapMemory := do
  if v.len ≤ index then .error .outOfBounds
  m.store (v.ptr + elementSize * index) (layout.encode a)

end ElementVec

/-! ## The check of the heap -/

/-- `BLOCK_SIZES`. -/
def blockSizes : List ℕ := [16, 33, 64, 129, 256, 1025, 4096, 7]

/-- `BLOCK_COUNT`. -/
def blockCount : ℕ := 64

/-- `PATTERN_SEED`. -/
def patternSeed : UInt8 := 0xA5

/-- `pattern`. -/
def pattern (index : ℕ) : UInt8 := patternSeed ^^^ UInt8.ofNat index

/-- The size of the block with this number. -/
def sizeOfBlock (index : ℕ) : ℕ := blockSizes.getD (index % blockSizes.length) 0

/-- `(0..BLOCK_COUNT).step_by(2)`. -/
def evenBlocks : List ℕ := (List.range (blockCount / 2)).map (2 * ·)

section HeapCheck

variable (blockLayout : Stored (Option ByteVec)) (vecLayout : Stored ByteVec)

/-- One round of step 1. -/
def fillBlock (state : ElementVec × HeapMemory) (index : ℕ) :
    Fallible CheckFailure (ElementVec × HeapMemory) := do
  let size := sizeOfBlock index
  let (block, m) ← ByteVec.fromElem state.2 (pattern index) size
  throwIf (block.len ≠ size) (failure 1 "分配到的块长度不符" block.len)
  state.1.push blockLayout m (some block)

/-- Step 2: `other` does not overlap the block from `start` to `stop`. -/
def checkOther (m : HeapMemory) (blocks : ElementVec) (start stop other : ℕ) :
    Fallible CheckFailure Unit := do
  match ← liftM (blocks.get blockLayout m other) with
  | none => return ()
  | some other => do
    let otherStart := other.ptr
    let otherEnd ← addWord otherStart other.len
    throwIf (start < otherEnd ∧ otherStart < stop)
      (failure 2 "两个同时存活的堆块重叠" (if otherStart ≤ start then start else otherStart))

/-- Step 2, for one block: it lies in the heap, and does not overlap the blocks behind it. -/
def checkPlace (m : HeapMemory) (blocks : ElementVec) (heapStart heapEnd index : ℕ) :
    Fallible CheckFailure Unit := do
  match ← liftM (blocks.get blockLayout m index) with
  | none => return ()
  | some block => do
    let start := block.ptr
    let stop ← addWord start block.len
    throwIf (start < heapStart ∨ heapEnd < stop) (failure 2 "堆块越出堆区间" start)
    ((List.range blocks.len).drop (index + 1)).forM (checkOther blockLayout m blocks start stop)

/-- The loop over the bytes of a block, from the address on. -/
def checkBytes (step : ℕ) (what : String) (expected : UInt8) :
    ℕ → List UInt8 → Fallible CheckFailure Unit
  | _, [] => return ()
  | address, byte :: bytes => do
    throwIf (byte ≠ expected) (failure step what address)
    checkBytes step what expected (address + 1) bytes

/-- Steps 3 and 4, for one block: its bytes are the pattern. -/
def checkContents (step : ℕ) (what : String) (m : HeapMemory) (blocks : ElementVec) (index : ℕ) :
    Fallible CheckFailure Unit := do
  match ← liftM (blocks.get blockLayout m index) with
  | none => return ()
  | some block => do
    checkBytes step what (pattern index) block.ptr (← m.load block.ptr block.len)

/-- `blocks[index] = None`. -/
def clearBlock (blocks : ElementVec) (m : HeapMemory) (index : ℕ) :
    Fallible CheckFailure HeapMemory := do
  match ← liftM (blocks.get blockLayout m index) with
  | none => blocks.set blockLayout m index none
  | some block => do
    let m ← m.dealloc block.ptr
    blocks.set blockLayout m index none

/-- Step 4: one more replacement. -/
def fillReplacement (state : ElementVec × HeapMemory) (index : ℕ) :
    Fallible CheckFailure (ElementVec × HeapMemory) := do
  let (replacement, m) ← ByteVec.fromElem state.2 (pattern index ^^^ 0xFF) (sizeOfBlock index)
  state.1.push vecLayout m replacement

/-- Step 4: a block does not overlap the replacement from `start` to `stop`. -/
def checkSurvivor (m : HeapMemory) (blocks : ElementVec) (start stop other : ℕ) :
    Fallible CheckFailure Unit := do
  match ← liftM (blocks.get blockLayout m other) with
  | none => return ()
  | some other => do
    let otherStart := other.ptr
    let otherEnd ← addWord otherStart other.len
    throwIf (start < otherEnd ∧ otherStart < stop) (failure 4 "替换块与存活块重叠" start)

/-- Step 4, for one replacement: it lies in the heap, and overlaps no block. -/
def checkReplacement (m : HeapMemory) (blocks replacements : ElementVec)
    (heapStart heapEnd index : ℕ) : Fallible CheckFailure Unit := do
  let replacement ← liftM (replacements.get vecLayout m index)
  let start := replacement.ptr
  let stop ← addWord start replacement.len
  throwIf (start < heapStart ∨ heapEnd < stop) (failure 4 "替换块越出堆区间" start)
  (List.range blocks.len).forM (checkSurvivor blockLayout m blocks start stop)

/-- One element of `drop(replacements)`. -/
def dropReplacement (replacements : ElementVec) (m : HeapMemory) (index : ℕ) :
    Fallible CheckFailure HeapMemory := do
  let replacement ← liftM (replacements.get vecLayout m index)
  m.dealloc replacement.ptr

/-- One element of `drop(blocks)`. -/
def dropBlock (blocks : ElementVec) (m : HeapMemory) (index : ℕ) :
    Fallible CheckFailure HeapMemory := do
  match ← liftM (blocks.get blockLayout m index) with
  | none => return m
  | some block => m.dealloc block.ptr

/-- The end of step 5: a request that is too large must fail. -/
def checkOversized (m : HeapMemory) : Fallible CheckFailure HeapMemory := do
  let (pointer, m) ← m.alloc (← mulWord m.heap.len 2) 8
  if pointer ≠ 0 then
    let _ ← m.dealloc pointer
    throw (failure 5 "过大的分配请求竟然成功了" pointer)
  return m

/-- `heap_self_check`. -/
def heapSelfCheck (m : HeapMemory) : Fallible CheckFailure HeapMemory := do
  let heapStart := m.heap.base
  let len := m.heap.len
  throwIf (len ≠ heapSize) (failure 1 "堆区间长度不是 1 MiB" len)
  let heapEnd ← addWord heapStart len
  -- step 1
  let start ← ElementVec.withCapacity m blockCount
  let (blocks, m) ← (List.range blockCount).foldlM (fillBlock blockLayout) start
  -- steps 2 and 3
  (List.range blocks.len).forM (checkPlace blockLayout m blocks heapStart heapEnd)
  (List.range blocks.len).forM
    (checkContents blockLayout 3 "堆块内容读回不一致（页帧未映射或已被覆写）" m blocks)
  -- step 4
  let m ← evenBlocks.foldlM (clearBlock blockLayout blocks) m
  let start ← ElementVec.withCapacity m (blockCount / 2)
  let (replacements, m) ← evenBlocks.foldlM (fillReplacement vecLayout) start
  (List.range blocks.len).forM
    (checkContents blockLayout 4 "释放一半后，存活的堆块被破坏" m blocks)
  (List.range replacements.len).forM
    (checkReplacement blockLayout vecLayout m blocks replacements heapStart heapEnd)
  -- step 5
  let m ← (List.range replacements.len).foldlM (dropReplacement vecLayout replacements) m
  let m ← m.dealloc replacements.ptr
  let m ← (List.range blocks.len).foldlM (dropBlock blockLayout blocks) m
  let m ← m.dealloc blocks.ptr
  let stats := m.heap.list.stats
  throwIf (stats.freeBlocks ≠ 1 ∨ stats.freeBytes ≠ len - headerSize)
    (failure 5 "全部释放后堆没有合并回单个空闲块" stats.freeBytes)
  checkOversized m

end HeapCheck

/-! ## The check of the frame allocator -/

/-- `FREE_FRAMES_AFTER_INIT`: what `init_allocators` stores there. -/
def freeFramesAfterInit (info : BootInfo) (statics : Statics) (bitmap bytes : Slice UInt8)
    (limit : ℕ) : Fallible MemoryError ℕ := do
  let map ← mapError .map (ofExcept (bootInfoMemoryMap info bytes))
  let allocator ← mapError .frames (ExceptT.mk (FrameAllocator.init bitmap map
    (ownedRanges info statics) (.new (min limit maxIdentityBytes))))
  return allocator.stats.free

/-- `free`, where an error of the allocator is a failure of the check. -/
def freeAgain (a : FrameAllocator) (frame : PhysFrame) : Fallible CheckFailure FrameAllocator := do
  let (result, a) ← a.free frame
  mapError (fun _ : FreeError => failure 6 "释放刚分配的页帧失败" frame.address) (ofExcept result)
  return a

/-- `alloc`, where an allocator without a free frame is a failure of the check. -/
def allocAgain (a : FrameAllocator) : Fallible CheckFailure (PhysFrame × FrameAllocator) := do
  let (frame, a) ← a.alloc
  return (← okOr frame (failure 6 "页帧分配器已无空闲页帧" 0), a)

/-- No frame of the range is free. -/
def checkNoneFree (a : FrameAllocator) (what : String) (range : ReservedRange) :
    Fallible CheckFailure Unit := do
  match ← liftM (a.firstFreeIn range.start range.stop) with
  | none => return ()
  | some frame => throw (failure 6 what frame.address)

/-- `frame_self_check`. -/
def frameSelfCheck (info : BootInfo) (statics : Statics) (before : ℕ) (a : FrameAllocator) :
    Fallible CheckFailure FrameAllocator := do
  let (first, a) ← allocAgain a
  let (second, a) ← allocAgain a
  throwIf (first = second) (failure 6 "两次分配返回了同一个页帧" first.address)
  let a ← freeAgain a first
  let a ← freeAgain a second
  -- the lowest address comes first
  let (again, a) ← allocAgain a
  throwIf (again ≠ first) (failure 6 "释放后未按最低地址优先重新发放" again.address)
  let a ← freeAgain a again
  -- a second release is refused
  let (result, a) ← a.free again
  throwIf (result = .ok ()) (failure 6 "重复释放没有被拒绝" again.address)
  a.reservedRanges.forM (checkNoneFree a "保留区间内出现了空闲页帧")
  (ownedRanges info statics).forM (checkNoneFree a "内核自己的内存被算作空闲页帧")
  let total ← addWord a.stats.free (heapSize / pageSize)
  throwIf (total ≠ before) (failure 6 "堆消耗的页帧数与预期不符（free 计数不一致）" a.stats.free)
  return a

/-- `self_check`. -/
def selfCheck (blockLayout : Stored (Option ByteVec)) (vecLayout : Stored ByteVec)
    (info : BootInfo) (statics : Statics) (before : ℕ) (m : HeapMemory) (a : FrameAllocator) :
    Fallible CheckFailure (HeapMemory × FrameAllocator) := do
  let m ← heapSelfCheck blockLayout vecLayout m
  let a ← frameSelfCheck info statics before a
  return (m, a)

end Kernel

end ParanukOS
