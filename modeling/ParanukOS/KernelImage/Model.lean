import ParanukOS.Foundation.Bytes
import ParanukOS.Foundation.Fallible
import ParanukOS.Foundation.Words

/-!
# Kernel images

The embedding of `kernel-image/src/lib.rs`: the checks of an ELF file and of its program headers.
The file is a slice of bytes; the program headers are read again by every function that needs them,
with the iterator `SegmentIter`.
-/

namespace ParanukOS

open Foundation Foundation.Fallible

namespace KernelImage

/-! ## The header -/

/-- `ELF_HEADER_MIN_LEN`. -/
def elfHeaderMinLen : ℕ := 64

/-- `EI_CLASS`. -/
def eiClass : ℕ := 4

/-- `EI_DATA`. -/
def eiData : ℕ := 5

/-- `E_TYPE_OFFSET`. -/
def eTypeOffset : ℕ := 16

/-- `E_MACHINE_OFFSET`. -/
def eMachineOffset : ℕ := 18

/-- `E_ENTRY_OFFSET`. -/
def eEntryOffset : ℕ := 24

/-- `ELFCLASS64`. -/
def elfClass64 : ℕ := 2

/-- `ELFDATA2LSB`. -/
def elfData2Lsb : ℕ := 1

/-- `ET_EXEC`. -/
def etExec : ℕ := 2

/-- `EM_X86_64`. -/
def emX8664 : ℕ := 62

/-- `ELF_MAGIC`. -/
def elfMagic : List UInt8 := [0x7f, 0x45, 0x4c, 0x46]

/-- The reasons for which the header is refused. -/
inductive ImageError where
  | tooSmall (len : ℕ)
  | notElf
  | notElf64
  | notLittleEndian
  | notExecutable (eType : ℕ)
  | unsupportedMachine (machine : ℕ)
  deriving DecidableEq, Repr

/-- The bytes `data[offset..offset + len]`. -/
def readBytes (data : Slice UInt8) (offset len : ℕ) : Checked (List UInt8) :=
  match data.range? offset len with
  | some bytes => .ok bytes
  | none => .error .outOfBounds

/-- A little-endian word of `n` bytes. -/
def readWord (data : Slice UInt8) (offset n : ℕ) : Checked ℕ := do
  return leVal (← readBytes data offset n)

/-- `read_u16`. -/
def readU16 (data : Slice UInt8) (offset : ℕ) : Checked ℕ := readWord data offset 2

/-- `read_u32`. -/
def readU32 (data : Slice UInt8) (offset : ℕ) : Checked ℕ := readWord data offset 4

/-- `read_u64`. -/
def readU64 (data : Slice UInt8) (offset : ℕ) : Checked ℕ := readWord data offset 8

/-- `validate`: the value is the entry point. -/
def validate (data : Slice UInt8) : Fallible ImageError ℕ := do
  throwIf (data.length < elfHeaderMinLen) (.tooSmall data.length)
  throwIf ((← readBytes data 0 4) ≠ elfMagic) .notElf
  throwIf ((← readWord data eiClass 1) ≠ elfClass64) .notElf64
  throwIf ((← readWord data eiData 1) ≠ elfData2Lsb) .notLittleEndian
  let eType ← readU16 data eTypeOffset
  throwIf (eType ≠ etExec) (.notExecutable eType)
  let eMachine ← readU16 data eMachineOffset
  throwIf (eMachine ≠ emX8664) (.unsupportedMachine eMachine)
  readU64 data eEntryOffset

/-! ## Program headers -/

/-- `PF_X`. -/
def pfX : ℕ := 1

/-- `PAGE_SIZE`. -/
def pageSize : ℕ := 4096

/-- `PHDR_LEN`. -/
def phdrLen : ℕ := 56

/-- `PT_LOAD`. -/
def ptLoad : ℕ := 1

/-- `P_TYPE_OFFSET`. -/
def pTypeOffset : ℕ := 0

/-- `P_FLAGS_OFFSET`. -/
def pFlagsOffset : ℕ := 4

/-- `P_OFFSET_OFFSET`. -/
def pOffsetOffset : ℕ := 8

/-- `P_VADDR_OFFSET`. -/
def pVaddrOffset : ℕ := 16

/-- `P_PADDR_OFFSET`. -/
def pPaddrOffset : ℕ := 24

/-- `P_FILESZ_OFFSET`. -/
def pFileszOffset : ℕ := 32

/-- `P_MEMSZ_OFFSET`. -/
def pMemszOffset : ℕ := 40

/-- `E_PHOFF_OFFSET`. -/
def ePhoffOffset : ℕ := 32

/-- `E_PHENTSIZE_OFFSET`. -/
def ePhentsizeOffset : ℕ := 54

/-- `E_PHNUM_OFFSET`. -/
def ePhnumOffset : ℕ := 56

/-- A segment to be loaded. -/
structure Segment where
  /-- The place of its data in the file. -/
  offset : ℕ
  /-- The physical address that it is loaded at. -/
  paddr : ℕ
  /-- The virtual address that it is linked at. -/
  vaddr : ℕ
  /-- The number of bytes in the file. -/
  filesz : ℕ
  /-- The number of bytes in memory. -/
  memsz : ℕ
  /-- The permissions. -/
  flags : ℕ
  deriving DecidableEq, Repr

/-- `page_range`: the pages that the segment occupies. -/
def Segment.pageRange (self : Segment) : Checked (ℕ × ℕ) := do
  let start := self.paddr &&& notWord (pageSize - 1)
  let stop ← mulWord (divCeil (← addWord self.paddr self.memsz) pageSize) pageSize
  return (start, stop)

/-- `is_executable`. -/
def Segment.isExecutable (self : Segment) : Bool := self.flags &&& pfX ≠ 0

/-- The reasons for which the segments are refused. -/
inductive SegmentError where
  | badProgramHeaders
  | fileszLargerThanMemsz
  | dataOutOfBounds
  | addressOverflow
  | emptySegment
  | overlappingSegments
  | entryNotExecutable
  deriving DecidableEq, Repr

/-- The segment that the program header at an offset describes. -/
def readSegment (data : Slice UInt8) (entry : ℕ) : Checked Segment := do
  return {
    offset := ← readU64 data (entry + pOffsetOffset)
    paddr := ← readU64 data (entry + pPaddrOffset)
    vaddr := ← readU64 data (entry + pVaddrOffset)
    filesz := ← readU64 data (entry + pFileszOffset)
    memsz := ← readU64 data (entry + pMemszOffset)
    flags := ← readU32 data (entry + pFlagsOffset) }

/-- The iterator over the segments. -/
structure SegmentIter where
  /-- The file. -/
  data : Slice UInt8
  /-- The offset of the table of program headers. -/
  tableOffset : ℕ
  /-- The distance between two of them. -/
  entrySize : ℕ
  /-- The number of program headers left. -/
  remaining : ℕ
  /-- The number of the next one. -/
  index : ℕ

/-- The loop of `next`, which skips the program headers of other types. -/
def nextFrom (data : Slice UInt8) (tableOffset entrySize : ℕ) :
    ℕ → ℕ → Checked (Option (Except SegmentError Segment) × SegmentIter)
  | 0, index => return (none, ⟨data, tableOffset, entrySize, 0, index⟩)
  | remaining + 1, index => do
    let next ← addU16 index 1
    let iter : SegmentIter := ⟨data, tableOffset, entrySize, remaining, next⟩
    let entry ← addWord tableOffset (← mulWord index entrySize)
    match checkedAdd entry phdrLen with
    | none => return (none, iter)
    | some stop =>
      if data.length < stop then return (some (.error .badProgramHeaders), iter)
      else if (← readU32 data (entry + pTypeOffset)) ≠ ptLoad then
        nextFrom data tableOffset entrySize remaining next
      else return (some (.ok (← readSegment data entry)), iter)

/-- `next`. -/
def SegmentIter.next (self : SegmentIter) :
    Checked (Option (Except SegmentError Segment) × SegmentIter) :=
  nextFrom self.data self.tableOffset self.entrySize self.remaining self.index

/-- `segments`. -/
def segments (data : Slice UInt8) : Fallible SegmentError SegmentIter := do
  throwIf (data.length < elfHeaderMinLen) .badProgramHeaders
  let tableOffset ← readU64 data ePhoffOffset
  let entrySize ← readU16 data ePhentsizeOffset
  let count ← readU16 data ePhnumOffset
  throwIf (count = 0 ∨ entrySize < phdrLen) .badProgramHeaders
  return { data, tableOffset, entrySize, remaining := count, index := 0 }

/-- At most `n` rounds of a loop over the segments; an item that is an error ends it. -/
def forEachFrom {ε σ : Type} (ofError : SegmentError → ε) (body : σ → Segment → Fallible ε σ) :
    ℕ → SegmentIter → σ → Fallible ε σ
  | 0, _, s => return s
  | n + 1, iter, s => do
    let (item, iter) ← iter.next
    match item with
    | none => return s
    | some (.error e) => throw (ofError e)
    | some (.ok segment) => forEachFrom ofError body n iter (← body s segment)

/-- The loop `for segment in segments(data)? { let segment = segment?; … }`.  Every round takes at
least one of the program headers left. -/
def forEach {ε σ : Type} (data : Slice UInt8) (ofError : SegmentError → ε) (init : σ)
    (body : σ → Segment → Fallible ε σ) : Fallible ε σ := do
  let iter ← mapError ofError (segments data)
  forEachFrom ofError body iter.remaining iter init

/-- The body of the loop of `check_segments`. -/
def checkSegment (data : Slice UInt8) (count : ℕ) (segment : Segment) :
    Fallible SegmentError ℕ := do
  throwIf (segment.memsz = 0) .emptySegment
  throwIf (segment.memsz < segment.filesz) .fileszLargerThanMemsz
  let fileEnd ← okOr (checkedAdd segment.offset segment.filesz) .addressOverflow
  throwIf (data.length < fileEnd) .dataOutOfBounds
  let _ ← okOr (checkedAdd segment.paddr segment.memsz) .addressOverflow
  addWord count 1

/-- `check_segments`: the value is the number of segments. -/
def checkSegments (data : Slice UInt8) : Fallible SegmentError ℕ := do
  let count ← forEach data id 0 (checkSegment data)
  throwIf (count = 0) .badProgramHeaders
  return count

/-- The length of the array of `check_no_overlap`. -/
def maxRanges : ℕ := 16

/-- The array of `check_no_overlap` at the start. -/
def noRanges : Slice (ℕ × ℕ) := ⟨List.replicate maxRanges (0, 0), by decide⟩

/-- The body of the loop of `check_no_overlap`.  The state is the number of segments done, and the
array. -/
def checkRange (state : ℕ × Slice (ℕ × ℕ)) (segment : Segment) :
    Fallible SegmentError (ℕ × Slice (ℕ × ℕ)) := do
  let (len, ranges) := state
  let stop ← okOr (checkedAdd segment.paddr segment.memsz) .addressOverflow
  let others ← ranges.upTo len
  throwIf (others.toList.any fun other => segment.paddr < other.2 && other.1 < stop)
    .overlappingSegments
  throwIf (len = ranges.length) .badProgramHeaders
  let ranges ← ranges.write len [(segment.paddr, stop)]
  return (← addWord len 1, ranges)

/-- `check_no_overlap`. -/
def checkNoOverlap (data : Slice UInt8) : Fallible SegmentError Unit := do
  let _ ← forEach data id (0, noRanges) checkRange
  return ()

/-- The body of the loop of `check_entry`.  The error is the value that is returned early. -/
def checkEnters (entry : ℕ) (_ : Unit) (segment : Segment) :
    Fallible (Except SegmentError Unit) Unit := do
  let stop ← okOr (checkedAdd segment.vaddr segment.memsz) (.error .addressOverflow)
  throwIf (segment.isExecutable ∧ segment.vaddr ≤ entry ∧ entry < stop) (.ok ())

/-- `check_entry`. -/
def checkEntry (data : Slice UInt8) (entry : ℕ) : Fallible SegmentError Unit := do
  let result ← (forEach data Except.error () (checkEnters entry)).run
  match result with
  | .ok () => throw .entryNotExecutable
  | .error (.ok ()) => return ()
  | .error (.error e) => throw e

/-- `loaded_span`. -/
def loadedSpan (data : Slice UInt8) : Fallible SegmentError (ℕ × ℕ) := do
  let span ← forEach data id (none : Option (ℕ × ℕ)) fun span segment => do
    let (start, stop) ← segment.pageRange
    match span with
    | none => return some (start, stop)
    | some (low, high) => return some (min low start, max high stop)
  okOr span .badProgramHeaders

end KernelImage

end ParanukOS
