import Mathlib.Data.Finset.Image
import ParanukOS.KernelImage.Segments

/-!
# Loading an image

The embedding of `FsLoader::load` of `bootloader/fs_loader.rs`.  The loader copies the segments of
an ELF file to their physical addresses.  It asks the firmware for every page that it writes to, and
remembers the pages it has asked for, since segments may share one.

The firmware is a `Firmware`: a function that may refuse a page, with the two properties that the
loader relies on.  The state of the loader also records the pages it has asked for and the ranges it
has written to.

## Outline

* `Firmware`, `LoadState`: the state.
* `requestPage`, `requestPages`, `copySegment`, `load`: the loader.
-/

namespace ParanukOS

open Foundation Foundation.Fallible KernelImage

namespace Bootloader

/-- `MAX_KERNEL_PAGES`. -/
def maxKernelPages : ℕ := 256

/-- The result of a successful load. -/
structure LoadedKernel where
  /-- The address of the first page. -/
  base : ℕ
  /-- The number of bytes from there to the end of the last page. -/
  size : ℕ
  /-- The entry point. -/
  entry : ℕ
  /-- The number of segments. -/
  segments : ℕ
  /-- The difference of virtual and physical address of the first segment. -/
  vaddrDelta : ℤ
  deriving DecidableEq, Repr

/-- The reasons for which no image is loaded; errors of the firmware have a status. -/
inductive LoadError where
  | efi (status : ℕ)
  | fs (status : ℕ)
  | image (e : ImageError)
  | segment (e : SegmentError)
  | tooManyPages (pages : ℕ)
  deriving DecidableEq, Repr

/-! ## The firmware -/

/-- The memory of the machine, the pages that are allocated, and what else the firmware knows. -/
structure Ram (φ : Type) where
  /-- The bytes, by their addresses. -/
  memory : ℕ → UInt8
  /-- The addresses of the pages that are allocated. -/
  allocated : Finset ℕ
  /-- The state of the firmware. -/
  firmware : φ

/-- A firmware.  It allocates a page only if it is not allocated yet, and leaves the contents of the
memory elsewhere as they are.  The loader asks for pages at an address, the handoff for pages
anywhere. -/
structure Firmware (φ : Type) where
  /-- `allocate_pages(AllocateType::Address(page), MemoryType::LOADER_DATA, 1)`. -/
  allocatePages : Ram φ → ℕ → Except ℕ (Ram φ)
  /-- An allocated page is not allocated again. -/
  notMem_of_ok : ∀ ram page ram', allocatePages ram page = .ok ram' → page ∉ ram.allocated
  /-- The page is allocated then, and no other one. -/
  allocated_of_ok : ∀ ram page ram', allocatePages ram page = .ok ram' →
    ram'.allocated = insert page ram.allocated
  /-- Other pages keep their contents. -/
  memory_of_ok : ∀ ram page ram', allocatePages ram page = .ok ram' →
    ∀ p, p < page ∨ page + pageSize ≤ p → ram'.memory p = ram.memory p
  /-- `allocate_pages(AllocateType::AnyPages, MemoryType::LOADER_DATA, count)`: the first value is
  the address. -/
  allocateAny : Ram φ → ℕ → Except ℕ (ℕ × Ram φ)
  /-- Pages are aligned. -/
  dvd_of_any : ∀ ram count base ram', allocateAny ram count = .ok (base, ram') → pageSize ∣ base
  /-- The pages are not allocated yet. -/
  notMem_of_any : ∀ ram count base ram', allocateAny ram count = .ok (base, ram') →
    ∀ i < count, base + i * pageSize ∉ ram.allocated
  /-- They are allocated then, and no other one. -/
  allocated_of_any : ∀ ram count base ram', allocateAny ram count = .ok (base, ram') →
    ram'.allocated = ram.allocated ∪ (Finset.range count).image fun i => base + i * pageSize

/-! ## The loader -/

/-- The state of the loader. -/
structure LoadState (φ : Type) where
  /-- The machine. -/
  ram : Ram φ
  /-- The pages in the array `allocated`. -/
  pages : List ℕ
  /-- The pages that the firmware has been asked for. -/
  requests : List ℕ
  /-- The ranges that have been written to: address and length. -/
  writes : List (ℕ × ℕ)

variable {φ : Type}

/-- Ask for a page, unless it is one of those in the array. -/
def requestPage (fw : Firmware φ) (s : LoadState φ) (page : ℕ) : Fallible LoadError (LoadState φ) :=
  if page ∈ s.pages then return s
  else do
    throwIf (s.pages.length = maxKernelPages) (.tooManyPages (s.pages.length + 1))
    match fw.allocatePages s.ram page with
    | .error status => throw (.efi status)
    | .ok ram =>
      return { s with ram, pages := s.pages ++ [page], requests := s.requests ++ [page] }

/-- The loop over `n` pages. -/
def requestPages (fw : Firmware φ) : ℕ → ℕ → LoadState φ → Fallible LoadError (LoadState φ)
  | 0, _, s => return s
  | n + 1, page, s => do
    let s ← requestPage fw s page
    requestPages fw n (← addWord page pageSize) s

/-- The memory with bytes copied to an address (`copy_nonoverlapping`). -/
def copyBytes (memory : ℕ → UInt8) (address : ℕ) (bytes : List UInt8) : ℕ → UInt8 :=
  fun p => if address ≤ p then (bytes[p - address]?).getD (memory p) else memory p

/-- The memory with a range filled with zeros (`write_bytes`). -/
def zeroBytes (memory : ℕ → UInt8) (address len : ℕ) : ℕ → UInt8 :=
  fun p => if address ≤ p ∧ p < address + len then 0 else memory p

/-- Copy the bytes of a segment from the file and clear the rest of it. -/
def copySegment (data : Slice UInt8) (s : LoadState φ) (segment : Segment) :
    Checked (LoadState φ) := do
  let fileStart := segment.offset
  let fileEnd ← addWord segment.offset segment.filesz
  let len ← subWord fileEnd fileStart
  let bytes ← readBytes data fileStart len
  let memory := copyBytes s.ram.memory segment.paddr bytes
  let writes := s.writes ++ [(segment.paddr, len)]
  let bssLen ← subWord segment.memsz segment.filesz
  if 0 < bssLen then
    return { s with
      ram := { s.ram with memory := zeroBytes memory (segment.paddr + len) bssLen }
      writes := writes ++ [(segment.paddr + len, bssLen)] }
  else return { s with ram := { s.ram with memory }, writes }

/-- The body of the loop of `load`. -/
def loadSegment (fw : Firmware φ) (data : Slice UInt8) (s : LoadState φ) (segment : Segment) :
    Fallible LoadError (LoadState φ) := do
  let (pageStart, pageEnd) ← segment.pageRange
  let s ← requestPages fw (divCeil (pageEnd - pageStart) pageSize) pageStart s
  copySegment data s segment

/-- A word as a signed number (`as i64`). -/
def asI64 (x : ℕ) : ℤ := if x < 2 ^ 63 then x else x - 2 ^ 64

/-- The difference of signed words; stops on overflow. -/
def subI64 (a b : ℤ) : Checked ℤ :=
  if -2 ^ 63 ≤ a - b ∧ a - b < 2 ^ 63 then .ok (a - b) else .error .overflow

/-- The first segment. -/
def firstSegment (data : Slice UInt8) : Fallible SegmentError Segment := do
  let iter ← segments data
  let (item, _) ← iter.next
  match ← okOr item .emptySegment with
  | .error e => throw e
  | .ok segment => return segment

/-- `load`, after the file has been read or the attempt has failed. -/
def load (fw : Firmware φ) (file : Except LoadError (Slice UInt8)) (ram : Ram φ) :
    Fallible LoadError (LoadedKernel × LoadState φ) :=
  match file with
  | .error e => throw e
  | .ok data => do
    let entry ← mapError .image (validate data)
    let segments ← mapError .segment (checkSegments data)
    mapError .segment (checkNoOverlap data)
    mapError .segment (checkEntry data entry)
    let (base, stop) ← mapError .segment (loadedSpan data)
    let first ← mapError .segment (firstSegment data)
    let vaddrDelta ← subI64 (asI64 first.vaddr) (asI64 first.paddr)
    let s ← forEach data .segment ⟨ram, [], [], []⟩ (loadSegment fw data)
    let size ← subWord stop base
    return ({ base, size, entry, segments, vaddrDelta }, s)

end Bootloader

end ParanukOS
