import ParanukOS.Foundation.Loops
import ParanukOS.Foundation.WordArray
import ParanukOS.KernelMemory.Map

/-!
# Page tables

The embedding of `kernel-memory/src/paging.rs`, which builds the identity map of the kernel, and of
`kernel-memory/src/user_map.rs`, which adds the mappings of user space to the same tables.

Both write into a slice of bytes that is also addressed physically: a table entry holds the physical
address of the next table.  A `TableArena` therefore knows the address of its first byte; as
physical addresses have 52 bits, it carries a proof that it ends below `2 ^ 52`.

The last part is the meaning of the tables: `walk` is the walk of the processor through the four
levels, with permissions combined over all levels.
-/

namespace ParanukOS

open Foundation

namespace KernelMemory

/-- The size of a large page. -/
def blockSize : ℕ := 2 * 1024 * 1024

/-- The number of entries of a table, on all levels. -/
def tableEntries : ℕ := 512

/-- The addresses covered by a table of the second level. -/
def pdptCoverage : ℕ := 512 * 1024 * 1024 * 1024

/-- The addresses covered by a table of the third level. -/
def pdCoverage : ℕ := 1024 * 1024 * 1024

/-- `MAX_IDENTITY_SUPPORTED`. -/
def maxIdentitySupported : ℕ := pdCoverage * tableEntries

/-- `MAX_FINE_GRAINED_SUPPORTED`. -/
def maxFineGrainedSupported : ℕ := blockSize * tableEntries

/-- `MAX_IDENTITY_BYTES`: 4 GiB. -/
def maxIdentityBytes : ℕ := 4 * 1024 * 1024 * 1024

/-- The flag of an entry that is in use. -/
def present : ℕ := 1

/-- The flag of an entry that allows writes. -/
def writable : ℕ := 2

/-- The flag of an entry that user mode may use. -/
def user : ℕ := 4

/-- The flag of an entry of the third level that is a large page. -/
def block : ℕ := 128

/-- The bits of an entry that hold an address. -/
def addressMask : ℕ := 0x000FFFFFFFFFF000

/-- The memory the tables are built in. -/
structure TableArena where
  /-- The bytes. -/
  bytes : Slice UInt8
  /-- The physical address of the first byte. -/
  address : ℕ
  /-- Physical addresses have 52 bits. -/
  stop_le : address + bytes.length ≤ 2 ^ 52

namespace TableArena

/-- Copy bytes into the arena. -/
def write (self : TableArena) (offset : ℕ) (bs : List UInt8) : Checked TableArena :=
  if offset + bs.length ≤ self.bytes.length then
    .ok { bytes := self.bytes.overwrite offset bs
          address := self.address
          stop_le := by rw [Slice.length_overwrite]; exact self.stop_le }
  else .error .outOfBounds

/-- Set `count` bytes from `offset` on to zero. -/
def clear (self : TableArena) (offset count : ℕ) : Checked TableArena :=
  self.write offset (List.replicate count 0)

/-- `write_entry_at`: the entry `index` of the table at `offset` in the arena. -/
def writeEntryAt (self : TableArena) (offset index value : ℕ) : Checked TableArena := do
  self.write (← addWord offset (← mulWord index 8)) (leBytes 8 value)

/-- `read_entry_at`. -/
def readEntryAt (self : TableArena) (offset index : ℕ) : Checked ℕ := do
  match self.bytes.leWord? (← addWord offset (← mulWord index 8)) 8 with
  | some value => return value
  | none => .error .outOfBounds

/-- `write_entry`: the entry `index` of the table at the physical address `table`. -/
def writeEntry (self : TableArena) (table index value : ℕ) : Checked TableArena := do
  self.writeEntryAt (← subWord table self.address) index value

end TableArena

/-! ## The identity map -/

/-- The limits of the identity map. -/
structure PagingConfig where
  /-- The end of the identity map. -/
  maxIdentityBytes : ℕ
  /-- The end of the part that uses small pages. -/
  fineGrainedBytes : ℕ
  deriving DecidableEq, Repr

/-- `PagingConfig::M2`: 4 GiB, of which the first 2 MiB use small pages. -/
def PagingConfig.m2 : PagingConfig where
  maxIdentityBytes := KernelMemory.maxIdentityBytes
  fineGrainedBytes := blockSize

/-- `pd_count`: the number of tables of the third level. -/
def PagingConfig.pdCount (config : PagingConfig) : ℕ := divCeil config.maxIdentityBytes pdCoverage

/-- `pt_count`: the number of tables of the fourth level. -/
def PagingConfig.ptCount (config : PagingConfig) : ℕ := divCeil config.fineGrainedBytes blockSize

/-- `tables_needed`: the number of tables for a configuration. -/
def tablesNeeded (maxBytes fineGrainedBytes : ℕ) : ℕ :=
  1 + divCeil maxBytes pdptCoverage + divCeil maxBytes pdCoverage +
    divCeil fineGrainedBytes blockSize

/-- The reasons for which no tables are built. -/
inductive BuildError where
  | arenaMisaligned (address : ℕ)
  | arenaTooSmall (needed got : ℕ)
  | noUsableRam
  | configTooLarge (maxIdentityBytes supported : ℕ)
  | fineGrainedTooLarge (fineGrainedBytes supported : ℕ)
  deriving DecidableEq, Repr

/-- What `build` reports about the tables. -/
structure PageTables where
  /-- The physical address of the first level. -/
  pml4Phys : ℕ
  /-- The end of the RAM that may be mapped. -/
  limit : ℕ
  /-- The total size of the pages mapped. -/
  mappedBytes : ℕ
  /-- The number of large pages. -/
  blocks : ℕ
  /-- The number of small pages. -/
  pages : ℕ
  /-- The number of tables. -/
  tablesUsed : ℕ
  deriving DecidableEq, Repr

/-- The state of the loops of `build`: the arena, the pages mapped so far and their size. -/
structure Filling where
  /-- The arena. -/
  arena : TableArena
  /-- The number of pages mapped. -/
  count : ℕ
  /-- The total of their sizes. -/
  mappedBytes : ℕ

namespace Build

/-- The page with the number `n` of the arena at `base` (`take_page`). -/
def takePage (base n : ℕ) : ℕ := base + n * pageSize

/-- The body of the loop over the third level: a pointer to a table of small pages, a large page or
nothing. -/
def fillBlock (map : MemoryMap) (base pdCount ptCount limit index slot : ℕ) (s : Filling) :
    Checked Filling := do
  let pd := takePage base (2 + index)
  let blockIndex := index * tableEntries + slot
  let address := index * pdCoverage + slot * blockSize
  if blockIndex < ptCount then
    let pt := takePage base (2 + pdCount + blockIndex)
    let arena ← s.arena.writeEntry pd slot (pt ||| present ||| writable)
    return { s with arena }
  if limit ≤ address ∨ map.overlapsRam address (address + blockSize) = false then
    return s
  let arena ← s.arena.writeEntry pd slot (address ||| present ||| writable ||| block)
  return { arena
           count := ← addWord s.count 1
           mappedBytes := ← addWord s.mappedBytes blockSize }

/-- The body of the loop over the fourth level: a small page or nothing. -/
def fillPage (map : MemoryMap) (base pdCount fineLimit index slot : ℕ) (s : Filling) :
    Checked Filling := do
  let pt := takePage base (2 + pdCount + index)
  let address := index * blockSize + slot * pageSize
  if address = 0 ∨ fineLimit ≤ address then
    return s
  if map.overlapsRam address (address + pageSize) = false then
    return s
  let arena ← s.arena.writeEntry pt slot (address ||| present ||| writable)
  return { arena
           count := ← addWord s.count 1
           mappedBytes := ← addWord s.mappedBytes pageSize }

/-- The first writes of `build`: clear the tables and link the first three levels. -/
def fillUpper (arena : TableArena) (pdCount needed : ℕ) : Checked TableArena := do
  let base := arena.address
  let pdpt := takePage base 1
  let arena ← arena.clear 0 needed
  let arena ← arena.writeEntry (takePage base 0) 0 (pdpt ||| present ||| writable)
  forRange pdCount arena fun index arena =>
    arena.writeEntry pdpt index (takePage base (2 + index) ||| present ||| writable)

/-- The writes of `build`, after its checks.  The second result goes on from the bytes mapped of the
first. -/
def fill (arena : TableArena) (map : MemoryMap) (config : PagingConfig) (needed limit : ℕ) :
    Checked (Filling × Filling) := do
  let base := arena.address
  let arena ← fillUpper arena config.pdCount needed
  let blocks ← forRange config.pdCount { arena, count := 0, mappedBytes := 0 } fun index s =>
    forRange tableEntries s fun slot s =>
      fillBlock map base config.pdCount config.ptCount limit index slot s
  let fineLimit := min config.fineGrainedBytes limit
  let pages ← forRange config.ptCount { blocks with count := 0 } fun index s =>
    forRange tableEntries s fun slot s =>
      fillPage map base config.pdCount fineLimit index slot s
  return (blocks, pages)

end Build

/-- `build`: the tables of the identity map. -/
def build (arena : TableArena) (map : MemoryMap) (config : PagingConfig) :
    Checked (Except BuildError (PageTables × TableArena)) := do
  if arena.address % pageSize ≠ 0 then
    return .error (.arenaMisaligned arena.address)
  if maxIdentitySupported < config.maxIdentityBytes then
    return .error (.configTooLarge config.maxIdentityBytes maxIdentitySupported)
  if maxFineGrainedSupported < config.fineGrainedBytes then
    return .error (.fineGrainedTooLarge config.fineGrainedBytes maxFineGrainedSupported)
  let tables := tablesNeeded config.maxIdentityBytes config.fineGrainedBytes
  let needed ← mulWord tables pageSize
  if arena.bytes.length < needed then
    return .error (.arenaTooSmall needed arena.bytes.length)
  let some ramTop := map.ramTop | return .error .noUsableRam
  let limit := min ramTop config.maxIdentityBytes
  if limit = 0 then
    return .error .noUsableRam
  let (blocks, pages) ← Build.fill arena map config needed limit
  return .ok ({ pml4Phys := Build.takePage arena.address 0
                limit
                mappedBytes := pages.mappedBytes
                blocks := blocks.count
                pages := pages.count
                tablesUsed := tables }, pages.arena)

/-! ## User mappings -/

/-- `USER_BASE`: the first address of user space, where the identity map ends. -/
def userBase : ℕ := 0x100000000

/-- `USER_MAX_BYTES`: the size of user space, one table of the third level. -/
def userMaxBytes : ℕ := tableEntries * 2 * 1024 * 1024

/-- A range of user addresses and where it is in memory. -/
structure Mapping where
  /-- The user address. -/
  vaddr : ℕ
  /-- The physical address. -/
  paddr : ℕ
  /-- The length. -/
  size : ℕ
  /-- Whether user mode may write. -/
  writable : Bool
  deriving DecidableEq, Repr

/-- `vaddr_end`. -/
def Mapping.vaddrEnd (self : Mapping) : Checked ℕ := addWord self.vaddr self.size

/-- What `map_user_region` reports. -/
structure Mapped where
  /-- The number of bytes mapped. -/
  mappedBytes : ℕ
  /-- The number of tables added. -/
  tablesUsed : ℕ
  deriving DecidableEq, Repr

/-- The reasons for which user mappings are refused. -/
inductive UserMapError where
  | arenaTooSmall (needed got : ℕ)
  | belowUserBase (vaddr : ℕ)
  | notPageAligned (value : ℕ)
  | outOfRange (vaddrEnd : ℕ)
  | alreadyMapped
  deriving DecidableEq, Repr

namespace UserMap

/-- The checks of one mapping. -/
def checkMapping (mapping : Mapping) : Checked (Option UserMapError) := do
  if mapping.vaddr < userBase then
    return some (.belowUserBase mapping.vaddr)
  if userBase + userMaxBytes < (← mapping.vaddrEnd) then
    return some (.outOfRange (← mapping.vaddrEnd))
  if mapping.vaddr % pageSize ≠ 0 ∨ mapping.paddr % pageSize ≠ 0 ∨ mapping.size % pageSize ≠ 0 ∨
      mapping.size = 0 then
    return some (.notPageAligned mapping.vaddr)
  return none

/-- The first loop: the first mapping that is refused. -/
def checkMappings : List Mapping → Checked (Option UserMapError)
  | [] => return none
  | mapping :: mappings => do
    match ← checkMapping mapping with
    | some e => return some e
    | none => checkMappings mappings

/-- The second loop: the last table of the fourth level that is needed. -/
def highestSlot (mappings : List Mapping) : Checked ℕ :=
  mappings.foldlM (fun highest mapping => do
    let last ← subWord (← subWord (← mapping.vaddrEnd) userBase) 1
    return max highest (last / pageSize / tableEntries)) 0

/-- The array `pt_offsets`: the new tables of the fourth level, and zeros behind them. -/
def ptOffset (firstPage ptCount slot : ℕ) : Checked ℕ :=
  if tableEntries ≤ slot then .error .outOfBounds
  else if slot < ptCount then .ok ((firstPage + 1 + slot) * pageSize)
  else .ok 0

/-- The writes for the page `index` of a mapping. -/
def mapPage (firstPage ptCount : ℕ) (mapping : Mapping) (index : ℕ) (s : TableArena × ℕ) :
    Checked (TableArena × ℕ) := do
  let vaddr ← addWord mapping.vaddr (← mulWord index pageSize)
  let pageIndex := (← subWord vaddr userBase) / pageSize
  let flags := if mapping.writable then present ||| user ||| KernelMemory.writable
    else present ||| user
  let offset ← ptOffset firstPage ptCount (pageIndex / tableEntries)
  let arena ← s.1.writeEntryAt offset (pageIndex % tableEntries)
    ((← addWord mapping.paddr (← mulWord index pageSize)) ||| flags)
  return (arena, ← addWord s.2 pageSize)

/-- The body of the loop over the new tables: clear a page and enter it into the third level. -/
def addTable (firstFreeOffset slot : ℕ) (arena : TableArena) : Checked TableArena := do
  let tableOffset := (firstFreeOffset / pageSize + 1 + slot) * pageSize
  let arena ← arena.clear tableOffset pageSize
  arena.writeEntryAt firstFreeOffset slot
    ((arena.address + tableOffset) ||| present ||| writable ||| user)

/-- The writes after the last check: the new tables, and the pages of all mappings. -/
def fill (arena : TableArena) (pdpt pdptIndex firstFreeOffset ptCount : ℕ)
    (mappings : List Mapping) : Checked (TableArena × ℕ) := do
  let firstPage := firstFreeOffset / pageSize
  let arena ← arena.clear firstFreeOffset pageSize
  let arena ← arena.writeEntryAt pdpt pdptIndex
    ((arena.address + firstFreeOffset) ||| present ||| writable ||| user)
  let arena ← forRange ptCount arena fun slot arena => addTable firstFreeOffset slot arena
  mappings.foldlM (fun s mapping =>
    forRange (mapping.size / pageSize) s fun index s =>
      mapPage firstPage ptCount mapping index s) (arena, 0)

end UserMap

/-- `map_user_region`: add the mappings of user space to the tables at `pml4Offset`. -/
def mapUserRegion (arena : TableArena) (pml4Offset firstFreeOffset : ℕ) (mappings : List Mapping) :
    Checked (Except UserMapError Mapped × TableArena) := do
  if arena.address % pageSize ≠ 0 then
    return (.error (.notPageAligned arena.address), arena)
  if firstFreeOffset % pageSize ≠ 0 ∨ pml4Offset % pageSize ≠ 0 then
    return (.error (.notPageAligned firstFreeOffset), arena)
  let pages := arena.bytes.length / pageSize
  if mappings.isEmpty then
    return (.ok { mappedBytes := 0, tablesUsed := 0 }, arena)
  if let some e ← UserMap.checkMappings mappings then
    return (.error e, arena)
  let pdptEntry ← arena.readEntryAt pml4Offset 0
  if pdptEntry &&& present = 0 then
    return (.error (.belowUserBase pml4Offset), arena)
  -- from here on the entry of the first level is open to user mode, also when an error follows
  let arena ← if pdptEntry &&& user = 0 then arena.writeEntryAt pml4Offset 0 (pdptEntry ||| user)
    else pure arena
  let pdpt ← subWord (pdptEntry &&& addressMask) arena.address
  let pdptIndex := userBase / 2 ^ 30 % tableEntries
  if (← arena.readEntryAt pdpt pdptIndex) &&& present ≠ 0 then
    return (.error .alreadyMapped, arena)
  let ptCount := (← UserMap.highestSlot mappings) + 1
  let firstPage := firstFreeOffset / pageSize
  let needed := firstPage + 1 + ptCount
  if pages < needed then
    return (.error (.arenaTooSmall needed pages), arena)
  let (arena, mappedBytes) ← UserMap.fill arena pdpt pdptIndex firstFreeOffset ptCount mappings
  return (.ok { mappedBytes, tablesUsed := 1 + ptCount }, arena)

/-! ## The walk of the processor -/

/-- The size of a page that an address is mapped by. -/
inductive Leaf where
  | page
  | block
  | huge
  deriving DecidableEq, Repr

/-- What an address is translated to. -/
structure Translation where
  /-- The physical address. -/
  phys : ℕ
  /-- Writes are allowed on all levels. -/
  writable : Bool
  /-- User mode is allowed on all levels. -/
  user : Bool
  /-- The size of the page. -/
  leaf : Leaf
  deriving DecidableEq, Repr

/-- The result of a walk. -/
inductive Walk where
  /-- An entry is not in use: the access faults. -/
  | notPresent
  /-- A table lies outside of the arena. -/
  | outside
  /-- The address is mapped. -/
  | mapped (t : Translation)
  deriving DecidableEq, Repr

/-- The physical address in an entry. -/
def entryAddress (e : ℕ) : ℕ := e &&& addressMask

/-- The entry `index` of the table at the physical address `table`. -/
def TableArena.entry? (self : TableArena) (table index : ℕ) : Option ℕ :=
  if self.address ≤ table then self.bytes.leWord? (table - self.address + 8 * index) 8 else none

/-- One level of the walk: look up an entry and go on if it is in use. -/
def walkLevel (arena : TableArena) (table index : ℕ) (next : ℕ → Walk) : Walk :=
  match arena.entry? table index with
  | none => .outside
  | some e => if e.testBit 0 then next e else .notPresent

/-- The walk through the four levels, from the table at `root`, for a 48-bit address.  Bit 7 of an
entry of the second or third level marks a page of 1 GiB or 2 MiB. -/
def walk (arena : TableArena) (root va : ℕ) : Walk :=
  walkLevel arena root (va / 2 ^ 39 % 512) fun e₄ =>
  walkLevel arena (entryAddress e₄) (va / 2 ^ 30 % 512) fun e₃ =>
    if e₃.testBit 7 then
      .mapped { phys := entryAddress e₃ / 2 ^ 30 * 2 ^ 30 + va % 2 ^ 30
                writable := e₄.testBit 1 && e₃.testBit 1
                user := e₄.testBit 2 && e₃.testBit 2
                leaf := .huge }
    else
  walkLevel arena (entryAddress e₃) (va / 2 ^ 21 % 512) fun e₂ =>
    if e₂.testBit 7 then
      .mapped { phys := entryAddress e₂ / 2 ^ 21 * 2 ^ 21 + va % 2 ^ 21
                writable := e₄.testBit 1 && e₃.testBit 1 && e₂.testBit 1
                user := e₄.testBit 2 && e₃.testBit 2 && e₂.testBit 2
                leaf := .block }
    else
  walkLevel arena (entryAddress e₂) (va / 2 ^ 12 % 512) fun e₁ =>
    .mapped { phys := entryAddress e₁ + va % 2 ^ 12
              writable := e₄.testBit 1 && e₃.testBit 1 && e₂.testBit 1 && e₁.testBit 1
              user := e₄.testBit 2 && e₃.testBit 2 && e₂.testBit 2 && e₁.testBit 2
              leaf := .page }

end KernelMemory

end ParanukOS
