import ParanukOS.Foundation.Bytes

/-!
# The memory map of the firmware

The embedding of `kernel-memory/src/map.rs`.  The firmware describes physical memory by a table of
descriptors; `fromBytes` reads them at the stride the firmware gives, which may be larger than a
descriptor, and refuses a table with a region that reaches beyond the address space.  A `MemoryMap`
therefore carries a proof that the ends of its regions are words, and the arithmetic on them is that
of natural numbers from then on.
-/

namespace ParanukOS

open Foundation

namespace KernelMemory

/-- The size of a page. -/
def pageSize : ℕ := 4096

/-- The length of a standard descriptor (`DESCRIPTOR_MIN_SIZE`). -/
def descriptorMinSize : ℕ := 40

/-- The types of memory. -/
inductive MemoryKind where
  | reserved
  | loaderCode
  | loaderData
  | bootServicesCode
  | bootServicesData
  | runtimeServicesCode
  | runtimeServicesData
  | conventional
  | unusable
  | acpiReclaim
  | acpiNvs
  | mmio
  | mmioPortSpace
  | palCode
  | persistent
  | unaccepted
  /-- A type this kernel does not know; it does not count as RAM. -/
  | unknown (raw : ℕ)
  deriving DecidableEq, Repr

namespace MemoryKind

/-- `from_raw`. -/
def fromRaw : ℕ → MemoryKind
  | 0 => reserved
  | 1 => loaderCode
  | 2 => loaderData
  | 3 => bootServicesCode
  | 4 => bootServicesData
  | 5 => runtimeServicesCode
  | 6 => runtimeServicesData
  | 7 => conventional
  | 8 => unusable
  | 9 => acpiReclaim
  | 10 => acpiNvs
  | 11 => mmio
  | 12 => mmioPortSpace
  | 13 => palCode
  | 14 => persistent
  | 15 => unaccepted
  | other => unknown other

/-- `is_ram`: the types that may be mapped as ordinary memory. -/
def isRam : MemoryKind → Bool
  | loaderCode | loaderData | bootServicesCode | bootServicesData | runtimeServicesCode
  | runtimeServicesData | conventional | acpiReclaim | acpiNvs => true
  | _ => false

end MemoryKind

/-- A region of the memory map. -/
structure Region where
  /-- The type of memory. -/
  kind : MemoryKind
  /-- The physical address. -/
  base : ℕ
  /-- The number of pages. -/
  pages : ℕ
  deriving DecidableEq, Repr

namespace Region

/-- `end`: the address behind the region. -/
def stop (self : Region) : ℕ := self.base + self.pages * pageSize

/-- `overlaps`: the test for an intersection with the addresses from `start` to `stop`. -/
def overlaps (self : Region) (start stop : ℕ) : Bool := self.base < stop && start < self.stop

/-- The address belongs to the region. -/
def Contains (self : Region) (p : ℕ) : Prop := self.base ≤ p ∧ p < self.stop

/-- The test is exact for a region and a range that are not empty. -/
lemma overlaps_iff {self : Region} {start stop : ℕ} (hpages : 0 < self.pages) (h : start < stop) :
    self.overlaps start stop = true ↔ ∃ p, self.Contains p ∧ start ≤ p ∧ p < stop := by
  have hpos : self.base < self.stop := by simp only [Region.stop, pageSize]; omega
  simp only [overlaps, Bool.and_eq_true, decide_eq_true_eq, Contains]
  constructor
  · rintro ⟨h1, h2⟩
    exact ⟨max self.base start, by omega, by omega, by omega⟩
  · rintro ⟨p, hp, h1, h2⟩
    omega

/-- A range with an address of the region in it passes the test. -/
lemma overlaps_of_contains {self : Region} {start stop p : ℕ} (hp : self.Contains p)
    (h1 : start ≤ p) (h2 : p < stop) : self.overlaps start stop = true := by
  simp only [overlaps, Bool.and_eq_true, decide_eq_true_eq]
  exact ⟨by have := hp.1; omega, by have := hp.2; omega⟩

end Region

/-- The reasons for which a memory map is refused. -/
inductive MapError where
  | empty
  | strideTooSmall (stride : ℕ)
  | tooShort (needed got : ℕ)
  | tooLarge (entries stride : ℕ)
  | addressOverflow (index : ℕ)
  deriving DecidableEq, Repr

/-- `read_u32` and `read_u64`: the little-endian word of `n` bytes, or zero beyond the end. -/
def readWord (bytes : Slice UInt8) (offset n : ℕ) : ℕ := (bytes.leWord? offset n).getD 0

/-- The descriptor at `offset`: type at 0, physical start at 8, number of pages at 24. -/
def regionAt (bytes : Slice UInt8) (offset : ℕ) : Region where
  kind := MemoryKind.fromRaw (readWord bytes (offset + 0) 4)
  base := readWord bytes (offset + 8) 8
  pages := readWord bytes (offset + 24) 8

/-- The regions of a table, as its iterator returns them. -/
def regionsOf (bytes : Slice UInt8) (entries stride : ℕ) : List Region :=
  (List.range entries).map fun index => regionAt bytes (index * stride)

/-- A memory map that has passed the checks. -/
structure MemoryMap where
  /-- The bytes of the table. -/
  bytes : Slice UInt8
  /-- The number of descriptors. -/
  entries : ℕ
  /-- The distance between descriptors. -/
  stride : ℕ
  /-- The version of the descriptors. -/
  version : ℕ
  /-- The regions end inside of the address space. -/
  stop_lt : ∀ r ∈ regionsOf bytes entries stride, r.stop < 2 ^ 64

/-- `buffer_len`: the length of the table. -/
def bufferLen (entries stride : ℕ) : Option ℕ :=
  if stride < descriptorMinSize then none else checkedMul entries stride

/-- The test of the loop of `from_bytes`: the end of a region is a word. -/
def regionFits (r : Region) : Bool :=
  ((checkedMul r.pages pageSize).bind fun len => checkedAdd r.base len).isSome

lemma regionFits_iff {r : Region} : regionFits r = true ↔ r.stop < 2 ^ 64 := by
  simp only [regionFits, checkedMul, checkedAdd, Region.stop]
  split_ifs with h
  · simp only [Option.bind_some]
    split_ifs with h'
    · exact ⟨fun _ => h', fun _ => rfl⟩
    · exact ⟨fun hcon => absurd hcon (by simp), fun hcon => absurd hcon h'⟩
  · simp only [Option.bind_none, Option.isSome_none, Bool.false_eq_true, false_iff, not_lt]
    omega

namespace MemoryMap

/-- `from_bytes`: the descriptors are read from the first `needed` bytes. -/
def fromBytes (bytes : Slice UInt8) (entries stride version : ℕ) : Except MapError MemoryMap :=
  if entries = 0 then .error .empty
  else if stride < descriptorMinSize then .error (.strideTooSmall stride)
  else match bufferLen entries stride with
    | none => .error (.tooLarge entries stride)
    | some needed =>
      if bytes.length < needed then .error (.tooShort needed bytes.length)
      else
        let table := bytes.takeFirst needed
        match h : (List.range (needed / stride)).find? fun index =>
            !regionFits (regionAt table (index * stride)) with
        | some index => .error (.addressOverflow index)
        | none => .ok
          { bytes := table
            entries := needed / stride
            stride := stride
            version := version
            stop_lt := fun r hr => by
              obtain ⟨index, hindex, rfl⟩ := List.mem_map.mp hr
              have := List.find?_eq_none.mp h index hindex
              simpa [regionFits_iff] using this }

/-- `iter`: all regions. -/
def regions (self : MemoryMap) : List Region := regionsOf self.bytes self.entries self.stride

/-- `ram_top`: the highest end of a RAM region. -/
def ramTop (self : MemoryMap) : Option ℕ :=
  self.regions.foldl (fun top region =>
    if !region.kind.isRam then top
    else match top with
      | some current => if region.stop ≤ current then some current else some region.stop
      | none => some region.stop) none

/-- The ends of the RAM regions of a list. -/
def ramStops (regions : List Region) : List ℕ :=
  (regions.filter fun region => region.kind.isRam).map Region.stop

/-- The loop of `ram_top` takes the maximum. -/
lemma ramTop_eq_max? (self : MemoryMap) : self.ramTop = (ramStops self.regions).max? := by
  have hloop : ∀ (l : List Region) (top : Option ℕ),
      l.foldl (fun top region =>
        if !region.kind.isRam then top
        else match top with
          | some current => if region.stop ≤ current then some current else some region.stop
          | none => some region.stop) top = (top.toList ++ ramStops l).max? := by
    intro l
    induction l with
    | nil => intro top; cases top <;> rfl
    | cons r l ih =>
      intro top
      rw [List.foldl_cons, ih]
      cases hram : r.kind.isRam with
      | false => simp [ramStops, hram]
      | true =>
        have hstops : ramStops (r :: l) = r.stop :: ramStops l := by simp [ramStops, hram]
        rw [hstops]
        cases top with
        | none => rfl
        | some current =>
          have hmax : (if r.stop ≤ current then some current else some r.stop) =
              some (max current r.stop) := by
            split_ifs with h
            · rw [max_eq_left h]
            · rw [max_eq_right (not_le.mp h).le]
          simp only [Bool.not_true, Bool.false_eq_true, if_false, hmax]
          rfl
  exact hloop self.regions none

lemma max?_ramStops_eq_some_iff {regions : List Region} {top : ℕ} :
    (ramStops regions).max? = some top ↔
      (∃ r ∈ regions, r.kind.isRam = true ∧ r.stop = top) ∧
        ∀ r ∈ regions, r.kind.isRam = true → r.stop ≤ top := by
  rw [List.max?_eq_some_iff]
  simp only [ramStops, List.mem_map, List.mem_filter, and_assoc]
  constructor
  · rintro ⟨hmem, hle⟩
    exact ⟨hmem, fun r hr hram => hle _ ⟨r, hr, hram, rfl⟩⟩
  · rintro ⟨hmem, hle⟩
    refine ⟨hmem, ?_⟩
    rintro _ ⟨r, hr, hram, rfl⟩
    exact hle r hr hram

/-- `ram_top` is the highest end of a RAM region. -/
lemma ramTop_eq_some_iff {self : MemoryMap} {top : ℕ} : self.ramTop = some top ↔
    (∃ r ∈ self.regions, r.kind.isRam = true ∧ r.stop = top) ∧
      ∀ r ∈ self.regions, r.kind.isRam = true → r.stop ≤ top := by
  rw [ramTop_eq_max?, max?_ramStops_eq_some_iff]

/-- `overlaps_ram` of the page table builder: some RAM region meets the range. -/
def overlapsRam (self : MemoryMap) (start stop : ℕ) : Bool :=
  self.regions.any fun region => region.kind.isRam && region.overlaps start stop

/-- A range holds a byte of RAM. -/
def HasRam (self : MemoryMap) (start stop : ℕ) : Prop :=
  ∃ r ∈ self.regions, r.kind.isRam = true ∧ ∃ p, r.Contains p ∧ start ≤ p ∧ p < stop

/-- A range with a byte of RAM passes the test in any case. -/
lemma overlapsRam_of_hasRam {self : MemoryMap} {start stop : ℕ} (h : self.HasRam start stop) :
    self.overlapsRam start stop = true := by
  obtain ⟨r, hr, hram, p, hp, h1, h2⟩ := h
  simp only [overlapsRam, List.any_eq_true, Bool.and_eq_true]
  exact ⟨r, hr, hram, Region.overlaps_of_contains hp h1 h2⟩

/-- What passes the test: ranges with a byte of RAM, and ranges around the base of an empty
region. -/
lemma overlapsRam_cases {self : MemoryMap} {start stop : ℕ} (h : start < stop) :
    self.overlapsRam start stop = true ↔ self.HasRam start stop ∨
      ∃ r ∈ self.regions, r.kind.isRam = true ∧ r.pages = 0 ∧ start < r.base ∧ r.base < stop := by
  constructor
  · intro hover
    simp only [overlapsRam, List.any_eq_true, Bool.and_eq_true] at hover
    obtain ⟨r, hr, hram, hover⟩ := hover
    rcases Nat.eq_zero_or_pos r.pages with hempty | hpages
    · simp only [Region.overlaps, Region.stop, hempty, Nat.zero_mul, Nat.add_zero,
        Bool.and_eq_true, decide_eq_true_eq] at hover
      exact .inr ⟨r, hr, hram, hempty, hover.2, hover.1⟩
    · exact .inl ⟨r, hr, hram, (Region.overlaps_iff hpages h).mp hover⟩
  · rintro (hram | ⟨r, hr, hram, hempty, hlow, hhigh⟩)
    · exact overlapsRam_of_hasRam hram
    · simp only [overlapsRam, List.any_eq_true, Bool.and_eq_true]
      refine ⟨r, hr, hram, ?_⟩
      simp only [Region.overlaps, Region.stop, hempty, Nat.zero_mul, Nat.add_zero,
        Bool.and_eq_true, decide_eq_true_eq]
      exact ⟨hhigh, hlow⟩

/-- The test for RAM is exact when no region is empty. -/
lemma overlapsRam_iff {self : MemoryMap} (hpages : ∀ r ∈ self.regions, 0 < r.pages) {start stop : ℕ}
    (h : start < stop) : self.overlapsRam start stop = true ↔ self.HasRam start stop := by
  rw [overlapsRam_cases h]
  refine or_iff_left ?_
  rintro ⟨r, hr, -, hempty, -⟩
  exact absurd hempty (hpages r hr).ne'

end MemoryMap

/-- The table of a small machine: a single descriptor of conventional memory, 1 MiB and 8 pages
long. -/
def smallTable : Slice UInt8 where
  toList := [7, 0, 0, 0, 0, 0, 0, 0] ++ List.replicate 8 0 ++ List.replicate 8 0 ++
    [8, 1, 0, 0, 0, 0, 0, 0] ++ List.replicate 8 0
  length_lt := by decide

/-- The memory map of this machine. -/
def smallMap : MemoryMap where
  bytes := smallTable
  entries := 1
  stride := 40
  version := 1
  stop_lt := by decide

lemma regions_smallMap : smallMap.regions = [⟨.conventional, 0, 0x108⟩] := by decide

example : (MemoryMap.fromBytes smallTable 1 40 1).toOption.map MemoryMap.regions =
    some smallMap.regions := by decide

end KernelMemory

end ParanukOS
