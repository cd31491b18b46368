import ParanukOS.KernelMemory.Map

/-!
# Decoding the memory map

A `MemoryMap` has natural numbers and a proof about its regions.  Here are the functions of
`kernel-memory/src/map.rs` once more, as the machine runs them: `get` and the iterator compute
offsets in words, `end` may overflow, and a read outside of the table returns zero.  On a buffer
that starts with a list of descriptors they return exactly this list, whatever the distance of the
descriptors is and whatever stands in the other bytes.

## Outline

* `RawMap`, `RawMap.fromBytes`, `RawMap.get`, `Regions.next`, `RawMap.ramTop`: the functions.
* `RawMap.fromBytes_eq`: they never stop, and `fromBytes` is the one of `MemoryMap`.
* `Descriptor`, `Encodes`: buffers that start with a list of descriptors.
* `map_decoding_exact`: the main theorem.
-/

namespace ParanukOS

open Foundation

namespace KernelMemory

/-! ## The functions -/

/-- The fields of a descriptor.  The sums are those of `base_offset` and the `OFF_` constants. -/
def readRegion (bytes : Slice UInt8) (baseOffset : ℕ) : Checked Region := do
  let kind := MemoryKind.fromRaw (readWord bytes (← addWord baseOffset 0) 4)
  let base := readWord bytes (← addWord baseOffset 8) 8
  let pages := readWord bytes (← addWord baseOffset 24) 8
  return { kind, base, pages }

/-- `Region::end`. -/
def Region.endWord (self : Region) : Checked ℕ := do
  addWord self.base (← mulWord self.pages pageSize)

/-- The iterator over the descriptors. -/
structure Regions where
  /-- The bytes of the table. -/
  bytes : Slice UInt8
  /-- The number of descriptors. -/
  entries : ℕ
  /-- The distance between descriptors. -/
  stride : ℕ
  /-- The number of the next one. -/
  index : ℕ

/-- `next`. -/
def Regions.next (self : Regions) : Checked (Option Region × Regions) :=
  if self.entries ≤ self.index then return (none, self)
  else do
    let baseOffset ← mulWord self.index self.stride
    let index ← addWord self.index 1
    return (some (← readRegion self.bytes baseOffset), { self with index })

/-- The iterator returns these regions, and then nothing. -/
inductive Regions.Yields : Regions → List Region → Prop
  | done {it it' : Regions} : it.next = .ok (none, it') → Yields it []
  | item {it it' : Regions} {r : Region} {l : List Region} :
      it.next = .ok (some r, it') → Yields it' l → Yields it (r :: l)

/-- A memory map without a proof about its regions. -/
structure RawMap where
  /-- The bytes of the table. -/
  bytes : Slice UInt8
  /-- The number of descriptors. -/
  entries : ℕ
  /-- The distance between descriptors. -/
  stride : ℕ
  /-- The version of the descriptors. -/
  version : ℕ

/-- The map without its proof. -/
def MemoryMap.toRaw (self : MemoryMap) : RawMap where
  bytes := self.bytes
  entries := self.entries
  stride := self.stride
  version := self.version

namespace RawMap

/-- `len`. -/
def len (self : RawMap) : ℕ := self.entries

/-- `get`. -/
def get (self : RawMap) (index : ℕ) : Checked Region :=
  readRegion self.bytes (saturatingMul index self.stride)

/-- `iter`. -/
def iter (self : RawMap) : Regions :=
  { bytes := self.bytes, entries := self.entries, stride := self.stride, index := 0 }

/-- The loop of `from_bytes`, for `n` indices: the first one whose region does not fit. -/
def checkFrom (self : RawMap) : ℕ → ℕ → Checked (Option ℕ)
  | 0, _ => return none
  | n + 1, index => do
    if regionFits (← self.get index) then self.checkFrom n (index + 1)
    else return some index

/-- `from_bytes`. -/
def fromBytes (bytes : Slice UInt8) (entries stride version : ℕ) :
    Checked (Except MapError RawMap) := do
  if entries = 0 then return .error .empty
  if stride < descriptorMinSize then return .error (.strideTooSmall stride)
  let some needed := bufferLen entries stride | return .error (.tooLarge entries stride)
  if bytes.length < needed then return .error (.tooShort needed bytes.length)
  let map : RawMap :=
    { bytes := ← bytes.upTo needed, entries := needed / stride, stride, version }
  match ← map.checkFrom map.entries 0 with
  | some index => return .error (.addressOverflow index)
  | none => return .ok map

/-- The loop of `ram_top`.  Every round takes one of the descriptors left. -/
def ramTopFrom : ℕ → Regions → Option ℕ → Checked (Option ℕ)
  | 0, _, top => return top
  | n + 1, it, top => do
    match ← it.next with
    | (none, _) => return top
    | (some region, it) =>
      if !region.kind.isRam then ramTopFrom n it top
      else
        let stop ← region.endWord
        ramTopFrom n it (match top with
          | some current => if stop ≤ current then some current else some stop
          | none => some stop)

/-- `ram_top`. -/
def ramTop (self : RawMap) : Checked (Option ℕ) := ramTopFrom (self.entries + 1) self.iter none

end RawMap

/-! ## The functions return -/

lemma readRegion_of_le {bytes : Slice UInt8} {offset : ℕ} (h : offset + 32 ≤ bytes.length) :
    readRegion bytes offset = .ok (regionAt bytes offset) := by
  have hlength := bytes.length_lt'
  unfold readRegion
  rw [addWord_of_lt (by omega), addWord_of_lt (by omega), addWord_of_lt (by omega)]
  rfl

/-- The end of a region that fits is computed without overflow. -/
lemma Region.endWord_of_lt {r : Region} (h : r.stop < 2 ^ 64) : r.endWord = .ok r.stop := by
  have hlen : r.pages * pageSize < 2 ^ 64 := (Nat.le_add_left _ _).trans_lt h
  unfold endWord
  rw [mulWord_of_lt hlen, Checked.ok_bind]
  exact addWord_of_lt h

/-- The table has all its descriptors. -/
structure RawMap.Complete (map : RawMap) : Prop where
  stride_le : descriptorMinSize ≤ map.stride
  length_eq : map.bytes.length = map.entries * map.stride

namespace RawMap

variable {map : RawMap}

/-- A descriptor ends inside of the table. -/
lemma Complete.offset_le (h : map.Complete) {index : ℕ} (hindex : index < map.entries) :
    index * map.stride + descriptorMinSize ≤ map.bytes.length := by
  have hnext : (index + 1) * map.stride ≤ map.entries * map.stride :=
    Nat.mul_le_mul_right _ hindex
  have hstride := h.stride_le
  rw [Nat.succ_mul] at hnext
  rw [h.length_eq]
  omega

/-- All words of a descriptor are in the table. -/
lemma Complete.readRegion_eq (h : map.Complete) {index : ℕ} (hindex : index < map.entries) :
    readRegion map.bytes (index * map.stride) = .ok (regionAt map.bytes (index * map.stride)) := by
  have hoffset := h.offset_le hindex
  apply readRegion_of_le
  simp only [descriptorMinSize] at hoffset
  omega

lemma Complete.get_eq (h : map.Complete) {index : ℕ} (hindex : index < map.entries) :
    map.get index = .ok (regionAt map.bytes (index * map.stride)) := by
  have hoffset := h.offset_le hindex
  have hlength := map.bytes.length_lt'
  unfold get
  rw [saturatingMul, min_eq_left (by omega)]
  exact h.readRegion_eq hindex

/-- The iterator after `index` regions. -/
abbrev iterFrom (map : RawMap) (index : ℕ) : Regions :=
  ⟨map.bytes, map.entries, map.stride, index⟩

/-- One step of the iterator. -/
lemma Complete.next_eq (h : map.Complete) {index : ℕ} (hindex : index < map.entries) :
    (map.iterFrom index).next =
      .ok (some (regionAt map.bytes (index * map.stride)), map.iterFrom (index + 1)) := by
  have hoffset := h.offset_le hindex
  have hlength := map.bytes.length_lt'
  have hsucc : index + 1 < 2 ^ 64 := by
    have hle : index * 1 ≤ index * map.stride := by
      apply Nat.mul_le_mul_left
      exact le_trans (by decide) h.stride_le
    omega
  have hmul : index * map.stride < 2 ^ 64 := by omega
  unfold Regions.next
  rw [if_neg (not_le.mpr hindex), mulWord_of_lt hmul, Checked.ok_bind, addWord_of_lt hsucc,
    Checked.ok_bind, h.readRegion_eq hindex, Checked.ok_bind]
  rfl

/-- The iterator at its end. -/
lemma next_end (map : RawMap) :
    (map.iterFrom map.entries).next = .ok (none, map.iterFrom map.entries) := if_pos le_rfl

/-- The iterator returns the regions that are left. -/
lemma Complete.yields_from (h : map.Complete) (n : ℕ) : ∀ {index : ℕ}, index + n = map.entries →
    (map.iterFrom index).Yields
      ((List.range' index n).map fun i => regionAt map.bytes (i * map.stride)) := by
  induction n with
  | zero =>
    intro index hindex
    rw [Nat.add_zero] at hindex
    subst hindex
    exact .done (next_end map)
  | succ n ih =>
    intro index hindex
    rw [List.range'_succ, List.map_cons]
    exact .item (h.next_eq (by omega)) (ih (by omega))

lemma Complete.yields (h : map.Complete) :
    map.iter.Yields (regionsOf map.bytes map.entries map.stride) := by
  rw [regionsOf, List.range_eq_range']
  exact h.yields_from map.entries (Nat.zero_add _)

/-- The loop of `from_bytes` finds the first region that does not fit. -/
lemma Complete.checkFrom_eq (h : map.Complete) (n : ℕ) : ∀ {index : ℕ}, index + n = map.entries →
    map.checkFrom n index = .ok ((List.range' index n).find? fun i =>
      !regionFits (regionAt map.bytes (i * map.stride))) := by
  induction n with
  | zero => exact fun _ => rfl
  | succ n ih =>
    intro index hindex
    rw [checkFrom, h.get_eq (by omega), Checked.ok_bind, List.range'_succ, List.find?_cons]
    cases regionFits (regionAt map.bytes (index * map.stride)) with
    | true => exact ih (by omega)
    | false => rfl

/-- The loop of `ram_top` is the one over the list of regions. -/
lemma Complete.ramTopFrom_eq (h : map.Complete)
    (hstop : ∀ r ∈ regionsOf map.bytes map.entries map.stride, r.stop < 2 ^ 64) (n : ℕ) :
    ∀ {index : ℕ} {top : Option ℕ}, index + n = map.entries →
    ramTopFrom (n + 1) (map.iterFrom index) top =
      .ok (((List.range' index n).map fun i => regionAt map.bytes (i * map.stride)).foldl
        (fun top region =>
          if !region.kind.isRam then top
          else match top with
            | some current => if region.stop ≤ current then some current else some region.stop
            | none => some region.stop) top) := by
  induction n with
  | zero =>
    intro index top hindex
    rw [Nat.add_zero] at hindex
    subst hindex
    rw [ramTopFrom, next_end]
    rfl
  | succ n ih =>
    intro index top hindex
    have hmem : regionAt map.bytes (index * map.stride) ∈
        regionsOf map.bytes map.entries map.stride :=
      List.mem_map.mpr ⟨index, List.mem_range.mpr (by omega), rfl⟩
    rw [ramTopFrom, h.next_eq (by omega), Checked.ok_bind, List.range'_succ, List.map_cons,
      List.foldl_cons]
    simp only
    rw [Region.endWord_of_lt (hstop _ hmem), Checked.ok_bind, ih (by omega), ih (by omega)]
    cases (regionAt map.bytes (index * map.stride)).kind.isRam <;> rfl

/-- The map over the first bytes of a buffer. -/
def table (bytes : Slice UInt8) (entries stride version : ℕ) : RawMap where
  bytes := bytes.takeFirst (entries * stride)
  entries := entries
  stride := stride
  version := version

variable {bytes : Slice UInt8} {entries stride version : ℕ}

lemma complete_table (hstride : descriptorMinSize ≤ stride) (h : entries * stride ≤ bytes.length) :
    (table bytes entries stride version).Complete where
  stride_le := hstride
  length_eq := by rw [table, Slice.length_takeFirst, min_eq_left h]

/-- `from_bytes` on a buffer that is long enough. -/
lemma fromBytes_of_le (hentries : entries ≠ 0) (hstride : descriptorMinSize ≤ stride)
    (h : entries * stride ≤ bytes.length) :
    fromBytes bytes entries stride version =
      .ok (match (List.range entries).find? fun index =>
          !regionFits (regionAt (bytes.takeFirst (entries * stride)) (index * stride)) with
        | some index => .error (.addressOverflow index)
        | none => .ok (table bytes entries stride version)) := by
  have hlength := bytes.length_lt'
  have hbuffer : bufferLen entries stride = some (entries * stride) := by
    unfold bufferLen
    rw [if_neg (not_lt.mpr hstride), checkedMul, if_pos (by omega)]
  have hdiv : entries * stride / stride = entries := by
    apply Nat.mul_div_cancel
    exact lt_of_lt_of_le (by decide) hstride
  have hloop : (table bytes entries stride version).checkFrom entries 0 =
      .ok ((List.range entries).find? fun index =>
        !regionFits (regionAt (bytes.takeFirst (entries * stride)) (index * stride))) := by
    rw [List.range_eq_range']
    exact (complete_table hstride h).checkFrom_eq entries (Nat.zero_add entries)
  unfold fromBytes
  rw [if_neg hentries, if_neg (not_lt.mpr hstride), hbuffer]
  simp only
  rw [if_neg (not_lt.mpr h), Slice.upTo, if_pos h, Checked.ok_bind, hdiv]
  change (table bytes entries stride version).checkFrom entries 0 >>= _ = _
  rw [hloop, Checked.ok_bind]
  cases List.find? _ (List.range entries) <;> rfl

/-- `from_bytes` never stops, and it is the function of the model with proofs. -/
lemma fromBytes_eq (bytes : Slice UInt8) (entries stride version : ℕ) :
    fromBytes bytes entries stride version =
      .ok ((MemoryMap.fromBytes bytes entries stride version).map MemoryMap.toRaw) := by
  unfold MemoryMap.fromBytes
  by_cases hentries : entries = 0
  · rw [fromBytes, if_pos hentries, if_pos hentries]
    rfl
  by_cases hstride : stride < descriptorMinSize
  · rw [fromBytes, if_neg hentries, if_neg hentries, if_pos hstride, if_pos hstride]
    rfl
  rw [if_neg hentries, if_neg hstride]
  by_cases hproduct : entries * stride < 2 ^ 64
  · have hbuffer : bufferLen entries stride = some (entries * stride) := by
      rw [bufferLen, if_neg hstride, checkedMul, if_pos hproduct]
    simp only [hbuffer]
    by_cases hlength : bytes.length < entries * stride
    · rw [fromBytes, if_neg hentries, if_neg hstride, hbuffer, if_pos hlength]
      simp only [if_pos hlength]
      rfl
    · have hdiv : entries * stride / stride = entries := by
        apply Nat.mul_div_cancel
        exact lt_of_lt_of_le (by decide) (not_lt.mp hstride)
      have hraw : fromBytes bytes entries stride version = _ :=
        fromBytes_of_le hentries (not_lt.mp hstride) (not_lt.mp hlength)
      rw [if_neg hlength]
      split
      case h_1 index hfind =>
        rw [hdiv] at hfind
        rw [hraw, hfind]
        rfl
      case h_2 hfind =>
        have hnone := hfind
        rw [hdiv] at hnone
        rw [hraw, hnone]
        simp only [Except.map, MemoryMap.toRaw, hdiv]
        rfl
  · have hbuffer : bufferLen entries stride = none := by
      rw [bufferLen, if_neg hstride, checkedMul, if_neg hproduct]
    rw [fromBytes, if_neg hentries, if_neg hstride, hbuffer]
    rfl

/-- `ram_top` is the highest end of a RAM region. -/
lemma Complete.ramTop_eq (h : map.Complete)
    (hstop : ∀ r ∈ regionsOf map.bytes map.entries map.stride, r.stop < 2 ^ 64) :
    map.ramTop = .ok (MemoryMap.ramStops (regionsOf map.bytes map.entries map.stride)).max? := by
  have hmax := MemoryMap.ramTop_eq_max? ⟨map.bytes, map.entries, map.stride, map.version, hstop⟩
  unfold MemoryMap.ramTop MemoryMap.regions at hmax
  unfold ramTop
  rw [← hmax, regionsOf, List.range_eq_range']
  exact h.ramTopFrom_eq hstop map.entries (Nat.zero_add _)

end RawMap

/-! ## Buffers with a list of descriptors -/

/-- The words of a descriptor that are read. -/
structure Descriptor where
  /-- The type. -/
  kind : UInt32
  /-- The physical start. -/
  base : UInt64
  /-- The number of pages. -/
  pages : UInt64

/-- The region of a descriptor. -/
def Descriptor.region (d : Descriptor) : Region where
  kind := MemoryKind.fromRaw d.kind.toNat
  base := d.base.toNat
  pages := d.pages.toNat

/-- The descriptor stands at `offset`.  The other bytes are arbitrary. -/
structure Descriptor.StandsAt (d : Descriptor) (bytes : Slice UInt8) (offset : ℕ) : Prop where
  kind_eq : bytes.range? offset 4 = some (leBytes 4 d.kind.toNat)
  base_eq : bytes.range? (offset + 8) 8 = some (leBytes 8 d.base.toNat)
  pages_eq : bytes.range? (offset + 24) 8 = some (leBytes 8 d.pages.toNat)

/-- The buffer starts with the descriptors of a list, `stride` bytes apart.  The bytes between
them and those behind the last one are arbitrary. -/
structure Encodes (bytes : Slice UInt8) (stride : ℕ) (l : List Descriptor) : Prop where
  length_le : l.length * stride ≤ bytes.length
  standsAt : ∀ i (hi : i < l.length), l[i].StandsAt bytes (i * stride)

/-- The descriptor at `offset`, if the buffer has all its words. -/
def region? (bytes : Slice UInt8) (offset : ℕ) : Option Region := do
  let kind ← bytes.leWord? offset 4
  let base ← bytes.leWord? (offset + 8) 8
  let pages ← bytes.leWord? (offset + 24) 8
  return { kind := MemoryKind.fromRaw kind, base, pages }

/-- No word is replaced by zero when the buffer is long enough. -/
lemma region?_of_le {bytes : Slice UInt8} {offset : ℕ} (h : offset + 32 ≤ bytes.length) :
    region? bytes offset = some (regionAt bytes offset) := by
  obtain ⟨kind, hkind⟩ := Slice.leWord?_isSome (show offset + 4 ≤ bytes.length by omega)
  obtain ⟨base, hbase⟩ := Slice.leWord?_isSome (show offset + 8 + 8 ≤ bytes.length by omega)
  obtain ⟨pages, hpages⟩ := Slice.leWord?_isSome (show offset + 24 + 8 ≤ bytes.length by omega)
  simp [region?, regionAt, readWord, hkind, hbase, hpages]

lemma Descriptor.StandsAt.regionAt_eq {d : Descriptor} {bytes : Slice UInt8} {offset : ℕ}
    (h : d.StandsAt bytes offset) : regionAt bytes offset = d.region := by
  have hkind : readWord bytes (offset + 0) 4 = d.kind.toNat := by
    rw [readWord, Nat.add_zero, Slice.leWord?, h.kind_eq]
    exact leVal_leBytes_of_lt d.kind.toNat_lt
  have hbase : readWord bytes (offset + 8) 8 = d.base.toNat := by
    rw [readWord, Slice.leWord?, h.base_eq]
    exact leVal_leBytes_of_lt d.base.toNat_lt
  have hpages : readWord bytes (offset + 24) 8 = d.pages.toNat := by
    rw [readWord, Slice.leWord?, h.pages_eq]
    exact leVal_leBytes_of_lt d.pages.toNat_lt
  rw [regionAt, hkind, hbase, hpages]
  rfl

/-- The descriptor still stands in the first bytes when it lies inside of them. -/
lemma Descriptor.StandsAt.takeFirst {d : Descriptor} {bytes : Slice UInt8} {offset n : ℕ}
    (h : d.StandsAt bytes offset) (hn : n ≤ bytes.length) (hoffset : offset + 32 ≤ n) :
    d.StandsAt (bytes.takeFirst n) offset where
  kind_eq := by rw [Slice.range?_takeFirst hn (by omega), h.kind_eq]
  base_eq := by rw [Slice.range?_takeFirst hn (by omega), h.base_eq]
  pages_eq := by rw [Slice.range?_takeFirst hn (by omega), h.pages_eq]

namespace Encodes

variable {bytes : Slice UInt8} {stride version : ℕ} {l : List Descriptor}

/-- The table of the buffer has the descriptors of the list. -/
lemma regionAt_eq (h : Encodes bytes stride l) (hstride : descriptorMinSize ≤ stride) {i : ℕ}
    (hi : i < l.length) :
    regionAt (bytes.takeFirst (l.length * stride)) (i * stride) = l[i].region := by
  have htable : (RawMap.table bytes l.length stride 0).Complete :=
    RawMap.complete_table hstride h.length_le
  have hoffset := htable.offset_le hi
  simp only [RawMap.table, Slice.length_takeFirst, min_eq_left h.length_le, descriptorMinSize]
    at hoffset
  exact ((h.standsAt i hi).takeFirst h.length_le (by omega)).regionAt_eq

lemma regionsOf_eq (h : Encodes bytes stride l) (hstride : descriptorMinSize ≤ stride) :
    regionsOf (bytes.takeFirst (l.length * stride)) l.length stride =
      l.map Descriptor.region := by
  refine List.ext_getElem (by simp [regionsOf]) fun i hi _ => ?_
  simp only [regionsOf, List.length_map, List.length_range] at hi
  simp only [regionsOf, List.getElem_map, List.getElem_range]
  exact h.regionAt_eq hstride hi

/-- The first descriptor whose region does not fit. -/
lemma find?_eq_some_iff (h : Encodes bytes stride l) (hstride : descriptorMinSize ≤ stride)
    {i : ℕ} (hi : i < l.length) :
    ((List.range l.length).find? fun index =>
      !regionFits (regionAt (bytes.takeFirst (l.length * stride)) (index * stride))) = some i ↔
      2 ^ 64 ≤ l[i].region.stop ∧ ∀ j (hj : j < i), l[j].region.stop < 2 ^ 64 := by
  rw [List.find?_range_eq_some, h.regionAt_eq hstride hi, Bool.not_eq_true', ← Bool.not_eq_true,
    regionFits_iff, not_lt, List.mem_range]
  constructor
  · rintro ⟨hstop, -, hbefore⟩
    refine ⟨hstop, fun j hj => ?_⟩
    have hfits := hbefore j hj
    rwa [h.regionAt_eq hstride (by omega), Bool.not_not, regionFits_iff] at hfits
  · rintro ⟨hstop, hbefore⟩
    refine ⟨hstop, hi, fun j hj => ?_⟩
    rw [h.regionAt_eq hstride (by omega), Bool.not_not, regionFits_iff]
    exact hbefore j hj

lemma find?_eq_none_iff (h : Encodes bytes stride l) (hstride : descriptorMinSize ≤ stride) :
    ((List.range l.length).find? fun index =>
      !regionFits (regionAt (bytes.takeFirst (l.length * stride)) (index * stride))) = none ↔
      ∀ d ∈ l, d.region.stop < 2 ^ 64 := by
  rw [List.find?_eq_none]
  constructor
  · intro hfits d hd
    obtain ⟨i, hi, rfl⟩ := List.getElem_of_mem hd
    have hfit := hfits i (List.mem_range.mpr hi)
    rwa [h.regionAt_eq hstride hi, Bool.not_eq_true', Bool.not_eq_false, regionFits_iff] at hfit
  · intro hstop i hi
    have hi' := List.mem_range.mp hi
    rw [h.regionAt_eq hstride hi', Bool.not_eq_true', Bool.not_eq_false, regionFits_iff]
    exact hstop _ (List.getElem_mem hi')

/-- `from_bytes` on the encoding of a list. -/
lemma fromBytes_eq_ok_iff (h : Encodes bytes stride l) (hstride : descriptorMinSize ≤ stride)
    {map : RawMap} :
    RawMap.fromBytes bytes l.length stride version = .ok (.ok map) ↔
      (l ≠ [] ∧ l.length * stride < 2 ^ 64 ∧ ∀ d ∈ l, d.region.stop < 2 ^ 64) ∧
        map = RawMap.table bytes l.length stride version := by
  have hlength := bytes.length_lt'
  have hle := h.length_le
  by_cases hl : l = []
  · subst hl
    simp [RawMap.fromBytes, pure, Except.pure]
  · rw [RawMap.fromBytes_of_le (mt List.length_eq_zero_iff.mp hl) hstride hle,
      ← h.find?_eq_none_iff hstride]
    have hproduct : l.length * stride < 2 ^ 64 := by omega
    cases List.find? _ (List.range l.length) with
    | none =>
      constructor
      · intro heq
        refine ⟨⟨hl, hproduct, rfl⟩, ?_⟩
        simpa [eq_comm] using heq
      · rintro ⟨-, rfl⟩
        rfl
    | some i => simp

/-- What `from_bytes` reports for the encoding of a list. -/
lemma fromBytes_eq_addressOverflow (h : Encodes bytes stride l)
    (hstride : descriptorMinSize ≤ stride) {i : ℕ} (hi : i < l.length)
    (hstop : 2 ^ 64 ≤ l[i].region.stop) (hbefore : ∀ j (hj : j < i), l[j].region.stop < 2 ^ 64) :
    RawMap.fromBytes bytes l.length stride version = .ok (.error (.addressOverflow i)) := by
  have hl : l.length ≠ 0 := by omega
  rw [RawMap.fromBytes_of_le hl hstride h.length_le,
    (h.find?_eq_some_iff hstride hi).mpr ⟨hstop, hbefore⟩]

end Encodes

/-- The functions of a map return a list of descriptors, and no end of a region overflows. -/
structure RawMap.Shows (map : RawMap) (l : List Descriptor) : Prop where
  len_eq : map.len = l.length
  yields : map.iter.Yields (l.map Descriptor.region)
  get_eq : ∀ i (hi : i < l.length), map.get i = .ok l[i].region
  endWord_eq : ∀ d ∈ l, d.region.endWord = .ok d.region.stop
  ramTop_eq : ∃ top, map.ramTop = .ok top ∧
    (top = none ↔ ∀ d ∈ l, d.region.kind.isRam = false) ∧
    ∀ stop, top = some stop ↔ (∃ d ∈ l, d.region.kind.isRam = true ∧ d.region.stop = stop) ∧
      ∀ d ∈ l, d.region.kind.isRam = true → d.region.stop ≤ stop

/-- The table of a list whose regions fit shows the list. -/
lemma Encodes.shows {bytes : Slice UInt8} {stride version : ℕ} {l : List Descriptor}
    (h : Encodes bytes stride l) (hstride : descriptorMinSize ≤ stride)
    (hstop : ∀ d ∈ l, d.region.stop < 2 ^ 64) :
    (RawMap.table bytes l.length stride version).Shows l := by
  have htable : (RawMap.table bytes l.length stride version).Complete :=
    RawMap.complete_table hstride h.length_le
  have hregions : regionsOf (RawMap.table bytes l.length stride version).bytes
      (RawMap.table bytes l.length stride version).entries
      (RawMap.table bytes l.length stride version).stride = l.map Descriptor.region :=
    h.regionsOf_eq hstride
  have hstops : ∀ r ∈ l.map Descriptor.region, r.stop < 2 ^ 64 := by
    intro r hr
    obtain ⟨d, hd, rfl⟩ := List.mem_map.mp hr
    exact hstop d hd
  refine ⟨rfl, ?_, ?_, ?_, (MemoryMap.ramStops (l.map Descriptor.region)).max?, ?_, ?_, ?_⟩
  · have hyields := htable.yields
    rwa [hregions] at hyields
  · intro i hi
    rw [htable.get_eq hi]
    exact congrArg _ (h.regionAt_eq hstride hi)
  · exact fun d hd => Region.endWord_of_lt (hstop d hd)
  · have htop := htable.ramTop_eq (by rwa [hregions])
    rwa [hregions] at htop
  · rw [List.max?_eq_none_iff]
    simp [MemoryMap.ramStops]
  · intro stop
    rw [MemoryMap.max?_ramStops_eq_some_iff, List.forall_mem_map]
    simp only [List.mem_map, exists_exists_and_eq_and]

/-- `from_bytes` depends only on the bytes of the table, and only on the length of a buffer that
is too short. -/
lemma RawMap.fromBytes_congr {bytes bytes' : Slice UInt8} {entries stride version : ℕ}
    (h : entries * stride ≤ bytes.length ∧ entries * stride ≤ bytes'.length ∧
        bytes'.takeFirst (entries * stride) = bytes.takeFirst (entries * stride) ∨
      bytes.length < entries * stride ∧ bytes'.length = bytes.length) :
    fromBytes bytes' entries stride version = fromBytes bytes entries stride version := by
  by_cases hentries : entries = 0
  · rw [fromBytes, fromBytes, if_pos hentries, if_pos hentries]
  by_cases hstride : stride < descriptorMinSize
  · rw [fromBytes, fromBytes, if_neg hentries, if_neg hentries, if_pos hstride, if_pos hstride]
  rcases h with ⟨hle, hle', htable⟩ | ⟨hlt, hlength⟩
  · rw [fromBytes_of_le hentries (not_lt.mp hstride) hle',
      fromBytes_of_le hentries (not_lt.mp hstride) hle, table, table, htable]
  · rw [fromBytes, fromBytes, if_neg hentries, if_neg hentries, if_neg hstride, if_neg hstride]
    unfold bufferLen checkedMul
    rw [if_neg hstride]
    split_ifs
    · simp only [hlength, if_pos hlt]
    · rfl

/-- A table that does not fit into the address space is refused. -/
lemma RawMap.fromBytes_eq_tooLarge {bytes : Slice UInt8} {entries stride version : ℕ}
    (hstride : descriptorMinSize ≤ stride) (h : 2 ^ 64 ≤ entries * stride) :
    fromBytes bytes entries stride version = .ok (.error (.tooLarge entries stride)) := by
  have hentries : entries ≠ 0 := by
    rintro rfl
    rw [Nat.zero_mul] at h
    exact absurd h (by decide)
  have hbuffer : bufferLen entries stride = none := by
    rw [bufferLen, if_neg (not_lt.mpr hstride), checkedMul, if_neg (not_lt.mpr h)]
  rw [fromBytes, if_neg hentries, if_neg (not_lt.mpr hstride), hbuffer]
  rfl

/-- Two descriptors, 48 bytes apart, with other bytes between and behind them. -/
def paddedTable : Slice UInt8 where
  toList := leBytes 4 7 ++ List.replicate 4 0xAA ++ leBytes 8 0x1000 ++ List.replicate 8 0xAA ++
    leBytes 8 2 ++ List.replicate 16 0xAA ++ leBytes 4 0 ++ List.replicate 4 0xAA ++
    leBytes 8 0x9000 ++ List.replicate 8 0xAA ++ leBytes 8 1 ++ List.replicate 17 0xAA
  length_lt := by decide

lemma encodes_paddedTable : Encodes paddedTable 48 [⟨7, 0x1000, 2⟩, ⟨0, 0x9000, 1⟩] where
  length_le := by decide
  standsAt := fun i hi => by
    have hcases : i = 0 ∨ i = 1 := by
      simp only [List.length_cons, List.length_nil] at hi
      omega
    rcases hcases with rfl | rfl
    · exact ⟨rfl, rfl, rfl⟩
    · exact ⟨rfl, rfl, rfl⟩

/-- Decoding is exact for every stride.  On any buffer `from_bytes` returns, and all it reads are
the descriptors of the table.  On a buffer that starts with the descriptors of a list it accepts
exactly when the list is not empty, the table fits into the address space and all regions end
inside of it, and it reports the first region that does not; the functions of an accepted map
return the list. -/
theorem map_decoding_exact (bytes : Slice UInt8) (entries : UInt64) (stride version : UInt32) :
    (∃ result, RawMap.fromBytes bytes entries.toNat stride.toNat version.toNat = .ok result ∧
      ∀ bytes' : Slice UInt8,
        (entries.toNat * stride.toNat ≤ bytes.length ∧
            entries.toNat * stride.toNat ≤ bytes'.length ∧
            bytes'.takeFirst (entries.toNat * stride.toNat) =
              bytes.takeFirst (entries.toNat * stride.toNat) ∨
          bytes.length < entries.toNat * stride.toNat ∧ bytes'.length = bytes.length) →
        RawMap.fromBytes bytes' entries.toNat stride.toNat version.toNat = .ok result) ∧
    (descriptorMinSize ≤ stride.toNat → entries.toNat * stride.toNat ≤ bytes.length →
      ∀ i < entries.toNat, ∃ r,
        region? (bytes.takeFirst (entries.toNat * stride.toNat)) (i * stride.toNat) = some r ∧
        (RawMap.table bytes entries.toNat stride.toNat version.toNat).get i = .ok r) ∧
    (descriptorMinSize ≤ stride.toNat → 2 ^ 64 ≤ entries.toNat * stride.toNat →
      RawMap.fromBytes bytes entries.toNat stride.toNat version.toNat =
        .ok (.error (.tooLarge entries.toNat stride.toNat))) ∧
    ∀ l : List Descriptor, l.length = entries.toNat → descriptorMinSize ≤ stride.toNat →
      Encodes bytes stride.toNat l →
      ((∃ map, RawMap.fromBytes bytes entries.toNat stride.toNat version.toNat = .ok (.ok map)) ↔
        l ≠ [] ∧ l.length * stride.toNat < 2 ^ 64 ∧ ∀ d ∈ l, d.region.stop < 2 ^ 64) ∧
      (l = [] → RawMap.fromBytes bytes entries.toNat stride.toNat version.toNat =
        .ok (.error .empty)) ∧
      (∀ i (hi : i < l.length), 2 ^ 64 ≤ l[i].region.stop →
        (∀ j (hj : j < i), l[j].region.stop < 2 ^ 64) →
        RawMap.fromBytes bytes entries.toNat stride.toNat version.toNat =
          .ok (.error (.addressOverflow i))) ∧
      ∀ map, RawMap.fromBytes bytes entries.toNat stride.toNat version.toNat = .ok (.ok map) →
        map.Shows l := by
  refine ⟨⟨_, RawMap.fromBytes_eq _ _ _ _, fun bytes' h => ?_⟩, ?_, RawMap.fromBytes_eq_tooLarge,
    ?_⟩
  · rw [RawMap.fromBytes_congr h, RawMap.fromBytes_eq]
  · intro hstride hle i hi
    have htable : (RawMap.table bytes entries.toNat stride.toNat version.toNat).Complete :=
      RawMap.complete_table hstride hle
    have hoffset := htable.offset_le hi
    refine ⟨_, region?_of_le ?_, htable.get_eq hi⟩
    exact le_trans (by simp only [RawMap.table, descriptorMinSize]; omega) hoffset
  · intro l hlength hstride h
    rw [← hlength]
    refine ⟨?_, ?_, fun i hi hstop hbefore => ?_, fun map hmap => ?_⟩
    · constructor
      · rintro ⟨map, hmap⟩
        exact ((h.fromBytes_eq_ok_iff hstride).mp hmap).1
      · exact fun haccepted => ⟨_, (h.fromBytes_eq_ok_iff hstride).mpr ⟨haccepted, rfl⟩⟩
    · rintro rfl
      rfl
    · exact h.fromBytes_eq_addressOverflow hstride hi hstop hbefore
    · obtain ⟨⟨-, -, hstop⟩, rfl⟩ := (h.fromBytes_eq_ok_iff hstride).mp hmap
      exact h.shows hstride hstop

/-- The map of the two descriptors. -/
theorem map_decoding_paddedTable : ∃ map, RawMap.fromBytes paddedTable 2 48 1 = .ok (.ok map) ∧
    map.Shows [⟨7, 0x1000, 2⟩, ⟨0, 0x9000, 1⟩] := by
  have hexact := (map_decoding_exact paddedTable 2 48 1).2.2.2 _ rfl (by decide)
    encodes_paddedTable
  obtain ⟨map, hmap⟩ := hexact.1.mpr ⟨by decide, by decide, by decide⟩
  exact ⟨map, hmap, hexact.2.2.2 map hmap⟩

end KernelMemory

end ParanukOS
