import ParanukOS.KernelMemory.Paging.Walk

/-!
# Pages that should not be mapped

`build` maps a page when `overlaps_ram` finds a RAM region that meets it.  The test compares the
base of the region with the end of the page and its end with the start of the page, and so it finds
a region of no pages, too, when its base lies inside of the page.  Firmware is not kept from
reporting such regions.  We say exactly when this makes `build` map a page without RAM.

The first page is never to be mapped.  The loop over the small pages leaves it out, but the loop
over the large pages has no exception for the large page that begins there.

## Outline

* `Considers`: the pages that `build` looks at.
* `Built.considers_of_walk`, `Built.walk_of_considers`: they are the pages that the walk can find.
* `ram_only_iff`: all pages that are mapped hold RAM, or not.
* `page_zero_unmapped_iff`: the first page is not mapped, or it is.
-/

namespace ParanukOS

open Foundation

namespace KernelMemory

/-- The size of a page that the walk ends at. -/
def Leaf.size : Leaf → ℕ
  | page => pageSize
  | block => blockSize
  | huge => pdCoverage

/-- The small and the large pages that `build` looks at, by their addresses.  Whether it maps them
depends on the RAM in them. -/
def Considers (config : PagingConfig) (limit : ℕ) : Leaf → ℕ → Prop
  | .page, start => ∃ n, start = n * pageSize ∧ n / 512 < config.ptCount ∧ n ≠ 0 ∧
      start < min config.fineGrainedBytes limit
  | .block, start => ∃ n, start = n * blockSize ∧ config.ptCount ≤ n ∧ n / 512 < config.pdCount ∧
      start < limit
  | .huge, _ => False

section Leaves

variable {map : MemoryMap} {config : PagingConfig} {arena arena' : TableArena}
  {tables : PageTables} {va start : ℕ} {t : Translation} {leaf : Leaf}

/-- There is a table of the third level. -/
lemma Built.pdCount_pos (h : Built arena map config tables arena') : 0 < config.pdCount := by
  obtain ⟨top, -, hlimit⟩ := h.limit_eq
  have hpos := h.limit_pos
  simp only [PagingConfig.pdCount, divCeil, pdCoverage]
  omega

/-- The small pages lie below the end of the third level. -/
lemma Built.ptCount_le_pd (h : Built arena map config tables arena') :
    config.ptCount ≤ config.pdCount * 512 := by
  have hpt := h.ptCount_le
  have hpd := h.pdCount_pos
  omega

/-- An address that is mapped lies in a page that `build` looks at, and this page has passed the
test for RAM. -/
lemma Built.considers_of_walk (h : Built arena map config tables arena') (hva : va < 2 ^ 48)
    (hwalk : walk arena' tables.pml4Phys va = .mapped t) :
    t.phys = va ∧ Considers config tables.limit t.leaf (pageStart t.leaf.size va) ∧
      map.overlapsRam (pageStart t.leaf.size va) (pageStart t.leaf.size va + t.leaf.size) =
        true := by
  rw [h.walk_eq hva] at hwalk
  split_ifs at hwalk with hlow
  rw [identityWalk] at hwalk
  split_ifs at hwalk with hsmall hpage hblock
  · obtain rfl := Walk.mapped.inj hwalk
    rw [pageMapped, Bool.and_eq_true, decide_eq_true_eq] at hpage
    obtain ⟨⟨hne, hlt⟩, hover⟩ := hpage
    refine ⟨rfl, ⟨va / pageSize, rfl, ?_, hne, hlt⟩, hover⟩
    simp only [pageSize]
    omega
  · obtain rfl := Walk.mapped.inj hwalk
    rw [blockMapped, Bool.and_eq_true, decide_eq_true_eq] at hblock
    obtain ⟨⟨hge, hlt⟩, hover⟩ := hblock
    refine ⟨rfl, ⟨va / blockSize, rfl, hge, ?_, hlt⟩, hover⟩
    simp only [blockSize]
    omega

/-- A page that `build` looks at and that passes the test for RAM is found by the walk. -/
lemma Built.walk_of_considers (h : Built arena map config tables arena')
    (hconsiders : Considers config tables.limit leaf start)
    (hover : map.overlapsRam start (start + leaf.size) = true) :
    start < 2 ^ 48 ∧ pageStart leaf.size start = start ∧
      walk arena' tables.pml4Phys start = identityAt start leaf := by
  have hpd := h.pdCount_le
  have hle := h.ptCount_le_pd
  cases leaf with
  | page =>
    obtain ⟨n, rfl, hn, hne, hlt⟩ := hconsiders
    have hdiv : n * pageSize / 2 ^ 12 = n := Nat.mul_div_cancel n (by decide)
    have hmapped : pageMapped map (min config.fineGrainedBytes tables.limit) n = true := by
      rw [pageMapped, Bool.and_eq_true, decide_eq_true_eq]
      exact ⟨⟨hne, hlt⟩, hover⟩
    have hva : n * pageSize < 2 ^ 48 := by
      simp only [pageSize]
      omega
    refine ⟨hva, congrArg (· * pageSize) (Nat.mul_div_cancel n (by decide)), ?_⟩
    rw [h.walk_eq hva, if_pos (by simp only [pageSize]; omega), identityWalk,
      if_pos (by simp only [pageSize]; omega), hdiv, if_pos hmapped]
  | block =>
    obtain ⟨n, rfl, hge, hn, hlt⟩ := hconsiders
    have hdiv : n * blockSize / 2 ^ 21 = n := Nat.mul_div_cancel n (by decide)
    have hmapped : blockMapped map config.ptCount tables.limit n = true := by
      rw [blockMapped, Bool.and_eq_true, decide_eq_true_eq]
      exact ⟨⟨hge, hlt⟩, hover⟩
    have hva : n * blockSize < 2 ^ 48 := by
      simp only [blockSize]
      omega
    refine ⟨hva, congrArg (· * blockSize) (Nat.mul_div_cancel n (by decide)), ?_⟩
    rw [h.walk_eq hva, if_pos (by simp only [blockSize]; omega), identityWalk, hdiv,
      if_neg (not_lt.mpr hge), if_pos hmapped]
  | huge => exact hconsiders.elim

end Leaves

/-- **Only RAM is mapped.**  Let `build` succeed, for any map and any configuration.  Every page
that the walk finds holds a byte of RAM if and only if every page below the end of RAM and below the
limit of the configuration that has the base of an empty RAM region in it, not at its start, holds a
byte of RAM besides. -/
theorem ram_only_iff (map : MemoryMap) (config : PagingConfig) (arena arena' : TableArena)
    (tables : PageTables) (hbuild : build arena map config = .ok (.ok (tables, arena'))) :
    (∀ va < 2 ^ 48, ∀ t, walk arena' tables.pml4Phys va = .mapped t →
      map.HasRam (pageStart t.leaf.size t.phys) (pageStart t.leaf.size t.phys + t.leaf.size)) ↔
    ∀ top ∈ map.ramTop, ∀ leaf start,
      Considers config (min top config.maxIdentityBytes) leaf start →
      ∀ r ∈ map.regions, r.kind.isRam = true → r.pages = 0 → start < r.base →
        r.base < start + leaf.size → map.HasRam start (start + leaf.size) := by
  have h := built_of_build hbuild
  obtain ⟨top, htop, hlimit⟩ := h.limit_eq
  simp only [htop, Option.mem_def, Option.some.injEq, forall_eq']
  rw [← hlimit]
  constructor
  · intro hall leaf start hconsiders r hr hram hempty hlow hhigh
    have hover := (MemoryMap.overlapsRam_cases (hlow.trans hhigh)).mpr
      (.inr ⟨r, hr, hram, hempty, hlow, hhigh⟩)
    obtain ⟨hva, hstart, hwalk⟩ := h.walk_of_considers hconsiders hover
    have hholds := hall start hva _ hwalk
    simp only at hholds
    rwa [hstart] at hholds
  · intro hempty va hva t hwalk
    obtain ⟨hphys, hconsiders, hover⟩ := h.considers_of_walk hva hwalk
    have hpos : 0 < t.leaf.size := by cases t.leaf <;> decide
    rw [hphys]
    rcases (MemoryMap.overlapsRam_cases (Nat.lt_add_of_pos_right hpos)).mp hover with
      hram | ⟨r, hr, hram, hpages, hlow, hhigh⟩
    · exact hram
    · exact hempty _ _ hconsiders r hr hram hpages hlow hhigh

/-- The small machine has no empty regions, and only RAM is mapped. -/
theorem ram_only_iff_smallMap : ∃ tables arena',
    build (clearedArena 7 (by decide)) smallMap .m2 = .ok (.ok (tables, arena')) ∧
      ∀ va < 2 ^ 48, ∀ t, walk arena' tables.pml4Phys va = .mapped t → smallMap.HasRam
        (pageStart t.leaf.size t.phys) (pageStart t.leaf.size t.phys + t.leaf.size) := by
  obtain ⟨tables, arena', hbuild, -⟩ := build_spec (buildable_clearedArena (by decide) le_rfl)
  refine ⟨tables, arena', hbuild, (ram_only_iff smallMap .m2 _ _ _ hbuild).mpr ?_⟩
  intro top _ leaf start _ r hr _ hempty
  rw [regions_smallMap, List.mem_singleton] at hr
  rw [hr] at hempty
  cases hempty

/-- A table with one descriptor: conventional memory of no pages, above 2 MiB. -/
def emptyTable : Slice UInt8 where
  toList := leBytes 8 7 ++ leBytes 8 0x201000 ++ leBytes 8 0 ++ leBytes 8 0 ++ leBytes 8 0
  length_lt := by decide

/-- The memory map of this table. -/
def emptyMap : MemoryMap where
  bytes := emptyTable
  entries := 1
  stride := 40
  version := 1
  stop_lt := by decide

lemma regions_emptyMap : emptyMap.regions = [⟨.conventional, 0x201000, 0⟩] := by decide

/-- The large page at 2 MiB is mapped, and there is no RAM at all. -/
theorem block_without_ram_mapped : MemoryMap.fromBytes emptyTable 1 40 1 = .ok emptyMap ∧
    ∃ tables arena', build (clearedArena 7 (by decide)) emptyMap .m2 = .ok (.ok (tables, arena')) ∧
      walk arena' tables.pml4Phys 0x200000 = identityAt 0x200000 .block ∧
      ∀ start stop, ¬ emptyMap.HasRam start stop := by
  have htop : emptyMap.ramTop = some 0x201000 := by
    rw [MemoryMap.ramTop, regions_emptyMap]
    decide
  obtain ⟨tables, arena', hbuild, hbuilt⟩ :=
    build_spec (buildable_of_ramTop (n := 7) (by decide) le_rfl htop (by decide))
  have hlimit : tables.limit = 0x201000 := by
    obtain ⟨top, htop', hlimit⟩ := hbuilt.limit_eq
    obtain rfl := Option.some.inj (htop.symm.trans htop')
    rw [hlimit]
    decide
  refine ⟨rfl, tables, arena', hbuild, ?_, ?_⟩
  · have hconsiders : Considers .m2 tables.limit .block 0x200000 := by
      rw [hlimit]
      exact ⟨1, by decide, by decide, by decide, by decide⟩
    refine (hbuilt.walk_of_considers hconsiders ?_).2.2
    rw [MemoryMap.overlapsRam, regions_emptyMap]
    decide
  · rintro start stop ⟨r, hr, -, p, hp, -⟩
    rw [regions_emptyMap, List.mem_singleton] at hr
    rw [hr] at hp
    exact absurd hp.2 (not_lt.mpr hp.1)

/-! ## The first page -/

/-- Some RAM region meets the first large page, in the sense of the test.  An empty region whose
base lies inside of it is enough. -/
def MemoryMap.MeetsFirstBlock (map : MemoryMap) : Prop :=
  ∃ r ∈ map.regions, r.kind.isRam = true ∧ r.base < blockSize ∧ 0 < r.stop

lemma MemoryMap.meetsFirstBlock_iff {map : MemoryMap} :
    map.MeetsFirstBlock ↔ map.overlapsRam 0 (0 + blockSize) = true := by
  simp only [MeetsFirstBlock, overlapsRam, List.any_eq_true, Bool.and_eq_true, Region.overlaps,
    decide_eq_true_eq, Nat.zero_add]

/-- There is a table of small pages unless the configuration asks for none. -/
lemma PagingConfig.ptCount_pos_iff {config : PagingConfig} :
    0 < config.ptCount ↔ 0 < config.fineGrainedBytes := by
  simp only [PagingConfig.ptCount, divCeil, blockSize]
  omega

/-- **The first page.**  Let `build` succeed, for any map and any configuration.  No address of the
first page is mapped if and only if the configuration asks for small pages or no RAM region meets
the first large page. -/
theorem page_zero_unmapped_iff (map : MemoryMap) (config : PagingConfig)
    (arena arena' : TableArena) (tables : PageTables)
    (hbuild : build arena map config = .ok (.ok (tables, arena'))) :
    (∀ va < pageSize, walk arena' tables.pml4Phys va = .notPresent) ↔
      (0 < config.fineGrainedBytes ∨ ¬ map.MeetsFirstBlock) := by
  have h := built_of_build hbuild
  have hpd := h.pdCount_pos
  constructor
  · intro hnull
    by_contra hcon
    push Not at hcon
    obtain ⟨hfine, hmeets⟩ := hcon
    have hpt : config.ptCount ≤ 0 := by
      have hiff : 0 < config.ptCount ↔ 0 < config.fineGrainedBytes := PagingConfig.ptCount_pos_iff
      omega
    have hconsiders : Considers config tables.limit .block 0 :=
      ⟨0, rfl, hpt, by omega, h.limit_pos⟩
    have hwalk := (h.walk_of_considers hconsiders (MemoryMap.meetsFirstBlock_iff.mp hmeets)).2.2
    rw [hnull 0 (by decide)] at hwalk
    cases hwalk
  · intro hsafe va hva
    have hpage : va / 2 ^ 12 = 0 := Nat.div_eq_of_lt hva
    have hblock : va / 2 ^ 21 = 0 := Nat.div_eq_of_lt (hva.trans (by decide))
    rw [h.walk_eq (hva.trans (by decide)), if_pos (by simp only [pageSize] at hva; omega),
      identityWalk, hpage, hblock]
    split_ifs with hpt hmapped hmapped
    · -- a small page: the loop leaves out the address 0
      rw [pageMapped, Bool.and_eq_true, decide_eq_true_eq] at hmapped
      exact absurd rfl hmapped.1.1
    · rfl
    · -- a large page: there are no small ones, so no RAM region meets it
      rw [PagingConfig.ptCount_pos_iff] at hpt
      rw [blockMapped, Nat.zero_mul, Bool.and_eq_true] at hmapped
      exact absurd (MemoryMap.meetsFirstBlock_iff.mpr hmapped.2) (hsafe.resolve_left hpt)
    · rfl

/-- The kernel asks for small pages, and its first page is not mapped. -/
theorem page_zero_unmapped_smallMap : ∃ tables arena',
    build (clearedArena 7 (by decide)) smallMap .m2 = .ok (.ok (tables, arena')) ∧
      ∀ va < pageSize, walk arena' tables.pml4Phys va = .notPresent := by
  obtain ⟨tables, arena', hbuild, -⟩ := build_spec (buildable_clearedArena (by decide) le_rfl)
  exact ⟨tables, arena', hbuild,
    (page_zero_unmapped_iff smallMap .m2 _ _ _ hbuild).mpr (.inl (by decide))⟩

/-- Without small pages the first large page of the small machine is mapped, and the address 0 is
in it. -/
theorem page_zero_mapped_by_block : MemoryMap.fromBytes smallTable 1 40 1 = .ok smallMap ∧
    ∃ tables arena', build (clearedArena 7 (by decide)) smallMap ⟨maxIdentityBytes, 0⟩ =
        .ok (.ok (tables, arena')) ∧
      walk arena' tables.pml4Phys 0 = identityAt 0 .block := by
  have hm2 := buildable_clearedArena (n := 7) (by decide) le_rfl
  obtain ⟨tables, arena', hbuild, hbuilt⟩ := build_spec
    (show Buildable (clearedArena 7 (by decide)) smallMap ⟨maxIdentityBytes, 0⟩ 0x108000 from
      { aligned := hm2.aligned
        maxIdentityBytes_le := hm2.maxIdentityBytes_le
        fineGrainedBytes_le := by decide
        needed_le := le_trans (by decide) hm2.needed_le
        ramTop_eq := hm2.ramTop_eq
        limit_ne := hm2.limit_ne })
  have hconsiders : Considers ⟨maxIdentityBytes, 0⟩ tables.limit .block 0 :=
    ⟨0, rfl, by decide, by decide, hbuilt.limit_pos⟩
  refine ⟨rfl, tables, arena', hbuild, (hbuilt.walk_of_considers hconsiders ?_).2.2⟩
  rw [MemoryMap.overlapsRam, regions_smallMap]
  decide

end KernelMemory

end ParanukOS
