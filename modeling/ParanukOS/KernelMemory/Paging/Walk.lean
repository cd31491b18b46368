import ParanukOS.KernelMemory.Paging.Build

/-!
# The meaning of the identity map

The walk of the processor through the tables that `build` leaves.  `Built.walk_eq` gives its result
for every 48-bit address, in terms of the pages that are mapped; the main theorem
`identity_map_exact` says the same in terms of the memory map, together with what `build` reports.
-/

namespace ParanukOS

open Foundation

namespace KernelMemory

/-! ## Entries -/

section Entries

variable {a f i : ℕ}

/-- The address of an entry. -/
lemma entryAddress_packed (ha : a % 4096 = 0) (hlt : a < 2 ^ 52) (hf : f < 4096) :
    entryAddress (a ||| f) = a :=
  packed_and_mask (show 12 ≤ 52 by norm_num) ha hlt hf

/-- The flags of an entry. -/
lemma testBit_entry (ha : a % 4096 = 0) (hi : i < 12) : (a ||| f).testBit i = f.testBit i :=
  testBit_packed (show a % 2 ^ 12 = 0 from ha) hi

/-- Walking through a table of the arena. -/
lemma walkLevel_eq {arena : TableArena} {page index : ℕ} (next : ℕ → Walk)
    (h : 8 * (page * 512 + index) + 8 ≤ arena.bytes.length) :
    walkLevel arena (Build.takePage arena.address page) index next =
      if (arena.bytes.word (page * 512 + index)).testBit 0 then
        next (arena.bytes.word (page * 512 + index)) else .notPresent := by
  have hoff : Build.takePage arena.address page - arena.address + 8 * index =
      8 * (page * 512 + index) := by
    simp only [Build.takePage, pageSize]
    omega
  have hle : arena.address ≤ Build.takePage arena.address page := Nat.le_add_right _ _
  rw [walkLevel, TableArena.entry?, if_pos hle, hoff, Slice.leWord?_eq_word h]

/-- An entry that is zero ends the walk. -/
lemma walkLevel_of_zero {arena : TableArena} {table page index k : ℕ} (next : ℕ → Walk)
    (htable : table = Build.takePage arena.address page) (hk : page * 512 + index = k)
    (h : 8 * k + 8 ≤ arena.bytes.length) (hword : arena.bytes.word k = 0) :
    walkLevel arena table index next = .notPresent := by
  subst hk htable
  rw [walkLevel_eq next h, hword]
  rfl

/-- An entry in use leads on. -/
lemma walkLevel_of_packed {arena : TableArena} {table page index k : ℕ} (next : ℕ → Walk)
    (htable : table = Build.takePage arena.address page) (hk : page * 512 + index = k)
    (h : 8 * k + 8 ≤ arena.bytes.length) (hword : arena.bytes.word k = a ||| f)
    (ha : a % 4096 = 0) (hf : f.testBit 0 = true) :
    walkLevel arena table index next = next (a ||| f) := by
  subst hk htable
  rw [walkLevel_eq next h, hword, testBit_entry ha (by norm_num), hf]
  rfl

/-- The first table is at the start of the arena. -/
lemma takePage_zero (base : ℕ) : base = Build.takePage base 0 := by simp [Build.takePage]

/-- The tables of an aligned arena are aligned. -/
lemma takePage_mod {base : ℕ} (hbase : base % pageSize = 0) (n : ℕ) :
    Build.takePage base n % 4096 = 0 := by
  simp only [Build.takePage, pageSize] at hbase ⊢
  omega

end Entries

/-! ## The words of the identity map -/

section Words

variable {old : ℕ → ℕ} {map : MemoryMap} {base pdCount ptCount limit fineLimit : ℕ}

lemma identityWords_pml4 (hpd : pdCount ≤ 512) {i : ℕ} (hi : i < 512) :
    identityWords old map base pdCount ptCount limit fineLimit i =
      if i = 0 then pml4Word base else 0 := by
  rw [identityWords, overlay_of_notMem (by omega), overlay_of_notMem (by omega), upperWords,
    overlay_of_notMem (by omega)]
  split_ifs with h
  · rw [overlay, if_pos (by omega)]
  · rw [overlay_of_notMem (by omega), overlay, if_pos (by omega)]

lemma identityWords_pdpt (hpd : pdCount ≤ 512) {i : ℕ} (hi : i < 512) :
    identityWords old map base pdCount ptCount limit fineLimit (512 + i) =
      if i < pdCount then pdptWord base i else 0 := by
  rw [identityWords, overlay_of_notMem (by omega), overlay_of_notMem (by omega), upperWords]
  split_ifs with h
  · exact overlay_of_mem h
  · rw [overlay_of_notMem (by omega), overlay_of_notMem (by omega), overlay, if_pos (by omega)]

lemma identityWords_pd {n : ℕ} (hn : n < pdCount * 512) :
    identityWords old map base pdCount ptCount limit fineLimit (1024 + n) =
      pdWord map base pdCount ptCount limit n := by
  rw [identityWords, overlay_of_notMem (by omega)]
  exact overlay_of_mem hn

lemma identityWords_pt {n : ℕ} (hn : n < ptCount * 512) :
    identityWords old map base pdCount ptCount limit fineLimit ((2 + pdCount) * 512 + n) =
      ptWord map fineLimit n := overlay_of_mem hn

end Words

/-! ## The walk -/

section Identity

variable {arena arena' : TableArena} {map : MemoryMap} {config : PagingConfig} {tables : PageTables}

/-- The result of a walk through the identity map: the address itself, by a page of the given
size. -/
def identityAt (va : ℕ) (leaf : Leaf) : Walk :=
  .mapped { phys := va, writable := true, user := false, leaf := leaf }

/-- The result of the walk for an address below the end of the third level: the small page or the
large page it lies in decides. -/
def identityWalk (map : MemoryMap) (config : PagingConfig) (limit va : ℕ) : Walk :=
  if va / 2 ^ 21 < config.ptCount then
    if pageMapped map (min config.fineGrainedBytes limit) (va / 2 ^ 12) then identityAt va .page
    else .notPresent
  else if blockMapped map config.ptCount limit (va / 2 ^ 21) then identityAt va .block
  else .notPresent

/-- Tables that hold the identity map.  The entry of the first level may have further flags, and
nothing is said about the entries that the identity map does not use. -/
structure IdentityTables (arena : TableArena) (map : MemoryMap) (config : PagingConfig)
    (limit : ℕ) : Prop where
  aligned : arena.address % pageSize = 0
  tableBytes_le : config.tableBytes ≤ arena.bytes.length
  pdCount_le : config.pdCount ≤ 512
  ptCount_le : config.ptCount ≤ 512
  pml4 : ∃ f < 4096, f.testBit 0 = true ∧ f.testBit 1 = true ∧
    arena.bytes.word 0 = Build.takePage arena.address 1 ||| f
  pdpt : ∀ i < config.pdCount, arena.bytes.word (512 + i) = pdptWord arena.address i
  pd : ∀ n < config.pdCount * 512, arena.bytes.word (1024 + n) =
    pdWord map arena.address config.pdCount config.ptCount limit n
  pt : ∀ n < config.ptCount * 512, arena.bytes.word ((2 + config.pdCount) * 512 + n) =
    ptWord map (min config.fineGrainedBytes limit) n

namespace IdentityTables

variable {limit va : ℕ}

/-- A table of the arena has a physical address. -/
lemma takePage_lt (h : IdentityTables arena map config limit) {n : ℕ}
    (hn : n < 2 + config.pdCount + config.ptCount) : Build.takePage arena.address n < 2 ^ 52 :=
  KernelMemory.takePage_lt h.tableBytes_le hn

/-- The last level: the small page `va / 2 ^ 12`. -/
lemma walk_pt (h : IdentityTables arena map config limit)
    (hn : va / 2 ^ 21 < config.ptCount) (next : ℕ → Walk) :
    walkLevel arena (Build.takePage arena.address (2 + config.pdCount + va / 2 ^ 21))
        (va / 2 ^ 12 % 512) next =
      if pageMapped map (min config.fineGrainedBytes limit) (va / 2 ^ 12) then
        next (va / 2 ^ 12 * pageSize ||| (present ||| writable)) else .notPresent := by
  have hlen := h.tableBytes_le
  simp only [PagingConfig.tableBytes, pageSize] at hlen
  have hpos : (2 + config.pdCount + va / 2 ^ 21) * 512 + va / 2 ^ 12 % 512 =
      (2 + config.pdCount) * 512 + va / 2 ^ 12 := by omega
  have hword := h.pt (va / 2 ^ 12) (by omega)
  rw [ptWord] at hword
  split_ifs with hmapped
  · rw [if_pos hmapped, Nat.or_assoc] at hword
    exact walkLevel_of_packed next rfl hpos (by omega) hword
      (by simp only [pageSize]; exact Nat.mul_mod_left _ _) (by decide)
  · rw [if_neg hmapped] at hword
    exact walkLevel_of_zero next rfl hpos (by omega) hword

/-- The third level: the large page `va / 2 ^ 21`, or the table of its small pages. -/
lemma walk_pd (h : IdentityTables arena map config limit) (hva : va < config.pdCount * 2 ^ 30)
    (next : ℕ → Walk) :
    walkLevel arena (Build.takePage arena.address (2 + va / 2 ^ 30)) (va / 2 ^ 21 % 512) next =
      if va / 2 ^ 21 < config.ptCount then
        next (Build.takePage arena.address (2 + config.pdCount + va / 2 ^ 21) |||
          (present ||| writable))
      else if blockMapped map config.ptCount limit (va / 2 ^ 21) then
        next (va / 2 ^ 21 * blockSize ||| (present ||| (writable ||| block)))
      else .notPresent := by
  have hlen := h.tableBytes_le
  simp only [PagingConfig.tableBytes, pageSize] at hlen
  have hpos : (2 + va / 2 ^ 30) * 512 + va / 2 ^ 21 % 512 = 1024 + va / 2 ^ 21 := by omega
  have hword := h.pd (va / 2 ^ 21) (by omega)
  rw [pdWord] at hword
  split_ifs at hword ⊢ with hsmall hblock
  · rw [Nat.or_assoc] at hword
    exact walkLevel_of_packed next rfl hpos (by omega) hword (takePage_mod h.aligned _) (by decide)
  · rw [Nat.or_assoc, Nat.or_assoc] at hword
    exact walkLevel_of_packed next rfl hpos (by omega) hword
      (by simp only [blockSize]; omega) (by decide)
  · exact walkLevel_of_zero next rfl hpos (by omega) hword

/-- The second level. -/
lemma walk_pdpt (h : IdentityTables arena map config limit) (hva : va < config.pdCount * 2 ^ 30)
    (next : ℕ → Walk) :
    walkLevel arena (Build.takePage arena.address 1) (va / 2 ^ 30 % 512) next =
      next (Build.takePage arena.address (2 + va / 2 ^ 30) ||| (present ||| writable)) := by
  have hlen := h.tableBytes_le
  have hpd := h.pdCount_le
  simp only [PagingConfig.tableBytes, pageSize] at hlen
  have hword := h.pdpt (va / 2 ^ 30) (by omega)
  rw [pdptWord, Nat.or_assoc] at hword
  exact walkLevel_of_packed next rfl (by omega) (by omega) hword (takePage_mod h.aligned _)
    (by decide)

/-- The walk through the identity map. -/
lemma walk_eq (h : IdentityTables arena map config limit) (hva : va < config.pdCount * 2 ^ 30) :
    walk arena arena.address va = identityWalk map config limit va := by
  have hlen := h.tableBytes_le
  have hpd := h.pdCount_le
  have hpt := h.ptCount_le
  simp only [PagingConfig.tableBytes, pageSize] at hlen
  have htable : ∀ n < 2 + config.pdCount + config.ptCount, ∀ f < 4096,
      entryAddress (Build.takePage arena.address n ||| f) = Build.takePage arena.address n :=
    fun n hn f hf => entryAddress_packed (takePage_mod h.aligned n) (h.takePage_lt hn) hf
  have hbit : ∀ n f i, i < 12 → (Build.takePage arena.address n ||| f).testBit i = f.testBit i :=
    fun n f i hi => testBit_entry (takePage_mod h.aligned n) hi
  obtain ⟨f, hf, hf0, hf1, hpml4⟩ := h.pml4
  have h4 : ∀ next, walkLevel arena arena.address (va / 2 ^ 39 % 512) next =
      next (Build.takePage arena.address 1 ||| f) := by
    intro next
    have hpos : 0 * 512 + va / 2 ^ 39 % 512 = 0 := by omega
    exact walkLevel_of_packed next (takePage_zero _) hpos (by omega) hpml4
      (takePage_mod h.aligned 1) hf0
  rw [walk, h4, htable 1 (by omega) f hf, h.walk_pdpt hva, hbit _ _ 7 (by norm_num),
    if_neg (by decide), htable _ (by omega) _ (by decide), h.walk_pd hva, identityWalk]
  by_cases hsmall : va / 2 ^ 21 < config.ptCount
  · rw [if_pos hsmall, if_pos hsmall, hbit _ _ 7 (by norm_num), if_neg (by decide),
      htable _ (by omega) _ (by decide), h.walk_pt hsmall]
    by_cases hmapped : pageMapped map (min config.fineGrainedBytes limit) (va / 2 ^ 12) = true
    · have hmod : va / 2 ^ 12 * pageSize % 4096 = 0 := Nat.mul_mod_left _ _
      have hlt : va / 2 ^ 12 * pageSize < 2 ^ 52 := by simp only [pageSize]; omega
      rw [if_pos hmapped, if_pos hmapped, entryAddress_packed hmod hlt (by decide),
        hbit _ _ 1 (by norm_num), hbit _ _ 1 (by norm_num), hbit _ _ 1 (by norm_num),
        hbit _ _ 2 (by norm_num), hbit _ _ 2 (by norm_num), hbit _ _ 2 (by norm_num),
        testBit_entry hmod (by norm_num), testBit_entry hmod (by norm_num), hf1, identityAt,
        show va / 2 ^ 12 * pageSize + va % 2 ^ 12 = va from Nat.div_add_mod' va (2 ^ 12),
        show (present ||| writable).testBit 1 = true by decide,
        show (present ||| writable).testBit 2 = false by decide]
      simp
    · rw [if_neg hmapped, if_neg hmapped]
  · rw [if_neg hsmall, if_neg hsmall]
    by_cases hmapped : blockMapped map config.ptCount limit (va / 2 ^ 21) = true
    · have hmod : va / 2 ^ 21 * blockSize % 4096 = 0 := by simp only [blockSize]; omega
      have hlt : va / 2 ^ 21 * blockSize < 2 ^ 52 := by simp only [blockSize]; omega
      have hphys : va / 2 ^ 21 * blockSize / 2 ^ 21 * 2 ^ 21 + va % 2 ^ 21 = va := by
        simp only [blockSize]
        omega
      rw [if_pos hmapped, if_pos hmapped, testBit_entry hmod (by norm_num), if_pos (by decide),
        entryAddress_packed hmod hlt (by decide), hphys,
        hbit _ _ 1 (by norm_num), hbit _ _ 1 (by norm_num), hbit _ _ 2 (by norm_num),
        hbit _ _ 2 (by norm_num), testBit_entry hmod (by norm_num),
        testBit_entry hmod (by norm_num), hf1, identityAt,
        show (present ||| writable).testBit 1 = true by decide,
        show (present ||| writable).testBit 2 = false by decide,
        show (present ||| (writable ||| block)).testBit 1 = true by decide]
      simp
    · rw [if_neg hmapped, if_neg hmapped]

end IdentityTables

/-- `build` leaves an identity map. -/
lemma Built.identityTables (h : Built arena map config tables arena') :
    IdentityTables arena' map config tables.limit := by
  have hstage := h.stage
  have haddr := hstage.address_eq
  refine ⟨?_, ?_, h.pdCount_le, h.ptCount_le,
    ⟨present ||| writable, by decide, by decide, by decide,
    ?_⟩, fun i hi => ?_, fun n hn => ?_, fun n hn => ?_⟩
  · rw [haddr]
    exact h.aligned
  · rw [hstage.length_eq]
    exact h.tableBytes_le
  · rw [hstage.word_eq, identityWords_pml4 h.pdCount_le (by norm_num), if_pos rfl, haddr, pml4Word,
      Nat.or_assoc]
  · have := h.pdCount_le
    rw [hstage.word_eq, identityWords_pdpt h.pdCount_le (by omega), if_pos hi, haddr]
  · rw [hstage.word_eq, identityWords_pd hn, haddr]
  · rw [hstage.word_eq, identityWords_pt hn]

/-- The walk for every 48-bit address. -/
lemma Built.walk_eq (h : Built arena map config tables arena') {va : ℕ} (hva : va < 2 ^ 48) :
    walk arena' tables.pml4Phys va =
      if va < config.pdCount * 2 ^ 30 then identityWalk map config tables.limit va
      else .notPresent := by
  have hstage := h.stage
  have hlen := h.tableBytes_le
  have hpd := h.pdCount_le
  simp only [PagingConfig.tableBytes, pageSize] at hlen
  rw [h.pml4Phys_eq, ← hstage.address_eq]
  split_ifs with hlow
  · exact h.identityTables.walk_eq hlow
  · -- beyond the tables, an entry of the first or of the second level is zero
    by_cases hpml4 : va < 2 ^ 39
    · have hpos : 0 * 512 + va / 2 ^ 39 % 512 = 0 := by omega
      have hpos' : 1 * 512 + va / 2 ^ 30 % 512 = 512 + va / 2 ^ 30 := by omega
      have hword : arena'.bytes.word 0 = Build.takePage arena'.address 1 |||
        (present ||| writable) := by
        rw [hstage.word_eq, identityWords_pml4 hpd (by norm_num), if_pos rfl, hstage.address_eq,
          pml4Word, Nat.or_assoc]
      have hword' : arena'.bytes.word (512 + va / 2 ^ 30) = 0 := by
        rw [hstage.word_eq, identityWords_pdpt hpd (by omega), if_neg (by omega)]
      have hmod := takePage_mod h.identityTables.aligned 1
      have hlt := h.identityTables.takePage_lt (n := 1) (by omega)
      have h4 : ∀ next, walkLevel arena' arena'.address (va / 2 ^ 39 % 512) next =
          next (Build.takePage arena'.address 1 ||| (present ||| writable)) := by
        intro next
        exact walkLevel_of_packed next (takePage_zero _) hpos (by rw [hstage.length_eq]; omega)
          hword hmod (by decide)
      rw [walk, h4, entryAddress_packed hmod hlt (by decide)]
      exact walkLevel_of_zero _ rfl hpos' (by rw [hstage.length_eq]; omega) hword'
    · have hpos : 0 * 512 + va / 2 ^ 39 % 512 = va / 2 ^ 39 := by omega
      have hword : arena'.bytes.word (va / 2 ^ 39) = 0 := by
        rw [hstage.word_eq, identityWords_pml4 hpd (by omega), if_neg (by omega)]
      exact walkLevel_of_zero _ (takePage_zero _) hpos (by rw [hstage.length_eq]; omega) hword

/-! ## The identity map and the memory map -/

/-- The page of the given size around an address. -/
def pageStart (size va : ℕ) : ℕ := va / size * size

/-- The addresses that the identity map is meant to map: those whose page, small or large, starts
below the limit and holds a byte of RAM, except for the first page. -/
def IdentityMapped (map : MemoryMap) (config : PagingConfig) (limit va : ℕ) : Prop :=
  (va < config.fineGrainedBytes ∧ pageStart pageSize va ≠ 0 ∧ pageStart pageSize va < limit ∧
    map.HasRam (pageStart pageSize va) (pageStart pageSize va + pageSize)) ∨
  (config.fineGrainedBytes ≤ va ∧ va < config.pdCount * pdCoverage ∧
    pageStart blockSize va < limit ∧
    map.HasRam (pageStart blockSize va) (pageStart blockSize va + blockSize))

/-- The walk ends at a page of the given size. -/
def Walk.isLeaf (leaf : Leaf) : Walk → Bool
  | .mapped t => t.leaf == leaf
  | _ => false

/-- A multiple of the size of a large page is the end of a whole number of tables. -/
lemma ptCount_mul (hfine : config.fineGrainedBytes % blockSize = 0) :
    config.ptCount * blockSize = config.fineGrainedBytes := by
  simp only [PagingConfig.ptCount, divCeil, blockSize] at hfine ⊢
  omega

/-- The small pages that are mapped, by their addresses. -/
lemma pageMapped_iff {limit va : ℕ} (hpages : ∀ r ∈ map.regions, 0 < r.pages)
    (hva : va < config.fineGrainedBytes) :
    pageMapped map (min config.fineGrainedBytes limit) (va / 2 ^ 12) = true ↔
      pageStart pageSize va ≠ 0 ∧ pageStart pageSize va < limit ∧
        map.HasRam (pageStart pageSize va) (pageStart pageSize va + pageSize) := by
  have hstart : va / 2 ^ 12 * pageSize = pageStart pageSize va := rfl
  have hle : pageStart pageSize va ≤ va := Nat.div_mul_le_self _ _
  have hzero : va / 2 ^ 12 ≠ 0 ↔ pageStart pageSize va ≠ 0 := by
    rw [← hstart]
    simp only [pageSize]
    omega
  rw [pageMapped, hstart, Bool.and_eq_true, decide_eq_true_eq,
    MemoryMap.overlapsRam_iff hpages (by simp only [pageSize]; omega), hzero, lt_min_iff]
  constructor
  · rintro ⟨⟨h1, -, h2⟩, h3⟩
    exact ⟨h1, h2, h3⟩
  · rintro ⟨h1, h2, h3⟩
    exact ⟨⟨h1, by omega, h2⟩, h3⟩

/-- The large pages that are mapped, by their addresses. -/
lemma blockMapped_iff {limit va : ℕ} (hpages : ∀ r ∈ map.regions, 0 < r.pages)
    (hva : config.ptCount ≤ va / 2 ^ 21) :
    blockMapped map config.ptCount limit (va / 2 ^ 21) = true ↔
      pageStart blockSize va < limit ∧
        map.HasRam (pageStart blockSize va) (pageStart blockSize va + blockSize) := by
  have hstart : va / 2 ^ 21 * blockSize = pageStart blockSize va := rfl
  rw [blockMapped, hstart, Bool.and_eq_true, decide_eq_true_eq,
    MemoryMap.overlapsRam_iff hpages (by simp only [blockSize]; omega)]
  constructor
  · rintro ⟨⟨-, h1⟩, h2⟩
    exact ⟨h1, h2⟩
  · rintro ⟨h1, h2⟩
    exact ⟨⟨hva, h1⟩, h2⟩

/-- The third level covers the small pages and everything up to the limit. -/
lemma Built.covers (h : Built arena map config tables arena')
    (hfine : config.fineGrainedBytes % blockSize = 0) :
    config.ptCount * 2 ^ 21 = config.fineGrainedBytes ∧
      config.fineGrainedBytes ≤ config.pdCount * 2 ^ 30 ∧
      tables.limit ≤ config.pdCount * 2 ^ 30 := by
  obtain ⟨top, -, hlimit⟩ := h.limit_eq
  have hpos := h.limit_pos
  have hpt := h.ptCount_le
  have hmul : config.ptCount * 2 ^ 21 = config.fineGrainedBytes := ptCount_mul hfine
  have hpd : config.maxIdentityBytes ≤ config.pdCount * 2 ^ 30 := by
    simp only [PagingConfig.pdCount, divCeil, pdCoverage]
    omega
  refine ⟨hmul, ?_, ?_⟩ <;> omega

/-- The walk in terms of the memory map. -/
lemma Built.walk_mapped (h : Built arena map config tables arena')
    (hpages : ∀ r ∈ map.regions, 0 < r.pages) (hfine : config.fineGrainedBytes % blockSize = 0)
    {va : ℕ} (hva : va < 2 ^ 48) :
    (IdentityMapped map config tables.limit va → walk arena' tables.pml4Phys va =
      identityAt va (if va < config.fineGrainedBytes then .page else .block)) ∧
    (¬ IdentityMapped map config tables.limit va →
      walk arena' tables.pml4Phys va = .notPresent) := by
  obtain ⟨hpt, hpd, -⟩ := h.covers hfine
  rw [h.walk_eq hva, identityWalk]
  by_cases hsmall : va < config.fineGrainedBytes
  · have hiff : IdentityMapped map config tables.limit va ↔
        pageMapped map (min config.fineGrainedBytes tables.limit) (va / 2 ^ 12) = true := by
      rw [pageMapped_iff hpages hsmall, IdentityMapped]
      constructor
      · rintro (⟨-, hpage⟩ | ⟨hge, -⟩)
        · exact hpage
        · exact absurd hsmall (not_lt.mpr hge)
      · exact fun hpage => .inl ⟨hsmall, hpage⟩
    rw [if_pos (show va < config.pdCount * 2 ^ 30 by omega),
      if_pos (show va / 2 ^ 21 < config.ptCount by omega), if_pos hsmall]
    exact ⟨fun hm => if_pos (hiff.mp hm), fun hm => if_neg (mt hiff.mpr hm)⟩
  · by_cases hlow : va < config.pdCount * 2 ^ 30
    · have hge : config.ptCount ≤ va / 2 ^ 21 := by omega
      have hiff : IdentityMapped map config tables.limit va ↔
          blockMapped map config.ptCount tables.limit (va / 2 ^ 21) = true := by
        rw [blockMapped_iff hpages hge, IdentityMapped]
        constructor
        · rintro (⟨hlt, -⟩ | ⟨-, -, hblock⟩)
          · exact absurd hlt hsmall
          · exact hblock
        · exact fun hblock => .inr ⟨not_lt.mp hsmall, hlow, hblock⟩
      rw [if_pos hlow, if_neg (not_lt.mpr hge), if_neg hsmall]
      exact ⟨fun hm => if_pos (hiff.mp hm), fun hm => if_neg (mt hiff.mpr hm)⟩
    · rw [if_neg hlow]
      refine ⟨?_, fun _ => rfl⟩
      rintro (⟨hlt, -⟩ | ⟨-, hlt, -⟩)
      · exact absurd hlt hsmall
      · exact absurd hlt hlow

/-- A small page with a byte of RAM in it is mapped up to the limit, except for the first page. -/
lemma Built.walk_of_ram (h : Built arena map config tables arena')
    (hfine : config.fineGrainedBytes % blockSize = 0) {va ram : ℕ} (hram : map.HasRam ram (ram + 1))
    (hsame : ram / pageSize = va / pageSize) (hpage : pageSize ≤ va) (hlimit : va < tables.limit) :
    ∃ leaf, walk arena' tables.pml4Phys va = identityAt va leaf := by
  obtain ⟨hpt, hpd, hcover⟩ := h.covers hfine
  have hpdCount := h.pdCount_le
  have hover : ∀ start stop, start ≤ ram → ram < stop → map.overlapsRam start stop = true := by
    intro start stop hstart hstop
    obtain ⟨r, hr, hisRam, p, hp, h1, h2⟩ := hram
    exact MemoryMap.overlapsRam_of_hasRam ⟨r, hr, hisRam, p, hp, by omega, by omega⟩
  rw [h.walk_eq (by omega), if_pos (by omega), identityWalk]
  simp only [pageSize] at hpage hsame
  split_ifs with hsmall hmapped hmapped
  · exact ⟨.page, rfl⟩
  · refine absurd ?_ hmapped
    rw [pageMapped, Bool.and_eq_true, decide_eq_true_eq]
    simp only [pageSize]
    exact ⟨by omega, hover _ _ (by omega) (by omega)⟩
  · exact ⟨.block, rfl⟩
  · refine absurd ?_ hmapped
    rw [blockMapped, Bool.and_eq_true, decide_eq_true_eq]
    simp only [blockSize]
    exact ⟨by omega, hover _ _ (by omega) (by omega)⟩

/-- Counting further does not help when nothing is found there. -/
lemma count_eq_of_iff {p q : ℕ → Prop} [DecidablePred p] [DecidablePred q] {n m : ℕ} (hle : n ≤ m)
    (hiff : ∀ k < n, p k ↔ q k) (hnone : ∀ k, n ≤ k → k < m → ¬ q k) :
    Nat.count p n = Nat.count q m := by
  rw [Nat.count_eq_card_filter_range, Nat.count_eq_card_filter_range]
  congr 1
  ext k
  simp only [Finset.mem_filter, Finset.mem_range]
  constructor
  · rintro ⟨hk, hp⟩
    exact ⟨by omega, (hiff k hk).mp hp⟩
  · rintro ⟨hk, hq⟩
    have hkn : k < n := by
      by_contra hcon
      exact hnone k (not_lt.mp hcon) hk hq
    exact ⟨hkn, (hiff k hkn).mpr hq⟩

/-- The large pages counted are those that the walk finds in the whole address space. -/
lemma Built.blocks_eq_count (h : Built arena map config tables arena') :
    tables.blocks = Nat.count (fun b =>
      (walk arena' tables.pml4Phys (b * blockSize)).isLeaf .block = true) (2 ^ 27) := by
  have hpd := h.pdCount_le
  rw [h.blocks_eq]
  refine count_eq_of_iff (by omega) (fun b hb => ?_) fun b hb hlt => ?_
  · have hdiv : b * blockSize / 2 ^ 21 = b := Nat.mul_div_cancel b (by decide)
    rw [h.walk_eq (by simp only [blockSize]; omega), if_pos (by simp only [blockSize]; omega),
      identityWalk, hdiv]
    by_cases hsmall : b < config.ptCount
    · have hnot : blockMapped map config.ptCount tables.limit b = false := by
        rw [blockMapped, decide_eq_false (by omega), Bool.false_and]
      rw [if_pos hsmall, hnot]
      split_ifs <;> simp [Walk.isLeaf, identityAt]
    · rw [if_neg hsmall]
      split_ifs with hmapped <;> simp [Walk.isLeaf, identityAt, hmapped]
  · rw [h.walk_eq (by simp only [blockSize]; omega), if_neg (by simp only [blockSize]; omega)]
    simp [Walk.isLeaf]

/-- The same for the small pages. -/
lemma Built.pages_eq_count (h : Built arena map config tables arena')
    (hfine : config.fineGrainedBytes % blockSize = 0) :
    tables.pages = Nat.count (fun n =>
      (walk arena' tables.pml4Phys (n * pageSize)).isLeaf .page = true) (2 ^ 36) := by
  have hpd := h.pdCount_le
  have hpt := h.ptCount_le
  obtain ⟨hmul, hle, -⟩ := h.covers hfine
  rw [h.pages_eq]
  refine count_eq_of_iff (by omega) (fun n hn => ?_) fun n hn hlt => ?_
  · have hdiv : n * pageSize / 2 ^ 12 = n := Nat.mul_div_cancel n (by decide)
    rw [h.walk_eq (by simp only [pageSize]; omega), if_pos (by simp only [pageSize]; omega),
      identityWalk, hdiv, if_pos (by simp only [pageSize]; omega)]
    split_ifs with hmapped <;> simp [Walk.isLeaf, identityAt, hmapped]
  · rw [h.walk_eq (by simp only [pageSize]; omega), identityWalk]
    split_ifs with _ hsmall <;> simp [Walk.isLeaf, identityAt]
    simp only [pageSize] at hsmall
    omega

/-- **The identity map is exact.**  Let no region of the map be empty, and let the part with small
pages be a positive multiple of a large page.  When `build` succeeds, the walk maps an address below
the end of the third level exactly when its page starts below the limit and holds RAM; it maps it to
itself, for the kernel only.  The counts of `build` are those of the pages the walk finds, and the
arena behind the tables is unchanged. -/
theorem identity_map_exact (map : MemoryMap) (hpages : ∀ r ∈ map.regions, 0 < r.pages)
    (config : PagingConfig) (hblock : config.fineGrainedBytes % blockSize = 0)
    (arena arena' : TableArena) (tables : PageTables)
    (hbuild : build arena map config = .ok (.ok (tables, arena'))) :
    (∃ top, (∃ r ∈ map.regions, r.kind.isRam = true ∧ r.stop = top) ∧
      (∀ r ∈ map.regions, r.kind.isRam = true → r.stop ≤ top) ∧
      tables.limit = min top config.maxIdentityBytes) ∧
    (∀ va < 2 ^ 48,
      ((∃ t, walk arena' tables.pml4Phys va = .mapped t) ↔
        IdentityMapped map config tables.limit va) ∧
      (walk arena' tables.pml4Phys va ≠ .outside) ∧
      ∀ t, walk arena' tables.pml4Phys va = .mapped t →
        t.phys = va ∧ t.writable = true ∧ t.user = false) ∧
    (∀ va, map.HasRam va (va + 1) → pageSize ≤ va → va < tables.limit →
      ∃ t, walk arena' tables.pml4Phys va = .mapped t) ∧
    tables.blocks = Nat.count (fun b =>
      (walk arena' tables.pml4Phys (b * blockSize)).isLeaf .block = true) (2 ^ 27) ∧
    tables.pages = Nat.count (fun n =>
      (walk arena' tables.pml4Phys (n * pageSize)).isLeaf .page = true) (2 ^ 36) ∧
    tables.mappedBytes = tables.blocks * blockSize + tables.pages * pageSize ∧
    tables.tablesUsed = tablesNeeded config.maxIdentityBytes config.fineGrainedBytes ∧
    arena'.address = arena.address ∧ arena'.bytes.length = arena.bytes.length ∧
    ∀ i, tables.tablesUsed * pageSize ≤ i → arena'.bytes.get? i = arena.bytes.get? i := by
  have h := built_of_build hbuild
  obtain ⟨top', hbuildable⟩ := buildable_of_build hbuild
  obtain ⟨top, htop, hlimit⟩ := h.limit_eq
  obtain ⟨hexists, hle⟩ := MemoryMap.ramTop_eq_some_iff.mp htop
  refine ⟨⟨top, hexists, hle, hlimit⟩, fun va hva => ?_, fun va hram hpage hva => ?_,
    h.blocks_eq_count, h.pages_eq_count hblock, h.mappedBytes_eq,
    h.tablesUsed_eq.trans hbuildable.tablesNeeded_eq.symm, h.stage.address_eq, h.stage.length_eq,
    fun i hi => ?_⟩
  · obtain ⟨hyes, hno⟩ := h.walk_mapped hpages hblock hva
    by_cases hmapped : IdentityMapped map config tables.limit va
    · rw [hyes hmapped, identityAt]
      refine ⟨⟨fun _ => hmapped, fun _ => ⟨_, rfl⟩⟩, Walk.noConfusion, ?_⟩
      rintro t ⟨⟩
      exact ⟨rfl, rfl, rfl⟩
    · rw [hno hmapped]
      exact ⟨⟨fun ⟨_, hcon⟩ => Walk.noConfusion hcon, fun hcon => absurd hcon hmapped⟩,
        Walk.noConfusion, fun _ hcon => Walk.noConfusion hcon⟩
  · obtain ⟨leaf, hwalk⟩ := h.walk_of_ram hblock hram rfl hpage hva
    exact ⟨_, hwalk⟩
  · refine h.stage.get?_eq i ?_
    rwa [h.tablesUsed_eq] at hi

lemma length_cleared_lt (n : ℕ) (h : n ≤ 512) :
    (List.replicate (n * pageSize) (0 : UInt8)).length < 2 ^ 63 := by
  rw [List.length_replicate]
  simp only [pageSize]
  omega

lemma stop_cleared_le (n : ℕ) (h : n ≤ 512) :
    0x100000 + (List.replicate (n * pageSize) (0 : UInt8)).length ≤ 2 ^ 52 := by
  rw [List.length_replicate]
  simp only [pageSize]
  omega

/-- An arena of `n` cleared pages at 1 MiB. -/
def clearedArena (n : ℕ) (h : n ≤ 512) : TableArena where
  bytes := ⟨List.replicate (n * pageSize) 0, length_cleared_lt n h⟩
  address := 0x100000
  stop_le := stop_cleared_le n h

lemma length_clearedArena (n : ℕ) (h : n ≤ 512) :
    (clearedArena n h).bytes.length = n * pageSize := List.length_replicate

/-- The tables of the kernel fit into seven pages. -/
lemma buildable_of_ramTop {n : ℕ} (h : n ≤ 512) (hn : 7 ≤ n) {map : MemoryMap} {top : ℕ}
    (htop : map.ramTop = some top) (hpos : 0 < top) :
    Buildable (clearedArena n h) map .m2 top where
  aligned := show 0x100000 % pageSize = 0 by decide
  maxIdentityBytes_le := by decide
  fineGrainedBytes_le := by decide
  needed_le := by
    rw [length_clearedArena]
    exact Nat.mul_le_mul_right _ (le_trans (by decide) hn)
  ramTop_eq := htop
  limit_ne := (lt_min hpos (by decide)).ne'

lemma buildable_clearedArena {n : ℕ} (h : n ≤ 512) (hn : 7 ≤ n) :
    Buildable (clearedArena n h) smallMap .m2 0x108000 := by
  refine buildable_of_ramTop h hn ?_ (by decide)
  rw [MemoryMap.ramTop, regions_smallMap]
  decide

/-- On the small machine, the second page is mapped. -/
theorem identity_map_exact_smallMap : ∃ tables arena',
    build (clearedArena 7 (by decide)) smallMap .m2 = .ok (.ok (tables, arena')) ∧
      ∃ t, walk arena' tables.pml4Phys 0x1000 = .mapped t ∧ t.phys = 0x1000 := by
  obtain ⟨tables, arena', hbuild, -⟩ := build_spec (buildable_clearedArena (by decide) le_rfl)
  obtain ⟨⟨top, ⟨r, hr, -, htop⟩, -, hlimit⟩, hwalk, hram, -⟩ :=
    identity_map_exact smallMap (by rw [regions_smallMap]; decide) .m2 (by decide) _ _ _ hbuild
  rw [regions_smallMap, List.mem_singleton] at hr
  subst hr
  have hcontains : smallMap.HasRam 0x1000 (0x1000 + 1) :=
    ⟨⟨.conventional, 0, 0x108⟩, by rw [regions_smallMap]; decide, by decide, 0x1000,
      by unfold Region.Contains; decide, by decide, by decide⟩
  obtain ⟨t, ht⟩ := hram 0x1000 hcontains (by decide) (by rw [hlimit, ← htop]; decide)
  exact ⟨tables, arena', hbuild, t, ht, ((hwalk 0x1000 (by decide)).2.2 t ht).1⟩

end Identity

end KernelMemory

end ParanukOS
