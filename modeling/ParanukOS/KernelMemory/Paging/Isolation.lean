import ParanukOS.KernelMemory.Paging.UserMap

/-!
# Isolation of user space

The walk through the tables of the kernel after user space has been added.  Below 4 GiB nothing
changes and nothing is open to user mode, although the entry of the first level now is; in user
space an address is translated by the last mapping that covers it; nothing else is mapped.
-/

namespace ParanukOS

open Foundation

namespace KernelMemory

section Walk

variable {arena arena' : TableArena} {first ptCount va : ℕ} {mappings : List Mapping}

/-- What an address of user space is translated to. -/
def userWalk (mappings : List Mapping) (va : ℕ) : Walk :=
  match lastCovering mappings va with
  | none => .notPresent
  | some m => .mapped { phys := m.paddr + (va - m.vaddr), writable := m.writable, user := true,
                        leaf := .page }

namespace UserMapped

/-- The tables of the kernel keep their words, except for the two entries that lead to user
space. -/
lemma word_eq (h : UserMapped arena first ptCount mappings arena') {k : ℕ} (hk : k < first * 512)
    (h0 : k ≠ 0) (h516 : k ≠ 516) : arena'.bytes.word k = arena.bytes.word k := by
  rw [h.stage.word_eq, userWords, overlay_of_notMem (by omega), overlay_of_notMem (by omega),
    openedWords, Function.update_of_ne h516, overlay_of_notMem (by omega), Function.update_of_ne h0]

lemma word_pml4 (h : UserMapped arena first ptCount mappings arena') (hfirst : 2 ≤ first) :
    arena'.bytes.word 0 =
      Build.takePage arena'.address 1 ||| (present ||| writable ||| user) := by
  rw [h.stage.word_eq, userWords, overlay_of_notMem (by omega), overlay_of_notMem (by omega),
    openedWords, Function.update_of_ne (by norm_num), overlay_of_notMem (by omega),
    Function.update_self, h.stage.address_eq]

lemma word_pdpt (h : UserMapped arena first ptCount mappings arena') (hfirst : 2 ≤ first) :
    arena'.bytes.word 516 =
      Build.takePage arena'.address first ||| (present ||| writable ||| user) := by
  rw [h.stage.word_eq, userWords, overlay_of_notMem (by omega), overlay_of_notMem (by omega),
    openedWords, Function.update_self, h.stage.address_eq, userTable, Nat.or_assoc, Nat.or_assoc,
    Nat.or_assoc]

lemma word_pd (h : UserMapped arena first ptCount mappings arena') (hfirst : 2 ≤ first) {slot : ℕ}
    (hslot : slot < 512) : arena'.bytes.word (first * 512 + slot) =
      if slot < ptCount then
        Build.takePage arena'.address (first + 1 + slot) ||| (present ||| writable ||| user)
      else 0 := by
  rw [h.stage.word_eq, userWords, overlay_of_notMem (by omega), h.stage.address_eq]
  split_ifs with hlt
  · rw [overlay_of_mem hlt, userTable, Nat.or_assoc, Nat.or_assoc, Nat.or_assoc]
  · rw [overlay_of_notMem (by omega), openedWords, Function.update_of_ne (by omega),
      overlay_of_mem hslot]

lemma word_pt (h : UserMapped arena first ptCount mappings arena') {p : ℕ}
    (hp : p < ptCount * 512) :
    arena'.bytes.word ((first + 1) * 512 + p) = leafWord mappings p := by
  rw [h.stage.word_eq, userWords, overlay_of_mem hp]

/-- Addresses beyond the new tables are not covered. -/
lemma lastCovering_eq_none (h : UserMapped arena first ptCount mappings arena')
    (hva : ptCount ≤ (va - userBase) / 2 ^ 21) : lastCovering mappings va = none := by
  refine lastCovering_eq_none_iff.mpr fun m hm hcovers => ?_
  have hlast := h.lastSlot_lt m hm
  have hbase := (h.accepted m hm).userBase_le
  simp only [Mapping.lastSlot, Mapping.Covers, pageSize, tableEntries, userBase] at *
  omega

/-- The last level: the entry of a page of user space. -/
lemma walk_pt (h : UserMapped arena first ptCount mappings arena')
    (hpaddr : ∀ m ∈ mappings, m.paddr + m.size ≤ 2 ^ 52) (hlow : 2 ^ 32 ≤ va)
    (hva : va < 2 ^ 32 + 2 ^ 30) (hslot : (va - 2 ^ 32) / 2 ^ 21 < ptCount) :
    (walkLevel arena' (Build.takePage arena'.address (first + 1 + (va - 2 ^ 32) / 2 ^ 21))
      (va / 2 ^ 12 % 512) fun e₁ => .mapped
        { phys := entryAddress e₁ + va % 2 ^ 12, writable := e₁.testBit 1, user := e₁.testBit 2,
          leaf := .page }) = userWalk mappings va := by
  have hroom := h.room
  have hlen := h.stage.length_eq
  simp only [pageSize] at hroom
  obtain ⟨p, hp⟩ : ∃ p, (va - 2 ^ 32) / 2 ^ 12 = p := ⟨_, rfl⟩
  have hpos : (first + 1 + (va - 2 ^ 32) / 2 ^ 21) * 512 + va / 2 ^ 12 % 512 =
      (first + 1) * 512 + p := by omega
  have hword := h.word_pt (p := p) (by omega)
  have hpage : lastCovering mappings (userBase + p * pageSize) = lastCovering mappings va :=
    lastCovering_page h.accepted hp hlow
  rw [leafWord, hpage] at hword
  rw [userWalk]
  cases hcov : lastCovering mappings va with
  | none =>
    rw [hcov] at hword
    exact walkLevel_of_zero _ rfl hpos (by omega) hword
  | some m =>
    rw [hcov] at hword
    obtain ⟨hm, hcovers⟩ := mem_of_lastCovering hcov
    have hpaddr := hpaddr m hm
    obtain ⟨hbase, -, hvmod, hpmod, hsmod, -⟩ := h.accepted m hm
    obtain ⟨hbit0, hbit1, hbit2⟩ := m.testBit_flags
    simp only [Mapping.Covers, pageSize, userBase] at *
    have hmod : (m.paddr + (4294967296 + p * 4096 - m.vaddr)) % 4096 = 0 := by omega
    have hlt : m.paddr + (4294967296 + p * 4096 - m.vaddr) < 2 ^ 52 := by omega
    have hphys : m.paddr + (4294967296 + p * 4096 - m.vaddr) + va % 2 ^ 12 =
        m.paddr + (va - m.vaddr) := by omega
    rw [walkLevel_of_packed _ rfl hpos (by omega) hword hmod hbit0,
      entryAddress_packed hmod hlt m.flags_lt, hphys, testBit_entry hmod (by norm_num),
      testBit_entry hmod (by norm_num), hbit1, hbit2]

/-- The walk in user space. -/
lemma walk_user (h : UserMapped arena first ptCount mappings arena') (hfirst : 2 ≤ first)
    (haligned : arena'.address % pageSize = 0)
    (hpaddr : ∀ m ∈ mappings, m.paddr + m.size ≤ 2 ^ 52) (hlow : 2 ^ 32 ≤ va)
    (hva : va < 2 ^ 32 + 2 ^ 30) : walk arena' arena'.address va = userWalk mappings va := by
  have hroom := h.room
  have hlen := h.stage.length_eq
  have htop := arena'.stop_le
  simp only [pageSize] at hroom
  have hmod := takePage_mod haligned
  have htable : ∀ n < first + 1 + ptCount,
      entryAddress (Build.takePage arena'.address n ||| (present ||| writable ||| user)) =
        Build.takePage arena'.address n := by
    intro n hn
    refine entryAddress_packed (hmod n) ?_ (by decide)
    simp only [Build.takePage, pageSize]
    omega
  have hbit : ∀ n i, i < 12 →
      (Build.takePage arena'.address n ||| (present ||| writable ||| user)).testBit i =
        (present ||| writable ||| user).testBit i := fun n i hi => testBit_entry (hmod n) hi
  have h4 : ∀ next, walkLevel arena' arena'.address (va / 2 ^ 39 % 512) next =
      next (Build.takePage arena'.address 1 ||| (present ||| writable ||| user)) := by
    intro next
    have hpos : 0 * 512 + va / 2 ^ 39 % 512 = 0 := by omega
    exact walkLevel_of_packed next (takePage_zero _) hpos (by omega) (h.word_pml4 hfirst) (hmod 1)
      (by decide)
  have h3 : ∀ next, walkLevel arena' (Build.takePage arena'.address 1) (va / 2 ^ 30 % 512) next =
      next (Build.takePage arena'.address first ||| (present ||| writable ||| user)) := by
    intro next
    have hpos : 1 * 512 + va / 2 ^ 30 % 512 = 516 := by omega
    exact walkLevel_of_packed next rfl hpos (show 4136 ≤ _ by omega) (h.word_pdpt hfirst)
      (hmod first)
      (by decide)
  obtain ⟨slot, hslot⟩ : ∃ slot, (va - 2 ^ 32) / 2 ^ 21 = slot := ⟨_, rfl⟩
  have hindex : va / 2 ^ 21 % 512 = slot := by omega
  have hword := h.word_pd hfirst (show slot < 512 by omega)
  rw [walk, h4, htable 1 (by omega), h3, hbit _ 7 (by norm_num), if_neg (by decide),
    htable first (by omega), hindex]
  by_cases hpt : slot < ptCount
  · have hlast := h.walk_pt hpaddr hlow hva (by rwa [hslot])
    rw [hslot] at hlast
    rw [if_pos hpt] at hword
    rw [walkLevel_of_packed _ rfl (Eq.refl (first * 512 + slot)) (by omega) hword (hmod _)
      (by decide),
      hbit _ 7 (by norm_num), if_neg (by decide), htable _ (by omega), ← hlast]
    simp only [hbit _ 1 (show 1 < 12 by norm_num), hbit _ 2 (show 2 < 12 by norm_num),
      show (present ||| writable ||| user).testBit 1 = true by decide,
      show (present ||| writable ||| user).testBit 2 = true by decide, Bool.true_and]
  · rw [if_neg hpt] at hword
    have hnone : lastCovering mappings va = none :=
      h.lastCovering_eq_none (hslot.symm ▸ not_lt.mp hpt)
    rw [walkLevel_of_zero _ rfl (Eq.refl (first * 512 + slot)) (by omega) hword, userWalk, hnone]

end UserMapped

end Walk

/-! ## The tables of the kernel -/

section Composition

variable {arena₀ arena arena' : TableArena} {map : MemoryMap} {tables : PageTables}
  {ptCount va : ℕ} {mappings : List Mapping}

lemma pdCount_m2 : PagingConfig.m2.pdCount = 4 := by decide

lemma ptCount_m2 : PagingConfig.m2.ptCount = 1 := by decide

/-- Seven pages hold the tables of the kernel. -/
lemma Built.length_le (h : Built arena₀ map .m2 tables arena) :
    7 * pageSize ≤ arena.bytes.length := by
  have := h.tableBytes_le
  rwa [PagingConfig.tableBytes, pdCount_m2, ptCount_m2, ← h.stage.length_eq] at this

/-- The entries of the first level behind the first one are not in use. -/
lemma Built.word_pml4 (h : Built arena₀ map .m2 tables arena) {k : ℕ} (h0 : k ≠ 0) (hk : k < 512) :
    arena.bytes.word k = 0 := by
  rw [h.stage.word_eq, identityWords_pml4 h.pdCount_le hk, if_neg h0]

/-- The entries of the second level from 4 GiB on are not in use. -/
lemma Built.word_pdpt (h : Built arena₀ map .m2 tables arena) {i : ℕ} (h4 : 4 ≤ i) (hi : i < 512) :
    arena.bytes.word (512 + i) = 0 := by
  rw [h.stage.word_eq, identityWords_pdpt h.pdCount_le hi, if_neg (by rw [pdCount_m2]; omega)]

/-- User space can be added to the tables of the kernel. -/
lemma Built.kernelTables (h : Built arena₀ map .m2 tables arena) : KernelTables arena where
  aligned := h.identityTables.aligned
  length_le := le_trans (Nat.mul_le_mul_right _ (by norm_num)) h.length_le
  pml4 := by
    rw [h.stage.word_eq, identityWords_pml4 h.pdCount_le (by norm_num), if_pos rfl,
      h.stage.address_eq, pml4Word, Nat.or_assoc]
  pdpt := h.word_pdpt le_rfl (by norm_num)

/-- The identity map is still there when user space has been added. -/
lemma UserMapped.identityTables (h : UserMapped arena 7 ptCount mappings arena')
    (hbuilt : Built arena₀ map .m2 tables arena) :
    IdentityTables arena' map .m2 tables.limit := by
  have hold := hbuilt.identityTables
  have haddress := h.stage.address_eq
  have hpdpt := hold.pdpt
  have hpd := hold.pd
  have hpt := hold.pt
  rw [pdCount_m2] at hpdpt hpd hpt
  rw [ptCount_m2] at hpt
  refine ⟨by rw [haddress]; exact hold.aligned, by rw [h.stage.length_eq]; exact hold.tableBytes_le,
    hold.pdCount_le, hold.ptCount_le,
    ⟨present ||| writable ||| user, by decide, by decide, by decide, h.word_pml4 (by norm_num)⟩,
    ?_, ?_, ?_⟩
  · rw [pdCount_m2, haddress]
    intro i hi
    rw [h.word_eq (by omega) (by omega) (by omega), hpdpt i hi]
  · rw [pdCount_m2, haddress]
    intro n hn
    rw [h.word_eq (by omega) (by omega) (by omega), hpd n hn]
  · rw [pdCount_m2, ptCount_m2]
    intro n hn
    rw [h.word_eq (by omega) (by omega) (by omega), hpt n hn]

/-- Nothing is mapped from 5 GiB on. -/
lemma UserMapped.walk_above (h : UserMapped arena 7 ptCount mappings arena')
    (hbuilt : Built arena₀ map .m2 tables arena) (hlow : 2 ^ 32 + 2 ^ 30 ≤ va) (hva : va < 2 ^ 48) :
    walk arena' arena'.address va = .notPresent := by
  have hlen : 7 * pageSize ≤ arena'.bytes.length := by
    rw [h.stage.length_eq]
    exact hbuilt.length_le
  simp only [pageSize] at hlen
  have haligned := (h.identityTables hbuilt).aligned
  have hmod := takePage_mod haligned 1
  by_cases hpml4 : va < 2 ^ 39
  · have hpos : 0 * 512 + va / 2 ^ 39 % 512 = 0 := by omega
    have hpos' : 1 * 512 + va / 2 ^ 30 % 512 = 512 + va / 2 ^ 30 := by omega
    have hlt : Build.takePage arena'.address 1 < 2 ^ 52 := by
      have := arena'.stop_le
      simp only [Build.takePage, pageSize]
      omega
    have hword : arena'.bytes.word (512 + va / 2 ^ 30) = 0 := by
      rw [h.word_eq (by omega) (by omega) (by omega)]
      exact hbuilt.word_pdpt (by omega) (by omega)
    rw [walk, walkLevel_of_packed _ (takePage_zero _) hpos (by omega)
      (h.word_pml4 (by norm_num)) hmod
      (by decide), entryAddress_packed hmod hlt (by decide)]
    exact walkLevel_of_zero _ rfl hpos' (by omega) hword
  · have hpos : 0 * 512 + va / 2 ^ 39 % 512 = va / 2 ^ 39 := by omega
    have hword : arena'.bytes.word (va / 2 ^ 39) = 0 := by
      rw [h.word_eq (by omega) (by omega) (by omega)]
      exact hbuilt.word_pml4 (by omega) (by omega)
    exact walkLevel_of_zero _ (takePage_zero _) hpos (by omega) hword

/-- In the identity map nothing is open to user mode. -/
lemma user_of_identityWalk {config : PagingConfig} {limit : ℕ} {t : Translation}
    (h : identityWalk map config limit va = .mapped t) : t.user = false := by
  rw [identityWalk] at h
  split_ifs at h <;> cases h <;> rfl

/-- The walk after `build` has succeeded with the configuration of the kernel and `map_user_region`
has added a list of mappings. -/
lemma walk_of_mapUserRegion (hbuild : build arena₀ map .m2 = .ok (.ok (tables, arena)))
    (hne : mappings ≠ []) (hpaddr : ∀ m ∈ mappings, m.paddr + m.size ≤ 2 ^ 52) {result : Mapped}
    (hmap : mapUserRegion arena 0 (7 * pageSize) mappings = .ok (.ok result, arena')) :
    (∀ m ∈ mappings, m.Accepted) ∧
    (∀ va < 2 ^ 32, walk arena' tables.pml4Phys va = walk arena tables.pml4Phys va ∧
      ∀ t, walk arena' tables.pml4Phys va = .mapped t → t.user = false) ∧
    (∀ va, 2 ^ 32 ≤ va → va < 2 ^ 32 + 2 ^ 30 →
      walk arena' tables.pml4Phys va = userWalk mappings va) ∧
    ∀ va, 2 ^ 32 + 2 ^ 30 ≤ va → va < 2 ^ 48 → walk arena' tables.pml4Phys va = .notPresent := by
  have hbuilt := built_of_build hbuild
  obtain ⟨ptCount, h⟩ :=
    userMapped_of_mapUserRegion hbuilt.kernelTables (by norm_num) hne hmap
  have hroot : tables.pml4Phys = arena.address := by
    rw [hbuilt.pml4Phys_eq, hbuilt.stage.address_eq]
  have hroot' : tables.pml4Phys = arena'.address := by rw [hroot, h.stage.address_eq]
  have hidentity := h.identityTables hbuilt
  refine ⟨h.accepted, fun va hlow => ?_, fun va hlow hhigh => ?_, fun va hhigh hva => ?_⟩
  · have hcover : va < PagingConfig.m2.pdCount * 2 ^ 30 := by rw [pdCount_m2]; omega
    have hafter := hidentity.walk_eq hcover
    have hbefore := hbuilt.identityTables.walk_eq hcover
    rw [← hroot'] at hafter
    rw [← hroot] at hbefore
    refine ⟨hafter.trans hbefore.symm, fun t ht => ?_⟩
    exact user_of_identityWalk (hafter.symm.trans ht)
  · rw [hroot']
    exact h.walk_user (by norm_num) hidentity.aligned hpaddr hlow hhigh
  · rw [hroot']
    exact h.walk_above hbuilt hhigh hva

/-- **Isolation of user space.**  Let `build` succeed with the configuration of the kernel, and let
`map_user_region` then add a list of mappings.  Below 4 GiB the walk has the same result as before,
and nothing is open to user mode.  An address of user space is mapped exactly when some mapping
covers it; the last one decides, and user mode may access it.  Nothing else is mapped. -/
theorem user_mappings_isolated (map : MemoryMap) (arena₀ arena arena' : TableArena)
    (tables : PageTables) (hbuild : build arena₀ map .m2 = .ok (.ok (tables, arena)))
    (mappings : List Mapping) (hne : mappings ≠ [])
    (hpaddr : ∀ m ∈ mappings, m.paddr + m.size ≤ 2 ^ 52) (result : Mapped)
    (hmap : mapUserRegion arena 0 (7 * pageSize) mappings = .ok (.ok result, arena')) :
    ∀ va < 2 ^ 48,
      (va < 2 ^ 32 → walk arena' tables.pml4Phys va = walk arena tables.pml4Phys va ∧
        ∀ t, walk arena' tables.pml4Phys va = .mapped t → t.user = false) ∧
      (2 ^ 32 ≤ va → va < 2 ^ 32 + 2 ^ 30 →
        (walk arena' tables.pml4Phys va = .notPresent ↔ ¬ ∃ m ∈ mappings, m.Covers va) ∧
        ∀ m, lastCovering mappings va = some m → walk arena' tables.pml4Phys va = .mapped
          { phys := m.paddr + (va - m.vaddr), writable := m.writable, user := true,
            leaf := .page }) ∧
      (2 ^ 32 + 2 ^ 30 ≤ va → walk arena' tables.pml4Phys va = .notPresent) := by
  obtain ⟨-, hkernel, huser, habove⟩ := walk_of_mapUserRegion hbuild hne hpaddr hmap
  intro va hva
  refine ⟨hkernel va, fun hlow hhigh => ?_, fun hhigh => habove va hhigh hva⟩
  have hwalk := huser va hlow hhigh
  rw [userWalk] at hwalk
  rw [hwalk]
  cases hcov : lastCovering mappings va with
  | none =>
    refine ⟨⟨fun _ => ?_, fun _ => rfl⟩, fun m hm => absurd hm (by simp)⟩
    rintro ⟨m, hm, hcovers⟩
    exact lastCovering_eq_none_iff.mp hcov m hm hcovers
  | some m =>
    obtain ⟨hm, hcovers⟩ := mem_of_lastCovering hcov
    refine ⟨⟨fun hcon => Walk.noConfusion hcon, fun hcon => absurd ⟨m, hm, hcovers⟩ hcon⟩, ?_⟩
    rintro m' ⟨⟩
    rfl

/-- One writable page at the start of user space. -/
def onePage : Mapping :=
  { vaddr := userBase, paddr := 0x104000, size := pageSize, writable := true }

lemma accepted_onePage : onePage.Accepted :=
  ⟨by decide, by decide, by decide, by decide, by decide, by decide⟩

/-- On the small machine, user mode can reach this page and not the memory of the kernel. -/
theorem user_mappings_isolated_onePage : ∃ tables arena arena' result,
    build (clearedArena 9 (by decide)) smallMap .m2 = .ok (.ok (tables, arena)) ∧
      mapUserRegion arena 0 (7 * pageSize) [onePage] = .ok (.ok result, arena') ∧
      walk arena' tables.pml4Phys (userBase + 5) =
        .mapped { phys := 0x104005, writable := true, user := true, leaf := .page } ∧
      ∀ t, walk arena' tables.pml4Phys 0x104005 = .mapped t → t.user = false := by
  obtain ⟨tables, arena, hbuild, hbuilt⟩ :=
    build_spec (buildable_clearedArena (n := 9) (by decide) (by decide))
  have hpaddr : ∀ m ∈ [onePage], m.paddr + m.size ≤ 2 ^ 52 := by decide
  have hroom : 7 + 1 + 1 ≤ arena.bytes.length / pageSize := by
    rw [hbuilt.stage.length_eq, length_clearedArena]
    exact (Nat.mul_div_cancel 9 (by decide)).ge
  have hmappable : UserMappable arena 7 1 [onePage] :=
    ⟨by decide, fun m hm => List.mem_singleton.mp hm ▸
      accepted_onePage, by decide +kernel, by decide, hroom,
      by decide⟩
  obtain ⟨arena', hmap, -⟩ :=
    mapUserRegion_spec hbuilt.kernelTables (by decide)
      (fun m hm => (hpaddr m hm).trans (by norm_num)) hmappable
  have hisolated :=
    user_mappings_isolated smallMap _ arena arena' tables hbuild [onePage] (by decide) hpaddr _ hmap
  refine ⟨tables, arena, arena', _, hbuild, hmap, ?_, ?_⟩
  · exact ((hisolated (userBase + 5) (by decide)).2.1 (by decide) (by decide)).2 onePage (by decide)
  · exact ((hisolated 0x104005 (by decide)).1 (by decide)).2

end Composition

end KernelMemory

end ParanukOS
