import ParanukOS.KernelMemory.Paging.Isolation

/-!
# The bounds of user mappings

`mapUserRegion` is called with addresses and lengths that nobody has looked at.  It checks every
mapping, but the check itself adds the length to the address, and the loop over the pages adds to
the physical address, which is not bounded by any check.  We say exactly when all these sums are
words, and so when the function returns.

## Outline

* `EndsAreWords`, `checkMappings_returns_iff`: the loop over the checks.
* `PhysicalEndsAreWords`, `KernelTables.mapUserRegion_returns_iff`: the whole function.
* `UserMapped.get?_eq`: the bytes that are not written.
* `user_map_returns_iff`: both for tables that `build` has made.
-/

namespace ParanukOS

open Foundation

namespace KernelMemory

/-! ## The checks -/

/-- The ends of the mappings are words, as far as the checks come: a mapping is looked at when all
mappings before it have passed, and its end is computed when its start is in user space. -/
def EndsAreWords (mappings : List Mapping) : Prop :=
  ∀ done m, done ++ [m] <+: mappings → (∀ m' ∈ done, m'.Accepted) →
    userBase ≤ m.vaddr → m.vaddr + m.size < 2 ^ 64

lemma endsAreWords_cons_iff {m : Mapping} {mappings : List Mapping} :
    EndsAreWords (m :: mappings) ↔
      (userBase ≤ m.vaddr → m.vaddr + m.size < 2 ^ 64) ∧ (m.Accepted → EndsAreWords mappings) := by
  constructor
  · intro h
    refine ⟨h [] m ⟨mappings, rfl⟩ fun m' hm' => absurd hm' List.not_mem_nil, ?_⟩
    intro hm done m' hdone hacc
    exact h (m :: done) m' (List.cons_prefix_cons.mpr ⟨rfl, hdone⟩)
      (List.forall_mem_cons.mpr ⟨hm, hacc⟩)
  · rintro ⟨hfirst, hrest⟩ done m' hdone hacc
    cases done with
    | nil =>
      obtain ⟨rfl, -⟩ := List.cons_prefix_cons.mp hdone
      exact hfirst
    | cons d done =>
      obtain ⟨rfl, hrest'⟩ := List.cons_prefix_cons.mp hdone
      obtain ⟨hd, hacc'⟩ := List.forall_mem_cons.mp hacc
      exact hrest hd done m' hrest' hacc'

/-- Mappings that pass the checks end in user space. -/
lemma endsAreWords_of_accepted {mappings : List Mapping} (h : ∀ m ∈ mappings, m.Accepted) :
    EndsAreWords mappings := by
  intro done m hdone _ _
  have hm := (h m (hdone.subset (List.mem_append_right _ (List.mem_singleton_self m)))).stop_le
  have hbase : userBase + userMaxBytes < 2 ^ 64 := by decide
  omega

lemma checkMapping_returns_iff {m : Mapping} :
    (∃ r, UserMap.checkMapping m = .ok r) ↔ (userBase ≤ m.vaddr → m.vaddr + m.size < 2 ^ 64) := by
  rw [UserMap.checkMapping, Mapping.vaddrEnd]
  by_cases hlow : m.vaddr < userBase
  · rw [if_pos hlow]
    exact ⟨fun _ hle => absurd hlow (not_lt.mpr hle), fun _ => ⟨_, rfl⟩⟩
  rw [if_neg hlow]
  by_cases hend : m.vaddr + m.size < 2 ^ 64
  · refine ⟨fun _ _ => hend, fun _ => ?_⟩
    rw [addWord_of_lt hend, Checked.ok_bind, Checked.ok_bind]
    split_ifs
    · exact ⟨_, rfl⟩
    · exact ⟨_, rfl⟩
    · exact ⟨_, rfl⟩
  · rw [show addWord m.vaddr m.size = .error .overflow from if_neg hend, Checked.error_bind]
    refine ⟨?_, fun h => absurd (h (not_lt.mp hlow)) hend⟩
    rintro ⟨r, hr⟩
    cases hr

/-- The loop over the checks returns exactly when the sums that it computes are words. -/
lemma checkMappings_returns_iff {mappings : List Mapping} :
    (∃ r, UserMap.checkMappings mappings = .ok r) ↔ EndsAreWords mappings := by
  induction mappings with
  | nil => exact ⟨fun _ => endsAreWords_of_accepted (by simp), fun _ => ⟨_, rfl⟩⟩
  | cons m mappings ih =>
    rw [endsAreWords_cons_iff, ← checkMapping_returns_iff, ← checkMapping_eq_none_iff, ← ih,
      UserMap.checkMappings]
    cases hm : UserMap.checkMapping m with
    | error e => simp
    | ok r => cases r <;> simp

/-! ## The whole function -/

section Returns

variable {arena arena' : TableArena} {first ptCount : ℕ} {mappings : List Mapping}

/-- The physical ends of the mappings and the sum of their sizes are words, if the tables are
filled at all: the mappings have passed and the arena has room. -/
def PhysicalEndsAreWords (arena : TableArena) (first : ℕ) (mappings : List Mapping) : Prop :=
  (∀ m ∈ mappings, m.Accepted) →
    (∀ m ∈ mappings, first + 1 + (m.lastSlot + 1) ≤ arena.bytes.length / pageSize) →
    (∀ m ∈ mappings, m.paddr + m.size ≤ 2 ^ 64) ∧ (mappings.map Mapping.size).sum < 2 ^ 64

namespace KernelTables

/-- Before the first write, `map_user_region` stops when the checks stop. -/
lemma mapUserRegion_returns_of_refused (h : KernelTables arena) (hne : mappings ≠ [])
    (hrefused : ¬ ∀ m ∈ mappings, m.Accepted) :
    (∃ r, mapUserRegion arena 0 (first * pageSize) mappings = .ok r) ↔
      ∃ r, UserMap.checkMappings mappings = .ok r := by
  unfold mapUserRegion
  rw [if_neg (not_not.mpr h.aligned), if_neg (by simp)]
  simp only
  rw [if_neg (by simpa using hne)]
  rw [← checkMappings_eq_none_iff] at hrefused
  cases hcheck : UserMap.checkMappings mappings with
  | error e => simp
  | ok r =>
    cases r with
    | none => exact absurd hcheck hrefused
    | some e => exact ⟨fun _ => ⟨_, rfl⟩, fun _ => ⟨_, rfl⟩⟩

/-- Mappings that pass the checks are entered exactly when the sums of the last loop are words. -/
lemma mapUserRegion_returns_of_accepted (h : KernelTables arena) (hfirst : 2 ≤ first)
    (hne : mappings ≠ []) (hacc : ∀ m ∈ mappings, m.Accepted) :
    (∃ r, mapUserRegion arena 0 (first * pageSize) mappings = .ok r) ↔
      PhysicalEndsAreWords arena first mappings := by
  obtain ⟨highest, hhighest, -, hlast, hattained⟩ := highestSlot_spec hacc
  by_cases hroom : first + 1 + (highest + 1) ≤ arena.bytes.length / pageSize
  · constructor
    · rintro ⟨r, hr⟩ - -
      rw [h.mapUserRegion_eq hne hacc, hhighest, Checked.ok_bind, if_neg (not_lt.mpr hroom)] at hr
      obtain ⟨s, hfill, -⟩ := Checked.bind_eq_ok.mp hr
      exact (fill_bytes hacc hfill).symm
    · intro hwords
      obtain ⟨hpaddr, hsum⟩ := hwords hacc fun m hm => by
        have := hlast m hm
        omega
      have hmappable : UserMappable arena first (highest + 1) mappings :=
        ⟨hne, hacc, hhighest, Nat.succ_pos _, hroom, hsum⟩
      obtain ⟨arena', hmap, -⟩ := mapUserRegion_spec h hfirst hpaddr hmappable
      exact ⟨_, hmap⟩
  · refine ⟨fun _ _ hall => absurd ?_ hroom, fun _ => ?_⟩
    · -- the highest table belongs to some mapping, also when it is the first one
      obtain ⟨m, hm⟩ := List.exists_mem_of_ne_nil mappings hne
      rcases hattained with rfl | ⟨m', hm', rfl⟩
      · have := hall m hm
        omega
      · exact hall m' hm'
    · rw [h.mapUserRegion_eq hne hacc, hhighest, Checked.ok_bind, if_pos (not_le.mp hroom)]
      exact ⟨_, rfl⟩

/-- `map_user_region` returns exactly when the sums that it computes are words. -/
lemma mapUserRegion_returns_iff (h : KernelTables arena) (hfirst : 2 ≤ first) :
    (∃ r, mapUserRegion arena 0 (first * pageSize) mappings = .ok r) ↔
      EndsAreWords mappings ∧ PhysicalEndsAreWords arena first mappings := by
  by_cases hne : mappings = []
  · subst hne
    refine ⟨fun _ => ⟨endsAreWords_of_accepted (by simp), fun _ _ => by simp⟩, fun _ => ?_⟩
    unfold mapUserRegion
    rw [if_neg (not_not.mpr h.aligned), if_neg (by simp)]
    exact ⟨_, rfl⟩
  by_cases hacc : ∀ m ∈ mappings, m.Accepted
  · rw [h.mapUserRegion_returns_of_accepted hfirst hne hacc]
    exact ⟨fun hwords => ⟨endsAreWords_of_accepted hacc, hwords⟩, And.right⟩
  · rw [h.mapUserRegion_returns_of_refused hne hacc, checkMappings_returns_iff]
    exact ⟨fun hends => ⟨hends, fun hall => absurd hall hacc⟩, And.left⟩

end KernelTables

/-- Before the new tables only two entries are written: one of the first level and one of the
second. -/
lemma UserMapped.get?_eq (h : UserMapped arena first ptCount mappings arena') {i : ℕ}
    (hi : i < first * pageSize) (hpml4 : 8 ≤ i)
    (hpdpt : i < pageSize + 8 * 4 ∨ pageSize + 8 * 4 + 8 ≤ i) :
    arena'.bytes.get? i = arena.bytes.get? i := by
  have hroom := h.room
  have hlen := h.stage.length_eq
  simp only [pageSize] at *
  have hword := h.word_eq (k := i / 8) (by omega) (by omega) (by omega)
  exact Slice.get?_eq_of_word_eq (k := i / 8) (by omega) (by omega) hword (by omega) (by omega)

end Returns

/-! ## Tables that `build` has made -/

/-- The arena starts where another one does, and its first `pages` pages are the same. -/
structure TableArena.Holds (arena built : TableArena) (pages : ℕ) : Prop where
  address_eq : arena.address = built.address
  length_le : pages * pageSize ≤ arena.bytes.length
  get?_eq : ∀ i < pages * pageSize, arena.bytes.get? i = built.bytes.get? i

section Built

variable {map : MemoryMap} {arena₀ built arena : TableArena} {tables : PageTables}

/-- The tables of the kernel are still there when the rest of the arena has changed. -/
lemma Built.kernelTables_of_holds (h : Built arena₀ map .m2 tables built)
    (hholds : arena.Holds built 7) : KernelTables arena := by
  have hbuilt := h.kernelTables
  have hlen := hholds.length_le
  have hlen' := h.length_le
  simp only [pageSize] at hlen hlen'
  have hword : ∀ k < 7 * 512, arena.bytes.word k = built.bytes.word k := by
    intro k hk
    refine Slice.word_congr (by omega) (by omega) fun i _ hi => hholds.get?_eq i ?_
    simp only [pageSize]
    omega
  refine ⟨?_, ?_, ?_, ?_⟩
  · rw [hholds.address_eq]
    exact hbuilt.aligned
  · simp only [pageSize]
    omega
  · rw [hword 0 (by norm_num), hholds.address_eq]
    exact hbuilt.pml4
  · rw [hword 516 (by norm_num)]
    exact hbuilt.pdpt

/-- **Bounds of user mappings.**  Let the arena hold the tables that `build` has made with the
configuration of the kernel.  For every list of mappings, `map_user_region` returns exactly when
the ends that the checks compute are words and, if the tables are filled, the physical ends and the
sum of the sizes are words too.  When it succeeds, all mappings end within 1 GiB of user space, and
of the tables of the kernel it has changed at most the first entry of the first level and the entry
4 of the second level. -/
theorem user_map_returns_iff (map : MemoryMap) (arena₀ built arena : TableArena)
    (tables : PageTables) (hbuild : build arena₀ map .m2 = .ok (.ok (tables, built)))
    (hholds : arena.Holds built 7) (mappings : List Mapping) :
    ((∃ r, mapUserRegion arena 0 (7 * pageSize) mappings = .ok r) ↔
      EndsAreWords mappings ∧ PhysicalEndsAreWords arena 7 mappings) ∧
    ∀ result arena', mapUserRegion arena 0 (7 * pageSize) mappings = .ok (.ok result, arena') →
      (∀ m ∈ mappings, m.vaddr + m.size ≤ userBase + 2 ^ 30) ∧
      arena'.address = arena.address ∧ arena'.bytes.length = arena.bytes.length ∧
      ∀ i < 7 * pageSize, arena'.bytes.get? i ≠ arena.bytes.get? i →
        i < 8 ∨ pageSize + 8 * 4 ≤ i ∧ i < pageSize + 8 * 4 + 8 := by
  have hkernel := (built_of_build hbuild).kernelTables_of_holds hholds
  refine ⟨hkernel.mapUserRegion_returns_iff (by norm_num), fun result arena' hmap => ?_⟩
  by_cases hne : mappings = []
  · -- without mappings nothing is written
    subst hne
    unfold mapUserRegion at hmap
    rw [if_neg (not_not.mpr hkernel.aligned), if_neg (by simp)] at hmap
    obtain ⟨-, rfl⟩ := Prod.mk.inj (Except.ok.inj hmap)
    exact ⟨fun m hm => absurd hm List.not_mem_nil, rfl, rfl, fun i _ hi => absurd rfl hi⟩
  · obtain ⟨ptCount, h⟩ := userMapped_of_mapUserRegion hkernel (by norm_num) hne hmap
    refine ⟨fun m hm => (h.accepted m hm).stop_le, h.stage.address_eq, h.stage.length_eq, ?_⟩
    intro i hi hchanged
    by_contra houtside
    exact hchanged (h.get?_eq hi (by omega) (by omega))

lemma TableArena.Holds.refl {pages : ℕ} (h : pages * pageSize ≤ arena.bytes.length) :
    arena.Holds arena pages := ⟨rfl, h, fun _ _ => rfl⟩

/-- On the small machine the page at the start of user space is entered. -/
theorem user_map_returns_iff_onePage : ∃ tables arena,
    build (clearedArena 9 (by decide)) smallMap .m2 = .ok (.ok (tables, arena)) ∧
      arena.Holds arena 7 ∧ ∃ r, mapUserRegion arena 0 (7 * pageSize) [onePage] = .ok r := by
  obtain ⟨tables, arena, hbuild, hbuilt⟩ :=
    build_spec (buildable_clearedArena (n := 9) (by decide) (by decide))
  have hholds := TableArena.Holds.refl hbuilt.length_le
  have hacc : ∀ m ∈ [onePage], m.Accepted := List.forall_mem_singleton.mpr accepted_onePage
  refine ⟨tables, arena, hbuild, hholds, ?_⟩
  rw [(user_map_returns_iff smallMap _ arena arena tables hbuild hholds [onePage]).1]
  exact ⟨endsAreWords_of_accepted hacc, fun _ _ => by decide⟩

/-- A mapping whose end is back in user space modulo `2 ^ 64`, before its start. -/
def wrappedMapping : Mapping :=
  { vaddr := userBase + 2 * pageSize, paddr := 0x104000, size := 2 ^ 64 - pageSize,
    writable := true }

/-- On the small machine the check of this mapping overflows: `map_user_region` does not return. -/
theorem user_map_end_overflows : ∃ tables arena,
    build (clearedArena 9 (by decide)) smallMap .m2 = .ok (.ok (tables, arena)) ∧
      mapUserRegion arena 0 (7 * pageSize) [wrappedMapping] = .error .overflow := by
  obtain ⟨tables, arena, hbuild, hbuilt⟩ :=
    build_spec (buildable_clearedArena (n := 9) (by decide) (by decide))
  have hcheck : UserMap.checkMappings [wrappedMapping] = .error .overflow := by decide
  refine ⟨tables, arena, hbuild, ?_⟩
  unfold mapUserRegion
  rw [if_neg (not_not.mpr hbuilt.kernelTables.aligned), if_neg (by decide), hcheck]
  rfl

end Built

end KernelMemory

end ParanukOS
