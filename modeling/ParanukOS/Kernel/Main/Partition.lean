import ParanukOS.Kernel.Main.Regions
import ParanukOS.Kernel.Main.Start
import ParanukOS.Kernel.User.Image
import ParanukOS.KernelMemory.Usable

/-!
# The memory of the kernel is partitioned

From the moment at which the kernel enables interrupts, the heap, the stacks for exceptions, the
stacks of all threads, the stacks of threads that are being created and the frames of the boot
thread are apart from each other, from the memory given at boot and from the free frames, and the
page tables of the kernel map them, also after user space has been added.

## Outline

* `UserMapped.walk_low`, `UserMapped.not_mapUserRegion`: page tables with user space.
* `Safe`, `Safe.step`: the invariant.
* `kernel_memory_partitioned`: the main theorem.
-/

namespace ParanukOS

open Foundation Foundation.Fallible KernelMemory KernelSched FrameAllocator Heap

namespace KernelMemory

variable {arena₀ arena arena' arena'' : TableArena} {map : MemoryMap} {tables : PageTables}
  {first ptCount : ℕ} {mappings mappings' : List Mapping}

/-- User space does not change the walk for the addresses below it. -/
lemma UserMapped.walk_low (h : UserMapped arena 7 ptCount mappings arena')
    (hbuilt : Built arena₀ map .m2 tables arena) {va : ℕ} (hlow : va < 2 ^ 32) :
    walk arena' tables.pml4Phys va = walk arena tables.pml4Phys va := by
  have hroot : tables.pml4Phys = arena.address := by
    rw [hbuilt.pml4Phys_eq, hbuilt.stage.address_eq]
  have hroot' : tables.pml4Phys = arena'.address := by rw [hroot, h.stage.address_eq]
  have hcover : va < PagingConfig.m2.pdCount * 2 ^ 30 := by
    rw [pdCount_m2]
    omega
  have hafter := (h.identityTables hbuilt).walk_eq hcover
  have hbefore := hbuilt.identityTables.walk_eq hcover
  rw [← hroot'] at hafter
  rw [← hroot] at hbefore
  exact hafter.trans hbefore.symm

/-- `map_user_region` refuses if the entry for user space in the second level is present. -/
lemma not_mapUserRegion_of_present {entry pdpt value : ℕ} (hne : mappings ≠ [])
    (hentry : arena.readEntryAt 0 0 = .ok entry) (huser : ¬ entry &&& user = 0)
    (hpdpt : subWord (entry &&& addressMask) arena.address = .ok pdpt)
    (hvalue : arena.readEntryAt pdpt 4 = .ok value) (hpresent : value &&& present ≠ 0)
    (offset : ℕ) (mapped : Mapped) :
    mapUserRegion arena 0 offset mappings ≠ .ok (.ok mapped, arena') := by
  intro heq
  unfold mapUserRegion at heq
  by_cases haddress : arena.address % pageSize ≠ 0
  · rw [if_pos haddress] at heq
    cases (Prod.mk.inj (Except.ok.inj heq)).1
  rw [if_neg haddress] at heq
  by_cases hoffsets : offset % pageSize ≠ 0 ∨ 0 % pageSize ≠ 0
  · rw [if_pos hoffsets] at heq
    cases (Prod.mk.inj (Except.ok.inj heq)).1
  rw [if_neg hoffsets] at heq
  dsimp only at heq
  rw [if_neg (by simpa using hne)] at heq
  obtain ⟨r, -, heq⟩ := Checked.bind_eq_ok.mp heq
  cases r with
  | some e => cases (Prod.mk.inj (Except.ok.inj heq)).1
  | none =>
    simp only [hentry, Checked.ok_bind] at heq
    by_cases hfirst : entry &&& present = 0
    · rw [if_pos hfirst] at heq
      cases (Prod.mk.inj (Except.ok.inj heq)).1
    rw [if_neg hfirst, if_neg huser] at heq
    -- the entry of the first level is open already, so nothing is written before the check
    obtain ⟨arena₁, harena, heq⟩ := Checked.bind_eq_ok.mp heq
    obtain rfl := Except.ok.inj harena
    rw [hpdpt, Checked.ok_bind, show userBase / 2 ^ 30 % tableEntries = 4 from rfl, hvalue,
      Checked.ok_bind, if_pos hpresent] at heq
    cases (Prod.mk.inj (Except.ok.inj heq)).1

/-- User space cannot be added twice. -/
lemma UserMapped.not_mapUserRegion (h : UserMapped arena first ptCount mappings arena')
    (hfirst : 2 ≤ first) (haligned : arena'.address % pageSize = 0) (hne : mappings' ≠ [])
    (offset : ℕ) (mapped : Mapped) :
    mapUserRegion arena' 0 offset mappings' ≠ .ok (.ok mapped, arena'') := by
  have hlen := h.room
  rw [← h.stage.length_eq] at hlen
  have hstop := arena'.stop_le
  simp only [pageSize] at hlen
  have hlength : 8 * 517 ≤ arena'.bytes.length := by
    have hpages : 3 * 4096 ≤ (first + 1 + ptCount) * 4096 := Nat.mul_le_mul_right _ (by omega)
    exact le_trans (by norm_num) (hpages.trans hlen)
  have hread := @TableArena.readEntryAt_eq arena' 0 0 (by omega)
  rw [Nat.zero_mul, h.word_pml4 hfirst] at hread
  have hread' := @TableArena.readEntryAt_eq arena' 1 4 hlength
  rw [show 1 * 512 + 4 = 516 from rfl, h.word_pdpt hfirst] at hread'
  have hmod := takePage_mod haligned 1
  have huser : ¬ (Build.takePage arena'.address 1 ||| (present ||| writable ||| user)) &&& user =
      0 := by
    rw [show user = 2 ^ 2 from rfl, and_two_pow_eq_zero_iff, testBit_entry hmod (by norm_num)]
    decide
  have hlt : Build.takePage arena'.address 1 < 2 ^ 52 := by
    simp only [Build.takePage, pageSize]
    omega
  have haddress : (Build.takePage arena'.address 1 ||| (present ||| writable ||| user)) &&&
      addressMask = arena'.address + 1 * pageSize := entryAddress_packed hmod hlt (by decide)
  have hsub : subWord (arena'.address + 1 * pageSize) arena'.address = .ok (1 * pageSize) := by
    rw [subWord_of_le (Nat.le_add_right _ _), Nat.add_sub_cancel_left]
  have hpresent : (Build.takePage arena'.address first ||| (present ||| writable ||| user)) &&&
      present ≠ 0 := by
    rw [Ne, show present = 2 ^ 0 from rfl, and_two_pow_eq_zero_iff,
      testBit_entry (takePage_mod haligned first) (by norm_num)]
    decide
  exact not_mapUserRegion_of_present hne hread huser (haddress ▸ hsub) hread' hpresent offset mapped

end KernelMemory

namespace Kernel

variable {start : Startup} {s s' : Running} {map : MemoryMap}
  {a₀ : FrameAllocator}

/-! ## The invariant -/

/-- The memory is partitioned, and the page tables are those of the kernel, perhaps with user space
added. -/
structure Safe (start : Startup) (a₀ : FrameAllocator) (s : Running) : Prop where
  partitioned : ∃ S run, Partitioned a₀ S run (s.region start) s.machine.frames
  tables : s.arena = start.arena ∨
    ∃ ptCount mappings, UserMapped start.arena 7 ptCount mappings s.arena

/-- Right after the start, only the heap and the stacks for exceptions are there. -/
lemma safe_start (hfresh : Fresh map a₀) {frames frames' : FrameAllocator} {k : ℕ}
    (hheap : start.layout.heap = (a₀.addressOf k, heapSize))
    (hlent : Lent a₀ (Finset.Ico k (k + heapSize / pageSize)) frames)
    (halloc : frames.allocContiguous 2 = .ok (some start.ist, frames')) {stack : PhysRange}
    {trampoline : ℕ} (hboot : Machine.boot frames' stack trampoline = .ok start.machine) :
    Safe start a₀ start.running := by
  obtain ⟨hslots, hcalls, hframes⟩ := boot_eq hboot
  refine ⟨?_, .inl rfl⟩
  have hempty : Portions ∅ (runFrames ∘ fun _ : MemoryRegion => (none : Option (ℕ × ℕ))) :=
    ⟨fun _ => subset_rfl, fun _ _ _ => Finset.disjoint_empty_left _⟩
  have hportions := hempty.take .heap
    (Finset.disjoint_empty_left (Finset.Ico k (k + heapSize / pageSize)))
  rw [Finset.empty_union] at hportions
  have honly : Partitioned a₀ (Finset.Ico k (k + heapSize / pageSize))
      (Function.update (fun _ => none) .heap (some (k, heapSize / pageSize)))
      (Function.update (fun _ => none) MemoryRegion.heap
        (some ⟨start.layout.heap.1, start.layout.heap.2⟩)) frames := by
    refine ⟨hlent, ?_, ?_⟩
    · rw [Function.comp_update]
      exact hportions
    · have hrange : runRange a₀ (k, heapSize / pageSize) = ⟨a₀.addressOf k, heapSize⟩ := by
        rw [runRange, show heapSize / pageSize * pageSize = heapSize by decide]
      rw [Function.comp_update, hheap, Option.map_some, hrange]
      rfl
  obtain ⟨S, run, h⟩ := honly.move hfresh (.take .ist halloc)
  have hregion : start.running.region start = Function.update (Function.update (fun _ => none)
      .heap (some ⟨start.layout.heap.1, start.layout.heap.2⟩)) .ist (some start.ist) := by
    funext R
    cases R with
    | heap => rfl
    | ist => rfl
    | loan n => rfl
    | stack i =>
      change (start.machine.slots i).stack = none
      rw [hslots]
      rfl
    | call t =>
      change (start.machine.calls t).stack = none
      rw [hcalls]
      rfl
  refine ⟨S, run, ?_⟩
  rw [hregion]
  change Partitioned a₀ S run _ start.machine.frames
  rw [hframes]
  exact h

/-- Every step keeps the invariant. -/
lemma Safe.step (hfresh : Fresh map a₀) {info : BootInfo} {arena : TableArena}
    (hbuilt : Built arena map .m2 start.tables start.arena) (h : Safe start a₀ s)
    (hstep : Running.Step info s s') : Safe start a₀ s' := by
  obtain ⟨S, run, hpartitioned⟩ := h.partitioned
  cases hstep with
  | event e hstep => exact ⟨hpartitioned.moves hfresh (moves_of_step hstep), h.tables⟩
  | @alloc n count range frames hn halloc =>
    refine ⟨?_, h.tables⟩
    obtain ⟨S', run', h'⟩ := hpartitioned.move hfresh (.take (.loan n) halloc)
    refine ⟨S', run', ?_⟩
    rw [Running.region, regions_update_loans]
    exact h'
  | @free n range result frames hn hfree =>
    refine ⟨?_, h.tables⟩
    have howner : s.region start (.loan n) = some range := hn
    obtain ⟨S', run', h'⟩ := hpartitioned.move hfresh (.give (.loan n) howner hfree)
    refine ⟨S', run', ?_⟩
    rw [Running.region, regions_update_loans]
    exact h'
  | @map n stack mapped arena' hn hmap =>
    refine ⟨⟨S, run, hpartitioned⟩, .inr ?_⟩
    have hpages : kernelTablePages = 7 := by decide
    rcases h.tables with hsame | ⟨ptCount, mappings, hmapped⟩
    · rw [hsame, hpages] at hmap
      obtain ⟨ptCount, hmapped⟩ :=
        userMapped_of_mapUserRegion hbuilt.kernelTables (by norm_num) (List.cons_ne_nil _ _) hmap
      exact ⟨ptCount, _, hmapped⟩
    · have haligned := (hmapped.identityTables hbuilt).aligned
      exact absurd hmap
        (hmapped.not_mapUserRegion (by norm_num) haligned (List.cons_ne_nil _ _) _ _)

/-- The page tables map a byte in a frame that may be handed out. -/
lemma Safe.usableAt (h : Safe start a₀ s) {arena : TableArena} {reserved : List ReservedRange}
    (hbuilt : Built arena map .m2 start.tables start.arena)
    (hinitial : Initial map reserved (.new (min start.tables.limit maxIdentityBytes)) a₀) {k q : ℕ}
    (hk : k ∈ a₀.freeSet) (hle : a₀.addressOf k ≤ q) (hlt : q < a₀.addressOf k + pageSize) :
    UsableAt s.arena start.tables q := by
  obtain ⟨hframe, hfree⟩ := mem_freeSet.mp hk
  rw [hinitial.fresh.freeAt_eq hframe] at hfree
  have husable := usableAt_of_allocatable hbuilt hinitial hframe hfree hle hlt
  rcases h.tables with hsame | ⟨ptCount, mappings, hmapped⟩
  · rwa [hsame]
  · obtain ⟨hlow, hlimit, t, hwalk, hphys, hwritable⟩ := husable
    obtain ⟨-, -, hcover⟩ := hbuilt.covers (by decide)
    rw [pdCount_m2] at hcover
    refine ⟨hlow, hlimit, t, ?_, hphys, hwritable⟩
    rw [hmapped.walk_low hbuilt (by omega)]
    exact hwalk

/-- No region meets the memory given at boot. -/
lemma Safe.not_meets_bootMemory (h : Safe start a₀ s) {info : BootInfo} {statics : Statics}
    {config : Config} (hinitial : Initial map (ownedRanges info statics) config a₀)
    {R : MemoryRegion} {r given : PhysRange} (hR : s.region start R = some r)
    (hgiven : given ∈ bootMemory info statics) : ¬ Meets r given := by
  rintro ⟨q, hq, hq'⟩
  obtain ⟨S, run, hpartitioned⟩ := h.partitioned
  obtain ⟨i, hi, hle, hlt⟩ := hpartitioned.exists_frame hR hq
  have hfree := hpartitioned.lent.subset (hpartitioned.portions.subset R hi)
  refine not_has_bootMemory (addressOf_add_lt (mem_freeSet.mp hfree).1) ?_ hle hlt hgiven hq'
  exact fun r hr => hinitial.apart_of_reserved hr hfree

/-- The invariant holds in every state of every run. -/
lemma exists_safe {p : Platform} (hstart : Returns (startUp p) start)
    (hrun : Relation.ReflTransGen (Running.Step p.info) start.running s) :
    ∃ map a₀, Built p.arena map .m2 start.tables start.arena ∧
      Initial map (ownedRanges p.info p.statics) (.new (min start.tables.limit maxIdentityBytes))
        a₀ ∧ Safe start a₀ s := by
  obtain ⟨-, hinstall, frames, frames', hallocators, halloc, hboot⟩ := startUp_returns hstart
  obtain ⟨-, -, map, hmap, hbuild, -⟩ := install_returns_iff.mp hinstall
  have hbuilt := built_of_build hbuild
  obtain ⟨map', a₀, k, hmap', hinit, hheap, -, hlent⟩ := initAllocators_returns hallocators
  rw [hmap] at hmap'
  obtain rfl := Except.ok.inj hmap'
  have hinitial := initial_of_init hinit
  refine ⟨map, a₀, hbuilt, hinitial, ?_⟩
  induction hrun with
  | refl => exact safe_start hinitial.fresh hheap hlent halloc hboot
  | tail _ hstep ih => exact ih.step hinitial.fresh hbuilt hstep

/-! ## The main theorem -/

/-- **The memory of the kernel is partitioned.**  Let the start of the kernel succeed.  Then threads
create threads, exit and are reaped, the boot thread allocates and frees frames and adds user space,
and interrupts arrive between any two steps, in every order.  In every state no two of the regions
that are in use have a byte in common; no region meets the memory given at boot, hence not the boot
stack either (the user image is not among it); the page tables map every byte of every region at its
own address and writable; and no free frame meets a region. -/
theorem kernel_memory_partitioned (p : Platform) (start : Startup)
    (hstart : Returns (startUp p) start) (s : Running)
    (hrun : Relation.ReflTransGen (Running.Step p.info) start.running s) :
    (∀ R R' r r', R ≠ R' → s.region start R = some r → s.region start R' = some r' →
      ¬ Meets r r') ∧
    (∀ R r, s.region start R = some r →
      (∀ given ∈ bootMemory p.info p.statics, ¬ Meets r given) ∧
      (∀ q, Has r q → UsableAt s.arena start.tables q) ∧
      ∀ k ∈ s.machine.frames.freeSet, ¬ Meets ⟨s.machine.frames.addressOf k, pageSize⟩ r) := by
  obtain ⟨map, a₀, hbuilt, hinitial, hsafe⟩ := exists_safe hstart hrun
  obtain ⟨S, run, h⟩ := hsafe.partitioned
  constructor
  · rintro R R' r r' hne hR hR' ⟨q, hq, hq'⟩
    obtain ⟨i, hi, hle, hlt⟩ := h.exists_frame hR hq
    obtain ⟨j, hj, hle', hlt'⟩ := h.exists_frame hR' hq'
    obtain rfl := frame_unique hle hlt hle' hlt'
    exact Finset.disjoint_left.mp (h.portions.disjoint R R' hne) hi hj
  · intro R r hR
    refine ⟨?_, ?_, ?_⟩
    · exact fun given hgiven => hsafe.not_meets_bootMemory hinitial hR hgiven
    · intro q hq
      obtain ⟨i, hi, hle, hlt⟩ := h.exists_frame hR hq
      exact hsafe.usableAt hbuilt hinitial (h.lent.subset (h.portions.subset R hi)) hle hlt
    · rintro j hj ⟨q, hq, hq'⟩
      obtain ⟨i, hi, hle, hlt⟩ := h.exists_frame hR hq'
      rw [Has, h.lent.addressOf_eq] at hq
      obtain rfl := frame_unique hle hlt hq.1 hq.2
      exact (h.lent.freeAt_eq_true_iff.mp (mem_freeSet.mp hj).2).2 (h.portions.subset R hi)

/-! ## A small machine -/

/-- A machine with conventional memory from 0 to 0x208000. -/
def widePlatform : Platform where
  info := { smallBoot 0x80000 0x2000 with rsdp := 0xE0000 }
  statics := lowStatics
  arena := lowArena
  bitmap := lowBitmap
  mmap := wideTable
  contents := zeroArena heapSize (by decide)
  contents_length := List.length_replicate
  blockLayout := optionWords
  vecLayout := vecWords
  control := pagingMode
  gdtBase := 0x21000
  tssBase := 0x20000
  sgdt := ⟨63, 0x21000⟩
  trampoline := 0x10000

/-- The first two frames behind the heap become the stacks for exceptions, and the next four can be
allocated. -/
lemma initAllocators_widePlatform :
    (initAllocators widePlatform.info lowStatics lowBitmap wideTable 0x208000).returnsAnd
      (fun r => Checked.okAnd (r.2.allocContiguous 2) fun q =>
        decide (q.1 = some ⟨0x200000, 0x2000⟩) && Checked.okAnd (q.2.allocContiguous 4) fun q =>
          decide (q.1 = some ⟨0x202000, 0x4000⟩)) = true := by
  decide +kernel

/-- The page tables of this machine. -/
lemma install_widePlatform : ∃ tables arena, tables.limit = 0x208000 ∧
    Returns (install pagingMode widePlatform.info lowArena wideTable) (tables, arena) := by
  obtain ⟨map, hmap, htop⟩ := exists_wideMap 0x80000 0x2000
  have hlength : lowArena.bytes.length = arenaPages * pageSize := List.length_replicate
  have hbuildable : Buildable lowArena map .m2 0x208000 :=
    ⟨by decide, by decide, by decide, by rw [hlength]; decide, htop, by decide⟩
  obtain ⟨tables, arena, hbuild, hbuilt⟩ := build_spec hbuildable
  have hmap' : bootInfoMemoryMap widePlatform.info wideTable = .ok map := hmap
  refine ⟨tables, arena, ?_, ?_⟩
  · obtain ⟨top, htop', hlimit⟩ := hbuilt.limit_eq
    rw [htop] at htop'
    obtain rfl := Option.some.inj htop'
    exact hlimit
  · exact install_returns_iff.mpr
      ⟨checkCpuMode_pagingMode, by decide, map, hmap', hbuild, by decide⟩

/-- The kernel starts on this machine, and the boot thread can allocate four frames. -/
lemma startUp_widePlatform : ∃ start frames, Returns (startUp widePlatform) start ∧
    start.machine.frames.allocContiguous 4 = .ok (some ⟨0x202000, 0x4000⟩, frames) := by
  have haccepted : widePlatform.Accepted :=
    ⟨by decide, by decide, by decide, by decide, by decide, rfl, by decide⟩
  obtain ⟨tables, arena, hlimit, hinstall⟩ := install_widePlatform
  obtain ⟨⟨layout, frames⟩, hinit, hfacts⟩ :=
    returnsAnd_eq_true_iff.mp initAllocators_widePlatform
  obtain ⟨⟨ist, frames₁⟩, hist, hfacts⟩ := Checked.okAnd_eq_true_iff.mp hfacts
  simp only [Bool.and_eq_true, decide_eq_true_eq] at hfacts
  obtain ⟨rfl, hfacts⟩ := hfacts
  obtain ⟨⟨stack, frames₂⟩, hstack, hfacts⟩ := Checked.okAnd_eq_true_iff.mp hfacts
  obtain rfl := of_decide_eq_true hfacts
  rw [← hlimit] at hinit
  obtain ⟨map, a₀, i, -, hinit₀, -, -, hlent⟩ := initAllocators_returns hinit
  obtain ⟨k, -, hrun, -⟩ := hlent.of_allocContiguous (initial_of_init hinit₀).fresh hist
  obtain ⟨start, frames', hstart, hist', hframes⟩ :=
    exists_startUp haccepted hinstall hinit hrun
  rw [hist] at hist'
  obtain ⟨-, rfl⟩ := Prod.mk.inj (Except.ok.inj hist')
  exact ⟨start, frames₂, hstart, hframes ▸ hstack⟩

/-- On this machine the boot thread allocates the stack of the user service. -/
theorem kernel_memory_partitioned_wide : ∃ start s, Returns (startUp widePlatform) start ∧
    Relation.ReflTransGen (Running.Step widePlatform.info) start.running s ∧
    s.region start (.loan 0) = some ⟨0x202000, 0x4000⟩ ∧
    ¬ Meets ⟨0x202000, 0x4000⟩ start.ist ∧ UsableAt s.arena start.tables 0x202000 := by
  obtain ⟨start, frames, hstart, halloc⟩ := startUp_widePlatform
  have hstep : Running.Step widePlatform.info start.running
      { start.running with
        machine := { start.machine with frames := frames }
        loans := Function.update start.running.loans 0 (some ⟨0x202000, 0x4000⟩) } :=
    .alloc rfl halloc
  have hrun := Relation.ReflTransGen.single hstep
  obtain ⟨hapart, huse⟩ := kernel_memory_partitioned widePlatform start hstart _ hrun
  refine ⟨start, _, hstart, hrun, rfl, ?_, ?_⟩
  · exact hapart (.loan 0) .ist _ _ (fun hcon => MemoryRegion.noConfusion hcon) rfl rfl
  · exact (huse (.loan 0) _ rfl).2.1 0x202000 ⟨le_rfl, by decide⟩

end Kernel

end ParanukOS
