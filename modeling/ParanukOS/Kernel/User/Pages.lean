import ParanukOS.Kernel.User.Image

/-!
# The pages of user mode

The boot loader allocates the pages of the segments of the user image, and the kernel maps the whole
range from the first to the last of them.  Pages between the segments are not the loader's: whatever
lies there can be read in user mode.  Without such pages, user mode has access to its own pages
only.  The frame allocator does not know of the user image, so that the heap is out of reach only if
it does not overlap the image.

## Outline

* `Visible`, `exists_translates_iff`: the pages that user mode sees.
* `NoGap`, `ownPages_iff`: user mode sees its own pages only.
* `Handoff.kernelPages_apart`, `Handoff.bootStack_apart`: the memory of the kernel.
* `Isolated`: the kernel is out of reach of user mode.
* `user_pages_own_iff`: the main theorem.
-/

namespace ParanukOS

open Foundation Foundation.Fallible KernelMemory Bootloader FrameAllocator
open KernelImage hiding pageSize

namespace Kernel

variable {φ : Type} {fw : Firmware φ} {kernelFile userFile bitmap bytes : Slice UInt8} {ram : Ram φ}
  {boot : Boot φ} {info : BootInfo} {statics : Statics} {arena₀ arena arena' : TableArena}
  {tables : PageTables} {layout : MemoryLayout} {frames frames' : FrameAllocator}
  {stack : PhysRange} {mapped : Mapped}

/-- The pages of the image that user mode sees: the range from the first to the last segment, except
for the pages over which the stack is mapped. -/
structure Visible (info : BootInfo) (stack : PhysRange) (page : ℕ) : Prop where
  dvd : pageSize ∣ page
  le : info.userPhys.toNat ≤ page
  lt : page < info.userPhys.toNat + info.userSize.toNat
  uncovered : ¬ (stackMapping stack).Covers (info.userVaddr.toNat + (page - info.userPhys.toNat))

/-- Every page of the image that user mode sees belongs to a segment or to the stack. -/
def NoGap (file : Slice UInt8) (info : BootInfo) (stack : PhysRange) : Prop :=
  ∀ page, Visible info stack page →
    (∃ segment ∈ loads file, HasPage segment page) ∨ Has stack page

/-- User mode has access to the pages that have been allocated for its segments and to its stack. -/
def OwnPages (boot : Boot φ) (stack : PhysRange) (arena : TableArena) (root : ℕ) : Prop :=
  ∀ va p, Translates arena root va p → pageOf p ∈ boot.userPages ∨ Has stack p

/-- The boot stack. -/
def bootStackRange (info : BootInfo) : PhysRange :=
  ⟨info.stackTop.toNat - info.stackSize.toNat, info.stackSize.toNat⟩

/-- `PAGE_ARENA`. -/
def arenaRange (statics : Statics) : PhysRange := ⟨statics.arena.toNat, arenaBytes⟩

/-- User mode has access to its own pages only, and to nothing of the kernel image, the boot stack,
the page table arena and the heap. -/
structure Isolated (boot : Boot φ) (info : BootInfo) (statics : Statics) (layout : MemoryLayout)
    (stack : PhysRange) (arena : TableArena) (root : ℕ) : Prop where
  own : OwnPages boot stack arena root
  kernel : ∀ va p, Translates arena root va p → pageOf p ∉ boot.kernelPages
  bootStack : ∀ va p, Translates arena root va p → ¬ Has (bootStackRange info) p
  tables : ∀ va p, Translates arena root va p → ¬ Has (arenaRange statics) p
  heap : ∀ va p, Translates arena root va p → ¬ Has (heapRange layout) p

/-- The pages of the segments are those that have been allocated. -/
lemma Handoff.mem_userPages_iff (h : Handoff fw kernelFile userFile ram boot info) {page : ℕ} :
    page ∈ boot.userPages ↔ ∃ segment ∈ loads userFile, HasPage segment page := by
  obtain ⟨s, s', -, -, huser, hpages, -⟩ := h.loaded
  rw [hpages]
  exact huser.state.mem_iff page

/-- The physical addresses that user mode can access: the stack and the visible pages. -/
lemma exists_translates_iff (hhandoff : Handoff fw kernelFile userFile ram boot info)
    (hready : Ready info statics bitmap bytes arena₀ tables arena layout frames)
    (hmap : mapImage info frames arena = .ok (.ok (stack, mapped), frames', arena')) (p : ℕ) :
    (∃ va, Translates arena' tables.pml4Phys va p) ↔
      Has stack p ∨ Visible info stack (pageOf p) := by
  obtain ⟨haccepted, htranslates⟩ := translates_iff hhandoff hready hmap
  obtain ⟨hlen, -, -⟩ := stack_spec hready (mapImage_eq_ok_iff.mp hmap).2.1
  have hvaddr : info.userVaddr.toNat % 4096 = 0 := haccepted.vaddr_mod
  have hpaddr : info.userPhys.toNat % 4096 = 0 := haccepted.paddr_mod
  have hsize : info.userSize.toNat % 4096 = 0 := haccepted.size_mod
  obtain ⟨size, hstackSize⟩ : ∃ size, userStackPages * 4096 = size := ⟨_, rfl⟩
  have hmod : size % 4096 = 0 := by rw [← hstackSize]; decide
  have hstart : userStackVa % 4096 = 0 := by decide
  rw [hstackSize] at hlen
  have hcovers_iff : ∀ va, (stackMapping stack).Covers va ↔
      userStackVa ≤ va ∧ va < userStackVa + size := fun va => by rw [← hstackSize]; rfl
  have hbelow := pageOf_le p
  have habove : p < pageOf p + 4096 := lt_pageOf_add p
  have hdvd : 4096 ∣ pageOf p := Dvd.intro_left _ rfl
  simp only [htranslates]
  constructor
  · rintro ⟨va, htranslated⟩
    split_ifs at htranslated with hstack
    · rw [hcovers_iff] at hstack
      exact .inl ⟨by omega, by omega⟩
    · obtain ⟨⟨hle, hlt⟩, heq⟩ := htranslated
      have hle : info.userVaddr.toNat ≤ va := hle
      have hlt : va < info.userVaddr.toNat + info.userSize.toNat := hlt
      -- the stack is mapped in whole pages
      refine .inr ⟨hdvd, by omega, by omega, fun hcon => hstack ?_⟩
      rw [hcovers_iff] at hcon ⊢
      omega
  · rintro (⟨hle, hlt⟩ | hvisible)
    · refine ⟨userStackVa + (p - stack.start), ?_⟩
      rw [if_pos ((hcovers_iff _).mpr (by omega))]
      omega
    · obtain ⟨-, hle, hlt, huncovered⟩ := hvisible
      refine ⟨info.userVaddr.toNat + (p - info.userPhys.toNat), ?_⟩
      rw [if_neg fun hcon => huncovered ?_]
      · have hoffset : p - info.userPhys.toNat < info.userSize.toNat := by omega
        exact ⟨⟨Nat.le_add_right _ _, Nat.add_lt_add_left hoffset _⟩, by omega⟩
      · rw [hcovers_iff] at hcon ⊢
        omega

/-- A page of the stack. -/
lemma has_stack_pageOf (hready : Ready info statics bitmap bytes arena₀ tables arena layout frames)
    (halloc : frames.allocContiguous userStackPages = .ok (some stack, frames')) {p : ℕ} :
    Has stack (pageOf p) ↔ Has stack p := by
  obtain ⟨hlen, haligned, -⟩ := stack_spec hready halloc
  have hbelow := pageOf_le p
  have habove : p < pageOf p + 4096 := lt_pageOf_add p
  have hdvd : 4096 ∣ pageOf p := Dvd.intro_left _ rfl
  rw [pageSize] at haligned
  rw [Has, Has, hlen]
  omega

lemma ownPages_iff (hhandoff : Handoff fw kernelFile userFile ram boot info)
    (hready : Ready info statics bitmap bytes arena₀ tables arena layout frames)
    (hmap : mapImage info frames arena = .ok (.ok (stack, mapped), frames', arena')) :
    OwnPages boot stack arena' tables.pml4Phys ↔ NoGap userFile info stack := by
  have hstack : ∀ {p}, Has stack (pageOf p) ↔ Has stack p :=
    has_stack_pageOf hready (mapImage_eq_ok_iff.mp hmap).2.1
  have htranslates := exists_translates_iff hhandoff hready hmap
  constructor
  · intro hown page hvisible
    have hself : pageOf page = page := Nat.div_mul_cancel hvisible.dvd
    obtain ⟨va, htranslated⟩ := (htranslates page).mpr (.inr (hself.symm ▸ hvisible))
    rw [← hhandoff.mem_userPages_iff, ← hself, hstack]
    exact hself.symm ▸ hown va page htranslated
  · intro hgap va p htranslated
    rcases (htranslates p).mp ⟨va, htranslated⟩ with hhas | hvisible
    · exact .inr hhas
    · rw [hhandoff.mem_userPages_iff, ← hstack]
      exact hgap _ hvisible

/-- What user mode sees of some memory that the stack has nothing in common with. -/
lemma apart_iff (hhandoff : Handoff fw kernelFile userFile ram boot info)
    (hready : Ready info statics bitmap bytes arena₀ tables arena layout frames)
    (hmap : mapImage info frames arena = .ok (.ok (stack, mapped), frames', arena'))
    {range : PhysRange} (hstack : ∀ p, Has stack p → ¬ Has range p) :
    (∀ va p, Translates arena' tables.pml4Phys va p → ¬ Has range p) ↔
      ∀ page, Visible info stack page → ¬ Meets ⟨page, pageSize⟩ range := by
  have htranslates := exists_translates_iff hhandoff hready hmap
  constructor
  · rintro happart page hvisible ⟨p, ⟨hle, hlt⟩, hp⟩
    have hpage : pageOf p = page := pageOf_eq_of_mem hvisible.dvd hle hlt
    obtain ⟨va, htranslated⟩ := (htranslates p).mpr (.inr (hpage.symm ▸ hvisible))
    exact happart va p htranslated hp
  · intro hvisible va p htranslated hp
    rcases (htranslates p).mp ⟨va, htranslated⟩ with hhas | hpage
    · exact hstack p hhas hp
    · exact hvisible _ hpage ⟨p, ⟨pageOf_le p, lt_pageOf_add p⟩, hp⟩

/-! ## The memory of the kernel -/

namespace Handoff

/-- The pages of the user image have been allocated after those of the kernel. -/
lemma kernelPages_apart (h : Handoff fw kernelFile userFile ram boot info) {page : ℕ}
    (hpage : page ∈ boot.userPages) : page ∉ boot.kernelPages := by
  obtain ⟨s, s', hkernel, hkernelPages, huser, huserPages, -⟩ := h.loaded
  rw [huserPages] at hpage
  have hfresh := huser.state.pages.fresh page hpage
  rw [hkernel.state.pages.allocated_eq, Finset.mem_union, not_or, List.mem_toFinset] at hfresh
  rw [hkernelPages]
  exact hfresh.2

/-- The pages of the kernel lie in the range that the boot information has. -/
lemma has_kernel (h : Handoff fw kernelFile userFile ram boot info) {p : ℕ}
    (hpage : pageOf p ∈ boot.kernelPages) :
    Has ⟨info.kernelBase.toNat, info.kernelSize.toNat⟩ p := by
  obtain ⟨s, s', hkernel, hkernelPages, -⟩ := h.loaded
  rw [hkernelPages] at hpage
  obtain ⟨segment, hsegment, hdvd, hle, hlt⟩ := (hkernel.state.mem_iff _).mp hpage
  obtain ⟨hbase, hstop⟩ := hkernel.span.bounds segment hsegment
  have hword := hkernel.span.stop_lt
  obtain ⟨map, exitPort, henter⟩ := h.enters
  have hdescribes := describes_of_enterKernel henter
  have hkernelBase : info.kernelBase.toNat = boot.kernel.base := by
    rw [hdescribes.kernelBase_eq]
    exact UInt64.toNat_ofNat_of_lt' (show boot.kernel.base < 2 ^ 64 by omega)
  have hkernelSize : info.kernelSize.toNat = boot.kernel.size := by
    rw [hdescribes.kernelSize_eq]
    exact UInt64.toNat_ofNat_of_lt' (show boot.kernel.size < 2 ^ 64 by omega)
  rw [hkernelBase, hkernelSize]
  have hbelow := pageOf_le p
  have habove := lt_pageOf_add p
  have hmul : KernelImage.pageSize ∣ segment.pageStop := Dvd.intro_left _ rfl
  simp only [KernelImage.pageSize] at hdvd habove hmul
  refine ⟨show boot.kernel.base ≤ p from ?_, ?_⟩
  · exact hbase.trans (hle.trans hbelow)
  · exact show p < boot.kernel.base + boot.kernel.size by omega

/-- The boot stack has been allocated after the user image. -/
lemma bootStack_apart (h : Handoff fw kernelFile userFile ram boot info) {p : ℕ}
    (hp : Has (bootStackRange info) p) : pageOf p ∉ boot.userPages := by
  obtain ⟨s, s', -, -, huser, huserPages, rsdp, hprepare⟩ := h.loaded
  rw [prepare] at hprepare
  cases hstack : fw.allocateAny s'.ram (kernelStackSize / KernelImage.pageSize) with
  | error status =>
    rw [hstack] at hprepare
    exact absurd hprepare not_returns_throw
  | ok result =>
    obtain ⟨stackBase, ram₁⟩ := result
    rw [hstack] at hprepare
    obtain ⟨stackTop, htop, hprepare⟩ := returns_bind.mp hprepare
    obtain ⟨hword, rfl⟩ := addWord_eq_ok_iff.mp (returns_lift.mp htop)
    cases hinfo : fw.allocateAny ram₁ 1 with
    | error status =>
      rw [hinfo] at hprepare
      exact absurd hprepare not_returns_throw
    | ok result =>
      obtain ⟨bootInfo, ram₂⟩ := result
      rw [hinfo] at hprepare
      obtain ⟨hprepared, -⟩ := Prod.mk.inj (returns_pure.mp hprepare)
      obtain ⟨map, exitPort, henter⟩ := h.enters
      have hdescribes := describes_of_enterKernel henter
      rw [← hprepared] at hdescribes
      have hstackTop : info.stackTop.toNat = stackBase + kernelStackSize := by
        rw [hdescribes.stackTop_eq]
        exact UInt64.toNat_ofNat_of_lt' hword
      have hstackSize : info.stackSize.toNat = kernelStackSize := by
        rw [hdescribes.stackSize_eq]
        rfl
      obtain ⟨hle, hlt⟩ := hp
      simp only [bootStackRange, hstackTop, hstackSize, Nat.add_sub_cancel] at hle hlt
      -- the page is one of the stack
      have hdvd := fw.dvd_of_any _ _ _ _ hstack
      have hnot := fw.notMem_of_any _ _ _ _ hstack ((p - stackBase) / KernelImage.pageSize)
      have hpage : stackBase + (p - stackBase) / KernelImage.pageSize * KernelImage.pageSize =
          pageOf p := by
        rw [pageOf]
        simp only [KernelImage.pageSize] at hdvd ⊢
        omega
      rw [hpage, huser.state.pages.allocated_eq, Finset.mem_union, not_or,
        List.mem_toFinset] at hnot
      rw [huserPages]
      refine (hnot ?_).2
      rw [Nat.div_lt_iff_lt_mul (by decide)]
      have hsize :
          kernelStackSize / KernelImage.pageSize * KernelImage.pageSize = kernelStackSize := by
        decide
      omega

end Handoff

/-- An address lies in one frame only. -/
lemma eq_of_mem_frame (a₀ : FrameAllocator) {i j p : ℕ} (hi : a₀.addressOf i ≤ p)
    (hi' : p < a₀.addressOf i + pageSize) (hj : a₀.addressOf j ≤ p)
    (hj' : p < a₀.addressOf j + pageSize) : i = j := by
  simp only [addressOf, pageSize] at hi hi' hj hj'
  omega

section Kernel

variable {map : MemoryMap} {a₀ : FrameAllocator} {S : Finset ℕ} {start : ℕ}

/-- The frame of the heap that an address lies in. -/
lemma ReadySpec.heap_frame
    (h : ReadySpec info statics bytes arena₀ tables arena layout map a₀ S start frames) {p : ℕ}
    (hp : Has (heapRange layout) p) :
    ∃ i ∈ S, a₀.addressOf i ≤ p ∧ p < a₀.addressOf i + pageSize := by
  rw [heapRange, h.heap_eq] at hp
  obtain ⟨hle, hlt⟩ := hp
  have hsize : heapSize / pageSize * pageSize = heapSize := by decide
  obtain ⟨k, hk, hlow, hhigh⟩ := @exists_frame_of_lt (heapSize / pageSize) a₀ start p hle
    (by rw [hsize]; exact hlt)
  exact ⟨start + k, h.heap_subset (Finset.mem_Ico.mpr ⟨Nat.le_add_right _ _,
    Nat.add_lt_add_left hk start⟩), hlow, hhigh⟩

/-- The stack of the service has nothing in common with the heap. -/
lemma ReadySpec.stack_heap
    (h : ReadySpec info statics bytes arena₀ tables arena layout map a₀ S start frames)
    (halloc : frames.allocContiguous userStackPages = .ok (some stack, frames')) {p : ℕ}
    (hp : Has stack p) : ¬ Has (heapRange layout) p := by
  intro hheap
  obtain ⟨i, hi, hle, hlt⟩ := h.heap_frame hheap
  obtain ⟨k, rfl, hrun, -⟩ := h.lent.of_allocContiguous h.initial.fresh halloc
  obtain ⟨j, hj, hle', hlt'⟩ := a₀.exists_frame_of_lt hp.1 hp.2
  obtain rfl := eq_of_mem_frame a₀ hle hlt hle' hlt'
  exact h.lent.notMem_of_runAt hrun (Nat.le_add_right k j) (Nat.add_lt_add_left hj k) hi

/-- The stack of the service has nothing in common with the memory that the kernel has been
given. -/
lemma ReadySpec.stack_bootMemory
    (h : ReadySpec info statics bytes arena₀ tables arena layout map a₀ S start frames)
    (halloc : frames.allocContiguous userStackPages = .ok (some stack, frames')) {p : ℕ}
    (hp : Has stack p) {given : PhysRange} (hgiven : given ∈ bootMemory info statics) :
    ¬ Has given p := by
  obtain ⟨k, hk, hle, hlt⟩ := exists_frame_of_allocContiguous h.initial.fresh h.lent halloc hp
  refine not_has_bootMemory (addressOf_add_lt (mem_freeSet.mp hk).1) ?_ hle hlt hgiven
  exact fun r hr => h.initial.apart_of_reserved hr hk

/-- The heap lies above the first MiB. -/
lemma ReadySpec.minFreeAddr_le
    (h : ReadySpec info statics bytes arena₀ tables arena layout map a₀ S start frames) {p : ℕ}
    (hp : Has (heapRange layout) p) : minFreeAddr ≤ p := by
  obtain ⟨i, -, hle, -⟩ := h.heap_frame hp
  refine le_trans ?_ hle
  rw [addressOf, h.initial.firstFrame_eq]
  exact le_trans (show minFreeAddr ≤ divCeil minFreeAddr pageSize * pageSize by decide)
    (Nat.mul_le_mul_right _ (Nat.le_add_right _ i))

/-- The frames of the heap start in conventional memory. -/
lemma ReadySpec.heap_conventional
    (h : ReadySpec info statics bytes arena₀ tables arena layout map a₀ S start frames) {p : ℕ}
    (hp : Has (heapRange layout) p) :
    ∃ r ∈ map.regions, r.kind = .conventional ∧ r.Contains (pageOf p) := by
  obtain ⟨i, hi, hle, hlt⟩ := h.heap_frame hp
  obtain ⟨hframe, hfree⟩ := mem_freeSet.mp (h.lent.subset hi)
  rw [h.initial.fresh.freeAt_eq hframe] at hfree
  have hpage : pageOf p = a₀.addressOf i := pageOf_eq_of_mem (Dvd.intro_left _ rfl) hle hlt
  rw [hpage]
  exact h.initial.fresh.conventional i hframe hfree

end Kernel

/-- The parts of a start of the service. -/
lemma parts_of_init {system system' : System} {id : ℕ}
    (h : system.init info = .ok (.ok id, system')) : ∃ stack mapped frames',
      mapImage info system.machine.frames system.arena =
        .ok (.ok (stack, mapped), frames', system'.arena) ∧
      { system.machine with frames := frames' }.perform system.machine.sched.current
        (.createUser info.userEntry.toNat (userStackVa + 4096 * userStackPages)) =
          .ok system'.machine ∧
      system'.machine.result system.machine.sched.current = some (.ok id) := by
  rw [System.init] at h
  obtain ⟨⟨result, frames', arena'⟩, hmap, h⟩ := Checked.bind_eq_ok.mp h
  cases result with
  | error e => cases h
  | ok value =>
    obtain ⟨stack, mapped⟩ := value
    obtain ⟨machine, hperform, h⟩ := Checked.bind_eq_ok.mp h
    refine ⟨stack, mapped, frames', ?_⟩
    rw [hmap]
    simp only at h hperform
    split at h
    · rename_i hresult
      obtain ⟨hid, rfl⟩ := Prod.mk.inj (Except.ok.inj h)
      obtain rfl := Except.ok.inj hid
      exact ⟨rfl, hperform, hresult⟩
    · cases h
    · cases h

/-- The start of the service from its parts. -/
lemma init_of_parts {system : System} {machine : Machine} {id : ℕ}
    (hmap : mapImage info system.machine.frames system.arena =
      .ok (.ok (stack, mapped), frames', arena'))
    (hperform : { system.machine with frames := frames' }.perform system.machine.sched.current
      (.createUser info.userEntry.toNat (userStackVa + 4096 * userStackPages)) = .ok machine)
    (hresult : machine.result system.machine.sched.current = some (.ok id)) :
    system.init info = .ok (.ok id, ⟨machine, arena', some id⟩) := by
  simp only [System.init, hmap, Checked.ok_bind]
  rw [hperform, Checked.ok_bind, hresult]
  rfl

/-- **The pages of user mode.**  Let the boot loader load the kernel and the user image, and let the
kernel start the service with the stack that the frame allocator gives.  User mode has access to the
pages that have been allocated for the segments of the user image and to its stack, and to nothing
else, if and only if the image has no gap.  It has no access to the memory of the kernel either, if
and only if moreover no visible page of the image lies in the page table arena or in the heap.  If
the arena lies in the kernel image, and the memory map does not call the user image free memory,
then this is so whenever there is no gap. -/
theorem user_pages_own_iff {φ : Type} (fw : Firmware φ) (kernelFile userFile : Slice UInt8)
    (ram : Ram φ) (boot : Boot φ) (info : BootInfo)
    (hhandoff : Handoff fw kernelFile userFile ram boot info) (statics : Statics)
    (bitmap bytes : Slice UInt8) (arena₀ : TableArena) (tables : PageTables) (layout : MemoryLayout)
    (system system' : System)
    (hready : Ready info statics bitmap bytes arena₀ tables system.arena layout
      system.machine.frames) (id : ℕ) (hinit : system.init info = .ok (.ok id, system')) :
    ∃ stack frames',
      system.machine.frames.allocContiguous userStackPages = .ok (some stack, frames') ∧
      (OwnPages boot stack system'.arena tables.pml4Phys ↔ NoGap userFile info stack) ∧
      (Isolated boot info statics layout stack system'.arena tables.pml4Phys ↔
        NoGap userFile info stack ∧ ∀ page, Visible info stack page →
          ¬ Meets ⟨page, pageSize⟩ (arenaRange statics) ∧
          ¬ Meets ⟨page, pageSize⟩ (heapRange layout)) ∧
      ((∀ q, Has (arenaRange statics) q → pageOf q ∈ boot.kernelPages) →
        (∀ map, bootInfoMemoryMap info bytes = .ok map → ∀ page ∈ boot.userPages,
          ∀ r ∈ map.regions, r.kind = .conventional → ¬ r.Contains page) →
        (Isolated boot info statics layout stack system'.arena tables.pml4Phys ↔
          NoGap userFile info stack)) := by
  obtain ⟨stack, mapped, frames', hmap, -⟩ := parts_of_init hinit
  obtain ⟨-, halloc, -⟩ := mapImage_eq_ok_iff.mp hmap
  have hown := ownPages_iff hhandoff hready hmap
  obtain ⟨map, a₀, S, start, hspec⟩ := hready.spec
  have hstack : ∀ range ∈ bootMemory info statics, ∀ p, Has stack p → ¬ Has range p :=
    fun range hrange p hp => hspec.stack_bootMemory halloc hp hrange
  have hkernel : ∀ p, pageOf p ∈ boot.userPages ∨ Has stack p → pageOf p ∉ boot.kernelPages := by
    rintro p (hpage | hp) hcon
    · exact hhandoff.kernelPages_apart hpage hcon
    · exact hstack _ List.mem_cons_self p hp (hhandoff.has_kernel hcon)
  have hbootStack : ∀ p, pageOf p ∈ boot.userPages ∨ Has stack p →
      ¬ Has (bootStackRange info) p := by
    rintro p (hpage | hp) hcon
    · exact hhandoff.bootStack_apart hcon hpage
    · exact hstack _ (List.mem_cons_of_mem _ List.mem_cons_self) p hp hcon
  have htables := apart_iff hhandoff hready hmap
    (hstack (arenaRange statics) (by simp [bootMemory, arenaRange]))
  have hheap := apart_iff hhandoff hready hmap fun p hp => hspec.stack_heap halloc hp
  have hisolated : Isolated boot info statics layout stack system'.arena tables.pml4Phys ↔
      NoGap userFile info stack ∧ ∀ page, Visible info stack page →
        ¬ Meets ⟨page, pageSize⟩ (arenaRange statics) ∧
        ¬ Meets ⟨page, pageSize⟩ (heapRange layout) := by
    constructor
    · exact fun h => ⟨hown.mp h.own, fun page hpage =>
        ⟨htables.mp h.tables page hpage, hheap.mp h.heap page hpage⟩⟩
    · rintro ⟨hgap, hvisible⟩
      have hpages := hown.mpr hgap
      exact {
        own := hpages
        kernel := fun va p htranslated => hkernel p (hpages va p htranslated)
        bootStack := fun va p htranslated => hbootStack p (hpages va p htranslated)
        tables := htables.mpr fun page hpage => (hvisible page hpage).1
        heap := hheap.mpr fun page hpage => (hvisible page hpage).2 }
  refine ⟨stack, frames', halloc, hown, hisolated, fun harena hfree => ?_⟩
  refine ⟨fun h => hown.mp h.own, fun hgap => ?_⟩
  have hpages := hown.mpr hgap
  refine hisolated.mpr ⟨hgap, fun page hpage => ⟨htables.mp ?_ page hpage, hheap.mp ?_ page hpage⟩⟩
  · exact fun va p htranslated hp => hkernel p (hpages va p htranslated) (harena p hp)
  · intro va p htranslated hp
    rcases hpages va p htranslated with hpage | hhas
    · obtain ⟨r, hr, hkind, hcontains⟩ := hspec.heap_conventional hp
      exact hfree map hspec.map_eq _ hpage r hr hkind hcontains
    · exact hspec.stack_heap halloc hhas hp

/-- On the small machine the service is started. -/
lemma exists_init {userPhys userSize : UInt64}
    (hmap : mapImage (smallBoot userPhys userSize) frames arena =
      .ok (.ok (stack, mapped), frames', arena'))
    (hcreates : createsService frames' = true) : ∃ system system' : System,
      system.machine.frames = frames ∧ system.arena = arena ∧ system'.arena = arena' ∧
        system.init (smallBoot userPhys userSize) = .ok (.ok 1, system') := by
  obtain ⟨m, hboot, hcreates⟩ := Checked.okAnd_eq_true_iff.mp hcreates
  obtain ⟨m', hperform, hresult⟩ := Checked.okAnd_eq_true_iff.mp hcreates
  have hm : m.frames = frames' ∧ m.sched.current = 0 := by
    obtain rfl := Except.ok.inj hboot
    exact ⟨rfl, rfl⟩
  obtain ⟨rfl, hcurrent⟩ := hm
  obtain ⟨result, hresult, hid⟩ := Option.bind_eq_some_iff.mp (of_decide_eq_true hresult)
  cases result with
  | error e => cases hid
  | ok id =>
    obtain rfl : id = 1 := Option.some.inj hid
    have hentry : (smallBoot userPhys userSize).userEntry.toNat = 0x100000000 := rfl
    refine ⟨⟨{ m with frames := frames }, arena, none⟩, ⟨m', arena', some 1⟩, rfl, rfl, rfl,
      init_of_parts hmap ?_ ?_⟩
    · rw [hcurrent, hentry]
      exact hperform
    · rw [hcurrent]
      exact hresult

/-- The visible pages of an image of two adjacent pages. -/
lemma visible_twoPages {stack : PhysRange} {page : ℕ}
    (h : Visible (smallBoot 0x80000 0x2000) stack page) : page = 0x80000 ∨ page = 0x81000 := by
  obtain ⟨hdvd, hle, hlt, -⟩ := h
  have hphys : (smallBoot 0x80000 0x2000).userPhys.toNat = 0x80000 := by decide
  have hsize : (smallBoot 0x80000 0x2000).userSize.toNat = 0x2000 := by decide
  rw [hphys] at hle hlt
  rw [hsize] at hlt
  rw [pageSize] at hdvd
  omega

/-- An image of two adjacent pages has no gap. -/
lemma noGap_twoPages {stack : PhysRange} :
    NoGap (twoPages 0x80000 0x100001000 0x81000) (smallBoot 0x80000 0x2000) stack := by
  intro page hvisible
  left
  rcases visible_twoPages hvisible with rfl | rfl
  · exact ⟨⟨176, 0x80000, userBase, 2, 2, 5⟩, by decide +kernel, by decide, by decide, by decide⟩
  · exact ⟨⟨178, 0x81000, 0x100001000, 1, 0x1000, 6⟩, by decide +kernel, by decide, by decide,
      by decide⟩

/-- User mode has access to the two pages and the stack only, although the memory map calls the two
pages free memory: they lie below the heap. -/
theorem user_pages_own_iff_twoPages : ∃ boot tables layout,
    ∃ system system' : System,
    Handoff grantFirmware lowKernel (twoPages 0x80000 0x100001000 0x81000) freshRam boot
      (smallBoot 0x80000 0x2000) ∧
    Ready (smallBoot 0x80000 0x2000) lowStatics lowBitmap wideTable lowArena tables system.arena
      layout system.machine.frames ∧
    system.init (smallBoot 0x80000 0x2000) = .ok (.ok 1, system') ∧
    Isolated boot (smallBoot 0x80000 0x2000) lowStatics layout ⟨0x200000, 0x4000⟩ system'.arena
      tables.pml4Phys := by
  obtain ⟨boot, hhandoff, -⟩ := handoff_of_bootsTo bootsTo_twoPages
  obtain ⟨tables, arena, layout, frames, frames', hready, halloc, hcreates, htables, hlength⟩ :=
    exists_ready 0x80000 0x2000
  obtain ⟨mapped, arena', hmap⟩ := @exists_mapImage (smallBoot 0x80000 0x2000) _ _ _ _ (by decide)
    ⟨by decide, by decide, by decide, by decide, by decide, by decide⟩ accepted_stackMapping
    (by decide +kernel) (by decide) (by decide) htables hlength halloc
  obtain ⟨system, system', rfl, rfl, rfl, hinit⟩ := exists_init hmap hcreates
  obtain ⟨stack, frames₁, halloc', -, hisolated, -⟩ :=
    user_pages_own_iff _ _ _ _ _ _ hhandoff _ _ _ _ _ _ _ _ hready _ hinit
  rw [halloc] at halloc'
  obtain ⟨hstack, -⟩ := Prod.mk.inj (Except.ok.inj halloc')
  obtain rfl := Option.some.inj hstack
  refine ⟨boot, tables, layout, system, system', hhandoff, hready, hinit,
    hisolated.mpr ⟨noGap_twoPages, fun page hvisible => ⟨?_, ?_⟩⟩⟩
  · rintro ⟨p, ⟨hle, -⟩, -, hlt⟩
    have hstop : lowStatics.arena.toNat + arenaBytes ≤ 0x80000 := by decide
    have hpage : 0x80000 ≤ page := by
      rcases visible_twoPages hvisible with rfl | rfl <;> decide
    exact absurd (hlt.trans_le hstop) (not_lt.mpr (hpage.trans hle))
  · rintro ⟨p, ⟨-, hlt⟩, hp⟩
    obtain ⟨map, a₀, S, start, hspec⟩ := hready.spec
    have hpage : page + pageSize ≤ minFreeAddr := by
      rcases visible_twoPages hvisible with rfl | rfl <;> decide
    exact absurd (hspec.minFreeAddr_le hp) (not_le.mpr (hlt.trans_le hpage))

/-- The kernel lies between the two segments of this user image.  User mode can read the first page
of the kernel, which belongs to the page table arena, too. -/
theorem user_mode_reads_kernel : ∃ boot tables layout,
    ∃ system system' : System,
    Handoff grantFirmware lowKernel (twoPages 0xf000 0x100072000 0x81000) freshRam boot
      (smallBoot 0xf000 0x73000) ∧
    Ready (smallBoot 0xf000 0x73000) lowStatics lowBitmap wideTable lowArena tables system.arena
      layout system.machine.frames ∧
    system.init (smallBoot 0xf000 0x73000) = .ok (.ok 1, system') ∧
    Translates system'.arena tables.pml4Phys 0x100001000 0x10000 ∧
    0x10000 ∈ boot.kernelPages ∧ Has (arenaRange lowStatics) 0x10000 ∧
    ¬ OwnPages boot ⟨0x200000, 0x4000⟩ system'.arena tables.pml4Phys := by
  obtain ⟨boot, hhandoff, hpages, hkernel⟩ := handoff_of_bootsTo
    (show bootsTo (twoPages 0xf000 0x100072000 0x81000) 0xf000 0x73000 [0xf000, 0x81000] = true by
      decide +kernel)
  obtain ⟨tables, arena, layout, frames, frames', hready, halloc, hcreates, htables, hlength⟩ :=
    exists_ready 0xf000 0x73000
  obtain ⟨mapped, arena', hmap⟩ := @exists_mapImage (smallBoot 0xf000 0x73000) _ _ _ _ (by decide)
    ⟨by decide, by decide, by decide, by decide, by decide, by decide⟩ accepted_stackMapping
    (by decide +kernel) (by decide) (by decide) htables hlength halloc
  obtain ⟨system, system', rfl, rfl, rfl, hinit⟩ := exists_init hmap hcreates
  have htranslated : Translates system'.arena tables.pml4Phys 0x100001000 0x10000 := by
    rw [(translates_iff hhandoff hready hmap).2, if_neg (by decide)]
    exact ⟨by decide, by decide⟩
  refine ⟨boot, tables, layout, system, system', hhandoff, hready, hinit, htranslated, hkernel,
    ⟨by decide, by decide⟩, fun hown => ?_⟩
  rcases hown _ _ htranslated with hpage | hstack
  · rw [hpages] at hpage
    exact absurd hpage (by decide)
  · exact absurd hstack.1 (by decide)

end Kernel

end ParanukOS
