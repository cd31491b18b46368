import ParanukOS.Bootloader.Handoff
import ParanukOS.Bootloader.Loaded
import ParanukOS.Kernel.Memory.Owned
import ParanukOS.Kernel.User.Model
import ParanukOS.KernelMemory.Paging.Isolation

/-!
# The user image in user space

The boot loader loads the segments of the user image at their physical addresses, the boot
information describes the whole image by one address, one length and one difference of addresses,
and the kernel maps this range and a stack.  The difference of virtual and physical address is the
one of the first segment, so that the others are where they are linked only if they have the same
one.

## Outline

* `Handoff`, `Ready`: the boot loader and the kernel until the service is started.
* `userVaddr_add`: the virtual address of the image.
* `Translates`, `translates_iff`: the walk after the service has been mapped.
* `LinkedAlike`, `user_image_linked_iff`: when the image appears at its linked addresses.
-/

namespace ParanukOS

open Foundation Foundation.Fallible KernelMemory Bootloader FrameAllocator
open KernelImage hiding pageSize

namespace Kernel

variable {φ : Type} {fw : Firmware φ} {kernelFile userFile bitmap bytes : Slice UInt8} {ram : Ram φ}
  {boot : Boot φ} {info : BootInfo} {statics : Statics} {arena₀ arena arena' : TableArena}
  {tables : PageTables} {layout : MemoryLayout} {frames frames' : FrameAllocator}
  {stack : PhysRange} {mapped : Mapped}

/-! ## The boot loader -/

/-- The boot loader has loaded both images and written the boot information.  Physical addresses
have 52 bits. -/
structure Handoff (fw : Firmware φ) (kernelFile userFile : Slice UInt8) (ram : Ram φ)
    (boot : Boot φ) (info : BootInfo) : Prop where
  boots : ∃ rsdp, Returns (main fw (.ok kernelFile) (.ok userFile) rsdp ram) boot
  enters : ∃ map exitPort,
    enterKernel boot.kernel boot.user boot.prepared map exitPort = .ok info
  user_le : boot.user.base + boot.user.size ≤ 2 ^ 52

namespace Handoff

/-- Both images are loaded, the user image after the kernel. -/
lemma loaded (h : Handoff fw kernelFile userFile ram boot info) :
    ∃ s s', Loaded kernelFile ram boot.kernel s ∧ boot.kernelPages = s.requests ∧
      Loaded userFile s.ram boot.user s' ∧ boot.userPages = s'.requests ∧
      ∃ rsdp, Returns (prepare fw rsdp s'.ram) (boot.prepared, boot.ram) := by
  obtain ⟨rsdp, hmain⟩ := h.boots
  rw [main, returns_bind] at hmain
  obtain ⟨⟨kernel, s⟩, hkernel, hmain⟩ := hmain
  obtain ⟨⟨user, s'⟩, huser, hmain⟩ := returns_bind.mp hmain
  obtain ⟨⟨prepared, ram'⟩, hprepare, hmain⟩ := returns_bind.mp hmain
  obtain rfl := returns_pure.mp hmain
  exact ⟨s, s', load_returns hkernel, rfl, load_returns huser, rfl, rsdp, hprepare⟩

/-- The fields for the user image. -/
lemma fields (h : Handoff fw kernelFile userFile ram boot info) :
    info.userPhys.toNat = boot.user.base ∧ info.userSize.toNat = boot.user.size ∧
      info.userEntry.toNat = boot.user.entry ∧
      info.userVaddr = asU64 (asI64 boot.user.base + boot.user.vaddrDelta) := by
  obtain ⟨map, exitPort, henter⟩ := h.enters
  obtain ⟨s, s', -, -, huser, -⟩ := h.loaded
  have hdescribes := describes_of_enterKernel henter
  have hentry : boot.user.entry < 2 ^ 64 := by
    rw [huser.entry_eq]
    exact wordAt_lt userFile _ 8
  have hle := h.user_le
  rw [hdescribes.userPhys_eq, hdescribes.userSize_eq, hdescribes.userEntry_eq]
  refine ⟨UInt64.toNat_ofNat_of_lt' ?_, UInt64.toNat_ofNat_of_lt' ?_,
    UInt64.toNat_ofNat_of_lt' hentry, hdescribes.userVaddr_eq⟩
  · exact show boot.user.base < 2 ^ 64 by omega
  · exact show boot.user.size < 2 ^ 64 by omega

end Handoff

/-- The sum of the differences modulo `2 ^ 64`, when it is an address of user space. -/
lemma toNat_asU64_add {base paddr vaddr : ℕ} (hbase : base ≤ paddr) (hpaddr : paddr < 2 ^ 52)
    (hvaddr : vaddr < 2 ^ 64)
    (hlt : (asU64 (asI64 base + (asI64 vaddr - asI64 paddr))).toNat < 2 ^ 48) :
    (asU64 (asI64 base + (asI64 vaddr - asI64 paddr))).toNat + paddr = base + vaddr := by
  have hbase' : asI64 base = base := if_pos (by omega)
  have hpaddr' : asI64 paddr = paddr := if_pos (by omega)
  obtain ⟨z, hz⟩ : ∃ z, asI64 base + (asI64 vaddr - asI64 paddr) = z := ⟨_, rfl⟩
  have hnat : (asU64 z).toNat = (z % 2 ^ 64).toNat := by
    refine UInt64.toNat_ofNat_of_lt' ?_
    exact show (z % 2 ^ 64).toNat < 2 ^ 64 by omega
  rw [hz, hnat] at hlt ⊢
  rw [hbase', hpaddr', asI64] at hz
  split_ifs at hz <;> omega

/-- The virtual address of the image is its physical address, moved by the difference of the first
segment. -/
lemma userVaddr_add (h : Handoff fw kernelFile userFile ram boot info)
    (haccepted : (imageMapping info).Accepted) {first : Segment}
    (hfirst : (loads userFile).head? = some first) :
    info.userVaddr.toNat + first.paddr = info.userPhys.toNat + first.vaddr := by
  obtain ⟨s, s', -, -, huser, -⟩ := h.loaded
  obtain ⟨hphys, -, -, hvaddr⟩ := h.fields
  obtain ⟨first', rest, hcons, hdelta⟩ := huser.first
  rw [hcons] at hfirst
  obtain rfl := Option.some.inj hfirst
  have hmem : first' ∈ loads userFile := by
    rw [hcons]
    exact List.mem_cons_self
  obtain ⟨hbase, hstop⟩ := huser.span.bounds first' hmem
  have hpaddr : first'.paddr < boot.user.base + boot.user.size := by
    have := (huser.fits first' hmem).memsz_pos
    exact (Nat.lt_add_of_pos_right this).trans_le ((le_pageStop first').trans hstop)
  have hvaddr_lt : first'.vaddr < 2 ^ 64 := by
    obtain ⟨entry, rfl⟩ := mem_loads hmem
    exact wordAt_lt userFile _ 8
  have hlt : info.userVaddr.toNat < 2 ^ 48 := by
    have hstop := haccepted.stop_le
    rw [userMaxBytes_eq] at hstop
    simp only [imageMapping, userBase] at hstop
    omega
  rw [hvaddr, hdelta] at hlt
  rw [hphys, hvaddr, hdelta]
  exact toNat_asU64_add (hbase.trans (pageStart_le first'))
    (hpaddr.trans_le h.user_le) hvaddr_lt hlt

/-! ## The kernel -/

/-- The heap. -/
def heapRange (layout : MemoryLayout) : PhysRange := ⟨layout.heap.1, layout.heap.2⟩

/-- One call of `alloc_frames` or `free_frames` that does not free the heap. -/
def OtherCalls (layout : MemoryLayout) (a a' : FrameAllocator) : Prop :=
  (∃ count result, a.allocContiguous count = .ok (result, a')) ∨
    ∃ range result, ¬ Meets range (heapRange layout) ∧ freeFrames a range = .ok (result, a')

/-- The kernel has installed its page tables and initialised its memory, and has allocated and freed
frames since. -/
structure Ready (info : BootInfo) (statics : Statics) (bitmap bytes : Slice UInt8)
    (arena₀ : TableArena) (tables : PageTables) (arena : TableArena) (layout : MemoryLayout)
    (frames : FrameAllocator) : Prop where
  installs : ∃ control, Returns (install control info arena₀ bytes) (tables, arena)
  address_eq : arena₀.address = statics.arena.toNat
  allocates : ∃ a, Returns (initAllocators info statics bitmap bytes tables.limit) (layout, a) ∧
    Relation.ReflTransGen (OtherCalls layout) a frames

/-- The heap stays lent. -/
lemma lent_of_otherCalls {map : MemoryMap} {a₀ a : FrameAllocator} {S : Finset ℕ} {start : ℕ}
    (hfresh : Fresh map a₀) (hlent : Lent a₀ S a)
    (hheap : layout.heap = (a₀.addressOf start, heapSize))
    (hsubset : Finset.Ico start (start + heapSize / pageSize) ⊆ S)
    (hrun : Relation.ReflTransGen (OtherCalls layout) a frames) :
    ∃ S', Lent a₀ S' frames ∧ Finset.Ico start (start + heapSize / pageSize) ⊆ S' := by
  induction hrun with
  | refl => exact ⟨S, hlent, hsubset⟩
  | tail _ hcall ih =>
    obtain ⟨S', hlent', hsubset'⟩ := ih
    rcases hcall with ⟨count, result, heq⟩ | ⟨range, result, hother, heq⟩
    · obtain ⟨S'', hlent'', hmono⟩ := lent_allocContiguous hfresh hlent' heq
      exact ⟨S'', hlent'', hsubset'.trans hmono⟩
    · obtain ⟨S'', hlent'', hkept⟩ := lent_freeFrames hfresh hlent' heq
      refine ⟨S'', hlent'', fun i hi => hkept i (hsubset' hi) fun hhas => hother ⟨_, hhas, ?_⟩⟩
      -- the frame is one of the heap
      obtain ⟨hle, hlt⟩ := Finset.mem_Ico.mp hi
      rw [heapRange, hheap]
      refine ⟨a₀.addressOf_mono hle, (a₀.addressOf_mono hlt).trans_lt' ?_ |>.trans_le ?_⟩
      · rw [addressOf_succ]
        exact Nat.lt_add_of_pos_right (by decide)
      · rw [addressOf_add]
        exact Nat.add_le_add_left (show heapSize / pageSize * pageSize ≤ heapSize by decide) _

/-- What is known about the kernel when the service is started. -/
structure ReadySpec (info : BootInfo) (statics : Statics) (bytes : Slice UInt8)
    (arena₀ : TableArena) (tables : PageTables) (arena : TableArena) (layout : MemoryLayout)
    (map : MemoryMap) (a₀ : FrameAllocator) (S : Finset ℕ) (start : ℕ) (frames : FrameAllocator) :
    Prop where
  map_eq : bootInfoMemoryMap info bytes = .ok map
  build_eq : build arena₀ map .m2 = .ok (.ok (tables, arena))
  initial : Initial map (ownedRanges info statics) (.new (min tables.limit maxIdentityBytes)) a₀
  lent : Lent a₀ S frames
  heap_eq : layout.heap = (a₀.addressOf start, heapSize)
  heap_subset : Finset.Ico start (start + heapSize / pageSize) ⊆ S

/-- The page tables have been built from the memory map that the frame allocator uses, too. -/
lemma Ready.spec (h : Ready info statics bitmap bytes arena₀ tables arena layout frames) :
    ∃ map a₀ S start,
      ReadySpec info statics bytes arena₀ tables arena layout map a₀ S start frames := by
  obtain ⟨control, hinstalls⟩ := h.installs
  obtain ⟨-, -, map, hmap, hbuild, -⟩ := install_returns_iff.mp hinstalls
  obtain ⟨a, hallocates, hrun⟩ := h.allocates
  obtain ⟨map', a₀, start, hmap', hinit, hheap, -, hlent⟩ := initAllocators_returns hallocates
  rw [hmap] at hmap'
  obtain rfl := Except.ok.inj hmap'
  have hinitial := initial_of_init hinit
  obtain ⟨S, hlent', hsubset⟩ :=
    lent_of_otherCalls hinitial.fresh hlent hheap subset_rfl hrun
  exact ⟨map, a₀, S, start, hmap, hbuild, hinitial, hlent', hheap, hsubset⟩

/-- What the first part of `init` has done when it succeeds. -/
lemma mapImage_eq_ok_iff :
    mapImage info frames arena = .ok (.ok (stack, mapped), frames', arena') ↔
      info.hasUserImage = true ∧
      frames.allocContiguous userStackPages = .ok (some stack, frames') ∧
      mapUserRegion arena 0 (7 * pageSize) [imageMapping info, stackMapping stack] =
        .ok (.ok mapped, arena') := by
  rw [mapImage]
  constructor
  · intro h
    split_ifs at h with hno
    · cases h
    obtain ⟨⟨result, frames₁⟩, halloc, h⟩ := Checked.bind_eq_ok.mp h
    cases result with
    | none => cases h
    | some stack₁ =>
      obtain ⟨⟨result, arena₁⟩, hmap, h⟩ := Checked.bind_eq_ok.mp h
      cases result with
      | error e => cases h
      | ok mapped₁ =>
        simp only [pure, Except.pure, Except.ok.injEq, Prod.mk.injEq] at h
        obtain ⟨⟨rfl, rfl⟩, rfl, rfl⟩ := h
        exact ⟨by simpa using hno, halloc, hmap⟩
  · rintro ⟨himage, halloc, hregion⟩
    have hregion' : mapUserRegion arena 0 (kernelTablePages * pageSize)
        [imageMapping info, stackMapping stack] = .ok (.ok mapped, arena') := hregion
    simp only [himage, Bool.not_true, Bool.false_eq_true, if_false, halloc, Checked.ok_bind,
      hregion']
    rfl

/-! ## The walk -/

/-- User mode can access the address, and it is translated to the physical address `p`. -/
def Translates (arena : TableArena) (root va p : ℕ) : Prop :=
  va < 2 ^ 48 ∧ ∃ t, walk arena root va = .mapped t ∧ t.user = true ∧ t.phys = p

lemma exists_mapped_iff {x : Translation} {p : ℕ} :
    (∃ t, Walk.mapped x = .mapped t ∧ t.user = true ∧ t.phys = p) ↔ x.user = true ∧ x.phys = p := by
  constructor
  · rintro ⟨t, ht, h⟩
    cases ht
    exact h
  · exact fun h => ⟨x, rfl, h⟩

lemma userWalk_pair (m m' : Mapping) (va : ℕ) : userWalk [m, m'] va =
    if m'.Covers va then
      .mapped { phys := m'.paddr + (va - m'.vaddr), writable := m'.writable, user := true,
                leaf := .page }
    else if m.Covers va then
      .mapped { phys := m.paddr + (va - m.vaddr), writable := m.writable, user := true,
                leaf := .page }
    else .notPresent := by
  have hlast : lastCovering [m, m'] va =
      if m'.Covers va then some m' else if m.Covers va then some m else none := by
    rw [show [m, m'] = [m] ++ [m'] from rfl, lastCovering_append,
      show [m] = [] ++ [m] from rfl, lastCovering_append]
    rfl
  rw [userWalk, hlast]
  split_ifs <;> rfl

/-- The stack of the service has physical addresses of 52 bits. -/
lemma stack_spec (hready : Ready info statics bitmap bytes arena₀ tables arena layout frames)
    (halloc : frames.allocContiguous userStackPages = .ok (some stack, frames')) :
    stack.len = userStackPages * 4096 ∧ stack.start % pageSize = 0 ∧
      stack.start + stack.len ≤ 2 ^ 52 := by
  obtain ⟨map, a₀, S, start, hspec⟩ := hready.spec
  obtain ⟨k, rfl, hrun, -⟩ := hspec.lent.of_allocContiguous hspec.initial.fresh halloc
  obtain ⟨haligned, -, hstop⟩ := hspec.initial.bounds (i := k) (n := userStackPages)
    (by rw [← hspec.lent.window.frames_eq]; exact hrun.1)
  exact ⟨rfl, haligned, hstop.trans ((min_le_right _ _).trans (by decide))⟩

/-- An address of user mode belongs to the stack, or else to the image. -/
lemma translates_iff (hhandoff : Handoff fw kernelFile userFile ram boot info)
    (hready : Ready info statics bitmap bytes arena₀ tables arena layout frames)
    (hmap : mapImage info frames arena = .ok (.ok (stack, mapped), frames', arena')) :
    (imageMapping info).Accepted ∧ ∀ va p, Translates arena' tables.pml4Phys va p ↔
      if (stackMapping stack).Covers va then p = stack.start + (va - userStackVa)
      else (imageMapping info).Covers va ∧
        p = info.userPhys.toNat + (va - info.userVaddr.toNat) := by
  obtain ⟨-, halloc, hregion⟩ := mapImage_eq_ok_iff.mp hmap
  obtain ⟨map, a₀, S, start, hspec⟩ := hready.spec
  obtain ⟨hlen, -, hstop⟩ := stack_spec hready halloc
  obtain ⟨hphys, hsize, -⟩ := hhandoff.fields
  have hpaddr : ∀ m ∈ [imageMapping info, stackMapping stack], m.paddr + m.size ≤ 2 ^ 52 := by
    intro m hm
    simp only [List.mem_cons, List.not_mem_nil, or_false] at hm
    rcases hm with rfl | rfl
    · exact show info.userPhys.toNat + info.userSize.toNat ≤ 2 ^ 52 by
        rw [hphys, hsize]; exact hhandoff.user_le
    · exact show stack.start + userStackPages * 4096 ≤ 2 ^ 52 by rwa [← hlen]
  obtain ⟨haccepted, hkernel, huser, habove⟩ :=
    walk_of_mapUserRegion hspec.build_eq (List.cons_ne_nil _ _) hpaddr hregion
  have himage : (imageMapping info).Accepted := haccepted _ List.mem_cons_self
  have hstack : (stackMapping stack).Accepted :=
    haccepted _ (List.mem_cons_of_mem _ (List.mem_singleton_self _))
  refine ⟨himage, fun va p => ?_⟩
  -- both mappings lie in user space
  have hspace : ∀ m : Mapping, m.Accepted → m.Covers va → 2 ^ 32 ≤ va ∧ va < 2 ^ 32 + 2 ^ 30 := by
    intro m hm hcovers
    have hlow := hm.userBase_le
    have hhigh := hm.stop_le
    rw [userMaxBytes_eq] at hhigh
    simp only [Mapping.Covers, userBase] at hlow hhigh hcovers
    omega
  by_cases hrange : 2 ^ 32 ≤ va ∧ va < 2 ^ 32 + 2 ^ 30
  · have hva : va < 2 ^ 48 := by omega
    rw [Translates, and_iff_right hva, huser va hrange.1 hrange.2, userWalk_pair]
    split_ifs with hs hi
    · rw [exists_mapped_iff]
      exact ⟨fun h => h.2.symm, fun h => ⟨rfl, h.symm⟩⟩
    · rw [exists_mapped_iff]
      exact ⟨fun h => ⟨hi, h.2.symm⟩, fun h => ⟨rfl, h.2.symm⟩⟩
    · refine ⟨?_, fun h => absurd h.1 hi⟩
      rintro ⟨t, ht, -⟩
      cases ht
  · have hno : ∀ m : Mapping, m.Accepted → ¬ m.Covers va :=
      fun m hm hcovers => hrange (hspace m hm hcovers)
    rw [if_neg (hno _ hstack)]
    refine ⟨?_, fun hcovers => absurd hcovers.1 (hno _ himage)⟩
    rintro ⟨hva, t, ht, htuser, -⟩
    by_cases hlow : va < 2 ^ 32
    · rw [(hkernel va hlow).2 t ht] at htuser
      cases htuser
    · rw [habove va (by omega) hva] at ht
      cases ht

/-! ## Linked addresses -/

/-- Every byte of every segment is linked like its mapping.  The bytes whose virtual address belongs
to the user stack are mapped to the stack, all others like the first segment. -/
def LinkedAlike (file : Slice UInt8) (stack : PhysRange) : Prop :=
  ∀ segment ∈ loads file, ∀ k < segment.memsz,
    if (stackMapping stack).Covers (segment.vaddr + k) then
      segment.vaddr + stack.start = userStackVa + segment.paddr
    else ∀ first ∈ (loads file).head?, segment.vaddr + first.paddr = first.vaddr + segment.paddr

/-- One byte of a segment. -/
lemma translates_segment_iff (hhandoff : Handoff fw kernelFile userFile ram boot info)
    (hready : Ready info statics bitmap bytes arena₀ tables arena layout frames)
    (hmap : mapImage info frames arena = .ok (.ok (stack, mapped), frames', arena'))
    {segment : Segment} (hsegment : segment ∈ loads userFile) {k : ℕ} (hk : k < segment.memsz) :
    Translates arena' tables.pml4Phys (segment.vaddr + k) (segment.paddr + k) ↔
      if (stackMapping stack).Covers (segment.vaddr + k) then
        segment.vaddr + stack.start = userStackVa + segment.paddr
      else ∀ first ∈ (loads userFile).head?,
        segment.vaddr + first.paddr = first.vaddr + segment.paddr := by
  obtain ⟨haccepted, htranslates⟩ := translates_iff hhandoff hready hmap
  obtain ⟨s, s', -, -, huser, -⟩ := hhandoff.loaded
  obtain ⟨hphys, hsize, -⟩ := hhandoff.fields
  obtain ⟨hbase, hstop⟩ := huser.span.bounds segment hsegment
  have hbase' := hbase.trans (pageStart_le segment)
  have hstop' := (le_pageStop segment).trans hstop
  rw [htranslates]
  split_ifs with hstack
  · obtain ⟨hle, -⟩ := hstack
    simp only [stackMapping] at hle
    omega
  · obtain ⟨first, rest, hcons, -⟩ := huser.first
    have hvaddr := userVaddr_add hhandoff haccepted
      (show (loads userFile).head? = some first by rw [hcons]; rfl)
    simp only [hcons, List.head?_cons, Option.mem_def, Option.some.injEq, forall_eq',
      Mapping.Covers, imageMapping]
    omega

/-- **The user image at its linked addresses.**  Let the boot loader load the kernel and the user
image, and let the kernel map the user image and the user stack, which the frame allocator gives.
Then user mode finds every byte of every segment at the address that it is linked at if and only if
the segments are linked alike; and then it finds the entry point in the executable segment that the
boot loader has accepted it for. -/
theorem user_image_linked_iff {φ : Type} (fw : Firmware φ) (kernelFile userFile : Slice UInt8)
    (ram : Ram φ) (boot : Boot φ) (info : BootInfo)
    (hhandoff : Handoff fw kernelFile userFile ram boot info) (statics : Statics)
    (bitmap bytes : Slice UInt8) (arena₀ : TableArena) (tables : PageTables) (arena : TableArena)
    (layout : MemoryLayout) (frames : FrameAllocator)
    (hready : Ready info statics bitmap bytes arena₀ tables arena layout frames)
    (result : PhysRange × Mapped) (frames' : FrameAllocator) (arena' : TableArena)
    (hmap : mapImage info frames arena = .ok (.ok result, frames', arena')) :
    ∃ stack, frames.allocContiguous userStackPages = .ok (some stack, frames') ∧
      ((∀ segment ∈ loads userFile, ∀ k < segment.memsz,
        Translates arena' tables.pml4Phys (segment.vaddr + k) (segment.paddr + k)) ↔
          LinkedAlike userFile stack) ∧
      (LinkedAlike userFile stack → ∃ segment ∈ loads userFile,
        segment.Enters info.userEntry.toNat ∧ Translates arena' tables.pml4Phys
          info.userEntry.toNat (segment.paddr + (info.userEntry.toNat - segment.vaddr))) := by
  obtain ⟨stack, mapped⟩ := result
  refine ⟨stack, (mapImage_eq_ok_iff.mp hmap).2.1, ?_, fun hlinked => ?_⟩
  · refine forall₂_congr fun segment hsegment => forall₂_congr fun k hk => ?_
    exact translates_segment_iff hhandoff hready hmap hsegment hk
  · obtain ⟨s, s', -, -, huser, -⟩ := hhandoff.loaded
    obtain ⟨-, -, hentry, -⟩ := hhandoff.fields
    obtain ⟨segment, hsegment, henters⟩ := huser.enters
    obtain ⟨-, hle, hlt⟩ := id henters
    rw [hentry]
    have hk : boot.user.entry - segment.vaddr < segment.memsz := by omega
    have hbyte := (translates_segment_iff hhandoff hready hmap hsegment hk).mpr
      (hlinked segment hsegment _ hk)
    rw [Nat.add_sub_cancel' hle] at hbyte
    exact ⟨segment, hsegment, henters, hbyte⟩

/-! ## A small machine -/

/-- A kernel that is loaded from 0x10000 to 0x70000. -/
def lowKernel : Slice UInt8 where
  toList := elfBytes 0x10000 [⟨120, 0x10000, 0x10000, 2, 0x60000, 7⟩] [0xeb, 0xfe]
  length_lt := by decide +kernel

/-- A user image with a page of code and a page of data, at the given addresses. -/
def twoPages (codePaddr dataVaddr dataPaddr : ℕ) : Slice UInt8 where
  toList := elfBytes userBase
    [⟨176, codePaddr, userBase, 2, 2, 5⟩, ⟨178, dataPaddr, dataVaddr, 1, 0x1000, 6⟩] [0xeb, 0xfe, 7]
  length_lt := by
    simp [elfBytes, phdrBytes, elfMagic]

/-- The boot information for this kernel and a user image that ends at 0x82000. -/
def smallBoot (userPhys userSize : UInt64) : BootInfo :=
  { BootInfo.new with
    mmapPtr := 0x7000, mmapLen := 1, mmapDescSize := 40, mmapDescVer := 1, kernelBase := 0x10000,
    kernelSize := 0x60000, stackTop := 0x92000, stackSize := 0x10000, userPhys, userSize,
    userVaddr := 0x100000000, userEntry := 0x100000000 }

/-- The images are loaded, and the pages are those of the segments. -/
def bootsTo (userFile : Slice UInt8) (userPhys userSize : UInt64) (userPages : List ℕ) : Bool :=
  (main grantFirmware (.ok lowKernel) (.ok userFile) 0 freshRam).returnsAnd fun boot =>
    Checked.okAnd (enterKernel boot.kernel boot.user boot.prepared ⟨0x7000, 1, 40, 1⟩ 0) fun info =>
      info = smallBoot userPhys userSize ∧ boot.userPages = userPages ∧ 0x10000 ∈ boot.kernelPages ∧
        boot.user.base + boot.user.size ≤ 2 ^ 52

/-- The machine after the boot loader. -/
lemma handoff_of_bootsTo {userFile : Slice UInt8} {userPhys userSize : UInt64} {userPages : List ℕ}
    (h : bootsTo userFile userPhys userSize userPages = true) : ∃ boot,
      Handoff grantFirmware lowKernel userFile freshRam boot (smallBoot userPhys userSize) ∧
        boot.userPages = userPages ∧ 0x10000 ∈ boot.kernelPages := by
  obtain ⟨boot, hboots, henter⟩ := returnsAnd_eq_true_iff.mp h
  obtain ⟨info, henter, hinfo⟩ := Checked.okAnd_eq_true_iff.mp henter
  obtain ⟨rfl, hpages, hkernel, hle⟩ := of_decide_eq_true hinfo
  exact ⟨boot, ⟨⟨0, hboots⟩, ⟨_, _, henter⟩, hle⟩, hpages, hkernel⟩

lemma bootsTo_twoPages :
    bootsTo (twoPages 0x80000 0x100001000 0x81000) 0x80000 0x2000 [0x80000, 0x81000] = true := by
  decide +kernel

/-- A memory map with one region of conventional memory, from 0 to 0x208000. -/
def wideTable : Slice UInt8 where
  toList := leBytes 8 7 ++ leBytes 8 0 ++ leBytes 8 0 ++ leBytes 8 0x208 ++ leBytes 8 0
  length_lt := by decide

/-- The arena for the page tables, at the start of the kernel. -/
def lowArena : TableArena where
  bytes := ⟨List.replicate (arenaPages * pageSize) 0, by rw [List.length_replicate]; decide⟩
  address := 0x10000
  stop_le := by
    rw [Slice.length, List.length_replicate]
    decide

/-- The processor in long mode, with four levels of page tables. -/
def pagingMode : ControlRegisters := ⟨0x80000011, 0x220, 0xD00⟩

lemma checkCpuMode_pagingMode : checkCpuMode pagingMode = .ok () := by decide

/-- The memory map is accepted. -/
lemma exists_wideMap (userPhys userSize : UInt64) : ∃ map,
    bootInfoMemoryMap (smallBoot userPhys userSize) wideTable = .ok map ∧
      map.ramTop = some 0x208000 := by
  have htop : (bootInfoMemoryMap (smallBoot 0 0) wideTable).toOption.bind MemoryMap.ramTop =
      some 0x208000 := by
    decide +kernel
  rw [show bootInfoMemoryMap (smallBoot userPhys userSize) wideTable =
    bootInfoMemoryMap (smallBoot 0 0) wideTable from rfl]
  cases hmap : bootInfoMemoryMap (smallBoot 0 0) wideTable with
  | error e =>
    rw [hmap] at htop
    cases htop
  | ok map =>
    rw [hmap] at htop
    exact ⟨map, rfl, htop⟩

/-- The user image has no effect on the memory of the kernel. -/
lemma initAllocators_smallBoot (userPhys userSize : UInt64) (limit : ℕ) :
    initAllocators (smallBoot userPhys userSize) lowStatics lowBitmap wideTable limit =
      initAllocators (smallBoot 0 0) lowStatics lowBitmap wideTable limit := by
  have hmap : bootInfoMemoryMap (smallBoot userPhys userSize) wideTable =
      bootInfoMemoryMap (smallBoot 0 0) wideTable := rfl
  have howned : ownedRanges (smallBoot userPhys userSize) lowStatics =
      ownedRanges (smallBoot 0 0) lowStatics := rfl
  simp only [initAllocators, hmap, howned]

/-- The boot thread creates the thread of the service. -/
def createsService (frames : FrameAllocator) : Bool :=
  Checked.okAnd (Machine.boot frames ⟨0x82000, 0x10000⟩ 0x10000) fun m =>
    Checked.okAnd (m.perform 0 (.createUser 0x100000000 (userStackVa + 4096 * userStackPages)))
      fun m' => (m'.result 0).bind Except.toOption = some 1

/-- The first frames behind the heap become the stack of the service, and the next ones the stack of
its thread. -/
lemma initAllocators_wide :
    (initAllocators (smallBoot 0 0) lowStatics lowBitmap wideTable 0x208000).returnsAnd
      (fun r => Checked.okAnd (r.2.allocContiguous userStackPages) fun q =>
        q.1 = some ⟨0x200000, 0x4000⟩ && createsService q.2) = true := by
  decide +kernel

/-- The kernel before it starts the service. -/
lemma exists_ready (userPhys userSize : UInt64) : ∃ tables arena layout frames frames',
    Ready (smallBoot userPhys userSize) lowStatics lowBitmap wideTable lowArena tables arena layout
      frames ∧
    frames.allocContiguous userStackPages = .ok (some ⟨0x200000, 0x4000⟩, frames') ∧
    createsService frames' = true ∧ KernelTables arena ∧
    arena.bytes.length = arenaPages * pageSize := by
  obtain ⟨map, hmap, htop⟩ := exists_wideMap userPhys userSize
  have hlength : lowArena.bytes.length = arenaPages * pageSize := List.length_replicate
  have hbuildable : Buildable lowArena map .m2 0x208000 :=
    ⟨by decide, by decide, by decide, by rw [hlength]; decide, htop, by decide⟩
  obtain ⟨tables, arena, hbuild, hbuilt⟩ := build_spec hbuildable
  have hlimit : tables.limit = 0x208000 := by
    obtain ⟨top, htop', hlimit⟩ := hbuilt.limit_eq
    rw [htop] at htop'
    obtain rfl := Option.some.inj htop'
    exact hlimit
  obtain ⟨⟨layout, frames⟩, hreturns, halloc⟩ := returnsAnd_eq_true_iff.mp initAllocators_wide
  obtain ⟨⟨result, frames'⟩, heq, hresult⟩ := Checked.okAnd_eq_true_iff.mp halloc
  obtain ⟨hresult, hcreates⟩ := (Bool.and_eq_true _ _).mp hresult
  obtain rfl : result = some ⟨0x200000, 0x4000⟩ := of_decide_eq_true hresult
  refine ⟨tables, arena, layout, frames, frames', ⟨?_, rfl, frames, ?_, .refl⟩, heq, hcreates,
    hbuilt.kernelTables, hbuilt.stage.length_eq.trans hlength⟩
  · have harena : ¬ (0x10000 < 0x10000 ∨ saturatingAdd 0x10000 0x60000 ≤ 0x10000) := by decide
    exact ⟨pagingMode, install_returns_iff.mpr
      ⟨checkCpuMode_pagingMode, harena, map, hmap, hbuild, rfl⟩⟩
  · rw [hlimit, initAllocators_smallBoot]
    exact hreturns

/-- Two tables are enough for the user image and the stack. -/
lemma exists_mapImage {stack : PhysRange} (himage : info.hasUserImage = true)
    (haccepted : (imageMapping info).Accepted) (hstack : (stackMapping stack).Accepted)
    (hslot : UserMap.highestSlot [imageMapping info, stackMapping stack] = .ok 1)
    (hphys : info.userPhys.toNat + info.userSize.toNat ≤ 2 ^ 52)
    (hstackPhys : stack.start + userStackPages * 4096 ≤ 2 ^ 52)
    (htables : KernelTables arena) (hlength : arena.bytes.length = arenaPages * pageSize)
    (halloc : frames.allocContiguous userStackPages = .ok (some stack, frames')) :
    ∃ mapped arena', mapImage info frames arena = .ok (.ok (stack, mapped), frames', arena') := by
  have hsum : info.userSize.toNat + (userStackPages * 4096 + 0) < 2 ^ 64 := by
    have hsize : userStackPages * 4096 + 0 < 2 ^ 63 := by decide
    exact (Nat.add_lt_add_of_le_of_lt ((Nat.le_add_left _ _).trans hphys) hsize).trans_le
      (by decide)
  have hmappable : UserMappable arena 7 2 [imageMapping info, stackMapping stack] := by
    refine ⟨List.cons_ne_nil _ _, List.forall_mem_cons.mpr ⟨haccepted, ?_⟩, hslot, by decide, ?_,
      ?_⟩
    · exact List.forall_mem_singleton.mpr hstack
    · rw [hlength]
      decide
    · rw [List.map_cons, List.sum_cons, List.map_cons, List.sum_cons, List.map_nil, List.sum_nil]
      exact hsum
  have hpaddr : ∀ m ∈ [imageMapping info, stackMapping stack], m.paddr + m.size ≤ 2 ^ 52 :=
    List.forall_mem_cons.mpr ⟨hphys, List.forall_mem_singleton.mpr hstackPhys⟩
  obtain ⟨arena', hregion, -⟩ := mapUserRegion_spec htables (by decide)
    (fun m hm => (hpaddr m hm).trans (by norm_num)) hmappable
  exact ⟨_, arena', mapImage_eq_ok_iff.mpr ⟨himage, halloc, hregion⟩⟩

/-- The stack behind the heap. -/
lemma accepted_stackMapping : (stackMapping ⟨0x200000, 0x4000⟩).Accepted :=
  ⟨by decide, by decide, by decide, by decide, by decide, by decide⟩

/-- A user image whose segments are linked alike is where it is linked. -/
theorem user_image_linked_iff_twoPages : ∃ boot tables arena layout frames frames' arena' mapped,
    Handoff grantFirmware lowKernel (twoPages 0x80000 0x100001000 0x81000) freshRam boot
      (smallBoot 0x80000 0x2000) ∧
    Ready (smallBoot 0x80000 0x2000) lowStatics lowBitmap wideTable lowArena tables arena layout
      frames ∧
    mapImage (smallBoot 0x80000 0x2000) frames arena =
      .ok (.ok (⟨0x200000, 0x4000⟩, mapped), frames', arena') ∧
    Translates arena' tables.pml4Phys 0x100001fff 0x81fff := by
  obtain ⟨boot, hhandoff, -⟩ := handoff_of_bootsTo bootsTo_twoPages
  obtain ⟨tables, arena, layout, frames, frames', hready, halloc, -, htables, hlength⟩ :=
    exists_ready 0x80000 0x2000
  obtain ⟨mapped, arena', hmap⟩ := @exists_mapImage (smallBoot 0x80000 0x2000) _ _ _ _ (by decide)
    ⟨by decide, by decide, by decide, by decide, by decide, by decide⟩ accepted_stackMapping
    (by decide +kernel) (by decide) (by decide) htables hlength halloc
  obtain ⟨stack, halloc', hlinked_iff, -⟩ :=
    user_image_linked_iff _ _ _ _ _ _ hhandoff _ _ _ _ _ _ _ _ hready _ _ _ hmap
  rw [halloc] at halloc'
  obtain rfl := Option.some.inj (Prod.mk.inj (Except.ok.inj halloc')).1
  have hlinked := hlinked_iff.mpr ?_
  · exact ⟨boot, tables, arena, layout, frames, frames', arena', mapped, hhandoff, hready, hmap,
      hlinked ⟨178, 0x81000, 0x100001000, 1, 0x1000, 6⟩ (by decide +kernel) 0xfff (by decide)⟩
  · have hloads : loads (twoPages 0x80000 0x100001000 0x81000) =
        [⟨176, 0x80000, userBase, 2, 2, 5⟩, ⟨178, 0x81000, 0x100001000, 1, 0x1000, 6⟩] := by
      decide +kernel
    have hstack : ∀ va < 0x100002000, ¬ (stackMapping ⟨0x200000, 0x4000⟩).Covers va :=
      fun va hva hcovers => absurd (hcovers.1.trans_lt hva) (by decide)
    rw [LinkedAlike, hloads]
    simp only [List.forall_mem_cons, List.head?_cons, Option.mem_def, Option.some.injEq, forall_eq']
    refine ⟨fun k hk => ?_, fun k hk => ?_, fun _ hmem => absurd hmem List.not_mem_nil⟩
    · rw [if_neg (hstack _ (Nat.add_lt_add_left (hk.trans (show 2 < 0x2000 by decide)) userBase))]
      trivial
    · rw [if_neg (hstack _ (Nat.add_lt_add_left hk 0x100001000))]
      rfl

/-- The second segment has another distance between its addresses.  It is not mapped at all where it
is linked. -/
theorem user_image_not_linked : ∃ boot tables arena layout frames frames' arena' mapped,
    Handoff grantFirmware lowKernel (twoPages 0x80000 0x100002000 0x81000) freshRam boot
      (smallBoot 0x80000 0x2000) ∧
    Ready (smallBoot 0x80000 0x2000) lowStatics lowBitmap wideTable lowArena tables arena layout
      frames ∧
    mapImage (smallBoot 0x80000 0x2000) frames arena =
      .ok (.ok (⟨0x200000, 0x4000⟩, mapped), frames', arena') ∧
    ⟨178, 0x81000, 0x100002000, 1, 0x1000, 6⟩ ∈ loads (twoPages 0x80000 0x100002000 0x81000) ∧
    ∀ p, ¬ Translates arena' tables.pml4Phys 0x100002000 p := by
  obtain ⟨boot, hhandoff, -⟩ := handoff_of_bootsTo
    (show bootsTo (twoPages 0x80000 0x100002000 0x81000) 0x80000 0x2000 [0x80000, 0x81000] = true by
      decide +kernel)
  obtain ⟨tables, arena, layout, frames, frames', hready, halloc, -, htables, hlength⟩ :=
    exists_ready 0x80000 0x2000
  obtain ⟨mapped, arena', hmap⟩ := @exists_mapImage (smallBoot 0x80000 0x2000) _ _ _ _ (by decide)
    ⟨by decide, by decide, by decide, by decide, by decide, by decide⟩ accepted_stackMapping
    (by decide +kernel) (by decide) (by decide) htables hlength halloc
  refine ⟨boot, tables, arena, layout, frames, frames', arena', mapped, hhandoff, hready, hmap,
    by decide +kernel, fun p htranslated => ?_⟩
  rw [(translates_iff hhandoff hready hmap).2, if_neg (by decide)] at htranslated
  exact absurd htranslated.1 (by decide)

end Kernel

end ParanukOS
