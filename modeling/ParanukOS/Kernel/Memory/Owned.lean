import ParanukOS.Kernel.Memory.Model
import ParanukOS.Kernel.Thread.Stacks

/-!
# Memory that the kernel owns

The frame allocator hands out conventional memory, except for a list of ranges that the kernel has
been given at boot.  The list is there so that the kernel does not have to trust the memory map.  It
does not have the user image: a frame of it that the memory map calls conventional is handed out.

## Outline

* `not_has_of_pageRange`, `not_has_bootMemory`: a frame outside the owned ranges has no byte of what
  the kernel was given.
* `Offered`, `mem_freeSet_iff_offered`: the frames that may be handed out.
* `FrameCalls`: calls of `alloc_frames` and `free_frames`; `exists_handed_out`: every frame that may
  be handed out is handed out in some run.
* `boot_memory_kept_iff`: the main theorem.
-/

namespace ParanukOS

open Foundation Foundation.Fallible KernelMemory FrameAllocator

namespace Kernel

variable {info : BootInfo} {statics : Statics} {map : MemoryMap} {a₀ a : FrameAllocator}
  {S : Finset ℕ}

/-- The range has a byte at the address. -/
def Has (range : PhysRange) (p : ℕ) : Prop := range.start ≤ p ∧ p < range.start + range.len

/-- The ranges have a byte in common. -/
def Meets (r r' : PhysRange) : Prop := ∃ p, Has r p ∧ Has r' p

/-- What the kernel has been given at boot, apart from the user image: the kernel image, the boot
stack, the page of the boot information, the memory map, the page table arena and the bitmap of the
frame allocator. -/
def bootMemory (info : BootInfo) (statics : Statics) : List PhysRange :=
  [ ⟨info.kernelBase.toNat, info.kernelSize.toNat⟩,
    ⟨info.stackTop.toNat - info.stackSize.toNat, info.stackSize.toNat⟩,
    ⟨statics.bootInfo.toNat / pageSize * pageSize, pageSize⟩,
    ⟨info.mmapPtr.toNat, info.mmapLen.toNat * info.mmapDescSize.toNat⟩,
    ⟨statics.arena.toNat, arenaBytes⟩,
    ⟨statics.frameBitmap.toNat, frameBitmapBytes⟩ ]

/-- The user image. -/
def userImage (info : BootInfo) : PhysRange := ⟨info.userPhys.toNat, info.userSize.toNat⟩

/-! ## Reserved ranges -/

/-- Masking rounds down to a page. -/
lemma and_notWord_pageSize {v : ℕ} (hv : v < 2 ^ 64) :
    v &&& notWord (pageSize - 1) = v / pageSize * pageSize :=
  and_notWord_two_pow_sub_one (k := 12) (by norm_num) hv

/-- A frame that does not overlap the widened range has no byte of the range. -/
lemma not_has_of_pageRange {start len f p : ℕ} (hstart : start < 2 ^ 64)
    (hf : f + pageSize < 2 ^ 64)
    (hapart : (pageRange start len).stop ≤ f ∨ f + pageSize ≤ (pageRange start len).start)
    (hle : f ≤ p) (hlt : p < f + pageSize) : ¬ Has ⟨start, len⟩ p := by
  rintro ⟨hlow, hhigh⟩
  simp only at hlow hhigh
  have hlen : len ≠ 0 := by
    rintro rfl
    omega
  have hlast : saturatingAdd (saturatingAdd start len) (pageSize - 1) < 2 ^ 64 :=
    (min_le_right _ _).trans_lt (by norm_num)
  rw [pageRange, if_neg hlen] at hapart
  simp only at hapart
  rw [and_notWord_pageSize hstart, and_notWord_pageSize hlast, saturatingAdd,
    saturatingAdd] at hapart
  simp only [pageSize] at *
  omega

/-- A frame that overlaps no owned range has no byte of the memory given at boot. -/
lemma not_has_bootMemory {f p : ℕ} (hf : f + pageSize < 2 ^ 64)
    (howned : ∀ r ∈ ownedRanges info statics, r.stop ≤ f ∨ f + pageSize ≤ r.start) (hle : f ≤ p)
    (hlt : p < f + pageSize) {given : PhysRange} (hgiven : given ∈ bootMemory info statics) :
    ¬ Has given p := by
  simp only [ownedRanges, List.forall_mem_cons] at howned
  obtain ⟨hkernel, hstack, hinfo, hmap, harena, hbitmap, -⟩ := howned
  simp only [bootMemory, List.mem_cons, List.not_mem_nil, or_false] at hgiven
  rcases hgiven with rfl | rfl | rfl | rfl | rfl | rfl
  · exact not_has_of_pageRange info.kernelBase.toNat_lt hf hkernel hle hlt
  · exact not_has_of_pageRange ((Nat.sub_le _ _).trans_lt info.stackTop.toNat_lt) hf hstack hle hlt
  · rw [and_notWord_pageSize statics.bootInfo.toNat_lt] at hinfo
    exact not_has_of_pageRange ((Nat.div_mul_le_self _ _).trans_lt statics.bootInfo.toNat_lt) hf
      hinfo hle hlt
  · -- the product of two fields may be larger than a word, but then it covers every frame
    intro hhas
    rcases Nat.lt_or_ge (info.mmapLen.toNat * info.mmapDescSize.toNat) (2 ^ 64) with hword | hword
    · rw [saturatingMul, min_eq_left (Nat.le_sub_one_of_lt hword)] at hmap
      exact not_has_of_pageRange info.mmapPtr.toNat_lt hf hmap hle hlt hhas
    · rw [saturatingMul, min_eq_right (le_trans (Nat.sub_le _ _) hword)] at hmap
      refine not_has_of_pageRange info.mmapPtr.toNat_lt hf hmap hle hlt ⟨hhas.1, ?_⟩
      simp only
      omega
  · exact not_has_of_pageRange statics.arena.toNat_lt hf harena hle hlt
  · exact not_has_of_pageRange statics.frameBitmap.toNat_lt hf hbitmap hle hlt

/-! ## Frames that may be handed out -/

/-- The frame at the address lies between 1 MiB and the limit, it overlaps no owned range, and the
memory map has it in conventional memory.  A region that starts above 1 MiB counts only when it
starts at a page. -/
def Offered (map : MemoryMap) (owned : List ReservedRange) (limit f : ℕ) : Prop :=
  pageSize ∣ f ∧ minFreeAddr ≤ f ∧ f + pageSize ≤ limit ∧
    (∀ r ∈ owned, r.overlaps f (f + pageSize) = false) ∧
    ∃ r ∈ map.regions, r.kind = .conventional ∧ r.Contains f ∧
      (r.base ≤ minFreeAddr ∨ pageSize ∣ r.base)

/-- The frames that are free after `init`. -/
lemma mem_freeSet_iff_offered {bitmap : Slice UInt8} {owned : List ReservedRange} {limit : ℕ}
    (hinit : FrameAllocator.init bitmap map owned (.new limit) = .ok (.ok a₀)) {f : ℕ} :
    (∃ k ∈ a₀.freeSet, a₀.addressOf k = f) ↔ Offered map owned limit f := by
  have hinitial := initial_of_init hinit
  have hfirst : a₀.firstFrame = 256 :=
    hinitial.firstFrame_eq.trans (show divCeil minFreeAddr pageSize = 256 by decide)
  have hframes := hinitial.frames_eq
  have hoffered : ∀ k < a₀.frames, k ∈ a₀.freeSet ↔ Offered map owned limit (a₀.addressOf k) := by
    intro k hk
    rw [mem_freeSet, and_iff_right hk, hinitial.fresh.freeAt_eq hk,
      allocatable_iff_offeredIn hinit hk]
    have haddress : a₀.addressOf k = (256 + k) * 4096 := by rw [addressOf, hfirst, pageSize]
    have hlimit : a₀.addressOf k + 4096 ≤ limit := by
      rw [hfirst] at hframes
      simp only [Config.new, pageSize] at hframes
      omega
    have hmin : divCeil minFreeAddr pageSize * pageSize = 1048576 := by decide
    simp only [OfferedIn, Config.new, hmin, Offered, reservedAt, hinitial.reserved_eq,
      List.any_eq_false, Bool.not_eq_true, Region.Contains]
    simp only [minFreeAddr, pageSize, haddress] at *
    constructor
    · rintro ⟨r, hr, hkind, hle, hlt, hdvd, hreserved⟩
      exact ⟨by omega, by omega, by omega, hreserved, r, hr, hkind, ⟨by omega, by omega⟩, by omega⟩
    · rintro ⟨-, -, -, hreserved, r, hr, hkind, ⟨hle, hlt⟩, hbase⟩
      exact ⟨r, hr, hkind, by omega, by omega, by omega, hreserved⟩
  constructor
  · rintro ⟨k, hk, rfl⟩
    exact (hoffered k (mem_freeSet.mp hk).1).mp hk
  · intro h
    obtain ⟨⟨n, hn⟩, hmin, hlimit, -⟩ := id h
    simp only [minFreeAddr, pageSize] at hn hmin hlimit
    have haddress : a₀.addressOf (n - 256) = f := by
      rw [addressOf, hfirst, pageSize]
      omega
    have hk : n - 256 < a₀.frames := by
      rw [hfirst] at hframes
      simp only [Config.new, pageSize] at hframes
      omega
    exact ⟨n - 256, (hoffered _ hk).mpr (haddress ▸ h), haddress⟩

/-! ## Calls of `alloc_frames` and `free_frames` -/

/-- One call of `alloc_frames` or `free_frames`, with any argument. -/
def FrameCalls (a a' : FrameAllocator) : Prop :=
  (∃ count result, a.allocContiguous count = .ok (result, a')) ∨
    ∃ range result, freeFrames a range = .ok (result, a')

/-- Freeing frames, whether they are lent or not.  Frames at other addresses stay lent. -/
lemma lent_freeFramesFrom (hfresh : Fresh map a₀) {n : ℕ} :
    ∀ {address : ℕ} {S : Finset ℕ} {a a' : FrameAllocator} {result : Except FreeError Unit},
      Lent a₀ S a → freeFramesFrom n address a = .ok (result, a') →
      ∃ S', Lent a₀ S' a' ∧
        ∀ i ∈ S, (∀ j < n, a₀.addressOf i ≠ address + j * pageSize) → i ∈ S' := by
  induction n with
  | zero =>
    intro address S a a' result h heq
    obtain ⟨-, rfl⟩ := Prod.mk.inj (Except.ok.inj heq)
    exact ⟨S, h, fun i hi _ => hi⟩
  | succ n ih =>
    intro address S a a' result h heq
    rw [freeFramesFrom] at heq
    by_cases hlent : ∃ i ∈ S, address = a₀.addressOf i
    · obtain ⟨i, hi, rfl⟩ := hlent
      obtain ⟨a₁, hfree, h₁⟩ := h.free_of_mem hfresh hi
      rw [hfree, Checked.ok_bind] at heq
      obtain ⟨next, hnext, heq⟩ := Checked.bind_eq_ok.mp heq
      obtain ⟨-, rfl⟩ := addWord_eq_ok_iff.mp hnext
      obtain ⟨S', h', hkept⟩ := ih h₁ heq
      refine ⟨S', h', fun i' hi' hother => hkept i' (Finset.mem_erase.mpr ⟨?_, hi'⟩) fun j hj => ?_⟩
      · rintro rfl
        exact hother 0 (Nat.succ_pos n) (by rw [Nat.zero_mul, Nat.add_zero])
      · rw [Nat.add_assoc, Nat.add_comm pageSize, ← Nat.succ_mul]
        exact hother (j + 1) (Nat.succ_lt_succ hj)
    · obtain ⟨e, hfree⟩ := h.free_of_notMem hfresh fun i hi hcon => hlent ⟨i, hi, hcon⟩
      rw [hfree, Checked.ok_bind] at heq
      obtain ⟨-, rfl⟩ := Prod.mk.inj (Except.ok.inj heq)
      exact ⟨S, h, fun i hi _ => hi⟩

/-- `free_frames` on any range.  Frames that do not start in it stay lent. -/
lemma lent_freeFrames (hfresh : Fresh map a₀) (h : Lent a₀ S a) {range : PhysRange}
    {result : Except FreeError Unit} {a' : FrameAllocator}
    (heq : freeFrames a range = .ok (result, a')) :
    ∃ S', Lent a₀ S' a' ∧ ∀ i ∈ S, ¬ Has range (a₀.addressOf i) → i ∈ S' := by
  rw [freeFrames] at heq
  obtain ⟨top, -, heq⟩ := Checked.bind_eq_ok.mp heq
  obtain ⟨S', h', hkept⟩ := lent_freeFramesFrom hfresh h heq
  refine ⟨S', h', fun i hi hnot => hkept i hi fun j hj hcon => hnot ?_⟩
  rw [hcon]
  have hlt : range.start + j * pageSize < range.start + range.len :=
    forStep_lt (by rwa [Nat.add_sub_cancel_left])
  exact ⟨Nat.le_add_right _ _, hlt⟩

/-- `alloc_frames`.  Lent frames stay lent. -/
lemma lent_allocContiguous (hfresh : Fresh map a₀) (h : Lent a₀ S a) {count : ℕ}
    {result : Option PhysRange} {a' : FrameAllocator}
    (heq : a.allocContiguous count = .ok (result, a')) : ∃ S', Lent a₀ S' a' ∧ S ⊆ S' := by
  rcases h.allocContiguous hfresh count with ⟨heq', -⟩ | ⟨start, a'', heq', -, -, -, hlent⟩
  · rw [heq] at heq'
    obtain ⟨-, rfl⟩ := Prod.mk.inj (Except.ok.inj heq')
    exact ⟨S, h, subset_rfl⟩
  · rw [heq] at heq'
    obtain ⟨-, rfl⟩ := Prod.mk.inj (Except.ok.inj heq')
    exact ⟨_, hlent, Finset.subset_union_left⟩

/-- After any calls, the allocator is the one of `init` with some frames lent. -/
lemma lent_of_frameCalls (hfresh : Fresh map a₀) (h : Lent a₀ S a) {a' : FrameAllocator}
    (hrun : Relation.ReflTransGen FrameCalls a a') : ∃ S', Lent a₀ S' a' := by
  induction hrun with
  | refl => exact ⟨S, h⟩
  | tail _ hcall ih =>
    obtain ⟨S', h'⟩ := ih
    rcases hcall with ⟨count, result, heq⟩ | ⟨range, result, heq⟩
    · obtain ⟨S'', hlent, -⟩ := lent_allocContiguous hfresh h' heq
      exact ⟨S'', hlent⟩
    · obtain ⟨S'', hlent, -⟩ := lent_freeFrames hfresh h' heq
      exact ⟨S'', hlent⟩

/-- What is handed out consists of frames that may be handed out. -/
lemma exists_frame_of_allocContiguous (hfresh : Fresh map a₀) (h : Lent a₀ S a) {count : ℕ}
    {range : PhysRange} {a' : FrameAllocator}
    (halloc : a.allocContiguous count = .ok (some range, a')) {p : ℕ} (hp : Has range p) :
    ∃ k ∈ a₀.freeSet, a₀.addressOf k ≤ p ∧ p < a₀.addressOf k + pageSize := by
  obtain ⟨start, rfl, hrun, -⟩ := h.of_allocContiguous hfresh halloc
  obtain ⟨k, hk, hle, hlt⟩ := a₀.exists_frame_of_lt hp.1 hp.2
  exact ⟨start + k, h.mem_freeSet_of_runAt hrun (Nat.le_add_right _ _)
    (Nat.add_lt_add_left hk start), hle, hlt⟩

/-- A frame that may be handed out and is not lent is the next one, or one of those after it. -/
lemma exists_alloc_of_notMem (hfresh : Fresh map a₀) {k : ℕ} (hk : k ∈ a₀.freeSet)
    (h : Lent a₀ S a) (hnot : k ∉ S) : ∃ a' a'', Relation.ReflTransGen FrameCalls a a' ∧
      a'.allocContiguous 1 = .ok (some ⟨a₀.addressOf k, 1 * pageSize⟩, a'') := by
  obtain ⟨a', a'', hreach, halloc⟩ := h.exists_alloc hfresh hk hnot le_rfl
  refine ⟨a', a'', Relation.ReflTransGen.mono ?_ _ _ hreach, allocContiguous_one_of_alloc halloc⟩
  rintro b b' ⟨frame, hb⟩
  exact .inl ⟨1, _, allocContiguous_one_of_alloc hb⟩

/-- Every frame that may be handed out is handed out in some run. -/
lemma exists_handed_out (hfresh : Fresh map a₀) (h : Lent a₀ S a) {k : ℕ} (hk : k ∈ a₀.freeSet) :
    ∃ a' a'', Relation.ReflTransGen FrameCalls a a' ∧
      a'.allocContiguous 1 = .ok (some ⟨a₀.addressOf k, 1 * pageSize⟩, a'') := by
  by_cases hlent : k ∈ S
  · have hsubset : Finset.Ico k (k + 1) ⊆ S := by
      rw [Nat.Ico_succ_singleton]
      exact Finset.singleton_subset_iff.mpr hlent
    obtain ⟨b, heq, hb⟩ := freeFramesFrom_spec hfresh h hsubset
    have hfree : freeFrames a ⟨a₀.addressOf k, pageSize⟩ = .ok (.ok (), b) := by
      rw [freeFrames, stackTop, addWord_of_lt (addressOf_add_lt (mem_freeSet.mp hk).1),
        Checked.ok_bind]
      exact show freeFramesFrom (divCeil pageSize pageSize) (a₀.addressOf k) a = _ from heq
    have hnot : k ∉ S \ Finset.Ico k (k + 1) := by
      rw [Nat.Ico_succ_singleton]
      exact fun hcon => (Finset.mem_sdiff.mp hcon).2 (Finset.mem_singleton_self k)
    obtain ⟨a', a'', hreach, halloc⟩ := exists_alloc_of_notMem hfresh hk hb hnot
    exact ⟨a', a'', .head (.inr ⟨_, _, hfree⟩) hreach, halloc⟩
  · exact exists_alloc_of_notMem hfresh hk h hlent

/-! ## The main theorem -/

/-- What `install` has done when it succeeds. -/
lemma install_returns_iff {control : ControlRegisters} {arena arena' : TableArena}
    {tables : PageTables} {bytes : Slice UInt8} :
    Returns (install control info arena bytes) (tables, arena') ↔
      checkCpuMode control = .ok () ∧
      ¬ (arena.address < info.kernelBase.toNat ∨
        saturatingAdd info.kernelBase.toNat info.kernelSize.toNat ≤ arena.address) ∧
      ∃ map, bootInfoMemoryMap info bytes = .ok map ∧
        build arena map .m2 = .ok (.ok (tables, arena')) ∧ info.validate = .ok () := by
  simp only [install, returns_bind, returns_throwIf, returns_mapError, returns_ofExcept, returns_mk,
    returns_pure]
  constructor
  · rintro ⟨_, hmode, _, harena, map, hmap, ⟨tables', arena''⟩, hbuild, _, hvalid, heq⟩
    obtain ⟨rfl, rfl⟩ := Prod.mk.inj heq
    exact ⟨hmode, harena, map, hmap, hbuild, hvalid⟩
  · rintro ⟨hmode, harena, map, hmap, hbuild, hvalid⟩
    exact ⟨(), hmode, (), harena, map, hmap, (tables, arena'), hbuild, (), hvalid, rfl⟩

/-- The allocator after `init_allocators`: the heap is lent. -/
lemma initAllocators_returns {bitmap bytes : Slice UInt8} {limit : ℕ} {layout : MemoryLayout}
    (h : Returns (initAllocators info statics bitmap bytes limit) (layout, a)) :
    ∃ map a₀ start, bootInfoMemoryMap info bytes = .ok map ∧
      FrameAllocator.init bitmap map (ownedRanges info statics)
        (.new (min limit maxIdentityBytes)) = .ok (.ok a₀) ∧
      layout.heap = (a₀.addressOf start, heapSize) ∧
      a₀.RunAt (heapSize / pageSize) start ∧
      Lent a₀ (Finset.Ico start (start + heapSize / pageSize)) a := by
  simp only [initAllocators, returns_bind, returns_mapError, returns_ofExcept, returns_mk,
    returns_lift, returns_okOr, returns_pure] at h
  obtain ⟨map, hmap, a₀, hinit, ⟨region, a'⟩, halloc, range, rfl, h⟩ := h
  obtain ⟨rfl, rfl⟩ := Prod.mk.inj h
  have hfresh := (initial_of_init hinit).fresh
  obtain ⟨start, rfl, hrun, hlent⟩ := (Lent.refl a₀).of_allocContiguous hfresh halloc
  rw [Finset.empty_union] at hlent
  exact ⟨map, a₀, start, hmap, hinit, rfl, hrun, hlent⟩

/-- **Memory given at boot.**  After `init_allocators` has succeeded, no call of `alloc_frames` in
any sequence of calls of `alloc_frames` and `free_frames` returns a range that meets the memory that
the kernel has been given at boot, however the memory map classifies it; for the user image this
holds if and only if the memory map does not offer one of its frames. -/
theorem boot_memory_kept_iff (info : BootInfo) (statics : Statics) (bitmap bytes : Slice UInt8)
    (limit : ℕ) (layout : MemoryLayout) (a : FrameAllocator)
    (h : Returns (initAllocators info statics bitmap bytes limit) (layout, a)) :
    (∀ a', Relation.ReflTransGen FrameCalls a a' → ∀ count range a'',
      a'.allocContiguous count = .ok (some range, a'') →
      (∀ given ∈ bootMemory info statics, ¬ Meets range given) ∧
      (info.hasUserImage = true → ¬ Meets range (userImage info))) ↔
    (info.hasUserImage = true → ∀ map, bootInfoMemoryMap info bytes = .ok map →
      ∀ f, Offered map (ownedRanges info statics) (min limit maxIdentityBytes) f →
        ¬ Meets ⟨f, pageSize⟩ (userImage info)) := by
  obtain ⟨map, a₀, start, hmap, hinit, -, -, hlent⟩ := initAllocators_returns h
  have hinitial := initial_of_init hinit
  have hfresh := hinitial.fresh
  constructor
  · intro hkept huser map' hmap' f hoffered hmeets
    rw [hmap] at hmap'
    obtain rfl := Except.ok.inj hmap'
    obtain ⟨k, hk, rfl⟩ := (mem_freeSet_iff_offered hinit).mpr hoffered
    obtain ⟨a', a'', hrun, halloc⟩ := exists_handed_out hfresh hlent hk
    rw [one_mul] at halloc
    exact (hkept a' hrun 1 _ a'' halloc).2 huser hmeets
  · intro hsafe a' hrun count range a'' halloc
    obtain ⟨S', hlent'⟩ := lent_of_frameCalls hfresh hlent hrun
    constructor
    · rintro given hgiven ⟨p, hp, hp'⟩
      obtain ⟨k, hk, hle, hlt⟩ := exists_frame_of_allocContiguous hfresh hlent' halloc hp
      refine not_has_bootMemory (addressOf_add_lt (mem_freeSet.mp hk).1) ?_ hle hlt hgiven hp'
      exact fun r hr => hinitial.apart_of_reserved hr hk
    · rintro huser ⟨p, hp, hp'⟩
      obtain ⟨k, hk, hle, hlt⟩ := exists_frame_of_allocContiguous hfresh hlent' halloc hp
      exact hsafe huser map hmap _ ((mem_freeSet_iff_offered hinit).mp ⟨k, hk, rfl⟩)
        ⟨p, ⟨hle, hlt⟩, hp'⟩

/-- A memory map with one region of conventional memory, from 0 to 0x201000. -/
def lowTable : Slice UInt8 where
  toList := leBytes 8 7 ++ leBytes 8 0 ++ leBytes 8 0 ++ leBytes 8 0x201 ++ leBytes 8 0
  length_lt := by decide

/-- A kernel below 1 MiB, and a user image of one page. -/
def lowBoot (userPhys : UInt64) : BootInfo :=
  { BootInfo.new with
    mmapPtr := 0x7000, mmapLen := 1, mmapDescSize := 40, kernelBase := 0x10000,
    kernelSize := 0x60000, stackTop := 0x90000, stackSize := 0x10000, userPhys,
    userSize := 0x1000, userVaddr := 0x100000000, userEntry := 0x100000000 }

/-- The addresses inside of this kernel. -/
def lowStatics : Statics := ⟨0x8000, 0x10000, 0x20000⟩

/-- The bitmap for the frames from 1 MiB to 0x201000. -/
def lowBitmap : Slice UInt8 := ⟨List.replicate 66 0, by decide⟩

/-- The heap takes the frames from 1 MiB to 2 MiB, and the next frame is the one behind it.  The
place of the user image does not matter. -/
lemma initAllocators_low (userPhys : UInt64) :
    (initAllocators (lowBoot userPhys) lowStatics lowBitmap lowTable 0x201000).returnsAnd
      (fun r => Checked.okAnd (r.2.allocContiguous 1) fun q => q.1 = some ⟨0x200000, 0x1000⟩) =
        true := by
  have hzero : (initAllocators (lowBoot 0) lowStatics lowBitmap lowTable 0x201000).returnsAnd
      (fun r => Checked.okAnd (r.2.allocContiguous 1) fun q => q.1 = some ⟨0x200000, 0x1000⟩) =
        true := by
    decide +kernel
  exact hzero

/-- With a user image below 1 MiB nothing can happen to it. -/
theorem boot_memory_kept_iff_low : ∃ layout a,
    Returns (initAllocators (lowBoot 0x9000) lowStatics lowBitmap lowTable 0x201000) (layout, a) ∧
    ∀ a', Relation.ReflTransGen FrameCalls a a' → ∀ count range a'',
      a'.allocContiguous count = .ok (some range, a'') →
      ¬ Meets range (userImage (lowBoot 0x9000)) := by
  obtain ⟨⟨layout, a⟩, hreturns, -⟩ := returnsAnd_eq_true_iff.mp (initAllocators_low 0x9000)
  have hkept := (boot_memory_kept_iff _ _ _ _ _ _ _ hreturns).mpr ?_
  · exact ⟨layout, a, hreturns, fun a' hrun count range a'' halloc =>
      (hkept a' hrun count range a'' halloc).2 (by decide)⟩
  · rintro - map - f ⟨-, hmin, -⟩ ⟨p, ⟨hle, -⟩, -, hlt⟩
    have hstop : p < 0x9000 + 0x1000 := hlt
    simp only [minFreeAddr] at hmin hle
    omega

/-- With a user image above the heap, `alloc_frames` hands it out. -/
theorem user_image_handed_out : ∃ layout a a',
    (lowBoot 0x200000).validate = .ok () ∧ (lowBoot 0x200000).hasUserImage = true ∧
    Returns (initAllocators (lowBoot 0x200000) lowStatics lowBitmap lowTable 0x201000) (layout, a) ∧
    a.allocContiguous 1 = .ok (some ⟨0x200000, 0x1000⟩, a') ∧
    Meets ⟨0x200000, 0x1000⟩ (userImage (lowBoot 0x200000)) := by
  obtain ⟨⟨layout, a⟩, hreturns, halloc⟩ :=
    returnsAnd_eq_true_iff.mp (initAllocators_low 0x200000)
  obtain ⟨⟨result, a'⟩, heq, hresult⟩ := Checked.okAnd_eq_true_iff.mp halloc
  obtain rfl : result = some ⟨0x200000, 0x1000⟩ := of_decide_eq_true hresult
  exact ⟨layout, a, a', rfl, by decide, hreturns, heq, 0x200000, ⟨le_rfl, by decide⟩, by decide,
    by decide⟩

end Kernel

end ParanukOS
