import ParanukOS.KernelMemory.Frame.Run
import ParanukOS.KernelMemory.Paging.Isolation

/-!
# Frames are usable memory

The frame allocator and the builder of the page tables read the same memory map by different rules:
the one hands out frames that start in conventional memory, the other maps pages that hold RAM,
small or large, up to the limit.  The kernel dereferences the frames it is handed out.  Here the two
are put together: every byte of them is mapped at its own address.
-/

namespace ParanukOS

open Foundation

namespace KernelMemory

open FrameAllocator

variable {map : MemoryMap} {arena arena' : TableArena} {tables : PageTables} {a₀ : FrameAllocator}

/-- An address that the kernel can use: above 1 MiB, below the limit of the identity map, mapped at
its own address and writable. -/
def UsableAt (arena : TableArena) (tables : PageTables) (p : ℕ) : Prop :=
  minFreeAddr ≤ p ∧ p < tables.limit ∧
    ∃ t, walk arena tables.pml4Phys p = .mapped t ∧ t.phys = p ∧ t.writable = true

/-- The bytes of a frame that may be handed out. -/
lemma usableAt_of_allocatable {reserved : List ReservedRange} {limit : ℕ}
    (hbuilt : Built arena map .m2 tables arena')
    (hinitial : Initial map reserved (.new (min tables.limit limit)) a₀) {i : ℕ}
    (hi : i < a₀.frames) (hbit : a₀.allocatable.bitAt i = true) {p : ℕ}
    (hlow : a₀.addressOf i ≤ p) (hhigh : p < a₀.addressOf i + pageSize) :
    UsableAt arena' tables p := by
  obtain ⟨haligned, hstart, hstop⟩ := hinitial.bounds (i := i) (n := 1) hi
  obtain ⟨r, hr, hkind, hcontains⟩ := hinitial.fresh.conventional i hi hbit
  have hram : map.HasRam (a₀.addressOf i) (a₀.addressOf i + 1) :=
    ⟨r, hr, by rw [hkind]; rfl, a₀.addressOf i, hcontains, le_rfl, Nat.lt_succ_self _⟩
  have hstop' : a₀.addressOf i + 1 * pageSize ≤ tables.limit := le_trans hstop (min_le_left _ _)
  have hstart' : minFreeAddr ≤ p := le_trans hstart hlow
  have hlimit : p < tables.limit := by
    rw [one_mul] at hstop'
    omega
  have hsame : a₀.addressOf i / pageSize = p / pageSize := by
    simp only [pageSize] at haligned hhigh ⊢
    omega
  obtain ⟨leaf, hwalk⟩ := hbuilt.walk_of_ram (by decide) hram hsame
    (le_trans (by decide) hstart') hlimit
  exact ⟨hstart', hlimit, _, hwalk, rfl, rfl⟩

/-- A run of frames that are free consists of frames that may be handed out. -/
lemma usableAt_of_runAt {reserved : List ReservedRange} {limit count start : ℕ} {S : Finset ℕ}
    {a : FrameAllocator} (hbuilt : Built arena map .m2 tables arena')
    (hinitial : Initial map reserved (.new (min tables.limit limit)) a₀) (hlent : Lent a₀ S a)
    (hrun : a.RunAt count start) {p : ℕ} (hlow : a₀.addressOf start ≤ p)
    (hhigh : p < a₀.addressOf start + count * pageSize) : UsableAt arena' tables p := by
  obtain ⟨k, hk, hle, hlt⟩ := a₀.exists_frame_of_lt hlow hhigh
  obtain ⟨hframe, hfree⟩ := mem_freeSet.mp
    (hlent.mem_freeSet_of_runAt hrun (Nat.le_add_right start k) (Nat.add_lt_add_left hk start))
  rw [hinitial.fresh.freeAt_eq hframe] at hfree
  exact usableAt_of_allocatable hbuilt hinitial hframe hfree hle hlt

/-- **Frames are usable.**  Let the page tables be built with the configuration of the kernel, and
let the frame allocator be initialised on the same memory map up to the limit of the tables, or 4
GiB if this is lower.  After any calls, every byte of what `alloc` and `alloc_contiguous` return is
mapped at its own address, writable, not below 1 MiB and below the limit. -/
theorem frames_usable (map : MemoryMap) (arena arena' : TableArena) (tables : PageTables)
    (hbuild : build arena map .m2 = .ok (.ok (tables, arena'))) (bitmap : Slice UInt8)
    (reserved : List ReservedRange) (a₀ : FrameAllocator)
    (hinit : FrameAllocator.init bitmap map reserved (.new (min tables.limit maxIdentityBytes)) =
      .ok (.ok a₀)) (s : FrameState) (hrun : FrameState.Reached a₀ s) :
    (∀ frame a', s.allocator.alloc = .ok (some frame, a') →
      ∀ p, frame.address ≤ p → p < frame.address + pageSize → UsableAt arena' tables p) ∧
    (∀ count range a', s.allocator.allocContiguous count = .ok (some range, a') →
      ∀ p, range.start ≤ p → p < range.start + range.len → UsableAt arena' tables p) := by
  have hbuilt := built_of_build hbuild
  have hinitial := initial_of_init hinit
  obtain ⟨S, hlent, -⟩ := Owned.of_reached hinitial.fresh hrun
  constructor
  · intro frame a' halloc p hlow hhigh
    obtain ⟨i, rfl, hrunAt⟩ := hlent.of_alloc hinitial.fresh halloc
    exact usableAt_of_runAt hbuilt hinitial hlent hrunAt hlow (by rwa [one_mul])
  · intro count range a' halloc p hlow hhigh
    obtain ⟨start, rfl, hrunAt, -⟩ := hlent.of_allocContiguous hinitial.fresh halloc
    exact usableAt_of_runAt hbuilt hinitial hlent hrunAt hlow hhigh

/-- On the small machine, the first frame that is handed out is usable. -/
theorem frames_usable_smallMap : ∃ tables arena' a₀ a',
    build (clearedArena 7 (by decide)) smallMap .m2 = .ok (.ok (tables, arena')) ∧
    FrameAllocator.init ⟨[0, 0], by decide⟩ smallMap []
      (.new (min tables.limit maxIdentityBytes)) = .ok (.ok a₀) ∧
    a₀.alloc = .ok (some ⟨0x100000⟩, a') ∧ UsableAt arena' tables 0x100000 := by
  obtain ⟨tables, arena', hbuild, hbuilt⟩ := build_spec (buildable_clearedArena (by decide) le_rfl)
  have hlimit : min tables.limit maxIdentityBytes = 0x108000 := by
    obtain ⟨top, htop, hlimit⟩ := hbuilt.limit_eq
    rw [(buildable_clearedArena (n := 7) (by decide) le_rfl).ramTop_eq, Option.some.injEq] at htop
    rw [hlimit, ← htop]
    decide
  obtain ⟨a₀, a', hinit, halloc⟩ := alloc_smallMap
  rw [← hlimit] at hinit
  have husable := frames_usable smallMap _ arena' tables hbuild _ [] a₀ hinit ⟨a₀, []⟩ .refl
  exact ⟨tables, arena', a₀, a', hbuild, hinit, halloc,
    husable.1 _ a' halloc _ le_rfl (by decide)⟩

end KernelMemory

end ParanukOS
