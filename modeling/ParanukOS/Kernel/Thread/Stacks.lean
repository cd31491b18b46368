import ParanukOS.Kernel.Thread.Model
import ParanukOS.KernelMemory.Frame.Run

/-!
# The stacks of the threads

Every thread runs on a stack of its own: four frames that the allocator has lent, or the stack of
the boot loader for the boot thread.  The stacks of different threads are disjoint, hence a frame
that is stored on one of them leaves the frames on the others as they are.

## Outline

* `Stacks`, `Owns`: who owns which stack.
* `Stacks.store_eq`: storing a frame on another stack.
* `Stacks.alloc`, `Stacks.free`: a stack is allocated and freed.
-/

namespace ParanukOS

open Foundation KernelMemory KernelSched FrameAllocator

namespace Kernel

variable {map : MemoryMap} {a₀ frames : FrameAllocator} {bootStack : PhysRange} {S : Finset ℕ}
  {place : ThreadId → Option ℕ}

/-- The stack whose first frame has the given index. -/
def stackAt (a₀ : FrameAllocator) (k : ℕ) : PhysRange :=
  { start := a₀.addressOf k, len := threadStackPages * pageSize }

lemma stackAt_stop (a₀ : FrameAllocator) (k : ℕ) :
    (stackAt a₀ k).start + (stackAt a₀ k).len = a₀.addressOf (k + threadStackPages) :=
  (addressOf_add a₀ k threadStackPages).symm

/-- The thread `id` has its stack at the index `place id`.  The frames are lent, and different
threads have different ones; none of them belongs to the boot stack. -/
structure Stacks (a₀ frames : FrameAllocator) (bootStack : PhysRange) (S : Finset ℕ)
    (place : ThreadId → Option ℕ) : Prop where
  lent : Lent a₀ S frames
  firstFrame_pos : 0 < a₀.firstFrame
  boot_start : 0 < bootStack.start
  boot_len : 0 < bootStack.len
  boot_disjoint : ∀ k ∈ a₀.freeSet, bootStack.start + bootStack.len ≤ a₀.addressOf k ∨
    a₀.addressOf k + pageSize ≤ bootStack.start
  subset : ∀ id k, place id = some k → Finset.Ico k (k + threadStackPages) ⊆ S
  disjoint : ∀ id id' k k', id ≠ id' → place id = some k → place id' = some k' →
    k + threadStackPages ≤ k' ∨ k' + threadStackPages ≤ k

/-- The stack is the one of the thread. -/
def Owns (a₀ : FrameAllocator) (bootStack : PhysRange) (place : ThreadId → Option ℕ)
    (id : ThreadId) (stack : PhysRange) : Prop :=
  id = 0 ∧ stack = bootStack ∨ ∃ k, place id = some k ∧ stack = stackAt a₀ k

/-- Two ranges have no byte in common. -/
def Apart (r r' : PhysRange) : Prop := r.start + r.len ≤ r'.start ∨ r'.start + r'.len ≤ r.start

lemma Apart.symm {r r' : PhysRange} (h : Apart r r') : Apart r' r := Or.symm h

/-- Storing a frame leaves a frame elsewhere as it is. -/
lemma store_of_apart {r r' : PhysRange} (h : Apart r r') {address p : ℕ}
    (haddress : OnStack r address)
    (hp : OnStack r' p) (memory : FrameMemory) (saved : SavedFrame) :
    memory.store address saved p = memory p := by
  obtain ⟨h1, h2⟩ := haddress
  obtain ⟨h3, h4⟩ := hp
  have hpos : 0 < irqFrameSize := by decide
  have hne : p ≠ address := by
    rintro rfl
    rcases h with h | h <;> omega
  have hout : ¬ (p < address + irqFrameSize ∧ address < p + irqFrameSize) := by
    rintro ⟨h5, h6⟩
    rcases h with h | h <;> omega
  rw [FrameMemory.store, if_neg hne, if_neg hout]

/-- The frame that has been stored. -/
lemma store_self (memory : FrameMemory) (address : ℕ) (saved : SavedFrame) :
    memory.store address saved address = some saved := if_pos rfl

namespace Stacks

/-- No frame starts at address 0. -/
lemma start_pos (h : Stacks a₀ frames bootStack S place) {id : ThreadId} {stack : PhysRange}
    (howns : Owns a₀ bootStack place id stack) : 0 < stack.start := by
  rcases howns with ⟨-, rfl⟩ | ⟨k, -, rfl⟩
  · exact h.boot_start
  · exact Nat.mul_pos (Nat.add_pos_left h.firstFrame_pos k) (by decide)

/-- A frame on a stack is not at address 0. -/
lemma address_ne_zero (h : Stacks a₀ frames bootStack S place) {id : ThreadId} {stack : PhysRange}
    (howns : Owns a₀ bootStack place id stack) {address : ℕ} (haddress : OnStack stack address) :
    address ≠ 0 := by
  have hpos := h.start_pos howns
  have hle := haddress.1
  omega

/-- The index of a frame of a stack. -/
lemma mem_freeSet_of_place (h : Stacks a₀ frames bootStack S place) {id : ThreadId} {k j : ℕ}
    (hk : place id = some k) (hj : j < threadStackPages) : k + j ∈ a₀.freeSet :=
  h.lent.subset (h.subset id k hk (Finset.mem_Ico.mpr ⟨by omega, by omega⟩))

/-- A stack ends inside of the address space. -/
lemma stackTop_eq (h : Stacks a₀ frames bootStack S place) {id : ThreadId} {k : ℕ}
    (hk : place id = some k) :
    stackTop (stackAt a₀ k) = .ok (a₀.addressOf (k + threadStackPages)) := by
  have hmem := h.mem_freeSet_of_place hk (show 3 < threadStackPages by decide)
  have hlt := addressOf_add_lt (mem_freeSet.mp hmem).1
  rw [← addressOf_succ] at hlt
  rw [stackTop, addWord, stackAt_stop, if_pos (by simpa [threadStackPages] using hlt)]

/-- The boot stack and another one. -/
lemma boot_apart (h : Stacks a₀ frames bootStack S place) {id : ThreadId} {k : ℕ}
    (hk : place id = some k) : Apart bootStack (stackAt a₀ k) := by
  have hlen := h.boot_len
  have hstep : ∀ j < threadStackPages, bootStack.start + bootStack.len ≤ a₀.addressOf k ∨
      a₀.addressOf (k + (j + 1)) ≤ bootStack.start := by
    intro j hj
    induction j with
    | zero =>
      rw [Nat.zero_add, addressOf_succ]
      exact h.boot_disjoint _ (h.mem_freeSet_of_place hk (j := 0) (by decide))
    | succ j ih =>
      rcases ih (by omega) with hlow | hhigh
      · exact .inl hlow
      · rcases h.boot_disjoint _ (h.mem_freeSet_of_place hk hj) with hlow | hnext
        · omega
        · right
          rwa [← Nat.add_assoc, addressOf_succ]
  rcases hstep 3 (by decide) with hlow | hhigh
  · exact .inl hlow
  · refine .inr ?_
    rw [stackAt_stop]
    exact hhigh

/-- Stacks of different threads are disjoint. -/
lemma apart (h : Stacks a₀ frames bootStack S place) {id id' : ThreadId} (hne : id ≠ id')
    {r r' : PhysRange} (hr : Owns a₀ bootStack place id r)
    (hr' : Owns a₀ bootStack place id' r') : Apart r r' := by
  rcases hr with ⟨rfl, rfl⟩ | ⟨k, hk, rfl⟩
  · rcases hr' with ⟨rfl, -⟩ | ⟨k', hk', rfl⟩
    · exact absurd rfl hne
    · exact h.boot_apart hk'
  · rcases hr' with ⟨-, rfl⟩ | ⟨k', hk', rfl⟩
    · exact (h.boot_apart hk).symm
    · rw [Apart, stackAt_stop, stackAt_stop]
      rcases h.disjoint id id' k k' hne hk hk' with hle | hle
      · exact .inl (a₀.addressOf_mono hle)
      · exact .inr (a₀.addressOf_mono hle)

/-- A frame stored on the stack of one thread leaves the frames on the other stacks as they are. -/
lemma store_eq (h : Stacks a₀ frames bootStack S place) {id id' : ThreadId} (hne : id ≠ id')
    {r r' : PhysRange} (hr : Owns a₀ bootStack place id r) (hr' : Owns a₀ bootStack place id' r')
    {address p : ℕ} (haddress : OnStack r address) (hp : OnStack r' p) (memory : FrameMemory)
    (saved : SavedFrame) : memory.store address saved p = memory p :=
  store_of_apart (h.apart hne hr hr') haddress hp memory saved

/-- A stack is allocated, unless there is no memory for it. -/
lemma alloc (hfresh : Fresh map a₀) (h : Stacks a₀ frames bootStack S place) (id : ThreadId) :
    frames.allocContiguous threadStackPages = .ok (none, frames) ∨
    ∃ k frames', frames.allocContiguous threadStackPages = .ok (some (stackAt a₀ k), frames') ∧
      Stacks a₀ frames' bootStack (S ∪ Finset.Ico k (k + threadStackPages))
        (Function.update place id (some k)) ∧
      Disjoint S (Finset.Ico k (k + threadStackPages)) := by
  rcases h.lent.allocContiguous hfresh threadStackPages with
    ⟨heq, -⟩ | ⟨k, frames', heq, -, hrun, -, hlent⟩
  · exact .inl heq
  · refine .inr ⟨k, frames', heq, ⟨hlent, h.firstFrame_pos, h.boot_start, h.boot_len,
      h.boot_disjoint, fun i j hj => ?_, ?_⟩, ?_⟩
    · rw [Function.update_apply] at hj
      split_ifs at hj with hi
      · obtain rfl := Option.some.inj hj
        exact Finset.subset_union_right
      · exact (h.subset i j hj).trans Finset.subset_union_left
    · -- the new frames are not lent before, hence not part of another stack
      have hnew : ∀ i j, place i = some j →
          j + threadStackPages ≤ k ∨ k + threadStackPages ≤ j := by
        intro i j hj
        by_contra hcon
        have hmax : max j k ∈ S :=
          h.subset i j hj (Finset.mem_Ico.mpr ⟨le_max_left _ _, by omega⟩)
        exact h.lent.notMem_of_runAt hrun (le_max_right _ _) (by omega) hmax
      intro i i' j j' hne hj hj'
      rw [Function.update_apply] at hj hj'
      split_ifs at hj hj' with hi hi' hi'
      · exact absurd (hi.trans hi'.symm) hne
      · obtain rfl := Option.some.inj hj
        exact (hnew i' j' hj').symm
      · obtain rfl := Option.some.inj hj'
        exact hnew i j hj
      · exact h.disjoint i i' j j' hne hj hj'
    · refine Finset.disjoint_right.mpr fun i hi => ?_
      exact h.lent.notMem_of_runAt hrun (Finset.mem_Ico.mp hi).1 (Finset.mem_Ico.mp hi).2

end Stacks

/-- Freeing frames that are lent, one after the other. -/
lemma freeFramesFrom_spec (hfresh : Fresh map a₀) {n : ℕ} :
    ∀ {k : ℕ} {S : Finset ℕ} {frames : FrameAllocator}, Lent a₀ S frames →
      Finset.Ico k (k + n) ⊆ S →
      ∃ frames', freeFramesFrom n (a₀.addressOf k) frames = .ok (.ok (), frames') ∧
        Lent a₀ (S \ Finset.Ico k (k + n)) frames' := by
  induction n with
  | zero =>
    intro k S frames h _
    refine ⟨frames, rfl, ?_⟩
    rwa [Nat.add_zero, Finset.Ico_self, Finset.sdiff_empty]
  | succ n ih =>
    intro k S frames h hsubset
    have hk : k ∈ S := hsubset (Finset.mem_Ico.mpr ⟨le_rfl, by omega⟩)
    obtain ⟨frames₁, hfree, hlent⟩ := h.free_of_mem hfresh hk
    have hrest : Finset.Ico (k + 1) (k + 1 + n) ⊆ S.erase k := by
      intro i hi
      obtain ⟨hle, hlt⟩ := Finset.mem_Ico.mp hi
      exact Finset.mem_erase.mpr ⟨by omega, hsubset (Finset.mem_Ico.mpr ⟨by omega, by omega⟩)⟩
    have hword := addressOf_add_lt (mem_freeSet.mp (h.subset hk)).1
    obtain ⟨frames', heq, hlent'⟩ := ih hlent hrest
    have hset : S.erase k \ Finset.Ico (k + 1) (k + 1 + n) = S \ Finset.Ico k (k + (n + 1)) := by
      ext i
      simp only [Finset.mem_sdiff, Finset.mem_erase, Finset.mem_Ico]
      constructor
      · rintro ⟨⟨hne, hi⟩, hout⟩
        exact ⟨hi, by omega⟩
      · rintro ⟨hi, hout⟩
        exact ⟨⟨by omega, hi⟩, by omega⟩
    refine ⟨frames', ?_, hset ▸ hlent'⟩
    rw [freeFramesFrom, hfree, Checked.ok_bind]
    simp only
    rw [addWord_of_lt hword, Checked.ok_bind, ← addressOf_succ, heq]

/-- `free_frames` takes the stack of a thread back. -/
lemma Stacks.free (hfresh : Fresh map a₀) (h : Stacks a₀ frames bootStack S place) {id : ThreadId}
    {k : ℕ} (hk : place id = some k) :
    ∃ frames', freeFrames frames (stackAt a₀ k) = .ok (.ok (), frames') ∧
      Stacks a₀ frames' bootStack (S \ Finset.Ico k (k + threadStackPages))
        (Function.update place id none) := by
  obtain ⟨frames', heq, hlent⟩ := freeFramesFrom_spec hfresh h.lent (h.subset id k hk)
  have hcount : divCeil (stackAt a₀ k).len pageSize = threadStackPages :=
    show divCeil (threadStackPages * pageSize) pageSize = threadStackPages by decide
  refine ⟨frames', ?_, hlent, h.firstFrame_pos, h.boot_start, h.boot_len, h.boot_disjoint,
    fun i j hj => ?_, fun i i' j j' hne hj hj' => ?_⟩
  · rw [freeFrames, h.stackTop_eq hk, Checked.ok_bind, hcount]
    exact heq
  · rw [Function.update_apply] at hj
    split_ifs at hj with hi
    intro l hl
    refine Finset.mem_sdiff.mpr ⟨h.subset i j hj hl, fun hcon => ?_⟩
    rw [Finset.mem_Ico] at hl hcon
    rcases h.disjoint i id j k hi hj hk with hle | hle <;> omega
  · rw [Function.update_apply] at hj hj'
    split_ifs at hj hj' with hi hi'
    exact h.disjoint i i' j j' hne hj hj'

end Kernel

end ParanukOS
