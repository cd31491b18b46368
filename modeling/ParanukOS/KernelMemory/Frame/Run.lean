import Mathlib.Data.Finset.Card
import Mathlib.Logic.Relation
import ParanukOS.KernelMemory.Frame.Spec

/-!
# Ownership of frames over whole runs

A run starts with the allocator of `init` and consists of calls of `alloc`, `alloc_contiguous` and
`free` with arbitrary arguments.  The state of a run records the frames that are outstanding: handed
out and not taken back since.  In every state that is reached the allocator is the one of `init`
with exactly the outstanding frames lent, so nothing else about the history matters.

## Outline

* `Lent`, `Lent.ext`: the representation, which determines the allocator.
* `Lent.alloc`, `Lent.allocContiguous`, `Lent.free`: the operations.
* `FrameState`, `FrameState.step`: the runs, and `Owned`, the invariant.
* `frame_ownership`, `contiguous_first_fit`: the main theorems.
-/

namespace ParanukOS

open Foundation

namespace KernelMemory

namespace FrameAllocator

variable {map : MemoryMap} {a₀ a a' : FrameAllocator} {S : Finset ℕ} {index count : ℕ}

/-- The allocator `a` is `a₀` with the frames of `S` handed out. -/
structure Lent (a₀ : FrameAllocator) (S : Finset ℕ) (a : FrameAllocator) : Prop where
  allocatable_eq : a.allocatable = a₀.allocatable
  window : SameWindow a₀ a
  length_eq : a.used.length = a₀.used.length
  used_eq : ∀ i, a.used.bitAt i = (a₀.used.bitAt i || decide (i ∈ S))
  subset : S ⊆ a₀.freeSet
  freeFrames_eq : a.freeFrames + S.card = a₀.freeFrames

/-- The frame of a run that an address lies in. -/
lemma exists_frame_of_lt (a₀ : FrameAllocator) {start p : ℕ} (hlow : a₀.addressOf start ≤ p)
    (hhigh : p < a₀.addressOf start + count * pageSize) :
    ∃ k < count, a₀.addressOf (start + k) ≤ p ∧ p < a₀.addressOf (start + k) + pageSize := by
  refine ⟨(p - a₀.addressOf start) / pageSize, ?_, ?_, ?_⟩
  · refine (Nat.div_lt_iff_lt_mul (by decide)).mpr ?_
    omega
  · rw [addressOf_add]
    have := Nat.div_mul_le_self (p - a₀.addressOf start) pageSize
    omega
  · rw [addressOf_add]
    have := Nat.lt_div_mul_add (a := p - a₀.addressOf start) (show 0 < pageSize by decide)
    omega

/-- One call of `alloc` that hands out a frame. -/
def Allocs (a a' : FrameAllocator) : Prop := ∃ frame, a.alloc = .ok (some frame, a')

/-- `alloc` is `alloc_contiguous` for one frame. -/
lemma allocContiguous_one (a : FrameAllocator) :
    a.allocContiguous 1 = (do
      let (frame, a') ← a.alloc
      return (frame.map fun frame => ⟨frame.address, pageSize⟩, a')) := by
  rw [FrameAllocator.allocContiguous, FrameAllocator.alloc, if_neg one_ne_zero]
  cases a.findFreeRun 1 with
  | error e => rfl
  | ok r =>
    cases r with
    | none => rfl
    | some start =>
      simp only [Checked.ok_bind, forRange, Nat.add_zero]
      cases a.markUsed start with
      | error e => rfl
      | ok a' =>
        simp only [Checked.ok_bind]
        cases addWord a'.firstFrame start with
        | error e => rfl
        | ok n =>
          simp only [Checked.ok_bind]
          cases mulWord n pageSize with
          | error e => rfl
          | ok n => rfl

lemma allocContiguous_one_of_alloc {frame : PhysFrame} (h : a.alloc = .ok (some frame, a')) :
    a.allocContiguous 1 = .ok (some ⟨frame.address, pageSize⟩, a') := by
  rw [allocContiguous_one, h]
  rfl

/-- `alloc_contiguous` fails only when there is no run of free frames, and then it changes
nothing. -/
lemma of_allocContiguous_none (hcount : 0 < count) (h : a.allocContiguous count = .ok (none, a')) :
    a' = a ∧ ∀ start, ¬ a.RunAt count start := by
  obtain ⟨r, hsearch, hfound⟩ := findFreeRun_spec (a := a) hcount
  rw [FrameAllocator.allocContiguous, if_neg hcount.ne', hsearch, Checked.ok_bind] at h
  cases r with
  | none =>
    obtain ⟨-, rfl⟩ := Prod.mk.inj (Except.ok.inj h)
    exact ⟨rfl, hfound⟩
  | some start =>
    simp only [Checked.bind_eq_ok] at h
    obtain ⟨_, -, _, -, _, -, _, -, h⟩ := h
    cases h

namespace Lent

lemma refl (a₀ : FrameAllocator) : Lent a₀ ∅ a₀ :=
  ⟨rfl, ⟨rfl, rfl, rfl⟩, rfl, fun i => by simp, Finset.empty_subset _, rfl⟩

/-- The frames lent determine the allocator. -/
lemma ext (h : Lent a₀ S a) (h' : Lent a₀ S a') : a = a' := by
  have hallocatable : a.allocatable = a'.allocatable :=
    h.allocatable_eq.trans h'.allocatable_eq.symm
  have hused : a.used = a'.used :=
    Slice.ext_bitAt (h.length_eq.trans h'.length_eq.symm) fun i => by rw [h.used_eq, h'.used_eq]
  have hfirst := h.window.firstFrame_eq.trans h'.window.firstFrame_eq.symm
  have hframes := h.window.frames_eq.trans h'.window.frames_eq.symm
  have hreserved := h.window.reserved_eq.trans h'.window.reserved_eq.symm
  have hfree : a.freeFrames = a'.freeFrames := by
    have h1 := h.freeFrames_eq
    have h2 := h'.freeFrames_eq
    omega
  cases a
  cases a'
  simp only at hallocatable hused hfirst hframes hreserved hfree
  subst hallocatable hused hfirst hframes hreserved hfree
  rfl

/-- A frame is free if it was free at first and is not lent. -/
lemma freeAt_eq (h : Lent a₀ S a) (i : ℕ) : a.freeAt i = (a₀.freeAt i && !decide (i ∈ S)) := by
  rw [freeAt, freeAt, h.allocatable_eq, h.used_eq, Bool.not_or, Bool.and_assoc]

lemma freeAt_eq_true_iff (h : Lent a₀ S a) {i : ℕ} :
    a.freeAt i = true ↔ a₀.freeAt i = true ∧ i ∉ S := by
  rw [h.freeAt_eq, Bool.and_eq_true, Bool.not_eq_true', decide_eq_false_iff_not]

lemma addressOf_eq (h : Lent a₀ S a) (i : ℕ) : a.addressOf i = a₀.addressOf i := by
  rw [addressOf, addressOf, h.window.firstFrame_eq]

/-- The frames of a run that is free are not lent. -/
lemma notMem_of_runAt (h : Lent a₀ S a) {start i : ℕ} (hrun : a.RunAt count start) (hle : start ≤ i)
    (hlt : i < start + count) : i ∉ S := by
  have hfree := hrun.2 (i - start) (by omega)
  rw [Nat.add_sub_cancel' hle] at hfree
  exact (h.freeAt_eq_true_iff.mp hfree).2

/-- Handing out one more frame.  The counter cannot underflow, since there are at least as many free
frames at first as are lent then. -/
lemma markUsed (hfresh : Fresh map a₀) (h : Lent a₀ S a) (hindex : index ∈ a₀.freeSet)
    (hS : index ∉ S) : ∃ a', a.markUsed index = .ok a' ∧ Lent a₀ (insert index S) a' := by
  have hsubset : insert index S ⊆ a₀.freeSet := Finset.insert_subset hindex h.subset
  have hcard : S.card + 1 ≤ a₀.freeFrames := by
    rw [← Finset.card_insert_of_notMem hS]
    exact le_trans (Finset.card_le_card hsubset) hfresh.card_le
  have hfree := h.freeFrames_eq
  have hlt : index < a.frames := by
    rw [h.window.frames_eq]
    exact (mem_freeSet.mp hindex).1
  refine ⟨_, markUsed_eq hlt (by omega), h.allocatable_eq, ⟨h.window.firstFrame_eq,
    h.window.frames_eq, h.window.reserved_eq⟩, ?_, fun i => ?_, hsubset, ?_⟩
  · rw [← h.length_eq]
    exact Slice.length_setBitAt _ _ _
  · rw [bitAt_withUsed hlt, h.used_eq]
    by_cases hi : i = index
    · simp [hi]
    · simp [hi]
  · rw [Finset.card_insert_of_notMem hS]
    simp only [withUsed]
    omega

/-- Handing out a run of frames. -/
lemma markRun (hfresh : Fresh map a₀) (h : Lent a₀ S a) {start : ℕ} (hrun : a.RunAt count start) :
    ∃ a', (forRange count a fun i a => a.markUsed (start + i)) = .ok a' ∧
      Lent a₀ (S ∪ Finset.Ico start (start + count)) a' := by
  refine forRange_rule (fun k a => Lent a₀ (S ∪ Finset.Ico start (start + k)) a) ?_
    fun k hk a' ha' => ?_
  · rwa [Nat.add_zero, Finset.Ico_self, Finset.union_empty]
  · obtain ⟨hfree, hS⟩ := h.freeAt_eq_true_iff.mp (hrun.2 k hk)
    have hmem : start + k ∈ a₀.freeSet := by
      refine mem_freeSet.mpr ⟨?_, hfree⟩
      rw [← h.window.frames_eq]
      have := hrun.1
      omega
    have hnot : start + k ∉ S ∪ Finset.Ico start (start + k) := by
      rw [Finset.mem_union, Finset.mem_Ico]
      rintro (hmem | ⟨-, hlt⟩)
      · exact hS hmem
      · exact lt_irrefl _ hlt
    have hnext : insert (start + k) (S ∪ Finset.Ico start (start + k)) =
        S ∪ Finset.Ico start (start + (k + 1)) := by
      rw [← Finset.union_insert, ← Nat.add_assoc]
      congr 1
      ext i
      simp only [Finset.mem_insert, Finset.mem_Ico]
      omega
    rw [← hnext]
    exact ha'.markUsed hfresh hmem hnot

/-- The frames of a run that is free. -/
lemma mem_freeSet_of_runAt (h : Lent a₀ S a) {start i : ℕ} (hrun : a.RunAt count start)
    (hle : start ≤ i) (hlt : i < start + count) : i ∈ a₀.freeSet := by
  have hframes := hrun.1
  rw [h.window.frames_eq] at hframes
  obtain ⟨j, rfl⟩ := Nat.exists_eq_add_of_le hle
  exact mem_freeSet.mpr ⟨hlt.trans_le hframes,
    (h.freeAt_eq_true_iff.mp (hrun.2 j (Nat.lt_of_add_lt_add_left hlt))).1⟩

/-- `alloc` hands out the first free frame. -/
lemma alloc (hfresh : Fresh map a₀) (h : Lent a₀ S a) :
    (a.alloc = .ok (none, a) ∧ ∀ start, ¬ a.RunAt 1 start) ∨
    ∃ i a', a.alloc = .ok (some ⟨a₀.addressOf i⟩, a') ∧ a.RunAt 1 i ∧
      (∀ start < i, ¬ a.RunAt 1 start) ∧ Lent a₀ (S ∪ Finset.Ico i (i + 1)) a' := by
  obtain ⟨r, hsearch, hfound⟩ := findFreeRun_spec (a := a) one_pos
  rw [FrameAllocator.alloc, hsearch, Checked.ok_bind]
  cases r with
  | none => exact .inl ⟨rfl, hfound⟩
  | some i =>
    obtain ⟨hrun, hfirst⟩ := hfound
    obtain ⟨a', hmark, hlent⟩ := h.markRun hfresh hrun
    have hmark' : a.markUsed i = .ok a' := by
      rw [← hmark]
      rfl
    have hstop := addressOf_add_lt (a := a) (show i < a.frames from by have := hrun.1; omega)
    have hsame : a'.firstFrame = a.firstFrame :=
      hlent.window.firstFrame_eq.trans h.window.firstFrame_eq.symm
    have hword : (a.firstFrame + i) * pageSize < 2 ^ 64 :=
      lt_of_le_of_lt (Nat.le_add_right _ _) hstop
    have hsum : a.firstFrame + i < 2 ^ 64 :=
      lt_of_le_of_lt (Nat.le_mul_of_pos_right _ (by decide)) hword
    refine .inr ⟨i, a', ?_, hrun, hfirst, hlent⟩
    simp only
    rw [hmark', Checked.ok_bind, hsame, addWord_of_lt hsum, Checked.ok_bind, mulWord_of_lt hword,
      ← h.addressOf_eq]
    rfl

/-- `alloc_contiguous` hands out the first run of free frames that is long enough. -/
lemma allocContiguous (hfresh : Fresh map a₀) (h : Lent a₀ S a) (count : ℕ) :
    (a.allocContiguous count = .ok (none, a) ∧ (0 < count → ∀ start, ¬ a.RunAt count start)) ∨
    ∃ start a', a.allocContiguous count =
        .ok (some { start := a₀.addressOf start, len := count * pageSize }, a') ∧ 0 < count ∧
      a.RunAt count start ∧ (∀ start' < start, ¬ a.RunAt count start') ∧
      Lent a₀ (S ∪ Finset.Ico start (start + count)) a' := by
  rw [FrameAllocator.allocContiguous]
  by_cases hzero : count = 0
  · rw [if_pos hzero]
    exact .inl ⟨rfl, fun hcon => absurd hzero hcon.ne'⟩
  rw [if_neg hzero]
  obtain ⟨r, hsearch, hfound⟩ := findFreeRun_spec (a := a) (Nat.pos_of_ne_zero hzero)
  rw [hsearch, Checked.ok_bind]
  cases r with
  | none => exact .inl ⟨rfl, fun _ => hfound⟩
  | some start =>
    obtain ⟨hrun, hfirst⟩ := hfound
    obtain ⟨a', hmark, hlent⟩ := h.markRun hfresh hrun
    have hsame : a'.firstFrame = a.firstFrame :=
      hlent.window.firstFrame_eq.trans h.window.firstFrame_eq.symm
    have hword : ∀ n ≤ a.firstFrame + a.frames, n * pageSize < 2 ^ 64 :=
      fun n hn => lt_of_le_of_lt (Nat.mul_le_mul_right _ hn) a.stop_lt
    have hle := hrun.1
    have hstart := hword (a.firstFrame + start) (by omega)
    have hlen := hword count (by omega)
    refine .inr ⟨start, a', ?_, Nat.pos_of_ne_zero hzero, hrun, hfirst, hlent⟩
    simp only
    rw [hmark, Checked.ok_bind, hsame,
      addWord_of_lt (lt_of_le_of_lt (Nat.le_mul_of_pos_right _ (by decide)) hstart),
        Checked.ok_bind,
      mulWord_of_lt hstart, Checked.ok_bind, mulWord_of_lt hlen, ← h.addressOf_eq]
    rfl

/-- A frame that may be handed out and is not lent is handed out by one of the next calls. -/
lemma exists_alloc (hfresh : Fresh map a₀) {k n : ℕ} (hk : k ∈ a₀.freeSet) :
    ∀ {S : Finset ℕ} {a : FrameAllocator}, Lent a₀ S a → k ∉ S → (a₀.freeSet \ S).card ≤ n →
      ∃ a' a'', Relation.ReflTransGen Allocs a a' ∧
        a'.alloc = .ok (some ⟨a₀.addressOf k⟩, a'') := by
  induction n with
  | zero =>
    intro S a _ hnot hcard
    have hmem : k ∈ a₀.freeSet \ S := Finset.mem_sdiff.mpr ⟨hk, hnot⟩
    exact absurd hcard (not_le.mpr (Finset.card_pos.mpr ⟨k, hmem⟩))
  | succ n ih =>
    intro S a h hnot hcard
    rcases h.alloc hfresh with ⟨-, hnone⟩ | ⟨j, a', heq, hrun, -, hlent⟩
    · refine absurd ⟨?_, fun i hi => ?_⟩ (hnone k)
      · rw [h.window.frames_eq]
        exact (mem_freeSet.mp hk).1
      · rw [Nat.lt_one_iff.mp hi]
        exact h.freeAt_eq_true_iff.mpr ⟨(mem_freeSet.mp hk).2, hnot⟩
    · by_cases hj : j = k
      · rw [hj] at heq
        exact ⟨a, a', .refl, heq⟩
      · have hjfree := h.mem_freeSet_of_runAt hrun le_rfl (Nat.lt_succ_self j)
        have hjnot := h.notMem_of_runAt hrun le_rfl (Nat.lt_succ_self j)
        rw [Nat.Ico_succ_singleton, Finset.union_comm, ← Finset.insert_eq] at hlent
        have hnot' : k ∉ insert j S := by
          rw [Finset.mem_insert, not_or]
          exact ⟨Ne.symm hj, hnot⟩
        -- one frame less is left
        have hcard' : (a₀.freeSet \ insert j S).card ≤ n := by
          rw [Finset.sdiff_insert,
            Finset.card_erase_of_mem (Finset.mem_sdiff.mpr ⟨hjfree, hjnot⟩)]
          omega
        obtain ⟨b, b', hreach, halloc⟩ := ih hlent hnot' hcard'
        exact ⟨b, b', .head ⟨_, heq⟩ hreach, halloc⟩

/-- A call of `alloc` that returns a frame. -/
lemma of_alloc (hfresh : Fresh map a₀) (h : Lent a₀ S a) {frame : PhysFrame}
    (halloc : a.alloc = .ok (some frame, a')) : ∃ i, frame = ⟨a₀.addressOf i⟩ ∧ a.RunAt 1 i := by
  rcases h.alloc hfresh with ⟨heq, -⟩ | ⟨i, a'', heq, hrun, -, -⟩
  · rw [halloc] at heq
    cases heq
  · rw [halloc] at heq
    obtain ⟨hframe, -⟩ := Prod.mk.inj (Except.ok.inj heq)
    exact ⟨i, Option.some.inj hframe, hrun⟩

/-- A call of `alloc_contiguous` that returns a range. -/
lemma of_allocContiguous (hfresh : Fresh map a₀) (h : Lent a₀ S a) {range : PhysRange}
    (halloc : a.allocContiguous count = .ok (some range, a')) :
    ∃ start, range = ⟨a₀.addressOf start, count * pageSize⟩ ∧ a.RunAt count start ∧
      Lent a₀ (S ∪ Finset.Ico start (start + count)) a' := by
  rcases h.allocContiguous hfresh count with ⟨heq, -⟩ | ⟨start, a'', heq, -, hrun, -, hlent⟩
  · rw [halloc] at heq
    cases heq
  · rw [halloc] at heq
    obtain ⟨hrange, rfl⟩ := Prod.mk.inj (Except.ok.inj heq)
    exact ⟨start, Option.some.inj hrange, hrun, hlent⟩

/-- `free` of a frame that is lent takes it back. -/
lemma free_of_mem (hfresh : Fresh map a₀) (h : Lent a₀ S a) (hindex : index ∈ S) :
    ∃ a', a.free ⟨a₀.addressOf index⟩ = .ok (.ok (), a') ∧ Lent a₀ (S.erase index) a' := by
  obtain ⟨hlt₀, hfree⟩ := mem_freeSet.mp (h.subset hindex)
  have hbit := hfree
  rw [hfresh.freeAt_eq hlt₀] at hbit
  have hlt : index < a.frames := by rwa [h.window.frames_eq]
  have hcard := Finset.card_pos.mpr ⟨index, hindex⟩
  have hcount := h.freeFrames_eq
  have hword := hfresh.freeFrames_lt
  have hused := a.used_le
  refine ⟨a.withUsed index false (a.freeFrames + 1), ?_, h.allocatable_eq,
    ⟨h.window.firstFrame_eq, h.window.frames_eq, h.window.reserved_eq⟩, ?_, fun i => ?_,
    (Finset.erase_subset _ _).trans h.subset, ?_⟩
  · have hreserved : a.reservedAt (a.addressOf index) = false := by
      rw [reservedAt, h.window.reserved_eq, h.addressOf_eq]
      exact hfresh.reservedAt_eq index hlt₀ hbit
    rw [← h.addressOf_eq, FrameAllocator.free, frameIndex_addressOf hlt]
    simp only
    rw [isReserved_eq (addressOf_add_lt hlt), hreserved, Checked.ok_bind, isAllocatable_eq hlt,
      h.allocatable_eq, hbit, isUsed_eq hlt, h.used_eq, decide_eq_true hindex, Bool.or_true]
    simp only [Checked.ok_bind, Bool.false_eq_true, if_false, Bool.not_true]
    rw [setUsed, if_pos (by omega), Checked.ok_bind, addWord_of_lt (by simp only; omega)]
    rfl
  · rw [← h.length_eq]
    exact Slice.length_setBitAt _ _ _
  · rw [bitAt_withUsed hlt, h.used_eq]
    by_cases hi : i = index
    · rw [if_pos hi, hi, hfresh.used_eq index hlt₀, hbit]
      simp
    · simp [hi]
  · rw [Finset.card_erase_of_mem hindex]
    simp only [withUsed]
    omega

/-- `free` of anything else is refused. -/
lemma free_of_notMem (hfresh : Fresh map a₀) (h : Lent a₀ S a) {address : ℕ}
    (haddress : ∀ i ∈ S, address ≠ a₀.addressOf i) :
    ∃ e, a.free ⟨address⟩ = .ok (.error e, a) := by
  rw [FrameAllocator.free]
  cases hindex : a.frameIndex address with
  | none => exact ⟨_, rfl⟩
  | some i =>
    obtain ⟨hlt, heq⟩ := frameIndex_eq_some_iff.mp hindex
    have hnot : i ∉ S := fun hcon => haddress i hcon (heq.trans (h.addressOf_eq i))
    have hlt₀ : i < a₀.frames := by rwa [← h.window.frames_eq]
    simp only
    rw [heq, isReserved_eq (addressOf_add_lt hlt), Checked.ok_bind, isAllocatable_eq hlt,
      isUsed_eq hlt]
    simp only [Checked.ok_bind]
    cases a.reservedAt (a.addressOf i) with
    | true => exact ⟨_, rfl⟩
    | false =>
      cases hbit : a.allocatable.bitAt i with
      | false => exact ⟨_, rfl⟩
      | true =>
        -- a frame that may be handed out and is not lent is not marked
        have hused : a.used.bitAt i = false := by
          rw [h.used_eq, hfresh.used_eq i hlt₀, ← h.allocatable_eq, hbit, decide_eq_false hnot]
          rfl
        rw [hused]
        exact ⟨_, rfl⟩

end Lent

end FrameAllocator

/-! ## Runs -/

/-- The addresses of the frames of a range. -/
def PhysRange.addresses (self : PhysRange) : List ℕ :=
  (List.range self.frames).map fun i => self.start + i * pageSize

/-- The state of a run: the allocator and the addresses of the frames that are outstanding. -/
structure FrameState where
  /-- The allocator. -/
  allocator : FrameAllocator
  /-- The frames handed out and not taken back. -/
  outstanding : List ℕ

/-- The calls of a run. -/
inductive FrameOp where
  | alloc
  | allocContiguous (count : ℕ)
  | free (address : ℕ)
  deriving DecidableEq, Repr

namespace FrameState

/-- One call. -/
def step (s : FrameState) : FrameOp → Checked FrameState
  | .alloc => do
    let (r, allocator) ← s.allocator.alloc
    match r with
    | none => return { s with allocator }
    | some frame => return { allocator, outstanding := s.outstanding ++ [frame.address] }
  | .allocContiguous count => do
    let (r, allocator) ← s.allocator.allocContiguous count
    match r with
    | none => return { s with allocator }
    | some range => return { allocator, outstanding := s.outstanding ++ range.addresses }
  | .free address => do
    let (r, allocator) ← s.allocator.free ⟨address⟩
    match r with
    | .error _ => return { s with allocator }
    | .ok () => return { allocator, outstanding := s.outstanding.erase address }

/-- The steps of a run. -/
def StepBy (s t : FrameState) : Prop := ∃ op, s.step op = .ok t

/-- The states that are reached from an allocator. -/
def Reached (a₀ : FrameAllocator) (s : FrameState) : Prop :=
  Relation.ReflTransGen StepBy ⟨a₀, []⟩ s

end FrameState

open FrameAllocator

/-- The allocator is the one of the start with exactly the outstanding frames lent. -/
def Owned (a₀ : FrameAllocator) (S : Finset ℕ) (s : FrameState) : Prop :=
  Lent a₀ S s.allocator ∧ (s.outstanding : Multiset ℕ) = S.val.map a₀.addressOf

section Owned

variable {map : MemoryMap} {a₀ : FrameAllocator} {S : Finset ℕ} {s : FrameState}

lemma Owned.mem_iff (h : Owned a₀ S s) {f : ℕ} :
    f ∈ s.outstanding ↔ ∃ i ∈ S, a₀.addressOf i = f := by
  rw [← Multiset.mem_coe, h.2, Multiset.mem_map]
  rfl

lemma Owned.nodup (h : Owned a₀ S s) : s.outstanding.Nodup := by
  rw [← Multiset.coe_nodup, h.2]
  exact S.nodup.map a₀.addressOf_injective

lemma Owned.length_eq (h : Owned a₀ S s) : s.outstanding.length = S.card := by
  rw [← Multiset.coe_card, h.2, Multiset.card_map]
  rfl

/-- The addresses of a run of frames. -/
lemma addresses_run (a₀ : FrameAllocator) (start count : ℕ) :
    PhysRange.addresses { start := a₀.addressOf start, len := count * pageSize } =
      (List.range count).map fun i => a₀.addressOf (start + i) := by
  rw [PhysRange.addresses, PhysRange.frames, Nat.mul_div_cancel _ (by decide)]
  exact List.map_congr_left fun i _ => (addressOf_add a₀ start i).symm

/-- Outstanding frames and a run that is free are disjoint. -/
lemma Owned.append (h : Owned a₀ S s) {start count : ℕ} {allocator : FrameAllocator}
    (hrun : s.allocator.RunAt count start)
    (hlent : Lent a₀ (S ∪ Finset.Ico start (start + count)) allocator) :
    Owned a₀ (S ∪ Finset.Ico start (start + count)) (.mk allocator
      (s.outstanding ++ (List.range count).map fun i => a₀.addressOf (start + i))) := by
  have hdisjoint : Disjoint S (Finset.Ico start (start + count)) := by
    refine Finset.disjoint_right.mpr fun i hi => ?_
    obtain ⟨hle, hlt⟩ := Finset.mem_Ico.mp hi
    exact h.1.notMem_of_runAt hrun hle hlt
  have hblock : (Finset.Ico start (start + count)).val =
      (((List.range count).map fun i => start + i : List ℕ) : Multiset ℕ) := by
    change ((List.range' start (start + count - start) : List ℕ) : Multiset ℕ) = _
    rw [Nat.add_sub_cancel_left, List.range'_eq_map_range]
  refine ⟨hlent, ?_⟩
  rw [← Finset.disjUnion_eq_union _ _ hdisjoint, Finset.disjUnion_val, Multiset.map_add, ← h.2,
    hblock, Multiset.map_coe, List.map_map, Multiset.coe_add]
  rfl

/-- One call keeps the invariant, and it returns. -/
lemma Owned.step (hfresh : Fresh map a₀) (h : Owned a₀ S s) (op : FrameOp) :
    ∃ t S', s.step op = .ok t ∧ Owned a₀ S' t := by
  cases op with
  | alloc =>
    rw [FrameState.step]
    rcases h.1.alloc hfresh with ⟨heq, -⟩ | ⟨i, a', heq, hrun, -, hlent⟩
    · rw [heq, Checked.ok_bind]
      exact ⟨_, S, rfl, h⟩
    · rw [heq, Checked.ok_bind]
      exact ⟨_, _, rfl, h.append hrun hlent⟩
  | allocContiguous count =>
    rw [FrameState.step]
    rcases h.1.allocContiguous hfresh count with ⟨heq, -⟩ | ⟨start, a', heq, -, hrun, -, hlent⟩
    · rw [heq, Checked.ok_bind]
      exact ⟨_, S, rfl, h⟩
    · rw [heq, Checked.ok_bind]
      refine ⟨_, S ∪ Finset.Ico start (start + count), rfl, ?_⟩
      simp only [addresses_run]
      exact h.append hrun hlent
  | free address =>
    rw [FrameState.step]
    by_cases haddress : ∃ i ∈ S, a₀.addressOf i = address
    · obtain ⟨i, hi, rfl⟩ := haddress
      obtain ⟨a', heq, hlent⟩ := h.1.free_of_mem hfresh hi
      rw [heq, Checked.ok_bind]
      refine ⟨_, S.erase i, rfl, hlent, ?_⟩
      rw [← Multiset.coe_erase, h.2, Finset.erase_val,
        Multiset.map_erase _ a₀.addressOf_injective]
    · obtain ⟨e, heq⟩ := h.1.free_of_notMem hfresh
        fun i hi hcon => haddress ⟨i, hi, hcon.symm⟩
      rw [heq, Checked.ok_bind]
      exact ⟨_, S, rfl, h⟩

/-- The invariant holds in every state that is reached. -/
lemma Owned.of_reached (hfresh : Fresh map a₀) (h : FrameState.Reached a₀ s) :
    ∃ S, Owned a₀ S s := by
  induction h with
  | refl => exact ⟨∅, Lent.refl a₀, rfl⟩
  | tail _ hstep ih =>
    obtain ⟨S, hS⟩ := ih
    obtain ⟨op, hop⟩ := hstep
    obtain ⟨t, S', ht, hS'⟩ := hS.step hfresh op
    rw [hop] at ht
    obtain rfl := Except.ok.inj ht
    exact ⟨S', hS'⟩

/-- Calls of `alloc` are steps of a run. -/
lemma FrameState.steps_of_allocs {a' : FrameAllocator}
    (h : Relation.ReflTransGen Allocs s.allocator a') :
    ∃ t, Relation.ReflTransGen StepBy s t ∧ t.allocator = a' := by
  induction h with
  | refl => exact ⟨s, .refl, rfl⟩
  | tail _ halloc ih =>
    obtain ⟨t, hreach, rfl⟩ := ih
    obtain ⟨frame, halloc⟩ := halloc
    refine ⟨⟨_, t.outstanding ++ [frame.address]⟩, hreach.tail ⟨.alloc, ?_⟩, rfl⟩
    rw [FrameState.step, halloc]
    rfl

/-- Equal sets of outstanding frames are the same frames lent. -/
lemma Owned.congr {S' : Finset ℕ} {s' : FrameState} (h : Owned a₀ S s) (h' : Owned a₀ S' s')
    (heq : ∀ f, f ∈ s.outstanding ↔ f ∈ s'.outstanding) : S = S' := by
  ext i
  have hiff := heq (a₀.addressOf i)
  rw [h.mem_iff, h'.mem_iff] at hiff
  constructor
  · intro hi
    obtain ⟨j, hj, hij⟩ := hiff.mp ⟨i, hi, rfl⟩
    rwa [← a₀.addressOf_injective hij]
  · intro hi
    obtain ⟨j, hj, hij⟩ := hiff.mpr ⟨i, hi, rfl⟩
    rwa [← a₀.addressOf_injective hij]

end Owned

/-- The frames of the window lie inside of the range that the configuration gives. -/
lemma FrameAllocator.Initial.bounds {map : MemoryMap} {reserved : List ReservedRange}
    {config : Config} {a₀ : FrameAllocator} (h : Initial map reserved config a₀) {i n : ℕ}
    (hn : i + n ≤ a₀.frames) :
    a₀.addressOf i % pageSize = 0 ∧ config.managedStart ≤ a₀.addressOf i ∧
      a₀.addressOf i + n * pageSize ≤ config.limit := by
  have hstart := le_divCeil_mul config.managedStart (show 0 < pageSize by decide)
  have hframes := h.frames_eq
  have hlimit := Nat.div_mul_le_self config.limit pageSize
  rw [← h.firstFrame_eq] at hstart
  refine ⟨Nat.mul_mod_left _ _, ?_, ?_⟩
  · exact le_trans hstart (Nat.mul_le_mul_right _ (Nat.le_add_right _ _))
  · rw [addressOf, ← Nat.add_mul]
    refine le_trans (Nat.mul_le_mul_right _ ?_) hlimit
    omega

/-- Frames that may be handed out do not belong to a reserved range. -/
lemma FrameAllocator.Initial.apart_of_reserved {map : MemoryMap} {reserved : List ReservedRange}
    {config : Config} {a₀ : FrameAllocator} (h : Initial map reserved config a₀) {r : ReservedRange}
    (hr : r ∈ reserved) {k : ℕ} (hk : k ∈ a₀.freeSet) :
    r.stop ≤ a₀.addressOf k ∨ a₀.addressOf k + pageSize ≤ r.start := by
  obtain ⟨hlt, hfree⟩ := mem_freeSet.mp hk
  rw [h.fresh.freeAt_eq hlt] at hfree
  have hnot := h.fresh.reservedAt_eq k hlt hfree
  rw [reservedAt, h.reserved_eq, List.any_eq_false] at hnot
  have hover := hnot r hr
  simp only [ReservedRange.overlaps, Bool.and_eq_true, decide_eq_true_eq, not_and, not_lt] at hover
  by_cases hle : a₀.addressOf k + pageSize ≤ r.start
  · exact .inr hle
  · exact .inl (hover (not_le.mp hle))

/-- **Ownership of frames.**  In every state that calls of `alloc`, `alloc_contiguous` and `free`
with arbitrary arguments reach from the allocator of a successful `init`:
no frame is outstanding twice, and what is handed out next is aligned, inside of the window and
disjoint from the outstanding frames; a frame is free if and only if it was free after `init` and is
not outstanding, the counter is the one after `init` minus the number of outstanding frames, and the
allocator depends on the set of outstanding frames only; `free` succeeds exactly for outstanding
frames and changes nothing otherwise; no call stops with a panic. -/
theorem frame_ownership (bitmap : Slice UInt8) (map : MemoryMap) (reserved : List ReservedRange)
    (config : Config) (a₀ : FrameAllocator)
    (hinit : FrameAllocator.init bitmap map reserved config = .ok (.ok a₀)) (s : FrameState)
    (hrun : FrameState.Reached a₀ s) :
    s.outstanding.Nodup ∧
    (∀ f a', s.allocator.alloc = .ok (some f, a') → f.address % pageSize = 0 ∧
      config.managedStart ≤ f.address ∧ f.address + pageSize ≤ config.limit ∧
      f.address ∉ s.outstanding) ∧
    (∀ count range a', s.allocator.allocContiguous count = .ok (some range, a') →
      range.len = count * pageSize ∧ range.start % pageSize = 0 ∧
      config.managedStart ≤ range.start ∧ range.start + range.len ≤ config.limit ∧
      ∀ f ∈ s.outstanding, f + pageSize ≤ range.start ∨ range.start + range.len ≤ f) ∧
    (∀ i < a₀.frames, s.allocator.isFree i =
      .ok (a₀.freeAt i && !decide (a₀.addressOf i ∈ s.outstanding)) ∧
        a₀.isFree i = .ok (a₀.freeAt i)) ∧
    s.allocator.stats.free + s.outstanding.length = a₀.stats.free ∧
    (∀ s', FrameState.Reached a₀ s' → (∀ f, f ∈ s.outstanding ↔ f ∈ s'.outstanding) →
      s.allocator = s'.allocator) ∧
    (∀ f, (f ∈ s.outstanding ↔ ∃ a', s.allocator.free ⟨f⟩ = .ok (.ok (), a')) ∧
      (f ∉ s.outstanding → ∃ e, s.allocator.free ⟨f⟩ = .ok (.error e, s.allocator))) ∧
    ∀ op, ∃ t, s.step op = .ok t := by
  have hinitial := initial_of_init hinit
  have hfresh := hinitial.fresh
  obtain ⟨S, hS⟩ := Owned.of_reached hfresh hrun
  obtain ⟨hlent, -⟩ := id hS
  have hframes := hlent.window.frames_eq
  refine ⟨hS.nodup, ?_, ?_, ?_, ?_, ?_, ?_, ?_⟩
  · intro f a' halloc
    obtain ⟨i, rfl, hrunAt⟩ := hlent.of_alloc hfresh halloc
    obtain ⟨h1, h2, h3⟩ := hinitial.bounds (i := i) (n := 1) (by rw [← hframes]; exact hrunAt.1)
    refine ⟨h1, h2, by rwa [one_mul] at h3, fun hcon => ?_⟩
    obtain ⟨j, hj, hij⟩ := hS.mem_iff.mp hcon
    rw [a₀.addressOf_injective hij] at hj
    exact hlent.notMem_of_runAt hrunAt le_rfl (Nat.lt_succ_self i) hj
  · intro count range a' halloc
    obtain ⟨start, rfl, hrunAt, -⟩ := hlent.of_allocContiguous hfresh halloc
    obtain ⟨h1, h2, h3⟩ := hinitial.bounds (i := start) (n := count)
      (by rw [← hframes]; exact hrunAt.1)
    refine ⟨rfl, h1, h2, h3, fun f hf => ?_⟩
    obtain ⟨j, hj, rfl⟩ := hS.mem_iff.mp hf
    have hnot : ¬ (start ≤ j ∧ j < start + count) := by
      rintro ⟨hle, hlt⟩
      exact hlent.notMem_of_runAt hrunAt hle hlt hj
    rw [← addressOf_succ, ← addressOf_add]
    rcases not_and_or.mp hnot with hlt | hge
    · exact .inl (a₀.addressOf_mono (by omega))
    · exact .inr (a₀.addressOf_mono (not_lt.mp hge))
  · intro i hi
    refine ⟨?_, isFree_eq hi⟩
    rw [isFree_eq (by rwa [hframes]), hlent.freeAt_eq]
    have hiff : a₀.addressOf i ∈ s.outstanding ↔ i ∈ S := by
      rw [hS.mem_iff]
      exact ⟨fun ⟨j, hj, hij⟩ => a₀.addressOf_injective hij ▸ hj, fun hi => ⟨i, hi, rfl⟩⟩
    simp only [hiff]
  · rw [hS.length_eq]
    exact hlent.freeFrames_eq
  · intro s' hrun' heq
    obtain ⟨S', hS'⟩ := Owned.of_reached hfresh hrun'
    obtain rfl := hS.congr hS' heq
    exact hlent.ext hS'.1
  · intro f
    have hrefused : f ∉ s.outstanding → ∃ e, s.allocator.free ⟨f⟩ =
      .ok (.error e, s.allocator) := by
      intro hf
      exact hlent.free_of_notMem hfresh fun i hi hcon => hf (hS.mem_iff.mpr ⟨i, hi, hcon.symm⟩)
    refine ⟨⟨fun hf => ?_, ?_⟩, hrefused⟩
    · obtain ⟨i, hi, rfl⟩ := hS.mem_iff.mp hf
      obtain ⟨a', heq, -⟩ := hlent.free_of_mem hfresh hi
      exact ⟨a', heq⟩
    · rintro ⟨a', heq⟩
      by_contra hf
      obtain ⟨e, herror⟩ := hrefused hf
      rw [herror] at heq
      simp at heq
  · intro op
    obtain ⟨t, -, ht, -⟩ := hS.step hfresh op
    exact ⟨t, ht⟩

/-- Eight frames from 1 MiB on are managed on the small machine, and the first of them is handed out
first. -/
lemma alloc_smallMap : ∃ a₀ a', FrameAllocator.init ⟨[0, 0], by decide⟩ smallMap []
    (.new 0x108000) = .ok (.ok a₀) ∧ a₀.alloc = .ok (some ⟨0x100000⟩, a') := by
  have hok : Checked.okAnd (FrameAllocator.init ⟨[0, 0], by decide⟩ smallMap [] (.new 0x108000))
      (fun r => r.toOption.any fun a =>
        Checked.okAnd a.alloc fun r => r.1 = some ⟨0x100000⟩) = true := by
    decide +kernel
  obtain ⟨a₀, hinit, hframe⟩ := Checked.okAnd_any_eq_true_iff.mp hok
  obtain ⟨⟨frame, a'⟩, halloc, hframe⟩ := Checked.okAnd_eq_true_iff.mp hframe
  obtain rfl := of_decide_eq_true hframe
  exact ⟨a₀, a', hinit, halloc⟩

/-- After the first call of `alloc`, the frame it returned can be freed, and nothing else. -/
theorem frame_ownership_smallMap : ∃ a₀ s, FrameAllocator.init ⟨[0, 0], by decide⟩ smallMap []
      (.new 0x108000) = .ok (.ok a₀) ∧
    FrameState.step ⟨a₀, []⟩ .alloc = .ok s ∧
    ∀ f, f ∈ s.outstanding ↔ ∃ a', s.allocator.free ⟨f⟩ = .ok (.ok (), a') := by
  obtain ⟨a₀, _, hinit, -⟩ := alloc_smallMap
  obtain ⟨s, hstep⟩ := (frame_ownership _ _ _ _ a₀ hinit ⟨a₀, []⟩ .refl).2.2.2.2.2.2.2 .alloc
  have hs := frame_ownership _ _ _ _ a₀ hinit s (.single ⟨.alloc, hstep⟩)
  exact ⟨a₀, s, hinit, hstep, fun f => (hs.2.2.2.2.2.2.1 f).1⟩

/-- **First fit.**  In every state that is reached, `alloc_contiguous` returns the first run of free
frames that is long enough, and nothing exactly when there is none or no frame is requested; then
the allocator is unchanged.  A run that is returned is marked, and no other bit changes.  `alloc` is
the case of one frame. -/
theorem contiguous_first_fit (bitmap : Slice UInt8) (map : MemoryMap)
    (reserved : List ReservedRange) (config : Config) (a₀ : FrameAllocator)
    (hinit : FrameAllocator.init bitmap map reserved config = .ok (.ok a₀)) (s : FrameState)
    (hrun : FrameState.Reached a₀ s) (count : ℕ) :
    ((∃ a', s.allocator.allocContiguous count = .ok (none, a')) ↔
      count = 0 ∨ ∀ start, ¬ s.allocator.RunAt count start) ∧
    (∀ a', s.allocator.allocContiguous count = .ok (none, a') → a' = s.allocator) ∧
    (∀ start, 0 < count → s.allocator.RunAt count start →
      (∀ start' < start, ¬ s.allocator.RunAt count start') →
      ∃ a', s.allocator.allocContiguous count =
          .ok (some ⟨s.allocator.addressOf start, count * pageSize⟩, a') ∧
        a'.allocatable = s.allocator.allocatable ∧ a'.used.length = s.allocator.used.length ∧
        ∀ i, a'.used.bitAt i =
          if start ≤ i ∧ i < start + count then true else s.allocator.used.bitAt i) ∧
    s.allocator.allocContiguous 1 = (do
      let (frame, a') ← s.allocator.alloc
      return (frame.map fun frame => ⟨frame.address, pageSize⟩, a')) := by
  have hfresh := (initial_of_init hinit).fresh
  obtain ⟨S, hlent, -⟩ := Owned.of_reached hfresh hrun
  refine ⟨?_, ?_, ?_, allocContiguous_one _⟩
  · rcases hlent.allocContiguous hfresh count with
      ⟨heq, hnone⟩ | ⟨start, a', heq, hpos, hrunAt, -, -⟩
    · refine ⟨fun _ => ?_, fun _ => ⟨_, heq⟩⟩
      rcases Nat.eq_zero_or_pos count with hzero | hpos
      · exact .inl hzero
      · exact .inr (hnone hpos)
    · constructor
      · rintro ⟨a'', hnone⟩
        rw [heq] at hnone
        cases hnone
      · rintro (hzero | hnone)
        · exact absurd hzero hpos.ne'
        · exact absurd hrunAt (hnone start)
  · intro a' hnone
    rcases hlent.allocContiguous hfresh count with ⟨heq, -⟩ | ⟨start, a'', heq, -⟩
    · rw [heq] at hnone
      exact (Prod.mk.inj (Except.ok.inj hnone)).2.symm
    · rw [heq] at hnone
      cases hnone
  · intro start hpos hrunAt hfirst
    rcases hlent.allocContiguous hfresh count with
      ⟨-, hnone⟩ | ⟨start', a', heq, -, hrunAt', hfirst', hlent'⟩
    · exact absurd hrunAt (hnone hpos start)
    · obtain rfl : start' = start := by
        apply le_antisymm
        · exact not_lt.mp fun hlt => hfirst' start hlt hrunAt
        · exact not_lt.mp fun hlt => hfirst start' hlt hrunAt'
      refine ⟨a', ?_, ?_, ?_, fun i => ?_⟩
      · rw [heq, hlent.addressOf_eq]
      · rw [hlent'.allocatable_eq, hlent.allocatable_eq]
      · rw [hlent'.length_eq, hlent.length_eq]
      · rw [hlent'.used_eq, hlent.used_eq]
        split_ifs with hi
        · simp [hi]
        · simp [hi]

/-- All eight frames of the small machine are handed out as one range. -/
theorem contiguous_first_fit_smallMap : ∃ a₀ a', FrameAllocator.init ⟨[0, 0], by decide⟩ smallMap []
      (.new 0x108000) = .ok (.ok a₀) ∧
    a₀.allocContiguous 8 = .ok (some ⟨a₀.addressOf 0, 8 * pageSize⟩, a') := by
  have hok : Checked.okAnd (FrameAllocator.init ⟨[0, 0], by decide⟩ smallMap [] (.new 0x108000))
      (fun r => r.toOption.any fun a => a.frames = 8 && (List.range 8).all a.freeAt) = true := by
    decide +kernel
  obtain ⟨a₀, hinit, hfree⟩ := Checked.okAnd_any_eq_true_iff.mp hok
  simp only [Bool.and_eq_true, decide_eq_true_eq, List.all_eq_true, List.mem_range] at hfree
  have hrunAt : a₀.RunAt 8 0 := ⟨hfree.1.ge, fun i hi => by rw [Nat.zero_add]; exact hfree.2 i hi⟩
  obtain ⟨a', halloc, -⟩ := (contiguous_first_fit _ _ _ _ a₀ hinit ⟨a₀, []⟩ .refl 8).2.2.1 0
    (by decide) hrunAt fun start hlt => absurd hlt (Nat.not_lt_zero start)
  exact ⟨a₀, a', hinit, halloc⟩

end KernelMemory

end ParanukOS
