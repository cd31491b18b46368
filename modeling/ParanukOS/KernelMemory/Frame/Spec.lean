import ParanukOS.KernelMemory.Frame.Model

/-!
# What the frame allocator does

The frames of the allocator are the bits of its two bitmaps.  The search finds a run of free frames
whenever there is one, and `init` makes exactly those frames allocatable that lie in a conventional
region of the window and in no reserved range.

## Outline

* `freeAt`, `findFreeRun_spec`: a frame is free, and the search for a run of free frames.
* `markUsed_eq`, `markAvailable_addressOf`: one bit is changed.
* `Fresh`, `Initial`, `initial_of_init`: what is known about the allocator that `init` returns.
* `allocatable_iff_offeredIn`: the frames that `init` makes allocatable.
-/

namespace ParanukOS

open Foundation

namespace KernelMemory

namespace FrameAllocator

variable {a : FrameAllocator} {index count : ℕ}

/-- The frame with the given index is free. -/
def freeAt (a : FrameAllocator) (index : ℕ) : Bool :=
  a.allocatable.bitAt index && !a.used.bitAt index

/-- The address of the frame with the given index. -/
def addressOf (a : FrameAllocator) (index : ℕ) : ℕ := (a.firstFrame + index) * pageSize

/-- The frames that are free. -/
def freeSet (a : FrameAllocator) : Finset ℕ :=
  (Finset.range a.frames).filter fun index => a.freeAt index = true

lemma mem_freeSet : index ∈ a.freeSet ↔ index < a.frames ∧ a.freeAt index = true := by
  rw [freeSet, Finset.mem_filter, Finset.mem_range]

/-! ## Reading the bitmaps -/

lemma isAllocatable_eq (h : index < a.frames) :
    a.isAllocatable index = .ok (a.allocatable.bitAt index) := by
  have := a.allocatable_le
  exact if_pos (by omega)

lemma isUsed_eq (h : index < a.frames) : a.isUsed index = .ok (a.used.bitAt index) := by
  have := a.used_le
  exact if_pos (by omega)

lemma isFree_eq (h : index < a.frames) : a.isFree index = .ok (a.freeAt index) := by
  rw [isFree, isAllocatable_eq h, Checked.ok_bind, isUsed_eq h, freeAt]
  cases a.allocatable.bitAt index <;> rfl

/-- The index of a frame, by its address. -/
lemma frameIndex_eq_some_iff {address : ℕ} :
    a.frameIndex address = some index ↔ index < a.frames ∧ address = a.addressOf index := by
  unfold frameIndex addressOf
  dsimp only
  split_ifs with h
  · simp only [pageSize, false_iff, not_and] at h ⊢
    omega
  · simp only [pageSize, Option.some.injEq] at h ⊢
    omega

lemma frameIndex_addressOf (h : index < a.frames) : a.frameIndex (a.addressOf index) = some index :=
  frameIndex_eq_some_iff.mpr ⟨h, rfl⟩

lemma addressOf_injective (a : FrameAllocator) : Function.Injective a.addressOf := by
  intro i j hij
  have := Nat.eq_of_mul_eq_mul_right (show 0 < pageSize by decide) hij
  omega

lemma addressOf_add (a : FrameAllocator) (i n : ℕ) :
    a.addressOf (i + n) = a.addressOf i + n * pageSize := by
  rw [addressOf, addressOf, ← Nat.add_assoc, Nat.add_mul]

lemma addressOf_succ (a : FrameAllocator) (i : ℕ) :
    a.addressOf (i + 1) = a.addressOf i + pageSize := by
  rw [addressOf_add, one_mul]

lemma addressOf_mono (a : FrameAllocator) {i j : ℕ} (h : i ≤ j) : a.addressOf i ≤ a.addressOf j :=
  Nat.mul_le_mul_right _ (Nat.add_le_add_left h _)

/-- A frame of the window ends inside of the address space. -/
lemma addressOf_add_lt (h : index < a.frames) : a.addressOf index + pageSize < 2 ^ 64 := by
  refine lt_of_le_of_lt ?_ a.stop_lt
  rw [addressOf, ← Nat.succ_mul]
  exact Nat.mul_le_mul_right _ (by omega)

/-- The frame at an address meets a reserved range. -/
def reservedAt (a : FrameAllocator) (address : ℕ) : Bool :=
  a.reserved.any fun range => range.overlaps address (address + pageSize)

lemma isReserved_eq {address : ℕ} (h : address + pageSize < 2 ^ 64) :
    a.isReserved address = .ok (a.reservedAt address) := by
  rw [isReserved, addWord_of_lt h]
  rfl

/-! ## The search for a run -/

/-- The `count` frames from `start` on are free. -/
def RunAt (a : FrameAllocator) (count start : ℕ) : Prop :=
  start + count ≤ a.frames ∧ ∀ i < count, a.freeAt (start + i) = true

/-- The result of the search: the first run, or none if there is none. -/
def RunFound (a : FrameAllocator) (count : ℕ) : Option ℕ → Prop
  | some start => a.RunAt count start ∧ ∀ start' < start, ¬ a.RunAt count start'
  | none => ∀ start, ¬ a.RunAt count start

/-- The loop, when `run` frames before `index` are free and no run starts before them. -/
lemma findFreeRunFrom_spec (n : ℕ) {runStart run : ℕ} (hn : index + n = a.frames)
    (hrun : run < count)
    (hstart : run ≠ 0 → runStart + run = index) (hle : run ≤ index)
    (hfree : ∀ i < run, a.freeAt (index - run + i) = true)
    (hnone : ∀ start < index - run, ¬ a.RunAt count start) :
    ∃ r, a.findFreeRunFrom count n index runStart run = .ok r ∧ a.RunFound count r := by
  induction n generalizing index runStart run with
  | zero =>
    refine ⟨none, rfl, fun start hcon => hnone start ?_ hcon⟩
    have := hcon.1
    omega
  | succ n ih =>
    rw [findFreeRunFrom, isFree_eq (by omega), Checked.ok_bind]
    cases hbit : a.freeAt index with
    | false =>
      -- no run contains this frame
      refine ih (by omega) (by omega) (fun hcon => absurd rfl hcon) (Nat.zero_le _)
        (fun i hi => absurd hi (Nat.not_lt_zero i)) fun start hlt hcon => ?_
      by_cases hbefore : start < index - run
      · exact hnone start hbefore hcon
      · have := hcon.2 (index - start) (by omega)
        rw [Nat.add_sub_cancel' (by omega), hbit] at this
        exact Bool.noConfusion this
    | true =>
      have hfree' : ∀ i < run + 1, a.freeAt (index - run + i) = true := by
        intro i hi
        by_cases hlast : i = run
        · rwa [hlast, Nat.sub_add_cancel hle]
        · exact hfree i (by omega)
      have hstart' : (if run = 0 then index else runStart) = index - run := by
        split_ifs with hzero
        · omega
        · have := hstart hzero
          omega
      simp only [if_true, hstart']
      split_ifs with hcount
      · refine ⟨some (index - run), rfl, ⟨by omega, fun i hi => hfree' i (by omega)⟩, hnone⟩
      · have hsub : index + 1 - (run + 1) = index - run := by omega
        refine ih (by omega) (by omega) (fun _ => by omega) (by omega) ?_ ?_
        · rw [hsub]
          exact hfree'
        · rw [hsub]
          exact hnone

/-- The search finds the first run of free frames. -/
lemma findFreeRun_spec (hcount : 0 < count) :
    ∃ r, a.findFreeRun count = .ok r ∧ a.RunFound count r := by
  rw [findFreeRun]
  split_ifs with h
  · refine ⟨none, rfl, fun start hcon => ?_⟩
    have := hcon.1
    omega
  · exact findFreeRunFrom_spec a.frames (Nat.zero_add _) hcount (fun hcon => absurd rfl hcon) le_rfl
      (fun i hi => absurd hi (Nat.not_lt_zero i)) fun start hlt => absurd hlt
        (Nat.not_lt_zero start)

/-! ## Writing the bitmaps -/

lemma le_length_setBitAt (a : FrameAllocator) (index : ℕ) (value : Bool) :
    a.frames ≤ 8 * (a.used.setBitAt index value).length := by
  rw [Slice.length_setBitAt]
  exact a.used_le

/-- The allocator with a frame marked as handed out or not, and a new counter. -/
def withUsed (a : FrameAllocator) (index : ℕ) (value : Bool) (freeFrames : ℕ) : FrameAllocator :=
  { a with
    used := a.used.setBitAt index value
    freeFrames := freeFrames
    used_le := a.le_length_setBitAt index value }

lemma bitAt_withUsed (h : index < a.frames) (value : Bool) (freeFrames i : ℕ) :
    (a.withUsed index value freeFrames).used.bitAt i =
      if i = index then value else a.used.bitAt i :=
  Slice.bitAt_setBitAt (lt_of_lt_of_le h a.used_le) value i

lemma markUsed_eq (h : index < a.frames) (hpos : 0 < a.freeFrames) :
    a.markUsed index = .ok (a.withUsed index true (a.freeFrames - 1)) := by
  have hused := a.used_le
  rw [markUsed, setUsed, if_pos (by omega), Checked.ok_bind, subWord_of_le hpos]
  rfl

/-- The allocator with one more frame that may be handed out. -/
def withAvailable (a : FrameAllocator) (index : ℕ) : FrameAllocator :=
  { a with
    allocatable := a.allocatable.setBitAt index true
    used := a.used.setBitAt index false
    freeFrames := a.freeFrames + 1
    allocatable_le := by rw [Slice.length_setBitAt]; exact a.allocatable_le
    used_le := by rw [Slice.length_setBitAt]; exact a.used_le }

lemma allocatable_withAvailable (h : index < a.frames) (i : ℕ) :
    (a.withAvailable index).allocatable.bitAt i =
      if i = index then true else a.allocatable.bitAt i :=
  Slice.bitAt_setBitAt (lt_of_lt_of_le h a.allocatable_le) true i

lemma used_withAvailable (h : index < a.frames) (i : ℕ) :
    (a.withAvailable index).used.bitAt i = if i = index then false else a.used.bitAt i :=
  Slice.bitAt_setBitAt (lt_of_lt_of_le h a.used_le) false i

lemma freeSet_withAvailable (h : index < a.frames) :
    (a.withAvailable index).freeSet = insert index a.freeSet := by
  ext i
  rw [mem_freeSet, Finset.mem_insert, mem_freeSet, freeAt, allocatable_withAvailable h,
    used_withAvailable h, freeAt]
  by_cases hi : i = index
  · rw [if_pos hi, if_pos hi]
    exact ⟨fun _ => .inl hi, fun _ => ⟨hi ▸ h, rfl⟩⟩
  · rw [if_neg hi, if_neg hi]
    exact ⟨.inr, fun hcon => hcon.resolve_left hi⟩

/-- Adding a frame of the window returns when the counter does not overflow. -/
lemma markAvailable_addressOf {a' : FrameAllocator} (hindex : index < a.frames)
    (h : a.markAvailable (a.addressOf index) = .ok a') :
    a.freeFrames + 1 < 2 ^ 64 ∧ a' = a.withAvailable index := by
  have hallocatable := a.allocatable_le
  have hused := a.used_le
  rw [markAvailable, frameIndex_addressOf hindex] at h
  simp only at h
  rw [setAllocatable, if_pos (by omega), Checked.ok_bind, setUsed, if_pos (by simp only; omega),
    Checked.ok_bind] at h
  obtain ⟨count, hcount, h⟩ := Checked.bind_eq_ok.mp h
  obtain ⟨hword, rfl⟩ := addWord_eq_ok_iff.mp hcount
  exact ⟨hword, (Except.ok.inj h).symm⟩

/-- Adding a frame; other addresses are ignored. -/
lemma markAvailable_eq_ok {a' : FrameAllocator} {address : ℕ}
    (h : a.markAvailable address = .ok a') : a' = a ∨
      ∃ index < a.frames, address = a.addressOf index ∧ a.freeFrames + 1 < 2 ^ 64 ∧
        a' = a.withAvailable index := by
  cases hindex : a.frameIndex address with
  | none =>
    rw [markAvailable, hindex] at h
    exact .inl (Except.ok.inj h).symm
  | some index =>
    obtain ⟨hlt, rfl⟩ := frameIndex_eq_some_iff.mp hindex
    exact .inr ⟨index, hlt, rfl, markAvailable_addressOf hlt h⟩

/-! ## The allocator of `init` -/

/-- What is known about an allocator that nothing has been taken from. -/
structure Fresh (map : MemoryMap) (a₀ : FrameAllocator) : Prop where
  /-- A frame is not handed out if and only if it may be. -/
  used_eq : ∀ i < a₀.frames, a₀.used.bitAt i = !a₀.allocatable.bitAt i
  /-- Frames that may be handed out are not reserved. -/
  reservedAt_eq : ∀ i < a₀.frames, a₀.allocatable.bitAt i = true →
    a₀.reservedAt (a₀.addressOf i) = false
  /-- They start in conventional memory. -/
  conventional : ∀ i < a₀.frames, a₀.allocatable.bitAt i = true →
    ∃ r ∈ map.regions, r.kind = .conventional ∧ r.Contains (a₀.addressOf i)
  /-- The counter is not smaller than the number of free frames.  It is larger when regions of the
  map overlap. -/
  card_le : a₀.freeSet.card ≤ a₀.freeFrames
  /-- The counter is a word. -/
  freeFrames_lt : a₀.freeFrames < 2 ^ 64

/-- In a fresh allocator a frame is free if and only if it may be handed out. -/
lemma Fresh.freeAt_eq {map : MemoryMap} {a₀ : FrameAllocator} (h : Fresh map a₀) {i : ℕ}
    (hi : i < a₀.frames) : a₀.freeAt i = a₀.allocatable.bitAt i := by
  rw [freeAt, h.used_eq i hi]
  cases a₀.allocatable.bitAt i <;> rfl

/-- At the start of the loops of `init` no frame may be handed out. -/
lemma bitAt_blank {bitmap : Slice UInt8} {firstFrame frames : ℕ} {reserved : List ReservedRange}
    (hbitmap : 2 * divCeil frames 8 ≤ bitmap.length)
    (hstop : (firstFrame + frames) * pageSize < 2 ^ 64) {i : ℕ} (hi : i < frames) :
    (blank bitmap firstFrame frames reserved hbitmap hstop).allocatable.bitAt i = false := by
  have hcover := le_divCeil_mul frames (show 0 < 8 by norm_num)
  refine (Slice.bitAt_fill ?_ 0 (by omega)).trans (Nat.zero_testBit _)
  rw [Slice.length_takeFirst]
  omega

/-- The start of the loops of `init`. -/
lemma fresh_blank {map : MemoryMap} {bitmap : Slice UInt8} {firstFrame frames : ℕ}
    {reserved : List ReservedRange} (hbitmap : 2 * divCeil frames 8 ≤ bitmap.length)
    (hstop : (firstFrame + frames) * pageSize < 2 ^ 64) :
    Fresh map (blank bitmap firstFrame frames reserved hbitmap hstop) := by
  have hcover := le_divCeil_mul frames (show 0 < 8 by norm_num)
  have hallocatable : ∀ i < frames,
      (blank bitmap firstFrame frames reserved hbitmap hstop).allocatable.bitAt i = false :=
    fun i hi => bitAt_blank hbitmap hstop hi
  have hused : ∀ i < frames,
      (blank bitmap firstFrame frames reserved hbitmap hstop).used.bitAt i = true := by
    intro i hi
    refine (Slice.bitAt_fill ?_ 0xFF (by omega)).trans ?_
    · rw [Slice.length_dropFirst]
      omega
    · have hmod : i % 8 < 8 := Nat.mod_lt _ (by norm_num)
      interval_cases i % 8 <;> rfl
  have hcard : (blank bitmap firstFrame frames reserved hbitmap hstop).freeSet = ∅ := by
    refine Finset.eq_empty_of_forall_notMem fun i hi => ?_
    obtain ⟨hlt, hfree⟩ := mem_freeSet.mp hi
    rw [freeAt, hallocatable i hlt] at hfree
    exact Bool.noConfusion hfree
  refine ⟨fun i hi => ?_, fun i hi hcon => ?_, fun i hi hcon => ?_, ?_, by norm_num [blank]⟩
  · rw [hused i hi, hallocatable i hi]
    rfl
  · rw [hallocatable i hi] at hcon
    exact Bool.noConfusion hcon
  · rw [hallocatable i hi] at hcon
    exact Bool.noConfusion hcon
  · rw [hcard]
    exact Nat.zero_le _

/-- The window and the reserved ranges of an allocator are those of another one. -/
structure SameWindow (a₀ a : FrameAllocator) : Prop where
  firstFrame_eq : a.firstFrame = a₀.firstFrame
  frames_eq : a.frames = a₀.frames
  reserved_eq : a.reserved = a₀.reserved

/-- Adding one frame of conventional memory that is not reserved. -/
lemma Fresh.withAvailable {map : MemoryMap} (h : Fresh map a) (hindex : index < a.frames)
    (hreserved : a.reservedAt (a.addressOf index) = false)
    (hregion : ∃ r ∈ map.regions, r.kind = .conventional ∧ r.Contains (a.addressOf index))
    (hword : a.freeFrames + 1 < 2 ^ 64) : Fresh map (a.withAvailable index) := by
  refine ⟨fun i hi => ?_, fun i hi hbit => ?_, fun i hi hbit => ?_, ?_, hword⟩
  · rw [used_withAvailable hindex, allocatable_withAvailable hindex]
    split_ifs
    · rfl
    · exact h.used_eq i hi
  · rw [allocatable_withAvailable hindex] at hbit
    by_cases heq : i = index
    · rw [heq]
      exact hreserved
    · rw [if_neg heq] at hbit
      exact h.reservedAt_eq i hi hbit
  · rw [allocatable_withAvailable hindex] at hbit
    by_cases heq : i = index
    · rw [heq]
      exact hregion
    · rw [if_neg heq] at hbit
      exact h.conventional i hi hbit
  · rw [freeSet_withAvailable hindex]
    exact le_trans (Finset.card_insert_le _ _) (Nat.succ_le_succ h.card_le)

/-- One round of the inner loop of `init`. -/
lemma Fresh.offer {map : MemoryMap} {a₀ a' : FrameAllocator} {r : Region} {address : ℕ}
    (h : Fresh map a) (hwindow : SameWindow a₀ a) (hr : r ∈ map.regions)
    (hkind : r.kind = .conventional) (hcontains : r.Contains address)
    (heq : a.offer address = .ok a') : Fresh map a' ∧ SameWindow a₀ a' := by
  rw [FrameAllocator.offer] at heq
  obtain ⟨reserved, hreserved, heq⟩ := Checked.bind_eq_ok.mp heq
  rw [isReserved] at hreserved
  obtain ⟨stop, hstop, hreserved⟩ := Checked.bind_eq_ok.mp hreserved
  obtain ⟨-, rfl⟩ := addWord_eq_ok_iff.mp hstop
  cases reserved with
  | true =>
    obtain rfl := Except.ok.inj heq
    exact ⟨h, hwindow⟩
  | false =>
    rcases markAvailable_eq_ok heq with rfl | ⟨index, hindex, rfl, hword, rfl⟩
    · exact ⟨h, hwindow⟩
    · exact ⟨h.withAvailable hindex (Except.ok.inj hreserved) ⟨r, hr, hkind, hcontains⟩ hword,
        hwindow.firstFrame_eq, hwindow.frames_eq, hwindow.reserved_eq⟩

/-- One round of the outer loop of `init`. -/
lemma Fresh.offerRegion {map : MemoryMap} {a₀ a' : FrameAllocator} {r : Region}
    {managedStart limit : ℕ} (h : Fresh map a) (hwindow : SameWindow a₀ a) (hr : r ∈ map.regions)
    (heq : a.offerRegion managedStart limit r = .ok a') : Fresh map a' ∧ SameWindow a₀ a' := by
  rw [FrameAllocator.offerRegion] at heq
  split_ifs at heq with hkind
  · obtain rfl := Except.ok.inj heq
    exact ⟨h, hwindow⟩
  · refine forStep_inv (fun a => Fresh map a ∧ SameWindow a₀ a) ⟨h, hwindow⟩
      (fun address a a' hstart hstop ha hround => ?_) heq
    refine ha.1.offer ha.2 hr (not_not.mp hkind) ⟨?_, ?_⟩ hround
    · exact le_trans (le_max_left _ _) hstart
    · exact lt_of_lt_of_le hstop (min_le_left _ _)

/-- The result of a successful `init`. -/
structure Initial (map : MemoryMap) (reserved : List ReservedRange) (config : Config)
    (a₀ : FrameAllocator) : Prop where
  fresh : Fresh map a₀
  firstFrame_eq : a₀.firstFrame = divCeil config.managedStart pageSize
  frames_eq : a₀.firstFrame + a₀.frames = config.limit / pageSize
  reserved_eq : a₀.reserved = reserved
  freeFrames_pos : 0 < a₀.freeFrames

lemma initial_of_init {bitmap : Slice UInt8} {map : MemoryMap} {reserved : List ReservedRange}
    {config : Config} {a₀ : FrameAllocator}
    (h : init bitmap map reserved config = .ok (.ok a₀)) : Initial map reserved config a₀ := by
  unfold init at h
  dsimp only at h
  split_ifs at h with h1 h2 h3 h4
  · simp at h
  · simp at h
  · simp at h
  · obtain ⟨a, hloop, h⟩ := Checked.bind_eq_ok.mp h
    split_ifs at h with h5
    · simp at h
    · obtain rfl : a = a₀ := by simpa using h
      have hblank : Fresh map (blank bitmap (divCeil config.managedStart pageSize)
          (config.limit / pageSize - divCeil config.managedStart pageSize) reserved
          (not_lt.mp h3) (not_le.mp h4)) := fresh_blank _ _
      obtain ⟨hfresh, hwindow⟩ := foldlM_inv
        (fun _ a => Fresh map a ∧ SameWindow (blank bitmap (divCeil config.managedStart pageSize)
          (config.limit / pageSize - divCeil config.managedStart pageSize) reserved
          (not_lt.mp h3) (not_le.mp h4)) a) ⟨hblank, rfl, rfl, rfl⟩
        (fun done r rest a a' hl ha hround => ha.1.offerRegion ha.2 (by rw [hl]; simp) hround) hloop
      refine ⟨hfresh, hwindow.firstFrame_eq, ?_, hwindow.reserved_eq, Nat.pos_of_ne_zero h5⟩
      rw [hwindow.firstFrame_eq, hwindow.frames_eq]
      exact Nat.add_sub_cancel' (not_le.mp h2).le

/-! ## All frames that may be handed out -/

/-- One round of the inner loop adds the frame at the address, unless it is reserved. -/
lemma bitAt_of_offer {a' : FrameAllocator} {address : ℕ} (h : a.offer address = .ok a') :
    SameWindow a a' ∧ ∀ i < a.frames, a'.allocatable.bitAt i = true ↔
      a.allocatable.bitAt i = true ∨ a.addressOf i = address ∧ a.reservedAt address = false := by
  rw [FrameAllocator.offer] at h
  obtain ⟨reserved, hreserved, h⟩ := Checked.bind_eq_ok.mp h
  rw [isReserved] at hreserved
  obtain ⟨stop, hstop, hreserved⟩ := Checked.bind_eq_ok.mp hreserved
  obtain ⟨-, rfl⟩ := addWord_eq_ok_iff.mp hstop
  have hvalue : a.reservedAt address = reserved := Except.ok.inj hreserved
  cases reserved with
  | true =>
    obtain rfl := Except.ok.inj h
    exact ⟨⟨rfl, rfl, rfl⟩, fun i _ => by simp [hvalue]⟩
  | false =>
    by_cases hwindow : ∃ index < a.frames, a.addressOf index = address
    · obtain ⟨index, hindex, rfl⟩ := hwindow
      obtain ⟨-, rfl⟩ := markAvailable_addressOf hindex h
      refine ⟨⟨rfl, rfl, rfl⟩, fun i _ => ?_⟩
      rw [allocatable_withAvailable hindex, hvalue]
      split_ifs with heq
      · simp [heq]
      · have hne : a.addressOf i ≠ a.addressOf index := fun hcon => heq (a.addressOf_injective hcon)
        simp [hne]
    · rcases markAvailable_eq_ok h with rfl | ⟨index, hindex, heq, -, -⟩
      · refine ⟨⟨rfl, rfl, rfl⟩, fun i hi => ?_⟩
        have hne : a'.addressOf i ≠ address := fun hcon => hwindow ⟨i, hi, hcon⟩
        simp [hne]
      · exact absurd ⟨index, hindex, heq.symm⟩ hwindow

/-- The outer loop offers the frame with the index `i` when it comes to the region. -/
def OfferedIn (a : FrameAllocator) (managedStart limit : ℕ) (r : Region) (i : ℕ) : Prop :=
  r.kind = .conventional ∧ max r.base managedStart ≤ a.addressOf i ∧
    a.addressOf i < min r.stop limit ∧ pageSize ∣ a.addressOf i - max r.base managedStart ∧
    a.reservedAt (a.addressOf i) = false

lemma offeredIn_congr {a a' : FrameAllocator} (h : SameWindow a a') {managedStart limit : ℕ}
    {r : Region} {i : ℕ} :
    a'.OfferedIn managedStart limit r i ↔ a.OfferedIn managedStart limit r i := by
  rw [OfferedIn, OfferedIn, addressOf, addressOf, reservedAt, reservedAt, h.firstFrame_eq,
    h.reserved_eq]

/-- The addresses that the inner loop goes through. -/
lemma exists_round_iff {start stop address : ℕ} :
    (∃ j < divCeil (stop - start) pageSize, address = start + j * pageSize) ↔
      start ≤ address ∧ address < stop ∧ pageSize ∣ address - start := by
  constructor
  · rintro ⟨j, hj, rfl⟩
    refine ⟨Nat.le_add_right _ _, forStep_lt hj, ?_⟩
    rw [Nat.add_sub_cancel_left]
    exact Dvd.intro_left _ rfl
  · rintro ⟨hle, hlt, j, hj⟩
    rw [mul_comm] at hj
    refine ⟨j, ?_, by omega⟩
    rw [divCeil]
    simp only [pageSize] at hj ⊢
    omega

/-- One round of the outer loop adds the frames that the region offers. -/
lemma bitAt_of_offerRegion {a' : FrameAllocator} {managedStart limit : ℕ} {r : Region}
    (h : a.offerRegion managedStart limit r = .ok a') :
    SameWindow a a' ∧ ∀ i < a.frames, a'.allocatable.bitAt i = true ↔
      a.allocatable.bitAt i = true ∨ a.OfferedIn managedStart limit r i := by
  rw [FrameAllocator.offerRegion] at h
  split_ifs at h with hkind
  · obtain rfl := Except.ok.inj h
    refine ⟨⟨rfl, rfl, rfl⟩, fun i _ => ?_⟩
    have hnot : ¬ a.OfferedIn managedStart limit r i := fun hoffered => hkind hoffered.1
    simp [hnot]
  have hinv := forRange_inv (fun n a' => SameWindow a a' ∧
    ∀ i < a.frames, a'.allocatable.bitAt i = true ↔ a.allocatable.bitAt i = true ∨
      (∃ j < n, a.addressOf i = max r.base managedStart + j * pageSize) ∧
        a.reservedAt (a.addressOf i) = false)
    ⟨⟨rfl, rfl, rfl⟩, fun i _ => by simp⟩ ?_ h
  · refine ⟨hinv.1, fun i hi => ?_⟩
    rw [hinv.2 i hi, exists_round_iff, OfferedIn, and_assoc, and_assoc]
    exact or_congr_right (iff_and_self.mpr fun _ => not_not.mp hkind)
  · rintro n - a₁ a₂ ⟨hwindow, hdone⟩ hround
    obtain ⟨a₃, hoffer, hround⟩ := Checked.bind_eq_ok.mp hround
    obtain ⟨-, -, hround⟩ := Checked.bind_eq_ok.mp hround
    obtain rfl := Except.ok.inj hround
    obtain ⟨hwindow', hnew⟩ := bitAt_of_offer hoffer
    refine ⟨⟨hwindow'.firstFrame_eq.trans hwindow.firstFrame_eq,
      hwindow'.frames_eq.trans hwindow.frames_eq, hwindow'.reserved_eq.trans hwindow.reserved_eq⟩,
      fun i hi => ?_⟩
    have hsame : a₁.addressOf i = a.addressOf i := by
      rw [addressOf, addressOf, hwindow.firstFrame_eq]
    have hreserved : ∀ address, a₁.reservedAt address = a.reservedAt address := fun address => by
      rw [reservedAt, reservedAt, hwindow.reserved_eq]
    rw [hnew i (by rwa [hwindow.frames_eq]), hdone i hi, hsame, hreserved, or_assoc]
    refine or_congr_right ⟨?_, ?_⟩
    · rintro (⟨⟨j, hj, heq⟩, hreserved⟩ | ⟨heq, hreserved⟩)
      · exact ⟨⟨j, Nat.lt_succ_of_lt hj, heq⟩, hreserved⟩
      · exact ⟨⟨n, Nat.lt_succ_self n, heq⟩, heq ▸ hreserved⟩
    · rintro ⟨⟨j, hj, heq⟩, hreserved⟩
      rcases Nat.lt_succ_iff_lt_or_eq.mp hj with hlt | rfl
      · exact .inl ⟨⟨j, hlt, heq⟩, hreserved⟩
      · exact .inr ⟨heq, heq ▸ hreserved⟩

/-- The allocator of `init` may hand out a frame exactly when some region of the map offers it. -/
lemma allocatable_iff_offeredIn {bitmap : Slice UInt8} {map : MemoryMap}
    {reserved : List ReservedRange} {config : Config} {a₀ : FrameAllocator}
    (h : init bitmap map reserved config = .ok (.ok a₀)) {i : ℕ} (hi : i < a₀.frames) :
    a₀.allocatable.bitAt i = true ↔ ∃ r ∈ map.regions,
      a₀.OfferedIn (divCeil config.managedStart pageSize * pageSize)
        (config.limit / pageSize * pageSize) r i := by
  unfold init at h
  dsimp only at h
  split_ifs at h with h1 h2 h3 h4
  · simp at h
  · simp at h
  · simp at h
  · obtain ⟨a, hloop, h⟩ := Checked.bind_eq_ok.mp h
    split_ifs at h with h5
    · simp at h
    obtain rfl : a = a₀ := by simpa using h
    have hinv := foldlM_inv
      (fun done a => ∀ i < a.frames, a.allocatable.bitAt i = true ↔
        ∃ r ∈ done, a.OfferedIn (divCeil config.managedStart pageSize * pageSize)
          (config.limit / pageSize * pageSize) r i) ?_ ?_ hloop
    · exact hinv i hi
    · intro i hi
      have hblank := @bitAt_blank bitmap (divCeil config.managedStart pageSize)
        (config.limit / pageSize - divCeil config.managedStart pageSize) reserved (not_lt.mp h3)
        (not_le.mp h4) i hi
      simp [hblank]
    · intro done r rest a a' _ hdone hround i hi
      obtain ⟨hwindow, hnew⟩ := bitAt_of_offerRegion hround
      rw [hwindow.frames_eq] at hi
      simp only [hnew i hi, hdone i hi, offeredIn_congr hwindow, List.mem_append,
        List.mem_singleton,
        or_and_right, exists_or, exists_eq_left]

end FrameAllocator

end KernelMemory

end ParanukOS
