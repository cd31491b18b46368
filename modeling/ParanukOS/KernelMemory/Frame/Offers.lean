import ParanukOS.Foundation.Covers
import ParanukOS.KernelMemory.Frame.Run

/-!
# The frames that a memory map offers

`init` goes through the regions of the memory map and offers the frames of each conventional one.  A
frame is offered by a region when it starts in it, and a region above the start of the window offers
nothing unless it starts at a page.  The counter of the allocator counts a frame once for every
region that offers it, while the bitmaps know it only once.

## Outline

* `Vacant`, `Region.Offers`, `offered`: the frames that a region offers.
* `offerRegion_cases`, `init_cases`: what `init` returns, and when its counter overflows.
* `init_exact`: the free frames after `init`, when all regions start at a page.
* `counter_exact_iff`: the counter is the number of free frames if no frame is offered twice.
* `conventional_only_iff`: when all frames that are handed out lie inside of conventional memory.
-/

namespace ParanukOS

open Foundation

namespace KernelMemory

/-- The start of the window: the first page that begins in the range. -/
def Config.windowStart (config : Config) : ℕ := divCeil config.managedStart pageSize * pageSize

/-- The end of the window. -/
def Config.windowStop (config : Config) : ℕ := config.limit / pageSize * pageSize

/-- The frames of the window, by their numbers. -/
def Config.frames (config : Config) : Finset ℕ :=
  Finset.Ico (divCeil config.managedStart pageSize) (config.limit / pageSize)

/-- No reserved range meets the frame at the address. -/
def Vacant (reserved : List ReservedRange) (p : ℕ) : Prop :=
  ∀ range ∈ reserved, range.overlaps p (p + pageSize) = false

instance (reserved : List ReservedRange) (p : ℕ) : Decidable (Vacant reserved p) :=
  inferInstanceAs (Decidable (∀ range ∈ reserved, range.overlaps p (p + pageSize) = false))

/-- The region offers a frame of the window at the address. -/
def Region.Offers (r : Region) (config : Config) (p : ℕ) : Prop :=
  r.kind = .conventional ∧ (r.base ≤ p ∧ p < r.stop) ∧
    (r.base ≤ config.windowStart ∨ pageSize ∣ r.base)

instance (r : Region) (config : Config) (p : ℕ) : Decidable (r.Offers config p) :=
  inferInstanceAs (Decidable (_ ∧ _ ∧ _))

/-- The frames that a region offers. -/
def offered (reserved : List ReservedRange) (config : Config) (r : Region) : Finset ℕ :=
  config.frames.filter fun f => Vacant reserved (f * pageSize) ∧ r.Offers config (f * pageSize)

/-- The number of all offers. -/
def offerCount (map : MemoryMap) (reserved : List ReservedRange) (config : Config) : ℕ :=
  (map.regions.map fun r => (offered reserved config r).card).sum

lemma mem_offered {reserved : List ReservedRange} {config : Config} {r : Region} {f : ℕ} :
    f ∈ offered reserved config r ↔
      f ∈ config.frames ∧ Vacant reserved (f * pageSize) ∧ r.Offers config (f * pageSize) :=
  Finset.mem_filter

/-- The frames of the window, by their addresses. -/
lemma Config.mem_frames {config : Config} {f : ℕ} : f ∈ config.frames ↔
    config.managedStart ≤ f * pageSize ∧ f * pageSize + pageSize ≤ config.limit := by
  rw [frames, Finset.mem_Ico, divCeil]
  simp only [pageSize]
  omega

/-- The same with the bounds of the window. -/
lemma Config.mem_frames_iff_window {config : Config} {f : ℕ} : f ∈ config.frames ↔
    config.windowStart ≤ f * pageSize ∧ f * pageSize < config.windowStop := by
  rw [frames, Finset.mem_Ico, windowStart, windowStop, divCeil]
  simp only [pageSize]
  omega

/-- A word after the end of the window. -/
lemma Config.windowStop_add_le {config : Config} (h : config.limit < 2 ^ 64) :
    config.windowStop + pageSize ≤ 2 ^ 64 := by
  rw [windowStop]
  simp only [pageSize]
  omega

namespace FrameAllocator

variable {config : Config} {reserved : List ReservedRange} {a a₀ a' : FrameAllocator} {r : Region}

lemma SameWindow.trans {a₁ a₂ a₃ : FrameAllocator} (h : SameWindow a₁ a₂) (h' : SameWindow a₂ a₃) :
    SameWindow a₁ a₃ :=
  ⟨h'.firstFrame_eq.trans h.firstFrame_eq, h'.frames_eq.trans h.frames_eq,
    h'.reserved_eq.trans h.reserved_eq⟩

/-- The allocator manages the window of a configuration. -/
structure Manages (config : Config) (reserved : List ReservedRange) (a : FrameAllocator) :
    Prop where
  firstFrame_eq : a.firstFrame = divCeil config.managedStart pageSize
  frames_eq : a.firstFrame + a.frames = config.limit / pageSize
  reserved_eq : a.reserved = reserved

lemma Manages.congr (h : Manages config reserved a) (hwindow : SameWindow a a') :
    Manages config reserved a' where
  firstFrame_eq := hwindow.firstFrame_eq.trans h.firstFrame_eq
  frames_eq := by rw [hwindow.firstFrame_eq, hwindow.frames_eq, h.frames_eq]
  reserved_eq := hwindow.reserved_eq.trans h.reserved_eq

lemma Initial.manages {map : MemoryMap} (h : Initial map reserved config a) :
    Manages config reserved a :=
  ⟨h.firstFrame_eq, h.frames_eq, h.reserved_eq⟩

/-- The indices of the allocator and the frames of the window. -/
lemma Manages.add_mem_frames (h : Manages config reserved a) {i : ℕ} :
    a.firstFrame + i ∈ config.frames ↔ i < a.frames := by
  have hframes := h.frames_eq
  rw [Config.frames, Finset.mem_Ico, ← h.firstFrame_eq]
  omega

lemma Manages.exists_index (h : Manages config reserved a) {f : ℕ} (hf : f ∈ config.frames) :
    ∃ i < a.frames, a.firstFrame + i = f := by
  have hle : a.firstFrame ≤ f := by
    rw [h.firstFrame_eq]
    exact (Finset.mem_Ico.mp hf).1
  obtain ⟨i, rfl⟩ := Nat.exists_eq_add_of_le hle
  exact ⟨i, h.add_mem_frames.mp hf, rfl⟩

lemma Manages.reservedAt_eq_false_iff (h : Manages config reserved a) {p : ℕ} :
    a.reservedAt p = false ↔ Vacant reserved p := by
  rw [reservedAt, List.any_eq_false, h.reserved_eq]
  simp only [Bool.not_eq_true, Vacant]

/-! ## The loops of `init` -/

/-- The inner loop adds the frame at the address. -/
def offers (a : FrameAllocator) (address : ℕ) : Bool :=
  (a.frameIndex address).isSome && !a.reservedAt address

/-- One round of the inner loop. -/
lemma offer_cases {address : ℕ} (h : address + pageSize < 2 ^ 64) :
    (a.offers address = false ∧ a.offer address = .ok a) ∨
    a.offers address = true ∧ ∃ i < a.frames, a.offer address =
      if a.freeFrames + 1 < 2 ^ 64 then .ok (a.withAvailable i) else .error .overflow := by
  have hallocatable := a.allocatable_le
  have hused := a.used_le
  rw [offer, isReserved_eq h, Checked.ok_bind, offers]
  cases a.reservedAt address with
  | true => exact .inl ⟨Bool.and_false _, rfl⟩
  | false =>
    rw [markAvailable]
    cases hindex : a.frameIndex address with
    | none => exact .inl ⟨rfl, rfl⟩
    | some i =>
      obtain ⟨hi, -⟩ := frameIndex_eq_some_iff.mp hindex
      refine .inr ⟨rfl, i, hi, ?_⟩
      simp only [Bool.false_eq_true, if_false]
      rw [setAllocatable, if_pos (by omega), Checked.ok_bind, setUsed,
        if_pos (by simp only; omega), Checked.ok_bind, addWord]
      split_ifs <;> rfl

/-- The offers do not depend on the bitmaps. -/
lemma offers_congr (h : SameWindow a a') (address : ℕ) : a'.offers address = a.offers address := by
  rw [offers, offers, frameIndex, frameIndex, reservedAt, reservedAt, h.firstFrame_eq, h.frames_eq,
    h.reserved_eq]

/-- The offers of the inner loop, in terms of the window. -/
lemma Manages.offers_iff (h : Manages config reserved a) {address : ℕ} :
    a.offers address = true ↔
      ∃ f ∈ config.frames, f * pageSize = address ∧ Vacant reserved address := by
  rw [offers, Bool.and_eq_true, Bool.not_eq_true', h.reservedAt_eq_false_iff,
    Option.isSome_iff_exists]
  simp only [frameIndex_eq_some_iff]
  constructor
  · rintro ⟨⟨i, hi, rfl⟩, hvacant⟩
    exact ⟨a.firstFrame + i, h.add_mem_frames.mpr hi, rfl, hvacant⟩
  · rintro ⟨f, hf, rfl, hvacant⟩
    obtain ⟨i, hi, rfl⟩ := h.exists_index hf
    exact ⟨⟨i, hi, rfl⟩, hvacant⟩

/-- The frames that the inner loop comes to are those that the region offers. -/
lemma exists_round_iff_offers {f : ℕ} (hf : f ∈ config.frames) (hkind : r.kind = .conventional) :
    (∃ j < divCeil (min r.stop config.windowStop - max r.base config.windowStart) pageSize,
      f * pageSize = max r.base config.windowStart + j * pageSize) ↔
      r.Offers config (f * pageSize) := by
  obtain ⟨hlow, hhigh⟩ := Config.mem_frames_iff_window.mp hf
  have hdvd : pageSize ∣ f * pageSize := Dvd.intro_left f rfl
  have hwindow : pageSize ∣ config.windowStart := Dvd.intro_left _ rfl
  rw [exists_round_iff, Region.Offers, max_le_iff, lt_min_iff]
  constructor
  · rintro ⟨⟨hbase, -⟩, ⟨hstop, -⟩, hstep⟩
    refine ⟨hkind, ⟨hbase, hstop⟩, ?_⟩
    rcases le_total r.base config.windowStart with hle | hle
    · exact .inl hle
    · rw [max_eq_left hle] at hstep
      exact .inr ((Nat.dvd_sub_iff_right hbase hdvd).mp hstep)
  · rintro ⟨-, ⟨hbase, hstop⟩, haligned⟩
    refine ⟨⟨hbase, hlow⟩, ⟨hstop, hhigh⟩, Nat.dvd_sub hdvd ?_⟩
    rcases le_total r.base config.windowStart with hle | hle
    · rwa [max_eq_right hle]
    · rw [max_eq_left hle]
      rcases haligned with hle' | haligned
      · rwa [le_antisymm hle' hle]
      · exact haligned

/-- The number of frames that the inner loop adds. -/
lemma Manages.count_offers (h : Manages config reserved a) (hkind : r.kind = .conventional) :
    Nat.count (fun j => a.offers (max r.base config.windowStart + j * pageSize) = true)
      (divCeil (min r.stop config.windowStop - max r.base config.windowStart) pageSize) =
      (offered reserved config r).card := by
  rw [Nat.count_eq_card_filter_range]
  apply Finset.card_bij fun j _ => (max r.base config.windowStart + j * pageSize) / pageSize
  · intro j hj
    rw [Finset.mem_filter, Finset.mem_range, h.offers_iff] at hj
    obtain ⟨hj, f, hf, heq, hvacant⟩ := hj
    rw [← heq, Nat.mul_div_cancel _ (by decide), mem_offered]
    rw [← heq] at hvacant
    exact ⟨hf, hvacant, (exists_round_iff_offers hf hkind).mp ⟨j, hj, heq⟩⟩
  · intro j _ j' _ heq
    rw [Nat.add_mul_div_right _ _ (by decide), Nat.add_mul_div_right _ _ (by decide)] at heq
    exact Nat.add_left_cancel heq
  · intro f hf
    obtain ⟨hframes, hvacant, hoffers⟩ := mem_offered.mp hf
    obtain ⟨j, hj, heq⟩ := (exists_round_iff_offers hframes hkind).mpr hoffers
    refine ⟨j, ?_, ?_⟩
    · rw [Finset.mem_filter, Finset.mem_range, h.offers_iff]
      exact ⟨hj, f, hframes, heq, heq ▸ hvacant⟩
    · rw [← heq, Nat.mul_div_cancel _ (by decide)]

/-- One round of the outer loop.  It stops only when the counter overflows. -/
lemma offerRegion_cases (h : Manages config reserved a) (hlimit : config.limit < 2 ^ 64) :
    (∃ a', a.offerRegion config.windowStart config.windowStop r = .ok a' ∧ SameWindow a a' ∧
      a'.freeFrames = a.freeFrames + (offered reserved config r).card) ∨
    ∃ e, a.offerRegion config.windowStart config.windowStop r = .error e ∧
      2 ^ 64 ≤ a.freeFrames + (offered reserved config r).card := by
  have hlast := Config.windowStop_add_le hlimit
  rw [offerRegion]
  by_cases hkind : r.kind = .conventional
  · rw [if_neg (not_not.mpr hkind), ← h.count_offers hkind]
    apply forStep_cases
      (fun n a' => SameWindow a a' ∧ a'.freeFrames = a.freeFrames +
        Nat.count (fun j => a.offers (max r.base config.windowStart + j * pageSize) = true) n)
      (fun n => 2 ^ 64 ≤ a.freeFrames +
        Nat.count (fun j => a.offers (max r.base config.windowStart + j * pageSize) = true) n)
    · exact le_trans (Nat.add_le_add_right (min_le_right _ _) _) hlast
    · exact ⟨⟨rfl, rfl, rfl⟩, rfl⟩
    · rintro j a₁ hstop ⟨hwindow, hcount⟩
      have hword : max r.base config.windowStart + j * pageSize + pageSize < 2 ^ 64 := by omega
      rw [Nat.count_succ, ← offers_congr hwindow]
      rcases a₁.offer_cases hword with ⟨hno, heq⟩ | ⟨hyes, i, hi, heq⟩
      · rw [heq, hno]
        exact .inl ⟨a₁, rfl, hwindow, hcount⟩
      · rw [heq, if_pos hyes]
        by_cases hfits : a₁.freeFrames + 1 < 2 ^ 64
        · rw [if_pos hfits]
          refine .inl ⟨a₁.withAvailable i, rfl, hwindow.trans ⟨rfl, rfl, rfl⟩, ?_⟩
          rw [← Nat.add_assoc, ← hcount]
          rfl
        · rw [if_neg hfits]
          refine .inr ⟨.overflow, rfl, ?_⟩
          rw [← Nat.add_assoc, ← hcount]
          exact not_lt.mp hfits
    · intro j hfull
      refine hfull.trans (Nat.add_le_add_left ?_ _)
      exact Nat.count_monotone _ (Nat.le_succ j)
  · rw [if_pos hkind]
    have hnone : offered reserved config r = ∅ := by
      refine Finset.eq_empty_of_forall_notMem fun f hf => hkind ?_
      exact (mem_offered.mp hf).2.2.1
    rw [hnone]
    exact .inl ⟨a, rfl, ⟨rfl, rfl, rfl⟩, rfl⟩

/-- The input checks of `init` that come before its loops. -/
structure Admits (bitmap : Slice UInt8) (reserved : List ReservedRange) (config : Config) :
    Prop where
  reserved_le : reserved.length ≤ maxReservedRanges
  window_lt : divCeil config.managedStart pageSize < config.limit / pageSize
  bitmap_le :
    2 * divCeil (config.limit / pageSize - divCeil config.managedStart pageSize) 8 ≤ bitmap.length

/-- The loops of `init`, from the blank allocator on. -/
lemma regions_cases (map : MemoryMap) (h : Manages config reserved a) (hzero : a.freeFrames = 0)
    (hlimit : config.limit < 2 ^ 64) :
    (∃ a', map.regions.foldlM (offerRegion config.windowStart config.windowStop) a = .ok a' ∧
      SameWindow a a' ∧ a'.freeFrames = offerCount map reserved config) ∨
    ∃ e, map.regions.foldlM (offerRegion config.windowStart config.windowStop) a = .error e ∧
      2 ^ 64 ≤ offerCount map reserved config := by
  have hsum : ∀ (done : List Region) (r : Region),
      ((done ++ [r]).map fun r => (offered reserved config r).card).sum =
        (done.map fun r => (offered reserved config r).card).sum +
          (offered reserved config r).card := by
    intro done r
    rw [List.map_append, List.sum_append, List.map_singleton, List.sum_singleton]
  apply foldlM_cases
    (fun done a' => SameWindow a a' ∧
      a'.freeFrames = (done.map fun r => (offered reserved config r).card).sum)
    (fun done => 2 ^ 64 ≤ (done.map fun r => (offered reserved config r).card).sum)
  · exact ⟨⟨rfl, rfl, rfl⟩, hzero⟩
  · rintro done r a₁ ⟨hwindow, hcount⟩
    rw [hsum, ← hcount]
    rcases offerRegion_cases (r := r) (h.congr hwindow) hlimit with
      ⟨a₂, heq, hwindow', hcount'⟩ | ⟨e, heq, hfull⟩
    · exact .inl ⟨a₂, heq, hwindow.trans hwindow', hcount'⟩
    · exact .inr ⟨e, heq, hfull⟩
  · intro done r hfull
    rw [hsum]
    exact hfull.trans (Nat.le_add_right _ _)

/-- What `init` returns when the checks pass.  The loops stop only when the counter overflows. -/
lemma init_cases {bitmap : Slice UInt8} (map : MemoryMap)
    (hadmits : Admits bitmap reserved config) (hlimit : config.limit < 2 ^ 64) :
    (∃ a, init bitmap map reserved config =
        (if a.freeFrames = 0 then .ok (.error .noUsableMemory) else .ok (.ok a)) ∧
      Manages config reserved a ∧ a.freeFrames = offerCount map reserved config) ∨
    ∃ e, init bitmap map reserved config = .error e ∧
      2 ^ 64 ≤ offerCount map reserved config := by
  obtain ⟨hreserved, hwindow, hbitmap⟩ := hadmits
  have hstop : (divCeil config.managedStart pageSize +
      (config.limit / pageSize - divCeil config.managedStart pageSize)) * pageSize < 2 ^ 64 := by
    rw [Nat.add_sub_cancel' hwindow.le]
    exact (Nat.div_mul_le_self _ _).trans_lt hlimit
  have hblank : Manages config reserved (blank bitmap (divCeil config.managedStart pageSize)
      (config.limit / pageSize - divCeil config.managedStart pageSize) reserved hbitmap hstop) :=
    ⟨rfl, Nat.add_sub_cancel' hwindow.le, rfl⟩
  unfold init
  rw [if_neg (not_lt.mpr hreserved)]
  simp only
  rw [if_neg (not_le.mpr hwindow), dif_neg (not_lt.mpr hbitmap), dif_neg (not_le.mpr hstop)]
  rcases regions_cases map hblank rfl hlimit with ⟨a, heq, hsame, hcount⟩ | ⟨e, heq, hfull⟩
  · refine .inl ⟨a, ?_, hblank.congr hsame, hcount⟩
    rw [Config.windowStart, Config.windowStop] at heq
    rw [heq]
    rfl
  · refine .inr ⟨e, ?_, hfull⟩
    rw [Config.windowStart, Config.windowStop] at heq
    rw [heq]
    rfl

/-- When the checks do not pass, `init` returns another error. -/
lemma init_of_not_admits {bitmap : Slice UInt8} (map : MemoryMap)
    (h : ¬ Admits bitmap reserved config) :
    ∃ e, init bitmap map reserved config = .ok (.error e) := by
  unfold init
  by_cases hreserved : maxReservedRanges < reserved.length
  · rw [if_pos hreserved]
    exact ⟨_, rfl⟩
  rw [if_neg hreserved]
  simp only
  by_cases hwindow : config.limit / pageSize ≤ divCeil config.managedStart pageSize
  · rw [if_pos hwindow]
    exact ⟨_, rfl⟩
  rw [if_neg hwindow]
  by_cases hbitmap : bitmap.length <
      2 * divCeil (config.limit / pageSize - divCeil config.managedStart pageSize) 8
  · rw [dif_pos hbitmap]
    exact ⟨_, rfl⟩
  · exact absurd ⟨not_lt.mp hreserved, not_le.mp hwindow, not_lt.mp hbitmap⟩ h

/-- The configuration of an allocator is one of machine words. -/
lemma limit_lt_of_init {bitmap : Slice UInt8} {map : MemoryMap}
    (h : init bitmap map reserved config = .ok (.ok a₀)) : config.limit < 2 ^ 64 := by
  have hmanages := (initial_of_init h).manages
  have hstop := a₀.stop_lt
  rw [hmanages.frames_eq] at hstop
  simp only [pageSize] at hstop
  omega

lemma admits_of_init {bitmap : Slice UInt8} {map : MemoryMap}
    (h : init bitmap map reserved config = .ok (.ok a₀)) : Admits bitmap reserved config := by
  by_contra hnot
  obtain ⟨e, he⟩ := init_of_not_admits map hnot
  rw [h] at he
  cases he

/-- The counter after `init` is the number of offers. -/
lemma freeFrames_of_init {bitmap : Slice UInt8} {map : MemoryMap}
    (h : init bitmap map reserved config = .ok (.ok a₀)) :
    a₀.freeFrames = offerCount map reserved config := by
  rcases init_cases map (admits_of_init h) (limit_lt_of_init h) with
    ⟨a, heq, -, hcount⟩ | ⟨e, heq, -⟩
  · rw [h] at heq
    split_ifs at heq
    · cases heq
    · obtain rfl : a₀ = a := by simpa using heq
      exact hcount
  · rw [h] at heq
    cases heq

/-! ## The free frames -/

lemma Manages.offeredIn_iff (h : Manages config reserved a) {i : ℕ} (hi : i < a.frames) :
    a.OfferedIn config.windowStart config.windowStop r i ↔
      a.firstFrame + i ∈ offered reserved config r := by
  have hframes := h.add_mem_frames.mpr hi
  rw [mem_offered, ← h.reservedAt_eq_false_iff, and_iff_right hframes]
  constructor
  · rintro ⟨hkind, hlow, hhigh, hstep, hreserved⟩
    exact ⟨hreserved,
      (exists_round_iff_offers hframes hkind).mp (exists_round_iff.mpr ⟨hlow, hhigh, hstep⟩)⟩
  · rintro ⟨hreserved, hoffers⟩
    obtain ⟨hlow, hhigh, hstep⟩ :=
      exists_round_iff.mp ((exists_round_iff_offers hframes hoffers.1).mpr hoffers)
    exact ⟨hoffers.1, hlow, hhigh, hstep, hreserved⟩

/-- The frames that are free after `init` are those that are offered. -/
lemma mem_freeSet_iff_of_init {bitmap : Slice UInt8} {map : MemoryMap}
    (h : init bitmap map reserved config = .ok (.ok a₀)) {i : ℕ} :
    i ∈ a₀.freeSet ↔ a₀.firstFrame + i ∈ unionOf (offered reserved config) map.regions := by
  have hinitial := initial_of_init h
  have hmanages := hinitial.manages
  rw [mem_freeSet, mem_unionOf]
  constructor
  · rintro ⟨hi, hfree⟩
    rw [hinitial.fresh.freeAt_eq hi, allocatable_iff_offeredIn h hi] at hfree
    obtain ⟨r, hr, hoffered⟩ := hfree
    exact ⟨r, hr, (hmanages.offeredIn_iff hi).mp hoffered⟩
  · rintro ⟨r, hr, hoffered⟩
    have hi := hmanages.add_mem_frames.mp (mem_offered.mp hoffered).1
    refine ⟨hi, ?_⟩
    rw [hinitial.fresh.freeAt_eq hi, allocatable_iff_offeredIn h hi]
    exact ⟨r, hr, (hmanages.offeredIn_iff hi).mpr hoffered⟩

/-- The number of free frames after `init`. -/
lemma card_freeSet_of_init {bitmap : Slice UInt8} {map : MemoryMap}
    (h : init bitmap map reserved config = .ok (.ok a₀)) :
    a₀.freeSet.card = (unionOf (offered reserved config) map.regions).card := by
  have hmanages := (initial_of_init h).manages
  apply Finset.card_bij fun i _ => a₀.firstFrame + i
  · exact fun i hi => (mem_freeSet_iff_of_init h).mp hi
  · exact fun i _ j _ heq => Nat.add_left_cancel heq
  · intro f hf
    obtain ⟨r, -, hoffered⟩ := mem_unionOf.mp hf
    obtain ⟨i, -, rfl⟩ := hmanages.exists_index (mem_offered.mp hoffered).1
    exact ⟨i, (mem_freeSet_iff_of_init h).mpr hf, rfl⟩

end FrameAllocator

open FrameAllocator

/-- The frame at the address lies inside of one conventional region. -/
def InConventional (map : MemoryMap) (p : ℕ) : Prop :=
  ∃ r ∈ map.regions, r.kind = .conventional ∧ r.base ≤ p ∧ p + pageSize ≤ r.stop

/-- The frames that should be handed out: those of the window that lie inside of one conventional
region and that no reserved range meets. -/
def Usable (map : MemoryMap) (reserved : List ReservedRange) (config : Config) (p : ℕ) : Prop :=
  config.managedStart ≤ p ∧ p + pageSize ≤ config.limit ∧ InConventional map p ∧
    ∀ range ∈ reserved, ¬ (range.start < p + pageSize ∧ p < range.stop)

lemma vacant_iff {reserved : List ReservedRange} {p : ℕ} : Vacant reserved p ↔
    ∀ range ∈ reserved, ¬ (range.start < p + pageSize ∧ p < range.stop) := by
  simp only [Vacant, ReservedRange.overlaps, Bool.and_eq_false_iff, decide_eq_false_iff_not,
    not_and_or]

/-- A region that starts at a page offers the frames inside of it. -/
lemma Region.offers_iff_of_aligned {r : Region} {config : Config} (h : pageSize ∣ r.base) {f : ℕ} :
    r.Offers config (f * pageSize) ↔
      r.kind = .conventional ∧ r.base ≤ f * pageSize ∧ f * pageSize + pageSize ≤ r.stop := by
  have hstop : pageSize ∣ r.stop := Nat.dvd_add h (Dvd.intro_left _ rfl)
  have hlt : f * pageSize < r.stop ↔ f * pageSize + pageSize ≤ r.stop := by
    simp only [pageSize] at hstop ⊢
    omega
  rw [Region.Offers, ← hlt]
  exact and_congr_right fun _ => and_iff_left (.inr h)

/-- When all conventional regions start at a page, the offers are the usable frames. -/
lemma mem_offered_iff_usable {map : MemoryMap} {reserved : List ReservedRange} {config : Config}
    (haligned : ∀ r ∈ map.regions, r.kind = .conventional → pageSize ∣ r.base) {f : ℕ} :
    f ∈ unionOf (offered reserved config) map.regions ↔
      Usable map reserved config (f * pageSize) := by
  rw [mem_unionOf, Usable, ← vacant_iff, InConventional]
  simp only [mem_offered, Config.mem_frames]
  constructor
  · rintro ⟨r, hr, ⟨hlow, hhigh⟩, hvacant, hoffers⟩
    have hinside := (Region.offers_iff_of_aligned (haligned r hr hoffers.1)).mp hoffers
    exact ⟨hlow, hhigh, ⟨r, hr, hinside⟩, hvacant⟩
  · rintro ⟨hlow, hhigh, ⟨r, hr, hkind, hinside⟩, hvacant⟩
    have hoffers : r.Offers config (f * pageSize) :=
      (Region.offers_iff_of_aligned (haligned r hr hkind)).mpr ⟨hkind, hinside⟩
    exact ⟨r, hr, ⟨hlow, hhigh⟩, hvacant, hoffers⟩

/-- `first_free_in` finds nothing when no frame that meets the range is free. -/
lemma FrameAllocator.firstFreeInFrom_eq_none {a : FrameAllocator} (n : ℕ) :
    ∀ {frame : ℕ}, (∀ k < n, (frame + k) * pageSize < 2 ^ 64 ∧
      ∀ i < a.frames, a.addressOf i = (frame + k) * pageSize → a.freeAt i = false) →
      a.firstFreeInFrom n frame = .ok none := by
  induction n with
  | zero => exact fun _ => rfl
  | succ n ih =>
    intro frame h
    obtain ⟨hword, hfirst⟩ := h 0 (Nat.succ_pos n)
    rw [Nat.add_zero] at hword hfirst
    have hrest : a.firstFreeInFrom n (frame + 1) = .ok none := by
      apply ih
      intro k hk
      rw [Nat.add_assoc, Nat.add_comm 1]
      exact h (k + 1) (Nat.succ_lt_succ hk)
    rw [firstFreeInFrom, mulWord_of_lt hword, Checked.ok_bind]
    cases hindex : a.frameIndex (frame * pageSize) with
    | none => exact hrest
    | some i =>
      obtain ⟨hi, heq⟩ := frameIndex_eq_some_iff.mp hindex
      simp only
      rw [isFree_eq hi, hfirst i hi heq.symm, Checked.ok_bind]
      exact hrest

/-- No free frame meets a reserved range, in any state. -/
lemma firstFreeIn_reserved {map : MemoryMap} {reserved : List ReservedRange} {config : Config}
    {a₀ a : FrameAllocator} {S : Finset ℕ} (hinitial : Initial map reserved config a₀)
    (h : Lent a₀ S a) {range : ReservedRange} (hrange : range ∈ reserved)
    (hword : range.stop < 2 ^ 64) : a.firstFreeIn range.start range.stop = .ok none := by
  rw [firstFreeIn]
  apply firstFreeInFrom_eq_none
  intro k hk
  have hlow : range.start < (range.start / pageSize + k) * pageSize + pageSize := by
    simp only [pageSize]
    omega
  have hhigh : (range.start / pageSize + k) * pageSize < range.stop := by
    rw [divCeil] at hk
    simp only [pageSize] at hk ⊢
    omega
  refine ⟨hhigh.trans hword, fun i hi heq => ?_⟩
  rw [h.addressOf_eq] at heq
  rw [h.window.frames_eq] at hi
  by_contra hfree
  have hfree₀ := (h.freeAt_eq_true_iff.mp (Bool.not_eq_false _ ▸ hfree)).1
  rcases hinitial.apart_of_reserved hrange (mem_freeSet.mpr ⟨hi, hfree₀⟩) with hcon | hcon
  · rw [heq] at hcon
    omega
  · rw [heq] at hcon
    omega

/-- The addresses of the free frames after `init`. -/
lemma exists_isFree_iff {bitmap : Slice UInt8} {map : MemoryMap} {reserved : List ReservedRange}
    {config : Config} {a₀ : FrameAllocator}
    (hinit : FrameAllocator.init bitmap map reserved config = .ok (.ok a₀)) {f : ℕ} :
    (∃ i < a₀.frames, a₀.addressOf i = f * pageSize ∧ a₀.isFree i = .ok true) ↔
      f ∈ unionOf (offered reserved config) map.regions := by
  have hmanages := (initial_of_init hinit).manages
  constructor
  · rintro ⟨i, hi, heq, hfree⟩
    obtain rfl := Nat.eq_of_mul_eq_mul_right (show 0 < pageSize by decide) heq
    rw [isFree_eq hi] at hfree
    exact (mem_freeSet_iff_of_init hinit).mp (mem_freeSet.mpr ⟨hi, Except.ok.inj hfree⟩)
  · intro hf
    obtain ⟨r, -, hoffered⟩ := mem_unionOf.mp hf
    obtain ⟨i, -, rfl⟩ := hmanages.exists_index (mem_offered.mp hoffered).1
    obtain ⟨hi, hfree⟩ := mem_freeSet.mp ((mem_freeSet_iff_of_init hinit).mpr hf)
    exact ⟨i, hi, rfl, by rw [isFree_eq hi, hfree]⟩

/-- No offers, no usable frame. -/
lemma offerCount_eq_zero_iff {map : MemoryMap} {reserved : List ReservedRange} {config : Config} :
    offerCount map reserved config = 0 ↔ unionOf (offered reserved config) map.regions = ∅ := by
  rw [offerCount, List.sum_eq_zero_iff, Finset.eq_empty_iff_forall_notMem]
  simp only [List.mem_map, forall_exists_index, and_imp, forall_apply_eq_imp_iff₂,
    Finset.card_eq_zero, mem_unionOf, not_exists, not_and, Finset.eq_empty_iff_forall_notMem]
  exact ⟨fun h f r hr => h r hr f, fun h r hr f => h f r hr⟩

/-- **The free frames after `init`.**  When all conventional regions start at a page, the free
frames are exactly the usable ones; `init` returns `NoUsableMemory` exactly when there are none; all
addresses that it computes are words, and it stops only when the counter overflows, which takes
`2 ^ 64` offers.  In every state that is reached no free frame meets a reserved range. -/
theorem init_exact (bitmap : Slice UInt8) (map : MemoryMap) (reserved : List ReservedRange)
    (config : Config) (hlimit : config.limit < 2 ^ 64) (hreserved : ∀ r ∈ reserved, r.stop < 2 ^ 64)
    (haligned : ∀ r ∈ map.regions, r.kind = .conventional → pageSize ∣ r.base) :
    (∀ a₀, FrameAllocator.init bitmap map reserved config = .ok (.ok a₀) →
      (∀ p, pageSize ∣ p → ((∃ i < a₀.frames, a₀.addressOf i = p ∧ a₀.isFree i = .ok true) ↔
        Usable map reserved config p)) ∧
      ∀ s, FrameState.Reached a₀ s → s.allocator.reservedRanges = reserved ∧
        ∀ r ∈ s.allocator.reservedRanges, s.allocator.firstFreeIn r.start r.stop = .ok none) ∧
    (Admits bitmap reserved config →
      (FrameAllocator.init bitmap map reserved config = .ok (.error .noUsableMemory) ↔
        ∀ p, pageSize ∣ p → ¬ Usable map reserved config p) ∧
      config.windowStart < 2 ^ 64 ∧ config.windowStop < 2 ^ 64 ∧
      ∀ r ∈ map.regions, r.stop < 2 ^ 64 ∧
        ∀ p < min r.stop config.windowStop, p + pageSize < 2 ^ 64) ∧
    ∀ e, FrameAllocator.init bitmap map reserved config = .error e →
      2 ^ 64 ≤ offerCount map reserved config := by
  have hlast := Config.windowStop_add_le hlimit
  have hpage : 0 < pageSize := by decide
  refine ⟨fun a₀ hinit => ⟨?_, fun s hs => ?_⟩, fun hadmits => ⟨?_, ?_, ?_, ?_⟩, ?_⟩
  · rintro p ⟨f, rfl⟩
    rw [mul_comm, exists_isFree_iff hinit, mem_offered_iff_usable haligned]
  · have hinitial := initial_of_init hinit
    obtain ⟨S, hlent, -⟩ := Owned.of_reached hinitial.fresh hs
    have hranges : s.allocator.reservedRanges = reserved :=
      hlent.window.reserved_eq.trans hinitial.reserved_eq
    refine ⟨hranges, fun r hr => ?_⟩
    rw [hranges] at hr
    exact firstFreeIn_reserved hinitial hlent hr (hreserved r hr)
  · have hnone : (∀ p, pageSize ∣ p → ¬ Usable map reserved config p) ↔
        offerCount map reserved config = 0 := by
      rw [offerCount_eq_zero_iff, Finset.eq_empty_iff_forall_notMem]
      simp only [mem_offered_iff_usable haligned]
      constructor
      · exact fun h f => h _ (Dvd.intro_left f rfl)
      · rintro h p ⟨f, rfl⟩
        rw [mul_comm]
        exact h f
    rw [hnone]
    rcases init_cases map hadmits hlimit with ⟨a, heq, -, hcount⟩ | ⟨e, heq, hfull⟩
    · rw [heq, hcount]
      split_ifs with hzero
      · simp [hzero]
      · simp [hzero]
    · rw [heq]
      constructor
      · intro hcon
        cases hcon
      · intro hzero
        rw [hzero] at hfull
        exact absurd hfull (by decide)
  · have hwindow := Nat.mul_lt_mul_of_pos_right hadmits.window_lt hpage
    rw [← Config.windowStart, ← Config.windowStop] at hwindow
    omega
  · omega
  · intro r hr
    refine ⟨map.stop_lt r hr, fun p hp => ?_⟩
    omega
  · intro e he
    by_cases hadmits : Admits bitmap reserved config
    · rcases init_cases map hadmits hlimit with ⟨a, heq, -, -⟩ | ⟨e, -, hfull⟩
      · rw [he] at heq
        split_ifs at heq
      · exact hfull
    · obtain ⟨e', he'⟩ := init_of_not_admits map hadmits
      rw [he] at he'
      cases he'

/-- The frames of the small machine. -/
theorem init_exact_smallMap : ∃ a₀, FrameAllocator.init ⟨[0, 0], by decide⟩ smallMap
      [⟨0x101000, 0x102000⟩] (.new 0x108000) = .ok (.ok a₀) ∧
    (∃ i < a₀.frames, a₀.addressOf i = 0x102000 ∧ a₀.isFree i = .ok true) ∧
    ¬ ∃ i < a₀.frames, a₀.addressOf i = 0x101000 ∧ a₀.isFree i = .ok true := by
  have hok : Checked.okAnd (FrameAllocator.init ⟨[0, 0], by decide⟩ smallMap
      [⟨0x101000, 0x102000⟩] (.new 0x108000)) (fun r => r.toOption.any fun _ => true) = true := by
    decide +kernel
  obtain ⟨a₀, hinit, -⟩ := Checked.okAnd_any_eq_true_iff.mp hok
  have hexact := ((init_exact _ smallMap [⟨0x101000, 0x102000⟩] (.new 0x108000) (by decide)
    (by decide) (by rw [regions_smallMap]; decide)).1 a₀ hinit).1
  refine ⟨a₀, hinit, (hexact _ (by decide)).mpr ⟨by decide, by decide, ?_, by decide⟩, ?_⟩
  · exact ⟨⟨.conventional, 0, 0x108⟩, by rw [regions_smallMap]; decide, rfl, by decide, by decide⟩
  · rw [hexact _ (by decide)]
    rintro ⟨-, -, -, hreserved⟩
    exact hreserved _ (List.mem_singleton_self _) (by decide)

/-! ## The counter -/

/-- **The counter of free frames.**  In every state that is reached, the counter is the number of
free frames if and only if no two descriptors of the memory map offer the same frame. -/
theorem counter_exact_iff (bitmap : Slice UInt8) (map : MemoryMap) (reserved : List ReservedRange)
    (config : Config) (a₀ : FrameAllocator)
    (hinit : FrameAllocator.init bitmap map reserved config = .ok (.ok a₀)) (s : FrameState)
    (hrun : FrameState.Reached a₀ s) :
    s.allocator.stats.free = s.allocator.freeSet.card ↔
      map.regions.Pairwise fun r r' =>
        Disjoint (offered reserved config r) (offered reserved config r') := by
  obtain ⟨S, hlent, -⟩ := Owned.of_reached (initial_of_init hinit).fresh hrun
  have hset : s.allocator.freeSet = a₀.freeSet \ S := by
    ext i
    rw [Finset.mem_sdiff, mem_freeSet, mem_freeSet, hlent.freeAt_eq_true_iff,
      hlent.window.frames_eq, and_assoc]
  have hcard := Finset.card_sdiff_add_card_eq_card hlent.subset
  have hcount := hlent.freeFrames_eq
  have hoffers := freeFrames_of_init hinit
  have hunion := card_freeSet_of_init hinit
  have hfree : s.allocator.stats.free = s.allocator.freeFrames := rfl
  rw [← sum_card_eq_card_unionOf_iff, ← offerCount, hset, hfree]
  omega

/-- A table with two descriptors of four pages of conventional memory, side by side. -/
def pairTable : Slice UInt8 where
  toList := leBytes 8 7 ++ leBytes 8 0x100000 ++ leBytes 8 0 ++ leBytes 8 4 ++ leBytes 8 0 ++
    (leBytes 8 7 ++ leBytes 8 0x104000 ++ leBytes 8 0 ++ leBytes 8 4 ++ leBytes 8 0)
  length_lt := by decide

/-- The memory map of this table. -/
def pairMap : MemoryMap where
  bytes := pairTable
  entries := 2
  stride := 40
  version := 1
  stop_lt := by decide

lemma regions_pairMap :
    pairMap.regions = [⟨.conventional, 0x100000, 4⟩, ⟨.conventional, 0x104000, 4⟩] := by decide

/-- Five frames are allocated, one from the second region among them, and the first one is freed:
four frames are counted, and as many are free. -/
theorem counter_exact_iff_pairMap : ∃ a₀ s₁ s₂ s₃,
    FrameAllocator.init ⟨[0, 0], by decide⟩ pairMap [] (.new 0x108000) = .ok (.ok a₀) ∧
    FrameState.step ⟨a₀, []⟩ (.allocContiguous 4) = .ok s₁ ∧ s₁.step .alloc = .ok s₂ ∧
    s₂.step (.free 0x100000) = .ok s₃ ∧ s₃.allocator.stats.free = 4 ∧
    s₃.allocator.stats.free = s₃.allocator.freeSet.card := by
  have hok : Checked.okAnd (FrameAllocator.init ⟨[0, 0], by decide⟩ pairMap [] (.new 0x108000))
      (fun r => r.toOption.any fun a =>
        Checked.okAnd (FrameState.step ⟨a, []⟩ (.allocContiguous 4)) fun s₁ =>
          Checked.okAnd (s₁.step .alloc) fun s₂ =>
            Checked.okAnd (s₂.step (.free 0x100000)) fun s₃ => s₃.allocator.stats.free = 4) =
      true := by
    decide +kernel
  obtain ⟨a₀, hinit, hok⟩ := Checked.okAnd_any_eq_true_iff.mp hok
  obtain ⟨s₁, h₁, hok⟩ := Checked.okAnd_eq_true_iff.mp hok
  obtain ⟨s₂, h₂, hok⟩ := Checked.okAnd_eq_true_iff.mp hok
  obtain ⟨s₃, h₃, hfree⟩ := Checked.okAnd_eq_true_iff.mp hok
  have hrun : FrameState.Reached a₀ s₃ :=
    ((Relation.ReflTransGen.single ⟨_, h₁⟩).tail ⟨_, h₂⟩).tail ⟨_, h₃⟩
  refine ⟨a₀, s₁, s₂, s₃, hinit, h₁, h₂, h₃, of_decide_eq_true hfree,
    (counter_exact_iff _ _ _ _ a₀ hinit s₃ hrun).mpr ?_⟩
  rw [regions_pairMap]
  decide +kernel

/-- The table of the small machine with its descriptor twice. -/
def twiceTable : Slice UInt8 := ⟨smallTable.toList ++ smallTable.toList, by decide⟩

/-- The memory map of this table. -/
def twiceMap : MemoryMap where
  bytes := twiceTable
  entries := 2
  stride := 40
  version := 1
  stop_lt := by decide

/-- With the descriptor twice, sixteen frames are counted, and eight are free. -/
theorem counter_counts_twice : MemoryMap.fromBytes twiceTable 2 40 1 = .ok twiceMap ∧
    ∃ a₀, FrameAllocator.init ⟨[0, 0], by decide⟩ twiceMap [] (.new 0x108000) = .ok (.ok a₀) ∧
      a₀.stats.free = 16 ∧ a₀.freeSet.card = 8 := by
  refine ⟨rfl, ?_⟩
  have hok : Checked.okAnd (FrameAllocator.init ⟨[0, 0], by decide⟩ twiceMap [] (.new 0x108000))
      (fun r => r.toOption.any fun a => a.stats.free = 16 && a.freeSet.card = 8) = true := by
    decide +kernel
  obtain ⟨a₀, hinit, hcounts⟩ := Checked.okAnd_any_eq_true_iff.mp hok
  simp only [Bool.and_eq_true, decide_eq_true_eq] at hcounts
  exact ⟨a₀, hinit, hcounts⟩

/-! ## Frames at the end of a region -/

/-- The last page of a conventional region that begins before the window, and not at a page, is only
partly covered by it.  Unless it is reserved or outside of the window, another conventional region
covers it. -/
def LastPagesCovered (map : MemoryMap) (reserved : List ReservedRange) (config : Config) : Prop :=
  ∀ r ∈ map.regions, r.kind = .conventional → ¬ pageSize ∣ r.base → r.base ≤ config.windowStart →
    ∀ p, pageSize ∣ p → p < r.stop → r.stop < p + pageSize → config.managedStart ≤ p →
      p + pageSize ≤ config.limit → Vacant reserved p → InConventional map p

/-- Then all offers lie inside of conventional memory. -/
lemma LastPagesCovered.inConventional {map : MemoryMap} {reserved : List ReservedRange}
    {config : Config} (h : LastPagesCovered map reserved config) {f : ℕ}
    (hf : f ∈ unionOf (offered reserved config) map.regions) :
    InConventional map (f * pageSize) := by
  obtain ⟨r, hr, hoffered⟩ := mem_unionOf.mp hf
  obtain ⟨hframes, hvacant, hoffers⟩ := mem_offered.mp hoffered
  by_cases haligned : pageSize ∣ r.base
  · exact ⟨r, hr, (Region.offers_iff_of_aligned haligned).mp hoffers⟩
  · obtain ⟨hkind, ⟨hbase, hstop⟩, hwindow⟩ := hoffers
    by_cases hinside : f * pageSize + pageSize ≤ r.stop
    · exact ⟨r, hr, hkind, hbase, hinside⟩
    · obtain ⟨hlow, hhigh⟩ := Config.mem_frames.mp hframes
      exact h r hr hkind haligned (hwindow.resolve_right haligned) _ (Dvd.intro_left f rfl) hstop
        (not_le.mp hinside) hlow hhigh hvacant

/-- **Conventional memory.**  All frames that are handed out in any run lie inside of one
conventional region each if and only if no partly covered page at the end of a region can be
handed out. -/
theorem conventional_only_iff (bitmap : Slice UInt8) (map : MemoryMap)
    (reserved : List ReservedRange) (config : Config) (a₀ : FrameAllocator)
    (hinit : FrameAllocator.init bitmap map reserved config = .ok (.ok a₀)) :
    (∀ s, FrameState.Reached a₀ s →
      (∀ frame a', s.allocator.alloc = .ok (some frame, a') →
        InConventional map frame.address) ∧
      ∀ count range a', s.allocator.allocContiguous count = .ok (some range, a') →
        ∀ i < count, InConventional map (range.start + i * pageSize)) ↔
      LastPagesCovered map reserved config := by
  have hinitial := initial_of_init hinit
  have hfresh := hinitial.fresh
  constructor
  · rintro hall r hr hkind - hbase p ⟨f, rfl⟩ hstop - hlow hhigh hvacant
    rw [mul_comm] at hstop hlow hhigh hvacant ⊢
    have hframes := Config.mem_frames.mpr ⟨hlow, hhigh⟩
    have hstart := (Config.mem_frames_iff_window.mp hframes).1
    have hoffered : f ∈ offered reserved config r :=
      mem_offered.mpr ⟨hframes, hvacant, hkind, ⟨hbase.trans hstart, hstop⟩, .inl hbase⟩
    obtain ⟨i, -, rfl⟩ := hinitial.manages.exists_index hframes
    have hi : i ∈ a₀.freeSet :=
      (mem_freeSet_iff_of_init hinit).mpr (mem_unionOf.mpr ⟨r, hr, hoffered⟩)
    -- the frame is handed out after those before it
    obtain ⟨a', a'', hallocs, halloc⟩ :=
      (Lent.refl a₀).exists_alloc hfresh hi (Finset.notMem_empty i) le_rfl
    obtain ⟨t, hreach, rfl⟩ := FrameState.steps_of_allocs (s := ⟨a₀, []⟩) hallocs
    exact (hall t hreach).1 _ _ halloc
  · intro hcovered s hs
    obtain ⟨S, hlent, -⟩ := Owned.of_reached hfresh hs
    have hinside : ∀ i ∈ a₀.freeSet, InConventional map (a₀.addressOf i) := by
      intro i hi
      exact hcovered.inConventional ((mem_freeSet_iff_of_init hinit).mp hi)
    constructor
    · intro frame a' halloc
      obtain ⟨i, rfl, hrunAt⟩ := hlent.of_alloc hfresh halloc
      exact hinside i (hlent.mem_freeSet_of_runAt hrunAt le_rfl (Nat.lt_succ_self i))
    · intro count range a' halloc i hi
      obtain ⟨start, rfl, hrunAt, -⟩ := hlent.of_allocContiguous hfresh halloc
      rw [← addressOf_add]
      apply hinside
      exact hlent.mem_freeSet_of_runAt hrunAt (Nat.le_add_right _ _) (Nat.add_lt_add_left hi start)

/-- The region of the small machine starts at a page, and the first frame that is handed out lies
inside of it. -/
theorem conventional_only_iff_smallMap : ∃ a₀ a', FrameAllocator.init ⟨[0, 0], by decide⟩ smallMap
      [] (.new 0x108000) = .ok (.ok a₀) ∧
    a₀.alloc = .ok (some ⟨0x100000⟩, a') ∧ InConventional smallMap 0x100000 := by
  obtain ⟨a₀, a', hinit, halloc⟩ := alloc_smallMap
  refine ⟨a₀, a', hinit, halloc,
    ((conventional_only_iff _ _ _ _ a₀ hinit).mpr ?_ ⟨a₀, []⟩ .refl).1 _ a' halloc⟩
  intro r hr _ haligned
  rw [regions_smallMap, List.mem_singleton] at hr
  rw [hr] at haligned
  exact absurd (by decide) haligned

/-- A single page of conventional memory, half of it below 1 MiB. -/
def halfTable : Slice UInt8 where
  toList := leBytes 8 7 ++ leBytes 8 0xFF800 ++ leBytes 8 0 ++ leBytes 8 1 ++ leBytes 8 0
  length_lt := by decide

/-- The memory map of this table. -/
def halfMap : MemoryMap where
  bytes := halfTable
  entries := 1
  stride := 40
  version := 1
  stop_lt := by decide

lemma regions_halfMap : halfMap.regions = [⟨.conventional, 0xFF800, 1⟩] := by decide

/-- The frame at 1 MiB is handed out, of which only the first half is conventional memory. -/
theorem half_frame_handed_out : MemoryMap.fromBytes halfTable 1 40 1 = .ok halfMap ∧
    ∃ a₀ a', FrameAllocator.init ⟨[0, 0], by decide⟩ halfMap [] (.new 0x101000) = .ok (.ok a₀) ∧
      a₀.alloc = .ok (some ⟨0x100000⟩, a') ∧ ¬ InConventional halfMap 0x100000 := by
  refine ⟨rfl, ?_⟩
  have hok : Checked.okAnd (FrameAllocator.init ⟨[0, 0], by decide⟩ halfMap [] (.new 0x101000))
      (fun r => r.toOption.any fun a =>
        Checked.okAnd a.alloc fun r => r.1 = some ⟨0x100000⟩) = true := by
    decide +kernel
  obtain ⟨a₀, hinit, hframe⟩ := Checked.okAnd_any_eq_true_iff.mp hok
  obtain ⟨⟨frame, a'⟩, halloc, hframe⟩ := Checked.okAnd_eq_true_iff.mp hframe
  obtain rfl := of_decide_eq_true hframe
  refine ⟨a₀, a', hinit, halloc, ?_⟩
  rintro ⟨r, hr, -, -, hstop⟩
  rw [regions_halfMap, List.mem_singleton] at hr
  rw [hr] at hstop
  exact absurd hstop (by decide)

end KernelMemory

end ParanukOS
