import ParanukOS.KernelMemory.Heap.History

/-!
# When an allocation succeeds

First fit can fail although enough memory is free, since the free memory may lie in pieces that are
too small.  How many pieces there are is bounded by what is held: free blocks that are adjacent have
been merged, so that there is at most one more of them than there are allocations.  Hence a request
for which `alloc` fails is larger than a part of the free memory that is known beforehand, whatever
the order was in which the clients have allocated and released.

## Outline

* `blockBound`, `HeapState.Snug`: an allocation takes little more than what was requested.
* `needed`, `NoRoom.size_lt`: a block of this size has room for a request.
* `Laid.total_le`: the memory that is held and the memory that is free.
* `heap_capacity`: the main theorem.
-/

namespace ParanukOS

open Foundation

namespace Heap

/-- What an allocation of `size` bytes takes at most: its header, the bytes, and a rest that is too
small for a block. -/
def blockBound (size : ℕ) : ℕ := headerSize + (size + 7) / 8 * 8 + (minBlock - headerAlign)

/-- The size of a free block that is sure to have room for a request: a gap in front of the payload
is at least `minBlock`. -/
def needed (size align : ℕ) : ℕ :=
  if align ≤ headerAlign then headerSize + size
  else headerSize + minBlock + (align - headerAlign) + size

/-- No allocation takes more than its bound. -/
def HeapState.Snug (s : HeapState) : Prop :=
  ∀ p ∈ s.live, recordedSize s.arena p.1 ≤ blockBound p.2

section Blocks

variable {b : HeapBlock} {size align payload gap : ℕ}

/-- The block that an allocation takes. -/
lemma size_allocPiece_le (hwf : WellFormed b) (hfit : PayloadFit b.start align payload gap)
    (hroom : payload + size ≤ b.stop) : (allocPiece b size payload).size ≤ blockBound size := by
  obtain ⟨-, hpayload, -, hle, hmod, -, hstop⟩ := cut_bounds hwf hfit hroom
  rw [allocPiece, blockBound]
  simp only
  split_ifs with htail
  · simp only [tailStartOf, minBlock, headerSize, minPayload, headerAlign] at *
    omega
  · simp only [tailStartOf, minBlock, headerSize, minPayload, headerAlign] at *
    omega

/-- A free block without room for a request is small. -/
lemma NoRoom.size_lt (h : NoRoom size align b) (hwf : WellFormed b)
    (hreq : ValidRequest size align) : b.size < needed size align := by
  have hstart := hwf.start_mod
  have halign := dvd_eight_or_eight_dvd hreq.isPowerOfTwo
  rw [needed]
  split_ifs with hsmall
  · -- the place right behind the header
    have hdvd : align ∣ 8 := by
      rcases halign with hdvd | hdvd
      · exact hdvd
      · have hle := Nat.le_of_dvd (Nat.pos_of_ne_zero ?_) hdvd
        · rw [Nat.le_antisymm hsmall hle]
          rfl
        · rintro rfl
          exact absurd hreq.isPowerOfTwo (by decide)
    have hplace : Admissible b.start align (b.start + headerSize) := by
      refine ⟨Nat.mod_eq_zero_of_dvd (hdvd.trans (Nat.dvd_of_mod_eq_zero ?_)), .inl rfl⟩
      simp only [headerSize, headerAlign] at hstart ⊢
      omega
    have hlt := h _ hplace
    simp only [Block.stop] at hlt
    omega
  · -- the first multiple behind a gap that is a block
    have hdvd : 8 ∣ align := halign.resolve_left fun hcon =>
      hsmall (Nat.le_of_dvd (by decide) hcon)
    obtain ⟨k, rfl⟩ := hdvd
    have hk : 0 < k := by
      simp only [headerAlign] at hsmall
      omega
    have hplace : Admissible b.start (8 * k)
        ((b.start + headerSize + minBlock + (8 * k - 1)) / (8 * k) * (8 * k)) := by
      refine ⟨Nat.mul_mod_left _ _, .inr ?_⟩
      have hdiv := Nat.lt_div_mul_add (a := b.start + headerSize + minBlock + (8 * k - 1))
        (show 0 < 8 * k by omega)
      omega
    have hlt := h _ hplace
    have hle := Nat.div_mul_le_self (b.start + headerSize + minBlock + (8 * k - 1)) (8 * k)
    have hmod : (b.start + headerSize + minBlock + (8 * k - 1)) / (8 * k) * (8 * k) % 8 = 0 := by
      rw [← Nat.mul_assoc, Nat.mul_comm _ 8, Nat.mul_assoc]
      exact Nat.mul_mod_right _ _
    simp only [Block.stop, headerSize, minBlock, minPayload, headerAlign] at *
    omega

end Blocks

section Totals

variable {s : HeapState} {bs : List HeapBlock}

namespace Laid

/-- The allocated blocks are those of what is held. -/
lemma sum_live_eq (h : Laid s bs) : ((bs.filter fun b => !isFree b).map Block.size).sum =
    (s.live.map fun p => recordedSize s.arena p.1).sum := by
  rw [← map_liveBlock h.1.headers, List.map_map, ← (h.2.map _).sum_eq]
  rfl

/-- There is at most one free block more than there are allocations. -/
lemma length_frees_le (h : Laid s bs) : (frees bs).length ≤ s.live.length + 1 := by
  have hle := h.filled.length_unmarked_le
  have hlive : s.live.length = (bs.filter fun b => b.tag.isSome).length := by
    have hmap := congrArg List.length (map_liveBlock h.1.headers)
    rw [List.length_map, ← h.2.length_eq] at hmap
    simpa [isFree] using hmap
  have hfree : frees bs = bs.filter fun b => !b.tag.isSome :=
    List.filter_congr fun b _ => by simp [isFree]
  rw [hlive, hfree]
  exact hle

/-- What is managed is either held or free. -/
lemma total_le (h : Laid s bs) {bound : ℕ}
    (hbound : ∀ b ∈ bs, isFree b = true → b.size ≤ bound) :
    s.list.arenaLen ≤
      (s.live.map fun p => recordedSize s.arena p.1).sum + (s.live.length + 1) * bound := by
  have htotal := h.1.tiles.add_sum_size
  have hsplit := ((List.filter_append_perm isFree bs).map Block.size).sum_eq
  rw [List.map_append, List.sum_append] at hsplit
  have hlive := h.sum_live_eq
  have hfree : ((bs.filter isFree).map Block.size).sum ≤ (s.live.length + 1) * bound := by
    calc ((bs.filter isFree).map Block.size).sum
        ≤ ((bs.filter isFree).map Block.size).length • bound := by
          refine List.sum_le_card_nsmul _ _ fun size hsize => ?_
          obtain ⟨b, hb, rfl⟩ := List.mem_map.mp hsize
          obtain ⟨hmem, hfree⟩ := mem_frees.mp hb
          exact hbound b hmem hfree
      _ ≤ (s.live.length + 1) * bound := by
          rw [List.length_map, smul_eq_mul]
          exact Nat.mul_le_mul_right _ h.length_frees_le
  omega

/-- One call of `alloc` when the memory that is not held is large enough. -/
lemma alloc_of_lt (h : Laid s bs) {size align : ℕ} (hreq : ValidRequest size align)
    (hlt : (s.live.map fun p => recordedSize s.arena p.1).sum +
      (s.live.length + 1) * (needed size align - 1) < s.list.arenaLen) :
    ∃ offset list' arena', s.list.alloc s.arena size align = .ok (some offset, list', arena') := by
  rcases alloc_spec h.1 size align with
    ⟨hno, -, -⟩ | ⟨-, -, -, payload, -, list', arena', -, -, -, heq, -⟩
  · -- otherwise all free blocks are too small
    have hbound : ∀ b ∈ bs, isFree b = true → b.size ≤ needed size align - 1 := by
      intro b hb hfree
      have hsize := (hno.resolve_left (not_not.mpr hreq) b hb hfree).size_lt
        (h.1.wellFormed b hb) hreq
      omega
    exact absurd (h.total_le hbound) (not_le.mpr hlt)
  · exact ⟨payload, list', arena', heq⟩

/-- The steps of a client keep the bounds. -/
lemma snug_step (h : Laid s bs) (hsnug : s.Snug) (op : HeapOp) (hop : s.Allowed op)
    {s' : HeapState} (heq : s.step op = .ok s') : s'.Snug := by
  cases op with
  | alloc size align =>
    rcases h.alloc size align with hnone | ⟨offset, list', arena', bs', hsome, h', hkept, -⟩
    · rw [HeapState.step, hnone] at heq
      obtain rfl := Except.ok.inj heq
      exact hsnug
    · rw [HeapState.step, hsome] at heq
      obtain rfl := Except.ok.inj heq
      intro p hp
      rcases List.mem_cons.mp hp with rfl | hp
      · -- the new block is a piece of the block that was cut up
        rcases alloc_spec h.1 size align with
          ⟨-, -, hcon⟩ |
            ⟨before, b, after, payload, gap, list'', arena'', -, hfound, -, hsome', halloc⟩
        · rw [hsome] at hcon
          cases hcon
        · rw [hsome] at hsome'
          simp only [Except.ok.injEq, Prod.mk.injEq, Option.some.injEq] at hsome'
          obtain ⟨rfl, rfl, rfl⟩ := hsome'
          have hread := halloc.layout.headers
          rw [cut, List.append_assoc, List.append_assoc, ← List.append_assoc, List.cons_append]
            at hread
          have hsize := congrArg (fun x => (x.map fun header => header.2.1).getD 0)
            hread.of_split
          have hwf := h.1.wellFormed b (by simp [hfound.split])
          refine le_trans (le_of_eq hsize) (size_allocPiece_le hwf hfound.fit hfound.room)
      · rw [← h.recordedSize_eq h' hp fun c hc hlive _ => hkept c hc hlive]
        exact hsnug p hp
  | dealloc offset =>
    obtain ⟨size, hheld⟩ := hop
    obtain ⟨list', arena', bs', hok, h', hkept, -⟩ := h.dealloc hheld
    rw [HeapState.step, hok] at heq
    obtain rfl := Except.ok.inj heq
    intro p hp
    obtain ⟨hmem, hne⟩ := List.mem_filter.mp hp
    rw [← h.recordedSize_eq h' hmem fun c hc hlive hoffset => hkept c hc hlive ?_]
    · exact hsnug p hmem
    · rw [hoffset]
      simpa using hne
  | write offset bytes =>
    obtain ⟨arena', hok, h'⟩ := h.write hop
    rw [HeapState.step, hok] at heq
    obtain rfl := Except.ok.inj heq
    intro p hp
    rw [← h.recordedSize_eq h' hp fun c hc _ _ => hc]
    exact hsnug p hp

/-- The bounds hold along a run. -/
lemma snug_run (h : Laid s bs) (hsnug : s.Snug) {s' : HeapState}
    (hrun : Relation.ReflTransGen (HeapState.StepBy HeapState.Allowed) s s') :
    ∃ bs', Laid s' bs' ∧ s'.Snug ∧ s'.list.arenaLen = s.list.arenaLen := by
  induction hrun with
  | refl => exact ⟨bs, h, hsnug, rfl⟩
  | tail _ hstep ih =>
    obtain ⟨bs₁, h₁, hsnug₁, hlen₁⟩ := ih
    obtain ⟨op, hop, heq⟩ := hstep
    obtain ⟨s₂, bs₂, heq₂, h₂⟩ := h₁.step hop
    rw [heq] at heq₂
    obtain rfl := Except.ok.inj heq₂
    exact ⟨bs₂, h₂, h₁.snug_step hsnug₁ _ hop heq, (h₁.arenaLen_step hop heq).trans hlen₁⟩

end Laid

end Totals

/-- **Capacity.**  In every state of a run, whatever has been allocated and released before: `alloc`
succeeds when the managed bytes are more than the blocks of what is held now together with, for each
allocation that is held and once more, a free block that is just too small for the request.  The
block of an allocation is not larger than its bound, which only depends on the size that was
requested. -/
theorem heap_capacity (arena : Slice UInt8) :
    ∃ list₀ arena₀, FreeList.init arena = .ok (list₀, arena₀) ∧
      ∀ s, Relation.ReflTransGen (HeapState.StepBy HeapState.Allowed) ⟨list₀, arena₀, []⟩ s →
        (∀ p ∈ s.live, recordedSize s.arena p.1 ≤ blockBound p.2) ∧
        ∀ size align, 0 < size → isPowerOfTwo align = true → align ≤ maxAlign →
          (s.live.map fun p => recordedSize s.arena p.1).sum +
            (s.live.length + 1) * (needed size align - 1) < managedLen arena.length →
          ∃ offset list' arena',
            s.list.alloc s.arena size align = .ok (some offset, list', arena') := by
  obtain ⟨list₀, arena₀, bs₀, hinit, h₀, -, hlen⟩ := init_laid arena
  refine ⟨list₀, arena₀, hinit, fun s hrun => ?_⟩
  have hsnug₀ : HeapState.Snug ⟨list₀, arena₀, []⟩ := fun p hp => absurd hp List.not_mem_nil
  obtain ⟨bs, h, hsnug, hlen'⟩ := h₀.snug_run hsnug₀ hrun
  refine ⟨hsnug, fun size align hpos hpow hle hlt => h.alloc_of_lt ⟨hpos, hpow, hle⟩ ?_⟩
  rw [hlen', hlen]
  exact hlt

end Heap

end ParanukOS
