import ParanukOS.KernelMemory.Heap.Run

/-!
# First fit is complete

The search of `alloc` gives up as a whole when an address overflows and when the rest of a block
cannot be computed.  These exits lose nothing: in every state of a run, `alloc` succeeds exactly
when some free block has room for the request, it takes the lowest such block, and in it the first
place that the rules for gaps allow.

## Outline

* `Fits`: a request fits into a free block at a place.
* `Laid.alloc_firstFit`: one call of `alloc`.
* `heap_first_fit`: the calls in a run.
-/

namespace ParanukOS

open Foundation

namespace Heap

/-- A request fits into a free block at the place `p`: directly behind the header of the block, or
so far behind it that the gap is a block of its own. -/
def Fits (size align : ℕ) (b : HeapBlock) (p : ℕ) : Prop :=
  p % align = 0 ∧ (p = b.start + 24 ∨ b.start + 64 ≤ p) ∧ p + size ≤ b.stop

/-- The state after a call of `alloc` that has taken the place `p`: of the blocks `free` on the free
list, one has been replaced by parts of itself, it is the lowest one with room for the request, and
`p` is the lowest place in it. -/
def TakesFirst (size align : ℕ) (free : List HeapBlock) (p : ℕ) (list' : FreeList)
    (arena' : Slice UInt8) : Prop :=
  ∃ before b after parts, free = before ++ b :: after ∧ Fits size align b p ∧
    (∀ p', Fits size align b p' → p ≤ p') ∧
    (∀ c ∈ free, ∀ p', Fits size align c p' → b.start ≤ c.start) ∧
    (∀ c ∈ parts, b.start ≤ c.start ∧ c.stop ≤ b.stop) ∧
    FreeChain arena' list'.head (before ++ parts ++ after)

section FirstFit

variable {s : HeapState} {bs before after : List HeapBlock} {b : HeapBlock}
  {size align p payload gap : ℕ} {list' : FreeList} {arena' : Slice UInt8}

lemma fits_iff : Fits size align b p ↔ Admissible b.start align p ∧ p + size ≤ b.stop :=
  and_assoc.symm

lemma NoRoom.not_fits (h : NoRoom size align b) : ¬ Fits size align b p := by
  intro hfits
  obtain ⟨hp, hroom⟩ := fits_iff.mp hfits
  exact absurd hroom (not_le.mpr (h p hp))

namespace Found

/-- The request fits at the place that was found. -/
lemma fits (h : Found align size bs before b after payload gap) : Fits size align b payload :=
  fits_iff.mpr ⟨h.fit.admissible, h.room⟩

/-- No lower place would do. -/
lemma least (h : Found align size bs before b after payload gap) (hp : Fits size align b p) :
    payload ≤ p := h.fit.least p (fits_iff.mp hp).1

lemma frees_eq (h : Found align size bs before b after payload gap) :
    frees bs = frees before ++ b :: frees after := by
  rw [h.split, frees_append, frees_cons_of_free h.free]

/-- No lower block would do. -/
lemma lowest (h : Found align size bs before b after payload gap)
    (hincreasing : (frees bs).Pairwise fun a b => a.stop < b.start) {c : HeapBlock}
    (hc : c ∈ frees bs) (hp : Fits size align c p) : b.start ≤ c.start := by
  rw [h.frees_eq] at hc hincreasing
  rcases List.mem_append.mp hc with hc | hc
  · obtain ⟨hmem, hfree⟩ := mem_frees.mp hc
    exact absurd hp (h.first c hmem hfree).not_fits
  · rcases List.mem_cons.mp hc with rfl | hc
    · exact le_rfl
    · have hlt := List.rel_of_pairwise_cons (List.pairwise_append.mp hincreasing).2.1 hc
      exact (Nat.le_add_right b.start b.size).trans hlt.le

end Found

/-- One call of `alloc`: it succeeds exactly when the request fits somewhere, and takes the first
place. -/
lemma Laid.alloc_firstFit (h : Laid s bs) (hreq : ValidRequest size align) :
    (s.list.alloc s.arena size align = .ok (none, s.list, s.arena) ∧
      ∀ b ∈ frees bs, ∀ p, ¬ Fits size align b p) ∨
    ∃ p list' arena', s.list.alloc s.arena size align = .ok (some p, list', arena') ∧
      TakesFirst size align (frees bs) p list' arena' := by
  rcases alloc_spec h.1 size align with
    ⟨hno, -, heq⟩ | ⟨before, b, after, payload, gap, list', arena', -, hfound, -, heq, halloc⟩
  · refine .inl ⟨heq, fun b hb p => ?_⟩
    obtain ⟨hmem, hfree⟩ := mem_frees.mp hb
    exact (hno.resolve_left (not_not.mpr hreq) b hmem hfree).not_fits
  · refine .inr ⟨payload, list', arena', heq, frees before, b, frees after,
      frees (cut b size payload gap), hfound.frees_eq, hfound.fits, fun p' => hfound.least,
      fun c hc p' => hfound.lowest h.invariant.increasing hc, fun c hc => ?_, ?_⟩
    · have hwf := h.1.wellFormed b (by simp [hfound.split])
      obtain ⟨hlow, -, hhigh⟩ :=
        (tiles_cut hwf hfound.fit hfound.room).bounds_of_mem (mem_frees.mp hc).1
      exact ⟨hlow, hhigh⟩
    · have hchain := freeChain_of_headers halloc.layout.headers
      rwa [← halloc.layout.head_eq, frees_append, frees_append] at hchain

end FirstFit

/-- **First fit.**  In every state of a run, for every request of some bytes with a supported
alignment, however large it is: `alloc` succeeds if and only if the request fits into some block of
the free list.  Then it takes the lowest such block and returns the lowest place in it; otherwise it
changes nothing. -/
theorem heap_first_fit (arena : Slice UInt8) :
    ∃ list₀ arena₀, FreeList.init arena = .ok (list₀, arena₀) ∧
      ∀ s, Relation.ReflTransGen (HeapState.StepBy HeapState.Allowed) ⟨list₀, arena₀, []⟩ s →
        ∃ free, FreeChain s.arena s.list.head free ∧
          ∀ size align, 0 < size → isPowerOfTwo align = true → align ≤ 4096 →
            ((∃ p list' arena', s.list.alloc s.arena size align = .ok (some p, list', arena')) ↔
              ∃ b ∈ free, ∃ p, Fits size align b p) ∧
            (∀ p list' arena', s.list.alloc s.arena size align = .ok (some p, list', arena') →
              TakesFirst size align free p list' arena') ∧
            ((∀ b ∈ free, ∀ p, ¬ Fits size align b p) →
              s.list.alloc s.arena size align = .ok (none, s.list, s.arena)) := by
  obtain ⟨list₀, arena₀, bs₀, hinit, hlaid, -⟩ := init_laid arena
  refine ⟨list₀, arena₀, hinit, fun s hrun => ?_⟩
  obtain ⟨bs, h⟩ := hlaid.of_run (fun h hop => h.step hop) hrun
  refine ⟨frees bs, h.invariant.chain, fun size align hpos hpow hle => ?_⟩
  rcases h.alloc_firstFit ⟨hpos, hpow, hle⟩ with
    ⟨hnone, hno⟩ | ⟨p, list', arena', hsome, hfirst⟩
  · refine ⟨iff_of_false ?_ ?_, fun p list' arena' heq => ?_, fun _ => hnone⟩
    · rintro ⟨p, list', arena', heq⟩
      rw [hnone] at heq
      cases heq
    · rintro ⟨b, hb, p, hp⟩
      exact hno b hb p hp
    · rw [hnone] at heq
      cases heq
  · obtain ⟨before, b, after, -, hsplit, hfits, -⟩ := id hfirst
    have hb : b ∈ frees bs := by
      rw [hsplit]
      exact List.mem_append_right _ List.mem_cons_self
    refine ⟨iff_of_true ⟨p, list', arena', hsome⟩ ⟨b, hb, p, hfits⟩, fun q list'' arena'' heq => ?_,
      fun hno => absurd hfits (hno b hb p)⟩
    rw [hsome] at heq
    simp only [Except.ok.injEq, Prod.mk.injEq, Option.some.injEq] at heq
    obtain ⟨rfl, rfl, rfl⟩ := heq
    exact hfirst

end Heap

end ParanukOS
