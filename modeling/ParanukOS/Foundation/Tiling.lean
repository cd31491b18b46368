import Mathlib.Tactic

/-!
# Tilings of an interval by consecutive blocks

A `Block` is a tagged interval of addresses.  `Tiles lo hi bs` says that the blocks of the list
`bs` are not empty and that each of them starts where the one before it ends, the first one at
`lo`, and that the last one ends at `hi`: the blocks cover the interval from `lo` to `hi` without
gap or overlap, in increasing order.

`tiles_append` cuts a tiling in two, which is how a block is replaced by several blocks (or several
by one), and `Tiles.existsUnique_mem` states the exact covering of the interval.

Some of the blocks may be marked.  When no two adjacent blocks are unmarked, then the places of the
marked blocks determine the whole tiling, since the unmarked ones fill the gaps
(`Tiles.samePlaces`).
-/

namespace Foundation

/-- The interval of `size` addresses from `start` on, with a tag. -/
structure Block (κ : Type) where
  /-- The first address. -/
  start : ℕ
  /-- The number of addresses. -/
  size : ℕ
  /-- What the block is used for. -/
  tag : κ
  deriving DecidableEq, Repr

variable {κ : Type}

namespace Block

/-- The first address after the block. -/
def stop (b : Block κ) : ℕ := b.start + b.size

/-- The addresses of a block. -/
def Contains (b : Block κ) (p : ℕ) : Prop := b.start ≤ p ∧ p < b.stop

end Block

/-- The blocks of the list cover the addresses from `lo` to `hi` exactly, in increasing order. -/
def Tiles : ℕ → ℕ → List (Block κ) → Prop
  | lo, hi, [] => lo = hi
  | lo, hi, b :: bs => b.start = lo ∧ 0 < b.size ∧ Tiles b.stop hi bs

@[simp] lemma tiles_nil {lo hi : ℕ} : Tiles lo hi ([] : List (Block κ)) ↔ lo = hi := Iff.rfl

@[simp] lemma tiles_cons {lo hi : ℕ} {b : Block κ} {bs : List (Block κ)} :
    Tiles lo hi (b :: bs) ↔ b.start = lo ∧ 0 < b.size ∧ Tiles b.stop hi bs := Iff.rfl

/-- A tiling of a concatenation is a tiling of both parts that meet at some address. -/
lemma tiles_append {lo hi : ℕ} {as bs : List (Block κ)} :
    Tiles lo hi (as ++ bs) ↔ ∃ mid, Tiles lo mid as ∧ Tiles mid hi bs := by
  induction as generalizing lo with
  | nil => simp
  | cons a as ih =>
    simp only [List.cons_append, tiles_cons, ih]
    constructor
    · rintro ⟨h1, h2, mid, h3, h4⟩
      exact ⟨mid, ⟨h1, h2, h3⟩, h4⟩
    · rintro ⟨mid, ⟨h1, h2, h3⟩, h4⟩
      exact ⟨h1, h2, mid, h3, h4⟩

namespace Tiles

variable {lo hi : ℕ} {bs : List (Block κ)}

lemma le (h : Tiles lo hi bs) : lo ≤ hi := by
  induction bs generalizing lo with
  | nil => exact h.le
  | cons b bs ih =>
    obtain ⟨rfl, -, hbs⟩ := h
    have := ih hbs
    simp only [Block.stop] at this
    omega

/-- Every block of a tiling lies inside of the interval tiled. -/
lemma bounds_of_mem (h : Tiles lo hi bs) {b : Block κ} (hb : b ∈ bs) :
    lo ≤ b.start ∧ 0 < b.size ∧ b.stop ≤ hi := by
  induction bs generalizing lo with
  | nil => simp at hb
  | cons c bs ih =>
    obtain ⟨rfl, hpos, hbs⟩ := h
    rcases List.mem_cons.mp hb with rfl | hb
    · exact ⟨le_rfl, hpos, hbs.le⟩
    · obtain ⟨h1, h2, h3⟩ := ih hbs hb
      simp only [Block.stop] at h1 h3 ⊢
      omega

/-- Where a tiling is cut at a block, the blocks before it end where it starts or earlier, and
the blocks after it start where it ends or later. -/
lemma bounds_of_split {as cs : List (Block κ)} {b : Block κ} (h : Tiles lo hi (as ++ b :: cs)) :
    Tiles lo b.start as ∧ 0 < b.size ∧ Tiles b.stop hi cs := by
  obtain ⟨mid, has, rfl, hpos, hcs⟩ := tiles_append.mp h
  exact ⟨has, hpos, hcs⟩

/-- The blocks of a tiling are pairwise disjoint, in increasing order. -/
lemma pairwise (h : Tiles lo hi bs) : bs.Pairwise fun a b => a.stop ≤ b.start := by
  induction bs generalizing lo with
  | nil => exact List.Pairwise.nil
  | cons b bs ih =>
    obtain ⟨rfl, -, hbs⟩ := h
    exact List.Pairwise.cons (fun c hc => (hbs.bounds_of_mem hc).1) (ih hbs)

/-- Every address of the interval lies in exactly one block of the tiling. -/
lemma existsUnique_mem (h : Tiles lo hi bs) {p : ℕ} (hlo : lo ≤ p) (hhi : p < hi) :
    ∃! b, b ∈ bs ∧ b.Contains p := by
  induction bs generalizing lo with
  | nil => exact absurd h (by simp only [tiles_nil]; omega)
  | cons b bs ih =>
    obtain ⟨rfl, hpos, hbs⟩ := h
    by_cases hp : p < b.stop
    · refine ⟨b, ⟨List.mem_cons_self, hlo, hp⟩, ?_⟩
      rintro c ⟨hc, hc1, -⟩
      rcases List.mem_cons.mp hc with rfl | hc
      · rfl
      · exact absurd hc1 (by have := (hbs.bounds_of_mem hc).1; omega)
    · obtain ⟨c, ⟨hc, hcp⟩, huniq⟩ := ih hbs (not_lt.mp hp)
      refine ⟨c, ⟨List.mem_cons_of_mem _ hc, hcp⟩, ?_⟩
      rintro d ⟨hd, hdp⟩
      rcases List.mem_cons.mp hd with rfl | hd
      · exact absurd hdp.2 hp
      · exact huniq d ⟨hd, hdp⟩

/-- Two blocks of a tiling that share an address are the same block. -/
lemma eq_of_contains (h : Tiles lo hi bs) {b c : Block κ} (hb : b ∈ bs) (hc : c ∈ bs) {p : ℕ}
    (hbp : b.Contains p) (hcp : c.Contains p) : b = c := by
  have h1 := h.bounds_of_mem hb
  obtain ⟨d, -, huniq⟩ := h.existsUnique_mem (p := p) (h1.1.trans hbp.1)
    (hbp.2.trans_le h1.2.2)
  rw [huniq b ⟨hb, hbp⟩, huniq c ⟨hc, hcp⟩]

/-- Blocks of at least `m` addresses are not more than the interval has room for. -/
lemma length_mul_le (h : Tiles lo hi bs) {m : ℕ} (hm : ∀ b ∈ bs, m ≤ b.size) :
    lo + bs.length * m ≤ hi := by
  induction bs generalizing lo with
  | nil => simpa using h.le
  | cons b bs ih =>
    obtain ⟨rfl, -, hbs⟩ := h
    have hb := hm b List.mem_cons_self
    have hrest := ih hbs fun c hc => hm c (List.mem_cons_of_mem _ hc)
    simp only [Block.stop, List.length_cons, Nat.add_mul] at hrest ⊢
    omega

/-- The sizes of the blocks add up to the length of the interval. -/
lemma add_sum_size (h : Tiles lo hi bs) : lo + (bs.map Block.size).sum = hi := by
  induction bs generalizing lo with
  | nil => simpa using h
  | cons b bs ih =>
    obtain ⟨rfl, -, hbs⟩ := h
    have hrest := ih hbs
    simp only [Block.stop, List.map_cons, List.sum_cons] at hrest ⊢
    omega

/-- No block occurs twice in a tiling. -/
lemma nodup (h : Tiles lo hi bs) : bs.Nodup := by
  refine h.pairwise.imp_of_mem fun ha _ hab heq => ?_
  have hpos := (h.bounds_of_mem ha).2.1
  subst heq
  simp only [Block.stop] at hab
  omega

end Tiles

/-! ## Marked blocks -/

section Marked

variable {marked : κ → Bool} {lo hi : ℕ} {a b : Block κ} {as bs : List (Block κ)}

/-- A marked block of the list lies at the place with this start and size. -/
def MarkedAt (marked : κ → Bool) (bs : List (Block κ)) (start size : ℕ) : Prop :=
  ∃ b ∈ bs, marked b.tag = true ∧ b.start = start ∧ b.size = size

/-- No two adjacent blocks are unmarked. -/
def Filled (marked : κ → Bool) (bs : List (Block κ)) : Prop :=
  bs.IsChain fun a b => marked a.tag = true ∨ marked b.tag = true

/-- There is at most one unmarked block more than there are marked ones. -/
lemma Filled.length_unmarked_le (h : Filled marked bs) :
    (bs.filter fun b => !marked b.tag).length ≤ (bs.filter fun b => marked b.tag).length + 1 := by
  induction bs using List.twoStepInduction with
  | nil => simp
  | singleton b => exact (List.length_filter_le _ _).trans (Nat.le_add_left _ _)
  | cons_cons a b bs ih ih' =>
    obtain ⟨hab, hrest⟩ := List.isChain_cons_cons.mp h
    cases ha : marked a.tag with
    | true =>
      have hle := ih' b hrest
      simp only [List.filter_cons (x := a), ha, Bool.not_true, Bool.false_eq_true, ↓reduceIte,
        List.length_cons]
      omega
    | false =>
      -- the block behind an unmarked one is marked
      have hb : marked b.tag = true := hab.resolve_left (by rw [ha]; decide)
      have hle := ih hrest.of_cons
      simp only [List.filter_cons, ha, hb, Bool.not_true, Bool.not_false, Bool.false_eq_true,
        ↓reduceIte, List.length_cons]
      omega

/-- The blocks have the same place, and both are marked or not. -/
def SamePlace (marked : κ → Bool) (a b : Block κ) : Prop :=
  a.start = b.start ∧ a.size = b.size ∧ marked a.tag = marked b.tag

/-- The marked blocks behind the first block. -/
lemma Tiles.markedAt_tail (h : Tiles lo hi (b :: bs)) {start size : ℕ} :
    MarkedAt marked bs start size ↔ MarkedAt marked (b :: bs) start size ∧ b.stop ≤ start := by
  obtain ⟨rfl, hpos, hbs⟩ := h
  constructor
  · rintro ⟨c, hc, hmarked, rfl, rfl⟩
    exact ⟨⟨c, List.mem_cons_of_mem _ hc, hmarked, rfl, rfl⟩, (hbs.bounds_of_mem hc).1⟩
  · rintro ⟨⟨c, hc, hmarked, rfl, rfl⟩, hle⟩
    rcases List.mem_cons.mp hc with rfl | hc
    · simp only [Block.stop] at hle
      omega
    · exact ⟨c, hc, hmarked, rfl, rfl⟩

/-- The first block is the only one at its start. -/
lemma Tiles.eq_head (h : Tiles lo hi (b :: bs)) {c : Block κ} (hc : c ∈ b :: bs)
    (hstart : c.start = lo) : c = b := by
  obtain ⟨rfl, hpos, hbs⟩ := h
  rcases List.mem_cons.mp hc with rfl | hc
  · rfl
  · have hle := (hbs.bounds_of_mem hc).1
    simp only [Block.stop] at hle
    omega

/-- A first block that is not marked reaches at least as far as in another tiling with the same
marked blocks: after it comes a marked block or the end. -/
lemma Tiles.stop_le (has : Tiles lo hi (a :: as)) (hbs : Tiles lo hi (b :: bs))
    (hfilled : Filled marked (a :: as)) (ha : marked a.tag = false) (hb : marked b.tag = false)
    (h : ∀ start size, MarkedAt marked (a :: as) start size →
    MarkedAt marked (b :: bs) start size) :
    b.stop ≤ a.stop := by
  by_contra hlt
  rw [not_le] at hlt
  obtain ⟨-, -, hbs'⟩ := id hbs
  obtain ⟨hstart, hapos, has'⟩ := id has
  cases as with
  | nil =>
    have hstop : a.stop = hi := has'
    exact absurd hbs'.le (by omega)
  | cons c as =>
    have hc : marked c.tag = true := by
      obtain ⟨hhead, -⟩ := List.isChain_cons.mp hfilled
      exact (hhead c rfl).resolve_left (by rw [ha]; decide)
    obtain ⟨hcstart, -⟩ := has'
    obtain ⟨d, hd, hmarked, hdstart, -⟩ := h c.start c.size
      ⟨c, List.mem_cons_of_mem _ List.mem_cons_self, hc, rfl, rfl⟩
    rcases List.mem_cons.mp hd with rfl | hd
    · rw [hb] at hmarked
      cases hmarked
    · have hle := (hbs'.bounds_of_mem hd).1
      omega

/-- The first blocks of two tilings with the same marked blocks. -/
lemma Tiles.samePlace_head (has : Tiles lo hi (a :: as)) (hbs : Tiles lo hi (b :: bs))
    (hfa : Filled marked (a :: as)) (hfb : Filled marked (b :: bs))
    (h : ∀ start size, MarkedAt marked (a :: as) start size ↔
    MarkedAt marked (b :: bs) start size) :
    SamePlace marked a b := by
  have hastart : a.start = lo := has.1
  have hbstart : b.start = lo := hbs.1
  cases ha : marked a.tag with
  | true =>
    obtain ⟨c, hc, hmarked, hcstart, hsize⟩ :=
      (h a.start a.size).mp ⟨a, List.mem_cons_self, ha, rfl, rfl⟩
    obtain rfl := hbs.eq_head hc (hcstart.trans hastart)
    exact ⟨hcstart.symm, hsize.symm, by rw [ha, hmarked]⟩
  | false =>
    cases hb : marked b.tag with
    | true =>
      obtain ⟨c, hc, hmarked, hcstart, -⟩ :=
        (h b.start b.size).mpr ⟨b, List.mem_cons_self, hb, rfl, rfl⟩
      obtain rfl := has.eq_head hc (hcstart.trans hbstart)
      rw [ha] at hmarked
      cases hmarked
    | false =>
      have hle := has.stop_le hbs hfa ha hb fun start size => (h start size).mp
      have hge := hbs.stop_le has hfb hb ha fun start size => (h start size).mpr
      refine ⟨hastart.trans hbstart.symm, ?_, by rw [ha, hb]⟩
      simp only [Block.stop] at hle hge
      omega

/-- The marked blocks determine a tiling without adjacent unmarked blocks. -/
lemma Tiles.samePlaces (has : Tiles lo hi as) (hbs : Tiles lo hi bs) (hfa : Filled marked as)
    (hfb : Filled marked bs)
    (h : ∀ start size, MarkedAt marked as start size ↔ MarkedAt marked bs start size) :
    List.Forall₂ (SamePlace marked) as bs := by
  induction as generalizing lo bs with
  | nil =>
    cases bs with
    | nil => exact List.Forall₂.nil
    | cons b bs =>
      obtain ⟨rfl, hpos, hbs⟩ := hbs
      have hle := hbs.le
      have heq : b.start = hi := has
      simp only [Block.stop] at hle
      omega
  | cons a as ih =>
    cases bs with
    | nil =>
      obtain ⟨rfl, hpos, has⟩ := has
      have hle := has.le
      have heq : a.start = hi := hbs
      simp only [Block.stop] at hle
      omega
    | cons b bs =>
      have hplace := has.samePlace_head hbs hfa hfb h
      have hstop : a.stop = b.stop := by
        rw [Block.stop, Block.stop, hplace.1, hplace.2.1]
      refine List.Forall₂.cons hplace (ih has.2.2 ?_ hfa.of_cons hfb.of_cons fun start size => ?_)
      · rw [hstop]
        exact hbs.2.2
      · rw [has.markedAt_tail, hbs.markedAt_tail, h, hstop]

end Marked

end Foundation
