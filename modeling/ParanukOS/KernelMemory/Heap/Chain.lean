import ParanukOS.KernelMemory.Heap.Corrupted

/-!
# The chain of the free list

A list on any contents of the arena leads from header to header, until it comes to one that is not
sound; it may also run in a circle.  Here is what the chain before a call says about the chain after
it.  Both calls replace a few blocks of the chain by others.  If no header of the chain lies in
another block of it, then the writes change nothing else: the new chain leads to a header that wraps
if and only if the old one does.

## Outline

* `FreeList.Reaches`, `FreeList.Intact`, `FreeList.Untangled`: the chain before a call.
* `FreeList.Trail.exists_rest`, `FreeList.Trail.nodup`: the chain is a path.
* `Spliced`, `Spliced.countable_iff`: the chain with some blocks replaced.
-/

namespace ParanukOS

open Foundation

namespace Heap

namespace FreeList

/-- The list leads to the offset. -/
def Reaches (self : FreeList) (arena : Slice UInt8) (x : ℕ) : Prop :=
  ∃ l, self.Trail arena self.head l x

/-- The list leads to no header that wraps. -/
def Intact (self : FreeList) (arena : Slice UInt8) : Prop :=
  ∀ x, self.Reaches arena x → ¬ Wraps arena x

/-- No header that the list leads to lies in another block of the list. -/
def Untangled (self : FreeList) (arena : Slice UInt8) : Prop :=
  ∀ x size next, self.Reaches arena x → self.Sound arena x size next →
    ∀ y, self.Reaches arena y → y ≠ x → y + 24 ≤ x ∨ x + size ≤ y

/-- The arena is so small that no walk counts more bytes than a word can hold. -/
def Small (self : FreeList) : Prop := self.maxBlocks * self.arenaLen < 2 ^ 64

end FreeList

section Trails

variable {list list' : FreeList} {arena arena' : Slice UInt8} {start x y size size' next next' : ℕ}
  {l m : List HeapBlock} {b : HeapBlock}

/-! ## Paths -/

lemma FreeList.Sound.unique (h : list.Sound arena x size next)
    (h' : list.Sound arena x size' next') : size = size' ∧ next = next' := by
  have hfields := h.1.symm.trans h'.1
  simp only [Option.some.injEq, Prod.mk.injEq] at hfields
  exact hfields.2

/-- A sound header does not wrap. -/
lemma FreeList.Sound.not_wraps (hlen : list.arenaLen < 2 ^ 63) (h : list.Sound arena x size next) :
    ¬ Wraps arena x := by
  rintro ⟨size', next', hread, hwraps⟩
  have hfields := h.1.symm.trans hread
  simp only [Option.some.injEq, Prod.mk.injEq] at hfields
  obtain ⟨-, rfl, -⟩ := hfields
  have hend := h.2.2
  omega

/-- A header that wraps is not sound. -/
lemma Wraps.not_sound (hlen : list.arenaLen < 2 ^ 63) (h : Wraps arena x) :
    ∀ size next, ¬ list.Sound arena x size next :=
  fun _ _ hsound => hsound.not_wraps hlen h

/-- A header is sound if it is the same as a sound one. -/
lemma FreeList.Sound.congr (hlen : list'.arenaLen = list.arenaLen)
    (hread : readHeader arena' x = readHeader arena x) (h : list.Sound arena x size next) :
    list'.Sound arena' x size next :=
  ⟨hread.trans h.1, h.2.1, hlen.symm ▸ h.2.2⟩

namespace FreeList.Trail

lemma append (h : list.Trail arena start l x) (h' : list.Trail arena x m y) :
    list.Trail arena start (l ++ m) y := by
  induction h with
  | nil current => exact h'
  | cons hsound _ ih => exact .cons hsound (ih h')

/-- The blocks of a trail have sound headers, and the trail leads to them. -/
lemma of_mem (h : list.Trail arena start l x) (hb : b ∈ l) :
    (∃ m, list.Trail arena start m b.start) ∧ ∃ next, list.Sound arena b.start b.size next ∧
      (next = x ∨ next ∈ l.map Block.start) := by
  obtain ⟨l₁, l₂, rfl⟩ := List.append_of_mem hb
  obtain ⟨mid, hfirst, hlast⟩ := h.split
  cases hlast with
  | @cons _ size next _ _ hsound hrest =>
    refine ⟨⟨l₁, hfirst⟩, next, hsound, ?_⟩
    cases hrest with
    | nil => exact .inl rfl
    | cons => exact .inr (by simp)

/-- A trail on the same headers. -/
lemma congr (h : list.Trail arena start l x) (hlen : list'.arenaLen = list.arenaLen)
    (hread : ∀ b ∈ l, readHeader arena' b.start = readHeader arena b.start) :
    list'.Trail arena' start l x := by
  induction h with
  | nil current => exact .nil current
  | cons hsound _ ih =>
    exact .cons (hsound.congr hlen (hread _ List.mem_cons_self))
      (ih fun b hb => hread b (List.mem_cons_of_mem _ hb))

/-- There is one way to go on: a trail that ends at a header that is not sound extends every other
trail. -/
lemma exists_rest (h : list.Trail arena start l x)
    (hx : ∀ size next, ¬ list.Sound arena x size next) (h' : list.Trail arena start m y) :
    ∃ rest, l = m ++ rest ∧ list.Trail arena y rest x := by
  induction h' generalizing l with
  | nil current => exact ⟨l, rfl, h⟩
  | cons hsound _ ih =>
    cases h with
    | nil => exact absurd hsound (hx _ _)
    | cons hsound' hrest =>
      obtain ⟨rfl, rfl⟩ := hsound.unique hsound'
      obtain ⟨rest, rfl, hrest'⟩ := ih hrest
      exact ⟨rest, rfl, hrest'⟩

/-- A trail that ends at a header that is not sound does not come to a block twice. -/
lemma nodup (h : list.Trail arena start l x)
    (hx : ∀ size next, ¬ list.Sound arena x size next) : (l.map Block.start).Nodup := by
  induction h with
  | nil current => exact List.nodup_nil
  | @cons current size next stop l hsound hrest ih =>
    rw [List.map_cons, List.nodup_cons]
    refine ⟨fun hmem => ?_, ih hx⟩
    -- otherwise the trail from the block leads to the block, and on from there by itself
    obtain ⟨b, hb, hstart⟩ := List.mem_map.mp hmem
    obtain ⟨l₁, l₂, rfl⟩ := List.append_of_mem hb
    obtain ⟨mid, hfirst, hlast⟩ := hrest.split
    have hmid : mid = current := by
      cases hlast
      exact hstart
    have hwhole : list.Trail arena current (⟨current, size, none⟩ :: (l₁ ++ b :: l₂)) stop :=
      .cons hsound hrest
    obtain ⟨rest, heq, -⟩ := (hmid ▸ hlast).exists_rest hx hwhole
    have hlength := congrArg List.length heq
    simp only [List.length_cons, List.length_append] at hlength
    omega

end FreeList.Trail

/-! ## Where the list leads -/

namespace FreeList.Reaches

lemma of_sound (h : list.Reaches arena x) (hsound : list.Sound arena x size next) :
    list.Reaches arena next := by
  obtain ⟨l, hl⟩ := h
  exact ⟨_, hl.snoc hsound⟩

/-- What holds at the first block and is kept along sound headers holds wherever the list leads. -/
lemma inv {Q : ℕ → Prop} (h : list.Reaches arena x) (hhead : Q list.head)
    (hstep : ∀ x size next, Q x → list.Sound arena x size next → Q next) : Q x := by
  obtain ⟨l, hl⟩ := h
  generalize list.head = start at hl hhead
  induction hl with
  | nil current => exact hhead
  | cons hsound _ ih => exact ih (hstep _ _ _ hhead hsound)

end FreeList.Reaches

/-- The blocks on the way to a header that is not sound fit into the arena, header by header. -/
lemma FreeList.Untangled.length_le (h : list.Untangled arena)
    (htrail : list.Trail arena list.head l x)
    (hx : ∀ size next, ¬ list.Sound arena x size next) : l.length ≤ list.arenaLen / 24 := by
  have hinj : (l.map fun b => b.start / 24).Nodup := by
    have hnodup := htrail.nodup hx
    rw [List.nodup_map_iff_inj_on hnodup.of_map]
    intro b hb b' hb' heq
    by_contra hne
    have hstart : b'.start ≠ b.start := fun hcon =>
      hne (List.inj_on_of_nodup_map hnodup hb' hb hcon).symm
    obtain ⟨hreach, next, hsound, -⟩ := htrail.of_mem hb
    obtain ⟨hreach', -⟩ := htrail.of_mem hb'
    have hapart := h _ _ _ hreach hsound _ hreach' hstart
    have hsize := hsound.2.1
    simp only [headerSize] at hsize
    omega
  have hsubset : (l.map fun b => b.start / 24).toFinset ⊆ Finset.range (list.arenaLen / 24) := by
    intro i hi
    simp only [List.mem_toFinset, List.mem_map] at hi
    obtain ⟨b, hb, rfl⟩ := hi
    obtain ⟨-, -, ⟨-, hsize, hend⟩, -⟩ := htrail.of_mem hb
    simp only [headerSize] at hsize
    rw [Finset.mem_range]
    omega
  have hcard := Finset.card_le_card hsubset
  rwa [List.toFinset_card_of_nodup hinj, List.length_map, Finset.card_range] at hcard

/-- The free bytes of a trail. -/
lemma FreeList.Trail.payloadBytes_le (h : list.Trail arena start l x) :
    payloadBytes l ≤ l.length * list.arenaLen := by
  induction h with
  | nil current => simp
  | cons hsound _ ih =>
    have hend := hsound.2.2
    rw [payloadBytes_cons, List.length_cons, Nat.succ_mul]
    simp only [headerSize] at hend ⊢
    omega

/-- In a small arena only headers that wrap can keep the list from being counted. -/
lemma FreeList.Small.countable_iff (h : list.Small) : Countable (list, arena) ↔
    ∀ l x, list.Trail arena list.head l x → l.length < list.maxBlocks → ¬ Wraps arena x := by
  refine ⟨fun hcount => hcount.not_wraps, fun hwalks => ⟨hwalks, fun l x htrail hl => ?_⟩⟩
  exact (htrail.payloadBytes_le.trans (Nat.mul_le_mul_right _ hl)).trans_lt h

end Trails

/-! ## Blocks replaced -/

/-- After some writes, the list leads along the blocks `l` as before, then along `parts`, and then
goes on at `next`.  Apart from the headers `changed`, which now belong to `parts` or are not free,
and the last one of `l`, the headers are as before. -/
structure Spliced (list : FreeList) (arena : Slice UInt8) (list' : FreeList) (arena' : Slice UInt8)
    (l parts : List HeapBlock) (first next : ℕ) (changed : ℕ → Prop) : Prop where
  arenaLen_eq : list'.arenaLen = list.arenaLen
  reaches_next : list.Reaches arena next
  parts_trail : list'.Trail arena' first parts next
  linked : l = [] ∧ list'.head = first ∨ list'.head = list.head ∧
    ∃ k b, l = k ++ [b] ∧ list.Trail arena list.head k b.start ∧ b.tag = none ∧
      list'.Sound arena' b.start b.size first
  same : ∀ x, list.Reaches arena x → ¬ changed x → x ≠ lastFree l →
    readHeader arena' x = readHeader arena x
  changed_cases : ∀ x, changed x → x ∈ parts.map Block.start ∨
    ∀ size next, readHeader arena' x ≠ some (magicFree, size, next)

namespace Spliced

variable {list list' : FreeList} {arena arena' : Slice UInt8} {first next : ℕ}
  {l parts : List HeapBlock} {changed : ℕ → Prop}

/-- The last write of both calls: when the new blocks are there, the list is made to lead to them,
either from its head or from the header of the block before. -/
lemma of_written {written : Slice UInt8} {stop : ℕ} (hlen : list.arenaLen ≤ arena.length)
    (huntangled : list.Untangled arena) (htrail : list.Trail arena list.head l stop)
    (hnext : list.Reaches arena next) (hlength : written.length = arena.length)
    (hfirst : first < 2 ^ 64) (hparts : list.Trail written first parts next)
    (hsame : ∀ x, list.Reaches arena x → ¬ changed x →
      readHeader written x = readHeader arena x)
    (hchanged : ∀ x, changed x → x ∈ parts.map Block.start ∨
      ∀ size next, readHeader written x ≠ some (magicFree, size, next))
    (hapart : ∀ b ∈ l, ∀ x, changed x ∨ x ∈ parts.map Block.start →
      x + 24 ≤ b.start ∨ b.start + 24 ≤ x)
    (hlinked : l = [] ∧ list' = { list with head := first } ∧ arena' = written ∨
      ∃ k b, l = k ++ [b] ∧ list' = list ∧
        arena' = setHeader written b.start magicFree b.size first) :
    Spliced list arena list' arena' l parts first next changed := by
  rcases hlinked with ⟨rfl, rfl, rfl⟩ | ⟨k, b, rfl, rfl, rfl⟩
  · exact {
      arenaLen_eq := rfl
      reaches_next := hnext
      parts_trail := hparts.congr rfl fun _ _ => rfl
      linked := .inl ⟨rfl, rfl⟩
      same := fun x hx hne _ => hsame x hx hne
      changed_cases := hchanged }
  · obtain ⟨hk, hsound, htag⟩ := htrail.of_snoc
    obtain ⟨-, hsize, hstop⟩ := id hsound
    simp only [headerSize] at hsize
    have hlt := arena.length_lt'
    have hb := hapart b (by simp)
    have hother : ∀ x, x + 24 ≤ b.start ∨ b.start + 24 ≤ x →
        readHeader (setHeader written b.start magicFree b.size first) x = readHeader written x :=
      fun x hx => readHeader_setHeader_of_disjoint _ _ _ _ hx
    exact {
      arenaLen_eq := rfl
      reaches_next := hnext
      parts_trail := hparts.congr rfl fun c hc =>
        hother _ (hb _ (.inr (List.mem_map_of_mem hc)))
      linked := .inr ⟨rfl, k, b, rfl, hk, htag,
        readHeader_setHeader_self (by omega) (by decide) (by omega) hfirst, hsound.2⟩
      same := fun x hx hne hlast => by
        rw [lastFree_snoc htag] at hlast
        have hx' := huntangled _ _ _ ⟨k, hk⟩ hsound x hx hlast
        rw [hother x (by omega), hsame x hx hne]
      changed_cases := fun x hx => by
        rw [hother x (hb x (.inl hx))]
        exact hchanged x hx }

/-- The header before the new blocks leads to them. -/
lemma sound_lastFree (h : Spliced list arena list' arena' l parts first next changed) {size n : ℕ}
    (hsound : list'.Sound arena' (lastFree l) size n) : n = first := by
  rcases h.linked with ⟨rfl, -⟩ | ⟨-, k, b, rfl, -, htag, hlast⟩
  · exact absurd rfl (ne_noneOffset_of_readHeader hsound.1)
  · rw [lastFree_snoc htag] at hsound
    exact (hsound.unique hlast).2

/-- The new blocks lead to each other and to where the old list goes on. -/
lemma of_mem_parts (h : Spliced list arena list' arena' l parts first next changed) {x size n : ℕ}
    (hx : x ∈ parts.map Block.start) (hsound : list'.Sound arena' x size n) :
    n ∈ parts.map Block.start ∨ list.Reaches arena n := by
  obtain ⟨b, hb, rfl⟩ := List.mem_map.mp hx
  obtain ⟨-, n', hsound', hn'⟩ := h.parts_trail.of_mem hb
  obtain ⟨-, rfl⟩ := hsound.unique hsound'
  rcases hn' with rfl | hn'
  · exact .inr h.reaches_next
  · exact .inl hn'

/-- The new list leads to the new blocks, and else to where the old one does. -/
lemma reaches_cases (h : Spliced list arena list' arena' l parts first next changed) {x : ℕ}
    (hx : list'.Reaches arena' x) : x ∈ parts.map Block.start ∨ list.Reaches arena x := by
  have hfirst : first ∈ parts.map Block.start ∨ list.Reaches arena first := by
    cases h.parts_trail with
    | nil => exact .inr h.reaches_next
    | cons => exact .inl (by simp)
  refine hx.inv (Q := fun x => x ∈ parts.map Block.start ∨ list.Reaches arena x) ?_ ?_
  · rcases h.linked with ⟨-, hhead⟩ | ⟨hhead, -⟩
    · rwa [hhead]
    · rw [hhead]
      exact .inr ⟨[], .nil _⟩
  · rintro x size n (hmem | hreach) hsound
    · exact h.of_mem_parts hmem hsound
    · by_cases hlast : x = lastFree l
      · subst hlast
        rw [h.sound_lastFree hsound]
        exact hfirst
      by_cases hchanged : changed x
      · rcases h.changed_cases x hchanged with hmem | hfree
        · exact h.of_mem_parts hmem hsound
        · exact absurd hsound.1 (hfree _ _)
      · exact .inr (hreach.of_sound
          (hsound.congr h.arenaLen_eq.symm (h.same x hreach hchanged hlast).symm))

/-- A header that wraps after the writes has wrapped before. -/
lemma wraps_of_wraps (h : Spliced list arena list' arena' l parts first next changed)
    (hlen : list.arenaLen < 2 ^ 63) {x : ℕ} (hx : list'.Reaches arena' x)
    (hwraps : Wraps arena' x) : list.Reaches arena x ∧ Wraps arena x := by
  have hlen' : list'.arenaLen < 2 ^ 63 := h.arenaLen_eq ▸ hlen
  have hparts : x ∉ parts.map Block.start := by
    intro hmem
    obtain ⟨b, hb, rfl⟩ := List.mem_map.mp hmem
    obtain ⟨-, n, hsound, -⟩ := h.parts_trail.of_mem hb
    exact hsound.not_wraps hlen' hwraps
  have hreach := (h.reaches_cases hx).resolve_left hparts
  have hchanged : ¬ changed x := by
    intro hcon
    obtain ⟨size, n, hread, -⟩ := hwraps
    exact (h.changed_cases x hcon).resolve_left hparts size n hread
  have hlast : x ≠ lastFree l := by
    rintro rfl
    rcases h.linked with ⟨rfl, -⟩ | ⟨-, k, b, rfl, -, htag, hsound⟩
    · obtain ⟨size, n, hread, -⟩ := hwraps
      exact absurd rfl (ne_noneOffset_of_readHeader hread)
    · rw [lastFree_snoc htag] at hwraps
      exact hsound.not_wraps hlen' hwraps
  obtain ⟨size, n, hread, hsum⟩ := hwraps
  exact ⟨hreach, size, n, (h.same x hreach hchanged hlast).symm.trans hread, hsum⟩

/-- The new list leads along the blocks before the new ones. -/
lemma front_trail (h : Spliced list arena list' arena' l parts first next changed)
    (hkept : ∀ b ∈ l, ¬ changed b.start) (hnodup : (l.map Block.start).Nodup) :
    list'.Trail arena' list'.head l first := by
  rcases h.linked with ⟨rfl, hhead⟩ | ⟨hhead, k, last, rfl, hk, htag, hlast⟩
  · rw [hhead]
    exact .nil first
  · have hkeep : list'.Trail arena' list'.head k last.start := by
      rw [hhead]
      refine hk.congr h.arenaLen_eq fun b hb => ?_
      refine h.same _ (hk.of_mem hb).1 (hkept b (List.mem_append_left _ hb)) fun hcon => ?_
      rw [lastFree_snoc htag] at hcon
      rw [List.map_append, List.nodup_append] at hnodup
      exact hnodup.2.2 b.start (List.mem_map_of_mem hb) last.start (by simp) hcon
    have hblock : (⟨last.start, last.size, none⟩ : HeapBlock) = last := by
      rw [← htag]
    have hsnoc := hkeep.snoc hlast
    rwa [hblock] at hsnoc

/-- The way to a header that wraps leads along the new blocks. -/
lemma trail (h : Spliced list arena list' arena' l parts first next changed)
    (hlen : list.arenaLen < 2 ^ 63) {mid rest : List HeapBlock} {x : ℕ}
    (htrail : list.Trail arena list.head (l ++ mid ++ rest) x) (hwraps : Wraps arena x)
    (hrest : list.Trail arena next rest x) (hkept : ∀ b ∈ l ++ rest, ¬ changed b.start)
    (hx : ¬ changed x) :
    list'.Trail arena' list'.head (l ++ parts ++ rest) x ∧ Wraps arena' x := by
  have hsound := Wraps.not_sound hlen hwraps
  have hnodup := htrail.nodup hsound
  -- the last block before the new ones is not met again
  have hsame : ∀ b ∈ rest, readHeader arena' b.start = readHeader arena b.start := by
    intro b hb
    refine h.same _ (htrail.of_mem (List.mem_append_right _ hb)).1
      (hkept b (List.mem_append_right _ hb)) fun hcon => ?_
    rcases h.linked with ⟨rfl, -⟩ | ⟨-, k, last, rfl, -, htag, -⟩
    · obtain ⟨-, n, hb', -⟩ := htrail.of_mem (List.mem_append_right _ hb)
      exact ne_noneOffset_of_readHeader hb'.1 hcon
    · rw [lastFree_snoc htag] at hcon
      rw [List.append_assoc, List.map_append, List.nodup_append] at hnodup
      refine hnodup.2.2 last.start (List.mem_map_of_mem (by simp)) b.start ?_ hcon.symm
      exact List.mem_map_of_mem (List.mem_append_right _ hb)
  have hend : readHeader arena' x = readHeader arena x := by
    refine h.same x ⟨_, htrail⟩ hx fun hcon => ?_
    rcases h.linked with ⟨rfl, -⟩ | ⟨-, k, last, rfl, -, htag, -⟩
    · obtain ⟨size, n, hread, -⟩ := hwraps
      exact ne_noneOffset_of_readHeader hread hcon
    · rw [lastFree_snoc htag] at hcon
      obtain ⟨-, n, hlast, -⟩ := htrail.of_mem (b := last) (by simp)
      exact hsound _ _ (hcon ▸ hlast)
  have htail : list'.Trail arena' first (parts ++ rest) x :=
    h.parts_trail.append (hrest.congr h.arenaLen_eq hsame)
  have hfront : list'.Trail arena' list'.head l first := by
    refine h.front_trail (fun b hb => hkept b (List.mem_append_left _ hb)) ?_
    rw [List.map_append, List.map_append] at hnodup
    exact hnodup.of_append_left.of_append_left
  obtain ⟨size, n, hread, hsum⟩ := id hwraps
  refine ⟨?_, size, n, hend.trans hread, hsum⟩
  rw [List.append_assoc]
  exact hfront.append htail

/-- The new list can be counted if and only if the old one leads to no header that wraps. -/
lemma countable_iff (h : Spliced list arena list' arena' l parts first next changed)
    (hlen : list.arenaLen < 2 ^ 63) (hsmall : list.Small) (huntangled : list.Untangled arena)
    (hsplit : ∀ way x, list.Trail arena list.head way x → Wraps arena x →
      ∃ mid rest, way = l ++ mid ++ rest ∧ parts.length ≤ mid.length + 1 ∧
        list.Trail arena next rest x ∧ (∀ b ∈ l ++ rest, ¬ changed b.start) ∧ ¬ changed x) :
    Countable (list', arena') ↔ list.Intact arena := by
  have hsmall' : list'.Small := by
    rw [FreeList.Small, FreeList.maxBlocks, h.arenaLen_eq]
    exact hsmall
  rw [hsmall'.countable_iff]
  constructor
  · rintro hcount x ⟨way, hway⟩ hwraps
    obtain ⟨mid, rest, rfl, hparts, hrest, hkept, hx⟩ := hsplit way x hway hwraps
    obtain ⟨htrail, hwraps'⟩ := h.trail hlen hway hwraps hrest hkept hx
    refine hcount _ x htrail ?_ hwraps'
    have hle := huntangled.length_le hway (hwraps.not_sound hlen)
    simp only [List.length_append] at hle ⊢
    rw [FreeList.maxBlocks, h.arenaLen_eq, headerAlign]
    omega
  · intro hintact way x hway _ hwraps
    obtain ⟨hreach, hwraps'⟩ := h.wraps_of_wraps hlen ⟨way, hway⟩ hwraps
    exact hintact x hreach hwraps'

end Spliced

end Heap

end ParanukOS
