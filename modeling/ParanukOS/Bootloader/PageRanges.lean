import ParanukOS.Bootloader.Handoff
import ParanukOS.Bootloader.Loaded

/-!
# The pages of an accepted image

What the loader computes from the addresses of an image that has passed all checks: the pages of
each segment, the interval of all of them, the difference of the virtual and the physical address
of the first segment, and the virtual address of the image.

The checks make sure that the end of a segment is a word.  Its end rounded up to a page need not be
one: it is not for a segment that ends in the last page of the address space.  The virtual addresses
are looked at by the search for the entry point only, and no check is about signs, so the signed
results may overflow as well.  The theorem states the exact condition.

## Outline

* `SoundRange`, `SoundSpan`, `PageRangesSound`: what the loader relies on.
* `pageRange_returns_iff`, `exists_loadedSpan`: when the pages are computed.
* `AddressesFit`: the condition; `page_ranges_sound_iff`: the main result.
-/

namespace ParanukOS

open Foundation Foundation.Fallible KernelImage

namespace Bootloader

/-! ## Signed words -/

lemma addI64_eq_ok_iff {a b c : ℤ} : addI64 a b = .ok c ↔ InI64 (a + b) ∧ c = a + b :=
  checkI64_eq_ok_iff

lemma asI64_of_lt {x : ℕ} (h : x < 2 ^ 63) : asI64 x = x := if_pos h

/-! ## Pages -/

variable {data : Slice UInt8}

/-- The pages of a segment: they are aligned and contain all of its bytes. -/
structure SoundRange (segment : Segment) (start stop : ℕ) : Prop where
  dvd_start : pageSize ∣ start
  dvd_stop : pageSize ∣ stop
  start_le : start ≤ segment.paddr
  le_stop : segment.paddr + segment.memsz ≤ stop

/-- The interval of all pages: it is not empty and contains the pages of every segment. -/
structure SoundSpan (l : List Segment) (base stop : ℕ) : Prop where
  lt : base < stop
  contains : ∀ segment ∈ l, ∀ start stop', segment.pageRange = .ok (start, stop') →
    base ≤ start ∧ stop' ≤ stop

/-- Everything that is computed from the addresses is computed without overflow, and it is what the
loader takes it for. -/
structure PageRangesSound (data : Slice UInt8) : Prop where
  ranges : ∀ segment ∈ loads data, ∃ start stop, segment.pageRange = .ok (start, stop) ∧
    SoundRange segment start stop
  span : ∃ base stop, Returns (loadedSpan data) (base, stop) ∧ SoundSpan (loads data) base stop ∧
    ∃ first vaddrDelta userVaddr, Returns (firstSegment data) first ∧
      subI64 (asI64 first.vaddr) (asI64 first.paddr) = .ok vaddrDelta ∧
      addI64 (asI64 base) vaddrDelta = .ok userVaddr

/-- The page range of a segment is computed if and only if its end is not in the last page of the
address space. -/
lemma pageRange_returns_iff {segment : Segment} :
    (∃ r, segment.pageRange = .ok r) ↔ segment.paddr + segment.memsz ≤ 2 ^ 64 - pageSize := by
  rw [Segment.pageRange]
  constructor
  · rintro ⟨r, hr⟩
    obtain ⟨sum, hsum, hr⟩ := Checked.bind_eq_ok.mp hr
    obtain ⟨stop, hstop, -⟩ := Checked.bind_eq_ok.mp hr
    obtain ⟨-, rfl⟩ := addWord_eq_ok_iff.mp hsum
    obtain ⟨hlt, -⟩ := mulWord_eq_ok_iff.mp hstop
    simp only [divCeil, pageSize] at hlt ⊢
    omega
  · intro h
    have hlt : divCeil (segment.paddr + segment.memsz) pageSize * pageSize < 2 ^ 64 := by
      simp only [divCeil, pageSize] at h ⊢
      omega
    rw [addWord_of_lt (by simp only [pageSize] at h; omega), Checked.ok_bind, mulWord_of_lt hlt]
    exact ⟨_, rfl⟩

/-- A page range that has been computed is sound. -/
lemma soundRange_of_pageRange {segment : Segment} (hmem : segment ∈ loads data) {start stop : ℕ}
    (h : segment.pageRange = .ok (start, stop)) : SoundRange segment start stop := by
  obtain ⟨rfl, rfl, -⟩ := pageRange_eq_ok (paddr_lt hmem) h
  exact ⟨dvd_pageStart segment, Dvd.intro_left _ rfl, pageStart_le segment, le_pageStop segment⟩

/-- A round of the loop of `loaded_span`. -/
def spanRound (span : Option (ℕ × ℕ)) (segment : Segment) :
    Fallible SegmentError (Option (ℕ × ℕ)) := do
  let (start, stop) ← segment.pageRange
  match span with
  | none => return some (start, stop)
  | some (low, high) => return some (min low start, max high stop)

lemma loadedSpan_eq (data : Slice UInt8) : loadedSpan data = (do
    let span ← forEach data id none spanRound
    okOr span .badProgramHeaders) := rfl

/-- A round returns an interval if the page range is computed. -/
lemma spanRound_returns {segment : Segment} {r : ℕ × ℕ} (h : segment.pageRange = .ok r)
    (span : Option (ℕ × ℕ)) : ∃ span', Returns (spanRound span segment) (some span') := by
  rw [spanRound, h]
  cases span with
  | none => exact ⟨_, returns_pure.mpr rfl⟩
  | some span => exact ⟨_, returns_pure.mpr rfl⟩

/-- The interval is computed if all page ranges are. -/
lemma exists_loadedSpan (h : Accepted data)
    (hranges : ∀ segment ∈ loads data, ∃ r, segment.pageRange = .ok r) :
    ∃ base stop, Returns (loadedSpan data) (base, stop) := by
  have hround : ∀ segment ∈ loads data, ∀ span, ∃ span',
      Returns (spanRound span segment) (some span') := by
    intro segment hmem span
    obtain ⟨r, hr⟩ := hranges segment hmem
    exact spanRound_returns hr span
  have hloop : ∃ span, Returns ((loads data).foldlM spanRound none) span := by
    refine foldlM_returns (fun segment hmem span => ?_) none
    obtain ⟨span', hspan'⟩ := hround segment hmem span
    exact ⟨some span', hspan'⟩
  obtain ⟨span, hspan⟩ := hloop
  -- after the first round there is an interval
  have hsome : loads data = [] ∨ ∃ r, span = some r := by
    refine foldlM_inv (fun done span => done = [] ∨ ∃ r, span = some r) (.inl rfl) ?_ hspan
    intro done segment rest s s' hl _ hs'
    obtain ⟨r, hr⟩ := hround segment (by rw [hl]; simp) s
    exact .inr ⟨r, Except.ok.inj (Except.ok.inj (hs'.symm.trans hr))⟩
  obtain ⟨⟨base, stop⟩, rfl⟩ := hsome.resolve_left h.nonempty
  have hend := (ending_eq_none_iff h.nonempty).mpr h.inside
  refine ⟨base, stop, ?_⟩
  rw [loadedSpan_eq, returns_bind]
  exact ⟨_, forEach_returns_iff.mpr ⟨h.table, hend, hspan⟩, returns_okOr.mpr rfl⟩

/-! ## The addresses -/

/-- The first page of all segments. -/
def lowestPage (l : List Segment) : ℕ := (l.map Segment.pageStart).min?.getD 0

lemma base_eq_lowestPage {l : List Segment} {base stop : ℕ} (h : Span l base stop) :
    base = lowestPage l := by
  have hmin : (l.map Segment.pageStart).min? = some base := by
    rw [List.min?_eq_some_iff]
    obtain ⟨segment, hmem, rfl⟩ := h.base_mem
    refine ⟨List.mem_map_of_mem hmem, fun page hpage => ?_⟩
    obtain ⟨t, ht, rfl⟩ := List.mem_map.mp hpage
    exact (h.bounds t ht).1
  rw [lowestPage, hmin]
  rfl

/-- An interval that has been computed is sound. -/
lemma soundSpan_of_loadedSpan (h : Accepted data) {base stop : ℕ}
    (hspan : Returns (loadedSpan data) (base, stop)) : SoundSpan (loads data) base stop := by
  have hbounds := loadedSpan_returns hspan
  refine ⟨?_, fun segment hmem start stop' hrange => ?_⟩
  · obtain ⟨t, ht, rfl⟩ := hbounds.base_mem
    calc t.pageStart ≤ t.paddr := pageStart_le t
      _ < t.paddr + t.memsz := Nat.lt_add_of_pos_right (h.fits t ht).memsz_pos
      _ ≤ t.pageStop := le_pageStop t
      _ ≤ stop := (hbounds.bounds t ht).2
  · obtain ⟨rfl, rfl, -⟩ := pageRange_eq_ok (paddr_lt hmem) hrange
    exact hbounds.bounds segment hmem

/-- The condition on the addresses of the segments, the first of which is `first`: no segment ends
in the last page of the address space, and the two signed results are signed words. -/
structure AddressesFit (l : List Segment) (first : Segment) : Prop where
  stop_le : ∀ segment ∈ l, segment.paddr + segment.memsz ≤ 2 ^ 64 - pageSize
  delta : InI64 (asI64 first.vaddr - asI64 first.paddr)
  userVaddr : InI64 (asI64 (lowestPage l) + (asI64 first.vaddr - asI64 first.paddr))

/-- Addresses in the lower half of the address space fit. -/
lemma addressesFit_of_lower (h : Accepted data) {first : Segment} {rest : List Segment}
    (hloads : loads data = first :: rest)
    (hstop : ∀ segment ∈ loads data, segment.paddr + segment.memsz ≤ 2 ^ 63)
    (hvaddr : first.vaddr < 2 ^ 63) : AddressesFit (loads data) first := by
  have hranges : ∀ segment ∈ loads data,
      segment.paddr + segment.memsz ≤ 2 ^ 64 - pageSize := fun segment hmem =>
    (hstop segment hmem).trans (by decide)
  have hfirst : first ∈ loads data := hloads ▸ List.mem_cons_self
  have hpos := (h.fits first hfirst).memsz_pos
  have hpaddr : first.paddr < 2 ^ 63 := by
    have := hstop first hfirst
    omega
  obtain ⟨base, stop, hspan⟩ := exists_loadedSpan h fun segment hmem =>
    pageRange_returns_iff.mpr (hranges segment hmem)
  have hbounds := loadedSpan_returns hspan
  -- the base is below the first segment
  have hbase : base ≤ first.paddr := (hbounds.bounds first hfirst).1.trans (pageStart_le first)
  refine ⟨hranges, ?_, ?_⟩
  · rw [asI64_of_lt hvaddr, asI64_of_lt hpaddr, InI64]
    omega
  · rw [← base_eq_lowestPage hbounds, asI64_of_lt hvaddr, asI64_of_lt hpaddr,
      asI64_of_lt (hbase.trans_lt hpaddr), InI64]
    omega

lemma pageRangesSound_iff (h : Accepted data) {first : Segment} {rest : List Segment}
    (hloads : loads data = first :: rest) :
    PageRangesSound data ↔ AddressesFit (loads data) first := by
  constructor
  · rintro ⟨hranges, base, stop, hspan, -, first', vaddrDelta, userVaddr, hfirst, hdelta, huser⟩
    obtain ⟨-, rest', hcons⟩ := firstSegment_returns_iff.mp hfirst
    obtain ⟨rfl, -⟩ := List.cons.inj (hloads.symm.trans hcons)
    obtain ⟨hin, rfl⟩ := subI64_eq_ok_iff.mp hdelta
    obtain ⟨hin', -⟩ := addI64_eq_ok_iff.mp huser
    rw [base_eq_lowestPage (loadedSpan_returns hspan)] at hin'
    refine ⟨fun segment hmem => ?_, hin, hin'⟩
    obtain ⟨start, stop, hr, -⟩ := hranges segment hmem
    exact pageRange_returns_iff.mp ⟨_, hr⟩
  · rintro ⟨hstop, hdelta, huser⟩
    have hranges := fun segment hmem => pageRange_returns_iff.mpr (hstop segment hmem)
    obtain ⟨base, stop, hspan⟩ := exists_loadedSpan h hranges
    rw [← base_eq_lowestPage (loadedSpan_returns hspan)] at huser
    refine ⟨fun segment hmem => ?_, base, stop, hspan, soundSpan_of_loadedSpan h hspan, first, _, _,
      firstSegment_returns_iff.mpr ⟨h.table, rest, hloads⟩, subI64_eq_ok_iff.mpr ⟨hdelta, rfl⟩,
      addI64_eq_ok_iff.mpr ⟨huser, rfl⟩⟩
    obtain ⟨⟨start, stop⟩, hr⟩ := hranges segment hmem
    exact ⟨start, stop, hr, soundRange_of_pageRange hmem hr⟩

/-- **The pages of an accepted image.**  For every file that passes the checks, all that is computed
from the addresses of its segments is computed without overflow and sound if and only if the
addresses fit.  Page ranges and intervals that are computed are sound in any case.  Addresses in the
lower half of the address space fit. -/
theorem page_ranges_sound_iff (h : Passes data) :
    ∃ first rest, loads data = first :: rest ∧
      (PageRangesSound data ↔ AddressesFit (loads data) first) ∧
      (∀ segment ∈ loads data, ∀ start stop, segment.pageRange = .ok (start, stop) →
        SoundRange segment start stop) ∧
      (∀ base stop, Returns (loadedSpan data) (base, stop) →
        SoundSpan (loads data) base stop) ∧
      ((∀ segment ∈ loads data, segment.paddr + segment.memsz ≤ 2 ^ 63) →
        first.vaddr < 2 ^ 63 → AddressesFit (loads data) first) := by
  have haccepted := passes_iff.mp h
  obtain ⟨first, rest, hloads⟩ := List.exists_cons_of_ne_nil haccepted.nonempty
  exact ⟨first, rest, hloads, pageRangesSound_iff haccepted hloads,
    fun segment hmem start stop hr => soundRange_of_pageRange hmem hr,
    fun base stop hspan => soundSpan_of_loadedSpan haccepted hspan,
    fun hstop hvaddr => addressesFit_of_lower haccepted hloads hstop hvaddr⟩

/-- The pages of the file with one segment. -/
theorem page_ranges_sound_oneSegment : Passes oneSegment ∧ PageRangesSound oneSegment := by
  have hpasses : Passes oneSegment := passes_of_eq_true (by decide +kernel)
  have hloads : loads oneSegment = [⟨120, 0x400000, 0x400000, 2, 4, 5⟩] := by decide +kernel
  obtain ⟨first, rest, hcons, hiff, -, -, hlower⟩ := page_ranges_sound_iff hpasses
  obtain ⟨rfl, -⟩ := List.cons.inj (hloads.symm.trans hcons)
  refine ⟨hpasses, hiff.mpr (hlower ?_ (by norm_num))⟩
  rw [hloads]
  simp

/-- A file whose segment ends in the last page of the address space. -/
def lastPageFile : Slice UInt8 where
  toList := elfBytes 0x400000 [⟨120, 2 ^ 64 - 4096, 0x400000, 2, 4, 5⟩] [0xeb, 0xfe]
  length_lt := by decide +kernel

/-- A file that is loaded in the upper half of the address space and linked in the lower half. -/
def upperHalfFile : Slice UInt8 where
  toList := elfBytes 0x400000 [⟨120, 2 ^ 63, 0x400000, 2, 4, 5⟩] [0xeb, 0xfe]
  length_lt := by decide +kernel

/-- Both files pass the checks.  For the first one the page range overflows, for the second one the
difference of the addresses. -/
theorem accepted_addresses_overflow :
    (Passes lastPageFile ∧ (loadedSpan lastPageFile).run = .error .overflow ∧
      ∃ segment ∈ loads lastPageFile, segment.pageRange = .error .overflow) ∧
    Passes upperHalfFile ∧ ∃ base stop first,
      Returns (loadedSpan upperHalfFile) (base, stop) ∧
      Returns (firstSegment upperHalfFile) first ∧
      subI64 (asI64 first.vaddr) (asI64 first.paddr) = .error .overflow := by
  have hlast : loads lastPageFile = [⟨120, 2 ^ 64 - 4096, 0x400000, 2, 4, 5⟩] := by decide +kernel
  have hspan : Checked.stopsWith (loadedSpan lastPageFile).run .overflow = true := by
    decide +kernel
  have hupper : returnsAnd (loadedSpan upperHalfFile) (fun _ => true) = true := by decide +kernel
  have hfirst : returnsAnd (firstSegment upperHalfFile)
      (fun first => decide (first = ⟨120, 2 ^ 63, 0x400000, 2, 4, 5⟩)) = true := by
    decide +kernel
  obtain ⟨⟨base, stop⟩, hupper, -⟩ := returnsAnd_eq_true_iff.mp hupper
  obtain ⟨first, hfirst, heq⟩ := returnsAnd_eq_true_iff.mp hfirst
  refine ⟨⟨passes_of_eq_true (by decide +kernel), Checked.stopsWith_eq_true_iff.mp hspan, ?_⟩,
    passes_of_eq_true (by decide +kernel), base, stop, first, hupper, hfirst, ?_⟩
  · rw [hlast]
    exact ⟨_, List.mem_singleton_self _, rfl⟩
  · rw [of_decide_eq_true heq]
    rfl

end Bootloader

end ParanukOS
