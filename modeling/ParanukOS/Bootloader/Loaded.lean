import ParanukOS.Bootloader.FsLoader
import ParanukOS.KernelImage.Accepted

/-!
# A loaded image

What the memory holds after the loader has returned.  The loop of the loader keeps an invariant: the
pages asked for are the pages of the segments done, each of them once, the memory elsewhere is as it
was before, and every segment done is there.  A segment done stays there: the pages of later
requests are not among its pages, and the segments have no byte in common.

## Outline

* `Requested`, `requestPages_returns`: asking for pages.
* `copySegment_eq_ok`: copying a segment.
* `Segment.Holds`, `LoadInv`: the invariant; `loadSegment_returns`: one round of the loop.
* `Loaded`, `load_returns`: the state after the loader has returned.
* `load_faithful`: the image is in memory as the file describes it.
-/

namespace ParanukOS

open Foundation Foundation.Fallible KernelImage

namespace Bootloader

variable {φ : Type} {fw : Firmware φ} {data : Slice UInt8}

/-! ## Pages -/

/-- The page of an address. -/
def pageOf (p : ℕ) : ℕ := p / pageSize * pageSize

lemma pageOf_le (p : ℕ) : pageOf p ≤ p := Nat.div_mul_le_self p pageSize

lemma lt_pageOf_add (p : ℕ) : p < pageOf p + pageSize := Nat.lt_div_mul_add (by decide)

/-- The page of an address is the only one that contains it. -/
lemma pageOf_eq_of_mem {page p : ℕ} (hpage : pageSize ∣ page) (hle : page ≤ p)
    (hlt : p < page + pageSize) : pageOf p = page := by
  obtain ⟨k, rfl⟩ := hpage
  have hdiv : p / pageSize = k :=
    Nat.div_eq_of_lt_le (by rwa [mul_comm]) (by rw [Nat.succ_mul, mul_comm k]; exact hlt)
  rw [pageOf, hdiv, mul_comm]

/-- The page is one of the segment's. -/
def HasPage (segment : Segment) (page : ℕ) : Prop :=
  pageSize ∣ page ∧ segment.pageStart ≤ page ∧ page < segment.pageStop

lemma dvd_pageStart (segment : Segment) : pageSize ∣ segment.pageStart := Dvd.intro_left _ rfl

lemma pageStart_le (segment : Segment) : segment.pageStart ≤ segment.paddr :=
  Nat.div_mul_le_self _ _

lemma le_pageStop (segment : Segment) : segment.paddr + segment.memsz ≤ segment.pageStop :=
  le_divCeil_mul _ (by decide)

/-- The pages of the bytes of a segment. -/
lemma hasPage_pageOf {segment : Segment} {p : ℕ} (hle : segment.paddr ≤ p)
    (hlt : p < segment.paddr + segment.memsz) : HasPage segment (pageOf p) :=
  ⟨Dvd.intro_left _ rfl, Nat.mul_le_mul_right _ (Nat.div_le_div_right hle),
    (pageOf_le p).trans_lt (hlt.trans_le (le_pageStop segment))⟩

/-- The pages that the loop over the pages of a segment goes through. -/
lemma hasPage_iff {segment : Segment} {page : ℕ} : HasPage segment page ↔
    ∃ i < divCeil (segment.pageStop - segment.pageStart) pageSize,
      page = segment.pageStart + i * pageSize := by
  rw [HasPage, Segment.pageStart, Segment.pageStop, ← Nat.mul_sub_right_distrib]
  have hcount : ∀ n, divCeil (n * pageSize) pageSize = n := fun n => by
    rw [divCeil, pageSize]
    omega
  rw [hcount]
  constructor
  · rintro ⟨⟨k, rfl⟩, hle, hlt⟩
    rw [mul_comm pageSize k] at hle hlt ⊢
    have hle' := Nat.le_of_mul_le_mul_right hle (by decide)
    have hlt' := Nat.lt_of_mul_lt_mul_right hlt
    refine ⟨k - segment.paddr / pageSize, Nat.sub_lt_sub_right hle' hlt', ?_⟩
    rw [← Nat.add_mul, Nat.add_sub_cancel' hle']
  · rintro ⟨i, hi, rfl⟩
    rw [← Nat.add_mul]
    exact ⟨Dvd.intro_left _ rfl, Nat.mul_le_mul_right _ (Nat.le_add_right _ _),
      Nat.mul_lt_mul_of_pos_right (Nat.add_lt_of_lt_sub' hi) (by decide)⟩

/-! ## Asking for pages -/

/-- The pages asked for since the start of the loader. -/
structure PagesInv (ram : Ram φ) (s : LoadState φ) : Prop where
  pages_eq : s.pages = s.requests
  nodup : s.requests.Nodup
  dvd : ∀ page ∈ s.requests, pageSize ∣ page
  fresh : ∀ page ∈ s.requests, page ∉ ram.allocated
  allocated_eq : s.ram.allocated = ram.allocated ∪ s.requests.toFinset
  memory_eq : ∀ p, pageOf p ∉ s.requests → s.ram.memory p = ram.memory p

/-- Pages have been asked for, and only their contents have changed. -/
structure Requested (s s' : LoadState φ) (new : ℕ → Prop) : Prop where
  writes_eq : s'.writes = s.writes
  mem_iff : ∀ page, page ∈ s'.requests ↔ page ∈ s.requests ∨ new page
  memory_eq : ∀ p, pageOf p ∈ s.requests → s'.ram.memory p = s.ram.memory p

lemma requestPage_returns {ram : Ram φ} {s s' : LoadState φ} (hs : PagesInv ram s) {page : ℕ}
    (hpage : pageSize ∣ page) (h : Returns (requestPage fw s page) s') :
    PagesInv ram s' ∧ Requested s s' (· = page) := by
  rw [requestPage, hs.pages_eq] at h
  split_ifs at h with hmem
  · obtain rfl := returns_pure.mp h
    refine ⟨hs, rfl, fun p => ⟨.inl, ?_⟩, fun p _ => rfl⟩
    rintro (hp | rfl)
    exacts [hp, hmem]
  obtain ⟨-, -, h⟩ := returns_bind.mp h
  cases halloc : fw.allocatePages s.ram page with
  | error status =>
    rw [halloc] at h
    exact absurd h not_returns_throw
  | ok ram' =>
    rw [halloc] at h
    obtain rfl := returns_pure.mp h
    have hfresh := fw.notMem_of_ok _ _ _ halloc
    rw [hs.allocated_eq, Finset.mem_union, not_or] at hfresh
    -- the page asked for contains no address of another page
    have hmemory : ∀ p, pageOf p ≠ page → ram'.memory p = s.ram.memory p := by
      intro p hp
      refine fw.memory_of_ok _ _ _ halloc p ?_
      by_contra hcon
      rw [not_or, not_lt, not_le] at hcon
      exact hp (pageOf_eq_of_mem hpage hcon.1 hcon.2)
    refine ⟨⟨?_, ?_, ?_, ?_, ?_, ?_⟩, rfl, ?_, ?_⟩
    · rfl
    · exact hs.nodup.append (List.nodup_singleton _) (List.disjoint_singleton.mpr hmem)
    · intro p hp
      rcases List.mem_append.mp hp with hp | hp
      · exact hs.dvd p hp
      · rwa [List.mem_singleton.mp hp]
    · intro p hp
      rcases List.mem_append.mp hp with hp | hp
      · exact hs.fresh p hp
      · rw [List.mem_singleton.mp hp]
        exact hfresh.1
    · rw [fw.allocated_of_ok _ _ _ halloc, hs.allocated_eq, List.toFinset_append]
      ext p
      simp only [Finset.mem_insert, Finset.mem_union, List.mem_toFinset, List.mem_singleton]
      tauto
    · intro p hp
      rw [List.mem_append, List.mem_singleton, not_or] at hp
      exact (hmemory p hp.2).trans (hs.memory_eq p hp.1)
    · intro p
      rw [List.mem_append, List.mem_singleton]
    · intro p hp
      refine hmemory p ?_
      rintro rfl
      exact hmem hp

lemma requestPages_returns {ram : Ram φ} {n : ℕ} : ∀ {s s' : LoadState φ} {page : ℕ},
    PagesInv ram s → pageSize ∣ page → Returns (requestPages fw n page s) s' →
    PagesInv ram s' ∧ Requested s s' (fun p => ∃ i < n, p = page + i * pageSize) := by
  induction n with
  | zero =>
    intro s s' page hs _ h
    obtain rfl := returns_pure.mp h
    exact ⟨hs, rfl, fun p => by simp, fun p _ => rfl⟩
  | succ n ih =>
    intro s s' page hs hpage h
    rw [requestPages] at h
    obtain ⟨s₁, h₁, h⟩ := returns_bind.mp h
    obtain ⟨next, hnext, h⟩ := returns_bind.mp h
    obtain ⟨-, rfl⟩ := addWord_eq_ok_iff.mp (returns_lift.mp hnext)
    obtain ⟨hs₁, hreq₁⟩ := requestPage_returns hs hpage h₁
    obtain ⟨hs', hreq⟩ := ih hs₁ (Nat.dvd_add_self_right.mpr hpage) h
    refine ⟨hs', hreq.writes_eq.trans hreq₁.writes_eq, fun p => ?_, fun p hp => ?_⟩
    · rw [hreq.mem_iff, hreq₁.mem_iff, or_assoc]
      refine or_congr_right ⟨?_, ?_⟩
      · rintro (rfl | ⟨i, hi, rfl⟩)
        · exact ⟨0, Nat.succ_pos n, by rw [Nat.zero_mul, Nat.add_zero]⟩
        · exact ⟨i + 1, Nat.succ_lt_succ hi, by rw [Nat.succ_mul]; omega⟩
      · rintro ⟨i, hi, rfl⟩
        cases i with
        | zero => exact .inl (by rw [Nat.zero_mul, Nat.add_zero])
        | succ i => exact .inr ⟨i, Nat.lt_of_succ_lt_succ hi, by rw [Nat.succ_mul]; omega⟩
    · rw [hreq.memory_eq p ((hreq₁.mem_iff _).mpr (.inl hp)), hreq₁.memory_eq p hp]

/-! ## Copying a segment -/

/-- The memory holds the segment: the bytes of the file, and zeros after them. -/
structure Holds (data : Slice UInt8) (memory : ℕ → UInt8) (segment : Segment) : Prop where
  file : ∀ i < segment.filesz, data.get? (segment.offset + i) = some (memory (segment.paddr + i))
  bss : ∀ i, segment.filesz ≤ i → i < segment.memsz → memory (segment.paddr + i) = 0

/-- A segment stays in memory as long as its bytes are not changed. -/
lemma Holds.congr {memory memory' : ℕ → UInt8} {segment : Segment} (h : Holds data memory segment)
    (hle : segment.filesz ≤ segment.memsz)
    (heq : ∀ i < segment.memsz, memory' (segment.paddr + i) = memory (segment.paddr + i)) :
    Holds data memory' segment := by
  constructor
  · intro i hi
    rw [heq i (hi.trans_le hle)]
    exact h.file i hi
  · intro i hi hi'
    rw [heq i hi']
    exact h.bss i hi hi'

/-- The segment has been copied, and nothing else has changed. -/
structure Copied (data : Slice UInt8) (segment : Segment) (s s' : LoadState φ) : Prop where
  pages_eq : s'.pages = s.pages
  requests_eq : s'.requests = s.requests
  allocated_eq : s'.ram.allocated = s.ram.allocated
  writes : ∀ write ∈ s'.writes, write ∈ s.writes ∨
    segment.paddr ≤ write.1 ∧ write.1 + write.2 ≤ segment.paddr + segment.memsz
  holds : Holds data s'.ram.memory segment
  memory_eq : ∀ p, p < segment.paddr ∨ segment.paddr + segment.memsz ≤ p →
    s'.ram.memory p = s.ram.memory p

lemma copyBytes_of_lt {memory : ℕ → UInt8} {address i : ℕ} {bytes : List UInt8} {b : UInt8}
    (h : bytes[i]? = some b) : copyBytes memory address bytes (address + i) = b := by
  rw [copyBytes, if_pos (Nat.le_add_right _ _), Nat.add_sub_cancel_left, h]
  rfl

lemma copyBytes_of_notMem {memory : ℕ → UInt8} {address p : ℕ} {bytes : List UInt8}
    (h : p < address ∨ address + bytes.length ≤ p) :
    copyBytes memory address bytes p = memory p := by
  unfold copyBytes
  split_ifs with hle
  · have hlen : bytes.length ≤ p - address :=
      Nat.le_sub_of_add_le' (h.resolve_left (not_lt.mpr hle))
    rw [List.getElem?_eq_none hlen]
    rfl
  · rfl

lemma zeroBytes_of_notMem {memory : ℕ → UInt8} {address len p : ℕ}
    (h : p < address ∨ address + len ≤ p) : zeroBytes memory address len p = memory p := by
  refine if_neg ?_
  rintro ⟨hle, hlt⟩
  exact h.elim (not_lt.mpr hle) (not_le.mpr hlt)

/-- The memory after the two writes of `copySegment`. -/
lemma holds_zeroBytes_copyBytes {memory : ℕ → UInt8} {segment : Segment} {bytes : List UInt8}
    (hbytes : data.range? segment.offset segment.filesz = some bytes)
    (hle : segment.filesz ≤ segment.memsz) :
    Holds data (zeroBytes (copyBytes memory segment.paddr bytes) (segment.paddr + segment.filesz)
      (segment.memsz - segment.filesz)) segment := by
  constructor
  · intro i hi
    rw [zeroBytes_of_notMem (.inl (Nat.add_lt_add_left hi _))]
    have hget := Slice.getElem?_range? hbytes i
    rw [if_pos hi] at hget
    have hlt : i < bytes.length := by rwa [Slice.length_range? hbytes]
    rw [← hget, copyBytes_of_lt (List.getElem?_eq_getElem hlt), List.getElem?_eq_getElem hlt]
  · intro i hi hi'
    refine if_pos ⟨Nat.add_le_add_left hi _, ?_⟩
    omega

lemma zeroBytes_zero (memory : ℕ → UInt8) (address : ℕ) : zeroBytes memory address 0 = memory :=
  funext fun p => zeroBytes_of_notMem (lt_or_ge p address)

lemma copySegment_eq_ok {s s' : LoadState φ} {segment : Segment} (hfits : segment.Fits data)
    (h : copySegment data s segment = .ok s') : Copied data segment s s' := by
  rw [copySegment] at h
  obtain ⟨fileEnd, hend, h⟩ := Checked.bind_eq_ok.mp h
  obtain ⟨-, rfl⟩ := addWord_eq_ok_iff.mp hend
  rw [subWord_of_le (Nat.le_add_right _ _), Checked.ok_bind, Nat.add_sub_cancel_left] at h
  obtain ⟨bytes, hread, h⟩ := Checked.bind_eq_ok.mp h
  rw [subWord_of_le hfits.filesz_le, Checked.ok_bind] at h
  have hbytes : data.range? segment.offset segment.filesz = some bytes := by
    rw [readBytes] at hread
    split at hread
    · next heq => rw [heq, Except.ok.inj hread]
    · cases hread
  have hholds := @holds_zeroBytes_copyBytes data s.ram.memory segment bytes hbytes hfits.filesz_le
  have houtside : ∀ p, p < segment.paddr ∨ segment.paddr + segment.memsz ≤ p →
      zeroBytes (copyBytes s.ram.memory segment.paddr bytes) (segment.paddr + segment.filesz)
        (segment.memsz - segment.filesz) p = s.ram.memory p := by
    intro p hp
    have hle := hfits.filesz_le
    have hlen := Slice.length_range? hbytes
    rw [zeroBytes_of_notMem (by omega), copyBytes_of_notMem (by omega)]
  have hcopy : ∀ write ∈ s.writes ++ [(segment.paddr, segment.filesz)], write ∈ s.writes ∨
      segment.paddr ≤ write.1 ∧ write.1 + write.2 ≤ segment.paddr + segment.memsz := by
    intro write hwrite
    refine (List.mem_append.mp hwrite).imp_right fun hwrite => ?_
    rw [List.mem_singleton.mp hwrite]
    exact ⟨le_rfl, Nat.add_le_add_left hfits.filesz_le _⟩
  split_ifs at h with hbss
  · obtain rfl := Except.ok.inj h
    refine ⟨rfl, rfl, rfl, fun write hwrite => ?_, hholds, houtside⟩
    rcases List.mem_append.mp hwrite with hwrite | hwrite
    · exact hcopy write hwrite
    · rw [List.mem_singleton.mp hwrite]
      exact .inr ⟨Nat.le_add_right _ _, by rw [Nat.add_assoc, Nat.add_sub_cancel' hfits.filesz_le]⟩
  · -- without a bss the second write is missing, and would have done nothing
    obtain rfl := Except.ok.inj h
    rw [Nat.eq_zero_of_not_pos hbss, zeroBytes_zero] at hholds houtside
    exact ⟨rfl, rfl, rfl, hcopy, hholds, houtside⟩

/-! ## The loop -/

/-- The state after some of the segments. -/
structure LoadInv (data : Slice UInt8) (ram : Ram φ) (done : List Segment) (s : LoadState φ) :
    Prop where
  pages : PagesInv ram s
  mem_iff : ∀ page, page ∈ s.requests ↔ ∃ segment ∈ done, HasPage segment page
  writes : ∀ write ∈ s.writes, ∀ i < write.2, pageOf (write.1 + i) ∈ s.requests
  holds : ∀ segment ∈ done, Holds data s.ram.memory segment

lemma loadSegment_returns {ram : Ram φ} {done : List Segment} {s s' : LoadState φ}
    {segment : Segment} (hs : LoadInv data ram done s)
    (hfits : ∀ t ∈ done ++ [segment], t.Fits data) (hapart : ∀ t ∈ done, t.Apart segment)
    (h : Returns (loadSegment fw data s segment) s') : LoadInv data ram (done ++ [segment]) s' := by
  have hself := hfits segment (List.mem_append_right _ (List.mem_singleton_self _))
  rw [loadSegment, returns_bind] at h
  obtain ⟨⟨start, stop⟩, hrange, h⟩ := h
  obtain ⟨rfl, rfl, -⟩ :=
    pageRange_eq_ok ((Nat.le_add_right _ _).trans_lt hself.stop_lt) (returns_lift.mp hrange)
  obtain ⟨s₁, hpages, h⟩ := returns_bind.mp h
  obtain ⟨hs₁, hreq⟩ := requestPages_returns hs.pages (dvd_pageStart segment) hpages
  have hcopied := copySegment_eq_ok hself (returns_lift.mp h)
  have hmem : ∀ page, page ∈ s'.requests ↔ ∃ t ∈ done ++ [segment], HasPage t page := by
    intro page
    rw [hcopied.requests_eq, hreq.mem_iff, hs.mem_iff, ← hasPage_iff]
    simp [or_and_right, exists_or]
  have hpage : ∀ p, segment.paddr ≤ p → p < segment.paddr + segment.memsz →
      pageOf p ∈ s'.requests := fun p hle hlt =>
    (hmem _).mpr ⟨segment, List.mem_append_right _ (List.mem_singleton_self _),
      hasPage_pageOf hle hlt⟩
  refine ⟨⟨?_, ?_, ?_, ?_, ?_, ?_⟩, hmem, ?_, ?_⟩
  · rw [hcopied.pages_eq, hcopied.requests_eq, hs₁.pages_eq]
  · rw [hcopied.requests_eq]
    exact hs₁.nodup
  · rw [hcopied.requests_eq]
    exact hs₁.dvd
  · rw [hcopied.requests_eq]
    exact hs₁.fresh
  · rw [hcopied.allocated_eq, hcopied.requests_eq, hs₁.allocated_eq]
  · intro p hp
    rw [hcopied.memory_eq p ?_]
    · rw [hcopied.requests_eq] at hp
      exact hs₁.memory_eq p hp
    · by_contra hcon
      rw [not_or, not_lt, not_le] at hcon
      exact hp (hpage p hcon.1 hcon.2)
  · intro write hwrite i hi
    rcases hcopied.writes write hwrite with hold | ⟨hle, hstop⟩
    · rw [hreq.writes_eq] at hold
      rw [hcopied.requests_eq, hreq.mem_iff]
      exact .inl (hs.writes write hold i hi)
    · exact hpage _ (hle.trans (Nat.le_add_right _ _))
        ((Nat.add_lt_add_left hi _).trans_le hstop)
  · intro t ht
    rcases List.mem_append.mp ht with hdone | hlast
    · refine (hs.holds t hdone).congr (hfits t ht).filesz_le fun i hi => ?_
      have hlt : t.paddr + i < t.paddr + t.memsz := Nat.add_lt_add_left hi _
      -- the new segment does not touch the byte, and its page was there before
      rw [hcopied.memory_eq _ ((hapart t hdone).imp hlt.trans_le (·.trans (Nat.le_add_right _ _))),
        hreq.memory_eq]
      exact (hs.mem_iff _).mpr ⟨t, hdone, hasPage_pageOf (Nat.le_add_right _ _) hlt⟩
    · rw [List.mem_singleton.mp hlast]
      exact hcopied.holds

/-! ## The loader -/

/-- The first segment is the first one of those to be loaded. -/
lemma firstSegment_returns_iff {first : Segment} : Returns (firstSegment data) first ↔
    HasTable data ∧ ∃ rest, loads data = first :: rest := by
  by_cases htable : HasTable data
  swap
  · rw [firstSegment, segments_of_not_hasTable htable]
    simp [htable]
  rw [firstSegment, segments_of_hasTable htable, pure_bind, startOf, SegmentIter.next]
  rcases nextFrom_cases data (walk_start data) with
    ⟨hnil, iter, heq⟩ | ⟨segment, n', i', heq, -, -, hcons, -⟩
  · have hnil : loads data = [] := hnil
    rw [heq, lift_ok, pure_bind, hnil]
    cases ending : endingFrom data (wordAt data ePhoffOffset 8) (wordAt data ePhentsizeOffset 2)
      (wordAt data ePhnumOffset 2) 0 <;> simp [okOr]
  · have hcons : loads data = segment :: loadsFrom data (wordAt data ePhoffOffset 8)
        (wordAt data ePhentsizeOffset 2) n' i' := hcons
    rw [heq, lift_ok, pure_bind, hcons]
    simp [okOr, htable]

/-- The number is a signed word. -/
def InI64 (x : ℤ) : Prop := -2 ^ 63 ≤ x ∧ x < 2 ^ 63

/-- The check of signed arithmetic. -/
lemma checkI64_eq_ok_iff {x c : ℤ} :
    (if -2 ^ 63 ≤ x ∧ x < 2 ^ 63 then .ok x else .error .overflow : Checked ℤ) = .ok c ↔
      InI64 x ∧ c = x := by
  by_cases h : -2 ^ 63 ≤ x ∧ x < 2 ^ 63
  · rw [if_pos h]
    exact ⟨fun hc => ⟨h, (Except.ok.inj hc).symm⟩, fun hc => by rw [hc.2]⟩
  · rw [if_neg h]
    refine ⟨fun hc => ?_, fun hc => absurd hc.1 h⟩
    cases hc

lemma subI64_eq_ok_iff {a b c : ℤ} : subI64 a b = .ok c ↔ InI64 (a - b) ∧ c = a - b :=
  checkI64_eq_ok_iff

/-- An image has been loaded from a file. -/
structure Loaded (data : Slice UInt8) (ram : Ram φ) (kernel : LoadedKernel) (s : LoadState φ) :
    Prop where
  fits : ∀ segment ∈ loads data, segment.Fits data
  apart : (loads data).Pairwise Segment.Apart
  entry_eq : kernel.entry = wordAt data eEntryOffset 8
  enters : ∃ segment ∈ loads data, segment.Enters kernel.entry
  span : Span (loads data) kernel.base (kernel.base + kernel.size)
  first : ∃ first rest, loads data = first :: rest ∧
    kernel.vaddrDelta = asI64 first.vaddr - asI64 first.paddr
  state : LoadInv data ram (loads data) s

theorem load_returns {ram : Ram φ} {kernel : LoadedKernel} {s : LoadState φ}
    (h : Returns (load fw (.ok data) ram) (kernel, s)) : Loaded data ram kernel s := by
  simp only [load, returns_bind, returns_mapError, returns_lift, returns_pure] at h
  obtain ⟨entry, hentry, count, hcount, _, hoverlap, _, henters, ⟨base, stop⟩, hspan, first, hfirst,
    delta, hdelta, s', hloop, size, hsize, h⟩ := h
  obtain ⟨rfl, rfl⟩ := Prod.mk.inj h
  obtain ⟨-, -, hfits, -⟩ := checkSegments_returns_iff.mp hcount
  obtain ⟨-, -, -, hapart, -⟩ := checkNoOverlap_returns_iff.mp hoverlap
  have hbounds := loadedSpan_returns hspan
  obtain ⟨-, rest, hcons⟩ := firstSegment_returns_iff.mp hfirst
  have hstate : LoadInv data ram (loads data) s' := by
    refine foldlM_inv (LoadInv data ram) ⟨⟨rfl, ?_, ?_, ?_, ?_, ?_⟩, ?_, ?_, ?_⟩ ?_
      (forEach_returns hloop)
    · exact List.nodup_nil
    · exact fun _ hmem => absurd hmem List.not_mem_nil
    · exact fun _ hmem => absurd hmem List.not_mem_nil
    · exact (Finset.union_empty _).symm
    · exact fun _ _ => rfl
    · simp
    · exact fun _ hmem => absurd hmem List.not_mem_nil
    · exact fun _ hmem => absurd hmem List.not_mem_nil
    · intro done segment rest s s' hl hdone hbody
      have hsub : ∀ t ∈ done ++ [segment], t ∈ loads data := by
        intro t ht
        rw [hl, List.append_cons]
        exact List.mem_append_left _ ht
      rw [hl] at hapart
      exact loadSegment_returns hdone (fun t ht => hfits t (hsub t ht))
        (fun t ht => (List.pairwise_append.mp hapart).2.2 t ht _ List.mem_cons_self) hbody
  have hle : base ≤ stop := by
    obtain ⟨t, ht, rfl⟩ := hbounds.base_mem
    calc t.pageStart ≤ t.paddr + t.memsz := (pageStart_le t).trans (Nat.le_add_right _ _)
      _ ≤ t.pageStop := le_pageStop t
      _ ≤ stop := (hbounds.bounds t ht).2
  rw [subWord_of_le hle] at hsize
  obtain rfl := Except.ok.inj hsize
  refine ⟨hfits, hapart, (validate_returns_iff.mp hentry).2,
    (checkEntry_returns_iff.mp henters).2.exists_enters, ?_,
    ⟨first, rest, hcons, (subI64_eq_ok_iff.mp hdelta).2⟩, hstate⟩
  rw [Nat.add_sub_cancel' hle]
  exact hbounds

/-- Loading is faithful: after the loader has returned, the memory holds every segment of the file.
All bytes written lie in pages that have been allocated for the image, none of them twice, and the
memory elsewhere has not changed. -/
theorem load_faithful {ram : Ram φ} {kernel : LoadedKernel} {s : LoadState φ}
    (h : Returns (load fw (.ok data) ram) (kernel, s)) :
    (∀ segment ∈ loads data, Holds data s.ram.memory segment) ∧
    (∀ write ∈ s.writes, ∀ i < write.2, pageOf (write.1 + i) ∈ s.requests) ∧
    (∀ p, pageOf p ∉ s.requests → s.ram.memory p = ram.memory p) ∧
    s.requests.Nodup ∧
    (∀ page ∈ s.requests, page ∉ ram.allocated ∧ page ∈ s.ram.allocated) ∧
    ∀ segment ∈ loads data,
      kernel.base ≤ segment.paddr ∧ segment.paddr + segment.memsz ≤ kernel.base + kernel.size := by
  have hloaded := load_returns h
  have hpages := hloaded.state.pages
  refine ⟨hloaded.state.holds, hloaded.state.writes, hpages.memory_eq, hpages.nodup, ?_, ?_⟩
  · intro page hpage
    rw [hpages.allocated_eq]
    exact ⟨hpages.fresh page hpage, Finset.mem_union_right _ (List.mem_toFinset.mpr hpage)⟩
  · intro segment hsegment
    obtain ⟨hbase, hstop⟩ := hloaded.span.bounds segment hsegment
    exact ⟨hbase.trans (pageStart_le segment), (le_pageStop segment).trans hstop⟩

/-- A firmware that allocates every page that is not allocated, and otherwise the pages behind all
others. -/
def grantFirmware : Firmware Unit where
  allocatePages ram page :=
    if page ∈ ram.allocated then .error 9
    else .ok { ram with allocated := insert page ram.allocated }
  notMem_of_ok ram page ram' h hmem := by
    rw [if_pos hmem] at h
    cases h
  allocated_of_ok ram page ram' h := by
    split_ifs at h
    rw [← Except.ok.inj h]
  memory_of_ok ram page ram' h p _ := by
    split_ifs at h
    rw [← Except.ok.inj h]
  allocateAny ram count :=
    let base := (ram.allocated.sup id / pageSize + 1) * pageSize
    .ok (base, { ram with
      allocated := ram.allocated ∪ (Finset.range count).image fun i => base + i * pageSize })
  dvd_of_any ram count base ram' h := by
    obtain ⟨rfl, -⟩ := Prod.mk.inj (Except.ok.inj h)
    exact Dvd.intro_left _ rfl
  notMem_of_any ram count base ram' h i _ hmem := by
    obtain ⟨rfl, -⟩ := Prod.mk.inj (Except.ok.inj h)
    have hle : (ram.allocated.sup id / pageSize + 1) * pageSize + i * pageSize ≤
        ram.allocated.sup id := Finset.le_sup (f := id) hmem
    simp only [pageSize] at hle
    omega
  allocated_of_any ram count base ram' h := by
    obtain ⟨rfl, rfl⟩ := Prod.mk.inj (Except.ok.inj h)
    rfl

/-- A machine without allocated pages. -/
def freshRam : Ram Unit := ⟨fun _ => 0xaa, ∅, ()⟩

/-- A file with two segments that share a page. -/
def sharedPage : Slice UInt8 where
  toList := elfBytes 0x400000
    [⟨176, 0x400000, 0x400000, 2, 4, 5⟩, ⟨178, 0x400008, 0x400008, 1, 0x1000, 6⟩] [0xeb, 0xfe, 7]
  length_lt := by decide +kernel

theorem load_faithful_sharedPage : ∃ kernel s,
    Returns (load grantFirmware (.ok sharedPage) freshRam) (kernel, s) ∧
    s.requests = [0x400000, 0x401000] ∧
    ∀ segment ∈ loads sharedPage, Holds sharedPage s.ram.memory segment := by
  have hload : (load grantFirmware (.ok sharedPage) freshRam).returnsAnd
      (fun r => r.2.requests = [0x400000, 0x401000]) = true := by
    decide +kernel
  obtain ⟨⟨kernel, s⟩, hreturns, hrequests⟩ := returnsAnd_eq_true_iff.mp hload
  exact ⟨kernel, s, hreturns, of_decide_eq_true hrequests, (load_faithful hreturns).1⟩

end Bootloader

end ParanukOS
