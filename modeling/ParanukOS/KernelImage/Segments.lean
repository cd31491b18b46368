import ParanukOS.KernelImage.Model

/-!
# The segments of an image

The functions of the loader run over the program headers with an iterator that parses as it goes.
`loads` is the list of the segments that the file describes, and a loop over the iterator is a loop
over this list.  The program headers of a file may lie outside of it; `ending` is the error that the
iterator returns for the first of them.

## Outline

* `loadAt`, `loads`: the segments of the file.
* `nextFrom_cases`, `forEach_of_hasTable`: loops over the iterator are loops over the list.
* `loadedSpan_returns`: the pages of all segments.
-/

namespace ParanukOS

open Foundation Foundation.Fallible

namespace KernelImage

variable {data : Slice UInt8} {ε σ : Type}

/-! ## Reading words -/

/-- The word of `n` bytes at an offset, and 0 outside of the file. -/
def wordAt (data : Slice UInt8) (offset n : ℕ) : ℕ := (data.leWord? offset n).getD 0

lemma readWord_of_le {offset n : ℕ} (h : offset + n ≤ data.length) :
    readWord data offset n = .ok (wordAt data offset n) := by
  rw [readWord, readBytes, wordAt, Slice.leWord?, Slice.range?_of_le h]
  rfl

lemma wordAt_lt (data : Slice UInt8) (offset n : ℕ) : wordAt data offset n < 256 ^ n := by
  rw [wordAt]
  cases h : data.leWord? offset n with
  | none => exact Nat.pow_pos (by norm_num)
  | some v => exact Slice.leWord?_lt h

/-- The segment that the program header at an offset describes. -/
def segmentAt (data : Slice UInt8) (entry : ℕ) : Segment where
  offset := wordAt data (entry + pOffsetOffset) 8
  paddr := wordAt data (entry + pPaddrOffset) 8
  vaddr := wordAt data (entry + pVaddrOffset) 8
  filesz := wordAt data (entry + pFileszOffset) 8
  memsz := wordAt data (entry + pMemszOffset) 8
  flags := wordAt data (entry + pFlagsOffset) 4

/-- A program header inside of the file is read. -/
lemma readSegment_of_le {entry : ℕ} (h : entry + phdrLen ≤ data.length) :
    readSegment data entry = .ok (segmentAt data entry) := by
  have hword : ∀ {offset n}, offset + n ≤ phdrLen →
      readWord data (entry + offset) n = .ok (wordAt data (entry + offset) n) :=
    fun hle => readWord_of_le (by omega)
  unfold readSegment readU64 readU32
  rw [hword (by decide), Checked.ok_bind, hword (by decide), Checked.ok_bind, hword (by decide),
    Checked.ok_bind, hword (by decide), Checked.ok_bind, hword (by decide), Checked.ok_bind,
    hword (by decide), Checked.ok_bind]
  rfl

/-! ## The list of segments -/

/-- The segment with the number `i` of a table of program headers, if it is one to be loaded. -/
def loadAt (data : Slice UInt8) (tableOffset entrySize i : ℕ) : Option Segment :=
  let entry := tableOffset + i * entrySize
  if entry + phdrLen ≤ data.length ∧ wordAt data (entry + pTypeOffset) 4 = ptLoad then
    some (segmentAt data entry)
  else none

/-- The segments with `n` numbers from `i` on. -/
def loadsFrom (data : Slice UInt8) (tableOffset entrySize n i : ℕ) : List Segment :=
  (List.range' i n).filterMap (loadAt data tableOffset entrySize)

/-- The segments of a file. -/
def loads (data : Slice UInt8) : List Segment :=
  loadsFrom data (wordAt data ePhoffOffset 8) (wordAt data ePhentsizeOffset 2)
    (wordAt data ePhnumOffset 2) 0

lemma loadsFrom_succ (data : Slice UInt8) (tableOffset entrySize n i : ℕ) :
    loadsFrom data tableOffset entrySize (n + 1) i =
      (loadAt data tableOffset entrySize i).toList ++
        loadsFrom data tableOffset entrySize n (i + 1) := by
  rw [loadsFrom, List.range'_succ, List.filterMap_cons]
  cases loadAt data tableOffset entrySize i <;> rfl

/-- A program header that lies outside of the file is followed by no other one. -/
lemma loadsFrom_eq_nil {tableOffset entrySize i : ℕ}
    (h : data.length < tableOffset + i * entrySize + phdrLen) (n : ℕ) :
    loadsFrom data tableOffset entrySize n i = [] := by
  refine List.filterMap_eq_nil_iff.mpr fun j hj => ?_
  obtain ⟨hle, -⟩ := List.mem_range'_1.mp hj
  have hmul : i * entrySize ≤ j * entrySize := Nat.mul_le_mul_right _ hle
  refine if_neg ?_
  rintro ⟨hfits, -⟩
  omega

/-- How the iterator ends after the segments: with nothing, or with an error for the first program
header outside of the file.  There is no error when the sum of its offset and its length is not a
word. -/
def endingFrom (data : Slice UInt8) (tableOffset entrySize : ℕ) : ℕ → ℕ → Option SegmentError
  | 0, _ => none
  | n + 1, i =>
    let stop := tableOffset + i * entrySize + phdrLen
    if 2 ^ 64 ≤ stop then none
    else if data.length < stop then some .badProgramHeaders
    else endingFrom data tableOffset entrySize n (i + 1)

/-- The end of the iterator of a file. -/
def ending (data : Slice UInt8) : Option SegmentError :=
  endingFrom data (wordAt data ePhoffOffset 8) (wordAt data ePhentsizeOffset 2)
    (wordAt data ePhnumOffset 2) 0

/-- The iterator is at the program header `i`, and `n` are left. -/
structure Walk (tableOffset entrySize n i : ℕ) : Prop where
  entry_lt : tableOffset + i * entrySize < 2 ^ 64
  size_lt : entrySize < 2 ^ 16
  count_lt : i + n < 2 ^ 16

/-- The next program header follows one inside of the file. -/
lemma Walk.succ {tableOffset entrySize n i : ℕ} (h : Walk tableOffset entrySize (n + 1) i)
    (hle : tableOffset + i * entrySize + phdrLen ≤ data.length) :
    Walk tableOffset entrySize n (i + 1) := by
  have hlen := data.length_lt'
  have hsize := h.size_lt
  have hcount := h.count_lt
  refine ⟨?_, hsize, by omega⟩
  rw [Nat.succ_mul]
  omega

/-- What a call of `next` returns: the end, or the first segment of those left. -/
lemma nextFrom_cases (data : Slice UInt8) {tableOffset entrySize n : ℕ} :
    ∀ {i : ℕ}, Walk tableOffset entrySize n i →
    (loadsFrom data tableOffset entrySize n i = [] ∧ ∃ iter,
      nextFrom data tableOffset entrySize n i =
        .ok ((endingFrom data tableOffset entrySize n i).map .error, iter)) ∨
    ∃ segment n' i', nextFrom data tableOffset entrySize n i =
        .ok (some (.ok segment), ⟨data, tableOffset, entrySize, n', i'⟩) ∧
      n' < n ∧ Walk tableOffset entrySize n' i' ∧
      loadsFrom data tableOffset entrySize n i =
        segment :: loadsFrom data tableOffset entrySize n' i' ∧
      endingFrom data tableOffset entrySize n i =
        endingFrom data tableOffset entrySize n' i' := by
  induction n with
  | zero => exact fun _ => .inl ⟨rfl, _, rfl⟩
  | succ n ih =>
    intro i h
    have hentry := h.entry_lt
    have hcount := h.count_lt
    have hlen := data.length_lt'
    rw [nextFrom, endingFrom, addU16_of_lt (by omega), Checked.ok_bind,
      mulWord_of_lt (by omega), Checked.ok_bind, addWord_of_lt hentry, Checked.ok_bind]
    by_cases hsilent : 2 ^ 64 ≤ tableOffset + i * entrySize + phdrLen
    · rw [checkedAdd_eq_none_iff.mpr hsilent, if_pos hsilent]
      exact .inl ⟨loadsFrom_eq_nil (by omega) _, _, rfl⟩
    rw [checkedAdd_of_lt (not_le.mp hsilent), if_neg hsilent]
    simp only
    by_cases hout : data.length < tableOffset + i * entrySize + phdrLen
    · rw [if_pos hout, if_pos hout]
      exact .inl ⟨loadsFrom_eq_nil hout _, _, rfl⟩
    have hinside := not_lt.mp hout
    have hkind : readU32 data (tableOffset + i * entrySize + pTypeOffset) =
        .ok (wordAt data (tableOffset + i * entrySize + pTypeOffset) 4) := by
      apply readWord_of_le
      simp only [pTypeOffset, phdrLen] at hinside ⊢
      omega
    rw [if_neg hout, if_neg hout, hkind, Checked.ok_bind, loadsFrom_succ]
    by_cases hload : wordAt data (tableOffset + i * entrySize + pTypeOffset) 4 = ptLoad
    · have hsome : loadAt data tableOffset entrySize i =
          some (segmentAt data (tableOffset + i * entrySize)) := if_pos ⟨hinside, hload⟩
      rw [if_neg (not_not.mpr hload), readSegment_of_le hinside, hsome]
      exact .inr ⟨_, n, i + 1, rfl, Nat.lt_succ_self n, h.succ hinside, rfl, rfl⟩
    · -- a program header of another type
      have hnone : loadAt data tableOffset entrySize i = none := if_neg fun hcon => hload hcon.2
      rw [if_pos hload, hnone]
      rcases ih (h.succ hinside) with hend | ⟨segment, n', i', heq, hlt, hrest⟩
      · exact .inl hend
      · exact .inr ⟨segment, n', i', heq, Nat.lt_succ_of_lt hlt, hrest⟩

/-- The end of a loop over the segments. -/
def finish (ofError : SegmentError → ε) (e : Option SegmentError) (s : σ) : Fallible ε σ :=
  match e with
  | none => return s
  | some e => throw (ofError e)

/-- A loop over the iterator is a loop over the list of segments, with the end of the iterator
behind it. -/
lemma forEachFrom_eq {ofError : SegmentError → ε} {body : σ → Segment → Fallible ε σ}
    {tableOffset entrySize n : ℕ} : ∀ {k i : ℕ} {s : σ}, k ≤ n → Walk tableOffset entrySize k i →
    forEachFrom ofError body n ⟨data, tableOffset, entrySize, k, i⟩ s =
      (loadsFrom data tableOffset entrySize k i).foldlM body s >>=
        finish ofError (endingFrom data tableOffset entrySize k i) := by
  induction n with
  | zero =>
    intro k i s hk _
    obtain rfl := Nat.le_zero.mp hk
    rfl
  | succ n ih =>
    intro k i s hk h
    rw [forEachFrom, SegmentIter.next]
    rcases nextFrom_cases data h with
      ⟨hnil, iter, hnext⟩ | ⟨segment, k', i', hnext, hlt, hwalk, hcons, hending⟩
    · rw [hnext, hnil, List.foldlM_nil, pure_bind]
      cases endingFrom data tableOffset entrySize k i <;> rfl
    · rw [hnext, hcons, hending, List.foldlM_cons, bind_assoc]
      have hrest : ∀ s', forEachFrom ofError body n ⟨data, tableOffset, entrySize, k', i'⟩ s' =
          (loadsFrom data tableOffset entrySize k' i').foldlM body s' >>=
            finish ofError (endingFrom data tableOffset entrySize k' i') :=
        fun s' => ih (by omega) hwalk
      simp only [← hrest]
      rfl

/-- The file has a table of program headers. -/
structure HasTable (data : Slice UInt8) : Prop where
  length_le : elfHeaderMinLen ≤ data.length
  phnum_ne : wordAt data ePhnumOffset 2 ≠ 0
  phentsize_le : phdrLen ≤ wordAt data ePhentsizeOffset 2

/-- The iterator at the start of a file. -/
def startOf (data : Slice UInt8) : SegmentIter :=
  ⟨data, wordAt data ePhoffOffset 8, wordAt data ePhentsizeOffset 2, wordAt data ePhnumOffset 2, 0⟩

lemma walk_start (data : Slice UInt8) : Walk (wordAt data ePhoffOffset 8)
    (wordAt data ePhentsizeOffset 2) (wordAt data ePhnumOffset 2) 0 := by
  refine ⟨?_, wordAt_lt data _ 2, ?_⟩
  · rw [Nat.zero_mul, Nat.add_zero]
    exact wordAt_lt data _ 8
  · rw [Nat.zero_add]
    exact wordAt_lt data _ 2

/-- `segments` reads three words, in a file that is long enough. -/
lemma segments_eq (hlength : elfHeaderMinLen ≤ data.length) :
    segments data = (do
      throwIf (wordAt data ePhnumOffset 2 = 0 ∨ wordAt data ePhentsizeOffset 2 < phdrLen)
        .badProgramHeaders
      return startOf data) := by
  have hword : ∀ {offset n}, offset + n ≤ elfHeaderMinLen →
      readWord data offset n = .ok (wordAt data offset n) :=
    fun hle => readWord_of_le (hle.trans hlength)
  unfold segments readU64 readU16
  rw [throwIf_of_not (not_lt.mpr hlength), pure_bind, hword (by decide), hword (by decide),
    hword (by decide)]
  rfl

lemma segments_of_hasTable (h : HasTable data) : segments data = pure (startOf data) := by
  have hnot : ¬ (wordAt data ePhnumOffset 2 = 0 ∨ wordAt data ePhentsizeOffset 2 < phdrLen) :=
    not_or.mpr ⟨h.phnum_ne, not_lt.mpr h.phentsize_le⟩
  rw [segments_eq h.length_le, throwIf_of_not hnot, pure_bind]

lemma segments_of_not_hasTable (h : ¬ HasTable data) :
    segments data = throw .badProgramHeaders := by
  by_cases hlength : data.length < elfHeaderMinLen
  · rw [segments, throwIf_of hlength]
    rfl
  · have hlength := not_lt.mp hlength
    have hbad : wordAt data ePhnumOffset 2 = 0 ∨ wordAt data ePhentsizeOffset 2 < phdrLen := by
      by_contra hnot
      obtain ⟨hphnum, hphentsize⟩ := not_or.mp hnot
      exact h ⟨hlength, hphnum, not_lt.mp hphentsize⟩
    rw [segments_eq hlength, throwIf_of hbad]
    rfl

/-- A loop over the segments of a file with a table. -/
lemma forEach_of_hasTable (h : HasTable data) (ofError : SegmentError → ε) (s : σ)
    (body : σ → Segment → Fallible ε σ) :
    forEach data ofError s body =
      (loads data).foldlM body s >>= finish ofError (ending data) := by
  have hstart : mapError ofError (segments data) = pure (startOf data) := by
    rw [segments_of_hasTable h]
    rfl
  rw [forEach, hstart, pure_bind]
  exact forEachFrom_eq le_rfl (walk_start data)

/-- A loop over the segments of any other file. -/
lemma forEach_of_not_hasTable (h : ¬ HasTable data) (ofError : SegmentError → ε) (s : σ)
    (body : σ → Segment → Fallible ε σ) :
    forEach data ofError s body = throw (ofError .badProgramHeaders) := by
  rw [forEach, segments_of_not_hasTable h]
  rfl

@[simp] lemma returns_finish {ofError : SegmentError → ε} {e : Option SegmentError} {s s' : σ} :
    Returns (finish ofError e s) s' ↔ e = none ∧ s = s' := by
  cases e <;> simp [finish]

@[simp] lemma throws_finish {ofError : SegmentError → ε} {e : Option SegmentError} {s : σ}
    {e' : ε} : Throws (finish ofError e s) e' ↔ ∃ x, e = some x ∧ ofError x = e' := by
  cases e <;> simp [finish]

/-- A loop returns when the one over the list does and the iterator ends without an error. -/
lemma forEach_returns_iff {ofError : SegmentError → ε} {body : σ → Segment → Fallible ε σ}
    {s s' : σ} : Returns (forEach data ofError s body) s' ↔
      HasTable data ∧ ending data = none ∧ Returns ((loads data).foldlM body s) s' := by
  by_cases h : HasTable data
  · rw [forEach_of_hasTable h]
    simp [h, and_comm]
  · rw [forEach_of_not_hasTable h]
    simp [h]

lemma forEach_returns {ofError : SegmentError → ε} {body : σ → Segment → Fallible ε σ} {s s' : σ}
    (h : Returns (forEach data ofError s body) s') : Returns ((loads data).foldlM body s) s' :=
  (forEach_returns_iff.mp h).2.2

/-- A loop runs to its end when the one over the list does. -/
lemma forEach_total {ofError : SegmentError → ε} {body : σ → Segment → Fallible ε σ} {s : σ}
    (h : Total ((loads data).foldlM body s)) : Total (forEach data ofError s body) := by
  by_cases htable : HasTable data
  · rw [forEach_of_hasTable htable]
    refine total_bind h fun s' _ => ?_
    cases hend : ending data <;> simp [finish]
  · rw [forEach_of_not_hasTable htable]
    exact total_throw

/-! ## The checks -/

/-- What `check_segments` checks for one segment. -/
structure Segment.Fits (data : Slice UInt8) (segment : Segment) : Prop where
  memsz_pos : 0 < segment.memsz
  filesz_le : segment.filesz ≤ segment.memsz
  data_le : segment.offset + segment.filesz ≤ data.length
  stop_lt : segment.paddr + segment.memsz < 2 ^ 64

/-- The first page of a segment. -/
def Segment.pageStart (segment : Segment) : ℕ := segment.paddr / pageSize * pageSize

/-- The end of the last page of a segment. -/
def Segment.pageStop (segment : Segment) : ℕ :=
  divCeil (segment.paddr + segment.memsz) pageSize * pageSize

/-- The segments have no byte in common. -/
def Segment.Apart (s t : Segment) : Prop :=
  s.paddr + s.memsz ≤ t.paddr ∨ t.paddr + t.memsz ≤ s.paddr

/-- The pages of a segment, when their addresses do not overflow. -/
lemma pageRange_eq_ok {segment : Segment} (hpaddr : segment.paddr < 2 ^ 64) {start stop : ℕ}
    (h : segment.pageRange = .ok (start, stop)) :
    start = segment.pageStart ∧ stop = segment.pageStop ∧ stop < 2 ^ 64 := by
  rw [Segment.pageRange] at h
  obtain ⟨sum, hsum, h⟩ := Checked.bind_eq_ok.mp h
  obtain ⟨stop', hstop, h⟩ := Checked.bind_eq_ok.mp h
  obtain ⟨rfl, rfl⟩ := Prod.mk.inj (Except.ok.inj h)
  obtain ⟨-, rfl⟩ := addWord_eq_ok_iff.mp hsum
  obtain ⟨hlt, rfl⟩ := mulWord_eq_ok_iff.mp hstop
  exact ⟨and_notWord_two_pow_sub_one (k := 12) (by norm_num) hpaddr, rfl, hlt⟩

lemma mem_loads {segment : Segment} (h : segment ∈ loads data) :
    ∃ entry, segment = segmentAt data entry := by
  obtain ⟨i, -, hi⟩ := List.mem_filterMap.mp h
  rw [loadAt] at hi
  split_ifs at hi
  exact ⟨_, (Option.some.inj hi).symm⟩

lemma paddr_lt {segment : Segment} (h : segment ∈ loads data) : segment.paddr < 2 ^ 64 := by
  obtain ⟨entry, rfl⟩ := mem_loads h
  exact wordAt_lt data _ 8

/-- The entry point lies in the segment, which is executable. -/
def Segment.Enters (segment : Segment) (entry : ℕ) : Prop :=
  segment.isExecutable ∧ segment.vaddr ≤ entry ∧ entry < segment.vaddr + segment.memsz

/-- The interval from the first page of all segments to the end of the last one. -/
structure Span (l : List Segment) (base stop : ℕ) : Prop where
  bounds : ∀ segment ∈ l, base ≤ segment.pageStart ∧ segment.pageStop ≤ stop
  base_mem : ∃ segment ∈ l, segment.pageStart = base
  stop_mem : ∃ segment ∈ l, segment.pageStop = stop
  stop_lt : stop < 2 ^ 64

/-- One more segment. -/
lemma Span.append {l : List Segment} {base stop : ℕ} (h : Span l base stop) {segment : Segment}
    (hlt : segment.pageStop < 2 ^ 64) :
    Span (l ++ [segment]) (min base segment.pageStart) (max stop segment.pageStop) := by
  obtain ⟨first, hfirst, hbase⟩ := h.base_mem
  obtain ⟨last, hlast, hstop⟩ := h.stop_mem
  have hself : segment ∈ l ++ [segment] := List.mem_append_right _ (List.mem_singleton_self _)
  refine ⟨fun t ht => ?_, ?_, ?_, max_lt h.stop_lt hlt⟩
  · rcases List.mem_append.mp ht with ht | ht
    · exact ⟨(min_le_left _ _).trans (h.bounds t ht).1, (h.bounds t ht).2.trans (le_max_left _ _)⟩
    · obtain rfl := List.mem_singleton.mp ht
      exact ⟨min_le_right _ _, le_max_right _ _⟩
  · rcases le_total base segment.pageStart with hle | hle
    · exact ⟨first, List.mem_append_left _ hfirst, hbase.trans (min_eq_left hle).symm⟩
    · exact ⟨segment, hself, (min_eq_right hle).symm⟩
  · rcases le_total segment.pageStop stop with hle | hle
    · exact ⟨last, List.mem_append_left _ hlast, hstop.trans (max_eq_left hle).symm⟩
    · exact ⟨segment, hself, (max_eq_right hle).symm⟩

lemma loadedSpan_returns {base stop : ℕ} (h : Returns (loadedSpan data) (base, stop)) :
    Span (loads data) base stop := by
  rw [loadedSpan, returns_bind] at h
  obtain ⟨span, hloop, h⟩ := h
  have hinv := foldlM_inv
    (fun done (span : Option (ℕ × ℕ)) => (span = none ∧ done = []) ∨
      ∃ low high, span = some (low, high) ∧ Span done low high)
    (.inl ⟨rfl, rfl⟩) ?_ (forEach_returns hloop)
  · rw [returns_okOr] at h
    rcases hinv with ⟨hnone, -⟩ | ⟨low, high, hsome, hspan⟩
    · rw [hnone] at h
      cases h
    · rw [hsome] at h
      obtain ⟨rfl, rfl⟩ := Prod.mk.inj (Option.some.inj h)
      exact hspan
  intro done segment rest s s' hl hdone hbody
  have hpaddr : segment.paddr < 2 ^ 64 := by
    refine @paddr_lt data segment ?_
    rw [hl]
    simp
  simp only [returns_bind, returns_lift] at hbody
  obtain ⟨⟨start, stop'⟩, hrange, hbody⟩ := hbody
  obtain ⟨rfl, rfl, hlt⟩ := pageRange_eq_ok hpaddr hrange
  rcases hdone with ⟨rfl, rfl⟩ | ⟨low, high, rfl, hspan⟩
  · obtain rfl := returns_pure.mp hbody
    exact .inr ⟨_, _, rfl, by simp, by simp, by simp, hlt⟩
  · obtain rfl := returns_pure.mp hbody
    exact .inr ⟨_, _, rfl, hspan.append hlt⟩

end KernelImage

end ParanukOS
