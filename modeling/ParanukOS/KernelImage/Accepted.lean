import ParanukOS.KernelImage.Segments

/-!
# The images that are accepted

`validate`, `check_segments`, `check_no_overlap` and `check_entry` read the file one after the
other.  Together they accept exactly the files that satisfy one predicate, which is stated here with
natural numbers and without a loop.  On any other file they return an error: no sum overflows and no
read leaves the file.

## Outline

* `Accepted`: the predicate.
* `validate_returns_iff`, `checkSegments_returns_iff`, `checkNoOverlap_returns_iff`,
  `checkEntry_returns_iff`: what the functions return.
* `validate_total`, `checkSegments_total`, `checkNoOverlap_total`, `checkEntry_total`: they return.
* `elf_checks_exact`: the main theorem.
-/

namespace ParanukOS

open Foundation Foundation.Fallible

namespace KernelImage

variable {data : Slice UInt8}

/-! ## The header -/

/-- The fields of the header that `validate` checks. -/
structure HasHeader (data : Slice UInt8) : Prop where
  length_le : elfHeaderMinLen ≤ data.length
  magic_eq : data.range? 0 4 = some elfMagic
  class_eq : wordAt data eiClass 1 = elfClass64
  data_eq : wordAt data eiData 1 = elfData2Lsb
  type_eq : wordAt data eTypeOffset 2 = etExec
  machine_eq : wordAt data eMachineOffset 2 = emX8664

/-- `validate` on a file that is long enough. -/
lemma validate_eq (hlength : elfHeaderMinLen ≤ data.length) :
    ∃ magic, data.range? 0 4 = some magic ∧ validate data = (do
      throwIf (magic ≠ elfMagic) .notElf
      throwIf (wordAt data eiClass 1 ≠ elfClass64) .notElf64
      throwIf (wordAt data eiData 1 ≠ elfData2Lsb) .notLittleEndian
      throwIf (wordAt data eTypeOffset 2 ≠ etExec) (.notExecutable (wordAt data eTypeOffset 2))
      throwIf (wordAt data eMachineOffset 2 ≠ emX8664)
        (.unsupportedMachine (wordAt data eMachineOffset 2))
      return wordAt data eEntryOffset 8) := by
  have hword : ∀ {offset n}, offset + n ≤ elfHeaderMinLen →
      readWord data offset n = .ok (wordAt data offset n) :=
    fun hle => readWord_of_le (hle.trans hlength)
  have hmagic := Slice.range?_of_le (show 0 + 4 ≤ data.length from le_trans (by decide) hlength)
  refine ⟨_, hmagic, ?_⟩
  unfold validate readU64 readU16 readBytes
  rw [throwIf_of_not (not_lt.mpr hlength), pure_bind, hmagic, hword (by decide),
    hword (by decide), hword (by decide), hword (by decide), hword (by decide)]
  rfl

lemma validate_returns_iff {entry : ℕ} :
    Returns (validate data) entry ↔ HasHeader data ∧ entry = wordAt data eEntryOffset 8 := by
  by_cases hlength : elfHeaderMinLen ≤ data.length
  · obtain ⟨magic, hmagic, heq⟩ := validate_eq hlength
    rw [heq]
    simp only [returns_bind, returns_throwIf, returns_pure, not_not, exists_and_left,
      exists_const]
    constructor
    · rintro ⟨rfl, h1, h2, h3, h4, rfl⟩
      exact ⟨⟨hlength, hmagic, h1, h2, h3, h4⟩, rfl⟩
    · rintro ⟨h, rfl⟩
      rw [h.magic_eq] at hmagic
      exact ⟨(Option.some.inj hmagic).symm, h.class_eq, h.data_eq, h.type_eq, h.machine_eq, rfl⟩
  · have hthrow : validate data = throw (.tooSmall data.length) := by
      rw [validate, throwIf_of (not_le.mp hlength)]
      rfl
    rw [hthrow]
    constructor
    · exact fun h => absurd h not_returns_throw
    · exact fun h => absurd h.1.length_le hlength

lemma validate_total (data : Slice UInt8) : Total (validate data) := by
  by_cases hlength : elfHeaderMinLen ≤ data.length
  · obtain ⟨magic, -, heq⟩ := validate_eq hlength
    rw [heq]
    refine total_bind total_throwIf fun _ _ => total_bind total_throwIf fun _ _ =>
      total_bind total_throwIf fun _ _ => total_bind total_throwIf fun _ _ =>
      total_bind total_throwIf fun _ _ => total_pure
  · rw [validate, throwIf_of (not_le.mp hlength)]
    exact total_throw

/-! ## The segments -/

/-- There are fewer segments than a 16-bit word can count. -/
lemma length_loads_lt (data : Slice UInt8) : (loads data).length < 2 ^ 16 := by
  refine lt_of_le_of_lt (List.length_filterMap_le _ _) ?_
  rw [List.length_range']
  exact wordAt_lt data _ 2

/-- A program header before one outside of the file. -/
lemma endingFrom_eq_none_iff {tableOffset entrySize n : ℕ} : ∀ {i : ℕ},
    Walk tableOffset entrySize n i → (n ≠ 0 → tableOffset + i * entrySize + phdrLen < 2 ^ 64) →
    (endingFrom data tableOffset entrySize n i = none ↔
      ∀ j, i ≤ j → j < i + n → tableOffset + j * entrySize + phdrLen ≤ data.length) := by
  induction n with
  | zero =>
    intro i _ _
    exact ⟨fun _ j hle hlt => absurd hlt (not_lt.mpr hle), fun _ => rfl⟩
  | succ n ih =>
    intro i hwalk hsmall
    have hlen := data.length_lt'
    have hsize := hwalk.size_lt
    have hsmall := hsmall (Nat.succ_ne_zero n)
    rw [endingFrom, if_neg (not_le.mpr hsmall)]
    by_cases hout : data.length < tableOffset + i * entrySize + phdrLen
    · rw [if_pos hout]
      constructor
      · intro hcon
        cases hcon
      · intro hall
        exact absurd hout (not_lt.mpr (hall i le_rfl (by omega)))
    · have hinside := not_lt.mp hout
      rw [if_neg hout, ih (hwalk.succ hinside) ?_]
      · constructor
        · intro hall j hle hlt
          rcases Nat.eq_or_lt_of_le hle with rfl | hlt'
          · exact hinside
          · exact hall j hlt' (by omega)
        · exact fun hall j hle hlt => hall j (by omega) (by omega)
      · intro _
        rw [Nat.succ_mul]
        simp only [phdrLen] at hinside ⊢
        omega

/-- The iterator of a file with segments ends without an error if and only if all program headers
lie inside of the file. -/
lemma ending_eq_none_iff (hloads : loads data ≠ []) : ending data = none ↔
    ∀ i < wordAt data ePhnumOffset 2,
      wordAt data ePhoffOffset 8 + i * wordAt data ePhentsizeOffset 2 + phdrLen ≤ data.length := by
  have hlen := data.length_lt'
  rw [ending, endingFrom_eq_none_iff (walk_start data)]
  · simp only [Nat.zero_le, Nat.zero_add, forall_const]
  · intro _
    -- otherwise the first program header is outside, and there are no segments
    by_contra hbig
    exact hloads (loadsFrom_eq_nil (by omega) _)

/-- One round of `check_segments`. -/
lemma checkSegment_returns_iff {count count' : ℕ} {segment : Segment} :
    Returns (checkSegment data count segment) count' ↔
      segment.Fits data ∧ count + 1 < 2 ^ 64 ∧ count' = count + 1 := by
  have hlen := data.length_lt'
  rw [checkSegment]
  simp only [returns_bind, returns_throwIf, returns_okOr, returns_lift, exists_and_left,
    exists_const, checkedAdd_eq_some_iff, addWord_eq_ok_iff]
  constructor
  · rintro ⟨hpos, hle, _, ⟨-, rfl⟩, hdata, _, ⟨hstop, -⟩, hcount⟩
    exact ⟨⟨Nat.pos_of_ne_zero hpos, not_lt.mp hle, not_lt.mp hdata, hstop⟩, hcount⟩
  · rintro ⟨h, hcount⟩
    have hfile : segment.offset + segment.filesz < 2 ^ 64 := lt_of_le_of_lt h.data_le (by omega)
    exact ⟨h.memsz_pos.ne', not_lt.mpr h.filesz_le, _, ⟨hfile, rfl⟩, not_lt.mpr h.data_le, _,
      ⟨h.stop_lt, rfl⟩, hcount⟩

/-- `check_segments`: all segments fit, and there is one. -/
lemma checkSegments_returns_iff {count : ℕ} : Returns (checkSegments data) count ↔
    HasTable data ∧ ending data = none ∧ (∀ segment ∈ loads data, segment.Fits data) ∧
      loads data ≠ [] ∧ count = (loads data).length := by
  have hloop : ∀ {count}, Returns ((loads data).foldlM (checkSegment data) 0) count ↔
      ((∀ segment ∈ loads data, segment.Fits data) ∧ (loads data).length < 2 ^ 64) ∧
        count = (loads data).length := by
    intro count
    apply foldlM_returns_iff fun done count =>
      ((∀ segment ∈ done, Segment.Fits data segment) ∧ done.length < 2 ^ 64) ∧
        count = done.length
    · intro count
      simp [eq_comm]
    · intro done segment count'
      simp only [checkSegment_returns_iff, List.forall_mem_append, List.forall_mem_singleton,
        List.length_append, List.length_singleton]
      constructor
      · rintro ⟨⟨⟨hdone, hfits⟩, hlt⟩, rfl⟩
        exact ⟨_, ⟨⟨hdone, by omega⟩, rfl⟩, hfits, hlt, rfl⟩
      · rintro ⟨_, ⟨⟨hdone, -⟩, rfl⟩, hfits, hlt, rfl⟩
        exact ⟨⟨⟨hdone, hfits⟩, hlt⟩, rfl⟩
  have hlt : (loads data).length < 2 ^ 64 := (length_loads_lt data).trans (by decide)
  rw [checkSegments]
  simp only [returns_bind, returns_throwIf, returns_pure, exists_and_left, exists_const,
    forEach_returns_iff, hloop]
  constructor
  · rintro ⟨_, ⟨htable, hend, ⟨hfits, -⟩, rfl⟩, hne, rfl⟩
    exact ⟨htable, hend, hfits, mt List.length_eq_zero_iff.mpr hne, rfl⟩
  · rintro ⟨htable, hend, hfits, hne, rfl⟩
    exact ⟨_, ⟨htable, hend, ⟨hfits, hlt⟩, rfl⟩, mt List.length_eq_zero_iff.mp hne, rfl⟩

lemma checkSegments_total (data : Slice UInt8) : Total (checkSegments data) := by
  have hlt : (loads data).length < 2 ^ 64 := (length_loads_lt data).trans (by decide)
  refine total_bind (forEach_total ?_) fun _ _ => total_bind total_throwIf fun _ _ => total_pure
  apply foldlM_total fun done count => count = done.length
  · rfl
  · rintro done segment rest _ hl rfl
    have hcount : done.length + 1 < 2 ^ 64 := by
      rw [hl, List.length_append, List.length_cons] at hlt
      omega
    constructor
    · refine total_bind total_throwIf fun _ _ => total_bind total_throwIf fun _ _ =>
        total_bind total_okOr fun _ _ => total_bind total_throwIf fun _ _ =>
        total_bind total_okOr fun _ _ => total_lift (addWord_of_lt hcount)
    · intro count' h
      rw [List.length_append]
      exact (checkSegment_returns_iff.mp h).2.2

/-- The ranges that `check_no_overlap` records. -/
def rangesOf (l : List Segment) : List (ℕ × ℕ) :=
  l.map fun segment => (segment.paddr, segment.paddr + segment.memsz)

/-- The array of `check_no_overlap` after some segments. -/
def filled (l : List Segment) : Slice (ℕ × ℕ) := noRanges.overwrite 0 (rangesOf l)

lemma length_filled (l : List Segment) : (filled l).length = maxRanges := by
  rw [filled, Slice.length_overwrite]
  rfl

/-- The part of the array that has been filled. -/
lemma upTo_filled {l : List Segment} (h : l.length ≤ maxRanges) :
    ∃ others, (filled l).upTo l.length = .ok others ∧ others.toList = rangesOf l := by
  have hranges : (rangesOf l).length = l.length := List.length_map _
  have hle : l.length ≤ (filled l).length := by rwa [length_filled]
  refine ⟨_, if_pos hle, ?_⟩
  have hself : (filled l).range? (0 + 0) l.length = some (((rangesOf l).drop 0).take l.length) :=
    Slice.range?_overwrite_self (by rw [hranges, Nat.zero_add]; exact h) (by rw [hranges]; omega)
  rw [Slice.range?_of_le (by omega), Option.some.injEq] at hself
  simp only [List.drop_zero, Nat.add_zero] at hself
  rw [← hranges, List.take_length] at hself
  rwa [← hranges]

/-- The next range is written behind the others. -/
lemma write_filled {l : List Segment} {segment : Segment} (h : l.length < maxRanges) :
    (filled l).write l.length [(segment.paddr, segment.paddr + segment.memsz)] =
      .ok (filled (l ++ [segment])) := by
  have hranges : (rangesOf l).length = l.length := List.length_map _
  have happend := Slice.overwrite_overwrite_append noRanges 0 (rangesOf l) (rangesOf [segment]) (by
    rw [hranges, Nat.zero_add]
    exact h)
  rw [hranges, Nat.zero_add] at happend
  rw [Slice.write_of_le (by rw [length_filled]; exact h), filled, filled]
  refine congrArg Except.ok (happend.trans ?_)
  rw [rangesOf, rangesOf, rangesOf, List.map_append]

/-- Two ranges of the array pass the test if the segments are apart. -/
lemma any_rangesOf_iff {l : List Segment} {segment : Segment} :
    ((rangesOf l).any fun other => segment.paddr < other.2 &&
      other.1 < segment.paddr + segment.memsz) = true ↔ ¬ ∀ t ∈ l, t.Apart segment := by
  simp only [rangesOf, List.any_map, List.any_eq_true, Function.comp_apply, Bool.and_eq_true,
    decide_eq_true_eq, Segment.Apart, not_forall, not_or, not_le, exists_prop]

/-- One round of `check_no_overlap`. -/
lemma checkRange_returns_iff {l : List Segment} (h : l.length ≤ maxRanges) {segment : Segment}
    {s' : ℕ × Slice (ℕ × ℕ)} : Returns (checkRange (l.length, filled l) segment) s' ↔
      segment.paddr + segment.memsz < 2 ^ 64 ∧ (∀ t ∈ l, t.Apart segment) ∧
        l.length < maxRanges ∧ s' = ((l ++ [segment]).length, filled (l ++ [segment])) := by
  obtain ⟨others, hothers, hlist⟩ := upTo_filled h
  have hlen : l.length + 1 < 2 ^ 64 := lt_of_le_of_lt (Nat.succ_le_succ h) (by decide)
  rw [checkRange]
  simp only [returns_bind, returns_throwIf, returns_okOr, returns_lift, returns_pure,
    exists_and_left, exists_const, checkedAdd_eq_some_iff, hothers, Except.ok.injEq,
    exists_eq_left', hlist, length_filled, addWord_of_lt hlen]
  constructor
  · rintro ⟨_, ⟨hstop, rfl⟩, hapart, hne, ranges, hwrite, rfl⟩
    have hlt := lt_of_le_of_ne h hne
    rw [any_rangesOf_iff, not_not] at hapart
    rw [write_filled hlt] at hwrite
    obtain rfl := Except.ok.inj hwrite
    exact ⟨hstop, hapart, hlt, by rw [List.length_append]; rfl⟩
  · rintro ⟨hstop, hapart, hlt, rfl⟩
    refine ⟨_, ⟨hstop, rfl⟩, ?_, hlt.ne, _, write_filled hlt, by rw [List.length_append]; rfl⟩
    rwa [any_rangesOf_iff, not_not]

lemma checkRange_total {l : List Segment} (h : l.length ≤ maxRanges) (segment : Segment) :
    Total (checkRange (l.length, filled l) segment) := by
  obtain ⟨others, hothers, -⟩ := upTo_filled h
  have hlen : l.length + 1 < 2 ^ 64 := lt_of_le_of_lt (Nat.succ_le_succ h) (by decide)
  refine total_bind total_okOr fun stop hstop => total_bind (total_lift hothers) fun _ _ =>
    total_bind total_throwIf fun _ _ => total_bind total_throwIf fun _ hne =>
    total_bind ?_ fun _ _ => total_bind (total_lift (addWord_of_lt hlen)) fun _ _ => total_pure
  obtain ⟨-, rfl⟩ := checkedAdd_eq_some_iff.mp (returns_okOr.mp hstop)
  rw [returns_throwIf, length_filled] at hne
  exact total_lift (write_filled (lt_of_le_of_ne h hne))

/-- `check_no_overlap`: the segments are apart, and there are not too many of them. -/
lemma checkNoOverlap_returns_iff {u : Unit} : Returns (checkNoOverlap data) u ↔
    HasTable data ∧ ending data = none ∧
      (∀ segment ∈ loads data, segment.paddr + segment.memsz < 2 ^ 64) ∧
      (loads data).Pairwise Segment.Apart ∧ (loads data).length ≤ maxRanges := by
  have hloop : ∀ {s}, Returns ((loads data).foldlM checkRange (0, noRanges)) s ↔
      ((∀ segment ∈ loads data, segment.paddr + segment.memsz < 2 ^ 64) ∧
        (loads data).Pairwise Segment.Apart ∧ (loads data).length ≤ maxRanges) ∧
        s = ((loads data).length, filled (loads data)) := by
    intro s
    apply foldlM_returns_iff fun done s =>
      ((∀ segment ∈ done, segment.paddr + segment.memsz < 2 ^ 64) ∧
        List.Pairwise Segment.Apart done ∧ done.length ≤ maxRanges) ∧
        s = (done.length, filled done)
    · intro s
      simp [eq_comm, filled, rangesOf, Slice.overwrite]
    · intro done segment s'
      simp only [List.forall_mem_append, List.pairwise_append, List.pairwise_singleton,
        List.mem_singleton, forall_eq, true_and]
      constructor
      · rintro ⟨⟨⟨hdone, hstop⟩, ⟨hapart, hlast⟩, hle⟩, rfl⟩
        rw [List.length_append] at hle
        refine ⟨_, ⟨⟨hdone, hapart, Nat.le_of_succ_le hle⟩, rfl⟩, ?_⟩
        exact (checkRange_returns_iff (Nat.le_of_succ_le hle)).mpr ⟨hstop, hlast, hle, rfl⟩
      · rintro ⟨_, ⟨⟨hdone, hapart, hle⟩, rfl⟩, hround⟩
        obtain ⟨hstop, hlast, hlt, rfl⟩ := (checkRange_returns_iff hle).mp hround
        exact ⟨⟨⟨hdone, hstop⟩, ⟨hapart, hlast⟩, by rw [List.length_append]; exact hlt⟩, rfl⟩
  rw [checkNoOverlap]
  simp only [returns_bind, forEach_returns_iff, hloop]
  constructor
  · rintro ⟨_, ⟨htable, hend, hall, -⟩, -⟩
    exact ⟨htable, hend, hall⟩
  · rintro ⟨htable, hend, hall⟩
    exact ⟨_, ⟨htable, hend, hall, rfl⟩, returns_pure.mpr rfl⟩

lemma checkNoOverlap_total (data : Slice UInt8) : Total (checkNoOverlap data) := by
  refine total_bind (forEach_total ?_) fun _ _ => total_pure
  apply foldlM_total fun done s => done.length ≤ maxRanges ∧ s = (done.length, filled done)
  · simp [filled, rangesOf, Slice.overwrite]
  · rintro done segment rest _ - ⟨hle, rfl⟩
    refine ⟨checkRange_total hle segment, fun s' h => ?_⟩
    obtain ⟨-, -, hlt, hs'⟩ := (checkRange_returns_iff hle).mp h
    exact ⟨by rw [List.length_append]; exact hlt, hs'⟩

/-! ## The entry point -/

/-- An executable segment contains the entry point, and neither its end nor that of a segment before
it overflows. -/
def Reaches (l : List Segment) (entry : ℕ) : Prop :=
  ∃ before segment after, l = before ++ segment :: after ∧
    (∀ t ∈ before ++ [segment], t.vaddr + t.memsz < 2 ^ 64) ∧ segment.Enters entry

lemma Reaches.exists_enters {l : List Segment} {entry : ℕ} (h : Reaches l entry) :
    ∃ segment ∈ l, segment.Enters entry := by
  obtain ⟨before, segment, after, rfl, -, henters⟩ := h
  exact ⟨segment, List.mem_append_right _ List.mem_cons_self, henters⟩

lemma not_reaches_nil (entry : ℕ) : ¬ Reaches [] entry := by
  rintro ⟨before, segment, after, hl, -⟩
  exact absurd hl.symm (by simp)

lemma reaches_cons {segment : Segment} {l : List Segment} {entry : ℕ} :
    Reaches (segment :: l) entry ↔
      segment.vaddr + segment.memsz < 2 ^ 64 ∧ (segment.Enters entry ∨ Reaches l entry) := by
  constructor
  · rintro ⟨before, t, after, hl, hwords, henters⟩
    cases before with
    | nil =>
      obtain ⟨rfl, -⟩ := List.cons.inj hl
      exact ⟨hwords segment (List.mem_singleton_self _), .inl henters⟩
    | cons first before =>
      obtain ⟨rfl, hrest⟩ := List.cons.inj hl
      refine ⟨hwords segment List.mem_cons_self, .inr ⟨before, t, after, hrest, ?_, henters⟩⟩
      exact fun u hu => hwords u (List.mem_cons_of_mem _ hu)
  · rintro ⟨hword, henters | ⟨before, t, after, rfl, hwords, henters⟩⟩
    · refine ⟨[], segment, l, rfl, ?_, henters⟩
      simpa using hword
    · refine ⟨segment :: before, t, after, rfl, ?_, henters⟩
      rintro u (_ | ⟨_, hu⟩)
      · exact hword
      · exact hwords u hu

/-- The loop of `check_entry` ends early at the segment. -/
lemma foldlM_checkEnters_throws_iff {entry : ℕ} (l : List Segment) :
    Throws (l.foldlM (checkEnters entry) ()) (.ok ()) ↔ Reaches l entry := by
  induction l with
  | nil =>
    constructor
    · exact fun h => absurd h not_throws_pure
    · exact fun h => absurd h (not_reaches_nil entry)
  | cons segment l ih =>
    have hround : (∃ u, Returns (checkEnters entry () segment) u ∧
        Throws (l.foldlM (checkEnters entry) u) (.ok ())) ↔
        (segment.vaddr + segment.memsz < 2 ^ 64 ∧ ¬ segment.Enters entry) ∧ Reaches l entry := by
      simp only [checkEnters, returns_bind, returns_okOr, returns_throwIf, checkedAdd_eq_some_iff]
      constructor
      · rintro ⟨u, ⟨_, ⟨hword, rfl⟩, hnot⟩, hrest⟩
        exact ⟨⟨hword, hnot⟩, ih.mp hrest⟩
      · rintro ⟨⟨hword, hnot⟩, hrest⟩
        exact ⟨(), ⟨_, ⟨hword, rfl⟩, hnot⟩, ih.mpr hrest⟩
    have hstop : Throws (checkEnters entry () segment) (.ok ()) ↔
        segment.vaddr + segment.memsz < 2 ^ 64 ∧ segment.Enters entry := by
      simp only [checkEnters, throws_bind, throws_okOr, throws_throwIf, returns_okOr,
        reduceCtorEq, and_false, false_or, and_true, checkedAdd_eq_some_iff]
      constructor
      · rintro ⟨_, ⟨hword, rfl⟩, henters⟩
        exact ⟨hword, henters⟩
      · rintro ⟨hword, henters⟩
        exact ⟨_, ⟨hword, rfl⟩, henters⟩
    rw [List.foldlM_cons, throws_bind, hround, hstop, reaches_cons]
    tauto

/-- `check_entry`: the entry point is reached. -/
lemma checkEntry_returns_iff {entry : ℕ} {u : Unit} :
    Returns (checkEntry data entry) u ↔ HasTable data ∧ Reaches (loads data) entry := by
  have hearly : Returns (checkEntry data entry) u ↔
      Throws (forEach data Except.error () (checkEnters entry)) (.ok ()) := by
    rw [checkEntry, returns_bind]
    constructor
    · rintro ⟨result, hloop, h⟩
      match result, hloop, h with
      | .ok (), _, h => exact absurd h not_returns_throw
      | .error (.error e), _, h => exact absurd h not_returns_throw
      | .error (.ok ()), hloop, _ => exact returns_lift.mp hloop
    · exact fun h => ⟨_, returns_lift.mpr h, returns_pure.mpr rfl⟩
  rw [hearly]
  by_cases htable : HasTable data
  · rw [forEach_of_hasTable htable, throws_bind, foldlM_checkEnters_throws_iff]
    simp [htable]
  · rw [forEach_of_not_hasTable htable]
    simp [htable]

lemma checkEntry_total (data : Slice UInt8) (entry : ℕ) : Total (checkEntry data entry) := by
  have hloop : Total (forEach data Except.error () (checkEnters entry)) := by
    apply forEach_total
    apply foldlM_total fun _ _ => True
    · trivial
    · exact fun _ _ _ _ _ _ => ⟨total_bind total_okOr fun _ _ => total_throwIf, fun _ _ => trivial⟩
  obtain ⟨result, hresult⟩ := hloop
  refine total_bind (total_lift hresult) fun r _ => ?_
  match r with
  | .ok () => exact total_throw
  | .error (.ok ()) => exact total_pure
  | .error (.error e) => exact total_throw

/-! ## The main theorem -/

/-- The images that can be loaded. -/
structure Accepted (data : Slice UInt8) : Prop where
  /-- The file has the header of a 64-bit little-endian executable for x86-64. -/
  header : HasHeader data
  /-- It has a table of program headers. -/
  table : HasTable data
  /-- All of them lie inside of the file. -/
  inside : ∀ i < wordAt data ePhnumOffset 2,
    wordAt data ePhoffOffset 8 + i * wordAt data ePhentsizeOffset 2 + phdrLen ≤ data.length
  /-- There are segments, and not too many. -/
  nonempty : loads data ≠ []
  length_le : (loads data).length ≤ maxRanges
  /-- Each has bytes in memory, and not more of them in the file; these are in the file, and its end
  in memory is a word. -/
  fits : ∀ segment ∈ loads data, segment.Fits data
  /-- They have no byte in common. -/
  apart : (loads data).Pairwise Segment.Apart
  /-- One of them contains the entry point. -/
  entry : Reaches (loads data) (wordAt data eEntryOffset 8)

/-- The file passes the four checks of the loader. -/
def Passes (data : Slice UInt8) : Prop :=
  ∃ entry count, Returns (validate data) entry ∧ Returns (checkSegments data) count ∧
    Returns (checkNoOverlap data) () ∧ Returns (checkEntry data entry) ()

lemma passes_iff : Passes data ↔ Accepted data := by
  constructor
  · rintro ⟨entry, count, hvalidate, hsegments, hoverlap, hentry⟩
    obtain ⟨hheader, rfl⟩ := validate_returns_iff.mp hvalidate
    obtain ⟨htable, hend, hfits, hne, -⟩ := checkSegments_returns_iff.mp hsegments
    obtain ⟨-, -, -, hapart, hle⟩ := checkNoOverlap_returns_iff.mp hoverlap
    obtain ⟨-, hreaches⟩ := checkEntry_returns_iff.mp hentry
    exact ⟨hheader, htable, (ending_eq_none_iff hne).mp hend, hne, hle, hfits, hapart, hreaches⟩
  · intro h
    have hend := (ending_eq_none_iff h.nonempty).mpr h.inside
    exact ⟨_, _, validate_returns_iff.mpr ⟨h.header, rfl⟩,
      checkSegments_returns_iff.mpr ⟨h.table, hend, h.fits, h.nonempty, rfl⟩,
      checkNoOverlap_returns_iff.mpr ⟨h.table, hend,
        fun segment hmem => (h.fits segment hmem).stop_lt, h.apart, h.length_le⟩,
      checkEntry_returns_iff.mpr ⟨h.table, h.entry⟩⟩

/-- **The checks of an image.**  The four functions return if and only if the file is accepted; on
every file they return a value or an error; and every loop over the segments is one over the list of
the program headers to be loaded, in the order of the table, with the same end behind it. -/
theorem elf_checks_exact (data : Slice UInt8) :
    ((∃ entry count, Returns (validate data) entry ∧ Returns (checkSegments data) count ∧
        Returns (checkNoOverlap data) () ∧ Returns (checkEntry data entry) ()) ↔ Accepted data) ∧
    ((∃ r, (validate data).run = .ok r) ∧ (∃ r, (checkSegments data).run = .ok r) ∧
      (∃ r, (checkNoOverlap data).run = .ok r) ∧
      ∀ entry, ∃ r, (checkEntry data entry).run = .ok r) ∧
    ∀ (ε σ : Type) (ofError : SegmentError → ε) (s : σ) (body : σ → Segment → Fallible ε σ),
      (HasTable data → forEach data ofError s body =
        (loads data).foldlM body s >>= finish ofError (ending data)) ∧
      (¬ HasTable data → forEach data ofError s body = throw (ofError .badProgramHeaders)) := by
  exact ⟨passes_iff, ⟨validate_total data, checkSegments_total data, checkNoOverlap_total data,
    checkEntry_total data⟩, fun ε σ ofError s body =>
    ⟨fun h => forEach_of_hasTable h ofError s body,
      fun h => forEach_of_not_hasTable h ofError s body⟩⟩

/-- The program header of a segment. -/
def phdrBytes (segment : Segment) : List UInt8 :=
  leBytes 4 ptLoad ++ leBytes 4 segment.flags ++ leBytes 8 segment.offset ++
    leBytes 8 segment.vaddr ++ leBytes 8 segment.paddr ++ leBytes 8 segment.filesz ++
    leBytes 8 segment.memsz ++ leBytes 8 pageSize

/-- An executable file: the header, the program headers of the segments, and other bytes. -/
def elfBytes (entry : ℕ) (segments : List Segment) (contents : List UInt8) : List UInt8 :=
  elfMagic ++ leBytes 12 0x10102 ++ leBytes 2 etExec ++ leBytes 2 emX8664 ++ leBytes 4 1 ++
    leBytes 8 entry ++ leBytes 8 elfHeaderMinLen ++ leBytes 12 0 ++ leBytes 2 elfHeaderMinLen ++
    leBytes 2 phdrLen ++ leBytes 2 segments.length ++ leBytes 6 0 ++
    segments.flatMap phdrBytes ++ contents

/-- The test whether a file passes the four checks. -/
def passes (data : Slice UInt8) : Bool :=
  returnsAnd (do
    let entry ← mapError (fun _ => ()) (validate data)
    let _ ← mapError (fun _ => ()) (checkSegments data)
    mapError (fun _ => ()) (checkNoOverlap data)
    mapError (fun _ => ()) (checkEntry data entry) : Fallible Unit Unit) fun _ => true

lemma passes_of_eq_true (h : passes data = true) : Passes data := by
  obtain ⟨_, hok, -⟩ := returnsAnd_eq_true_iff.mp h
  simp only [returns_bind, returns_mapError] at hok
  obtain ⟨entry, hentry, count, hcount, _, hoverlap, hreaches⟩ := hok
  exact ⟨entry, count, hentry, hcount, hoverlap, hreaches⟩

/-- A file with one segment. -/
def oneSegment : Slice UInt8 where
  toList := elfBytes 0x400000 [⟨120, 0x400000, 0x400000, 2, 4, 5⟩] [0xeb, 0xfe]
  length_lt := by decide +kernel

/-- The file is accepted. -/
theorem elf_checks_exact_oneSegment : Accepted oneSegment :=
  (elf_checks_exact oneSegment).1.mp (passes_of_eq_true (by decide +kernel))

end KernelImage

end ParanukOS
