import ParanukOS.KernelMemory.Paging.Isolation

/-!
# User mappings that are refused

`map_user_region` edits the tables that the processor is using.  Most of its checks come before the
first write.  The last two do not: when they fail, the entry of the first level is already open to
user mode, and it stays so.  We say exactly which calls that fail leave every byte as it was, in
terms of the arena and the arguments before the call.

## Outline

* `UserMapError.Late`: the errors of the last two checks.
* `PassesFirstChecks`: the checks before the first write.
* `mapUserRegion_of_error`: what a call that fails has done.
* `failed_map_unchanged_iff`: the main theorem.
-/

namespace ParanukOS

open Foundation

namespace KernelMemory

/-- The errors that are found after the entry of the first level has been opened. -/
def UserMapError.Late : UserMapError → Prop
  | arenaTooSmall _ _ => True
  | alreadyMapped => True
  | _ => False

/-- The arena and the arguments pass the checks that come before the first write: the addresses are
those of pages, every mapping is accepted, and the entry of the first level is present. -/
structure PassesFirstChecks (arena : TableArena) (pml4Offset firstFreeOffset : ℕ)
    (mappings : List Mapping) (entry : ℕ) : Prop where
  address_mod : arena.address % pageSize = 0
  firstFreeOffset_mod : firstFreeOffset % pageSize = 0
  pml4Offset_mod : pml4Offset % pageSize = 0
  accepted : ∀ m ∈ mappings, m.Accepted
  entry_eq : arena.readEntryAt pml4Offset 0 = .ok entry
  present : entry.testBit 0 = true

section Entries

variable {arena arena' : TableArena} {offset index value : ℕ}

/-- An entry that can be read is a word of the arena. -/
lemma TableArena.readEntryAt_eq_ok_iff : arena.readEntryAt offset index = .ok value ↔
    arena.bytes.leWord? (offset + index * 8) 8 = some value := by
  constructor
  · intro h
    rw [readEntryAt] at h
    obtain ⟨place, hplace, h⟩ := Checked.bind_eq_ok.mp h
    obtain ⟨sum, hsum, h⟩ := Checked.bind_eq_ok.mp h
    obtain ⟨-, rfl⟩ := mulWord_eq_ok_iff.mp hplace
    obtain ⟨-, rfl⟩ := addWord_eq_ok_iff.mp hsum
    cases hword : arena.bytes.leWord? (offset + index * 8) 8 with
    | none =>
      rw [hword] at h
      cases h
    | some v =>
      rw [hword] at h
      rw [Except.ok.inj h]
  · intro h
    have hlen := arena.length_lt
    have hle : offset + index * 8 + 8 ≤ arena.bytes.length := by
      by_contra hlt
      rw [Slice.leWord?, Slice.range?_eq_none_iff.mpr (by omega)] at h
      cases h
    rw [readEntryAt, mulWord_of_lt (by omega), Checked.ok_bind, addWord_of_lt (by omega),
      Checked.ok_bind, h]
    rfl

/-- An entry that can be written is replaced, and nothing else. -/
lemma TableArena.eq_of_writeEntryAt (h : arena.writeEntryAt offset index value = .ok arena') :
    offset + index * 8 + 8 ≤ arena.bytes.length ∧ arena'.address = arena.address ∧
      arena'.bytes = arena.bytes.overwrite (offset + index * 8) (leBytes 8 value) := by
  rw [writeEntryAt] at h
  obtain ⟨place, hplace, h⟩ := Checked.bind_eq_ok.mp h
  obtain ⟨sum, hsum, h⟩ := Checked.bind_eq_ok.mp h
  obtain ⟨-, rfl⟩ := mulWord_eq_ok_iff.mp hplace
  obtain ⟨-, rfl⟩ := addWord_eq_ok_iff.mp hsum
  rw [write, length_leBytes] at h
  split_ifs at h with hle
  obtain rfl := Except.ok.inj h
  exact ⟨hle, rfl, rfl⟩

end Entries

section Failure

variable {arena arena' : TableArena} {pml4Offset firstFreeOffset : ℕ} {mappings : List Mapping}
  {e : UserMapError}

lemma and_user_eq_zero_iff (entry : ℕ) : entry &&& user = 0 ↔ entry.testBit 2 = false := by
  rw [show user = 2 ^ 2 from rfl]
  exact and_two_pow_eq_zero_iff

lemma and_present_eq_zero_iff (entry : ℕ) : entry &&& present = 0 ↔ entry.testBit 0 = false := by
  rw [show present = 2 ^ 0 from rfl]
  exact and_two_pow_eq_zero_iff

/-- Opening an entry that is open does not change it. -/
lemma or_user_of_testBit {entry : ℕ} (h : entry.testBit 2 = true) : entry ||| user = entry := by
  refine Nat.eq_of_testBit_eq fun i => ?_
  rw [Nat.testBit_or, show user = 2 ^ 2 from rfl, Nat.testBit_two_pow]
  by_cases hi : 2 = i
  · rw [← hi, h, Bool.true_or]
  · rw [decide_eq_false hi, Bool.or_false]

/-- The checks of a mapping come early. -/
lemma not_late_of_checkMapping {m : Mapping} (h : UserMap.checkMapping m = .ok (some e)) :
    ¬ e.Late := by
  rw [UserMap.checkMapping] at h
  by_cases hbase : m.vaddr < userBase
  · rw [if_pos hbase] at h
    obtain rfl := Option.some.inj (Except.ok.inj h)
    exact id
  rw [if_neg hbase] at h
  obtain ⟨stop, hstop, h⟩ := Checked.bind_eq_ok.mp h
  rw [hstop, Checked.ok_bind] at h
  split_ifs at h
  · obtain rfl := Option.some.inj (Except.ok.inj h)
    exact id
  · obtain rfl := Option.some.inj (Except.ok.inj h)
    exact id
  · cases h

lemma not_late_of_checkMappings (h : UserMap.checkMappings mappings = .ok (some e)) :
    ¬ e.Late := by
  induction mappings with
  | nil => cases h
  | cons m mappings ih =>
    rw [UserMap.checkMappings] at h
    obtain ⟨r, hr, h⟩ := Checked.bind_eq_ok.mp h
    cases r with
    | none => exact ih h
    | some e' =>
      obtain rfl := Option.some.inj (Except.ok.inj h)
      exact not_late_of_checkMapping hr

/-- The part of the function from the last two checks on: an error is one of theirs. -/
lemma late_of_lastChecks {pages pdptEntry : ℕ}
    (h : (do
      let pdpt ← subWord (pdptEntry &&& addressMask) arena.address
      let pdptIndex := userBase / 2 ^ 30 % tableEntries
      if (← arena.readEntryAt pdpt pdptIndex) &&& present ≠ 0 then
        return (.error .alreadyMapped, arena)
      let ptCount := (← UserMap.highestSlot mappings) + 1
      let needed := firstFreeOffset / pageSize + 1 + ptCount
      if pages < needed then
        return (.error (.arenaTooSmall needed pages), arena)
      let (arena, mappedBytes) ← UserMap.fill arena pdpt pdptIndex firstFreeOffset ptCount mappings
      return (.ok { mappedBytes, tablesUsed := 1 + ptCount }, arena) :
        Checked (Except UserMapError Mapped × TableArena)) = .ok (.error e, arena')) :
    e.Late ∧ arena' = arena := by
  obtain ⟨pdpt, -, h⟩ := Checked.bind_eq_ok.mp h
  obtain ⟨entry, -, h⟩ := Checked.bind_eq_ok.mp h
  by_cases hpresent : entry &&& present ≠ 0
  · rw [if_pos hpresent] at h
    obtain ⟨he, rfl⟩ := Prod.mk.inj (Except.ok.inj h)
    obtain rfl := Except.error.inj he
    exact ⟨trivial, rfl⟩
  rw [if_neg hpresent] at h
  obtain ⟨highest, -, h⟩ := Checked.bind_eq_ok.mp h
  dsimp only at h
  split_ifs at h
  · obtain ⟨he, rfl⟩ := Prod.mk.inj (Except.ok.inj h)
    obtain rfl := Except.error.inj he
    exact ⟨trivial, rfl⟩
  · obtain ⟨s, -, h⟩ := Checked.bind_eq_ok.mp h
    cases (Prod.mk.inj (Except.ok.inj h)).1

/-- What a call that fails has done: nothing, or it has opened the entry of the first level. -/
lemma mapUserRegion_of_error
    (h : mapUserRegion arena pml4Offset firstFreeOffset mappings = .ok (.error e, arena')) :
    ¬ e.Late ∧ (∀ entry, ¬ PassesFirstChecks arena pml4Offset firstFreeOffset mappings entry) ∧
      arena' = arena ∨
    e.Late ∧ ∃ entry, PassesFirstChecks arena pml4Offset firstFreeOffset mappings entry ∧
      (entry.testBit 2 = true ∧ arena' = arena ∨ entry.testBit 2 = false ∧
        arena.writeEntryAt pml4Offset 0 (entry ||| user) = .ok arena') := by
  -- the exits before the first write
  have hearly : ∀ {e' : UserMapError}, ¬ e'.Late →
      (.ok (.error e', arena) : Checked (Except UserMapError Mapped × TableArena)) =
        .ok (.error e, arena') → ¬ e.Late ∧ arena' = arena := by
    intro e' hlate heq
    obtain ⟨he, rfl⟩ := Prod.mk.inj (Except.ok.inj heq)
    obtain rfl := Except.error.inj he
    exact ⟨hlate, rfl⟩
  unfold mapUserRegion at h
  by_cases haddress : arena.address % pageSize ≠ 0
  · rw [if_pos haddress] at h
    obtain ⟨hlate, hsame⟩ := hearly id h
    exact .inl ⟨hlate, fun _ hpasses => haddress hpasses.address_mod, hsame⟩
  rw [if_neg haddress] at h
  by_cases hoffsets : firstFreeOffset % pageSize ≠ 0 ∨ pml4Offset % pageSize ≠ 0
  · rw [if_pos hoffsets] at h
    obtain ⟨hlate, hsame⟩ := hearly id h
    refine .inl ⟨hlate, fun _ hpasses => ?_, hsame⟩
    exact hoffsets.elim (fun hne => hne hpasses.firstFreeOffset_mod)
      fun hne => hne hpasses.pml4Offset_mod
  rw [if_neg hoffsets] at h
  dsimp only at h
  by_cases hempty : mappings.isEmpty = true
  · rw [if_pos hempty] at h
    cases (Prod.mk.inj (Except.ok.inj h)).1
  rw [if_neg hempty] at h
  obtain ⟨r, hcheck, h⟩ := Checked.bind_eq_ok.mp h
  cases r with
  | some e' =>
    obtain ⟨hlate, hsame⟩ := hearly (not_late_of_checkMappings hcheck) h
    refine .inl ⟨hlate, fun _ hpasses => ?_, hsame⟩
    rw [checkMappings_eq_none_iff.mpr hpasses.accepted] at hcheck
    cases hcheck
  | none =>
    obtain ⟨entry, hentry, h⟩ := Checked.bind_eq_ok.mp h
    cases hpresent : entry.testBit 0 with
    | false =>
      rw [if_pos ((and_present_eq_zero_iff entry).mpr hpresent)] at h
      obtain ⟨hlate, hsame⟩ := hearly id h
      refine .inl ⟨hlate, fun entry' hpasses => ?_, hsame⟩
      obtain rfl := Except.ok.inj (hentry.symm.trans hpasses.entry_eq)
      exact Bool.noConfusion (hpresent.symm.trans hpasses.present)
    | true =>
      rw [if_neg (by rw [and_present_eq_zero_iff, hpresent]; decide)] at h
      push Not at haddress hoffsets
      have hpasses : PassesFirstChecks arena pml4Offset firstFreeOffset mappings entry :=
        ⟨haddress, hoffsets.1, hoffsets.2, checkMappings_eq_none_iff.mp hcheck, hentry, hpresent⟩
      have hiff := and_user_eq_zero_iff entry
      cases huser : entry.testBit 2 with
      | true =>
        rw [if_neg (by rw [hiff, huser]; decide)] at h
        obtain ⟨hlate, rfl⟩ := late_of_lastChecks h
        exact .inr ⟨hlate, entry, hpasses, .inl ⟨huser, rfl⟩⟩
      | false =>
        rw [if_pos (hiff.mpr huser)] at h
        obtain ⟨arena₁, hwrite, h⟩ := Checked.bind_eq_ok.mp h
        obtain ⟨hlate, rfl⟩ := late_of_lastChecks h
        exact .inr ⟨hlate, entry, hpasses, .inr ⟨huser, hwrite⟩⟩

/-- The entry of the first level after it has been opened. -/
lemma readEntryAt_of_opened {entry : ℕ} (hread : arena.readEntryAt pml4Offset 0 = .ok entry)
    (hwrite : arena.writeEntryAt pml4Offset 0 (entry ||| user) = .ok arena') :
    arena'.readEntryAt pml4Offset 0 = .ok (entry ||| user) := by
  have hlt : entry ||| user < 2 ^ 64 := Nat.or_lt_two_pow
    (Slice.leWord?_lt (TableArena.readEntryAt_eq_ok_iff.mp hread)) (by decide)
  obtain ⟨hle, -, hbytes⟩ := TableArena.eq_of_writeEntryAt hwrite
  rw [TableArena.readEntryAt_eq_ok_iff, hbytes]
  exact Slice.leWord?_overwrite_self (k := 0) (by rwa [length_leBytes]) (by rw [length_leBytes])
    (List.take_of_length_le (by rw [List.drop_zero, length_leBytes])) hlt

/-- Opening an entry changes it. -/
lemma get?_ne_of_opened {entry : ℕ} (hread : arena.readEntryAt pml4Offset 0 = .ok entry)
    (huser : entry.testBit 2 = false)
    (hwrite : arena.writeEntryAt pml4Offset 0 (entry ||| user) = .ok arena') :
    ¬ ∀ i, arena'.bytes.get? i = arena.bytes.get? i := by
  intro hsame
  have hword := TableArena.readEntryAt_eq_ok_iff.mp (readEntryAt_of_opened hread hwrite)
  rw [Slice.ext hsame, TableArena.readEntryAt_eq_ok_iff.mp hread] at hword
  have hbit : (entry ||| user).testBit 2 = true := by
    rw [Nat.testBit_or, Bool.or_eq_true]
    exact .inr (by decide)
  rw [← Option.some.inj hword, huser] at hbit
  cases hbit

end Failure

/-- **Calls that fail.**  Let `map_user_region` return an error, for any arena, any offsets and any
list of mappings.  Every byte of the arena is as it was unless the arena and the arguments pass the
checks before the first write and the entry of the first level was not open to user mode; in that
case some byte has changed.  Whatever the error, no byte outside of this entry has changed.  The
errors `AlreadyMapped` and `ArenaTooSmall` are the ones for which these checks pass, and they leave
the entry open. -/
theorem failed_map_unchanged_iff (arena arena' : TableArena) (pml4Offset firstFreeOffset : ℕ)
    (mappings : List Mapping) (e : UserMapError)
    (h : mapUserRegion arena pml4Offset firstFreeOffset mappings = .ok (.error e, arena')) :
    ((∀ i, arena'.bytes.get? i = arena.bytes.get? i) ↔
      ¬ ∃ entry, PassesFirstChecks arena pml4Offset firstFreeOffset mappings entry ∧
        entry.testBit 2 = false) ∧
    arena'.address = arena.address ∧ arena'.bytes.length = arena.bytes.length ∧
    (∀ i, i < pml4Offset ∨ pml4Offset + 8 ≤ i →
      arena'.bytes.get? i = arena.bytes.get? i) ∧
    (e.Late ↔ ∃ entry, PassesFirstChecks arena pml4Offset firstFreeOffset mappings entry) ∧
    ∀ entry, PassesFirstChecks arena pml4Offset firstFreeOffset mappings entry →
      arena'.readEntryAt pml4Offset 0 = .ok (entry ||| user) := by
  rcases mapUserRegion_of_error h with
    ⟨hearly, hnot, rfl⟩ | ⟨hlate, entry, hpasses, hcases⟩
  · exact ⟨⟨fun _ ⟨entry, hpasses, _⟩ => hnot entry hpasses, fun _ _ => rfl⟩, rfl, rfl,
      fun _ _ => rfl,
      ⟨fun hcon => absurd hcon hearly, fun ⟨entry, hpasses⟩ => (hnot entry hpasses).elim⟩,
      fun entry hpasses => (hnot entry hpasses).elim⟩
  have hunique : ∀ {entry'}, PassesFirstChecks arena pml4Offset firstFreeOffset mappings entry' →
      entry' = entry :=
    fun hpasses' => Except.ok.inj (hpasses'.entry_eq.symm.trans hpasses.entry_eq)
  have hiff : e.Late ↔
      ∃ entry, PassesFirstChecks arena pml4Offset firstFreeOffset mappings entry :=
    ⟨fun _ => ⟨entry, hpasses⟩, fun _ => hlate⟩
  rcases hcases with ⟨huser, rfl⟩ | ⟨huser, hwrite⟩
  · refine ⟨⟨fun _ ⟨entry', hpasses', huser'⟩ => ?_, fun _ _ => rfl⟩, rfl, rfl, fun _ _ => rfl,
      hiff, fun entry' hpasses' => ?_⟩
    · rw [hunique hpasses', huser] at huser'
      cases huser'
    · rw [hunique hpasses', or_user_of_testBit huser, hpasses.entry_eq]
  · obtain ⟨hle, haddress, hbytes⟩ := TableArena.eq_of_writeEntryAt hwrite
    rw [Nat.zero_mul, Nat.add_zero] at hbytes
    refine ⟨⟨fun hsame => absurd hsame (get?_ne_of_opened hpasses.entry_eq huser hwrite),
      fun hno => absurd ⟨entry, hpasses, huser⟩ hno⟩, haddress,
      by rw [hbytes, Slice.length_overwrite], fun i hi => ?_, hiff, fun entry' hpasses' => ?_⟩
    · rw [hbytes]
      exact Slice.get?_overwrite_of_notMem _ (by rwa [length_leBytes])
    · rw [hunique hpasses']
      exact readEntryAt_of_opened hpasses.entry_eq hwrite

/-- On the small machine a mapping below user space is refused, and nothing changes. -/
theorem failed_map_unchanged_belowBase : ∃ tables arena,
    build (clearedArena 9 (by decide)) smallMap .m2 = .ok (.ok (tables, arena)) ∧
      ∃ arena', mapUserRegion arena 0 (7 * pageSize) [⟨0, 0x104000, pageSize, true⟩] =
          .ok (.error (.belowUserBase 0), arena') ∧
        ∀ i, arena'.bytes.get? i = arena.bytes.get? i := by
  obtain ⟨tables, arena, hbuild, hbuilt⟩ :=
    build_spec (buildable_clearedArena (n := 9) (by decide) (by decide))
  have hmap : mapUserRegion arena 0 (7 * pageSize) [⟨0, 0x104000, pageSize, true⟩] =
      .ok (.error (.belowUserBase 0), arena) := by
    unfold mapUserRegion
    rw [if_neg (not_not.mpr hbuilt.kernelTables.aligned), if_neg (by decide)]
    rfl
  refine ⟨tables, arena, hbuild, arena, hmap,
    (failed_map_unchanged_iff arena arena 0 _ _ _ hmap).1.mpr ?_⟩
  rintro ⟨entry, hpasses, -⟩
  exact absurd (hpasses.accepted _ List.mem_cons_self).userBase_le (by decide)

/-- On the small machine the arena has eight pages, one too few for the page at the start of user
space.  The call fails, and the entry of the first level is open to user mode afterwards. -/
theorem failed_map_opens_entry : ∃ tables arena,
    build (clearedArena 8 (by decide)) smallMap .m2 = .ok (.ok (tables, arena)) ∧
      ∃ arena' entry, mapUserRegion arena 0 (7 * pageSize) [onePage] =
          .ok (.error (.arenaTooSmall 9 8), arena') ∧
        arena.readEntryAt 0 0 = .ok entry ∧ entry.testBit 2 = false ∧
        arena'.readEntryAt 0 0 = .ok (entry ||| user) ∧
        ¬ ∀ i, arena'.bytes.get? i = arena.bytes.get? i := by
  obtain ⟨tables, arena, hbuild, hbuilt⟩ :=
    build_spec (buildable_clearedArena (n := 8) (by decide) (by decide))
  have hkernel := hbuilt.kernelTables
  have hlength : arena.bytes.length = 8 * pageSize := by
    rw [hbuilt.stage.length_eq, length_clearedArena]
  have hmap : mapUserRegion arena 0 (7 * pageSize) [onePage] =
      .ok (.error (.arenaTooSmall 9 8), arena.opened) := by
    have hhighest : UserMap.highestSlot [onePage] = .ok 0 := by decide +kernel
    rw [hkernel.mapUserRegion_eq (List.cons_ne_nil _ _)
      (List.forall_mem_singleton.mpr accepted_onePage), hhighest, Checked.ok_bind, hlength,
      if_pos (by decide)]
    rfl
  rcases mapUserRegion_of_error hmap with ⟨hearly, -⟩ | ⟨-, entry, hpasses, hcases⟩
  · exact absurd trivial hearly
  · have hread := hpasses.entry_eq
    have huser : entry.testBit 2 = false := by
      have hword := @TableArena.readEntryAt_eq arena 0 0 (by rw [hlength]; decide)
      rw [Nat.zero_mul, hread, hkernel.pml4] at hword
      rw [Except.ok.inj hword, testBit_entry (takePage_mod hkernel.aligned 1) (by decide)]
      decide
    rcases hcases with ⟨hcon, -⟩ | ⟨-, hwrite⟩
    · rw [huser] at hcon
      cases hcon
    · exact ⟨tables, arena, hbuild, arena.opened, entry, hmap, hread, huser,
        readEntryAt_of_opened hread hwrite, get?_ne_of_opened hread huser hwrite⟩

end KernelMemory

end ParanukOS
