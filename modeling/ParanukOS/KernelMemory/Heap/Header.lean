import ParanukOS.KernelMemory.Heap.Model

/-!
# Block headers in the arena

What `readHeader` and `writeHeader` do, stated once: a header that has been written is read back,
a write changes nothing outside of its 24 bytes, and a header depends on nothing else.  `setHeader`
is the arena after a write that fits; all later proofs work with it and never look at bytes.
-/

namespace ParanukOS

open Foundation

namespace Heap

/-- The 24 bytes of a header. -/
def headerBytes (magic size next : ℕ) : List UInt8 :=
  leBytes 4 magic ++ leBytes 4 0 ++ leBytes 8 size ++ leBytes 8 next

@[simp] lemma length_headerBytes (magic size next : ℕ) :
    (headerBytes magic size next).length = 24 := by
  simp [headerBytes]

/-- The arena with a header written at `offset`. -/
def setHeader (arena : Slice UInt8) (offset magic size next : ℕ) : Slice UInt8 :=
  arena.overwrite offset (headerBytes magic size next)

@[simp] lemma length_setHeader (arena : Slice UInt8) (offset magic size next : ℕ) :
    (setHeader arena offset magic size next).length = arena.length := by
  simp [setHeader]

/-- A header that fits is written. -/
lemma writeHeader_of_le {arena : Slice UInt8} {offset : ℕ} (h : offset + 24 ≤ arena.length)
    (magic size next : ℕ) :
    writeHeader arena offset magic size next = .ok (setHeader arena offset magic size next) := by
  have h1 : offset + (leBytes 4 magic).length ≤ arena.length := by simp only [length_leBytes]; omega
  have h2 : offset + 4 + (leBytes 4 0).length ≤
      (arena.overwrite offset (leBytes 4 magic)).length := by
    simp only [length_leBytes, Slice.length_overwrite]; omega
  have e2 : (arena.overwrite offset (leBytes 4 magic)).overwrite (offset + 4) (leBytes 4 0) =
      arena.overwrite offset (leBytes 4 magic ++ leBytes 4 0) := by
    have := Slice.overwrite_overwrite_append arena offset (leBytes 4 magic) (leBytes 4 0)
      (by simp only [length_leBytes]; omega)
    simpa only [length_leBytes] using this
  have h3 : offset + 8 + (leBytes 8 size).length ≤
      (arena.overwrite offset (leBytes 4 magic ++ leBytes 4 0)).length := by
    simp only [length_leBytes, Slice.length_overwrite]; omega
  have e3 : (arena.overwrite offset (leBytes 4 magic ++ leBytes 4 0)).overwrite (offset + 8)
      (leBytes 8 size) = arena.overwrite offset (leBytes 4 magic ++ leBytes 4 0 ++
      leBytes 8 size) := by
    have := Slice.overwrite_overwrite_append arena offset (leBytes 4 magic ++ leBytes 4 0)
      (leBytes 8 size)
      (by simp only [List.length_append, length_leBytes]; omega)
    simpa only [List.length_append, length_leBytes] using this
  have h4 : offset + 16 + (leBytes 8 next).length ≤
      (arena.overwrite offset (leBytes 4 magic ++ leBytes 4 0 ++ leBytes 8 size)).length := by
    simp only [length_leBytes, Slice.length_overwrite]; omega
  have e4 := Slice.overwrite_overwrite_append arena offset
    (leBytes 4 magic ++ leBytes 4 0 ++ leBytes 8 size) (leBytes 8 next)
    (by simp only [List.length_append, length_leBytes]; omega)
  simp only [List.length_append, length_leBytes] at e4
  unfold writeHeader
  rw [Slice.write_of_le h1, Checked.ok_bind, Slice.write_of_le h2, e2, Checked.ok_bind,
    Slice.write_of_le h3, e3, Checked.ok_bind, Slice.write_of_le h4, e4]
  rfl

/-- Writing a header does not change the length of the arena. -/
lemma length_of_writeHeader {arena arena' : Slice UInt8} {offset magic size next : ℕ}
    (h : writeHeader arena offset magic size next = .ok arena') :
    arena'.length = arena.length := by
  unfold writeHeader at h
  obtain ⟨a₁, h₁, h⟩ := Checked.bind_eq_ok.mp h
  obtain ⟨a₂, h₂, h⟩ := Checked.bind_eq_ok.mp h
  obtain ⟨a₃, h₃, h₄⟩ := Checked.bind_eq_ok.mp h
  rw [(Slice.write_eq_ok_iff.mp h₄).2, Slice.length_overwrite, (Slice.write_eq_ok_iff.mp h₃).2,
    Slice.length_overwrite, (Slice.write_eq_ok_iff.mp h₂).2, Slice.length_overwrite,
    (Slice.write_eq_ok_iff.mp h₁).2, Slice.length_overwrite]

/-- A header is three words, provided that its 24 bytes are in the arena. -/
lemma readHeader_eq_some_iff {arena : Slice UInt8} {offset magic size next : ℕ} :
    readHeader arena offset = some (magic, size, next) ↔
      offset + 24 ≤ arena.length ∧ arena.leWord? offset 4 = some magic ∧
        arena.leWord? (offset + 8) 8 = some size ∧ arena.leWord? (offset + 16) 8 = some next := by
  have hlen := arena.length_lt'
  by_cases hle : offset + 24 ≤ arena.length
  · have hr := Slice.range?_of_le (s := arena) hle
    have hadd : checkedAdd offset 24 = some (offset + 24) := checkedAdd_of_lt (by omega)
    have r0 := Slice.range?_of_range? hr (k := 0) (n := 4) (by omega)
    have r1 := Slice.range?_of_range? hr (k := 8) (n := 8) (by omega)
    have r2 := Slice.range?_of_range? hr (k := 16) (n := 8) (by omega)
    simp only [Nat.add_zero, List.drop_zero] at r0
    simp only [readHeader, hadd, Slice.leWord?, r0, r1, r2, headerSize, hr, Option.bind_eq_bind,
      Option.bind_some, Option.pure_def, Option.map_some, Option.some.injEq, Prod.mk.injEq, hle,
      true_and]
  · constructor
    · intro h
      have hr : arena.range? offset headerSize = none :=
        Slice.range?_eq_none_iff.mpr (by simp only [headerSize]; omega)
      simp only [readHeader, hr, Option.bind_eq_bind, Option.bind_none] at h
      cases hc : checkedAdd offset headerSize <;> simp [hc] at h
    · exact fun h => absurd h.1 hle

/-- Every header that lies in the arena can be read. -/
lemma readHeader_isSome {arena : Slice UInt8} {offset : ℕ} (h : offset + 24 ≤ arena.length) :
    ∃ magic size next, readHeader arena offset = some (magic, size, next) := by
  obtain ⟨magic, h1⟩ := Slice.leWord?_isSome (show offset + 4 ≤ arena.length by omega)
  obtain ⟨size, h2⟩ := Slice.leWord?_isSome (show offset + 8 + 8 ≤ arena.length by omega)
  obtain ⟨next, h3⟩ := Slice.leWord?_isSome (show offset + 16 + 8 ≤ arena.length by omega)
  exact ⟨magic, size, next, readHeader_eq_some_iff.mpr ⟨h, h1, h2, h3⟩⟩

/-- There is no header at the end mark. -/
lemma readHeader_noneOffset (arena : Slice UInt8) : readHeader arena noneOffset = none := by
  cases hread : readHeader arena noneOffset with
  | none => rfl
  | some header =>
    obtain ⟨magic, size, next⟩ := header
    have hle := (readHeader_eq_some_iff.mp hread).1
    have hlen := arena.length_lt'
    simp only [noneOffset] at hle
    omega

/-- A header depends on its 24 bytes only. -/
lemma readHeader_congr {arena arena' : Slice UInt8} {offset : ℕ}
    (hlen : arena'.length = arena.length)
    (h : ∀ i, offset ≤ i → i < offset + 24 → arena'.get? i = arena.get? i) :
    readHeader arena' offset = readHeader arena offset := by
  have hr : arena'.range? offset headerSize = arena.range? offset headerSize :=
    Slice.range?_congr hlen h
  simp only [readHeader, hr]

/-- A header just written is read back. -/
lemma readHeader_setHeader_self {arena : Slice UInt8} {offset magic size next : ℕ}
    (h : offset + 24 ≤ arena.length) (hm : magic < 2 ^ 32) (hs : size < 2 ^ 64)
    (hn : next < 2 ^ 64) :
    readHeader (setHeader arena offset magic size next) offset = some (magic, size, next) := by
  have hb : offset + (headerBytes magic size next).length ≤ arena.length := by
    rwa [length_headerBytes]
  have d0 : (headerBytes magic size next).take 4 = leBytes 4 magic := by
    simp [headerBytes, List.append_assoc, List.take_left']
  have d8 : ((headerBytes magic size next).drop 8).take 8 = leBytes 8 size := by
    rw [headerBytes, List.append_assoc, List.drop_left' (by simp), List.take_left' (by simp)]
  have d16 : ((headerBytes magic size next).drop 16).take 8 = leBytes 8 next := by
    rw [headerBytes, List.drop_left' (by simp), List.take_of_length_le (by simp)]
  refine readHeader_eq_some_iff.mpr ⟨by rwa [length_setHeader], ?_, ?_, ?_⟩
  · exact Slice.leWord?_overwrite_self (k := 0) hb (by simp) d0 (by norm_num; exact hm)
  · exact Slice.leWord?_overwrite_self (k := 8) hb (by simp) d8 (by norm_num; exact hs)
  · exact Slice.leWord?_overwrite_self (k := 16) hb (by simp) d16 (by norm_num; exact hn)

/-- Writing a header changes no byte outside of it. -/
lemma get?_setHeader_of_notMem (arena : Slice UInt8) {offset i : ℕ} (magic size next : ℕ)
    (h : i < offset ∨ offset + 24 ≤ i) :
    (setHeader arena offset magic size next).get? i = arena.get? i :=
  Slice.get?_overwrite_of_notMem arena (by rwa [length_headerBytes])

/-- Headers that do not overlap may be written in any order. -/
lemma setHeader_comm (arena : Slice UInt8) {offset offset' magic size next magic' size' next' : ℕ}
    (h : offset + 24 ≤ offset' ∨ offset' + 24 ≤ offset) :
    setHeader (setHeader arena offset magic size next) offset' magic' size' next' =
      setHeader (setHeader arena offset' magic' size' next') offset magic size next :=
  Slice.overwrite_comm arena (by simpa only [length_headerBytes] using h)

/-- Writing a header leaves every header alone that it does not overlap. -/
lemma readHeader_setHeader_of_disjoint (arena : Slice UInt8) {offset offset' : ℕ}
    (magic size next : ℕ) (h : offset' + 24 ≤ offset ∨ offset + 24 ≤ offset') :
    readHeader (setHeader arena offset magic size next) offset' = readHeader arena offset' :=
  readHeader_congr (length_setHeader _ _ _ _ _) fun i hi hi' =>
    get?_setHeader_of_notMem arena magic size next (by omega)

end Heap

end ParanukOS
