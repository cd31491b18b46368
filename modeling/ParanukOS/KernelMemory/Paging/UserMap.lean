import Mathlib.Algebra.BigOperators.Group.List.Basic
import ParanukOS.KernelMemory.Paging.Walk

/-!
# User mappings

`mapUserRegion` adds user space to the tables of the identity map.  It opens the entry of the first
level to user mode, hangs a table of the third level below the second one, and fills tables of the
fourth level behind the tables of the kernel.  We compute the words it leaves, page by page and
mapping by mapping: an entry of the fourth level belongs to the last mapping that covers its page.

## Outline

* `Mapping.Covers`, `lastCovering`: what the list of mappings means.
* `checkMappings_eq_none_iff`, `highestSlot_spec`: the two loops that only read.
* `fillTables_spec`, `mapPage_spec`, `fillMappings_spec`: the loops that write.
* `UserMapped`, `mapUserRegion_spec`, `userMapped_of_mapUserRegion`: the whole function.
-/

namespace ParanukOS

open Foundation

namespace KernelMemory

lemma userMaxBytes_eq : userMaxBytes = 2 ^ 30 := rfl

/-! ## The meaning of mappings -/

namespace Mapping

/-- The address belongs to the mapping. -/
def Covers (self : Mapping) (va : ℕ) : Prop := self.vaddr ≤ va ∧ va < self.vaddr + self.size

instance (self : Mapping) (va : ℕ) : Decidable (self.Covers va) :=
  inferInstanceAs (Decidable (_ ∧ _))

/-- The flags of the pages of a mapping. -/
def flags (self : Mapping) : ℕ :=
  if self.writable then present ||| user ||| KernelMemory.writable else present ||| user

/-- The entry for the page at the user address `va`. -/
def entry (self : Mapping) (va : ℕ) : ℕ := (self.paddr + (va - self.vaddr)) ||| self.flags

/-- A mapping that passes the checks. -/
structure Accepted (m : Mapping) : Prop where
  userBase_le : userBase ≤ m.vaddr
  stop_le : m.vaddr + m.size ≤ userBase + userMaxBytes
  vaddr_mod : m.vaddr % pageSize = 0
  paddr_mod : m.paddr % pageSize = 0
  size_mod : m.size % pageSize = 0
  size_ne : m.size ≠ 0

lemma flags_lt (self : Mapping) : self.flags < 4096 := by
  rw [flags]
  split_ifs <;> decide

/-- The permissions of a page. -/
lemma testBit_flags (self : Mapping) : self.flags.testBit 0 = true ∧
    self.flags.testBit 1 = self.writable ∧ self.flags.testBit 2 = true := by
  cases h : self.writable <;> simp only [flags, h] <;> decide

end Mapping

/-- The last mapping of the list that covers an address. -/
def lastCovering (mappings : List Mapping) (va : ℕ) : Option Mapping :=
  mappings.reverse.find? fun m => decide (m.Covers va)

lemma lastCovering_append (done : List Mapping) (m : Mapping) (va : ℕ) :
    lastCovering (done ++ [m]) va = if m.Covers va then some m else lastCovering done va := by
  rw [lastCovering, List.reverse_append, List.reverse_singleton, List.singleton_append,
    List.find?_cons]
  split_ifs with h
  · rw [decide_eq_true h]
  · rw [decide_eq_false h]
    rfl

/-- Some mapping covers an address if and only if there is a last one. -/
lemma lastCovering_eq_none_iff {mappings : List Mapping} {va : ℕ} :
    lastCovering mappings va = none ↔ ∀ m ∈ mappings, ¬ m.Covers va := by
  simp [lastCovering]

lemma mem_of_lastCovering {mappings : List Mapping} {va : ℕ} {m : Mapping}
    (h : lastCovering mappings va = some m) : m ∈ mappings ∧ m.Covers va := by
  refine ⟨List.mem_reverse.mp (List.mem_of_find?_eq_some h), ?_⟩
  simpa using List.find?_some h

/-- An address is covered as the start of its page is. -/
lemma lastCovering_page {mappings : List Mapping} (h : ∀ m ∈ mappings, m.Accepted) {p va : ℕ}
    (hp : (va - userBase) / pageSize = p) (hva : userBase ≤ va) :
    lastCovering mappings (userBase + p * pageSize) = lastCovering mappings va := by
  have hiff : ∀ m ∈ mappings.reverse,
      decide (m.Covers (userBase + p * pageSize)) = decide (m.Covers va) := by
    intro m hm
    have hacc := h m (List.mem_reverse.mp hm)
    have h1 := hacc.vaddr_mod
    have h2 := hacc.size_mod
    have h3 := hacc.userBase_le
    refine decide_eq_decide.mpr ?_
    simp only [Mapping.Covers, pageSize, userBase] at *
    omega
  rw [lastCovering, lastCovering]
  exact List.find?_congr hiff

/-! ## The loops that only read -/

/-- A mapping passes the checks. -/
lemma checkMapping_eq_none_iff {m : Mapping} :
    UserMap.checkMapping m = .ok none ↔ m.Accepted := by
  have hbase : userBase + userMaxBytes < 2 ^ 64 := by decide
  rw [UserMap.checkMapping, Mapping.vaddrEnd]
  by_cases h1 : m.vaddr < userBase
  · rw [if_pos h1]
    refine ⟨fun h => by simp at h, fun h => absurd h1 (not_lt.mpr h.userBase_le)⟩
  rw [if_neg h1]
  by_cases h2 : m.vaddr + m.size < 2 ^ 64
  · rw [addWord_of_lt h2, Checked.ok_bind, Checked.ok_bind]
    split_ifs with h3 h4
    · exact ⟨fun h => by simp at h, fun h => absurd h3 (not_lt.mpr h.stop_le)⟩
    · refine ⟨fun h => by simp at h, fun h => ?_⟩
      rcases h4 with h4 | h4 | h4 | h4
      · exact absurd h.vaddr_mod h4
      · exact absurd h.paddr_mod h4
      · exact absurd h.size_mod h4
      · exact absurd h4 h.size_ne
    · push Not at h4
      exact ⟨fun _ => ⟨not_lt.mp h1, not_lt.mp h3, h4.1, h4.2.1, h4.2.2.1, h4.2.2.2⟩, fun _ => rfl⟩
  · rw [show addWord m.vaddr m.size = .error .overflow from if_neg h2, Checked.error_bind]
    refine ⟨fun h => by simp at h, fun h => ?_⟩
    have := h.stop_le
    omega

lemma checkMappings_eq_none_iff {mappings : List Mapping} :
    UserMap.checkMappings mappings = .ok none ↔ ∀ m ∈ mappings, m.Accepted := by
  induction mappings with
  | nil => simp [UserMap.checkMappings]
  | cons m mappings ih =>
    rw [UserMap.checkMappings, List.forall_mem_cons, ← checkMapping_eq_none_iff, ← ih]
    cases hm : UserMap.checkMapping m with
    | error e => simp
    | ok r => cases r <;> simp

/-- The table of the fourth level with the last page of a mapping. -/
def Mapping.lastSlot (self : Mapping) : ℕ :=
  (self.vaddr + self.size - userBase - 1) / pageSize / tableEntries

lemma Mapping.Accepted.lastSlot_lt {m : Mapping} (h : m.Accepted) : m.lastSlot < tableEntries := by
  have h1 := h.userBase_le
  have h2 := h.stop_le
  have h3 := h.size_ne
  simp only [Mapping.lastSlot, userBase, userMaxBytes_eq, tableEntries, pageSize] at *
  omega

/-- The highest table is one of the tables, and no mapping reaches beyond it. -/
lemma highestSlot_spec {mappings : List Mapping} (h : ∀ m ∈ mappings, m.Accepted) :
    ∃ highest, UserMap.highestSlot mappings = .ok highest ∧ highest < tableEntries ∧
      (∀ m ∈ mappings, m.lastSlot ≤ highest) ∧
      (highest = 0 ∨ ∃ m ∈ mappings, m.lastSlot = highest) := by
  refine foldlM_rule
    (fun (done : List Mapping) highest => highest < tableEntries ∧
      (∀ m ∈ done, m.lastSlot ≤ highest) ∧ (highest = 0 ∨ ∃ m ∈ done, m.lastSlot = highest))
    ⟨by decide, fun m hm => absurd hm List.not_mem_nil, .inl rfl⟩
    fun done m rest highest hl hP => ?_
  have hacc := h m (by rw [hl]; simp)
  have h1 := hacc.userBase_le
  have h2 := hacc.stop_le
  have h3 := hacc.size_ne
  have hbase : userBase + userMaxBytes < 2 ^ 64 := by decide
  refine ⟨max highest m.lastSlot, ?_, Nat.max_lt.mpr ⟨hP.1, hacc.lastSlot_lt⟩, fun m' hm' => ?_,
    ?_⟩
  · rw [Mapping.vaddrEnd, addWord_of_lt (by omega), Checked.ok_bind, subWord_of_le (by omega),
      Checked.ok_bind, subWord_of_le (by omega)]
    rfl
  · rcases List.mem_append.mp hm' with hm' | hm'
    · exact le_trans (hP.2.1 m' hm') (le_max_left _ _)
    · rw [List.mem_singleton.mp hm']
      exact le_max_right _ _
  · rcases le_total highest m.lastSlot with hle | hle
    · rw [max_eq_right hle]
      exact .inr ⟨m, List.mem_append_right _ (List.mem_singleton_self m), rfl⟩
    · rw [max_eq_left hle]
      refine hP.2.2.imp_right ?_
      rintro ⟨m', hm', heq⟩
      exact ⟨m', List.mem_append_left _ hm', heq⟩

/-! ## The loops that write -/

section Words

variable {arena₀ arena : TableArena} {stop first ptCount : ℕ} {words : ℕ → ℕ}

/-- The entry for a table of user space. -/
def userTable (base page : ℕ) : ℕ := Build.takePage base page ||| present ||| writable ||| user

/-- The words after the first `n` tables of the fourth level are added: their entries in the table
`first`, and the cleared pages behind it. -/
def tableWords (words : ℕ → ℕ) (base first n : ℕ) : ℕ → ℕ :=
  overlay (overlay words (first * 512) n fun slot => userTable base (first + 1 + slot))
    ((first + 1) * 512) (n * 512) fun _ => 0

/-- The entry for the page `p` of user space. -/
def leafWord (mappings : List Mapping) (p : ℕ) : ℕ :=
  match lastCovering mappings (userBase + p * pageSize) with
  | none => 0
  | some m => m.entry (userBase + p * pageSize)

lemma leafWord_append (done : List Mapping) (m : Mapping) (p : ℕ) :
    leafWord (done ++ [m]) p =
      if m.Covers (userBase + p * pageSize) then m.entry (userBase + p * pageSize)
      else leafWord done p := by
  rw [leafWord, lastCovering_append]
  split_ifs <;> rfl

lemma Stage.congr {words' : ℕ → ℕ} (h : Stage arena₀ stop words arena)
    (heq : ∀ k, words k = words' k) : Stage arena₀ stop words' arena :=
  ⟨h.address_eq, h.length_eq, fun k => (h.word_eq k).trans (heq k), h.get?_eq⟩

lemma clear_page_eq (page : ℕ) (h : (page + 1) * pageSize ≤ arena.bytes.length) :
    arena.clear (page * pageSize) pageSize = .ok (arena.clearWords (page * 512) 512) := by
  have := TableArena.clear_eq page 1 h
  rwa [one_mul, one_mul] at this

/-- One round of the loop over the new tables. -/
lemma addTable_spec (hstop : stop ≤ arena₀.bytes.length) {slot : ℕ}
    (hslot : (first + 1 + slot + 1) * pageSize ≤ stop) (hle : slot < 512)
    (h : Stage arena₀ stop (tableWords words arena₀.address first slot) arena) :
    ∃ arena', UserMap.addTable (first * pageSize) slot arena = .ok arena' ∧
      Stage arena₀ stop (tableWords words arena₀.address first (slot + 1)) arena' := by
  have hlen := h.length_eq
  have htop := arena₀.stop_le
  simp only [pageSize] at hslot
  have hentry : userTable arena₀.address (first + 1 + slot) < 2 ^ 64 := by
    rw [userTable, Nat.or_assoc, Nat.or_assoc]
    refine entry_lt ?_ (by decide)
    simp only [Build.takePage, pageSize]
    omega
  have hclear := h.clearWords hstop (k := (first + 1 + slot) * 512) (m := 512) (by linarith)
  have hset := hclear.setWord hstop (k := first * 512 + slot) (by omega) hentry
  refine ⟨_, ?_, hset.congr fun k => ?_⟩
  · have hfirst : first * pageSize / pageSize = first := Nat.mul_div_cancel _ (by decide)
    unfold UserMap.addTable
    simp only [hfirst]
    rw [clear_page_eq _ (by simp only [pageSize]; omega), Checked.ok_bind,
      TableArena.writeEntryAt_eq (by rw [hclear.length_eq]; omega), ← h.address_eq]
    rfl
  · simp only [Function.update_apply, tableWords, overlay]
    by_cases hk : k = first * 512 + slot
    · subst hk
      rw [if_pos rfl, if_neg (by omega), if_pos (by omega), Nat.add_sub_cancel_left]
    · rw [if_neg hk]
      split_ifs <;> first | rfl | omega

/-- The loop over the new tables. -/
lemma fillTables_spec (hstop : stop ≤ arena₀.bytes.length)
    (hroom : (first + 1 + ptCount) * pageSize ≤ stop) (hpt : ptCount ≤ 512)
    (h : Stage arena₀ stop words arena) :
    ∃ arena', (forRange ptCount arena fun slot arena =>
        UserMap.addTable (first * pageSize) slot arena) = .ok arena' ∧
      Stage arena₀ stop (tableWords words arena₀.address first ptCount) arena' := by
  refine forRange_rule (fun n => Stage arena₀ stop (tableWords words arena₀.address first n)) ?_
    fun slot hslot arena hs => addTable_spec hstop ?_ (by omega) hs
  · rw [tableWords, Nat.zero_mul, overlay_zero, overlay_zero]
    exact h
  · exact le_trans (Nat.mul_le_mul_right _ (by omega)) hroom

/-- The number of the first page of a mapping in user space. -/
def Mapping.firstPage (self : Mapping) : ℕ := (self.vaddr - userBase) / pageSize

/-- The pages of a mapping lie in the new tables. -/
lemma Mapping.Accepted.page_lt {m : Mapping} (h : m.Accepted) (hlast : m.lastSlot < ptCount) :
    m.firstPage + m.size / pageSize ≤ ptCount * 512 := by
  have h1 := h.userBase_le
  have h2 := h.vaddr_mod
  have h3 := h.size_mod
  have h4 := h.size_ne
  simp only [Mapping.lastSlot, Mapping.firstPage, userBase, tableEntries, pageSize] at *
  omega

/-- The page `index` of a mapping. -/
lemma Mapping.Accepted.page_eq {m : Mapping} (h : m.Accepted) (index : ℕ) :
    userBase + (m.firstPage + index) * pageSize = m.vaddr + index * pageSize := by
  have h1 := h.userBase_le
  have h2 := h.vaddr_mod
  simp only [Mapping.firstPage, userBase, pageSize] at *
  omega

/-- One round of the loop over the pages of a mapping. -/
lemma mapPage_spec (hstop : stop ≤ arena₀.bytes.length)
    (hroom : (first + 1 + ptCount) * pageSize ≤ stop) (hpt : ptCount ≤ 512) {m : Mapping}
    (hm : m.Accepted) (hlast : m.lastSlot < ptCount) (hpaddr : m.paddr + m.size ≤ 2 ^ 64)
    {index : ℕ} (hindex : index < m.size / pageSize) {s : TableArena × ℕ}
    (hbytes : s.2 + pageSize < 2 ^ 64)
    (h : Stage arena₀ stop (overlay words ((first + 1) * 512 + m.firstPage) index fun j =>
      m.entry (userBase + (m.firstPage + j) * pageSize)) s.1) :
    ∃ s', UserMap.mapPage first ptCount m index s = .ok s' ∧
      Stage arena₀ stop (overlay words ((first + 1) * 512 + m.firstPage) (index + 1) fun j =>
        m.entry (userBase + (m.firstPage + j) * pageSize)) s'.1 ∧ s'.2 = s.2 + pageSize := by
  have hpos : 0 < pageSize := by decide
  have hpage := hm.page_lt hlast
  have haddr := hm.page_eq index
  have hsub : m.vaddr + index * pageSize - m.vaddr = index * pageSize := Nat.add_sub_cancel_left _ _
  have hoff : index * pageSize + pageSize ≤ m.size := by
    calc index * pageSize + pageSize = (index + 1) * pageSize := (Nat.succ_mul _ _).symm
      _ ≤ m.size / pageSize * pageSize := Nat.mul_le_mul_right _ hindex
      _ ≤ m.size := Nat.div_mul_le_self _ _
  have htop : m.vaddr + m.size ≤ userBase + 2 ^ 30 := hm.stop_le
  have hlow := hm.userBase_le
  have hindex' : (m.vaddr + index * pageSize - userBase) / pageSize = m.firstPage + index := by
    rw [← haddr, Nat.add_sub_cancel_left]
    exact Nat.mul_div_cancel _ (by decide)
  have hvalue : (m.paddr + index * pageSize) ||| m.flags =
      m.entry (userBase + (m.firstPage + index) * pageSize) := by
    rw [haddr, Mapping.entry, hsub]
  have hentry : m.entry (userBase + (m.firstPage + index) * pageSize) < 2 ^ 64 := by
    rw [← hvalue]
    exact Nat.or_lt_two_pow (by omega) (lt_trans m.flags_lt (by norm_num))
  have hslot : (m.firstPage + index) / 512 < ptCount := by omega
  have hplace : (first + 1 + (m.firstPage + index) / 512) * 512 + (m.firstPage + index) % 512 =
      (first + 1) * 512 + m.firstPage + index := by omega
  have hin : 8 * ((first + 1) * 512 + m.firstPage + index) + 8 ≤ stop := by
    simp only [pageSize] at hroom
    omega
  refine ⟨(s.1.setWord ((first + 1) * 512 + m.firstPage + index)
    (m.entry (userBase + (m.firstPage + index) * pageSize)), s.2 + pageSize), ?_,
    h.fill hstop hin hentry, rfl⟩
  have hoffset : UserMap.ptOffset first ptCount ((m.firstPage + index) / tableEntries) =
      .ok ((first + 1 + (m.firstPage + index) / 512) * pageSize) := by
    rw [UserMap.ptOffset, tableEntries, if_neg (by omega), if_pos hslot]
  have hbase : userBase = 2 ^ 32 := rfl
  unfold UserMap.mapPage
  rw [mulWord_of_lt (by omega), Checked.ok_bind, addWord_of_lt (by omega), Checked.ok_bind,
    subWord_of_le (by omega), Checked.ok_bind, hindex']
  simp only
  rw [hoffset, Checked.ok_bind, Checked.ok_bind,
    addWord_of_lt (show m.paddr + index * pageSize < 2 ^ 64 by omega), Checked.ok_bind,
    show (if m.writable then present ||| user ||| writable else present ||| user) =
      m.flags from rfl,
    hvalue, tableEntries, TableArena.writeEntryAt_eq (by rw [h.length_eq, hplace]; omega), hplace,
    Checked.ok_bind, addWord_of_lt hbytes]
  rfl

/-- After all pages of a mapping, its entries replace those of the mappings before. -/
lemma overlay_leafWord {m : Mapping} (hm : m.Accepted) (hlast : m.lastSlot < ptCount)
    (done : List Mapping) (k : ℕ) :
    overlay (overlay words ((first + 1) * 512) (ptCount * 512) (leafWord done))
        ((first + 1) * 512 + m.firstPage) (m.size / pageSize)
        (fun j => m.entry (userBase + (m.firstPage + j) * pageSize)) k =
      overlay words ((first + 1) * 512) (ptCount * 512) (leafWord (done ++ [m])) k := by
  have hpage := hm.page_lt hlast
  by_cases hk : (first + 1) * 512 ≤ k ∧ k < (first + 1) * 512 + ptCount * 512
  · obtain ⟨p, rfl⟩ := Nat.exists_eq_add_of_le hk.1
    have hcovers : m.Covers (userBase + p * pageSize) ↔
        m.firstPage ≤ p ∧ p < m.firstPage + m.size / pageSize := by
      have h1 := hm.userBase_le
      have h2 := hm.vaddr_mod
      have h3 := hm.size_mod
      simp only [Mapping.Covers, Mapping.firstPage, userBase, pageSize] at *
      omega
    rw [overlay_of_mem (by omega : p < ptCount * 512), leafWord_append]
    by_cases hin : m.firstPage ≤ p ∧ p < m.firstPage + m.size / pageSize
    · obtain ⟨j, rfl⟩ := Nat.exists_eq_add_of_le hin.1
      rw [if_pos (hcovers.mpr hin), ← Nat.add_assoc, overlay_of_mem (by omega)]
    · rw [if_neg (mt hcovers.mp hin), overlay_of_notMem (by omega),
        overlay_of_mem (by omega : p < ptCount * 512)]
  · rw [overlay_of_notMem (by omega), overlay_of_notMem (by omega), overlay_of_notMem (by omega)]

/-- The loop over all mappings. -/
lemma fillMappings_spec (hstop : stop ≤ arena₀.bytes.length)
    (hroom : (first + 1 + ptCount) * pageSize ≤ stop) (hpt : ptCount ≤ 512)
    {mappings : List Mapping} (hacc : ∀ m ∈ mappings, m.Accepted)
    (hlast : ∀ m ∈ mappings, m.lastSlot < ptCount)
    (hpaddr : ∀ m ∈ mappings, m.paddr + m.size ≤ 2 ^ 64)
    (hsum : (mappings.map Mapping.size).sum < 2 ^ 64)
    (h : Stage arena₀ stop (overlay words ((first + 1) * 512) (ptCount * 512) fun _ => 0) arena) :
    ∃ s, mappings.foldlM (fun s m => forRange (m.size / pageSize) s fun index s =>
        UserMap.mapPage first ptCount m index s) (arena, 0) = .ok s ∧
      Stage arena₀ stop (overlay words ((first + 1) * 512) (ptCount * 512)
        (leafWord mappings)) s.1 ∧
      s.2 = (mappings.map Mapping.size).sum := by
  refine foldlM_rule (fun (done : List Mapping) (s : TableArena × ℕ) =>
    Stage arena₀ stop (overlay words ((first + 1) * 512) (ptCount * 512) (leafWord done)) s.1 ∧
      s.2 = (done.map Mapping.size).sum) ⟨h, rfl⟩ fun done m rest s hl hs => ?_
  have hmem : m ∈ mappings := by rw [hl]; simp
  have hm := hacc m hmem
  have hsize : m.size / pageSize * pageSize = m.size := Nat.div_mul_cancel
    (Nat.dvd_of_mod_eq_zero hm.size_mod)
  have hle : (done.map Mapping.size).sum + m.size ≤ (mappings.map Mapping.size).sum := by
    rw [hl, List.map_append, List.sum_append, List.map_cons, List.sum_cons]
    omega
  -- inside of one mapping, the entries of the pages done lie over those of the mappings done
  let P : ℕ → TableArena × ℕ → Prop := fun index s =>
    Stage arena₀ stop (overlay (overlay words ((first + 1) * 512) (ptCount * 512) (leafWord done))
      ((first + 1) * 512 + m.firstPage) index
      fun j => m.entry (userBase + (m.firstPage + j) * pageSize)) s.1 ∧
    s.2 = (done.map Mapping.size).sum + index * pageSize
  have hzero : P 0 s :=
    ⟨by rw [overlay_zero]; exact hs.1, by rw [hs.2, Nat.zero_mul, Nat.add_zero]⟩
  obtain ⟨s', hs', hstage, hbytes⟩ : ∃ s', (forRange (m.size / pageSize) s fun index s =>
      UserMap.mapPage first ptCount m index s) = .ok s' ∧ P (m.size / pageSize) s' := by
    refine forRange_rule P hzero fun index hindex s hs => ?_
    have hnext : (index + 1) * pageSize ≤ m.size / pageSize * pageSize :=
      Nat.mul_le_mul_right _ hindex
    rw [Nat.succ_mul] at hnext
    obtain ⟨s', hs', hstage, hcount⟩ := mapPage_spec hstop hroom hpt hm (hlast m hmem)
      (hpaddr m hmem) hindex (by have := hs.2; omega) hs.1
    exact ⟨s', hs', hstage, by rw [hcount, hs.2, Nat.succ_mul, Nat.add_assoc]⟩
  refine ⟨s', hs', hstage.congr (overlay_leafWord hm (hlast m hmem) done), ?_⟩
  rw [hbytes, hsize, List.map_append, List.sum_append, List.map_singleton, List.sum_singleton]

/-- The words after the table of the third level is entered into the second one. -/
def openedWords (words : ℕ → ℕ) (base first : ℕ) : ℕ → ℕ :=
  Function.update (overlay words (first * 512) 512 fun _ => 0) 516 (userTable base first)

/-- The words after all writes. -/
def userWords (words : ℕ → ℕ) (base first ptCount : ℕ) (mappings : List Mapping) : ℕ → ℕ :=
  overlay (overlay (openedWords words base first) (first * 512) ptCount
    fun slot => userTable base (first + 1 + slot)) ((first + 1) * 512) (ptCount * 512)
    (leafWord mappings)

lemma userTable_lt (hstop : stop ≤ arena₀.bytes.length) {page : ℕ}
    (hpage : (page + 1) * pageSize ≤ stop) : userTable arena₀.address page < 2 ^ 64 := by
  have htop := arena₀.stop_le
  rw [userTable, Nat.or_assoc, Nat.or_assoc]
  refine entry_lt ?_ (by decide)
  simp only [Build.takePage, pageSize] at *
  omega

/-- The writes after the last check. -/
lemma fillUser_spec (hstop : stop ≤ arena₀.bytes.length)
    (hroom : (first + 1 + ptCount) * pageSize ≤ stop) (hfirst : 2 ≤ first) (hpt : ptCount ≤ 512)
    {mappings : List Mapping} (hacc : ∀ m ∈ mappings, m.Accepted)
    (hlast : ∀ m ∈ mappings, m.lastSlot < ptCount)
    (hpaddr : ∀ m ∈ mappings, m.paddr + m.size ≤ 2 ^ 64)
    (hsum : (mappings.map Mapping.size).sum < 2 ^ 64) (h : Stage arena₀ stop words arena) :
    ∃ s, UserMap.fill arena (1 * pageSize) 4 (first * pageSize) ptCount mappings = .ok s ∧
      Stage arena₀ stop (userWords words arena₀.address first ptCount mappings) s.1 ∧
      s.2 = (mappings.map Mapping.size).sum := by
  have hle : (first + 1) * pageSize ≤ stop :=
    le_trans (Nat.mul_le_mul_right _ (Nat.le_add_right _ _)) hroom
  have hentry := userTable_lt hstop hle
  have hlen := h.length_eq
  have hclear := h.clearWords hstop (k := first * 512) (m := 512) (by
    simp only [pageSize] at hle
    linarith)
  have hset := hclear.setWord hstop (k := 516) (by simp only [pageSize] at hle; omega) hentry
  obtain ⟨arena', htables, hstage⟩ := fillTables_spec hstop hroom hpt hset
  obtain ⟨s, hmappings, hresult⟩ :=
    fillMappings_spec hstop hroom hpt hacc hlast hpaddr hsum hstage
  refine ⟨s, ?_, hresult⟩
  have hdiv : first * pageSize / pageSize = first := Nat.mul_div_cancel _ (by decide)
  have hwrite : (arena.clearWords (first * 512) 512).writeEntryAt (1 * pageSize) 4
      ((arena.address + first * pageSize) ||| present ||| writable ||| user) =
      .ok ((arena.clearWords (first * 512) 512).setWord 516 (userTable arena₀.address first)) := by
    rw [TableArena.writeEntryAt_eq (by
      rw [hclear.length_eq]
      simp only [pageSize] at hle
      omega), ← h.address_eq]
    rfl
  unfold UserMap.fill
  simp only [hdiv]
  rw [clear_page_eq first (by rw [hlen]; omega), Checked.ok_bind]
  rw [show (arena.clearWords (first * 512) 512).address = arena.address from rfl, hwrite,
    Checked.ok_bind, htables, Checked.ok_bind, hmappings]

end Words

/-! ## The result of `map_user_region` -/

section Result

variable {arena arena' : TableArena} {first ptCount : ℕ} {mappings : List Mapping} {result : Mapped}

/-- Tables that user space can be added to: the first entry leads to the second level for the kernel
only, and nothing is mapped at the start of user space. -/
structure KernelTables (arena : TableArena) : Prop where
  aligned : arena.address % pageSize = 0
  length_le : 2 * pageSize ≤ arena.bytes.length
  pml4 : arena.bytes.word 0 = Build.takePage arena.address 1 ||| (present ||| writable)
  pdpt : arena.bytes.word 516 = 0

/-- What is known when user space has been added. -/
structure UserMapped (arena : TableArena) (first ptCount : ℕ) (mappings : List Mapping)
    (arena' : TableArena) : Prop where
  /-- The mappings pass the checks. -/
  accepted : ∀ m ∈ mappings, m.Accepted
  /-- The new tables cover all mappings. -/
  lastSlot_lt : ∀ m ∈ mappings, m.lastSlot < ptCount
  /-- There are at most as many new tables as one table has entries. -/
  ptCount_le : ptCount ≤ 512
  /-- They fit into the arena. -/
  room : (first + 1 + ptCount) * pageSize ≤ arena.bytes.length
  /-- The words of the tables; nothing else is written. -/
  stage : Stage arena ((first + 1 + ptCount) * pageSize)
    (userWords (Function.update arena.bytes.word 0
      (Build.takePage arena.address 1 ||| (present ||| writable ||| user))) arena.address first
      ptCount mappings) arena'

/-- The conditions under which user space is added. -/
structure UserMappable (arena : TableArena) (first ptCount : ℕ) (mappings : List Mapping) :
    Prop where
  nonempty : mappings ≠ []
  accepted : ∀ m ∈ mappings, m.Accepted
  highestSlot_eq : UserMap.highestSlot mappings = .ok (ptCount - 1)
  ptCount_pos : 0 < ptCount
  room : first + 1 + ptCount ≤ arena.bytes.length / pageSize
  sum_lt : (mappings.map Mapping.size).sum < 2 ^ 64

/-- The arena after the first entry is open to user mode. -/
def TableArena.opened (arena : TableArena) : TableArena :=
  arena.setWord 0 (Build.takePage arena.address 1 ||| (present ||| writable ||| user))

namespace KernelTables

lemma takePage_lt (h : KernelTables arena) : Build.takePage arena.address 1 < 2 ^ 52 := by
  have hlen := h.length_le
  have := arena.stop_le
  simp only [Build.takePage, pageSize] at hlen ⊢
  omega

/-- The first entry is open to user mode, and nothing else is written. -/
lemma stage_opened (h : KernelTables arena) {stop : ℕ} (hstop : stop ≤ arena.bytes.length)
    (hpos : 8 ≤ stop) : Stage arena stop (Function.update arena.bytes.word 0
      (Build.takePage arena.address 1 ||| (present ||| writable ||| user))) arena.opened :=
  (Stage.refl arena stop).setWord hstop hpos (entry_lt h.takePage_lt (by decide))

/-- `map_user_region` up to its first loop that writes. -/
lemma mapUserRegion_eq (h : KernelTables arena) (hne : mappings ≠ [])
    (hacc : ∀ m ∈ mappings, m.Accepted) :
    mapUserRegion arena 0 (first * pageSize) mappings = do
      let highest ← UserMap.highestSlot mappings
      if arena.bytes.length / pageSize < first + 1 + (highest + 1) then
        return (.error (.arenaTooSmall (first + 1 + (highest + 1)) (arena.bytes.length / pageSize)),
          arena.opened)
      let s ← UserMap.fill arena.opened (1 * pageSize) 4 (first * pageSize) (highest + 1) mappings
      return (.ok { mappedBytes := s.2, tablesUsed := 1 + (highest + 1) }, s.1) := by
  have hlen := h.length_le
  have hmod := takePage_mod h.aligned 1
  have hset := h.stage_opened le_rfl (by simp only [pageSize] at hlen; omega)
  have hread := @TableArena.readEntryAt_eq arena 0 0 (by simp only [pageSize] at hlen; omega)
  rw [Nat.zero_mul, h.pml4] at hread
  have hpresent :
      ¬ (Build.takePage arena.address 1 ||| (present ||| writable)) &&& present = 0 := by
    rw [show present = 2 ^ 0 from rfl, and_two_pow_eq_zero_iff, testBit_entry hmod (by norm_num)]
    decide
  have huser : (Build.takePage arena.address 1 ||| (present ||| writable)) &&& user = 0 := by
    rw [show user = 2 ^ 2 from rfl, and_two_pow_eq_zero_iff, testBit_entry hmod (by norm_num)]
    decide
  have haddress : (Build.takePage arena.address 1 ||| (present ||| writable)) &&& addressMask =
      arena.address + 1 * pageSize := entryAddress_packed hmod h.takePage_lt (by decide)
  have hwrite := @TableArena.writeEntryAt_eq arena 0 0
    (Build.takePage arena.address 1 ||| (present ||| writable ||| user))
    (by simp only [pageSize] at hlen; omega)
  rw [Nat.zero_mul] at hwrite
  have hsub : subWord (arena.address + 1 * pageSize) arena.address = .ok (1 * pageSize) := by
    rw [subWord_of_le (Nat.le_add_right _ _), Nat.add_sub_cancel_left]
  have hindex : userBase / 2 ^ 30 % tableEntries = 4 := by decide
  have hread' := @TableArena.readEntryAt_eq arena.opened 1 4 (by
    rw [hset.length_eq]
    simp only [pageSize] at hlen
    omega)
  rw [hset.word_eq, Function.update_of_ne (by norm_num), h.pdpt] at hread'
  unfold mapUserRegion
  rw [if_neg (not_not.mpr h.aligned), if_neg (by simp)]
  simp only
  rw [if_neg (by simpa using hne), checkMappings_eq_none_iff.mpr hacc, Checked.ok_bind]
  simp only
  rw [hread, Checked.ok_bind, if_neg hpresent, if_pos huser, Nat.or_assoc, hwrite, Checked.ok_bind,
    haddress]
  change (subWord (arena.address + 1 * pageSize) arena.address >>= _) = _
  rw [hsub, Checked.ok_bind, hindex]
  change (arena.opened.readEntryAt (1 * pageSize) 4 >>= _) = _
  rw [hread', Checked.ok_bind, if_neg (by simp), Nat.mul_div_cancel first (by decide)]
  rfl

end KernelTables

/-- User space is added under these conditions. -/
lemma mapUserRegion_spec (htables : KernelTables arena) (hfirst : 2 ≤ first)
    (hpaddr : ∀ m ∈ mappings, m.paddr + m.size ≤ 2 ^ 64)
    (h : UserMappable arena first ptCount mappings) :
    ∃ arena', mapUserRegion arena 0 (first * pageSize) mappings =
        .ok (.ok { mappedBytes := (mappings.map Mapping.size).sum, tablesUsed := 1 + ptCount },
          arena') ∧
      UserMapped arena first ptCount mappings arena' := by
  have hroom : (first + 1 + ptCount) * pageSize ≤ arena.bytes.length :=
    (Nat.le_div_iff_mul_le (by decide)).mp h.room
  obtain ⟨highest, hhighest, hlt, hlast, -⟩ := highestSlot_spec h.accepted
  have hpos := h.ptCount_pos
  obtain rfl : ptCount = highest + 1 := by
    rw [h.highestSlot_eq, Except.ok.injEq] at hhighest
    omega
  have hlast' : ∀ m ∈ mappings, m.lastSlot < highest + 1 :=
    fun m hm => Nat.lt_succ_of_le (hlast m hm)
  obtain ⟨s, hfill, hstage, hsum⟩ := fillUser_spec hroom le_rfl hfirst hlt h.accepted hlast' hpaddr
    h.sum_lt (htables.stage_opened hroom (by simp only [pageSize]; omega))
  refine ⟨s.1, ?_, h.accepted, hlast', hlt, hroom, hstage⟩
  rw [htables.mapUserRegion_eq h.nonempty h.accepted, hhighest, Checked.ok_bind,
    if_neg (not_lt.mpr h.room), hfill, Checked.ok_bind, hsum]
  rfl

/-- A page counts its size, and the count and the physical address are words. -/
lemma mapPage_bytes {m : Mapping} {index : ℕ} {s s' : TableArena × ℕ}
    (h : UserMap.mapPage first ptCount m index s = .ok s') :
    s'.2 = s.2 + pageSize ∧ s'.2 < 2 ^ 64 ∧ m.paddr + index * pageSize < 2 ^ 64 := by
  unfold UserMap.mapPage at h
  simp only [Checked.bind_eq_ok] at h
  obtain ⟨_, -, _, -, _, -, _, -, _, hoffset, _, hpaddr, _, -, bytes, hbytes, hs⟩ := h
  obtain ⟨hlt, rfl⟩ := addWord_eq_ok_iff.mp hbytes
  obtain ⟨-, rfl⟩ := mulWord_eq_ok_iff.mp hoffset
  obtain ⟨hword, -⟩ := addWord_eq_ok_iff.mp hpaddr
  obtain rfl := Except.ok.inj hs
  exact ⟨rfl, hlt, hword⟩

/-- The last page of a mapping is a whole page, so its end is a word or `2 ^ 64`. -/
lemma Mapping.Accepted.stop_le_of_lastPage {m : Mapping} (hm : m.Accepted)
    (h : ∀ index < m.size / pageSize, m.paddr + index * pageSize < 2 ^ 64) :
    m.paddr + m.size ≤ 2 ^ 64 := by
  have hsize := Nat.div_mul_cancel (Nat.dvd_of_mod_eq_zero hm.size_mod)
  have hdvd : m.paddr % pageSize = 0 := hm.paddr_mod
  have hpos : 0 < m.size / pageSize := by
    refine Nat.div_pos (Nat.le_of_dvd (Nat.pos_of_ne_zero hm.size_ne) ?_) (by decide)
    exact Nat.dvd_of_mod_eq_zero hm.size_mod
  have hlast := h (m.size / pageSize - 1) (Nat.sub_lt hpos Nat.one_pos)
  simp only [pageSize] at *
  omega

/-- When the writes return, the sizes of all mappings add up to a word, and no physical address
leaves the word. -/
lemma fill_bytes {pdpt pdptIndex offset : ℕ} {s : TableArena × ℕ}
    (hacc : ∀ m ∈ mappings, m.Accepted)
    (h : UserMap.fill arena pdpt pdptIndex offset ptCount mappings = .ok s) :
    (mappings.map Mapping.size).sum < 2 ^ 64 ∧ ∀ m ∈ mappings, m.paddr + m.size ≤ 2 ^ 64 := by
  unfold UserMap.fill at h
  simp only [Checked.bind_eq_ok] at h
  obtain ⟨_, -, _, -, arena₁, -, h⟩ := h
  let P : List Mapping → TableArena × ℕ → Prop := fun done s =>
    s.2 = (done.map fun m => m.size / pageSize * pageSize).sum ∧ s.2 < 2 ^ 64 ∧
      ∀ m ∈ done, ∀ index < m.size / pageSize, m.paddr + index * pageSize < 2 ^ 64
  have hP : P mappings s := by
    refine foldlM_inv P ⟨rfl, by norm_num, fun m hm => absurd hm List.not_mem_nil⟩
      (fun done m _ s s' _ hs hloop => ?_) h
    have hinner := forRange_inv
      (fun index t => t.2 = s.2 + index * pageSize ∧ t.2 < 2 ^ 64 ∧
        ∀ i < index, m.paddr + i * pageSize < 2 ^ 64)
      ⟨by rw [Nat.zero_mul, Nat.add_zero], hs.2.1, fun i hi => absurd hi (Nat.not_lt_zero i)⟩
      (fun index _ t t' ht ht' => ?_) hloop
    · refine ⟨?_, hinner.2.1, fun m' hm' => ?_⟩
      · rw [hinner.1, hs.1, List.map_append, List.sum_append, List.map_singleton,
          List.sum_singleton]
      · rcases List.mem_append.mp hm' with hm' | hm'
        · exact hs.2.2 m' hm'
        · rw [List.mem_singleton.mp hm']
          exact hinner.2.2
    · obtain ⟨heq, hlt, hword⟩ := mapPage_bytes ht'
      refine ⟨by rw [heq, ht.1, Nat.succ_mul, Nat.add_assoc], hlt, fun i hi => ?_⟩
      rcases Nat.lt_succ_iff_lt_or_eq.mp hi with hi | rfl
      · exact ht.2.2 i hi
      · exact hword
  have hsizes : mappings.map Mapping.size = mappings.map fun m => m.size / pageSize * pageSize :=
    List.map_congr_left fun m hm =>
      (Nat.div_mul_cancel (Nat.dvd_of_mod_eq_zero (hacc m hm).size_mod)).symm
  refine ⟨?_, fun m hm => (hacc m hm).stop_le_of_lastPage (hP.2.2 m hm)⟩
  rw [hsizes, ← hP.1]
  exact hP.2.1

/-- The conditions are necessary. -/
lemma userMappable_of_mapUserRegion (htables : KernelTables arena) (hne : mappings ≠ [])
    (h : mapUserRegion arena 0 (first * pageSize) mappings = .ok (.ok result, arena')) :
    (∃ ptCount, UserMappable arena first ptCount mappings) ∧
      ∀ m ∈ mappings, m.paddr + m.size ≤ 2 ^ 64 := by
  have hacc : ∀ m ∈ mappings, m.Accepted := by
    rw [← checkMappings_eq_none_iff]
    unfold mapUserRegion at h
    rw [if_neg (not_not.mpr htables.aligned), if_neg (by simp)] at h
    simp only at h
    rw [if_neg (by simpa using hne)] at h
    obtain ⟨checked, hchecked, h⟩ := Checked.bind_eq_ok.mp h
    cases checked with
    | none => exact hchecked
    | some e => simp at h
  rw [htables.mapUserRegion_eq hne hacc] at h
  obtain ⟨highest, hhighest, h⟩ := Checked.bind_eq_ok.mp h
  split_ifs at h with hroom
  · simp at h
  · obtain ⟨s, hfill, -⟩ := Checked.bind_eq_ok.mp h
    obtain ⟨hsum, hpaddr⟩ := fill_bytes hacc hfill
    exact ⟨⟨highest + 1, hne, hacc, hhighest, Nat.succ_pos _, not_lt.mp hroom, hsum⟩, hpaddr⟩

/-- What is known when `map_user_region` has succeeded. -/
lemma userMapped_of_mapUserRegion (htables : KernelTables arena) (hfirst : 2 ≤ first)
    (hne : mappings ≠ [])
    (h : mapUserRegion arena 0 (first * pageSize) mappings = .ok (.ok result, arena')) :
    ∃ ptCount, UserMapped arena first ptCount mappings arena' := by
  obtain ⟨⟨ptCount, hmappable⟩, hpaddr⟩ := userMappable_of_mapUserRegion htables hne h
  obtain ⟨arena'', heq, hmapped⟩ := mapUserRegion_spec htables hfirst hpaddr hmappable
  rw [h] at heq
  simp only [Except.ok.injEq, Prod.mk.injEq] at heq
  obtain ⟨-, rfl⟩ := heq
  exact ⟨ptCount, hmapped⟩

end Result

end KernelMemory

end ParanukOS
