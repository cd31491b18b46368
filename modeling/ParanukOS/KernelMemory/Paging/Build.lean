import ParanukOS.KernelMemory.Paging.Model

/-!
# The tables of the identity map

What `build` leaves in the arena, word by word.  The tables lie one behind the other: the first
level in page 0, the second in page 1, then the tables of the third level and those of the fourth,
so that the entries of the third level, and those of the fourth, are numbered consecutively.  Every
loop of `build` fills a range of words (`overlay`), and `fill_spec` says what all words are at the
end.
-/

namespace ParanukOS

open Foundation

namespace KernelMemory

/-! ## Single writes -/

namespace TableArena

variable {arena : TableArena} {k v page index value : ℕ}

/-- The arena with its `k`-th word replaced. -/
def setWord (self : TableArena) (k v : ℕ) : TableArena where
  bytes := self.bytes.setWord k v
  address := self.address
  stop_le := by rw [Slice.length_setWord]; exact self.stop_le

/-- The arena with `m` words from the `k`-th on cleared. -/
def clearWords (self : TableArena) (k m : ℕ) : TableArena where
  bytes := self.bytes.clearWords k m
  address := self.address
  stop_le := by rw [Slice.length_clearWords]; exact self.stop_le

/-- The arena is shorter than the address space. -/
lemma length_lt (self : TableArena) : self.bytes.length ≤ 2 ^ 52 := by
  have := self.stop_le
  omega

/-- An entry of a table that lies in the arena is written. -/
lemma writeEntryAt_eq (h : 8 * (page * 512 + index) + 8 ≤ arena.bytes.length) :
    arena.writeEntryAt (page * pageSize) index value =
      .ok (arena.setWord (page * 512 + index) value) := by
  have hlen := arena.length_lt
  have hoff : page * pageSize + index * 8 = 8 * (page * 512 + index) := by
    simp only [pageSize]; ring
  rw [writeEntryAt, mulWord_of_lt (by omega), Checked.ok_bind, addWord_of_lt (by omega),
    Checked.ok_bind, hoff, write, if_pos (by rwa [length_leBytes])]
  rfl

/-- An entry of a table given by its physical address is written. -/
lemma writeEntry_eq (h : 8 * (page * 512 + index) + 8 ≤ arena.bytes.length) :
    arena.writeEntry (Build.takePage arena.address page) index value =
      .ok (arena.setWord (page * 512 + index) value) := by
  rw [writeEntry, Build.takePage, subWord_of_le (Nat.le_add_right _ _), Checked.ok_bind,
    Nat.add_sub_cancel_left, writeEntryAt_eq h]

/-- An entry of a table that lies in the arena is read. -/
lemma readEntryAt_eq (h : 8 * (page * 512 + index) + 8 ≤ arena.bytes.length) :
    arena.readEntryAt (page * pageSize) index = .ok (arena.bytes.word (page * 512 + index)) := by
  have hlen := arena.length_lt
  have hoff : page * pageSize + index * 8 = 8 * (page * 512 + index) := by
    simp only [pageSize]; ring
  rw [readEntryAt, mulWord_of_lt (by omega), Checked.ok_bind, addWord_of_lt (by omega),
    Checked.ok_bind, hoff, Slice.leWord?_eq_word h]
  rfl

/-- Whole pages of the arena are cleared. -/
lemma clear_eq (page count : ℕ) (h : (page + count) * pageSize ≤ arena.bytes.length) :
    arena.clear (page * pageSize) (count * pageSize) =
      .ok (arena.clearWords (page * 512) (count * 512)) := by
  have hoff : page * pageSize = 8 * (page * 512) := by simp only [pageSize]; ring
  have hcount : count * pageSize = 8 * (count * 512) := by simp only [pageSize]; ring
  rw [clear, write, if_pos (by rw [List.length_replicate, ← Nat.add_mul]; exact h)]
  simp only [hoff, hcount]
  rfl

end TableArena

/-- The arena has the words `words`, and its bytes from `stop` on are those of `arena₀`. -/
structure Stage (arena₀ : TableArena) (stop : ℕ) (words : ℕ → ℕ) (arena : TableArena) : Prop where
  address_eq : arena.address = arena₀.address
  length_eq : arena.bytes.length = arena₀.bytes.length
  word_eq : ∀ k, arena.bytes.word k = words k
  get?_eq : ∀ i, stop ≤ i → arena.bytes.get? i = arena₀.bytes.get? i

namespace Stage

variable {arena₀ arena : TableArena} {stop k m v : ℕ} {words : ℕ → ℕ}

lemma refl (arena : TableArena) (stop : ℕ) : Stage arena stop arena.bytes.word arena :=
  ⟨rfl, rfl, fun _ => rfl, fun _ _ => rfl⟩

/-- Writing one word. -/
lemma setWord (h : Stage arena₀ stop words arena) (hstop : stop ≤ arena₀.bytes.length)
    (hk : 8 * k + 8 ≤ stop) (hv : v < 2 ^ 64) :
    Stage arena₀ stop (Function.update words k v) (arena.setWord k v) := by
  refine ⟨h.address_eq, ?_, fun j => ?_, fun i hi => ?_⟩
  · rw [← h.length_eq]
    exact Slice.length_setWord _ _ _
  · have hin : 8 * k + 8 ≤ arena.bytes.length := by rw [h.length_eq]; omega
    rw [Function.update_apply, ← h.word_eq]
    exact Slice.word_setWord hin hv j
  · rw [← h.get?_eq i hi]
    exact Slice.get?_setWord_of_notMem (by omega)

/-- Clearing a range of words. -/
lemma clearWords (h : Stage arena₀ stop words arena) (hstop : stop ≤ arena₀.bytes.length)
    (hk : 8 * (k + m) ≤ stop) :
    Stage arena₀ stop (overlay words k m fun _ => 0) (arena.clearWords k m) := by
  refine ⟨h.address_eq, ?_, fun j => ?_, fun i hi => ?_⟩
  · rw [← h.length_eq]
    exact Slice.length_clearWords _ _ _
  · have hin : 8 * (k + m) ≤ arena.bytes.length := by rw [h.length_eq]; omega
    rw [overlay, ← h.word_eq]
    exact Slice.word_clearWords hin j
  · rw [← h.get?_eq i hi]
    exact Slice.get?_clearWords_of_notMem (by omega)

/-- One step of filling a range: write the next word. -/
lemma fill {f g : ℕ → ℕ} {start n : ℕ} (h : Stage arena₀ stop (overlay f start n g) arena)
    (hstop : stop ≤ arena₀.bytes.length) (hk : 8 * (start + n) + 8 ≤ stop) (hv : g n < 2 ^ 64) :
    Stage arena₀ stop (overlay f start (n + 1) g) (arena.setWord (start + n) (g n)) := by
  rw [← update_overlay]
  exact h.setWord hstop hk hv

/-- The same, by the write of an entry of the table in page `page`. -/
lemma writeEntry {f g : ℕ → ℕ} {start n : ℕ}
    (h : Stage arena₀ stop (overlay f start n g) arena) (hstop : stop ≤ arena₀.bytes.length)
    (page index : ℕ) (hpos : page * 512 + index = start + n) (hk : 8 * (start + n) + 8 ≤ stop)
    (hv : g n < 2 ^ 64) :
    ∃ arena', arena.writeEntry (Build.takePage arena₀.address page) index (g n) = .ok arena' ∧
      Stage arena₀ stop (overlay f start (n + 1) g) arena' := by
  refine ⟨arena.setWord (start + n) (g n), ?_, h.fill hstop hk hv⟩
  rw [← h.address_eq, ← hpos]
  refine TableArena.writeEntry_eq ?_
  rw [h.length_eq, hpos]
  exact hk.trans hstop

/-- One step of filling a range: the next word has its value already. -/
lemma skip {f g : ℕ → ℕ} {start n : ℕ} (h : Stage arena₀ stop (overlay f start n g) arena)
    (heq : f (start + n) = g n) : Stage arena₀ stop (overlay f start (n + 1) g) arena := by
  rwa [overlay_succ_of_eq heq]

end Stage

/-! ## The contents of the tables -/

/-- The large page with the number `n` is mapped. -/
def blockMapped (map : MemoryMap) (ptCount limit n : ℕ) : Bool :=
  decide (ptCount ≤ n ∧ n * blockSize < limit) &&
    map.overlapsRam (n * blockSize) (n * blockSize + blockSize)

/-- The small page with the number `n` is mapped. -/
def pageMapped (map : MemoryMap) (fineLimit n : ℕ) : Bool :=
  decide (n ≠ 0 ∧ n * pageSize < fineLimit) &&
    map.overlapsRam (n * pageSize) (n * pageSize + pageSize)

/-- The entry of the first level. -/
def pml4Word (base : ℕ) : ℕ := Build.takePage base 1 ||| present ||| writable

/-- The entries of the second level. -/
def pdptWord (base i : ℕ) : ℕ := Build.takePage base (2 + i) ||| present ||| writable

/-- The entries of the third level, over all of its tables. -/
def pdWord (map : MemoryMap) (base pdCount ptCount limit n : ℕ) : ℕ :=
  if n < ptCount then Build.takePage base (2 + pdCount + n) ||| present ||| writable
  else if blockMapped map ptCount limit n then n * blockSize ||| present ||| writable ||| block
  else 0

/-- The entries of the fourth level, over all of its tables. -/
def ptWord (map : MemoryMap) (fineLimit n : ℕ) : ℕ :=
  if pageMapped map fineLimit n then n * pageSize ||| present ||| writable else 0

/-- The words of the arena before the third level is filled. -/
def upperWords (old : ℕ → ℕ) (base pdCount ptCount : ℕ) : ℕ → ℕ :=
  overlay (overlay (overlay old 0 ((2 + pdCount + ptCount) * 512) fun _ => 0) 0 1
    fun _ => pml4Word base) 512 pdCount (pdptWord base)

/-- The words of the arena with the identity map. -/
def identityWords (old : ℕ → ℕ) (map : MemoryMap) (base pdCount ptCount limit fineLimit : ℕ) :
    ℕ → ℕ :=
  overlay (overlay (upperWords old base pdCount ptCount) 1024 (pdCount * 512)
    (pdWord map base pdCount ptCount limit)) ((2 + pdCount) * 512) (ptCount * 512)
    (ptWord map fineLimit)

section Fill

variable {map : MemoryMap} {arena₀ : TableArena} {pdCount ptCount limit fineLimit : ℕ}

/-- A packed entry is a word. -/
lemma entry_lt {a f : ℕ} (ha : a < 2 ^ 52) (hf : f < 2 ^ 52) : a ||| f < 2 ^ 64 :=
  (packed_lt ha hf).trans (by norm_num)

/-- The tables have physical addresses. -/
lemma takePage_lt (harena : (2 + pdCount + ptCount) * pageSize ≤ arena₀.bytes.length) {n : ℕ}
    (hn : n < 2 + pdCount + ptCount) : Build.takePage arena₀.address n < 2 ^ 52 := by
  have hstop := arena₀.stop_le
  simp only [Build.takePage, pageSize] at harena ⊢
  omega

/-- After `n` rounds of the loop over the third level. -/
structure BlocksDone (map : MemoryMap) (arena₀ : TableArena) (pdCount ptCount limit n : ℕ)
    (s : Filling) : Prop where
  stage : Stage arena₀ ((2 + pdCount + ptCount) * pageSize)
    (overlay (upperWords arena₀.bytes.word arena₀.address pdCount ptCount) 1024 n
      (pdWord map arena₀.address pdCount ptCount limit)) s.arena
  count_eq : s.count = Nat.count (fun n => blockMapped map ptCount limit n = true) n
  mappedBytes_eq : s.mappedBytes = s.count * blockSize

/-- The tables below the second level are still empty before they are filled. -/
lemma upperWords_eq_zero {old : ℕ → ℕ} {base k : ℕ} (hpd : pdCount ≤ 512) (hk : 1024 ≤ k)
    (hk' : k < (2 + pdCount + ptCount) * 512) : upperWords old base pdCount ptCount k = 0 := by
  rw [upperWords, overlay_of_notMem (by omega), overlay_of_notMem (by omega), overlay,
    if_pos (by omega)]

/-- One round of the loop over the third level. -/
lemma fillBlock_spec (harena : (2 + pdCount + ptCount) * pageSize ≤ arena₀.bytes.length)
    (hpd : pdCount ≤ 512) {index slot n : ℕ} (hn : index * 512 + slot = n)
    (hindex : index < pdCount)
    (hslot : slot < 512) {s : Filling} (h : BlocksDone map arena₀ pdCount ptCount limit n s) :
    ∃ s', Build.fillBlock map arena₀.address pdCount ptCount limit index slot s = .ok s' ∧
      BlocksDone map arena₀ pdCount ptCount limit (n + 1) s' := by
  obtain ⟨hstage, hcount, hbytes⟩ := h
  have hk : 8 * (1024 + n) + 8 ≤ (2 + pdCount + ptCount) * pageSize := by
    simp only [pageSize]; omega
  have haddr : index * pdCoverage + slot * blockSize = n * blockSize := by
    rw [← hn]; simp only [pdCoverage, blockSize]; ring
  have hpos : (2 + index) * 512 + slot = 1024 + n := by rw [← hn]; ring
  have hle : s.count ≤ 512 * 512 := by
    rw [hcount]
    exact (Nat.count_le _).trans (by omega)
  have hzero : upperWords arena₀.bytes.word arena₀.address pdCount ptCount (1024 + n) = 0 :=
    upperWords_eq_zero hpd (by omega) (by omega)
  unfold Build.fillBlock
  simp only [tableEntries, hn, haddr]
  split_ifs with h1 h2
  · -- a table of small pages
    have hval : Build.takePage arena₀.address (2 + pdCount + n) ||| present ||| writable =
        pdWord map arena₀.address pdCount ptCount limit n := by rw [pdWord, if_pos h1]
    have hlt : pdWord map arena₀.address pdCount ptCount limit n < 2 ^ 64 := by
      rw [← hval, Nat.or_assoc]
      exact entry_lt (takePage_lt harena (by omega)) (by decide)
    obtain ⟨arena', hwrite, hstage'⟩ := hstage.writeEntry harena _ _ hpos hk hlt
    refine ⟨{ s with arena := arena' }, ?_, hstage', ?_, hbytes⟩
    · rw [hval, hwrite]
      rfl
    · rw [Nat.count_succ, if_neg (by simp [blockMapped]; omega), Nat.add_zero]
      exact hcount
  · -- no RAM here
    have hno : blockMapped map ptCount limit n = false := by
      rcases h2 with h2 | h2
      · simp [blockMapped, not_lt.mpr h2]
      · simp [blockMapped, h2]
    refine ⟨s, rfl, hstage.skip ?_, ?_, hbytes⟩
    · rw [pdWord, if_neg h1, hno, hzero]
      rfl
    · rw [Nat.count_succ, hno]
      exact hcount
  · -- a large page
    rw [not_or, not_le, Bool.not_eq_false] at h2
    have hyes : blockMapped map ptCount limit n = true := by
      simp [blockMapped, h2, not_lt.mp h1]
    have hval : n * blockSize ||| present ||| writable ||| block =
        pdWord map arena₀.address pdCount ptCount limit n := by
      rw [pdWord, if_neg h1, if_pos hyes]
    have hlt : pdWord map arena₀.address pdCount ptCount limit n < 2 ^ 64 := by
      rw [← hval, Nat.or_assoc, Nat.or_assoc]
      refine entry_lt ?_ (by decide)
      simp only [blockSize]
      omega
    obtain ⟨arena', hwrite, hstage'⟩ := hstage.writeEntry harena _ _ hpos hk hlt
    rw [hval, hwrite, Checked.ok_bind, addWord_of_lt (by omega), Checked.ok_bind,
      addWord_of_lt (by simp only [hbytes, blockSize]; omega), Checked.ok_bind]
    refine ⟨_, rfl, hstage', ?_, ?_⟩
    · rw [Nat.count_succ, if_pos hyes, hcount]
    · simp only [hbytes]
      ring

/-- The tables are cleared and linked. -/
lemma fillUpper_spec (harena : (2 + pdCount + ptCount) * pageSize ≤ arena₀.bytes.length)
    (hpd : pdCount ≤ 512) :
    ∃ arena, Build.fillUpper arena₀ pdCount ((2 + pdCount + ptCount) * pageSize) = .ok arena ∧
      Stage arena₀ ((2 + pdCount + ptCount) * pageSize)
        (upperWords arena₀.bytes.word arena₀.address pdCount ptCount) arena := by
  have htable : ∀ n < 2 + pdCount + ptCount,
      Build.takePage arena₀.address n ||| present ||| writable < 2 ^ 64 := by
    intro n hn
    rw [Nat.or_assoc]
    exact entry_lt (takePage_lt harena hn) (by decide)
  have hclear : arena₀.clear 0 ((2 + pdCount + ptCount) * pageSize) =
      .ok (arena₀.clearWords 0 ((2 + pdCount + ptCount) * 512)) := by
    have := TableArena.clear_eq 0 (2 + pdCount + ptCount) (by rwa [Nat.zero_add])
    rwa [Nat.zero_mul, Nat.zero_mul] at this
  have hcleared : Stage arena₀ ((2 + pdCount + ptCount) * pageSize)
      (overlay (overlay arena₀.bytes.word 0 ((2 + pdCount + ptCount) * 512) fun _ => 0) 0 0
        fun _ => pml4Word arena₀.address)
      (arena₀.clearWords 0 ((2 + pdCount + ptCount) * 512)) := by
    rw [overlay_zero]
    exact (Stage.refl arena₀ _).clearWords harena (by simp only [pageSize]; omega)
  obtain ⟨arena₁, hroot, hrooted⟩ := hcleared.writeEntry harena 0 0 rfl
    (by simp only [pageSize]; omega) (htable 1 (by omega))
  obtain ⟨arena₂, hloop, hupper⟩ := forRange_rule
    (fun i arena => Stage arena₀ ((2 + pdCount + ptCount) * pageSize) (overlay (overlay (overlay
      arena₀.bytes.word 0 ((2 + pdCount + ptCount) * 512) fun _ => 0) 0 1
      fun _ => pml4Word arena₀.address) 512 i (pdptWord arena₀.address)) arena)
    (show _ by rwa [overlay_zero])
    (show ∀ i < pdCount, _ from fun i hi arena h => h.writeEntry harena 1 i
      (by rw [Nat.one_mul]) (by simp only [pageSize]; omega) (htable (2 + i) (by omega)))
  refine ⟨arena₂, ?_, hupper⟩
  unfold Build.fillUpper
  simp only
  rw [hclear, Checked.ok_bind, ← pml4Word, hroot]
  exact hloop

/-- The loop over the third level. -/
lemma fillBlocks_spec (harena : (2 + pdCount + ptCount) * pageSize ≤ arena₀.bytes.length)
    (hpd : pdCount ≤ 512) {s : Filling} (h : BlocksDone map arena₀ pdCount ptCount limit 0 s) :
    ∃ s', (forRange pdCount s fun index s => forRange tableEntries s fun slot s =>
        Build.fillBlock map arena₀.address pdCount ptCount limit index slot s) = .ok s' ∧
      BlocksDone map arena₀ pdCount ptCount limit (pdCount * 512) s' := by
  refine forRange_rule (fun index => BlocksDone map arena₀ pdCount ptCount limit (index * 512))
    (by rwa [Nat.zero_mul]) fun index hindex s hs => ?_
  rw [Nat.succ_mul]
  refine forRange_rule
    (fun slot => BlocksDone map arena₀ pdCount ptCount limit (index * 512 + slot))
    (by rwa [Nat.add_zero]) fun slot hslot s hs => ?_
  rw [← Nat.add_assoc]
  exact fillBlock_spec harena hpd rfl hindex hslot hs

/-- After `n` rounds of the loop over the fourth level, with `blocks` bytes of large pages. -/
structure PagesDone (map : MemoryMap) (arena₀ : TableArena) (pdCount ptCount limit fineLimit : ℕ)
    (blockBytes n : ℕ) (s : Filling) : Prop where
  stage : Stage arena₀ ((2 + pdCount + ptCount) * pageSize)
    (overlay (overlay (upperWords arena₀.bytes.word arena₀.address pdCount ptCount) 1024
      (pdCount * 512) (pdWord map arena₀.address pdCount ptCount limit)) ((2 + pdCount) * 512) n
      (ptWord map fineLimit)) s.arena
  count_eq : s.count = Nat.count (fun n => pageMapped map fineLimit n = true) n
  mappedBytes_eq : s.mappedBytes = blockBytes + s.count * pageSize

/-- One round of the loop over the fourth level. -/
lemma fillPage_spec (harena : (2 + pdCount + ptCount) * pageSize ≤ arena₀.bytes.length)
    (hpd : pdCount ≤ 512) (hpt : ptCount ≤ 512) {index slot n blockBytes : ℕ}
    (hn : index * 512 + slot = n) (hindex : index < ptCount) (hslot : slot < 512)
    (hblocks : blockBytes ≤ 2 ^ 40) {s : Filling}
    (h : PagesDone map arena₀ pdCount ptCount limit fineLimit blockBytes n s) :
    ∃ s', Build.fillPage map arena₀.address pdCount fineLimit index slot s = .ok s' ∧
      PagesDone map arena₀ pdCount ptCount limit fineLimit blockBytes (n + 1) s' := by
  obtain ⟨hstage, hcount, hbytes⟩ := h
  have hk : 8 * ((2 + pdCount) * 512 + n) + 8 ≤ (2 + pdCount + ptCount) * pageSize := by
    simp only [pageSize]; omega
  have haddr : index * blockSize + slot * pageSize = n * pageSize := by
    rw [← hn]; simp only [blockSize, pageSize]; ring
  have hpos : (2 + pdCount + index) * 512 + slot = (2 + pdCount) * 512 + n := by rw [← hn]; ring
  have hle : s.count ≤ 512 * 512 := by
    rw [hcount]
    exact (Nat.count_le _).trans (by omega)
  have hzero : overlay (upperWords arena₀.bytes.word arena₀.address pdCount ptCount) 1024
      (pdCount * 512) (pdWord map arena₀.address pdCount ptCount limit)
      ((2 + pdCount) * 512 + n) = 0 := by
    rw [overlay_of_notMem (by omega)]
    exact upperWords_eq_zero hpd (by omega) (by omega)
  -- the rounds that map nothing
  have hskip : pageMapped map fineLimit n = false →
      PagesDone map arena₀ pdCount ptCount limit fineLimit blockBytes (n + 1) s := by
    intro hno
    refine ⟨hstage.skip ?_, ?_, hbytes⟩
    · rw [ptWord, hno, hzero]
      rfl
    · rw [Nat.count_succ, hno]
      exact hcount
  unfold Build.fillPage
  simp only [haddr]
  split_ifs with h1 h2
  · refine ⟨s, rfl, hskip ?_⟩
    rcases h1 with h1 | h1
    · have hn0 : n = 0 := by
        simp only [pageSize] at h1
        omega
      simp [pageMapped, hn0]
    · simp [pageMapped, not_lt.mpr h1]
  · exact ⟨s, rfl, hskip (by simp [pageMapped, h2])⟩
  · rw [not_or, not_le] at h1
    rw [Bool.not_eq_false] at h2
    have hyes : pageMapped map fineLimit n = true := by
      have hn0 : n ≠ 0 := fun hn0 => h1.1 (by rw [hn0, Nat.zero_mul])
      simp [pageMapped, h1.2, h2, hn0]
    have hval : n * pageSize ||| present ||| writable = ptWord map fineLimit n := by
      rw [ptWord, if_pos hyes]
    have hlt : ptWord map fineLimit n < 2 ^ 64 := by
      rw [← hval, Nat.or_assoc]
      refine entry_lt ?_ (by decide)
      simp only [pageSize]
      omega
    obtain ⟨arena', hwrite, hstage'⟩ := hstage.writeEntry harena _ _ hpos hk hlt
    rw [hval, hwrite, Checked.ok_bind, addWord_of_lt (by omega), Checked.ok_bind,
      addWord_of_lt (by simp only [hbytes, pageSize]; omega), Checked.ok_bind]
    refine ⟨_, rfl, hstage', ?_, ?_⟩
    · rw [Nat.count_succ, if_pos hyes, hcount]
    · simp only [hbytes]
      ring

/-- The loop over the fourth level. -/
lemma fillPages_spec (harena : (2 + pdCount + ptCount) * pageSize ≤ arena₀.bytes.length)
    (hpd : pdCount ≤ 512) (hpt : ptCount ≤ 512) {blockBytes : ℕ} (hblocks : blockBytes ≤ 2 ^ 40)
    {s : Filling} (h : PagesDone map arena₀ pdCount ptCount limit fineLimit blockBytes 0 s) :
    ∃ s', (forRange ptCount s fun index s => forRange tableEntries s fun slot s =>
        Build.fillPage map arena₀.address pdCount fineLimit index slot s) = .ok s' ∧
      PagesDone map arena₀ pdCount ptCount limit fineLimit blockBytes (ptCount * 512) s' := by
  refine forRange_rule
    (fun index => PagesDone map arena₀ pdCount ptCount limit fineLimit blockBytes (index * 512))
    (by rwa [Nat.zero_mul]) fun index hindex s hs => ?_
  rw [Nat.succ_mul]
  refine forRange_rule
    (fun slot => PagesDone map arena₀ pdCount ptCount limit fineLimit blockBytes
      (index * 512 + slot)) (by rwa [Nat.add_zero]) fun slot hslot s hs => ?_
  rw [← Nat.add_assoc]
  exact fillPage_spec harena hpd hpt rfl hindex hslot hblocks hs

end Fill

/-! ## The result of `build` -/

section Result

variable {arena arena' : TableArena} {map : MemoryMap} {config : PagingConfig} {tables : PageTables}

/-- The length of all tables. -/
def PagingConfig.tableBytes (config : PagingConfig) : ℕ :=
  (2 + config.pdCount + config.ptCount) * pageSize

/-- The writes of `build` return, and leave the words of the identity map. -/
lemma fill_spec (map : MemoryMap) (limit : ℕ) (hpd : config.pdCount ≤ 512)
    (hpt : config.ptCount ≤ 512)
    (harena : config.tableBytes ≤ arena.bytes.length) :
    ∃ blocks pages, Build.fill arena map config config.tableBytes limit = .ok (blocks, pages) ∧
      BlocksDone map arena config.pdCount config.ptCount limit (config.pdCount * 512) blocks ∧
      PagesDone map arena config.pdCount config.ptCount limit
        (min config.fineGrainedBytes limit) blocks.mappedBytes (config.ptCount * 512) pages := by
  obtain ⟨arena₁, hupper, hstage⟩ := fillUpper_spec harena hpd
  have hstart : BlocksDone map arena config.pdCount config.ptCount limit 0 ⟨arena₁, 0, 0⟩ :=
    ⟨by rwa [overlay_zero], (Nat.count_zero _).symm, (Nat.zero_mul _).symm⟩
  obtain ⟨blocks, hblocks, hdone⟩ := fillBlocks_spec harena hpd hstart
  have hle : blocks.mappedBytes ≤ 2 ^ 40 := by
    have hcount : blocks.count ≤ config.pdCount * 512 := by
      rw [hdone.count_eq]
      exact Nat.count_le _
    rw [hdone.mappedBytes_eq]
    simp only [blockSize]
    omega
  have hstart' : PagesDone map arena config.pdCount config.ptCount limit
      (min config.fineGrainedBytes limit) blocks.mappedBytes 0 { blocks with count := 0 } :=
    ⟨by rw [overlay_zero]; exact hdone.stage, (Nat.count_zero _).symm, by simp⟩
  obtain ⟨pages, hpages, hdone'⟩ := fillPages_spec harena hpd hpt hle hstart'
  refine ⟨blocks, pages, ?_, hdone, hdone'⟩
  unfold Build.fill
  simp only
  rw [show config.tableBytes = (2 + config.pdCount + config.ptCount) * pageSize from rfl, hupper,
    Checked.ok_bind, hblocks, Checked.ok_bind, hpages]
  rfl

/-- What is known about the tables when `build` succeeds. -/
structure Built (arena : TableArena) (map : MemoryMap) (config : PagingConfig)
    (tables : PageTables) (arena' : TableArena) : Prop where
  /-- The arena is aligned to pages. -/
  aligned : arena.address % pageSize = 0
  /-- The tables fit into the arena. -/
  tableBytes_le : config.tableBytes ≤ arena.bytes.length
  /-- There are at most as many tables of the third level as one table has entries. -/
  pdCount_le : config.pdCount ≤ 512
  /-- The same for the fourth level. -/
  ptCount_le : config.ptCount ≤ 512
  /-- The first level is at the start of the arena. -/
  pml4Phys_eq : tables.pml4Phys = arena.address
  /-- The limit comes from the highest RAM and the configuration. -/
  limit_eq : ∃ top, map.ramTop = some top ∧ tables.limit = min top config.maxIdentityBytes
  /-- Something is to be mapped. -/
  limit_pos : 0 < tables.limit
  /-- The words of the tables; nothing else is written. -/
  stage : Stage arena config.tableBytes (identityWords arena.bytes.word map arena.address
    config.pdCount config.ptCount tables.limit (min config.fineGrainedBytes tables.limit)) arena'
  /-- The large pages are counted. -/
  blocks_eq : tables.blocks =
    Nat.count (fun n => blockMapped map config.ptCount tables.limit n = true) (config.pdCount * 512)
  /-- The small pages are counted. -/
  pages_eq : tables.pages = Nat.count (fun n => pageMapped map
    (min config.fineGrainedBytes tables.limit) n = true) (config.ptCount * 512)
  /-- Their sizes are added up. -/
  mappedBytes_eq : tables.mappedBytes = tables.blocks * blockSize + tables.pages * pageSize
  /-- The tables are counted. -/
  tablesUsed_eq : tables.tablesUsed = 2 + config.pdCount + config.ptCount

/-- The conditions under which `build` succeeds. -/
structure Buildable (arena : TableArena) (map : MemoryMap) (config : PagingConfig) (top : ℕ) :
    Prop where
  aligned : arena.address % pageSize = 0
  maxIdentityBytes_le : config.maxIdentityBytes ≤ maxIdentitySupported
  fineGrainedBytes_le : config.fineGrainedBytes ≤ maxFineGrainedSupported
  needed_le : tablesNeeded config.maxIdentityBytes config.fineGrainedBytes * pageSize ≤
    arena.bytes.length
  ramTop_eq : map.ramTop = some top
  limit_ne : min top config.maxIdentityBytes ≠ 0

lemma Buildable.tablesNeeded_eq {top : ℕ} (h : Buildable arena map config top) :
    tablesNeeded config.maxIdentityBytes config.fineGrainedBytes =
      2 + config.pdCount + config.ptCount := by
  have hle : config.maxIdentityBytes ≤ pdptCoverage := h.maxIdentityBytes_le
  have hpos : 0 < config.maxIdentityBytes := by
    have := h.limit_ne
    omega
  rw [tablesNeeded, divCeil_eq_one hpos hle, PagingConfig.pdCount, PagingConfig.ptCount]

/-- `build` succeeds under these conditions. -/
lemma build_spec {top : ℕ} (h : Buildable arena map config top) :
    ∃ tables arena', build arena map config = .ok (.ok (tables, arena')) ∧
      Built arena map config tables arena' := by
  have hpd : config.pdCount ≤ 512 := divCeil_le (by decide) h.maxIdentityBytes_le
  have hpt : config.ptCount ≤ 512 := divCeil_le (by decide) h.fineGrainedBytes_le
  have hneeded := h.needed_le
  rw [h.tablesNeeded_eq] at hneeded
  obtain ⟨blocks, pages, hfill, hblocks, hpages⟩ :=
    fill_spec map (min top config.maxIdentityBytes) hpd hpt hneeded
  have hlen := arena.length_lt
  refine ⟨{ pml4Phys := Build.takePage arena.address 0
            limit := min top config.maxIdentityBytes
            mappedBytes := pages.mappedBytes
            blocks := blocks.count
            pages := pages.count
            tablesUsed := 2 + config.pdCount + config.ptCount }, pages.arena, ?_, h.aligned,
    hneeded, hpd, hpt, ?_, ⟨top, h.ramTop_eq, rfl⟩, Nat.pos_of_ne_zero h.limit_ne, hpages.stage,
    hblocks.count_eq, hpages.count_eq, ?_, rfl⟩
  · unfold build
    rw [if_neg (not_not.mpr h.aligned), if_neg (not_lt.mpr h.maxIdentityBytes_le),
      if_neg (not_lt.mpr h.fineGrainedBytes_le)]
    simp only
    rw [h.tablesNeeded_eq, mulWord_of_lt (by omega), Checked.ok_bind, if_neg (not_lt.mpr hneeded)]
    simp only [h.ramTop_eq]
    rw [if_neg h.limit_ne]
    change (Build.fill arena map config config.tableBytes _ >>= _) = _
    rw [hfill]
    rfl
  · simp [Build.takePage]
  · rw [hpages.mappedBytes_eq, hblocks.mappedBytes_eq]

/-- The conditions are necessary. -/
lemma buildable_of_build {result : PageTables × TableArena}
    (h : build arena map config = .ok (.ok result)) : ∃ top, Buildable arena map config top := by
  unfold build at h
  split_ifs at h with h1 h2 h3
  · simp at h
  · simp at h
  · simp at h
  obtain ⟨needed, hneeded, h⟩ := Checked.bind_eq_ok.mp h
  obtain ⟨-, rfl⟩ := mulWord_eq_ok_iff.mp hneeded
  split_ifs at h with h4
  · simp at h
  cases htop : map.ramTop with
  | none => simp [htop] at h
  | some top =>
    simp only [htop] at h
    split_ifs at h with h5
    · simp at h
    · exact ⟨top, not_not.mp h1, not_lt.mp h2, not_lt.mp h3, not_lt.mp h4, htop, h5⟩

/-- The tables of a successful `build`. -/
lemma built_of_build (h : build arena map config = .ok (.ok (tables, arena'))) :
    Built arena map config tables arena' := by
  obtain ⟨top, hbuildable⟩ := buildable_of_build h
  obtain ⟨tables', arena'', heq, hbuilt⟩ := build_spec hbuildable
  rw [h] at heq
  simp only [Except.ok.injEq, Prod.mk.injEq] at heq
  obtain ⟨rfl, rfl⟩ := heq
  exact hbuilt

end Result

end KernelMemory

end ParanukOS
