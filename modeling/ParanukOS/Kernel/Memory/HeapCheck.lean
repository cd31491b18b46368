import ParanukOS.Kernel.Memory.SelfCheck

/-!
# The check of the heap succeeds

On a heap of 1 MiB without allocations, whatever its bytes are, the check of the heap returns and
leaves the allocator as it was.  All that happens is said with the rules for clients of the heap: in
every step of the check there is a list of the payloads that are held, namely the buffers of the
vectors of vectors and the blocks that these hold.

## Outline

* `payloads`, `Elements`: what a vector of vectors holds, and what is in its buffer.
* `Elements.get`, `Elements.push`, `Elements.set`, `exists_fromElem`: rules for vectors.
* `room_of_length_le`: there is room for everything that the check allocates.
* `returns_fill`, `returns_clear`, `returns_replace`, `returns_drop`: the loops of the check.
* `heapSelfCheck_returns`: the check.
-/

namespace ParanukOS

open Foundation Foundation.Fallible KernelMemory Heap

namespace Kernel

variable {α : Type} {base : ℕ} {held rest : List (ℕ × List UInt8)} {m : HeapMemory}

/-! ## Vectors -/

/-- What the elements of a vector of vectors hold, from the number `i` on; the vector with this
number is filled with `fill i`. -/
def payloads (fill : ℕ → UInt8) : ℕ → List (Option ByteVec) → List (ℕ × List UInt8)
  | _, [] => []
  | i, v :: vs =>
    (v.map fun v => (v.ptr, List.replicate v.len (fill i))).toList ++ payloads fill (i + 1) vs

/-- The elements of a vector are in its buffer. -/
structure Elements (layout : Stored α) (v : ElementVec) (bytes : List UInt8) (vs : List α) :
    Prop where
  len_eq : v.len = vs.length
  length_le : vs.length ≤ v.capacity
  length_eq : bytes.length = elementSize * v.capacity
  element : ∀ i a, vs[i]? = some a →
    (bytes.drop (elementSize * i)).take elementSize = layout.encode a

section Payloads

variable {fill : ℕ → UInt8} {vs ws : List (Option ByteVec)} {i : ℕ}

lemma payloads_append : payloads fill i (vs ++ ws) =
    payloads fill i vs ++ payloads fill (i + vs.length) ws := by
  induction vs generalizing i with
  | nil => rfl
  | cons v vs ih =>
    rw [List.cons_append, payloads, payloads, ih, List.append_assoc, List.length_cons]
    congr 3
    omega

lemma length_payloads_le (fill : ℕ → UInt8) (i : ℕ) (vs : List (Option ByteVec)) :
    (payloads fill i vs).length ≤ vs.length := by
  induction vs generalizing i with
  | nil => exact le_rfl
  | cons v vs ih =>
    have hle := ih (i + 1)
    rw [payloads, List.length_append, List.length_cons]
    cases v with
    | none => exact hle.trans (Nat.le_succ _) |> (Nat.zero_add _).le.trans
    | some v =>
      simp only [Option.map_some, Option.toList_some, List.length_singleton]
      omega

lemma mem_payloads {x : ℕ × List UInt8} : x ∈ payloads fill i vs ↔
    ∃ j v, vs[j]? = some (some v) ∧ x = (v.ptr, List.replicate v.len (fill (i + j))) := by
  induction vs generalizing i with
  | nil => simp [payloads]
  | cons u vs ih =>
    rw [payloads, List.mem_append, ih]
    constructor
    · rintro (hx | ⟨j, v, hv, rfl⟩)
      · obtain ⟨v, rfl, rfl⟩ := Option.map_eq_some_iff.mp (Option.mem_toList.mp hx)
        exact ⟨0, v, rfl, rfl⟩
      · exact ⟨j + 1, v, hv, by rw [Nat.add_assoc, Nat.add_comm 1]⟩
    · rintro ⟨j, v, hv, rfl⟩
      cases j with
      | zero =>
        obtain rfl : u = some v := Option.some.inj hv
        exact .inl List.mem_cons_self
      | succ j => exact .inr ⟨j, v, hv, by rw [Nat.add_assoc, Nat.add_comm 1]⟩

/-- Two elements have payloads at different places of the list. -/
lemma rel_of_pairwise_payloads {R : ℕ × List UInt8 → ℕ × List UInt8 → Prop}
    (h : (payloads fill i vs).Pairwise R) {j k : ℕ} {v w : ByteVec} (hlt : j < k)
    (hv : vs[j]? = some (some v)) (hw : vs[k]? = some (some w)) :
    R (v.ptr, List.replicate v.len (fill (i + j)))
      (w.ptr, List.replicate w.len (fill (i + k))) := by
  induction vs generalizing i j k with
  | nil => cases hv
  | cons u vs ih =>
    obtain ⟨k, rfl⟩ := Nat.exists_eq_add_one_of_ne_zero (Nat.ne_zero_of_lt hlt)
    rw [payloads, List.pairwise_append] at h
    obtain ⟨-, hrest, hcross⟩ := h
    have hw' : vs[k]? = some (some w) := hw
    have hnext : i + (k + 1) = i + 1 + k := by omega
    cases j with
    | zero =>
      obtain rfl : u = some v := Option.some.inj hv
      refine hcross _ List.mem_cons_self _ (mem_payloads.mpr ⟨k, w, hw', ?_⟩)
      rw [hnext]
    | succ j =>
      have hj : i + (j + 1) = i + 1 + j := by omega
      rw [hnext, hj]
      exact ih hrest (Nat.lt_of_succ_lt_succ hlt) hv hw'

/-- An element is replaced by nothing. -/
lemma perm_payloads_set (fill : ℕ → UInt8) {j : ℕ} {v : ByteVec} (hv : vs[j]? = some (some v)) :
    (payloads fill i vs).Perm
      ((v.ptr, List.replicate v.len (fill (i + j))) :: payloads fill i (vs.set j none)) := by
  induction vs generalizing i j with
  | nil => cases hv
  | cons u vs ih =>
    cases j with
    | zero =>
      obtain rfl : u = some v := Option.some.inj hv
      exact List.Perm.refl _
    | succ j =>
      rw [List.set_cons_succ, payloads, payloads]
      have hperm := ih (i := i + 1) hv
      rw [show i + 1 + j = i + (j + 1) by omega] at hperm
      exact (hperm.append_left _).trans List.perm_middle

end Payloads

/-- Part of a list after some elements at another place have been overwritten. -/
lemma take_drop_overwriteList_of_disjoint {l bs : List UInt8} {off o n : ℕ}
    (h : o + n ≤ off ∨ off + bs.length ≤ o) :
    ((overwriteList l off bs).drop o).take n = (l.drop o).take n := by
  refine List.ext_getElem? fun k => ?_
  rw [List.getElem?_take, List.getElem?_take, List.getElem?_drop, List.getElem?_drop,
    getElem?_overwriteList]
  split_ifs <;> first | rfl | omega

/-- The elements that have been overwritten. -/
lemma take_drop_overwriteList_self (l bs : List UInt8) (off : ℕ) (h : off + bs.length ≤ l.length) :
    ((overwriteList l off bs).drop off).take bs.length = bs := by
  refine List.ext_getElem? fun k => ?_
  rw [List.getElem?_take, List.getElem?_drop, getElem?_overwriteList]
  split_ifs with h1 h2
  · rw [Nat.add_sub_cancel_left]
  · omega
  · exact (List.getElem?_eq_none (not_lt.mp h1)).symm

namespace Elements

variable {layout : Stored α} {v : ElementVec} {bytes : List UInt8} {vs : List α} {i : ℕ} {a : α}

/-- The elements after one has been written, behind the last one or in its place. -/
lemma overwrite (h : Elements layout v bytes vs) {v' : ElementVec} {vs' : List α}
    (hcapacity : v'.capacity = v.capacity) (hlen : v'.len = vs'.length)
    (hle : vs'.length ≤ v.capacity) (hi : i < v.capacity)
    (hvs : ∀ j b, vs'[j]? = some b → j = i ∧ b = a ∨ j ≠ i ∧ vs[j]? = some b) :
    Elements layout v' (overwriteList bytes (elementSize * i) (layout.encode a)) vs' := by
  refine ⟨hlen, hcapacity ▸ hle, ?_, fun j b hb => ?_⟩
  · rw [length_overwriteList, h.length_eq, hcapacity]
  · have hlength := layout.length_encode a
    have hbytes := h.length_eq
    rcases hvs j b hb with ⟨rfl, rfl⟩ | ⟨hne, hold⟩
    · rw [← hlength, take_drop_overwriteList_self]
      rw [hlength, hbytes]
      simp only [elementSize]
      omega
    · rw [take_drop_overwriteList_of_disjoint, h.element j b hold]
      rw [hlength]
      simp only [elementSize]
      omega

/-- An element is read. -/
lemma get (h : Elements layout v bytes vs) {len : ℕ} (hheld : Held base len held m)
    (hmem : (v.ptr, bytes) ∈ held) (hi : vs[i]? = some a) : v.get layout m i = .ok a := by
  obtain ⟨hlt, -⟩ := List.getElem?_eq_some_iff.mp hi
  have hlen := h.len_eq
  have hle := h.length_le
  have hbytes := h.length_eq
  have hload := hheld.load hmem (i := elementSize * i) (n := elementSize)
    (by simp only [elementSize] at *; omega)
  rw [ElementVec.get, if_neg (by omega), hload, h.element i a hi]
  exact congrArg Except.ok (layout.decode_encode a)

/-- One more element. -/
lemma push (h : Elements layout v bytes vs) {len : ℕ}
    (hheld : Held base len ((v.ptr, bytes) :: rest) m) (hroom : vs.length < v.capacity) (a : α) :
    ∃ m' bytes', v.push layout m a = .ok ({ v with len := v.len + 1 }, m') ∧
      Elements layout { v with len := v.len + 1 } bytes' (vs ++ [a]) ∧
      Held base len ((v.ptr, bytes') :: rest) m' := by
  have hlen := h.len_eq
  obtain ⟨m', hstore, hheld'⟩ := hheld.store (elementSize * v.len) (layout.encode a) (by
    rw [layout.length_encode, h.length_eq]
    simp only [elementSize]
    omega)
  refine ⟨m', _, ?_, h.overwrite rfl ?_ ?_ (by omega) fun j b hb => ?_, hheld'⟩
  · rw [ElementVec.push, if_neg (by omega)]
    change (m.store (v.ptr + elementSize * v.len) (layout.encode a) >>= fun m =>
      pure ({ v with len := v.len + 1 }, m)) = _
    rw [hstore]
    rfl
  · rw [List.length_append, hlen]
    rfl
  · rw [List.length_append]
    exact hroom
  · rw [List.getElem?_append] at hb
    split_ifs at hb with hj
    · exact .inr ⟨by omega, hb⟩
    · obtain ⟨hlt, hb⟩ := List.getElem?_eq_some_iff.mp hb
      have hzero : j - vs.length = 0 := Nat.lt_one_iff.mp hlt
      refine .inl ⟨by omega, ?_⟩
      simpa [hzero] using hb.symm

/-- An element is replaced. -/
lemma set (h : Elements layout v bytes vs) {len : ℕ}
    (hheld : Held base len ((v.ptr, bytes) :: rest) m) (hi : i < vs.length) (a : α) :
    ∃ m' bytes', v.set layout m i a = .ok m' ∧ Elements layout v bytes' (vs.set i a) ∧
      Held base len ((v.ptr, bytes') :: rest) m' := by
  have hlen := h.len_eq
  have hle := h.length_le
  obtain ⟨m', hstore, hheld'⟩ := hheld.store (elementSize * i) (layout.encode a) (by
    rw [layout.length_encode, h.length_eq]
    simp only [elementSize]
    omega)
  refine ⟨m', _, ?_, h.overwrite rfl ?_ ?_ (hi.trans_le hle) fun j b hb => ?_, hheld'⟩
  · rw [ElementVec.set, if_neg (by omega)]
    exact hstore
  · rwa [List.length_set]
  · rwa [List.length_set]
  · rw [List.getElem?_set] at hb
    split_ifs at hb with hj
    · exact .inl ⟨hj.symm, (Option.some.inj hb).symm⟩
    · exact .inr ⟨Ne.symm hj, hb⟩

end Elements

/-! ## Allocation -/

/-- There is room for one more block while there are not too many of them. -/
lemma room_of_length_le {size align : ℕ} (hcount : held.length ≤ 98)
    (hsmall : ∀ x ∈ held, x.2.length ≤ 4096) (hsize : size ≤ 4096) (halign : align ≤ headerAlign) :
    Room heapSize held size align := by
  have hmanaged : managedLen heapSize = 1048576 := by decide
  have hneeded : needed size align - 1 ≤ 4119 := by
    rw [needed, if_pos halign, headerSize]
    omega
  have hsum : (held.map fun x => blockBound x.2.length).sum ≤ held.length * 4152 := by
    calc (held.map fun x => blockBound x.2.length).sum
        ≤ (held.map fun x => blockBound x.2.length).length • 4152 := by
          refine List.sum_le_card_nsmul _ _ fun n hn => ?_
          obtain ⟨x, hx, rfl⟩ := List.mem_map.mp hn
          have hle := hsmall x hx
          simp only [blockBound, headerSize, minBlock, minPayload, headerAlign]
          omega
      _ = held.length * 4152 := by rw [List.length_map, smul_eq_mul]
  have hproduct : (held.length + 1) * (needed size align - 1) ≤ 99 * 4119 :=
    Nat.mul_le_mul (Nat.succ_le_succ hcount) hneeded
  rw [Room, hmanaged]
  omega

/-- An allocation by a collection. -/
lemma exists_allocate (hheld : Held base heapSize held m) (hcount : held.length ≤ 98)
    (hsmall : ∀ x ∈ held, x.2.length ≤ 4096) (size : ℕ) {align : ℕ} (hpos : 0 < size)
    (hsize : size ≤ 4096) (hpow : isPowerOfTwo align = true) (halign : align ≤ headerAlign) :
    ∃ pointer bytes m', allocate m size align = .ok (pointer, m') ∧ bytes.length = size ∧
      Held base heapSize ((pointer, bytes) :: held) m' := by
  obtain ⟨pointer, bytes, m', heq, hne, hlength, hheld'⟩ := hheld.alloc hpos hpow
    (halign.trans (by decide)) (room_of_length_le hcount hsmall hsize halign)
  refine ⟨pointer, bytes, m', ?_, hlength, hheld'⟩
  rw [allocate, heq, Checked.ok_bind]
  exact if_neg hne

/-- `vec![byte; size]`. -/
lemma exists_fromElem (hheld : Held base heapSize held m) (hcount : held.length ≤ 98)
    (hsmall : ∀ x ∈ held, x.2.length ≤ 4096) {size : ℕ} (hpos : 0 < size) (hsize : size ≤ 4096)
    (byte : UInt8) : ∃ block m', ByteVec.fromElem m byte size = .ok (block, m') ∧
      block.len = size ∧
      Held base heapSize ((block.ptr, List.replicate block.len byte) :: held) m' := by
  obtain ⟨pointer, bytes, m₁, heq, hlength, hheld₁⟩ :=
    exists_allocate hheld hcount hsmall size hpos hsize (show isPowerOfTwo 1 = true by decide)
      (by decide)
  have hnew : (List.replicate size byte).length = bytes.length := by
    rw [List.length_replicate, hlength]
  obtain ⟨m', hstore, hheld'⟩ := hheld₁.store 0 (List.replicate size byte)
    (by rw [hnew, Nat.zero_add])
  have hbytes : overwriteList bytes 0 (List.replicate size byte) = List.replicate size byte := by
    have hself := take_drop_overwriteList_self bytes (List.replicate size byte) 0
      (by rw [hnew, Nat.zero_add])
    rwa [List.drop_zero, List.take_of_length_le (by rw [length_overwriteList, hnew])] at hself
  rw [hbytes] at hheld'
  obtain ⟨-, -, hstop⟩ := hheld'.bounds List.mem_cons_self
  have hword := hheld'.stop_lt
  have hptr : ByteVec.ptr ⟨.ofNat pointer, .ofNat size⟩ = pointer :=
    UInt64.toNat_ofNat_of_lt' (by simp only [UInt64.size]; omega)
  have hlen : ByteVec.len ⟨.ofNat pointer, .ofNat size⟩ = size :=
    UInt64.toNat_ofNat_of_lt' (by simp only [UInt64.size]; omega)
  refine ⟨⟨.ofNat pointer, .ofNat size⟩, m', ?_, hlen, by rwa [hptr, hlen]⟩
  rw [ByteVec.fromElem, heq, Checked.ok_bind]
  simp only
  rw [Nat.add_zero] at hstore
  rw [hstore]
  rfl

/-! ## A vector of vectors -/

/-- A vector with these elements is allocated besides `rest`, together with what its elements hold;
`vec` is the vector in an element. -/
structure HoldsVec (layout : Stored α) (vec : α → Option ByteVec) (fill : ℕ → UInt8) (base : ℕ)
    (rest : List (ℕ × List UInt8)) (v : ElementVec) (vs : List α) (m : HeapMemory) : Prop where
  buffer : ∃ bytes, Elements layout v bytes vs ∧
    Held base heapSize ((v.ptr, bytes) :: (payloads fill 0 (vs.map vec) ++ rest)) m
  capacity_le : v.capacity ≤ 64
  small : ∀ x ∈ payloads fill 0 (vs.map vec) ++ rest, x.2.length ≤ 4096

section Vectors

variable {layout : Stored α} {vec : α → Option ByteVec} {fill : ℕ → UInt8} {v : ElementVec}
  {vs : List α}

/-- `Vec::with_capacity`. -/
lemma exists_withCapacity (layout : Stored α) (vec : α → Option ByteVec) (fill : ℕ → UInt8)
    (capacity : ℕ) (hheld : Held base heapSize rest m) (hcount : rest.length ≤ 98)
    (hsmall : ∀ x ∈ rest, x.2.length ≤ 4096) (hpos : 0 < capacity)
    (hle : capacity ≤ 64) :
    ∃ v m', ElementVec.withCapacity m capacity = .ok (v, m') ∧ v.capacity = capacity ∧
      HoldsVec layout vec fill base rest v [] m' := by
  obtain ⟨pointer, bytes, m', heq, hlength, hheld'⟩ := exists_allocate hheld hcount hsmall
    (elementSize * capacity) (by simp only [elementSize]; omega)
    (by simp only [elementSize]; omega) (show isPowerOfTwo 8 = true by decide) le_rfl
  refine ⟨⟨pointer, capacity, 0⟩, m', ?_, rfl, ⟨bytes, ⟨rfl, Nat.zero_le _, hlength, ?_⟩, hheld'⟩,
    hle, hsmall⟩
  · rw [ElementVec.withCapacity, heq]
    rfl
  · intro i a hi
    cases hi

namespace HoldsVec

lemma len_eq (h : HoldsVec layout vec fill base rest v vs m) : v.len = vs.length := by
  obtain ⟨bytes, helements, -⟩ := h.buffer
  exact helements.len_eq

/-- A new vector is pushed. -/
lemma pushNew (h : HoldsVec layout vec fill base rest v vs m) (hroom : vs.length < v.capacity)
    (hcount : vs.length + rest.length < 98) {size : ℕ} (hpos : 0 < size) (hsize : size ≤ 4096)
    (wrap : ByteVec → α) (hwrap : ∀ b, vec (wrap b) = some b) :
    ∃ block m₁ v' m', ByteVec.fromElem m (fill vs.length) size = .ok (block, m₁) ∧
      block.len = size ∧ v.push layout m₁ (wrap block) = .ok (v', m') ∧
      v'.capacity = v.capacity ∧
      HoldsVec layout vec fill base rest v' (vs ++ [wrap block]) m' := by
  obtain ⟨bytes, helements, hheld⟩ := h.buffer
  have hlength := helements.length_eq
  have hcapacity := h.capacity_le
  have hpayloads := length_payloads_le fill 0 (vs.map vec)
  rw [List.length_map] at hpayloads
  obtain ⟨block, m₁, hnew, hlen, hheld₁⟩ := exists_fromElem hheld
    (by rw [List.length_cons, List.length_append]; omega)
    (List.forall_mem_cons.mpr ⟨by simp only [elementSize] at hlength ⊢; omega, h.small⟩) hpos hsize
    (fill vs.length)
  obtain ⟨m', bytes', hpush, helements', hheld'⟩ :=
    helements.push (hheld₁.perm (List.Perm.swap _ _ _)) hroom (wrap block)
  have hlist : payloads fill 0 ((vs ++ [wrap block]).map vec) =
      payloads fill 0 (vs.map vec) ++
        [(block.ptr, List.replicate block.len (fill vs.length))] := by
    rw [List.map_append, payloads_append, List.map_singleton, hwrap, List.length_map, Nat.zero_add]
    rfl
  refine ⟨block, m₁, _, m', hnew, hlen, hpush, rfl, ⟨bytes', helements', ?_⟩, hcapacity, ?_⟩
  · rw [hlist, List.append_assoc]
    exact hheld'.perm (List.Perm.cons _ List.perm_middle.symm)
  · rw [hlist, List.append_assoc]
    intro x hx
    rcases List.mem_append.mp hx with hx | hx
    · exact h.small x (List.mem_append_left _ hx)
    · rcases List.mem_cons.mp hx with rfl | hx
      · rwa [List.length_replicate, hlen]
      · exact h.small x (List.mem_append_right _ hx)

/-- The loop of `drop` over the elements of a vector, and its buffer. -/
lemma returns_drop (h : HoldsVec layout vec fill base rest v vs m)
    (body : HeapMemory → ℕ → Fallible CheckFailure HeapMemory)
    (hbody : ∀ m index a, v.get layout m index = .ok a → body m index =
      match vec a with
      | none => pure m
      | some block => liftM (m.dealloc block.ptr)) :
    ∃ m₁ m', Returns ((List.range v.len).foldlM body m) m₁ ∧ m₁.dealloc v.ptr = .ok m' ∧
      Held base heapSize rest m' := by
  obtain ⟨bytes, helements, hheld⟩ := h.buffer
  -- after `k` rounds the elements from `k` on hold their vectors
  obtain ⟨m₁, hloop, hheld₁⟩ := foldlM_range_rule v.len m body
    (fun k m => Held base heapSize
      ((v.ptr, bytes) :: (payloads fill k ((vs.map vec).drop k) ++ rest)) m) hheld (by
    intro k hk m₁ hheld₁
    rw [helements.len_eq] at hk
    have hget := helements.get hheld₁ List.mem_cons_self (List.getElem?_eq_getElem hk)
    have hdrop : (vs.map vec).drop k = vec vs[k] :: (vs.map vec).drop (k + 1) := by
      rw [List.drop_eq_getElem_cons (by rwa [List.length_map]), List.getElem_map]
    rw [hdrop, payloads] at hheld₁
    rw [hbody m₁ k _ hget]
    cases hvec : vec vs[k] with
    | none =>
      rw [hvec] at hheld₁
      exact ⟨m₁, returns_pure.mpr rfl, hheld₁⟩
    | some block =>
      rw [hvec] at hheld₁
      obtain ⟨m₂, hdealloc, hheld₂⟩ := (hheld₁.perm (List.Perm.swap _ _ _)).dealloc
      exact ⟨m₂, returns_lift.mpr hdealloc, hheld₂⟩)
  rw [List.drop_eq_nil_of_le (by rw [List.length_map, helements.len_eq])] at hheld₁
  obtain ⟨m', hdealloc, hheld'⟩ := Held.dealloc hheld₁
  exact ⟨m₁, m', hloop, hdealloc, hheld'⟩

end HoldsVec

end Vectors

/-! ## The steps of the check -/

section Steps

variable {blockLayout : Stored (Option ByteVec)} {vecLayout : Stored ByteVec}
  {blocks replacements : ElementVec} {bytes bytes' : List UInt8} {vs : List (Option ByteVec)}
  {ws : List ByteVec}

lemma sizeOfBlock_bounds (index : ℕ) : 0 < sizeOfBlock index ∧ sizeOfBlock index ≤ 4096 := by
  have hall : ∀ k < blockSizes.length, 0 < blockSizes.getD k 0 ∧ blockSizes.getD k 0 ≤ 4096 := by
    decide
  exact hall _ (Nat.mod_lt _ (by decide))

lemma returns_checkBytes (step : ℕ) (what : String) (expected : UInt8) (n address : ℕ) :
    Returns (checkBytes step what expected address (List.replicate n expected)) () := by
  induction n generalizing address with
  | zero => exact returns_pure.mpr rfl
  | succ n ih =>
    rw [List.replicate_succ, checkBytes, throwIf_of_not (not_not.mpr rfl), pure_bind]
    exact ih (address + 1)

/-- What the element with this number holds. -/
lemma mem_payloads_of_getElem (fill : ℕ → UInt8) {index : ℕ} {block : ByteVec}
    (hindex : index < vs.length) (hblock : vs[index] = some block) :
    (block.ptr, List.replicate block.len (fill index)) ∈ payloads fill 0 vs :=
  mem_payloads.mpr ⟨index, block, by rw [List.getElem?_eq_getElem hindex, hblock],
    by rw [Nat.zero_add]⟩

/-- The bytes of all blocks are the pattern. -/
lemma returns_checkContents (hheld : Held base heapSize held m)
    (helements : Elements blockLayout blocks bytes vs) (hmem : (blocks.ptr, bytes) ∈ held)
    (hsub : (payloads pattern 0 vs).Sublist held) (step : ℕ) (what : String) :
    Returns ((List.range blocks.len).forM (checkContents blockLayout step what m blocks)) () := by
  refine forM_returns fun index hindex => ?_
  rw [List.mem_range, helements.len_eq] at hindex
  have hget := helements.get hheld hmem (List.getElem?_eq_getElem hindex)
  rw [checkContents, hget, lift_ok, pure_bind]
  cases hblock : vs[index] with
  | none => exact returns_pure.mpr rfl
  | some block =>
    have hload := hheld.load (hsub.subset (mem_payloads_of_getElem _ hindex hblock)) (i := 0)
      (n := block.len) (by rw [List.length_replicate, Nat.zero_add])
    rw [Nat.add_zero, List.drop_zero, List.take_of_length_le (by rw [List.length_replicate])]
      at hload
    simp only
    rw [hload, lift_ok, pure_bind]
    exact returns_checkBytes step what (pattern index) block.len block.ptr

/-- All blocks lie in the heap, and no two of them overlap. -/
lemma returns_checkPlace (hheld : Held base heapSize held m)
    (helements : Elements blockLayout blocks bytes vs) (hmem : (blocks.ptr, bytes) ∈ held)
    (hsub : (payloads pattern 0 vs).Sublist held) :
    Returns ((List.range blocks.len).forM
      (checkPlace blockLayout m blocks base (base + heapSize))) () := by
  have hword := hheld.stop_lt
  have hbounds : ∀ {index : ℕ} {block : ByteVec} (hindex : index < vs.length),
      vs[index] = some block → base < block.ptr ∧ block.ptr + block.len ≤ base + heapSize := by
    intro index block hindex hblock
    have hplace := hheld.bounds (hsub.subset (mem_payloads_of_getElem _ hindex hblock))
    rw [List.length_replicate] at hplace
    exact hplace.2
  refine forM_returns fun index hindex => ?_
  rw [List.mem_range, helements.len_eq] at hindex
  have hget := helements.get hheld hmem (List.getElem?_eq_getElem hindex)
  rw [checkPlace, hget, lift_ok, pure_bind]
  cases hblock : vs[index] with
  | none => exact returns_pure.mpr rfl
  | some block =>
    obtain ⟨hlow, hhigh⟩ := hbounds hindex hblock
    simp only
    rw [addWord_of_lt (by omega), lift_ok, pure_bind, throwIf_of_not (by omega), pure_bind]
    refine forM_returns fun other hother => ?_
    obtain ⟨i, hi⟩ := List.mem_iff_getElem?.mp hother
    rw [List.getElem?_drop, helements.len_eq] at hi
    obtain ⟨hlt, hi⟩ := List.getElem?_eq_some_iff.mp hi
    rw [List.length_range] at hlt
    rw [List.getElem_range] at hi
    subst hi
    have hget' := helements.get hheld hmem (List.getElem?_eq_getElem hlt)
    rw [checkOther, hget', lift_ok, pure_bind]
    cases hblock' : vs[index + 1 + i] with
    | none => exact returns_pure.mpr rfl
    | some block' =>
      obtain ⟨hlow', hhigh'⟩ := hbounds hlt hblock'
      have hapart := rel_of_pairwise_payloads (hheld.apart.sublist hsub)
        (show index < index + 1 + i by omega)
        (by rw [List.getElem?_eq_getElem hindex, hblock])
        (by rw [List.getElem?_eq_getElem hlt, hblock'])
      simp only [List.length_replicate] at hapart
      simp only
      rw [addWord_of_lt (by omega), lift_ok, pure_bind, throwIf_of_not (by omega)]
      exact returns_pure.mpr rfl

/-- What the replacements are filled with. -/
def replacementPattern (index : ℕ) : UInt8 := pattern (2 * index) ^^^ 0xFF

/-- All replacements lie in the heap, and none of them overlaps a block. -/
lemma returns_checkReplacement
    (hheld : Held base heapSize ((replacements.ptr, bytes') ::
      (payloads replacementPattern 0 (ws.map some) ++
        (blocks.ptr, bytes) :: payloads pattern 0 vs)) m)
    (helements : Elements blockLayout blocks bytes vs)
    (helements' : Elements vecLayout replacements bytes' ws) :
    Returns ((List.range replacements.len).forM (checkReplacement blockLayout vecLayout m blocks
      replacements base (base + heapSize))) () := by
  have hword := hheld.stop_lt
  obtain ⟨-, -, hcross⟩ := List.pairwise_append.mp (List.pairwise_cons.mp hheld.apart).2
  refine forM_returns fun index hindex => ?_
  rw [List.mem_range, helements'.len_eq] at hindex
  have hget := helements'.get hheld List.mem_cons_self (List.getElem?_eq_getElem hindex)
  have hreplacement : (ws[index].ptr,
      List.replicate ws[index].len (replacementPattern index)) ∈
        payloads replacementPattern 0 (ws.map some) :=
    mem_payloads_of_getElem _ (by rwa [List.length_map]) (List.getElem_map ..)
  have hplace := hheld.bounds (List.mem_cons_of_mem _ (List.mem_append_left _ hreplacement))
  rw [List.length_replicate] at hplace
  rw [checkReplacement, hget, lift_ok, pure_bind]
  simp only
  rw [addWord_of_lt (by omega), lift_ok, pure_bind, throwIf_of_not (by omega), pure_bind]
  refine forM_returns fun other hother => ?_
  rw [List.mem_range, helements.len_eq] at hother
  have hget' := helements.get hheld
    (List.mem_cons_of_mem _ (List.mem_append_right _ List.mem_cons_self))
    (List.getElem?_eq_getElem hother)
  rw [checkSurvivor, hget', lift_ok, pure_bind]
  cases hblock : vs[other] with
  | none => exact returns_pure.mpr rfl
  | some block =>
    have hmem := mem_payloads_of_getElem pattern hother hblock
    have hplace' := hheld.bounds
      (List.mem_cons_of_mem _ (List.mem_append_right _ (List.mem_cons_of_mem _ hmem)))
    have hapart := hcross _ hreplacement _ (List.mem_cons_of_mem _ hmem)
    simp only [List.length_replicate] at hapart hplace'
    simp only
    rw [addWord_of_lt (by omega), lift_ok, pure_bind, throwIf_of_not (by omega)]
    exact returns_pure.mpr rfl

/-- Step 1. -/
lemma returns_fill {start : ElementVec}
    (h : HoldsVec blockLayout id pattern base [] start [] m) (hcapacity : start.capacity = 64) :
    ∃ blocks vs m', Returns ((List.range blockCount).foldlM (fillBlock blockLayout) (start, m))
      (blocks, m') ∧ vs.length = blockCount ∧
      HoldsVec blockLayout id pattern base [] blocks vs m' := by
  obtain ⟨⟨blocks, m'⟩, hloop, vs, hlength, -, h'⟩ := foldlM_range_rule blockCount
    (start, m) (fillBlock blockLayout)
    (fun k s => ∃ vs : List (Option ByteVec), vs.length = k ∧ s.1.capacity = 64 ∧
      HoldsVec blockLayout id pattern base [] s.1 vs s.2) ⟨[], rfl, hcapacity, h⟩ (by
    rintro k hk ⟨blocks, m₁⟩ ⟨vs, rfl, hcapacity₁, h₁⟩
    obtain ⟨hpos, hsize⟩ := sizeOfBlock_bounds vs.length
    simp only [blockCount] at hk hcapacity₁
    obtain ⟨block, m₂, blocks', m₃, hnew, hlen, hpush, hcapacity₂, h₂⟩ := h₁.pushNew
      (by simp only; omega) (by rw [List.length_nil]; omega) hpos hsize some fun _ => rfl
    refine ⟨(blocks', m₃), ?_, _, by rw [List.length_append]; rfl, hcapacity₂.trans hcapacity₁, h₂⟩
    rw [fillBlock, hnew, lift_ok, pure_bind]
    simp only
    rw [throwIf_of_not (not_not.mpr hlen), pure_bind, hpush]
    exact returns_pure.mpr rfl)
  exact ⟨blocks, vs, m', hloop, hlength, h'⟩

/-- Half of the blocks are released. -/
lemma returns_clear (h : HoldsVec blockLayout id pattern base [] blocks vs m)
    (hlength : vs.length = blockCount) :
    ∃ vs' m', Returns (evenBlocks.foldlM (clearBlock blockLayout blocks) m) m' ∧
      vs'.length = blockCount ∧ HoldsVec blockLayout id pattern base [] blocks vs' m' := by
  rw [evenBlocks, List.foldlM_map]
  obtain ⟨m', hloop, vs', hlength', h'⟩ := foldlM_range_rule (blockCount / 2) m
    (fun m k => clearBlock blockLayout blocks m (2 * k))
    (fun _ m => ∃ vs : List (Option ByteVec), vs.length = blockCount ∧
      HoldsVec blockLayout id pattern base [] blocks vs m) ⟨vs, hlength, h⟩ (by
    rintro k hk m₁ ⟨vs₁, hlength₁, h₁⟩
    have hindex : 2 * k < vs₁.length := by
      rw [hlength₁]
      simp only [blockCount] at hk ⊢
      omega
    obtain ⟨bytes, helements, hheld⟩ := h₁.buffer
    rw [List.map_id] at hheld
    have hget := helements.get hheld List.mem_cons_self (List.getElem?_eq_getElem hindex)
    have hsmall := h₁.small
    rw [List.map_id] at hsmall
    rw [clearBlock, hget, lift_ok, pure_bind]
    -- in both cases the element holds nothing before it is written
    suffices hset : ∀ m₂, Held base heapSize
        ((blocks.ptr, bytes) :: (payloads pattern 0 (vs₁.set (2 * k) none) ++ [])) m₂ →
        (∀ x ∈ payloads pattern 0 (vs₁.set (2 * k) none) ++ [], x ∈ payloads pattern 0 vs₁ ++ []) →
        ∃ m', Returns (liftM (blocks.set blockLayout m₂ (2 * k) none) : Fallible CheckFailure _)
          m' ∧ ∃ vs : List (Option ByteVec), vs.length = blockCount ∧
            HoldsVec blockLayout id pattern base [] blocks vs m' by
      cases hblock : vs₁[2 * k] with
      | none =>
        have hsame : vs₁.set (2 * k) none = vs₁ := by
          rw [← hblock]
          exact List.set_getElem_self hindex
        exact hset m₁ (by rwa [hsame]) (by rw [hsame]; exact fun x hx => hx)
      | some block =>
        have hperm := perm_payloads_set pattern (i := 0)
          (show vs₁[2 * k]? = some (some block) by rw [List.getElem?_eq_getElem hindex, hblock])
        have hheld₁ := hheld.perm ((((hperm.append_right []).cons (blocks.ptr, bytes)).trans
          (List.Perm.swap _ _ _)))
        obtain ⟨m₂, hdealloc, hheld₂⟩ := hheld₁.dealloc
        simp only
        rw [hdealloc, lift_ok, pure_bind]
        refine hset m₂ hheld₂ fun x hx => ?_
        rw [List.append_nil] at hx ⊢
        exact hperm.mem_iff.mpr (List.mem_cons_of_mem _ hx)
    intro m₂ hheld₂ hsub
    obtain ⟨m₃, bytes', hset, helements', hheld₃⟩ := helements.set hheld₂ hindex none
    refine ⟨m₃, returns_lift.mpr hset, _, by rwa [List.length_set],
      ⟨bytes', helements', by rwa [List.map_id]⟩, h₁.capacity_le, fun x hx => ?_⟩
    rw [List.map_id] at hx
    exact hsmall x (hsub x hx))
  exact ⟨vs', m', hloop, hlength', h'⟩

/-- The replacements are allocated. -/
lemma returns_replace {start : ElementVec} (hcount : rest.length ≤ 65)
    (h : HoldsVec vecLayout some replacementPattern base rest start [] m)
    (hcapacity : start.capacity = 32) :
    ∃ replacements ws m', Returns (evenBlocks.foldlM (fillReplacement vecLayout) (start, m))
      (replacements, m') ∧
      HoldsVec vecLayout some replacementPattern base rest replacements ws m' := by
  rw [evenBlocks, List.foldlM_map]
  obtain ⟨⟨replacements, m'⟩, hloop, ws, -, -, h'⟩ := foldlM_range_rule (blockCount / 2)
    (start, m) (fun s k => fillReplacement vecLayout s (2 * k))
    (fun k s => ∃ ws : List ByteVec, ws.length = k ∧ s.1.capacity = 32 ∧
      HoldsVec vecLayout some replacementPattern base rest s.1 ws s.2) ⟨[], rfl, hcapacity, h⟩ (by
    rintro k hk ⟨replacements, m₁⟩ ⟨ws, rfl, hcapacity₁, h₁⟩
    obtain ⟨hpos, hsize⟩ := sizeOfBlock_bounds (2 * ws.length)
    simp only [blockCount] at hk hcapacity₁
    obtain ⟨block, m₂, replacements', m₃, hnew, -, hpush, hcapacity₂, h₂⟩ := h₁.pushNew
      (by simp only; omega) (by omega) hpos hsize id fun _ => rfl
    refine ⟨(replacements', m₃), ?_, _, by rw [List.length_append]; rfl,
      hcapacity₂.trans hcapacity₁, h₂⟩
    rw [replacementPattern] at hnew
    rw [fillReplacement, hnew, lift_ok, pure_bind]
    exact returns_lift.mpr hpush)
  exact ⟨replacements, ws, m', hloop, h'⟩

/-- Without allocations the heap is what it was at first. -/
lemma heap_eq_of_held_nil {m' : HeapMemory} (h : Held base heapSize [] m)
    (h' : Held base heapSize [] m') : m'.heap = m.heap := by
  obtain ⟨bs, hlaid⟩ := h.laid
  obtain ⟨bs', hlaid'⟩ := h'.laid
  obtain ⟨hlist, -⟩ := hlaid'.list_eq hlaid (h'.arenaLen_eq.trans h.arenaLen_eq.symm) rfl
  obtain ⟨⟨list, base', len⟩, arena⟩ := m
  obtain ⟨⟨list', base'', len'⟩, arena'⟩ := m'
  have hbase := h'.base_eq.trans h.base_eq.symm
  have hlen := h'.len_eq.trans h.len_eq.symm
  simp only at hlist hbase hlen
  rw [hlist, hbase, hlen]

/-- `heap_self_check` on a heap without allocations. -/
lemma heapSelfCheck_returns (blockLayout : Stored (Option ByteVec)) (vecLayout : Stored ByteVec)
    (h : Held base heapSize [] m) :
    ∃ m', Returns (heapSelfCheck blockLayout vecLayout m) m' ∧ Held base heapSize [] m' ∧
      m'.heap = m.heap := by
  have hword := h.stop_lt
  -- step 1
  obtain ⟨start, m₁, hstart, hcapacity, h₁⟩ := exists_withCapacity blockLayout id
    pattern blockCount h (by decide)
    (fun x hx => absurd hx List.not_mem_nil) (by decide) (by decide)
  obtain ⟨blocks, vs, m₂, hfill, hlength, h₂⟩ := returns_fill h₁ hcapacity
  -- steps 2 and 3
  obtain ⟨bytes₂, helements₂, hheld₂⟩ := h₂.buffer
  rw [List.map_id, List.append_nil] at hheld₂
  have hplace := returns_checkPlace hheld₂ helements₂ List.mem_cons_self
    (List.sublist_cons_self _ _)
  have hcontents := returns_checkContents hheld₂ helements₂ List.mem_cons_self
    (List.sublist_cons_self _ _) 3 "堆块内容读回不一致（页帧未映射或已被覆写）"
  -- step 4
  obtain ⟨vs₃, m₃, hclear, hlength₃, h₃⟩ := returns_clear h₂ hlength
  obtain ⟨bytes₃, helements₃, hheld₃⟩ := h₃.buffer
  have hsmall₃ := h₃.small
  have hcapacity₃ := h₃.capacity_le
  have hbytes₃ := helements₃.length_eq
  rw [List.map_id, List.append_nil] at hheld₃ hsmall₃
  have hcount₃ : ((blocks.ptr, bytes₃) :: payloads pattern 0 vs₃).length ≤ 65 := by
    have hle := length_payloads_le pattern 0 vs₃
    rw [hlength₃, blockCount] at hle
    rw [List.length_cons]
    omega
  obtain ⟨start', m₄, hstart', hcapacity', h₄⟩ := exists_withCapacity vecLayout some
    replacementPattern (blockCount / 2) hheld₃
    (hcount₃.trans (by decide)) (List.forall_mem_cons.mpr
      ⟨by simp only [elementSize] at hbytes₃ ⊢; omega, hsmall₃⟩) (by decide) (by decide)
  obtain ⟨replacements, ws, m₅, hreplace, h₅⟩ := returns_replace hcount₃ h₄ hcapacity'
  obtain ⟨bytes₅, helements₅, hheld₅⟩ := h₅.buffer
  have hcontents' := returns_checkContents hheld₅ helements₃
    (List.mem_cons_of_mem _ (List.mem_append_right _ List.mem_cons_self))
    (((List.sublist_cons_self _ _).trans (List.sublist_append_right _ _)).trans
      (List.sublist_cons_self _ _)) 4 "释放一半后，存活的堆块被破坏"
  have hreplacement := returns_checkReplacement hheld₅ helements₃ helements₅
  -- step 5
  obtain ⟨m₆, m₇, hdrop, hdealloc, hheld₇⟩ := h₅.returns_drop
    (dropReplacement vecLayout replacements) fun m index a hget => by
      rw [dropReplacement, hget, lift_ok, pure_bind]
  have h₇ : HoldsVec blockLayout id pattern base [] blocks vs₃ m₇ :=
    ⟨⟨bytes₃, helements₃, by rwa [List.map_id, List.append_nil]⟩, h₃.capacity_le, h₃.small⟩
  obtain ⟨m₈, m₉, hdrop', hdealloc', h₉⟩ := h₇.returns_drop
    (dropBlock blockLayout blocks) fun m index a hget => by
      rw [dropBlock, hget, lift_ok, pure_bind]
      rfl
  obtain ⟨hblocks, hbytes⟩ := h₉.stats_of_nil (by decide)
  have hlarge := h₉.alloc_eq_zero (heapSize * 2) 8 (by decide)
  refine ⟨m₉, ?_, h₉, heap_eq_of_held_nil h h₉⟩
  rw [heapSelfCheck]
  simp only
  rw [h.base_eq, h.len_eq, throwIf_of_not (not_not.mpr rfl), pure_bind, addWord_of_lt hword,
    lift_ok, pure_bind, hstart, lift_ok, pure_bind]
  refine returns_bind.mpr ⟨_, hfill, returns_bind.mpr ⟨_, hplace, returns_bind.mpr ⟨_, hcontents,
    returns_bind.mpr ⟨_, hclear, ?_⟩⟩⟩⟩
  rw [hstart', lift_ok, pure_bind]
  refine returns_bind.mpr ⟨_, hreplace, returns_bind.mpr ⟨_, hcontents', returns_bind.mpr
    ⟨_, hreplacement, returns_bind.mpr ⟨_, hdrop, ?_⟩⟩⟩⟩
  rw [hdealloc, lift_ok, pure_bind]
  refine returns_bind.mpr ⟨_, hdrop', ?_⟩
  rw [hdealloc', lift_ok, pure_bind, throwIf_of_not (by rw [hblocks, hbytes]; decide), pure_bind,
    checkOversized, h₉.len_eq, mulWord_of_lt (by decide), lift_ok, pure_bind, hlarge, lift_ok,
    pure_bind]
  exact returns_pure.mpr rfl

end Steps

end Kernel

end ParanukOS
