import ParanukOS.Foundation.Checked

/-!
# Tables and ring buffers

A table is an array of fixed size, a function on `Fin n`; an access with a natural number stops when
the number is not an index.  A ring buffer keeps a queue in a table: its `len` elements stand at the
positions `head, head + 1, …` modulo `n`.  `ringList` is the queue; appending and removing an
element of the table do the same to it.  `Fifo` says what a queue is for: elements leave it in the
order in which they have come.
-/

namespace Foundation

variable {n : ℕ} {α : Type}

/-! ## Tables -/

/-- The element with index `i`; stops when there is none. -/
def readAt (t : Fin n → α) (i : ℕ) : Checked α :=
  if h : i < n then .ok (t ⟨i, h⟩) else .error .outOfBounds

/-- The table with the element `i` replaced; stops when there is none. -/
def writeAt (t : Fin n → α) (i : ℕ) (v : α) : Checked (Fin n → α) :=
  if h : i < n then .ok (Function.update t ⟨i, h⟩ v) else .error .outOfBounds

@[simp] lemma readAt_val (t : Fin n → α) (i : Fin n) : readAt t i.val = .ok (t i) :=
  dif_pos i.isLt

@[simp] lemma writeAt_val (t : Fin n → α) (i : Fin n) (v : α) :
    writeAt t i.val v = .ok (Function.update t i v) := dif_pos i.isLt

lemma readAt_eq_ok_iff {t : Fin n → α} {i : ℕ} {v : α} :
    readAt t i = .ok v ↔ ∃ j : Fin n, j.val = i ∧ t j = v := by
  unfold readAt
  split_ifs with h
  · rw [Except.ok.injEq]
    refine ⟨fun heq => ⟨⟨i, h⟩, rfl, heq⟩, ?_⟩
    rintro ⟨j, rfl, heq⟩
    exact heq
  · constructor
    · intro heq
      cases heq
    · rintro ⟨j, rfl, -⟩
      exact absurd j.isLt h

lemma writeAt_eq_ok_iff {t t' : Fin n → α} {i : ℕ} {v : α} :
    writeAt t i v = .ok t' ↔ ∃ j : Fin n, j.val = i ∧ t' = Function.update t j v := by
  unfold writeAt
  split_ifs with h
  · rw [Except.ok.injEq]
    refine ⟨fun heq => ⟨⟨i, h⟩, rfl, heq.symm⟩, ?_⟩
    rintro ⟨j, rfl, heq⟩
    exact heq.symm
  · constructor
    · intro heq
      cases heq
    · rintro ⟨j, rfl, -⟩
      exact absurd j.isLt h

/-! ## Ring buffers -/

variable [NeZero n]

/-- The queue in a ring buffer. -/
def ringList (buf : Fin n → α) (head len : ℕ) : List α :=
  (List.range len).map fun k => buf (Fin.ofNat n (head + k))

@[simp] lemma length_ringList (buf : Fin n → α) (head len : ℕ) :
    (ringList buf head len).length = len := by
  rw [ringList, List.length_map, List.length_range]

/-- Positions of a ring buffer that are less than `n` apart are different. -/
lemma ofNat_ne_ofNat {i j : ℕ} (hlt : i < j) (hdist : j < i + n) :
    Fin.ofNat n i ≠ Fin.ofNat n j := by
  intro hcon
  have hmod : i % n = j % n := congrArg Fin.val hcon
  have hdvd : n ∣ j - i := (Nat.modEq_iff_dvd' hlt.le).mp hmod
  exact absurd (Nat.le_of_dvd (by omega) hdvd) (by omega)

/-- Writing behind the last element appends to the queue. -/
lemma ringList_update_tail (buf : Fin n → α) (head : ℕ) {len : ℕ} (hlen : len < n) (v : α) :
    ringList (Function.update buf (Fin.ofNat n (head + len)) v) head (len + 1) =
      ringList buf head len ++ [v] := by
  rw [ringList, List.range_succ, List.map_append, List.map_singleton, Function.update_self,
    ringList]
  congr 1
  refine List.map_congr_left fun k hk => Function.update_of_ne ?_ _ _
  have := List.mem_range.mp hk
  exact ofNat_ne_ofNat (by omega) (by omega)

/-- The position of the head decides about the first element, and the rest follows. -/
lemma ringList_succ (buf : Fin n → α) (head len : ℕ) :
    ringList buf head (len + 1) =
      buf (Fin.ofNat n head) :: ringList buf ((head + 1) % n) len := by
  rw [ringList, List.range_succ_eq_map, List.map_cons, List.map_map, Nat.add_zero, ringList]
  congr 1
  refine List.map_congr_left fun k _ => ?_
  simp only [Function.comp_apply]
  congr 1
  refine Fin.ext ?_
  change (head + (k + 1)) % n = ((head + 1) % n + k) % n
  rw [Nat.mod_add_mod]
  congr 1
  omega

/-- Overwriting the position before the head does not change the queue. -/
lemma ringList_update_before (buf : Fin n → α) (head : ℕ) {len : ℕ} (hlen : len < n) (v : α) :
    ringList (Function.update buf (Fin.ofNat n head) v) ((head + 1) % n) len =
      ringList buf ((head + 1) % n) len := by
  refine List.map_congr_left fun k hk => Function.update_of_ne ?_ _ _
  have hk := List.mem_range.mp hk
  have hshift : Fin.ofNat n ((head + 1) % n + k) = Fin.ofNat n (head + 1 + k) :=
    Fin.ext (Nat.mod_add_mod _ _ _)
  rw [hshift]
  exact (ofNat_ne_ofNat (by omega) (by omega)).symm

/-! ## First in, first out -/

/-- What has left the queue, followed by what is left, is what was there, followed by what has
come. -/
def Fifo {α : Type} (queue pushed popped queue' : List α) : Prop :=
  queue ++ pushed = popped ++ queue'

namespace Fifo

variable {α : Type} {queue pushed popped queue' : List α}

lemma refl (queue : List α) : Fifo queue [] [] queue := List.append_nil queue

lemma push (h : Fifo queue pushed popped queue') (l : List α) :
    Fifo queue (pushed ++ l) popped (queue' ++ l) := by
  rw [Fifo, ← List.append_assoc, h, List.append_assoc]

lemma pop {x : α} (h : Fifo queue pushed popped (x :: queue')) :
    Fifo queue pushed (popped ++ [x]) queue' := by
  rw [Fifo, h, List.append_assoc]
  rfl

/-- As long as there are old elements, the queue starts with them. -/
lemma eq_drop (h : Fifo queue pushed popped queue') (hle : popped.length ≤ queue.length) :
    queue' = queue.drop popped.length ++ pushed := by
  have hdrop := congrArg (List.drop popped.length) h
  rw [List.drop_left, List.drop_append_of_le_length hle] at hdrop
  exact hdrop.symm

/-- The old elements leave in their order. -/
lemma popped_eq (h : Fifo queue pushed popped queue') (hle : popped.length ≤ queue.length) :
    popped = queue.take popped.length := by
  have htake := congrArg (List.take popped.length) h
  rw [List.take_left, List.take_append_of_le_length hle] at htake
  exact htake.symm

section Position

variable {i : ℕ} (hi : i < queue.length)
include hi

/-- An old element moves forward by one place with each element that leaves. -/
lemma getElem?_queue' (h : Fifo queue pushed popped queue') (hle : popped.length ≤ i) :
    queue'[i - popped.length]? = queue[i]? := by
  rw [h.eq_drop (hle.trans hi.le), List.getElem?_append_left (by rw [List.length_drop]; omega),
    List.getElem?_drop, Nat.add_sub_cancel' hle]

/-- In front of it are the same elements as before. -/
lemma take_queue' (h : Fifo queue pushed popped queue') (hle : popped.length ≤ i) :
    queue'.take (i - popped.length) = (queue.take i).drop popped.length := by
  rw [h.eq_drop (hle.trans hi.le), List.take_append_of_le_length (by rw [List.length_drop]; omega),
    List.drop_take]

/-- It has not left. -/
lemma notMem_popped (h : Fifo queue pushed popped queue') (hle : popped.length ≤ i)
    (hnodup : queue.Nodup) : queue[i] ∉ popped := by
  intro hcon
  rw [h.popped_eq (hle.trans hi.le)] at hcon
  obtain ⟨j, hj, heq⟩ := List.mem_iff_getElem.mp hcon
  rw [List.getElem_take] at heq
  have hji : j = i := hnodup.getElem_inj_iff.mp heq
  rw [List.length_take] at hj
  omega

/-- It is the element that leaves as number `i + 1`. -/
lemma getLast?_popped (h : Fifo queue pushed popped queue') (hlength : popped.length = i + 1) :
    popped.getLast? = queue[i]? := by
  rw [h.popped_eq (hlength.le.trans hi), hlength, List.getLast?_take, if_neg (Nat.succ_ne_zero i),
    Nat.add_sub_cancel, List.getElem?_eq_getElem hi]
  rfl

end Position

end Fifo

end Foundation
