import Mathlib.Logic.Relation
import ParanukOS.KernelSched.Abstract

/-!
# The scheduler refines a queue of threads

`Refines` relates the tables and the ring buffer of the code to an abstract scheduler, whose ready
queue is a list.  Every call of the code agrees with the abstract one; the invariant of the abstract
scheduler makes the assertions of the code hold.

## Outline

* `enqueue_spec`, `dequeue_spec`: the ring buffer.
* `Refines`, `Agrees`, `Refines.step`: one call.
* `scheduler_refines_queue`: all runs.
-/

namespace ParanukOS

open Foundation

namespace KernelSched

/-! ## The ring buffer -/

namespace Scheduler

variable {s : Scheduler}

/-- `enqueue` appends to the ready queue. -/
lemma enqueue_spec (hlen : s.len < maxThreads) (id : ℕ) :
    ∃ queue, s.enqueue id = .ok { s with queue := queue, len := s.len + 1 } ∧
      ringList queue s.head (s.len + 1) = s.readyQueue ++ [id] := by
  refine ⟨Function.update s.queue (Fin.ofNat maxThreads (s.head + s.len)) id, ?_,
    ringList_update_tail s.queue s.head hlen id⟩
  have hwrite := writeAt_val s.queue (Fin.ofNat maxThreads (s.head + s.len)) id
  have hword : s.len + 1 < 2 ^ 64 := by
    simp only [maxThreads] at hlen
    omega
  rw [enqueue, debugAssert, if_pos hlen, Checked.ok_bind]
  change (writeAt s.queue (Fin.ofNat maxThreads (s.head + s.len)).val id >>= _) = _
  rw [hwrite, Checked.ok_bind, addWord_of_lt hword]
  rfl

/-- `dequeue` removes the first thread. -/
lemma dequeue_spec (hhead : s.head < maxThreads) (hlen : s.len ≤ maxThreads) {next : ℕ}
    {rest : List ℕ} (h : s.readyQueue = next :: rest) :
    ∃ queue, s.dequeue = .ok (next,
        { s with queue := queue, head := (s.head + 1) % maxThreads, len := s.len - 1 }) ∧
      ringList queue ((s.head + 1) % maxThreads) (s.len - 1) = rest := by
  have hpos : 0 < s.len := by
    rw [← length_ringList s.queue s.head s.len]
    change 0 < s.readyQueue.length
    rw [h]
    exact Nat.succ_pos _
  obtain ⟨len, hsucc⟩ : ∃ len, s.len = len + 1 := ⟨s.len - 1, by omega⟩
  have hring := ringList_succ s.queue s.head len
  rw [← hsucc] at hring
  obtain ⟨rfl, rfl⟩ := List.cons.inj (h.symm.trans hring)
  have hindex : s.head = (Fin.ofNat maxThreads s.head).val := (Nat.mod_eq_of_lt hhead).symm
  refine ⟨Function.update s.queue (Fin.ofNat maxThreads s.head) noThread, ?_, ?_⟩
  · have hread := readAt_val s.queue (Fin.ofNat maxThreads s.head)
    have hwrite := writeAt_val s.queue (Fin.ofNat maxThreads s.head) noThread
    rw [← hindex] at hread hwrite
    rw [dequeue, debugAssert, if_pos hpos, Checked.ok_bind, hread, Checked.ok_bind, hwrite,
      Checked.ok_bind, subWord_of_le hpos]
    rfl
  · rw [hsucc, Nat.add_sub_cancel]
    exact ringList_update_before s.queue s.head (by omega) noThread

/-- The first thread of the queue runs, unless the counter of switches overflows. -/
lemma switchToFirst_spec (hhead : s.head < maxThreads) (hlen : s.len ≤ maxThreads) {next : ThreadId}
    {rest : List ℕ} (h : s.readyQueue = next.val :: rest) (previous : ℕ) :
    ∃ queue, s.switchToFirst previous = (addWord s.switches 1 >>= fun switches =>
        .ok (.switch previous next, { s with
          queue := queue
          head := (s.head + 1) % maxThreads
          len := s.len - 1
          states := Function.update s.states next .running
          current := next
          switches := switches })) ∧
      ringList queue ((s.head + 1) % maxThreads) (s.len - 1) = rest := by
  obtain ⟨queue, hdequeue, hring⟩ := dequeue_spec hhead hlen h
  refine ⟨queue, ?_, hring⟩
  rw [switchToFirst, hdequeue, Checked.ok_bind]
  simp only [writeAt_val]
  rfl

/-- One call. -/
def step (s : Scheduler) : SchedOp → Checked (SchedResult × Scheduler)
  | .registerIdle id => do let (r, s) ← s.registerIdle id; return (.registered r, s)
  | .registerIdleAny => do let (r, s) ← s.registerIdleAny; return (.thread r, s)
  | .create => do let (r, s) ← s.create; return (.thread r, s)
  | .onTick reschedule => do let (r, s) ← s.onTick reschedule; return (.decision r, s)
  | .yieldCurrent => do let (r, s) ← s.yieldCurrent; return (.decision r, s)
  | .exitCurrent => do let (r, s) ← s.exitCurrent; return (.exited r, s)
  | .takeReapable => do let (r, s) ← s.takeReapable; return (.reaped r, s)

end Scheduler

/-! ## The refinement -/

/-- The word for the idle thread. -/
def idleId : Option ThreadId → ℕ
  | none => noThread
  | some id => id

lemma val_ne_noThread (id : ThreadId) : id.val ≠ noThread := by
  have := id.isLt
  simp only [maxThreads, noThread] at *
  omega

/-- The scheduler of the code represents an abstract one. -/
structure Refines (s : Scheduler) (a : AbstractSched) : Prop where
  states_eq : s.states = a.states
  readyQueue_eq : s.readyQueue = a.queue.map Fin.val
  head_lt : s.head < maxThreads
  current_eq : s.current = a.current
  idle_eq : s.idle = idleId a.idle
  kinds_iff : ∀ i, s.kinds i = .idle ↔ a.idle = some i
  ticks_eq : s.ticks = a.ticks
  switches_eq : s.switches = a.switches

/-- A call of the code agrees with one of the abstract scheduler: it returns the same result and the
states are related again; the only other possibility is that a counter overflows. -/
def Agrees {ρ : Type} (full : Prop) (x : Checked (ρ × Scheduler)) (y : ρ × AbstractSched) : Prop :=
  (∃ s, x = .ok (y.1, s) ∧ Refines s y.2) ∨ x = .error .overflow ∧ full

/-- A counter is at its maximum. -/
def CounterFull (s : Scheduler) : Prop := 2 ^ 64 ≤ s.ticks + 1 ∨ 2 ^ 64 ≤ s.switches + 1

namespace Refines

variable {s : Scheduler} {a : AbstractSched}

lemma len_eq (h : Refines s a) : s.len = a.queue.length := by
  have := congrArg List.length h.readyQueue_eq
  rwa [Scheduler.readyQueue, length_ringList, List.length_map] at this

lemma stats_eq (h : Refines s a) : s.stats = a.stats := by
  rw [Scheduler.stats, AbstractSched.stats, h.ticks_eq, h.switches_eq, h.len_eq, h.states_eq]

/-- The condition under which the current thread may exit, on both levels. -/
lemma allowed_exitCurrent (h : Refines s a)
    (hidle : s.idle ≠ noThread ∧ s.idle ≠ s.current) : a.Allowed .exitCurrent := by
  rw [h.idle_eq, h.current_eq] at hidle
  refine ⟨fun hcon => hidle.1 ?_, fun hcon => hidle.2 ?_⟩
  · rw [hcon]
    rfl
  · rw [hcon]
    rfl

lemma registerIdle (h : Refines s a) (id : ℕ) :
    ∃ s', s.registerIdle id = .ok ((a.registerIdle id).1, s') ∧
    Refines s' (a.registerIdle id).2 := by
  rw [Scheduler.registerIdle, AbstractSched.registerIdle]
  by_cases hid : id < maxThreads
  · rw [if_neg (not_le.mpr hid), dif_pos hid]
    cases hidle : a.idle with
    | some i =>
      rw [if_pos (by rw [h.idle_eq, hidle]; exact val_ne_noThread i), if_pos (by simp)]
      exact ⟨s, rfl, h⟩
    | none =>
      rw [if_neg (by rw [h.idle_eq, hidle]; simp [idleId]), if_neg (by simp),
        show readAt s.states id = .ok (a.states ⟨id, hid⟩) from
          (readAt_val s.states ⟨id, hid⟩).trans (by rw [h.states_eq]), Checked.ok_bind]
      split_ifs with hstate
      · exact ⟨s, rfl, h⟩
      · rw [show writeAt s.states id .ready = .ok (Function.update s.states ⟨id, hid⟩ .ready) from
            writeAt_val s.states ⟨id, hid⟩ .ready, Checked.ok_bind,
          show writeAt s.kinds id .idle = .ok (Function.update s.kinds ⟨id, hid⟩ .idle) from
            writeAt_val s.kinds ⟨id, hid⟩ .idle]
        refine ⟨_, rfl, ?_, h.readyQueue_eq, h.head_lt, h.current_eq, rfl, fun i => ?_, h.ticks_eq,
          h.switches_eq⟩
        · simp only [AbstractSched.addIdle, h.states_eq]
        · have hnone : s.kinds i ≠ .idle := fun hcon => by
            have := (h.kinds_iff i).mp hcon
            rw [hidle] at this
            exact absurd this (by simp)
          simp only [AbstractSched.addIdle, Function.update_apply, Option.some.injEq]
          by_cases hi : i = ⟨id, hid⟩
          · simp [hi]
          · simp [hi, hnone, Ne.symm hi]
  · rw [if_pos (not_lt.mp hid), dif_neg hid]
    exact ⟨s, rfl, h⟩

/-- Making a slot that is not the idle thread a normal one keeps the kinds. -/
lemma kinds_normal (h : Refines s a) {id : ThreadId} (hidle : a.idle ≠ some id) (i : ThreadId) :
    Function.update s.kinds id .normal i = .idle ↔ a.idle = some i := by
  rw [Function.update_apply]
  split_ifs with hi
  · simp [hi, hidle]
  · exact h.kinds_iff i

lemma registerIdleAny (h : Refines s a) :
    ∃ s', s.registerIdleAny = .ok (a.registerIdleAny.1, s') ∧ Refines s' a.registerIdleAny.2 := by
  rw [Scheduler.registerIdleAny, AbstractSched.registerIdleAny, h.states_eq]
  cases hid : firstWith a.states .unused with
  | none => exact ⟨s, rfl, h⟩
  | some id =>
    obtain ⟨s', heq, hs'⟩ := h.registerIdle id.val
    have hstate := state_of_firstWith hid
    simp only [AbstractSched.registerIdle, id.isLt, dif_pos, Fin.eta, hstate] at heq hs'
    by_cases hidle : a.idle = none
    · simp only [hidle, ne_eq, not_true_eq_false, if_false] at heq hs' ⊢
      rw [heq]
      exact ⟨s', rfl, hs'⟩
    · simp only [ne_eq, hidle, not_false_eq_true, if_true] at heq hs' ⊢
      rw [heq]
      exact ⟨s', rfl, hs'⟩

lemma create (h : Refines s a) (hvalid : Valid a) :
    ∃ s', s.create = .ok (a.create.1, s') ∧ Refines s' a.create.2 := by
  rw [Scheduler.create, AbstractSched.create, h.states_eq]
  cases hid : firstWith a.states .unused with
  | none => exact ⟨s, rfl, h⟩
  | some id =>
    have hstate := state_of_firstWith hid
    have hidle : a.idle ≠ some id := by
      intro hcon
      rcases hvalid.idle_state id hcon with hcon | hcon <;> rw [hstate] at hcon <;> cases hcon
    simp only [writeAt_val, Checked.ok_bind]
    obtain ⟨queue, henqueue, hring⟩ := Scheduler.enqueue_spec
      (s := { s with
        states := Function.update a.states id .ready
        kinds := Function.update s.kinds id .normal })
      (by rw [h.len_eq]; exact hvalid.length_lt) id.val
    rw [henqueue]
    refine ⟨_, rfl, rfl, ?_, h.head_lt, h.current_eq, h.idle_eq, h.kinds_normal hidle, h.ticks_eq,
      h.switches_eq⟩
    rw [List.map_append, ← h.readyQueue_eq]
    exact hring

lemma takeReapable (h : Refines s a) (hvalid : Valid a) :
    ∃ s', s.takeReapable = .ok (a.takeReapable.1, s') ∧ Refines s' a.takeReapable.2 := by
  rw [Scheduler.takeReapable, AbstractSched.takeReapable, h.states_eq]
  cases hid : firstWith a.states .exited with
  | none => exact ⟨s, rfl, h⟩
  | some id =>
    have hstate := state_of_firstWith hid
    have hidle : a.idle ≠ some id := by
      intro hcon
      rcases hvalid.idle_state id hcon with hcon | hcon <;> rw [hstate] at hcon <;> cases hcon
    simp only [writeAt_val, Checked.ok_bind]
    exact ⟨_, rfl, rfl, h.readyQueue_eq, h.head_lt, h.current_eq, h.idle_eq, h.kinds_normal hidle,
      h.ticks_eq, h.switches_eq⟩

/-- A switch of the code, after the current thread has been put into its new state. -/
lemma switchToFirst (h : Refines s a) {s₁ : Scheduler} {left : ThreadState} {next : ThreadId}
    {queue : List ThreadId} (hstates : s₁.states = Function.update a.states a.current left)
    (hqueue : s₁.readyQueue = (next :: queue).map Fin.val) (hhead : s₁.head < maxThreads)
    (hlen : s₁.len ≤ maxThreads) (hidle : s₁.idle = s.idle) (hkinds : s₁.kinds = s.kinds)
    (hticks : s₁.ticks = s.ticks) (hswitches : s₁.switches = s.switches) :
    Agrees (2 ^ 64 ≤ s.switches + 1) (s₁.switchToFirst s.current)
      (.switch a.current next, a.switchTo left next queue) := by
  obtain ⟨ring, heq, hring⟩ := Scheduler.switchToFirst_spec hhead hlen hqueue s.current
  rw [heq, hswitches, h.current_eq]
  by_cases hword : s.switches + 1 < 2 ^ 64
  · rw [addWord_of_lt hword, Checked.ok_bind]
    refine .inl ⟨_, rfl, ?_, hring, Nat.mod_lt _ (by decide), rfl, hidle.trans h.idle_eq,
      fun i => ?_, hticks.trans h.ticks_eq, ?_⟩
    · simp only [AbstractSched.switchTo, hstates]
    · simp only [hkinds]
      exact h.kinds_iff i
    · simp only [AbstractSched.switchTo, h.switches_eq]
  · rw [show addWord s.switches 1 = .error .overflow from if_neg hword, Checked.error_bind]
    exact .inr ⟨rfl, not_lt.mp hword⟩

lemma rotate (h : Refines s a) (hvalid : Valid a) :
    Agrees (2 ^ 64 ≤ s.switches + 1) s.rotate a.rotate := by
  have hlt := hvalid.length_lt
  have hlen := h.len_eq
  have hready := h.readyQueue_eq
  have hread : readAt s.kinds s.current = .ok (s.kinds a.current) := by
    rw [h.current_eq, readAt_val]
  have hwrite : writeAt s.states s.current .ready =
      .ok (Function.update a.states a.current .ready) := by
    rw [h.current_eq, writeAt_val, h.states_eq]
  rw [Scheduler.rotate, AbstractSched.rotate]
  simp only [hread, hwrite, Checked.ok_bind]
  rw [if_neg (by rw [h.current_eq]; exact val_ne_noThread a.current)]
  cases hqueue : a.queue with
  | nil =>
    rw [if_pos (by rw [hlen, hqueue]; rfl)]
    exact .inl ⟨s, rfl, h⟩
  | cons next rest =>
    rw [hqueue] at hlt hlen hready
    rw [if_neg (by rw [hlen]; exact Nat.succ_ne_zero _)]
    by_cases hidle : a.idle = some a.current
    · -- the idle thread does not go back to the queue
      simp only [(h.kinds_iff a.current).mpr hidle, if_true, if_pos hidle]
      exact h.switchToFirst rfl hready h.head_lt (by simp only [hlen]; exact hlt.le) rfl rfl rfl rfl
    · have hkind : ¬ s.kinds a.current = .idle := fun hcon => hidle ((h.kinds_iff _).mp hcon)
      obtain ⟨ring, henqueue, hring⟩ := Scheduler.enqueue_spec
        (s := { s with states := Function.update a.states a.current .ready })
        (by simp only [hlen]; exact hlt) s.current
      rw [if_neg hkind, henqueue, Checked.ok_bind]
      simp only [if_neg hidle]
      refine h.switchToFirst rfl ?_ h.head_lt (by simp only [hlen]; exact hlt) rfl rfl rfl rfl
      refine hring.trans ?_
      change s.readyQueue ++ [s.current] = _
      rw [hready, h.current_eq, ← List.cons_append, List.map_append]
      rfl

lemma onTick (h : Refines s a) (hvalid : Valid a) (reschedule : Bool) :
    Agrees (CounterFull s) (s.onTick reschedule)
      (if reschedule then { a with ticks := a.ticks + 1 }.rotate
        else (.keep, { a with ticks := a.ticks + 1 })) := by
  rw [Scheduler.onTick]
  by_cases hword : s.ticks + 1 < 2 ^ 64
  · rw [addWord_of_lt hword, Checked.ok_bind]
    have hticks : Refines { s with ticks := s.ticks + 1 } { a with ticks := a.ticks + 1 } :=
      ⟨h.states_eq, h.readyQueue_eq, h.head_lt, h.current_eq, h.idle_eq, h.kinds_iff,
        congrArg (· + 1) h.ticks_eq, h.switches_eq⟩
    have hvalid' : Valid { a with ticks := a.ticks + 1 } :=
      ⟨hvalid.running_iff, hvalid.nodup, hvalid.mem_queue_iff, hvalid.idle_state⟩
    cases reschedule with
    | false => exact .inl ⟨_, rfl, hticks⟩
    | true =>
      rcases hticks.rotate hvalid' with hok | ⟨heq, hfull⟩
      · exact .inl hok
      · exact .inr ⟨heq, .inr hfull⟩
  · rw [show addWord s.ticks 1 = .error .overflow from if_neg hword]
    exact .inr ⟨rfl, .inl (not_lt.mp hword)⟩

lemma exitCurrent (h : Refines s a) (hvalid : Valid a) (hallowed : a.Allowed .exitCurrent) :
    Agrees (2 ^ 64 ≤ s.switches + 1) s.exitCurrent a.exitCurrent := by
  have hlen := h.len_eq
  have hready := h.readyQueue_eq
  have hle := hvalid.length_lt.le
  have hwrite : writeAt s.states s.current .exited =
      .ok (Function.update a.states a.current .exited) := by
    rw [h.current_eq, writeAt_val, h.states_eq]
  rw [Scheduler.exitCurrent, AbstractSched.exitCurrent]
  simp only [hwrite, Checked.ok_bind]
  rw [if_neg (by rw [h.current_eq]; exact val_ne_noThread a.current), Scheduler.pickAfterStop]
  cases hqueue : a.queue with
  | cons next rest =>
    rw [hqueue] at hlen hready hle
    obtain ⟨ring, hdequeue, hring⟩ := Scheduler.dequeue_spec
      (s := { s with states := Function.update a.states a.current .exited }) h.head_lt
      (by simp only [hlen]; exact hle) hready
    rw [if_pos (by simp only [hlen]; exact Nat.succ_pos _), hdequeue, Checked.ok_bind]
    simp only [writeAt_val, Checked.ok_bind, Checked.pure_eq_ok]
    by_cases hword : s.switches + 1 < 2 ^ 64
    · rw [addWord_of_lt hword, Checked.ok_bind, h.current_eq]
      refine .inl ⟨_, rfl, rfl, hring, Nat.mod_lt _ (by decide), rfl, h.idle_eq, h.kinds_iff,
        h.ticks_eq, ?_⟩
      simp only [AbstractSched.switchTo, h.switches_eq]
    · rw [show addWord s.switches 1 = .error .overflow from if_neg hword, Checked.error_bind]
      exact .inr ⟨rfl, not_lt.mp hword⟩
  | nil =>
    rw [hqueue] at hlen hready
    cases hidle : a.idle with
    | none => exact absurd hidle hallowed.1
    | some next =>
      have hid : s.idle = next.val := by rw [h.idle_eq, hidle]; rfl
      have hwrite' : writeAt (Function.update a.states a.current .exited) s.idle .running =
          .ok (Function.update (Function.update a.states a.current .exited) next .running) := by
        rw [hid, writeAt_val]
      rw [if_neg (by simp only [hlen]; exact lt_irrefl 0),
        if_pos (by simp only [hid]; exact val_ne_noThread next)]
      simp only [hwrite', Checked.ok_bind, Checked.pure_eq_ok]
      by_cases hword : s.switches + 1 < 2 ^ 64
      · rw [addWord_of_lt hword, Checked.ok_bind, h.current_eq, hid]
        refine .inl ⟨_, rfl, rfl, hready, h.head_lt, rfl, ?_, h.kinds_iff, h.ticks_eq, ?_⟩
        · rw [← hid]
          exact h.idle_eq
        · simp only [AbstractSched.switchTo, h.switches_eq]
      · rw [show addWord s.switches 1 = .error .overflow from if_neg hword, Checked.error_bind]
        exact .inr ⟨rfl, not_lt.mp hword⟩

/-- One call of the scheduler. -/
lemma step (h : Refines s a) (hvalid : Valid a) {op : SchedOp} (hallowed : a.Allowed op) :
    Agrees (CounterFull s) (s.step op) (a.step op) := by
  cases op with
  | registerIdle id =>
    obtain ⟨s', heq, hs'⟩ := h.registerIdle id
    exact .inl ⟨s', by rw [Scheduler.step, heq]; rfl, hs'⟩
  | registerIdleAny =>
    obtain ⟨s', heq, hs'⟩ := h.registerIdleAny
    exact .inl ⟨s', by rw [Scheduler.step, heq]; rfl, hs'⟩
  | create =>
    obtain ⟨s', heq, hs'⟩ := h.create hvalid
    exact .inl ⟨s', by rw [Scheduler.step, heq]; rfl, hs'⟩
  | onTick reschedule =>
    rw [Scheduler.step, AbstractSched.step]
    rcases h.onTick hvalid reschedule with ⟨s', heq, hs'⟩ | ⟨heq, hfull⟩
    · refine .inl ⟨s', ?_, ?_⟩
      · rw [heq]
        cases reschedule <;> rfl
      · cases reschedule <;> exact hs'
    · exact .inr ⟨by rw [heq]; rfl, hfull⟩
  | yieldCurrent =>
    rw [Scheduler.step, Scheduler.yieldCurrent]
    rcases h.rotate hvalid with ⟨s', heq, hs'⟩ | ⟨heq, hfull⟩
    · exact .inl ⟨s', by rw [heq]; rfl, hs'⟩
    · exact .inr ⟨by rw [heq]; rfl, .inr hfull⟩
  | exitCurrent =>
    rw [Scheduler.step]
    rcases h.exitCurrent hvalid hallowed with ⟨s', heq, hs'⟩ | ⟨heq, hfull⟩
    · exact .inl ⟨s', by rw [heq]; rfl, hs'⟩
    · exact .inr ⟨by rw [heq]; rfl, .inr hfull⟩
  | takeReapable =>
    obtain ⟨s', heq, hs'⟩ := h.takeReapable hvalid
    exact .inl ⟨s', by rw [Scheduler.step, heq]; rfl, hs'⟩

/-- A call that returns. -/
lemma of_step (h : Refines s a) (hvalid : Valid a) {op : SchedOp} (hallowed : a.Allowed op)
    {r : SchedResult} {s' : Scheduler} (heq : s.step op = .ok (r, s')) :
    r = (a.step op).1 ∧ Refines s' (a.step op).2 := by
  rcases h.step hvalid hallowed with ⟨s'', heq', hs''⟩ | ⟨heq', -⟩
  · rw [heq] at heq'
    obtain ⟨rfl, rfl⟩ := Prod.mk.inj (Except.ok.inj heq')
    exact ⟨rfl, hs''⟩
  · rw [heq] at heq'
    cases heq'

end Refines

/-! ## Runs -/

/-- Both schedulers make the same allowed call, and the one of the code returns. -/
def Lockstep (p q : Scheduler × AbstractSched) : Prop :=
  ∃ op r, p.2.Allowed op ∧ p.1.step op = .ok (r, q.1) ∧ q.2 = (p.2.step op).2

/-- The start of a run: the boot thread is registered. -/
lemma registerBoot_refines (id : ThreadId) : ∃ s,
    Scheduler.new.registerBoot id = .ok (.ok (), s) ∧ Refines s (.start id) := by
  rw [Scheduler.registerBoot, if_neg (not_le.mpr id.isLt)]
  simp only [writeAt_val, Checked.ok_bind]
  refine ⟨_, rfl, rfl, rfl, show 0 < maxThreads by decide, rfl, rfl, fun i => ?_, rfl, rfl⟩
  simp only [Scheduler.new, Function.update_apply, AbstractSched.start]
  split_ifs <;> simp

lemma refines_of_registerBoot {id : ThreadId} {s : Scheduler}
    (h : Scheduler.new.registerBoot id = .ok (.ok (), s)) : Refines s (.start id) := by
  obtain ⟨s', heq, hrefines⟩ := registerBoot_refines id
  rw [h] at heq
  obtain ⟨-, rfl⟩ := Prod.mk.inj (Except.ok.inj heq)
  exact hrefines

/-- The relation and the invariant hold along a run. -/
lemma refines_of_run {id : ThreadId} {s₀ : Scheduler} {p : Scheduler × AbstractSched}
    (hboot : Scheduler.new.registerBoot id = .ok (.ok (), s₀))
    (hrun : Relation.ReflTransGen Lockstep (s₀, .start id) p) : Refines p.1 p.2 ∧ Valid p.2 := by
  induction hrun with
  | refl => exact ⟨refines_of_registerBoot hboot, Valid.start id⟩
  | tail _ hstep ih =>
    obtain ⟨op, r, hallowed, heq, ha⟩ := hstep
    rw [ha]
    exact ⟨(ih.1.of_step ih.2 hallowed heq).2, ih.2.step hallowed⟩

/-- A run goes on with every call that is allowed, as long as no counter is full. -/
lemma exists_lockstep {id : ThreadId} {s₀ s : Scheduler} {a : AbstractSched} (op : SchedOp)
    (hboot : Scheduler.new.registerBoot id = .ok (.ok (), s₀))
    (hrun : Relation.ReflTransGen Lockstep (s₀, .start id) (s, a)) (hallowed : a.Allowed op)
    (hticks : a.ticks < 2 ^ 64 - 1) (hswitches : a.switches < 2 ^ 64 - 1) :
    ∃ s', Relation.ReflTransGen Lockstep (s₀, .start id) (s', (a.step op).2) := by
  obtain ⟨hrefines, hvalid⟩ : Refines s a ∧ Valid a := refines_of_run hboot hrun
  rcases hrefines.step hvalid hallowed with ⟨s', heq, -⟩ | ⟨-, hfull⟩
  · exact ⟨s', hrun.tail ⟨op, _, hallowed, heq, rfl⟩⟩
  · rw [CounterFull, hrefines.ticks_eq, hrefines.switches_eq] at hfull
    omega

/-- **The scheduler refines a queue of threads.**  Register the boot thread and then make any calls,
where a thread exits only if there is an idle thread, and the idle thread never exits.  The
scheduler of the code and the abstract one stay related: the ready queue and the statistics agree,
and the next call returns the same result.  No assertion of the code fails and no index is out of
bounds; a call can only stop when one of the two counters overflows.  Exactly one thread is running
and it is the current one, the queue holds exactly the threads that are ready, except for the idle
thread, each once, and the idle thread is ready or running and never reaped. -/
theorem scheduler_refines_queue (id : ThreadId) (s₀ s : Scheduler) (a : AbstractSched)
    (hboot : Scheduler.new.registerBoot id = .ok (.ok (), s₀))
    (hrun : Relation.ReflTransGen Lockstep (s₀, .start id) (s, a)) :
    (s.readyQueue = a.queue.map Fin.val ∧ s.stats = a.stats ∧ s.current = a.current ∧
      s.idle = idleId a.idle ∧ s.states = a.states) ∧
    (∀ op, a.Allowed op →
      (∃ s', s.step op = .ok ((a.step op).1, s')) ∨ s.step op = .error .overflow ∧ CounterFull s) ∧
    (∀ i, a.states i = .running ↔ i = a.current) ∧ a.queue.Nodup ∧
    (∀ i, i ∈ a.queue ↔ a.states i = .ready ∧ a.idle ≠ some i) ∧
    (∀ i, a.idle = some i → a.states i = .ready ∨ a.states i = .running) ∧
    ∀ i : ThreadId, (a.step .takeReapable).1 = .reaped (some i) → a.idle ≠ some i := by
  obtain ⟨hrefines, hvalid⟩ := refines_of_run hboot hrun
  refine ⟨⟨hrefines.readyQueue_eq, hrefines.stats_eq, hrefines.current_eq, hrefines.idle_eq,
    hrefines.states_eq⟩, fun op hallowed => ?_, hvalid.running_iff, hvalid.nodup,
    hvalid.mem_queue_iff, hvalid.idle_state, fun i hi => hvalid.idle_ne_of_takeReapable hi⟩
  rcases hrefines.step hvalid hallowed with ⟨s', heq, -⟩ | hfull
  · exact .inl ⟨s', heq⟩
  · exact .inr hfull

/-- The idle thread 1 is registered and thread 2 is created; at a tick the boot thread goes to the
end of the queue and thread 2 runs.  When it exits, the boot thread runs again, and thread 2 is
reaped. -/
theorem scheduler_refines_queue_reap : ∃ s₀ s a s',
    Scheduler.new.registerBoot 0 = .ok (.ok (), s₀) ∧
    Relation.ReflTransGen Lockstep (s₀, .start 0) (s, a) ∧
    s.readyQueue = [] ∧ s.current = 0 ∧ s.idle = 1 ∧ s.stats = ⟨1, 2, 0, 3⟩ ∧
    s.step .takeReapable = .ok (.reaped (some 2), s') := by
  obtain ⟨s₀, hboot, -⟩ := registerBoot_refines 0
  obtain ⟨s₁, hidle⟩ := exists_lockstep .registerIdleAny hboot .refl trivial (by decide) (by decide)
  obtain ⟨s₂, hcreate⟩ := exists_lockstep .create hboot hidle trivial (by decide) (by decide)
  obtain ⟨s₃, htick⟩ := exists_lockstep (.onTick true) hboot hcreate trivial (by decide) (by decide)
  obtain ⟨s₄, hexit⟩ := exists_lockstep .exitCurrent hboot htick ⟨by decide, by decide⟩
    (by decide) (by decide)
  obtain ⟨⟨hqueue, hstats, hcurrent, hidle_eq, -⟩, hstep, -⟩ :=
    scheduler_refines_queue 0 s₀ s₄ _ hboot hexit
  obtain ⟨s₅, hreap⟩ := (hstep .takeReapable trivial).resolve_right fun ⟨_, hfull⟩ => by
    have hticks : s₄.ticks = 1 := congrArg SchedStats.ticks hstats
    have hswitches : s₄.switches = 2 := congrArg SchedStats.switches hstats
    rw [CounterFull, hticks, hswitches] at hfull
    omega
  exact ⟨s₀, s₄, _, s₅, hboot, hexit, hqueue, hcurrent, hidle_eq, hstats, hreap⟩

end KernelSched

end ParanukOS
