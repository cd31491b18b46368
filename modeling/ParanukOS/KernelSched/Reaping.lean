import Mathlib.Logic.Relation
import ParanukOS.KernelSched.Refinement

/-!
# Threads that may be reaped

`take_reapable` hands out a thread that has exited, and the kernel frees its stack at once.  The
scheduler does not check that this is neither the current thread nor the idle thread: it relies on
the order of the calls.  Here the calls can come in every order.  Two of them can do harm:
`register_boot` while another thread is running, and `exit_current` when it finds no next thread, or
when the idle thread exits and another one follows.  The main theorem says that these are the only
ones.

## Outline

* `SchedCall`, `Scheduler.call`: all calls.
* `LiveSafe`, `liveSafe_iff`: nothing live is reaped, and at most one thread is running.
* `Scheduler.Careful`: the calls that keep it.
* `live_never_reaped_iff`: the main theorem, and `live_reaped`, the failures.
-/

namespace ParanukOS

open Foundation

namespace KernelSched

variable {s s' : Scheduler}

/-! ## Calls -/

/-- The calls of the scheduler. -/
inductive SchedCall where
  | registerBoot (id : ℕ)
  | other (op : SchedOp)
  deriving DecidableEq, Repr

namespace Scheduler

/-- One call. -/
def call (s : Scheduler) : SchedCall → Checked (SchedResult × Scheduler)
  | .registerBoot id => do let (r, s) ← s.registerBoot id; return (.registered r, s)
  | .other op => s.step op

/-- Several calls. -/
def calls : List SchedCall → Scheduler → Checked Scheduler
  | [], s => return s
  | c :: cs, s => do
    let (_, s) ← s.call c
    calls cs s

/-- The thread that `pick_after_stop` picks, or `NO_THREAD`. -/
def picked (s : Scheduler) : ℕ := s.readyQueue.head?.getD s.idle

/-- The calls that do no harm.  `register_boot` is called while no other thread is running;
`exit_current` finds a next thread, and when the idle thread exits, it is the next thread itself. -/
def Careful (s : Scheduler) : SchedCall → Prop
  | .registerBoot id => maxThreads ≤ id ∨ ∀ i, s.states i = .running → i.val = id
  | .other .exitCurrent =>
    s.current = noThread ∨ s.picked ≠ noThread ∧ (s.current = s.idle → s.picked = s.idle)
  | .other _ => True

/-- A call that does no harm and returns. -/
def CarefulStep (s s' : Scheduler) : Prop := ∃ c r, s.Careful c ∧ s.call c = .ok (r, s')

/-- A call of `take_reapable`. -/
def Takes (s s' : Scheduler) : Prop := ∃ r, s.takeReapable = .ok (r, s')

/-- At most one thread is running, and `take_reapable`, however often it is called, returns neither
the current thread nor the idle thread. -/
def LiveSafe (s : Scheduler) : Prop :=
  (∀ i j, s.states i = .running → s.states j = .running → i = j) ∧
    ∀ s₁ id s₂, Relation.ReflTransGen Takes s s₁ → s₁.takeReapable = .ok (some id, s₂) →
      id ≠ s.current ∧ id ≠ s.idle

end Scheduler

/-! ## What is reaped -/

/-- The effect of `take_reapable`. -/
lemma takeReapable_cases {r : Option ℕ} (h : s.takeReapable = .ok (r, s')) :
    r = none ∧ s' = s ∨ ∃ i : ThreadId, r = some i.val ∧ s.states i = .exited ∧
      s'.states = Function.update s.states i .unused ∧ s'.current = s.current ∧
      s'.idle = s.idle := by
  rw [Scheduler.takeReapable] at h
  cases hid : firstWith s.states .exited with
  | none =>
    rw [hid] at h
    obtain ⟨rfl, rfl⟩ := Prod.mk.inj (Except.ok.inj h)
    exact .inl ⟨rfl, rfl⟩
  | some i =>
    rw [hid] at h
    simp only [writeAt_val, Checked.ok_bind] at h
    obtain ⟨rfl, rfl⟩ := Prod.mk.inj (Except.ok.inj h)
    exact .inr ⟨i, rfl, state_of_firstWith hid, rfl, rfl, rfl⟩

/-- Only threads that have exited are taken. -/
lemma exited_of_takes {s₁ s₂ : Scheduler} {id : ℕ}
    (hrun : Relation.ReflTransGen Scheduler.Takes s s₁)
    (h : s₁.takeReapable = .ok (some id, s₂)) :
    ∃ i : ThreadId, i.val = id ∧ s.states i = .exited := by
  induction hrun using Relation.ReflTransGen.head_induction_on with
  | refl =>
    rcases takeReapable_cases h with ⟨hcon, -⟩ | ⟨i, hi, hstate, -⟩
    · cases hcon
    · exact ⟨i, (Option.some.inj hi).symm, hstate⟩
  | head hstep _ ih =>
    obtain ⟨i, hi, hstate⟩ := ih
    obtain ⟨r, hr⟩ := hstep
    rcases takeReapable_cases hr with ⟨-, rfl⟩ | ⟨j, -, -, hstates, -⟩
    · exact ⟨i, hi, hstate⟩
    · rw [hstates, Function.update_apply] at hstate
      split_ifs at hstate
      exact ⟨i, hi, hstate⟩

/-- Every thread that has exited is taken at some time. -/
lemma exists_takes (n : ℕ) {i : ThreadId} (hi : s.states i = .exited)
    (hn : (Finset.univ.filter fun j => s.states j = .exited).card = n) : ∃ s₁ s₂,
      Relation.ReflTransGen Scheduler.Takes s s₁ ∧ s₁.takeReapable = .ok (some i.val, s₂) := by
  induction n generalizing s with
  | zero =>
    have hmem : i ∈ Finset.univ.filter fun j => s.states j = .exited :=
      Finset.mem_filter.mpr ⟨Finset.mem_univ i, hi⟩
    rw [Finset.card_eq_zero.mp hn] at hmem
    exact absurd hmem (Finset.notMem_empty i)
  | succ n ih =>
    cases hid : firstWith s.states .exited with
    | none => exact absurd hi (ne_of_firstWith_eq_none hid i)
    | some j =>
      have hj := state_of_firstWith hid
      obtain ⟨s', htake, hstates⟩ : ∃ s', s.takeReapable = .ok (some j.val, s') ∧
          s'.states = Function.update s.states j .unused := by
        rw [Scheduler.takeReapable, hid]
        simp only [writeAt_val, Checked.ok_bind]
        exact ⟨_, rfl, rfl⟩
      by_cases hij : i = j
      · rw [hij]
        exact ⟨s, s', .refl, htake⟩
      · have hrest : (Finset.univ.filter fun k => s'.states k = .exited) =
            (Finset.univ.filter fun k => s.states k = .exited).erase j := by
          ext k
          simp only [hstates, Function.update_apply, Finset.mem_filter, Finset.mem_univ, true_and,
            Finset.mem_erase]
          split_ifs with hk <;> simp [hk]
        obtain ⟨s₁, s₂, hrun, htake'⟩ := @ih s'
          (by rw [hstates, Function.update_of_ne hij, hi])
          (by rw [hrest, Finset.card_erase_of_mem (by simp [hj]), hn, Nat.add_sub_cancel])
        exact ⟨s₁, s₂, .head ⟨_, htake⟩ hrun, htake'⟩

/-- In terms of the states: neither the current thread nor the idle thread has exited. -/
lemma liveSafe_iff : s.LiveSafe ↔
    (∀ i j, s.states i = .running → s.states j = .running → i = j) ∧
      ∀ i, s.states i = .exited → i.val ≠ s.current ∧ i.val ≠ s.idle := by
  refine and_congr_right fun _ => ⟨fun h i hi => ?_, fun h s₁ id s₂ hrun htake => ?_⟩
  · obtain ⟨s₁, s₂, hrun, htake⟩ := exists_takes _ hi rfl
    exact h s₁ i.val s₂ hrun htake
  · obtain ⟨i, rfl, hi⟩ := exited_of_takes hrun htake
    exact h i hi

/-! ## The effect of the calls -/

/-- The tables and the queue of a scheduler can be changed by a call, but not what matters here. -/
def SameThreads (s s' : Scheduler) : Prop :=
  s'.states = s.states ∧ s'.current = s.current ∧ s'.idle = s.idle

/-- A slot gets a new state. -/
def SetsState (s s' : Scheduler) (i : ThreadId) (state : ThreadState) : Prop :=
  s'.states = Function.update s.states i state ∧ s'.current = s.current

/-- The current thread is left in a state, and another one, or the same again, runs. -/
def Switches (s s' : Scheduler) (left : ThreadState) (next : ThreadId) : Prop :=
  ∃ previous : ThreadId, s.current = previous.val ∧
    s'.states = Function.update (Function.update s.states previous left) next .running ∧
    s'.current = next.val ∧ s'.idle = s.idle

lemma enqueue_cases {id : ℕ} (h : s.enqueue id = .ok s') : SameThreads s s' := by
  rw [Scheduler.enqueue] at h
  obtain ⟨-, -, h⟩ := Checked.bind_eq_ok.mp h
  obtain ⟨queue, -, h⟩ := Checked.bind_eq_ok.mp h
  obtain ⟨len, -, h⟩ := Checked.bind_eq_ok.mp h
  obtain rfl := Except.ok.inj h
  exact ⟨rfl, rfl, rfl⟩

lemma dequeue_cases {id : ℕ} (h : s.dequeue = .ok (id, s')) :
    SameThreads s s' ∧ s.readyQueue.head? = some id := by
  rw [Scheduler.dequeue] at h
  obtain ⟨_, hpos, h⟩ := Checked.bind_eq_ok.mp h
  obtain ⟨first, hread, h⟩ := Checked.bind_eq_ok.mp h
  obtain ⟨queue, -, h⟩ := Checked.bind_eq_ok.mp h
  obtain ⟨len, -, h⟩ := Checked.bind_eq_ok.mp h
  obtain ⟨rfl, rfl⟩ := Prod.mk.inj (Except.ok.inj h)
  refine ⟨⟨rfl, rfl, rfl⟩, ?_⟩
  obtain ⟨j, hj, rfl⟩ := readAt_eq_ok_iff.mp hread
  have hlen : 0 < s.len := by
    rw [debugAssert] at hpos
    split_ifs at hpos with hlen
    exact hlen
  rw [Scheduler.readyQueue, ← Nat.sub_add_cancel hlen, ringList_succ, ← hj, List.head?_cons]
  exact congrArg (fun k => some (s.queue k)) (Fin.ext (Nat.mod_eq_of_lt j.isLt))

lemma registerBoot_cases {id : ℕ} {r : Except SchedError Unit}
    (h : s.registerBoot id = .ok (r, s')) : maxThreads ≤ id ∧ s' = s ∨ ∃ i : ThreadId, i.val = id ∧
      s'.states = Function.update s.states i .running ∧ s'.current = i.val ∧ s'.idle = s.idle := by
  rw [Scheduler.registerBoot] at h
  split_ifs at h with hid
  · obtain ⟨-, rfl⟩ := Prod.mk.inj (Except.ok.inj h)
    exact .inl ⟨hid, rfl⟩
  · obtain ⟨states, hstates, h⟩ := Checked.bind_eq_ok.mp h
    obtain ⟨kinds, -, h⟩ := Checked.bind_eq_ok.mp h
    obtain ⟨-, rfl⟩ := Prod.mk.inj (Except.ok.inj h)
    obtain ⟨i, rfl, rfl⟩ := writeAt_eq_ok_iff.mp hstates
    exact .inr ⟨i, rfl, rfl, rfl, rfl⟩

lemma registerIdle_cases {id : ℕ} {r : Except SchedError Unit}
    (h : s.registerIdle id = .ok (r, s')) :
    s' = s ∨ ∃ i : ThreadId, SetsState s s' i .ready ∧ s'.idle = i.val := by
  rw [Scheduler.registerIdle] at h
  split_ifs at h with hid hidle
  · obtain ⟨-, rfl⟩ := Prod.mk.inj (Except.ok.inj h)
    exact .inl rfl
  · obtain ⟨-, rfl⟩ := Prod.mk.inj (Except.ok.inj h)
    exact .inl rfl
  · obtain ⟨state, -, h⟩ := Checked.bind_eq_ok.mp h
    split_ifs at h
    · obtain ⟨-, rfl⟩ := Prod.mk.inj (Except.ok.inj h)
      exact .inl rfl
    · obtain ⟨states, hstates, h⟩ := Checked.bind_eq_ok.mp h
      obtain ⟨kinds, -, h⟩ := Checked.bind_eq_ok.mp h
      obtain ⟨-, rfl⟩ := Prod.mk.inj (Except.ok.inj h)
      obtain ⟨i, rfl, rfl⟩ := writeAt_eq_ok_iff.mp hstates
      exact .inr ⟨i, ⟨rfl, rfl⟩, rfl⟩

/-- `register_idle_any` refuses, or makes an unused thread the idle one. -/
lemma registerIdleAny_cases {r : Except SchedError ℕ} (h : s.registerIdleAny = .ok (r, s')) :
    ((∃ e, r = .error e) ∧ s' = s ∧ ((∀ i, s.states i ≠ .unused) ∨ s.idle ≠ noThread)) ∨
    ∃ i : ThreadId, r = .ok i.val ∧ s.states i = .unused ∧ s.idle = noThread ∧
      SetsState s s' i .ready ∧ s'.idle = i.val := by
  rw [Scheduler.registerIdleAny] at h
  cases hid : firstWith s.states .unused with
  | none =>
    rw [hid] at h
    obtain ⟨rfl, rfl⟩ := Prod.mk.inj (Except.ok.inj h)
    exact .inl ⟨⟨_, rfl⟩, rfl, .inl (ne_of_firstWith_eq_none hid)⟩
  | some i =>
    have hstate := state_of_firstWith hid
    rw [hid] at h
    obtain ⟨⟨result, s₁⟩, hregister, h⟩ := Checked.bind_eq_ok.mp h
    rw [Scheduler.registerIdle, if_neg (not_le.mpr i.isLt)] at hregister
    by_cases hidle : s.idle = noThread
    · rw [if_neg (not_not.mpr hidle)] at hregister
      simp only [readAt_val, writeAt_val, Checked.ok_bind, hstate, ne_eq, not_true_eq_false,
        if_false] at hregister
      obtain ⟨rfl, rfl⟩ := Prod.mk.inj (Except.ok.inj hregister)
      obtain ⟨rfl, rfl⟩ := Prod.mk.inj (Except.ok.inj h)
      exact .inr ⟨i, rfl, hstate, hidle, ⟨rfl, rfl⟩, rfl⟩
    · rw [if_pos hidle] at hregister
      obtain ⟨rfl, rfl⟩ := Prod.mk.inj (Except.ok.inj hregister)
      obtain ⟨rfl, rfl⟩ := Prod.mk.inj (Except.ok.inj h)
      exact .inl ⟨⟨_, rfl⟩, rfl, .inr hidle⟩

/-- `create` refuses, or makes an unused thread ready. -/
lemma create_cases {r : Except SchedError ℕ} (h : s.create = .ok (r, s')) :
    ((∃ e, r = .error e) ∧ s' = s ∧ ∀ i, s.states i ≠ .unused) ∨
    ∃ i : ThreadId, r = .ok i.val ∧ s.states i = .unused ∧ SetsState s s' i .ready ∧
      s'.idle = s.idle := by
  rw [Scheduler.create] at h
  cases hid : firstWith s.states .unused with
  | none =>
    rw [hid] at h
    obtain ⟨rfl, rfl⟩ := Prod.mk.inj (Except.ok.inj h)
    exact .inl ⟨⟨_, rfl⟩, rfl, ne_of_firstWith_eq_none hid⟩
  | some i =>
    rw [hid] at h
    simp only [writeAt_val, Checked.ok_bind] at h
    obtain ⟨s₁, henqueue, h⟩ := Checked.bind_eq_ok.mp h
    obtain ⟨rfl, rfl⟩ := Prod.mk.inj (Except.ok.inj h)
    obtain ⟨hstates, hcurrent, hidle⟩ := enqueue_cases henqueue
    exact .inr ⟨i, rfl, state_of_firstWith hid, ⟨hstates, hcurrent⟩, hidle⟩

lemma switchToFirst_cases {previous : ℕ} {d : Decision}
    (h : s.switchToFirst previous = .ok (d, s')) : ∃ next : ThreadId,
      s'.states = Function.update s.states next .running ∧ s'.current = next.val ∧
        s'.idle = s.idle := by
  rw [Scheduler.switchToFirst] at h
  obtain ⟨⟨id, s₁⟩, hdequeue, h⟩ := Checked.bind_eq_ok.mp h
  obtain ⟨states, hstates, h⟩ := Checked.bind_eq_ok.mp h
  obtain ⟨switches, -, h⟩ := Checked.bind_eq_ok.mp h
  obtain ⟨-, rfl⟩ := Prod.mk.inj (Except.ok.inj h)
  obtain ⟨⟨hsame, -, hidle⟩, -⟩ := dequeue_cases hdequeue
  obtain ⟨next, rfl, rfl⟩ := writeAt_eq_ok_iff.mp hstates
  exact ⟨next, by rw [← hsame], rfl, hidle⟩

lemma rotate_cases {d : Decision} (h : s.rotate = .ok (d, s')) :
    s' = s ∨ ∃ next, Switches s s' .ready next := by
  rw [Scheduler.rotate] at h
  by_cases hnone : s.current = noThread
  · rw [if_pos hnone] at h
    obtain ⟨-, rfl⟩ := Prod.mk.inj (Except.ok.inj h)
    exact .inl rfl
  rw [if_neg hnone] at h
  obtain ⟨kind, -, h⟩ := Checked.bind_eq_ok.mp h
  by_cases hlen : s.len = 0
  · simp only [if_pos hlen] at h
    obtain ⟨-, rfl⟩ := Prod.mk.inj (Except.ok.inj h)
    exact .inl rfl
  simp only [if_neg hlen] at h
  obtain ⟨states, hstates, h⟩ := Checked.bind_eq_ok.mp h
  obtain ⟨previous, hprevious, rfl⟩ := writeAt_eq_ok_iff.mp hstates
  split_ifs at h with hidle
  · obtain ⟨next, hnext, hcurrent, hsame⟩ := switchToFirst_cases h
    exact .inr ⟨next, previous, hprevious.symm, hnext, hcurrent, hsame⟩
  · obtain ⟨s₁, henqueue, h⟩ := Checked.bind_eq_ok.mp h
    obtain ⟨next, hnext, hcurrent, hsame⟩ := switchToFirst_cases h
    obtain ⟨hstates₁, -, hidle₁⟩ := enqueue_cases henqueue
    refine .inr ⟨next, previous, hprevious.symm, ?_, hcurrent, hsame.trans hidle₁⟩
    rw [hnext, hstates₁]

lemma onTick_cases {reschedule : Bool} {d : Decision} (h : s.onTick reschedule = .ok (d, s')) :
    SameThreads s s' ∨ ∃ next, Switches s s' .ready next := by
  rw [Scheduler.onTick] at h
  obtain ⟨ticks, -, h⟩ := Checked.bind_eq_ok.mp h
  simp only at h
  split_ifs at h
  · obtain ⟨-, rfl⟩ := Prod.mk.inj (Except.ok.inj h)
    exact .inl ⟨rfl, rfl, rfl⟩
  · rcases rotate_cases h with rfl | hswitches
    · exact .inl ⟨rfl, rfl, rfl⟩
    · exact .inr hswitches

lemma pickAfterStop_cases {r : Except SchedError ℕ} (h : s.pickAfterStop = .ok (r, s')) :
    (∃ next : ThreadId, r = .ok next.val ∧ s.picked = next.val ∧ s'.current = s.current ∧
      s'.states = Function.update s.states next .running ∧ s'.idle = s.idle) ∨
    (∃ e, r = .error e) ∧ s.picked = noThread ∧ s' = s := by
  rw [Scheduler.pickAfterStop] at h
  split_ifs at h with hlen hidle
  · obtain ⟨⟨id, s₁⟩, hdequeue, h⟩ := Checked.bind_eq_ok.mp h
    obtain ⟨states, hstates, h⟩ := Checked.bind_eq_ok.mp h
    obtain ⟨rfl, rfl⟩ := Prod.mk.inj (Except.ok.inj h)
    obtain ⟨⟨hsame, hcurrent, hidle⟩, hhead⟩ := dequeue_cases hdequeue
    obtain ⟨next, rfl, rfl⟩ := writeAt_eq_ok_iff.mp hstates
    refine .inl ⟨next, rfl, ?_, hcurrent, by rw [← hsame], hidle⟩
    rw [Scheduler.picked, hhead]
    rfl
  · obtain ⟨states, hstates, h⟩ := Checked.bind_eq_ok.mp h
    obtain ⟨rfl, rfl⟩ := Prod.mk.inj (Except.ok.inj h)
    obtain ⟨next, hnext, rfl⟩ := writeAt_eq_ok_iff.mp hstates
    refine .inl ⟨next, by rw [hnext], ?_, rfl, rfl, rfl⟩
    rw [Scheduler.picked, Scheduler.readyQueue, Nat.eq_zero_of_not_pos hlen, hnext]
    rfl
  · obtain ⟨rfl, rfl⟩ := Prod.mk.inj (Except.ok.inj h)
    refine .inr ⟨⟨_, rfl⟩, ?_, rfl⟩
    rw [Scheduler.picked, Scheduler.readyQueue, Nat.eq_zero_of_not_pos hlen]
    exact not_not.mp hidle

lemma exitCurrent_cases {r : Except SchedError Decision} (h : s.exitCurrent = .ok (r, s')) :
    s.current = noThread ∧ s' = s ∨
    (∃ next : ThreadId, s.picked = next.val ∧ Switches s s' .exited next) ∨
    ∃ i : ThreadId, s.picked = noThread ∧ s.current = i.val ∧ SetsState s s' i .exited := by
  rw [Scheduler.exitCurrent] at h
  split_ifs at h with hnone
  · obtain ⟨-, rfl⟩ := Prod.mk.inj (Except.ok.inj h)
    exact .inl ⟨hnone, rfl⟩
  obtain ⟨states, hstates, h⟩ := Checked.bind_eq_ok.mp h
  obtain ⟨previous, hprevious, rfl⟩ := writeAt_eq_ok_iff.mp hstates
  obtain ⟨⟨picked, s₁⟩, hpick, h⟩ := Checked.bind_eq_ok.mp h
  right
  rcases pickAfterStop_cases hpick with
    ⟨next, rfl, hnext, -, hstates₁, hidle⟩ | ⟨⟨e, rfl⟩, hnext, rfl⟩
  · obtain ⟨switches, -, h⟩ := Checked.bind_eq_ok.mp h
    obtain ⟨-, rfl⟩ := Prod.mk.inj (Except.ok.inj h)
    exact .inl ⟨next, hnext, previous, hprevious.symm, hstates₁, rfl, hidle⟩
  · obtain ⟨-, rfl⟩ := Prod.mk.inj (Except.ok.inj h)
    exact .inr ⟨previous, hnext, hprevious.symm, rfl, rfl⟩

/-- The calls other than `exit_current`: nothing that matters here changes, a slot becomes ready or
unused and possibly the idle thread, or there is a switch that leaves the current thread ready. -/
lemma step_cases {op : SchedOp} {r : SchedResult} (hop : op ≠ .exitCurrent)
    (h : s.step op = .ok (r, s')) :
    SameThreads s s' ∨
    (∃ i state, SetsState s s' i state ∧ (state = .ready ∨ state = .unused) ∧
      (s'.idle = s.idle ∨ s'.idle = i.val)) ∨
    ∃ next, Switches s s' .ready next := by
  cases op with
  | exitCurrent => exact absurd rfl hop
  | registerIdle id =>
    obtain ⟨r₁, hcall, -⟩ := Checked.mapFst_eq_ok.mp h
    rcases registerIdle_cases hcall with rfl | ⟨i, hset, hidle⟩
    · exact .inl ⟨rfl, rfl, rfl⟩
    · exact .inr (.inl ⟨i, .ready, hset, .inl rfl, .inr hidle⟩)
  | registerIdleAny =>
    obtain ⟨r₁, hcall, -⟩ := Checked.mapFst_eq_ok.mp h
    rcases registerIdleAny_cases hcall with ⟨-, rfl, -⟩ | ⟨i, -, -, -, hset, hidle⟩
    · exact .inl ⟨rfl, rfl, rfl⟩
    · exact .inr (.inl ⟨i, .ready, hset, .inl rfl, .inr hidle⟩)
  | create =>
    obtain ⟨r₁, hcall, -⟩ := Checked.mapFst_eq_ok.mp h
    rcases create_cases hcall with ⟨-, rfl, -⟩ | ⟨i, -, -, hset, hidle⟩
    · exact .inl ⟨rfl, rfl, rfl⟩
    · exact .inr (.inl ⟨i, .ready, hset, .inl rfl, .inl hidle⟩)
  | onTick reschedule =>
    obtain ⟨r₁, hcall, -⟩ := Checked.mapFst_eq_ok.mp h
    exact (onTick_cases hcall).imp_right .inr
  | yieldCurrent =>
    obtain ⟨r₁, hcall, -⟩ := Checked.mapFst_eq_ok.mp h
    rcases rotate_cases hcall with rfl | hswitch
    · exact .inl ⟨rfl, rfl, rfl⟩
    · exact .inr (.inr hswitch)
  | takeReapable =>
    obtain ⟨r₁, hcall, -⟩ := Checked.mapFst_eq_ok.mp h
    rcases takeReapable_cases hcall with ⟨-, rfl⟩ | ⟨i, -, -, hstates, hcurrent, hidle⟩
    · exact .inl ⟨rfl, rfl, rfl⟩
    · exact .inr (.inl ⟨i, .unused, ⟨hstates, hcurrent⟩, .inr rfl, .inl hidle⟩)

/-- Of these only `exit_current` can do harm. -/
lemma careful_of_ne {op : SchedOp} (hop : op ≠ .exitCurrent) : s.Careful (.other op) := by
  cases op with
  | exitCurrent => exact absurd rfl hop
  | _ => trivial

/-! ## The invariant -/

/-- Only the current thread is running, and neither it nor the idle thread has exited. -/
structure LiveInv (s : Scheduler) : Prop where
  running_eq : ∀ i, s.states i = .running → i.val = s.current
  exited_ne : ∀ i, s.states i = .exited → i.val ≠ s.current ∧ i.val ≠ s.idle

namespace LiveInv

lemma new : LiveInv Scheduler.new where
  running_eq _ hi := ThreadState.noConfusion hi
  exited_ne _ hi := ThreadState.noConfusion hi

lemma liveSafe (h : LiveInv s) : s.LiveSafe := by
  refine liveSafe_iff.mpr ⟨fun i j hi hj => Fin.ext ?_, h.exited_ne⟩
  rw [h.running_eq i hi, h.running_eq j hj]

lemma same (h : LiveInv s) (hsame : SameThreads s s') : LiveInv s' := by
  obtain ⟨hstates, hcurrent, hidle⟩ := hsame
  constructor
  · rw [hstates, hcurrent]
    exact h.running_eq
  · rw [hstates, hcurrent, hidle]
    exact h.exited_ne

/-- A slot becomes ready or unused; it may become the idle thread. -/
lemma setState (h : LiveInv s) {i : ThreadId} {state : ThreadState} (hset : SetsState s s' i state)
    (hstate : state = .ready ∨ state = .unused) (hidle : s'.idle = s.idle ∨ s'.idle = i.val) :
    LiveInv s' := by
  obtain ⟨hstates, hcurrent⟩ := hset
  have hne : state ≠ .running ∧ state ≠ .exited := by
    rcases hstate with rfl | rfl <;> exact ⟨by decide, by decide⟩
  constructor
  · intro j hj
    rw [hstates, Function.update_apply] at hj
    split_ifs at hj with hji
    · exact absurd hj hne.1
    · rw [hcurrent]
      exact h.running_eq j hj
  · intro j hj
    rw [hstates, Function.update_apply] at hj
    split_ifs at hj with hji
    · exact absurd hj hne.2
    · rw [hcurrent]
      refine ⟨(h.exited_ne j hj).1, ?_⟩
      rcases hidle with hidle | hidle
      · rw [hidle]
        exact (h.exited_ne j hj).2
      · rw [hidle]
        exact fun hcon => hji (Fin.ext hcon)

/-- A switch.  A thread that exits is not the idle thread, or it runs again. -/
lemma switch (h : LiveInv s) {left : ThreadState} {next : ThreadId}
    (hswitch : Switches s s' left next)
    (hleft : left = .ready ∨ left = .exited ∧ (s.current = s.idle → next.val = s.idle)) :
    LiveInv s' := by
  obtain ⟨previous, hprevious, hstates, hcurrent, hidle⟩ := hswitch
  have hne : left ≠ .running := by
    rcases hleft with rfl | ⟨rfl, -⟩ <;> decide
  constructor
  · intro j hj
    rw [hstates, Function.update_apply, Function.update_apply] at hj
    rw [hcurrent]
    split_ifs at hj with hnext hprev
    · rw [hnext]
    · exact absurd hj hne
    · exact absurd (Fin.ext ((h.running_eq j hj).trans hprevious)) hprev
  · intro j hj
    rw [hstates, Function.update_apply, Function.update_apply] at hj
    rw [hcurrent, hidle]
    split_ifs at hj with hnext hprev
    refine ⟨fun hcon => hnext (Fin.ext hcon), fun hcon => ?_⟩
    · -- the thread that exits is the idle thread, which then runs again
      rcases hleft with rfl | ⟨-, hagain⟩
      · cases hj
      · have hcurrent' : s.current = s.idle := by rw [hprevious, ← hprev, hcon]
        exact hnext (Fin.ext (hcon.trans (hagain hcurrent').symm))
    · exact ⟨fun hcon => hnext (Fin.ext hcon), (h.exited_ne j hj).2⟩

/-- A call of `register_boot` keeps the invariant if and only if no other thread is running. -/
lemma registerBoot (h : LiveInv s) {id : ℕ} {r : Except SchedError Unit}
    (heq : s.registerBoot id = .ok (r, s')) :
    (s.Careful (.registerBoot id) → LiveInv s') ∧ (s'.LiveSafe → s.Careful (.registerBoot id)) := by
  rcases registerBoot_cases heq with ⟨hid, rfl⟩ | ⟨i, rfl, hstates, hcurrent, hidle⟩
  · exact ⟨fun _ => h, fun _ => .inl hid⟩
  · constructor
    · intro hcareful
      have hrunning := hcareful.resolve_left (not_le.mpr i.isLt)
      constructor
      · intro j hj
        rw [hstates, Function.update_apply] at hj
        rw [hcurrent]
        split_ifs at hj with hji
        · rw [hji]
        · exact hrunning j hj
      · intro j hj
        rw [hstates, Function.update_apply] at hj
        rw [hcurrent, hidle]
        split_ifs at hj with hji
        exact ⟨fun hcon => hji (Fin.ext hcon), (h.exited_ne j hj).2⟩
    · intro hsafe
      refine .inr fun j hj => ?_
      have honly := (liveSafe_iff.mp hsafe).1 j i
      rw [hstates, Function.update_self, Function.update_apply] at honly
      split_ifs at honly with hji
      · rw [hji]
      · exact congrArg Fin.val (honly hj rfl)

/-- A call of `exit_current` keeps the invariant if and only if it is careful. -/
lemma exitCurrent (h : LiveInv s) {r : Except SchedError Decision}
    (heq : s.exitCurrent = .ok (r, s')) :
    (s.Careful (.other .exitCurrent) → LiveInv s') ∧
      (s'.LiveSafe → s.Careful (.other .exitCurrent)) := by
  rcases exitCurrent_cases heq with ⟨hnone, rfl⟩ | ⟨next, hpicked, hswitch⟩ | ⟨i, hpicked, hi, hset⟩
  · exact ⟨fun _ => h, fun _ => .inl hnone⟩
  · obtain ⟨previous, hprevious, hstates, hcurrent, hidle⟩ := id hswitch
    have hcurrent_ne : s.current ≠ noThread := by
      rw [hprevious]
      exact val_ne_noThread previous
    constructor
    · intro hcareful
      obtain ⟨-, hagain⟩ := hcareful.resolve_left hcurrent_ne
      rw [hpicked] at hagain
      exact h.switch hswitch (.inr ⟨rfl, hagain⟩)
    · intro hsafe
      refine .inr ⟨by rw [hpicked]; exact val_ne_noThread next, fun hcon => ?_⟩
      rw [hpicked]
      -- otherwise the idle thread has exited
      by_contra hne
      have hprevious_ne : previous ≠ next := by
        rintro rfl
        exact hne (hprevious.symm.trans hcon)
      refine ((liveSafe_iff.mp hsafe).2 previous ?_).2 ?_
      · rw [hstates, Function.update_of_ne hprevious_ne, Function.update_self]
      · rw [hidle, ← hcon, hprevious]
  · obtain ⟨hstates, hcurrent⟩ := hset
    have hexited : ¬ s'.LiveSafe := by
      intro hsafe
      refine ((liveSafe_iff.mp hsafe).2 i ?_).1 (by rw [hcurrent, hi])
      rw [hstates, Function.update_self]
    refine ⟨fun hcareful => ?_, fun hsafe => absurd hsafe hexited⟩
    rcases hcareful with hcon | ⟨hcon, -⟩
    · exact absurd (hi.symm.trans hcon) (val_ne_noThread i)
    · exact absurd hpicked hcon

/-- A call keeps the invariant if and only if it is careful. -/
lemma call (h : LiveInv s) {c : SchedCall} {r : SchedResult} (heq : s.call c = .ok (r, s')) :
    (s.Careful c → LiveInv s') ∧ (s'.LiveSafe → s.Careful c) := by
  cases c with
  | registerBoot id =>
    obtain ⟨r₁, hcall, -⟩ := Checked.mapFst_eq_ok.mp heq
    exact h.registerBoot hcall
  | other op =>
    by_cases hop : op = .exitCurrent
    · subst hop
      obtain ⟨r₁, hcall, -⟩ := Checked.mapFst_eq_ok.mp heq
      exact h.exitCurrent hcall
    · refine ⟨fun _ => ?_, fun _ => careful_of_ne hop⟩
      rcases step_cases hop heq with hsame | ⟨i, state, hset, hstate, hidle⟩ | ⟨next, hswitch⟩
      · exact h.same hsame
      · exact h.setState hset hstate hidle
      · exact h.switch hswitch (.inl rfl)

end LiveInv

/-! ## Runs -/

/-- A run can be extended by a careful call. -/
lemma careful_tail {c : SchedCall} {r : SchedResult}
    (hrun : Relation.ReflTransGen Scheduler.CarefulStep .new s) (hcareful : s.Careful c)
    (heq : s.call c = .ok (r, s')) : Relation.ReflTransGen Scheduler.CarefulStep .new s' :=
  hrun.tail ⟨c, r, hcareful, heq⟩

/-- **Nothing live is reaped.**  Make calls from `Scheduler::new()`, in every order and with all
arguments, as long as each of them is careful.  In every state that is reached, at most one thread
is running and `take_reapable`, however often it is called, returns neither the current thread nor
the idle thread; and after one more call this is so if and only if the call is careful. -/
theorem live_never_reaped_iff (s : Scheduler)
    (hrun : Relation.ReflTransGen Scheduler.CarefulStep .new s) :
    s.LiveSafe ∧ ∀ c r s', s.call c = .ok (r, s') → (s'.LiveSafe ↔ s.Careful c) := by
  have hinv : LiveInv s := by
    induction hrun with
    | refl => exact LiveInv.new
    | tail _ hstep ih =>
      obtain ⟨c, r, hcareful, heq⟩ := hstep
      exact (ih.call heq).1 hcareful
  refine ⟨hinv.liveSafe, fun c r s' heq => ?_⟩
  obtain ⟨hkeeps, hbreaks⟩ := hinv.call heq
  exact ⟨hbreaks, fun hcareful => (hkeeps hcareful).liveSafe⟩

/-- Thread 2 is created, runs and exits, and is then reaped while the boot thread runs; nothing live
is reaped before or after.  A second `register_boot` at this point breaks it. -/
theorem live_never_reaped_iff_reap : ∃ s s' s'' r,
    Scheduler.new.calls [.registerBoot 0, .other .registerIdleAny, .other .create,
      .other .yieldCurrent, .other .exitCurrent] = .ok s ∧
    s.takeReapable = .ok (some 2, s') ∧ s'.current = 0 ∧ s'.idle = 1 ∧
    s.LiveSafe ∧ s'.LiveSafe ∧ s'.call (.registerBoot 3) = .ok (r, s'') ∧ ¬ s''.LiveSafe := by
  have hboot := careful_tail .refl (c := .registerBoot 0) (.inr fun i hi => by cases hi) rfl
  have hidle := careful_tail hboot (c := .other .registerIdleAny) trivial rfl
  have hcreate := careful_tail hidle (c := .other .create) trivial rfl
  have hyield := careful_tail hcreate (c := .other .yieldCurrent) trivial rfl
  have hexit := careful_tail hyield (c := .other .exitCurrent) (.inr (by decide)) rfl
  have hreap := careful_tail hexit (c := .other .takeReapable) trivial rfl
  have hsafe := (live_never_reaped_iff _ hreap).2 (.registerBoot 3) _ _ rfl
  refine ⟨_, _, _, _, rfl, rfl, rfl, rfl, (live_never_reaped_iff _ hexit).1,
    (live_never_reaped_iff _ hreap).1, rfl, fun hlive => ?_⟩
  rcases hsafe.mp hlive with hid | hrunning
  · exact absurd hid (by decide)
  · exact absurd (hrunning 0 rfl) (by decide)

/-- Calls after which something live is reaped.  A second boot thread is registered, and two threads
are running.  The boot thread exits when there is no other thread, the error is returned after it
has been marked, and it is reaped while it is current.  The idle thread exits while a thread is
ready, and is reaped. -/
theorem live_reaped :
    Checked.okAnd (Scheduler.new.calls [.registerBoot 0, .registerBoot 1])
      (fun s => s.states 0 = .running ∧ s.states 1 = .running) = true ∧
    Checked.okAnd (Scheduler.new.calls [.registerBoot 0, .other .exitCurrent])
      (fun s => Checked.okAnd s.takeReapable fun r => s.current = 0 ∧ r.1 = some 0) = true ∧
    Checked.okAnd (Scheduler.new.calls [.registerBoot 0, .other (.registerIdle 1),
        .other .exitCurrent, .other .takeReapable, .other .create, .other .exitCurrent])
      (fun s => Checked.okAnd s.takeReapable fun r => s.idle = 1 ∧ r.1 = some 1) = true := by
  decide

end KernelSched

end ParanukOS
