import Mathlib.Data.List.Rotate
import ParanukOS.KernelSched.Refinement

/-!
# Fairness of the scheduler

The ready queue is used first in, first out: a switch takes its first thread, and threads are only
ever added at its end.  Hence a thread at position `i` of the queue runs at the switch with the
number `i + 1`, counted from the present state, whatever calls are made in between.

## Outline

* `Scheduler.Disciplined`, `Scheduler.Reached`: the calls that the kernel makes.
* `switchTarget`, `step_fifo`, `fifo_of_trace`: the queue along a run.
* `rotateBy_spec`, `rotated_of_rotateAll`: consecutive rotations.
* `fifo_fairness`: the main theorem.
-/

namespace ParanukOS

open Foundation

namespace KernelSched

variable {s s' : Scheduler} {a : AbstractSched}

/-! ## The calls of the kernel -/

namespace Scheduler

/-- A thread exits only when an idle thread is registered, and the idle thread never exits. -/
def Disciplined (s : Scheduler) : SchedOp → Prop
  | .exitCurrent => s.idle ≠ noThread ∧ s.idle ≠ s.current
  | _ => True

/-- A call that returns. -/
def DisciplinedStep (s s' : Scheduler) : Prop := ∃ op r, s.Disciplined op ∧ s.step op = .ok (r, s')

/-- The boot thread has been registered once, and other calls have been made since. -/
def Reached (s : Scheduler) : Prop :=
  ∃ (id : ThreadId) (s₀ : Scheduler), Scheduler.new.registerBoot id = .ok (.ok (), s₀) ∧
    Relation.ReflTransGen DisciplinedStep s₀ s

end Scheduler

/-- The discipline of the kernel is the one of the abstract scheduler. -/
lemma Refines.allowed (h : Refines s a) {op : SchedOp} (hop : s.Disciplined op) : a.Allowed op := by
  cases op with
  | exitCurrent => exact h.allowed_exitCurrent hop
  | _ => trivial

lemma Scheduler.Reached.refines (h : s.Reached) : ∃ a, Refines s a ∧ Valid a := by
  obtain ⟨id, s₀, hboot, hrun⟩ := h
  induction hrun with
  | refl => exact ⟨_, refines_of_registerBoot hboot, Valid.start id⟩
  | tail _ hstep ih =>
    obtain ⟨a, hrefines, hvalid⟩ := ih
    obtain ⟨op, r, hop, heq⟩ := hstep
    have hallowed := hrefines.allowed hop
    exact ⟨_, (hrefines.of_step hvalid hallowed heq).2, hvalid.step hallowed⟩

lemma Refines.nodup_readyQueue (h : Refines s a) (hvalid : Valid a) : s.readyQueue.Nodup := by
  rw [h.readyQueue_eq]
  exact hvalid.nodup.map Fin.val_injective

/-! ## The queue along a run -/

/-- The thread that a call switches to. -/
def switchTarget : SchedResult → Option ℕ
  | .decision (.switch _ next) => some next
  | .exited (.ok (.switch _ next)) => some next
  | _ => none

/-- The effect of a call on the queue and the current thread: without a switch, threads may come; a
switch takes the first thread, unless there is none. -/
def FifoStep (a a' : AbstractSched) (target : Option ℕ) : Prop :=
  (target = none ∧ a'.current = a.current ∧ ∃ new, a'.queue = a.queue ++ new) ∨
    (target = some a'.current.val ∧
      (a.queue = [] ∨ ∃ new, a.queue ++ new = a'.current :: a'.queue))

lemma fifoStep_rotate (a : AbstractSched) :
    FifoStep a a.rotate.2 (switchTarget (.decision a.rotate.1)) := by
  rw [AbstractSched.rotate]
  cases hqueue : a.queue with
  | nil => exact .inl ⟨rfl, rfl, [], (List.append_nil _).symm⟩
  | cons next rest =>
    refine .inr ⟨rfl, .inr ?_⟩
    simp only [AbstractSched.switchTo]
    split_ifs with hidle
    · exact ⟨[], by rw [hqueue, List.append_nil]⟩
    · exact ⟨[a.current], by rw [hqueue, List.cons_append]⟩

lemma fifoStep_exitCurrent (hallowed : a.Allowed .exitCurrent) :
    FifoStep a a.exitCurrent.2 (switchTarget (.exited a.exitCurrent.1)) := by
  rw [AbstractSched.exitCurrent]
  cases hqueue : a.queue with
  | cons next rest => exact .inr ⟨rfl, .inr ⟨[], by rw [hqueue, List.append_nil]; rfl⟩⟩
  | nil =>
    cases hidle : a.idle with
    | none => exact absurd hidle hallowed.1
    | some next => exact .inr ⟨rfl, .inl hqueue⟩

/-- Every call uses the queue first in, first out. -/
lemma step_fifo {op : SchedOp} (hallowed : a.Allowed op) :
    FifoStep a (a.step op).2 (switchTarget (a.step op).1) := by
  have hsame : ∀ a' : AbstractSched, a'.queue = a.queue → a'.current = a.current →
      FifoStep a a' none := fun a' hqueue hcurrent =>
    .inl ⟨rfl, hcurrent, [], hqueue.trans (List.append_nil _).symm⟩
  cases op with
  | registerIdle id =>
    simp only [AbstractSched.step, AbstractSched.registerIdle]
    split_ifs <;> exact hsame _ rfl rfl
  | registerIdleAny =>
    simp only [AbstractSched.step, AbstractSched.registerIdleAny]
    cases firstWith a.states .unused with
    | none => exact hsame _ rfl rfl
    | some id =>
      simp only
      split_ifs <;> exact hsame _ rfl rfl
  | create =>
    simp only [AbstractSched.step, AbstractSched.create]
    cases firstWith a.states .unused with
    | none => exact hsame _ rfl rfl
    | some id => exact .inl ⟨rfl, rfl, [id], rfl⟩
  | onTick reschedule =>
    simp only [AbstractSched.step]
    split_ifs
    · exact fifoStep_rotate { a with ticks := a.ticks + 1 }
    · exact hsame _ rfl rfl
  | yieldCurrent => exact fifoStep_rotate a
  | exitCurrent => exact fifoStep_exitCurrent hallowed
  | takeReapable =>
    simp only [AbstractSched.step, AbstractSched.takeReapable]
    cases firstWith a.states .exited with
    | none => exact hsame _ rfl rfl
    | some id => exact hsame _ rfl rfl

/-- A call, and the list of the threads that have been switched to. -/
def TraceStep (p q : Scheduler × List ℕ) : Prop :=
  ∃ op r, p.1.Disciplined op ∧ p.1.step op = .ok (r, q.1) ∧ q.2 = p.2 ++ (switchTarget r).toList

/-- Along a run, the threads of the queue are switched to in their order.  After the first switch,
the current thread is the one switched to last. -/
lemma fifo_of_trace (hs : ∃ a, Refines s a ∧ Valid a) {p : Scheduler × List ℕ}
    (htrace : Relation.ReflTransGen TraceStep (s, []) p) :
    (∃ a, Refines p.1 a ∧ Valid a) ∧
      (∀ t ∈ p.2.getLast?, p.1.current = t) ∧
      (p.2.length ≤ s.readyQueue.length →
        ∃ pushed, Fifo s.readyQueue pushed p.2 p.1.readyQueue) := by
  induction htrace with
  | refl => exact ⟨hs, fun t ht => absurd ht (by simp), fun _ => ⟨[], Fifo.refl _⟩⟩
  | @tail p q _ hstep ih =>
    obtain ⟨⟨a, hrefines, hvalid⟩, hlast, hfifo⟩ := ih
    obtain ⟨op, r, hop, heq, hq⟩ := hstep
    have hallowed := hrefines.allowed hop
    obtain ⟨rfl, hrefines'⟩ := hrefines.of_step hvalid hallowed heq
    refine ⟨⟨_, hrefines', hvalid.step hallowed⟩, ?_, ?_⟩
    · rcases step_fifo hallowed with ⟨htarget, hcurrent, -⟩ | ⟨htarget, -⟩
      · rw [hq, htarget, Option.toList_none, List.append_nil, hrefines'.current_eq, hcurrent,
          ← hrefines.current_eq]
        exact hlast
      · rw [hq, htarget, Option.toList_some,
          List.getLast?_append_of_ne_nil _ (List.cons_ne_nil _ _)]
        intro t ht
        rw [hrefines'.current_eq]
        simpa using ht
    · intro hle
      rcases step_fifo hallowed with ⟨htarget, -, new, hqueue⟩ | ⟨htarget, hqueue⟩
      · rw [hq, htarget, Option.toList_none, List.append_nil] at hle ⊢
        obtain ⟨pushed, h⟩ := hfifo hle
        refine ⟨pushed ++ new.map Fin.val, ?_⟩
        rw [hrefines'.readyQueue_eq, hqueue, List.map_append, ← hrefines.readyQueue_eq]
        exact h.push _
      · rw [hq, htarget, Option.toList_some, List.length_append, List.length_singleton] at hle
        obtain ⟨pushed, h⟩ := hfifo (Nat.le_of_succ_le hle)
        -- an old thread is still waiting, so that the queue is not empty
        have hne : a.queue ≠ [] := by
          intro hcon
          have hdrop := h.eq_drop (Nat.le_of_succ_le hle)
          rw [hrefines.readyQueue_eq, hcon, List.map_nil] at hdrop
          have := congrArg List.length hdrop
          rw [List.length_append, List.length_drop, List.length_nil] at this
          omega
        obtain ⟨new, hnew⟩ := hqueue.resolve_left hne
        refine ⟨pushed ++ new.map Fin.val, ?_⟩
        rw [hq, htarget, Option.toList_some, hrefines'.readyQueue_eq]
        refine Fifo.pop ?_
        rw [← List.map_cons, ← hnew, List.map_append, ← hrefines.readyQueue_eq]
        exact h.push _

/-! ## Rotations -/

namespace Scheduler

/-- The current thread and the ready queue. -/
def round (s : Scheduler) : List ℕ := s.current :: s.readyQueue

/-- One rotation: a tick or a call of `yield_current`. -/
def rotateBy (s : Scheduler) (tick : Bool) : Checked (Decision × Scheduler) :=
  if tick then s.onTick true else s.yieldCurrent

/-- Consecutive rotations, and the threads that run after them. -/
def rotateAll : List Bool → Scheduler → Checked (List ℕ × Scheduler)
  | [], s => return ([], s)
  | tick :: ticks, s => do
    let (_, s) ← s.rotateBy tick
    let (ran, s') ← rotateAll ticks s
    return (s.current :: ran, s')

end Scheduler

/-- A rotation of the abstract scheduler rotates the list of its threads, if the idle thread is not
among them. -/
lemma round_rotate (hidle : a.idle ≠ some a.current) :
    a.rotate.2.current :: a.rotate.2.queue = (a.current :: a.queue).rotate 1 := by
  rw [AbstractSched.rotate, List.rotate_cons_succ, List.rotate_zero]
  cases hqueue : a.queue with
  | nil => simp only [hqueue, List.nil_append]
  | cons next rest => simp only [AbstractSched.switchTo, if_neg hidle, List.cons_append]

/-- The idle thread is registered at the same place, and it is not among the threads that take
turns. -/
def IdleAside (s : Scheduler) (a : AbstractSched) : Prop :=
  Refines s a ∧ Valid a ∧ a.idle ≠ some a.current

lemma rotateBy_spec (h : IdleAside s a) {tick : Bool} {d : Decision}
    (heq : s.rotateBy tick = .ok (d, s')) :
    ∃ a', IdleAside s' a' ∧ s'.round = s.round.rotate 1 := by
  obtain ⟨hrefines, hvalid, hidle⟩ := h
  have hticks : Valid { a with ticks := a.ticks + 1 } :=
    ⟨hvalid.running_iff, hvalid.nodup, hvalid.mem_queue_iff, hvalid.idle_state⟩
  -- a tick is a rotation after the counter has been incremented
  obtain ⟨a₁, hvalid₁, hcurrent₁, hqueue₁, hidle₁, hrefines'⟩ : ∃ a₁, Valid a₁ ∧
      a₁.current = a.current ∧ a₁.queue = a.queue ∧ a₁.idle = a.idle ∧ Refines s' a₁.rotate.2 := by
    cases tick with
    | true =>
      rcases hrefines.onTick hvalid true with ⟨s'', heq', hs''⟩ | ⟨heq', -⟩
      · rw [show s.onTick true = .ok (d, s') from heq] at heq'
        obtain ⟨-, rfl⟩ := Prod.mk.inj (Except.ok.inj heq')
        exact ⟨_, hticks, rfl, rfl, rfl, hs''⟩
      · rw [show s.onTick true = .ok (d, s') from heq] at heq'
        cases heq'
    | false =>
      rcases hrefines.rotate hvalid with ⟨s'', heq', hs''⟩ | ⟨heq', -⟩
      · rw [show s.rotate = .ok (d, s') from heq] at heq'
        obtain ⟨-, rfl⟩ := Prod.mk.inj (Except.ok.inj heq')
        exact ⟨a, hvalid, rfl, rfl, rfl, hs''⟩
      · rw [show s.rotate = .ok (d, s') from heq] at heq'
        cases heq'
  have hround := round_rotate (show a₁.idle ≠ some a₁.current by rwa [hidle₁, hcurrent₁])
  refine ⟨a₁.rotate.2, ⟨hrefines', hvalid₁.rotate, ?_⟩, ?_⟩
  · -- the next thread has been among the others
    have hkept : a₁.rotate.2.idle = a.idle := by
      rw [← hidle₁, AbstractSched.rotate]
      cases a₁.queue <;> rfl
    have hmem : a₁.rotate.2.current ∈ a₁.current :: a₁.queue := by
      rw [← List.mem_rotate (n := 1), ← hround]
      exact List.mem_cons_self
    rw [hkept]
    rcases List.mem_cons.mp hmem with hcon | hcon
    · rwa [hcon, hcurrent₁]
    · rw [← hidle₁]
      exact ((hvalid₁.mem_queue_iff _).mp hcon).2
  · rw [Scheduler.round, Scheduler.round, hrefines'.current_eq, hrefines'.readyQueue_eq,
      hrefines.current_eq, hrefines.readyQueue_eq, ← List.map_cons, ← List.map_cons, hround,
      hcurrent₁, hqueue₁, List.map_rotate]

/-- After `k` rotations the threads are rotated by `k`, and each one that has run was the next
one. -/
lemma rotated_of_rotateAll {ticks : List Bool} {ran : List ℕ} (h : IdleAside s a)
    (heq : s.rotateAll ticks = .ok (ran, s')) :
    s'.round = s.round.rotate ticks.length ∧ ran.length = ticks.length ∧
      ∀ j < ticks.length, ran[j]? = s.round[(j + 1) % s.round.length]? := by
  induction ticks generalizing s a ran with
  | nil =>
    obtain ⟨rfl, rfl⟩ := Prod.mk.inj (Except.ok.inj heq)
    exact ⟨(List.rotate_zero _).symm, rfl, fun j hj => absurd hj (Nat.not_lt_zero j)⟩
  | cons tick ticks ih =>
    obtain ⟨⟨d, s₁⟩, hfirst, heq⟩ := Checked.bind_eq_ok.mp heq
    obtain ⟨⟨ran₁, s₂⟩, hrest, heq⟩ := Checked.bind_eq_ok.mp heq
    obtain ⟨rfl, rfl⟩ := Prod.mk.inj (Except.ok.inj heq)
    obtain ⟨a₁, h₁, hround⟩ := rotateBy_spec h hfirst
    obtain ⟨hrotated, hlength, hran⟩ := ih h₁ hrest
    have hpos : 0 < s.round.length := Nat.succ_pos _
    rw [hround] at hrotated hran
    rw [List.length_rotate] at hran
    refine ⟨?_, congrArg Nat.succ hlength, fun j hj => ?_⟩
    · rw [hrotated, List.rotate_rotate, List.length_cons, Nat.add_comm]
    · cases j with
      | zero =>
        have hhead : s₁.round[0]? = some s₁.current := rfl
        rw [List.getElem?_cons_zero, ← hhead, hround, List.getElem?_rotate hpos]
      | succ j =>
        rw [List.getElem?_cons_succ, hran j (Nat.lt_of_succ_lt_succ hj),
          List.getElem?_rotate (Nat.mod_lt _ hpos), Nat.mod_add_mod]

lemma counters_rotate (a : AbstractSched) :
    a.rotate.2.ticks = a.ticks ∧ a.rotate.2.switches ≤ a.switches + 1 := by
  rw [AbstractSched.rotate]
  cases a.queue with
  | nil => exact ⟨rfl, Nat.le_succ _⟩
  | cons next rest => exact ⟨rfl, le_rfl⟩

/-- A rotation returns when the counters have room. -/
lemma exists_rotateBy (hrefines : Refines s a) (hvalid : Valid a) (hfull : ¬ CounterFull s)
    (tick : Bool) : ∃ d s' a', s.rotateBy tick = .ok (d, s') ∧ Refines s' a' ∧ Valid a' ∧
      s'.ticks ≤ s.ticks + 1 ∧ s'.switches ≤ s.switches + 1 := by
  cases tick with
  | true =>
    have hticks : Valid { a with ticks := a.ticks + 1 } :=
      ⟨hvalid.running_iff, hvalid.nodup, hvalid.mem_queue_iff, hvalid.idle_state⟩
    obtain ⟨s', heq, hs'⟩ := (hrefines.onTick hvalid true).resolve_right fun h => hfull h.2
    obtain ⟨hsame, hswitches⟩ := counters_rotate { a with ticks := a.ticks + 1 }
    refine ⟨_, s', _, heq, hs', hticks.rotate, ?_, ?_⟩
    · rw [hs'.ticks_eq, hrefines.ticks_eq]
      exact hsame.le
    · rw [hs'.switches_eq, hrefines.switches_eq]
      exact hswitches
  | false =>
    obtain ⟨s', heq, hs'⟩ := (hrefines.rotate hvalid).resolve_right fun h => hfull (.inr h.2)
    obtain ⟨hsame, hswitches⟩ := counters_rotate a
    refine ⟨_, s', _, heq, hs', hvalid.rotate, ?_, ?_⟩
    · rw [hs'.ticks_eq, hrefines.ticks_eq, hsame]
      exact Nat.le_succ _
    · rw [hs'.switches_eq, hrefines.switches_eq]
      exact hswitches

/-- So do several rotations. -/
lemma exists_rotateAll {ticks : List Bool} (hrefines : Refines s a) (hvalid : Valid a)
    (hticks : s.ticks + ticks.length < 2 ^ 64) (hswitches : s.switches + ticks.length < 2 ^ 64) :
    ∃ ran s', s.rotateAll ticks = .ok (ran, s') := by
  induction ticks generalizing s a with
  | nil => exact ⟨[], s, rfl⟩
  | cons tick ticks ih =>
    rw [List.length_cons] at hticks hswitches
    obtain ⟨d, s₁, a₁, heq, hrefines₁, hvalid₁, hticks₁, hswitches₁⟩ :=
      exists_rotateBy hrefines hvalid (by rw [CounterFull]; omega) tick
    obtain ⟨ran, s', hrest⟩ := ih hrefines₁ hvalid₁ (by omega) (by omega)
    refine ⟨s₁.current :: ran, s', ?_⟩
    simp only [Scheduler.rotateAll, heq, hrest, Checked.ok_bind]
    rfl

/-- As many rotations as there are threads. -/
lemma rotateAll_round {ticks : List Bool} {ran : List ℕ} (h : IdleAside s a)
    (hticks : ticks.length = s.readyQueue.length + 1) (heq : s.rotateAll ticks = .ok (ran, s')) :
    s'.round = s.round ∧ ran = s.readyQueue ++ [s.current] := by
  obtain ⟨hrotated, hlength, hran⟩ := rotated_of_rotateAll h heq
  have hround : ticks.length = s.round.length := hticks
  rw [hround] at hrotated hran hlength
  refine ⟨hrotated.trans (List.rotate_length _), ?_⟩
  have hone : s.readyQueue ++ [s.current] = s.round.rotate 1 := by
    rw [Scheduler.round, List.rotate_cons_succ, List.rotate_zero]
  rw [hone]
  refine List.ext_getElem? fun j => ?_
  by_cases hj : j < s.round.length
  · rw [hran j hj, List.getElem?_rotate hj]
  · rw [List.getElem?_eq_none (by rw [hlength]; exact not_lt.mp hj),
      List.getElem?_eq_none (by rw [List.length_rotate]; exact not_lt.mp hj)]

/-! ## Fairness -/

/-- **First in, first out.**  Take any state that the kernel reaches, a thread `t` at position `i`
of the ready queue, and any calls that the kernel makes from there.  As long as there have been at
most `i` switches, `t` has moved forward by one position with each of them, in front of it are the
same threads as before, it is in the queue once, and it is not the current thread.  With the switch
number `i + 1` it becomes the current thread.  When the idle thread is not the current one, then
after as many rotations as there are threads in the queue and one more, the current thread and the
queue are what they were, and all of these threads, and not the idle one, have run once; and
rotations return as long as the counters do not overflow. -/
theorem fifo_fairness (s : Scheduler) (hs : s.Reached) :
    (∀ targets s', Relation.ReflTransGen TraceStep (s, []) (s', targets) →
      ∀ i t, s.readyQueue[i]? = some t →
        (targets.length ≤ i →
          s'.readyQueue[i - targets.length]? = some t ∧
          s'.readyQueue.take (i - targets.length) = (s.readyQueue.take i).drop targets.length ∧
          s'.readyQueue.count t = 1 ∧ s'.current ≠ t ∧ t ∉ targets) ∧
        (targets.length = i + 1 → targets.getLast? = some t ∧ s'.current = t)) ∧
    (∀ ticks ran s', s.current ≠ s.idle → ticks.length = s.readyQueue.length + 1 →
      s.rotateAll ticks = .ok (ran, s') →
        s'.current = s.current ∧ s'.readyQueue = s.readyQueue ∧
        ran = s.readyQueue ++ [s.current] ∧ ran.Nodup ∧ s.idle ∉ ran) ∧
    ∀ ticks : List Bool, s.ticks + ticks.length < 2 ^ 64 → s.switches + ticks.length < 2 ^ 64 →
      ∃ ran s', s.rotateAll ticks = .ok (ran, s') := by
  obtain ⟨a, hrefines, hvalid⟩ := hs.refines
  refine ⟨?_, ?_, fun ticks => exists_rotateAll hrefines hvalid⟩
  · intro targets s' htrace i t ht
    obtain ⟨⟨a', hrefines', hvalid'⟩, hlast, hfifo⟩ := fifo_of_trace ⟨a, hrefines, hvalid⟩ htrace
    dsimp only at hrefines' hlast hfifo
    obtain ⟨hi, rfl⟩ := List.getElem?_eq_some_iff.mp ht
    constructor
    · intro hle
      obtain ⟨pushed, h⟩ := hfifo (hle.trans hi.le)
      have hposition := (h.getElem?_queue' hi hle).trans ht
      have hmem := List.mem_of_getElem? hposition
      refine ⟨hposition, h.take_queue' hi hle,
        List.count_eq_one_of_mem (hrefines'.nodup_readyQueue hvalid') hmem, ?_,
        h.notMem_popped hi hle (hrefines.nodup_readyQueue hvalid)⟩
      intro hcon
      rw [← hcon, hrefines'.current_eq, hrefines'.readyQueue_eq] at hmem
      obtain ⟨j, hj, hval⟩ := List.mem_map.mp hmem
      exact hvalid'.current_notMem (Fin.ext hval ▸ hj)
    · intro hlength
      obtain ⟨pushed, h⟩ := hfifo (hlength.le.trans hi)
      have hlast' := (h.getLast?_popped hi hlength).trans ht
      exact ⟨hlast', hlast _ hlast'⟩
  · intro ticks ran s' hcurrent hticks heq
    have hidle : a.idle ≠ some a.current := by
      intro hcon
      rw [hrefines.current_eq, hrefines.idle_eq, hcon] at hcurrent
      exact hcurrent rfl
    obtain ⟨hround, rfl⟩ := rotateAll_round ⟨hrefines, hvalid, hidle⟩ hticks heq
    obtain ⟨hsame, hqueue⟩ := List.cons.inj hround
    refine ⟨hsame, hqueue, rfl, ?_, ?_⟩
    · rw [hrefines.readyQueue_eq, hrefines.current_eq, ← List.map_singleton, ← List.map_append]
      refine List.Nodup.map Fin.val_injective (List.nodup_append.mpr
        ⟨hvalid.nodup, List.nodup_singleton _, fun i hi j hj => ?_⟩)
      rintro rfl
      exact hvalid.current_notMem (List.mem_singleton.mp hj ▸ hi)
    · intro hcon
      rcases List.mem_append.mp hcon with hmem | hmem
      · rw [hrefines.readyQueue_eq, hrefines.idle_eq] at hmem
        obtain ⟨j, hj, hval⟩ := List.mem_map.mp hmem
        refine ((hvalid.mem_queue_iff j).mp hj).2 ?_
        cases hidle' : a.idle with
        | none =>
          rw [hidle'] at hval
          exact absurd hval (val_ne_noThread j)
        | some k =>
          rw [hidle'] at hval
          rw [Fin.ext hval]
      · exact hcurrent (List.mem_singleton.mp hmem).symm

/-- The boot thread creates a thread; with the next switch, this thread runs. -/
theorem fifo_fairness_create : ∃ s s',
    s.Reached ∧ s.readyQueue = [1] ∧ Relation.ReflTransGen TraceStep (s, []) (s', [1]) ∧
      s'.current = 1 := by
  obtain ⟨s₀, hboot, -⟩ := registerBoot_refines 0
  obtain ⟨s, hcreate, s', hyield, hqueue⟩ : ∃ s, s₀.step .create = .ok (.thread (.ok 1), s) ∧
      ∃ s', s.step .yieldCurrent = .ok (.decision (.switch 0 1), s') ∧ s.readyQueue = [1] := by
    obtain ⟨-, rfl⟩ := Prod.mk.inj (Except.ok.inj hboot)
    exact ⟨_, rfl, _, rfl, rfl⟩
  have hreached : s.Reached := ⟨0, s₀, hboot, .single ⟨.create, _, trivial, hcreate⟩⟩
  have htrace : Relation.ReflTransGen TraceStep (s, []) (s', [1]) :=
    .single ⟨.yieldCurrent, _, trivial, hyield, rfl⟩
  refine ⟨s, s', hreached, hqueue, htrace, ?_⟩
  exact (((fifo_fairness s hreached).1 [1] s' htrace 0 1 (by rw [hqueue]; rfl)).2 rfl).2

end KernelSched

end ParanukOS
