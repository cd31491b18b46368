import Mathlib.Data.Fintype.Card
import ParanukOS.KernelSched.Model

/-!
# A queue of threads

What the scheduler is for: the threads that are ready form a queue; a thread that is created, and
one that is preempted, goes to its end; every switch takes its first thread; and a thread that exits
while the queue is empty is followed by the idle thread.  `AbstractSched` is this scheduler, with
the queue as a list and thread numbers that cannot be wrong.  `Valid` is its invariant, and
`Valid.step` says that all calls that the kernel makes keep it.
-/

namespace ParanukOS

open Foundation

namespace KernelSched

/-- A thread number that is an index. -/
abbrev ThreadId := Fin maxThreads

/-! ## The abstract scheduler -/

/-- The scheduler with its ready queue as a list. -/
structure AbstractSched where
  /-- The states of all threads. -/
  states : ThreadId → ThreadState
  /-- The ready queue. -/
  queue : List ThreadId
  /-- The thread that is running. -/
  current : ThreadId
  /-- The idle thread. -/
  idle : Option ThreadId
  /-- The number of ticks. -/
  ticks : ℕ
  /-- The number of switches. -/
  switches : ℕ

/-- The calls of a run. -/
inductive SchedOp where
  | registerIdle (id : ℕ)
  | registerIdleAny
  | create
  | onTick (reschedule : Bool)
  | yieldCurrent
  | exitCurrent
  | takeReapable
  deriving DecidableEq, Repr

/-- What the calls return. -/
inductive SchedResult where
  | registered (result : Except SchedError Unit)
  | thread (result : Except SchedError ℕ)
  | decision (decision : Decision)
  | exited (result : Except SchedError Decision)
  | reaped (thread : Option ℕ)

namespace AbstractSched

/-- The boot thread runs, and there is no other one. -/
def start (id : ThreadId) : AbstractSched where
  states := Function.update (fun _ => .unused) id .running
  queue := []
  current := id
  idle := none
  ticks := 0
  switches := 0

/-- Make an unused slot the idle thread. -/
def addIdle (a : AbstractSched) (id : ThreadId) : AbstractSched :=
  { a with states := Function.update a.states id .ready, idle := some id }

/-- Register an idle thread in a given slot. -/
def registerIdle (a : AbstractSched) (id : ℕ) : Except SchedError Unit × AbstractSched :=
  if h : id < maxThreads then
    if a.idle ≠ none then (.error .idleAlreadyRegistered, a)
    else if a.states ⟨id, h⟩ ≠ .unused then (.error (.invalidId id), a)
    else (.ok (), a.addIdle ⟨id, h⟩)
  else (.error (.invalidId id), a)

/-- Register an idle thread in the first unused slot. -/
def registerIdleAny (a : AbstractSched) : Except SchedError ℕ × AbstractSched :=
  match firstWith a.states .unused with
  | none => (.error .noFreeSlot, a)
  | some id =>
    if a.idle ≠ none then (.error .idleAlreadyRegistered, a) else (.ok id.val, a.addIdle id)

/-- Create a thread, at the end of the queue. -/
def create (a : AbstractSched) : Except SchedError ℕ × AbstractSched :=
  match firstWith a.states .unused with
  | none => (.error .noFreeSlot, a)
  | some id =>
    (.ok id.val, { a with states := Function.update a.states id .ready, queue := a.queue ++ [id] })

/-- Leave the current thread in the given state and run another one. -/
def switchTo (a : AbstractSched) (left : ThreadState) (next : ThreadId) (queue : List ThreadId) :
    AbstractSched :=
  { a with
    states := Function.update (Function.update a.states a.current left) next .running
    queue := queue
    current := next
    switches := a.switches + 1 }

/-- Preempt the current thread: it goes to the end of the queue, unless it is the idle thread. -/
def rotate (a : AbstractSched) : Decision × AbstractSched :=
  match a.queue with
  | [] => (.keep, a)
  | next :: rest => (.switch a.current next,
      a.switchTo .ready next (if a.idle = some a.current then rest else rest ++ [a.current]))

/-- The current thread exits. -/
def exitCurrent (a : AbstractSched) : Except SchedError Decision × AbstractSched :=
  match a.queue, a.idle with
  | next :: rest, _ => (.ok (.switch a.current next), a.switchTo .exited next rest)
  | [], some next => (.ok (.switch a.current next), a.switchTo .exited next [])
  | [], none =>
    (.error .nothingToRun, { a with states := Function.update a.states a.current .exited })

/-- Take a thread that has exited. -/
def takeReapable (a : AbstractSched) : Option ℕ × AbstractSched :=
  match firstWith a.states .exited with
  | none => (none, a)
  | some id => (some id.val, { a with states := Function.update a.states id .unused })

/-- One call. -/
def step (a : AbstractSched) : SchedOp → SchedResult × AbstractSched
  | .registerIdle id => let (r, a) := a.registerIdle id; (.registered r, a)
  | .registerIdleAny => let (r, a) := a.registerIdleAny; (.thread r, a)
  | .create => let (r, a) := a.create; (.thread r, a)
  | .onTick reschedule =>
    let a := { a with ticks := a.ticks + 1 }
    if reschedule then let (r, a) := a.rotate; (.decision r, a) else (.decision .keep, a)
  | .yieldCurrent => let (r, a) := a.rotate; (.decision r, a)
  | .exitCurrent => let (r, a) := a.exitCurrent; (.exited r, a)
  | .takeReapable => let (r, a) := a.takeReapable; (.reaped r, a)

/-- The calls that the kernel makes: a thread exits only when there is an idle thread, and the idle
thread never exits. -/
def Allowed (a : AbstractSched) : SchedOp → Prop
  | .exitCurrent => a.idle ≠ none ∧ a.idle ≠ some a.current
  | _ => True

/-- Statistics. -/
def stats (a : AbstractSched) : SchedStats where
  ticks := a.ticks
  switches := a.switches
  ready := a.queue.length
  live := liveCount a.states

end AbstractSched

/-! ## The invariant -/

/-- Exactly one thread is running and it is the current one; the queue holds exactly the threads
that are ready, except for the idle thread, each once; the idle thread is ready or running. -/
structure Valid (a : AbstractSched) : Prop where
  running_iff : ∀ i, a.states i = .running ↔ i = a.current
  nodup : a.queue.Nodup
  mem_queue_iff : ∀ i, i ∈ a.queue ↔ a.states i = .ready ∧ a.idle ≠ some i
  idle_state : ∀ i, a.idle = some i → a.states i = .ready ∨ a.states i = .running

/-- The slot found has the state looked for. -/
lemma state_of_firstWith {states : ThreadId → ThreadState} {state : ThreadState} {id : ThreadId}
    (h : firstWith states state = some id) : states id = state := by
  simpa using List.find?_some h

/-- When no slot is found, none has the state looked for. -/
lemma ne_of_firstWith_eq_none {states : ThreadId → ThreadState} {state : ThreadState}
    (h : firstWith states state = none) (i : ThreadId) : states i ≠ state := by
  simpa using List.find?_eq_none.mp h i (List.mem_finRange i)

namespace Valid

variable {a : AbstractSched}

lemma start (id : ThreadId) : Valid (.start id) := by
  refine ⟨fun i => ?_, List.nodup_nil, fun i => ?_,
    fun i hi => absurd hi (by simp [AbstractSched.start])⟩
  · simp only [AbstractSched.start, Function.update_apply]
    split_ifs with h <;> simp [h]
  · simp only [AbstractSched.start, Function.update_apply]
    split_ifs <;> simp

/-- The current thread is not in the queue. -/
lemma current_notMem (h : Valid a) : a.current ∉ a.queue := by
  intro hcon
  have hready := ((h.mem_queue_iff _).mp hcon).1
  rw [(h.running_iff _).mpr rfl] at hready
  exact ThreadState.noConfusion hready

/-- The queue has room for one more thread. -/
lemma length_lt (h : Valid a) : a.queue.length < maxThreads := by
  have hnodup : (a.current :: a.queue).Nodup := List.nodup_cons.mpr ⟨h.current_notMem, h.nodup⟩
  have := hnodup.length_le_card
  rwa [Fintype.card_fin] at this

lemma addIdle (h : Valid a) (hidle : a.idle = none) {id : ThreadId} (hid : a.states id = .unused) :
    Valid (a.addIdle id) := by
  have hcurrent : a.current ≠ id := by
    rintro rfl
    rw [(h.running_iff _).mpr rfl] at hid
    exact ThreadState.noConfusion hid
  refine ⟨fun i => ?_, h.nodup, fun i => ?_, fun i hi => ?_⟩
  · simp only [AbstractSched.addIdle, Function.update_apply]
    split_ifs with hi
    · simp [hi, hcurrent.symm]
    · exact h.running_iff i
  · simp only [AbstractSched.addIdle, Function.update_apply, ne_eq, Option.some.injEq]
    rw [h.mem_queue_iff]
    by_cases hi : i = id
    · simp [hi, hid]
    · simp [hi, hidle, Ne.symm hi]
  · obtain rfl : id = i := Option.some.inj hi
    exact .inl (Function.update_self _ _ _)

lemma create (h : Valid a) {id : ThreadId} (hid : a.states id = .unused) :
    Valid { a with states := Function.update a.states id .ready, queue := a.queue ++ [id] } := by
  have hcurrent : a.current ≠ id := by
    rintro rfl
    rw [(h.running_iff _).mpr rfl] at hid
    exact ThreadState.noConfusion hid
  have hidle : a.idle ≠ some id := by
    intro hcon
    rcases h.idle_state id hcon with hstate | hstate <;> rw [hid] at hstate <;> cases hstate
  have hqueue : id ∉ a.queue := by
    rw [h.mem_queue_iff, hid]
    simp
  refine ⟨fun i => ?_, ?_, fun i => ?_, fun i hi => ?_⟩
  · simp only [Function.update_apply]
    split_ifs with hi
    · simp [hi, hcurrent.symm]
    · exact h.running_iff i
  · rw [List.nodup_append]
    exact ⟨h.nodup, List.nodup_singleton _, fun i hi j hj => by
      rintro rfl
      rw [List.mem_singleton.mp hj] at hi
      exact hqueue hi⟩
  · simp only [List.mem_append, List.mem_singleton, Function.update_apply]
    by_cases hi : i = id
    · simp [hi, hidle]
    · simp [hi, h.mem_queue_iff]
  · simp only [Function.update_apply]
    split_ifs
    · exact .inl rfl
    · exact h.idle_state i hi

/-- A switch.  The new queue holds what is ready afterwards. -/
lemma switchTo (h : Valid a) {left : ThreadState} {next : ThreadId} {queue : List ThreadId}
    (hnext : next ≠ a.current) (hleft : left = .ready ∨ left = .exited)
    (hidle : a.idle = some a.current → left = .ready) (hnodup : queue.Nodup)
    (hmem : ∀ i, i ∈ queue ↔ i ≠ next ∧ (i ∈ a.queue ∨
      i = a.current ∧ left = .ready ∧ a.idle ≠ some a.current)) :
    Valid (a.switchTo left next queue) := by
  have hrun : left ≠ .running := by rcases hleft with rfl | rfl <;> simp
  refine ⟨fun i => ?_, hnodup, fun i => ?_, fun i hi => ?_⟩
  · simp only [AbstractSched.switchTo, Function.update_apply]
    by_cases h1 : i = next
    · simp [h1]
    · by_cases h2 : i = a.current
      · simp [h2, hrun, hnext.symm]
      · simp [h1, h2, h.running_iff]
  · simp only [AbstractSched.switchTo, Function.update_apply]
    rw [hmem]
    by_cases h1 : i = next
    · simp [h1]
    · by_cases h2 : i = a.current
      · simp [h2, hnext.symm, h.current_notMem]
      · simp [h1, h2, h.mem_queue_iff]
  · simp only [AbstractSched.switchTo, Function.update_apply] at hi ⊢
    by_cases h1 : i = next
    · simp [h1]
    · by_cases h2 : i = a.current
      · simp [h2, hnext.symm, hidle (h2 ▸ hi)]
      · simpa [h1, h2] using h.idle_state i hi

lemma rotate (h : Valid a) : Valid a.rotate.2 := by
  rw [AbstractSched.rotate]
  cases hqueue : a.queue with
  | nil => exact h
  | cons next rest =>
    have hnodup := h.nodup
    have hcurrent := h.current_notMem
    rw [hqueue] at hnodup hcurrent
    obtain ⟨hnotMem, hrest⟩ := List.nodup_cons.mp hnodup
    have hnext : next ≠ a.current := fun hcon => hcurrent (hcon ▸ List.mem_cons_self)
    have hcurrent' : a.current ∉ rest := fun hcon => hcurrent (List.mem_cons_of_mem _ hcon)
    refine h.switchTo hnext (.inl rfl) (fun _ => rfl) ?_ fun i => ?_
    · split_ifs
      · exact hrest
      · refine List.nodup_append.mpr ⟨hrest, List.nodup_singleton _, fun i hi j hj => ?_⟩
        rintro rfl
        exact hcurrent' (List.mem_singleton.mp hj ▸ hi)
    · rw [hqueue]
      by_cases h1 : i = next
      · split_ifs <;> simp [h1, hnotMem, hnext]
      · by_cases h2 : i = a.current
        · split_ifs with h3 <;> simp [h2, hnext.symm, hcurrent', h3]
        · split_ifs <;> simp [h1, h2]

lemma exitCurrent (h : Valid a) (hallowed : a.Allowed .exitCurrent) : Valid a.exitCurrent.2 := by
  obtain ⟨hsome, hcurrent⟩ := hallowed
  rw [AbstractSched.exitCurrent]
  cases hqueue : a.queue with
  | nil =>
    cases hidle : a.idle with
    | none => exact absurd hidle hsome
    | some next =>
      have hnext : next ≠ a.current := fun hcon => hcurrent (hcon ▸ hidle)
      refine h.switchTo hnext (.inr rfl)
        (fun hcon => absurd hcon hcurrent) List.nodup_nil fun i => ?_
      simp [hqueue]
  | cons next rest =>
    have hnodup := h.nodup
    have hnotMem := h.current_notMem
    rw [hqueue] at hnodup hnotMem
    obtain ⟨hnext, hrest⟩ := List.nodup_cons.mp hnodup
    refine h.switchTo (fun hcon => hnotMem (hcon ▸ List.mem_cons_self)) (.inr rfl)
      (fun hcon => absurd hcon hcurrent) hrest fun i => ?_
    rw [hqueue]
    by_cases hi : i = next
    · simp [hi, hnext]
    · simp [hi]

lemma takeReapable (h : Valid a) : Valid a.takeReapable.2 := by
  rw [AbstractSched.takeReapable]
  cases hid : firstWith a.states .exited with
  | none => exact h
  | some id =>
    have hstate := state_of_firstWith hid
    refine ⟨fun i => ?_, h.nodup, fun i => ?_, fun i hi => ?_⟩
    · simp only [Function.update_apply]
      split_ifs with heq
      · have := h.running_iff id
        rw [hstate] at this
        simpa [heq] using this
      · exact h.running_iff i
    · simp only [Function.update_apply]
      rw [h.mem_queue_iff]
      split_ifs with heq
      · simp [heq, hstate]
      · rfl
    · simp only [Function.update_apply]
      split_ifs with heq
      · have := h.idle_state i hi
        rw [heq, hstate] at this
        simp at this
      · exact h.idle_state i hi

/-- The idle thread is never reaped. -/
lemma idle_ne_of_takeReapable (h : Valid a) {i : ThreadId}
    (hreaped : (a.step .takeReapable).1 = .reaped (some i.val)) : a.idle ≠ some i := by
  simp only [AbstractSched.step, AbstractSched.takeReapable] at hreaped
  cases hid : firstWith a.states .exited with
  | none => simp [hid] at hreaped
  | some id =>
    simp only [hid, SchedResult.reaped.injEq, Option.some.injEq] at hreaped
    obtain rfl : id = i := Fin.ext hreaped
    intro hcon
    rcases h.idle_state id hcon with hstate | hstate <;> rw [state_of_firstWith hid] at hstate <;>
      cases hstate

/-- Every allowed call keeps the invariant. -/
lemma step (h : Valid a) {op : SchedOp} (hallowed : a.Allowed op) : Valid (a.step op).2 := by
  cases op with
  | registerIdle id =>
    simp only [AbstractSched.step, AbstractSched.registerIdle]
    split_ifs with hid hidle hstate
    · exact h
    · exact h
    · exact h.addIdle (not_not.mp hidle) (not_not.mp hstate)
    · exact h
  | registerIdleAny =>
    simp only [AbstractSched.step, AbstractSched.registerIdleAny]
    cases hid : firstWith a.states .unused with
    | none => exact h
    | some id =>
      simp only
      split_ifs with hidle
      · exact h
      · exact h.addIdle (not_not.mp hidle) (state_of_firstWith hid)
  | create =>
    simp only [AbstractSched.step, AbstractSched.create]
    cases hid : firstWith a.states .unused with
    | none => exact h
    | some id => exact h.create (state_of_firstWith hid)
  | onTick reschedule =>
    have hticks : Valid { a with ticks := a.ticks + 1 } :=
      ⟨h.running_iff, h.nodup, h.mem_queue_iff, h.idle_state⟩
    simp only [AbstractSched.step]
    split_ifs
    · exact hticks.rotate
    · exact hticks
  | yieldCurrent => exact h.rotate
  | exitCurrent => exact h.exitCurrent hallowed
  | takeReapable => exact h.takeReapable

end Valid

end KernelSched

end ParanukOS
