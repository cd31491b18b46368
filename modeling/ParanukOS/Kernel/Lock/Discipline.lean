import Mathlib.Data.Fintype.Card
import Mathlib.Logic.Relation
import ParanukOS.Kernel.Lock.Model

/-!
# The lock discipline

Along every run of threads that nest their guards and never take a lock twice, interrupts are off
while a lock is taken or a guard is held, so that only the code that runs can hold a lock.  This is
why a lock is free whenever it is asked for, why `HELD` counts the locks of the code that runs, and
why the check of `HELD` in `yield_now` and `exit` keeps switches away from locks.

What a guard restores is told by its place: the outermost one remembers the flag from before it, and
all the others have found the flag cleared.  An interrupt between the read of the flag and `cli`
does not change this, since the flag comes back with the frame of the interrupted code.

## Outline

* `Orderly`: code and its interrupt flag.
* `Core.Disciplined`: the invariant, kept by every step in `Core.Disciplined.step`.
* `lock_discipline`: the guarantees in every state that can be reached.
-/

namespace ParanukOS

open Foundation

namespace Kernel

variable {Λ Τ : Type}

/-- `HELD` is incremented below the end of its range. -/
lemma fetchIncrement_of_lt {n : ℕ} (h : n + 1 < 2 ^ 64) : fetchIncrement n = n + 1 :=
  Nat.mod_eq_of_lt h

/-- `HELD` is decremented. -/
lemma fetchDecrement_succ {n : ℕ} (h : n + 1 < 2 ^ 64) : fetchDecrement (n + 1) = n := by
  unfold fetchDecrement
  omega

/-! ## Code and its flag -/

/-- The flag that a guard restores. -/
def Guard.restore : Guard Λ → Bool
  | critical restore => restore
  | lock _ restore => restore

/-- Inside of `CriticalSection::enter`, before the flag is cleared. -/
def Pc.entering : Pc Λ → Bool
  | enter _ | disable _ _ => true
  | _ => false

/-- Inside of a critical section that has no guard: the flag that it restores. -/
def Pc.pending : Pc Λ → Option Bool
  | swap _ flag | count _ flag | store _ flag | restore flag => some flag
  | _ => none

/-- The lock that is about to be taken. -/
def Pc.wanted : Pc Λ → Option Λ
  | enter lock | disable lock _ => lock
  | swap l _ => some l
  | _ => none

/-- The lock whose flag is set while it has no guard. -/
def Pc.owned : Pc Λ → Option Λ
  | count l _ | store l _ => some l
  | _ => none

/-- The locks whose flag this code has set. -/
def Activation.owned (a : Activation Λ) : List Λ := a.pc.owned.toList ++ a.locks

/-- What a critical section restores that is opened inside of these guards. -/
def restoredIn (before : Bool) (guards : List (Guard Λ)) : Bool := guards.isEmpty && before

/-- Inside of a guard nothing is restored. -/
lemma restoredIn_of_ne {before : Bool} {guards : List (Guard Λ)} (h : guards ≠ []) :
    restoredIn before guards = false := by
  rw [restoredIn, List.isEmpty_eq_false_iff.mpr h, Bool.false_and]

/-- Every guard restores what it found. -/
def Nested (before : Bool) : List (Guard Λ) → Prop
  | [] => True
  | g :: guards => g.restore = restoredIn before guards ∧ Nested before guards

/-- Code whose interrupt flag is as its guards and its place say. -/
structure Orderly (a : Activation Λ) (flag : Bool) : Prop where
  /-- The flag is not changed before it is read. -/
  entering : a.pc.entering = true → flag = restoredIn a.before a.guards
  /-- The flag is not changed after it has been read. -/
  read : ∀ lock restore, a.pc = .disable lock restore → restore = flag
  /-- A critical section without a guard. -/
  pending : ∀ restore ∈ a.pc.pending, flag = false ∧ restore = restoredIn a.before a.guards
  /-- A guard. -/
  closed : a.guards ≠ [] → flag = false
  /-- What the guards restore. -/
  nested : Nested a.before a.guards
  /-- No lock is taken twice. -/
  wanted : ∀ l ∈ a.pc.wanted, l ∉ a.locks

/-- Code that does not run is orderly and has no lock. -/
def Suspended.Free (f : Suspended Λ) : Prop :=
  Orderly f.activation f.interruptFlag ∧ f.activation.owned = []

/-- Code that has not started is orderly. -/
lemma orderly_fresh (flag : Bool) : Orderly (.fresh : Activation Λ) flag where
  entering := nofun
  read := nofun
  pending := nofun
  closed := fun h => absurd rfl h
  nested := trivial
  wanted := nofun

/-- Code that can be interrupted has no lock. -/
lemma Orderly.owned_eq {a : Activation Λ} (h : Orderly a true) : a.owned = [] := by
  have hguards : a.guards = [] := by
    by_contra hne
    exact Bool.noConfusion (h.closed hne)
  have howned : a.pc.owned = none := by
    have hpending := h.pending
    cases hpc : a.pc with
    | count l restore =>
      rw [hpc] at hpending
      exact Bool.noConfusion (hpending restore rfl).1
    | store l restore =>
      rw [hpc] at hpending
      exact Bool.noConfusion (hpending restore rfl).1
    | _ => rfl
  rw [Activation.owned, Activation.locks, hguards, howned]
  rfl

/-- Code that goes outside of the functions of `lock.rs` and keeps its flag. -/
lemma Orderly.outside {a : Activation Λ} {flag : Bool} (h : Orderly a flag) :
    Orderly { a with pc := .outside } flag where
  entering := nofun
  read := nofun
  pending := nofun
  closed := h.closed
  nested := h.nested
  wanted := nofun

/-! ## The invariant -/

namespace Core

/-- The invariant. -/
structure Disciplined (s : Core Λ Τ) : Prop where
  /-- The code that runs. -/
  orderly : Orderly s.active s.interruptFlag
  /-- All locks that are taken are those of the code that runs. -/
  locked_iff : ∀ l, s.locked l = true ↔ l ∈ s.active.owned
  /-- No lock is taken twice. -/
  nodup : s.active.owned.Nodup
  /-- `HELD` counts the guards. -/
  held_eq : s.held = s.active.locks.length
  /-- A thread on its way to the software interrupt has no lock. -/
  leaving : ∀ leave, s.active.pc = .int leave → s.active.locks = [] ∧ s.handlers = []
  /-- Handlers run with interrupts off. -/
  handler : s.handlers ≠ [] → s.interruptFlag = false ∧ s.active.before = false
  /-- Handlers do not nest. -/
  handlers_le : s.handlers.length ≤ 1
  /-- What has been interrupted has no lock. -/
  interrupted : ∀ i ∈ s.handlers, i.1.Free
  /-- The other threads have no lock. -/
  threads : ∀ t f, s.threads t = some f → f.Free

/-- The state at boot. -/
lemma disciplined_boot (t : Τ) : (boot t : Core Λ Τ).Disciplined where
  orderly := orderly_fresh false
  locked_iff := fun _ => ⟨nofun, nofun⟩
  nodup := List.nodup_nil
  held_eq := rfl
  leaving := nofun
  handler := fun h => absurd rfl h
  handlers_le := Nat.zero_le 1
  interrupted := nofun
  threads := nofun

namespace Disciplined

variable {s : Core Λ Τ}

/-- The locks of code that is outside of the functions of `lock.rs`. -/
lemma owned_of_none {a : Activation Λ} (h : a.pc.owned = none) : a.owned = a.locks := by
  rw [Activation.owned, h]
  rfl

/-- Only the code that runs moves, and it does not leave. -/
lemma move {flag : Bool} {held : ℕ} {locked : Λ → Bool} {a : Activation Λ} (h : s.Disciplined)
    (horderly : Orderly a flag) (hlocked : ∀ l, locked l = true ↔ l ∈ a.owned)
    (hnodup : a.owned.Nodup) (hheld : held = a.locks.length) (hpc : ∀ leave, a.pc ≠ .int leave)
    (hhandler : s.handlers ≠ [] → flag = false ∧ a.before = false) :
    { s with interruptFlag := flag, held, locked, active := a }.Disciplined where
  orderly := horderly
  locked_iff := hlocked
  nodup := hnodup
  held_eq := hheld
  leaving := fun leave h' => absurd h' (hpc leave)
  handler := hhandler
  handlers_le := h.handlers_le
  interrupted := h.interrupted
  threads := h.threads

/-- `critical` and `SpinLock::lock` are called. -/
lemma acquire (h : s.Disciplined) (hpc : s.active.pc = .outside) {lock : Option Λ}
    (hlock : ∀ l ∈ lock, l ∉ s.active.locks) :
    { s with active := { s.active with
      pc := .enter lock
      before := if s.active.guards = [] then s.interruptFlag else s.active.before }
    }.Disciplined := by
  have howned : s.active.owned = s.active.locks := owned_of_none (by rw [hpc]; rfl)
  have hlocked := h.locked_iff
  have hnodup := h.nodup
  rw [howned] at hlocked hnodup
  refine h.move ⟨fun _ => ?_, nofun, nofun, h.orderly.closed, ?_, hlock⟩ hlocked hnodup h.held_eq
    nofun (fun h' => ⟨(h.handler h').1, ?_⟩)
  · by_cases hguards : s.active.guards = []
    · simp [restoredIn, hguards]
    · rw [h.orderly.closed hguards, restoredIn_of_ne hguards]
  · by_cases hguards : s.active.guards = []
    · simp [hguards, Nested]
    · simpa [hguards] using h.orderly.nested
  · -- a guard of a handler is taken with the flag cleared
    by_cases hguards : s.active.guards = []
    · simp [hguards, (h.handler h').1]
    · simp [hguards, (h.handler h').2]

/-- At most all locks are taken, so that `HELD` does not wrap around. -/
lemma length_owned_lt [Fintype Λ] (hcard : Fintype.card Λ < 2 ^ 64) (h : s.Disciplined) :
    s.active.owned.length < 2 ^ 64 :=
  h.nodup.length_le_card.trans_lt hcard

/-- A guard is dropped. -/
lemma dropGuard [Fintype Λ] (hcard : Fintype.card Λ < 2 ^ 64) (h : s.Disciplined)
    (hpc : s.active.pc = .outside) : s.dropGuard.Disciplined := by
  have howned : s.active.owned = s.active.locks := owned_of_none (by rw [hpc]; rfl)
  have hlocked := h.locked_iff
  have hnodup := h.nodup
  have hlt := h.length_owned_lt hcard
  have hheld := h.held_eq
  have hnested := h.orderly.nested
  rw [howned] at hlocked hnodup hlt
  unfold Core.dropGuard
  cases hguards : s.active.guards with
  | nil => exact h
  | cons g guards =>
    have hflag : s.interruptFlag = false := h.orderly.closed (by simp [hguards])
    rw [hguards] at hnested
    cases g with
    | critical restore =>
      have hlocks : s.active.locks = guards.filterMap Guard.lock? := by
        rw [Activation.locks, hguards]
        rfl
      rw [hlocks] at hlocked hnodup hheld
      refine h.move ⟨nofun, nofun, ?_, fun _ => hflag, hnested.2, nofun⟩ hlocked hnodup hheld nofun
        h.handler
      rintro _ ⟨⟩
      exact ⟨hflag, hnested.1⟩
    | lock l restore =>
      have hlocks : s.active.locks = l :: guards.filterMap Guard.lock? := by
        rw [Activation.locks, hguards]
        rfl
      rw [hlocks] at hlocked hnodup hheld hlt
      refine h.move ⟨nofun, nofun, ?_, fun _ => hflag, hnested.2, nofun⟩ hlocked hnodup ?_ nofun
        h.handler
      · rintro _ ⟨⟩
        exact ⟨hflag, hnested.1⟩
      · rw [List.length_cons] at hheld hlt
        exact (congrArg fetchDecrement hheld).trans (fetchDecrement_succ hlt)

/-- An interrupt arrives when no lock is taken. -/
lemma interrupt {a : Activation Λ} (h : s.Disciplined) (ha : Suspended.Free ⟨a, s.interruptFlag⟩)
    (hactive : s.active.owned = []) (hhandlers : s.handlers = []) (exits : Bool) :
    (s.interrupt a exits).Disciplined where
  orderly := orderly_fresh false
  locked_iff := by
    have hlocked := h.locked_iff
    rw [hactive] at hlocked
    exact hlocked
  nodup := List.nodup_nil
  held_eq := by
    rw [Core.interrupt, h.held_eq, (List.append_eq_nil_iff.mp hactive).2]
    rfl
  leaving := nofun
  handler := fun _ => ⟨rfl, rfl⟩
  handlers_le := by rw [Core.interrupt, hhandlers]; rfl
  interrupted := by
    rw [Core.interrupt, hhandlers]
    exact List.forall_mem_singleton.mpr ha
  threads := h.threads

/-- Code goes on that has been interrupted when no lock is taken. -/
lemma resume {f : Suspended Λ} {threads : Τ → Option (Suspended Λ)} (h : s.Disciplined)
    (hactive : s.active.owned = []) (hf : f.Free)
    (hthreads : ∀ t f, threads t = some f → f.Free) (current : Τ) :
    { s with
      interruptFlag := f.interruptFlag
      active := f.activation
      handlers := []
      current
      threads }.Disciplined where
  orderly := hf.1
  locked_iff := fun l => by rw [hf.2, ← hactive]; exact h.locked_iff l
  nodup := by rw [hf.2]; exact List.nodup_nil
  held_eq := by
    rw [h.held_eq, (List.append_eq_nil_iff.mp hactive).2, (List.append_eq_nil_iff.mp hf.2).2]
  leaving := fun _ _ => ⟨(List.append_eq_nil_iff.mp hf.2).2, rfl⟩
  handler := fun h' => absurd rfl h'
  handlers_le := Nat.zero_le 1
  interrupted := nofun
  threads := hthreads

/-! ### The instructions of `lock.rs` -/

/-- The interrupt flag is read. -/
lemma enter [DecidableEq Λ] (h : s.Disciplined) {lock : Option Λ}
    (hpc : s.active.pc = .enter lock) : s.advance.Disciplined := by
  have hentering := h.orderly.entering (by rw [hpc]; rfl)
  have hwanted := h.orderly.wanted
  have hlocked := h.locked_iff
  have hnodup := h.nodup
  rw [owned_of_none (by rw [hpc]; rfl)] at hlocked hnodup
  rw [hpc] at hwanted
  rw [Core.advance, hpc]
  refine h.move ⟨fun _ => hentering, ?_, nofun, h.orderly.closed, h.orderly.nested, hwanted⟩
    hlocked hnodup h.held_eq nofun h.handler
  rintro _ _ ⟨⟩
  rfl

/-- Interrupts are turned off.  `critical` has its guard now. -/
lemma disable [DecidableEq Λ] (h : s.Disciplined) {lock : Option Λ} {restore : Bool}
    (hpc : s.active.pc = .disable lock restore) : s.advance.Disciplined := by
  have hentering := h.orderly.entering (by rw [hpc]; rfl)
  have hread := h.orderly.read _ _ hpc
  have hwanted := h.orderly.wanted
  have hlocked := h.locked_iff
  have hnodup := h.nodup
  have hflag : (s.cli restore).interruptFlag = false := by
    rw [hread, Core.cli]
    cases s.interruptFlag <;> rfl
  rw [owned_of_none (by rw [hpc]; rfl)] at hlocked hnodup
  rw [hpc] at hwanted
  rw [← hread] at hentering
  rw [Core.advance, hpc]
  cases lock with
  | none =>
    exact h.move ⟨nofun, nofun, nofun, fun _ => hflag, ⟨hentering, h.orderly.nested⟩, nofun⟩
      hlocked hnodup h.held_eq nofun (fun h' => ⟨hflag, (h.handler h').2⟩)
  | some l =>
    refine h.move ⟨nofun, nofun, ?_, fun _ => hflag, h.orderly.nested, hwanted⟩
      hlocked hnodup h.held_eq nofun (fun h' => ⟨hflag, (h.handler h').2⟩)
    rintro _ ⟨⟩
    exact ⟨hflag, hentering⟩

/-- The lock is swapped in.  It is free: whoever runs has all the locks, and does not want one that
it has. -/
lemma swap [DecidableEq Λ] (h : s.Disciplined) {l : Λ} {restore : Bool}
    (hpc : s.active.pc = .swap l restore) : s.advance.Disciplined := by
  have hwanted : l ∉ s.active.locks := h.orderly.wanted l (by rw [hpc]; rfl)
  have hpending := h.orderly.pending restore (by rw [hpc]; rfl)
  have hlocked := h.locked_iff
  have hnodup := h.nodup
  rw [owned_of_none (by rw [hpc]; rfl)] at hlocked hnodup
  have hfree : s.locked l = false := Bool.eq_false_iff.mpr fun h' => hwanted ((hlocked l).mp h')
  rw [Core.advance, hpc]
  simp only [hfree, Bool.false_eq_true, if_false]
  refine h.move ⟨nofun, nofun, ?_, h.orderly.closed, h.orderly.nested, nofun⟩ (fun l' => ?_)
    (List.nodup_cons.mpr ⟨hwanted, hnodup⟩) h.held_eq nofun h.handler
  · rintro _ ⟨⟩
    exact hpending
  · show Function.update s.locked l true l' = true ↔ l' ∈ l :: s.active.locks
    rw [List.mem_cons, ← hlocked l']
    by_cases hl : l' = l
    · simp [hl]
    · simp [hl]

/-- `HELD` is incremented, and the guard is there. -/
lemma count [Fintype Λ] [DecidableEq Λ] (hcard : Fintype.card Λ < 2 ^ 64) (h : s.Disciplined)
    {l : Λ} {restore : Bool} (hpc : s.active.pc = .count l restore) : s.advance.Disciplined := by
  have hpending := h.orderly.pending restore (by rw [hpc]; rfl)
  have howned : s.active.owned = l :: s.active.locks := by rw [Activation.owned, hpc]; rfl
  have hlocked := h.locked_iff
  have hnodup := h.nodup
  have hlt := h.length_owned_lt hcard
  rw [howned] at hlocked hnodup hlt
  rw [Core.advance, hpc]
  refine h.move ⟨nofun, nofun, nofun, fun _ => hpending.1, ⟨hpending.2, h.orderly.nested⟩, nofun⟩
    hlocked hnodup ?_ nofun h.handler
  rw [List.length_cons] at hlt
  exact (congrArg fetchIncrement h.held_eq).trans (fetchIncrement_of_lt hlt)

/-- The lock is released. -/
lemma store [DecidableEq Λ] (h : s.Disciplined) {l : Λ} {restore : Bool}
    (hpc : s.active.pc = .store l restore) : s.advance.Disciplined := by
  have hpending := h.orderly.pending restore (by rw [hpc]; rfl)
  have howned : s.active.owned = l :: s.active.locks := by rw [Activation.owned, hpc]; rfl
  have hlocked := h.locked_iff
  have hnodup := h.nodup
  rw [howned] at hlocked hnodup
  obtain ⟨hnot, hnodup⟩ := List.nodup_cons.mp hnodup
  rw [Core.advance, hpc]
  refine h.move ⟨nofun, nofun, ?_, h.orderly.closed, h.orderly.nested, nofun⟩ (fun l' => ?_)
    hnodup h.held_eq nofun h.handler
  · rintro _ ⟨⟩
    exact hpending
  · show Function.update s.locked l false l' = true ↔ l' ∈ s.active.locks
    by_cases hl : l' = l
    · simp [hl, hnot]
    · simp [hl, hlocked l']

/-- The interrupt flag is restored. -/
lemma restored [DecidableEq Λ] (h : s.Disciplined) {restore : Bool}
    (hpc : s.active.pc = .restore restore) : s.advance.Disciplined := by
  have hpending := h.orderly.pending restore (by rw [hpc]; rfl)
  have hflag : (s.sti restore).interruptFlag = restoredIn s.active.before s.active.guards := by
    rw [← hpending.2, Core.sti, hpending.1]
    cases restore <;> rfl
  have hlocked := h.locked_iff
  have hnodup := h.nodup
  rw [owned_of_none (by rw [hpc]; rfl)] at hlocked hnodup
  rw [Core.advance, hpc]
  refine h.move ⟨nofun, nofun, nofun, fun h' => ?_, h.orderly.nested, nofun⟩ hlocked hnodup
    h.held_eq nofun (fun h' => ⟨?_, (h.handler h').2⟩)
  · exact hflag.trans (restoredIn_of_ne h')
  · refine hflag.trans ?_
    rw [restoredIn, (h.handler h').2, Bool.and_false]

/-- The software interrupt of a thread that yields or exits. -/
lemma int [DecidableEq Λ] (h : s.Disciplined) {leave : Leave} (hpc : s.active.pc = .int leave) :
    s.advance.Disciplined := by
  obtain ⟨hlocks, hhandlers⟩ := h.leaving leave hpc
  rw [Core.advance, hpc]
  refine h.interrupt ⟨h.orderly.outside, hlocks⟩ ?_ hhandlers _
  rw [owned_of_none (by rw [hpc]; rfl), hlocks]

/-- The next instruction of a function of `lock.rs`. -/
lemma advance [Fintype Λ] [DecidableEq Λ] (hcard : Fintype.card Λ < 2 ^ 64) (h : s.Disciplined) :
    s.advance.Disciplined := by
  cases hpc : s.active.pc with
  | outside =>
    rw [Core.advance, hpc]
    exact h
  | enter lock => exact h.enter hpc
  | disable lock restore => exact h.disable hpc
  | swap l restore => exact h.swap hpc
  | count l restore => exact h.count hcard hpc
  | store l restore => exact h.store hpc
  | restore restore => exact h.restored hpc
  | int leave => exact h.int hpc

/-! ### All events -/

/-- A handler returns. -/
lemma iret [DecidableEq Τ] (h : s.Disciplined) (hpc : s.active.pc = .outside)
    (hguards : s.active.guards = []) (next : Option Τ) : (s.iret next).Disciplined := by
  have hlocks : s.active.locks = [] := by rw [Activation.locks, hguards]; rfl
  have hactive : s.active.owned = [] := by rw [owned_of_none (by rw [hpc]; rfl), hlocks]
  unfold Core.iret
  cases hhandlers : s.handlers with
  | nil => exact h
  | cons i handlers =>
    have hrest : handlers = [] := by
      have hle := h.handlers_le
      rw [hhandlers, List.length_cons] at hle
      exact List.length_eq_zero_iff.mp (Nat.le_zero.mp (Nat.le_of_succ_le_succ hle))
    have hi : i.1.Free := h.interrupted i (hhandlers ▸ List.mem_cons_self)
    subst hrest
    cases next with
    | none => exact h.resume hactive hi h.threads _
    | some t =>
      cases hsaved : s.threads t with
      | none => simpa only [hsaved] using h
      | some saved =>
        simp only [hsaved]
        refine h.resume hactive (h.threads t saved hsaved) (fun t' f hf => ?_) _
        by_cases ht : t' = t
        · rw [ht, Function.update_self] at hf
          exact absurd hf (by simp)
        rw [Function.update_of_ne ht] at hf
        by_cases hcurrent : t' = s.current
        · -- the thread that was interrupted, unless it has exited
          rw [hcurrent, Function.update_self] at hf
          split_ifs at hf
          exact Option.some.inj hf ▸ hi
        · rw [Function.update_of_ne hcurrent] at hf
          exact h.threads t' f hf

/-- `yield_now` or `exit` has found that no lock is held. -/
lemma prepare (h : s.Disciplined) (hpc : s.active.pc = .outside) (hlocks : s.active.locks = [])
    (hhandlers : s.handlers = []) (leave : Leave) : (s.goto (.int leave)).Disciplined := by
  have howned : s.active.owned = s.active.locks := owned_of_none (by rw [hpc]; rfl)
  have hlocked := h.locked_iff
  have hnodup := h.nodup
  rw [howned] at hlocked hnodup
  exact { h with
    orderly := ⟨nofun, nofun, nofun, h.orderly.closed, h.orderly.nested, nofun⟩
    locked_iff := hlocked
    nodup := hnodup
    leaving := fun _ _ => ⟨hlocks, hhandlers⟩ }

/-- Every step keeps the invariant. -/
lemma step [Fintype Λ] [DecidableEq Λ] [DecidableEq Τ] (hcard : Fintype.card Λ < 2 ^ 64)
    (h : s.Disciplined) {e : LockEvent Λ Τ} (he : s.Enabled e) {s' : Core Λ Τ}
    (hs : s.step e = .ok s') : s'.Disciplined := by
  cases e with
  | acquire lock =>
    cases hs
    exact h.acquire he.1 he.2
  | drop =>
    cases hs
    exact h.dropGuard hcard he.1
  | advance =>
    cases hs
    exact h.advance hcard
  | leave leave =>
    simp only [Core.step] at hs
    split_ifs at hs with hheld
    cases hs
    have hlocks : s.active.locks = [] := by
      rw [← List.length_eq_zero_iff, ← h.held_eq]
      exact not_not.mp hheld
    exact h.prepare he.1 hlocks he.2 leave
  | timer =>
    cases hs
    have htrue : s.interruptFlag = true := he
    have horderly := h.orderly
    rw [htrue] at horderly
    have hactive := horderly.owned_eq
    refine h.interrupt ⟨h.orderly, hactive⟩ hactive ?_ false
    by_contra hhandlers
    rw [(h.handler hhandlers).1] at htrue
    exact Bool.noConfusion htrue
  | iret next =>
    cases hs
    exact h.iret he.1 he.2.1 next
  | spawn t =>
    cases hs
    refine { h with threads := fun t' f hf => ?_ }
    dsimp only at hf
    by_cases ht : t' = t
    · rw [ht, Function.update_self] at hf
      cases hf
      exact ⟨orderly_fresh true, rfl⟩
    · rw [Function.update_of_ne ht] at hf
      exact h.threads t' f hf
  | enable =>
    cases hs
    obtain ⟨hpc, hguards, hhandlers⟩ := he
    refine { h with
      orderly := ⟨?_, ?_, ?_, fun h' => absurd hguards h', h.orderly.nested, h.orderly.wanted⟩
      handler := fun h' => absurd hhandlers h' }
    · rw [hpc]
      exact nofun
    · rw [hpc]
      exact nofun
    · rw [hpc]
      exact nofun

/-! ## Consequences -/

/-- Interrupts are off while a lock is taken or a critical section is open. -/
lemma flag_eq_false (h : s.Disciplined) (hs : (∃ l, s.locked l = true) ∨ s.active.guards ≠ [] ∨
    s.active.pc.pending.isSome = true) : s.interruptFlag = false := by
  by_contra htrue
  have horderly := h.orderly
  rw [Bool.eq_true_of_not_eq_false htrue] at horderly
  rcases hs with ⟨l, hl⟩ | hguards | hpending
  · have hmem := (h.locked_iff l).mp hl
    rw [horderly.owned_eq] at hmem
    exact List.not_mem_nil hmem
  · exact Bool.noConfusion (horderly.closed hguards)
  · obtain ⟨restore, hrestore⟩ := Option.isSome_iff_exists.mp hpending
    exact Bool.noConfusion (horderly.pending restore hrestore).1

/-- The number of locks that are taken. -/
lemma card_locked [Fintype Λ] [DecidableEq Λ] (h : s.Disciplined) :
    (Finset.univ.filter fun l => s.locked l = true).card =
      s.held + s.active.pc.owned.toList.length := by
  have hset : (Finset.univ.filter fun l => s.locked l = true) = s.active.owned.toFinset := by
    ext l
    rw [Finset.mem_filter_univ, List.mem_toFinset, h.locked_iff l]
  rw [hset, List.toFinset_card_of_nodup h.nodup, h.held_eq, Activation.owned, List.length_append,
    Nat.add_comm]

/-- `yield_now` and `exit` stop if a lock is taken. -/
lemma leave_iff [DecidableEq Λ] [DecidableEq Τ] (h : s.Disciplined) {leave : Leave}
    (he : s.Enabled (.leave leave)) :
    s.step (.leave leave) = .error .assertion ↔ ∃ l, s.locked l = true := by
  have howned : s.active.owned = s.active.locks := owned_of_none (by rw [he.1]; rfl)
  have hlocked : (∃ l, s.locked l = true) ↔ s.held ≠ 0 := by
    rw [h.held_eq, ← howned, ← Nat.pos_iff_ne_zero, List.length_pos_iff_exists_mem]
    exact exists_congr h.locked_iff
  rw [hlocked]
  by_cases hheld : s.held = 0
  · simp [Core.step, hheld, pure, Except.pure]
  · simp [Core.step, hheld]

/-- A handler that returns has no lock. -/
lemma locked_of_iret (h : s.Disciplined) {next : Option Τ} (he : s.Enabled (.iret next)) :
    s.held = 0 ∧ ∀ l, s.locked l = false := by
  have hlocks : s.active.locks = [] := by
    rw [Activation.locks, he.2.1]
    rfl
  have howned : s.active.owned = [] := by rw [owned_of_none (by rw [he.1]; rfl), hlocks]
  refine ⟨by rw [h.held_eq, hlocks]; rfl, fun l => Bool.eq_false_iff.mpr fun hl => ?_⟩
  have hmem := (h.locked_iff l).mp hl
  rw [howned] at hmem
  exact List.not_mem_nil hmem

/-- A lock that is asked for is free. -/
lemma locked_of_swap (h : s.Disciplined) {l : Λ} {restore : Bool}
    (hpc : s.active.pc = .swap l restore) : s.locked l = false := by
  refine Bool.eq_false_iff.mpr fun hl => h.orderly.wanted l (by rw [hpc]; rfl) ?_
  rw [← owned_of_none (a := s.active) (by rw [hpc]; rfl)]
  exact (h.locked_iff l).mp hl

/-- The end of a critical section restores the flag that its place tells. -/
lemma flag_of_restore [DecidableEq Λ] (h : s.Disciplined) {restore : Bool}
    (hpc : s.active.pc = .restore restore) :
    s.advance.interruptFlag = restoredIn s.active.before s.active.guards := by
  have hpending := h.orderly.pending restore (by rw [hpc]; rfl)
  rw [← hpending.2]
  simp only [Core.advance, hpc, Core.sti, Core.goto, hpending.1]
  cases restore <;> rfl

end Disciplined

/-! ## Runs -/

variable [DecidableEq Λ] [DecidableEq Τ]

/-- The next instruction of a function of `lock.rs`, with interrupts off, so that nothing comes in
between. -/
def Advances (s s' : Core Λ Τ) : Prop :=
  s.active.pc ≠ .outside ∧ s.interruptFlag = false ∧ s.step .advance = .ok s'

omit [DecidableEq Λ] [DecidableEq Τ] in
lemma interruptFlag_dropGuard (s : Core Λ Τ) : s.dropGuard.interruptFlag = s.interruptFlag := by
  unfold Core.dropGuard
  split <;> rfl

/-- The drop of a guard: the flag of the lock is cleared, `HELD` is decremented, and the interrupt
flag is the one that belongs to the guards that are left. -/
lemma Disciplined.dropped [Fintype Λ] (hcard : Fintype.card Λ < 2 ^ 64) {s : Core Λ Τ}
    (h : s.Disciplined) (hpc : s.active.pc = .outside) {g : Guard Λ} {guards : List (Guard Λ)}
    (hguards : s.active.guards = g :: guards) :
    ∃ s', Relation.ReflTransGen Advances s.dropGuard s' ∧ s'.active = { s.active with guards } ∧
      s'.held = (guards.filterMap Guard.lock?).length ∧
      (∀ l, s'.locked l = true ↔ l ∈ guards.filterMap Guard.lock?) ∧
      s'.interruptFlag = restoredIn s.active.before guards := by
  have hdropped := h.dropGuard hcard hpc
  have hfirst : s.dropGuard.interruptFlag = false := by
    rw [interruptFlag_dropGuard]
    exact h.orderly.closed (by simp [hguards])
  -- the last instruction, for both kinds of guards
  have hlast : ∀ {t : Core Λ Τ} {restore : Bool}, t.Disciplined → t.interruptFlag = false →
      t.active = { s.active with pc := .restore restore, guards } →
      Advances t t.advance ∧ t.advance.active = { s.active with guards } ∧
      t.advance.held = (guards.filterMap Guard.lock?).length ∧
      (∀ l, t.advance.locked l = true ↔ l ∈ guards.filterMap Guard.lock?) ∧
      t.advance.interruptFlag = restoredIn s.active.before guards := by
    intro t restore ht htflag hactive
    have htpc : t.active.pc = .restore restore := by rw [hactive]
    have hnext : t.advance.active = { s.active with guards } := by
      have houtside : t.advance.active = { t.active with pc := .outside } := by
        rw [Core.advance, htpc]
        rfl
      rw [houtside, hactive, ← hpc]
    have hafter := ht.restored htpc
    have hlocks : t.advance.active.locks = guards.filterMap Guard.lock? := by rw [hnext]; rfl
    refine ⟨⟨by rw [htpc]; exact nofun, htflag, rfl⟩, hnext, ?_, fun l => ?_, ?_⟩
    · rw [hafter.held_eq, hlocks]
    · rw [hafter.locked_iff, owned_of_none (by rw [hnext, hpc]; rfl), hlocks]
    · rw [ht.flag_of_restore htpc, hactive]
  cases g with
  | critical restore =>
    have hactive : s.dropGuard.active = { s.active with pc := .restore restore, guards } := by
      rw [Core.dropGuard, hguards]
    obtain ⟨hstep, hend⟩ := hlast hdropped hfirst hactive
    exact ⟨_, .single hstep, hend⟩
  | lock l restore =>
    have hactive : s.dropGuard.active = { s.active with pc := .store l restore, guards } := by
      rw [Core.dropGuard, hguards]
    have hstore : s.dropGuard.active.pc = .store l restore := by rw [hactive]
    -- from here on only the state of the code that runs and the flag matter
    generalize s.dropGuard = u at hdropped hactive hfirst hstore ⊢
    have hadvance : u.advance =
        { u with locked := Function.update u.locked l false }.goto (.restore restore) := by
      rw [Core.advance, hstore]
    have hactive' : u.advance.active = { s.active with pc := .restore restore, guards } := by
      rw [hadvance]
      simp only [Core.goto, hactive]
    have hsecond : u.advance.interruptFlag = false := by
      rw [hadvance]
      exact hfirst
    obtain ⟨hstep, hend⟩ := hlast (hdropped.store hstore) hsecond hactive'
    exact ⟨_, .head ⟨by rw [hstore]; exact nofun, hfirst, rfl⟩ (.single hstep), hend⟩

/-- One step that can be made and that does not stop. -/
def Makes (s s' : Core Λ Τ) : Prop := ∃ e, s.Enabled e ∧ s.step e = .ok s'

/-- The states that can be reached. -/
def Reached (t : Τ) (s : Core Λ Τ) : Prop := Relation.ReflTransGen Makes (boot t) s

/-- The invariant holds along every run. -/
lemma Reached.disciplined [Fintype Λ] (hcard : Fintype.card Λ < 2 ^ 64) {t : Τ} {s : Core Λ Τ}
    (h : s.Reached t) : s.Disciplined := by
  induction h with
  | refl => exact disciplined_boot t
  | tail _ hstep ih =>
    obtain ⟨e, he, hs⟩ := hstep
    exact ih.step hcard he hs

/-- A run goes on. -/
lemma Reached.next {t : Τ} {s s' : Core Λ Τ} (h : s.Reached t) (e : LockEvent Λ Τ)
    (he : s.Enabled e) (hs : s.step e = .ok s') : s'.Reached t :=
  h.tail ⟨e, he, hs⟩

/-- In every state that threads with nested guards can reach, with interrupts at every instruction
where the flag is set: the flag is cleared while a lock is taken or a critical section is open;
`HELD` is the number of locks that the code that runs holds, all other code holds none, and a lock
without a guard is being taken or dropped right now; no lock is taken when a handler switches to
another thread, and `yield_now` and `exit` stop exactly if one is; and a lock that is asked for is
free.  When the innermost guard is dropped, its function comes to its end without an interrupt; then
the guard is gone, the locks that are taken are those of the guards that are left, `HELD` is their
number, and after the outermost guard the flag is what it was before it. -/
theorem lock_discipline [Fintype Λ] (hcard : Fintype.card Λ < 2 ^ 64) {t : Τ} {s : Core Λ Τ}
    (h : s.Reached t) :
    ((∃ l, s.locked l = true) ∨ s.active.guards ≠ [] ∨ s.active.pc.pending.isSome = true →
      s.interruptFlag = false) ∧
    (s.held = s.active.locks.length ∧
      (Finset.univ.filter fun l => s.locked l = true).card =
        s.held + s.active.pc.owned.toList.length ∧
      (∀ i ∈ s.handlers, i.1.activation.owned = []) ∧
      ∀ t' f, s.threads t' = some f → f.activation.owned = []) ∧
    (∀ t', s.Enabled (.iret (some t')) → s.held = 0 ∧ ∀ l, s.locked l = false) ∧
    (∀ leave, s.Enabled (.leave leave) →
      (s.step (.leave leave) = .error .assertion ↔ ∃ l, s.locked l = true)) ∧
    (∀ l restore, s.active.pc = .swap l restore → s.locked l = false) ∧
    (∀ restore, s.active.pc = .restore restore → s.active.guards = [] →
      s.advance.interruptFlag = s.active.before) ∧
    ∀ g guards, s.active.pc = .outside → s.active.guards = g :: guards →
      ∃ s₁ s', s.step .drop = .ok s₁ ∧ Relation.ReflTransGen Advances s₁ s' ∧
        s'.active = { s.active with guards } ∧ s'.held = (guards.filterMap Guard.lock?).length ∧
        (∀ l, s'.locked l = true ↔ l ∈ guards.filterMap Guard.lock?) ∧
        s'.interruptFlag = (guards.isEmpty && s.active.before) := by
  have hs := h.disciplined hcard
  refine ⟨hs.flag_eq_false, ⟨hs.held_eq, hs.card_locked, fun i hi => (hs.interrupted i hi).2,
    fun t' f hf => (hs.threads t' f hf).2⟩, fun t' => hs.locked_of_iret, fun leave => hs.leave_iff,
    fun l restore => hs.locked_of_swap, fun restore hpc hguards => ?_,
    fun g guards hpc hguards => ?_⟩
  · rw [hs.flag_of_restore hpc, restoredIn, hguards]
    rfl
  · obtain ⟨s', hend⟩ := hs.dropped hcard hpc hguards
    exact ⟨s.dropGuard, s', rfl, hend⟩

/-- A timer interrupt between the read of the flag and `cli`, in the first of two locks.  When the
lock is dropped, it is free again and interrupts are on. -/
theorem lock_discipline_interrupted : ∃ s s₁ s' : Core (Fin 2) (Fin 2), s.Reached 0 ∧ s.held = 1 ∧
    s.locked 0 = true ∧ s.active.guards = [.lock 0 true] ∧ s.interruptFlag = false ∧
    s.step .drop = .ok s₁ ∧ Relation.ReflTransGen Advances s₁ s' ∧ s'.active.guards = [] ∧
    s'.held = 0 ∧ (∀ l, s'.locked l = false) ∧ s'.interruptFlag = true := by
  have hrun : ∃ s : Core (Fin 2) (Fin 2), s.Reached 0 ∧ s.held = 1 ∧
      s.locked 0 = true ∧ s.active = ⟨.outside, [.lock 0 true], true⟩ := by
    have h₀ : (boot 0 : Core (Fin 2) (Fin 2)).Reached 0 := .refl
    have h₁ := h₀.next .enable ⟨rfl, rfl, rfl⟩ rfl
    have h₂ := h₁.next (.acquire (some 0)) ⟨rfl, nofun⟩ rfl
    have h₃ := h₂.next .advance nofun rfl
    have h₄ := h₃.next .timer rfl rfl
    have h₅ := h₄.next (.iret none) ⟨rfl, rfl, nofun, nofun⟩ rfl
    have h₆ := h₅.next .advance nofun rfl
    have h₇ := h₆.next .advance nofun rfl
    have h₈ := h₇.next .advance nofun rfl
    exact ⟨_, h₈, rfl, rfl, rfl⟩
  obtain ⟨s, hs, hheld, hlocked, hactive⟩ := hrun
  have hguards : s.active.guards = [.lock 0 true] := by rw [hactive]
  obtain ⟨hoff, -, -, -, -, -, hdrop⟩ := lock_discipline (by decide) hs
  obtain ⟨s₁, s', hstep, hend, hactive', hheld', hlocked', hflag'⟩ :=
    hdrop _ _ (by rw [hactive]) hguards
  refine ⟨s, s₁, s', hs, hheld, hlocked, hguards, hoff (.inl ⟨0, hlocked⟩), hstep, hend,
    by rw [hactive'], hheld', fun l => ?_, by rw [hflag', hactive]; rfl⟩
  exact Bool.eq_false_iff.mpr fun hl => List.not_mem_nil ((hlocked' l).mp hl)

end Core

end Kernel

end ParanukOS
