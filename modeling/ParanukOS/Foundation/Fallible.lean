import ParanukOS.Foundation.Loops

/-!
# Programs that return an error

A `Fallible ε α` is a checked program that returns a result or an error of type `ε`, as functions do
that use `?`: the first error ends the program.  `Returns x a` says that `x` returns the value `a`;
the lemmas about it take a program that returns apart, from the first statement on.
-/

namespace Foundation

/-- A checked program that returns a value or an error. -/
abbrev Fallible (ε α : Type) := ExceptT ε Checked α

namespace Fallible

variable {ε α β σ : Type}

/-- Return the error if the proposition holds. -/
def throwIf (p : Prop) [Decidable p] (e : ε) : Fallible ε Unit := if p then throw e else pure ()

/-- The value of an option, or the error (`ok_or`). -/
def okOr (x : Option α) (e : ε) : Fallible ε α :=
  match x with
  | none => throw e
  | some a => pure a

/-- Convert the error. -/
def mapError {ε' : Type} (f : ε → ε') (x : Fallible ε α) : Fallible ε' α :=
  ExceptT.mk ((Except.mapError f) <$> x.run)

/-- The program returns the value. -/
def Returns (x : Fallible ε α) (a : α) : Prop := x.run = .ok (.ok a)

@[simp] lemma returns_pure {a b : α} : Returns (pure a : Fallible ε α) b ↔ a = b := by
  simp [Returns, pure, Except.pure, ExceptT.run, ExceptT.pure, ExceptT.mk]

@[simp] lemma not_returns_throw {e : ε} {a : α} : ¬ Returns (throw e : Fallible ε α) a := by
  simp [Returns, throw, throwThe, MonadExceptOf.throw, ExceptT.run, ExceptT.mk, pure, Except.pure]

/-- A sequence returns when both of its parts do. -/
@[simp] lemma returns_bind {x : Fallible ε α} {f : α → Fallible ε β} {b : β} :
    Returns (x >>= f) b ↔ ∃ a, Returns x a ∧ Returns (f a) b := by
  constructor
  · intro h
    have hrun : (x.run >>= ExceptT.bindCont f) = .ok (.ok b) := h
    obtain ⟨r, hx, hf⟩ := Checked.bind_eq_ok.mp hrun
    cases r with
    | error e => exact absurd hf (by simp [ExceptT.bindCont])
    | ok a => exact ⟨a, hx, hf⟩
  · rintro ⟨a, hx, hf⟩
    have hrun : (x.run >>= ExceptT.bindCont f) = .ok (.ok b) := by
      rw [show x.run = .ok (.ok a) from hx]
      exact hf
    exact hrun

/-- A checked computation inside of a fallible program. -/
@[simp] lemma returns_lift {c : Checked α} {a : α} :
    Returns (liftM c : Fallible ε α) a ↔ c = .ok a := by
  cases c <;>
    simp [Returns, liftM, monadLift, MonadLift.monadLift, ExceptT.lift, ExceptT.run, ExceptT.mk,
      Functor.map, Except.map]

@[simp] lemma returns_throwIf {p : Prop} [Decidable p] {e : ε} {u : Unit} :
    Returns (throwIf p e) u ↔ ¬ p := by
  unfold throwIf
  split_ifs with h <;> simp [h]

@[simp] lemma returns_okOr {x : Option α} {e : ε} {a : α} :
    Returns (okOr x e) a ↔ x = some a := by
  cases x <;> simp [okOr]

@[simp] lemma returns_ofExcept {x : Except ε α} {a : α} :
    Returns (ofExcept x : Fallible ε α) a ↔ x = .ok a := by
  cases x <;> simp [ofExcept]

@[simp] lemma returns_mk {x : Checked (Except ε α)} {a : α} :
    Returns (ExceptT.mk x) a ↔ x = .ok (.ok a) := Iff.rfl

@[simp] lemma returns_mapError {ε' : Type} {f : ε → ε'} {x : Fallible ε α} {a : α} :
    Returns (mapError f x) a ↔ Returns x a := by
  have hrun : (mapError f x).run = Except.map (Except.mapError f) x.run := rfl
  rw [Returns, Returns, hrun]
  cases x.run with
  | error e => simp [Except.map]
  | ok r => cases r <;> simp [Except.map, Except.mapError]

/-- The program returns a value with the property. -/
def returnsAnd (x : Fallible ε α) (p : α → Bool) : Bool :=
  match x.run with
  | .ok (.ok a) => p a
  | _ => false

lemma returnsAnd_eq_true_iff {x : Fallible ε α} {p : α → Bool} :
    x.returnsAnd p = true ↔ ∃ a, Returns x a ∧ p a = true := by
  unfold returnsAnd Returns
  split
  · next a ha => simp [ha]
  · next hne => simpa using fun a ha => absurd ha (hne a)

/-- The program returns the error. -/
def Throws (x : Fallible ε α) (e : ε) : Prop := x.run = .ok (.error e)

@[simp] lemma not_throws_pure {a : α} {e : ε} : ¬ Throws (pure a : Fallible ε α) e := by
  simp [Throws, pure, Except.pure, ExceptT.run, ExceptT.pure, ExceptT.mk]

@[simp] lemma throws_throw {e e' : ε} : Throws (throw e : Fallible ε α) e' ↔ e = e' := by
  simp [Throws, throw, throwThe, MonadExceptOf.throw, ExceptT.run, ExceptT.mk, pure, Except.pure]

/-- A sequence returns the error of its first part, or of the second one. -/
@[simp] lemma throws_bind {x : Fallible ε α} {f : α → Fallible ε β} {e : ε} :
    Throws (x >>= f) e ↔ Throws x e ∨ ∃ a, Returns x a ∧ Throws (f a) e := by
  have hrun : (x >>= f).run = (x.run >>= ExceptT.bindCont f) := rfl
  rw [Throws, Throws, hrun]
  cases hx : x.run with
  | error panic => simp [Returns, hx]
  | ok r =>
    cases r with
    | error e' => simp [Returns, hx, ExceptT.bindCont, pure, Except.pure]
    | ok a =>
      have hreturns : ∀ b, Returns x b ↔ a = b := fun b => by
        rw [Returns, hx]
        simp
      simp only [hreturns, exists_eq_left', reduceCtorEq, Except.ok.injEq, false_or]
      exact Iff.rfl

@[simp] lemma throws_throwIf {p : Prop} [Decidable p] {e e' : ε} :
    Throws (throwIf p e) e' ↔ p ∧ e = e' := by
  unfold throwIf
  split_ifs with h <;> simp [h]

@[simp] lemma throws_okOr {x : Option α} {e e' : ε} :
    Throws (okOr x e) e' ↔ x = none ∧ e = e' := by
  cases x <;> simp [okOr]

@[simp] lemma lift_ok (a : α) : (liftM (Except.ok a : Checked α) : Fallible ε α) = pure a := rfl

lemma throwIf_of {p : Prop} [Decidable p] {e : ε} (h : p) : throwIf p e = throw e := if_pos h

lemma throwIf_of_not {p : Prop} [Decidable p] {e : ε} (h : ¬ p) :
    throwIf p e = (pure () : Fallible ε Unit) := if_neg h

/-! ## Programs that run to their end -/

/-- The program returns a value or an error. -/
def Total (x : Fallible ε α) : Prop := ∃ r, x.run = .ok r

@[simp] lemma total_pure {a : α} : Total (pure a : Fallible ε α) := ⟨_, rfl⟩

@[simp] lemma total_throw {e : ε} : Total (throw e : Fallible ε α) := ⟨_, rfl⟩

@[simp] lemma total_throwIf {p : Prop} [Decidable p] {e : ε} : Total (throwIf p e) := by
  unfold throwIf
  split_ifs <;> simp

@[simp] lemma total_okOr {x : Option α} {e : ε} : Total (okOr x e) := by
  cases x <;> simp [okOr]

lemma total_lift {c : Checked α} {a : α} (h : c = .ok a) : Total (liftM c : Fallible ε α) := by
  rw [h, lift_ok]
  exact total_pure

/-- A sequence runs to its end when both of its parts do. -/
lemma total_bind {x : Fallible ε α} {f : α → Fallible ε β} (hx : Total x)
    (hf : ∀ a, Returns x a → Total (f a)) : Total (x >>= f) := by
  have hrun : (x >>= f).run = (x.run >>= ExceptT.bindCont f) := rfl
  obtain ⟨r, hr⟩ := hx
  rw [Total, hrun, hr, Checked.ok_bind]
  cases r with
  | error e => exact ⟨_, rfl⟩
  | ok a => exact hf a hr

/-- The invariant rule for a loop over a list that returns: the invariant speaks about the elements
done. -/
theorem foldlM_inv (P : List α → σ → Prop) {l : List α} {init s : σ}
    {body : σ → α → Fallible ε σ} (hinit : P [] init)
    (hbody : ∀ done a rest s s', l = done ++ a :: rest → P done s → Returns (body s a) s' →
      P (done ++ [a]) s')
    (h : Returns (l.foldlM body init) s) : P l s :=
  foldlM_inv_of_returns Returns (fun _ _ => returns_pure.mp) (fun _ _ _ => returns_bind.mp) P hinit
    hbody h

/-- A loop over a list returns if every round does, from any state. -/
theorem foldlM_returns {l : List α} {body : σ → α → Fallible ε σ}
    (h : ∀ a ∈ l, ∀ s, ∃ s', Returns (body s a) s') (init : σ) :
    ∃ s, Returns (l.foldlM body init) s := by
  induction l generalizing init with
  | nil => exact ⟨init, returns_pure.mpr rfl⟩
  | cons a l ih =>
    obtain ⟨s, hs⟩ := h a List.mem_cons_self init
    obtain ⟨s', hs'⟩ := ih (fun b hb => h b (List.mem_cons_of_mem a hb)) s
    exact ⟨s', returns_bind.mpr ⟨s, hs, hs'⟩⟩

/-- The rule for a loop that counts and returns: the invariant speaks about the number of rounds. -/
theorem foldlM_range_rule (n : ℕ) (init : σ) (body : σ → ℕ → Fallible ε σ) (P : ℕ → σ → Prop)
    (hinit : P 0 init)
    (hbody : ∀ k < n, ∀ s, P k s → ∃ s', Returns (body s k) s' ∧ P (k + 1) s') :
    ∃ s, Returns ((List.range n).foldlM body init) s ∧ P n s := by
  induction n with
  | zero => exact ⟨init, returns_pure.mpr rfl, hinit⟩
  | succ n ih =>
    obtain ⟨s, hs, hP⟩ := ih fun k hk => hbody k (Nat.lt_succ_of_lt hk)
    obtain ⟨s', hs', hP'⟩ := hbody n (Nat.lt_succ_self n) s hP
    refine ⟨s', ?_, hP'⟩
    rw [List.range_succ, List.foldlM_append, returns_bind]
    exact ⟨s, hs, returns_bind.mpr ⟨s', hs', returns_pure.mpr rfl⟩⟩

/-- A loop without a state returns if every round does. -/
theorem forM_returns {l : List α} {body : α → Fallible ε Unit}
    (h : ∀ a ∈ l, Returns (body a) ()) : Returns (l.forM body) () := by
  induction l with
  | nil => exact returns_pure.mpr rfl
  | cons a l ih =>
    refine returns_bind.mpr ⟨(), h a List.mem_cons_self, ih fun b hb => ?_⟩
    exact h b (List.mem_cons_of_mem a hb)

/-- The rule for what a loop over a list returns: `P` says it for the elements done, and one more
round continues it. -/
theorem foldlM_returns_iff (P : List α → σ → Prop) {l : List α} {init s : σ}
    {body : σ → α → Fallible ε σ} (hinit : ∀ s, P [] s ↔ init = s)
    (hbody : ∀ done a s', P (done ++ [a]) s' ↔ ∃ s, P done s ∧ Returns (body s a) s') :
    Returns (l.foldlM body init) s ↔ P l s := by
  induction l using List.reverseRecOn generalizing s with
  | nil => rw [List.foldlM_nil, returns_pure, hinit]
  | append_singleton done a ih =>
    rw [List.foldlM_append, returns_bind, hbody]
    simp only [ih, List.foldlM_cons, List.foldlM_nil, bind_pure]

/-- The rule for a loop over a list that runs to its end: the invariant speaks about the elements
done. -/
theorem foldlM_total (P : List α → σ → Prop) {l : List α} {init : σ} {body : σ → α → Fallible ε σ}
    (hinit : P [] init)
    (hbody : ∀ done a rest s, l = done ++ a :: rest → P done s →
      Total (body s a) ∧ ∀ s', Returns (body s a) s' → P (done ++ [a]) s') :
    Total (l.foldlM body init) := by
  have hsuffix : ∀ (rest done : List α) (s : σ), l = done ++ rest → P done s →
      Total (rest.foldlM body s) := by
    intro rest
    induction rest with
    | nil => exact fun _ _ _ _ => total_pure
    | cons a rest ih =>
      intro done s hl hP
      obtain ⟨htotal, hkept⟩ := hbody done a rest s hl hP
      rw [List.foldlM_cons]
      exact total_bind htotal fun s' hs' => ih (done ++ [a]) s' (by simpa using hl) (hkept s' hs')
  exact hsuffix l [] init rfl hinit

end Fallible

end Foundation
