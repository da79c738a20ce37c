import Mathlib.Logic.Basic

/-
  Early-exit computations over `Except`.

  `require` is a guard and `okOr` unwraps an optional value.
  The inversion lemmas turn a successful computation into the
  chain of facts that made every step of it succeed. The
  `Avoids` rules show that a computation never fails with one
  particular error.

  Key definitions include:
    * `Fallible.require`
    * `Fallible.okOr`
    * `Fallible.Avoids`

  Key theorems include:
    * `Fallible.bind_eq_ok_iff`
    * `Fallible.require_eq_ok_iff`
    * `Fallible.okOr_eq_ok_iff`
    * `Fallible.bind_eq_error_iff`
    * `Fallible.Avoids.bind`
-/

------------------------------------------------------------
-- Guards
------------------------------------------------------------

namespace Fallible

variable {ε α β : Type}

/- Fail with `e` unless `c` holds. -/
def require
    (c : Prop) [Decidable c]
    (e : ε) :
    Except ε Unit :=
  if c then .ok () else .error e

/- The value of an option, or the error `e`. -/
def okOr
    (o : Option α)
    (e : ε) :
    Except ε α :=
  match o with
  | some a => .ok a
  | none => .error e

/- A successful head hands its value on. -/
theorem ok_bind
    (a : α)
    (f : α → Except ε β) :
    ((.ok a : Except ε α) >>= f) = f a := rfl

theorem require_of_holds
    {c : Prop} [Decidable c]
    (hHolds : c)
    (e : ε) :
    require c e = .ok () :=
  if_pos hHolds

theorem require_of_fails
    {c : Prop} [Decidable c]
    (hFails : ¬c)
    (e : ε) :
    require c e = .error e :=
  if_neg hFails

/- A sequence succeeds when both parts do. -/
theorem bind_eq_ok_iff
    {x : Except ε α}
    {f : α → Except ε β}
    {b : β} :
    (x >>= f) = .ok b ↔ ∃ a, x = .ok a ∧ f a = .ok b := by
  cases x with
  | error e =>
      constructor
      · intro hOk
        exact absurd hOk (by simp [bind, Except.bind])
      · rintro ⟨a, hOk, _⟩
        exact absurd hOk (by simp)
  | ok a => simp [bind, Except.bind]

theorem require_eq_ok_iff
    {c : Prop} [Decidable c]
    {e : ε}
    {u : Unit} :
    require c e = .ok u ↔ c := by
  by_cases hc : c
  · simp [require, hc]
  · simp [require, hc]

theorem okOr_eq_ok_iff
    {o : Option α}
    {e : ε}
    {a : α} :
    okOr o e = .ok a ↔ o = some a := by
  cases o with
  | none => simp [okOr]
  | some b => simp [okOr]

theorem pure_eq_ok_iff
    {a b : α} :
    (pure a : Except ε α) = .ok b ↔ a = b := by
  simp [pure, Except.pure]

/- A sequence fails in its first part or in its second. -/
theorem bind_eq_error_iff
    {x : Except ε α}
    {f : α → Except ε β}
    {e : ε} :
    (x >>= f) = .error e ↔
      x = .error e ∨ ∃ a, x = .ok a ∧ f a = .error e := by
  cases x with
  | error e' => simp [bind, Except.bind]
  | ok a => simp [bind, Except.bind]

theorem require_eq_error_iff
    {c : Prop} [Decidable c]
    {e e' : ε} :
    require c e' = .error e ↔ ¬c ∧ e' = e := by
  by_cases hc : c
  · simp [require, hc]
  · simp [require, hc]

theorem okOr_eq_error_iff
    {o : Option α}
    {e e' : ε} :
    okOr o e' = .error e ↔ o = none ∧ e' = e := by
  cases o with
  | none => simp [okOr]
  | some b => simp [okOr]

theorem pure_ne_error
    {a : α}
    {e : ε} :
    ¬ (pure a : Except ε α) = .error e := by
  simp [pure, Except.pure]

theorem toOption_eq_some_iff
    {x : Except ε α}
    {a : α} :
    x.toOption = some a ↔ x = .ok a := by
  cases x with
  | error e => simp [Except.toOption]
  | ok b => simp [Except.toOption]

end Fallible

------------------------------------------------------------
-- Avoided Errors
------------------------------------------------------------

namespace Fallible

variable {ε α β : Type}

/- The computation does not fail with `e`. -/
def Avoids
    (e : ε)
    (x : Except ε α) :
    Prop :=
  x ≠ .error e

theorem Avoids.ok
    {e : ε}
    (a : α) :
    Avoids e (.ok a) := by
  simp [Avoids]

theorem Avoids.pure
    {e : ε}
    (a : α) :
    Avoids e (pure a : Except ε α) :=
  Avoids.ok a

/- The rest only has to avoid `e` when the head succeeds. -/
theorem Avoids.bind
    {e : ε}
    {x : Except ε α}
    {f : α → Except ε β}
    (hHead : Avoids e x)
    (hRest : ∀ a, x = .ok a → Avoids e (f a)) :
    Avoids e (x >>= f) := by
  cases x with
  | error e' =>
      intro hFail
      exact hHead
        (congrArg Except.error (Except.error.inj hFail))
  | ok a => exact hRest a rfl

/- A guard that holds never fails. -/
theorem Avoids.require
    {e e' : ε}
    {c : Prop} [Decidable c]
    (hGuard : c) :
    Avoids e (require c e') := by
  simp [Avoids, Fallible.require, hGuard]

/- A guard with another error never fails with `e`. -/
theorem Avoids.require_of_ne
    {e e' : ε}
    {c : Prop} [Decidable c]
    (hNe : e' ≠ e) :
    Avoids e (Fallible.require c e') := by
  by_cases hc : c
  · exact Avoids.require hc
  · simp [Avoids, Fallible.require, hc, hNe]

theorem Avoids.okOr_of_ne
    {e e' : ε}
    {o : Option α}
    (hNe : e' ≠ e) :
    Avoids e (okOr o e') := by
  cases o with
  | none => simp [Avoids, okOr, hNe]
  | some a => exact Avoids.ok a

end Fallible
