import Mathlib.Algebra.BigOperators.Group.List.Basic
import Mathlib.Algebra.Order.Monoid.Defs
import Mathlib.Order.Basic
import Mathlib.Data.List.Basic

/-
  Runs of a partial transition function.

  A step that fails leaves the state unchanged, as a reverted
  transaction does. `run` folds the step over a list of
  actions and `trace` records the steps that succeeded, with
  the states around them.

  Key definitions include:
    * `Transition.advance`
    * `Transition.run`
    * `Transition.Occurrence`
    * `Transition.trace`

  Key theorems include:
    * `Transition.run_invariant`
    * `Transition.run_invariant_within`
    * `Transition.trace_split`
    * `Transition.mem_trace_elim`
    * `Transition.trace_invariant`
    * `Transition.trace_clock`
    * `Transition.trace_clocked_invariant`
    * `Transition.trace_history_invariant`
    * `Transition.trace_charged`
-/

------------------------------------------------------------
-- Runs
------------------------------------------------------------

namespace Transition

variable {S A : Type}

/- One attempted step; a failed step changes nothing. -/
def advance
    (exec : S → A → Option S)
    (s : S)
    (a : A) :
    S :=
  (exec s a).getD s

/- The state after a list of attempted steps. -/
def run
    (exec : S → A → Option S)
    (s : S)
    (actions : List A) :
    S :=
  actions.foldl (advance exec) s

variable {exec : S → A → Option S}

@[simp] theorem run_nil
    (s : S) :
    run exec s [] = s := rfl

@[simp] theorem run_cons
    (s : S)
    (a : A)
    (actions : List A) :
    run exec s (a :: actions) =
      run exec (advance exec s a) actions := rfl

theorem advance_of_some
    {s s' : S}
    {a : A}
    (hExec : exec s a = some s') :
    advance exec s a = s' := by
  simp [advance, hExec]

theorem advance_of_none
    {s : S}
    {a : A}
    (hExec : exec s a = none) :
    advance exec s a = s := by
  simp [advance, hExec]

/-
  An invariant of every successful admissible step holds
  after every run of admissible steps.
-/
theorem run_invariant
    {P : S → Prop}
    {Admissible : A → Prop}
    (hStep :
      ∀ s a s', Admissible a → P s →
        exec s a = some s' → P s')
    {s : S}
    (hInit : P s)
    {actions : List A}
    (hActions : ∀ a ∈ actions, Admissible a) :
    P (run exec s actions) := by
  induction actions generalizing s with
  | nil => exact hInit
  | cons a actions ih =>
      rw [run_cons]
      have hTail : ∀ b ∈ actions, Admissible b := by
        intro b hb
        exact hActions b (List.mem_cons_of_mem _ hb)
      cases hExec : exec s a with
      | none =>
          rw [advance_of_none hExec]
          exact ih hInit hTail
      | some s' =>
          rw [advance_of_some hExec]
          have hHead : Admissible a :=
            hActions a List.mem_cons_self
          exact ih (hStep s a s' hHead hInit hExec) hTail

/-
  An invariant of the steps that end in a state satisfying
  `Q` holds after every run that stays inside `Q`.
-/
theorem run_invariant_within
    {P Q : S → Prop}
    {Admissible : A → Prop}
    (hStep :
      ∀ s a s', Admissible a → P s →
        exec s a = some s' → Q s' → P s')
    {s : S}
    (hInit : P s)
    {actions : List A}
    (hActions : ∀ a ∈ actions, Admissible a)
    (hWithin :
      ∀ first, first <+: actions → Q (run exec s first)) :
    P (run exec s actions) := by
  induction actions generalizing s with
  | nil => exact hInit
  | cons a actions ih =>
      rw [run_cons]
      have hTail : ∀ b ∈ actions, Admissible b := by
        intro b hb
        exact hActions b (List.mem_cons_of_mem _ hb)
      have hRest :
          ∀ first, first <+: actions →
            Q (run exec (advance exec s a) first) := by
        intro first hPrefix
        exact hWithin (a :: first)
          (List.cons_prefix_cons.mpr ⟨rfl, hPrefix⟩)
      refine ih ?_ hTail hRest
      cases hExec : exec s a with
      | none =>
          rw [advance_of_none hExec]
          exact hInit
      | some s' =>
          have hHead : Admissible a :=
            hActions a List.mem_cons_self
          have hAfter : Q s' := by
            have hNil := hRest [] (List.nil_prefix)
            rwa [run_nil, advance_of_some hExec] at hNil
          rw [advance_of_some hExec]
          exact hStep s a s' hHead hInit hExec hAfter

end Transition

------------------------------------------------------------
-- Traces
------------------------------------------------------------

namespace Transition

variable {S A : Type}

/- A successful step with the states around it. -/
structure Occurrence (S A : Type) where
  before : S
  action : A
  after : S

/- The successful steps of a run, oldest first. -/
def trace
    (exec : S → A → Option S) :
    S → List A → List (Occurrence S A)
| _, [] => []
| s, a :: actions =>
    match exec s a with
    | some s' => ⟨s, a, s'⟩ :: trace exec s' actions
    | none => trace exec s actions

variable {exec : S → A → Option S}

@[simp] theorem trace_nil
    (s : S) :
    trace exec s [] = [] := rfl

theorem trace_cons_of_some
    {s s' : S}
    {a : A}
    (hExec : exec s a = some s')
    (actions : List A) :
    trace exec s (a :: actions) =
      ⟨s, a, s'⟩ :: trace exec s' actions := by
  simp [trace, hExec]

theorem trace_cons_of_none
    {s : S}
    {a : A}
    (hExec : exec s a = none)
    (actions : List A) :
    trace exec s (a :: actions) = trace exec s actions := by
  simp [trace, hExec]

theorem trace_append
    (s : S)
    (first second : List A) :
    trace exec s (first ++ second) =
      trace exec s first ++
        trace exec (run exec s first) second := by
  induction first generalizing s with
  | nil => simp
  | cons a first ih =>
      cases hExec : exec s a with
      | none =>
          rw [List.cons_append, trace_cons_of_none hExec,
            trace_cons_of_none hExec, run_cons,
            advance_of_none hExec]
          exact ih s
      | some s' =>
          rw [List.cons_append, trace_cons_of_some hExec,
            trace_cons_of_some hExec, run_cons,
            advance_of_some hExec, List.cons_append, ih s']

/-
  The steps recorded before and after one step are those of
  the actions before and after it.
-/
theorem trace_split
    {s : S}
    {actions : List A}
    {past future : List (Occurrence S A)}
    {o : Occurrence S A}
    (hTrace : trace exec s actions = past ++ o :: future) :
    ∃ first second,
      actions = first ++ o.action :: second ∧
        past = trace exec s first ∧
        o.before = run exec s first ∧
        exec o.before o.action = some o.after ∧
        future = trace exec o.after second := by
  induction actions generalizing s past with
  | nil =>
      rw [trace_nil] at hTrace
      exact absurd hTrace.symm (by simp)
  | cons a actions ih =>
      cases hExec : exec s a with
      | none =>
          rw [trace_cons_of_none hExec] at hTrace
          rcases ih hTrace with
            ⟨first, second, hSplit, hPast, hBefore, hRest⟩
          refine ⟨a :: first, second, ?_, ?_, ?_, hRest⟩
          · rw [hSplit, List.cons_append]
          · rw [trace_cons_of_none hExec]
            exact hPast
          · rw [run_cons, advance_of_none hExec]
            exact hBefore
      | some s' =>
          rw [trace_cons_of_some hExec] at hTrace
          cases past with
          | nil =>
              rw [List.nil_append, List.cons.injEq] at hTrace
              rcases hTrace with ⟨hHead, hFuture⟩
              subst hHead
              exact ⟨[], actions, rfl, rfl, rfl, hExec,
                hFuture.symm⟩
          | cons head past =>
              rw [List.cons_append, List.cons.injEq] at hTrace
              rcases hTrace with ⟨hHead, hTail⟩
              rcases ih hTail with
                ⟨first, second, hSplit, hPast, hBefore,
                  hRest⟩
              refine ⟨a :: first, second, ?_, ?_, ?_, hRest⟩
              · rw [hSplit, List.cons_append]
              · rw [trace_cons_of_some hExec, ← hHead, hPast]
              · rw [run_cons, advance_of_some hExec]
                exact hBefore

/-
  Every recorded step is a successful step of the run, taken
  in the state that the actions before it reach.
-/
theorem mem_trace_elim
    {s : S}
    {actions : List A}
    {o : Occurrence S A}
    (hMem : o ∈ trace exec s actions) :
    ∃ first second,
      actions = first ++ o.action :: second ∧
        o.before = run exec s first ∧
        exec o.before o.action = some o.after := by
  rcases List.append_of_mem hMem with ⟨past, future, hTrace⟩
  rcases trace_split hTrace with
    ⟨first, second, hSplit, _, hBefore, hStep, _⟩
  exact ⟨first, second, hSplit, hBefore, hStep⟩

theorem mem_trace_exec
    {s : S}
    {actions : List A}
    {o : Occurrence S A}
    (hMem : o ∈ trace exec s actions) :
    exec o.before o.action = some o.after := by
  rcases mem_trace_elim hMem with
    ⟨first, second, _, _, hStep⟩
  exact hStep

/- A recorded step is the first action or a later one. -/
theorem mem_trace_cons
    {s : S}
    {a : A}
    {actions : List A}
    {o : Occurrence S A}
    (hMem : o ∈ trace exec s (a :: actions)) :
    (o.before = s ∧ o.action = a) ∨
      o ∈ trace exec (advance exec s a) actions := by
  cases hExec : exec s a with
  | none =>
      rw [trace_cons_of_none hExec] at hMem
      rw [advance_of_none hExec]
      exact Or.inr hMem
  | some s' =>
      rw [trace_cons_of_some hExec, List.mem_cons] at hMem
      rw [advance_of_some hExec]
      rcases hMem with hHead | hTail
      · subst hHead
        exact Or.inl ⟨rfl, rfl⟩
      · exact Or.inr hTail

/- A successful last step is recorded last. -/
theorem trace_concat_of_some
    {s s' : S}
    {first : List A}
    {a : A}
    (hExec : exec (run exec s first) a = some s') :
    trace exec s (first ++ [a]) =
      trace exec s first ++ [⟨run exec s first, a, s'⟩] := by
  rw [trace_append, trace_cons_of_some hExec, trace_nil]

theorem mem_trace_last
    {s s' : S}
    {first : List A}
    {a : A}
    (hExec : exec (run exec s first) a = some s') :
    ⟨run exec s first, a, s'⟩ ∈
      trace exec s (first ++ [a]) := by
  rw [trace_concat_of_some hExec]
  exact List.mem_append_right _ List.mem_cons_self

/- A recorded step is one of the actions of the run. -/
theorem mem_trace_action
    {s : S}
    {actions : List A}
    {o : Occurrence S A}
    (hMem : o ∈ trace exec s actions) :
    o.action ∈ actions := by
  rcases mem_trace_elim hMem with ⟨first, second, hSplit, _, _⟩
  rw [hSplit]
  exact List.mem_append_right _ List.mem_cons_self

/-
  An invariant of the admissible steps holds before every
  step, and at the end, of a run that takes no other.
-/
theorem trace_invariant
    {P : S → Prop}
    {Admissible : Occurrence S A → Prop}
    (hStep :
      ∀ s a s', P s → exec s a = some s' →
        Admissible ⟨s, a, s'⟩ → P s')
    {s : S}
    (hInit : P s)
    {actions : List A}
    (hAdmissible :
      ∀ o ∈ trace exec s actions, Admissible o) :
    (∀ o ∈ trace exec s actions, P o.before) ∧
      P (run exec s actions) := by
  induction actions generalizing s with
  | nil =>
      refine ⟨?_, hInit⟩
      intro o ho
      exact absurd ho (by simp)
  | cons a actions ih =>
      cases hExec : exec s a with
      | none =>
          rw [trace_cons_of_none hExec] at hAdmissible ⊢
          rw [run_cons, advance_of_none hExec]
          exact ih hInit hAdmissible
      | some s' =>
          rw [trace_cons_of_some hExec] at hAdmissible ⊢
          rw [run_cons, advance_of_some hExec]
          have hHead :=
            hStep s a s' hInit hExec
              (hAdmissible _ List.mem_cons_self)
          have hTail :
              ∀ o ∈ trace exec s' actions,
                Admissible o := by
            intro o ho
            exact hAdmissible o (List.mem_cons_of_mem _ ho)
          rcases ih hHead hTail with ⟨hBefore, hEnd⟩
          refine ⟨?_, hEnd⟩
          intro o ho
          rcases List.mem_cons.mp ho with hFirst | hLater
          · subst hFirst
            exact hInit
          · exact hBefore o hLater

/- A clock that never goes back orders the recorded steps. -/
theorem trace_clock
    {T : Type} [Preorder T]
    {time : A → T}
    {s : S}
    {actions : List A}
    {past future : List (Occurrence S A)}
    {o : Occurrence S A}
    (hClock :
      actions.Pairwise (fun a b => time a ≤ time b))
    (hTrace : trace exec s actions = past ++ o :: future) :
    ∀ later ∈ future, time o.action ≤ time later.action := by
  rcases trace_split hTrace with
    ⟨first, second, hSplit, _, _, _, hFuture⟩
  intro later hLater
  rw [hFuture] at hLater
  rw [hSplit, List.pairwise_append] at hClock
  exact List.rel_of_pairwise_cons hClock.2.1
    (mem_trace_action hLater)

/-
  Invariants over the history of a run with a clock.  `P`
  relates the steps taken so far, the current state and a
  time no later step may precede.
-/
theorem trace_clocked_invariant
    {T : Type} [Preorder T]
    (time : A → T)
    {Admissible : Occurrence S A → Prop}
    {P : List (Occurrence S A) → S → T → Prop}
    (hLater :
      ∀ steps s t t', P steps s t → t ≤ t' → P steps s t')
    (hStep :
      ∀ steps s a s', P steps s (time a) →
        exec s a = some s' → Admissible ⟨s, a, s'⟩ →
        P (steps ++ [⟨s, a, s'⟩]) s' (time a))
    {actions : List A}
    {steps : List (Occurrence S A)}
    {s : S}
    {t : T}
    (hInit : P steps s t)
    (hFuture : ∀ a ∈ actions, t ≤ time a)
    (hClock :
      actions.Pairwise (fun a b => time a ≤ time b))
    (hAdmissible :
      ∀ o ∈ trace exec s actions, Admissible o) :
    ∃ t', (t' = t ∨ ∃ a ∈ actions, t' = time a) ∧
      P (steps ++ trace exec s actions)
        (run exec s actions) t' := by
  induction actions generalizing steps s t with
  | nil =>
      refine ⟨t, Or.inl rfl, ?_⟩
      simpa using hInit
  | cons a actions ih =>
      rw [List.pairwise_cons] at hClock
      have hNow : P steps s (time a) :=
        hLater steps s t (time a) hInit
          (hFuture a List.mem_cons_self)
      have hWithin :
          ∀ t', (t' = time a ∨
              ∃ b ∈ actions, t' = time b) →
            t' = t ∨ ∃ b ∈ a :: actions, t' = time b := by
        intro t' hLast
        rcases hLast with hHead | ⟨b, hb, hTail⟩
        · exact Or.inr ⟨a, List.mem_cons_self, hHead⟩
        · exact Or.inr ⟨b, List.mem_cons_of_mem _ hb, hTail⟩
      cases hExec : exec s a with
      | none =>
          rw [trace_cons_of_none hExec] at hAdmissible ⊢
          rw [run_cons, advance_of_none hExec]
          rcases ih hNow hClock.1 hClock.2 hAdmissible with
            ⟨t', hLast, hEnd⟩
          exact ⟨t', hWithin t' hLast, hEnd⟩
      | some s' =>
          rw [trace_cons_of_some hExec] at hAdmissible ⊢
          rw [run_cons, advance_of_some hExec]
          have hHead :=
            hStep steps s a s' hNow hExec
              (hAdmissible _ List.mem_cons_self)
          have hTail :
              ∀ o ∈ trace exec s' actions,
                Admissible o := by
            intro o ho
            exact hAdmissible o (List.mem_cons_of_mem _ ho)
          rcases ih hHead hClock.1 hClock.2 hTail with
            ⟨t', hLast, hEnd⟩
          refine ⟨t', hWithin t' hLast, ?_⟩
          simpa [List.append_assoc] using hEnd

/- The same without a clock. -/
theorem trace_history_invariant
    {Admissible : Occurrence S A → Prop}
    {P : List (Occurrence S A) → S → Prop}
    (hStep :
      ∀ steps s a s', P steps s → exec s a = some s' →
        Admissible ⟨s, a, s'⟩ →
        P (steps ++ [⟨s, a, s'⟩]) s')
    {actions : List A}
    {s : S}
    (hInit : P [] s)
    (hAdmissible :
      ∀ o ∈ trace exec s actions, Admissible o) :
    P (trace exec s actions) (run exec s actions) := by
  have hClocked :=
    @trace_clocked_invariant S A exec Unit _ (fun _ => ())
      Admissible (fun steps s _ => P steps s)
      (fun _ _ _ _ hHolds _ => hHolds) hStep actions [] s ()
      hInit (fun _ _ => le_refl ())
      (List.pairwise_of_forall fun _ _ => le_refl ())
      hAdmissible
  rcases hClocked with ⟨_, _, hEnd⟩
  exact hEnd

end Transition

------------------------------------------------------------
-- Charges
------------------------------------------------------------

namespace Transition

variable {S A M : Type} [AddCommMonoid M] [PartialOrder M]
  [IsOrderedAddMonoid M]

/-
  When every step pays out of a potential, up to what it adds
  to it, a run pays out of the first potential and all that
  was added.
-/
theorem trace_charged
    {exec : S → A → Option S}
    {potential : S → M}
    {paid added : Occurrence S A → M}
    (hStep :
      ∀ s a s', exec s a = some s' →
        paid ⟨s, a, s'⟩ + potential s' ≤
          potential s + added ⟨s, a, s'⟩)
    (s : S)
    (actions : List A) :
    ((trace exec s actions).map paid).sum +
        potential (run exec s actions) ≤
      potential s +
        ((trace exec s actions).map added).sum := by
  induction actions generalizing s with
  | nil => simp
  | cons a actions ih =>
      cases hExec : exec s a with
      | none =>
          rw [trace_cons_of_none hExec, run_cons,
            advance_of_none hExec]
          exact ih s
      | some s' =>
          rw [trace_cons_of_some hExec, run_cons,
            advance_of_some hExec, List.map_cons,
            List.sum_cons, List.map_cons, List.sum_cons,
            add_assoc, ← add_assoc (potential s)]
          calc
            _ ≤ paid ⟨s, a, s'⟩ + (potential s' +
                ((trace exec s' actions).map added).sum) :=
                add_le_add_right (ih s') _
            _ ≤ _ := by
                rw [← add_assoc]
                exact add_le_add_left (hStep s a s' hExec) _

end Transition
