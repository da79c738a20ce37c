import VowProtocol.Library.Transition

/-
  One component of a larger system.

  A component is read off the state. It is absent at first,
  some step creates it, and from then on it only moves by its
  own relation. What every creation establishes and every
  move keeps therefore holds of the component along every run
  of the system, whatever else the run does.

  Key definitions include:
    * `Transition.Component`

  Key theorems include:
    * `Transition.Component.run_invariant`
    * `Transition.Component.trace_invariant`
    * `Transition.Component.clocked_invariant`
-/

------------------------------------------------------------
-- Components
------------------------------------------------------------

namespace Transition

variable {S A C : Type}

/-
  The component that `view` reads off a state. `Sound` is an
  invariant of the system that the two step relations may
  rely on.
-/
structure Component
    (exec : S → A → Option S)
    (C : Type) where
  view : S → Option C
  Sound : S → Prop
  Birth : S → A → C → Prop
  Move : S → A → C → C → Prop
  sound :
    ∀ s a s', exec s a = some s' → Sound s → Sound s'
  born :
    ∀ s a s' c, exec s a = some s' → Sound s →
      view s = none → view s' = some c → Birth s a c
  moved :
    ∀ s a s' c, exec s a = some s' → Sound s →
      view s = some c →
      ∃ c', view s' = some c' ∧ Move s a c c'

namespace Component

variable {exec : S → A → Option S}
variable (m : Component exec C)

theorem run_sound
    {s : S}
    (hSound : m.Sound s)
    (actions : List A) :
    m.Sound (run exec s actions) := by
  have hStep :
      ∀ s a s', True → m.Sound s → exec s a = some s' →
        m.Sound s' := by
    intro s a s' _ hSound hExec
    exact m.sound s a s' hExec hSound
  exact Transition.run_invariant hStep hSound
    fun _ _ => trivial

/-
  What every creation establishes and every move keeps holds
  of the component after every run.
-/
theorem run_invariant
    {P : C → Prop}
    (hBirth : ∀ s a c, m.Birth s a c → P c)
    (hMove : ∀ s a c c', P c → m.Move s a c c' → P c')
    {s : S}
    (hSound : m.Sound s)
    (hInit : ∀ c, m.view s = some c → P c)
    (actions : List A) :
    ∀ c, m.view (run exec s actions) = some c → P c := by
  let Holds := fun s =>
    m.Sound s ∧ ∀ c, m.view s = some c → P c
  have hStep :
      ∀ s a s', True → Holds s → exec s a = some s' →
        Holds s' := by
    rintro s a s' - ⟨hSound, hHolds⟩ hExec
    refine ⟨m.sound s a s' hExec hSound, ?_⟩
    intro c' hAfter
    cases hBefore : m.view s with
    | none =>
        exact hBirth s a c'
          (m.born s a s' c' hExec hSound hBefore hAfter)
    | some c =>
        rcases m.moved s a s' c hExec hSound hBefore with
          ⟨next, hNext, hMoved⟩
        rw [hAfter] at hNext
        rw [Option.some.inj hNext]
        exact hMove s a c next (hHolds c hBefore) hMoved
  have hRun : Holds (run exec s actions) :=
    Transition.run_invariant hStep ⟨hSound, hInit⟩
      fun _ _ => trivial
  exact hRun.2

/-
  A component that exists keeps existing, and keeps what the
  admissible steps keep, along a run that takes no other.
-/
theorem trace_invariant
    {P : C → Prop}
    {Admissible : Occurrence S A → Prop}
    (hMove :
      ∀ s a s' c c', m.view s = some c → P c →
        m.Move s a c c' → Admissible ⟨s, a, s'⟩ → P c')
    {s : S}
    {c : C}
    (hSound : m.Sound s)
    (hView : m.view s = some c)
    (hInit : P c)
    {actions : List A}
    (hAdmissible :
      ∀ o ∈ trace exec s actions, Admissible o) :
    (∀ o ∈ trace exec s actions,
      ∃ c, m.view o.before = some c ∧ P c) ∧
      ∃ c, m.view (run exec s actions) = some c ∧ P c := by
  let Holds := fun s =>
    m.Sound s ∧ ∃ c, m.view s = some c ∧ P c
  have hStep :
      ∀ s a s', Holds s → exec s a = some s' →
        Admissible ⟨s, a, s'⟩ → Holds s' := by
    rintro s a s' ⟨hSound, c, hView, hHolds⟩ hExec hStep
    rcases m.moved s a s' c hExec hSound hView with
      ⟨c', hAfter, hMoved⟩
    exact ⟨m.sound s a s' hExec hSound, c', hAfter,
      hMove s a s' c c' hView hHolds hMoved hStep⟩
  have hRun :=
    Transition.trace_invariant hStep
      (show Holds s from ⟨hSound, c, hView, hInit⟩)
      hAdmissible
  refine ⟨?_, hRun.2.2⟩
  intro o ho
  exact (hRun.1 o ho).2

/-
  Invariants of a component over the history of a run with a
  clock. The steps that create and move the component are
  those of the history.
-/
theorem clocked_invariant
    {T : Type} [Preorder T]
    (time : A → T)
    {Admissible : Occurrence S A → Prop}
    {P : List (Occurrence S A) → C → T → Prop}
    (hLater :
      ∀ steps c t t', P steps c t → t ≤ t' → P steps c t')
    (hBirth :
      ∀ steps s a s' c, m.view s = none →
        m.view s' = some c → m.Birth s a c →
        Admissible ⟨s, a, s'⟩ →
        P (steps ++ [⟨s, a, s'⟩]) c (time a))
    (hMove :
      ∀ steps s a s' c c', m.view s = some c →
        m.view s' = some c' → m.Move s a c c' →
        Admissible ⟨s, a, s'⟩ → P steps c (time a) →
        P (steps ++ [⟨s, a, s'⟩]) c' (time a))
    {s : S}
    {t : T}
    (hSound : m.Sound s)
    (hInit : m.view s = none)
    {actions : List A}
    (hFuture : ∀ a ∈ actions, t ≤ time a)
    (hClock :
      actions.Pairwise (fun a b => time a ≤ time b))
    (hAdmissible :
      ∀ o ∈ trace exec s actions, Admissible o) :
    ∃ t', (t' = t ∨ ∃ a ∈ actions, t' = time a) ∧
      ∀ c, m.view (run exec s actions) = some c →
        P (trace exec s actions) c t' := by
  let Holds := fun steps s t =>
    m.Sound s ∧ ∀ c, m.view s = some c → P steps c t
  have hWait :
      ∀ steps s t t', Holds steps s t → t ≤ t' →
        Holds steps s t' := by
    rintro steps s t t' ⟨hSound, hHolds⟩ hLe
    refine ⟨hSound, ?_⟩
    intro c hView
    exact hLater steps c t t' (hHolds c hView) hLe
  have hStep :
      ∀ steps s a s', Holds steps s (time a) →
        exec s a = some s' → Admissible ⟨s, a, s'⟩ →
        Holds (steps ++ [⟨s, a, s'⟩]) s' (time a) := by
    rintro steps s a s' ⟨hSound, hHolds⟩ hExec hStep
    refine ⟨m.sound s a s' hExec hSound, ?_⟩
    intro c' hAfter
    cases hBefore : m.view s with
    | none =>
        exact hBirth steps s a s' c' hBefore hAfter
          (m.born s a s' c' hExec hSound hBefore hAfter)
          hStep
    | some c =>
        rcases m.moved s a s' c hExec hSound hBefore with
          ⟨next, hNext, hMoved⟩
        rw [hAfter] at hNext
        rw [← Option.some.inj hNext] at hMoved
        exact hMove steps s a s' c c' hBefore hAfter hMoved
          hStep (hHolds c hBefore)
  have hStart : Holds [] s t := by
    refine ⟨hSound, ?_⟩
    intro c hView
    rw [hInit] at hView
    exact absurd hView (by simp)
  rcases trace_clocked_invariant time hWait hStep hStart
    hFuture hClock hAdmissible with ⟨t', hLast, hEnd⟩
  exact ⟨t', hLast, hEnd.2⟩

end Component

end Transition
