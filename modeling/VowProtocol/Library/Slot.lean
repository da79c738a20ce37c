import Mathlib.Data.List.Forall2
import VowProtocol.Library.Transition

/-
  A place that is empty or holds one message.

  Some steps put a message into the empty place and others
  take it out; all other steps leave it alone. Over every run
  the messages are taken in the order in which they were put,
  each of them once and unchanged, and at most the last one
  is still there.

  Key definitions include:
    * `Transition.Slot`
    * `Transition.Slot.Handed`
    * `Transition.Slot.Paired`

  Key theorems include:
    * `Transition.Slot.trace_paired`
-/

------------------------------------------------------------
-- Slots
------------------------------------------------------------

namespace Transition

variable {S A M : Type}

/-
  The place that `view` reads off a state. `Put` and `Take`
  say what a step that fills or empties it guarantees about
  the message.
-/
structure Slot
    (exec : S → A → Option S)
    (M : Type) where
  view : S → Option M
  puts : A → Bool
  takes : A → Bool
  Put : Occurrence S A → M → Prop
  Take : Occurrence S A → M → Prop
  kept :
    ∀ s a s', exec s a = some s' → puts a = false →
      takes a = false → view s' = view s
  filled :
    ∀ s a s', exec s a = some s' → puts a = true →
      view s = none ∧
        ∃ m, view s' = some m ∧ Put ⟨s, a, s'⟩ m
  emptied :
    ∀ s a s', exec s a = some s' → takes a = true →
      view s' = none ∧
        ∃ m, view s = some m ∧ Take ⟨s, a, s'⟩ m

namespace Slot

variable {exec : S → A → Option S}
variable (slot : Slot exec M)

/- The second step takes the message that the first one put. -/
def Handed
    (put take : Occurrence S A) :
    Prop :=
  ∃ m, slot.Put put m ∧ slot.Take take m

/- The message that is still there, and the step that put it. -/
def Holds
    (pending : List (Occurrence S A))
    (s : S) :
    Prop :=
  (pending = [] ∧ slot.view s = none) ∨
    ∃ o m, pending = [o] ∧ slot.view s = some m ∧
      slot.Put o m

def filling
    (history : List (Occurrence S A)) :
    List (Occurrence S A) :=
  history.filter fun o => slot.puts o.action

def emptying
    (history : List (Occurrence S A)) :
    List (Occurrence S A) :=
  history.filter fun o => slot.takes o.action

/-
  Every message of the history was taken by its own step, in
  order, except for the one that is still there.
-/
def Paired
    (history : List (Occurrence S A))
    (s : S) :
    Prop :=
  ∃ settled pending,
    slot.filling history = settled ++ pending ∧
      List.Forall₂ slot.Handed settled
        (slot.emptying history) ∧
      slot.Holds pending s

variable {slot}

theorem filling_concat
    (history : List (Occurrence S A))
    (o : Occurrence S A) :
    slot.filling (history ++ [o]) =
      slot.filling history ++
        if slot.puts o.action then [o] else [] := by
  unfold filling
  rw [List.filter_append]
  by_cases hPuts : slot.puts o.action = true
  · simp [hPuts]
  · simp [hPuts]

theorem emptying_concat
    (history : List (Occurrence S A))
    (o : Occurrence S A) :
    slot.emptying (history ++ [o]) =
      slot.emptying history ++
        if slot.takes o.action then [o] else [] := by
  unfold emptying
  rw [List.filter_append]
  by_cases hTakes : slot.takes o.action = true
  · simp [hTakes]
  · simp [hTakes]

/- No step both fills and empties the place. -/
theorem takes_of_puts
    {s s' : S}
    {a : A}
    (hExec : exec s a = some s')
    (hPuts : slot.puts a = true) :
    slot.takes a = false := by
  by_contra hTakes
  rw [Bool.not_eq_false] at hTakes
  rcases slot.filled s a s' hExec hPuts with ⟨hEmpty, _⟩
  rcases slot.emptied s a s' hExec hTakes with
    ⟨_, m, hFull, _⟩
  rw [hEmpty] at hFull
  exact absurd hFull (by simp)

theorem Paired.step
    {history : List (Occurrence S A)}
    {s s' : S}
    {a : A}
    (hPaired : slot.Paired history s)
    (hExec : exec s a = some s') :
    slot.Paired (history ++ [⟨s, a, s'⟩]) s' := by
  rcases hPaired with ⟨settled, pending, hPut, hTaken, hHolds⟩
  unfold Paired
  rw [filling_concat, emptying_concat]
  by_cases hPuts : slot.puts a = true
  · -- The place was empty, so nothing was pending.
    have hTakes := takes_of_puts hExec hPuts
    rcases slot.filled s a s' hExec hPuts with
      ⟨hEmpty, m, hFull, hMessage⟩
    rcases hHolds with ⟨hNone, _⟩ | ⟨o, m', _, hSome, _⟩
    · subst hNone
      rw [List.append_nil] at hPut
      refine ⟨settled, [⟨s, a, s'⟩], ?_, ?_, ?_⟩
      · rw [if_pos hPuts, hPut]
      · simpa [hTakes] using hTaken
      · exact Or.inr ⟨_, m, rfl, hFull, hMessage⟩
    · rw [hEmpty] at hSome
      exact absurd hSome (by simp)
  · rw [Bool.not_eq_true] at hPuts
    by_cases hTakes : slot.takes a = true
    · -- The one pending message is the one that is taken.
      rcases slot.emptied s a s' hExec hTakes with
        ⟨hEmpty, m, hFull, hMessage⟩
      rcases hHolds with ⟨_, hNone⟩ | ⟨o, m', hOne, hSome, hO⟩
      · rw [hNone] at hFull
        exact absurd hFull (by simp)
      · rw [hSome, Option.some.injEq] at hFull
        subst hOne hFull
        refine ⟨settled ++ [o], [], ?_, ?_, ?_⟩
        · simpa [hPuts] using hPut
        · rw [if_pos hTakes]
          exact List.rel_append hTaken
            (.cons ⟨m', hO, hMessage⟩ .nil)
        · exact Or.inl ⟨rfl, hEmpty⟩
    · rw [Bool.not_eq_true] at hTakes
      have hSame := slot.kept s a s' hExec hPuts hTakes
      refine ⟨settled, pending, ?_, ?_, ?_⟩
      · simpa [hPuts] using hPut
      · simpa [hTakes] using hTaken
      · unfold Holds
        rw [hSame]
        exact hHolds

/- So it is along every run from an empty place. -/
theorem trace_paired
    {s : S}
    (hEmpty : slot.view s = none)
    (actions : List A) :
    slot.Paired (trace exec s actions)
      (run exec s actions) := by
  have hInit : slot.Paired [] s :=
    ⟨[], [], rfl, .nil, Or.inl ⟨rfl, hEmpty⟩⟩
  exact @trace_history_invariant S A exec (fun _ => True)
    slot.Paired
    (fun _ _ _ _ hBefore hExec _ => hBefore.step hExec)
    actions s hInit (fun _ _ => trivial)

end Slot

end Transition
