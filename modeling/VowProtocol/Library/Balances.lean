import Mathlib.Algebra.BigOperators.Finprod
import Mathlib.Algebra.Order.BigOperators.Group.Finset

/-
  Balances at addresses, and sequences of payments between
  them.

  A payment moves an amount that its source holds. However
  many payments are made, the supply stays the same, and only
  the addresses that were allowed to pay can end up with
  less.

  Key definitions include:
    * `Balances.move`
    * `Balances.Payments`
    * `Balances.FinitelyHeld`
    * `Balances.supply`

  Key theorems include:
    * `Balances.Payments.trans`
    * `Balances.Payments.le_of_not`
    * `Balances.supply_of_single`
    * `Balances.Payments.supply_eq`
-/

------------------------------------------------------------
-- Payments
------------------------------------------------------------

namespace Balances

variable {K : Type} [DecidableEq K]

/- Take an amount at one address and add it at another. -/
def move
    (source destination : K)
    (amount : Nat)
    (l : K → Nat) :
    K → Nat :=
  fun k =>
    if k = destination then
      (if k = source then l k - amount else l k) + amount
    else if k = source then l k - amount
    else l k

/-
  A sequence of covered payments whose sources all satisfy
  `P`.
-/
inductive Payments
    (P : K → Prop) :
    (K → Nat) → (K → Nat) → Prop where
  | refl
      (l : K → Nat) :
      Payments P l l
  | step
      {l m : K → Nat}
      (source destination : K)
      (amount : Nat)
      (hBefore : Payments P l m)
      (hSource : P source)
      (hFunds : amount ≤ m source) :
      Payments P l (move source destination amount m)

theorem Payments.single
    {P : K → Prop}
    {source : K}
    {amount : Nat}
    {l : K → Nat}
    (destination : K)
    (hSource : P source)
    (hFunds : amount ≤ l source) :
    Payments P l (move source destination amount l) :=
  .step source destination amount (.refl l) hSource hFunds

theorem Payments.trans
    {P : K → Prop}
    {l m n : K → Nat}
    (hFirst : Payments P l m)
    (hSecond : Payments P m n) :
    Payments P l n := by
  induction hSecond with
  | refl => exact hFirst
  | step source destination amount _ hSource hFunds ih =>
      exact .step source destination amount ih hSource
        hFunds

theorem Payments.mono
    {P Q : K → Prop}
    {l m : K → Nat}
    (hPayments : Payments P l m)
    (hImp : ∀ k, P k → Q k) :
    Payments Q l m := by
  induction hPayments with
  | refl => exact .refl _
  | step source destination amount _ hSource hFunds ih =>
      exact .step source destination amount ih
        (hImp source hSource) hFunds

/- An address that may not pay never loses anything. -/
theorem Payments.le_of_not
    {P : K → Prop}
    {l m : K → Nat}
    {k : K}
    (hPayments : Payments P l m)
    (hNot : ¬P k) :
    l k ≤ m k := by
  induction hPayments with
  | refl => exact le_refl _
  | step source destination amount _ hSource hFunds ih =>
      have hOther : k ≠ source := by
        intro hSame
        subst hSame
        exact hNot hSource
      unfold move
      rw [if_neg hOther]
      split
      · omega
      · exact ih

end Balances

------------------------------------------------------------
-- Supply
------------------------------------------------------------

namespace Balances

variable {K : Type}

/- Something is held at finitely many addresses only. -/
def FinitelyHeld
    (l : K → Nat) :
    Prop :=
  ∃ s : Finset K, ∀ k, k ∉ s → l k = 0

/- Everything that is held. -/
noncomputable def supply
    (l : K → Nat) :
    Nat :=
  ∑ᶠ k, l k

theorem supply_eq_sum
    {l : K → Nat}
    {s : Finset K}
    (hOutside : ∀ k, k ∉ s → l k = 0) :
    supply l = ∑ k ∈ s, l k := by
  refine finsum_eq_sum_of_support_subset l ?_
  intro k hMem
  by_contra hNot
  exact hMem (hOutside k hNot)

/- What a change address by address does to the supply. -/
theorem supply_of_change
    {l m : K → Nat}
    {s : Finset K}
    (lost gained : K → Nat)
    (hOutside : ∀ k, k ∉ s → l k = 0 ∧ m k = 0)
    (hChange : ∀ k, m k + lost k = l k + gained k) :
    supply m + ∑ k ∈ s, lost k =
      supply l + ∑ k ∈ s, gained k := by
  rw [supply_eq_sum fun k hNot => (hOutside k hNot).1,
    supply_eq_sum fun k hNot => (hOutside k hNot).2,
    ← Finset.sum_add_distrib, ← Finset.sum_add_distrib]
  exact Finset.sum_congr rfl fun k _ => hChange k

/- A change at one address. -/
theorem supply_of_single
    [DecidableEq K]
    {l m : K → Nat}
    {address : K}
    (hFinite : FinitelyHeld l)
    (hOthers : ∀ k, k ≠ address → m k = l k) :
    FinitelyHeld m ∧
      supply m + l address = supply l + m address := by
  rcases hFinite with ⟨s, hOutside⟩
  have hBoth :
      ∀ k, k ∉ insert address s → l k = 0 ∧ m k = 0 := by
    intro k hNot
    rw [Finset.mem_insert, not_or] at hNot
    rw [hOthers k hNot.1]
    exact ⟨hOutside k hNot.2, hOutside k hNot.2⟩
  have hChange :
      ∀ k, m k + (if k = address then l address else 0) =
        l k + (if k = address then m address else 0) := by
    intro k
    by_cases hKey : k = address
    · rw [if_pos hKey, if_pos hKey, hKey]
      omega
    · rw [if_neg hKey, if_neg hKey, hOthers k hKey]
  refine ⟨⟨_, fun k hNot => (hBoth k hNot).2⟩, ?_⟩
  have hSum := supply_of_change _ _ hBoth hChange
  simpa using hSum

/- A covered payment keeps the supply. -/
theorem supply_move
    [DecidableEq K]
    {source destination : K}
    {amount : Nat}
    {l : K → Nat}
    (hFinite : FinitelyHeld l)
    (hFunds : amount ≤ l source) :
    FinitelyHeld (move source destination amount l) ∧
      supply (move source destination amount l) =
        supply l := by
  rcases hFinite with ⟨s, hOutside⟩
  have hBoth :
      ∀ k, k ∉ insert source (insert destination s) →
        l k = 0 ∧ move source destination amount l k = 0 := by
    intro k hNot
    simp only [Finset.mem_insert, not_or] at hNot
    unfold move
    rw [if_neg hNot.2.1, if_neg hNot.1]
    exact ⟨hOutside k hNot.2.2, hOutside k hNot.2.2⟩
  have hChange :
      ∀ k, move source destination amount l k +
          (if k = source then amount else 0) =
        l k + (if k = destination then amount else 0) := by
    intro k
    unfold move
    by_cases hSource : k = source
    · subst hSource
      split <;> simp <;> omega
    · simp only [if_neg hSource]
      split <;> omega
  refine ⟨⟨_, fun k hNot => (hBoth k hNot).2⟩, ?_⟩
  have hSum := supply_of_change _ _ hBoth hChange
  simpa using hSum

/- So does any number of covered payments. -/
theorem Payments.supply_eq
    [DecidableEq K]
    {P : K → Prop}
    {l m : K → Nat}
    (hPayments : Payments P l m)
    (hFinite : FinitelyHeld l) :
    FinitelyHeld m ∧ supply m = supply l := by
  induction hPayments with
  | refl => exact ⟨hFinite, rfl⟩
  | step source destination amount _ _ hFunds ih =>
      rcases supply_move ih.1 hFunds with ⟨hHeld, hSupply⟩
      exact ⟨hHeld, hSupply.trans ih.2⟩

end Balances
