import Mathlib.Algebra.Order.BigOperators.Group.Finset

/-
  Pledges that are recorded once and redeemed once.

  A book counts what was pledged and what was redeemed, both
  up to a cap. A redemption counts the amount of its pledge
  at that time, so the book stays covered as long as only
  open pledges are redeemed and no open pledge grows.

  Key definitions include:
    * `PledgeBook.Book`
    * `PledgeBook.Book.Covered`
    * `PledgeBook.Moves`

  Key theorems include:
    * `PledgeBook.Moves.covered`
    * `PledgeBook.Book.Covered.redeemed_le`
    * `PledgeBook.Book.Covered.redeem_le`
-/

------------------------------------------------------------
-- Books
------------------------------------------------------------

namespace PledgeBook

variable {K : Type}

/- The totals of a book and its open pledges. -/
structure Book (K : Type) where
  amount : K → Nat
  pending : Finset K
  pledged : Nat
  redeemed : Nat

/- The pledges pay for what is and will be redeemed. -/
def Book.Covered
    (cap : Nat)
    (b : Book K) :
    Prop :=
  min cap (b.redeemed + ∑ k ∈ b.pending, b.amount k) ≤
    b.pledged

/- The ways in which a book changes. -/
inductive Moves
    [DecidableEq K]
    (cap : Nat)
    (b : Book K) :
    Book K → Prop where
  | pledge
      (k : K)
      (hNew : k ∉ b.pending) :
      Moves cap b
        { b with
          pending := insert k b.pending
          pledged := min cap (b.pledged + b.amount k) }
  | redeem
      (k : K)
      (hOpen : k ∈ b.pending) :
      Moves cap b
        { b with
          pending := b.pending.erase k
          redeemed := min cap (b.redeemed + b.amount k) }
  | revise
      (amount : K → Nat)
      (hLess : ∀ k ∈ b.pending, amount k ≤ b.amount k) :
      Moves cap b { b with amount := amount }

/- Every change keeps a book covered. -/
theorem Moves.covered
    [DecidableEq K]
    {cap : Nat}
    {b b' : Book K}
    (hMoves : Moves cap b b')
    (hCovered : b.Covered cap) :
    b'.Covered cap := by
  unfold Book.Covered at hCovered ⊢
  cases hMoves with
  | pledge k hNew =>
      dsimp only
      rw [Finset.sum_insert hNew]
      omega
  | redeem k hOpen =>
      have hSplit :=
        Finset.add_sum_erase b.pending b.amount hOpen
      dsimp only
      omega
  | revise amount hLess =>
      have hSum :
          ∑ k ∈ b.pending, amount k ≤
            ∑ k ∈ b.pending, b.amount k :=
        Finset.sum_le_sum hLess
      dsimp only
      omega

/- A covered book never redeems more than was pledged. -/
theorem Book.Covered.redeemed_le
    {cap : Nat}
    {b : Book K}
    (hCovered : b.Covered cap)
    (hCap : b.redeemed ≤ cap) :
    b.redeemed ≤ b.pledged := by
  unfold Book.Covered at hCovered
  omega

/- The next redemption is covered too. -/
theorem Book.Covered.redeem_le
    [DecidableEq K]
    {cap : Nat}
    {b : Book K}
    {k : K}
    (hCovered : b.Covered cap)
    (hOpen : k ∈ b.pending)
    (hCap : b.redeemed + b.amount k ≤ cap) :
    b.redeemed + b.amount k ≤ b.pledged := by
  have hSplit :=
    Finset.add_sum_erase b.pending b.amount hOpen
  unfold Book.Covered at hCovered
  omega

end PledgeBook
