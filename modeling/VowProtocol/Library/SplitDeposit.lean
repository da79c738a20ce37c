import Mathlib.Data.Rat.Cast.Order
import Mathlib.Tactic.Linarith
import Mathlib.Tactic.Ring

/-
  Deposits split into pieces at a fixed price.

  Every deposit buys whole units and every withdrawal pays
  whole coins, both rounded down. A position is built up by a
  list of deposits and then valued as a whole. It is worth at
  most what was deposited, and it loses less than one unit
  for each deposit and one coin for the withdrawal.

  Key definitions include:
    * `SplitDeposit.units`
    * `SplitDeposit.worth`

  Key theorems include:
    * `SplitDeposit.worth_units_le`
    * `SplitDeposit.lt_worth_units`
-/

------------------------------------------------------------
-- Units And Worth
------------------------------------------------------------

namespace SplitDeposit

variable {scale price : Nat}

/- The units that a list of deposits buys, one at a time. -/
def units
    (scale price : Nat)
    (deposits : List Nat) :
    Nat :=
  (deposits.map fun deposit => deposit * scale / price).sum

/- What a number of units is worth. -/
def worth
    (scale price bought : Nat) :
    Nat :=
  bought * price / scale

theorem units_singleton
    (scale price deposit : Nat) :
    units scale price [deposit] =
      deposit * scale / price := by
  simp [units]

/- The next deposit buys its own units. -/
theorem units_concat
    (scale price : Nat)
    (deposits : List Nat)
    (deposit : Nat) :
    units scale price (deposits ++ [deposit]) =
      units scale price deposits +
        deposit * scale / price := by
  simp [units]

/- The units cost no more than the deposits. -/
theorem units_mul_price_le
    (scale price : Nat)
    (deposits : List Nat) :
    units scale price deposits * price ≤
      deposits.sum * scale := by
  induction deposits with
  | nil => simp [units]
  | cons deposit deposits ih =>
      have hPiece :=
        Nat.div_mul_le_self (deposit * scale) price
      unfold units at ih ⊢
      rw [List.map_cons, List.sum_cons, List.sum_cons,
        Nat.add_mul, Nat.add_mul]
      exact Nat.add_le_add hPiece ih

/- Each deposit loses less than the price of one unit. -/
theorem sum_mul_scale_le
    (hPrice : 0 < price)
    (deposits : List Nat) :
    deposits.sum * scale ≤
      (units scale price deposits + deposits.length) *
        price := by
  induction deposits with
  | nil => simp
  | cons deposit deposits ih =>
      have hPiece :=
        Nat.lt_div_mul_add hPrice (a := deposit * scale)
      unfold units at ih ⊢
      rw [List.map_cons, List.sum_cons, List.sum_cons,
        List.length_cons]
      have hSplit :
          (deposit * scale / price +
              (deposits.map fun deposit =>
                deposit * scale / price).sum +
              (deposits.length + 1)) * price =
            (deposit * scale / price * price + price) +
              ((deposits.map fun deposit =>
                deposit * scale / price).sum +
                deposits.length) * price := by
        ring
      rw [hSplit, Nat.add_mul]
      exact Nat.add_le_add (le_of_lt hPiece) ih

end SplitDeposit

------------------------------------------------------------
-- The Round Trip
------------------------------------------------------------

namespace SplitDeposit

variable {scale price : Nat}

/- Splitting a deposit never gains a coin. -/
theorem worth_units_le
    (scale price : Nat)
    (deposits : List Nat) :
    worth scale price (units scale price deposits) ≤
      deposits.sum := by
  unfold worth
  apply Nat.div_le_of_le_mul
  rw [Nat.mul_comm scale]
  exact units_mul_price_le scale price deposits

/-
  Splitting a deposit loses less than one unit for each piece
  and one coin.
-/
theorem lt_worth_units
    (hScale : 0 < scale)
    (hPrice : 0 < price)
    (deposits : List Nat) :
    (deposits.sum : ℚ) -
        deposits.length * price / scale - 1 <
      worth scale price (units scale price deposits) := by
  have hPieces :
      deposits.sum * scale ≤
        (units scale price deposits + deposits.length) *
          price :=
    sum_mul_scale_le hPrice deposits
  have hWhole :
      units scale price deposits * price <
        (worth scale price (units scale price deposits) +
          1) * scale := by
    unfold worth
    rw [Nat.add_mul, Nat.one_mul]
    exact Nat.lt_div_mul_add hScale
  have hPiecesQ :
      (deposits.sum : ℚ) * scale ≤
        (units scale price deposits + deposits.length) *
          price := by
    exact_mod_cast hPieces
  have hWholeQ :
      (units scale price deposits : ℚ) * price <
        (worth scale price (units scale price deposits) +
          1) * scale := by
    exact_mod_cast hWhole
  have hScaleQ : (0 : ℚ) < scale := by
    exact_mod_cast hScale
  have hTotal :
      (deposits.sum : ℚ) * scale <
        (worth scale price (units scale price deposits) +
          1) * scale + deposits.length * price := by
    linarith [add_mul (units scale price deposits : ℚ)
      (deposits.length : ℚ) (price : ℚ)]
  have hDivided :
      (deposits.sum : ℚ) <
        ((worth scale price (units scale price deposits) +
          1) * scale + deposits.length * price) / scale := by
    rw [lt_div_iff₀ hScaleQ]
    exact hTotal
  rw [add_div, mul_div_cancel_right₀ _ hScaleQ.ne']
    at hDivided
  linarith

end SplitDeposit
