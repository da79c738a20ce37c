import Mathlib.Tactic.Linarith
import Mathlib.Tactic.Ring

/-
  The ledger of a vault that issues shares at a price.

  Holders own shares, spendable balances and pending claims
  against one reserve. The vault keeps a running counter next
  to each of the three sums. A step of the vault is one of a
  few kinds of move; `Move` says what each kind may do to the
  sums and, with the vault's own rounding and saturation, to
  the counters.

  The price is a multiple of `1 / P`, and a stored balance or
  counter saturates at `cap`.

  Key definitions include:
    * `ShareLedger.Ledger`
    * `ShareLedger.Move`
    * `ShareLedger.Ledger.margin`

  Key theorems include:
    * `ShareLedger.Move.reserve_le`
    * `ShareLedger.Move.margin_le`
    * `ShareLedger.Move.margin_credit_lt`
    * `ShareLedger.Move.margin_credit_le`
    * `ShareLedger.Move.shareCounter_exact`
    * `ShareLedger.Move.yieldCounter_exact`
    * `ShareLedger.Move.pendingCounter_exact`
    * `ShareLedger.Move.pendingCounter_le`
-/

------------------------------------------------------------
-- Ledgers And Moves
------------------------------------------------------------

namespace ShareLedger

/- The sums over all holders, and the vault's counters. -/
@[ext] structure Ledger where
  price : Nat
  reserve : Nat
  shares : Nat
  yields : Nat
  owed : Nat
  shareCounter : Nat
  yieldCounter : Nat
  pendingCounter : Nat

/- The kinds of step that a vault takes. -/
inductive Kind where
  | issue
  | credit
  | deposit
  | spend
  | exit
  | payout
  | drift
  | idle
  deriving DecidableEq

/-
  What a step of each kind does. A sum is split as `rest`
  plus the part of the one holder concerned.
-/
inductive Move
    (P cap : Nat)
    (l : Ledger) :
    Kind → Ledger → Prop where
  -- New shares replace the holder's old ones.
  | issue
      (amount issued retired rest : Nat)
      (hShares : l.shares = rest + retired)
      (hPrice : issued * l.price ≤ amount * P) :
      Move P cap l .issue { l with
        reserve := l.reserve + amount
        shares := rest + issued
        shareCounter := l.shareCounter - retired + issued }
  -- Shares worth the amount, rounded down, become balance.
  | credit
      (amount burned balance rest others : Nat)
      (hShares : l.shares = rest + burned)
      (hBurned : burned = amount * P / l.price)
      (hYields : l.yields = others + balance) :
      Move P cap l .credit { l with
        shares := rest
        yields := others + min (balance + amount) cap
        shareCounter := l.shareCounter - burned
        yieldCounter := min (l.yieldCounter + amount) cap }
  | deposit
      (amount balance others : Nat)
      (hYields : l.yields = others + balance) :
      Move P cap l .deposit { l with
        reserve := l.reserve + amount
        yields := others + min (balance + amount) cap
        yieldCounter := min (l.yieldCounter + amount) cap }
  -- The payment may go back to the reserve itself.
  | spend
      (amount rest reserve : Nat)
      (hYields : l.yields = rest + amount)
      (hReserve : l.reserve ≤ reserve + amount) :
      Move P cap l .spend { l with
        reserve := reserve
        yields := rest
        yieldCounter := l.yieldCounter - amount }
  | exit
      (retired balance claim rest others : Nat)
      (hShares : l.shares = rest + retired)
      (hYields : l.yields = others + balance)
      (hClaim :
        claim * P ≤ retired * l.price + balance * P) :
      Move P cap l .exit { l with
        shares := rest
        yields := others
        owed := l.owed + claim
        shareCounter := l.shareCounter - retired
        yieldCounter := l.yieldCounter - balance
        pendingCounter := l.pendingCounter + claim }
  | payout
      (claim pay rest reserve : Nat)
      (hOwed : l.owed = rest + claim)
      (hReserve : l.reserve = reserve + pay)
      (hPay : pay ≤ claim) :
      Move P cap l .payout { l with
        reserve := reserve
        owed := rest
        pendingCounter := l.pendingCounter - claim }
  -- The price and the reserve move from outside.
  | drift
      (price reserve : Nat) :
      Move P cap l .drift
        { l with price := price, reserve := reserve }
  | idle :
      Move P cap l .idle l

/- A move to a ledger that is written differently. -/
theorem Move.of_eq
    {P cap : Nat}
    {l l' l'' : Ledger}
    {kind : Kind}
    (hMove : Move P cap l kind l')
    (hEq : l'' = l') :
    Move P cap l kind l'' := by
  rw [hEq]
  exact hMove

end ShareLedger

------------------------------------------------------------
-- Solvency Margin
------------------------------------------------------------

namespace ShareLedger

variable {P cap : Nat} {l l' : Ledger} {kind : Kind}

/-
  What the reserve holds beyond every claim, in units of
  `1 / P`.
-/
def Ledger.margin
    (P : Nat)
    (l : Ledger) :
    Int :=
  l.reserve * P - l.price * l.shares -
    P * (l.yields + l.owed)

/- Only a drift moves the price. -/
theorem Move.price_eq
    (hMove : Move P cap l kind l')
    (hDrift : kind ≠ .drift) :
    l'.price = l.price := by
  cases hMove with
  | drift => exact absurd rfl hDrift
  | _ => rfl

/- An idle step changes nothing. -/
theorem Move.eq_of_idle
    (hMove : Move P cap l .idle l') :
    l' = l := by
  cases hMove with
  | idle => rfl

/- Only a spend, a payout or a drift lowers the reserve. -/
theorem Move.reserve_le
    (hMove : Move P cap l kind l')
    (hSpend : kind ≠ .spend)
    (hPayout : kind ≠ .payout)
    (hDrift : kind ≠ .drift) :
    l.reserve ≤ l'.reserve := by
  cases hMove with
  | issue => exact Nat.le_add_right _ _
  | deposit => exact Nat.le_add_right _ _
  | credit => exact le_refl _
  | exit => exact le_refl _
  | idle => exact le_refl _
  | spend => exact absurd rfl hSpend
  | payout => exact absurd rfl hPayout
  | drift => exact absurd rfl hDrift

/- A balance never gains more than the amount credited. -/
theorem credited_le
    {balance others yields : Nat}
    (cap amount : Nat)
    (hYields : yields = others + balance) :
    others + min (balance + amount) cap ≤ yields + amount := by
  omega

/-
  Every move at a fixed price keeps the margin, except a
  credit.
-/
theorem Move.margin_le
    (hMove : Move P cap l kind l')
    (hCredit : kind ≠ .credit)
    (hDrift : kind ≠ .drift) :
    l.margin P ≤ l'.margin P := by
  unfold Ledger.margin
  cases hMove with
  | issue _ _ _ _ hShares hPrice =>
      rw [hShares]
      zify at hPrice
      push_cast
      nlinarith
  | credit => exact absurd rfl hCredit
  | deposit amount _ _ hYields =>
      have hGain := credited_le cap amount hYields
      have hScaled := Nat.mul_le_mul_left P hGain
      zify at hScaled
      push_cast at hScaled ⊢
      linarith
  | spend _ _ _ hYields hReserve =>
      rw [hYields]
      have hScaled := Nat.mul_le_mul_left P hReserve
      zify at hScaled
      push_cast
      linarith
  | exit _ _ _ _ _ hShares hYields hClaim =>
      rw [hShares, hYields]
      zify at hClaim
      push_cast
      linarith
  | payout _ _ _ _ hOwed hReserve hPay =>
      rw [hOwed, hReserve]
      have hScaled := Nat.mul_le_mul_left P hPay
      zify at hScaled
      push_cast
      linarith
  | drift => exact absurd rfl hDrift
  | idle => exact le_refl _

/- A credit costs less than the price of one share. -/
theorem Move.margin_credit_lt
    (hMove : Move P cap l .credit l')
    (hPrice : 0 < l.price) :
    l.margin P < l'.margin P + l.price := by
  unfold Ledger.margin
  cases hMove with
  | credit amount burned _ _ _ hShares hBurned hYields =>
      have hRound :
          amount * P < l.price * burned + l.price := by
        rw [hBurned]
        exact Nat.lt_mul_div_succ (amount * P) hPrice
      have hGain := credited_le cap amount hYields
      have hScaled := Nat.mul_le_mul_left P hGain
      rw [hShares]
      zify at hRound hScaled
      push_cast at hRound hScaled ⊢
      linarith

/-
  A credit costs less than one share, at least one unit of the
  price less; all of it where shares are worth nothing.
-/
theorem Move.margin_credit_le
    (hMove : Move P cap l .credit l') :
    l.margin P ≤
      l'.margin P +
        if l.price = 0 then
          (P : Int) * (l'.yields - l.yields)
        else (l.price : Int) - 1 := by
  by_cases hPrice : l.price = 0
  · rw [if_pos hPrice]
    cases hMove with
    | credit amount burned balance rest others hShares
        hBurned hYields =>
        unfold Ledger.margin
        dsimp only
        rw [hPrice]
        push_cast
        apply le_of_eq
        ring
  · rw [if_neg hPrice]
    have hLoss := hMove.margin_credit_lt
      (Nat.pos_of_ne_zero hPrice)
    omega

end ShareLedger

------------------------------------------------------------
-- Counters
------------------------------------------------------------

namespace ShareLedger

variable {P cap : Nat} {l l' : Ledger} {kind : Kind}

/- The share counter stays exact. -/
theorem Move.shareCounter_exact
    (hMove : Move P cap l kind l')
    (hExact : l.shareCounter = l.shares) :
    l'.shareCounter = l'.shares := by
  cases hMove with
  | issue _ _ _ _ hShares =>
      dsimp only
      omega
  | credit _ _ _ _ _ hShares =>
      dsimp only
      omega
  | exit _ _ _ _ _ hShares =>
      dsimp only
      omega
  | deposit => exact hExact
  | spend => exact hExact
  | payout => exact hExact
  | drift => exact hExact
  | idle => exact hExact

/-
  A saturating credit keeps the counter exact as long as the
  sum of the stored balances fits: when the balance clips, it
  alone exhausts the cap.
-/
theorem saturated_exact
    {amount balance others yields counter : Nat}
    (hYields : yields = others + balance)
    (hExact : counter = yields)
    (hFits : others + min (balance + amount) cap ≤ cap) :
    min (counter + amount) cap =
      others + min (balance + amount) cap := by
  omega

/- The yield counter stays exact while the sum fits. -/
theorem Move.yieldCounter_exact
    (hMove : Move P cap l kind l')
    (hExact : l.yieldCounter = l.yields)
    (hFits : l'.yields ≤ cap) :
    l'.yieldCounter = l'.yields := by
  cases hMove with
  | credit _ _ _ _ _ _ _ hYields =>
      exact saturated_exact hYields hExact hFits
  | deposit _ _ _ hYields =>
      exact saturated_exact hYields hExact hFits
  | spend _ _ _ hYields =>
      dsimp only
      omega
  | exit _ _ _ _ _ _ hYields =>
      dsimp only
      omega
  | issue => exact hExact
  | payout => exact hExact
  | drift => exact hExact
  | idle => exact hExact

/- The pending counter stays exact. -/
theorem Move.pendingCounter_exact
    (hMove : Move P cap l kind l')
    (hExact : l.pendingCounter = l.owed) :
    l'.pendingCounter = l'.owed := by
  cases hMove with
  | exit =>
      dsimp only
      omega
  | payout _ _ _ _ hOwed =>
      dsimp only
      omega
  | issue => exact hExact
  | credit => exact hExact
  | deposit => exact hExact
  | spend => exact hExact
  | drift => exact hExact
  | idle => exact hExact

/- Nor does the pending counter ever pass what is owed. -/
theorem Move.pendingCounter_le
    (hMove : Move P cap l kind l')
    (hLe : l.pendingCounter ≤ l.owed) :
    l'.pendingCounter ≤ l'.owed := by
  cases hMove with
  | exit =>
      dsimp only
      omega
  | payout _ _ _ _ hOwed =>
      dsimp only
      omega
  | issue => exact hLe
  | credit => exact hLe
  | deposit => exact hLe
  | spend => exact hLe
  | drift => exact hLe
  | idle => exact hLe

end ShareLedger
