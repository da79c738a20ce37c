import Mathlib.Algebra.Order.Ring.Nat
import Mathlib.Tactic.Linarith
import Mathlib.Tactic.Ring

/-
  Pro-rata payment of a list of claims, one at a time.

  Each claim is paid in full while the reserve covers all
  pending claims, and in proportion otherwise. Every payment
  changes the reserve and the pending total that the next one
  is computed from. `Fair` relates the current pair to the
  pair before the first payment and is kept by every payment,
  whatever the order.

  Key definitions include:
    * `ProRata.share`
    * `ProRata.Fair`

  Key theorems include:
    * `ProRata.share_le_claim`
    * `ProRata.share_le_reserve`
    * `ProRata.share_lt_claim`
    * `ProRata.Fair.le_share`
    * `ProRata.Fair.pay`
    * `ProRata.Fair.final`
-/

------------------------------------------------------------
-- One Payment
------------------------------------------------------------

namespace ProRata

/- The payment of one claim. -/
def share
    (claim reserve pending : Nat) :
    Nat :=
  if pending = 0 ∨ pending ≤ reserve then
    claim
  else
    claim * reserve / pending

theorem share_of_covered
    {claim reserve pending : Nat}
    (hCovered : pending ≤ reserve) :
    share claim reserve pending = claim := by
  unfold share
  rw [if_pos (Or.inr hCovered)]

theorem share_of_short
    {claim reserve pending : Nat}
    (hShort : reserve < pending) :
    share claim reserve pending =
      claim * reserve / pending := by
  unfold share
  rw [if_neg (by omega)]

/- A short payment is less than the claim. -/
theorem share_lt_claim
    {claim reserve pending : Nat}
    (hClaim : 0 < claim)
    (hShort : reserve < pending) :
    share claim reserve pending < claim := by
  rw [share_of_short hShort,
    Nat.div_lt_iff_lt_mul (by omega)]
  exact Nat.mul_lt_mul_of_pos_left hShort hClaim

theorem share_le_claim
    (claim reserve pending : Nat) :
    share claim reserve pending ≤ claim := by
  by_cases hShort : reserve < pending
  · rw [share_of_short hShort]
    exact Nat.div_le_of_le_mul
      (by rw [Nat.mul_comm]
          exact Nat.mul_le_mul_right claim (le_of_lt hShort))
  · rw [share_of_covered (by omega)]

/- The payment of a pending claim fits the reserve. -/
theorem share_le_reserve
    {claim pending : Nat}
    (reserve : Nat)
    (hPending : claim ≤ pending) :
    share claim reserve pending ≤ reserve := by
  by_cases hShort : reserve < pending
  · rw [share_of_short hShort]
    exact Nat.div_le_of_le_mul
      (Nat.mul_le_mul_right reserve hPending)
  · rw [share_of_covered (by omega)]
    omega

end ProRata

------------------------------------------------------------
-- Payments In Any Order
------------------------------------------------------------

namespace ProRata

/-
  The pair `R, T` can be reached from `R₀, T₀` by paying some
  of the claims: the covered ratio has not dropped, nothing is
  left beyond the first surplus, and no claim was overpaid.
-/
structure Fair
    (R₀ T₀ R T : Nat) :
    Prop where
  ratio : min R₀ T₀ * T ≤ R * T₀
  upper : R ≤ T + (R₀ - T₀)
  lower : R₀ + T ≤ R + T₀

theorem Fair.refl
    (R T : Nat) :
    Fair R T R T where
  ratio := Nat.mul_le_mul_right T (Nat.min_le_left R T)
  upper := by omega
  lower := le_refl _

variable {R₀ T₀ R T claim : Nat}

/- In a shortage the first pair was short as well. -/
theorem Fair.short
    (hFair : Fair R₀ T₀ R T)
    (hShort : R < T) :
    R₀ < T₀ ∧ R₀ * T ≤ R * T₀ := by
  have hUpper := hFair.upper
  have hLower := hFair.lower
  have hRatio := hFair.ratio
  have hFirst : R₀ < T₀ := by
    omega
  rw [min_eq_left (le_of_lt hFirst)] at hRatio
  exact ⟨hFirst, hRatio⟩

/- No later payment falls below the first proportion. -/
theorem Fair.le_share
    (hFair : Fair R₀ T₀ R T)
    (hTotal : 0 < T₀) :
    claim * min R₀ T₀ / T₀ ≤ share claim R T := by
  by_cases hShort : R < T
  · rcases hFair.short hShort with ⟨hFirst, hRatio⟩
    rw [share_of_short hShort,
      min_eq_left (le_of_lt hFirst),
      Nat.le_div_iff_mul_le (by omega)]
    have hFloor :
        claim * R₀ / T₀ * T₀ ≤ claim * R₀ :=
      Nat.div_mul_le_self _ _
    have hScaled :
        claim * R₀ / T₀ * T * T₀ ≤ claim * R * T₀ := by
      have hLeft := Nat.mul_le_mul_right T hFloor
      have hRight := Nat.mul_le_mul_left claim hRatio
      nlinarith
    exact Nat.le_of_mul_le_mul_right hScaled hTotal
  · rw [share_of_covered (by omega)]
    exact Nat.div_le_of_le_mul
      (by rw [Nat.mul_comm]
          exact Nat.mul_le_mul_right claim
            (Nat.min_le_right R₀ T₀))

/- A short payment leaves at most the other claims. -/
theorem short_upper
    (hClaim : claim ≤ T)
    (hShort : R < T) :
    R + claim ≤ T + claim * R / T := by
  have hFloor : claim * R < T * (claim * R / T) + T :=
    Nat.lt_mul_div_succ (claim * R) (by omega)
  by_contra hOver
  have hQuotient :
      claim * R / T + 1 + T ≤ R + claim := by
    omega
  have hScaled := Nat.mul_le_mul_left T hQuotient
  have hCross : 0 ≤ ((T : Int) - claim) * (T - R) := by
    apply mul_nonneg
    · omega
    · omega
  zify at hFloor hScaled
  nlinarith

/- A short payment does not lower the covered ratio. -/
theorem short_ratio
    (hClaim : claim ≤ T)
    (hShort : R < T)
    (hRatio : R₀ * T ≤ R * T₀) :
    R₀ * (T - claim) ≤ (R - claim * R / T) * T₀ := by
  have hFloor : claim * R / T * T ≤ claim * R :=
    Nat.div_mul_le_self _ _
  have hPay : claim * R / T ≤ R :=
    Nat.div_le_of_le_mul (Nat.mul_le_mul_right R hClaim)
  have hScaled :
      R₀ * (T - claim) * T ≤
        (R - claim * R / T) * T₀ * T := by
    have hLeft :=
      Nat.mul_le_mul_right (T - claim) hRatio
    have hRight := Nat.mul_le_mul_right T₀ hFloor
    zify [hClaim, hPay] at hLeft hRight ⊢
    nlinarith
  exact Nat.le_of_mul_le_mul_right hScaled (by omega)

/- A payment keeps the relation. -/
theorem Fair.pay
    (hFair : Fair R₀ T₀ R T)
    (hClaim : claim ≤ T) :
    Fair R₀ T₀ (R - share claim R T) (T - claim) := by
  have hUpper := hFair.upper
  have hLower := hFair.lower
  by_cases hShort : R < T
  · rcases hFair.short hShort with ⟨hFirst, hRatio⟩
    have hPay := share_le_claim claim R T
    have hFits := share_le_reserve R hClaim
    rw [share_of_short hShort] at hPay hFits ⊢
    refine ⟨?_, ?_, by omega⟩
    · rw [min_eq_left (le_of_lt hFirst)]
      exact short_ratio hClaim hShort hRatio
    · have hLeft := short_upper hClaim hShort
      omega
  · rw [share_of_covered (by omega)]
    refine ⟨?_, by omega, by omega⟩
    rw [Nat.mul_comm]
    exact Nat.mul_le_mul (by omega) (Nat.min_le_right R₀ T₀)

/- With no claim left, exactly the payable total is gone. -/
theorem Fair.final
    (hFair : Fair R₀ T₀ R 0) :
    R₀ = R + min R₀ T₀ := by
  have hUpper := hFair.upper
  have hLower := hFair.lower
  omega

end ProRata
