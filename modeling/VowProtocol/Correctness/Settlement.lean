import VowProtocol.Program.Harvest

/-
  Exact behaviour of the share arithmetic, of settlement and
  of the harvest branches, in unbounded integers.

  Key definitions include:
    * `valueAt`
    * `netGain`
    * `VowState.settled`
    * `harvestCredit`
    * `harvestCarry`

  Key theorems include:
    * `positionValue_eq_ok_iff`
    * `sharesForDeposit_eq_ok_iff`
    * `settleIdnft_ok`
    * `settleIdnft_of_fits`
    * `creditGain_ok`
    * `harvestGain_credits`
    * `harvestGain_cases`
    * `harvestGain_config`
-/

------------------------------------------------------------
-- Share Arithmetic
------------------------------------------------------------

namespace Vow

open MachineInt Fallible

@[simp] theorem sharePrecision_val :
    SHARE_PRECISION.val = 1000000000000 := rfl

/- The exact value of shares at a price, rounded down. -/
def valueAt
    (shares price : Nat) :
    Nat :=
  shares * price / 1000000000000

theorem positionValue_eq_ok_iff
    {shares price value : U128} :
    positionValue shares price = .ok value ↔
      shares.val * price.val < 2 ^ 128 ∧
        value.val = valueAt shares.val price.val := by
  have hPrecision : SHARE_PRECISION.val ≠ 0 := by
    simp
  unfold positionValue valueAt
  simp only [bind_eq_ok_iff, okOr_eq_ok_iff, pure_eq_ok_iff,
    Unsigned.checkedMul_eq_some_iff]
  constructor
  · rintro ⟨product, hProduct, hValue⟩
    subst hValue
    refine ⟨hProduct ▸ product.isLt, ?_⟩
    rw [Unsigned.val_getD_checkedDiv hPrecision, hProduct,
      sharePrecision_val]
  · rintro ⟨hFits, hValue⟩
    refine ⟨⟨shares.val * price.val, hFits⟩, rfl, ?_⟩
    apply Unsigned.ext
    rw [Unsigned.val_getD_checkedDiv hPrecision, hValue,
      sharePrecision_val]

theorem positionValue_of_fits
    {shares price : U128}
    (hFits : shares.val * price.val < 2 ^ 128) :
    ∃ value, positionValue shares price = .ok value := by
  have hValue :
      valueAt shares.val price.val < 2 ^ 128 :=
    lt_of_le_of_lt (Nat.div_le_self _ _) hFits
  exact ⟨⟨valueAt shares.val price.val, hValue⟩,
    positionValue_eq_ok_iff.mpr ⟨hFits, rfl⟩⟩

/- Scaling a 64-bit amount never overflows 128 bits. -/
theorem scaled_eq_some_iff
    {amount : U64}
    {scaled : U128} :
    (amount.cast 128).checkedMul SHARE_PRECISION =
        some scaled ↔
      scaled.val = amount.val * 1000000000000 := by
  rw [Unsigned.checkedMul_eq_some_iff, sharePrecision_val,
    Unsigned.val_cast_of_le (by decide)]

theorem scaled_fits
    (amount : U64) :
    amount.val * 1000000000000 < 2 ^ 128 := by
  have hFits := amount.isLt
  omega

theorem sharesForDeposit_eq_ok_iff
    {lamports : U64}
    {price shares : U128} :
    sharesForDeposit lamports price = .ok shares ↔
      price.val ≠ 0 ∧
        shares.val =
          lamports.val * 1000000000000 / price.val := by
  unfold sharesForDeposit
  simp only [bind_eq_ok_iff, okOr_eq_ok_iff,
    scaled_eq_some_iff, Unsigned.checkedDiv_eq_some_iff]
  constructor
  · rintro ⟨scaled, hScaled, hPrice, hShares⟩
    exact ⟨hPrice, hScaled ▸ hShares⟩
  · rintro ⟨hPrice, hShares⟩
    exact ⟨⟨_, scaled_fits lamports⟩, rfl, hPrice, hShares⟩

/- A zero price burns nothing. -/
theorem sharesToBurn_eq_ok_iff
    {amount : U64}
    {price burned : U128} :
    sharesToBurn amount price = .ok burned ↔
      burned.val =
        amount.val * 1000000000000 / price.val := by
  unfold sharesToBurn
  simp only [bind_eq_ok_iff, okOr_eq_ok_iff,
    scaled_eq_some_iff, pure_eq_ok_iff]
  have hQuotient :
      ∀ scaled : U128,
        ((scaled.checkedDiv price).getD 0).val =
          scaled.val / price.val := by
    intro scaled
    by_cases hPrice : price.val = 0
    · simp [Unsigned.checkedDiv, hPrice]
    · exact Unsigned.val_getD_checkedDiv hPrice
  constructor
  · rintro ⟨scaled, hScaled, hBurned⟩
    rw [← hBurned, hQuotient, hScaled]
  · intro hBurned
    refine ⟨⟨_, scaled_fits amount⟩, rfl, ?_⟩
    apply Unsigned.ext
    rw [hQuotient, hBurned]

end Vow

------------------------------------------------------------
-- Settlement
------------------------------------------------------------

namespace Vow

open MachineInt Fallible

/-
  The gain that an unbounded settlement at `price` would
  record.
-/
def netGain
    (idnft : VowState)
    (price : U128) :
    Int :=
  idnft.accruedGain.val +
    ((valueAt idnft.shares.val price.val : Int) -
      valueAt idnft.shares.val idnft.lastSharePrice.val)

/-
  A settlement only moves the accrued gain and the settled
  price. The early return on an unchanged price is the case
  of a zero difference.
-/
theorem settleIdnft_ok
    {idnft idnft' : VowState}
    {config : ProtocolConfig}
    (hSettle : settleIdnft idnft config = .ok idnft') :
    idnft' = { idnft with
      accruedGain := idnft.accruedGain.saturatingAdd
        (Signed.clamp 63
          ((valueAt idnft.shares.val
              config.currentSharePrice.val : Int) -
            valueAt idnft.shares.val
              idnft.lastSharePrice.val))
      lastSharePrice := config.currentSharePrice } := by
  unfold settleIdnft at hSettle
  by_cases hPrice :
      idnft.lastSharePrice = config.currentSharePrice
  · rw [if_pos hPrice] at hSettle
    have hSame : idnft' = idnft :=
      (Except.ok.inj hSettle).symm
    have hGain :
        idnft.accruedGain.saturatingAdd
            (Signed.clamp 63 0) = idnft.accruedGain := by
      apply Signed.ext
      have hLower := idnft.accruedGain.lower
      have hUpper := idnft.accruedGain.upper
      simp only [Signed.val_saturatingAdd, Signed.val_clamp]
      omega
    rw [hSame, ← hPrice, sub_self, hGain]
  · rw [if_neg hPrice] at hSettle
    simp only [bind_eq_ok_iff, positionValue_eq_ok_iff,
      pure_eq_ok_iff] at hSettle
    rcases hSettle with
      ⟨current, ⟨_, hCurrent⟩, last, ⟨_, hLast⟩, hEq⟩
    rw [← hEq, hCurrent, hLast]

/- The identity after a settlement at a price. -/
def VowState.settled
    (idnft : VowState)
    (price : U128) :
    VowState :=
  { idnft with
    accruedGain := idnft.accruedGain.saturatingAdd
      (Signed.clamp 63
        ((valueAt idnft.shares.val price.val : Int) -
          valueAt idnft.shares.val
            idnft.lastSharePrice.val))
    lastSharePrice := price }

theorem settleIdnft_eq_settled
    {idnft idnft' : VowState}
    {config : ProtocolConfig}
    (hSettle : settleIdnft idnft config = .ok idnft') :
    idnft' = idnft.settled config.currentSharePrice :=
  settleIdnft_ok hSettle

/- A settlement only fails on a product that overflows. -/
theorem settleIdnft_of_fits
    {idnft : VowState}
    {config : ProtocolConfig}
    (hLast :
      idnft.shares.val * idnft.lastSharePrice.val < 2 ^ 128)
    (hCurrent :
      idnft.shares.val * config.currentSharePrice.val <
        2 ^ 128) :
    settleIdnft idnft config =
      .ok (idnft.settled config.currentSharePrice) := by
  have hSettles :
      ∃ settled, settleIdnft idnft config = .ok settled := by
    rcases positionValue_of_fits hCurrent with
      ⟨currentValue, hCurrent⟩
    rcases positionValue_of_fits hLast with
      ⟨lastValue, hLast⟩
    unfold settleIdnft
    rw [hCurrent, hLast]
    split
    · exact ⟨_, rfl⟩
    · exact ⟨_, rfl⟩
  rcases hSettles with ⟨settled, hSettle⟩
  rw [hSettle, settleIdnft_eq_settled hSettle]

/- A settlement without a net loss only rounds down. -/
theorem settled_gain_le_netGain
    {idnft idnft' : VowState}
    {config : ProtocolConfig}
    (hSettle : settleIdnft idnft config = .ok idnft')
    (hGain : 0 ≤ netGain idnft config.currentSharePrice) :
    idnft'.accruedGain.val ≤
      netGain idnft config.currentSharePrice := by
  have hEq := settleIdnft_ok hSettle
  have hUpper := idnft.accruedGain.upper
  rw [hEq]
  unfold netGain at hGain ⊢
  simp only [Signed.val_saturatingAdd, Signed.val_clamp]
  omega

end Vow

------------------------------------------------------------
-- Harvest Branches
------------------------------------------------------------

namespace Vow

open MachineInt Fallible

/- The yield that a harvest credits, by mode. -/
def harvestCredit
    (idnft : VowState) :
    U64 :=
  if idnft.accruedGain ≤ 0 then
    0
  else
    match idnft.yieldMode with
    | .compound => 0
    | .treasury => idnft.accruedGain.toUnsigned 64
    | .hybrid =>
        Unsigned.ofNat 64
          ((idnft.accruedGain.toUnsigned 64).val / 2)

/- The gain that a harvest carries to the next one. -/
def harvestCarry
    (idnft : VowState) :
    I64 :=
  match idnft.yieldMode with
  | .hybrid =>
      Signed.clamp 63
        (((idnft.accruedGain.toUnsigned 64).val % 2 :
          Nat) : Int)
  | _ => 0

theorem accruedGain_toUnsigned
    {idnft : VowState}
    (hGain : 0 ≤ idnft.accruedGain.val) :
    ((idnft.accruedGain.toUnsigned 64).val : Int) =
      idnft.accruedGain.val := by
  have hUpper := idnft.accruedGain.upper
  exact Signed.val_toUnsigned_of_nonneg (by omega)
    (by omega)

theorem harvestCredit_nothing
    {idnft : VowState}
    (hGain :
      idnft.yieldMode ≠ .compound →
        idnft.accruedGain.val ≤ 0) :
    harvestCredit idnft = 0 := by
  unfold harvestCredit
  by_cases hMode : idnft.yieldMode = .compound
  · rw [hMode, ite_self]
  · rw [if_pos]
    rw [Signed.le_def, Signed.val_zero]
    exact hGain hMode

/- What a gain credits, in unbounded integers. -/
theorem harvestCredit_val
    {idnft : VowState}
    (hGain : 0 ≤ idnft.accruedGain.val) :
    ((harvestCredit idnft).val : Int) =
      match idnft.yieldMode with
      | .compound => 0
      | .treasury => idnft.accruedGain.val
      | .hybrid => idnft.accruedGain.val / 2 := by
  by_cases hNone : idnft.accruedGain.val ≤ 0
  · rw [harvestCredit_nothing (fun _ => hNone),
      Unsigned.val_zero]
    cases idnft.yieldMode with
    | compound => rfl
    | treasury =>
        dsimp only
        omega
    | hybrid =>
        dsimp only
        omega
  have hVal := accruedGain_toUnsigned hGain
  have hUpper := idnft.accruedGain.upper
  have hNot : ¬ idnft.accruedGain ≤ 0 := by
    rw [Signed.le_def, Signed.val_zero]
    exact hNone
  unfold harvestCredit
  rw [if_neg hNot]
  cases idnft.yieldMode with
  | compound => rfl
  | treasury => exact hVal
  | hybrid =>
      dsimp only
      rw [Unsigned.val_ofNat]
      omega

/- Only the Hybrid mode carries, and only an odd lamport. -/
theorem harvestCarry_val
    {idnft : VowState}
    (hGain : 0 ≤ idnft.accruedGain.val) :
    (harvestCarry idnft).val =
      match idnft.yieldMode with
      | .hybrid => idnft.accruedGain.val % 2
      | _ => 0 := by
  have hVal := accruedGain_toUnsigned hGain
  unfold harvestCarry
  cases idnft.yieldMode with
  | compound => exact Signed.val_zero
  | treasury => exact Signed.val_zero
  | hybrid =>
      dsimp only
      rw [Signed.val_clamp]
      omega

/- A credit burns the shares that pay for it. -/
theorem creditGain_ok
    {idnft idnft' : VowState}
    {config config' : ProtocolConfig}
    {amount harvested : U64}
    {carry : I64}
    (hOk :
      creditGain idnft config amount harvested carry =
        .ok (idnft', config')) :
    ∃ burned shares : U128,
      burned.val =
        amount.val * 1000000000000 /
          config.currentSharePrice.val ∧
      idnft.shares.val = shares.val + burned.val ∧
      idnft' = { idnft with
        shares := shares
        yieldBalance :=
          idnft.yieldBalance.saturatingAdd amount
        totalHarvested :=
          idnft.totalHarvested.saturatingAdd harvested
        accruedGain := carry } ∧
      config' = { config with
        totalShares :=
          config.totalShares.saturatingSub burned
        totalYieldClaims :=
          config.totalYieldClaims.saturatingAdd
            amount } := by
  unfold creditGain at hOk
  simp only [bind_eq_ok_iff, sharesToBurn_eq_ok_iff,
    require_eq_ok_iff, okOr_eq_ok_iff, pure_eq_ok_iff,
    Unsigned.checkedSub_eq_some_iff, exists_const,
    Prod.mk.injEq] at hOk
  rcases hOk with
    ⟨burned, hBurned, _, shares, hShares, hVow, hConfig⟩
  exact ⟨burned, shares, hBurned, hShares, hVow.symm,
    hConfig.symm⟩

/-
  A harvest in Compound mode, or of a gain that is not
  positive, clears the gain.
-/
theorem harvestGain_nothing
    {idnft : VowState}
    (hGain :
      idnft.yieldMode ≠ .compound →
        idnft.accruedGain.val ≤ 0)
    (config : ProtocolConfig) :
    ∃ harvested,
      harvestGain idnft config =
        .ok ({ idnft with
          totalHarvested := harvested
          accruedGain := 0 }, config) := by
  have hLe :
      idnft.yieldMode ≠ .compound →
        idnft.accruedGain ≤ 0 := by
    intro hMode
    rw [Signed.le_def, Signed.val_zero]
    exact hGain hMode
  unfold harvestGain
  cases hMode : idnft.yieldMode with
  | compound => exact ⟨_, rfl⟩
  | treasury =>
      dsimp only
      rw [if_pos (hLe (by rw [hMode]; simp))]
      exact ⟨idnft.totalHarvested, rfl⟩
  | hybrid =>
      dsimp only
      rw [if_pos (hLe (by rw [hMode]; simp))]
      exact ⟨idnft.totalHarvested, rfl⟩

/- Outside Compound mode a positive gain is credited. -/
theorem harvestGain_credits
    {idnft : VowState}
    (hMode : idnft.yieldMode ≠ .compound)
    (hGain : 0 < idnft.accruedGain.val)
    (config : ProtocolConfig) :
    harvestGain idnft config =
      creditGain idnft config (harvestCredit idnft)
        (idnft.accruedGain.toUnsigned 64)
        (harvestCarry idnft) := by
  have hNot : ¬ idnft.accruedGain ≤ 0 := by
    rw [Signed.le_def, Signed.val_zero]
    omega
  unfold harvestGain harvestCredit harvestCarry
  cases hCase : idnft.yieldMode with
  | compound => exact absurd hCase hMode
  | treasury =>
      dsimp only
      rw [if_neg hNot, if_neg hNot]
  | hybrid =>
      dsimp only
      rw [if_neg hNot, if_neg hNot]

/- What a harvest that credits a gain has computed. -/
structure MovedGain
    (idnft : VowState)
    (config : ProtocolConfig) where
  harvested : U64
  burned : U128
  shares : U128
  carry : I64
  hCredit :
    ((harvestCredit idnft).val : Int) + carry.val ≤
      idnft.accruedGain.val
  hCarry : 0 ≤ carry.val
  hBurned :
    burned.val =
      (harvestCredit idnft).val * 1000000000000 /
        config.currentSharePrice.val
  hSplit : idnft.shares.val = shares.val + burned.val

/-
  A harvest either credits nothing and clears the gain, or
  turns shares into yield out of a positive gain.
-/
theorem harvestGain_cases
    {idnft idnft' : VowState}
    {config config' : ProtocolConfig}
    (hHarvest :
      harvestGain idnft config = .ok (idnft', config')) :
    (∃ harvested,
      harvestCredit idnft = 0 ∧
      (idnft.yieldMode ≠ .compound →
        idnft.accruedGain.val ≤ 0) ∧
      idnft' = { idnft with
        totalHarvested := harvested, accruedGain := 0 } ∧
      config' = config) ∨
    (∃ moved : MovedGain idnft config,
      idnft' = { idnft with
        shares := moved.shares
        yieldBalance :=
          idnft.yieldBalance.saturatingAdd
            (harvestCredit idnft)
        totalHarvested := moved.harvested
        accruedGain := moved.carry } ∧
      config' = { config with
        totalShares :=
          config.totalShares.saturatingSub moved.burned
        totalYieldClaims :=
          config.totalYieldClaims.saturatingAdd
            (harvestCredit idnft) }) := by
  by_cases hGain :
      idnft.yieldMode ≠ .compound →
        idnft.accruedGain.val ≤ 0
  · rcases harvestGain_nothing hGain config with
      ⟨harvested, hNothing⟩
    rw [hNothing, Except.ok.injEq, Prod.mk.injEq] at hHarvest
    exact Or.inl ⟨harvested, harvestCredit_nothing hGain,
      hGain, hHarvest.1.symm, hHarvest.2.symm⟩
  · rw [Classical.not_imp, not_le] at hGain
    rcases hGain with ⟨hMode, hPositive⟩
    have hCredit := harvestCredit_val (le_of_lt hPositive)
    have hCarry := harvestCarry_val (le_of_lt hPositive)
    rw [harvestGain_credits hMode hPositive] at hHarvest
    rcases creditGain_ok hHarvest with
      ⟨burned, shares, hBurned, hShares, hVow, hConfig⟩
    have hSpent :
        ((harvestCredit idnft).val : Int) +
            (harvestCarry idnft).val ≤
          idnft.accruedGain.val := by
      rw [hCredit, hCarry]
      cases idnft.yieldMode with
      | compound =>
          dsimp only
          omega
      | treasury =>
          dsimp only
          omega
      | hybrid =>
          dsimp only
          omega
    have hRest : 0 ≤ (harvestCarry idnft).val := by
      rw [hCarry]
      cases idnft.yieldMode with
      | compound => exact le_refl 0
      | treasury => exact le_refl 0
      | hybrid =>
          dsimp only
          omega
    exact Or.inr ⟨⟨_, burned, shares, harvestCarry idnft,
      hSpent, hRest, hBurned, hShares⟩, hVow, hConfig⟩

/- It changes no more of the configuration than two totals. -/
theorem harvestGain_config
    {idnft idnft' : VowState}
    {config config' : ProtocolConfig}
    (hHarvest :
      harvestGain idnft config = .ok (idnft', config')) :
    ∃ totalShares totalYieldClaims,
      config' = { config with
        totalShares := totalShares
        totalYieldClaims := totalYieldClaims } := by
  rcases harvestGain_cases hHarvest with
    ⟨harvested, _, _, _, hSame⟩ | ⟨moved, _, hNext⟩
  · exact ⟨config.totalShares, config.totalYieldClaims, hSame⟩
  · exact ⟨_, _, hNext⟩

end Vow
