import VowProtocol.Correctness.Payout
import VowProtocol.Correctness.Phases
import VowProtocol.Correctness.Principal
import VowProtocol.Correctness.Solvency

/-
  The accrued gain of a position: what bounds it while the
  stake is live, what a harvest credits of it, and what a new
  deposit can earn.

  Key definitions include:
    * `Backed`
    * `VowState.openGain`
    * `crankedPrice`

  Key theorems include:
    * `Backed.settled`
    * `liveBacked_reachable`
    * `harvest_never_underflows`
    * `harvest_treasury`
    * `updateSharePrice_cases`
    * `updateSharePrice_price`
    * `deposit_earns_nothing_iff`
-/

------------------------------------------------------------
-- Backed Gains
------------------------------------------------------------

namespace Vow

open MachineInt Fallible Transition

/- The accrued gain is part of the value of the position. -/
def Backed
    (vow : VowState) :
    Prop :=
  vow.accruedGain.val ≤
    valueAt vow.shares.val vow.lastSharePrice.val

/-
  A settlement adds the change of value to the gain. Clamping
  only ever lowers a positive gain.
-/
theorem Backed.settled
    {vow : VowState}
    (hBacked : Backed vow)
    (price : U128) :
    Backed (vow.settled price) := by
  have hUpper := vow.accruedGain.upper
  unfold Backed at hBacked
  unfold Backed VowState.settled
  dsimp only
  rw [Signed.val_saturatingAdd, Signed.val_clamp]
  omega

/- Value only grows with the number of shares. -/
theorem valueAt_mono
    {fewer more : Nat}
    (hLe : fewer ≤ more)
    (price : Nat) :
    valueAt fewer price ≤ valueAt more price :=
  Nat.div_le_div_right (Nat.mul_le_mul_right price hLe)

theorem TopsUp.backed
    {env : Env}
    {config : ProtocolConfig}
    {lamportsToAdd : U64}
    {vow vow' : VowState}
    (hTopUp : TopsUp env config lamportsToAdd vow vow')
    (hBacked : Backed vow) :
    Backed vow' := by
  have hSettled := hBacked.settled config.currentSharePrice
  have hMore :
      ∀ shares : U128,
        shares.val =
          vow.shares.val +
            lamportsToAdd.val * 1000000000000 /
              config.currentSharePrice.val →
        (vow.settled
            config.currentSharePrice).accruedGain.val ≤
          valueAt shares.val
            config.currentSharePrice.val := by
    intro shares hShares
    have hLe : vow.shares.val ≤ shares.val := by
      rw [hShares]
      exact Nat.le_add_right _ _
    have hMono :=
      valueAt_mono hLe config.currentSharePrice.val
    exact le_trans hSettled (Int.ofNat_le.mpr hMono)
  cases hTopUp with
  | sameClass principal newClass shares hPrincipal
      hNewClass hShares =>
      exact hMore shares hShares
  | raisesClass principal newClass shares unlockAt
      hPrincipal hNewClass hShares =>
      exact hMore shares hShares

/- A harvest carries no more than the shares it leaves. -/
theorem harvestGain_backed
    {vow vow' : VowState}
    {config config' : ProtocolConfig}
    (hGain : harvestGain vow config = .ok (vow', config'))
    (hPrice : vow.lastSharePrice = config.currentSharePrice)
    (hBacked : Backed vow) :
    Backed vow' := by
  unfold Backed at hBacked ⊢
  rcases harvestGain_cases hGain with
    ⟨harvested, _, _, hVow, _⟩ | ⟨moved, hVow, _⟩
  · subst hVow
    rw [Signed.val_zero]
    exact Int.natCast_nonneg _
  · subst hVow
    have hCredit := moved.hCredit
    have hCost := valueAt_burn moved.hSplit moved.hBurned
    rw [← hPrice] at hCost
    dsimp only
    omega

/- The gain of a live position is backed. -/
def LiveBacked
    (life : Life) :
    Prop :=
  life.vow.activeStake = true → life.unstaking = false →
    Backed life.vow

theorem LifeBirth.liveBacked
    {env : Env}
    {config : ProtocolConfig}
    {vowState : Pubkey}
    {ix : Instruction}
    {life : Life}
    (hBirth : LifeBirth env config vowState ix life) :
    LiveBacked life := by
  cases hBirth with
  | mint =>
      intro _ _
      exact Int.natCast_nonneg _

theorem matureIfDue_backed
    {now : I64}
    {vow : VowState}
    (hBacked : Backed vow) :
    Backed (matureIfDue now vow) := by
  rcases matureIfDue_cases now vow with ⟨_, hDue, _⟩
  rw [hDue]
  exact hBacked

theorem LifeStep.liveBacked
    {env : Env}
    {config : ProtocolConfig}
    {vowState : Pubkey}
    {ix : Instruction}
    {life life' : Life}
    (hStep : LifeStep env config vowState ix life life')
    (hBacked : LiveBacked life) :
    LiveBacked life' := by
  intro hActive' hOpen'
  cases hStep with
  | topUp owner lamportsToAdd vow vow' unstaking hActive
      hStaked hTopUp =>
      exact hTopUp.backed (hBacked hActive hOpen')
  | switchMode owner newMode vow unstaking hActive =>
      exact (hBacked hActive hOpen').settled
        config.currentSharePrice
  | unstake => exact absurd hOpen' (by simp)
  | complete =>
      exact absurd hActive' (by simp [dormantVow])
  | activate => exact Int.natCast_nonneg _
  | harvest config' vow vow' unstaking hGain =>
      have hSame : vow'.activeStake = vow.activeStake := by
        rcases harvestGain_step hGain with ⟨harvested, hVow⟩
        rw [hVow]
      have hLive := hBacked (hSame.symm.trans hActive') hOpen'
      exact harvestGain_backed hGain rfl
        ((matureIfDue_backed hLive).settled
          config.currentSharePrice)
  | _ => exact hBacked hActive' hOpen'

theorem liveBacked_reachable
    {w : World}
    (hReach : Reachable w)
    {vowState : Pubkey}
    {life : Life}
    (hLife : w.life vowState = some life) :
    LiveBacked life := by
  refine hReach.life_invariant ?_ ?_ hLife
  · intro env config ix life hBirth
    exact hBirth.liveBacked
  · intro env config ix life life' hBacked hStep
    exact hStep.liveBacked hBacked

end Vow

------------------------------------------------------------
-- Harvests Of Live Positions
------------------------------------------------------------

namespace Vow

open MachineInt Fallible Transition

/- A credit within the value burns no more than the shares. -/
theorem burn_le_shares
    {amount shares price : Nat}
    (hValue : amount ≤ valueAt shares price) :
    amount * 1000000000000 / price ≤ shares := by
  have hScaled :
      amount * 1000000000000 ≤ shares * price :=
    (Nat.le_div_iff_mul_le (by decide)).mp hValue
  apply Nat.div_le_of_le_mul
  rw [Nat.mul_comm price shares]
  exact hScaled

theorem creditGain_avoids_sharesUnderflow
    {vow : VowState}
    {config : ProtocolConfig}
    {amount harvested : U64}
    {carry : I64}
    (hValue :
      amount.val ≤
        valueAt vow.shares.val
          config.currentSharePrice.val) :
    Avoids (.vow .sharesUnderflow)
      (creditGain vow config amount harvested carry) := by
  unfold creditGain
  have hBurn :
      Avoids (.vow .sharesUnderflow)
        (sharesToBurn amount config.currentSharePrice) := by
    unfold sharesToBurn
    refine (Avoids.okOr_of_ne (by simp)).bind ?_
    intro _ _
    exact Avoids.pure _
  refine hBurn.bind ?_
  intro burned hBurned
  have hEnough : burned ≤ vow.shares := by
    rw [sharesToBurn_eq_ok_iff] at hBurned
    rw [Unsigned.le_def, hBurned]
    exact burn_le_shares hValue
  refine (Avoids.require hEnough).bind ?_
  intro _ _
  refine (Avoids.okOr_of_ne (by simp)).bind ?_
  intro _ _
  exact Avoids.pure _

/- Half of a backed gain, and all of it, are covered. -/
theorem harvestGain_avoids_sharesUnderflow
    {vow : VowState}
    {config : ProtocolConfig}
    (hPrice : vow.lastSharePrice = config.currentSharePrice)
    (hBacked : Backed vow) :
    Avoids (.vow .sharesUnderflow)
      (harvestGain vow config) := by
  unfold Backed at hBacked
  rw [hPrice] at hBacked
  by_cases hGain :
      vow.yieldMode ≠ .compound → vow.accruedGain.val ≤ 0
  · rcases harvestGain_nothing hGain config with
      ⟨harvested, hNothing⟩
    rw [hNothing]
    exact Avoids.ok _
  · rw [Classical.not_imp, not_le] at hGain
    rcases hGain with ⟨hMode, hPositive⟩
    have hCredit := harvestCredit_val (le_of_lt hPositive)
    rw [harvestGain_credits hMode hPositive]
    apply creditGain_avoids_sharesUnderflow
    cases hCase : vow.yieldMode with
    | compound => exact absurd hCase hMode
    | treasury =>
        rw [hCase] at hCredit
        dsimp only at hCredit
        omega
    | hybrid =>
        rw [hCase] at hCredit
        dsimp only at hCredit
        omega

theorem harvest_avoids_sharesUnderflow
    {env : Env}
    {w : World}
    {vowState : Pubkey}
    {vow : VowState}
    (hLookup : w.vows.lookup vowState = some vow)
    (hBacked : Backed vow) :
    Avoids (.vow .sharesUnderflow)
      (harvest env w vowState) := by
  unfold harvest
  refine (Avoids.okOr_of_ne (by simp)).bind ?_
  intro config _
  refine (loadVow_avoids (by simp) (by simp)).bind ?_
  intro loaded hLoaded
  rw [loadVow_eq_ok_iff, hLookup] at hLoaded
  rw [← Option.some.inj hLoaded.1]
  refine (settleIdnft_avoids (by simp)).bind ?_
  intro settled hSettle
  rw [settleIdnft_eq_settled hSettle]
  refine (harvestGain_avoids_sharesUnderflow rfl
    ((matureIfDue_backed hBacked).settled
      config.currentSharePrice)).bind ?_
  intro _ _
  exact Avoids.pure _

/-
  While a stake is live its gain is backed by its shares, so
  a harvest never runs out of them, at whatever price and in
  whatever mode.
-/
theorem harvest_never_underflows
    {w : World}
    (hReach : Reachable w)
    {vowState : Pubkey}
    {vow : VowState}
    (hLookup : w.vows.lookup vowState = some vow)
    (hActive : vow.activeStake = true)
    (hOpen : w.escrows.lookup (.unstake vowState) = none) :
    vow.accruedGain.val ≤
      valueAt vow.shares.val vow.lastSharePrice.val ∧
    (∀ env,
      execute env w (.harvest vowState) ≠
        .error (.vow .sharesUnderflow)) ∧
    ∀ env (config : ProtocolConfig) price yieldMode,
      execute env
        { w with
          config := some
            { config with currentSharePrice := price }
          vows := w.vows.insert vowState
            { vow with yieldMode := yieldMode } }
        (.harvest vowState) ≠
          .error (.vow .sharesUnderflow) := by
  have hBacked : Backed vow := by
    refine liveBacked_reachable hReach
      (World.life_of_lookup hLookup) hActive ?_
    rw [hOpen]
    rfl
  refine ⟨hBacked, ?_, ?_⟩
  · intro env
    exact harvest_avoids_sharesUnderflow hLookup hBacked
  · intro env config price yieldMode
    exact harvest_avoids_sharesUnderflow
      (AList.lookup_insert _) hBacked

/- A Treasury position that has doubled. -/
theorem harvest_never_underflows_gain :
    ∃ vow,
      gainChain.vows.lookup sampleVow = some vow ∧
        vow.accruedGain.val ≤
          valueAt vow.shares.val vow.lastSharePrice.val := by
  have hFound :
      (gainChain.vows.lookup sampleVow).map
        (fun vow => vow.activeStake) = some true := by
    decide +kernel
  rcases Option.map_eq_some_iff.mp hFound with
    ⟨vow, hLookup, hActive⟩
  exact ⟨vow, hLookup,
    (harvest_never_underflows
      gainChain_openReachable.reachable hLookup hActive
      (by decide +kernel)).1⟩

end Vow

------------------------------------------------------------
-- Unharvested Gains
------------------------------------------------------------

namespace Vow

open MachineInt Fallible Transition

/-
  The gain that is not harvested yet at a price: what has
  accrued, and the change of value since it was settled as
  far as 64 bits hold it.
-/
def VowState.openGain
    (vow : VowState)
    (price : U128) :
    Int :=
  vow.accruedGain.val +
    (Signed.clamp 63
      ((valueAt vow.shares.val price.val : Int) -
        valueAt vow.shares.val vow.lastSharePrice.val)).val

theorem settled_gain_nonpos_iff
    {vow : VowState}
    {price : U128} :
    (vow.settled price).accruedGain.val ≤ 0 ↔
      vow.openGain price ≤ 0 := by
  unfold VowState.settled VowState.openGain
  dsimp only
  rw [Signed.val_saturatingAdd]
  omega

/- In Treasury mode every positive gain is credited. -/
theorem harvestCredit_treasury_zero_iff
    {vow : VowState}
    (hMode : vow.yieldMode = .treasury) :
    (harvestCredit vow).val = 0 ↔
      vow.accruedGain.val ≤ 0 := by
  by_cases hGain : vow.accruedGain.val ≤ 0
  · rw [harvestCredit_nothing (fun _ => hGain),
      Unsigned.val_zero]
    exact iff_of_true rfl hGain
  · have hCredit :=
      harvestCredit_val (show 0 ≤ vow.accruedGain.val by omega)
    rw [hMode] at hCredit
    dsimp only at hCredit
    omega

/-
  A harvest in Treasury mode leaves an empty balance empty
  exactly when there was no gain to harvest.
-/
theorem harvest_treasury
    {env : Env}
    {w w' : World}
    {vowState : Pubkey}
    {config : ProtocolConfig}
    {vow : VowState}
    (hConfig : w.config = some config)
    (hLookup : w.vows.lookup vowState = some vow)
    (hMode : vow.yieldMode = .treasury)
    (hYield : vow.yieldBalance.val = 0)
    (hOk : harvest env w vowState = .ok w') :
    ∃ vow',
      w'.vows.lookup vowState = some vow' ∧
        (vow'.yieldBalance.val = 0 ↔
          vow.openGain config.currentSharePrice ≤ 0) := by
  rcases harvest_eq_ok_iff.mp hOk with
    ⟨call, vow', config', hGain, hEq⟩
  have hFound := call.hConfig
  have hLoaded := call.hLookup
  have hSettle := call.hSettle
  rw [hConfig] at hFound
  rw [hLookup] at hLoaded
  rw [← Option.some.inj hFound] at hSettle hGain
  rw [← Option.some.inj hLoaded] at hSettle
  rcases matureIfDue_cases env.unixTimestamp vow with
    ⟨matured, hDue, _⟩
  rw [settleIdnft_eq_settled hSettle, hDue] at hGain
  subst hEq
  refine ⟨vow', AList.lookup_insert _, ?_⟩
  have hOpen :
      (VowState.settled { vow with matured := matured }
          config.currentSharePrice).accruedGain.val ≤ 0 ↔
        vow.openGain config.currentSharePrice ≤ 0 :=
    settled_gain_nonpos_iff
  rw [← hOpen]
  rcases harvestGain_cases hGain with
    ⟨harvested, _, hNone, hVow, _⟩ | ⟨moved, hVow, _⟩
  · subst hVow
    have hGone := hNone (by simp [VowState.settled, hMode])
    exact ⟨fun _ => hGone, fun _ => hYield⟩
  · subst hVow
    have hCredit :
        (harvestCredit
            (VowState.settled { vow with matured := matured }
              config.currentSharePrice)).val = 0 ↔
          (VowState.settled { vow with matured := matured }
            config.currentSharePrice).accruedGain.val ≤ 0 :=
      harvestCredit_treasury_zero_iff hMode
    rw [← hCredit]
    have hZero :
        (VowState.settled { vow with matured := matured }
          config.currentSharePrice).yieldBalance.val = 0 :=
      hYield
    dsimp only
    rw [Unsigned.val_saturatingAdd, hZero, Unsigned.maxVal]
    omega

end Vow

------------------------------------------------------------
-- Deposits At A Cached Price
------------------------------------------------------------

namespace Vow

open MachineInt Fallible Transition

/-
  The price that a crank copies from a pool account over the
  cached one. A pool without tokens leaves the cache alone.
-/
def crankedPrice
    (cached : U128)
    (pool : AccountInfo) :
    Nat :=
  if (poolTokenSupply pool).val = 0 then
    cached.val
  else
    max 1 ((poolTotalLamports pool).val * 1000000000000 /
      (poolTokenSupply pool).val)

/- The price of a pool with tokens is its rounded rate. -/
theorem poolSharePrice_val
    {totalLamports supply : U64}
    {price : U128}
    (hSupply : supply.val ≠ 0)
    (hOk : poolSharePrice totalLamports supply = .ok price) :
    price.val =
      max 1 (totalLamports.val * 1000000000000 /
        supply.val) := by
  unfold poolSharePrice at hOk
  simp only [bind_eq_ok_iff, okOr_eq_ok_iff, pure_eq_ok_iff,
    Unsigned.checkedMul_eq_some_iff] at hOk
  rcases hOk with ⟨scaled, hScaled, hEq⟩
  have hTotal :=
    Unsigned.val_cast_of_le (v := 128) (by decide)
      totalLamports
  have hDivisor :=
    Unsigned.val_cast_of_le (v := 128) (by decide) supply
  have hRate :
      ((scaled.checkedDiv (supply.cast 128)).getD 1).val =
        totalLamports.val * 1000000000000 / supply.val := by
    rw [Unsigned.val_getD_checkedDiv (by omega), hScaled,
      hTotal, hDivisor]
    rfl
  have hOne : (1 : U128).val = 1 := rfl
  subst hEq
  split
  case isTrue hLow =>
    rw [Unsigned.lt_def, hRate, hOne] at hLow
    rw [hOne]
    omega
  case isFalse hHigh =>
    rw [Unsigned.lt_def, hRate, hOne] at hHigh
    rw [hRate]
    omega

/-
  A crank does nothing without a pool. With one it leaves the
  price and the lamports of the pool.
-/
theorem updateSharePrice_cases
    {w w' : World}
    {config : ProtocolConfig}
    {pool : AccountInfo}
    (hConfig : w.config = some config)
    (hOk : updateSharePrice w pool = .ok w') :
    pool.key = config.splStakePool ∧
      ((config.splStakePool = .default ∧ w' = w) ∨
        ∃ price : U128,
          config.splStakePool ≠ .default ∧
          price.val =
            crankedPrice config.currentSharePrice pool ∧
          w' = { w with
            config := some { config with
              currentSharePrice := price
              lastPoolLamports :=
                poolTotalLamports pool } }) := by
  unfold updateSharePrice at hOk
  simp only [bind_eq_ok_iff, loadConfig_eq_ok_iff,
    require_eq_ok_iff, exists_const] at hOk
  rcases hOk with ⟨found, hFound, hKey, hOk⟩
  rw [hConfig, Option.some.injEq] at hFound
  subst hFound
  refine ⟨hKey, ?_⟩
  by_cases hReal : config.splStakePool = .default
  · rw [if_pos hReal, pure_eq_ok_iff] at hOk
    exact Or.inl ⟨hReal, hOk.symm⟩
  rw [if_neg hReal] at hOk
  simp only [bind_eq_ok_iff, require_eq_ok_iff,
    exists_const] at hOk
  rcases hOk with ⟨_, hOk⟩
  unfold crankedPrice
  by_cases hSupply : 0 < poolTokenSupply pool
  · rw [if_pos hSupply] at hOk
    rw [Unsigned.lt_def, Unsigned.val_zero] at hSupply
    simp only [bind_eq_ok_iff, pure_eq_ok_iff] at hOk
    rcases hOk with ⟨price, hPrice, hEq⟩
    refine Or.inr ⟨price, hReal, ?_, hEq.symm⟩
    rw [if_neg (by omega)]
    exact poolSharePrice_val (by omega) hPrice
  · rw [if_neg hSupply] at hOk
    rw [Unsigned.lt_def, Unsigned.val_zero] at hSupply
    simp only [bind_eq_ok_iff, pure_eq_ok_iff] at hOk
    rcases hOk with ⟨price, hPrice, hEq⟩
    refine Or.inr ⟨price, hReal, ?_, hEq.symm⟩
    rw [if_pos (by omega)]
    exact congrArg Unsigned.val (Except.ok.inj hPrice).symm

/- With a real pool, a crank leaves the price of the pool. -/
theorem updateSharePrice_price
    {w w' : World}
    {config : ProtocolConfig}
    {pool : AccountInfo}
    (hConfig : w.config = some config)
    (hReal : config.splStakePool ≠ .default)
    (hOk : updateSharePrice w pool = .ok w') :
    ∃ config',
      w'.config = some config' ∧
        w'.vows = w.vows ∧
        config'.currentSharePrice.val =
          crankedPrice config.currentSharePrice pool := by
  rcases (updateSharePrice_cases hConfig hOk).2 with
    ⟨hNone, _⟩ | ⟨price, _, hPrice, hEq⟩
  · exact absurd hNone hReal
  · subst hEq
    exact ⟨_, rfl, rfl, hPrice⟩

/- A fresh position has gained only what its shares have. -/
theorem openGain_fresh_iff
    {vow : VowState}
    {price : U128}
    (hGain : vow.accruedGain = 0) :
    vow.openGain price ≤ 0 ↔
      valueAt vow.shares.val price.val ≤
        valueAt vow.shares.val vow.lastSharePrice.val := by
  unfold VowState.openGain
  rw [hGain, Signed.val_zero, Signed.val_clamp]
  omega

/-
  A deposit at the cached price earns nothing from the next
  crank exactly when its shares are worth no more at the
  price of the pool. An accepted mint finds no old identity.
-/
theorem deposit_earns_nothing_iff
    {env₁ env₂ env₃ : Env}
    {w w₁ w₂ w₃ : World}
    {config : ProtocolConfig}
    {vowState : Pubkey}
    {ix : Instruction}
    {pool : AccountInfo}
    (hConfig : w.config = some config)
    (hReal : config.splStakePool ≠ .default)
    (hOpens : OpensPosition w vowState .treasury ix)
    (hEmpty :
      ∀ old, w.vows.lookup vowState = some old →
        old.yieldBalance.val = 0)
    (hDeposit : execute env₁ w ix = .ok w₁)
    (hCrank :
      execute env₂ w₁ (.updateSharePrice pool) = .ok w₂)
    (hHarvest :
      execute env₃ w₂ (.harvest vowState) = .ok w₃) :
    ∃ opened vow,
      w₁.vows.lookup vowState = some opened ∧
      w₃.vows.lookup vowState = some vow ∧
      (vow.yieldBalance.val = 0 ↔
        valueAt opened.shares.val
            (crankedPrice config.currentSharePrice pool) ≤
          valueAt opened.shares.val
            config.currentSharePrice.val) ∧
      (crankedPrice config.currentSharePrice pool ≤
          config.currentSharePrice.val →
        vow.yieldBalance.val = 0) := by
  rcases opening_vow hOpens hDeposit with
    ⟨before, config₁, opened, hBefore, hConfig₁, hPrice,
      hPool, hOpened, hGain, hLast, hMode, hYield⟩
  rw [hConfig] at hBefore
  have hSame := Option.some.inj hBefore
  subst hSame
  rcases updateSharePrice_price hConfig₁
      (by rw [hPool]; exact hReal) hCrank with
    ⟨config₂, hConfig₂, hVows, hCranked⟩
  rw [← hVows] at hOpened
  rcases harvest_treasury hConfig₂ hOpened hMode
      (hYield hEmpty) hHarvest with
    ⟨vow, hLookup, hCredit⟩
  rw [openGain_fresh_iff hGain, hCranked, hPrice, hLast]
    at hCredit
  rw [hVows] at hOpened
  refine ⟨opened, vow, hOpened, hLookup, hCredit, ?_⟩
  intro hLower
  exact hCredit.mpr
    (Nat.div_le_div_right (Nat.mul_le_mul_left _ hLower))

/- A program over a real pool, before its first mint. -/
def pooledChain : World :=
  sampleChain.run
    [sampleStep 0 0
      (.initializeConfig sampleAdmin samplePool (.key 7)
        (.key 8))]

/- The pool after it has doubled its lamports. -/
def grownPool : AccountInfo where
  key := .key 7
  data :=
    List.replicate 264 0 ++ [2, 0, 0, 0, 0, 0, 0, 0, 1, 0, 0]

def pooledConfig : ProtocolConfig where
  admin := sampleAdmin.key
  currentSharePrice := 1000000000000
  totalShares := 0
  totalYieldClaims := 0
  lastPoolLamports := poolTotalLamports samplePool
  totalMinted := 0
  merkleTree := .default
  totalPendingUnstake := 0
  splStakePool := .key 7
  splPoolMint := .key 8

theorem pooledChain_config :
    pooledChain.config = some pooledConfig := by
  decide +kernel

def pooledMint : Instruction :=
  .mintVow sampleOwner 1000000000 .treasury

theorem pooledMint_opens :
    OpensPosition pooledChain sampleVow .treasury
      pooledMint :=
  .mint sampleOwner 1000000000 pooledConfig
    pooledChain_config rfl

/- The chain after a mint and a crank over the given pool. -/
def crankedChain
    (pool : AccountInfo) :
    World :=
  (pooledChain.run [sampleStep 0 0 pooledMint]).run
    [sampleStep 0 0 (.updateSharePrice pool)]

/-
  The pool has doubled before the mint, and nobody has
  cranked the price since.
-/
theorem deposit_earns_earlier_growth :
    Reachable pooledChain ∧
      pooledChain.config = some pooledConfig ∧
      pooledConfig.splStakePool ≠ .default ∧
      OpensPosition pooledChain sampleVow .treasury
        pooledMint ∧
      ∃ w₁ w₂ w₃,
        execute (sampleEnv 0 0) pooledChain pooledMint =
          .ok w₁ ∧
        execute (sampleEnv 0 0) w₁
            (.updateSharePrice grownPool) = .ok w₂ ∧
        execute (sampleEnv 0 0) w₂ (.harvest sampleVow) =
          .ok w₃ ∧
        (w₃.vows.lookup sampleVow).map
            (fun vow => vow.yieldBalance.val) =
          some 1000000000 := by
  refine ⟨⟨_, _, rfl⟩, pooledChain_config, by decide,
    pooledMint_opens, _, _, _,
    execute_eq_run (by decide +kernel),
    execute_eq_run (by decide +kernel),
    execute_eq_run (by decide +kernel),
    by decide +kernel⟩

/- A mint while the cached price is that of the pool. -/
theorem deposit_earns_nothing_iff_synced :
    ∃ w₃ vow,
      execute (sampleEnv 0 0) (crankedChain samplePool)
          (.harvest sampleVow) = .ok w₃ ∧
        w₃.vows.lookup sampleVow = some vow ∧
        vow.yieldBalance.val = 0 := by
  have hDeposit :
      execute (sampleEnv 0 0) pooledChain pooledMint =
        .ok (pooledChain.run
          [sampleStep 0 0 pooledMint]) :=
    execute_eq_run (by decide +kernel)
  have hCrank :
      execute (sampleEnv 0 0)
          (pooledChain.run [sampleStep 0 0 pooledMint])
          (.updateSharePrice samplePool) =
        .ok (crankedChain samplePool) :=
    execute_eq_run (by decide +kernel)
  have hHarvest :
      execute (sampleEnv 0 0) (crankedChain samplePool)
          (.harvest sampleVow) =
        .ok ((crankedChain samplePool).run
          [sampleStep 0 0 (.harvest sampleVow)]) :=
    execute_eq_run (by decide +kernel)
  have hFresh : pooledChain.vows.lookup sampleVow = none := by
    decide +kernel
  rcases deposit_earns_nothing_iff pooledChain_config
      (by decide) pooledMint_opens
      (by rw [hFresh]; intro old hOld; cases hOld)
      hDeposit hCrank hHarvest with
    ⟨_, vow, _, hLookup, _, hNothing⟩
  exact ⟨_, vow, hHarvest, hLookup,
    hNothing (by decide +kernel)⟩

end Vow
