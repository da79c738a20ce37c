import VowProtocol.Correctness.Gains
import VowProtocol.Correctness.Reputation

/-
  What an exit leaves behind: the identity is emptied until
  its next activation exactly when no gain was left
  unharvested at the exit.

  Key definitions include:
    * `Spent`
    * `Emptied`
    * `NoResidualClaim`

  Key theorems include:
    * `LifeStep.spent`
    * `harvest_spent`
    * `exit_leaves_nothing_iff`
-/

------------------------------------------------------------
-- Spent Identities
------------------------------------------------------------

namespace Vow

open MachineInt Fallible Transition

/-
  An identity with nothing left to claim. Yield can only be
  deposited for an active stake that is not exiting.
-/
structure Spent
    (life : Life) :
    Prop where
  shares : life.vow.shares.val = 0
  yieldBalance : life.vow.yieldBalance.val = 0
  gain : life.vow.accruedGain.val ≤ 0
  exiting :
    life.vow.activeStake = true → life.unstaking = true

/- Without shares no price changes the accrued gain. -/
theorem openGain_of_no_shares
    {vow : VowState}
    (hShares : vow.shares.val = 0)
    (price : U128) :
    vow.openGain price = vow.accruedGain.val := by
  unfold VowState.openGain valueAt
  rw [hShares, Signed.val_clamp]
  omega

theorem settled_gain_nonpos
    {vow : VowState}
    (hShares : vow.shares.val = 0)
    (hGain : vow.accruedGain.val ≤ 0)
    (price : U128) :
    (vow.settled price).accruedGain.val ≤ 0 := by
  rw [settled_gain_nonpos_iff, openGain_of_no_shares hShares]
  exact hGain

/- The whole harvest of a position without shares or gain. -/
theorem harvestGain_spent
    {vow : VowState}
    (hShares : vow.shares.val = 0)
    (hGain : vow.accruedGain.val ≤ 0)
    (now : I64)
    (config : ProtocolConfig) :
    ∃ matured harvested,
      harvestGain
          ((matureIfDue now vow).settled
            config.currentSharePrice) config =
        .ok ({ vow with
          matured := matured
          totalHarvested := harvested
          accruedGain := 0
          lastSharePrice := config.currentSharePrice },
          config) := by
  rcases matureIfDue_cases now vow with ⟨matured, hDue, _⟩
  have hNonpos :
      (VowState.settled { vow with matured := matured }
        config.currentSharePrice).accruedGain.val ≤ 0 :=
    settled_gain_nonpos hShares hGain _
  rcases harvestGain_nothing (fun _ => hNonpos) config with
    ⟨harvested, hNothing⟩
  rw [hDue, hNothing]
  exact ⟨matured, harvested, rfl⟩

/- Only an activation gives a spent identity a new claim. -/
theorem LifeStep.spent
    {env : Env}
    {config : ProtocolConfig}
    {vowState : Pubkey}
    {ix : Instruction}
    {life life' : Life}
    (hStep : LifeStep env config vowState ix life life')
    (hKeeps : ix.activates vowState = false)
    (hSpent : Spent life) :
    Spent life' := by
  cases hStep with
  | topUp owner lamportsToAdd vow vow' unstaking hActive
      hStaked hTopUp =>
      have hNone := hSpent.shares
      dsimp only at hNone
      omega
  | switchMode owner newMode vow unstaking hActive =>
      exact { hSpent with
        gain := settled_gain_nonpos hSpent.shares hSpent.gain
          config.currentSharePrice }
  | unstake owner vow hActive hMature =>
      exact absurd (hSpent.exiting hActive) (by simp)
  | complete owner vow =>
      exact { hSpent with
        exiting := fun hActive => absurd hActive (by
          simp [dormantVow]) }
  | activate =>
      exact absurd hKeeps (by simp [Instruction.activates])
  | harvest config' vow vow' unstaking hGain =>
      rcases harvestGain_spent hSpent.shares hSpent.gain
          env.unixTimestamp config with
        ⟨matured, harvested, hNothing⟩
      rw [hNothing] at hGain
      have hVow := congrArg Prod.fst (Except.ok.inj hGain)
      dsimp only at hVow
      subst hVow
      exact { hSpent with gain := le_of_eq Signed.val_zero }
  | deposit depositor amount vow hActive =>
      exact absurd (hSpent.exiting hActive) (by simp)
  | withdraw owner taken amount yieldBalance vow unstaking
      hBalance =>
      have hNone := hSpent.yieldBalance
      dsimp only at hNone
      exact { hSpent with
        yieldBalance := by
          dsimp only
          omega }
  | spend ix yieldBalance vow unstaking hIdentity hActive
      hBalance =>
      have hNone := hSpent.yieldBalance
      dsimp only at hNone
      exact { hSpent with
        yieldBalance := by
          dsimp only
          omega }
  | _ => exact { hSpent with }

end Vow

------------------------------------------------------------
-- Harvests Of A Spent Identity
------------------------------------------------------------

namespace Vow

open MachineInt Fallible Transition

/- Settling a position without shares cannot overflow. -/
theorem settleIdnft_of_no_shares
    {vow : VowState}
    (hShares : vow.shares.val = 0)
    (config : ProtocolConfig) :
    settleIdnft vow config =
      .ok (vow.settled config.currentSharePrice) := by
  have hNothing :
      ∀ price : U128,
        vow.shares.val * price.val < 2 ^ 128 := by
    intro price
    rw [hShares, Nat.zero_mul]
    exact Nat.two_pow_pos 128
  exact settleIdnft_of_fits (hNothing vow.lastSharePrice)
    (hNothing config.currentSharePrice)

/- A harvest of a spent identity succeeds without a credit. -/
theorem harvest_spent
    {env : Env}
    {w : World}
    {vowState : Pubkey}
    {config : ProtocolConfig}
    {vow : VowState}
    (hConfig : w.config = some config)
    (hLookup : w.vows.lookup vowState = some vow)
    (hAddress : vowState = .vow vow.assetId)
    (hShares : vow.shares.val = 0)
    (hGain : vow.accruedGain.val ≤ 0) :
    ∃ w' vow',
      harvest env w vowState = .ok w' ∧
        w'.config = w.config ∧
        w'.vows.lookup vowState = some vow' ∧
        vow'.yieldBalance = vow.yieldBalance := by
  have hDueShares :
      (matureIfDue env.unixTimestamp vow).shares.val = 0 := by
    rcases matureIfDue_cases env.unixTimestamp vow with
      ⟨_, hDue, _⟩
    rw [hDue]
    exact hShares
  rcases harvestGain_spent hShares hGain env.unixTimestamp
      config with
    ⟨matured, harvested, hNothing⟩
  have hOk :
      harvest env w vowState = .ok { w with
        config := some config
        vows := w.vows.insert vowState
          { vow with
            matured := matured
            totalHarvested := harvested
            accruedGain := 0
            lastSharePrice := config.currentSharePrice } } := by
    unfold harvest
    simp only [bind_eq_ok_iff, loadConfig_eq_ok_iff,
      loadVow_eq_ok_iff, pure_eq_ok_iff]
    exact ⟨config, hConfig, vow, ⟨hLookup, hAddress⟩, _,
      settleIdnft_of_no_shares hDueShares config, _,
      hNothing, rfl⟩
  exact ⟨_, _, hOk, hConfig.symm, AList.lookup_insert _, rfl⟩

end Vow

------------------------------------------------------------
-- Residual Claims
------------------------------------------------------------

namespace Vow

open MachineInt Fallible Transition

/-
  The identity holds nothing, and every harvest of it
  succeeds and credits nothing. There is a harvest only while
  the configuration account exists.
-/
def Emptied
    (w : World)
    (vowState : Pubkey) :
    Prop :=
  ∃ vow,
    w.vows.lookup vowState = some vow ∧
      vow.shares.val = 0 ∧
      vow.yieldBalance.val = 0 ∧
      (w.config ≠ none →
        ∀ env, ∃ w' vow',
          execute env w (.harvest vowState) = .ok w' ∧
            w'.config = w.config ∧
            w'.vows.lookup vowState = some vow' ∧
            vow'.yieldBalance.val = 0)

/-
  The identity stays emptied whatever anyone does, until it
  is activated again.
-/
def NoResidualClaim
    (w : World)
    (vowState : Pubkey) :
    Prop :=
  ∀ steps,
    (∀ o ∈ w.trace steps,
      o.action.activates vowState = false) →
    Emptied (w.run steps) vowState

theorem NoResidualClaim.emptied
    {w : World}
    {vowState : Pubkey}
    (hClaim : NoResidualClaim w vowState) :
    Emptied w vowState :=
  hClaim [] (by intro o ho; cases ho)

theorem Spent.emptied
    {w : World}
    {vowState : Pubkey}
    {life : Life}
    (hSpent : Spent life)
    (hLife : w.life vowState = some life)
    (hAddress : vowState = .vow life.vow.assetId) :
    Emptied w vowState := by
  have hLookup := (World.life_eq_some_iff.mp hLife).1
  refine ⟨life.vow, hLookup, hSpent.shares,
    hSpent.yieldBalance, ?_⟩
  intro hOpen env
  rcases Option.ne_none_iff_exists'.mp hOpen with
    ⟨config, hConfig⟩
  rcases harvest_spent hConfig hLookup hAddress
      hSpent.shares hSpent.gain with
    ⟨w', vow', hOk, hSame, hLookup', hYield⟩
  refine ⟨w', vow', hOk, hSame, hLookup', ?_⟩
  rw [hYield]
  exact hSpent.yieldBalance

/- A spent identity keeps no claim. -/
theorem Spent.noResidualClaim
    {w : World}
    {vowState : Pubkey}
    {life : Life}
    (hOwned : EscrowOwned w)
    (hLife : w.life vowState = some life)
    (hAddress : vowState = .vow life.vow.assetId)
    (hSpent : Spent life) :
    NoResidualClaim w vowState := by
  intro steps hSteps
  -- The seed of the address is carried along the run.
  have hKept :
      ∃ life',
        (w.run steps).life vowState = some life' ∧
          Spent life' ∧
            vowState = .vow life'.vow.assetId := by
    refine World.life_until_activated ?_ hOwned hLife
      ⟨hSpent, hAddress⟩ hSteps
    intro env config ix before after hStep hKeeps hHolds
    refine ⟨hStep.spent hKeeps hHolds.1, ?_⟩
    rw [hStep.permanent.assetId]
    exact hHolds.2
  rcases hKept with ⟨life', hLife', hSpent', hAddress'⟩
  exact hSpent'.emptied hLife' hAddress'

/- A gain without shares blocks a harvest into yield. -/
theorem Emptied.gain_nonpos
    {w : World}
    {vowState : Pubkey}
    {config : ProtocolConfig}
    {vow : VowState}
    (hEmptied : Emptied w vowState)
    (hConfig : w.config = some config)
    (hLookup : w.vows.lookup vowState = some vow)
    (hMode : vow.yieldMode = .treasury)
    (env : Env) :
    vow.accruedGain.val ≤ 0 := by
  rcases hEmptied with
    ⟨found, hFound, hShares, hYield, hHarvests⟩
  rw [hLookup] at hFound
  rw [← Option.some.inj hFound] at hShares hYield
  have hOpen : w.config ≠ none := by
    rw [hConfig]
    simp
  rcases hHarvests hOpen env with
    ⟨w', vow', hOk, _, hLookup', hNothing⟩
  rcases harvest_treasury hConfig hLookup hMode hYield hOk
    with ⟨credited, hCredited, hIff⟩
  rw [hLookup'] at hCredited
  rw [← Option.some.inj hCredited,
    openGain_of_no_shares hShares] at hIff
  exact hIff.mp hNothing

/- The owner of an emptied stake can switch its mode. -/
theorem updateYieldMode_of_no_shares
    {w : World}
    {owner : Signer}
    {vowState : Pubkey}
    {newMode : YieldMode}
    {config : ProtocolConfig}
    {vow : VowState}
    (hConfig : w.config = some config)
    (hLookup : w.vows.lookup vowState = some vow)
    (hAddress : vowState = .vow vow.assetId)
    (hOwner : vow.owner = owner.key)
    (hActive : vow.activeStake = true)
    (hMode : vow.yieldMode ≠ newMode)
    (hShares : vow.shares.val = 0) :
    updateYieldMode w owner vowState newMode =
      .ok { w with
        vows := w.vows.insert vowState
          { vow.settled config.currentSharePrice with
            yieldMode := newMode } } := by
  unfold updateYieldMode
  simp only [bind_eq_ok_iff, loadConfig_eq_ok_iff,
    loadVowAsOwner_eq_ok_iff, require_eq_ok_iff,
    pure_eq_ok_iff, exists_const]
  exact ⟨config, hConfig, vow, ⟨hLookup, hAddress, hOwner⟩,
    hActive, hMode, _,
    settleIdnft_of_no_shares hShares config, rfl⟩

/-
  Whoever exits with a gain can be left with a claim: in
  Treasury mode a harvest exposes it at once, and from the
  other modes the owner switches first.
-/
theorem NoResidualClaim.gain_nonpos
    {w : World}
    {owner : Signer}
    {vowState : Pubkey}
    {config : ProtocolConfig}
    {vow : VowState}
    (hClaim : NoResidualClaim w vowState)
    (hConfig : w.config = some config)
    (hLookup : w.vows.lookup vowState = some vow)
    (hAddress : vowState = .vow vow.assetId)
    (hOwner : vow.owner = owner.key)
    (hActive : vow.activeStake = true)
    (hShares : vow.shares.val = 0)
    (env : Env) :
    vow.accruedGain.val ≤ 0 := by
  by_cases hMode : vow.yieldMode = .treasury
  · exact hClaim.emptied.gain_nonpos hConfig hLookup hMode
      env
  · have hSwitch :=
      updateYieldMode_of_no_shares hConfig hLookup hAddress
        hOwner hActive hMode hShares
    have hEmptied :=
      hClaim
        [⟨env, .instruction
          (.updateYieldMode owner vowState .treasury)⟩]
        (by
          intro o ho
          rw [List.mem_singleton.mp (mem_trace_action ho)]
          rfl)
    have hRun :
        w.run [⟨env, .instruction
          (.updateYieldMode owner vowState .treasury)⟩] =
            _ :=
      advance_of_some (Step.exec_instruction_iff.mpr hSwitch)
    rw [hRun] at hEmptied
    have hGain :=
      hEmptied.gain_nonpos hConfig (AList.lookup_insert _)
        rfl env
    dsimp only at hGain
    rw [settled_gain_nonpos_iff,
      openGain_of_no_shares hShares] at hGain
    exact hGain

/-
  An exit leaves no claim behind exactly when the position
  had no gain left to harvest: the accrued gain is not
  cleared together with the shares and the yield balance.
-/
theorem exit_leaves_nothing_iff
    {env : Env}
    {w w' : World}
    {owner : Signer}
    {vowState : Pubkey}
    {config : ProtocolConfig}
    {vow : VowState}
    (hReach : Reachable w)
    (hConfig : w.config = some config)
    (hLookup : w.vows.lookup vowState = some vow)
    (hOk :
      execute env w (.beginUnstake owner vowState) =
        .ok w') :
    NoResidualClaim w' vowState ↔
      vow.openGain config.currentSharePrice ≤ 0 := by
  have hOwned :=
    execute_escrowOwned hOk (escrowOwned_reachable hReach)
  rcases beginUnstake_ok hOk with ⟨call, hEq⟩
  have hConfig' := call.hConfig
  have hLoaded := call.hLookup
  rw [hConfig] at hConfig'
  rw [hLookup] at hLoaded
  have hBefore := Option.some.inj hConfig'
  have hFound := Option.some.inj hLoaded
  subst hBefore hFound
  have hExited :
      ∃ vow' : VowState,
        vow' = { call.vow.settled
            call.config.currentSharePrice with
          matured := true
          shares := 0
          yieldBalance := 0 } :=
    ⟨_, rfl⟩
  rcases hExited with ⟨vow', hVow⟩
  have hLookup' : w'.vows.lookup vowState = some vow' := by
    rw [hEq, hVow]
    exact AList.lookup_insert _
  have hGain :
      vow'.accruedGain.val ≤ 0 ↔
        call.vow.openGain call.config.currentSharePrice ≤
          0 := by
    rw [hVow]
    exact settled_gain_nonpos_iff
  have hAddress' : vowState = .vow vow'.assetId := by
    rw [hVow]
    exact call.hSeeds
  have hNone : vow'.shares.val = 0 := by
    rw [hVow]
    exact Unsigned.val_zero
  rw [← hGain]
  constructor
  · intro hClaim
    have hAfter : w'.config = some _ := congrArg _ hEq
    have hOwner' : vow'.owner = owner.key := by
      rw [hVow]
      exact call.hOwner
    have hActive' : vow'.activeStake = true := by
      rw [hVow]
      exact call.hActive
    exact hClaim.gain_nonpos hAfter hLookup' hAddress'
      hOwner' hActive' hNone env
  · intro hNonpos
    have hExit : w'.life vowState = some ⟨vow', true⟩ := by
      refine World.life_eq_some_iff.mpr ⟨hLookup', ?_⟩
      rw [hEq]
      dsimp only
      rw [AList.lookup_insert]
      rfl
    refine Spent.noResidualClaim hOwned hExit hAddress' ?_
    refine ⟨hNone, ?_, hNonpos, fun _ => rfl⟩
    dsimp only
    rw [hVow]
    exact Unsigned.val_zero

/-
  A Treasury stake over a real pool exits after its lock, at
  the price that was cranked after its deposit.
-/
def exitedChain
    (pool : AccountInfo) :
    World :=
  (crankedChain pool).run
    [sampleStep 2592000 1
      (.beginUnstake sampleOwner sampleVow)]

theorem crankedChain_reachable
    (pool : AccountInfo) :
    Reachable (crankedChain pool) := by
  have hInit : Reachable pooledChain := ⟨_, _, rfl⟩
  exact (hInit.run _).run _

/-
  The pool has doubled: the gain is owed by the escrow and
  still accrued, and the next harvest runs out of shares.
-/
theorem exit_leaves_gain :
    Reachable (crankedChain grownPool) ∧
      execute (sampleEnv 2592000 1) (crankedChain grownPool)
          (.beginUnstake sampleOwner sampleVow) =
        .ok (exitedChain grownPool) ∧
      ((exitedChain grownPool).escrows.lookup
          (.unstake sampleVow)).map
            (fun escrow => escrow.lamportsOwed.val) =
        some 2000000000 ∧
      ((exitedChain grownPool).vows.lookup sampleVow).map
          (fun vow => vow.accruedGain.val) =
        some 1000000000 ∧
      (∀ w',
        execute (sampleEnv 2592000 1)
          (exitedChain grownPool) (.harvest sampleVow) ≠
            .ok w') ∧
      ¬NoResidualClaim (exitedChain grownPool) sampleVow := by
  have hStuck :
      (execute (sampleEnv 2592000 1)
        (exitedChain grownPool)
        (.harvest sampleVow)).toOption = none :=
    Option.isNone_iff_eq_none.mp (by decide +kernel)
  have hFails :
      ∀ w',
        execute (sampleEnv 2592000 1)
          (exitedChain grownPool) (.harvest sampleVow) ≠
            .ok w' := by
    intro w' hOk
    rw [hOk] at hStuck
    cases hStuck
  refine ⟨crankedChain_reachable _,
    execute_eq_run (by decide +kernel), by decide +kernel,
    by decide +kernel, hFails, ?_⟩
  intro hClaim
  rcases hClaim.emptied with ⟨_, _, _, _, hHarvests⟩
  rcases hHarvests (by decide +kernel) (sampleEnv 2592000 1)
    with ⟨w', _, hOk, _⟩
  exact hFails w' hOk

/- The pool has not moved since the deposit. -/
theorem exit_leaves_nothing_iff_flat :
    NoResidualClaim (exitedChain samplePool) sampleVow := by
  have hConfig :
      ((crankedChain samplePool).config.map
        (fun config => config.currentSharePrice)) =
          some 1000000000000 := by
    decide +kernel
  have hFound :
      ((crankedChain samplePool).vows.lookup sampleVow).map
          (fun vow => vow.openGain 1000000000000) =
        some 0 := by
    decide +kernel
  rcases Option.map_eq_some_iff.mp hConfig with
    ⟨config, hOpen, hPrice⟩
  rcases Option.map_eq_some_iff.mp hFound with
    ⟨vow, hLookup, hGain⟩
  refine (exit_leaves_nothing_iff (crankedChain_reachable _)
    hOpen hLookup (execute_eq_run (by decide +kernel))).mpr ?_
  rw [hPrice, hGain]

end Vow
