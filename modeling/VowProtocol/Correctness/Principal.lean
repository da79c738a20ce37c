import VowProtocol.Correctness.Identity

/-
  Principal protection along a price path: what has to hold
  at each harvest so that yield only comes out of net gain.

  Key definitions include:
    * `OpensPosition`
    * `Step.onPricePath`
    * `NoLossAtHarvest`
    * `PositionKept`

  Key theorems include:
    * `harvestGain_keeps_floor`
    * `opening_positionKept`
    * `pricePath_positionKept`
    * `principal_kept`
-/

------------------------------------------------------------
-- Value Of A Position
------------------------------------------------------------

namespace Vow

open MachineInt Fallible

/- Burning shares for a credit costs at most the credit. -/
theorem valueAt_burn
    {shares rest burned amount price : Nat}
    (hShares : shares = rest + burned)
    (hBurned : burned = amount * 1000000000000 / price) :
    valueAt shares price ≤ valueAt rest price + amount := by
  have hCost : burned * price ≤ amount * 1000000000000 := by
    rw [hBurned]
    exact Nat.div_mul_le_self _ _
  have hProduct :
      shares * price ≤
        rest * price + amount * 1000000000000 := by
    rw [hShares, Nat.add_mul]
    omega
  unfold valueAt
  omega

/-
  A harvest of a position without a net loss keeps its value
  above every floor that the value less the accrued gain has
  respected so far.
-/
theorem harvestGain_keeps_floor
    {vow settled vow' : VowState}
    {config config' : ProtocolConfig}
    {floor : Nat}
    (hSettle : settleIdnft vow config = .ok settled)
    (hGain : harvestGain settled config = .ok (vow', config'))
    (hMode : vow.yieldMode ≠ .compound)
    (hFloor :
      (floor : Int) + vow.accruedGain.val ≤
        valueAt vow.shares.val vow.lastSharePrice.val)
    (hNoLoss : 0 ≤ netGain vow config.currentSharePrice) :
    vow'.yieldMode ≠ .compound ∧
      vow'.lastSharePrice = config.currentSharePrice ∧
      config'.currentSharePrice = config.currentSharePrice ∧
      0 ≤ vow'.accruedGain.val ∧
      (floor : Int) + vow'.accruedGain.val ≤
        valueAt vow'.shares.val
          config.currentSharePrice.val := by
  have hSmall := settled_gain_le_netGain hSettle hNoLoss
  have hSettled := settleIdnft_ok hSettle
  have hShares : settled.shares = vow.shares := by
    rw [hSettled]
  have hModeSame : settled.yieldMode = vow.yieldMode := by
    rw [hSettled]
  have hPrice :
      settled.lastSharePrice =
        config.currentSharePrice := by
    rw [hSettled]
  unfold netGain at hNoLoss hSmall
  rcases harvestGain_cases hGain with
    ⟨harvested, _, _, hVow, hSame⟩ | ⟨moved, hVow, hNext⟩
  · subst hVow hSame
    refine ⟨hModeSame ▸ hMode, hPrice, rfl, by simp, ?_⟩
    dsimp only
    rw [hShares, Signed.val_zero]
    omega
  · subst hVow hNext
    have hSplit := moved.hSplit
    rw [hShares] at hSplit
    have hCost := valueAt_burn hSplit moved.hBurned
    have hCredit := moved.hCredit
    refine ⟨hModeSame ▸ hMode, hPrice, rfl, moved.hCarry, ?_⟩
    dsimp only
    omega

end Vow

------------------------------------------------------------
-- Price Paths
------------------------------------------------------------

namespace Vow

open MachineInt Fallible Transition

/-
  The instruction gives the identity a new position in the
  given mode: the mint of the next identity, or the
  re-activation of a dormant one.
-/
inductive OpensPosition
    (w : World)
    (vowState : Pubkey)
    (yieldMode : YieldMode) :
    Instruction → Prop where
  | mint
      (owner : Signer)
      (stakeLamports : U64)
      (config : ProtocolConfig)
      (hConfig : w.config = some config)
      (hNext :
        vowState = .vow (.vowAsset config.totalMinted)) :
      OpensPosition w vowState yieldMode
        (.mintVow owner stakeLamports yieldMode)
  | activate
      (owner : Signer)
      (stakeLamports : U64) :
      OpensPosition w vowState yieldMode
        (.activateStake owner vowState stakeLamports
          yieldMode)

/- A price update or a harvest, of any identity. -/
def Step.onPricePath
    (step : Step) :
    Bool :=
  match step.action with
  | .instruction (.updateSharePrice _) => true
  | .instruction (.devSetSharePrice _ _) => true
  | .instruction (.harvest _) => true
  | _ => false

/-
  The step harvests no loss of the identity: gain and loss
  pending before a harvest of it do not add up to a loss at
  the current price.
-/
def NoLossAtHarvest
    (vowState : Pubkey)
    (o : Occurrence World Step) :
    Prop :=
  o.action.action = .instruction (.harvest vowState) →
  ∀ config vow,
    o.before.config = some config →
    o.before.vows.lookup vowState = some vow →
    0 ≤ netGain vow config.currentSharePrice

/-
  A harvest of the identity leaves a position worth at least
  the floor at the price of the harvest.
-/
def HarvestKeeps
    (floor : Nat)
    (vowState : Pubkey)
    (o : Occurrence World Step) :
    Prop :=
  o.action.action = .instruction (.harvest vowState) →
  ∀ config vow',
    o.before.config = some config →
    o.after.vows.lookup vowState = some vow' →
    floor ≤
      valueAt vow'.shares.val config.currentSharePrice.val

/-
  The value at the last settled price, less the gain that is
  still pending, has stayed above the floor.
-/
def PositionKept
    (floor : Nat)
    (vowState : Pubkey)
    (w : World) :
    Prop :=
  ∃ vow,
    w.vows.lookup vowState = some vow ∧
    vow.yieldMode ≠ .compound ∧
    (floor : Int) + vow.accruedGain.val ≤
      valueAt vow.shares.val vow.lastSharePrice.val

/-
  A new position has no gain and is settled at the price that
  its shares were bought at. Yield left from an earlier
  position stays.
-/
theorem opening_vow
    {env : Env}
    {w w' : World}
    {ix : Instruction}
    {vowState : Pubkey}
    {yieldMode : YieldMode}
    (hOpens : OpensPosition w vowState yieldMode ix)
    (hOk : execute env w ix = .ok w') :
    ∃ config config' vow,
      w.config = some config ∧
      w'.config = some config' ∧
      config'.currentSharePrice =
        config.currentSharePrice ∧
      config'.splStakePool = config.splStakePool ∧
      w'.vows.lookup vowState = some vow ∧
      vow.accruedGain = 0 ∧
      vow.lastSharePrice = config.currentSharePrice ∧
      vow.yieldMode = yieldMode ∧
      ((∀ old, w.vows.lookup vowState = some old →
          old.yieldBalance.val = 0) →
        vow.yieldBalance.val = 0) := by
  cases hOpens with
  | mint owner stakeLamports before hBefore hNext =>
      rcases mintVow_ok hOk with ⟨call, hEq⟩
      have hConfig := call.hConfig
      rw [hBefore] at hConfig
      have hSame := Option.some.inj hConfig
      subst hSame
      subst hEq
      refine ⟨call.config, _,
        mintedVow env call.config owner stakeLamports
          yieldMode call.stakeClass call.shares
          call.unlockAt,
        call.hConfig, rfl, rfl, rfl, ?_, rfl, rfl, rfl,
        fun _ => Unsigned.val_zero⟩
      rw [hNext]
      exact AList.lookup_insert _
  | activate owner stakeLamports =>
      rcases activateStake_ok hOk with ⟨call, hEq⟩
      subst hEq
      refine ⟨call.config, _, _, call.hConfig, rfl, rfl, rfl,
        AList.lookup_insert _, rfl, rfl, rfl, ?_⟩
      intro hYield
      rw [settleIdnft_eq_settled call.hSettle]
      exact hYield call.vow call.hLookup

/- A new position is its own floor. -/
theorem opening_positionKept
    {env : Env}
    {w w' : World}
    {ix : Instruction}
    {vowState : Pubkey}
    {yieldMode : YieldMode}
    {config : ProtocolConfig}
    {vow : VowState}
    (hOpens : OpensPosition w vowState yieldMode ix)
    (hMode : yieldMode ≠ .compound)
    (hOk : execute env w ix = .ok w')
    (hConfig : w'.config = some config)
    (hLookup : w'.vows.lookup vowState = some vow) :
    PositionKept
      (valueAt vow.shares.val config.currentSharePrice.val)
      vowState w' := by
  rcases opening_vow hOpens hOk with
    ⟨before, after, found, _, hAfter, hPrice, _, hFound,
      hGain, hLast, hOpened, _⟩
  rw [hConfig] at hAfter
  rw [hLookup] at hFound
  rw [← Option.some.inj hAfter] at hPrice
  rw [← Option.some.inj hFound] at hGain hLast hOpened
  refine ⟨vow, hLookup, ?_, ?_⟩
  · rw [hOpened]
    exact hMode
  · rw [hGain, hLast, hPrice, Signed.val_zero, Int.add_zero]

/- A harvest without a loss keeps the position's floor. -/
theorem harvest_positionKept
    {env : Env}
    {w w' : World}
    {vowState : Pubkey}
    {floor : Nat}
    (hOk : harvest env w vowState = .ok w')
    (hNoLoss :
      ∀ config vow,
        w.config = some config →
        w.vows.lookup vowState = some vow →
        0 ≤ netGain vow config.currentSharePrice)
    (hKept : PositionKept floor vowState w) :
    PositionKept floor vowState w' ∧
      ∀ config vow',
        w.config = some config →
        w'.vows.lookup vowState = some vow' →
        floor ≤ valueAt vow'.shares.val
          config.currentSharePrice.val := by
  rcases harvest_eq_ok_iff.mp hOk with
    ⟨call, vow', config', hGain, hEq⟩
  have hSettle := call.hSettle
  rcases hKept with ⟨found, hFound, hMode, hFloor⟩
  rw [call.hLookup] at hFound
  rw [← Option.some.inj hFound] at hMode hFloor
  rcases matureIfDue_cases env.unixTimestamp call.vow with
    ⟨_, hDue, _⟩
  rw [hDue] at hSettle
  have hLoss := hNoLoss call.config call.vow call.hConfig
    call.hLookup
  rcases harvestGain_keeps_floor hSettle hGain hMode hFloor
      hLoss with ⟨hMode', hPrice, _, hCarry, hFloor'⟩
  subst hEq
  refine ⟨⟨vow', AList.lookup_insert _, hMode', ?_⟩, ?_⟩
  · rw [hPrice]
    exact hFloor'
  · intro current after hCurrent hAfter
    rw [AList.lookup_insert] at hAfter
    rw [call.hConfig] at hCurrent
    rw [← Option.some.inj hAfter, ← Option.some.inj hCurrent]
    omega

/- Every other harvest leaves the position alone. -/
theorem harvest_other_positionKept
    {env : Env}
    {w w' : World}
    {other vowState : Pubkey}
    {floor : Nat}
    (hOk : harvest env w other = .ok w')
    (hOther : vowState ≠ other)
    (hKept : PositionKept floor vowState w) :
    PositionKept floor vowState w' := by
  rcases harvest_eq_ok_iff.mp hOk with
    ⟨call, vow', config', _, hEq⟩
  rcases hKept with ⟨vow, hLookup, hRest⟩
  subst hEq
  refine ⟨vow, ?_, hRest⟩
  rw [AList.lookup_insert_ne hOther]
  exact hLookup

/- Every step of a price path without loss keeps the floor. -/
theorem pricePath_positionKept
    {w w' : World}
    {step : Step}
    {vowState : Pubkey}
    {floor : Nat}
    (hKept : PositionKept floor vowState w)
    (hExec : step.exec w = some w')
    (hPath : step.onPricePath = true)
    (hNoLoss : NoLossAtHarvest vowState ⟨w, step, w'⟩) :
    PositionKept floor vowState w' := by
  rcases step with ⟨env, action⟩
  cases action with
  | instruction ix =>
      have hOk := Step.exec_instruction_iff.mp hExec
      cases ix with
      | updateSharePrice splPool =>
          rcases updateSharePrice_ok hOk with ⟨call, hEq⟩
          subst hEq
          exact hKept
      | devSetSharePrice admin newPrice =>
          rcases devSetSharePrice_ok hOk with ⟨call, hEq⟩
          subst hEq
          exact hKept
      | harvest other =>
          by_cases hOther : vowState = other
          · subst hOther
            exact (harvest_positionKept hOk (hNoLoss rfl)
              hKept).1
          · exact harvest_other_positionKept hOk hOther hKept
      | _ =>
          exact absurd hPath (by simp [Step.onPricePath])
  | _ =>
      exact absurd hPath (by simp [Step.onPricePath])

/-
  Along a price path that harvests no loss of the identity,
  every harvest leaves the position worth at least what it
  was worth when it was opened.
-/
theorem principal_kept
    {env : Env}
    {w₀ w : World}
    {ix : Instruction}
    {vowState : Pubkey}
    {yieldMode : YieldMode}
    {config : ProtocolConfig}
    {vow : VowState}
    {steps : List Step}
    (hOpens : OpensPosition w₀ vowState yieldMode ix)
    (hMode : yieldMode ≠ .compound)
    (hOk : execute env w₀ ix = .ok w)
    (hConfig : w.config = some config)
    (hLookup : w.vows.lookup vowState = some vow)
    (hPath : ∀ step ∈ steps, step.onPricePath = true)
    (hNoLoss :
      ∀ o ∈ w.trace steps, NoLossAtHarvest vowState o) :
    ∀ o ∈ w.trace steps,
      HarvestKeeps
        (valueAt vow.shares.val config.currentSharePrice.val)
        vowState o := by
  have hInit :=
    opening_positionKept hOpens hMode hOk hConfig hLookup
  -- The floor is an invariant of the steps on the path.
  have hSteps :
      ∀ o ∈ w.trace steps,
        o.action.onPricePath = true ∧
          NoLossAtHarvest vowState o := by
    intro o ho
    exact ⟨hPath _ (mem_trace_action ho), hNoLoss o ho⟩
  have hBefore :=
    (trace_invariant
      (fun _ _ _ hKept hExec hStep =>
        pricePath_positionKept hKept hExec hStep.1 hStep.2)
      hInit hSteps).1
  intro o ho hHarvest current vow' hCurrent hAfter
  have hExec := mem_trace_exec ho
  rcases o with ⟨before, ⟨stepEnv, action⟩, after⟩
  dsimp only at hHarvest
  subst hHarvest
  exact (harvest_positionKept
    (Step.exec_instruction_iff.mp hExec)
    (hNoLoss _ ho rfl) (hBefore _ ho)).2 current vow'
      hCurrent hAfter

/- A fresh program, before its first mint. -/
def freshChain : World :=
  sampleChain.run [sampleInit]

def freshMint : Instruction :=
  .mintVow sampleOwner 1000000000 .treasury

/- One XNT staked at the initial price. -/
def mintedChain : World :=
  freshChain.run [sampleStep 0 0 freshMint]

/- The configuration around a first mint of one XNT. -/
def mintConfig
    (price totalShares : U128)
    (totalMinted : U64) :
    ProtocolConfig where
  admin := sampleAdmin.key
  currentSharePrice := price
  totalShares := totalShares
  totalYieldClaims := 0
  lastPoolLamports := 0
  totalMinted := totalMinted
  merkleTree := .default
  totalPendingUnstake := 0
  splStakePool := .default
  splPoolMint := .default

def firstVow : VowState :=
  mintedVow (sampleEnv 0 0)
    (mintConfig 1000000000000 0 0) sampleOwner 1000000000
    .treasury 0 1000000000 2592000

theorem freshMint_opens :
    OpensPosition freshChain sampleVow .treasury freshMint :=
  .mint sampleOwner 1000000000
    (mintConfig 1000000000000 0 0) (by decide +kernel) rfl

theorem freshMint_ok :
    execute (sampleEnv 0 0) freshChain freshMint =
      .ok (freshChain.run [sampleStep 0 0 freshMint]) :=
  execute_eq_run (by decide +kernel)

theorem mintedChain_config :
    mintedChain.config =
      some (mintConfig 1000000000000 1000000000 1) := by
  decide +kernel

theorem mintedChain_vow :
    mintedChain.vows.lookup sampleVow = some firstVow := by
  decide +kernel

def priceStep
    (price : U128) :
    Step :=
  sampleStep 0 0 (.devSetSharePrice sampleAdmin price)

def harvestStep : Step :=
  sampleStep 0 0 (.harvest sampleVow)

/- The price doubles. -/
def risingPath : List Step :=
  [priceStep 2000000000000]

def risenChain : World :=
  mintedChain.run risingPath

theorem risenChain_config :
    risenChain.config =
      some (mintConfig 2000000000000 1000000000 1) := by
  decide +kernel

theorem risingPath_noLoss :
    ∀ o ∈ mintedChain.trace (risingPath ++ [harvestStep]),
      NoLossAtHarvest sampleVow o := by
  intro o ho hHarvest config vow hConfig hVow
  rcases mem_trace_cons ho with ⟨_, hAction⟩ | hLater
  · rw [hAction] at hHarvest
    exact absurd hHarvest
      (by simp [priceStep, sampleStep])
  rcases mem_trace_cons hLater with ⟨hBefore, _⟩ | hNone
  · have hVow' :
        risenChain.vows.lookup sampleVow =
          some firstVow := by
      decide +kernel
    rw [hBefore] at hConfig hVow
    rw [← Option.some.inj
        (risenChain_config.symm.trans hConfig),
      ← Option.some.inj (hVow'.symm.trans hVow)]
    decide +kernel
  · exact absurd hNone (by simp)

/- The position after the harvest of the gain. -/
def harvestedVow : VowState :=
  { firstVow with
    shares := 500000000
    lastSharePrice := 2000000000000
    yieldBalance := 1000000000
    totalHarvested := 1000000000 }

theorem principal_kept_rising :
    (risenChain.run [harvestStep]).vows.lookup sampleVow =
        some harvestedVow ∧
      1000000000 ≤
        valueAt harvestedVow.shares.val 2000000000000 := by
  have hOk :
      execute (sampleEnv 0 0) risenChain
          (.harvest sampleVow) =
        .ok (risenChain.run [harvestStep]) :=
    execute_eq_run (by decide +kernel)
  have hMem :
      ⟨risenChain, harvestStep,
          risenChain.run [harvestStep]⟩ ∈
        mintedChain.trace (risingPath ++ [harvestStep]) :=
    mem_trace_last (Step.exec_instruction_iff.mpr hOk)
  have hVow :
      (risenChain.run [harvestStep]).vows.lookup sampleVow =
        some harvestedVow := by
    decide +kernel
  exact ⟨hVow, principal_kept freshMint_opens (by decide)
    freshMint_ok mintedChain_config mintedChain_vow
    (by decide) risingPath_noLoss _ hMem rfl _ _
    risenChain_config hVow⟩

/-
  The price halves, the loss is harvested away, and the price
  recovers.
-/
def dipPath : List Step :=
  [priceStep 500000000000, harvestStep,
    priceStep 1000000000000]

/-
  After a dip and a recovery a harvest turns half of the
  principal into yield.
-/
theorem dip_harvest_credits_principal :
    OpensPosition freshChain sampleVow .treasury freshMint ∧
      execute (sampleEnv 0 0) freshChain freshMint =
        .ok mintedChain ∧
      (∀ step ∈ dipPath ++ [harvestStep],
        step.onPricePath = true) ∧
      ∃ o ∈ mintedChain.trace (dipPath ++ [harvestStep]),
        o.action = harvestStep ∧
        (o.before.vows.lookup sampleVow).map
          (fun vow => vow.yieldBalance.val) = some 0 ∧
        (o.after.vows.lookup sampleVow).map
          (fun vow => vow.yieldBalance.val) =
            some 500000000 ∧
        ¬HarvestKeeps
          (valueAt firstVow.shares.val 1000000000000)
          sampleVow o := by
  refine ⟨freshMint_opens, freshMint_ok, by decide, ?_⟩
  have hExec :
      Step.exec (mintedChain.run dipPath) harvestStep =
        some (mintedChain.run (dipPath ++ [harvestStep])) := by
    have hOk :
        execute (sampleEnv 0 0) (mintedChain.run dipPath)
            (.harvest sampleVow) =
          .ok ((mintedChain.run dipPath).run
            [harvestStep]) :=
      execute_eq_run (by decide +kernel)
    exact Step.exec_instruction_iff.mpr hOk
  have hMem :
      ⟨mintedChain.run dipPath, harvestStep,
          mintedChain.run (dipPath ++ [harvestStep])⟩ ∈
        mintedChain.trace (dipPath ++ [harvestStep]) :=
    mem_trace_last hExec
  refine ⟨_, hMem, rfl, by decide +kernel,
    by decide +kernel, ?_⟩
  intro hKeeps
  have hConfig :
      (mintedChain.run dipPath).config =
        some (mintConfig 1000000000000 1000000000 1) := by
    decide +kernel
  have hBelow :
      ∃ vow,
        (mintedChain.run
          (dipPath ++ [harvestStep])).vows.lookup
            sampleVow = some vow ∧
        valueAt vow.shares.val 1000000000000 <
          valueAt firstVow.shares.val 1000000000000 :=
    ⟨{ firstVow with
        shares := 500000000
        yieldBalance := 500000000
        totalHarvested := 500000000 },
      by decide +kernel, by decide +kernel⟩
  rcases hBelow with ⟨vow, hVow, hBelow⟩
  have hAbove := hKeeps rfl _ vow hConfig hVow
  exact absurd hBelow (Nat.not_lt.mpr hAbove)

end Vow
