import VowProtocol.Correctness.Refinement
import Mathlib.Data.List.Infix

/-
  Solvency of whole runs: the margin of the reserve over all
  claims, and the three running counters of the configuration
  against the accounts that they summarise.

  Key definitions include:
    * `World.margin`
    * `sharesSubtrahend`
    * `yieldAddend`
    * `yieldSubtrahend`

  Key theorems include:
    * `margin_of_execute`
    * `totalShares_exact`
    * `totalYieldClaims_exact`
    * `totalPendingUnstake_exact`
-/

------------------------------------------------------------
-- Margin
------------------------------------------------------------

namespace Vow

open MachineInt Fallible ShareLedger

/-
  What the reserve holds beyond all claims at a price, scaled
  by `SHARE_PRECISION`.
-/
def World.margin
    (price : U128)
    (w : World) :
    Int :=
  w.reserve * SHARE_PRECISION.val -
    price.val * w.sumShares -
    SHARE_PRECISION.val * (w.sumYield + w.sumOwed)

theorem World.margin_eq
    {w : World}
    {price : U128}
    (hPrice : w.ledger.price = price.val) :
    w.margin price = w.ledger.margin SHARE_PRECISION.val := by
  unfold World.margin Ledger.margin
  rw [hPrice]
  rfl

/- The owner and treasury instructions. -/
def Instruction.movesClaims : Instruction → Bool
| .mintVow _ _ _ => true
| .addStake _ _ _ => true
| .activateStake _ _ _ _ => true
| .updateYieldMode _ _ _ => true
| .beginUnstake _ _ => true
| .completeUnstake _ _ => true
| .depositYieldBalance _ _ _ => true
| .withdrawYield _ _ _ => true
| .yieldSpend _ => true
| _ => false

theorem Instruction.kind_of_movesClaims
    {ix : Instruction}
    (hMoves : ix.movesClaims = true) :
    ix.kind ≠ .credit ∧ ix.kind ≠ .drift ∧
      ∀ admin, ix ≠ .closeProtocolConfig admin := by
  cases ix <;> simp_all [movesClaims, kind]

/-
  No owner or treasury instruction lowers the margin at the
  current price, and a harvest lowers it by less than one
  share's worth.
-/
theorem margin_of_execute
    {env : Env}
    {w w' : World}
    {ix : Instruction}
    {config : ProtocolConfig}
    (hConfig : w.config = some config)
    (hPrice : 1 ≤ config.currentSharePrice.val)
    (hOk : execute env w ix = .ok w') :
    (ix.movesClaims = true →
      w.margin config.currentSharePrice ≤
        w'.margin config.currentSharePrice) ∧
    (∀ vowState, ix = .harvest vowState →
      w.margin config.currentSharePrice -
          config.currentSharePrice.val <
        w'.margin config.currentSharePrice) := by
  have hBefore :
      w.ledger.price = config.currentSharePrice.val := by
    rw [World.ledger_of_config hConfig]
  constructor
  · intro hMoves
    rcases Instruction.kind_of_movesClaims hMoves with
      ⟨hCredit, hDrift, hOpen⟩
    have hMove := execute_move hOk hOpen
    have hAfter := (hMove.price_eq hDrift).trans hBefore
    rw [World.margin_eq hBefore, World.margin_eq hAfter]
    exact hMove.margin_le hCredit hDrift
  · rintro vowState rfl
    have hMove := harvest_move hOk
    have hAfter := (hMove.price_eq (by simp)).trans hBefore
    have hLoss := hMove.margin_credit_lt (by omega)
    rw [World.margin_eq hBefore, World.margin_eq hAfter]
    omega

/- One Treasury identity whose position has doubled. -/
def gainSteps : List Step :=
  [sampleInit,
    sampleStep 0 0
      (.mintVow sampleOwner 5000000000 .treasury),
    sampleStep 0 0
      (.devSetSharePrice sampleAdmin 2000000000000)]

def gainChain : World :=
  sampleChain.run gainSteps

def gainConfig : ProtocolConfig where
  admin := sampleAdmin.key
  currentSharePrice := 2000000000000
  totalShares := 5000000000
  totalYieldClaims := 0
  lastPoolLamports := 0
  totalMinted := 1
  merkleTree := .default
  totalPendingUnstake := 0
  splStakePool := .default
  splPoolMint := .default

theorem gainChain_config :
    gainChain.config = some gainConfig := by
  decide +kernel

theorem margin_of_execute_harvest :
    gainChain.margin gainConfig.currentSharePrice -
        gainConfig.currentSharePrice.val <
      (gainChain.run
        [sampleStep 0 0 (.harvest sampleVow)]).margin
          gainConfig.currentSharePrice :=
  (margin_of_execute gainChain_config (by decide)
    (execute_eq_run (by decide +kernel))).2 sampleVow rfl

end Vow

------------------------------------------------------------
-- Share Counter
------------------------------------------------------------

namespace Vow

open MachineInt Fallible ShareLedger

/-
  A relation between sums and counters that every move keeps
  holds in every run that never closes the configuration.
-/
theorem openReachable_invariant
    {P : Ledger → Prop}
    (hEmpty :
      ∀ lamports, P (World.genesis lamports).ledger)
    (hStep :
      ∀ kind (w w' : World),
        VowMove kind w w' → P w.ledger → P w'.ledger)
    {w : World}
    (hReach : OpenReachable w) :
    P w.ledger := by
  rcases hReach with ⟨lamports, steps, hOpen, hRun⟩
  have hSteps :
      ∀ (w : World) (step : Step) (w' : World),
        step.closesConfig = false → P w.ledger →
        step.exec w = some w' → P w'.ledger := by
    intro w step w' hKeeps hHolds hExec
    exact hStep _ w w' (exec_move hExec hKeeps) hHolds
  rw [hRun]
  exact Transition.run_invariant
    (P := fun w : World => P w.ledger) hSteps
    (hEmpty lamports) hOpen

/- Every sum and every counter starts at zero. -/
theorem genesis_ledger
    (lamports : Lamports) :
    (World.genesis lamports).ledger =
      { price := 0
        reserve := lamports .reserve
        shares := 0
        yields := 0
        owed := 0
        shareCounter := 0
        yieldCounter := 0
        pendingCounter := 0 } := rfl

theorem shareCounter_openReachable
    {w : World}
    (hReach : OpenReachable w) :
    w.ledger.shareCounter = w.ledger.shares := by
  apply openReachable_invariant
    (P := fun l => l.shareCounter = l.shares) ?_ ?_ hReach
  · intro lamports
    rw [genesis_ledger]
  · intro kind w w' hMove hExact
    exact hMove.shareCounter_exact hExact

/- The configuration and settled identity of a harvest. -/
def settledAt
    (env : Env)
    (w : World)
    (vowState : Pubkey) :
    Option (ProtocolConfig × VowState) :=
  match w.config, w.vows.lookup vowState with
  | some config, some vow =>
      (settleIdnft (matureIfDue env.unixTimestamp vow)
        config).toOption.map fun settled =>
          (config, settled)
  | _, _ => none

/- A successful harvest distributes the settled identity. -/
theorem harvest_settledAt
    {env : Env}
    {w w' : World}
    {vowState : Pubkey}
    (hOk : harvest env w vowState = .ok w') :
    ∃ config config' vow settled vow',
      w.config = some config ∧
      w.vows.lookup vowState = some vow ∧
      settledAt env w vowState = some (config, settled) ∧
      settled.shares = vow.shares ∧
      settled.yieldBalance = vow.yieldBalance ∧
      harvestGain settled config = .ok (vow', config') ∧
      w' = { w with
        config := some config'
        vows := w.vows.insert vowState vow' } := by
  rcases harvest_eq_ok_iff.mp hOk with
    ⟨call, vow', config', hGain, hEq⟩
  rcases settled_shares_yield call.hSettle with
    ⟨hShares, hYield⟩
  refine ⟨call.config, config', call.vow, call.settled,
    vow', call.hConfig, call.hLookup, ?_, hShares, hYield,
    hGain, hEq⟩
  unfold settledAt
  rw [call.hConfig, call.hLookup]
  dsimp only
  rw [toOption_eq_some_iff.mpr call.hSettle]
  rfl

/-
  The operand that a handler subtracts from `total_shares`
  with saturation.
-/
def sharesSubtrahend
    (env : Env)
    (w : World) :
    Instruction → Option U128
| .harvest vowState =>
    (settledAt env w vowState).bind fun found =>
      (sharesToBurn (harvestCredit found.2)
        found.1.currentSharePrice).toOption
| .beginUnstake _ vowState =>
    (w.vows.lookup vowState).map fun vow => vow.shares
| .activateStake _ vowState _ _ =>
    (w.vows.lookup vowState).map fun vow => vow.shares
| _ => none

/- A harvest burns at most the shares of its identity. -/
theorem harvest_burn_le
    {settled vow' : VowState}
    {config config' : ProtocolConfig}
    {burned : U128}
    (hGain : harvestGain settled config = .ok (vow', config'))
    (hBurn :
      sharesToBurn (harvestCredit settled)
        config.currentSharePrice = .ok burned) :
    burned.val ≤ settled.shares.val := by
  rw [sharesToBurn_eq_ok_iff] at hBurn
  rcases harvestGain_cases hGain with
    ⟨_, hZero, _, _, _⟩ | ⟨moved, _, _⟩
  · rw [hZero, Unsigned.val_zero, Nat.zero_mul,
      Nat.zero_div] at hBurn
    omega
  · have hBurned := moved.hBurned
    have hSplit := moved.hSplit
    omega

/- A handler only retires shares that its identity holds. -/
theorem sharesSubtrahend_le_sum
    {env : Env}
    {w w' : World}
    {ix : Instruction}
    {retired : U128}
    (hOk : execute env w ix = .ok w')
    (hRetired : sharesSubtrahend env w ix = some retired) :
    retired.val ≤ w.sumShares := by
  have hHeld :
      ∀ vowState vow,
        w.vows.lookup vowState = some vow →
        vow.shares.val ≤ w.sumShares := by
    intro vowState vow hLookup
    have hSum := World.sumShares_eq hLookup
    omega
  cases ix with
  | harvest vowState =>
      rcases harvest_settledAt hOk with
        ⟨config, config', vow, settled, vow', _, hLookup,
          hSettled, hShares, _, hGain, _⟩
      simp only [sharesSubtrahend,
        Option.bind_eq_some_iff] at hRetired
      rcases hRetired with ⟨found, hFound, hBurn⟩
      rw [hSettled, Option.some.injEq] at hFound
      subst hFound
      have hBurned :=
        harvest_burn_le hGain
          (toOption_eq_some_iff.mp hBurn)
      rw [hShares] at hBurned
      exact le_trans hBurned (hHeld vowState vow hLookup)
  | beginUnstake owner vowState =>
      simp only [sharesSubtrahend,
        Option.map_eq_some_iff] at hRetired
      rcases hRetired with ⟨vow, hLookup, hEq⟩
      rw [← hEq]
      exact hHeld vowState vow hLookup
  | activateStake owner vowState =>
      simp only [sharesSubtrahend,
        Option.map_eq_some_iff] at hRetired
      rcases hRetired with ⟨vow, hLookup, hEq⟩
      rw [← hEq]
      exact hHeld vowState vow hLookup
  | _ => exact absurd hRetired (by simp [sharesSubtrahend])

/-
  The share counter is the sum of all positions, and no
  saturating subtraction from it ever clips.
-/
theorem totalShares_exact
    {w : World}
    {config : ProtocolConfig}
    (hReach : OpenReachable w)
    (hConfig : w.config = some config) :
    config.totalShares.val = w.sumShares ∧
      ∀ env ix w' retired,
        execute env w ix = .ok w' →
        sharesSubtrahend env w ix = some retired →
        retired ≤ config.totalShares := by
  have hExact := shareCounter_openReachable hReach
  rw [World.ledger_of_config hConfig] at hExact
  refine ⟨hExact, ?_⟩
  intro env ix w' retired hOk hRetired
  have hSum := sharesSubtrahend_le_sum hOk hRetired
  rw [Unsigned.le_def]
  exact le_trans hSum (le_of_eq hExact.symm)

theorem gainChain_openReachable :
    OpenReachable gainChain :=
  ⟨_, gainSteps, by decide, rfl⟩

theorem totalShares_exact_gainChain :
    gainConfig.totalShares.val = gainChain.sumShares ∧
      sharesSubtrahend (sampleEnv 0 0) gainChain
          (.harvest sampleVow) = some 2500000000 ∧
      (2500000000 : U128) ≤ gainConfig.totalShares := by
  have hRetired :
      sharesSubtrahend (sampleEnv 0 0) gainChain
        (.harvest sampleVow) = some 2500000000 := by
    decide +kernel
  have hBoth :=
    totalShares_exact gainChain_openReachable
      gainChain_config
  exact ⟨hBoth.1, hRetired, hBoth.2 _ _ _ _
    (execute_eq_run (by decide +kernel)) hRetired⟩

end Vow

------------------------------------------------------------
-- Yield Counter
------------------------------------------------------------

namespace Vow

open MachineInt Fallible ShareLedger

/-
  The operands of the saturating additions of a handler: the
  balance of its identity and the amount that it adds to that
  balance and to `total_yield_claims`.
-/
def yieldAddend
    (env : Env)
    (w : World) :
    Instruction → Option (U64 × U64)
| .harvest vowState =>
    (settledAt env w vowState).map fun found =>
      (found.2.yieldBalance, harvestCredit found.2)
| .depositYieldBalance _ vowState amount =>
    (w.vows.lookup vowState).map fun vow =>
      (vow.yieldBalance, amount)
| _ => none

/-
  The operand that a handler subtracts from
  `total_yield_claims` with saturation.
-/
def yieldSubtrahend
    (w : World) :
    Instruction → Option U64
| .beginUnstake _ vowState =>
    (w.vows.lookup vowState).map fun vow =>
      vow.yieldBalance
| .yieldSpend ix => some ix.amount
| .withdrawYield _ vowState amount =>
    (w.vows.lookup vowState).map fun vow =>
      amount.getD vow.yieldBalance
| _ => none

/- A handler only removes yield that its identity holds. -/
theorem yieldSubtrahend_le_sum
    {env : Env}
    {w w' : World}
    {ix : Instruction}
    {amount : U64}
    (hOk : execute env w ix = .ok w')
    (hAmount : yieldSubtrahend w ix = some amount) :
    amount.val ≤ w.sumYield := by
  have hHeld :
      ∀ vowState vow,
        w.vows.lookup vowState = some vow →
        vow.yieldBalance.val ≤ w.sumYield := by
    intro vowState vow hLookup
    have hSum := World.sumYield_eq hLookup
    omega
  cases ix with
  | beginUnstake owner vowState =>
      simp only [yieldSubtrahend,
        Option.map_eq_some_iff] at hAmount
      rcases hAmount with ⟨vow, hLookup, hEq⟩
      rw [← hEq]
      exact hHeld vowState vow hLookup
  | yieldSpend ix =>
      rcases yieldSpend_eq_ok_iff.mp hOk with ⟨call, _⟩
      have hBalance := call.hBalance
      have hSum := hHeld ix.vowState call.vow call.hLookup
      simp only [yieldSubtrahend,
        Option.some.injEq] at hAmount
      rw [← hAmount]
      omega
  | withdrawYield owner vowState requested =>
      rcases withdrawYield_ok hOk with ⟨call, _⟩
      have hBalance := call.hBalance
      have hSum := hHeld vowState call.vow call.hLookup
      simp only [yieldSubtrahend, call.hLookup, Option.map_some,
        Option.some.injEq] at hAmount
      rw [← hAmount]
      omega
  | _ => exact absurd hAmount (by simp [yieldSubtrahend])

/-
  A saturating credit adds the amount unless the balance of
  one identity alone reaches the largest 64-bit value.
-/
theorem yieldAddend_sum
    {env : Env}
    {w w' : World}
    {ix : Instruction}
    {balance amount : U64}
    (hOk : execute env w ix = .ok w')
    (hAddend :
      yieldAddend env w ix = some (balance, amount))
    (hBelow : w'.sumYield < Unsigned.maxVal 64) :
    balance.val + amount.val ≤ Unsigned.maxVal 64 ∧
      w'.sumYield = w.sumYield + amount.val := by
  have hUpdate :
      ∀ vowState vow (vow' : VowState),
        w.vows.lookup vowState = some vow →
        vow.yieldBalance = balance →
        vow'.yieldBalance = balance.saturatingAdd amount →
        w'.vows = w.vows.insert vowState vow' →
        balance.val + amount.val ≤ Unsigned.maxVal 64 ∧
          w'.sumYield = w.sumYield + amount.val := by
    intro vowState vow vow' hLookup hBefore hAfter hVows
    have hSum :
        w'.sumYield + vow.yieldBalance.val =
          w.sumYield + vow'.yieldBalance.val := by
      unfold World.sumYield
      rw [hVows]
      exact AccountMap.total_insert_of_lookup hLookup vow'
    have hHeld := World.sumYield_eq hLookup
    rw [hBefore] at hSum hHeld
    rw [hAfter, Unsigned.val_saturatingAdd] at hSum
    omega
  cases ix with
  | harvest vowState =>
      rcases harvest_settledAt hOk with
        ⟨config, config', vow, settled, vow', _, hLookup,
          hSettled, _, hYield, hGain, hEq⟩
      simp only [yieldAddend, hSettled, Option.map_some,
        Option.some.injEq, Prod.mk.injEq] at hAddend
      rcases hAddend with ⟨hBalance, hAmount⟩
      have hBefore : vow.yieldBalance = balance :=
        hYield.symm.trans hBalance
      refine hUpdate vowState vow vow' hLookup hBefore ?_
        (by rw [hEq])
      rw [← hBalance, ← hAmount]
      rcases harvestGain_cases hGain with
        ⟨harvested, hZero, _, hVow, _⟩ | ⟨moved, hVow, _⟩
      · have hMax := settled.yieldBalance.val_le_maxVal
        rw [hVow, hZero]
        apply Unsigned.ext
        simp only [Unsigned.val_saturatingAdd,
          Unsigned.val_zero]
        omega
      · rw [hVow]
  | depositYieldBalance depositor vowState deposited =>
      rcases depositYieldBalance_ok hOk with ⟨call, hEq⟩
      simp only [yieldAddend, call.hLookup, Option.map_some,
        Option.some.injEq, Prod.mk.injEq] at hAddend
      rcases hAddend with ⟨hBalance, hAmount⟩
      refine hUpdate vowState call.vow _ call.hLookup hBalance
        ?_ (by rw [hEq])
      rw [← hBalance, ← hAmount]
  | _ => exact absurd hAddend (by simp [yieldAddend])

/- The sum of the yield balances fits 64 bits all along. -/
def YieldFits
    (w : World)
    (steps : List Step) :
    Prop :=
  ∀ first, first <+: steps →
    (w.run first).sumYield ≤ Unsigned.maxVal 64

instance
    (w : World)
    (steps : List Step) :
    Decidable (YieldFits w steps) :=
  decidable_of_iff
    (∀ first ∈ steps.inits,
      (w.run first).sumYield ≤ Unsigned.maxVal 64)
    (by simp [YieldFits, List.mem_inits])

theorem yieldCounter_run
    {lamports : Lamports}
    {steps : List Step}
    (hOpen : NoClose steps)
    (hFits : YieldFits (World.genesis lamports) steps) :
    ((World.genesis lamports).run steps).ledger.yieldCounter =
      ((World.genesis lamports).run steps).sumYield := by
  have hSteps :
      ∀ (w : World) (step : Step) (w' : World),
        step.closesConfig = false →
        w.ledger.yieldCounter = w.sumYield →
        step.exec w = some w' →
        w'.sumYield ≤ Unsigned.maxVal 64 →
        w'.ledger.yieldCounter = w'.sumYield := by
    intro w step w' hKeeps hExact hExec hBelow
    exact (exec_move hExec hKeeps).yieldCounter_exact hExact
      hBelow
  exact Transition.run_invariant_within
    (P := fun w : World =>
      w.ledger.yieldCounter = w.sumYield)
    (Q := fun w : World =>
      w.sumYield ≤ Unsigned.maxVal 64)
    hSteps rfl hOpen hFits

/-
  While the yield balances fit 64 bits, the counter is their
  sum. A saturating subtraction never clips then, and a
  saturating addition can clip only when it leaves the sum at
  exactly the largest 64-bit value.
-/
theorem totalYieldClaims_exact
    {lamports : Lamports}
    {steps : List Step}
    {w : World}
    {config : ProtocolConfig}
    (hOpen : NoClose steps)
    (hFits : YieldFits (World.genesis lamports) steps)
    (hRun : w = (World.genesis lamports).run steps)
    (hConfig : w.config = some config) :
    config.totalYieldClaims.val = w.sumYield ∧
      ∀ env ix w', execute env w ix = .ok w' →
        (∀ amount, yieldSubtrahend w ix = some amount →
          amount ≤ config.totalYieldClaims) ∧
        (∀ balance amount,
          yieldAddend env w ix = some (balance, amount) →
          w'.sumYield < Unsigned.maxVal 64 →
          balance.val + amount.val ≤ Unsigned.maxVal 64 ∧
          config.totalYieldClaims.val + amount.val ≤
            Unsigned.maxVal 64) := by
  have hExact := yieldCounter_run hOpen hFits
  rw [← hRun, World.ledger_of_config hConfig] at hExact
  dsimp only at hExact
  refine ⟨hExact, ?_⟩
  intro env ix w' hOk
  constructor
  · intro amount hAmount
    rw [Unsigned.le_def, hExact]
    exact yieldSubtrahend_le_sum hOk hAmount
  · intro balance amount hAddend hBelow
    rcases yieldAddend_sum hOk hAddend hBelow with
      ⟨hBalance, hSum⟩
    refine ⟨hBalance, ?_⟩
    omega

theorem totalYieldClaims_exact_gainChain :
    gainConfig.totalYieldClaims.val = gainChain.sumYield ∧
      yieldAddend (sampleEnv 0 0) gainChain
          (.harvest sampleVow) = some (0, 5000000000) ∧
      gainConfig.totalYieldClaims.val + 5000000000 ≤
        Unsigned.maxVal 64 := by
  have hAddend :
      yieldAddend (sampleEnv 0 0) gainChain
        (.harvest sampleVow) = some (0, 5000000000) := by
    decide +kernel
  have hBoth :=
    totalYieldClaims_exact
      (show NoClose gainSteps by decide) (by decide +kernel)
      rfl gainChain_config
  have hSafe := (hBoth.2 _ _ _
    (execute_eq_run (by decide +kernel))).2 _ _ hAddend
      (by decide +kernel)
  exact ⟨hBoth.1, hAddend, hSafe.2⟩

/-
  Two harvests at clamped gains leave the balance two below
  the largest 64-bit value.
-/
def brimSteps : List Step :=
  [sampleInit,
    sampleStep 0 0
      (.mintVow sampleOwner 1000000000 .treasury),
    sampleStep 0 0
      (.devSetSharePrice sampleAdmin
        (Unsigned.ofNat 128 (10 ^ 28))),
    sampleStep 0 0 (.harvest sampleVow),
    sampleStep 0 0
      (.devSetSharePrice sampleAdmin
        (Unsigned.ofNat 128 (2 * 10 ^ 28))),
    sampleStep 0 0 (.harvest sampleVow)]

/- The deposit of two lamports that clips at the brim. -/
def brimDeposit : Instruction :=
  .depositYieldBalance otherOwner sampleVow 2

theorem yield_credit_clips_at_brim :
    NoClose (brimSteps ++ [sampleStep 0 0 brimDeposit]) ∧
      YieldFits sampleChain
        (brimSteps ++ [sampleStep 0 0 brimDeposit]) ∧
      (execute (sampleEnv 0 0) (sampleChain.run brimSteps)
        brimDeposit).toOption.isSome = true ∧
      ∃ balance amount,
        yieldAddend (sampleEnv 0 0)
            (sampleChain.run brimSteps) brimDeposit =
          some (balance, amount) ∧
        Unsigned.maxVal 64 < balance.val + amount.val := by
  refine ⟨by decide, by decide +kernel, by decide +kernel,
    Unsigned.ofNat 64 (2 ^ 64 - 2), 2, by decide +kernel,
    by decide⟩

end Vow

------------------------------------------------------------
-- Pending Counter
------------------------------------------------------------

namespace Vow

open MachineInt Fallible ShareLedger

theorem pendingCounter_openReachable
    {w : World}
    (hReach : OpenReachable w) :
    w.ledger.pendingCounter = w.ledger.owed := by
  apply openReachable_invariant
    (P := fun l => l.pendingCounter = l.owed) ?_ ?_ hReach
  · intro lamports
    rw [genesis_ledger]
  · intro kind w w' hMove hExact
    exact hMove.pendingCounter_exact hExact

/- An open escrow is part of the pending total. -/
theorem lamportsOwed_le_pending
    {w : World}
    {config : ProtocolConfig}
    {address : Pubkey}
    {escrow : UnstakeEscrow}
    (hReach : OpenReachable w)
    (hConfig : w.config = some config)
    (hEscrow : w.escrows.lookup address = some escrow) :
    escrow.lamportsOwed.val ≤
      config.totalPendingUnstake.val := by
  have hExact := pendingCounter_openReachable hReach
  rw [World.ledger_of_config hConfig] at hExact
  dsimp only at hExact
  have hSum := World.sumOwed_eq hEscrow
  omega

/-
  The pending counter is the sum of all open debts. So every
  payout is within its debt and within the reserve, and the
  subtraction at completion never clips.
-/
theorem totalPendingUnstake_exact
    {w : World}
    {config : ProtocolConfig}
    (hReach : OpenReachable w)
    (hConfig : w.config = some config) :
    config.totalPendingUnstake.val = w.sumOwed ∧
      ∀ vowState escrow,
        w.escrows.lookup (.unstake vowState) =
          some escrow →
        (payAmount escrow.lamportsOwed w.reserve
            config.totalPendingUnstake).val ≤
          min escrow.lamportsOwed.val w.reserve ∧
        escrow.lamportsOwed ≤
          config.totalPendingUnstake := by
  have hExact := pendingCounter_openReachable hReach
  rw [World.ledger_of_config hConfig] at hExact
  refine ⟨hExact, ?_⟩
  intro vowState escrow hEscrow
  have hPart := lamportsOwed_le_pending hReach hConfig hEscrow
  rw [payAmount_val]
  refine ⟨Nat.le_min.mpr ⟨?_, ?_⟩, hPart⟩
  · exact ProRata.share_le_claim _ _ _
  · exact ProRata.share_le_reserve _ hPart

/-
  Two owners exit at twice the price of their deposits, so
  the reserve holds half of what it owes.
-/
def shortSteps : List Step :=
  [sampleInit,
    sampleStep 0 0
      (.mintVow sampleOwner 3000000000 .compound),
    sampleStep 0 0
      (.mintVow otherOwner 2000000000 .compound),
    sampleStep 0 0 (.devFastUnlock sampleAdmin sampleVow),
    sampleStep 0 0 (.devFastUnlock sampleAdmin otherVow),
    sampleStep 0 0
      (.devSetSharePrice sampleAdmin 2000000000000),
    sampleStep 10 0 (.beginUnstake sampleOwner sampleVow),
    sampleStep 10 0 (.beginUnstake otherOwner otherVow)]

def shortChain : World :=
  sampleChain.run shortSteps

def shortConfig : ProtocolConfig where
  admin := sampleAdmin.key
  currentSharePrice := 2000000000000
  totalShares := 0
  totalYieldClaims := 0
  lastPoolLamports := 0
  totalMinted := 2
  merkleTree := .default
  totalPendingUnstake := 10000000000
  splStakePool := .default
  splPoolMint := .default

theorem shortChain_config :
    shortChain.config = some shortConfig := by
  decide +kernel

theorem shortChain_openReachable :
    OpenReachable shortChain :=
  ⟨_, shortSteps, by decide, rfl⟩

theorem totalPendingUnstake_exact_shortChain :
    shortConfig.totalPendingUnstake.val =
        shortChain.sumOwed ∧
      (payAmount 6000000000 shortChain.reserve
        shortConfig.totalPendingUnstake).val ≤
          min 6000000000 shortChain.reserve := by
  have hEscrow :
      shortChain.escrows.lookup (.unstake sampleVow) =
        some {
          vowState := sampleVow
          owner := sampleOwner.key
          lamportsOwed := 6000000000
          deactivationEpoch := 0 } := by
    decide +kernel
  have hBoth :=
    totalPendingUnstake_exact shortChain_openReachable
      shortChain_config
  exact ⟨hBoth.1, (hBoth.2 sampleVow _ hEscrow).1⟩

end Vow
