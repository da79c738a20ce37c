import VowProtocol.Correctness.Accrual
import VowProtocol.Correctness.PriceReads

/-
  What a harvest pays, read from the history alone.

  The gain of an identity that is not harvested yet only moves
  when the price does, by the change in value of the shares
  that are held then. Deposits, top-ups, mode switches and
  exits settle it without changing it, a harvest leaves the
  odd lamport of the Hybrid mode at most, and a new stake
  starts without any. So every harvest credits what the price
  changes before it add up to, in whatever order and by whom
  the identity was settled in between.

  Key definitions include:
    * `World.gain`
    * `gainAfter`
    * `World.inRange`

  Key theorems include:
    * `harvestGain_exact`
    * `LifeStep.gain`
    * `exec_gain`
    * `harvest_pays_history`
-/

------------------------------------------------------------
-- Gains
------------------------------------------------------------

namespace Vow

open MachineInt Fallible Transition

/- The price of the configuration, if there is one. -/
def World.priceNow
    (w : World) :
    U128 :=
  (w.config.map ProtocolConfig.currentSharePrice).getD 0

/- The value of the shares of an identity at a price. -/
def World.worthAt
    (w : World)
    (vowState : Pubkey)
    (price : U128) :
    Int :=
  ((w.vows.lookup vowState).map fun vow =>
    (valueAt vow.shares.val price.val : Int)).getD 0

/- The gain of an identity that is not harvested yet. -/
def World.gain
    (w : World)
    (vowState : Pubkey) :
    Int :=
  ((w.vows.lookup vowState).map fun vow =>
    netGain vow w.priceNow).getD 0

/- What a gain credits to the yield, and what it leaves. -/
def YieldMode.credit
    (mode : YieldMode)
    (gain : Int) :
    Int :=
  match mode with
  | .compound => 0
  | .treasury => max gain 0
  | .hybrid => max gain 0 / 2

def YieldMode.carry
    (mode : YieldMode)
    (gain : Int) :
    Int :=
  match mode with
  | .hybrid => max gain 0 % 2
  | _ => 0

/- The gain that a harvest or a new stake starts from. -/
def gainReset
    (vowState : Pubkey)
    (gain : Int)
    (o : Occurrence World Step) :
    Option Int :=
  match o.action.action with
  | .instruction (.harvest identity) =>
      if identity = vowState then
        (o.before.vows.lookup vowState).map fun vow =>
          vow.yieldMode.carry gain
      else none
  | .instruction (.activateStake _ identity _ _) =>
      if identity = vowState then some 0 else none
  | _ => none

/-
  The gain after a step, from the gain before it: reset, or
  moved with the price.
-/
def gainAfter
    (vowState : Pubkey)
    (gain : Int)
    (o : Occurrence World Step) :
    Int :=
  (gainReset vowState gain o).getD
    (gain +
      (o.before.worthAt vowState o.after.priceNow -
        o.before.worthAt vowState o.before.priceNow))

def gainOf
    (vowState : Pubkey)
    (history : List (Occurrence World Step)) :
    Int :=
  history.foldl (gainAfter vowState) 0

/- Values and gain of an identity fit 64 bits. -/
def World.inRange
    (w : World)
    (vowState : Pubkey) :
    Bool :=
  match w.config, w.vows.lookup vowState with
  | some config, some vow =>
      valueAt vow.shares.val vow.lastSharePrice.val <
          2 ^ 63 ∧
        valueAt vow.shares.val
            config.currentSharePrice.val < 2 ^ 63 ∧
        -2 ^ 63 ≤ netGain vow config.currentSharePrice ∧
        netGain vow config.currentSharePrice < 2 ^ 63
  | _, _ => true

theorem World.gain_of_lookup
    {w : World}
    {vowState : Pubkey}
    {vow : VowState}
    (hLookup : w.vows.lookup vowState = some vow) :
    w.gain vowState = netGain vow w.priceNow := by
  unfold World.gain
  rw [hLookup]
  rfl

theorem World.gain_of_none
    {w : World}
    {vowState : Pubkey}
    (hLookup : w.vows.lookup vowState = none) :
    w.gain vowState = 0 := by
  unfold World.gain
  rw [hLookup]
  rfl

theorem World.priceNow_of_config
    {w : World}
    {config : ProtocolConfig}
    (hConfig : w.config = some config) :
    w.priceNow = config.currentSharePrice := by
  unfold World.priceNow
  rw [hConfig]
  rfl

/- Only the four price instructions move the price. -/
theorem execute_priceNow
    {env : Env}
    {w w' : World}
    {ix : Instruction}
    (hOk : execute env w ix = .ok w')
    (hIx : ix.quotes = false) :
    w'.priceNow = w.priceNow := by
  have hPrice :
      ∀ u : World,
        u.priceNow =
          (u.quote.map fun quote => quote.2.1).getD 0 := by
    intro u
    unfold World.priceNow World.quote
    rw [Option.map_map]
    rfl
  rw [hPrice, hPrice, execute_quote hOk hIx]

/- In range, a settlement records the gain exactly. -/
theorem settled_gain_of_inRange
    {w : World}
    {vowState : Pubkey}
    {config : ProtocolConfig}
    {vow : VowState}
    (hRange : w.inRange vowState = true)
    (hConfig : w.config = some config)
    (hLookup : w.vows.lookup vowState = some vow) :
    (vow.settled config.currentSharePrice).accruedGain.val =
      netGain vow config.currentSharePrice := by
  unfold World.inRange at hRange
  rw [hConfig, hLookup] at hRange
  rcases of_decide_eq_true hRange with
    ⟨hLast, hNow, hLower, hUpper⟩
  -- A value in range has a product in range.
  have hFits :
      ∀ price : U128,
        valueAt vow.shares.val price.val < 2 ^ 63 →
        ValueFits vow.shares.val price.val := by
    intro price hValue
    refine ⟨?_, hValue⟩
    unfold valueAt at hValue
    omega
  exact settled_accruedGain (hFits _ hLast)
    ⟨hFits _ hNow, hLower, hUpper⟩

end Vow

------------------------------------------------------------
-- Harvests
------------------------------------------------------------

namespace Vow

open MachineInt Fallible Transition

/- A harvest credits and leaves what the mode says. -/
theorem harvestGain_exact
    {idnft idnft' : VowState}
    {config config' : ProtocolConfig}
    (hHarvest :
      harvestGain idnft config = .ok (idnft', config')) :
    idnft'.lastSharePrice = idnft.lastSharePrice ∧
      idnft'.accruedGain.val =
        idnft.yieldMode.carry idnft.accruedGain.val ∧
      (idnft'.yieldBalance.val : Int) =
        min (idnft.yieldBalance.val +
          idnft.yieldMode.credit idnft.accruedGain.val)
          (2 ^ 64 - 1) := by
  have hMax := idnft.yieldBalance.isLt
  by_cases hGain :
      idnft.yieldMode ≠ .compound →
        idnft.accruedGain.val ≤ 0
  · rcases harvestGain_nothing hGain config with
      ⟨harvested, hNothing⟩
    rw [hNothing, Except.ok.injEq, Prod.mk.injEq] at hHarvest
    rw [← hHarvest.1]
    refine ⟨rfl, ?_, ?_⟩
    · dsimp only
      rw [Signed.val_zero]
      cases hMode : idnft.yieldMode with
      | compound => rfl
      | treasury => rfl
      | hybrid =>
          have hNone := hGain (by rw [hMode]; simp)
          unfold YieldMode.carry
          dsimp only
          omega
    · dsimp only
      cases hMode : idnft.yieldMode with
      | compound =>
          unfold YieldMode.credit
          dsimp only
          omega
      | treasury =>
          have hNone := hGain (by rw [hMode]; simp)
          unfold YieldMode.credit
          dsimp only
          omega
      | hybrid =>
          have hNone := hGain (by rw [hMode]; simp)
          unfold YieldMode.credit
          dsimp only
          omega
  · rw [Classical.not_imp, not_le] at hGain
    rcases hGain with ⟨hMode, hPositive⟩
    have hCredit := harvestCredit_val (le_of_lt hPositive)
    have hCarry := harvestCarry_val (le_of_lt hPositive)
    rw [harvestGain_credits hMode hPositive] at hHarvest
    rcases creditGain_ok hHarvest with
      ⟨burned, shares, _, _, hVow, _⟩
    rw [hVow]
    refine ⟨rfl, ?_, ?_⟩
    · dsimp only
      rw [hCarry]
      unfold YieldMode.carry
      cases idnft.yieldMode with
      | compound => rfl
      | treasury => rfl
      | hybrid =>
          dsimp only
          rw [max_eq_left (le_of_lt hPositive)]
    · have hYield :
          (harvestCredit idnft).val =
            idnft.yieldMode.credit idnft.accruedGain.val := by
        have hAll := max_eq_left (le_of_lt hPositive)
        rw [hCredit]
        unfold YieldMode.credit
        cases idnft.yieldMode with
        | compound => rfl
        | treasury => exact hAll.symm
        | hybrid =>
            dsimp only
            rw [hAll]
      dsimp only
      rw [Unsigned.val_saturatingAdd, ← hYield]
      unfold Unsigned.maxVal
      omega

/- A matured identity has the same gain. -/
theorem matureIfDue_settled_gain
    (now : I64)
    (vow : VowState)
    (price : U128) :
    ((matureIfDue now vow).settled price).accruedGain =
        (vow.settled price).accruedGain ∧
      ((matureIfDue now vow).settled price).yieldMode =
        vow.yieldMode ∧
      ((matureIfDue now vow).settled price).yieldBalance =
        vow.yieldBalance := by
  rcases matureIfDue_cases now vow with ⟨matured, hDue, _⟩
  rw [hDue]
  exact ⟨rfl, rfl, rfl⟩

end Vow

------------------------------------------------------------
-- Steps
------------------------------------------------------------

namespace Vow

open MachineInt Fallible Transition

/- A settled position has the gain that was recorded. -/
theorem netGain_at_last
    (vow : VowState) :
    netGain vow vow.lastSharePrice = vow.accruedGain.val := by
  unfold netGain
  omega

/- A new identity has no gain, at a price that stays. -/
theorem LifeBirth.gain
    {env : Env}
    {config : ProtocolConfig}
    {vowState : Pubkey}
    {ix : Instruction}
    {life : Life}
    (hBirth : LifeBirth env config vowState ix life) :
    ix.quotes = false ∧
      netGain life.vow config.currentSharePrice = 0 := by
  cases hBirth with
  | mint => exact ⟨rfl, netGain_at_last _⟩

theorem LifeStep.quotes
    {env : Env}
    {config : ProtocolConfig}
    {vowState : Pubkey}
    {ix : Instruction}
    {life life' : Life}
    (hStep : LifeStep env config vowState ix life life') :
    ix.quotes = false := by
  cases hStep <;> rfl

/- What the steps of an identity do to its gain. -/
theorem LifeStep.gain
    {env : Env}
    {config : ProtocolConfig}
    {vowState : Pubkey}
    {ix : Instruction}
    {life life' : Life}
    {w w' : World}
    (hStep : LifeStep env config vowState ix life life')
    (hExact :
      (life.vow.settled
          config.currentSharePrice).accruedGain.val =
        netGain life.vow config.currentSharePrice)
    (hLookup : w.vows.lookup vowState = some life.vow)
    (hPrice : w'.priceNow = w.priceNow) :
    netGain life'.vow config.currentSharePrice =
      gainAfter vowState
        (netGain life.vow config.currentSharePrice)
        ⟨w, ⟨env, .instruction ix⟩, w'⟩ := by
  -- A step that keeps the gain, at a price that stays.
  have hKept :
      netGain life.vow config.currentSharePrice =
        netGain life.vow config.currentSharePrice +
          (w.worthAt vowState w'.priceNow -
            w.worthAt vowState w.priceNow) := by
    rw [hPrice]
    omega
  -- A step that settles first, whatever it does to shares.
  have hSettled :
      ∀ vow : VowState,
        vow.lastSharePrice = config.currentSharePrice →
        vow.accruedGain =
          (life.vow.settled
            config.currentSharePrice).accruedGain →
        netGain vow config.currentSharePrice =
          netGain life.vow config.currentSharePrice := by
    intro vow hLast hSame
    rw [← hLast, netGain_at_last, hSame, hExact, hLast]
  cases hStep with
  | topUp owner lamportsToAdd vow vow' unstaking hActive
      hStaked hTopUp =>
      refine (hSettled vow' ?_ ?_).trans hKept
      · cases hTopUp <;> rfl
      · cases hTopUp <;> rfl
  | switchMode owner newMode vow unstaking hActive =>
      exact (hSettled _ rfl rfl).trans hKept
  | unstake owner vow hActive hMature =>
      refine (hSettled { vow.settled
        config.currentSharePrice with
          matured := true
          shares := 0
          yieldBalance := 0 } rfl rfl).trans hKept
  | activate owner stakeLamports yieldMode newClass newShares
      unlockAt vow unstaking hDormant hOpens =>
      unfold gainAfter gainReset
      dsimp only
      rw [if_pos rfl, Option.getD_some]
      exact netGain_at_last _
  | harvest config' vow vow' unstaking hGain =>
      rcases harvestGain_exact hGain with
        ⟨hLast, hCarry, _⟩
      rcases matureIfDue_settled_gain env.unixTimestamp vow
          config.currentSharePrice with
        ⟨hSame, hMode, _⟩
      have hNow :
          vow'.lastSharePrice = config.currentSharePrice :=
        hLast
      unfold gainAfter gainReset
      dsimp only at hExact hLookup ⊢
      rw [if_pos rfl, hLookup, Option.map_some,
        Option.getD_some, ← hExact, ← hSame, ← hMode,
        ← hCarry, ← hNow]
      exact netGain_at_last vow'
  | _ => exact hKept

/- Other identities reset nothing. -/
theorem gainReset_of_idle
    {vowState : Pubkey}
    {w w' : World}
    {step : Step}
    (hIdle :
      ∀ ix, step.action = .instruction ix →
        ix.rewrites ≠ some vowState)
    (gain : Int) :
    gainReset vowState gain ⟨w, step, w'⟩ = none := by
  unfold gainReset
  split
  · rename_i identity hAction
    refine if_neg ?_
    intro hHere
    exact hIdle _ hAction (congrArg some hHere)
  · rename_i owner identity stake mode hAction
    refine if_neg ?_
    intro hHere
    exact hIdle _ hAction (congrArg some hHere)
  · rfl

/- One step of the chain. -/
theorem exec_gain
    {vowState : Pubkey}
    {w w' : World}
    {step : Step}
    (hOwned : EscrowOwned w)
    (hRange : w.inRange vowState = true)
    (hExec : step.exec w = some w') :
    w'.gain vowState =
      gainAfter vowState (w.gain vowState) ⟨w, step, w'⟩ := by
  cases hLookup : w.vows.lookup vowState with
  | none =>
      -- Without an identity there is no gain to speak of.
      have hNothing :
          gainAfter vowState (w.gain vowState)
            ⟨w, step, w'⟩ = 0 := by
        rw [World.gain_of_none hLookup]
        unfold gainAfter gainReset World.worthAt
        dsimp only
        rw [hLookup]
        split
        · simp
        · split <;> simp
        · simp
      rw [hNothing]
      cases hAfter : w'.vows.lookup vowState with
      | none => exact World.gain_of_none hAfter
      | some vow =>
          rcases exec_born hExec hOwned
              (World.life_eq_none_iff.mpr hLookup)
              (World.life_of_lookup hAfter) with
            ⟨config, ix, hConfig, hAction, hBirth⟩
          rcases step with ⟨env, action⟩
          dsimp only at hAction
          subst hAction
          have hOk := Step.exec_instruction_iff.mp hExec
          rw [World.gain_of_lookup hAfter]
          rw [execute_priceNow hOk hBirth.gain.1,
            World.priceNow_of_config hConfig]
          exact hBirth.gain.2
  | some vow =>
      rcases exec_moved hExec (World.life_of_lookup hLookup)
        with ⟨life', hAfter, hMove⟩
      have hLookup' := (World.life_eq_some_iff.mp hAfter).1
      rw [World.gain_of_lookup hLookup,
        World.gain_of_lookup hLookup']
      cases hMove with
      | idle hIdle hSame =>
          -- The price may move under the shares.
          unfold gainAfter
          rw [gainReset_of_idle hIdle, Option.getD_none, hSame]
          unfold World.worthAt netGain
          rw [hLookup]
          dsimp only [Option.map_some, Option.getD_some]
          omega
      | acts config ix hConfig hAction hStep =>
          rcases step with ⟨env, action⟩
          dsimp only at hAction
          subst hAction
          have hOk := Step.exec_instruction_iff.mp hExec
          have hPrice := execute_priceNow hOk hStep.quotes
          rw [hPrice, World.priceNow_of_config hConfig]
          exact hStep.gain
            (settled_gain_of_inRange hRange hConfig hLookup)
            hLookup hPrice

end Vow

------------------------------------------------------------
-- Runs
------------------------------------------------------------

namespace Vow

open MachineInt Fallible Transition

theorem gain_run
    (lamports : Lamports)
    {steps : List Step}
    {vowState : Pubkey}
    (hRange :
      ∀ o ∈ (World.genesis lamports).trace steps,
        o.before.inRange vowState = true) :
    ((World.genesis lamports).run steps).gain vowState =
      gainOf vowState
        ((World.genesis lamports).trace steps) := by
  have hInit :
      EscrowOwned (World.genesis lamports) ∧
        (World.genesis lamports).gain vowState =
          gainOf vowState [] :=
    ⟨escrowOwned_reachable ⟨lamports, [], rfl⟩,
      World.gain_of_none rfl⟩
  refine (@trace_history_invariant World Step Step.exec
    (fun o => o.before.inRange vowState = true)
    (fun history w =>
      EscrowOwned w ∧
        w.gain vowState = gainOf vowState history)
    ?_ steps _ hInit hRange).2
  rintro history w step w' ⟨hOwned, hGain⟩ hExec hHere
  refine ⟨exec_escrowOwned hExec hOwned, ?_⟩
  rw [exec_gain hOwned hHere hExec, hGain]
  unfold gainOf
  rw [List.foldl_append]
  rfl

/-
  While values and gains fit 64 bits, the open gain of an
  identity is what its history adds up to, and every harvest
  credits exactly what the history before it adds up to, by
  the mode of the moment.
-/
theorem harvest_pays_history
    (lamports : Lamports)
    (steps : List Step)
    (vowState : Pubkey)
    (hRange :
      ∀ o ∈ (World.genesis lamports).trace steps,
        o.before.inRange vowState = true) :
    ((World.genesis lamports).run steps).gain vowState =
        gainOf vowState
          ((World.genesis lamports).trace steps) ∧
      ∀ past o future,
        (World.genesis lamports).trace steps =
          past ++ o :: future →
        o.action.action =
          .instruction (.harvest vowState) →
        ∃ vow vow',
          o.before.vows.lookup vowState = some vow ∧
          o.after.vows.lookup vowState = some vow' ∧
          (vow'.yieldBalance.val : Int) =
            min ((vow.yieldBalance.val : Int) +
              vow.yieldMode.credit (gainOf vowState past))
              (2 ^ 64 - 1) := by
  refine ⟨gain_run lamports hRange, ?_⟩
  intro past o future hTrace hAction
  rcases trace_split hTrace with
    ⟨first, _, _, hPast, hBefore, hExec, _⟩
  have hHere : o.before.inRange vowState = true :=
    hRange o (by rw [hTrace]; simp)
  have hEarlier :
      ∀ p ∈ (World.genesis lamports).trace first,
        p.before.inRange vowState = true := by
    intro p hp
    refine hRange p ?_
    rw [hTrace, hPast]
    exact List.mem_append_left _ hp
  have hGain := gain_run lamports hEarlier
  change (Transition.run Step.exec _ first).gain vowState =
    gainOf vowState (Transition.trace Step.exec _ first)
      at hGain
  rw [← hPast, ← hBefore] at hGain
  rcases o with ⟨w, ⟨env, action⟩, w'⟩
  dsimp only at hAction hExec hGain hHere ⊢
  subst hAction
  rcases harvest_eq_ok_iff.mp
      (Step.exec_instruction_iff.mp hExec) with
    ⟨call, vow', config', hNext, hEq⟩
  have hExact :=
    settled_gain_of_inRange hHere call.hConfig call.hLookup
  rcases matureIfDue_settled_gain env.unixTimestamp call.vow
      call.config.currentSharePrice with
    ⟨hSame, hMode, hYield⟩
  rw [settleIdnft_eq_settled call.hSettle] at hNext
  have hPaid := (harvestGain_exact hNext).2.2
  rw [hSame, hMode, hYield, hExact,
    ← World.priceNow_of_config call.hConfig,
    ← World.gain_of_lookup call.hLookup, hGain] at hPaid
  refine ⟨call.vow, vow', call.hLookup, ?_, hPaid⟩
  rw [hEq]
  exact AList.lookup_insert _

/- Two gains, with a top-up and a mode switch between. -/
def gainPath : List Step :=
  [sampleInit,
    sampleStep 0 0
      (.mintVow sampleOwner 1000000000 .compound),
    priceStep (Unsigned.ofNat 128 (10 ^ 12 + 3000)),
    sampleStep 0 0
      (.addStake sampleOwner sampleVow 2000000000),
    sampleStep 0 0
      (.updateYieldMode sampleOwner sampleVow .treasury),
    priceStep (Unsigned.ofNat 128 (10 ^ 12 + 5000))]

/- The harvest pays three lamports and then six. -/
theorem harvest_pays_history_nine :
    ∃ vow',
      (sampleChain.run
          (gainPath ++ [harvestStep])).vows.lookup
        sampleVow = some vow' ∧
      vow'.yieldBalance.val = 9 := by
  have hExec :
      Step.exec (sampleChain.run gainPath) harvestStep =
        some ((sampleChain.run gainPath).run
          [harvestStep]) :=
    Step.exec_eq_run (by decide +kernel)
  have hTrace :
      sampleChain.trace (gainPath ++ [harvestStep]) =
        sampleChain.trace gainPath ++
          [⟨sampleChain.run gainPath, harvestStep,
            (sampleChain.run gainPath).run
              [harvestStep]⟩] :=
    trace_concat_of_some hExec
  have hRange :
      ∀ o ∈ sampleChain.trace (gainPath ++ [harvestStep]),
        o.before.inRange sampleVow = true := by
    decide +kernel
  rcases (harvest_pays_history _ _ sampleVow hRange).2 _ _ []
      hTrace rfl with
    ⟨vow, vow', hBefore, hAfter, hPaid⟩
  have hFields :
      ((sampleChain.run gainPath).vows.lookup
        sampleVow).map (fun vow =>
          (vow.yieldMode, vow.yieldBalance.val)) =
        some (.treasury, 0) := by
    decide +kernel
  dsimp only at hBefore hAfter
  rw [hBefore, Option.map_some, Option.some.injEq,
    Prod.mk.injEq] at hFields
  have hNine :
      gainOf sampleVow (sampleChain.trace gainPath) = 9 := by
    decide +kernel
  refine ⟨vow', hAfter, ?_⟩
  rw [hFields.1, hFields.2, hNine] at hPaid
  unfold YieldMode.credit at hPaid
  dsimp only at hPaid
  omega

end Vow
