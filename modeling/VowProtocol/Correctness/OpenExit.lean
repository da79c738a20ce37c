import VowProtocol.Correctness.MintNumbers
import VowProtocol.Correctness.Pairing
import VowProtocol.Correctness.Poolless

/-
  The way out of a deployment without a stake pool.

  Once its lock is over, the owner of an identity can leave
  with all of it, in every state of every run: the exit can be
  begun, and whatever others do then, in any later epoch its
  completion pays the whole position and the yield, and
  returns the rent. None of the overflow checks on the way can
  refuse.

  Key theorems include:
    * `beginUnstake_of_checks`
    * `ParWorld.exit_fits`
    * `parWorld_exit_waits`
    * `poolless_exit_open`
-/

------------------------------------------------------------
-- Beginning An Exit
------------------------------------------------------------

namespace Vow

open MachineInt Fallible

/- The rent of an account can be paid. -/
theorem initAccount_of_funded
    {env : Env}
    {payer : Pubkey}
    {space : Nat}
    {l : Lamports}
    (hFunds : max (env.minimumBalance space) 1 ≤ l payer)
    (address : Pubkey) :
    ∃ required,
      required ≤ l payer ∧
        initAccount env payer address space l =
          .ok (credit address required
            (debit payer required l)) := by
  unfold initAccount
  dsimp only
  refine ⟨_, ?_, transfer_eq_ok_iff.mpr ⟨?_, rfl⟩⟩
  · split
    · omega
    · omega
  · split
    · omega
    · omega

/- All that the beginning of an exit checks. -/
theorem beginUnstake_of_checks
    {env : Env}
    {w : World}
    {owner : Signer}
    {vowState : Pubkey}
    {config : ProtocolConfig}
    {vow : VowState}
    (hConfig : w.config = some config)
    (hLookup : w.vows.lookup vowState = some vow)
    (hSeeds : vowState = .vow vow.assetId)
    (hOwner : vow.owner = owner.key)
    (hFresh : w.escrows.lookup (.unstake vowState) = none)
    (hFunds :
      max (env.minimumBalance UnstakeEscrow.LEN) 1 ≤
        w.lamports owner.key)
    (hActive : vow.activeStake = true)
    (hLock :
      vow.matured = true ∨
        vow.unlockAt ≤ env.unixTimestamp)
    (hLast :
      vow.shares.val * vow.lastSharePrice.val < 2 ^ 128)
    (hCurrent :
      vow.shares.val * config.currentSharePrice.val <
        2 ^ 128)
    (hOwed :
      valueAt vow.shares.val
            config.currentSharePrice.val % 2 ^ 64 +
          vow.yieldBalance.val < 2 ^ 64)
    (hPending :
      config.totalPendingUnstake.val +
          (valueAt vow.shares.val
              config.currentSharePrice.val % 2 ^ 64 +
            vow.yieldBalance.val) < 2 ^ 64) :
    ∃ required w',
      required ≤ w.lamports owner.key ∧
        beginUnstake env w owner vowState = .ok w' ∧
        w'.lamports =
          credit (.unstake vowState) required
            (debit owner.key required w.lamports) := by
  rcases initAccount_of_funded hFunds (.unstake vowState) with
    ⟨required, hRequired, hInit⟩
  rcases matureIfDue_cases env.unixTimestamp vow with
    ⟨matured, hDue, hMatured⟩
  have hTrue : matured = true := hMatured.mpr hLock
  subst hTrue
  have hSettle :
      settleIdnft (matureIfDue env.unixTimestamp vow)
          config =
        .ok ({ vow with matured := true }.settled
          config.currentSharePrice) := by
    rw [hDue]
    exact settleIdnft_of_fits hLast hCurrent
  rcases positionValue_of_fits hCurrent with
    ⟨value, hValue⟩
  have hExact := (positionValue_eq_ok_iff.mp hValue).2
  have hLow :
      (value.cast 64).val =
        valueAt vow.shares.val
          config.currentSharePrice.val % 2 ^ 64 := by
    rw [Unsigned.val_cast, hExact]
  have hSum :
      (value.cast 64).checkedAdd vow.yieldBalance =
        some ⟨_, hOwed⟩ := by
    rw [Unsigned.checkedAdd_eq_some_iff, hLow]
  have hTotal :
      config.totalPendingUnstake.checkedAdd ⟨_, hOwed⟩ =
        some ⟨_, hPending⟩ :=
    Unsigned.checkedAdd_eq_some_iff.mpr rfl
  refine ⟨required, ?_⟩
  unfold beginUnstake
  rw [loadConfig_eq_ok_iff.mpr hConfig, ok_bind,
    loadVowAsOwner_eq_ok_iff.mpr ⟨hLookup, hSeeds, hOwner⟩,
    ok_bind, require_of_holds hFresh, ok_bind, hInit, ok_bind,
    require_of_holds hActive, ok_bind]
  dsimp only
  rw [require_of_holds (by rw [hDue]), ok_bind, hSettle,
    ok_bind]
  have hPosition :
      positionValue
          ({ vow with matured := true }.settled
            config.currentSharePrice).shares
          config.currentSharePrice = .ok value := hValue
  rw [hPosition, ok_bind]
  have hLamports :
      (value.cast 64).checkedAdd
          ({ vow with matured := true }.settled
            config.currentSharePrice).yieldBalance =
        some ⟨_, hOwed⟩ := hSum
  rw [okOr_eq_ok_iff.mpr hLamports, ok_bind,
    okOr_eq_ok_iff.mpr hTotal, ok_bind]
  exact ⟨_, hRequired, rfl, rfl⟩

end Vow

------------------------------------------------------------
-- Leaving At Par
------------------------------------------------------------

namespace Vow

open MachineInt Fallible Transition

/- A share is worth one lamport. -/
theorem valueAt_par
    (shares : Nat) :
    valueAt shares SHARE_PRECISION.val = shares := by
  unfold valueAt
  rw [sharePrecision_val]
  omega

/-
  No position is larger than the reserve, whose lamports fit
  64 bits, so nothing on the way out overflows.
-/
theorem ParWorld.exit_fits
    {w : World}
    {vowState : Pubkey}
    {vow : VowState}
    {config : ProtocolConfig}
    (hWorld : ParWorld w)
    (hReserve : w.reserve < 2 ^ 64)
    (hConfig : w.config = some config)
    (hLookup : w.vows.lookup vowState = some vow) :
    vow.shares.val < 2 ^ 64 ∧
      config.totalPendingUnstake.val +
        (vow.shares.val + vow.yieldBalance.val) < 2 ^ 64 := by
  have hSum := hWorld.sum_le
  have hShares := World.sumShares_eq hLookup
  have hYield := World.sumYield_eq hLookup
  have hPending := hWorld.pending
  rw [World.ledger_of_config hConfig] at hPending
  dsimp only at hPending
  constructor
  · omega
  · omega

/- What the owner holds after both halves of an exit. -/
theorem exit_returns_rent
    {w w' : World}
    {owner : Signer}
    {vowState : Pubkey}
    {required : Nat}
    (hRequired : required ≤ w.lamports owner.key)
    (hLamports :
      w'.lamports =
        credit (.unstake vowState) required
          (debit owner.key required w.lamports)) :
    w'.lamports owner.key + w'.lamports (.unstake vowState) =
      w.lamports owner.key +
        w.lamports (.unstake vowState) := by
  have hNe : owner.key ≠ .unstake vowState := by
    simp [Signer.key]
  rw [hLamports, credit_of_ne hNe, debit_self, credit_self,
    debit_of_ne hNe.symm]
  omega

/- An open exit waits for its completion. -/
theorem parWorld_exit_waits
    {w : World}
    {vowState : Pubkey}
    {escrow : UnstakeEscrow}
    (hWorld : ParWorld w)
    (hEscrow :
      w.escrows.lookup (.unstake vowState) = some escrow)
    {steps : List Step}
    (hSteps : ∀ o ∈ w.trace steps, o.action.poolless = true)
    (hWaits :
      ∀ o ∈ w.trace steps,
        o.action.completesExitOf vowState = false) :
    ParWorld (w.run steps) ∧
      (w.run steps).escrows.lookup (.unstake vowState) =
        some escrow := by
  refine (@trace_invariant World Step Step.exec
    (fun w' =>
      ParWorld w' ∧
        w'.escrows.lookup (.unstake vowState) = some escrow)
    (fun o =>
      o.action.poolless = true ∧
        o.action.completesExitOf vowState = false)
    ?_ w ⟨hWorld, hEscrow⟩ steps ?_).2
  · rintro before step after ⟨hBefore, hOpen⟩ hExec
      ⟨hPoolless, hCompletes⟩
    refine ⟨exec_parWorld hPoolless hBefore hExec, ?_⟩
    -- The exit cannot be begun a second time.
    have hBegins : step.beginsExit vowState = false := by
      cases hStep : step.beginsExit vowState with
      | false => rfl
      | true =>
          have hNone := (exec_exit_begun hExec hStep).1
          rw [hOpen] at hNone
          cases hNone
    rw [exec_exit_kept hExec hBegins hCompletes]
    exact hOpen
  · intro o ho
    exact ⟨hSteps o ho, hWaits o ho⟩

/-
  When no step that succeeds names a pool or sets the price,
  an owner whose lock is over and who can pay the rent of the
  escrow begins the exit. After any such steps of anyone but
  its completion, and in any later epoch, the completion pays
  the position and the yield. Transfers are taken to succeed
  whenever the balance suffices.
-/
theorem poolless_exit_open
    (lamports : Lamports)
    (steps : List Step)
    (hSteps :
      ∀ o ∈ (World.genesis lamports).trace steps,
        o.action.poolless = true)
    {w : World}
    (hRun : w = (World.genesis lamports).run steps)
    (hReserve : w.reserve < 2 ^ 64)
    {config : ProtocolConfig}
    (hConfig : w.config = some config)
    {vowState : Pubkey}
    {vow : VowState}
    (hLookup : w.vows.lookup vowState = some vow)
    {owner : Signer}
    (hOwner : vow.owner = owner.key)
    (hActive : vow.activeStake = true)
    (hFresh : w.escrows.lookup (.unstake vowState) = none)
    (env : Env)
    (hLock :
      vow.matured = true ∨
        vow.unlockAt ≤ env.unixTimestamp)
    (hFunds :
      max (env.minimumBalance UnstakeEscrow.LEN) 1 ≤
        w.lamports owner.key) :
    ∃ w',
      execute env w (.beginUnstake owner vowState) = .ok w' ∧
      w'.lamports owner.key +
          w'.lamports (.unstake vowState) =
        w.lamports owner.key +
          w.lamports (.unstake vowState) ∧
      ∀ rest,
        (∀ o ∈ w'.trace rest, o.action.poolless = true) →
        (∀ o ∈ w'.trace rest,
          o.action.completesExitOf vowState = false) →
        (w'.run rest).config ≠ none →
        ∀ later, env.epoch < later.epoch →
          PaysInFull later (w'.run rest) owner vowState
            (vow.shares.val + vow.yieldBalance.val) := by
  have hWorld : ParWorld w := by
    rw [hRun]
    exact (genesis_parWorld lamports).run hSteps
  have hPar :=
    hWorld.lives vowState _ (World.life_of_lookup hLookup)
  have hPrice := (hWorld.quote config hConfig).1
  have hNamed := named_reachable ⟨lamports, steps, hRun⟩
    hLookup
  have hSeeds : vowState = .vow vow.assetId := by
    rw [hNamed.asset]
    exact hNamed.address
  rcases hWorld.exit_fits hReserve hConfig hLookup with
    ⟨hShares, hPending⟩
  have hValue :
      valueAt vow.shares.val
          config.currentSharePrice.val % 2 ^ 64 =
        vow.shares.val := by
    rw [hPrice, valueAt_par]
    omega
  have hProduct :
      vow.shares.val * SHARE_PRECISION.val < 2 ^ 128 := by
    rw [sharePrecision_val]
    omega
  have hLast : vow.lastSharePrice = SHARE_PRECISION :=
    hPar.price
  rcases beginUnstake_of_checks hConfig hLookup hSeeds hOwner
      hFresh hFunds hActive hLock (by rw [hLast]; exact hProduct)
      (by rw [hPrice]; exact hProduct)
      (by rw [hValue]; omega) (by rw [hValue]; omega) with
    ⟨required, w', hRequired, hOk, hLamports⟩
  refine ⟨w', hOk, exit_returns_rent hRequired hLamports, ?_⟩
  intro rest hRest hWaits hLater later hEpoch
  have hExec :
      Step.exec w ⟨env, .instruction
        (.beginUnstake owner vowState)⟩ = some w' :=
    Step.exec_instruction_iff.mpr hOk
  have hNext : ParWorld w' :=
    exec_parWorld rfl hWorld hExec
  have hBegins :
      Step.beginsExit vowState ⟨env, .instruction
        (.beginUnstake owner vowState)⟩ = true := by
    simp [Step.beginsExit]
  rcases exec_exit_begun hExec hBegins with
    ⟨_, escrow, hEscrow, signer, found, same, hAction, hFound,
      hSame, _, _, hPayee, hDated, hOwed⟩
  dsimp only at hAction hFound hSame hDated
  rw [hConfig, Option.some.injEq] at hFound
  rw [hLookup, Option.some.injEq] at hSame
  subst hFound hSame
  cases hAction
  rw [hValue] at hOwed
  rcases parWorld_exit_waits hNext hEscrow hRest hWaits with
    ⟨hStill, hOpen⟩
  rcases Option.ne_none_iff_exists'.mp hLater with
    ⟨config', hConfig'⟩
  rw [← hOwed]
  exact hStill.paysInFull hConfig' hOpen hPayee
    (by rw [hDated]; exact hEpoch)

/- An identity of five XNT whose lock is thirty days. -/
def mintedAlone : List Step :=
  [sampleInit,
    sampleStep 0 0
      (.mintVow sampleOwner 5000000000 .treasury)]

/- Others harvest and mint before the exit is completed. -/
def meanwhile : List Step :=
  [sampleStep 2592000 1 (.harvest sampleVow),
    sampleStep 2592000 1
      (.mintVow sampleAdmin 5000000000 .treasury)]

theorem poolless_exit_open_minted :
    ∃ w',
      execute (sampleEnv 2592000 1)
          (sampleChain.run mintedAlone)
          (.beginUnstake sampleOwner sampleVow) = .ok w' ∧
        PaysInFull (sampleEnv 2592000 2) (w'.run meanwhile)
          sampleOwner sampleVow 5000000000 := by
  have hFields :
      ((sampleChain.run mintedAlone).vows.lookup
        sampleVow).map (fun vow =>
          (vow.owner, vow.activeStake, vow.unlockAt.val,
            vow.shares.val, vow.yieldBalance.val)) =
        some (sampleOwner.key, true, 2592000, 5000000000,
          0) := by
    decide +kernel
  rcases Option.map_eq_some_iff.mp hFields with
    ⟨vow, hLookup, hVow⟩
  simp only [Prod.mk.injEq] at hVow
  rcases hVow with
    ⟨hOwner, hActive, hUnlock, hShares, hYield⟩
  have hLock :
      vow.unlockAt ≤ (sampleEnv 2592000 1).unixTimestamp := by
    rw [Signed.le_def, hUnlock]
    decide
  have hConfig :
      (sampleChain.run mintedAlone).config.isSome = true := by
    decide +kernel
  rcases Option.isSome_iff_exists.mp hConfig with
    ⟨config, hConfig⟩
  rcases poolless_exit_open _ mintedAlone (by decide +kernel)
      (w := sampleChain.run mintedAlone) rfl
      (by decide +kernel) hConfig hLookup hOwner hActive
      (by decide +kernel) (sampleEnv 2592000 1)
      (Or.inr hLock) (by decide +kernel) with
    ⟨w', hBegin, _, hOpen⟩
  have hQuiet :
      ∀ step ∈ meanwhile,
        step.poolless = true ∧
          step.completesExitOf sampleVow = false := by
    decide
  have hLater :
      ((execute (sampleEnv 2592000 1)
          (sampleChain.run mintedAlone)
          (.beginUnstake sampleOwner sampleVow)).toOption.map
        (fun w => (w.run meanwhile).config.isSome)) =
          some true := by
    decide +kernel
  rw [hBegin] at hLater
  have hKept : (w'.run meanwhile).config ≠ none :=
    Option.isSome_iff_ne_none.mp (Option.some.inj hLater)
  have hPaid := hOpen meanwhile
    (fun o ho => (hQuiet _ (mem_trace_action ho)).1)
    (fun o ho => (hQuiet _ (mem_trace_action ho)).2) hKept
    (sampleEnv 2592000 2) (by decide)
  rw [hShares, hYield] at hPaid
  exact ⟨w', hBegin, hPaid⟩

end Vow
