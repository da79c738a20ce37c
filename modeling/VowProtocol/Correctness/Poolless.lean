import VowProtocol.Correctness.Pairing
import VowProtocol.Correctness.Payout
import VowProtocol.Correctness.Phases
import VowProtocol.Correctness.PriceReads
import VowProtocol.Correctness.Reputation

/-
  A deployment without a stake pool, as on a test network.

  While no initialization names a pool and the price is never
  set by hand, every share is worth one lamport. The
  reserve then covers all positions, balances and debts in
  every state, also across a migration of the configuration,
  and every exit that is due can be completed in full.

  Key definitions include:
    * `Step.poolless`
    * `AtPar`
    * `ParWorld`

  Key theorems include:
    * `LifeStep.atPar`
    * `exec_margin_le`
    * `exec_parWorld`
    * `poolless_solvent`
-/

------------------------------------------------------------
-- Positions At Par
------------------------------------------------------------

namespace Vow

open MachineInt Fallible Transition

/- The step names no pool and does not set the price. -/
def Step.poolless
    (step : Step) :
    Bool :=
  match step.action with
  | .instruction
      (.initializeConfig _ _ splStakePool _) =>
      splStakePool = .default
  | .instruction (.devSetSharePrice _ _) => false
  | _ => true

/-
  The identity has seen no other price, and its shares are
  its principal unless it is leaving or gone.
-/
structure AtPar
    (life : Life) :
    Prop where
  price : life.vow.lastSharePrice = SHARE_PRECISION
  gain : life.vow.accruedGain = 0
  staked :
    life.vow.activeStake = true → life.unstaking = false →
      life.vow.shares.val =
          life.vow.principalLamports.val ∧
        0 < life.vow.shares.val

/- There is nothing to settle at par. -/
theorem AtPar.settled_eq
    {life : Life}
    (hPar : AtPar life) :
    life.vow.settled SHARE_PRECISION = life.vow := by
  have hGain :
      (life.vow.settled SHARE_PRECISION).accruedGain =
        life.vow.accruedGain := by
    unfold VowState.settled
    dsimp only
    rw [hPar.price, Int.sub_self]
    apply Signed.ext
    rw [hPar.gain]
    decide
  unfold VowState.settled at hGain ⊢
  dsimp only at hGain
  rw [hGain, ← hPar.price]

/- So a harvest credits nothing. -/
theorem AtPar.harvestGain_nothing
    {life : Life}
    (hPar : AtPar life)
    (config : ProtocolConfig) :
    ∃ harvested,
      harvestGain (life.vow.settled SHARE_PRECISION)
          config =
        .ok ({ life.vow with
          totalHarvested := harvested
          accruedGain := 0 }, config) := by
  rw [hPar.settled_eq]
  apply Vow.harvestGain_nothing
  intro _
  rw [hPar.gain]
  exact le_of_eq Signed.val_zero

theorem par_shares
    (amount : Nat) :
    amount * 1000000000000 / SHARE_PRECISION.val =
      amount := by
  rw [sharePrecision_val]
  omega

theorem classForStake_pos
    {lamports : U64}
    {stakeClass : U8}
    (hOk : classForStake lamports = .ok stakeClass) :
    0 < lamports.val := by
  have hXnt := (classForStake_eq_ok_iff.mp hOk).1
  omega

/- A stake that is opened at par has a share per lamport. -/
theorem OpensStake.par
    {env : Env}
    {config : ProtocolConfig}
    {stakeLamports : U64}
    {stakeClass : U8}
    {shares : U128}
    {unlockAt : I64}
    (hOpens :
      OpensStake env config stakeLamports stakeClass shares
        unlockAt)
    (hPrice : config.currentSharePrice = SHARE_PRECISION) :
    shares.val = stakeLamports.val ∧ 0 < shares.val := by
  have hBought := hOpens.bought
  rw [hPrice, par_shares] at hBought
  have hPos := classForStake_pos hOpens.graded
  omega

theorem TopsUp.par
    {env : Env}
    {config : ProtocolConfig}
    {lamportsToAdd : U64}
    {vow vow' : VowState}
    (hTopUp : TopsUp env config lamportsToAdd vow vow')
    (hPrice : config.currentSharePrice = SHARE_PRECISION)
    (hStaked :
      vow.shares.val = vow.principalLamports.val ∧
        0 < vow.shares.val) :
    vow'.shares.val = vow'.principalLamports.val ∧
      0 < vow'.shares.val := by
  cases hTopUp with
  | sameClass principal newClass shares hPrincipal _
      hShares =>
      rw [hPrice, par_shares] at hShares
      dsimp only
      omega
  | raisesClass principal newClass shares unlockAt
      hPrincipal _ hShares =>
      rw [hPrice, par_shares] at hShares
      dsimp only
      omega

/- Every step at par keeps an identity at par. -/
theorem LifeStep.atPar
    {env : Env}
    {config : ProtocolConfig}
    {vowState : Pubkey}
    {ix : Instruction}
    {life life' : Life}
    (hStep : LifeStep env config vowState ix life life')
    (hPrice : config.currentSharePrice = SHARE_PRECISION)
    (hPar : AtPar life) :
    AtPar life' := by
  have hSettled := hPar.settled_eq
  cases hStep with
  | fastUnlock admin vow unstaking =>
      exact ⟨hPar.price, hPar.gain, hPar.staked⟩
  | topUp owner lamportsToAdd vow vow' unstaking hActive
      hStaked hTopUp =>
      have hKept :
          vow'.lastSharePrice = SHARE_PRECISION ∧
            vow'.accruedGain = 0 ∧
            vow'.activeStake = vow.activeStake := by
        cases hTopUp with
        | sameClass =>
            rw [hPrice, hSettled]
            exact ⟨hPar.price, hPar.gain, rfl⟩
        | raisesClass =>
            rw [hPrice, hSettled]
            exact ⟨hPar.price, hPar.gain, rfl⟩
      refine ⟨hKept.1, hKept.2.1, ?_⟩
      intro _ hStays
      exact hTopUp.par hPrice (hPar.staked hActive hStays)
  | switchMode owner newMode vow unstaking hActive =>
      rw [hPrice, hSettled]
      exact ⟨hPar.price, hPar.gain, hPar.staked⟩
  | unstake owner vow =>
      rw [hPrice, hSettled]
      refine ⟨hPar.price, hPar.gain, ?_⟩
      intro _ hStays
      exact absurd hStays (by simp)
  | complete owner vow =>
      refine ⟨hPar.price, hPar.gain, ?_⟩
      intro hActive
      exact absurd hActive (by simp [dormantVow])
  | activate owner stakeLamports yieldMode newClass
      newShares unlockAt vow unstaking hDormant hOpens =>
      refine ⟨hPrice, rfl, ?_⟩
      intro _ _
      exact hOpens.par hPrice
  | harvest config' vow vow' unstaking hGain =>
      rcases matureIfDue_cases env.unixTimestamp vow with
        ⟨matured, hDue, _⟩
      have hDuePar :
          AtPar ⟨{ vow with matured := matured },
            unstaking⟩ :=
        ⟨hPar.price, hPar.gain, hPar.staked⟩
      rw [hDue, hPrice] at hGain
      rcases hDuePar.harvestGain_nothing config with
        ⟨harvested, hNothing⟩
      rw [hNothing, Except.ok.injEq, Prod.mk.injEq] at hGain
      rw [← hGain.1]
      exact ⟨hPar.price, rfl, hPar.staked⟩
  | session ix sessionNonce vow unstaking =>
      exact ⟨hPar.price, hPar.gain, hPar.staked⟩
  | deposit depositor amount vow hActive =>
      exact ⟨hPar.price, hPar.gain, hPar.staked⟩
  | withdraw owner taken amount yieldBalance vow unstaking =>
      exact ⟨hPar.price, hPar.gain, hPar.staked⟩
  | spend ix yieldBalance vow unstaking =>
      exact ⟨hPar.price, hPar.gain, hPar.staked⟩

theorem LifeBirth.atPar
    {env : Env}
    {config : ProtocolConfig}
    {vowState : Pubkey}
    {ix : Instruction}
    {life : Life}
    (hBirth : LifeBirth env config vowState ix life)
    (hPrice : config.currentSharePrice = SHARE_PRECISION) :
    AtPar life := by
  cases hBirth with
  | mint owner stakeLamports yieldMode stakeClass shares
      unlockAt hAddress hOpens =>
      refine ⟨hPrice, rfl, ?_⟩
      intro _ _
      exact hOpens.par hPrice

end Vow

------------------------------------------------------------
-- Margin
------------------------------------------------------------

namespace Vow

open MachineInt Fallible Transition ShareLedger

/- The quote of every configuration is par without a pool. -/
def World.QuotesPar
    (w : World) :
    Prop :=
  ∀ config, w.config = some config →
    config.currentSharePrice = SHARE_PRECISION ∧
      config.splStakePool = .default

/- What holds in every state without a pool. -/
structure ParWorld
    (w : World) :
    Prop where
  owned : EscrowOwned w
  quote : w.QuotesPar
  lives :
    ∀ vowState life, w.life vowState = some life →
      AtPar life
  pending : w.ledger.pendingCounter ≤ w.ledger.owed
  owes :
    ∀ vowState escrow,
      w.escrows.lookup (.unstake vowState) = some escrow →
      0 < escrow.lamportsOwed.val
  covered : 0 ≤ w.margin SHARE_PRECISION

/- The instructions that need a configuration to pay. -/
theorem execute_config_some
    {env : Env}
    {w w' : World}
    {ix : Instruction}
    (hOk : execute env w ix = .ok w')
    (hIdle : ix.kind ≠ .idle)
    (hDrift : ix.kind ≠ .drift) :
    ∃ config, w.config = some config := by
  cases ix with
  | mintVow =>
      rcases mintVow_ok hOk with ⟨call, _⟩
      exact ⟨call.config, call.hConfig⟩
  | addStake =>
      rcases addStake_ok hOk with ⟨call, vow', _, _⟩
      exact ⟨call.config, call.hConfig⟩
  | activateStake =>
      rcases activateStake_ok hOk with ⟨call, _⟩
      exact ⟨call.config, call.hConfig⟩
  | harvest =>
      rcases harvest_eq_ok_iff.mp hOk with
        ⟨call, vow', config', _, _⟩
      exact ⟨call.config, call.hConfig⟩
  | depositYieldBalance =>
      rcases depositYieldBalance_ok hOk with ⟨call, _⟩
      exact ⟨call.config, call.hConfig⟩
  | withdrawYield =>
      rcases withdrawYield_ok hOk with ⟨call, _⟩
      exact ⟨call.config, call.hConfig⟩
  | yieldSpend =>
      rcases yieldSpend_eq_ok_iff.mp hOk with ⟨call, _⟩
      exact ⟨call.config, call.hConfig⟩
  | beginUnstake =>
      rcases beginUnstake_ok hOk with ⟨call, _⟩
      exact ⟨call.config, call.hConfig⟩
  | completeUnstake =>
      rcases completeUnstake_eq_ok_iff.mp hOk with ⟨call, _⟩
      exact ⟨call.config, call.hConfig⟩
  | _ => simp [Instruction.kind] at hIdle hDrift

/- The margin at par is read off four sums. -/
theorem World.margin_congr
    {w w' : World}
    (hVows : w'.vows = w.vows)
    (hEscrows : w'.escrows = w.escrows)
    (hReserve : w'.reserve = w.reserve)
    (price : U128) :
    w'.margin price = w.margin price := by
  unfold World.margin World.sumShares World.sumYield
    World.sumOwed
  rw [hVows, hEscrows, hReserve]

/- A harvest at par moves no shares and no yield. -/
theorem ParWorld.harvest_margin
    {env : Env}
    {w w' : World}
    {vowState : Pubkey}
    (hWorld : ParWorld w)
    (hOk : harvest env w vowState = .ok w') :
    w'.margin SHARE_PRECISION = w.margin SHARE_PRECISION := by
  rcases harvest_eq_ok_iff.mp hOk with
    ⟨call, vow', config', hGain, hEq⟩
  have hPar :=
    hWorld.lives vowState _ (World.life_of_lookup call.hLookup)
  have hQuote := hWorld.quote call.config call.hConfig
  rcases matureIfDue_cases env.unixTimestamp call.vow with
    ⟨matured, hDue, _⟩
  have hDuePar :
      AtPar ⟨{ call.vow with matured := matured },
        (w.escrows.lookup (.unstake vowState)).isSome⟩ :=
    ⟨hPar.price, hPar.gain, hPar.staked⟩
  rw [settleIdnft_eq_settled call.hSettle, hDue, hQuote.1]
    at hGain
  rcases hDuePar.harvestGain_nothing call.config with
    ⟨harvested, hNothing⟩
  rw [hNothing, Except.ok.injEq, Prod.mk.injEq] at hGain
  rcases hGain with ⟨hVow, _⟩
  have hShares : w'.sumShares = w.sumShares := by
    rw [hEq]
    exact AccountMap.total_insert_of_eq call.hLookup
      (by rw [← hVow])
  have hYield : w'.sumYield = w.sumYield := by
    rw [hEq]
    exact AccountMap.total_insert_of_eq call.hLookup
      (by rw [← hVow])
  have hOwed : w'.sumOwed = w.sumOwed := by
    rw [hEq]
    rfl
  have hReserve : w'.reserve = w.reserve := by
    rw [hEq]
    rfl
  unfold World.margin
  rw [hShares, hYield, hOwed, hReserve]

/- No step at par lowers the margin. -/
theorem ParWorld.execute_margin_le
    {env : Env}
    {w w' : World}
    {ix : Instruction}
    (hWorld : ParWorld w)
    (hOk : execute env w ix = .ok w')
    (hStep : Step.poolless ⟨env, .instruction ix⟩ = true) :
    w.margin SHARE_PRECISION ≤ w'.margin SHARE_PRECISION := by
  have hMoves :
      (∀ admin, ix ≠ .closeProtocolConfig admin) →
      ix.kind ≠ .credit → ix.kind ≠ .drift →
      w.margin SHARE_PRECISION ≤
        w'.margin SHARE_PRECISION := by
    intro hOpen hCredit hDrift
    have hMove := execute_move hOk hOpen
    by_cases hIdle : ix.kind = .idle
    · -- An idle step may run without a configuration.
      rw [hIdle] at hMove
      have hLedger := hMove.eq_of_idle
      have hShares := congrArg Ledger.shares hLedger
      have hYields := congrArg Ledger.yields hLedger
      have hOwed := congrArg Ledger.owed hLedger
      have hReserve := congrArg Ledger.reserve hLedger
      dsimp only [World.ledger] at hShares hYields hOwed
      dsimp only [World.ledger] at hReserve
      unfold World.margin
      rw [hShares, hYields, hOwed, hReserve]
    · rcases execute_config_some hOk hIdle hDrift with
        ⟨config, hConfig⟩
      have hBefore :
          w.ledger.price = SHARE_PRECISION.val := by
        rw [World.ledger_of_config hConfig,
          ← (hWorld.quote config hConfig).1]
      have hAfter := (hMove.price_eq hDrift).trans hBefore
      rw [World.margin_eq hBefore, World.margin_eq hAfter]
      exact hMove.margin_le hCredit hDrift
  cases ix with
  | harvest vowState =>
      exact le_of_eq (hWorld.harvest_margin hOk).symm
  | initializeConfig =>
      rcases initializeConfig_ok hOk with ⟨call, hEq⟩
      apply le_of_eq
      apply (World.margin_congr _ _ _ _).symm
      · rw [hEq]
      · rw [hEq]
      · rw [hEq]
        exact call.reserve_eq
  | closeProtocolConfig admin =>
      rcases closeProtocolConfig_ok hOk with ⟨_, hEq⟩
      apply le_of_eq
      apply (World.margin_congr _ _ _ _).symm
      · rw [hEq]
      · rw [hEq]
      · rw [hEq]
        exact closeConfig_reserve w admin
  | setAdmin =>
      rcases setAdmin_ok hOk with ⟨call, hEq⟩
      rw [hEq]
      exact le_refl _
  | setMintCounter =>
      rcases setMintCounter_ok hOk with ⟨call, hEq⟩
      rw [hEq]
      exact le_refl _
  | devSetSharePrice =>
      exact absurd hStep (by simp [Step.poolless])
  | updateSharePrice =>
      rcases updateSharePrice_ok hOk with ⟨call, hEq⟩
      rw [hEq]
      exact le_refl _
  | flushReserveToPool =>
      rcases flushReserveToPool_ok hOk with hEq | ⟨call, _⟩
      · rw [hEq]
      · exact absurd (hWorld.quote call.config call.hConfig).2
          call.hPool
  | withdrawFromPool =>
      rcases withdrawFromPool_ok hOk with
        ⟨_, hEq⟩ | ⟨call, _⟩
      · rw [hEq]
      · exact absurd (hWorld.quote call.config call.hConfig).2
          call.hPool
  | _ =>
      exact hMoves (by simp) (by simp [Instruction.kind])
        (by simp [Instruction.kind])

end Vow

------------------------------------------------------------
-- Runs At Par
------------------------------------------------------------

namespace Vow

open MachineInt Fallible Transition ShareLedger

theorem World.QuotesPar.of_quote
    {w w' : World}
    (hQuotes : w.QuotesPar)
    (hQuote : w'.quote = w.quote) :
    w'.QuotesPar := by
  intro config' hConfig'
  unfold World.quote at hQuote
  rw [hConfig', Option.map_some] at hQuote
  rcases Option.map_eq_some_iff.mp hQuote.symm with
    ⟨config, hConfig, hSame⟩
  unfold ProtocolConfig.quote at hSame
  rw [Prod.mk.injEq, Prod.mk.injEq] at hSame
  rcases hQuotes config hConfig with ⟨hPrice, hPool⟩
  exact ⟨hSame.2.1 ▸ hPrice, hSame.1 ▸ hPool⟩

theorem exec_quotesPar
    {w w' : World}
    {step : Step}
    (hQuotes : w.QuotesPar)
    (hExec : step.exec w = some w')
    (hStep : step.poolless = true) :
    w'.QuotesPar := by
  rcases step with ⟨env, action⟩
  cases action with
  | instruction ix =>
      have hOk := Step.exec_instruction_iff.mp hExec
      cases ix with
      | initializeConfig admin splPool splStakePool splPoolMint =>
          rcases initializeConfig_quote hOk with
            ⟨opening, hOpening, hQuote⟩
          have hPool : splStakePool = .default := by
            simpa [Step.poolless] using hStep
          rcases openingSharePrice_cases hOpening with
            ⟨hReads, _⟩ | ⟨_, hDefault⟩
          · exact absurd hPool hReads.1
          · intro config hConfig
            unfold World.quote at hQuote
            rw [hConfig, Option.map_some, Option.some.injEq,
              hDefault] at hQuote
            unfold ProtocolConfig.quote at hQuote
            rw [Prod.mk.injEq, Prod.mk.injEq] at hQuote
            exact ⟨hQuote.2.1, hQuote.1.trans hPool⟩
      | closeProtocolConfig admin =>
          rcases closeProtocolConfig_ok hOk with ⟨call, hEq⟩
          intro config hConfig
          rw [hEq] at hConfig
          exact absurd hConfig (by simp)
      | devSetSharePrice =>
          exact absurd hStep (by simp [Step.poolless])
      | updateSharePrice pool =>
          rcases updateSharePrice_ok hOk with ⟨call, _⟩
          rcases updateSharePrice_cases call.hConfig hOk with
            ⟨_, ⟨_, hEq⟩ | ⟨_, hPool, _⟩⟩
          · rw [hEq]
            exact hQuotes
          · exact absurd
              (hQuotes call.config call.hConfig).2 hPool
      | _ => exact hQuotes.of_quote (execute_quote hOk rfl)
  | _ =>
      rw [← Option.some.inj hExec]
      exact hQuotes

theorem exec_atPar
    {w w' : World}
    {step : Step}
    (hWorld : ParWorld w)
    (hExec : step.exec w = some w')
    {vowState : Pubkey}
    {life' : Life}
    (hAfter : w'.life vowState = some life') :
    AtPar life' := by
  cases hBefore : w.life vowState with
  | none =>
      rcases exec_born hExec hWorld.owned hBefore hAfter with
        ⟨config, ix, hConfig, _, hBirth⟩
      exact hBirth.atPar (hWorld.quote config hConfig).1
  | some life =>
      have hPar := hWorld.lives vowState life hBefore
      rcases exec_moved hExec hBefore with
        ⟨next, hNext, hMove⟩
      rw [hAfter, Option.some.injEq] at hNext
      subst hNext
      cases hMove with
      | idle hIdle hSame =>
          rw [hSame]
          exact hPar
      | acts config ix hConfig hAction hStep =>
          exact hStep.atPar (hWorld.quote config hConfig).1
            hPar

/- An exit at par owes its principal at least. -/
theorem exec_owes
    {w w' : World}
    {step : Step}
    (hWorld : ParWorld w)
    (hExec : step.exec w = some w')
    {vowState : Pubkey}
    {escrow : UnstakeEscrow}
    (hEscrow :
      w'.escrows.lookup (.unstake vowState) =
        some escrow) :
    0 < escrow.lamportsOwed.val := by
  by_cases hBegins : step.beginsExit vowState = true
  · rcases exec_exit_begun hExec hBegins with
      ⟨hNone, opened, hOpened, owner, config, vow, hAction,
        hConfig, hLookup, _, _, _, _, hOwed⟩
    rw [hEscrow, Option.some.injEq] at hOpened
    subst hOpened
    dsimp only at hAction hConfig hLookup hOwed
    have hPar :=
      hWorld.lives vowState _ (World.life_of_lookup hLookup)
    have hOk := Step.execute_of_exec hAction hExec
    rcases beginUnstake_ok hOk with ⟨call, _⟩
    have hFound := call.hLookup
    rw [hLookup, Option.some.injEq] at hFound
    subst hFound
    rw [hNone] at hPar
    rcases hPar.staked call.hActive rfl with ⟨hPrincipal, hPos⟩
    dsimp only at hPrincipal hPos
    have hFits := call.vow.principalLamports.isLt
    rw [(hWorld.quote config hConfig).1] at hOwed
    have hValue :
        valueAt call.vow.shares.val SHARE_PRECISION.val =
          call.vow.shares.val := by
      unfold valueAt
      rw [sharePrecision_val]
      omega
    rw [hValue] at hOwed
    omega
  · rw [Bool.not_eq_true] at hBegins
    by_cases hCompletes : step.completesExitOf vowState = true
    · have hClosed := (exec_exit_paid hExec hCompletes).1
      rw [hEscrow] at hClosed
      exact absurd hClosed (by simp)
    · rw [Bool.not_eq_true] at hCompletes
      rw [exec_exit_kept hExec hBegins hCompletes] at hEscrow
      exact hWorld.owes vowState escrow hEscrow

theorem exec_margin_le
    {w w' : World}
    {step : Step}
    (hWorld : ParWorld w)
    (hExec : step.exec w = some w')
    (hStep : step.poolless = true) :
    w.margin SHARE_PRECISION ≤ w'.margin SHARE_PRECISION := by
  rcases step with ⟨env, action⟩
  cases action with
  | instruction ix =>
      exact hWorld.execute_margin_le
        (Step.exec_instruction_iff.mp hExec) hStep
  | _ =>
      rcases exec_outside hExec (by simp) with
        ⟨_, hVows, hEscrows, hReserve⟩
      unfold World.margin World.sumShares World.sumYield
        World.sumOwed
      rw [hVows, hEscrows, sharePrecision_val]
      omega

theorem exec_pending_le
    {w w' : World}
    {step : Step}
    (hPending : w.ledger.pendingCounter ≤ w.ledger.owed)
    (hExec : step.exec w = some w') :
    w'.ledger.pendingCounter ≤ w'.ledger.owed := by
  by_cases hCloses : step.closesConfig = true
  · rcases step with ⟨env, action⟩
    unfold Step.closesConfig at hCloses
    split at hCloses
    · rename_i admin hAction
      cases hAction
      rcases closeProtocolConfig_ok
          (Step.exec_instruction_iff.mp hExec) with
        ⟨_, hEq⟩
      rw [hEq]
      exact Nat.zero_le _
    · exact absurd hCloses (by simp)
  · rw [Bool.not_eq_true] at hCloses
    exact (exec_move hExec hCloses).pendingCounter_le hPending

theorem exec_parWorld
    {w w' : World}
    {step : Step}
    (hStep : step.poolless = true)
    (hWorld : ParWorld w)
    (hExec : step.exec w = some w') :
    ParWorld w' where
  owned := exec_escrowOwned hExec hWorld.owned
  quote := exec_quotesPar hWorld.quote hExec hStep
  lives := fun _ _ hAfter => exec_atPar hWorld hExec hAfter
  pending := exec_pending_le hWorld.pending hExec
  owes := fun _ _ hEscrow => exec_owes hWorld hExec hEscrow
  covered :=
    hWorld.covered.trans (exec_margin_le hWorld hExec hStep)

theorem genesis_parWorld
    (lamports : Lamports) :
    ParWorld (World.genesis lamports) where
  owned := escrowOwned_reachable ⟨lamports, [], rfl⟩
  quote := by
    intro config hConfig
    exact absurd hConfig (by simp [World.genesis])
  lives := by
    intro vowState life hLife
    exact absurd hLife (by simp [World.life, World.genesis])
  pending := le_refl 0
  owes := by
    intro vowState escrow hEscrow
    exact absurd hEscrow (by simp [World.genesis])
  covered := by
    have hShares : (World.genesis lamports).sumShares = 0 :=
      rfl
    have hYield : (World.genesis lamports).sumYield = 0 := rfl
    have hOwed : (World.genesis lamports).sumOwed = 0 := rfl
    unfold World.margin
    rw [hShares, hYield, hOwed, sharePrecision_val]
    omega

/- The reserve covers all claims. -/
theorem ParWorld.sum_le
    {w : World}
    (hWorld : ParWorld w) :
    w.sumShares + w.sumYield + w.sumOwed ≤ w.reserve := by
  have hCovered := hWorld.covered
  unfold World.margin at hCovered
  rw [sharePrecision_val] at hCovered
  omega

/- An exit that is due is paid in full. -/
theorem ParWorld.paysInFull
    {env : Env}
    {w : World}
    {owner : Signer}
    {vowState : Pubkey}
    {config : ProtocolConfig}
    {escrow : UnstakeEscrow}
    (hWorld : ParWorld w)
    (hConfig : w.config = some config)
    (hEscrow :
      w.escrows.lookup (.unstake vowState) = some escrow)
    (hOwner : escrow.owner = owner.key)
    (hEpoch : escrow.deactivationEpoch < env.epoch) :
    PaysInFull env w owner vowState
      escrow.lamportsOwed.val := by
  rw [paysInFull_iff hWorld.owned hConfig hEscrow hOwner
    hEpoch]
  have hSum := hWorld.sum_le
  have hPending := hWorld.pending
  rw [World.ledger_of_config hConfig] at hPending
  dsimp only at hPending
  have hOwed := World.sumOwed_eq hEscrow
  refine ⟨hWorld.owes vowState escrow hEscrow, ?_, ?_⟩
  · omega
  · omega

theorem ParWorld.run
    {w : World}
    {steps : List Step}
    (hWorld : ParWorld w)
    (hSteps : ∀ o ∈ w.trace steps, o.action.poolless = true) :
    ParWorld (w.run steps) := by
  have hStep :
      ∀ s a s', ParWorld s → Step.exec s a = some s' →
        a.poolless = true → ParWorld s' := by
    intro s a s' hBefore hExec hPoolless
    exact exec_parWorld hPoolless hBefore hExec
  exact (@trace_invariant World Step Step.exec _
    (fun o => o.action.poolless = true) hStep w hWorld steps
    hSteps).2

/-
  When no step that succeeds names a pool or sets the price,
  the reserve covers every position, balance and debt, and
  every exit whose epoch has passed can be completed by its
  owner and is paid in full. A system transfer is taken to
  succeed whenever the balance suffices: the runtime's check
  that the reserve is left empty or rent-exempt is none of
  the handler's.
-/
theorem poolless_solvent
    (lamports : Lamports)
    (steps : List Step)
    (hSteps :
      ∀ o ∈ (World.genesis lamports).trace steps,
        o.action.poolless = true) :
    ((World.genesis lamports).run steps).sumShares +
          ((World.genesis lamports).run steps).sumYield +
          ((World.genesis lamports).run steps).sumOwed ≤
        ((World.genesis lamports).run steps).reserve ∧
      ∀ env owner vowState escrow config,
        ((World.genesis lamports).run steps).config =
          some config →
        ((World.genesis lamports).run steps).escrows.lookup
          (.unstake vowState) = some escrow →
        escrow.owner = owner.key →
        escrow.deactivationEpoch < env.epoch →
        PaysInFull env ((World.genesis lamports).run steps)
          owner vowState escrow.lamportsOwed.val := by
  have hRun := (genesis_parWorld lamports).run hSteps
  refine ⟨hRun.sum_le, ?_⟩
  intro env owner vowState escrow config hConfig hEscrow
    hOwner hEpoch
  exact hRun.paysInFull hConfig hEscrow hOwner hEpoch

/-
  An exit is open while the configuration is migrated, and a
  stranger fails to set the price.
-/
def migratedExit : List Step :=
  exitSteps ++
    [sampleStep 2592000 1 (.devSetSharePrice otherOwner 1),
      sampleStep 2592000 1 (.closeProtocolConfig sampleAdmin),
      sampleInit]

def migratedConfig : ProtocolConfig where
  admin := sampleAdmin.key
  currentSharePrice := 1000000000000
  totalShares := 0
  totalYieldClaims := 0
  lastPoolLamports := 0
  totalMinted := 0
  merkleTree := .default
  totalPendingUnstake := 0
  splStakePool := .default
  splPoolMint := .default

theorem poolless_solvent_migrated :
    PaysInFull (sampleEnv 2592000 2)
      (sampleChain.run migratedExit) sampleOwner sampleVow
      5000000000 :=
  (poolless_solvent _ migratedExit (by decide +kernel)).2
    (sampleEnv 2592000 2) sampleOwner sampleVow
    ⟨sampleVow, sampleOwner.key, 5000000000, 1⟩
    migratedConfig (by decide +kernel) (by decide +kernel)
    rfl (by decide)

end Vow
