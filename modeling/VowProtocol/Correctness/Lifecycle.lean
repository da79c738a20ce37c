import VowProtocol.Correctness.Identity
import VowProtocol.Library.Component

/-
  The life of one identity: its account together with the
  existence of its exit escrow.

  The program does not store the phase of an identity. It is
  Active, Unstaking or Dormant according to `activeStake` and
  to the escrow account. `LifeStep` lists every way in which
  an instruction can move an identity, with the guards it
  passed, and every run of the program moves every identity
  by these steps only.

  Key definitions include:
    * `Life`
    * `World.life`
    * `Instruction.rewrites`
    * `LifeStep`
    * `LifeBirth`
    * `LivesChange`
    * `lifeOf`

  Key theorems include:
    * `harvestGain_step`
    * `execute_lives`
    * `exec_born`
    * `exec_moved`
    * `Reachable.life_invariant`
    * `World.life_kept`
-/

------------------------------------------------------------
-- Lives
------------------------------------------------------------

namespace Vow

open MachineInt Fallible

/- An identity, and whether its exit is in progress. -/
structure Life where
  vow : VowState
  unstaking : Bool

/- The life of the identity at an address. -/
def World.life
    (w : World)
    (vowState : Pubkey) :
    Option Life :=
  (w.vows.lookup vowState).map fun vow =>
    { vow := vow
      unstaking :=
        (w.escrows.lookup (.unstake vowState)).isSome }

theorem World.life_eq_some_iff
    {w : World}
    {vowState : Pubkey}
    {life : Life} :
    w.life vowState = some life ↔
      w.vows.lookup vowState = some life.vow ∧
        (w.escrows.lookup (.unstake vowState)).isSome =
          life.unstaking := by
  unfold World.life
  rw [Option.map_eq_some_iff]
  constructor
  · rintro ⟨vow, hLookup, hLife⟩
    subst hLife
    exact ⟨hLookup, rfl⟩
  · rintro ⟨hLookup, hOpen⟩
    exact ⟨life.vow, hLookup, by rw [hOpen]⟩

theorem World.life_eq_none_iff
    {w : World}
    {vowState : Pubkey} :
    w.life vowState = none ↔
      w.vows.lookup vowState = none := by
  unfold World.life
  exact Option.map_eq_none_iff

theorem World.life_of_lookup
    {w : World}
    {vowState : Pubkey}
    {vow : VowState}
    (hLookup : w.vows.lookup vowState = some vow) :
    w.life vowState = some
      ⟨vow, (w.escrows.lookup (.unstake vowState)).isSome⟩ :=
  World.life_eq_some_iff.mpr ⟨hLookup, rfl⟩

/- A life depends on two accounts only. -/
theorem World.life_congr
    {w w' : World}
    {vowState : Pubkey}
    (hVow : w'.vows.lookup vowState = w.vows.lookup vowState)
    (hEscrow :
      w'.escrows.lookup (.unstake vowState) =
        w.escrows.lookup (.unstake vowState)) :
    w'.life vowState = w.life vowState := by
  unfold World.life
  rw [hVow, hEscrow]

/- The identity account that an instruction may rewrite. -/
def Instruction.rewrites : Instruction → Option Pubkey
| .devFastUnlock _ vowState => some vowState
| .addStake _ vowState _ => some vowState
| .updateYieldMode _ vowState _ => some vowState
| .beginUnstake _ vowState => some vowState
| .completeUnstake _ vowState => some vowState
| .activateStake _ vowState _ _ => some vowState
| .harvest vowState => some vowState
| .createSession ix => some ix.vowState
| .depositYieldBalance _ vowState _ => some vowState
| .yieldSpend ix => some ix.vowState
| .withdrawYield _ vowState _ => some vowState
| _ => none

/-
  Every way in which an instruction moves an identity. The
  guards are those that the handlers check themselves: each
  handler tests its own proxy for the phase.
-/
inductive LifeStep
    (env : Env)
    (config : ProtocolConfig)
    (vowState : Pubkey) :
    Instruction → Life → Life → Prop where
  | fastUnlock
      (admin : Signer)
      (vow : VowState)
      (unstaking : Bool)
      (hPool : config.splStakePool = .default) :
      LifeStep env config vowState
        (.devFastUnlock admin vowState)
        ⟨vow, unstaking⟩
        ⟨{ vow with unlockAt := Signed.clamp 63 1 },
          unstaking⟩
  | topUp
      (owner : Signer)
      (lamportsToAdd : U64)
      (vow vow' : VowState)
      (unstaking : Bool)
      (hActive : vow.activeStake = true)
      (hStaked : 0 < vow.shares.val)
      (hTopUp : TopsUp env config lamportsToAdd vow vow') :
      LifeStep env config vowState
        (.addStake owner vowState lamportsToAdd)
        ⟨vow, unstaking⟩ ⟨vow', unstaking⟩
  | switchMode
      (owner : Signer)
      (newMode : YieldMode)
      (vow : VowState)
      (unstaking : Bool)
      (hActive : vow.activeStake = true) :
      LifeStep env config vowState
        (.updateYieldMode owner vowState newMode)
        ⟨vow, unstaking⟩
        ⟨{ vow.settled config.currentSharePrice with
            yieldMode := newMode },
          unstaking⟩
  | unstake
      (owner : Signer)
      (vow : VowState)
      (hActive : vow.activeStake = true)
      (hMature :
        vow.matured = true ∨
          vow.unlockAt ≤ env.unixTimestamp) :
      LifeStep env config vowState
        (.beginUnstake owner vowState)
        ⟨vow, false⟩
        ⟨{ vow.settled config.currentSharePrice with
            matured := true
            shares := 0
            yieldBalance := 0 },
          true⟩
  | complete
      (owner : Signer)
      (vow : VowState) :
      LifeStep env config vowState
        (.completeUnstake owner vowState)
        ⟨vow, true⟩
        ⟨dormantVow env.unixTimestamp vow, false⟩
  | activate
      (owner : Signer)
      (stakeLamports : U64)
      (yieldMode : YieldMode)
      (newClass : U8)
      (newShares : U128)
      (unlockAt : I64)
      (vow : VowState)
      (unstaking : Bool)
      (hDormant : vow.activeStake = false)
      (hOpens :
        OpensStake env config stakeLamports newClass
          newShares unlockAt) :
      LifeStep env config vowState
        (.activateStake owner vowState stakeLamports
          yieldMode)
        ⟨vow, unstaking⟩
        ⟨activatedVow env config stakeLamports yieldMode
            newClass newShares unlockAt
            (vow.settled config.currentSharePrice),
          unstaking⟩
  | harvest
      (config' : ProtocolConfig)
      (vow vow' : VowState)
      (unstaking : Bool)
      (hGain :
        harvestGain
          ((matureIfDue env.unixTimestamp vow).settled
            config.currentSharePrice) config =
          .ok (vow', config')) :
      LifeStep env config vowState (.harvest vowState)
        ⟨vow, unstaking⟩ ⟨vow', unstaking⟩
  | session
      (ix : CreateSession)
      (sessionNonce : U64)
      (vow : VowState)
      (unstaking : Bool)
      (hIdentity : ix.vowState = vowState)
      (hActive : vow.activeStake = true)
      (hNonce :
        sessionNonce.val = vow.sessionNonce.val + 1) :
      LifeStep env config vowState (.createSession ix)
        ⟨vow, unstaking⟩
        ⟨{ vow with sessionNonce := sessionNonce },
          unstaking⟩
  | deposit
      (depositor : Signer)
      (amount : U64)
      (vow : VowState)
      (hActive : vow.activeStake = true) :
      LifeStep env config vowState
        (.depositYieldBalance depositor vowState amount)
        ⟨vow, false⟩
        ⟨{ vow with
            yieldBalance :=
              vow.yieldBalance.saturatingAdd amount },
          false⟩
  | withdraw
      (owner : Signer)
      (taken : Option U64)
      (amount yieldBalance : U64)
      (vow : VowState)
      (unstaking : Bool)
      (hBalance :
        vow.yieldBalance.val =
          yieldBalance.val + amount.val) :
      LifeStep env config vowState
        (.withdrawYield owner vowState taken)
        ⟨vow, unstaking⟩
        ⟨{ vow with yieldBalance := yieldBalance },
          unstaking⟩
  | spend
      (ix : YieldSpend)
      (yieldBalance : U64)
      (vow : VowState)
      (unstaking : Bool)
      (hIdentity : ix.vowState = vowState)
      (hActive : vow.activeStake = true)
      (hBalance :
        vow.yieldBalance.val =
          yieldBalance.val + ix.amount.val) :
      LifeStep env config vowState (.yieldSpend ix)
        ⟨vow, unstaking⟩
        ⟨{ vow with yieldBalance := yieldBalance },
          unstaking⟩

theorem LifeStep.rewrites_eq
    {env : Env}
    {config : ProtocolConfig}
    {vowState : Pubkey}
    {ix : Instruction}
    {life life' : Life}
    (hStep : LifeStep env config vowState ix life life') :
    ix.rewrites = some vowState := by
  cases hStep with
  | session ix sessionNonce vow unstaking hIdentity =>
      rw [Instruction.rewrites, hIdentity]
  | spend ix yieldBalance vow unstaking hIdentity =>
      rw [Instruction.rewrites, hIdentity]
  | _ => rfl

end Vow

------------------------------------------------------------
-- Harvests
------------------------------------------------------------

namespace Vow

open MachineInt Fallible

/- The fields that a harvest writes. -/
structure HarvestedVow
    (now : I64)
    (vow : VowState) where
  matured : Bool
  shares : U128
  accruedGain : I64
  yieldBalance : U64
  totalHarvested : U64
  hMatured :
    matured = true ↔
      vow.matured = true ∨ vow.unlockAt ≤ now
  hShares : shares.val ≤ vow.shares.val

/-
  The part of an identity that a harvest writes. Shares can
  only be burned, and the maturity flag is set exactly when
  the lock has run out.
-/
theorem harvestGain_step
    {now : I64}
    {vow vow' : VowState}
    {config config' : ProtocolConfig}
    (hGain :
      harvestGain
        ((matureIfDue now vow).settled
          config.currentSharePrice) config =
        .ok (vow', config')) :
    ∃ harvested : HarvestedVow now vow,
      vow' = { vow with
        matured := harvested.matured
        shares := harvested.shares
        lastSharePrice := config.currentSharePrice
        accruedGain := harvested.accruedGain
        yieldBalance := harvested.yieldBalance
        totalHarvested := harvested.totalHarvested } := by
  rcases matureIfDue_cases now vow with
    ⟨matured, hDue, hMatured⟩
  rw [hDue] at hGain
  rcases harvestGain_cases hGain with
    ⟨harvested, _, _, hVow, _⟩ | ⟨moved, hVow, _⟩
  · exact ⟨⟨matured, vow.shares, 0, vow.yieldBalance,
      harvested, hMatured, le_refl _⟩, hVow⟩
  · have hLess : moved.shares.val ≤ vow.shares.val := by
      have hSum :
          vow.shares.val =
            moved.shares.val + moved.burned.val :=
        moved.hSplit
      omega
    exact ⟨⟨matured, moved.shares, moved.carry, _,
      moved.harvested, hMatured, hLess⟩, hVow⟩

end Vow

------------------------------------------------------------
-- Steps Of The Program
------------------------------------------------------------

namespace Vow

open MachineInt Fallible

/- The life that a mint creates. -/
inductive LifeBirth
    (env : Env)
    (config : ProtocolConfig)
    (vowState : Pubkey) :
    Instruction → Life → Prop where
  | mint
      (owner : Signer)
      (stakeLamports : U64)
      (yieldMode : YieldMode)
      (stakeClass : U8)
      (shares : U128)
      (unlockAt : I64)
      (hAddress :
        vowState = .vow (.vowAsset config.totalMinted))
      (hOpens :
        OpensStake env config stakeLamports stakeClass
          shares unlockAt) :
      LifeBirth env config vowState
        (.mintVow owner stakeLamports yieldMode)
        ⟨mintedVow env config owner stakeLamports yieldMode
            stakeClass shares unlockAt,
          false⟩

/-
  What one instruction does to all lives: nothing, one step
  of one identity, or one birth.
-/
inductive LivesChange
    (env : Env)
    (ix : Instruction)
    (w w' : World) :
    Prop where
  | none
      (hIdle : ix.rewrites = none)
      (hVows : w'.vows = w.vows)
      (hEscrows : w'.escrows = w.escrows)
  | step
      (config : ProtocolConfig)
      (vowState : Pubkey)
      (life life' : Life)
      (hConfig : w.config = some config)
      (hBefore : w.life vowState = some life)
      (hStep : LifeStep env config vowState ix life life')
      (hVows :
        w'.vows = w.vows.insert vowState life'.vow)
      (hEscrow :
        (w'.escrows.lookup (.unstake vowState)).isSome =
          life'.unstaking)
      (hOthers :
        ∀ k, k ≠ .unstake vowState →
          w'.escrows.lookup k = w.escrows.lookup k)
  | birth
      (config : ProtocolConfig)
      (vowState : Pubkey)
      (life : Life)
      (hIdle : ix.rewrites = none)
      (hConfig : w.config = some config)
      (hFresh : w.vows.lookup vowState = none)
      (hBirth : LifeBirth env config vowState ix life)
      (hVows : w'.vows = w.vows.insert vowState life.vow)
      (hEscrows : w'.escrows = w.escrows)

theorem Untouched.livesChange
    {env : Env}
    {ix : Instruction}
    {w w' : World}
    (hFrame : Untouched w w')
    (hIdle : ix.rewrites = none) :
    LivesChange env ix w w' :=
  .none hIdle hFrame.vows hFrame.escrows

/- A step that leaves the escrows alone. -/
theorem LifeStep.livesChange
    {env : Env}
    {config : ProtocolConfig}
    {ix : Instruction}
    {w w' : World}
    {vowState : Pubkey}
    {vow vow' : VowState}
    (hStep :
      LifeStep env config vowState ix
        ⟨vow, (w.escrows.lookup
          (.unstake vowState)).isSome⟩
        ⟨vow', (w.escrows.lookup
          (.unstake vowState)).isSome⟩)
    (hConfig : w.config = some config)
    (hLookup : w.vows.lookup vowState = some vow)
    (hVows : w'.vows = w.vows.insert vowState vow')
    (hEscrows : w'.escrows = w.escrows) :
    LivesChange env ix w w' := by
  refine .step config vowState _ _ hConfig
    (World.life_of_lookup hLookup) hStep hVows ?_ ?_
  · rw [hEscrows]
  · intro k _
    rw [hEscrows]

theorem harvest_lives
    {env : Env}
    {w w' : World}
    {vowState : Pubkey}
    (hOk : harvest env w vowState = .ok w') :
    LivesChange env (.harvest vowState) w w' := by
  rcases harvest_eq_ok_iff.mp hOk with
    ⟨call, vow', config', hGain, hEq⟩
  subst hEq
  rw [settleIdnft_eq_settled call.hSettle] at hGain
  exact (LifeStep.harvest config' call.vow vow' _
    hGain).livesChange call.hConfig call.hLookup rfl rfl

theorem beginUnstake_lives
    {env : Env}
    {w w' : World}
    {owner : Signer}
    {vowState : Pubkey}
    (hOk : beginUnstake env w owner vowState = .ok w') :
    LivesChange env (.beginUnstake owner vowState) w w' := by
  rcases beginUnstake_ok hOk with ⟨call, hEq⟩
  subst hEq
  refine .step call.config vowState ⟨call.vow, false⟩ _
    call.hConfig ?_
    (.unstake owner call.vow call.hActive call.hMature) rfl
    ?_ ?_
  · rw [World.life_of_lookup call.hLookup, call.hFresh]
    rfl
  · rw [AList.lookup_insert]
    rfl
  · intro k hNe
    exact AList.lookup_insert_ne hNe

/- An exit starts from a mature stake and empties it. -/
theorem beginUnstake_life
    {env : Env}
    {w w' : World}
    {owner : Signer}
    {vowState : Pubkey}
    (hOk : beginUnstake env w owner vowState = .ok w') :
    ∃ config vow,
      w.config = some config ∧
      w.life vowState = some ⟨vow, false⟩ ∧
      vow.activeStake = true ∧
      (vow.matured = true ∨
        vow.unlockAt ≤ env.unixTimestamp) ∧
      w'.life vowState = some
        ⟨{ vow.settled config.currentSharePrice with
            matured := true
            shares := 0
            yieldBalance := 0 },
          true⟩ := by
  cases beginUnstake_lives hOk with
  | none hIdle => exact absurd hIdle (by simp [Instruction.rewrites])
  | birth config identity life hIdle =>
      exact absurd hIdle (by simp [Instruction.rewrites])
  | step config identity life life' hConfig hBefore hStep
      hVows hEscrow =>
      cases hStep with
      | unstake owner vow hActive hMature =>
          refine ⟨config, vow, hConfig, hBefore, hActive,
            hMature, World.life_eq_some_iff.mpr ⟨?_, hEscrow⟩⟩
          rw [hVows]
          exact AList.lookup_insert _

theorem completeUnstake_lives
    {env : Env}
    {w w' : World}
    {owner : Signer}
    {vowState : Pubkey}
    (hOk : completeUnstake env w owner vowState = .ok w') :
    LivesChange env (.completeUnstake owner vowState)
      w w' := by
  rcases completeUnstake_eq_ok_iff.mp hOk with ⟨call, hEq⟩
  subst hEq
  refine .step call.config vowState ⟨call.vow, true⟩ _
    call.hConfig ?_ (.complete owner call.vow) rfl ?_ ?_
  · rw [World.life_of_lookup call.hLookup, call.hEscrow]
    rfl
  · rw [AList.lookup_erase]
    rfl
  · intro k hNe
    exact AList.lookup_erase_ne hNe

theorem addStake_lives
    {env : Env}
    {w w' : World}
    {owner : Signer}
    {vowState : Pubkey}
    {lamportsToAdd : U64}
    (hOk :
      addStake env w owner vowState lamportsToAdd =
        .ok w') :
    LivesChange env (.addStake owner vowState lamportsToAdd)
      w w' := by
  rcases addStake_ok hOk with ⟨call, vow', hTopUp, hEq⟩
  subst hEq
  exact (LifeStep.topUp owner lamportsToAdd call.vow vow' _
    call.hActive call.hStaked hTopUp).livesChange
    call.hConfig call.hLookup rfl rfl

theorem activateStake_lives
    {env : Env}
    {w w' : World}
    {owner : Signer}
    {vowState : Pubkey}
    {stakeLamports : U64}
    {yieldMode : YieldMode}
    (hOk :
      activateStake env w owner vowState stakeLamports
        yieldMode = .ok w') :
    LivesChange env
      (.activateStake owner vowState stakeLamports
        yieldMode) w w' := by
  rcases activateStake_ok hOk with ⟨call, hEq⟩
  subst hEq
  rw [settleIdnft_eq_settled call.hSettle]
  exact (LifeStep.activate owner stakeLamports yieldMode
    call.newClass call.newShares call.unlockAt call.vow _
    call.hDormant call.hOpens).livesChange call.hConfig
    call.hLookup rfl rfl

/- Every instruction is one step of at most one identity. -/
theorem execute_lives
    {env : Env}
    {w w' : World}
    {ix : Instruction}
    (hOk : execute env w ix = .ok w') :
    LivesChange env ix w w' := by
  cases ix with
  | initializeConfig =>
      rcases initializeConfig_ok hOk with ⟨call, hEq⟩
      subst hEq
      exact .none rfl rfl rfl
  | setAdmin =>
      rcases setAdmin_ok hOk with ⟨call, hEq⟩
      subst hEq
      exact .none rfl rfl rfl
  | closeProtocolConfig =>
      rcases closeProtocolConfig_ok hOk with ⟨call, hEq⟩
      subst hEq
      exact .none rfl rfl rfl
  | setMintCounter =>
      rcases setMintCounter_ok hOk with ⟨call, hEq⟩
      subst hEq
      exact .none rfl rfl rfl
  | devSetSharePrice =>
      rcases devSetSharePrice_ok hOk with ⟨call, hEq⟩
      subst hEq
      exact .none rfl rfl rfl
  | devFastUnlock admin vowState =>
      rcases devFastUnlock_ok hOk with ⟨call, hEq⟩
      subst hEq
      exact (LifeStep.fastUnlock admin call.vow _
        call.hPool).livesChange call.hConfig call.hLookup
        rfl rfl
  | registerApp =>
      exact (registerApp_untouched hOk).livesChange rfl
  | verifyApp =>
      exact (adminAppAction_untouched hOk).livesChange rfl
  | blockApp =>
      exact (adminAppAction_untouched hOk).livesChange rfl
  | updateSharePrice =>
      rcases updateSharePrice_ok hOk with ⟨call, hEq⟩
      subst hEq
      exact .none rfl rfl rfl
  | flushReserveToPool =>
      rcases flushReserveToPool_ok hOk with hEq | ⟨call, hEq⟩
      · subst hEq
        exact .none rfl rfl rfl
      · subst hEq
        exact .none rfl rfl rfl
  | withdrawFromPool =>
      rcases withdrawFromPool_ok hOk with
        ⟨_, hEq⟩ | ⟨call, hEq⟩
      · subst hEq
        exact .none rfl rfl rfl
      · subst hEq
        exact .none rfl rfl rfl
  | addStake => exact addStake_lives hOk
  | mintVow owner stakeLamports yieldMode =>
      rcases mintVow_ok hOk with ⟨call, hEq⟩
      subst hEq
      exact .birth call.config _ _ rfl call.hConfig call.hFresh
        (.mint owner stakeLamports yieldMode call.stakeClass
          call.shares call.unlockAt rfl call.hOpens) rfl rfl
  | updateYieldMode owner vowState newMode =>
      rcases updateYieldMode_ok hOk with ⟨call, hEq⟩
      subst hEq
      exact (LifeStep.switchMode owner newMode call.vow _
        call.hActive).livesChange call.hConfig call.hLookup
        rfl rfl
  | beginUnstake => exact beginUnstake_lives hOk
  | completeUnstake => exact completeUnstake_lives hOk
  | activateStake => exact activateStake_lives hOk
  | harvest => exact harvest_lives hOk
  | createSession ix =>
      rcases createSession_ok hOk with ⟨call, hEq⟩
      subst hEq
      exact (LifeStep.session ix call.sessionNonce call.vow _
        rfl call.hActive call.hNonce).livesChange
        call.hConfig call.hLookup rfl rfl
  | revokeSession =>
      rcases revokeSession_ok hOk with ⟨call, hEq⟩
      subst hEq
      exact .none rfl rfl rfl
  | closeSession =>
      rcases closeSession_ok hOk with ⟨call, hEq⟩
      subst hEq
      exact .none rfl rfl rfl
  | depositYieldBalance depositor vowState amount =>
      rcases depositYieldBalance_ok hOk with ⟨call, hEq⟩
      subst hEq
      refine .step call.config vowState ⟨call.vow, false⟩ _
        call.hConfig ?_
        (.deposit depositor amount call.vow call.hActive) rfl
        ?_ fun _ _ => rfl
      · rw [World.life_of_lookup call.hLookup, call.hFresh]
        rfl
      · rw [call.hFresh]
        rfl
  | yieldSpend ix =>
      rcases yieldSpend_eq_ok_iff.mp hOk with ⟨call, hEq⟩
      rcases checkSessionLive_ok_iff.mp call.hLive with
        ⟨_, _, _, _, hActive⟩
      subst hEq
      exact (LifeStep.spend ix call.yieldBalance call.vow _ rfl
        hActive call.hBalance).livesChange call.hConfig
        call.hLookup rfl rfl
  | withdrawYield owner vowState taken =>
      rcases withdrawYield_ok hOk with ⟨call, hEq⟩
      subst hEq
      exact (LifeStep.withdraw owner taken
        (taken.getD call.vow.yieldBalance) call.yieldBalance
        call.vow _ call.hBalance).livesChange call.hConfig
        call.hLookup rfl rfl
  | createAuthorityProfile =>
      exact (createAuthorityProfile_untouched
        hOk).livesChange rfl
  | updateAuthorityProfile =>
      exact (updateAuthorityProfile_untouched
        hOk).livesChange rfl
  | closeAuthorityProfile =>
      exact (closeAuthorityProfile_untouched
        hOk).livesChange rfl
  | recordCommitment =>
      exact (recordCommitment_untouched hOk).livesChange rfl
  | recordFulfillment =>
      exact (recordFulfillment_untouched hOk).livesChange
        rfl

end Vow

------------------------------------------------------------
-- Lives Along Runs
------------------------------------------------------------

namespace Vow

open MachineInt Fallible Transition

/- A step of the chain creates the life of an identity. -/
inductive StepBirth
    (vowState : Pubkey)
    (w : World)
    (step : Step)
    (life : Life) :
    Prop where
  | mint
      (config : ProtocolConfig)
      (ix : Instruction)
      (hConfig : w.config = some config)
      (hAction : step.action = .instruction ix)
      (hBirth :
        LifeBirth step.env config vowState ix life)

/- A step of the chain moves the life of an identity. -/
inductive StepMove
    (vowState : Pubkey)
    (w : World)
    (step : Step)
    (life life' : Life) :
    Prop where
  | idle
      (hIdle :
        ∀ ix, step.action = .instruction ix →
          ix.rewrites ≠ some vowState)
      (hSame : life' = life)
  | acts
      (config : ProtocolConfig)
      (ix : Instruction)
      (hConfig : w.config = some config)
      (hAction : step.action = .instruction ix)
      (hStep :
        LifeStep step.env config vowState ix life life')

/- An escrow without an identity cannot be open. -/
theorem EscrowOwned.lookup_none
    {w : World}
    (hOwned : EscrowOwned w)
    {vowState : Pubkey}
    (hNone : w.vows.lookup vowState = none) :
    w.escrows.lookup (.unstake vowState) = none := by
  cases hEscrow : w.escrows.lookup (.unstake vowState) with
  | none => rfl
  | some escrow =>
      rcases hOwned vowState escrow hEscrow with
        ⟨vow, hLookup, _⟩
      rw [hNone] at hLookup
      exact absurd hLookup (by simp)

theorem execute_born
    {env : Env}
    {w w' : World}
    {ix : Instruction}
    {vowState : Pubkey}
    {life : Life}
    (hOk : execute env w ix = .ok w')
    (hOwned : EscrowOwned w)
    (hBefore : w.life vowState = none)
    (hAfter : w'.life vowState = some life) :
    ∃ config,
      w.config = some config ∧
        LifeBirth env config vowState ix life := by
  rw [World.life_eq_none_iff] at hBefore
  rcases World.life_eq_some_iff.mp hAfter with
    ⟨hVow, hUnstaking⟩
  cases execute_lives hOk with
  | none hIdle hVows hEscrows =>
      rw [hVows, hBefore] at hVow
      exact absurd hVow (by simp)
  | step config identity old new hConfig hOld hStep hVows =>
      have hNe : vowState ≠ identity := by
        intro hEq
        rw [hEq] at hBefore
        rw [World.life_eq_none_iff.mpr hBefore] at hOld
        exact absurd hOld (by simp)
      rw [hVows, AList.lookup_insert_ne hNe, hBefore] at hVow
      exact absurd hVow (by simp)
  | birth config identity new hIdle hConfig hFresh hBirth
      hVows hEscrows =>
      by_cases hEq : vowState = identity
      · subst hEq
        rw [hVows, AList.lookup_insert] at hVow
        rw [hEscrows, hOwned.lookup_none hBefore]
          at hUnstaking
        refine ⟨config, hConfig, ?_⟩
        cases hBirth with
        | mint owner stakeLamports yieldMode stakeClass
            shares unlockAt hAddress hOpens =>
            rcases life with ⟨vow, unstaking⟩
            cases Option.some.inj hVow
            cases hUnstaking
            exact .mint owner stakeLamports yieldMode
              stakeClass shares unlockAt hAddress hOpens
      · rw [hVows, AList.lookup_insert_ne hEq, hBefore]
          at hVow
        exact absurd hVow (by simp)

theorem execute_moved
    {env : Env}
    {w w' : World}
    {ix : Instruction}
    {vowState : Pubkey}
    {life : Life}
    (hOk : execute env w ix = .ok w')
    (hBefore : w.life vowState = some life) :
    ∃ life',
      w'.life vowState = some life' ∧
        StepMove vowState w ⟨env, .instruction ix⟩ life
          life' := by
  cases execute_lives hOk with
  | none hIdle hVows hEscrows =>
      refine ⟨life, ?_, .idle ?_ rfl⟩
      · rw [← hBefore]
        exact World.life_congr (by rw [hVows])
          (by rw [hEscrows])
      · intro found hAction
        rw [← Action.instruction.inj hAction, hIdle]
        simp
  | step config identity old new hConfig hOld hStep hVows
      hEscrow hOthers =>
      by_cases hEq : vowState = identity
      · subst hEq
        rw [hBefore] at hOld
        rw [← Option.some.inj hOld] at hStep
        refine ⟨new, World.life_eq_some_iff.mpr ⟨?_, hEscrow⟩,
          .acts config ix hConfig rfl hStep⟩
        rw [hVows]
        exact AList.lookup_insert _
      · refine ⟨life, ?_, .idle ?_ rfl⟩
        · rw [← hBefore]
          apply World.life_congr
          · rw [hVows, AList.lookup_insert_ne hEq]
          · exact hOthers _ (by simpa using hEq)
        · intro found hAction hRewrites
          rw [← Action.instruction.inj hAction,
            hStep.rewrites_eq] at hRewrites
          exact hEq (Option.some.inj hRewrites).symm
  | birth config identity new hIdle hConfig hFresh hBirth
      hVows hEscrows =>
      have hNe : vowState ≠ identity := by
        intro hEq
        rw [← hEq] at hFresh
        rw [World.life_eq_none_iff.mpr hFresh] at hBefore
        exact absurd hBefore (by simp)
      refine ⟨life, ?_, .idle ?_ rfl⟩
      · rw [← hBefore]
        apply World.life_congr
        · rw [hVows, AList.lookup_insert_ne hNe]
        · rw [hEscrows]
      · intro found hAction
        rw [← Action.instruction.inj hAction, hIdle]
        simp

/- Lamports moving elsewhere leave every life alone. -/
theorem Step.life_of_lamports
    {w w' : World}
    {step : Step}
    (hExec : step.exec w = some w')
    (hAction : ∀ ix, step.action ≠ .instruction ix)
    (vowState : Pubkey) :
    w'.life vowState = w.life vowState := by
  rcases step with ⟨env, action⟩
  cases action with
  | instruction ix => exact absurd rfl (hAction ix)
  | _ =>
      rw [← Option.some.inj hExec]
      rfl

theorem exec_born
    {vowState : Pubkey}
    {w w' : World}
    {step : Step}
    {life : Life}
    (hExec : step.exec w = some w')
    (hOwned : EscrowOwned w)
    (hBefore : w.life vowState = none)
    (hAfter : w'.life vowState = some life) :
    StepBirth vowState w step life := by
  rcases step with ⟨env, action⟩
  cases action with
  | instruction ix =>
      rcases execute_born (Step.exec_instruction_iff.mp hExec)
        hOwned hBefore hAfter with ⟨config, hConfig, hBirth⟩
      exact .mint config ix hConfig rfl hBirth
  | _ =>
      rw [Step.life_of_lamports hExec (by simp), hBefore]
        at hAfter
      exact absurd hAfter (by simp)

theorem exec_moved
    {vowState : Pubkey}
    {w w' : World}
    {step : Step}
    {life : Life}
    (hExec : step.exec w = some w')
    (hBefore : w.life vowState = some life) :
    ∃ life',
      w'.life vowState = some life' ∧
        StepMove vowState w step life life' := by
  rcases step with ⟨env, action⟩
  cases action with
  | instruction ix =>
      exact execute_moved (Step.exec_instruction_iff.mp hExec)
        hBefore
  | _ =>
      refine ⟨life, ?_, .idle (by simp) rfl⟩
      rw [Step.life_of_lamports hExec (by simp)]
      exact hBefore

/- The life of one identity is a component of the chain. -/
def lifeOf
    (vowState : Pubkey) :
    Component Step.exec Life where
  view := fun w => w.life vowState
  Sound := EscrowOwned
  Birth := StepBirth vowState
  Move := StepMove vowState
  sound := fun _ _ _ hExec hOwned =>
    exec_escrowOwned hExec hOwned
  born := fun _ _ _ _ hExec hOwned hBefore hAfter =>
    exec_born hExec hOwned hBefore hAfter
  moved := fun _ _ _ _ hExec _ hBefore =>
    exec_moved hExec hBefore

/-
  What every mint establishes and every step of an identity
  keeps holds of the identity in every reachable state.
-/
theorem Reachable.life_invariant
    {P : Life → Prop}
    {vowState : Pubkey}
    (hBirth :
      ∀ env config ix life,
        LifeBirth env config vowState ix life → P life)
    (hStep :
      ∀ env config ix life life', P life →
        LifeStep env config vowState ix life life' →
        P life')
    {w : World}
    (hReach : Reachable w)
    {life : Life}
    (hLife : w.life vowState = some life) :
    P life := by
  rcases hReach with ⟨lamports, steps, hRun⟩
  subst hRun
  have hOwned : EscrowOwned (World.genesis lamports) :=
    escrowOwned_reachable ⟨lamports, [], rfl⟩
  refine (lifeOf vowState).run_invariant ?_ ?_ hOwned ?_
    steps life hLife
  · rintro w step life ⟨config, ix, _, _, hBorn⟩
    exact hBirth step.env config ix life hBorn
  · intro w step life life' hHolds hMove
    cases hMove with
    | idle hIdle hSame =>
        rw [hSame]
        exact hHolds
    | acts config ix hConfig hAction hActs =>
        exact hStep step.env config ix life life' hHolds
          hActs
  · intro life hNone
    exact absurd hNone
      (by simp [lifeOf, World.life, World.genesis])

/-
  Along a run from a sound state an identity keeps what every
  step of it keeps that the run may take.
-/
theorem World.life_kept
    {P : Life → Prop}
    {Admissible : Occurrence World Step → Prop}
    {vowState : Pubkey}
    (hStep :
      ∀ o config ix life life',
        o.before.life vowState = some life →
        o.before.config = some config →
        o.action.action = .instruction ix →
        LifeStep o.action.env config vowState ix life life' →
        Admissible o → P life → P life')
    {w : World}
    {life : Life}
    (hOwned : EscrowOwned w)
    (hLife : w.life vowState = some life)
    (hInit : P life)
    {steps : List Step}
    (hSteps : ∀ o ∈ w.trace steps, Admissible o) :
    (∀ o ∈ w.trace steps,
      ∃ life, o.before.life vowState = some life ∧
        P life) ∧
      ∃ life, (w.run steps).life vowState = some life ∧
        P life := by
  refine (lifeOf vowState).trace_invariant ?_ hOwned hLife
    hInit hSteps
  intro w step w' life life' hBefore hHolds hMove hTaken
  cases hMove with
  | idle hIdle hSame =>
      rw [hSame]
      exact hHolds
  | acts config ix hConfig hAction hActs =>
      exact hStep ⟨w, step, w'⟩ config ix life life' hBefore
        hConfig hAction hActs hTaken hHolds

/- An identity never disappears. -/
theorem World.life_persists
    {w : World}
    {vowState : Pubkey}
    {life : Life}
    (hOwned : EscrowOwned w)
    (hLife : w.life vowState = some life)
    (steps : List Step) :
    ∃ life', (w.run steps).life vowState = some life' := by
  have hAny : ∀ o ∈ w.trace steps, True := by
    intro o ho
    trivial
  have hKept :=
    World.life_kept (P := fun _ => True)
      (fun _ _ _ _ _ _ _ _ _ _ _ => trivial)
      hOwned hLife trivial hAny
  rcases hKept.2 with ⟨life', hLife', _⟩
  exact ⟨life', hLife'⟩

end Vow
