import VowProtocol.Correctness.Lifecycle

/-
  The numbers of the identities.

  A mint takes its address from the counter of the
  configuration. A new configuration starts counting at zero
  again, and an operator's script then advances the counter
  to the number of identities it finds on chain. As long as
  the counter is moved by that script only, the identities
  are numbered without a gap, and the next mint is blocked
  exactly until the script has caught up.

  Key definitions include:
    * `scriptCounter`
    * `World.identityCount`
    * `World.counter`
    * `Numbered`

  Key theorems include:
    * `execute_counter`
    * `exec_numbered`
    * `identities_numbered`
-/

------------------------------------------------------------
-- The Script
------------------------------------------------------------

namespace Vow

open MachineInt Fallible Transition

/- The number of identities on chain. -/
def World.identityCount
    (w : World) :
    Nat :=
  AccountMap.total (fun _ => 1) w.vows

/- The counter of the configuration, zero without one. -/
def World.counter
    (w : World) :
    Nat :=
  match w.config with
  | some config => config.totalMinted.val
  | none => 0

theorem World.counter_of_config
    {w : World}
    {config : ProtocolConfig}
    (hConfig : w.config = some config) :
    w.counter = config.totalMinted.val := by
  unfold World.counter
  rw [hConfig]

/-
  `scripts/advance-mint-counter.ts`: the counter that it
  sends, when it sends one.
-/
def scriptCounter
    (w : World) :
    Option U64 :=
  match w.config with
  | none => none
  | some config =>
      let needed := w.identityCount
      if needed ≤ config.totalMinted.val then none
      else some (Unsigned.ofNat 64 needed)

/- A move of the counter is one that the script sends. -/
def sentByScript
    (o : Occurrence World Step) :
    Bool :=
  match o.action.action with
  | .instruction (.setMintCounter _ newCounter) =>
      scriptCounter o.before = some newCounter
  | _ => true

end Vow

------------------------------------------------------------
-- The Counter
------------------------------------------------------------

namespace Vow

open MachineInt Fallible

/- What an instruction makes of the counter. -/
def Instruction.countsTo
    (counter : Nat) :
    Instruction → Nat
| .mintVow _ _ _ => counter + 1
| .setMintCounter _ newCounter => newCounter.val
| .closeProtocolConfig _ => 0
| _ => counter

/- A change of the configuration that keeps the counter. -/
theorem World.counter_kept
    {w w' : World}
    {config config' : ProtocolConfig}
    (hConfig : w.config = some config)
    (hConfig' : w'.config = some config')
    (hSame : config'.totalMinted = config.totalMinted) :
    w'.counter = w.counter := by
  rw [World.counter_of_config hConfig,
    World.counter_of_config hConfig', hSame]

theorem World.counter_congr
    {w w' : World}
    (hConfig : w'.config = w.config) :
    w'.counter = w.counter := by
  unfold World.counter
  rw [hConfig]

theorem mintVow_counter
    {env : Env}
    {w w' : World}
    {owner : Signer}
    {stakeLamports : U64}
    {yieldMode : YieldMode}
    (hOk :
      mintVow env w owner stakeLamports yieldMode =
        .ok w') :
    w'.counter = w.counter + 1 := by
  rcases mintVow_ok hOk with ⟨call, hEq⟩
  subst hEq
  rw [World.counter_of_config call.hConfig]
  exact call.hMinted

theorem initializeConfig_counter
    {env : Env}
    {w w' : World}
    {admin : Signer}
    {splPool : AccountInfo}
    {splStakePool splPoolMint : Pubkey}
    (hOk :
      initializeConfig env w admin splPool splStakePool
        splPoolMint = .ok w') :
    w'.counter = w.counter := by
  rcases initializeConfig_ok hOk with ⟨call, hEq⟩
  subst hEq
  unfold World.counter
  rw [call.hNone]
  exact Unsigned.val_zero

theorem harvest_counter
    {env : Env}
    {w w' : World}
    {vowState : Pubkey}
    (hOk : harvest env w vowState = .ok w') :
    w'.counter = w.counter := by
  rcases harvest_eq_ok_iff.mp hOk with
    ⟨call, vow', config', hGain, hEq⟩
  refine World.counter_kept call.hConfig
    (show w'.config = some config' by rw [hEq]) ?_
  rcases harvestGain_config hGain with ⟨_, _, hSame⟩
  rw [hSame]

theorem execute_counter
    {env : Env}
    {w w' : World}
    {ix : Instruction}
    (hOk : execute env w ix = .ok w') :
    w'.counter = ix.countsTo w.counter := by
  cases ix with
  | initializeConfig admin splPool splStakePool mint =>
      exact initializeConfig_counter hOk
  | setAdmin admin newAdmin =>
      rcases setAdmin_ok hOk with ⟨call, hEq⟩
      subst hEq
      exact World.counter_kept call.hConfig rfl rfl
  | closeProtocolConfig admin =>
      rcases closeProtocolConfig_ok hOk with ⟨call, hEq⟩
      subst hEq
      rfl
  | setMintCounter admin newCounter =>
      rcases setMintCounter_ok hOk with ⟨call, hEq⟩
      subst hEq
      rfl
  | devSetSharePrice admin newPrice =>
      rcases devSetSharePrice_ok hOk with ⟨call, hEq⟩
      subst hEq
      exact World.counter_kept call.hConfig rfl rfl
  | devFastUnlock admin vowState =>
      rcases devFastUnlock_ok hOk with ⟨call, hEq⟩
      subst hEq
      rfl
  | registerApp payer programId =>
      exact World.counter_congr
        (registerApp_untouched hOk).config
  | verifyApp admin address =>
      exact World.counter_congr
        (adminAppAction_untouched hOk).config
  | blockApp admin address =>
      exact World.counter_congr
        (adminAppAction_untouched hOk).config
  | updateSharePrice splPool =>
      rcases updateSharePrice_ok hOk with ⟨call, hEq⟩
      subst hEq
      exact World.counter_kept call.hConfig rfl rfl
  | flushReserveToPool accounts =>
      rcases flushReserveToPool_ok hOk with hSame | ⟨call, hEq⟩
      · subst hSame
        rfl
      · subst hEq
        rfl
  | withdrawFromPool unstakeEscrow accounts =>
      rcases withdrawFromPool_ok hOk with
        ⟨_, hSame⟩ | ⟨call, hEq⟩
      · subst hSame
        rfl
      · subst hEq
        rfl
  | addStake owner vowState lamportsToAdd =>
      rcases addStake_ok hOk with ⟨call, vow', _, hEq⟩
      subst hEq
      exact World.counter_kept call.hConfig rfl rfl
  | mintVow owner stakeLamports yieldMode =>
      exact mintVow_counter hOk
  | updateYieldMode owner vowState newMode =>
      rcases updateYieldMode_ok hOk with ⟨call, hEq⟩
      subst hEq
      rfl
  | beginUnstake owner vowState =>
      rcases beginUnstake_ok hOk with ⟨call, hEq⟩
      subst hEq
      exact World.counter_kept call.hConfig rfl rfl
  | completeUnstake owner vowState =>
      rcases completeUnstake_eq_ok_iff.mp hOk with ⟨call, hEq⟩
      subst hEq
      exact World.counter_kept call.hConfig rfl rfl
  | activateStake owner vowState stakeLamports yieldMode =>
      rcases activateStake_ok hOk with ⟨call, hEq⟩
      subst hEq
      exact World.counter_kept call.hConfig rfl rfl
  | harvest vowState => exact harvest_counter hOk
  | createSession ix =>
      rcases createSession_ok hOk with ⟨call, hEq⟩
      subst hEq
      rfl
  | revokeSession owner vowState sessionAccount =>
      rcases revokeSession_ok hOk with ⟨call, hEq⟩
      subst hEq
      rfl
  | closeSession owner vowState sessionAccount =>
      rcases closeSession_ok hOk with ⟨call, hEq⟩
      subst hEq
      rfl
  | depositYieldBalance depositor vowState amount =>
      rcases depositYieldBalance_ok hOk with ⟨call, hEq⟩
      subst hEq
      exact World.counter_kept call.hConfig rfl rfl
  | yieldSpend ix =>
      rcases yieldSpend_eq_ok_iff.mp hOk with ⟨call, hEq⟩
      subst hEq
      exact World.counter_kept call.hConfig rfl rfl
  | withdrawYield owner vowState amount =>
      rcases withdrawYield_ok hOk with ⟨call, hEq⟩
      subst hEq
      exact World.counter_kept call.hConfig rfl rfl
  | createAuthorityProfile wallet profileId params =>
      exact World.counter_congr
        (createAuthorityProfile_untouched hOk).config
  | updateAuthorityProfile wallet profile params =>
      exact World.counter_congr
        (updateAuthorityProfile_untouched hOk).config
  | closeAuthorityProfile wallet profile =>
      exact World.counter_congr
        (closeAuthorityProfile_untouched hOk).config
  | recordCommitment payer vowState =>
      exact World.counter_congr
        (recordCommitment_untouched hOk).config
  | recordFulfillment payer vowState =>
      exact World.counter_congr
        (recordFulfillment_untouched hOk).config

end Vow

------------------------------------------------------------
-- Identities By Number
------------------------------------------------------------

namespace Vow

open MachineInt Fallible Transition

/- The number of an identity is in its address. -/
structure NamedByNumber
    (vowState : Pubkey)
    (vow : VowState) :
    Prop where
  asset : vow.assetId = .vowAsset vow.nonce
  address : vowState = .vow (.vowAsset vow.nonce)

theorem LifeStep.named
    {env : Env}
    {config : ProtocolConfig}
    {vowState : Pubkey}
    {ix : Instruction}
    {life life' : Life}
    (hStep : LifeStep env config vowState ix life life')
    (hNamed : NamedByNumber vowState life.vow) :
    NamedByNumber vowState life'.vow := by
  cases hStep with
  | topUp owner lamportsToAdd vow vow' unstaking hActive
      hStaked hTopUp =>
      cases hTopUp with
      | sameClass => exact ⟨hNamed.asset, hNamed.address⟩
      | raisesClass => exact ⟨hNamed.asset, hNamed.address⟩
  | harvest config' vow vow' unstaking hGain =>
      rcases harvestGain_step hGain with ⟨harvested, hVow⟩
      subst hVow
      exact ⟨hNamed.asset, hNamed.address⟩
  | _ => exact ⟨hNamed.asset, hNamed.address⟩

theorem named_reachable
    {w : World}
    (hReach : Reachable w)
    {vowState : Pubkey}
    {vow : VowState}
    (hLookup : w.vows.lookup vowState = some vow) :
    NamedByNumber vowState vow := by
  refine hReach.life_invariant
    (P := fun life => NamedByNumber vowState life.vow) ?_ ?_
    (World.life_of_lookup hLookup)
  · intro env config ix life hBirth
    cases hBirth with
    | mint owner stakeLamports yieldMode stakeClass shares
        unlockAt hAddress hOpens =>
        exact ⟨rfl, hAddress⟩
  · intro env config ix life life' hNamed hStep
    exact hStep.named hNamed

/-
  The identities have the numbers below their count, and the
  counter is not ahead of it.
-/
structure Numbered
    (w : World) :
    Prop where
  dense :
    ∀ k : U64,
      w.vows.lookup (.vow (.vowAsset k)) = none ↔
        w.identityCount ≤ k.val
  behind : w.counter ≤ w.identityCount

/- What an instruction does to the numbers. -/
theorem livesChange_numbers
    {env : Env}
    {ix : Instruction}
    {w w' : World}
    (hNumbered : Numbered w)
    (hChange : LivesChange env ix w w') :
    w.identityCount ≤ w'.identityCount ∧
      ∀ k : U64,
        w'.vows.lookup (.vow (.vowAsset k)) = none ↔
          w'.identityCount ≤ k.val := by
  unfold World.identityCount
  cases hChange with
  | none hIdle hVows hEscrows =>
      rw [hVows]
      exact ⟨le_refl _, hNumbered.dense⟩
  | step config vowState life life' hConfig hBefore hStep
      hVows =>
      have hLookup := (World.life_eq_some_iff.mp hBefore).1
      have hCount :
          AccountMap.total (fun _ => 1)
              (w.vows.insert vowState life'.vow) =
            AccountMap.total (fun _ => 1) w.vows :=
        AccountMap.total_insert_of_eq hLookup rfl
      rw [hVows, hCount]
      refine ⟨le_refl _, ?_⟩
      intro k
      rw [AccountMap.lookup_insert_eq]
      by_cases hHere : Pubkey.vow (.vowAsset k) = vowState
      · rw [if_pos hHere]
        have hDense := hNumbered.dense k
        rw [hHere, hLookup] at hDense
        simpa [World.identityCount] using hDense
      · rw [if_neg hHere]
        exact hNumbered.dense k
  | birth config vowState life hIdle hConfig hFresh hBirth
      hVows =>
      rw [hVows,
        AccountMap.total_insert_of_lookup_none hFresh]
      refine ⟨Nat.le_add_right _ _, ?_⟩
      cases hBirth with
      | mint owner stakeLamports yieldMode stakeClass shares
          unlockAt hAddress hOpens =>
          -- A free address is the first number not taken.
          have hNext :
              w.identityCount = config.totalMinted.val := by
            have hBehind := hNumbered.behind
            rw [World.counter_of_config hConfig] at hBehind
            rw [hAddress] at hFresh
            have hFree :=
              (hNumbered.dense config.totalMinted).mp hFresh
            omega
          unfold World.identityCount at hNext
          intro k
          have hDense := hNumbered.dense k
          unfold World.identityCount at hDense
          rw [AccountMap.lookup_insert_eq, hAddress, hNext]
          rw [hNext] at hDense
          by_cases hHere : k = config.totalMinted
          · subst hHere
            rw [if_pos rfl]
            simp
          · have hOther :
                Pubkey.vow (.vowAsset k) ≠
                  .vow (.vowAsset config.totalMinted) := by
              simpa using hHere
            have hVal :
                k.val ≠ config.totalMinted.val :=
              fun hSame => hHere (Unsigned.ext hSame)
            rw [if_neg hOther, hDense]
            omega

theorem mintVow_count
    {env : Env}
    {w w' : World}
    {owner : Signer}
    {stakeLamports : U64}
    {yieldMode : YieldMode}
    (hOk :
      mintVow env w owner stakeLamports yieldMode =
        .ok w') :
    w'.identityCount = w.identityCount + 1 := by
  rcases mintVow_ok hOk with ⟨call, hEq⟩
  subst hEq
  unfold World.identityCount
  rw [AccountMap.total_insert_of_lookup_none call.hFresh]

/- The script never sends more than the count. -/
theorem scriptCounter_le
    {w : World}
    {newCounter : U64}
    (hScript : scriptCounter w = some newCounter) :
    newCounter.val ≤ w.identityCount := by
  unfold scriptCounter at hScript
  split at hScript
  · exact absurd hScript (by simp)
  · dsimp only at hScript
    split at hScript
    · exact absurd hScript (by simp)
    · rw [← Option.some.inj hScript, Unsigned.val_ofNat]
      exact Nat.mod_le _ _

theorem execute_behind
    {env : Env}
    {w w' : World}
    {ix : Instruction}
    (hNumbered : Numbered w)
    (hScript :
      sentByScript ⟨w, ⟨env, .instruction ix⟩, w'⟩ = true)
    (hOk : execute env w ix = .ok w') :
    w'.counter ≤ w'.identityCount := by
  have hBehind := hNumbered.behind
  have hGrows :=
    (livesChange_numbers hNumbered (execute_lives hOk)).1
  rw [execute_counter hOk]
  cases ix with
  | mintVow owner stakeLamports yieldMode =>
      rw [mintVow_count hOk]
      exact Nat.succ_le_succ hBehind
  | setMintCounter admin newCounter =>
      have hSent : scriptCounter w = some newCounter := by
        simpa [sentByScript] using hScript
      exact (scriptCounter_le hSent).trans hGrows
  | closeProtocolConfig admin => exact Nat.zero_le _
  | _ => exact hBehind.trans hGrows

theorem exec_numbered
    {w w' : World}
    {step : Step}
    (hNumbered : Numbered w)
    (hExec : step.exec w = some w')
    (hScript : sentByScript ⟨w, step, w'⟩ = true) :
    Numbered w' := by
  rcases step with ⟨env, action⟩
  cases action with
  | instruction ix =>
      have hOk := Step.exec_instruction_iff.mp hExec
      exact ⟨(livesChange_numbers hNumbered
          (execute_lives hOk)).2,
        execute_behind hNumbered hScript hOk⟩
  | _ =>
      rw [← Option.some.inj hExec]
      exact ⟨hNumbered.dense, hNumbered.behind⟩

/-
  While the counter is moved by the script only, whatever
  else happens, closing and re-opening the configuration
  included: the identities are exactly those numbered below
  their count, each at the address of its number, and the
  address of the next mint is free if and only if the counter
  has caught up with the count.
-/
theorem identities_numbered
    (lamports : Lamports)
    (steps : List Step)
    (hScript :
      ∀ o ∈ (World.genesis lamports).trace steps,
        sentByScript o = true) :
    Numbered ((World.genesis lamports).run steps) ∧
      (∀ vowState vow,
        ((World.genesis lamports).run steps).vows.lookup
          vowState = some vow →
        NamedByNumber vowState vow) ∧
      ∀ config,
        ((World.genesis lamports).run steps).config =
          some config →
        (((World.genesis lamports).run steps).vows.lookup
            (.vow (.vowAsset config.totalMinted)) = none ↔
          config.totalMinted.val =
            ((World.genesis lamports).run
              steps).identityCount) := by
  have hInit : Numbered (World.genesis lamports) := by
    refine ⟨?_, Nat.zero_le _⟩
    intro k
    exact ⟨fun _ => Nat.zero_le _, fun _ => rfl⟩
  have hNumbered :
      Numbered ((World.genesis lamports).run steps) :=
    (trace_invariant
      (fun _ _ _ hBefore hExec hStep =>
        exec_numbered hBefore hExec hStep)
      hInit hScript).2
  refine ⟨hNumbered, ?_, ?_⟩
  · intro vowState vow hLookup
    exact named_reachable ⟨lamports, steps, rfl⟩ hLookup
  · intro config hConfig
    have hBehind := hNumbered.behind
    rw [World.counter_of_config hConfig] at hBehind
    rw [hNumbered.dense]
    omega

/- Two mints, a new configuration, the script, one mint. -/
def renumberedSteps : List Step :=
  [sampleInit,
    sampleStep 0 0
      (.mintVow sampleOwner 5000000000 .treasury),
    sampleStep 0 0
      (.mintVow otherOwner 5000000000 .treasury),
    sampleStep 0 0 (.closeProtocolConfig sampleAdmin),
    sampleInit,
    sampleStep 0 0
      (.mintVow otherOwner 5000000000 .treasury),
    sampleStep 0 0 (.setMintCounter sampleAdmin 2),
    sampleStep 0 0
      (.mintVow otherOwner 5000000000 .treasury)]

/-
  The mint before the script is refused, so that three
  identities exist at the end.
-/
theorem identities_numbered_sample :
    Numbered (sampleChain.run renumberedSteps) ∧
      (sampleChain.run renumberedSteps).identityCount = 3 := by
  have hAll :
      (sampleChain.trace renumberedSteps).all
        sentByScript = true := by
    decide +kernel
  refine ⟨(identities_numbered _ renumberedSteps ?_).1,
    by decide +kernel⟩
  exact fun o hMem => List.all_eq_true.mp hAll o hMem

end Vow
