import VowProtocol.Correctness.Consent
import VowProtocol.Correctness.Gains
import VowProtocol.Correctness.MintNumbers
import VowProtocol.Correctness.PriceReads

/-
  The policy of the protocol and its custody.

  The policy is what the configuration says beside its
  aggregates: who the admin is, which pool is used, the price,
  the pool lamports last seen and the mint counter. It is a
  function of the history alone: each successful instruction
  revises it in a fixed way. Every privileged step of a run
  was signed by the admin that the history before it names.

  Key definitions include:
    * `Policy`
    * `revisePolicy`
    * `policyOf`

  Key theorems include:
    * `execute_policy`
    * `execute_admin_signs`
    * `policy_follows_history`
-/

------------------------------------------------------------
-- Policies
------------------------------------------------------------

namespace Vow

open MachineInt Fallible Transition

structure Policy where
  admin : Pubkey
  splStakePool : Pubkey
  splPoolMint : Pubkey
  sharePrice : Nat
  lastPoolLamports : Nat
  totalMinted : Nat

/- The policy that a configuration states. -/
def ProtocolConfig.policy
    (config : ProtocolConfig) :
    Policy where
  admin := config.admin
  splStakePool := config.splStakePool
  splPoolMint := config.splPoolMint
  sharePrice := config.currentSharePrice.val
  lastPoolLamports := config.lastPoolLamports.val
  totalMinted := config.totalMinted.val

def World.policy
    (w : World) :
    Option Policy :=
  w.config.map ProtocolConfig.policy

/- The policy of a new configuration. -/
def Policy.open
    (admin : Signer)
    (splPool : AccountInfo)
    (splStakePool splPoolMint : Pubkey) :
    Policy where
  admin := admin.key
  splStakePool := splStakePool
  splPoolMint := splPoolMint
  sharePrice :=
    if readsAtOpening splStakePool splPool then
      poolRate splPool
    else 1000000000000
  lastPoolLamports :=
    if readsAtOpening splStakePool splPool then
      (poolTotalLamports splPool).val
    else 0
  totalMinted := 0

/- The policy after the crank has read the pool account. -/
def Policy.reprice
    (policy : Policy)
    (splPool : AccountInfo) :
    Policy :=
  { policy with
    sharePrice :=
      if (poolTokenSupply splPool).val = 0 then
        policy.sharePrice
      else max 1 (poolRate splPool)
    lastPoolLamports := (poolTotalLamports splPool).val }

/- What a successful step makes of the policy. -/
def revisePolicy
    (policy : Option Policy)
    (step : Step) :
    Option Policy :=
  match step.action with
  | .instruction
      (.initializeConfig admin splPool splStakePool
        splPoolMint) =>
      some (.open admin splPool splStakePool splPoolMint)
  | .instruction (.closeProtocolConfig _) => none
  | .instruction (.setAdmin _ newAdmin) =>
      policy.map fun p => { p with admin := newAdmin }
  | .instruction (.setMintCounter _ newCounter) =>
      policy.map fun p =>
        { p with totalMinted := newCounter.val }
  | .instruction (.devSetSharePrice _ newPrice) =>
      policy.map fun p => { p with sharePrice := newPrice.val }
  | .instruction (.updateSharePrice splPool) =>
      if splPool.key = .default then policy
      else policy.map fun p => p.reprice splPool
  | .instruction (.mintVow _ _ _) =>
      policy.map fun p =>
        { p with totalMinted := p.totalMinted + 1 }
  | _ => policy

/- The policy that a history leaves. -/
def policyOf
    (history : List (Occurrence World Step)) :
    Option Policy :=
  history.foldl
    (fun policy o => revisePolicy policy o.action) none

end Vow

------------------------------------------------------------
-- One Step
------------------------------------------------------------

namespace Vow

open MachineInt Fallible Transition

/- An opening caches the pool lamports that it reads. -/
theorem openingSharePrice_policy
    {splStakePool : Pubkey}
    {splPool : AccountInfo}
    {opening : U128 × U64}
    (hOk :
      openingSharePrice splStakePool splPool =
        .ok opening) :
    opening.1.val =
        (if readsAtOpening splStakePool splPool then
          poolRate splPool
        else 1000000000000) ∧
      opening.2.val =
        if readsAtOpening splStakePool splPool then
          (poolTotalLamports splPool).val
        else 0 := by
  rcases openingSharePrice_cases hOk with
    ⟨hReads, hPrice⟩ | ⟨hReads, hDefault⟩
  · rw [if_pos hReads, if_pos hReads]
    refine ⟨hPrice, ?_⟩
    unfold readsAtOpening at hReads
    unfold openingSharePrice at hOk
    dsimp only at hOk
    rw [if_pos hReads] at hOk
    simp only [bind_eq_ok_iff, pure_eq_ok_iff] at hOk
    rcases hOk with ⟨_, _, hEq⟩
    rw [← hEq]
  · rw [if_neg hReads, if_neg hReads, hDefault]
    exact ⟨rfl, Unsigned.val_zero⟩

theorem initializeConfig_policy
    {env : Env}
    {w w' : World}
    {admin : Signer}
    {splPool : AccountInfo}
    {splStakePool splPoolMint : Pubkey}
    (hOk :
      initializeConfig env w admin splPool splStakePool
        splPoolMint = .ok w') :
    w.config = none ∧
      w'.policy =
        some (.open admin splPool splStakePool
          splPoolMint) := by
  rcases initializeConfig_ok hOk with ⟨call, hEq⟩
  rcases openingSharePrice_policy call.hOpening with
    ⟨hPrice, hLast⟩
  subst hEq
  refine ⟨call.hNone, ?_⟩
  unfold World.policy ProtocolConfig.policy Policy.open
  dsimp only [openedConfig]
  rw [Option.map_some, hPrice, hLast, Unsigned.val_zero]

theorem updateSharePrice_policy
    {env : Env}
    {w w' : World}
    {splPool : AccountInfo}
    (hOk : updateSharePrice w splPool = .ok w') :
    w'.policy =
      revisePolicy w.policy
        ⟨env, .instruction (.updateSharePrice splPool)⟩ := by
  rcases updateSharePrice_ok hOk with ⟨call, _⟩
  have hConfig := call.hConfig
  rcases updateSharePrice_cases hConfig hOk with
    ⟨hKey, ⟨hNoPool, hEq⟩ | ⟨price, hPool, hPrice, hEq⟩⟩
  · unfold revisePolicy
    dsimp only
    rw [hKey, if_pos hNoPool, hEq]
  · unfold revisePolicy
    dsimp only
    rw [hKey, if_neg hPool, hEq]
    unfold World.policy
    rw [hConfig]
    unfold ProtocolConfig.policy Policy.reprice
    dsimp only [Option.map_some]
    rw [hPrice]
    rfl

theorem Untouched.policy
    {w w' : World}
    (hSame : Untouched w w') :
    w'.policy = w.policy := by
  unfold World.policy
  rw [hSame.config]

/- A rewritten configuration. -/
theorem World.policy_of_config
    {w w' : World}
    {config config' : ProtocolConfig}
    {revise : Policy → Policy}
    (hConfig : w.config = some config)
    (hConfig' : w'.config = some config')
    (hSame : config'.policy = revise config.policy) :
    w'.policy = w.policy.map revise := by
  unfold World.policy
  rw [hConfig, hConfig', Option.map_some, Option.map_some,
    Option.map_some, hSame]

theorem World.policy_kept
    {w w' : World}
    {config config' : ProtocolConfig}
    (hConfig : w.config = some config)
    (hConfig' : w'.config = some config')
    (hSame : config'.policy = config.policy) :
    w'.policy = w.policy := by
  unfold World.policy
  rw [hConfig, hConfig', Option.map_some, Option.map_some,
    hSame]

theorem mintVow_policy
    {env : Env}
    {w w' : World}
    {owner : Signer}
    {stakeLamports : U64}
    {yieldMode : YieldMode}
    (hOk :
      mintVow env w owner stakeLamports yieldMode =
        .ok w') :
    w'.policy =
      w.policy.map fun p =>
        { p with totalMinted := p.totalMinted + 1 } := by
  have hCounter := mintVow_counter hOk
  rcases mintVow_ok hOk with ⟨call, hEq⟩
  subst hEq
  rw [World.counter_of_config call.hConfig] at hCounter
  refine World.policy_of_config call.hConfig rfl ?_
  unfold ProtocolConfig.policy
  dsimp only
  rw [← hCounter]
  rfl

theorem harvest_policy
    {env : Env}
    {w w' : World}
    {vowState : Pubkey}
    (hOk : harvest env w vowState = .ok w') :
    w'.policy = w.policy := by
  rcases harvest_eq_ok_iff.mp hOk with
    ⟨call, vow', config', hGain, hEq⟩
  subst hEq
  refine World.policy_kept call.hConfig rfl ?_
  rcases harvestGain_config hGain with ⟨_, _, hSame⟩
  rw [hSame]
  rfl

/- Every instruction revises the policy as the history says. -/
theorem execute_policy
    {env : Env}
    {w w' : World}
    {ix : Instruction}
    (hOk : execute env w ix = .ok w') :
    w'.policy =
      revisePolicy w.policy ⟨env, .instruction ix⟩ := by
  cases ix with
  | initializeConfig => exact (initializeConfig_policy hOk).2
  | closeProtocolConfig =>
      rcases closeProtocolConfig_ok hOk with ⟨call, hEq⟩
      subst hEq
      rfl
  | setAdmin =>
      rcases setAdmin_ok hOk with ⟨call, hEq⟩
      subst hEq
      exact World.policy_of_config call.hConfig rfl rfl
  | setMintCounter =>
      rcases setMintCounter_ok hOk with ⟨call, hEq⟩
      subst hEq
      exact World.policy_of_config call.hConfig rfl rfl
  | devSetSharePrice =>
      rcases devSetSharePrice_ok hOk with ⟨call, hEq⟩
      subst hEq
      exact World.policy_of_config call.hConfig rfl rfl
  | devFastUnlock =>
      rcases devFastUnlock_ok hOk with ⟨call, hEq⟩
      subst hEq
      rfl
  | registerApp => exact (registerApp_untouched hOk).policy
  | verifyApp => exact (adminAppAction_untouched hOk).policy
  | blockApp => exact (adminAppAction_untouched hOk).policy
  | updateSharePrice => exact updateSharePrice_policy hOk
  | flushReserveToPool =>
      rcases flushReserveToPool_ok hOk with hEq | ⟨call, hEq⟩
      · subst hEq
        rfl
      · subst hEq
        rfl
  | withdrawFromPool =>
      rcases withdrawFromPool_ok hOk with
        ⟨_, hEq⟩ | ⟨call, hEq⟩
      · subst hEq
        rfl
      · subst hEq
        rfl
  | addStake =>
      rcases addStake_ok hOk with ⟨call, vow', _, hEq⟩
      subst hEq
      exact World.policy_kept call.hConfig rfl rfl
  | mintVow => exact mintVow_policy hOk
  | updateYieldMode =>
      rcases updateYieldMode_ok hOk with ⟨call, hEq⟩
      subst hEq
      rfl
  | beginUnstake =>
      rcases beginUnstake_ok hOk with ⟨call, hEq⟩
      subst hEq
      exact World.policy_kept call.hConfig rfl rfl
  | completeUnstake =>
      rcases completeUnstake_eq_ok_iff.mp hOk with ⟨call, hEq⟩
      subst hEq
      exact World.policy_kept call.hConfig rfl rfl
  | activateStake =>
      rcases activateStake_ok hOk with ⟨call, hEq⟩
      subst hEq
      exact World.policy_kept call.hConfig rfl rfl
  | harvest => exact harvest_policy hOk
  | createSession =>
      rcases createSession_ok hOk with ⟨call, hEq⟩
      subst hEq
      rfl
  | revokeSession =>
      rcases revokeSession_ok hOk with ⟨call, hEq⟩
      subst hEq
      rfl
  | closeSession =>
      rcases closeSession_ok hOk with ⟨call, hEq⟩
      subst hEq
      rfl
  | depositYieldBalance =>
      rcases depositYieldBalance_ok hOk with ⟨call, hEq⟩
      subst hEq
      exact World.policy_kept call.hConfig rfl rfl
  | yieldSpend =>
      rcases yieldSpend_eq_ok_iff.mp hOk with ⟨call, hEq⟩
      subst hEq
      exact World.policy_kept call.hConfig rfl rfl
  | withdrawYield =>
      rcases withdrawYield_ok hOk with ⟨call, hEq⟩
      subst hEq
      exact World.policy_kept call.hConfig rfl rfl
  | createAuthorityProfile =>
      exact (createAuthorityProfile_untouched hOk).policy
  | updateAuthorityProfile =>
      exact (updateAuthorityProfile_untouched hOk).policy
  | closeAuthorityProfile =>
      exact (closeAuthorityProfile_untouched hOk).policy
  | recordCommitment =>
      exact (recordCommitment_untouched hOk).policy
  | recordFulfillment =>
      exact (recordFulfillment_untouched hOk).policy

theorem exec_policy
    {w w' : World}
    {step : Step}
    (hExec : step.exec w = some w') :
    w'.policy = revisePolicy w.policy step := by
  rcases step with ⟨env, action⟩
  cases action with
  | instruction ix =>
      exact execute_policy (Step.exec_instruction_iff.mp hExec)
  | _ =>
      rw [← Option.some.inj hExec]
      rfl

end Vow

------------------------------------------------------------
-- Custody
------------------------------------------------------------

namespace Vow

open MachineInt Fallible Transition

/- The instructions that only the admin may send. -/
def Instruction.adminCall : Instruction → Bool
| .setAdmin _ _ => true
| .closeProtocolConfig _ => true
| .setMintCounter _ _ => true
| .devSetSharePrice _ _ => true
| .devFastUnlock _ _ => true
| .verifyApp _ _ => true
| .blockApp _ _ => true
| _ => false

/- The two of them that a configured pool switches off. -/
def Instruction.devCall : Instruction → Bool
| .devSetSharePrice _ _ => true
| .devFastUnlock _ _ => true
| _ => false

/- A privileged call is signed by the admin of the moment. -/
theorem execute_admin_signs
    {env : Env}
    {w w' : World}
    {ix : Instruction}
    (hOk : execute env w ix = .ok w')
    (hCall : ix.adminCall = true) :
    ∃ config,
      w.config = some config ∧
        Step.signedBy config.admin
          ⟨env, .instruction ix⟩ = true ∧
        (ix.devCall = true →
          config.splStakePool = .default) := by
  have hSigns :
      ∀ (admin : Signer) (config : ProtocolConfig),
        ix.signer = some admin →
        config.admin = admin.key →
        Step.signedBy config.admin
          ⟨env, .instruction ix⟩ = true := by
    intro admin config hSigner hAdmin
    unfold Step.signedBy
    dsimp only
    rw [hSigner, hAdmin]
    simp
  cases ix with
  | setAdmin admin newAdmin =>
      rcases setAdmin_ok hOk with ⟨call, _⟩
      exact ⟨call.config, call.hConfig,
        hSigns admin call.config rfl call.hAdmin,
        fun hDev => absurd hDev Bool.false_ne_true⟩
  | closeProtocolConfig admin =>
      rcases closeProtocolConfig_ok hOk with ⟨call, _⟩
      exact ⟨call.config, call.hConfig,
        hSigns admin call.config rfl call.hAdmin,
        fun hDev => absurd hDev Bool.false_ne_true⟩
  | setMintCounter admin newCounter =>
      rcases setMintCounter_ok hOk with ⟨call, _⟩
      exact ⟨call.config, call.hConfig,
        hSigns admin call.config rfl call.hAdmin,
        fun hDev => absurd hDev Bool.false_ne_true⟩
  | devSetSharePrice admin newPrice =>
      rcases devSetSharePrice_ok hOk with ⟨call, _⟩
      exact ⟨call.config, call.hConfig,
        hSigns admin call.config rfl call.hAdmin,
        fun _ => call.hPool⟩
  | devFastUnlock admin vowState =>
      rcases devFastUnlock_ok hOk with ⟨call, _⟩
      exact ⟨call.config, call.hConfig,
        hSigns admin call.config rfl call.hAdmin,
        fun _ => call.hPool⟩
  | verifyApp admin address =>
      rcases adminAppAction_ok hOk with ⟨call, _⟩
      exact ⟨call.config, call.hConfig,
        hSigns admin call.config rfl call.hAdmin,
        fun hDev => absurd hDev Bool.false_ne_true⟩
  | blockApp admin address =>
      rcases adminAppAction_ok hOk with ⟨call, _⟩
      exact ⟨call.config, call.hConfig,
        hSigns admin call.config rfl call.hAdmin,
        fun hDev => absurd hDev Bool.false_ne_true⟩
  | _ => exact absurd hCall (by simp [Instruction.adminCall])

theorem policyOf_run
    (lamports : Lamports)
    (steps : List Step) :
    ((World.genesis lamports).run steps).policy =
      policyOf ((World.genesis lamports).trace steps) := by
  refine @trace_history_invariant World Step Step.exec
    (fun _ => True)
    (fun history w => w.policy = policyOf history)
    ?_ steps _ rfl (fun _ _ => trivial)
  intro history w step w' hBefore hExec _
  unfold policyOf at hBefore ⊢
  rw [List.foldl_append, List.foldl_cons, List.foldl_nil,
    ← hBefore]
  exact exec_policy hExec

/-
  What the history before a step says of it: a privileged
  step is signed by the admin that the history names, the
  developer calls come while it names no pool, and an
  initialization where it names no policy.
-/
def InCustody
    (past : List (Occurrence World Step))
    (step : Step) :
    Prop :=
  ∀ ix, step.action = .instruction ix →
    (ix.adminCall = true →
      ∃ policy,
        policyOf past = some policy ∧
          step.signedBy policy.admin = true ∧
          (ix.devCall = true →
            policy.splStakePool = .default)) ∧
    (∀ admin splPool splStakePool splPoolMint,
      ix =
        .initializeConfig admin splPool splStakePool
          splPoolMint →
      policyOf past = none)

theorem execute_inCustody
    {env : Env}
    {w w' : World}
    {ix : Instruction}
    {past : List (Occurrence World Step)}
    (hPolicy : w.policy = policyOf past)
    (hOk : execute env w ix = .ok w') :
    InCustody past ⟨env, .instruction ix⟩ := by
  intro found hFound
  cases hFound
  constructor
  · intro hCall
    rcases execute_admin_signs hOk hCall with
      ⟨config, hConfig, hSigned, hDev⟩
    refine ⟨config.policy, ?_, hSigned, hDev⟩
    rw [← hPolicy, World.policy, hConfig, Option.map_some]
  · intro admin splPool splStakePool splPoolMint hIx
    subst hIx
    rw [← hPolicy, World.policy,
      (initializeConfig_policy hOk).1, Option.map_none]

/-
  After every run the policy is the one that the history
  leaves, and every step of it was in custody.
-/
theorem policy_follows_history
    (lamports : Lamports)
    (steps : List Step) :
    ((World.genesis lamports).run steps).policy =
        policyOf ((World.genesis lamports).trace steps) ∧
      ∀ past o future,
        (World.genesis lamports).trace steps =
          past ++ o :: future →
        InCustody past o.action := by
  refine ⟨policyOf_run lamports steps, ?_⟩
  intro past o future hTrace
  rcases trace_split hTrace with
    ⟨first, second, _, hPast, hBefore, hExec, _⟩
  have hPolicy : o.before.policy = policyOf past := by
    rw [hBefore, hPast]
    exact policyOf_run lamports first
  rcases o with ⟨before, ⟨env, action⟩, after⟩
  cases action with
  | instruction ix =>
      exact execute_inCustody hPolicy
        (Step.exec_instruction_iff.mp hExec)
  | _ =>
      intro ix hIx
      cases hIx

end Vow
