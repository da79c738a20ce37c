import VowProtocol.Library.Transition
import VowProtocol.Program.Admin
import VowProtocol.Program.Stake
import VowProtocol.Program.Treasury

/-
  The instruction set of the program and its runs.

  A step is an instruction in its runtime environment, or a
  movement of lamports that the program does not control. A
  failed instruction leaves the world unchanged.

  Key definitions include:
    * `Instruction`
    * `execute`
    * `Step`
    * `Step.exec`
    * `World.run`
    * `Reachable`
-/

------------------------------------------------------------
-- Instructions
------------------------------------------------------------

namespace Vow

/- The instructions of the program, with their accounts. -/
inductive Instruction where
  | initializeConfig
      (admin : Signer) (splPool : AccountInfo)
      (splStakePool splPoolMint : Pubkey)
  | setAdmin (admin : Signer) (newAdmin : Pubkey)
  | closeProtocolConfig (admin : Signer)
  | setMintCounter (admin : Signer) (newCounter : U64)
  | devSetSharePrice (admin : Signer) (newPrice : U128)
  | devFastUnlock (admin : Signer) (vowState : Pubkey)
  | registerApp (payer : Signer) (programId : Pubkey)
  | verifyApp (admin : Signer) (appRegistry : Pubkey)
  | blockApp (admin : Signer) (appRegistry : Pubkey)
  | updateSharePrice (splPool : AccountInfo)
  | flushReserveToPool (accounts : PoolAccounts)
  | withdrawFromPool
      (unstakeEscrow : Pubkey) (accounts : PoolAccounts)
  | addStake
      (owner : Signer) (vowState : Pubkey)
      (lamportsToAdd : U64)
  | mintVow
      (owner : Signer) (stakeLamports : U64)
      (yieldMode : YieldMode)
  | updateYieldMode
      (owner : Signer) (vowState : Pubkey)
      (newMode : YieldMode)
  | beginUnstake (owner : Signer) (vowState : Pubkey)
  | completeUnstake (owner : Signer) (vowState : Pubkey)
  | activateStake
      (owner : Signer) (vowState : Pubkey)
      (stakeLamports : U64) (yieldMode : YieldMode)
  | harvest (vowState : Pubkey)
  | createSession (ix : CreateSession)
  | revokeSession
      (owner : Signer) (vowState sessionAccount : Pubkey)
  | closeSession
      (owner : Signer) (vowState sessionAccount : Pubkey)
  | depositYieldBalance
      (depositor : Signer) (vowState : Pubkey)
      (amount : U64)
  | yieldSpend (ix : YieldSpend)
  | withdrawYield
      (owner : Signer) (vowState : Pubkey)
      (amount : Option U64)
  | createAuthorityProfile
      (wallet : Signer) (profileId : Vector U8 8)
      (params : AuthorityProfileParams)
  | updateAuthorityProfile
      (wallet : Signer) (profile : Pubkey)
      (params : AuthorityProfileParams)
  | closeAuthorityProfile
      (wallet : Signer) (profile : Pubkey)
  | recordCommitment (payer : Signer) (vowState : Pubkey)
  | recordFulfillment (payer : Signer) (vowState : Pubkey)

/- Dispatch an instruction to its handler. -/
def execute
    (env : Env)
    (w : World) :
    Instruction → Result World
| .initializeConfig admin splPool splStakePool splPoolMint =>
    initializeConfig env w admin splPool splStakePool
      splPoolMint
| .setAdmin admin newAdmin => setAdmin w admin newAdmin
| .closeProtocolConfig admin => closeProtocolConfig w admin
| .setMintCounter admin newCounter =>
    setMintCounter w admin newCounter
| .devSetSharePrice admin newPrice =>
    devSetSharePrice w admin newPrice
| .devFastUnlock admin vowState =>
    devFastUnlock w admin vowState
| .registerApp payer programId =>
    registerApp env w payer programId
| .verifyApp admin appRegistry =>
    verifyApp w admin appRegistry
| .blockApp admin appRegistry =>
    blockApp w admin appRegistry
| .updateSharePrice splPool => updateSharePrice w splPool
| .flushReserveToPool accounts =>
    flushReserveToPool env w accounts
| .withdrawFromPool unstakeEscrow accounts =>
    withdrawFromPool env w unstakeEscrow accounts
| .addStake owner vowState lamportsToAdd =>
    addStake env w owner vowState lamportsToAdd
| .mintVow owner stakeLamports yieldMode =>
    mintVow env w owner stakeLamports yieldMode
| .updateYieldMode owner vowState newMode =>
    updateYieldMode w owner vowState newMode
| .beginUnstake owner vowState =>
    beginUnstake env w owner vowState
| .completeUnstake owner vowState =>
    completeUnstake env w owner vowState
| .activateStake owner vowState stakeLamports yieldMode =>
    activateStake env w owner vowState stakeLamports
      yieldMode
| .harvest vowState => harvest env w vowState
| .createSession ix => createSession env w ix
| .revokeSession owner vowState sessionAccount =>
    revokeSession w owner vowState sessionAccount
| .closeSession owner vowState sessionAccount =>
    closeSession env w owner vowState sessionAccount
| .depositYieldBalance depositor vowState amount =>
    depositYieldBalance w depositor vowState amount
| .yieldSpend ix => yieldSpend env w ix
| .withdrawYield owner vowState amount =>
    withdrawYield w owner vowState amount
| .createAuthorityProfile wallet profileId params =>
    createAuthorityProfile env w wallet profileId params
| .updateAuthorityProfile wallet profile params =>
    updateAuthorityProfile w wallet profile params
| .closeAuthorityProfile wallet profile =>
    closeAuthorityProfile w wallet profile
| .recordCommitment payer vowState =>
    recordCommitment env w payer vowState
| .recordFulfillment payer vowState =>
    recordFulfillment env w payer vowState

/- The signer that an instruction requires, if any. -/
def Instruction.signer : Instruction → Option Signer
| .initializeConfig admin _ _ _ => some admin
| .setAdmin admin _ => some admin
| .closeProtocolConfig admin => some admin
| .setMintCounter admin _ => some admin
| .devSetSharePrice admin _ => some admin
| .devFastUnlock admin _ => some admin
| .registerApp payer _ => some payer
| .verifyApp admin _ => some admin
| .blockApp admin _ => some admin
| .updateSharePrice _ => none
| .flushReserveToPool _ => none
| .withdrawFromPool _ _ => none
| .addStake owner _ _ => some owner
| .mintVow owner _ _ => some owner
| .updateYieldMode owner _ _ => some owner
| .beginUnstake owner _ => some owner
| .completeUnstake owner _ => some owner
| .activateStake owner _ _ _ => some owner
| .harvest _ => none
| .createSession ix => some ix.owner
| .revokeSession owner _ _ => some owner
| .closeSession owner _ _ => some owner
| .depositYieldBalance depositor _ _ => some depositor
| .yieldSpend ix => some ix.sessionSigner
| .withdrawYield owner _ _ => some owner
| .createAuthorityProfile wallet _ _ => some wallet
| .updateAuthorityProfile wallet _ _ => some wallet
| .closeAuthorityProfile wallet _ => some wallet
| .recordCommitment payer _ => some payer
| .recordFulfillment payer _ => some payer

end Vow

------------------------------------------------------------
-- Runs
------------------------------------------------------------

namespace Vow

open Transition

/-
  What can happen on chain: an instruction, lamports arriving
  at any address, or a wallet spending lamports elsewhere.
-/
inductive Action where
  | instruction (ix : Instruction)
  | receive (address : Pubkey) (amount : Nat)
  | spend (wallet : Signer) (amount : Nat)

/- An action in its runtime environment. -/
structure Step where
  env : Env
  action : Action

/- The effect of a step, when it succeeds. -/
def Step.exec
    (w : World)
    (step : Step) :
    Option World :=
  match step.action with
  | .instruction ix => (execute step.env w ix).toOption
  | .receive address amount =>
      some { w with
        lamports := credit address amount w.lamports }
  | .spend wallet amount =>
      some { w with
        lamports := debit wallet.key amount w.lamports }

/- The world after a list of attempted steps. -/
def World.run
    (w : World)
    (steps : List Step) :
    World :=
  Transition.run Step.exec w steps

/- The successful steps of a run. -/
def World.trace
    (w : World)
    (steps : List Step) :
    List (Occurrence World Step) :=
  Transition.trace Step.exec w steps

/- The world of some run from an empty chain. -/
def Reachable
    (w : World) :
    Prop :=
  ∃ lamports steps,
    w = (World.genesis lamports).run steps

/- The clock of a run never goes back. -/
def MonotoneClock
    (steps : List Step) :
    Prop :=
  steps.Pairwise fun first second =>
    first.env.unixTimestamp.val ≤
      second.env.unixTimestamp.val

instance (steps : List Step) :
    Decidable (MonotoneClock steps) :=
  inferInstanceAs
    (Decidable (steps.Pairwise fun first second =>
      first.env.unixTimestamp.val ≤
        second.env.unixTimestamp.val))

/- Does the step close the configuration? -/
def Step.closesConfig
    (step : Step) :
    Bool :=
  match step.action with
  | .instruction (.closeProtocolConfig _) => true
  | _ => false

/- No step of the run closes the configuration. -/
def NoClose
    (steps : List Step) :
    Prop :=
  ∀ step ∈ steps, step.closesConfig = false

instance (steps : List Step) : Decidable (NoClose steps) :=
  inferInstanceAs
    (Decidable (∀ step ∈ steps, step.closesConfig = false))

/-
  The world of some run that never closes its configuration.
-/
def OpenReachable
    (w : World) :
    Prop :=
  ∃ lamports steps,
    NoClose steps ∧ w = (World.genesis lamports).run steps

theorem OpenReachable.reachable
    {w : World}
    (hReach : OpenReachable w) :
    Reachable w := by
  rcases hReach with ⟨lamports, steps, _, hRun⟩
  exact ⟨lamports, steps, hRun⟩

/- A run from a reachable world stays reachable. -/
theorem Reachable.run
    {w : World}
    (hReach : Reachable w)
    (steps : List Step) :
    Reachable (w.run steps) := by
  rcases hReach with ⟨lamports, first, hRun⟩
  refine ⟨lamports, first ++ steps, ?_⟩
  rw [hRun]
  exact (List.foldl_append).symm

theorem Step.exec_instruction_iff
    {env : Env}
    {w w' : World}
    {ix : Instruction} :
    Step.exec w ⟨env, .instruction ix⟩ = some w' ↔
      execute env w ix = .ok w' :=
  Fallible.toOption_eq_some_iff

theorem Step.execute_of_exec
    {step : Step}
    {w w' : World}
    {ix : Instruction}
    (hAction : step.action = .instruction ix)
    (hExec : step.exec w = some w') :
    execute step.env w ix = .ok w' := by
  rcases step with ⟨env, action⟩
  subst hAction
  exact Step.exec_instruction_iff.mp hExec

/- A successful instruction is a run of one step. -/
theorem execute_eq_run
    {env : Env}
    {w : World}
    {ix : Instruction}
    (hOk : (execute env w ix).toOption.isSome = true) :
    execute env w ix =
      .ok (w.run [⟨env, .instruction ix⟩]) := by
  rcases Option.isSome_iff_exists.mp hOk with ⟨w', hSome⟩
  have hExec :
      Step.exec w ⟨env, .instruction ix⟩ = some w' := hSome
  change _ = Except.ok
    (Transition.advance Step.exec w ⟨env, .instruction ix⟩)
  rw [Transition.advance_of_some hExec]
  exact Fallible.toOption_eq_some_iff.mp hSome

theorem Step.exec_eq_run
    {env : Env}
    {w : World}
    {ix : Instruction}
    (hOk : (execute env w ix).toOption.isSome = true) :
    Step.exec w ⟨env, .instruction ix⟩ =
      some (w.run [⟨env, .instruction ix⟩]) :=
  Step.exec_instruction_iff.mpr (execute_eq_run hOk)

end Vow

------------------------------------------------------------
-- A Sample Chain
------------------------------------------------------------

namespace Vow

open MachineInt

/-
  A chain with the default rent rate and a pool that converts
  at its recorded rate without fees.
-/
def sampleEnv
    (now : Int)
    (epoch : Nat) :
    Env where
  unixTimestamp := Signed.clamp 63 now
  epoch := Unsigned.ofNat 64 epoch
  minimumBalance := fun space => (128 + space) * 6960
  depositSol := fun _ amount reserve =>
    if amount ≤ reserve then some (reserve - amount)
    else none
  withdrawSol := fun pool tokens reserve =>
    some (reserve +
      tokens.val * (poolTotalLamports pool).val /
        (poolTokenSupply pool).val)

def sampleStep
    (now : Int)
    (epoch : Nat)
    (ix : Instruction) :
    Step :=
  ⟨sampleEnv now epoch, .instruction ix⟩

/- Every wallet starts with a million XNT. -/
def sampleChain : World :=
  World.genesis fun k =>
    match k with
    | .key _ => 1000000000000000
    | _ => 0

def sampleAdmin : Signer := ⟨1⟩

def sampleOwner : Signer := ⟨2⟩

def otherOwner : Signer := ⟨3⟩

/- The first identities that a fresh program mints. -/
def sampleVow : Pubkey := .vow (.vowAsset 0)

def otherVow : Pubkey := .vow (.vowAsset 1)

/- No stake pool, as on a test network. -/
def sampleInit : Step :=
  sampleStep 0 0
    (.initializeConfig sampleAdmin ⟨.default, []⟩ .default
      .default)

example :
    ((sampleChain.run [sampleInit,
      sampleStep 0 0
        (.mintVow sampleOwner 5000000000 .treasury)]).vows.lookup
          sampleVow).map (fun vow => vow.shares.val) =
      some 5000000000 := by
  decide +kernel

end Vow
