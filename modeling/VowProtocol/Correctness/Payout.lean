import VowProtocol.Correctness.Identity
import VowProtocol.Correctness.Solvency

/-
  What an unstaker is paid: the exact condition for a full
  payout, the documented top-up sequence, the permissionless
  cranks before a completion, and completions in any order.

  Key definitions include:
    * `PaysInFull`
    * `poolTokensFor`
    * `redeemed`
    * `Instruction.permissionless`
    * `HonestPool`
    * `FlushKeepsPending`
    * `payout`

  Key theorems include:
    * `paysInFull_iff`
    * `topUp_paysInFull_iff`
    * `cranks_keep_full_payout`
    * `completions_fair`
-/

------------------------------------------------------------
-- Full Payouts
------------------------------------------------------------

namespace Vow

open MachineInt Fallible

/-
  A completion moves exactly `owed` lamports from the reserve
  to the owner, who also gets the rent of the escrow back.
-/
def PaysInFull
    (env : Env)
    (w : World)
    (owner : Signer)
    (vowState : Pubkey)
    (owed : Nat) :
    Prop :=
  ∃ w',
    completeUnstake env w owner vowState = .ok w' ∧
    w.reserve = w'.reserve + owed ∧
    w'.lamports owner.key =
      w.lamports owner.key + owed +
        w.lamports (.unstake vowState)

/-
  An open escrow is paid in full exactly when it owes
  something and the reserve covers it and all pending claims.
-/
theorem paysInFull_iff
    {env : Env}
    {w : World}
    {owner : Signer}
    {vowState : Pubkey}
    {config : ProtocolConfig}
    {escrow : UnstakeEscrow}
    (hOwned : EscrowOwned w)
    (hConfig : w.config = some config)
    (hEscrow :
      w.escrows.lookup (.unstake vowState) = some escrow)
    (hOwner : escrow.owner = owner.key)
    (hEpoch : escrow.deactivationEpoch < env.epoch) :
    PaysInFull env w owner vowState
        escrow.lamportsOwed.val ↔
      0 < escrow.lamportsOwed.val ∧
        config.totalPendingUnstake.val ≤ w.reserve ∧
        escrow.lamportsOwed.val ≤ w.reserve := by
  constructor
  · rintro ⟨w', hOk, hPaid, _⟩
    rcases completeUnstake_eq_ok_iff.mp hOk with ⟨call, hEq⟩
    have hFound := call.hConfig
    have hOpened := call.hEscrow
    have hPay := call.share_pos
    have hSpent := call.reserve_eq
    rw [hConfig, Option.some.injEq] at hFound
    rw [hEscrow, Option.some.injEq] at hOpened
    subst hFound hOpened hEq
    change w.reserve =
      closeAccount (.unstake vowState) owner.key
          call.lamports .reserve +
        call.escrow.lamportsOwed.val at hPaid
    have hPositive : 0 < call.escrow.lamportsOwed.val := by
      omega
    refine ⟨hPositive, ?_, by omega⟩
    by_contra hShort
    have hCut :=
      ProRata.share_lt_claim hPositive
        (Nat.lt_of_not_le hShort)
    omega
  · rintro ⟨hPositive, hCovered, hFunds⟩
    rcases hOwned vowState escrow hEscrow with
      ⟨vow, hLookup, hSeeds, hVowOwner⟩
    have hPay :
        (payAmount escrow.lamportsOwed w.reserve
          config.totalPendingUnstake).val =
          escrow.lamportsOwed.val := by
      rw [payAmount_val, ProRata.share_of_covered hCovered]
    have hMoved :
        ∃ lamports,
          transfer .reserve owner.key
            escrow.lamportsOwed.val w.lamports =
              .ok lamports :=
      ⟨_, transfer_eq_ok_iff.mpr ⟨hFunds, rfl⟩⟩
    rcases hMoved with ⟨lamports, hTransfer⟩
    have hSpent := completed_reserve vowState hTransfer
    have hReceived := completed_balance vowState hTransfer
    have hDue :
        0 < payAmount escrow.lamportsOwed w.reserve
          config.totalPendingUnstake := by
      rw [Unsigned.lt_def, hPay, Unsigned.val_zero]
      exact hPositive
    rw [← hPay] at hTransfer
    have hOk :=
      completeUnstake_eq_ok_iff.mpr
        ⟨⟨config, vow, escrow, lamports, hConfig, hLookup,
          hSeeds, hVowOwner.trans hOwner, hEscrow, hOwner,
          hEpoch, by omega, hDue, hTransfer⟩, rfl⟩
    exact ⟨_, hOk, hSpent, hReceived⟩

/- The same criterion after a change of the reserve alone. -/
theorem paysInFull_withReserve_iff
    {env : Env}
    {w : World}
    {owner : Signer}
    {vowState : Pubkey}
    {config : ProtocolConfig}
    {escrow : UnstakeEscrow}
    {reserve : Nat}
    (hOwned : EscrowOwned w)
    (hConfig : w.config = some config)
    (hEscrow :
      w.escrows.lookup (.unstake vowState) = some escrow)
    (hOwner : escrow.owner = owner.key)
    (hEpoch : escrow.deactivationEpoch < env.epoch) :
    PaysInFull env (w.withReserve reserve) owner vowState
        escrow.lamportsOwed.val ↔
      0 < escrow.lamportsOwed.val ∧
        config.totalPendingUnstake.val ≤ reserve ∧
        escrow.lamportsOwed.val ≤ reserve := by
  have hFull :=
    paysInFull_iff (w := w.withReserve reserve) hOwned
      hConfig hEscrow hOwner hEpoch
  rwa [World.reserve_withReserve] at hFull

end Vow

------------------------------------------------------------
-- Top-Up From The Pool
------------------------------------------------------------

namespace Vow

open MachineInt Fallible

/- Pool tokens worth an amount of lamports, rounded up. -/
def poolTokensFor
    (needed total supply : Nat) :
    Nat :=
  (needed * supply + (total - 1)) / total

/- What redeeming these tokens yields without a fee. -/
def redeemed
    (needed total supply : Nat) :
    Nat :=
  poolTokensFor needed total supply * total / supply

/- Rounding up leaves no shortfall. -/
theorem le_redeemed
    {total supply : Nat}
    (needed : Nat)
    (hTotal : 0 < total)
    (hSupply : 0 < supply) :
    needed ≤ redeemed needed total supply := by
  have hCeil :
      needed * supply + (total - 1) <
        total * poolTokensFor needed total supply + total :=
    Nat.lt_mul_div_succ _ hTotal
  unfold redeemed
  rw [Nat.le_div_iff_mul_le hSupply,
    Nat.mul_comm (poolTokensFor needed total supply)]
  omega

/- Enough tokens make the 64-bit computation exact. -/
theorem tokensToBurn_val
    {needed total supply held tokens : U64}
    (hOk : tokensToBurn needed total supply held = .ok tokens)
    (hHeld :
      poolTokensFor needed.val total.val supply.val ≤
        held.val) :
    tokens.val =
      poolTokensFor needed.val total.val supply.val := by
  unfold tokensToBurn at hOk
  simp only [bind_eq_ok_iff, okOr_eq_ok_iff, pure_eq_ok_iff,
    Unsigned.checkedMul_eq_some_iff,
    Unsigned.checkedAdd_eq_some_iff,
    Unsigned.checkedDiv_eq_some_iff,
    Unsigned.val_saturatingSub,
    Unsigned.val_one (show 0 < 128 by decide),
    Unsigned.val_cast_of_le (show 64 ≤ 128 by decide)]
    at hOk
  rcases hOk with
    ⟨product, hProduct, padded, hPadded, quotient,
      ⟨_, hQuotient⟩, hTokens⟩
  have hExact :
      quotient.val =
        poolTokensFor needed.val total.val supply.val := by
    rw [hQuotient, hPadded, hProduct]
    rfl
  have hFits := held.isLt
  have hCast : (quotient.cast 64).val = quotient.val :=
    Unsigned.val_cast_of_lt (by omega)
  rw [if_pos (by rw [Unsigned.le_def]; omega)] at hTokens
  rw [← hTokens, hCast, hExact]

/-
  The documented behaviour of `WithdrawSol` for a pool that
  takes no fee.
-/
def FeeFree
    (env : Env) :
    Prop :=
  ∀ pool tokens reserve after,
    env.withdrawSol pool tokens reserve = some after →
    after =
      reserve +
        tokens.val * (poolTotalLamports pool).val /
          (poolTokenSupply pool).val

/- What a successful top-up leaves in the reserve. -/
theorem topUp_reserve
    {env : Env}
    {w w' : World}
    {unstakeEscrow : Pubkey}
    {accounts : PoolAccounts}
    {config : ProtocolConfig}
    {escrow : UnstakeEscrow}
    (hConfig : w.config = some config)
    (hEscrow : w.escrows.lookup unstakeEscrow = some escrow)
    (hFees : FeeFree env)
    (hHeld :
      poolTokensFor (escrow.lamportsOwed.val - w.reserve)
          (poolTotalLamports accounts.splPool).val
          (poolTokenSupply accounts.splPool).val ≤
        accounts.reservePoolTokens.amount.val)
    (hOk :
      withdrawFromPool env w unstakeEscrow accounts =
        .ok w') :
    (config.splStakePool = .default ∧ w' = w) ∨
    (config.splStakePool ≠ .default ∧
      escrow.lamportsOwed.val ≤ w'.reserve ∧
      w' = w.withReserve
        (w.reserve +
          redeemed (escrow.lamportsOwed.val - w.reserve)
            (poolTotalLamports accounts.splPool).val
            (poolTokenSupply accounts.splPool).val)) := by
  rcases withdrawFromPool_ok hOk with
    ⟨⟨found, hFound, hNoPool⟩, hEq⟩ | ⟨call, hEq⟩
  · rw [hConfig, Option.some.injEq] at hFound
    subst hFound
    exact Or.inl ⟨hNoPool, hEq⟩
  · have hFound := call.hConfig
    have hOpened := call.hEscrow
    rw [hConfig, Option.some.injEq] at hFound
    rw [hEscrow, Option.some.injEq] at hOpened
    subst hFound hOpened
    have hOwed := call.escrow.lamportsOwed.isLt
    have hNeeded :
        (Unsigned.ofNat 64
          (call.escrow.lamportsOwed.val - w.reserve)).val =
          call.escrow.lamportsOwed.val - w.reserve :=
      Nat.mod_eq_of_lt (by omega)
    have hBurned := tokensToBurn_val call.hTokens
      (by rw [hNeeded]; exact hHeld)
    have hReserve := hFees _ _ _ _ call.hWithdraw
    rw [hBurned, hNeeded] at hReserve
    have hEnough :=
      le_redeemed (call.escrow.lamportsOwed.val - w.reserve)
        call.hLamports call.hSupply
    subst hEq
    refine Or.inr ⟨call.hPool, ?_, by rw [hReserve]; rfl⟩
    rw [World.reserve_withReserve, hReserve]
    unfold redeemed at hEnough
    omega

/-
  The documented sequence pays an escrow in full exactly when
  a pool is configured and the topped-up reserve also covers
  every other pending claim.
-/
theorem topUp_paysInFull_iff
    {env env' : Env}
    {w w' : World}
    {owner : Signer}
    {vowState : Pubkey}
    {accounts : PoolAccounts}
    {config : ProtocolConfig}
    {escrow : UnstakeEscrow}
    (hReach : Reachable w)
    (hConfig : w.config = some config)
    (hEscrow :
      w.escrows.lookup (.unstake vowState) = some escrow)
    (hOwner : escrow.owner = owner.key)
    (hEpoch : escrow.deactivationEpoch < env'.epoch)
    (hShort : w.reserve < escrow.lamportsOwed.val)
    (hFees : FeeFree env)
    (hHeld :
      poolTokensFor (escrow.lamportsOwed.val - w.reserve)
          (poolTotalLamports accounts.splPool).val
          (poolTokenSupply accounts.splPool).val ≤
        accounts.reservePoolTokens.amount.val)
    (hOk :
      withdrawFromPool env w (.unstake vowState) accounts =
        .ok w') :
    PaysInFull env' w' owner vowState
        escrow.lamportsOwed.val ↔
      config.splStakePool ≠ .default ∧
        config.totalPendingUnstake.val ≤
          w.reserve +
            redeemed (escrow.lamportsOwed.val - w.reserve)
              (poolTotalLamports accounts.splPool).val
              (poolTokenSupply accounts.splPool).val := by
  have hOwned := escrowOwned_reachable hReach
  rcases topUp_reserve hConfig hEscrow hFees hHeld hOk with
    ⟨hNoPool, hEq⟩ | ⟨hPool, hEnough, hEq⟩
  · subst hEq
    rw [paysInFull_iff hOwned hConfig hEscrow hOwner hEpoch]
    constructor
    · rintro ⟨_, _, hFunds⟩
      omega
    · rintro ⟨hPool, _⟩
      exact absurd hNoPool hPool
  · subst hEq
    rw [World.reserve_withReserve] at hEnough
    rw [paysInFull_withReserve_iff hOwned hConfig hEscrow
      hOwner hEpoch]
    constructor
    · rintro ⟨_, hCovered, _⟩
      exact ⟨hPool, hCovered⟩
    · rintro ⟨_, hCovered⟩
      exact ⟨by omega, hCovered, hEnough⟩

/- A pool of `2 ^ 40` tokens for `2 ^ 40` lamports. -/
def samplePool : AccountInfo where
  key := .key 7
  data :=
    List.replicate 264 0 ++ [1, 0, 0, 0, 0, 0, 0, 0, 1, 0, 0]

def samplePoolAccounts : PoolAccounts where
  reservePoolTokens :=
    { mint := .key 8
      authority := .reserve
      amount := 1000000000000 }
  splPool := samplePool
  poolWithdrawAuthority := .poolWithdrawAuthority (.key 7)
  poolReserveStake := .key 0
  poolManagerFeeAccount := .key 0
  poolMint := .key 8
  stakePoolProgram := SPL_STAKE_POOL_PROGRAM_ID

/- Two stakes in a configured pool, flushed out of the reserve. -/
def pooledSteps : List Step :=
  [sampleStep 0 0
      (.initializeConfig sampleAdmin samplePool (.key 7)
        (.key 8)),
    sampleStep 0 0
      (.mintVow sampleOwner 1000000000 .compound),
    sampleStep 0 0
      (.mintVow otherOwner 1000000000 .compound),
    sampleStep 0 0 (.flushReserveToPool samplePoolAccounts)]

/- One of the two owners exits after the lock. -/
def soloSteps : List Step :=
  pooledSteps ++
    [sampleStep 2678400 1
      (.beginUnstake sampleOwner sampleVow)]

def soloChain : World :=
  sampleChain.run soloSteps

def soloConfig : ProtocolConfig where
  admin := sampleAdmin.key
  currentSharePrice := 1000000000000
  totalShares := 1000000000
  totalYieldClaims := 0
  lastPoolLamports := 1099511627776
  totalMinted := 2
  merkleTree := .default
  totalPendingUnstake := 1000000000
  splStakePool := .key 7
  splPoolMint := .key 8

def soloEscrow : UnstakeEscrow where
  vowState := sampleVow
  owner := sampleOwner.key
  lamportsOwed := 1000000000
  deactivationEpoch := 1

/- The top-up and the completion of the first owner. -/
def topUp : Instruction :=
  .withdrawFromPool (.unstake sampleVow) samplePoolAccounts

def payUp : Instruction :=
  .completeUnstake sampleOwner sampleVow

theorem sampleEnv_feeFree
    (now : Int)
    (epoch : Nat) :
    FeeFree (sampleEnv now epoch) := by
  intro pool tokens reserve after hSome
  exact (Option.some.inj hSome).symm

theorem topUp_paysInFull_iff_solo :
    PaysInFull (sampleEnv 2678400 2)
      (soloChain.run [sampleStep 2678400 2 topUp])
      sampleOwner sampleVow soloEscrow.lamportsOwed.val := by
  have hConfig : soloChain.config = some soloConfig := by
    decide +kernel
  have hEscrow :
      soloChain.escrows.lookup (.unstake sampleVow) =
        some soloEscrow := by
    decide +kernel
  have hExec :
      execute (sampleEnv 2678400 2) soloChain topUp =
        .ok (soloChain.run [sampleStep 2678400 2 topUp]) :=
    execute_eq_run (by decide +kernel)
  have hOk :
      withdrawFromPool (sampleEnv 2678400 2) soloChain
          (.unstake sampleVow) samplePoolAccounts =
        .ok (soloChain.run [sampleStep 2678400 2 topUp]) :=
    hExec
  exact (topUp_paysInFull_iff ⟨_, soloSteps, rfl⟩ hConfig
    hEscrow rfl (by decide) (by decide +kernel)
    (sampleEnv_feeFree 2678400 2) (by decide +kernel)
    hOk).mpr (by decide +kernel)

/- Both owners exit. -/
def queueChain : World :=
  sampleChain.run (soloSteps ++
    [sampleStep 2678400 1
      (.beginUnstake otherOwner otherVow)])

/- The first owner has topped up the reserve. -/
def toppedChain : World :=
  queueChain.run [sampleStep 2678400 2 topUp]

/-
  With a second escrow in the queue the first owner gets half
  of the debt, although the top-up succeeded.
-/
theorem topUp_underpays_queue :
    Reachable queueChain ∧
      queueChain.escrows.lookup (.unstake sampleVow) =
        some soloEscrow ∧
      soloEscrow.deactivationEpoch <
        (sampleEnv 2678400 2).epoch ∧
      queueChain.reserve < soloEscrow.lamportsOwed.val ∧
      FeeFree (sampleEnv 2678400 2) ∧
      poolTokensFor
          (soloEscrow.lamportsOwed.val - queueChain.reserve)
          (poolTotalLamports samplePool).val
          (poolTokenSupply samplePool).val ≤
        samplePoolAccounts.reservePoolTokens.amount.val ∧
      execute (sampleEnv 2678400 2) queueChain topUp =
        .ok toppedChain ∧
      (∃ w',
        execute (sampleEnv 2678400 2) toppedChain payUp =
          .ok w' ∧
        toppedChain.reserve = w'.reserve + 500000000) ∧
      ¬PaysInFull (sampleEnv 2678400 2) toppedChain
        sampleOwner sampleVow
        soloEscrow.lamportsOwed.val := by
  have hOk :
      execute (sampleEnv 2678400 2) toppedChain payUp =
        .ok (toppedChain.run
          [sampleStep 2678400 2 payUp]) :=
    execute_eq_run (by decide +kernel)
  have hHalf :
      toppedChain.reserve =
        (toppedChain.run
          [sampleStep 2678400 2 payUp]).reserve +
            500000000 := by
    decide +kernel
  refine ⟨⟨_, _, rfl⟩, by decide +kernel, by decide,
    by decide +kernel, sampleEnv_feeFree 2678400 2,
    by decide +kernel, execute_eq_run (by decide +kernel),
    ⟨_, hOk, hHalf⟩, ?_⟩
  rintro ⟨w', hPaid, hFull, _⟩
  have hSame := Except.ok.inj (hOk.symm.trans hPaid)
  rw [← hSame, hHalf] at hFull
  have hOwed : soloEscrow.lamportsOwed.val = 1000000000 := by
    decide
  omega

end Vow

------------------------------------------------------------
-- Permissionless Cranks
------------------------------------------------------------

namespace Vow

open MachineInt Fallible Transition

/- The instructions that anyone may call. -/
def Instruction.permissionless : Instruction → Bool
| .flushReserveToPool _ => true
| .withdrawFromPool _ _ => true
| .updateSharePrice _ => true
| .harvest _ => true
| .depositYieldBalance _ _ _ => true
| _ => false

/-
  The documented effect of the pool calls on the reserve: a
  deposit takes the requested lamports and a withdrawal only
  adds.
-/
structure HonestPool
    (env : Env) :
    Prop where
  deposit :
    ∀ pool amount reserve after,
      env.depositSol pool amount reserve = some after →
      reserve = after + amount
  withdraw :
    ∀ pool tokens reserve after,
      env.withdrawSol pool tokens reserve = some after →
      reserve ≤ after

/- Anyone's call of a permissionless instruction. -/
structure Crank
    (step : Step) :
    Prop where
  permissionless :
    ∃ ix,
      step.action = .instruction ix ∧
      ix.permissionless = true
  honest : HonestPool step.env

/-
  A flush, if the step is one, leaves every pending claim
  covered: it moves nothing, or the rent-exempt minimum that
  it leaves is enough.
-/
def FlushKeepsPending
    (o : Occurrence World Step) :
    Prop :=
  ∀ accounts config,
    o.action.action =
      .instruction (.flushReserveToPool accounts) →
    o.before.config = some config →
    config.splStakePool = .default ∨
    o.before.reserve ≤ o.action.env.minimumBalance 0 ∨
    config.totalPendingUnstake.val ≤
      o.action.env.minimumBalance 0

/-
  What every crank run keeps: the escrow stays open and the
  pending total stays put, whatever the reserve does.
-/
structure Queued
    (vowState : Pubkey)
    (escrow : UnstakeEscrow)
    (pending : U64)
    (w : World) :
    Prop where
  owned : EscrowOwned w
  escrow :
    w.escrows.lookup (.unstake vowState) = some escrow
  config :
    ∃ config,
      w.config = some config ∧
      config.totalPendingUnstake = pending

/- No crank changes the pending total. -/
theorem crank_pending
    {env : Env}
    {w w' : World}
    {ix : Instruction}
    {config : ProtocolConfig}
    (hOk : execute env w ix = .ok w')
    (hCrank : ix.permissionless = true)
    (hConfig : w.config = some config) :
    ∃ config',
      w'.config = some config' ∧
      config'.totalPendingUnstake =
        config.totalPendingUnstake := by
  cases ix with
  | flushReserveToPool accounts =>
      rcases flushReserveToPool_ok hOk with hEq | ⟨call, hEq⟩
      · subst hEq
        exact ⟨config, hConfig, rfl⟩
      · subst hEq
        exact ⟨config, hConfig, rfl⟩
  | withdrawFromPool unstakeEscrow accounts =>
      rcases withdrawFromPool_ok hOk with
        ⟨_, hEq⟩ | ⟨call, hEq⟩
      · subst hEq
        exact ⟨config, hConfig, rfl⟩
      · subst hEq
        exact ⟨config, hConfig, rfl⟩
  | updateSharePrice splPool =>
      rcases updateSharePrice_ok hOk with ⟨call, hEq⟩
      have hFound := call.hConfig
      rw [hConfig, Option.some.injEq] at hFound
      subst hFound hEq
      exact ⟨_, rfl, rfl⟩
  | harvest vowState =>
      rcases harvest_eq_ok_iff.mp hOk with
        ⟨call, vow', config', hGain, hEq⟩
      have hFound := call.hConfig
      rw [hConfig, Option.some.injEq] at hFound
      subst hFound hEq
      refine ⟨config', rfl, ?_⟩
      rcases harvestGain_config hGain with ⟨_, _, hSame⟩
      rw [hSame]
  | depositYieldBalance depositor vowState amount =>
      rcases depositYieldBalance_ok hOk with ⟨call, hEq⟩
      have hFound := call.hConfig
      rw [hConfig, Option.some.injEq] at hFound
      subst hFound hEq
      exact ⟨_, rfl, rfl⟩
  | _ =>
      exact absurd hCrank
        (by simp [Instruction.permissionless])

/-
  Of the cranks only a flush lowers the reserve, and then to
  the rent-exempt minimum.
-/
theorem crank_reserve
    {env : Env}
    {w w' : World}
    {ix : Instruction}
    (hOk : execute env w ix = .ok w')
    (hCrank : ix.permissionless = true)
    (hHonest : HonestPool env) :
    w.reserve ≤ w'.reserve ∨
    ∃ accounts config,
      ix = .flushReserveToPool accounts ∧
      w.config = some config ∧
      config.splStakePool ≠ .default ∧
      env.minimumBalance 0 < w.reserve ∧
      w'.reserve = env.minimumBalance 0 := by
  cases ix with
  | flushReserveToPool accounts =>
      rcases flushReserveToPool_ok hOk with hEq | ⟨call, hEq⟩
      · exact Or.inl (by rw [hEq])
      · have hIdle := call.hIdle
        have hLeft := hHonest.deposit _ _ _ _ call.hDeposit
        refine Or.inr ⟨accounts, call.config, rfl, call.hConfig,
          call.hPool, hIdle, ?_⟩
        rw [hEq, World.reserve_withReserve]
        omega
  | withdrawFromPool unstakeEscrow accounts =>
      rcases withdrawFromPool_ok hOk with
        ⟨_, hEq⟩ | ⟨call, hEq⟩
      · exact Or.inl (by rw [hEq])
      · left
        rw [hEq, World.reserve_withReserve]
        exact hHonest.withdraw _ _ _ _ call.hWithdraw
  | updateSharePrice splPool =>
      rcases updateSharePrice_ok hOk with ⟨call, hEq⟩
      exact Or.inl (by rw [hEq]; exact le_rfl)
  | harvest vowState =>
      rcases harvest_eq_ok_iff.mp hOk with
        ⟨call, vow', config', _, hEq⟩
      exact Or.inl (by rw [hEq]; exact le_rfl)
  | depositYieldBalance depositor vowState amount =>
      rcases depositYieldBalance_ok hOk with ⟨call, hEq⟩
      have hReserve := call.reserve_eq
      left
      rw [hEq]
      change _ ≤ call.lamports .reserve
      omega
  | _ =>
      exact absurd hCrank
        (by simp [Instruction.permissionless])

theorem permissionless_escrowSlot
    {ix : Instruction}
    (hCrank : ix.permissionless = true) :
    ix.escrowSlot = none := by
  cases ix <;>
    simp_all [Instruction.permissionless,
      Instruction.escrowSlot]

/- One crank keeps the escrow and the pending total. -/
theorem Queued.crank
    {vowState : Pubkey}
    {escrow : UnstakeEscrow}
    {pending : U64}
    {w w' : World}
    {step : Step}
    (hQueued : Queued vowState escrow pending w)
    (hExec : step.exec w = some w')
    (hCrank : Crank step) :
    Queued vowState escrow pending w' := by
  rcases step with ⟨env, action⟩
  rcases hCrank.permissionless with ⟨ix, hAction, hAnyone⟩
  dsimp only at hAction
  subst hAction
  have hOk := Step.exec_instruction_iff.mp hExec
  rcases hQueued.config with ⟨config, hConfig, hPending⟩
  rcases crank_pending hOk hAnyone hConfig with
    ⟨config', hConfig', hSame⟩
  have hSlot :
      ix.escrowSlot ≠ some (.unstake vowState) := by
    rw [permissionless_escrowSlot hAnyone]
    simp
  refine ⟨execute_escrowOwned hOk hQueued.owned, ?_,
    ⟨config', hConfig', hSame.trans hPending⟩⟩
  rw [(execute_effect hOk).escrows _ hSlot]
  exact hQueued.escrow

/- One crank that is no harmful flush keeps it covered. -/
theorem Queued.crank_covered
    {vowState : Pubkey}
    {escrow : UnstakeEscrow}
    {pending : U64}
    {w w' : World}
    {step : Step}
    (hQueued : Queued vowState escrow pending w)
    (hCovered : pending.val ≤ w.reserve)
    (hExec : step.exec w = some w')
    (hCrank : Crank step)
    (hFlush : FlushKeepsPending ⟨w, step, w'⟩) :
    pending.val ≤ w'.reserve := by
  rcases step with ⟨env, action⟩
  rcases hCrank.permissionless with ⟨ix, hAction, hAnyone⟩
  dsimp only at hAction
  subst hAction
  have hOk := Step.exec_instruction_iff.mp hExec
  rcases crank_reserve hOk hAnyone hCrank.honest with
    hGrows | ⟨accounts, config, hIx, hConfig, hPool, hIdle,
      hLeft⟩
  · exact le_trans hCovered hGrows
  · rcases hQueued.config with ⟨found, hFound, hPending⟩
    rw [hConfig, Option.some.injEq] at hFound
    rw [← hPending, ← hFound, hLeft]
    rcases hFlush accounts config (by rw [hIx]) hConfig with
      hNone | hSmall | hRent
    · exact absurd hNone hPool
    · exact absurd hSmall (Nat.not_le.mpr hIdle)
    · exact hRent

/- A run of cranks keeps the escrow and the pending total. -/
theorem Queued.run
    {vowState : Pubkey}
    {escrow : UnstakeEscrow}
    {pending : U64}
    {w : World}
    {steps : List Step}
    (hQueued : Queued vowState escrow pending w)
    (hCranks : ∀ o ∈ w.trace steps, Crank o.action) :
    Queued vowState escrow pending (w.run steps) := by
  have hStep :
      ∀ s a s', Queued vowState escrow pending s →
        Step.exec s a = some s' → Crank a →
        Queued vowState escrow pending s' := by
    intro s a s' hHolds hExec hCrank
    exact hHolds.crank hExec hCrank
  exact (@trace_invariant World Step Step.exec _
    (fun o => Crank o.action) hStep w hQueued steps
    hCranks).2

/- Without a harmful flush the claims stay covered. -/
theorem Queued.run_covered
    {vowState : Pubkey}
    {escrow : UnstakeEscrow}
    {pending : U64}
    {w : World}
    {steps : List Step}
    (hQueued : Queued vowState escrow pending w)
    (hCovered : pending.val ≤ w.reserve)
    (hCranks : ∀ o ∈ w.trace steps, Crank o.action)
    (hFlushes : ∀ o ∈ w.trace steps, FlushKeepsPending o) :
    pending.val ≤ (w.run steps).reserve := by
  have hStep :
      ∀ s a s',
        Queued vowState escrow pending s ∧
          pending.val ≤ s.reserve →
        Step.exec s a = some s' →
        Crank a ∧ FlushKeepsPending ⟨s, a, s'⟩ →
        Queued vowState escrow pending s' ∧
          pending.val ≤ s'.reserve := by
    rintro s a s' ⟨hHolds, hFull⟩ hExec ⟨hCrank, hFlush⟩
    exact ⟨hHolds.crank hExec hCrank,
      hHolds.crank_covered hFull hExec hCrank hFlush⟩
  exact (@trace_invariant World Step Step.exec _
    (fun o => Crank o.action ∧ FlushKeepsPending o) hStep w
    ⟨hQueued, hCovered⟩ steps
    (fun o ho => ⟨hCranks o ho, hFlushes o ho⟩)).2.2

/-
  After any permissionless calls, flushes included, an open
  escrow is paid in full exactly when the reserve then covers
  all pending claims, which the calls cannot change. It does
  cover them when no flush on the way left too little.
-/
theorem cranks_keep_full_payout
    {w : World}
    {vowState : Pubkey}
    {config : ProtocolConfig}
    {escrow : UnstakeEscrow}
    {steps : List Step}
    (hReach : OpenReachable w)
    (hConfig : w.config = some config)
    (hEscrow :
      w.escrows.lookup (.unstake vowState) = some escrow)
    (hCovered :
      config.totalPendingUnstake.val ≤ w.reserve)
    (hCranks : ∀ o ∈ w.trace steps, Crank o.action) :
    (∀ env owner,
      escrow.owner = owner.key →
      escrow.deactivationEpoch < env.epoch →
      (PaysInFull env (w.run steps) owner vowState
          escrow.lamportsOwed.val ↔
        0 < escrow.lamportsOwed.val ∧
          config.totalPendingUnstake.val ≤
            (w.run steps).reserve)) ∧
    ((∀ o ∈ w.trace steps, FlushKeepsPending o) →
      config.totalPendingUnstake.val ≤
        (w.run steps).reserve) := by
  have hInit :
      Queued vowState escrow config.totalPendingUnstake w :=
    ⟨escrowOwned_reachable hReach.reachable, hEscrow,
      config, hConfig, rfl⟩
  constructor
  · intro env owner hOwner hEpoch
    have hPart :=
      lamportsOwed_le_pending hReach hConfig hEscrow
    have hEnd := hInit.run hCranks
    rcases hEnd.config with ⟨config', hConfig', hPending⟩
    rw [paysInFull_iff hEnd.owned hConfig' hEnd.escrow hOwner
      hEpoch, hPending]
    constructor
    · rintro ⟨hOwed, hFull, _⟩
      exact ⟨hOwed, hFull⟩
    · rintro ⟨hOwed, hFull⟩
      exact ⟨hOwed, hFull, le_trans hPart hFull⟩
  · intro hFlushes
    exact hInit.run_covered hCovered hCranks hFlushes

theorem sampleEnv_honest
    (now : Int)
    (epoch : Nat) :
    HonestPool (sampleEnv now epoch) where
  deposit := by
    intro pool amount reserve after hSome
    simp only [sampleEnv, Option.ite_none_right_eq_some,
      Option.some.injEq] at hSome
    omega
  withdraw := by
    intro pool tokens reserve after hSome
    rw [← Option.some.inj hSome]
    exact Nat.le_add_right _ _

/- An exit with the whole stake still in the reserve. -/
def heldSteps : List Step :=
  [sampleStep 0 0
      (.initializeConfig sampleAdmin samplePool (.key 7)
        (.key 8)),
    sampleStep 0 0
      (.mintVow sampleOwner 1000000000 .compound),
    sampleStep 2678400 1
      (.beginUnstake sampleOwner sampleVow)]

def heldChain : World :=
  sampleChain.run heldSteps

/- Anyone flushes the reserve before the completion. -/
def flushedChain : World :=
  heldChain.run
    [sampleStep 2678400 1
      (.flushReserveToPool samplePoolAccounts)]

/- What the program knows about that exit. -/
def heldConfig : ProtocolConfig where
  admin := sampleAdmin.key
  currentSharePrice := 1000000000000
  totalShares := 0
  totalYieldClaims := 0
  lastPoolLamports := 1099511627776
  totalMinted := 1
  merkleTree := .default
  totalPendingUnstake := 1000000000
  splStakePool := .key 7
  splPoolMint := .key 8

/- Anyone flushes the reserve, anyone tops it up again. -/
def flushAndTopUp : List Step :=
  [sampleStep 2678400 1
      (.flushReserveToPool samplePoolAccounts),
    sampleStep 2678400 1 topUp]

theorem flushAndTopUp_cranks :
    ∀ o ∈ heldChain.trace flushAndTopUp, Crank o.action := by
  intro o ho
  have hMem := mem_trace_action ho
  simp only [flushAndTopUp, List.mem_cons, List.not_mem_nil,
    or_false] at hMem
  rcases hMem with hFlush | hTopUp
  · rw [hFlush]
    exact ⟨⟨_, rfl, rfl⟩, sampleEnv_honest 2678400 1⟩
  · rw [hTopUp]
    exact ⟨⟨_, rfl, rfl⟩, sampleEnv_honest 2678400 1⟩

/- The flush takes all but the rent; the top-up mends it. -/
theorem cranks_keep_full_payout_mended :
    flushedChain.reserve = 890880 ∧
      PaysInFull (sampleEnv 2678400 2)
        (heldChain.run flushAndTopUp) sampleOwner sampleVow
        soloEscrow.lamportsOwed.val := by
  have hConfig : heldChain.config = some heldConfig := by
    decide +kernel
  have hEscrow :
      heldChain.escrows.lookup (.unstake sampleVow) =
        some soloEscrow := by
    decide +kernel
  have hIff :=
    (cranks_keep_full_payout ⟨_, heldSteps, by decide, rfl⟩
      hConfig hEscrow (by decide +kernel)
      flushAndTopUp_cranks).1 (sampleEnv 2678400 2)
      sampleOwner rfl (by decide)
  exact ⟨by decide +kernel, hIff.mpr (by decide +kernel)⟩

/- A failed completion pays nothing. -/
theorem not_paysInFull_of_failure
    {env : Env}
    {w : World}
    {owner : Signer}
    {vowState : Pubkey}
    {owed : Nat}
    (hFails :
      (execute env w
        (.completeUnstake owner vowState)).toOption.isSome =
          false) :
    ¬PaysInFull env w owner vowState owed := by
  rintro ⟨w', hOk, _⟩
  have hSome :
      (execute env w
        (.completeUnstake owner vowState)).toOption =
          some w' :=
    toOption_eq_some_iff.mpr hOk
  rw [hSome] at hFails
  exact absurd hFails (by simp)

/- The configuration is closed and opened again after an exit. -/
def reopenedChain : World :=
  sampleChain.run
    [sampleInit,
      sampleStep 0 0
        (.mintVow sampleOwner 1000000000 .compound),
      sampleStep 0 0 (.devFastUnlock sampleAdmin sampleVow),
      sampleStep 0 0
        (.devSetSharePrice sampleAdmin 2000000000000),
      sampleStep 10 0 (.beginUnstake sampleOwner sampleVow),
      sampleStep 10 0 (.closeProtocolConfig sampleAdmin),
      sampleInit]

/- A stake too small for one share exits with no debt. -/
def dustChain : World :=
  sampleChain.run
    [sampleInit,
      sampleStep 0 0
        (.devSetSharePrice sampleAdmin
          (Unsigned.ofNat 128 (2 * 10 ^ 21))),
      sampleStep 0 0
        (.mintVow sampleOwner 1000000000 .compound),
      sampleStep 0 0 (.devFastUnlock sampleAdmin sampleVow),
      sampleStep 10 0 (.beginUnstake sampleOwner sampleVow)]

/- The pending total and the debt of the first identity. -/
def World.pendingAndOwed
    (w : World) :
    Option (Nat × Nat) :=
  match w.config, w.escrows.lookup (.unstake sampleVow) with
  | some config, some escrow =>
      some (config.totalPendingUnstake.val,
        escrow.lamportsOwed.val)
  | _, _ => none

/-
  A flush cuts a covered payout to the rent minimum. Without
  any crank, a reopened configuration forgets the debt, and a
  debt of zero can never be completed.
-/
theorem flush_cuts_payout :
    (OpenReachable heldChain ∧
      heldChain.pendingAndOwed =
        some (1000000000, 1000000000) ∧
      heldChain.reserve = 1000000000 ∧
      HonestPool (sampleEnv 2678400 1) ∧
      flushedChain.pendingAndOwed =
        some (1000000000, 1000000000) ∧
      (∃ w',
        execute (sampleEnv 2678400 2) flushedChain payUp =
          .ok w' ∧
        flushedChain.reserve = w'.reserve + 890880) ∧
      ¬PaysInFull (sampleEnv 2678400 2) flushedChain
        sampleOwner sampleVow 1000000000) ∧
    (Reachable reopenedChain ∧
      reopenedChain.pendingAndOwed = some (0, 2000000000) ∧
      ¬PaysInFull (sampleEnv 10 1) reopenedChain
        sampleOwner sampleVow 2000000000) ∧
    (OpenReachable dustChain ∧
      dustChain.pendingAndOwed = some (0, 0) ∧
      ¬PaysInFull (sampleEnv 10 1) dustChain sampleOwner
        sampleVow 0) := by
  have hOk :
      execute (sampleEnv 2678400 2) flushedChain payUp =
        .ok (flushedChain.run
          [sampleStep 2678400 2 payUp]) :=
    execute_eq_run (by decide +kernel)
  have hRent :
      flushedChain.reserve =
        (flushedChain.run
          [sampleStep 2678400 2 payUp]).reserve +
            890880 := by
    decide +kernel
  refine ⟨⟨⟨_, heldSteps, by decide, rfl⟩,
      by decide +kernel, by decide +kernel,
      sampleEnv_honest 2678400 1, by decide +kernel,
      ⟨_, hOk, hRent⟩, ?_⟩,
    ⟨⟨_, _, rfl⟩, by decide +kernel,
      not_paysInFull_of_failure (by decide +kernel)⟩,
    ⟨⟨_, _, by decide, rfl⟩, by decide +kernel,
      not_paysInFull_of_failure (by decide +kernel)⟩⟩
  rintro ⟨w', hPaid, hFull, _⟩
  have hSame := Except.ok.inj (hOk.symm.trans hPaid)
  rw [← hSame, hRent] at hFull
  omega

end Vow

------------------------------------------------------------
-- Completions In Any Order
------------------------------------------------------------

namespace Vow

open MachineInt Fallible Transition

/- The step is a completion for the identity. -/
def Completes
    (o : Occurrence World Step)
    (vowState : Pubkey) :
    Prop :=
  ∃ owner,
    o.action.action =
      .instruction (.completeUnstake owner vowState)

/- The lamports that a completion takes out of the reserve. -/
def payout
    (o : Occurrence World Step) :
    Nat :=
  match o.action.action with
  | .instruction (.completeUnstake _ _) =>
      o.before.reserve - o.after.reserve
  | _ => 0

/-
  A step other than a completion that leaves the reserve, the
  escrows and the pending total alone.
-/
structure Quiet
    (o : Occurrence World Step) :
    Prop where
  other : ∀ vowState, ¬Completes o vowState
  reserve : o.after.reserve = o.before.reserve
  escrows : o.after.escrows = o.before.escrows
  pending :
    ∀ config, o.before.config = some config →
      ∃ config',
        o.after.config = some config' ∧
        config'.totalPendingUnstake =
          config.totalPendingUnstake

/- The bounds of one payout against the first state. -/
def FairPayout
    (w : World)
    (o : Occurrence World Step) :
    Prop :=
  ∀ vowState, Completes o vowState →
    ∃ escrow,
      w.escrows.lookup (.unstake vowState) = some escrow ∧
      escrow.lamportsOwed.val * min w.reserve w.sumOwed /
        w.sumOwed ≤ payout o ∧
      payout o ≤ escrow.lamportsOwed.val

/-
  The invariant of a run of completions from `w`: the paid
  claims are gone, the others are untouched, and the reserve
  still covers them in a fair proportion.
-/
structure FairRun
    (w : World)
    (history : List (Occurrence World Step))
    (w' : World) :
    Prop where
  pending :
    ∃ config,
      w'.config = some config ∧
      config.totalPendingUnstake.val = w'.sumOwed
  fair :
    ProRata.Fair w.reserve w.sumOwed w'.reserve w'.sumOwed
  spent :
    w.reserve = w'.reserve + (history.map payout).sum
  payouts : ∀ o ∈ history, FairPayout w o
  remaining :
    ∀ k escrow,
      w'.escrows.lookup k = some escrow →
      w.escrows.lookup k = some escrow
  completed :
    ∀ k escrow,
      w.escrows.lookup k = some escrow →
      w'.escrows.lookup k = some escrow ∨
        ∃ vowState, k = .unstake vowState ∧
          ∃ o ∈ history, Completes o vowState

/- A quiet step keeps the invariant. -/
theorem FairRun.quiet
    {w w₁ w₂ : World}
    {step : Step}
    {history : List (Occurrence World Step)}
    (hRun : FairRun w history w₁)
    (hQuiet : Quiet ⟨w₁, step, w₂⟩) :
    FairRun w (history ++ [⟨w₁, step, w₂⟩]) w₂ := by
  have hReserve : w₂.reserve = w₁.reserve := hQuiet.reserve
  have hEscrows : w₂.escrows = w₁.escrows := hQuiet.escrows
  have hOwed : w₂.sumOwed = w₁.sumOwed := by
    unfold World.sumOwed
    rw [hEscrows]
  have hNothing : payout ⟨w₁, step, w₂⟩ = 0 := by
    unfold payout
    split
    · rename_i owner vowState hAction
      exact absurd ⟨owner, hAction⟩ (hQuiet.other vowState)
    · rfl
  rcases hRun.pending with ⟨config, hConfig, hPending⟩
  rcases hQuiet.pending config hConfig with
    ⟨config', hConfig', hSame⟩
  refine ⟨⟨config', hConfig', ?_⟩, ?_, ?_, ?_, ?_, ?_⟩
  · rw [hSame, hPending, hOwed]
  · rw [hReserve, hOwed]
    exact hRun.fair
  · rw [hReserve, List.map_append, List.sum_append,
      List.map_singleton, List.sum_singleton, hNothing]
    exact hRun.spent
  · intro o ho
    rcases List.mem_append.mp ho with hOld | hNew
    · exact hRun.payouts o hOld
    · rw [List.mem_singleton.mp hNew]
      intro vowState hCompletes
      exact absurd hCompletes (hQuiet.other vowState)
  · rw [hEscrows]
    exact hRun.remaining
  · intro k escrow hEscrow
    rw [hEscrows]
    rcases hRun.completed k escrow hEscrow with
      hOpen | ⟨vowState, hKey, o, ho, hDone⟩
    · exact Or.inl hOpen
    · exact Or.inr ⟨vowState, hKey, o,
        List.mem_append_left _ ho, hDone⟩

/- A completion keeps the invariant. -/
theorem FairRun.complete
    {w w₁ w₂ : World}
    {env : Env}
    {owner : Signer}
    {vowState : Pubkey}
    {history : List (Occurrence World Step)}
    (hTotal : 0 < w.sumOwed)
    (hRun : FairRun w history w₁)
    (hOk : completeUnstake env w₁ owner vowState = .ok w₂) :
    FairRun w
      (history ++ [⟨w₁,
        ⟨env, .instruction
          (.completeUnstake owner vowState)⟩, w₂⟩]) w₂ := by
  rcases completeUnstake_eq_ok_iff.mp hOk with ⟨call, hEq⟩
  have hReserve := call.reserve_eq
  rcases hRun.pending with ⟨found, hFound, hPending⟩
  rw [call.hConfig, Option.some.injEq] at hFound
  subst hFound
  rw [hPending] at hReserve
  have hSplit := World.sumOwed_eq call.hEscrow
  have hOwed :
      w₂.sumOwed =
        w₁.sumOwed - call.escrow.lamportsOwed.val := by
    rw [hSplit, Nat.add_sub_cancel, hEq]
    rfl
  have hAfter :
      w₂.reserve =
        closeAccount (.unstake vowState) owner.key
          call.lamports .reserve := by
    rw [hEq]
    rfl
  have hPaid :
      w₁.reserve - w₂.reserve =
        ProRata.share call.escrow.lamportsOwed.val w₁.reserve
          w₁.sumOwed := by
    omega
  have hFirst := hRun.remaining _ _ call.hEscrow
  refine ⟨⟨_, by rw [hEq], ?_⟩, ?_, ?_, ?_, ?_, ?_⟩
  · rw [Unsigned.val_saturatingSub, hPending, hOwed]
  · have hPay := hRun.fair.pay
      (show call.escrow.lamportsOwed.val ≤ w₁.sumOwed by omega)
    rw [← hPaid, ← hOwed] at hPay
    have hBack :
        w₁.reserve - (w₁.reserve - w₂.reserve) =
          w₂.reserve := by
      omega
    rw [hBack] at hPay
    exact hPay
  · have hSpent := hRun.spent
    rw [List.map_append, List.sum_append,
      List.map_singleton, List.sum_singleton]
    change _ = _ + (_ + (w₁.reserve - w₂.reserve))
    omega
  · intro o ho
    rcases List.mem_append.mp ho with hOld | hNew
    · exact hRun.payouts o hOld
    · rw [List.mem_singleton.mp hNew]
      rintro identity ⟨payee, hAction⟩
      simp only [Action.instruction.injEq,
        Instruction.completeUnstake.injEq] at hAction
      rw [← hAction.2]
      refine ⟨call.escrow, hFirst, ?_, ?_⟩
      · change _ ≤ w₁.reserve - w₂.reserve
        rw [hPaid]
        exact hRun.fair.le_share hTotal
      · change w₁.reserve - w₂.reserve ≤ _
        rw [hPaid]
        exact ProRata.share_le_claim _ _ _
  · intro k other hOther
    rw [hEq, AccountMap.lookup_erase_eq] at hOther
    split at hOther
    · exact absurd hOther (by simp)
    · exact hRun.remaining k other hOther
  · intro k other hOther
    by_cases hKey : k = .unstake vowState
    · exact Or.inr ⟨vowState, hKey, _,
        List.mem_append_right _ (List.mem_singleton.mpr rfl),
        owner, rfl⟩
    · rcases hRun.completed k other hOther with
        hOpen | ⟨identity, hSlot, o, ho, hDone⟩
      · refine Or.inl ?_
        rw [hEq, AccountMap.lookup_erase_eq, if_neg hKey]
        exact hOpen
      · exact Or.inr ⟨identity, hSlot, o,
          List.mem_append_left _ ho, hDone⟩

/- A successful completion, as a step of a run. -/
theorem exec_complete_iff
    {w w' : World}
    {step : Step}
    {owner : Signer}
    {vowState : Pubkey}
    (hAction :
      step.action =
        .instruction (.completeUnstake owner vowState)) :
    step.exec w = some w' ↔
      completeUnstake step.env w owner vowState = .ok w' := by
  rcases step with ⟨env, action⟩
  dsimp only at hAction
  subst hAction
  exact Step.exec_instruction_iff

/-
  Completions are fair in every order: when all open escrows
  are completed and nothing else moves the reserve, each
  payout is at least its first proportion and at most its
  debt, together they pay out exactly what the reserve can
  cover, and no claim is left pending.
-/
theorem completions_fair
    {w : World}
    {config : ProtocolConfig}
    {steps : List Step}
    (hConfig : w.config = some config)
    (hPending :
      config.totalPendingUnstake.val = w.sumOwed)
    (hTotal : 0 < config.totalPendingUnstake.val)
    (hSteps :
      ∀ o ∈ w.trace steps,
        (∃ vowState, Completes o vowState) ∨ Quiet o)
    (hAll : (w.run steps).escrows = ∅) :
    (∀ o ∈ w.trace steps, ∀ vowState,
      Completes o vowState →
      ∃ escrow,
        w.escrows.lookup (.unstake vowState) =
          some escrow ∧
        escrow.lamportsOwed.val *
            min w.reserve config.totalPendingUnstake.val /
          config.totalPendingUnstake.val ≤ payout o ∧
        payout o ≤ escrow.lamportsOwed.val) ∧
    (∀ k escrow, w.escrows.lookup k = some escrow →
      ∃ vowState, k = .unstake vowState ∧
        ∃ o ∈ w.trace steps, Completes o vowState) ∧
    ((w.trace steps).map payout).sum =
      min w.reserve config.totalPendingUnstake.val ∧
    ∃ config',
      (w.run steps).config = some config' ∧
      config'.totalPendingUnstake.val = 0 := by
  rw [hPending] at hTotal ⊢
  have hInit : FairRun w [] w := by
    refine ⟨⟨config, hConfig, hPending⟩,
      ProRata.Fair.refl _ _, by simp, ?_, ?_, ?_⟩
    · intro o ho
      exact absurd ho (by simp)
    · intro k escrow hEscrow
      exact hEscrow
    · intro k escrow hEscrow
      exact Or.inl hEscrow
  have hEnd :
      FairRun w (w.trace steps) (w.run steps) := by
    refine trace_history_invariant ?_ hInit hSteps
    intro history w₁ step w₂ hRun hExec hCase
    rcases hCase with ⟨vowState, owner, hAction⟩ | hQuiet
    · have hOk := (exec_complete_iff hAction).mp hExec
      have hNext := hRun.complete hTotal hOk
      rw [← hAction] at hNext
      exact hNext
    · exact hRun.quiet hQuiet
  have hNone : (w.run steps).sumOwed = 0 := by
    unfold World.sumOwed
    rw [hAll]
    exact AccountMap.total_empty _
  have hFair := hEnd.fair
  rw [hNone] at hFair
  refine ⟨hEnd.payouts, ?_, ?_, ?_⟩
  · intro k escrow hEscrow
    rcases hEnd.completed k escrow hEscrow with
      hOpen | hDone
    · rw [hAll] at hOpen
      exact absurd hOpen (by simp)
    · exact hDone
  · have hSpent := hEnd.spent
    have hLeft := hFair.final
    omega
  · rcases hEnd.pending with ⟨config', hConfig', hZero⟩
    exact ⟨config', hConfig', hZero.trans hNone⟩

/- Both owners of the short chain complete, last one first. -/
def shortCompletions : List Step :=
  [sampleStep 20 1 (.completeUnstake otherOwner otherVow),
    sampleStep 20 1 (.completeUnstake sampleOwner sampleVow)]

theorem completions_fair_shortChain :
    ((shortChain.trace shortCompletions).map payout).sum =
      min shortChain.reserve 10000000000 := by
  have hSteps :
      ∀ o ∈ shortChain.trace shortCompletions,
        (∃ vowState, Completes o vowState) ∨ Quiet o := by
    intro o ho
    rcases List.mem_cons.mp (mem_trace_action ho) with
      hFirst | hSecond
    · exact Or.inl ⟨otherVow, otherOwner, by rw [hFirst]; rfl⟩
    · rw [List.mem_singleton] at hSecond
      exact Or.inl ⟨sampleVow, sampleOwner,
        by rw [hSecond]; rfl⟩
  have hAll :
      (shortChain.run shortCompletions).escrows = ∅ :=
    AList.ext (by decide +kernel)
  exact (completions_fair shortChain_config
    (by decide +kernel) (by decide) hSteps hAll).2.2.1

end Vow
