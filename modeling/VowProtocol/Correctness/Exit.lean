import VowProtocol.Correctness.Payout

/-
  The two halves of an exit. Its beginning fixes the debt of
  the escrow, and its completion pays that debt and makes the
  identity dormant.

  Key definitions include:
    * `exactDebt`
    * `CompletesExit`

  Key theorems include:
    * `beginUnstake_exact_iff`
    * `completesExit_iff`
-/

------------------------------------------------------------
-- The Recorded Debt
------------------------------------------------------------

namespace Vow

open MachineInt Fallible

/-
  What an exit owes in unbounded integers: the value of the
  position, rounded down, and the yield balance.
-/
def exactDebt
    (config : ProtocolConfig)
    (vow : VowState) :
    Nat :=
  valueAt vow.shares.val config.currentSharePrice.val +
    vow.yieldBalance.val

/- The debt that the escrow of an identity records. -/
def World.recordedDebt
    (w : World)
    (vowState : Pubkey) :
    Option Nat :=
  (w.escrows.lookup (.unstake vowState)).map
    fun escrow => escrow.lamportsOwed.val

/- The debt that a successful exit records. -/
theorem beginUnstake_recordedDebt
    {env : Env}
    {w w' : World}
    {owner : Signer}
    {vowState : Pubkey}
    {config : ProtocolConfig}
    {vow : VowState}
    (hConfig : w.config = some config)
    (hLookup : w.vows.lookup vowState = some vow)
    (hOk : beginUnstake env w owner vowState = .ok w') :
    w'.recordedDebt vowState =
      some (valueAt vow.shares.val
        config.currentSharePrice.val % 2 ^ 64 +
          vow.yieldBalance.val) := by
  rcases beginUnstake_ok hOk with ⟨call, hEq⟩
  have hFound := call.hConfig
  have hLoaded := call.hLookup
  rw [hConfig, Option.some.injEq] at hFound
  rw [hLookup, Option.some.injEq] at hLoaded
  subst hFound hLoaded hEq
  rw [← call.hOwed]
  simp [World.recordedDebt]

/-
  A successful exit records its exact debt exactly when the
  value of the position fits 64 bits. The value is cast, not
  checked, so a larger one is reduced modulo `2 ^ 64`.
-/
theorem beginUnstake_exact_iff
    {env : Env}
    {w w' : World}
    {owner : Signer}
    {vowState : Pubkey}
    {config : ProtocolConfig}
    {vow : VowState}
    (hConfig : w.config = some config)
    (hLookup : w.vows.lookup vowState = some vow)
    (hOk : beginUnstake env w owner vowState = .ok w') :
    w'.recordedDebt vowState = some (exactDebt config vow) ↔
      valueAt vow.shares.val config.currentSharePrice.val <
        2 ^ 64 := by
  rw [beginUnstake_recordedDebt hConfig hLookup hOk,
    Option.some.injEq, exactDebt, Nat.add_right_cancel_iff]
  exact Nat.mod_eq_iff_lt (by decide)

end Vow

------------------------------------------------------------
-- A Truncated Debt
------------------------------------------------------------

namespace Vow

open MachineInt Fallible

/- A stake bought at a price, valued at another when due. -/
def repricedChain
    (bought valued : Nat) :
    World :=
  sampleChain.run
    [sampleInit,
      sampleStep 0 0
        (.devSetSharePrice sampleAdmin
          (Unsigned.ofNat 128 bought)),
      sampleStep 0 0
        (.mintVow sampleOwner 1000000000 .compound),
      sampleStep 0 0
        (.devSetSharePrice sampleAdmin
          (Unsigned.ofNat 128 valued))]

/- The configuration of `repricedChain`. -/
def repricedConfig
    (shares valued : Nat) :
    ProtocolConfig where
  admin := sampleAdmin.key
  currentSharePrice := Unsigned.ofNat 128 valued
  totalShares := Unsigned.ofNat 128 shares
  totalYieldClaims := 0
  lastPoolLamports := 0
  totalMinted := 1
  merkleTree := .default
  totalPendingUnstake := 0
  splStakePool := .default
  splPoolMint := .default

def beginExit : Instruction :=
  .beginUnstake sampleOwner sampleVow

/- The exit begins when the lock has run out. -/
def repricedExit
    (bought valued : Nat) :
    World :=
  (repricedChain bought valued).run
    [sampleStep 2592000 1 beginExit]

theorem repricedChain_reachable
    (bought valued : Nat) :
    Reachable (repricedChain bought valued) :=
  ⟨_, _, rfl⟩

/- The position of `repricedChain`. -/
def repricedVow
    (bought shares : Nat) :
    VowState :=
  mintedVow (sampleEnv 0 0)
    { repricedConfig 0 bought with totalMinted := 0 }
    sampleOwner 1000000000 .compound 0
    (Unsigned.ofNat 128 shares) 2592000

/- At double the price the debt is recorded in full. -/
theorem beginUnstake_exact_doubled :
    (repricedExit (10 ^ 12) (2 * 10 ^ 12)).recordedDebt
        sampleVow = some 2000000000 := by
  have hConfig :
      (repricedChain (10 ^ 12) (2 * 10 ^ 12)).config =
        some (repricedConfig (10 ^ 9) (2 * 10 ^ 12)) := by
    decide +kernel
  have hLookup :
      (repricedChain (10 ^ 12) (2 * 10 ^ 12)).vows.lookup
          sampleVow =
        some (repricedVow (10 ^ 12) (10 ^ 9)) := by
    decide +kernel
  have hOk :
      execute (sampleEnv 2592000 1)
          (repricedChain (10 ^ 12) (2 * 10 ^ 12))
          beginExit =
        .ok (repricedExit (10 ^ 12) (2 * 10 ^ 12)) :=
    execute_eq_run (by decide +kernel)
  exact (beginUnstake_exact_iff hConfig hLookup hOk).mpr
    (by decide +kernel)

/-
  A stake bought at price one and valued at ten times the
  opening price is worth `10 ^ 22` lamports. The exit
  succeeds and records the low 64 bits.
-/
theorem beginUnstake_truncates :
    Reachable (repricedChain 1 (10 ^ 13)) ∧
      (repricedChain 1 (10 ^ 13)).config =
        some (repricedConfig (10 ^ 21) (10 ^ 13)) ∧
      (repricedChain 1 (10 ^ 13)).vows.lookup sampleVow =
        some (repricedVow 1 (10 ^ 21)) ∧
      execute (sampleEnv 2592000 1)
          (repricedChain 1 (10 ^ 13)) beginExit =
        .ok (repricedExit 1 (10 ^ 13)) ∧
      exactDebt (repricedConfig (10 ^ 21) (10 ^ 13))
        (repricedVow 1 (10 ^ 21)) = 10 ^ 22 ∧
      (repricedExit 1 (10 ^ 13)).recordedDebt sampleVow =
        some (10 ^ 22 % 2 ^ 64) := by
  refine ⟨repricedChain_reachable 1 (10 ^ 13),
    by decide +kernel, by decide +kernel,
    execute_eq_run (by decide +kernel), by decide +kernel,
    by decide +kernel⟩

end Vow

------------------------------------------------------------
-- Completing The Exit
------------------------------------------------------------

namespace Vow

open MachineInt Fallible

/-
  The completion succeeds, pays exactly `owed` lamports,
  closes the escrow and makes the identity dormant.
-/
def CompletesExit
    (env : Env)
    (w : World)
    (owner : Signer)
    (vowState : Pubkey)
    (owed : Nat) :
    Prop :=
  ∃ w' vow',
    completeUnstake env w owner vowState = .ok w' ∧
    w.reserve = w'.reserve + owed ∧
    w'.lamports owner.key =
      w.lamports owner.key + owed +
        w.lamports (.unstake vowState) ∧
    w'.escrows.lookup (.unstake vowState) = none ∧
    w'.vows.lookup vowState = some vow' ∧
    vow'.activeStake = false

/- A completion always closes the escrow and the stake. -/
theorem completesExit_iff_paysInFull
    {env : Env}
    {w : World}
    {owner : Signer}
    {vowState : Pubkey}
    {owed : Nat} :
    CompletesExit env w owner vowState owed ↔
      PaysInFull env w owner vowState owed := by
  constructor
  · rintro ⟨w', _, hOk, hReserve, hOwner, _⟩
    exact ⟨w', hOk, hReserve, hOwner⟩
  · rintro ⟨w', hOk, hReserve, hOwner⟩
    rcases completeUnstake_eq_ok_iff.mp hOk with ⟨call, hEq⟩
    refine ⟨w', dormantVow env.unixTimestamp call.vow, hOk,
      hReserve, hOwner, ?_, ?_, rfl⟩
    · rw [hEq]
      simp
    · rw [hEq]
      simp

/-
  With the reserve above all pending claims, the completion of
  an open escrow goes through exactly when it owes something
  and the reserve holds it. A debt of zero is refused, and
  since nothing else closes an escrow it stays for ever.
-/
theorem completesExit_iff
    {env : Env}
    {w : World}
    {owner : Signer}
    {vowState : Pubkey}
    {config : ProtocolConfig}
    {vow : VowState}
    {escrow : UnstakeEscrow}
    (hReach : Reachable w)
    (hConfig : w.config = some config)
    (hLookup : w.vows.lookup vowState = some vow)
    (hOwner : vow.owner = owner.key)
    (hEscrow :
      w.escrows.lookup (.unstake vowState) = some escrow)
    (hEpoch : escrow.deactivationEpoch < env.epoch)
    (hReserve :
      max 1 config.totalPendingUnstake.val ≤ w.reserve) :
    CompletesExit env w owner vowState
        escrow.lamportsOwed.val ↔
      0 < escrow.lamportsOwed.val ∧
        escrow.lamportsOwed.val ≤ w.reserve := by
  have hOwned := escrowOwned_reachable hReach
  rcases hOwned vowState escrow hEscrow with
    ⟨found, hFound, _, hPayee⟩
  rw [hLookup, Option.some.injEq] at hFound
  subst hFound
  have hCovered :
      config.totalPendingUnstake.val ≤ w.reserve :=
    le_trans (Nat.le_max_right _ _) hReserve
  rw [completesExit_iff_paysInFull,
    paysInFull_iff hOwned hConfig hEscrow
      (hPayee.symm.trans hOwner) hEpoch]
  constructor
  · rintro ⟨hPositive, _, hFunds⟩
    exact ⟨hPositive, hFunds⟩
  · rintro ⟨hPositive, hFunds⟩
    exact ⟨hPositive, hCovered, hFunds⟩

/- The escrow of `repricedExit`. -/
def repricedEscrow
    (owed : U64) :
    UnstakeEscrow where
  vowState := sampleVow
  owner := sampleOwner.key
  lamportsOwed := owed
  deactivationEpoch := 1

theorem repricedExit_reachable
    (bought valued : Nat) :
    Reachable (repricedExit bought valued) :=
  (repricedChain_reachable bought valued).run _

/- At an unchanged price the whole stake is paid back. -/
theorem completesExit_unchanged :
    CompletesExit (sampleEnv 2592000 2)
      (repricedExit (10 ^ 12) (10 ^ 12)) sampleOwner
      sampleVow 1000000000 := by
  have hConfig :
      (repricedExit (10 ^ 12) (10 ^ 12)).config =
        some { repricedConfig 0 (10 ^ 12) with
          totalPendingUnstake := 1000000000 } := by
    decide +kernel
  have hLookup :
      ((repricedExit (10 ^ 12) (10 ^ 12)).vows.lookup
        sampleVow).isSome = true := by
    decide +kernel
  have hEscrow :
      (repricedExit (10 ^ 12) (10 ^ 12)).escrows.lookup
          (.unstake sampleVow) =
        some (repricedEscrow 1000000000) := by
    decide +kernel
  rcases Option.isSome_iff_exists.mp hLookup with
    ⟨vow, hVow⟩
  rcases escrowOwned_reachable
      (repricedExit_reachable (10 ^ 12) (10 ^ 12)) sampleVow _
      hEscrow with ⟨found, hFound, _, hOwner⟩
  rw [hVow, Option.some.injEq] at hFound
  subst hFound
  exact (completesExit_iff
    (repricedExit_reachable (10 ^ 12) (10 ^ 12)) hConfig hVow
    hOwner hEscrow (by decide) (by decide +kernel)).mpr
      (by decide +kernel)

/-
  After a slashing to the lowest price the position is worth
  nothing. The exit still begins, and with the whole stake in
  the reserve its completion is refused.
-/
theorem worthless_exit_stuck :
    Reachable (repricedExit (10 ^ 12) 1) ∧
      (repricedExit (10 ^ 12) 1).config =
        some (repricedConfig 0 1) ∧
      (repricedExit (10 ^ 12) 1).escrows.lookup
          (.unstake sampleVow) = some (repricedEscrow 0) ∧
      ((repricedExit (10 ^ 12) 1).vows.lookup sampleVow).map
        (fun vow => vow.owner) = some sampleOwner.key ∧
      (repricedEscrow 0).deactivationEpoch <
        (sampleEnv 2592000 2).epoch ∧
      (repricedExit (10 ^ 12) 1).reserve = 1000000000 ∧
      ¬CompletesExit (sampleEnv 2592000 2)
        (repricedExit (10 ^ 12) 1) sampleOwner sampleVow
        0 := by
  refine ⟨repricedExit_reachable (10 ^ 12) 1,
    by decide +kernel, by decide +kernel, by decide +kernel,
    by decide, by decide +kernel, ?_⟩
  rw [completesExit_iff_paysInFull]
  exact not_paysInFull_of_failure (by decide +kernel)

end Vow
