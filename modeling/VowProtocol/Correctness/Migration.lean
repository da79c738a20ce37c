import VowProtocol.Correctness.Exit

/-
  A migration of the configuration: the admin closes it,
  opens it again for the same pool and restores the mint
  counter. The identities and the escrows stay, but the
  aggregates that summarise them start again at zero.

  Key definitions include:
    * `migrate`
    * `World.Balanced`
    * `completionPay`

  Key theorems include:
    * `migrate_ok`
    * `migration_keeps_books_iff`
-/

------------------------------------------------------------
-- The Migration
------------------------------------------------------------

namespace Vow

open MachineInt Fallible

/-
  The three steps of a migration. The counter can only be
  set when the previous one was positive.
-/
def migrate
    (env : Env)
    (w : World)
    (admin : Signer)
    (splPool : AccountInfo) :
    Result World := do
  let config ← loadConfig w
  let closed ← closeProtocolConfig w admin
  let reopened ← initializeConfig env closed admin splPool
    config.splStakePool config.splPoolMint
  if 0 < config.totalMinted then
    setMintCounter reopened admin config.totalMinted
  else
    return reopened

/- A migration only replaces the configuration. -/
theorem migrate_ok
    {env : Env}
    {w w' : World}
    {admin : Signer}
    {splPool : AccountInfo}
    (hOk : migrate env w admin splPool = .ok w') :
    ∃ config lamports,
      config.totalShares = 0 ∧
      config.totalYieldClaims = 0 ∧
      config.totalPendingUnstake = 0 ∧
      lamports Pubkey.reserve = w.reserve ∧
      w' = { w with
        lamports := lamports, config := some config } := by
  unfold migrate at hOk
  simp only [bind_eq_ok_iff] at hOk
  rcases hOk with
    ⟨previous, _, closed, hClose, reopened, hInit, hCount⟩
  rcases closeProtocolConfig_ok hClose with ⟨_, hClosed⟩
  rcases initializeConfig_ok hInit with ⟨call, hReopened⟩
  have hReserve : call.lamports Pubkey.reserve = w.reserve := by
    rw [call.reserve_eq, hClosed]
    exact closeConfig_reserve w admin
  subst hClosed hReopened
  by_cases hMinted : 0 < previous.totalMinted
  · rw [if_pos hMinted] at hCount
    rcases setMintCounter_ok hCount with ⟨counted, hEq⟩
    rw [← Option.some.inj counted.hConfig] at hEq
    exact ⟨_, call.lamports, rfl, rfl, rfl, hReserve, hEq⟩
  · rw [if_neg hMinted, pure_eq_ok_iff] at hCount
    exact ⟨_, call.lamports, rfl, rfl, rfl, hReserve,
      hCount.symm⟩

end Vow

------------------------------------------------------------
-- The Books
------------------------------------------------------------

namespace Vow

open MachineInt Fallible

/- The aggregates are the sums over the accounts. -/
def World.Balanced
    (w : World) :
    Prop :=
  ∃ config,
    w.config = some config ∧
    config.totalShares.val = w.sumShares ∧
    config.totalYieldClaims.val = w.sumYield ∧
    config.totalPendingUnstake.val = w.sumOwed

/- What a completion would pay out of the reserve. -/
def completionPay
    (env : Env)
    (w : World)
    (owner : Signer)
    (vowState : Pubkey) :
    Option Nat :=
  match completeUnstake env w owner vowState with
  | .ok w' => some (w.reserve - w'.reserve)
  | .error _ => none

/- Without any debt no completion goes through. -/
theorem completionPay_of_sumOwed_zero
    {w : World}
    (hDebts : w.sumOwed = 0)
    (env : Env)
    (owner : Signer)
    (vowState : Pubkey) :
    completionPay env w owner vowState = none := by
  unfold completionPay
  split
  · rename_i w' hOk
    rcases completeUnstake_eq_ok_iff.mp hOk with ⟨call, _⟩
    have hPay := call.hPay
    have hOwed : call.escrow.lamportsOwed.val = 0 := by
      have hSum := World.sumOwed_eq call.hEscrow
      omega
    have hLe :=
      ProRata.share_le_claim call.escrow.lamportsOwed.val
        w.reserve call.config.totalPendingUnstake.val
    rw [Unsigned.lt_def, Unsigned.val_zero, payAmount_val]
      at hPay
    omega
  · rfl

/-
  The aggregates of a migrated configuration are right, and
  its escrows are paid as before, exactly when there was
  nothing to summarise: no shares, no yield and no debt.
-/
theorem migration_keeps_books_iff
    {env : Env}
    {w w' : World}
    {admin : Signer}
    {splPool : AccountInfo}
    (hOk : migrate env w admin splPool = .ok w') :
    (w'.Balanced ∧
      ∀ env' owner vowState,
        completionPay env' w' owner vowState =
          completionPay env' w owner vowState) ↔
      w.sumShares = 0 ∧ w.sumYield = 0 ∧ w.sumOwed = 0 := by
  rcases migrate_ok hOk with
    ⟨config, lamports, hShares, hYields, hPending, _, hEq⟩
  subst hEq
  constructor
  · rintro ⟨⟨found, hFound, hSumShares, hSumYield, hSumOwed⟩,
      _⟩
    have hSame : config = found := Option.some.inj hFound
    subst hSame
    rw [hShares, Unsigned.val_zero] at hSumShares
    rw [hYields, Unsigned.val_zero] at hSumYield
    rw [hPending, Unsigned.val_zero] at hSumOwed
    exact ⟨hSumShares.symm, hSumYield.symm, hSumOwed.symm⟩
  · rintro ⟨hSumShares, hSumYield, hSumOwed⟩
    refine ⟨⟨config, rfl, ?_, ?_, ?_⟩, ?_⟩
    · rw [hShares, Unsigned.val_zero]
      exact hSumShares.symm
    · rw [hYields, Unsigned.val_zero]
      exact hSumYield.symm
    · rw [hPending, Unsigned.val_zero]
      exact hSumOwed.symm
    · intro env' owner vowState
      rw [completionPay_of_sumOwed_zero hSumOwed,
        completionPay_of_sumOwed_zero]
      exact hSumOwed

/- The pool account is not read without a pool. -/
def noPool : AccountInfo := ⟨.default, []⟩

/- An exit that has been paid in full. -/
def settledExit : World :=
  (repricedExit (10 ^ 12) (10 ^ 12)).run
    [sampleStep 2592000 2
      (.completeUnstake sampleOwner sampleVow)]

theorem migration_keeps_books_settled :
    ∃ w',
      migrate (sampleEnv 2592000 2) settledExit sampleAdmin
        noPool = .ok w' ∧
      w'.Balanced := by
  have hSome :
      (migrate (sampleEnv 2592000 2) settledExit sampleAdmin
        noPool).toOption.isSome = true := by
    decide +kernel
  rcases Option.isSome_iff_exists.mp hSome with ⟨w', hFound⟩
  have hOk := toOption_eq_some_iff.mp hFound
  exact ⟨w', hOk,
    ((migration_keeps_books_iff hOk).mpr
      (by decide +kernel)).1⟩

/- The pending total and the sum of the debts. -/
def World.pendingAndSum
    (w : World) :
    Option (Nat × Nat) :=
  w.config.map fun config =>
    (config.totalPendingUnstake.val, w.sumOwed)

/-
  An escrow of two XNT over a reserve of one is paid half.
  After a migration the pending total is zero, the payout is
  no longer cut and the completion fails.
-/
theorem migration_forgets_debts :
    Reachable (repricedExit (10 ^ 12) (2 * 10 ^ 12)) ∧
      completionPay (sampleEnv 2592000 2)
        (repricedExit (10 ^ 12) (2 * 10 ^ 12)) sampleOwner
        sampleVow = some 1000000000 ∧
      ∃ w',
        migrate (sampleEnv 2592000 2)
          (repricedExit (10 ^ 12) (2 * 10 ^ 12)) sampleAdmin
          noPool = .ok w' ∧
        w'.pendingAndSum = some (0, 2000000000) ∧
        completionPay (sampleEnv 2592000 2) w' sampleOwner
          sampleVow = none := by
  have hSome :
      (migrate (sampleEnv 2592000 2)
        (repricedExit (10 ^ 12) (2 * 10 ^ 12)) sampleAdmin
        noPool).toOption.map
          (fun w' => (w'.pendingAndSum,
            completionPay (sampleEnv 2592000 2) w'
              sampleOwner sampleVow)) =
        some (some (0, 2000000000), none) := by
    decide +kernel
  rcases Option.map_eq_some_iff.mp hSome with
    ⟨w', hFound, hBoth⟩
  rw [Prod.mk.injEq] at hBoth
  exact ⟨repricedExit_reachable (10 ^ 12) (2 * 10 ^ 12),
    by decide +kernel, w', toOption_eq_some_iff.mp hFound,
    hBoth.1, hBoth.2⟩

end Vow
