import Mathlib.Data.Rat.Floor
import VowProtocol.Correctness.Payout

/-
  How many pool tokens a withdrawal burns.

  The handler rounds the exact token count up. The result is
  the least number of tokens whose redemption covers the
  escrow, so one withdrawal is enough and a second one is
  refused.

  Key theorems include:
    * `poolTokensFor_le_iff`
    * `poolTokensFor_eq_ceil`
    * `tokensToBurn_ok`
    * `withdrawFromPool_eq`
    * `withdraw_burns_least`
-/

------------------------------------------------------------
-- The Least Token Count
------------------------------------------------------------

namespace Vow

open MachineInt Fallible

/- The token counts that pay for an amount. -/
theorem poolTokensFor_le_iff
    {total : Nat}
    (hTotal : 0 < total)
    {needed supply tokens : Nat} :
    poolTokensFor needed total supply ≤ tokens ↔
      needed * supply ≤ tokens * total := by
  have hStep : (tokens + 1) * total = tokens * total + total :=
    Nat.succ_mul tokens total
  unfold poolTokensFor
  rw [← Nat.lt_succ_iff, Nat.succ_eq_add_one,
    Nat.div_lt_iff_lt_mul hTotal, hStep]
  omega

/- The count is the ceiling of the exact quotient. -/
theorem poolTokensFor_eq_ceil
    {total : Nat}
    (hTotal : 0 < total)
    (needed supply : Nat) :
    poolTokensFor needed total supply =
      ⌈(needed : ℚ) * supply / total⌉₊ := by
  have hTotalQ : (0 : ℚ) < total := by
    exact_mod_cast hTotal
  apply eq_of_forall_ge_iff
  intro tokens
  rw [poolTokensFor_le_iff hTotal, Nat.ceil_le,
    div_le_iff₀ hTotalQ]
  norm_cast

/- Redeeming covers the amount exactly from the count on. -/
theorem le_redeem_iff
    {total supply : Nat}
    (hTotal : 0 < total)
    (hSupply : 0 < supply)
    {needed tokens : Nat} :
    needed ≤ tokens * total / supply ↔
      poolTokensFor needed total supply ≤ tokens := by
  rw [poolTokensFor_le_iff hTotal,
    Nat.le_div_iff_mul_le hSupply]

theorem poolTokensFor_pos
    {needed total supply : Nat}
    (hTotal : 0 < total)
    (hSupply : 0 < supply)
    (hNeeded : 0 < needed) :
    0 < poolTokensFor needed total supply := by
  by_contra hZero
  have hNone :
      poolTokensFor needed total supply ≤ 0 := by
    omega
  rw [← le_redeem_iff hTotal hSupply] at hNone
  simp at hNone
  omega

/-
  No 64-bit inputs overflow the computation, and a balance
  of enough tokens leaves the count uncut.
-/
theorem tokensToBurn_ok
    {needed total supply held : U64}
    (hTotal : 0 < total.val)
    (hHeld :
      poolTokensFor needed.val total.val supply.val ≤
        held.val) :
    ∃ tokens,
      tokensToBurn needed total supply held = .ok tokens ∧
        tokens.val =
          poolTokensFor needed.val total.val supply.val := by
  have hNeeded := needed.isLt
  have hSupply := supply.isLt
  have hTotalFits := total.isLt
  have hProduct :
      needed.val * supply.val ≤
        (2 ^ 64 - 1) * (2 ^ 64 - 1) :=
    Nat.mul_le_mul (by omega) (by omega)
  have hPadded :
      needed.val * supply.val + (total.val - 1) <
        2 ^ 128 := by
    omega
  have hQuotient :
      poolTokensFor needed.val total.val supply.val <
        2 ^ 128 :=
    lt_of_le_of_lt (Nat.div_le_self _ _) hPadded
  have hSome :
      ∃ tokens,
        tokensToBurn needed total supply held =
          .ok tokens := by
    unfold tokensToBurn
    simp only [bind_eq_ok_iff, okOr_eq_ok_iff,
      pure_eq_ok_iff, Unsigned.checkedMul_eq_some_iff,
      Unsigned.checkedAdd_eq_some_iff,
      Unsigned.checkedDiv_eq_some_iff,
      Unsigned.val_saturatingSub,
      Unsigned.val_one (show 0 < 128 by decide),
      Unsigned.val_cast_of_le (show 64 ≤ 128 by decide)]
    exact ⟨_, ⟨needed.val * supply.val, by omega⟩, rfl,
      ⟨_, hPadded⟩, rfl, ⟨_, hQuotient⟩, ⟨by omega, rfl⟩,
      rfl⟩
  rcases hSome with ⟨tokens, hOk⟩
  exact ⟨tokens, hOk, tokensToBurn_val hOk hHeld⟩

end Vow

------------------------------------------------------------
-- The Withdrawal
------------------------------------------------------------

namespace Vow

open MachineInt Fallible

/-
  The constraints and checks of a withdrawal that do not
  depend on amounts.
-/
structure WithdrawalChecked
    (w : World)
    (unstakeEscrow : Pubkey)
    (accounts : PoolAccounts)
    (config : ProtocolConfig)
    (escrow : UnstakeEscrow) :
    Prop where
  configured : w.config = some config
  pooled : config.splStakePool ≠ .default
  opened : w.escrows.lookup unstakeEscrow = some escrow
  seeds : unstakeEscrow = .unstake escrow.vowState
  constrained : checkPoolAccounts config accounts = .ok ()
  matching : checkPoolData accounts 275 = .ok ()

/-
  With the checks passed and enough tokens held, the result
  is that of one redemption of the count.
-/
theorem withdrawFromPool_eq
    {w : World}
    {unstakeEscrow : Pubkey}
    {accounts : PoolAccounts}
    {config : ProtocolConfig}
    {escrow : UnstakeEscrow}
    (hChecked :
      WithdrawalChecked w unstakeEscrow accounts config
        escrow)
    (hShort : w.reserve < escrow.lamportsOwed.val)
    (hTotal : 0 < (poolTotalLamports accounts.splPool).val)
    (hSupply : 0 < (poolTokenSupply accounts.splPool).val)
    (hHeld :
      poolTokensFor (escrow.lamportsOwed.val - w.reserve)
          (poolTotalLamports accounts.splPool).val
          (poolTokenSupply accounts.splPool).val ≤
        accounts.reservePoolTokens.amount.val) :
    ∃ tokens : U64,
      tokens.val =
        poolTokensFor (escrow.lamportsOwed.val - w.reserve)
          (poolTotalLamports accounts.splPool).val
          (poolTokenSupply accounts.splPool).val ∧
      ∀ env,
        withdrawFromPool env w unstakeEscrow accounts =
          (okOr
            (env.withdrawSol accounts.splPool tokens
              w.reserve)
            .stakePoolFailed).map w.withReserve := by
  have hOwed := escrow.lamportsOwed.isLt
  have hNeeded :
      (Unsigned.ofNat 64
        (escrow.lamportsOwed.val - w.reserve)).val =
        escrow.lamportsOwed.val - w.reserve :=
    Nat.mod_eq_of_lt (by omega)
  rw [← hNeeded] at hHeld ⊢
  rcases tokensToBurn_ok hTotal hHeld with
    ⟨tokens, hTokens, hVal⟩
  refine ⟨tokens, hVal, ?_⟩
  intro env
  have hSupplyPos : 0 < poolTokenSupply accounts.splPool := by
    rw [Unsigned.lt_def, Unsigned.val_zero]
    exact hSupply
  have hTotalPos :
      0 < poolTotalLamports accounts.splPool := by
    rw [Unsigned.lt_def, Unsigned.val_zero]
    exact hTotal
  have hPositive : 0 < tokens := by
    rw [Unsigned.lt_def, Unsigned.val_zero, hVal]
    exact poolTokensFor_pos hTotal hSupply (by omega)
  unfold withdrawFromPool
  rw [loadConfig_eq_ok_iff.mpr hChecked.configured, ok_bind,
    okOr_eq_ok_iff.mpr hChecked.opened, ok_bind,
    require_of_holds hChecked.seeds, ok_bind,
    hChecked.constrained, ok_bind,
    if_neg hChecked.pooled, require_of_holds hShort,
    ok_bind, hChecked.matching, ok_bind]
  dsimp only
  rw [require_of_holds ⟨hSupplyPos, hTotalPos⟩, ok_bind,
    hTokens, ok_bind, require_of_holds hPositive, ok_bind]
  cases env.withdrawSol accounts.splPool tokens w.reserve with
  | none => rfl
  | some reserve => rfl

/- A covered escrow justifies no withdrawal. -/
theorem withdrawFromPool_sufficient
    {env : Env}
    {w : World}
    {unstakeEscrow : Pubkey}
    {accounts : PoolAccounts}
    {config : ProtocolConfig}
    {escrow : UnstakeEscrow}
    (hConfig : w.config = some config)
    (hPool : config.splStakePool ≠ .default)
    (hEscrow : w.escrows.lookup unstakeEscrow = some escrow)
    (hSeeds : unstakeEscrow = .unstake escrow.vowState)
    (hAccounts : checkPoolAccounts config accounts = .ok ())
    (hCovered : escrow.lamportsOwed.val ≤ w.reserve) :
    withdrawFromPool env w unstakeEscrow accounts =
      .error (.vow .reserveSufficient) := by
  unfold withdrawFromPool
  rw [loadConfig_eq_ok_iff.mpr hConfig, ok_bind,
    okOr_eq_ok_iff.mpr hEscrow, ok_bind,
    require_of_holds hSeeds, ok_bind, hAccounts, ok_bind,
    if_neg hPool, require_of_fails (by omega)]
  rfl

/-
  A withdrawal burns the least number of tokens that covers
  its escrow, the exact ceiling, whenever the reserve holds
  them. When they are redeemed without a fee the reserve
  covers the escrow, and a second withdrawal for it is
  refused whatever pool accounts it brings.
-/
theorem withdraw_burns_least
    {w : World}
    {unstakeEscrow : Pubkey}
    {accounts : PoolAccounts}
    {config : ProtocolConfig}
    {escrow : UnstakeEscrow}
    (hChecked :
      WithdrawalChecked w unstakeEscrow accounts config
        escrow)
    (hShort : w.reserve < escrow.lamportsOwed.val)
    (hTotal : 0 < (poolTotalLamports accounts.splPool).val)
    (hSupply : 0 < (poolTokenSupply accounts.splPool).val)
    (hHeld :
      ⌈((escrow.lamportsOwed.val - w.reserve : Nat) : ℚ) *
          (poolTokenSupply accounts.splPool).val /
          (poolTotalLamports accounts.splPool).val⌉₊ ≤
        accounts.reservePoolTokens.amount.val) :
    ∃ tokens : U64,
      tokens.val =
        ⌈((escrow.lamportsOwed.val - w.reserve : Nat) : ℚ) *
          (poolTokenSupply accounts.splPool).val /
          (poolTotalLamports accounts.splPool).val⌉₊ ∧
      (∀ env,
        withdrawFromPool env w unstakeEscrow accounts =
          (okOr
            (env.withdrawSol accounts.splPool tokens
              w.reserve)
            .stakePoolFailed).map w.withReserve) ∧
      escrow.lamportsOwed.val - w.reserve ≤
        tokens.val *
          (poolTotalLamports accounts.splPool).val /
          (poolTokenSupply accounts.splPool).val ∧
      (tokens.val - 1) *
          (poolTotalLamports accounts.splPool).val /
          (poolTokenSupply accounts.splPool).val <
        escrow.lamportsOwed.val - w.reserve ∧
      ∀ env,
        env.withdrawSol accounts.splPool tokens w.reserve =
          some (w.reserve +
            tokens.val *
              (poolTotalLamports accounts.splPool).val /
              (poolTokenSupply accounts.splPool).val) →
        ∃ w',
          withdrawFromPool env w unstakeEscrow accounts =
            .ok w' ∧
          escrow.lamportsOwed.val ≤ w'.reserve ∧
          ∀ env' accounts',
            checkPoolAccounts config accounts' = .ok () →
            withdrawFromPool env' w' unstakeEscrow
                accounts' =
              .error (.vow .reserveSufficient) := by
  rw [← poolTokensFor_eq_ceil hTotal] at hHeld ⊢
  rcases withdrawFromPool_eq hChecked hShort hTotal hSupply
    hHeld with ⟨tokens, hTokens, hResult⟩
  have hEnough :
      escrow.lamportsOwed.val - w.reserve ≤
        tokens.val *
          (poolTotalLamports accounts.splPool).val /
          (poolTokenSupply accounts.splPool).val :=
    (le_redeem_iff hTotal hSupply).mpr (le_of_eq hTokens.symm)
  have hPositive :=
    poolTokensFor_pos hTotal hSupply
      (show 0 < escrow.lamportsOwed.val - w.reserve by omega)
  refine ⟨tokens, hTokens, hResult, hEnough, ?_, ?_⟩
  · rw [← not_le, le_redeem_iff hTotal hSupply]
    omega
  · intro env hRedeemed
    refine ⟨_, by rw [hResult, hRedeemed]; rfl, ?_, ?_⟩
    · rw [World.reserve_withReserve]
      omega
    · intro env' accounts' hAccounts
      refine withdrawFromPool_sufficient hChecked.configured
        hChecked.pooled hChecked.opened hChecked.seeds
        hAccounts ?_
      rw [World.reserve_withReserve]
      omega

/- A pool of three lamports for every two tokens. -/
def richPool : AccountInfo where
  key := .key 7
  data :=
    List.replicate 264 0 ++ [3, 0, 0, 0, 0, 0, 0, 0, 2, 0, 0]

def richPoolAccounts : PoolAccounts :=
  { samplePoolAccounts with splPool := richPool }

theorem soloChain_checked :
    WithdrawalChecked soloChain (.unstake sampleVow)
      richPoolAccounts soloConfig soloEscrow :=
  ⟨by decide +kernel, by decide, by decide +kernel, rfl,
    by decide +kernel, by decide +kernel⟩

/- One withdrawal covers the escrow of the first owner. -/
theorem withdraw_burns_least_solo :
    ∃ w',
      withdrawFromPool (sampleEnv 2678400 2) soloChain
          (.unstake sampleVow) richPoolAccounts = .ok w' ∧
        1000000000 ≤ w'.reserve ∧
        withdrawFromPool (sampleEnv 2678400 2) w'
            (.unstake sampleVow) richPoolAccounts =
          .error (.vow .reserveSufficient) := by
  have hTotal :
      0 < (poolTotalLamports
        richPoolAccounts.splPool).val := by
    decide +kernel
  have hHeld :
      ⌈((soloEscrow.lamportsOwed.val - soloChain.reserve :
          Nat) : ℚ) *
          (poolTokenSupply richPoolAccounts.splPool).val /
          (poolTotalLamports
            richPoolAccounts.splPool).val⌉₊ ≤
        richPoolAccounts.reservePoolTokens.amount.val := by
    rw [← poolTokensFor_eq_ceil hTotal]
    decide +kernel
  rcases withdraw_burns_least soloChain_checked
    (by decide +kernel) hTotal (by decide +kernel) hHeld with
    ⟨tokens, _, _, _, _, hRedeems⟩
  rcases hRedeems (sampleEnv 2678400 2) rfl with
    ⟨w', hOk, hCovered, hRefused⟩
  exact ⟨w', hOk, hCovered,
    hRefused _ _ soloChain_checked.constrained⟩

end Vow
