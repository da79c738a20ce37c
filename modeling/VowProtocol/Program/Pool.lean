import VowProtocol.State.World

/-
  The permissionless cranks around the external stake pool.

  Key definitions include:
    * `poolTotalLamports`
    * `poolTokenSupply`
    * `updateSharePrice`
    * `flushReserveToPool`
    * `tokensToBurn`
    * `withdrawFromPool`
-/

------------------------------------------------------------
-- Pool Account Data
------------------------------------------------------------

namespace Vow

open MachineInt Fallible

/- The bytes `lo .. hi` of an account. -/
def slice
    (data : List U8)
    (lo hi : Nat) :
    List U8 :=
  (data.drop lo).take (hi - lo)

/- `u64::from_le_bytes`. -/
def u64FromLeBytes
    (bytes : List U8) :
    U64 :=
  Unsigned.ofNat 64
    (bytes.foldr (fun byte acc => byte.val + 256 * acc) 0)

/- `Pubkey::new_from_array`, read big-endian. -/
def pubkeyFromBytes
    (bytes : List U8) :
    Pubkey :=
  .key (bytes.foldl (fun acc byte => 256 * acc + byte.val) 0)

/- `total_lamports`, at offset 259. -/
def poolTotalLamports
    (pool : AccountInfo) :
    U64 :=
  u64FromLeBytes (slice pool.data 259 267)

/- `pool_token_supply`, at offset 267. -/
def poolTokenSupply
    (pool : AccountInfo) :
    U64 :=
  u64FromLeBytes (slice pool.data 267 275)

/- `reserve_stake`, at offset 131. -/
def poolReserveStakeKey
    (pool : AccountInfo) :
    Pubkey :=
  pubkeyFromBytes (slice pool.data 131 163)

/- `manager_fee`, at offset 195. -/
def poolManagerFeeKey
    (pool : AccountInfo) :
    Pubkey :=
  pubkeyFromBytes (slice pool.data 195 227)

end Vow

------------------------------------------------------------
-- Share Price
------------------------------------------------------------

namespace Vow

open MachineInt Fallible

/- The price read from the pool, at least one. -/
def poolSharePrice
    (totalLamports poolTokenSupply : U64) :
    Result U128 := do
  let scaled ← okOr
    ((totalLamports.cast 128).checkedMul SHARE_PRECISION)
    (.vow .sharePriceOverflow)
  let price :=
    (scaled.checkedDiv (poolTokenSupply.cast 128)).getD 1
  return if price < 1 then 1 else price

/-
  `update_share_price`: copy the pool's exchange rate. The
  crank does nothing when no pool is configured.
-/
def updateSharePrice
    (w : World)
    (splPool : AccountInfo) :
    Result World := do
  let config ← loadConfig w
  require (splPool.key = config.splStakePool)
    (.vow .stakeAccountMismatch)
  if config.splStakePool = .default then
    return w
  else
    require (275 ≤ splPool.data.length)
      (.vow .invalidStakeAccount)
    let totalLamports := poolTotalLamports splPool
    let supply := poolTokenSupply splPool
    let newPrice ←
      if 0 < supply then
        poolSharePrice totalLamports supply
      else
        .ok config.currentSharePrice
    return { w with
      config := some { config with
        currentSharePrice := newPrice
        lastPoolLamports := totalLamports } }

end Vow

------------------------------------------------------------
-- Deposits Into The Pool
------------------------------------------------------------

namespace Vow

open MachineInt Fallible

/-
  The accounts that both pool cranks take. The referral fee
  account of the deposit is only passed through.
-/
structure PoolAccounts where
  reservePoolTokens : TokenAccount
  splPool : AccountInfo
  poolWithdrawAuthority : Pubkey
  poolReserveStake : Pubkey
  poolManagerFeeAccount : Pubkey
  poolMint : Pubkey
  stakePoolProgram : Pubkey

/- The account constraints of both pool cranks. -/
def checkPoolAccounts
    (config : ProtocolConfig)
    (accounts : PoolAccounts) :
    Result Unit := do
  require
    (accounts.reservePoolTokens.mint = accounts.poolMint)
    .constraintTokenMint
  require
    (accounts.reservePoolTokens.authority = .reserve)
    .constraintTokenOwner
  require (accounts.splPool.key = config.splStakePool)
    (.vow .stakeAccountMismatch)
  require (accounts.poolMint = config.splPoolMint)
    (.vow .stakeAccountMismatch)

/- The checks against the pool's own data. -/
def checkPoolData
    (accounts : PoolAccounts)
    (minLength : Nat) :
    Result Unit := do
  require
    (accounts.stakePoolProgram = SPL_STAKE_POOL_PROGRAM_ID)
    (.vow .stakeAccountMismatch)
  require (minLength ≤ accounts.splPool.data.length)
    (.vow .invalidStakeAccount)
  require
    (accounts.poolReserveStake =
      poolReserveStakeKey accounts.splPool)
    (.vow .stakeAccountMismatch)
  require
    (accounts.poolManagerFeeAccount =
      poolManagerFeeKey accounts.splPool)
    (.vow .stakeAccountMismatch)
  require
    (accounts.poolWithdrawAuthority =
      .poolWithdrawAuthority accounts.splPool.key)
    (.vow .stakeAccountMismatch)

/-
  `flush_reserve_to_pool`: deposit every lamport above the
  rent-exempt minimum into the pool.
-/
def flushReserveToPool
    (env : Env)
    (w : World)
    (accounts : PoolAccounts) :
    Result World := do
  let config ← loadConfig w
  checkPoolAccounts config accounts
  if config.splStakePool = .default then
    return w
  else
    checkPoolData accounts 227
    let rentExempt := env.minimumBalance 0
    if w.reserve ≤ rentExempt then
      return w
    else
      let depositAmount := w.reserve - rentExempt
      let reserve ← okOr
        (env.depositSol accounts.splPool depositAmount
          w.reserve)
        .stakePoolFailed
      return { w with
        lamports := fun k =>
          if k = .reserve then reserve else w.lamports k }

end Vow

------------------------------------------------------------
-- Withdrawals From The Pool
------------------------------------------------------------

namespace Vow

open MachineInt Fallible

/-
  Pool tokens for a lamport amount, rounded up, narrowed to
  64 bits and capped by the tokens held.
-/
def tokensToBurn
    (lamportsNeeded totalLamports poolTokenSupply : U64)
    (held : U64) :
    Result U64 := do
  let product ← okOr
    ((lamportsNeeded.cast 128).checkedMul
      (poolTokenSupply.cast 128))
    (.vow .mathOverflow)
  let padded ← okOr
    (product.checkedAdd
      ((totalLamports.cast 128).saturatingSub 1))
    (.vow .mathOverflow)
  let quotient ← okOr
    (padded.checkedDiv (totalLamports.cast 128))
    (.vow .mathOverflow)
  let tokens := quotient.cast 64
  return if tokens ≤ held then tokens else held

/-
  `withdraw_from_pool`: top up the reserve for one escrow
  that it cannot cover.
-/
def withdrawFromPool
    (env : Env)
    (w : World)
    (unstakeEscrow : Pubkey)
    (accounts : PoolAccounts) :
    Result World := do
  let config ← loadConfig w
  let escrow ← okOr (w.escrows.lookup unstakeEscrow)
    .accountNotInitialized
  require (unstakeEscrow = .unstake escrow.vowState)
    .constraintSeeds
  checkPoolAccounts config accounts
  if config.splStakePool = .default then
    return w
  else
    require (w.reserve < escrow.lamportsOwed.val)
      (.vow .reserveSufficient)
    let lamportsNeeded := Unsigned.ofNat 64
      (escrow.lamportsOwed.val - w.reserve)
    checkPoolData accounts 275
    let totalLamports := poolTotalLamports accounts.splPool
    let supply := poolTokenSupply accounts.splPool
    require (0 < supply ∧ 0 < totalLamports)
      (.vow .emptyReserve)
    let tokens ← tokensToBurn lamportsNeeded totalLamports
      supply accounts.reservePoolTokens.amount
    require (0 < tokens) (.vow .emptyReserve)
    let reserve ← okOr
      (env.withdrawSol accounts.splPool tokens w.reserve)
      .stakePoolFailed
    return { w with
      lamports := fun k =>
        if k = .reserve then reserve else w.lamports k }

end Vow
