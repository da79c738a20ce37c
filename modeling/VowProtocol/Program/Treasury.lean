import VowProtocol.Program.Session

/-
  Movements of the yield balance: deposits by anyone,
  withdrawals by the owner and spends through a session.

  Key definitions include:
    * `depositYieldBalance`
    * `withdrawYield`
    * `YieldSpend`
    * `recordSpend`
    * `yieldSpend`
-/

------------------------------------------------------------
-- Deposits And Withdrawals
------------------------------------------------------------

namespace Vow

open MachineInt Fallible

/-
  `deposit_yield_balance`: anyone may top up an identity that
  has no unstake in progress.
-/
def depositYieldBalance
    (w : World)
    (depositor : Signer)
    (vowState : Pubkey)
    (amount : U64) :
    Result World := do
  let config ← loadConfig w
  let vow ← loadVow w vowState
  require (0 < amount) (.vow .insufficientYieldBalance)
  require (vow.activeStake = true) (.vow .identityInactive)
  require (w.escrows.lookup (.unstake vowState) = none)
    (.vow .alreadyUnstaking)
  let lamports ← transfer depositor.key .reserve amount.val
    w.lamports
  return { w with
    lamports := lamports
    config := some { config with
      totalYieldClaims :=
        config.totalYieldClaims.saturatingAdd amount }
    vows := w.vows.insert vowState { vow with
      yieldBalance := vow.yieldBalance.saturatingAdd amount } }

/-
  `withdraw_yield`: the owner takes an amount, or the whole
  balance, out of the reserve.
-/
def withdrawYield
    (w : World)
    (owner : Signer)
    (vowState : Pubkey)
    (amount : Option U64) :
    Result World := do
  let config ← loadConfig w
  let idnft ← loadVowAsOwner w vowState owner
  let withdrawAmount := amount.getD idnft.yieldBalance
  require (withdrawAmount ≤ idnft.yieldBalance)
    (.vow .insufficientYieldBalance)
  require (0 < withdrawAmount)
    (.vow .insufficientYieldBalance)
  require (withdrawAmount.val ≤ w.reserve)
    (.vow .insufficientYieldBalance)
  let yieldBalance ← okOr
    (idnft.yieldBalance.checkedSub withdrawAmount) .panicked
  let lamports ← transfer .reserve owner.key
    withdrawAmount.val w.lamports
  return { w with
    lamports := lamports
    config := some { config with
      totalYieldClaims :=
        config.totalYieldClaims.saturatingSub
          withdrawAmount }
    vows := w.vows.insert vowState
      { idnft with yieldBalance := yieldBalance } }

end Vow

------------------------------------------------------------
-- Session Spending
------------------------------------------------------------

namespace Vow

open MachineInt Fallible

/- Accounts and arguments of `yield_spend`. -/
structure YieldSpend where
  vowState : Pubkey
  sessionAccount : Pubkey
  callingProgram : Pubkey
  executable : Bool
  appRegistry : Option Pubkey
  destination : Pubkey
  sessionSigner : Signer
  amount : U64

/-
  The optional registry account, bound by its seeds to the
  calling program. A missing account skips the check.
-/
def checkAppRegistry
    (w : World)
    (ix : YieldSpend) :
    Result Unit :=
  match ix.appRegistry with
  | none => .ok ()
  | some address => do
      let registry ← okOr (w.apps.lookup address)
        .accountNotInitialized
      require (address = .app ix.callingProgram)
        .constraintSeeds
      require (registry.blocked = false) (.vow .appBlocked)

/- The session must be live for this signer and identity. -/
def checkSessionLive
    (env : Env)
    (idnft : VowState)
    (session : SessionAccount)
    (sessionSigner : Signer) :
    Result Unit := do
  require (sessionSigner.key = session.sessionKey)
    (.vow .sessionInactive)
  require (session.active = true) (.vow .sessionInactive)
  require
    (session.expiryTs = 0 ∨
      env.unixTimestamp < session.expiryTs)
    (.vow .sessionExpired)
  require (idnft.sessionsInvalidatedAt ≤ session.startTs)
    (.vow .sessionInvalidated)
  require (idnft.activeStake = true) (.vow .identityInactive)

/-
  The program whitelist: no entries allow any executable
  program. Slicing past the array would panic.
-/
def checkCallingProgram
    (session : SessionAccount)
    (ix : YieldSpend) :
    Result Unit := do
  require (ix.executable = true) (.vow .programNotAllowed)
  require
    (0 < session.programCount →
      session.programCount.val ≤ 8)
    .panicked
  require
    (0 < session.programCount →
      ix.callingProgram ∈
        session.allowedProgramIds.toList.take
          session.programCount.val)
    (.vow .programNotAllowed)

/- The spend limits; a zero limit is no limit. -/
def checkLimits
    (session : SessionAccount)
    (amount : U64) :
    Result Unit := do
  require
    (0 < session.velocityLimit →
      session.txCountToday < session.velocityLimit)
    (.vow .velocityLimitExceeded)
  require
    (0 < session.dailyLimit →
      session.spentToday.saturatingAdd amount ≤
        session.dailyLimit)
    (.vow .dailyLimitExceeded)
  require
    (0 < session.lifetimeLimit →
      session.spentTotal.saturatingAdd amount ≤
        session.lifetimeLimit)
    (.vow .lifetimeLimitExceeded)

/- Count a spend; an overflowing counter panics. -/
def recordSpend
    (session : SessionAccount)
    (amount : U64) :
    Result SessionAccount := do
  let spentToday ← okOr
    (session.spentToday.checkedAdd amount) .panicked
  let spentTotal ← okOr
    (session.spentTotal.checkedAdd amount) .panicked
  let txCountToday ← okOr
    (session.txCountToday.checkedAdd 1) .panicked
  return { session with
    spentToday := spentToday
    spentTotal := spentTotal
    txCountToday := txCountToday }

/- `yield_spend`: a session key spends yield. -/
def yieldSpend
    (env : Env)
    (w : World)
    (ix : YieldSpend) :
    Result World := do
  let config ← loadConfig w
  let idnft ← loadVow w ix.vowState
  let loaded ← loadSession w ix.sessionAccount ix.vowState
  checkSessionLive env idnft loaded ix.sessionSigner
  checkCallingProgram loaded ix
  checkAppRegistry w ix
  let session := resetDailyIfNeeded env.unixTimestamp loaded
  checkLimits session ix.amount
  require (ix.amount ≤ idnft.yieldBalance)
    (.vow .insufficientYieldBalance)
  require (ix.amount.val ≤ w.reserve)
    (.vow .insufficientYieldBalance)
  let yieldBalance ← okOr
    (idnft.yieldBalance.checkedSub ix.amount) .panicked
  let spent ← recordSpend session ix.amount
  let lamports ← transfer .reserve ix.destination
    ix.amount.val w.lamports
  return { w with
    lamports := lamports
    config := some { config with
      totalYieldClaims :=
        config.totalYieldClaims.saturatingSub ix.amount }
    vows := w.vows.insert ix.vowState
      { idnft with yieldBalance := yieldBalance }
    sessions := w.sessions.insert ix.sessionAccount spent }

end Vow
