import VowProtocol.Program.Harvest

/-
  The stake life cycle of an identity: mint, top-up, yield
  mode, unstaking and re-activation.

  Key definitions include:
    * `mintVow`
    * `addStake`
    * `updateYieldMode`
    * `beginUnstake`
    * `payAmount`
    * `completeUnstake`
    * `activateStake`
-/

------------------------------------------------------------
-- Mint
------------------------------------------------------------

namespace Vow

open MachineInt Fallible

/- The account that `mintVow` writes. -/
def mintedVow
    (env : Env)
    (config : ProtocolConfig)
    (owner : Signer)
    (stakeLamports : U64)
    (yieldMode : YieldMode)
    (stakeClass : U8)
    (shares : U128)
    (unlockAt : I64) :
    VowState where
  assetId := .vowAsset config.totalMinted
  owner := owner.key
  stakeClass := stakeClass
  nonce := config.totalMinted
  principalLamports := stakeLamports
  shares := shares
  lastSharePrice := config.currentSharePrice
  accruedGain := 0
  yieldMode := yieldMode
  yieldBalance := 0
  totalHarvested := 0
  createdAt := env.unixTimestamp
  unlockAt := unlockAt
  matured := false
  sessionsInvalidatedAt := 0
  activeStake := true
  sessionNonce := 0
  firstStakedAt := env.unixTimestamp
  currentStakeStartedAt := env.unixTimestamp
  totalCommitments := 1
  totalFulfilled := 0
  cumulativeStakeDays := 0
  highestClassEver := stakeClass

/- `mint_vow`: create an identity with its first stake. -/
def mintVow
    (env : Env)
    (w : World)
    (owner : Signer)
    (stakeLamports : U64)
    (yieldMode : YieldMode) :
    Result World := do
  let config ← loadConfig w
  let assetId := Pubkey.vowAsset config.totalMinted
  require (w.vows.lookup (.vow assetId) = none)
    .accountAlreadyInUse
  let funded ← initAccount env owner.key (.vow assetId)
    VowState.LEN w.lamports
  let stakeClass ← classForStake stakeLamports
  -- A configured pool must have been read at least once.
  require
    (config.splStakePool ≠ .default →
      0 < config.lastPoolLamports)
    (.vow .sharePriceNotSynced)
  let lamports ← transfer owner.key .reserve
    stakeLamports.val funded
  let shares ←
    sharesForDeposit stakeLamports config.currentSharePrice
  let lock ← lockDuration stakeClass
  let unlockAt ← okOr (env.unixTimestamp.checkedAdd lock)
    .panicked
  let totalShares ← okOr
    (config.totalShares.checkedAdd shares)
    (.vow .mathOverflow)
  let totalMinted ← okOr (config.totalMinted.checkedAdd 1)
    .panicked
  return { w with
    lamports := lamports
    config := some { config with
      totalShares := totalShares
      totalMinted := totalMinted }
    vows := w.vows.insert (.vow assetId)
      (mintedVow env config owner stakeLamports yieldMode
        stakeClass shares unlockAt) }

end Vow

------------------------------------------------------------
-- Top-Up And Yield Mode
------------------------------------------------------------

namespace Vow

open MachineInt Fallible

/-
  A strictly higher class restarts the lock; otherwise the
  lock and the class stay.
-/
def upgradeClass
    (now : I64)
    (newClass : U8)
    (idnft : VowState) :
    Result VowState :=
  if idnft.stakeClass < newClass then do
    let lock ← lockDuration newClass
    let unlockAt ← okOr (now.checkedAdd lock) .panicked
    return { idnft with
      unlockAt := unlockAt
      matured := false
      stakeClass := newClass
      highestClassEver :=
        if idnft.highestClassEver < newClass then newClass
        else idnft.highestClassEver }
  else
    .ok idnft

/- `add_stake`: deposit more principal at today's price. -/
def addStake
    (env : Env)
    (w : World)
    (owner : Signer)
    (vowState : Pubkey)
    (lamportsToAdd : U64) :
    Result World := do
  let config ← loadConfig w
  let loaded ← loadVowAsOwner w vowState owner
  require (0 < lamportsToAdd) (.vow .insufficientStake)
  require (loaded.activeStake = true) (.vow .identityInactive)
  -- Zero shares mean that an unstake is in progress.
  require (0 < loaded.shares) (.vow .alreadyUnstaking)
  let settled ← settleIdnft loaded config
  let lamports ← transfer owner.key .reserve
    lamportsToAdd.val w.lamports
  let newPrincipal ← okOr
    (settled.principalLamports.checkedAdd lamportsToAdd)
    (.vow .mathOverflow)
  let newClass ← classForStake newPrincipal
  let newShares ←
    sharesForDeposit lamportsToAdd config.currentSharePrice
  let upgraded ←
    upgradeClass env.unixTimestamp newClass settled
  let shares ← okOr (upgraded.shares.checkedAdd newShares)
    (.vow .mathOverflow)
  let totalShares ← okOr
    (config.totalShares.checkedAdd newShares)
    (.vow .mathOverflow)
  return { w with
    lamports := lamports
    config := some { config with totalShares := totalShares }
    vows := w.vows.insert vowState { upgraded with
      principalLamports := newPrincipal
      shares := shares } }

/- `update_yield_mode`: settle, then switch the mode. -/
def updateYieldMode
    (w : World)
    (owner : Signer)
    (vowState : Pubkey)
    (newMode : YieldMode) :
    Result World := do
  let config ← loadConfig w
  let loaded ← loadVowAsOwner w vowState owner
  require (loaded.activeStake = true) (.vow .identityInactive)
  require (loaded.yieldMode ≠ newMode)
    (.vow .yieldModeUnchanged)
  let settled ← settleIdnft loaded config
  return { w with
    vows := w.vows.insert vowState
      { settled with yieldMode := newMode } }

end Vow

------------------------------------------------------------
-- Unstaking
------------------------------------------------------------

namespace Vow

open MachineInt Fallible

/-
  `begin_unstake`: move the position and the yield balance
  into an escrow. The stake stays active until completion.
-/
def beginUnstake
    (env : Env)
    (w : World)
    (owner : Signer)
    (vowState : Pubkey) :
    Result World := do
  let config ← loadConfig w
  let loaded ← loadVowAsOwner w vowState owner
  require (w.escrows.lookup (.unstake vowState) = none)
    .accountAlreadyInUse
  let lamports ← initAccount env owner.key
    (.unstake vowState) UnstakeEscrow.LEN w.lamports
  require (loaded.activeStake = true) (.vow .identityInactive)
  let due := matureIfDue env.unixTimestamp loaded
  require (due.matured = true) (.vow .notMatured)
  let idnft ← settleIdnft due config
  let value ←
    positionValue idnft.shares config.currentSharePrice
  -- The cast to `u64` keeps only the low 64 bits.
  let lamportsOwed ← okOr
    ((value.cast 64).checkedAdd idnft.yieldBalance)
    (.vow .mathOverflow)
  let totalPending ← okOr
    (config.totalPendingUnstake.checkedAdd lamportsOwed)
    (.vow .mathOverflow)
  return { w with
    lamports := lamports
    config := some { config with
      totalShares :=
        config.totalShares.saturatingSub idnft.shares
      totalYieldClaims :=
        config.totalYieldClaims.saturatingSub
          idnft.yieldBalance
      totalPendingUnstake := totalPending }
    vows := w.vows.insert vowState
      { idnft with shares := 0, yieldBalance := 0 }
    escrows := w.escrows.insert (.unstake vowState)
      { vowState := vowState
        owner := owner.key
        lamportsOwed := lamportsOwed
        deactivationEpoch := env.epoch } }

/-
  The payout of an escrow: in full when the reserve covers
  all pending claims, pro rata otherwise.
-/
def payAmount
    (lamportsOwed : U64)
    (reserveLamports : Nat)
    (totalPending : U64) :
    U64 :=
  if totalPending = 0 ∨ totalPending.val ≤ reserveLamports then
    lamportsOwed
  else
    let product :=
      ((lamportsOwed.cast 128).checkedMul
        (Unsigned.ofNat 128 reserveLamports)).getD 0
    ((product.checkedDiv (totalPending.cast 128)).getD 0).cast
      64

/- The identity after its stake has been paid out. -/
def dormantVow
    (now : I64)
    (idnft : VowState) :
    VowState :=
  let stakeSeconds :=
    now.saturatingSub idnft.currentStakeStartedAt
  let stakeDays := Unsigned.ofNat 64
    (stakeSeconds.val.toNat / 86400)
  { idnft with
    cumulativeStakeDays :=
      idnft.cumulativeStakeDays.saturatingAdd stakeDays
    totalFulfilled :=
      if idnft.matured then
        idnft.totalFulfilled.saturatingAdd 1
      else
        idnft.totalFulfilled
    activeStake := false
    sessionsInvalidatedAt := now }

/-
  `complete_unstake`: pay the escrow, close it and make the
  identity dormant.
-/
def completeUnstake
    (env : Env)
    (w : World)
    (owner : Signer)
    (vowState : Pubkey) :
    Result World := do
  let config ← loadConfig w
  let idnft ← loadVowAsOwner w vowState owner
  let escrow ← okOr (w.escrows.lookup (.unstake vowState))
    .accountNotInitialized
  require (escrow.owner = owner.key) .constraintHasOne
  require (escrow.deactivationEpoch < env.epoch)
    (.vow .stakeNotDeactivated)
  require (0 < w.reserve) (.vow .insufficientYieldBalance)
  let pay := payAmount escrow.lamportsOwed w.reserve
    config.totalPendingUnstake
  require (0 < pay) (.vow .insufficientYieldBalance)
  let lamports ← transfer .reserve owner.key pay.val
    w.lamports
  return { w with
    lamports :=
      closeAccount (.unstake vowState) owner.key lamports
    config := some { config with
      totalPendingUnstake :=
        config.totalPendingUnstake.saturatingSub
          escrow.lamportsOwed }
    vows := w.vows.insert vowState
      (dormantVow env.unixTimestamp idnft)
    escrows := w.escrows.erase (.unstake vowState) }

end Vow

------------------------------------------------------------
-- Re-Activation
------------------------------------------------------------

namespace Vow

open MachineInt Fallible

/- The identity after `activateStake`. -/
def activatedVow
    (env : Env)
    (config : ProtocolConfig)
    (stakeLamports : U64)
    (yieldMode : YieldMode)
    (newClass : U8)
    (newShares : U128)
    (unlockAt : I64)
    (idnft : VowState) :
    VowState :=
  { idnft with
    stakeClass := newClass
    principalLamports := stakeLamports
    shares := newShares
    lastSharePrice := config.currentSharePrice
    accruedGain := 0
    yieldMode := yieldMode
    unlockAt := unlockAt
    matured := false
    activeStake := true
    sessionsInvalidatedAt := env.unixTimestamp
    currentStakeStartedAt := env.unixTimestamp
    totalCommitments :=
      idnft.totalCommitments.saturatingAdd 1
    highestClassEver :=
      if idnft.highestClassEver < newClass then newClass
      else idnft.highestClassEver }

/- `activate_stake`: give a dormant identity a new stake. -/
def activateStake
    (env : Env)
    (w : World)
    (owner : Signer)
    (vowState : Pubkey)
    (stakeLamports : U64)
    (yieldMode : YieldMode) :
    Result World := do
  let config ← loadConfig w
  let loaded ← loadVowAsOwner w vowState owner
  require (loaded.activeStake = false)
    (.vow .identityAlreadyActive)
  let idnft ← settleIdnft loaded config
  let newClass ← classForStake stakeLamports
  let lamports ← transfer owner.key .reserve
    stakeLamports.val w.lamports
  let newShares ←
    sharesForDeposit stakeLamports config.currentSharePrice
  let lock ← lockDuration newClass
  let unlockAt ← okOr (env.unixTimestamp.checkedAdd lock)
    .panicked
  -- Orphaned shares of the identity are removed first.
  let totalShares ← okOr
    ((config.totalShares.saturatingSub
      idnft.shares).checkedAdd newShares)
    (.vow .mathOverflow)
  return { w with
    lamports := lamports
    config := some { config with totalShares := totalShares }
    vows := w.vows.insert vowState
      (activatedVow env config stakeLamports yieldMode
        newClass newShares unlockAt idnft) }

end Vow
