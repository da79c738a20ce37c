import VowProtocol.Program.Harvest
import VowProtocol.Program.Pool

/-
  Administration, the app registry and commitment records.

  Key definitions include:
    * `initializeConfig`
    * `setAdmin`
    * `closeProtocolConfig`
    * `setMintCounter`
    * `devSetSharePrice`
    * `devFastUnlock`
    * `registerApp`
    * `verifyApp`
    * `blockApp`
    * `recordCommitment`
    * `recordFulfillment`
-/

------------------------------------------------------------
-- Configuration
------------------------------------------------------------

namespace Vow

open MachineInt Fallible

/-
  The opening share price and the cached pool lamports. Only
  a matching pool account with positive figures is read, and
  its quotient is taken without a lower bound.
-/
def openingSharePrice
    (splStakePool : Pubkey)
    (splPool : AccountInfo) :
    Result (U128 × U64) :=
  let totalLamports := poolTotalLamports splPool
  let supply := poolTokenSupply splPool
  if splStakePool ≠ .default ∧ splPool.key = splStakePool ∧
      275 ≤ splPool.data.length ∧
      0 < totalLamports ∧ 0 < supply then do
    let scaled ← okOr
      ((totalLamports.cast 128).checkedMul SHARE_PRECISION)
      (.vow .sharePriceOverflow)
    let price :=
      (scaled.checkedDiv (supply.cast 128)).getD
        SHARE_PRECISION
    return (price, totalLamports)
  else
    .ok (SHARE_PRECISION, 0)

/- `initialize`: create the configuration account. -/
def initializeConfig
    (env : Env)
    (w : World)
    (admin : Signer)
    (splPool : AccountInfo)
    (splStakePool splPoolMint : Pubkey) :
    Result World := do
  require (w.config = none) .accountAlreadyInUse
  let lamports ← initAccount env admin.key .config
    ProtocolConfig.LEN w.lamports
  let opening ← openingSharePrice splStakePool splPool
  return { w with
    lamports := lamports
    config := some {
      admin := admin.key
      currentSharePrice := opening.1
      totalShares := 0
      totalYieldClaims := 0
      lastPoolLamports := opening.2
      totalMinted := 0
      merkleTree := .default
      totalPendingUnstake := 0
      splStakePool := splStakePool
      splPoolMint := splPoolMint } }

/- `set_admin`. -/
def setAdmin
    (w : World)
    (admin : Signer)
    (newAdmin : Pubkey) :
    Result World := do
  let config ← loadConfigAsAdmin w admin
  require (newAdmin ≠ .default) (.vow .unauthorized)
  return { w with
    config := some { config with admin := newAdmin } }

/-
  `close_protocol_config`: the migration helper. It removes
  the configuration and nothing else.
-/
def closeProtocolConfig
    (w : World)
    (admin : Signer) :
    Result World := do
  let config ← okOr w.config (.vow .invalidStakeAccount)
  require (config.admin = admin.key) (.vow .unauthorized)
  return { w with
    lamports := closeAccount .config admin.key w.lamports
    config := none }

/- `set_mint_counter`: only ever increases the counter. -/
def setMintCounter
    (w : World)
    (admin : Signer)
    (newCounter : U64) :
    Result World := do
  let config ← loadConfigAsAdmin w admin
  require (config.totalMinted < newCounter)
    (.vow .invalidStakeAccount)
  return { w with
    config := some { config with totalMinted := newCounter } }

/- `dev_set_share_price`: refused once a pool is set. -/
def devSetSharePrice
    (w : World)
    (admin : Signer)
    (newPrice : U128) :
    Result World := do
  let config ← loadConfigAsAdmin w admin
  require (config.splStakePool = .default)
    (.vow .unauthorized)
  require (0 < newPrice) (.vow .sharePriceOverflow)
  return { w with
    config := some
      { config with currentSharePrice := newPrice } }

/- `dev_fast_unlock`: refused once a pool is set. -/
def devFastUnlock
    (w : World)
    (admin : Signer)
    (vowState : Pubkey) :
    Result World := do
  let config ← loadConfigAsAdmin w admin
  let vow ← loadVow w vowState
  require (config.splStakePool = .default)
    (.vow .unauthorized)
  return { w with
    vows := w.vows.insert vowState
      { vow with unlockAt := Signed.clamp 63 1 } }

end Vow

------------------------------------------------------------
-- App Registry
------------------------------------------------------------

namespace Vow

open MachineInt Fallible

/- `register_app`: anyone may register a program. -/
def registerApp
    (env : Env)
    (w : World)
    (payer : Signer)
    (programId : Pubkey) :
    Result World := do
  require (w.apps.lookup (.app programId) = none)
    .accountAlreadyInUse
  let lamports ← initAccount env payer.key (.app programId)
    AppRegistry.LEN w.lamports
  return { w with
    lamports := lamports
    apps := w.apps.insert (.app programId)
      { programId := programId
        verified := false
        blocked := false
        registeredAt := env.unixTimestamp } }

/- A registry entry under an admin action. -/
def adminAppAction
    (w : World)
    (admin : Signer)
    (address : Pubkey)
    (change : AppRegistry → AppRegistry) :
    Result World := do
  let registry ← okOr (w.apps.lookup address)
    .accountNotInitialized
  require (address = .app registry.programId)
    .constraintSeeds
  let _ ← loadConfigAsAdmin w admin
  return { w with
    apps := w.apps.insert address (change registry) }

/- `verify_app`. -/
def verifyApp
    (w : World)
    (admin : Signer)
    (address : Pubkey) :
    Result World :=
  adminAppAction w admin address
    fun registry => { registry with verified := true }

/- `block_app`. -/
def blockApp
    (w : World)
    (admin : Signer)
    (address : Pubkey) :
    Result World :=
  adminAppAction w admin address
    fun registry => { registry with blocked := true }

end Vow

------------------------------------------------------------
-- Commitment Records
------------------------------------------------------------

namespace Vow

open MachineInt Fallible

/-
  The display score. The fulfilled ratio multiplies in 64
  bits, which may panic, and is narrowed to 32 bits.
-/
def computeScore
    (record : CommitmentRecord) :
    Result U32 := do
  let classPoints := Unsigned.ofNat 32
    (record.highestClassEver.val * 100)
  let mintPoints := Unsigned.ofNat 32
    (min record.totalXnftsMinted.val 50 * 10)
  let scaled ←
    if 0 < record.totalXntCommitted then
      okOr (record.totalXntFulfilled.checkedMul 100)
        .panicked
    else
      .ok 0
  let ratio : U32 :=
    (Unsigned.ofNat 64
      (scaled.val / record.totalXntCommitted.val)).cast 32
  let points ← okOr (classPoints.checkedAdd mintPoints)
    .panicked
  okOr (points.checkedAdd ratio) .panicked

/- A record as its account is first allocated. -/
def emptyRecord : CommitmentRecord where
  wallet := .default
  totalXnftsMinted := 0
  totalXntCommitted := 0
  totalXntFulfilled := 0
  highestClassEver := 0
  totalCommitmentDays := 0
  commitmentScore := 0
  lastUpdated := 0

/- Load a record, allocating it when it does not exist. -/
def loadOrInitRecord
    (env : Env)
    (w : World)
    (payer : Signer)
    (address : Pubkey) :
    Result (CommitmentRecord × Lamports) :=
  match w.records.lookup address with
  | some record => .ok (record, w.lamports)
  | none => do
      let lamports ← initAccount env payer.key address
        CommitmentRecord.LEN w.lamports
      return (emptyRecord, lamports)

/- `record_commitment`: once per wallet and identity. -/
def recordCommitment
    (env : Env)
    (w : World)
    (payer : Signer)
    (vowState : Pubkey) :
    Result World := do
  let idnft ← loadVow w vowState
  let address := Pubkey.commitment idnft.owner
  let gate := Pubkey.crCommit address vowState
  let loaded ← loadOrInitRecord env w payer address
  require (w.gates.lookup gate = none) .accountAlreadyInUse
  let lamports ← initAccount env payer.key gate CrGate.LEN
    loaded.2
  let lock ← lockDuration idnft.stakeClass
  let lockDays := (lock.quot 86400).toUnsigned 64
  let record := { loaded.1 with
    wallet := idnft.owner
    totalXnftsMinted :=
      loaded.1.totalXnftsMinted.saturatingAdd 1
    totalXntCommitted :=
      loaded.1.totalXntCommitted.saturatingAdd
        idnft.principalLamports
    highestClassEver :=
      if loaded.1.highestClassEver < idnft.stakeClass then
        idnft.stakeClass
      else loaded.1.highestClassEver
    totalCommitmentDays :=
      loaded.1.totalCommitmentDays.saturatingAdd lockDays }
  let score ← computeScore record
  return { w with
    lamports := lamports
    records := w.records.insert address { record with
      commitmentScore := score
      lastUpdated := env.unixTimestamp }
    gates := w.gates.insert gate {} }

/- `record_fulfillment`: once per wallet and identity. -/
def recordFulfillment
    (env : Env)
    (w : World)
    (payer : Signer)
    (vowState : Pubkey) :
    Result World := do
  let xnft ← loadVow w vowState
  let address := Pubkey.commitment xnft.owner
  let gate := Pubkey.crFulfill address vowState
  let loaded ← okOr (w.records.lookup address)
    .accountNotInitialized
  require (w.gates.lookup gate = none) .accountAlreadyInUse
  let lamports ← initAccount env payer.key gate CrGate.LEN
    w.lamports
  require (xnft.matured = true) (.vow .notMatured)
  let record := { loaded with
    totalXntFulfilled :=
      loaded.totalXntFulfilled.saturatingAdd
        xnft.principalLamports }
  let score ← computeScore record
  return { w with
    lamports := lamports
    records := w.records.insert address { record with
      commitmentScore := score
      lastUpdated := env.unixTimestamp }
    gates := w.gates.insert gate {} }

end Vow
