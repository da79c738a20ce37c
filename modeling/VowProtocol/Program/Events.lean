import VowProtocol.Program.Instruction

/-
  The events that the instructions emit.

  An event is computed from the same accounts, arguments and
  intermediate values as the handler's own result. A failed
  instruction reverts and leaves no event.

  Key definitions include:
    * `Event`
    * `maturedEvents`
    * `harvestReport`
    * `Instruction.events`
    * `World.log`
-/

------------------------------------------------------------
-- Events
------------------------------------------------------------

namespace Vow

open MachineInt Fallible

/- `YieldMode::to_u8`. -/
def YieldMode.toU8 : YieldMode → U8
| .compound => 0
| .hybrid => 1
| .treasury => 2

inductive Event where
  | protocolInitialized (admin merkleTree : Pubkey)
  | vowMinted
      (assetId owner : Pubkey) (stakeClass : U8)
      (stakeLamports : U64) (shares : U128)
      (unlockAt : I64)
  | vowMatured (assetId owner : Pubkey) (stakeClass : U8)
  | vowUnstakeBegun
      (assetId owner : Pubkey) (lamportsOwed : U64)
  | vowUnstaked
      (assetId owner : Pubkey) (lamportsReturned : U64)
  | vowStakeActivated
      (assetId owner : Pubkey) (newClass : U8)
      (stakeLamports : U64) (shares : U128)
      (unlockAt : I64)
  | harvested
      (assetId owner : Pubkey) (gain : I64)
      (yieldCredited : U64) (sharesBurned : U128)
  | yieldWithdrawn (assetId owner : Pubkey) (amount : U64)
  | yieldDeposited
      (assetId depositor : Pubkey) (amount : U64)
  | yieldSpent
      (assetId sessionKey programId : Pubkey)
      (amount : U64) (destination : Pubkey)
  | sessionCreated
      (vowState sessionKey : Pubkey) (expiryTs : I64)
      (creationNonce : U64)
  | sessionRevoked (vowState sessionKey : Pubkey)
  | sharePriceUpdated
      (oldPrice newPrice : U128) (poolLamports : U64)
      (totalShares : U128)
  | appRegistered (programId : Pubkey)
  | appBlocked (programId : Pubkey)
  | yieldModeUpdated
      (assetId : Pubkey) (oldMode newMode : U8)
  | stakeAdded
      (assetId owner : Pubkey)
      (lamportsAdded newPrincipal : U64)
      (oldClass newClass : U8) (newUnlockAt : I64)
  deriving DecidableEq

end Vow

------------------------------------------------------------
-- Stake Events
------------------------------------------------------------

namespace Vow

open MachineInt Fallible

def mintVowEvents
    (env : Env)
    (w : World)
    (owner : Signer)
    (stakeLamports : U64) :
    Result (List Event) := do
  let config ← loadConfig w
  let stakeClass ← classForStake stakeLamports
  let shares ←
    sharesForDeposit stakeLamports config.currentSharePrice
  let lock ← lockDuration stakeClass
  let unlockAt ← okOr (env.unixTimestamp.checkedAdd lock)
    .panicked
  return [.vowMinted (.vowAsset config.totalMinted) owner.key
    stakeClass stakeLamports shares unlockAt]

/- The event of the maturity check, when it sets the flag. -/
def maturedEvents
    (now : I64)
    (idnft : VowState) :
    List Event :=
  if idnft.matured = false ∧ idnft.unlockAt ≤ now then
    [.vowMatured idnft.assetId idnft.owner idnft.stakeClass]
  else
    []

/- The new class is reported even when the lock is kept. -/
def addStakeEvents
    (env : Env)
    (w : World)
    (owner : Signer)
    (vowState : Pubkey)
    (lamportsToAdd : U64) :
    Result (List Event) := do
  let config ← loadConfig w
  let loaded ← loadVowAsOwner w vowState owner
  let settled ← settleIdnft loaded config
  let newPrincipal ← okOr
    (settled.principalLamports.checkedAdd lamportsToAdd)
    (.vow .mathOverflow)
  let newClass ← classForStake newPrincipal
  let upgraded ←
    upgradeClass env.unixTimestamp newClass settled
  return [.stakeAdded upgraded.assetId upgraded.owner
    lamportsToAdd newPrincipal settled.stakeClass newClass
    upgraded.unlockAt]

def updateYieldModeEvents
    (w : World)
    (owner : Signer)
    (vowState : Pubkey)
    (newMode : YieldMode) :
    Result (List Event) := do
  let loaded ← loadVowAsOwner w vowState owner
  return [.yieldModeUpdated loaded.assetId
    loaded.yieldMode.toU8 newMode.toU8]

def beginUnstakeEvents
    (env : Env)
    (w : World)
    (owner : Signer)
    (vowState : Pubkey) :
    Result (List Event) := do
  let config ← loadConfig w
  let loaded ← loadVowAsOwner w vowState owner
  let idnft ← settleIdnft
    (matureIfDue env.unixTimestamp loaded) config
  let value ←
    positionValue idnft.shares config.currentSharePrice
  let lamportsOwed ← okOr
    ((value.cast 64).checkedAdd idnft.yieldBalance)
    (.vow .mathOverflow)
  return maturedEvents env.unixTimestamp loaded ++
    [.vowUnstakeBegun idnft.assetId idnft.owner
      lamportsOwed]

def completeUnstakeEvents
    (w : World)
    (owner : Signer)
    (vowState : Pubkey) :
    Result (List Event) := do
  let config ← loadConfig w
  let idnft ← loadVowAsOwner w vowState owner
  let escrow ← okOr (w.escrows.lookup (.unstake vowState))
    .accountNotInitialized
  return [.vowUnstaked idnft.assetId owner.key
    (payAmount escrow.lamportsOwed w.reserve
      config.totalPendingUnstake)]

def activateStakeEvents
    (env : Env)
    (w : World)
    (owner : Signer)
    (vowState : Pubkey)
    (stakeLamports : U64) :
    Result (List Event) := do
  let config ← loadConfig w
  let loaded ← loadVowAsOwner w vowState owner
  let newClass ← classForStake stakeLamports
  let newShares ←
    sharesForDeposit stakeLamports config.currentSharePrice
  let lock ← lockDuration newClass
  let unlockAt ← okOr (env.unixTimestamp.checkedAdd lock)
    .panicked
  return [.vowStakeActivated loaded.assetId loaded.owner
    newClass stakeLamports newShares unlockAt]

end Vow

------------------------------------------------------------
-- Yield Events
------------------------------------------------------------

namespace Vow

open MachineInt Fallible

/- The yield credited and the shares burned by a harvest. -/
def harvestReport
    (idnft : VowState)
    (config : ProtocolConfig) :
    Result (U64 × U128) :=
  let gain := idnft.accruedGain
  let gainU64 := gain.toUnsigned 64
  match idnft.yieldMode with
  | .compound => .ok (0, 0)
  | .treasury =>
      if gain ≤ 0 then .ok (0, 0)
      else do
        let burned ←
          sharesToBurn gainU64 config.currentSharePrice
        return (gainU64, burned)
  | .hybrid =>
      if gain ≤ 0 then .ok (0, 0)
      else do
        let treasuryAmount :=
          Unsigned.ofNat 64 (gainU64.val / 2)
        let burned ←
          sharesToBurn treasuryAmount
            config.currentSharePrice
        return (treasuryAmount, burned)

def harvestEvents
    (env : Env)
    (w : World)
    (vowState : Pubkey) :
    Result (List Event) := do
  let config ← loadConfig w
  let loaded ← loadVow w vowState
  let settled ← settleIdnft
    (matureIfDue env.unixTimestamp loaded) config
  let report ← harvestReport settled config
  return maturedEvents env.unixTimestamp loaded ++
    [.harvested settled.assetId settled.owner
      settled.accruedGain report.1 report.2]

def depositYieldBalanceEvents
    (w : World)
    (depositor : Signer)
    (vowState : Pubkey)
    (amount : U64) :
    Result (List Event) := do
  let vow ← loadVow w vowState
  return [.yieldDeposited vow.assetId depositor.key amount]

def withdrawYieldEvents
    (w : World)
    (owner : Signer)
    (vowState : Pubkey)
    (amount : Option U64) :
    Result (List Event) := do
  let idnft ← loadVowAsOwner w vowState owner
  return [.yieldWithdrawn idnft.assetId owner.key
    (amount.getD idnft.yieldBalance)]

def yieldSpendEvents
    (w : World)
    (ix : YieldSpend) :
    Result (List Event) := do
  let idnft ← loadVow w ix.vowState
  let session ← loadSession w ix.sessionAccount ix.vowState
  return [.yieldSpent idnft.assetId session.sessionKey
    ix.callingProgram ix.amount ix.destination]

end Vow

------------------------------------------------------------
-- Other Events
------------------------------------------------------------

namespace Vow

open MachineInt Fallible

def createSessionEvents
    (env : Env)
    (w : World)
    (ix : CreateSession) :
    Result (List Event) := do
  let vow ← loadVowAsOwner w ix.vowState ix.owner
  let profile ← loadProfile w ix.authorityProfile
  let limits ← sessionLimits env ix.owner profile ix.params
  return [.sessionCreated ix.vowState ix.sessionKey
    limits.expiryTs vow.sessionNonce]

def revokeSessionEvents
    (w : World)
    (vowState sessionAccount : Pubkey) :
    Result (List Event) := do
  let session ← loadSession w sessionAccount vowState
  return [.sessionRevoked vowState session.sessionKey]

/- Without a pool the crank returns before its event. -/
def updateSharePriceEvents
    (w : World)
    (splPool : AccountInfo) :
    Result (List Event) := do
  let config ← loadConfig w
  if config.splStakePool = .default then
    return []
  else
    let totalLamports := poolTotalLamports splPool
    let supply := poolTokenSupply splPool
    let newPrice ←
      if 0 < supply then
        poolSharePrice totalLamports supply
      else
        .ok config.currentSharePrice
    return [.sharePriceUpdated config.currentSharePrice
      newPrice totalLamports config.totalShares]

def blockAppEvents
    (w : World)
    (address : Pubkey) :
    Result (List Event) := do
  let registry ← okOr (w.apps.lookup address)
    .accountNotInitialized
  return [.appBlocked registry.programId]

/- The events of an instruction, in the order of emission. -/
def Instruction.events
    (env : Env)
    (w : World) :
    Instruction → Result (List Event)
| .initializeConfig admin _ _ _ =>
    .ok [.protocolInitialized admin.key .default]
| .registerApp _ programId => .ok [.appRegistered programId]
| .blockApp _ appRegistry => blockAppEvents w appRegistry
| .updateSharePrice splPool =>
    updateSharePriceEvents w splPool
| .addStake owner vowState lamportsToAdd =>
    addStakeEvents env w owner vowState lamportsToAdd
| .mintVow owner stakeLamports _ =>
    mintVowEvents env w owner stakeLamports
| .updateYieldMode owner vowState newMode =>
    updateYieldModeEvents w owner vowState newMode
| .beginUnstake owner vowState =>
    beginUnstakeEvents env w owner vowState
| .completeUnstake owner vowState =>
    completeUnstakeEvents w owner vowState
| .activateStake owner vowState stakeLamports _ =>
    activateStakeEvents env w owner vowState stakeLamports
| .harvest vowState => harvestEvents env w vowState
| .createSession ix => createSessionEvents env w ix
| .revokeSession _ vowState sessionAccount =>
    revokeSessionEvents w vowState sessionAccount
| .depositYieldBalance depositor vowState amount =>
    depositYieldBalanceEvents w depositor vowState amount
| .yieldSpend ix => yieldSpendEvents w ix
| .withdrawYield owner vowState amount =>
    withdrawYieldEvents w owner vowState amount
| _ => .ok []

end Vow

------------------------------------------------------------
-- The Log Of A Run
------------------------------------------------------------

namespace Vow

open Transition

/- The events of a successful step. -/
def eventsOf
    (o : Occurrence World Step) :
    List Event :=
  match o.action.action with
  | .instruction ix =>
      (ix.events o.action.env o.before).toOption.getD []
  | _ => []

/- The events of a run, oldest first. -/
def World.log
    (w : World)
    (steps : List Step) :
    List Event :=
  (w.trace steps).flatMap eventsOf

example :
    (sampleChain.log [sampleInit,
      sampleStep 7 0
        (.mintVow sampleOwner 5000000000 .treasury)]).length =
      2 := by
  decide +kernel

end Vow
