import VowProtocol.Library.AccountMap
import VowProtocol.Library.MachineInt

/-
  The account data of the Vow program.

  Addresses are symbolic: a program-derived address is its
  seeds, so derivation is injective and two kinds of account
  never share an address. Stored bumps are determined by the
  seeds and are left out.

  Key definitions include:
    * `Pubkey`
    * `ProtocolConfig`
    * `VowState`
    * `UnstakeEscrow`
    * `SessionAccount`
    * `AuthorityProfile`
    * `AppRegistry`
    * `CommitmentRecord`
-/

------------------------------------------------------------
-- Integers And Addresses
------------------------------------------------------------

namespace Vow

open MachineInt

abbrev U8 := Unsigned 8
abbrev U32 := Unsigned 32
abbrev U64 := Unsigned 64
abbrev U128 := Unsigned 128
abbrev I64 := Signed 63

/-
  Addresses. `key n` is an address that is not derived from
  this program, read as a 256-bit number; the others are the
  program-derived addresses under their seeds.
-/
inductive Pubkey where
  | key (n : Nat)
  | config
  | reserve
  | vowAsset (nonce : U64)
  | vow (assetId : Pubkey)
  | unstake (vowState : Pubkey)
  | session (vowState : Pubkey) (sessionIndex : U32)
  | app (programId : Pubkey)
  | authorityProfile
      (wallet : Pubkey) (profileId : Vector U8 8)
  | commitment (wallet : Pubkey)
  | crCommit (record vowState : Pubkey)
  | crFulfill (record vowState : Pubkey)
  | poolWithdrawAuthority (pool : Pubkey)
  deriving DecidableEq

/- `Pubkey::default()`, which is also the System Program. -/
def Pubkey.default : Pubkey := .key 0

instance : Inhabited Pubkey := ⟨Pubkey.default⟩

/-
  A transaction signer. No address derived from this program
  can sign one of its instructions: the program signs for its
  reserve only in calls to other programs.
-/
structure Signer where
  id : Nat
  deriving DecidableEq

/- The address of a signer. -/
def Signer.key
    (signer : Signer) :
    Pubkey :=
  .key signer.id

end Vow

------------------------------------------------------------
-- Constants
------------------------------------------------------------

namespace Vow

open MachineInt

/- Scale of the share price. -/
def SHARE_PRECISION : U128 := 1000000000000

def LAMPORTS_PER_XNT : U64 := 1000000000

/- `SPL_STAKE_POOL_PROGRAM_ID`, decoded from base 58. -/
def SPL_STAKE_POOL_PROGRAM_ID : Pubkey :=
  .key 3521700735357263543031109868311805048355375659887143568774686427789001914039

/- Lock durations per class in seconds. -/
def LOCK_SECONDS : List I64 :=
  [30 * 86400, 90 * 86400, 180 * 86400, 365 * 86400,
    547 * 86400, 730 * 86400, 1095 * 86400,
    1825 * 86400].map (Signed.clamp 63)

end Vow

------------------------------------------------------------
-- Protocol Configuration
------------------------------------------------------------

namespace Vow

structure ProtocolConfig where
  admin : Pubkey
  currentSharePrice : U128
  totalShares : U128
  totalYieldClaims : U64
  lastPoolLamports : U64
  totalMinted : U64
  merkleTree : Pubkey
  totalPendingUnstake : U64
  splStakePool : Pubkey
  splPoolMint : Pubkey
  deriving DecidableEq

/- Account sizes in bytes, discriminator included. -/
def ProtocolConfig.LEN : Nat :=
  8 + 32 + 16 + 16 + 8 + 8 + 8 + 32 + 8 + 32 + 32 + 1 + 1

end Vow

------------------------------------------------------------
-- Identities And Escrows
------------------------------------------------------------

namespace Vow

inductive YieldMode where
  | compound
  | hybrid
  | treasury
  deriving DecidableEq

/-
  The soulbound identity. It is Active while `activeStake`
  holds and Dormant otherwise.
-/
structure VowState where
  assetId : Pubkey
  owner : Pubkey
  stakeClass : U8
  nonce : U64
  principalLamports : U64
  shares : U128
  lastSharePrice : U128
  accruedGain : I64
  yieldMode : YieldMode
  yieldBalance : U64
  totalHarvested : U64
  createdAt : I64
  unlockAt : I64
  matured : Bool
  sessionsInvalidatedAt : I64
  activeStake : Bool
  sessionNonce : U64
  firstStakedAt : I64
  currentStakeStartedAt : I64
  totalCommitments : U32
  totalFulfilled : U32
  cumulativeStakeDays : U64
  highestClassEver : U8
  deriving DecidableEq

def VowState.LEN : Nat :=
  8 + 32 + 32 + 1 + 8 + 8 + 16 + 16 + 8 + 1 + 8 + 8 + 8 +
    8 + 1 + 8 + 1 + 8 + 8 + 8 + 4 + 4 + 8 + 1 + 1

/- A pending payout, opened by `beginUnstake`. -/
structure UnstakeEscrow where
  vowState : Pubkey
  owner : Pubkey
  lamportsOwed : U64
  deactivationEpoch : U64
  deriving DecidableEq

def UnstakeEscrow.LEN : Nat :=
  8 + 32 + 32 + 8 + 8 + 1

end Vow

------------------------------------------------------------
-- Sessions And Profiles
------------------------------------------------------------

namespace Vow

structure SessionAccount where
  vowState : Pubkey
  sessionKey : Pubkey
  allowedProgramIds : Vector Pubkey 8
  programCount : U8
  sessionIndex : U32
  creationNonce : U64
  startTs : I64
  expiryTs : I64
  dailyLimit : U64
  lifetimeLimit : U64
  velocityLimit : U32
  spentToday : U64
  spentTotal : U64
  txCountToday : U32
  lastResetDay : I64
  active : Bool
  deriving DecidableEq

def SessionAccount.LEN : Nat :=
  8 + 32 + 32 + 32 * 8 + 1 + 4 + 8 + 8 + 8 + 8 + 8 + 4 +
    8 + 8 + 4 + 8 + 1 + 1

structure AuthorityProfile where
  wallet : Pubkey
  profileId : Vector U8 8
  defaultDailyLimit : U64
  defaultLifetimeLimit : U64
  defaultExpiryDays : U32
  defaultAllowedProgramIds : Vector Pubkey 8
  programCount : U8
  metadataUri : Vector U8 128
  uriLen : U8
  createdAt : I64
  deriving DecidableEq

def AuthorityProfile.LEN : Nat :=
  8 + 32 + 8 + 8 + 8 + 4 + 32 * 8 + 1 + 128 + 1 + 8 + 1

end Vow

------------------------------------------------------------
-- Registries And Records
------------------------------------------------------------

namespace Vow

structure AppRegistry where
  programId : Pubkey
  verified : Bool
  blocked : Bool
  registeredAt : I64
  deriving DecidableEq

def AppRegistry.LEN : Nat :=
  8 + 32 + 1 + 1 + 8 + 1

structure CommitmentRecord where
  wallet : Pubkey
  totalXnftsMinted : U32
  totalXntCommitted : U64
  totalXntFulfilled : U64
  highestClassEver : U8
  totalCommitmentDays : U64
  commitmentScore : U32
  lastUpdated : I64
  deriving DecidableEq

def CommitmentRecord.LEN : Nat :=
  8 + 32 + 4 + 8 + 8 + 1 + 8 + 4 + 8 + 1

/- One-time gate of the commitment record instructions. -/
structure CrGate where
  deriving DecidableEq

def CrGate.LEN : Nat :=
  8 + 1

end Vow
