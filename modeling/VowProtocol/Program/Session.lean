import VowProtocol.State.World

/-
  Session keys and the authority profiles that supply their
  defaults.

  Key definitions include:
    * `SessionParams`
    * `createSession`
    * `revokeSession`
    * `closeSession`
    * `resetDailyIfNeeded`
    * `AuthorityProfileParams`
    * `createAuthorityProfile`
    * `updateAuthorityProfile`
    * `closeAuthorityProfile`
-/

------------------------------------------------------------
-- Fixed Arrays
------------------------------------------------------------

namespace Vow

open MachineInt Fallible

/-
  Store program ids in an eight-slot array: the ids first,
  then the default key in the slots that are left.
-/
def fillProgramIds
    (ids : List Pubkey)
    (slots : Vector Pubkey 8) :
    Vector Pubkey 8 :=
  let stored := ids.zipIdx.foldl
    (fun slots entry =>
      slots.setIfInBounds entry.2 entry.1) slots
  (List.range' ids.length (8 - ids.length)).foldl
    (fun slots i => slots.setIfInBounds i .default) stored

/- Overwrite a prefix of the metadata field. -/
def copyMetadataUri
    (uri : List U8)
    (field : Vector U8 128) :
    Vector U8 128 :=
  (uri.take 128).zipIdx.foldl
    (fun field entry =>
      field.setIfInBounds entry.2 entry.1) field

end Vow

------------------------------------------------------------
-- Session Creation
------------------------------------------------------------

namespace Vow

open MachineInt Fallible

structure SessionParams where
  expiryTs : I64
  dailyLimit : U64
  lifetimeLimit : U64
  velocityLimit : U32
  deriving DecidableEq

/-
  The limits of a new session. A zero parameter inherits the
  profile's default; the velocity limit has none.
-/
def sessionLimits
    (env : Env)
    (owner : Signer)
    (profile : Option AuthorityProfile)
    (params : SessionParams) :
    Result SessionParams :=
  match profile with
  | none => .ok params
  | some profile => do
      require (profile.wallet = owner.key)
        (.vow .unauthorized)
      let defaultExpiry := env.unixTimestamp.checkedAdd
        (Signed.clamp 63
          ((profile.defaultExpiryDays.val : Int) * 86400))
      let expiry ←
        if params.expiryTs = 0 then
          okOr defaultExpiry .panicked
        else
          .ok params.expiryTs
      return {
        expiryTs := expiry
        dailyLimit :=
          if params.dailyLimit = 0 then
            profile.defaultDailyLimit
          else params.dailyLimit
        lifetimeLimit :=
          if params.lifetimeLimit = 0 then
            profile.defaultLifetimeLimit
          else params.lifetimeLimit
        velocityLimit :=
          if params.velocityLimit = 0 then 0
          else params.velocityLimit }

/- The optional profile account of `createSession`. -/
def loadProfile
    (w : World)
    (address : Option Pubkey) :
    Result (Option AuthorityProfile) :=
  match address with
  | none => .ok none
  | some address => do
      let profile ← okOr (w.profiles.lookup address)
        .accountNotInitialized
      return some profile

/- Accounts and arguments of `create_session`. -/
structure CreateSession where
  vowState : Pubkey
  authorityProfile : Option Pubkey
  owner : Signer
  sessionKey : Pubkey
  allowedProgramIds : List Pubkey
  params : SessionParams
  sessionIndex : U32

/- `create_session`: the owner opens a session slot. -/
def createSession
    (env : Env)
    (w : World)
    (ix : CreateSession) :
    Result World := do
  let _ ← loadConfig w
  let vow ← loadVowAsOwner w ix.vowState ix.owner
  let address := Pubkey.session ix.vowState ix.sessionIndex
  require (w.sessions.lookup address = none)
    .accountAlreadyInUse
  let lamports ← initAccount env ix.owner.key address
    SessionAccount.LEN w.lamports
  let profile ← loadProfile w ix.authorityProfile
  require (ix.allowedProgramIds.length ≤ 8)
    (.vow .tooManyProgramIds)
  require (ix.sessionKey ≠ .default) (.vow .sessionInactive)
  require (vow.activeStake = true) (.vow .identityInactive)
  let limits ← sessionLimits env ix.owner profile ix.params
  let sessionNonce ← okOr (vow.sessionNonce.checkedAdd 1)
    (.vow .mathOverflow)
  return { w with
    lamports := lamports
    vows := w.vows.insert ix.vowState
      { vow with sessionNonce := sessionNonce }
    sessions := w.sessions.insert address
      { vowState := ix.vowState
        sessionKey := ix.sessionKey
        allowedProgramIds :=
          fillProgramIds ix.allowedProgramIds
            (Vector.replicate 8 .default)
        programCount :=
          Unsigned.ofNat 8 ix.allowedProgramIds.length
        sessionIndex := ix.sessionIndex
        creationNonce := vow.sessionNonce
        startTs := env.unixTimestamp
        expiryTs := limits.expiryTs
        dailyLimit := limits.dailyLimit
        lifetimeLimit := limits.lifetimeLimit
        velocityLimit := limits.velocityLimit
        spentToday := 0
        spentTotal := 0
        txCountToday := 0
        lastResetDay := env.unixTimestamp.quot 86400
        active := true } }

end Vow

------------------------------------------------------------
-- Revocation And Closing
------------------------------------------------------------

namespace Vow

open MachineInt Fallible

/- `revoke_session`: the owner deactivates a session. -/
def revokeSession
    (w : World)
    (owner : Signer)
    (vowState sessionAccount : Pubkey) :
    Result World := do
  let _ ← loadVowAsOwner w vowState owner
  let session ← loadSession w sessionAccount vowState
  return { w with
    sessions := w.sessions.insert sessionAccount
      { session with active := false } }

/- The conditions under which a session may be closed. -/
def closeEligible
    (now : I64)
    (idnft : VowState)
    (session : SessionAccount) :
    Bool :=
  let expired :=
    decide (0 < session.expiryTs ∧ session.expiryTs ≤ now)
  let inactive := !session.active
  let invalidated :=
    decide (session.startTs ≤ idnft.sessionsInvalidatedAt)
  let identityUnstaked := !idnft.activeStake
  expired || inactive || invalidated || identityUnstaked

/- `close_session`: reclaim the rent of a dead session. -/
def closeSession
    (env : Env)
    (w : World)
    (owner : Signer)
    (vowState sessionAccount : Pubkey) :
    Result World := do
  let vow ← loadVowAsOwner w vowState owner
  let session ← loadSession w sessionAccount vowState
  require
    (closeEligible env.unixTimestamp vow session = true)
    (.vow .sessionInactive)
  return { w with
    lamports :=
      closeAccount sessionAccount owner.key w.lamports
    sessions := w.sessions.erase sessionAccount }

/- Start a new day: clear the daily counters once. -/
def resetDailyIfNeeded
    (now : I64)
    (session : SessionAccount) :
    SessionAccount :=
  let currentDay := now.quot 86400
  if session.lastResetDay < currentDay then
    { session with
      spentToday := 0
      txCountToday := 0
      lastResetDay := currentDay }
  else
    session

end Vow

------------------------------------------------------------
-- Authority Profiles
------------------------------------------------------------

namespace Vow

open MachineInt Fallible

structure AuthorityProfileParams where
  defaultDailyLimit : U64
  defaultLifetimeLimit : U64
  defaultExpiryDays : U32
  defaultAllowedProgramIds : List Pubkey
  metadataUri : List U8

/- `create_authority_profile`. -/
def createAuthorityProfile
    (env : Env)
    (w : World)
    (wallet : Signer)
    (profileId : Vector U8 8)
    (params : AuthorityProfileParams) :
    Result World := do
  let address := Pubkey.authorityProfile wallet.key profileId
  require (w.profiles.lookup address = none)
    .accountAlreadyInUse
  let lamports ← initAccount env wallet.key address
    AuthorityProfile.LEN w.lamports
  require (params.defaultAllowedProgramIds.length ≤ 8)
    (.vow .tooManyProgramIds)
  require (params.metadataUri.length ≤ 128)
    (.vow .tooManyProgramIds)
  return { w with
    lamports := lamports
    profiles := w.profiles.insert address
      { wallet := wallet.key
        profileId := profileId
        defaultDailyLimit := params.defaultDailyLimit
        defaultLifetimeLimit := params.defaultLifetimeLimit
        defaultExpiryDays := params.defaultExpiryDays
        defaultAllowedProgramIds :=
          fillProgramIds params.defaultAllowedProgramIds
            (Vector.replicate 8 .default)
        programCount := Unsigned.ofNat 8
          params.defaultAllowedProgramIds.length
        metadataUri := copyMetadataUri params.metadataUri
          (Vector.replicate 128 0)
        uriLen := Unsigned.ofNat 8
          (min params.metadataUri.length 128)
        createdAt := env.unixTimestamp } }

/-
  The profile at an address, under the seeds constraint
  `["authority_profile", wallet, profile_id]` and
  `has_one = wallet`.
-/
def loadProfileAsWallet
    (w : World)
    (address : Pubkey)
    (wallet : Signer) :
    Result AuthorityProfile := do
  let profile ← okOr (w.profiles.lookup address)
    .accountNotInitialized
  require
    (address =
      .authorityProfile wallet.key profile.profileId)
    .constraintSeeds
  require (profile.wallet = wallet.key) (.vow .unauthorized)
  return profile

/- `update_authority_profile`. -/
def updateAuthorityProfile
    (w : World)
    (wallet : Signer)
    (address : Pubkey)
    (params : AuthorityProfileParams) :
    Result World := do
  let profile ← loadProfileAsWallet w address wallet
  require (params.defaultAllowedProgramIds.length ≤ 8)
    (.vow .tooManyProgramIds)
  let uriChanged := !params.metadataUri.isEmpty
  return { w with
    profiles := w.profiles.insert address { profile with
      defaultDailyLimit := params.defaultDailyLimit
      defaultLifetimeLimit := params.defaultLifetimeLimit
      defaultExpiryDays := params.defaultExpiryDays
      defaultAllowedProgramIds :=
        fillProgramIds params.defaultAllowedProgramIds
          profile.defaultAllowedProgramIds
      programCount := Unsigned.ofNat 8
        params.defaultAllowedProgramIds.length
      metadataUri :=
        if uriChanged then
          copyMetadataUri params.metadataUri
            profile.metadataUri
        else profile.metadataUri
      uriLen :=
        if uriChanged then
          Unsigned.ofNat 8
            (min params.metadataUri.length 128)
        else profile.uriLen } }

/- `close_authority_profile`. -/
def closeAuthorityProfile
    (w : World)
    (wallet : Signer)
    (address : Pubkey) :
    Result World := do
  let _ ← loadProfileAsWallet w address wallet
  return { w with
    lamports := closeAccount address wallet.key w.lamports
    profiles := w.profiles.erase address }

end Vow
