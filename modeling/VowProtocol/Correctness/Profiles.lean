import VowProtocol.Correctness.Registries
import VowProtocol.Correctness.Whitelist

/-
  Authority profiles as a store of plain profiles.

  A profile account keeps its programs and its metadata in
  arrays of fixed length beside a count, and an update writes
  over what is there. To a reader of the account this is a
  profile with two lists: what the last creation and the
  updates since then say, whatever the arrays held before.

  Key definitions include:
    * `Profile`
    * `Mirrors`
    * `reviseProfile`
    * `profileOf`
    * `Resolves`

  Key theorems include:
    * `execute_profilesKept`
    * `exec_mirrored`
    * `profiles_mirrored`
-/

------------------------------------------------------------
-- Plain Profiles
------------------------------------------------------------

namespace Vow

open MachineInt Fallible Transition FixedArray

/- A profile as its owner thinks of it. -/
structure Profile where
  wallet : Pubkey
  profileId : Vector U8 8
  dailyLimit : U64
  lifetimeLimit : U64
  expiryDays : U32
  programs : List Pubkey
  uri : List U8
  createdAt : I64

/-
  The account stores the profile. Unused program slots are
  blank; what lies beyond the end of the metadata is not
  determined.
-/
structure Mirrors
    (account : AuthorityProfile)
    (profile : Profile) :
    Prop where
  wallet : account.wallet = profile.wallet
  profileId : account.profileId = profile.profileId
  dailyLimit : account.defaultDailyLimit = profile.dailyLimit
  lifetimeLimit :
    account.defaultLifetimeLimit = profile.lifetimeLimit
  expiryDays : account.defaultExpiryDays = profile.expiryDays
  createdAt : account.createdAt = profile.createdAt
  programCount :
    account.programCount.val = profile.programs.length
  programsFit : profile.programs.length ≤ 8
  programs :
    account.defaultAllowedProgramIds.toList =
      profile.programs ++
        List.replicate (8 - profile.programs.length) .default
  uriLen : account.uriLen.val = profile.uri.length
  uriFits : profile.uri.length ≤ 128
  uri :
    account.metadataUri.toList.take account.uriLen.val =
      profile.uri

/- What a creation asks for. -/
def Profile.create
    (env : Env)
    (wallet : Signer)
    (profileId : Vector U8 8)
    (params : AuthorityProfileParams) :
    Profile where
  wallet := wallet.key
  profileId := profileId
  dailyLimit := params.defaultDailyLimit
  lifetimeLimit := params.defaultLifetimeLimit
  expiryDays := params.defaultExpiryDays
  programs := params.defaultAllowedProgramIds
  uri := params.metadataUri
  createdAt := env.unixTimestamp

/-
  What an update asks for. No metadata keeps the old one, and
  metadata that is too long is cut.
-/
def Profile.update
    (profile : Profile)
    (params : AuthorityProfileParams) :
    Profile :=
  { profile with
    dailyLimit := params.defaultDailyLimit
    lifetimeLimit := params.defaultLifetimeLimit
    expiryDays := params.defaultExpiryDays
    programs := params.defaultAllowedProgramIds
    uri :=
      if params.metadataUri.isEmpty then profile.uri
      else params.metadataUri.take 128 }

/- The metadata field after a write that fits. -/
theorem copyMetadataUri_take
    (uri : List U8)
    (field : Vector U8 128) :
    (copyMetadataUri uri field).toList.take
        (min uri.length 128) =
      uri.take 128 := by
  have hLength : (uri.take 128).length = min uri.length 128 := by
    rw [List.length_take, Nat.min_comm]
  have hWrite :
      (copyMetadataUri uri field).toList =
        uri.take 128 ++
          field.toList.drop (min uri.length 128) := by
    have hRoom : 0 + (uri.take 128).length ≤ 128 := by
      rw [hLength]
      omega
    have hStored := @toList_write U8 128 _ 0 field hRoom
    rw [hLength, List.take_zero, List.nil_append,
      Nat.zero_add] at hStored
    exact hStored
  rw [hWrite, ← hLength, List.take_left]

theorem programCount_val
    {ids : List Pubkey}
    (hFits : ids.length ≤ 8) :
    (Unsigned.ofNat 8 ids.length).val = ids.length := by
  rw [Unsigned.val_ofNat]
  omega

theorem uriLen_val
    (uri : List U8) :
    (Unsigned.ofNat 8 (min uri.length 128)).val =
      min uri.length 128 := by
  rw [Unsigned.val_ofNat]
  omega

end Vow

------------------------------------------------------------
-- Handlers
------------------------------------------------------------

namespace Vow

open MachineInt Fallible Transition FixedArray

/- A creation fills an empty account with its profile. -/
theorem createAuthorityProfile_mirrors
    {env : Env}
    {w w' : World}
    {wallet : Signer}
    {profileId : Vector U8 8}
    {params : AuthorityProfileParams}
    (hOk :
      createAuthorityProfile env w wallet profileId params =
        .ok w') :
    ∃ account,
      Mirrors account
        (Profile.create env wallet profileId params) ∧
      w'.profiles =
        w.profiles.insert
          (.authorityProfile wallet.key profileId)
          account := by
  rcases createAuthorityProfile_ok hOk with ⟨call, hEq⟩
  have hUri := call.hUri
  subst hEq
  refine ⟨_, ⟨rfl, rfl, rfl, rfl, rfl, rfl, ?_,
    call.hPrograms, ?_, ?_, hUri, ?_⟩, rfl⟩
  · exact programCount_val call.hPrograms
  · exact fillProgramIds_toList _ call.hPrograms
  · dsimp only [Profile.create, openedProfile]
    rw [uriLen_val]
    omega
  · dsimp only [Profile.create, openedProfile]
    rw [uriLen_val, copyMetadataUri_take,
      List.take_of_length_le hUri]

/- An update revises the profile that the account stores. -/
theorem updateAuthorityProfile_mirrors
    {w w' : World}
    {wallet : Signer}
    {address : Pubkey}
    {params : AuthorityProfileParams}
    (hOk :
      updateAuthorityProfile w wallet address params =
        .ok w') :
    ∃ account account',
      w.profiles.lookup address = some account ∧
      (∀ profile, Mirrors account profile →
        Mirrors account' (profile.update params)) ∧
      w'.profiles = w.profiles.insert address account' := by
  rcases updateAuthorityProfile_ok hOk with ⟨call, hEq⟩
  have hPrograms := call.hPrograms
  subst hEq
  refine ⟨call.profile, _, call.hProfile, ?_, rfl⟩
  intro profile hMirrors
  refine ⟨hMirrors.wallet, hMirrors.profileId, rfl, rfl, rfl,
    hMirrors.createdAt, programCount_val hPrograms,
    hPrograms, fillProgramIds_toList _ hPrograms, ?_, ?_, ?_⟩
  · dsimp only [Profile.update, revisedProfile]
    cases params.metadataUri.isEmpty with
    | true => exact hMirrors.uriLen
    | false =>
        simp [Nat.min_comm]
  · dsimp only [Profile.update, revisedProfile]
    cases params.metadataUri.isEmpty with
    | true => exact hMirrors.uriFits
    | false => simp
  · dsimp only [Profile.update, revisedProfile]
    cases params.metadataUri.isEmpty with
    | true => exact hMirrors.uri
    | false =>
        simp only [Bool.not_false, if_true]
        rw [uriLen_val]
        exact copyMetadataUri_take _ _

theorem closeAuthorityProfile_profiles
    {w w' : World}
    {wallet : Signer}
    {address : Pubkey}
    (hOk :
      closeAuthorityProfile w wallet address = .ok w') :
    w'.profiles = w.profiles.erase address := by
  rcases closeAuthorityProfile_ok hOk with ⟨call, hEq⟩
  rw [hEq]

end Vow

------------------------------------------------------------
-- Other Instructions
------------------------------------------------------------

namespace Vow

open MachineInt Fallible

def Instruction.writesProfiles : Instruction → Bool
| .createAuthorityProfile _ _ _ => true
| .updateAuthorityProfile _ _ _ => true
| .closeAuthorityProfile _ _ => true
| _ => false

theorem adminAppAction_profiles
    {w w' : World}
    {admin : Signer}
    {address : Pubkey}
    {change : AppRegistry → AppRegistry}
    (hOk :
      adminAppAction w admin address change = .ok w') :
    w'.profiles = w.profiles := by
  rcases adminAppAction_ok hOk with ⟨call, hEq⟩
  rw [hEq]

/- All other instructions leave the profiles alone. -/
theorem execute_profilesKept
    {env : Env}
    {w w' : World}
    {ix : Instruction}
    (hOk : execute env w ix = .ok w')
    (hIx : ix.writesProfiles = false) :
    w'.profiles = w.profiles := by
  cases ix with
  | initializeConfig =>
      rcases initializeConfig_ok hOk with ⟨call, hEq⟩
      rw [hEq]
  | setAdmin =>
      rcases setAdmin_ok hOk with ⟨call, hEq⟩
      rw [hEq]
  | closeProtocolConfig =>
      rcases closeProtocolConfig_ok hOk with ⟨call, hEq⟩
      rw [hEq]
  | setMintCounter =>
      rcases setMintCounter_ok hOk with ⟨call, hEq⟩
      rw [hEq]
  | devSetSharePrice =>
      rcases devSetSharePrice_ok hOk with ⟨call, hEq⟩
      rw [hEq]
  | devFastUnlock =>
      rcases devFastUnlock_ok hOk with ⟨call, hEq⟩
      rw [hEq]
  | updateSharePrice =>
      rcases updateSharePrice_ok hOk with ⟨call, hEq⟩
      rw [hEq]
  | flushReserveToPool =>
      rcases flushReserveToPool_ok hOk with hEq | ⟨call, hEq⟩
      · rw [hEq]
      · rw [hEq]
        rfl
  | withdrawFromPool =>
      rcases withdrawFromPool_ok hOk with
        ⟨_, hEq⟩ | ⟨call, hEq⟩
      · rw [hEq]
      · rw [hEq]
        rfl
  | addStake =>
      rcases addStake_ok hOk with ⟨call, vow', _, hEq⟩
      rw [hEq]
  | mintVow =>
      rcases mintVow_ok hOk with ⟨call, hEq⟩
      rw [hEq]
  | updateYieldMode =>
      rcases updateYieldMode_ok hOk with ⟨call, hEq⟩
      rw [hEq]
  | beginUnstake =>
      rcases beginUnstake_ok hOk with ⟨call, hEq⟩
      rw [hEq]
  | completeUnstake =>
      rcases completeUnstake_eq_ok_iff.mp hOk with ⟨call, hEq⟩
      rw [hEq]
  | activateStake =>
      rcases activateStake_ok hOk with ⟨call, hEq⟩
      rw [hEq]
  | harvest =>
      rcases harvest_eq_ok_iff.mp hOk with
        ⟨call, vow', config', _, hEq⟩
      rw [hEq]
  | createSession =>
      rcases createSession_ok hOk with ⟨call, hEq⟩
      rw [hEq]
  | revokeSession =>
      rcases revokeSession_ok hOk with ⟨call, hEq⟩
      rw [hEq]
  | closeSession =>
      rcases closeSession_ok hOk with ⟨call, hEq⟩
      rw [hEq]
  | depositYieldBalance =>
      rcases depositYieldBalance_ok hOk with ⟨call, hEq⟩
      rw [hEq]
  | yieldSpend =>
      rcases yieldSpend_eq_ok_iff.mp hOk with ⟨call, hEq⟩
      rw [hEq]
  | withdrawYield =>
      rcases withdrawYield_ok hOk with ⟨call, hEq⟩
      rw [hEq]
  | registerApp payer programId =>
      rcases registerApp_ok hOk with ⟨call, hEq⟩
      rw [hEq]
  | verifyApp admin address =>
      exact adminAppAction_profiles hOk
  | blockApp admin address =>
      exact adminAppAction_profiles hOk
  | recordCommitment payer vowState =>
      rcases recordCommitment_ok hOk with ⟨call, hEq⟩
      rw [hEq]
  | recordFulfillment payer vowState =>
      rcases recordFulfillment_ok hOk with ⟨call, hEq⟩
      rw [hEq]
  | _ =>
      exact absurd hIx (by simp [Instruction.writesProfiles])

end Vow

------------------------------------------------------------
-- Runs
------------------------------------------------------------

namespace Vow

open MachineInt Fallible Transition

/- What a step says about the profile at the address. -/
def reviseProfile
    (address : Pubkey)
    (profile : Option Profile)
    (o : Occurrence World Step) :
    Option Profile :=
  match o.action.action with
  | .instruction
      (.createAuthorityProfile wallet profileId params) =>
      if address = .authorityProfile wallet.key profileId then
        some (Profile.create o.action.env wallet profileId
          params)
      else profile
  | .instruction
      (.updateAuthorityProfile _ updated params) =>
      if address = updated then
        profile.map fun profile => profile.update params
      else profile
  | .instruction (.closeAuthorityProfile _ closed) =>
      if address = closed then none
      else profile
  | _ => profile

/- What a history says about it. -/
def profileOf
    (address : Pubkey)
    (history : List (Occurrence World Step)) :
    Option Profile :=
  history.foldl (reviseProfile address) none

/- The account agrees with what was said about it. -/
def Mirrored
    (address : Pubkey)
    (profile : Option Profile)
    (w : World) :
    Prop :=
  Option.Rel Mirrors (w.profiles.lookup address) profile

/- Every step does to the account what it says. -/
theorem exec_mirrored
    {address : Pubkey}
    {profile : Option Profile}
    {w w' : World}
    {step : Step}
    (hMirrored : Mirrored address profile w)
    (hExec : step.exec w = some w') :
    Mirrored address
      (reviseProfile address profile ⟨w, step, w'⟩) w' := by
  unfold Mirrored at hMirrored ⊢
  rcases step with ⟨env, action⟩
  cases action with
  | instruction ix =>
      have hOk := Step.exec_instruction_iff.mp hExec
      cases ix with
      | createAuthorityProfile wallet profileId params =>
          rcases createAuthorityProfile_mirrors hOk with
            ⟨account, hCreated, hProfiles⟩
          unfold reviseProfile
          dsimp only
          rw [hProfiles, AccountMap.lookup_insert_eq]
          by_cases hHere :
              address = .authorityProfile wallet.key profileId
          · rw [if_pos hHere, if_pos hHere]
            exact .some hCreated
          · rw [if_neg hHere, if_neg hHere]
            exact hMirrored
      | updateAuthorityProfile wallet updated params =>
          rcases updateAuthorityProfile_mirrors hOk with
            ⟨account, account', hFound, hUpdates, hProfiles⟩
          unfold reviseProfile
          dsimp only
          rw [hProfiles, AccountMap.lookup_insert_eq]
          by_cases hHere : address = updated
          · rw [if_pos hHere, if_pos hHere]
            rw [hHere, hFound] at hMirrored
            cases hMirrored with
            | some hBefore =>
                exact .some (hUpdates _ hBefore)
          · rw [if_neg hHere, if_neg hHere]
            exact hMirrored
      | closeAuthorityProfile wallet closed =>
          have hProfiles := closeAuthorityProfile_profiles hOk
          unfold reviseProfile
          dsimp only
          rw [hProfiles, AccountMap.lookup_erase_eq]
          by_cases hHere : address = closed
          · rw [if_pos hHere, if_pos hHere]
            exact .none
          · rw [if_neg hHere, if_neg hHere]
            exact hMirrored
      | _ =>
          rw [execute_profilesKept hOk rfl]
          exact hMirrored
  | _ =>
      rw [← Option.some.inj hExec]
      exact hMirrored

theorem mirrored_run
    (lamports : Lamports)
    (steps : List Step)
    (address : Pubkey) :
    Mirrored address
      (profileOf address
        ((World.genesis lamports).trace steps))
      ((World.genesis lamports).run steps) := by
  have hInit :
      Mirrored address (profileOf address [])
        (World.genesis lamports) := by
    unfold Mirrored
    simp [World.genesis, profileOf]
  refine @trace_history_invariant World Step Step.exec
    (fun _ => True)
    (fun history w =>
      Mirrored address (profileOf address history) w)
    ?_ steps _ hInit (fun _ _ => trivial)
  intro history w step w' hBefore hExec _
  unfold profileOf at hBefore ⊢
  rw [List.foldl_append, List.foldl_cons, List.foldl_nil]
  exact exec_mirrored hBefore hExec

end Vow

------------------------------------------------------------
-- Sessions Under A Profile
------------------------------------------------------------

namespace Vow

open MachineInt Fallible Transition

/-
  The limits of a session whose zero parameters stand for the
  defaults of the profile. There is no default velocity.
-/
structure Resolves
    (now : I64)
    (profile : Profile)
    (params limits : SessionParams) :
    Prop where
  expiry :
    limits.expiryTs.val =
      if params.expiryTs = 0 then
        now.val + (profile.expiryDays.val : Int) * 86400
      else params.expiryTs.val
  daily :
    limits.dailyLimit =
      if params.dailyLimit = 0 then profile.dailyLimit
      else params.dailyLimit
  lifetime :
    limits.lifetimeLimit =
      if params.lifetimeLimit = 0 then profile.lifetimeLimit
      else params.lifetimeLimit
  velocity : limits.velocityLimit = params.velocityLimit

theorem sessionLimits_resolves
    {env : Env}
    {owner : Signer}
    {account : AuthorityProfile}
    {profile : Profile}
    {params limits : SessionParams}
    (hMirrors : Mirrors account profile)
    (hOk :
      sessionLimits env owner (some account) params =
        .ok limits) :
    profile.wallet = owner.key ∧
      Resolves env.unixTimestamp profile params limits := by
  have hVelocity :
      (if params.velocityLimit = 0 then 0
        else params.velocityLimit) = params.velocityLimit := by
    split
    · rename_i hZero
      exact hZero.symm
    · rfl
  unfold sessionLimits at hOk
  by_cases hZero : params.expiryTs = 0
  · simp only [if_pos hZero, bind_eq_ok_iff,
      require_eq_ok_iff, okOr_eq_ok_iff, pure_eq_ok_iff,
      exists_const, Signed.checkedAdd_eq_some_iff,
      Signed.val_clamp] at hOk
    rcases hOk with ⟨hWallet, expiry, hExpiry, hEq⟩
    subst hEq
    have hDays := account.defaultExpiryDays.isLt
    rw [hMirrors.wallet] at hWallet
    refine ⟨hWallet, ?_, ?_, ?_, hVelocity⟩
    · rw [if_pos hZero, ← hMirrors.expiryDays, hExpiry]
      omega
    · rw [← hMirrors.dailyLimit]
    · rw [← hMirrors.lifetimeLimit]
  · simp only [if_neg hZero, bind_eq_ok_iff,
      require_eq_ok_iff, pure_eq_ok_iff, Except.ok.injEq,
      exists_const] at hOk
    rcases hOk with ⟨hWallet, expiry, hExpiry, hEq⟩
    subst hEq
    rw [hMirrors.wallet] at hWallet
    refine ⟨hWallet, ?_, ?_, ?_, hVelocity⟩
    · rw [if_neg hZero, hExpiry]
    · rw [← hMirrors.dailyLimit]
    · rw [← hMirrors.lifetimeLimit]

/- The profile account that a creation named. -/
theorem loadProfile_some
    {w : World}
    {address : Pubkey}
    {profile : Option AuthorityProfile}
    (hOk : loadProfile w (some address) = .ok profile) :
    ∃ account,
      w.profiles.lookup address = some account ∧
        profile = some account := by
  unfold loadProfile at hOk
  simp only [bind_eq_ok_iff, okOr_eq_ok_iff,
    pure_eq_ok_iff] at hOk
  rcases hOk with ⟨account, hFound, hSame⟩
  exact ⟨account, hFound, hSame.symm⟩

/-
  After every run a profile account stores exactly what the
  history says about it, and a session created under it gets
  the defaults of that profile for its zero parameters.
-/
theorem profiles_mirrored
    (lamports : Lamports)
    (steps : List Step)
    (address : Pubkey) :
    Mirrored address
        (profileOf address
          ((World.genesis lamports).trace steps))
        ((World.genesis lamports).run steps) ∧
      ∀ env ix w',
        createSession env
            ((World.genesis lamports).run steps) ix =
          .ok w' →
        ix.authorityProfile = some address →
        ∃ profile vow limits,
          profileOf address
              ((World.genesis lamports).trace steps) =
            some profile ∧
          profile.wallet = ix.owner.key ∧
          Resolves env.unixTimestamp profile ix.params
            limits ∧
          w'.sessions.lookup
              (.session ix.vowState ix.sessionIndex) =
            some (openedSession env ix vow limits) := by
  have hMirrored := mirrored_run lamports steps address
  refine ⟨hMirrored, ?_⟩
  intro env ix w' hOk hAddress
  rcases createSession_ok hOk with ⟨call, hEq⟩
  have hLoaded := call.hProfile
  rw [hAddress] at hLoaded
  rcases loadProfile_some hLoaded with
    ⟨account, hFound, hSame⟩
  have hLimits := call.hLimits
  rw [hSame] at hLimits
  unfold Mirrored at hMirrored
  rw [hFound] at hMirrored
  generalize hProfile :
    profileOf address
      ((World.genesis lamports).trace steps) = said
    at hMirrored
  cases hMirrored with
  | @some _ profile hMirrors =>
      rcases sessionLimits_resolves hMirrors hLimits with
        ⟨hWallet, hResolves⟩
      refine ⟨profile, call.vow, call.limits, rfl, hWallet,
        hResolves, ?_⟩
      rw [hEq, AccountMap.lookup_insert_eq, if_pos rfl]

end Vow
