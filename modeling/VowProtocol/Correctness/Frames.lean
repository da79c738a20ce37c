import VowProtocol.Correctness.Handlers
import VowProtocol.Program.Instruction

/-
  Inversion of the cranks, of administration and of the
  registries, and the frame of the registries: what their
  handlers leave alone.

  Key definitions include:
    * `FlushCall`
    * `RedeemCall`
    * `AdminCall`
    * `CommitmentRecord.committed`
    * `CommitmentRecord.fulfilled`
    * `Untouched`

  Key theorems include:
    * `updateSharePrice_ok`
    * `flushReserveToPool_ok`
    * `withdrawFromPool_ok`
    * `initializeConfig_ok`
    * `recordCommitment_ok`
    * `recordFulfillment_ok`
    * `registerApp_untouched`
    * `recordCommitment_untouched`
    * `exec_outside`
-/

------------------------------------------------------------
-- Pool Cranks
------------------------------------------------------------

namespace Vow

open MachineInt Fallible

/- What a price update that succeeds has computed. -/
structure UpdateSharePriceCall
    (w : World) where
  config : ProtocolConfig
  price : U128
  lastPool : U64
  hConfig : w.config = some config

/- A price update rewrites two fields of the configuration. -/
theorem updateSharePrice_ok
    {w w' : World}
    {splPool : AccountInfo}
    (hOk : updateSharePrice w splPool = .ok w') :
    ∃ call : UpdateSharePriceCall w,
      w' = { w with
        config := some { call.config with
          currentSharePrice := call.price
          lastPoolLamports := call.lastPool } } := by
  unfold updateSharePrice at hOk
  simp only [bind_eq_ok_iff, loadConfig_eq_ok_iff,
    require_eq_ok_iff, exists_const] at hOk
  rcases hOk with ⟨config, hConfig, _, hOk⟩
  split at hOk
  · refine ⟨⟨config, config.currentSharePrice,
      config.lastPoolLamports, hConfig⟩, ?_⟩
    rw [← pure_eq_ok_iff.mp hOk, ← hConfig]
  · simp only [bind_eq_ok_iff, require_eq_ok_iff,
      exists_const] at hOk
    rcases hOk with ⟨_, hOk⟩
    split at hOk
    · simp only [bind_eq_ok_iff, pure_eq_ok_iff] at hOk
      rcases hOk with ⟨price, _, hEq⟩
      exact ⟨⟨config, price, _, hConfig⟩, hEq.symm⟩
    · simp only [bind_eq_ok_iff, pure_eq_ok_iff] at hOk
      rcases hOk with ⟨price, _, hEq⟩
      exact ⟨⟨config, price, _, hConfig⟩, hEq.symm⟩

/- A world whose reserve holds the given lamports. -/
def World.withReserve
    (w : World)
    (reserve : Nat) :
    World :=
  { w with
    lamports := fun k =>
      if k = .reserve then reserve else w.lamports k }

@[simp] theorem World.reserve_withReserve
    (w : World)
    (reserve : Nat) :
    (w.withReserve reserve).reserve = reserve := by
  simp [World.withReserve, World.reserve]

/- What a flush that moves lamports has loaded. -/
structure FlushCall
    (env : Env)
    (w : World)
    (accounts : PoolAccounts) where
  config : ProtocolConfig
  reserve : Nat
  hConfig : w.config = some config
  hPool : config.splStakePool ≠ .default
  hIdle : env.minimumBalance 0 < w.reserve
  hDeposit :
    env.depositSol accounts.splPool
      (w.reserve - env.minimumBalance 0) w.reserve =
        some reserve

/-
  A flush does nothing, or hands everything above the
  rent-exempt minimum to the pool.
-/
theorem flushReserveToPool_ok
    {env : Env}
    {w w' : World}
    {accounts : PoolAccounts}
    (hOk : flushReserveToPool env w accounts = .ok w') :
    w' = w ∨
    ∃ call : FlushCall env w accounts,
      w' = w.withReserve call.reserve := by
  unfold flushReserveToPool at hOk
  simp only [bind_eq_ok_iff, loadConfig_eq_ok_iff] at hOk
  rcases hOk with ⟨config, hConfig, _, _, hOk⟩
  split at hOk
  · exact Or.inl (pure_eq_ok_iff.mp hOk).symm
  · rename_i hPool
    simp only [bind_eq_ok_iff] at hOk
    rcases hOk with ⟨_, _, hOk⟩
    split at hOk
    · exact Or.inl (pure_eq_ok_iff.mp hOk).symm
    · rename_i hIdle
      simp only [bind_eq_ok_iff, okOr_eq_ok_iff,
        pure_eq_ok_iff] at hOk
      rcases hOk with ⟨reserve, hDeposit, hEq⟩
      exact Or.inr ⟨⟨config, reserve, hConfig, hPool,
        by omega, hDeposit⟩, hEq.symm⟩

/- What a pool withdrawal that redeems has computed. -/
structure RedeemCall
    (env : Env)
    (w : World)
    (unstakeEscrow : Pubkey)
    (accounts : PoolAccounts) where
  config : ProtocolConfig
  escrow : UnstakeEscrow
  tokens : U64
  reserve : Nat
  hConfig : w.config = some config
  hEscrow : w.escrows.lookup unstakeEscrow = some escrow
  hPool : config.splStakePool ≠ .default
  hShort : w.reserve < escrow.lamportsOwed.val
  hLamports : 0 < (poolTotalLamports accounts.splPool).val
  hSupply : 0 < (poolTokenSupply accounts.splPool).val
  hTokens :
    tokensToBurn
      (Unsigned.ofNat 64
        (escrow.lamportsOwed.val - w.reserve))
      (poolTotalLamports accounts.splPool)
      (poolTokenSupply accounts.splPool)
      accounts.reservePoolTokens.amount = .ok tokens
  hWithdraw :
    env.withdrawSol accounts.splPool tokens w.reserve =
      some reserve

/-
  A pool withdrawal does nothing without a pool; otherwise it
  redeems tokens for an escrow that the reserve cannot cover.
-/
theorem withdrawFromPool_ok
    {env : Env}
    {w w' : World}
    {unstakeEscrow : Pubkey}
    {accounts : PoolAccounts}
    (hOk :
      withdrawFromPool env w unstakeEscrow accounts =
        .ok w') :
    ((∃ config,
        w.config = some config ∧
        config.splStakePool = .default) ∧ w' = w) ∨
    ∃ call : RedeemCall env w unstakeEscrow accounts,
      w' = w.withReserve call.reserve := by
  unfold withdrawFromPool at hOk
  simp only [bind_eq_ok_iff, loadConfig_eq_ok_iff,
    okOr_eq_ok_iff, require_eq_ok_iff, exists_const] at hOk
  rcases hOk with
    ⟨config, hConfig, escrow, hEscrow, _, _, _, hOk⟩
  split at hOk
  · rename_i hPool
    exact Or.inl ⟨⟨config, hConfig, hPool⟩,
      (pure_eq_ok_iff.mp hOk).symm⟩
  · rename_i hPool
    simp only [bind_eq_ok_iff, okOr_eq_ok_iff,
      require_eq_ok_iff, pure_eq_ok_iff,
      exists_const] at hOk
    rcases hOk with
      ⟨hShort, _, _, ⟨hSupply, hLamports⟩, tokens, hTokens,
        _, reserve, hWithdraw, hEq⟩
    exact Or.inr ⟨⟨config, escrow, tokens, reserve, hConfig,
      hEscrow, hPool, hShort,
      by simpa [Unsigned.lt_def] using hLamports,
      by simpa [Unsigned.lt_def] using hSupply, hTokens,
      hWithdraw⟩, hEq.symm⟩

end Vow

------------------------------------------------------------
-- Administration
------------------------------------------------------------

namespace Vow

open MachineInt Fallible

/- What an initialization that succeeds has computed. -/
structure InitializeConfigCall
    (env : Env)
    (w : World)
    (admin : Signer)
    (splPool : AccountInfo)
    (splStakePool : Pubkey) where
  lamports : Lamports
  opening : U128 × U64
  hNone : w.config = none
  hInit :
    initAccount env admin.key .config ProtocolConfig.LEN
      w.lamports = .ok lamports
  hOpening :
    openingSharePrice splStakePool splPool = .ok opening

theorem InitializeConfigCall.reserve_eq
    {env : Env}
    {w : World}
    {admin : Signer}
    {splPool : AccountInfo}
    {splStakePool : Pubkey}
    (call :
      InitializeConfigCall env w admin splPool
        splStakePool) :
    call.lamports .reserve = w.reserve :=
  initAccount_of_ne call.hInit (reserve_ne_key admin)
    (by simp)

/- The configuration that `initializeConfig` writes. -/
def openedConfig
    (admin : Signer)
    (splStakePool splPoolMint : Pubkey)
    (opening : U128 × U64) :
    ProtocolConfig where
  admin := admin.key
  currentSharePrice := opening.1
  totalShares := 0
  totalYieldClaims := 0
  lastPoolLamports := opening.2
  totalMinted := 0
  merkleTree := .default
  totalPendingUnstake := 0
  splStakePool := splStakePool
  splPoolMint := splPoolMint

/- An initialization starts every counter at zero. -/
theorem initializeConfig_ok
    {env : Env}
    {w w' : World}
    {admin : Signer}
    {splPool : AccountInfo}
    {splStakePool splPoolMint : Pubkey}
    (hOk :
      initializeConfig env w admin splPool splStakePool
        splPoolMint = .ok w') :
    ∃ call :
        InitializeConfigCall env w admin splPool splStakePool,
      w' = { w with
        lamports := call.lamports
        config := some
          (openedConfig admin splStakePool splPoolMint
            call.opening) } := by
  unfold initializeConfig at hOk
  simp only [bind_eq_ok_iff, require_eq_ok_iff,
    pure_eq_ok_iff, exists_const] at hOk
  rcases hOk with
    ⟨hNone, lamports, hInit, opening, hOpening, hEq⟩
  exact ⟨⟨lamports, opening, hNone, hInit, hOpening⟩,
    hEq.symm⟩

/- What a call of the admin has loaded. -/
structure AdminCall
    (w : World)
    (admin : Signer) where
  config : ProtocolConfig
  hConfig : w.config = some config
  hAdmin : config.admin = admin.key

theorem setAdmin_ok
    {w w' : World}
    {admin : Signer}
    {newAdmin : Pubkey}
    (hOk : setAdmin w admin newAdmin = .ok w') :
    ∃ call : AdminCall w admin,
      w' = { w with
        config := some
          { call.config with admin := newAdmin } } := by
  unfold setAdmin at hOk
  simp only [bind_eq_ok_iff, loadConfigAsAdmin_eq_ok_iff,
    require_eq_ok_iff, pure_eq_ok_iff, exists_const] at hOk
  rcases hOk with ⟨config, ⟨hConfig, hAdmin⟩, _, hEq⟩
  exact ⟨⟨config, hConfig, hAdmin⟩, hEq.symm⟩

theorem closeProtocolConfig_ok
    {w w' : World}
    {admin : Signer}
    (hOk : closeProtocolConfig w admin = .ok w') :
    ∃ _ : AdminCall w admin,
      w' = { w with
        lamports := closeAccount .config admin.key w.lamports
        config := none } := by
  unfold closeProtocolConfig at hOk
  simp only [bind_eq_ok_iff, okOr_eq_ok_iff,
    require_eq_ok_iff, pure_eq_ok_iff, exists_const] at hOk
  rcases hOk with ⟨config, hConfig, hAdmin, hEq⟩
  exact ⟨⟨config, hConfig, hAdmin⟩, hEq.symm⟩

theorem closeConfig_reserve
    (w : World)
    (admin : Signer) :
    closeAccount .config admin.key w.lamports .reserve =
      w.reserve :=
  closeAccount_of_ne (by simp) (reserve_ne_key admin) _

theorem setMintCounter_ok
    {w w' : World}
    {admin : Signer}
    {newCounter : U64}
    (hOk : setMintCounter w admin newCounter = .ok w') :
    ∃ call : AdminCall w admin,
      w' = { w with
        config := some
          { call.config with totalMinted := newCounter } } := by
  unfold setMintCounter at hOk
  simp only [bind_eq_ok_iff, loadConfigAsAdmin_eq_ok_iff,
    require_eq_ok_iff, pure_eq_ok_iff, exists_const] at hOk
  rcases hOk with ⟨config, ⟨hConfig, hAdmin⟩, _, hEq⟩
  exact ⟨⟨config, hConfig, hAdmin⟩, hEq.symm⟩

/- What a price set by hand has loaded and checked. -/
structure DevSetSharePriceCall
    (w : World)
    (admin : Signer)
    (newPrice : U128) extends AdminCall w admin where
  hPool : config.splStakePool = .default
  hPositive : 0 < newPrice

theorem devSetSharePrice_ok
    {w w' : World}
    {admin : Signer}
    {newPrice : U128}
    (hOk : devSetSharePrice w admin newPrice = .ok w') :
    ∃ call : DevSetSharePriceCall w admin newPrice,
      w' = { w with
        config := some
          { call.config with
            currentSharePrice := newPrice } } := by
  unfold devSetSharePrice at hOk
  simp only [bind_eq_ok_iff, loadConfigAsAdmin_eq_ok_iff,
    require_eq_ok_iff, pure_eq_ok_iff, exists_const] at hOk
  rcases hOk with
    ⟨config, ⟨hConfig, hAdmin⟩, hPool, hPositive, hEq⟩
  exact ⟨⟨⟨config, hConfig, hAdmin⟩, hPool, hPositive⟩,
    hEq.symm⟩

/- What a fast unlock that succeeds has loaded. -/
structure DevFastUnlockCall
    (w : World)
    (admin : Signer)
    (vowState : Pubkey) extends AdminCall w admin where
  vow : VowState
  hLookup : w.vows.lookup vowState = some vow
  hPool : config.splStakePool = .default

/- A fast unlock only moves the end of the lock. -/
theorem devFastUnlock_ok
    {w w' : World}
    {admin : Signer}
    {vowState : Pubkey}
    (hOk : devFastUnlock w admin vowState = .ok w') :
    ∃ call : DevFastUnlockCall w admin vowState,
      w' = { w with
        vows := w.vows.insert vowState
          { call.vow with
            unlockAt := Signed.clamp 63 1 } } := by
  unfold devFastUnlock at hOk
  simp only [bind_eq_ok_iff, loadConfigAsAdmin_eq_ok_iff,
    loadVow_eq_ok_iff, require_eq_ok_iff, pure_eq_ok_iff,
    exists_const] at hOk
  rcases hOk with
    ⟨config, ⟨hConfig, hAdmin⟩, vow, ⟨hLookup, _⟩, hPool,
      hEq⟩
  exact ⟨⟨⟨config, hConfig, hAdmin⟩, vow, hLookup, hPool⟩,
    hEq.symm⟩

end Vow

------------------------------------------------------------
-- Registries And Profiles
------------------------------------------------------------

namespace Vow

open MachineInt Fallible

/- What a registration that succeeds has checked. -/
structure RegisterAppCall
    (env : Env)
    (w : World)
    (payer : Signer)
    (programId : Pubkey) where
  lamports : Lamports
  hFresh : w.apps.lookup (.app programId) = none
  hInit :
    initAccount env payer.key (.app programId)
      AppRegistry.LEN w.lamports = .ok lamports

/- A registration fills an empty registry. -/
theorem registerApp_ok
    {env : Env}
    {w w' : World}
    {payer : Signer}
    {programId : Pubkey}
    (hOk : registerApp env w payer programId = .ok w') :
    ∃ call : RegisterAppCall env w payer programId,
      w' = { w with
        lamports := call.lamports
        apps := w.apps.insert (.app programId)
          { programId := programId
            verified := false
            blocked := false
            registeredAt := env.unixTimestamp } } := by
  unfold registerApp at hOk
  simp only [bind_eq_ok_iff, require_eq_ok_iff,
    pure_eq_ok_iff, exists_const] at hOk
  rcases hOk with ⟨hFresh, lamports, hInit, hEq⟩
  exact ⟨⟨lamports, hFresh, hInit⟩, hEq.symm⟩

/- What an admin action on an app has loaded. -/
structure AdminAppCall
    (w : World)
    (admin : Signer)
    (address : Pubkey) extends AdminCall w admin where
  registry : AppRegistry
  hRegistry : w.apps.lookup address = some registry

/- Verifying and blocking an app rewrite its registry. -/
theorem adminAppAction_ok
    {w w' : World}
    {admin : Signer}
    {address : Pubkey}
    {change : AppRegistry → AppRegistry}
    (hOk :
      adminAppAction w admin address change = .ok w') :
    ∃ call : AdminAppCall w admin address,
      w' = { w with
        apps := w.apps.insert address
          (change call.registry) } := by
  unfold adminAppAction at hOk
  simp only [bind_eq_ok_iff, loadConfigAsAdmin_eq_ok_iff,
    require_eq_ok_iff, okOr_eq_ok_iff, pure_eq_ok_iff,
    exists_const] at hOk
  rcases hOk with
    ⟨registry, hRegistry, _, config, ⟨hConfig, hAdmin⟩, hEq⟩
  exact ⟨⟨⟨config, hConfig, hAdmin⟩, registry, hRegistry⟩,
    hEq.symm⟩

/- The account that `createAuthorityProfile` writes. -/
def openedProfile
    (env : Env)
    (wallet : Signer)
    (profileId : Vector U8 8)
    (params : AuthorityProfileParams) :
    AuthorityProfile where
  wallet := wallet.key
  profileId := profileId
  defaultDailyLimit := params.defaultDailyLimit
  defaultLifetimeLimit := params.defaultLifetimeLimit
  defaultExpiryDays := params.defaultExpiryDays
  defaultAllowedProgramIds :=
    fillProgramIds params.defaultAllowedProgramIds
      (Vector.replicate 8 .default)
  programCount :=
    Unsigned.ofNat 8 params.defaultAllowedProgramIds.length
  metadataUri :=
    copyMetadataUri params.metadataUri (Vector.replicate 128 0)
  uriLen := Unsigned.ofNat 8 (min params.metadataUri.length 128)
  createdAt := env.unixTimestamp

/-
  The account that `updateAuthorityProfile` writes: an empty
  URI leaves the stored one.
-/
def revisedProfile
    (params : AuthorityProfileParams)
    (profile : AuthorityProfile) :
    AuthorityProfile :=
  let uriChanged := !params.metadataUri.isEmpty
  { profile with
    defaultDailyLimit := params.defaultDailyLimit
    defaultLifetimeLimit := params.defaultLifetimeLimit
    defaultExpiryDays := params.defaultExpiryDays
    defaultAllowedProgramIds :=
      fillProgramIds params.defaultAllowedProgramIds
        profile.defaultAllowedProgramIds
    programCount := Unsigned.ofNat 8
      params.defaultAllowedProgramIds.length
    metadataUri :=
      if uriChanged then
        copyMetadataUri params.metadataUri profile.metadataUri
      else profile.metadataUri
    uriLen :=
      if uriChanged then
        Unsigned.ofNat 8 (min params.metadataUri.length 128)
      else profile.uriLen }

/- What a profile creation that succeeds has checked. -/
structure CreateAuthorityProfileCall
    (env : Env)
    (w : World)
    (wallet : Signer)
    (profileId : Vector U8 8)
    (params : AuthorityProfileParams) where
  lamports : Lamports
  hInit :
    initAccount env wallet.key
      (.authorityProfile wallet.key profileId)
      AuthorityProfile.LEN w.lamports = .ok lamports
  hPrograms : params.defaultAllowedProgramIds.length ≤ 8
  hUri : params.metadataUri.length ≤ 128

/- A creation writes the profile of the wallet. -/
theorem createAuthorityProfile_ok
    {env : Env}
    {w w' : World}
    {wallet : Signer}
    {profileId : Vector U8 8}
    {params : AuthorityProfileParams}
    (hOk :
      createAuthorityProfile env w wallet profileId params =
        .ok w') :
    ∃ call :
        CreateAuthorityProfileCall env w wallet profileId
          params,
      w' = { w with
        lamports := call.lamports
        profiles := w.profiles.insert
          (.authorityProfile wallet.key profileId)
          (openedProfile env wallet profileId params) } := by
  unfold createAuthorityProfile at hOk
  simp only [bind_eq_ok_iff, require_eq_ok_iff,
    pure_eq_ok_iff, exists_const] at hOk
  rcases hOk with
    ⟨_, lamports, hInit, hPrograms, hUri, hEq⟩
  exact ⟨⟨lamports, hInit, hPrograms, hUri⟩, hEq.symm⟩

/- A profile loads for the wallet that it names. -/
theorem loadProfileAsWallet_eq_ok_iff
    {w : World}
    {address : Pubkey}
    {wallet : Signer}
    {profile : AuthorityProfile} :
    loadProfileAsWallet w address wallet = .ok profile ↔
      w.profiles.lookup address = some profile ∧
        address =
          .authorityProfile wallet.key profile.profileId ∧
        profile.wallet = wallet.key := by
  unfold loadProfileAsWallet
  simp only [bind_eq_ok_iff, require_eq_ok_iff,
    okOr_eq_ok_iff, pure_eq_ok_iff, exists_const]
  constructor
  · rintro ⟨found, hFound, hSeeds, hWallet, hSame⟩
    subst hSame
    exact ⟨hFound, hSeeds, hWallet⟩
  · rintro ⟨hFound, hSeeds, hWallet⟩
    exact ⟨profile, hFound, hSeeds, hWallet, rfl⟩

/- What a call of a wallet on its profile has loaded. -/
structure ProfileCall
    (w : World)
    (wallet : Signer)
    (address : Pubkey) where
  profile : AuthorityProfile
  hProfile : w.profiles.lookup address = some profile
  hSeeds :
    address = .authorityProfile wallet.key profile.profileId
  hWallet : profile.wallet = wallet.key

/- What a profile update that succeeds has checked. -/
structure UpdateAuthorityProfileCall
    (w : World)
    (wallet : Signer)
    (address : Pubkey)
    (params : AuthorityProfileParams) extends
    ProfileCall w wallet address where
  hPrograms : params.defaultAllowedProgramIds.length ≤ 8

/- An update rewrites a profile of the wallet. -/
theorem updateAuthorityProfile_ok
    {w w' : World}
    {wallet : Signer}
    {address : Pubkey}
    {params : AuthorityProfileParams}
    (hOk :
      updateAuthorityProfile w wallet address params =
        .ok w') :
    ∃ call :
        UpdateAuthorityProfileCall w wallet address params,
      w' = { w with
        profiles := w.profiles.insert address
          (revisedProfile params call.profile) } := by
  unfold updateAuthorityProfile at hOk
  simp only [bind_eq_ok_iff, require_eq_ok_iff,
    loadProfileAsWallet_eq_ok_iff, pure_eq_ok_iff,
    exists_const] at hOk
  rcases hOk with
    ⟨profile, ⟨hProfile, hSeeds, hWallet⟩, hPrograms, hEq⟩
  exact ⟨⟨⟨profile, hProfile, hSeeds, hWallet⟩, hPrograms⟩,
    hEq.symm⟩

/- A close removes a profile of the wallet. -/
theorem closeAuthorityProfile_ok
    {w w' : World}
    {wallet : Signer}
    {address : Pubkey}
    (hOk :
      closeAuthorityProfile w wallet address = .ok w') :
    ∃ _ : ProfileCall w wallet address,
      w' = { w with
        lamports := closeAccount address wallet.key w.lamports
        profiles := w.profiles.erase address } := by
  unfold closeAuthorityProfile at hOk
  simp only [bind_eq_ok_iff, loadProfileAsWallet_eq_ok_iff,
    pure_eq_ok_iff] at hOk
  rcases hOk with
    ⟨profile, ⟨hProfile, hSeeds, hWallet⟩, hEq⟩
  exact ⟨⟨profile, hProfile, hSeeds, hWallet⟩, hEq.symm⟩

end Vow

------------------------------------------------------------
-- Records
------------------------------------------------------------

namespace Vow

open MachineInt Fallible

/- A record with one more commitment, before its score. -/
def CommitmentRecord.committed
    (record : CommitmentRecord)
    (idnft : VowState)
    (lockDays : U64) :
    CommitmentRecord :=
  { record with
    wallet := idnft.owner
    totalXnftsMinted :=
      record.totalXnftsMinted.saturatingAdd 1
    totalXntCommitted :=
      record.totalXntCommitted.saturatingAdd
        idnft.principalLamports
    highestClassEver :=
      if record.highestClassEver < idnft.stakeClass then
        idnft.stakeClass
      else record.highestClassEver
    totalCommitmentDays :=
      record.totalCommitmentDays.saturatingAdd lockDays }

/- A record with one more fulfilment, before its score. -/
def CommitmentRecord.fulfilled
    (record : CommitmentRecord)
    (xnft : VowState) :
    CommitmentRecord :=
  { record with
    totalXntFulfilled :=
      record.totalXntFulfilled.saturatingAdd
        xnft.principalLamports }

/- The record of a wallet, empty before its first use. -/
def World.recordOf
    (w : World)
    (wallet : Pubkey) :
    CommitmentRecord :=
  (w.records.lookup (.commitment wallet)).getD emptyRecord

theorem World.recordOf_insert
    {w w' : World}
    {owner : Pubkey}
    {record : CommitmentRecord}
    (hRecords :
      w'.records =
        w.records.insert (.commitment owner) record)
    (wallet : Pubkey) :
    w'.recordOf wallet =
      if wallet = owner then record
      else w.recordOf wallet := by
  unfold World.recordOf
  rw [hRecords, AccountMap.lookup_insert_eq]
  by_cases hOwner : wallet = owner
  · simp [hOwner]
  · simp [hOwner]

theorem loadOrInitRecord_ok
    {env : Env}
    {w : World}
    {payer : Signer}
    {address : Pubkey}
    {loaded : CommitmentRecord × Lamports}
    (hOk :
      loadOrInitRecord env w payer address = .ok loaded) :
    loaded.1 =
      (w.records.lookup address).getD emptyRecord := by
  unfold loadOrInitRecord at hOk
  cases hRecord : w.records.lookup address with
  | none =>
      simp only [hRecord, bind_eq_ok_iff,
        pure_eq_ok_iff] at hOk
      rcases hOk with ⟨_, _, hEq⟩
      rw [← hEq]
      rfl
  | some record =>
      simp only [hRecord, Except.ok.injEq] at hOk
      rw [← hOk]
      rfl

/- What a commitment that is counted has loaded. -/
structure RecordCommitmentCall
    (env : Env)
    (w : World)
    (payer : Signer)
    (vowState : Pubkey) where
  vow : VowState
  lock : I64
  score : U32
  opened : Lamports
  lamports : Lamports
  hLookup : w.vows.lookup vowState = some vow
  hSeeds : vowState = .vow vow.assetId
  hOpened :
    loadOrInitRecord env w payer (.commitment vow.owner) =
      .ok (w.recordOf vow.owner, opened)
  hGate :
    w.gates.lookup
      (.crCommit (.commitment vow.owner) vowState) = none
  hInit :
    initAccount env payer.key
      (.crCommit (.commitment vow.owner) vowState)
      CrGate.LEN opened = .ok lamports
  hLock : lockDuration vow.stakeClass = .ok lock
  hScore :
    computeScore
      ((w.recordOf vow.owner).committed vow
        ((lock.quot 86400).toUnsigned 64)) = .ok score

/- A commitment is counted once, behind its gate. -/
theorem recordCommitment_ok
    {env : Env}
    {w w' : World}
    {payer : Signer}
    {vowState : Pubkey}
    (hOk : recordCommitment env w payer vowState = .ok w') :
    ∃ call : RecordCommitmentCall env w payer vowState,
      w' = { w with
        lamports := call.lamports
        records :=
          w.records.insert (.commitment call.vow.owner)
            { (w.recordOf call.vow.owner).committed call.vow
                ((call.lock.quot 86400).toUnsigned 64) with
              commitmentScore := call.score
              lastUpdated := env.unixTimestamp }
        gates := w.gates.insert
          (.crCommit (.commitment call.vow.owner) vowState)
          {} } := by
  unfold recordCommitment at hOk
  simp only [bind_eq_ok_iff, loadVow_eq_ok_iff,
    require_eq_ok_iff, pure_eq_ok_iff, exists_const] at hOk
  rcases hOk with
    ⟨vow, ⟨hLookup, hSeeds⟩, ⟨record, opened⟩, hLoaded,
      hGate, lamports, hInit, lock, hLock, score, hScore,
      hEq⟩
  have hRecord : record = w.recordOf vow.owner :=
    loadOrInitRecord_ok hLoaded
  subst hRecord
  exact ⟨⟨vow, lock, score, opened, lamports, hLookup,
    hSeeds, hLoaded, hGate, hInit, hLock, hScore⟩, hEq.symm⟩

/- What a fulfilment that is counted has loaded. -/
structure RecordFulfillmentCall
    (env : Env)
    (w : World)
    (payer : Signer)
    (vowState : Pubkey) where
  vow : VowState
  record : CommitmentRecord
  score : U32
  lamports : Lamports
  hLookup : w.vows.lookup vowState = some vow
  hSeeds : vowState = .vow vow.assetId
  hRecord :
    w.records.lookup (.commitment vow.owner) = some record
  hGate :
    w.gates.lookup
      (.crFulfill (.commitment vow.owner) vowState) = none
  hInit :
    initAccount env payer.key
      (.crFulfill (.commitment vow.owner) vowState)
      CrGate.LEN w.lamports = .ok lamports
  hMatured : vow.matured = true
  hScore : computeScore (record.fulfilled vow) = .ok score

/- A fulfilment is counted once, behind its own gate. -/
theorem recordFulfillment_ok
    {env : Env}
    {w w' : World}
    {payer : Signer}
    {vowState : Pubkey}
    (hOk : recordFulfillment env w payer vowState = .ok w') :
    ∃ call : RecordFulfillmentCall env w payer vowState,
      w' = { w with
        lamports := call.lamports
        records :=
          w.records.insert (.commitment call.vow.owner)
            { call.record.fulfilled call.vow with
              commitmentScore := call.score
              lastUpdated := env.unixTimestamp }
        gates := w.gates.insert
          (.crFulfill (.commitment call.vow.owner) vowState)
          {} } := by
  unfold recordFulfillment at hOk
  simp only [bind_eq_ok_iff, loadVow_eq_ok_iff,
    okOr_eq_ok_iff, require_eq_ok_iff, pure_eq_ok_iff,
    exists_const] at hOk
  rcases hOk with
    ⟨vow, ⟨hLookup, hSeeds⟩, record, hRecord, hGate,
      lamports, hInit, hMatured, score, hScore, hEq⟩
  exact ⟨⟨vow, record, score, lamports, hLookup, hSeeds,
    hRecord, hGate, hInit, hMatured, hScore⟩, hEq.symm⟩

end Vow

------------------------------------------------------------
-- Frames
------------------------------------------------------------

namespace Vow

open MachineInt Fallible

/-
  A step that leaves the configuration, every identity, every
  escrow, every session and the reserve alone.
-/
structure Untouched
    (w w' : World) :
    Prop where
  config : w'.config = w.config
  vows : w'.vows = w.vows
  escrows : w'.escrows = w.escrows
  sessions : w'.sessions = w.sessions
  reserve : w'.reserve = w.reserve

theorem registerApp_untouched
    {env : Env}
    {w w' : World}
    {payer : Signer}
    {programId : Pubkey}
    (hOk : registerApp env w payer programId = .ok w') :
    Untouched w w' := by
  rcases registerApp_ok hOk with ⟨call, hEq⟩
  subst hEq
  refine ⟨rfl, rfl, rfl, rfl, ?_⟩
  exact initAccount_of_ne call.hInit (reserve_ne_key payer)
    (by simp)

theorem adminAppAction_untouched
    {w w' : World}
    {admin : Signer}
    {address : Pubkey}
    {change : AppRegistry → AppRegistry}
    (hOk :
      adminAppAction w admin address change = .ok w') :
    Untouched w w' := by
  rcases adminAppAction_ok hOk with ⟨call, hEq⟩
  subst hEq
  exact ⟨rfl, rfl, rfl, rfl, rfl⟩

theorem createAuthorityProfile_untouched
    {env : Env}
    {w w' : World}
    {wallet : Signer}
    {profileId : Vector U8 8}
    {params : AuthorityProfileParams}
    (hOk :
      createAuthorityProfile env w wallet profileId params =
        .ok w') :
    Untouched w w' := by
  rcases createAuthorityProfile_ok hOk with ⟨call, hEq⟩
  subst hEq
  refine ⟨rfl, rfl, rfl, rfl, ?_⟩
  exact initAccount_of_ne call.hInit (reserve_ne_key wallet)
    (by simp)

theorem updateAuthorityProfile_untouched
    {w w' : World}
    {wallet : Signer}
    {address : Pubkey}
    {params : AuthorityProfileParams}
    (hOk :
      updateAuthorityProfile w wallet address params =
        .ok w') :
    Untouched w w' := by
  rcases updateAuthorityProfile_ok hOk with ⟨call, hEq⟩
  subst hEq
  exact ⟨rfl, rfl, rfl, rfl, rfl⟩

theorem closeAuthorityProfile_untouched
    {w w' : World}
    {wallet : Signer}
    {address : Pubkey}
    (hOk :
      closeAuthorityProfile w wallet address = .ok w') :
    Untouched w w' := by
  rcases closeAuthorityProfile_ok hOk with ⟨call, hEq⟩
  subst hEq
  refine ⟨rfl, rfl, rfl, rfl, ?_⟩
  exact closeAccount_of_ne (by simp [call.hSeeds])
    (reserve_ne_key wallet) _

theorem loadOrInitRecord_reserve
    {env : Env}
    {w : World}
    {payer : Signer}
    {wallet : Pubkey}
    {loaded : CommitmentRecord × Lamports}
    (hOk :
      loadOrInitRecord env w payer (.commitment wallet) =
        .ok loaded) :
    loaded.2 .reserve = w.reserve := by
  unfold loadOrInitRecord at hOk
  split at hOk
  · rw [← Except.ok.inj hOk]
    rfl
  · simp only [bind_eq_ok_iff, pure_eq_ok_iff] at hOk
    rcases hOk with ⟨_, hInit, hEq⟩
    rw [← hEq]
    exact initAccount_of_ne hInit (reserve_ne_key payer)
      (by simp)

theorem recordCommitment_untouched
    {env : Env}
    {w w' : World}
    {payer : Signer}
    {vowState : Pubkey}
    (hOk : recordCommitment env w payer vowState = .ok w') :
    Untouched w w' := by
  rcases recordCommitment_ok hOk with ⟨call, hEq⟩
  subst hEq
  refine ⟨rfl, rfl, rfl, rfl, ?_⟩
  have hOpened : call.opened .reserve = w.reserve :=
    loadOrInitRecord_reserve call.hOpened
  rw [← hOpened]
  exact initAccount_of_ne call.hInit (reserve_ne_key payer)
    (by simp)

theorem recordFulfillment_untouched
    {env : Env}
    {w w' : World}
    {payer : Signer}
    {vowState : Pubkey}
    (hOk : recordFulfillment env w payer vowState = .ok w') :
    Untouched w w' := by
  rcases recordFulfillment_ok hOk with ⟨call, hEq⟩
  subst hEq
  refine ⟨rfl, rfl, rfl, rfl, ?_⟩
  exact initAccount_of_ne call.hInit (reserve_ne_key payer)
    (by simp)

end Vow

------------------------------------------------------------
-- Outside The Program
------------------------------------------------------------

namespace Vow

open MachineInt Fallible

/-
  Transfers that are not instructions of the program keep its
  accounts, and take nothing out of the reserve.
-/
theorem exec_outside
    {w w' : World}
    {step : Step}
    (hExec : step.exec w = some w')
    (hOutside : ∀ ix, step.action ≠ .instruction ix) :
    w'.config = w.config ∧
      w'.vows = w.vows ∧
      w'.escrows = w.escrows ∧
      w.reserve ≤ w'.reserve := by
  rcases step with ⟨env, action⟩
  cases action with
  | instruction ix => exact absurd rfl (hOutside ix)
  | receive address amount =>
      rw [← Option.some.inj hExec]
      refine ⟨rfl, rfl, rfl, ?_⟩
      by_cases hHere : Pubkey.reserve = address
      · subst hHere
        simp [World.reserve]
      · exact le_of_eq (credit_of_ne hHere amount _).symm
  | spend wallet amount =>
      rw [← Option.some.inj hExec]
      exact ⟨rfl, rfl, rfl,
        le_of_eq (debit_of_ne (reserve_ne_key wallet)
          amount _).symm⟩

end Vow
