import VowProtocol.Correctness.Settlement
import VowProtocol.Program.Stake
import VowProtocol.Program.Treasury

/-
  Inversion of the handlers that move stake, yield and
  escrows: the guards a success passed, the exact values it
  computed and the world it returned.

  The outcome of each handler is a structure whose fields are
  named, so that a proof reads off what it needs and a change
  of one handler reaches the proofs that read the field.

  Key definitions include:
    * `OpensStake`
    * `TopsUp`
    * `MintVowCall`
    * `BeginUnstakeCall`
    * `CompleteUnstakeCall`
    * `YieldSpendCall`

  Key theorems include:
    * `harvest_eq_ok_iff`
    * `mintVow_ok`
    * `addStake_ok`
    * `beginUnstake_ok`
    * `completeUnstake_eq_ok_iff`
    * `activateStake_ok`
    * `yieldSpend_eq_ok_iff`
    * `createSession_ok`
    * `settleIdnft_avoids`
-/

------------------------------------------------------------
-- Reserve Movements
------------------------------------------------------------

namespace Vow

open MachineInt Fallible

theorem reserve_ne_key
    (signer : Signer) :
    Pubkey.reserve ≠ signer.key := by
  simp [Signer.key]

/- A deposit by a wallet raises the reserve by its amount. -/
theorem transfer_to_reserve
    {signer : Signer}
    {amount : Nat}
    {l l' : Lamports}
    (hTransfer :
      transfer signer.key .reserve amount l = .ok l') :
    l' .reserve = l .reserve + amount := by
  rcases transfer_eq_ok_iff.mp hTransfer with ⟨_, hEq⟩
  rw [hEq, credit_self, debit_of_ne (reserve_ne_key signer)]

/- A payment to a wallet lowers the reserve by its amount. -/
theorem transfer_from_reserve
    {signer : Signer}
    {amount : Nat}
    {l l' : Lamports}
    (hTransfer :
      transfer .reserve signer.key amount l = .ok l') :
    l .reserve = l' .reserve + amount := by
  rcases transfer_eq_ok_iff.mp hTransfer with ⟨hFunds, hEq⟩
  rw [hEq, credit_of_ne (reserve_ne_key signer), debit_self]
  omega

/-
  A payment to any address, the reserve included, lowers the
  reserve by at most its amount.
-/
theorem transfer_from_reserve_le
    {destination : Pubkey}
    {amount : Nat}
    {l l' : Lamports}
    (hTransfer :
      transfer .reserve destination amount l = .ok l') :
    l .reserve ≤ l' .reserve + amount := by
  rcases transfer_eq_ok_iff.mp hTransfer with ⟨hFunds, hEq⟩
  rw [hEq]
  by_cases hSelf : destination = .reserve
  · subst hSelf
    rw [credit_self, debit_self]
    omega
  · rw [credit_of_ne (Ne.symm hSelf), debit_self]
    omega

end Vow

------------------------------------------------------------
-- Identities
------------------------------------------------------------

namespace Vow

open MachineInt Fallible

/-
  The part of an identity that no handler changes after the
  mint.
-/
def SameIdentity
    (before after : VowState) :
    Prop :=
  after.assetId = before.assetId ∧
    after.owner = before.owner

/-
  The maturity flag is set exactly when it was set before or
  the lock has run out.
-/
theorem matureIfDue_cases
    (now : I64)
    (idnft : VowState) :
    ∃ matured,
      matureIfDue now idnft = { idnft with matured := matured } ∧
        (matured = true ↔
          idnft.matured = true ∨ idnft.unlockAt ≤ now) := by
  unfold matureIfDue
  by_cases hDue : idnft.matured = false ∧ idnft.unlockAt ≤ now
  · rw [if_pos hDue]
    exact ⟨true, rfl, by simp [hDue.2]⟩
  · rw [if_neg hDue]
    refine ⟨idnft.matured, rfl, ?_⟩
    cases hMatured : idnft.matured with
    | true => simp
    | false =>
        rw [hMatured] at hDue
        simpa using hDue

/- An identity that is due passes the maturity check. -/
theorem matureIfDue_matured
    {now : I64}
    {idnft : VowState}
    (hMatured : (matureIfDue now idnft).matured = true) :
    (idnft.matured = true ∨ idnft.unlockAt ≤ now) ∧
      matureIfDue now idnft =
        { idnft with matured := true } := by
  rcases matureIfDue_cases now idnft with
    ⟨matured, hDue, hIff⟩
  rw [hDue] at hMatured ⊢
  refine ⟨hIff.mp hMatured, ?_⟩
  rw [show matured = true from hMatured]

/- The lock of a class that starts now ends at `unlockAt`. -/
def LockEnds
    (now : I64)
    (stakeClass : U8)
    (unlockAt : I64) :
    Prop :=
  ∃ lock,
    lockDuration stakeClass = .ok lock ∧
      unlockAt.val = now.val + lock.val

/-
  A class upgrade does nothing, or raises the class and
  restarts the lock.
-/
theorem upgradeClass_cases
    {now : I64}
    {newClass : U8}
    {idnft upgraded : VowState}
    (hUpgrade :
      upgradeClass now newClass idnft = .ok upgraded) :
    (¬ idnft.stakeClass < newClass ∧ upgraded = idnft) ∨
    (idnft.stakeClass < newClass ∧
      ∃ unlockAt,
        LockEnds now newClass unlockAt ∧
        upgraded = { idnft with
          unlockAt := unlockAt
          matured := false
          stakeClass := newClass
          highestClassEver :=
            if idnft.highestClassEver < newClass then
              newClass
            else idnft.highestClassEver }) := by
  unfold upgradeClass at hUpgrade
  by_cases hClass : idnft.stakeClass < newClass
  · rw [if_pos hClass] at hUpgrade
    simp only [bind_eq_ok_iff, okOr_eq_ok_iff,
      pure_eq_ok_iff, Signed.checkedAdd_eq_some_iff]
      at hUpgrade
    rcases hUpgrade with
      ⟨lock, hLock, unlockAt, hUnlock, hEq⟩
    exact Or.inr ⟨hClass, unlockAt, ⟨lock, hLock, hUnlock⟩,
      hEq.symm⟩
  · rw [if_neg hClass] at hUpgrade
    exact Or.inl ⟨hClass, (Except.ok.inj hUpgrade).symm⟩

end Vow

------------------------------------------------------------
-- Harvest
------------------------------------------------------------

namespace Vow

open MachineInt Fallible

/- What a harvest that succeeds has loaded and computed. -/
structure HarvestCall
    (env : Env)
    (w : World)
    (vowState : Pubkey) where
  config : ProtocolConfig
  vow : VowState
  settled : VowState
  hConfig : w.config = some config
  hLookup : w.vows.lookup vowState = some vow
  hSeeds : vowState = .vow vow.assetId
  hSettle :
    settleIdnft (matureIfDue env.unixTimestamp vow) config =
      .ok settled

/-
  A harvest settles the identity at the current price and
  distributes the settled gain.
-/
theorem harvest_eq_ok_iff
    {env : Env}
    {w w' : World}
    {vowState : Pubkey} :
    harvest env w vowState = .ok w' ↔
      ∃ (call : HarvestCall env w vowState) (vow' : VowState)
          (config' : ProtocolConfig),
        harvestGain call.settled call.config =
          .ok (vow', config') ∧
        w' = { w with
          config := some config'
          vows := w.vows.insert vowState vow' } := by
  unfold harvest
  simp only [bind_eq_ok_iff, loadConfig_eq_ok_iff,
    loadVow_eq_ok_iff, pure_eq_ok_iff]
  constructor
  · rintro ⟨config, hConfig, vow, ⟨hLookup, hSeeds⟩,
      settled, hSettle, next, hNext, hEq⟩
    exact ⟨⟨config, vow, settled, hConfig, hLookup, hSeeds,
      hSettle⟩, next.1, next.2, hNext, hEq.symm⟩
  · rintro ⟨call, vow', config', hGain, hEq⟩
    exact ⟨call.config, call.hConfig, call.vow,
      ⟨call.hLookup, call.hSeeds⟩, call.settled,
      call.hSettle, (vow', config'), hGain, hEq.symm⟩

end Vow

------------------------------------------------------------
-- Stake
------------------------------------------------------------

namespace Vow

open MachineInt Fallible

/-
  A stake that opens a position: its class, its lock and the
  shares it buys.
-/
structure OpensStake
    (env : Env)
    (config : ProtocolConfig)
    (stakeLamports : U64)
    (stakeClass : U8)
    (shares : U128)
    (unlockAt : I64) :
    Prop where
  graded : classForStake stakeLamports = .ok stakeClass
  locked : LockEnds env.unixTimestamp stakeClass unlockAt
  bought :
    shares.val =
      stakeLamports.val * 1000000000000 /
        config.currentSharePrice.val

/-
  A top-up of a live position: more principal and shares, and
  a new class and lock when the class is strictly higher.
-/
inductive TopsUp
    (env : Env)
    (config : ProtocolConfig)
    (lamportsToAdd : U64)
    (vow : VowState) :
    VowState → Prop where
  | sameClass
      (principal : U64)
      (newClass : U8)
      (shares : U128)
      (hPrincipal :
        principal.val =
          vow.principalLamports.val + lamportsToAdd.val)
      (hNewClass : classForStake principal = .ok newClass)
      (hShares :
        shares.val =
          vow.shares.val +
            lamportsToAdd.val * 1000000000000 /
              config.currentSharePrice.val)
      (hClass : ¬ vow.stakeClass < newClass) :
      TopsUp env config lamportsToAdd vow
        { vow.settled config.currentSharePrice with
          principalLamports := principal
          shares := shares }
  | raisesClass
      (principal : U64)
      (newClass : U8)
      (shares : U128)
      (unlockAt : I64)
      (hPrincipal :
        principal.val =
          vow.principalLamports.val + lamportsToAdd.val)
      (hNewClass : classForStake principal = .ok newClass)
      (hShares :
        shares.val =
          vow.shares.val +
            lamportsToAdd.val * 1000000000000 /
              config.currentSharePrice.val)
      (hClass : vow.stakeClass < newClass)
      (hLock :
        LockEnds env.unixTimestamp newClass unlockAt) :
      TopsUp env config lamportsToAdd vow
        { vow.settled config.currentSharePrice with
          unlockAt := unlockAt
          matured := false
          stakeClass := newClass
          highestClassEver :=
            if vow.highestClassEver < newClass then newClass
            else vow.highestClassEver
          principalLamports := principal
          shares := shares }

/- A top-up keeps the identity and its yield. -/
theorem TopsUp.sameIdentity
    {env : Env}
    {config : ProtocolConfig}
    {lamportsToAdd : U64}
    {vow vow' : VowState}
    (hTopUp : TopsUp env config lamportsToAdd vow vow') :
    SameIdentity vow vow' ∧
      vow'.yieldBalance = vow.yieldBalance := by
  cases hTopUp with
  | sameClass => exact ⟨⟨rfl, rfl⟩, rfl⟩
  | raisesClass => exact ⟨⟨rfl, rfl⟩, rfl⟩

/- It buys shares at the current price. -/
theorem TopsUp.shares
    {env : Env}
    {config : ProtocolConfig}
    {lamportsToAdd : U64}
    {vow vow' : VowState}
    (hTopUp : TopsUp env config lamportsToAdd vow vow') :
    vow'.shares.val =
      vow.shares.val +
        lamportsToAdd.val * 1000000000000 /
          config.currentSharePrice.val := by
  cases hTopUp with
  | sameClass _ _ _ _ _ hShares => exact hShares
  | raisesClass _ _ _ _ _ _ hShares => exact hShares

/- What a mint that succeeds has loaded and computed. -/
structure MintVowCall
    (env : Env)
    (w : World)
    (owner : Signer)
    (stakeLamports : U64) where
  config : ProtocolConfig
  funded : Lamports
  lamports : Lamports
  stakeClass : U8
  shares : U128
  unlockAt : I64
  totalShares : U128
  totalMinted : U64
  hConfig : w.config = some config
  hFresh :
    w.vows.lookup (.vow (.vowAsset config.totalMinted)) =
      none
  hFunded :
    initAccount env owner.key
      (.vow (.vowAsset config.totalMinted)) VowState.LEN
      w.lamports = .ok funded
  hSynced :
    config.splStakePool ≠ .default →
      0 < config.lastPoolLamports
  hTransfer :
    transfer owner.key .reserve stakeLamports.val funded =
      .ok lamports
  hOpens :
    OpensStake env config stakeLamports stakeClass shares
      unlockAt
  hTotal :
    totalShares.val = config.totalShares.val + shares.val
  hMinted : totalMinted.val = config.totalMinted.val + 1

theorem MintVowCall.reserve_eq
    {env : Env}
    {w : World}
    {owner : Signer}
    {stakeLamports : U64}
    (call : MintVowCall env w owner stakeLamports) :
    call.lamports .reserve =
      w.reserve + stakeLamports.val := by
  rw [transfer_to_reserve call.hTransfer,
    initAccount_of_ne call.hFunded (reserve_ne_key owner)
      (by simp)]
  rfl

/- A mint buys shares for a fresh identity. -/
theorem mintVow_ok
    {env : Env}
    {w w' : World}
    {owner : Signer}
    {stakeLamports : U64}
    {yieldMode : YieldMode}
    (hOk :
      mintVow env w owner stakeLamports yieldMode =
        .ok w') :
    ∃ call : MintVowCall env w owner stakeLamports,
      w' = { w with
        lamports := call.lamports
        config := some { call.config with
          totalShares := call.totalShares
          totalMinted := call.totalMinted }
        vows := w.vows.insert
          (.vow (.vowAsset call.config.totalMinted))
          (mintedVow env call.config owner stakeLamports
            yieldMode call.stakeClass call.shares
            call.unlockAt) } := by
  unfold mintVow at hOk
  simp only [bind_eq_ok_iff, loadConfig_eq_ok_iff,
    require_eq_ok_iff, okOr_eq_ok_iff, pure_eq_ok_iff,
    sharesForDeposit_eq_ok_iff, exists_const,
    Unsigned.checkedAdd_eq_some_iff,
    Unsigned.val_one (show 0 < 64 by decide),
    Signed.checkedAdd_eq_some_iff] at hOk
  rcases hOk with
    ⟨config, hConfig, hFresh, funded, hFunded, stakeClass,
      hClass, hSynced, lamports, hTransfer, shares,
      ⟨_, hShares⟩, lock, hLock, unlockAt, hUnlock,
      totalShares, hTotal, totalMinted, hMinted, hEq⟩
  exact ⟨⟨config, funded, lamports, stakeClass, shares,
    unlockAt, totalShares, totalMinted, hConfig, hFresh,
    hFunded, hSynced, hTransfer,
    ⟨hClass, ⟨lock, hLock, hUnlock⟩, hShares⟩, hTotal,
    hMinted⟩, hEq.symm⟩

/- What a top-up that succeeds has loaded and computed. -/
structure AddStakeCall
    (env : Env)
    (w : World)
    (owner : Signer)
    (vowState : Pubkey)
    (lamportsToAdd : U64) where
  config : ProtocolConfig
  vow : VowState
  totalShares : U128
  lamports : Lamports
  hConfig : w.config = some config
  hLookup : w.vows.lookup vowState = some vow
  hSeeds : vowState = .vow vow.assetId
  hOwner : vow.owner = owner.key
  hActive : vow.activeStake = true
  hStaked : 0 < vow.shares.val
  hTransfer :
    transfer owner.key .reserve lamportsToAdd.val
      w.lamports = .ok lamports
  hTotal :
    totalShares.val =
      config.totalShares.val +
        lamportsToAdd.val * 1000000000000 /
          config.currentSharePrice.val

theorem AddStakeCall.reserve_eq
    {env : Env}
    {w : World}
    {owner : Signer}
    {vowState : Pubkey}
    {lamportsToAdd : U64}
    (call :
      AddStakeCall env w owner vowState lamportsToAdd) :
    call.lamports .reserve =
      w.reserve + lamportsToAdd.val :=
  transfer_to_reserve call.hTransfer

/- A top-up buys shares for an active identity. -/
theorem addStake_ok
    {env : Env}
    {w w' : World}
    {owner : Signer}
    {vowState : Pubkey}
    {lamportsToAdd : U64}
    (hOk :
      addStake env w owner vowState lamportsToAdd =
        .ok w') :
    ∃ (call :
          AddStakeCall env w owner vowState lamportsToAdd)
        (vow' : VowState),
      TopsUp env call.config lamportsToAdd call.vow vow' ∧
      w' = { w with
        lamports := call.lamports
        config := some { call.config with
          totalShares := call.totalShares }
        vows := w.vows.insert vowState vow' } := by
  unfold addStake at hOk
  simp only [bind_eq_ok_iff, loadConfig_eq_ok_iff,
    loadVowAsOwner_eq_ok_iff, require_eq_ok_iff,
    okOr_eq_ok_iff, pure_eq_ok_iff, exists_const,
    sharesForDeposit_eq_ok_iff,
    Unsigned.checkedAdd_eq_some_iff] at hOk
  rcases hOk with
    ⟨config, hConfig, vow, ⟨hLookup, hSeeds, hOwner⟩, _,
      hActive, hStaked, settled, hSettle, lamports, hTransfer,
      principal, hPrincipal, newClass, hNewClass, newShares,
      ⟨_, hNew⟩, upgraded, hUpgrade, shares, hShares,
      totalShares, hTotal, hEq⟩
  rw [Unsigned.lt_def, Unsigned.val_zero] at hStaked
  have hSettled := settleIdnft_eq_settled hSettle
  subst hSettled
  rw [hNew] at hShares hTotal
  rcases upgradeClass_cases hUpgrade with
    ⟨hClass, hUpgraded⟩ |
      ⟨hClass, unlockAt, hLock, hUpgraded⟩
  · subst hUpgraded
    exact ⟨⟨config, vow, totalShares, lamports, hConfig,
      hLookup, hSeeds, hOwner, hActive, hStaked, hTransfer,
      hTotal⟩,
      _, .sameClass principal newClass shares hPrincipal
        hNewClass hShares hClass, hEq.symm⟩
  · subst hUpgraded
    exact ⟨⟨config, vow, totalShares, lamports, hConfig,
      hLookup, hSeeds, hOwner, hActive, hStaked, hTransfer,
      hTotal⟩,
      _, .raisesClass principal newClass shares unlockAt
        hPrincipal hNewClass hShares hClass hLock,
      hEq.symm⟩

/- What a mode switch that succeeds has loaded. -/
structure UpdateYieldModeCall
    (w : World)
    (owner : Signer)
    (vowState : Pubkey) where
  config : ProtocolConfig
  vow : VowState
  hConfig : w.config = some config
  hLookup : w.vows.lookup vowState = some vow
  hSeeds : vowState = .vow vow.assetId
  hOwner : vow.owner = owner.key
  hActive : vow.activeStake = true

/- A mode switch only settles the identity. -/
theorem updateYieldMode_ok
    {w w' : World}
    {owner : Signer}
    {vowState : Pubkey}
    {newMode : YieldMode}
    (hOk :
      updateYieldMode w owner vowState newMode = .ok w') :
    ∃ call : UpdateYieldModeCall w owner vowState,
      w' = { w with
        vows := w.vows.insert vowState
          { call.vow.settled
              call.config.currentSharePrice with
            yieldMode := newMode } } := by
  unfold updateYieldMode at hOk
  simp only [bind_eq_ok_iff, loadConfig_eq_ok_iff,
    loadVowAsOwner_eq_ok_iff, require_eq_ok_iff,
    pure_eq_ok_iff, exists_const] at hOk
  rcases hOk with
    ⟨config, hConfig, vow, ⟨hLookup, hSeeds, hOwner⟩,
      hActive, _, settled, hSettle, hEq⟩
  rw [settleIdnft_eq_settled hSettle] at hEq
  exact ⟨⟨config, vow, hConfig, hLookup, hSeeds, hOwner,
    hActive⟩, hEq.symm⟩

end Vow

------------------------------------------------------------
-- Unstaking
------------------------------------------------------------

namespace Vow

open MachineInt Fallible

/- What an exit that begins has loaded and computed. -/
structure BeginUnstakeCall
    (env : Env)
    (w : World)
    (owner : Signer)
    (vowState : Pubkey) where
  config : ProtocolConfig
  vow : VowState
  lamportsOwed : U64
  totalPending : U64
  lamports : Lamports
  hConfig : w.config = some config
  hLookup : w.vows.lookup vowState = some vow
  hSeeds : vowState = .vow vow.assetId
  hOwner : vow.owner = owner.key
  hFresh : w.escrows.lookup (.unstake vowState) = none
  hInit :
    initAccount env owner.key (.unstake vowState)
      UnstakeEscrow.LEN w.lamports = .ok lamports
  hActive : vow.activeStake = true
  hMature :
    vow.matured = true ∨ vow.unlockAt ≤ env.unixTimestamp
  hOwed :
    lamportsOwed.val =
      valueAt vow.shares.val config.currentSharePrice.val %
          2 ^ 64 +
        vow.yieldBalance.val
  hPending :
    totalPending.val =
      config.totalPendingUnstake.val + lamportsOwed.val

theorem BeginUnstakeCall.reserve_eq
    {env : Env}
    {w : World}
    {owner : Signer}
    {vowState : Pubkey}
    (call : BeginUnstakeCall env w owner vowState) :
    call.lamports .reserve = w.reserve :=
  initAccount_of_ne call.hInit (reserve_ne_key owner)
    (by simp)

/-
  An exit turns the whole position and the yield balance into
  an escrow. Only the low 64 bits of the value are owed.
-/
theorem beginUnstake_ok
    {env : Env}
    {w w' : World}
    {owner : Signer}
    {vowState : Pubkey}
    (hOk : beginUnstake env w owner vowState = .ok w') :
    ∃ call : BeginUnstakeCall env w owner vowState,
      w' = { w with
        lamports := call.lamports
        config := some { call.config with
          totalShares :=
            call.config.totalShares.saturatingSub
              call.vow.shares
          totalYieldClaims :=
            call.config.totalYieldClaims.saturatingSub
              call.vow.yieldBalance
          totalPendingUnstake := call.totalPending }
        vows := w.vows.insert vowState
          { call.vow.settled
              call.config.currentSharePrice with
            matured := true
            shares := 0
            yieldBalance := 0 }
        escrows := w.escrows.insert (.unstake vowState)
          { vowState := vowState
            owner := owner.key
            lamportsOwed := call.lamportsOwed
            deactivationEpoch := env.epoch } } := by
  unfold beginUnstake at hOk
  simp only [bind_eq_ok_iff, loadConfig_eq_ok_iff,
    loadVowAsOwner_eq_ok_iff, require_eq_ok_iff,
    okOr_eq_ok_iff, pure_eq_ok_iff, exists_const,
    positionValue_eq_ok_iff,
    Unsigned.checkedAdd_eq_some_iff] at hOk
  rcases hOk with
    ⟨config, hConfig, vow, ⟨hLookup, hSeeds, hOwner⟩, hFresh,
      lamports, hInit, hActive, hMatured, settled, hSettle,
      value, ⟨_, hValue⟩, lamportsOwed, hOwed, totalPending,
      hPending, hEq⟩
  rcases matureIfDue_matured hMatured with ⟨hLock, hDue⟩
  rw [hDue] at hSettle
  rw [settleIdnft_eq_settled hSettle] at hEq hValue hOwed
  rw [Unsigned.val_cast, hValue] at hOwed
  exact ⟨⟨config, vow, lamportsOwed, totalPending, lamports,
    hConfig, hLookup, hSeeds, hOwner, hFresh, hInit, hActive,
    hLock, hOwed, hPending⟩, hEq.symm⟩

/- What a completion that succeeds has loaded and paid. -/
structure CompleteUnstakeCall
    (env : Env)
    (w : World)
    (owner : Signer)
    (vowState : Pubkey) where
  config : ProtocolConfig
  vow : VowState
  escrow : UnstakeEscrow
  lamports : Lamports
  hConfig : w.config = some config
  hLookup : w.vows.lookup vowState = some vow
  hSeeds : vowState = .vow vow.assetId
  hOwner : vow.owner = owner.key
  hEscrow :
    w.escrows.lookup (.unstake vowState) = some escrow
  hPayee : escrow.owner = owner.key
  hEpoch : escrow.deactivationEpoch < env.epoch
  hReserve : 0 < w.reserve
  hPay :
    0 < payAmount escrow.lamportsOwed w.reserve
      config.totalPendingUnstake
  hTransfer :
    transfer .reserve owner.key
      (payAmount escrow.lamportsOwed w.reserve
        config.totalPendingUnstake).val
      w.lamports = .ok lamports

/- A completion pays the escrow out and closes it. -/
theorem completeUnstake_eq_ok_iff
    {env : Env}
    {w w' : World}
    {owner : Signer}
    {vowState : Pubkey} :
    completeUnstake env w owner vowState = .ok w' ↔
      ∃ call : CompleteUnstakeCall env w owner vowState,
        w' = { w with
          lamports :=
            closeAccount (.unstake vowState) owner.key
              call.lamports
          config := some { call.config with
            totalPendingUnstake :=
              call.config.totalPendingUnstake.saturatingSub
                call.escrow.lamportsOwed }
          vows := w.vows.insert vowState
            (dormantVow env.unixTimestamp call.vow)
          escrows :=
            w.escrows.erase (.unstake vowState) } := by
  unfold completeUnstake
  simp only [bind_eq_ok_iff, loadConfig_eq_ok_iff,
    loadVowAsOwner_eq_ok_iff, require_eq_ok_iff,
    okOr_eq_ok_iff, pure_eq_ok_iff, exists_const]
  constructor
  · rintro ⟨config, hConfig, vow, ⟨hLookup, hSeeds, hOwner⟩,
      escrow, hEscrow, hPayee, hEpoch, hReserve, hPay,
      lamports, hTransfer, hEq⟩
    exact ⟨⟨config, vow, escrow, lamports, hConfig, hLookup,
      hSeeds, hOwner, hEscrow, hPayee, hEpoch, hReserve,
      hPay, hTransfer⟩, hEq.symm⟩
  · rintro ⟨call, hEq⟩
    exact ⟨call.config, call.hConfig, call.vow,
      ⟨call.hLookup, call.hSeeds, call.hOwner⟩, call.escrow,
      call.hEscrow, call.hPayee, call.hEpoch, call.hReserve,
      call.hPay, call.lamports, call.hTransfer, hEq.symm⟩

/- What a re-activation that succeeds has computed. -/
structure ActivateStakeCall
    (env : Env)
    (w : World)
    (owner : Signer)
    (vowState : Pubkey)
    (stakeLamports : U64) where
  config : ProtocolConfig
  vow : VowState
  settled : VowState
  newClass : U8
  newShares : U128
  unlockAt : I64
  totalShares : U128
  lamports : Lamports
  hConfig : w.config = some config
  hLookup : w.vows.lookup vowState = some vow
  hSeeds : vowState = .vow vow.assetId
  hOwner : vow.owner = owner.key
  hDormant : vow.activeStake = false
  hSettle : settleIdnft vow config = .ok settled
  hTransfer :
    transfer owner.key .reserve stakeLamports.val
      w.lamports = .ok lamports
  hOpens :
    OpensStake env config stakeLamports newClass newShares
      unlockAt
  hTotal :
    totalShares.val =
      config.totalShares.val - vow.shares.val +
        newShares.val

theorem ActivateStakeCall.reserve_eq
    {env : Env}
    {w : World}
    {owner : Signer}
    {vowState : Pubkey}
    {stakeLamports : U64}
    (call :
      ActivateStakeCall env w owner vowState stakeLamports) :
    call.lamports .reserve =
      w.reserve + stakeLamports.val :=
  transfer_to_reserve call.hTransfer

/- A re-activation replaces whatever shares were left. -/
theorem activateStake_ok
    {env : Env}
    {w w' : World}
    {owner : Signer}
    {vowState : Pubkey}
    {stakeLamports : U64}
    {yieldMode : YieldMode}
    (hOk :
      activateStake env w owner vowState stakeLamports
        yieldMode = .ok w') :
    ∃ call :
        ActivateStakeCall env w owner vowState stakeLamports,
      w' = { w with
        lamports := call.lamports
        config := some { call.config with
          totalShares := call.totalShares }
        vows := w.vows.insert vowState
          (activatedVow env call.config stakeLamports
            yieldMode call.newClass call.newShares
            call.unlockAt call.settled) } := by
  unfold activateStake at hOk
  simp only [bind_eq_ok_iff, loadConfig_eq_ok_iff,
    loadVowAsOwner_eq_ok_iff, require_eq_ok_iff,
    okOr_eq_ok_iff, pure_eq_ok_iff, exists_const,
    sharesForDeposit_eq_ok_iff,
    Unsigned.checkedAdd_eq_some_iff,
    Signed.checkedAdd_eq_some_iff,
    Unsigned.val_saturatingSub] at hOk
  rcases hOk with
    ⟨config, hConfig, vow, ⟨hLookup, hSeeds, hOwner⟩, hDormant,
      settled, hSettle, newClass, hClass, lamports,
      hTransfer, newShares, ⟨_, hNew⟩, lock, hLock,
      unlockAt, hUnlock, totalShares, hTotal, hEq⟩
  rw [show settled.shares = vow.shares by
    rw [settleIdnft_ok hSettle]] at hTotal
  exact ⟨⟨config, vow, settled, newClass, newShares,
    unlockAt, totalShares, lamports, hConfig, hLookup,
    hSeeds, hOwner, hDormant, hSettle, hTransfer,
    ⟨hClass, ⟨lock, hLock, hUnlock⟩, hNew⟩, hTotal⟩,
    hEq.symm⟩

end Vow

------------------------------------------------------------
-- Yield
------------------------------------------------------------

namespace Vow

open MachineInt Fallible

/- What a yield deposit that succeeds has loaded. -/
structure DepositYieldBalanceCall
    (w : World)
    (depositor : Signer)
    (vowState : Pubkey)
    (amount : U64) where
  config : ProtocolConfig
  vow : VowState
  lamports : Lamports
  hConfig : w.config = some config
  hLookup : w.vows.lookup vowState = some vow
  hSeeds : vowState = .vow vow.assetId
  hActive : vow.activeStake = true
  hFresh : w.escrows.lookup (.unstake vowState) = none
  hTransfer :
    transfer depositor.key .reserve amount.val w.lamports =
      .ok lamports

theorem DepositYieldBalanceCall.reserve_eq
    {w : World}
    {depositor : Signer}
    {vowState : Pubkey}
    {amount : U64}
    (call :
      DepositYieldBalanceCall w depositor vowState amount) :
    call.lamports .reserve = w.reserve + amount.val :=
  transfer_to_reserve call.hTransfer

/- A yield deposit pays the reserve and credits the balance. -/
theorem depositYieldBalance_ok
    {w w' : World}
    {depositor : Signer}
    {vowState : Pubkey}
    {amount : U64}
    (hOk :
      depositYieldBalance w depositor vowState amount =
        .ok w') :
    ∃ call :
        DepositYieldBalanceCall w depositor vowState amount,
      w' = { w with
        lamports := call.lamports
        config := some { call.config with
          totalYieldClaims :=
            call.config.totalYieldClaims.saturatingAdd
              amount }
        vows := w.vows.insert vowState { call.vow with
          yieldBalance :=
            call.vow.yieldBalance.saturatingAdd
              amount } } := by
  unfold depositYieldBalance at hOk
  simp only [bind_eq_ok_iff, loadConfig_eq_ok_iff,
    loadVow_eq_ok_iff, require_eq_ok_iff, pure_eq_ok_iff,
    exists_const] at hOk
  rcases hOk with
    ⟨config, hConfig, vow, ⟨hLookup, hSeeds⟩, _, hActive,
      hFresh, lamports, hTransfer, hEq⟩
  exact ⟨⟨config, vow, lamports, hConfig, hLookup, hSeeds,
    hActive, hFresh, hTransfer⟩, hEq.symm⟩

/-
  What a withdrawal that succeeds has loaded and computed.
  Without an amount all of the balance is withdrawn.
-/
structure WithdrawYieldCall
    (w : World)
    (owner : Signer)
    (vowState : Pubkey)
    (amount : Option U64) where
  config : ProtocolConfig
  vow : VowState
  yieldBalance : U64
  lamports : Lamports
  hConfig : w.config = some config
  hLookup : w.vows.lookup vowState = some vow
  hSeeds : vowState = .vow vow.assetId
  hOwner : vow.owner = owner.key
  hBalance :
    vow.yieldBalance.val =
      yieldBalance.val + (amount.getD vow.yieldBalance).val
  hTransfer :
    transfer .reserve owner.key
      (amount.getD vow.yieldBalance).val w.lamports =
        .ok lamports

theorem WithdrawYieldCall.reserve_eq
    {w : World}
    {owner : Signer}
    {vowState : Pubkey}
    {amount : Option U64}
    (call : WithdrawYieldCall w owner vowState amount) :
    w.reserve =
      call.lamports .reserve +
        (amount.getD call.vow.yieldBalance).val :=
  transfer_from_reserve call.hTransfer

/- A withdrawal pays the owner out of the balance. -/
theorem withdrawYield_ok
    {w w' : World}
    {owner : Signer}
    {vowState : Pubkey}
    {amount : Option U64}
    (hOk : withdrawYield w owner vowState amount = .ok w') :
    ∃ call : WithdrawYieldCall w owner vowState amount,
      w' = { w with
        lamports := call.lamports
        config := some { call.config with
          totalYieldClaims :=
            call.config.totalYieldClaims.saturatingSub
              (amount.getD call.vow.yieldBalance) }
        vows := w.vows.insert vowState { call.vow with
          yieldBalance := call.yieldBalance } } := by
  unfold withdrawYield at hOk
  simp only [bind_eq_ok_iff, loadConfig_eq_ok_iff,
    loadVowAsOwner_eq_ok_iff, require_eq_ok_iff,
    okOr_eq_ok_iff, pure_eq_ok_iff, exists_const,
    Unsigned.checkedSub_eq_some_iff] at hOk
  rcases hOk with
    ⟨config, hConfig, vow, ⟨hLookup, hSeeds, hOwner⟩, _, _, _,
      yieldBalance, hBalance, lamports, hTransfer, hEq⟩
  exact ⟨⟨config, vow, yieldBalance, lamports, hConfig,
    hLookup, hSeeds, hOwner, hBalance, hTransfer⟩, hEq.symm⟩

/- The live-session checks of a spend. -/
theorem checkSessionLive_ok_iff
    {env : Env}
    {idnft : VowState}
    {session : SessionAccount}
    {sessionSigner : Signer}
    {u : Unit} :
    checkSessionLive env idnft session sessionSigner =
        .ok u ↔
      sessionSigner.key = session.sessionKey ∧
        session.active = true ∧
        (session.expiryTs = 0 ∨
          env.unixTimestamp < session.expiryTs) ∧
        idnft.sessionsInvalidatedAt ≤ session.startTs ∧
        idnft.activeStake = true := by
  unfold checkSessionLive
  simp only [bind_eq_ok_iff, require_eq_ok_iff,
    exists_const]

/- The limit checks of a spend. -/
theorem checkLimits_ok_iff
    {session : SessionAccount}
    {amount : U64}
    {u : Unit} :
    checkLimits session amount = .ok u ↔
      (0 < session.velocityLimit →
        session.txCountToday < session.velocityLimit) ∧
      (0 < session.dailyLimit →
        session.spentToday.saturatingAdd amount ≤
          session.dailyLimit) ∧
      (0 < session.lifetimeLimit →
        session.spentTotal.saturatingAdd amount ≤
          session.lifetimeLimit) := by
  unfold checkLimits
  simp only [bind_eq_ok_iff, require_eq_ok_iff,
    exists_const]

/- The counters after a spend are exact sums. -/
theorem recordSpend_ok
    {session spent : SessionAccount}
    {amount : U64}
    (hOk : recordSpend session amount = .ok spent) :
    ∃ (spentToday spentTotal : U64) (txCountToday : U32),
      spentToday.val =
        session.spentToday.val + amount.val ∧
      spentTotal.val =
        session.spentTotal.val + amount.val ∧
      txCountToday.val = session.txCountToday.val + 1 ∧
      spent = { session with
        spentToday := spentToday
        spentTotal := spentTotal
        txCountToday := txCountToday } := by
  unfold recordSpend at hOk
  simp only [bind_eq_ok_iff, okOr_eq_ok_iff, pure_eq_ok_iff,
    Unsigned.checkedAdd_eq_some_iff,
    Unsigned.val_one (show 0 < 32 by decide)] at hOk
  rcases hOk with
    ⟨spentToday, hToday, spentTotal, hTotal, txCount, hCount,
      hEq⟩
  exact ⟨spentToday, spentTotal, txCount, hToday, hTotal,
    hCount, hEq.symm⟩

/- The counters of a session. -/
structure SpendCounters where
  spentToday : U64
  spentTotal : U64
  txCountToday : U32
  lastResetDay : I64

/- A spend only touches the counters of the session. -/
theorem recordSpend_counters
    {now : I64}
    {session spent : SessionAccount}
    {amount : U64}
    (hSpent :
      recordSpend (resetDailyIfNeeded now session) amount =
        .ok spent) :
    ∃ counters : SpendCounters,
      spent = { session with
        spentToday := counters.spentToday
        spentTotal := counters.spentTotal
        txCountToday := counters.txCountToday
        lastResetDay := counters.lastResetDay } := by
  rcases recordSpend_ok hSpent with
    ⟨spentToday, spentTotal, txCountToday, _, _, _, hEq⟩
  subst hEq
  unfold resetDailyIfNeeded
  dsimp only
  split
  · exact ⟨⟨spentToday, spentTotal, txCountToday, _⟩, rfl⟩
  · exact ⟨⟨spentToday, spentTotal, txCountToday, _⟩, rfl⟩

/- What a spend that succeeds has loaded and computed. -/
structure YieldSpendCall
    (env : Env)
    (w : World)
    (ix : YieldSpend) where
  config : ProtocolConfig
  vow : VowState
  session : SessionAccount
  spent : SessionAccount
  yieldBalance : U64
  lamports : Lamports
  hConfig : w.config = some config
  hLookup : w.vows.lookup ix.vowState = some vow
  hVowSeeds : ix.vowState = .vow vow.assetId
  hSession :
    w.sessions.lookup ix.sessionAccount = some session
  hSeeds :
    ix.sessionAccount =
      .session ix.vowState session.sessionIndex
  hVow : session.vowState = ix.vowState
  hLive :
    checkSessionLive env vow session ix.sessionSigner =
      .ok ()
  hProgram : checkCallingProgram session ix = .ok ()
  hRegistry : checkAppRegistry w ix = .ok ()
  hLimits :
    checkLimits
      (resetDailyIfNeeded env.unixTimestamp session)
      ix.amount = .ok ()
  hFunds : ix.amount.val ≤ w.reserve
  hSpent :
    recordSpend
      (resetDailyIfNeeded env.unixTimestamp session)
      ix.amount = .ok spent
  hBalance :
    vow.yieldBalance.val =
      yieldBalance.val + ix.amount.val
  hTransfer :
    transfer .reserve ix.destination ix.amount.val
      w.lamports = .ok lamports

theorem YieldSpendCall.reserve_le
    {env : Env}
    {w : World}
    {ix : YieldSpend}
    (call : YieldSpendCall env w ix) :
    w.reserve ≤ call.lamports .reserve + ix.amount.val :=
  transfer_from_reserve_le call.hTransfer

/- A spend moves yield out through a live session. -/
theorem yieldSpend_eq_ok_iff
    {env : Env}
    {w w' : World}
    {ix : YieldSpend} :
    yieldSpend env w ix = .ok w' ↔
      ∃ call : YieldSpendCall env w ix,
        w' = { w with
          lamports := call.lamports
          config := some { call.config with
            totalYieldClaims :=
              call.config.totalYieldClaims.saturatingSub
                ix.amount }
          vows := w.vows.insert ix.vowState { call.vow with
            yieldBalance := call.yieldBalance }
          sessions := w.sessions.insert ix.sessionAccount
            call.spent } := by
  unfold yieldSpend
  simp only [bind_eq_ok_iff, loadConfig_eq_ok_iff,
    loadVow_eq_ok_iff, loadSession_eq_ok_iff,
    require_eq_ok_iff, okOr_eq_ok_iff, pure_eq_ok_iff,
    exists_const, Unsigned.checkedSub_eq_some_iff]
  constructor
  · rintro ⟨config, hConfig, vow, ⟨hLookup, hVowSeeds⟩,
      session, ⟨hSession, hSeeds, hVow⟩, _, hLive, _,
      hProgram, _, hRegistry, _, hLimits, _, hFunds,
      yieldBalance, hBalance, spent, hSpent, lamports,
      hTransfer, hEq⟩
    exact ⟨⟨config, vow, session, spent, yieldBalance,
      lamports, hConfig, hLookup, hVowSeeds, hSession,
      hSeeds, hVow, hLive, hProgram, hRegistry, hLimits,
      hFunds, hSpent, hBalance, hTransfer⟩, hEq.symm⟩
  · rintro ⟨call, hEq⟩
    have hBalance := call.hBalance
    have hAmount : ix.amount ≤ call.vow.yieldBalance := by
      rw [Unsigned.le_def]
      omega
    exact ⟨call.config, call.hConfig, call.vow,
      ⟨call.hLookup, call.hVowSeeds⟩, call.session,
      ⟨call.hSession, call.hSeeds, call.hVow⟩, (),
      call.hLive, (), call.hProgram, (), call.hRegistry, (),
      call.hLimits, hAmount, call.hFunds, call.yieldBalance,
      hBalance, call.spent, call.hSpent, call.lamports,
      call.hTransfer, hEq.symm⟩

end Vow

------------------------------------------------------------
-- Sessions
------------------------------------------------------------

namespace Vow

open MachineInt Fallible

/- The account that `createSession` writes. -/
def openedSession
    (env : Env)
    (ix : CreateSession)
    (vow : VowState)
    (limits : SessionParams) :
    SessionAccount where
  vowState := ix.vowState
  sessionKey := ix.sessionKey
  allowedProgramIds :=
    fillProgramIds ix.allowedProgramIds
      (Vector.replicate 8 .default)
  programCount :=
    Unsigned.ofNat 8 ix.allowedProgramIds.length
  sessionIndex := ix.sessionIndex
  creationNonce := vow.sessionNonce
  startTs := env.unixTimestamp
  expiryTs := limits.expiryTs
  dailyLimit := limits.dailyLimit
  lifetimeLimit := limits.lifetimeLimit
  velocityLimit := limits.velocityLimit
  spentToday := 0
  spentTotal := 0
  txCountToday := 0
  lastResetDay := env.unixTimestamp.quot 86400
  active := true

/- What a creation that succeeds has loaded and computed. -/
structure CreateSessionCall
    (env : Env)
    (w : World)
    (ix : CreateSession) where
  config : ProtocolConfig
  vow : VowState
  profile : Option AuthorityProfile
  limits : SessionParams
  sessionNonce : U64
  lamports : Lamports
  hConfig : w.config = some config
  hLookup : w.vows.lookup ix.vowState = some vow
  hSeeds : ix.vowState = .vow vow.assetId
  hOwner : vow.owner = ix.owner.key
  hActive : vow.activeStake = true
  hFresh :
    w.sessions.lookup
      (.session ix.vowState ix.sessionIndex) = none
  hInit :
    initAccount env ix.owner.key
      (.session ix.vowState ix.sessionIndex)
      SessionAccount.LEN w.lamports = .ok lamports
  hProfile : loadProfile w ix.authorityProfile = .ok profile
  hPrograms : ix.allowedProgramIds.length ≤ 8
  hLimits :
    sessionLimits env ix.owner profile ix.params = .ok limits
  hNonce : sessionNonce.val = vow.sessionNonce.val + 1

theorem CreateSessionCall.reserve_eq
    {env : Env}
    {w : World}
    {ix : CreateSession}
    (call : CreateSessionCall env w ix) :
    call.lamports .reserve = w.reserve :=
  initAccount_of_ne call.hInit (reserve_ne_key ix.owner)
    (by simp)

/- A creation fills an empty slot for the owner. -/
theorem createSession_ok
    {env : Env}
    {w w' : World}
    {ix : CreateSession}
    (hOk : createSession env w ix = .ok w') :
    ∃ call : CreateSessionCall env w ix,
      w' = { w with
        lamports := call.lamports
        vows := w.vows.insert ix.vowState { call.vow with
          sessionNonce := call.sessionNonce }
        sessions := w.sessions.insert
          (.session ix.vowState ix.sessionIndex)
          (openedSession env ix call.vow call.limits) } := by
  unfold createSession at hOk
  simp only [bind_eq_ok_iff, loadConfig_eq_ok_iff,
    loadVowAsOwner_eq_ok_iff, require_eq_ok_iff,
    okOr_eq_ok_iff, pure_eq_ok_iff, exists_const,
    Unsigned.checkedAdd_eq_some_iff,
    Unsigned.val_one (show 0 < 64 by decide)] at hOk
  rcases hOk with
    ⟨config, hConfig, vow, ⟨hLookup, hSeeds, hOwner⟩, hFresh,
      lamports, hInit, profile, hProfile, hPrograms, _,
      hActive, limits, hLimits, nonce, hNonce, hEq⟩
  exact ⟨⟨config, vow, profile, limits, nonce, lamports,
    hConfig, hLookup, hSeeds, hOwner, hActive, hFresh, hInit,
    hProfile, hPrograms, hLimits, hNonce⟩, hEq.symm⟩

/- What a call on an open session has loaded. -/
structure SessionCall
    (w : World)
    (owner : Signer)
    (vowState sessionAccount : Pubkey) where
  vow : VowState
  session : SessionAccount
  hLookup : w.vows.lookup vowState = some vow
  hOwner : vow.owner = owner.key
  hSession :
    w.sessions.lookup sessionAccount = some session
  hSeeds :
    sessionAccount = .session vowState session.sessionIndex
  hVow : session.vowState = vowState

/- A revocation clears the active flag and nothing else. -/
theorem revokeSession_ok
    {w w' : World}
    {owner : Signer}
    {vowState sessionAccount : Pubkey}
    (hOk :
      revokeSession w owner vowState sessionAccount =
        .ok w') :
    ∃ call : SessionCall w owner vowState sessionAccount,
      w' = { w with
        sessions := w.sessions.insert sessionAccount
          { call.session with active := false } } := by
  unfold revokeSession at hOk
  simp only [bind_eq_ok_iff, loadVowAsOwner_eq_ok_iff,
    loadSession_eq_ok_iff, pure_eq_ok_iff] at hOk
  rcases hOk with
    ⟨vow, ⟨hLookup, _, hOwner⟩, session,
      ⟨hSession, hSeeds, hVow⟩, hEq⟩
  exact ⟨⟨vow, session, hLookup, hOwner, hSession, hSeeds,
    hVow⟩, hEq.symm⟩

/- What a close that succeeds has loaded and checked. -/
structure CloseSessionCall
    (env : Env)
    (w : World)
    (owner : Signer)
    (vowState sessionAccount : Pubkey) extends
    SessionCall w owner vowState sessionAccount where
  hEligible :
    closeEligible env.unixTimestamp vow session = true

theorem CloseSessionCall.reserve_eq
    {env : Env}
    {w : World}
    {owner : Signer}
    {vowState sessionAccount : Pubkey}
    (call :
      CloseSessionCall env w owner vowState
        sessionAccount) :
    closeAccount sessionAccount owner.key w.lamports
        .reserve =
      w.reserve :=
  closeAccount_of_ne (by simp [call.hSeeds])
    (reserve_ne_key owner) _

/- A close empties the slot and returns its lamports. -/
theorem closeSession_ok
    {env : Env}
    {w w' : World}
    {owner : Signer}
    {vowState sessionAccount : Pubkey}
    (hOk :
      closeSession env w owner vowState sessionAccount =
        .ok w') :
    ∃ _ :
        CloseSessionCall env w owner vowState
          sessionAccount,
      w' = { w with
        lamports :=
          closeAccount sessionAccount owner.key w.lamports
        sessions := w.sessions.erase sessionAccount } := by
  unfold closeSession at hOk
  simp only [bind_eq_ok_iff, loadVowAsOwner_eq_ok_iff,
    loadSession_eq_ok_iff, require_eq_ok_iff,
    pure_eq_ok_iff, exists_const] at hOk
  rcases hOk with
    ⟨vow, ⟨hLookup, _, hOwner⟩, session,
      ⟨hSession, hSeeds, hVow⟩, hEligible, hEq⟩
  exact ⟨⟨⟨vow, session, hLookup, hOwner, hSession, hSeeds,
    hVow⟩, hEligible⟩, hEq.symm⟩

end Vow

------------------------------------------------------------
-- Errors
------------------------------------------------------------

namespace Vow

open MachineInt Fallible

variable {e : ProgramError}

/- Loading an identity fails with two errors only. -/
theorem loadVow_avoids
    {w : World}
    {address : Pubkey}
    (hMissing : .accountNotInitialized ≠ e)
    (hSeeds : .constraintSeeds ≠ e) :
    Avoids e (loadVow w address) := by
  unfold loadVow
  refine (Avoids.okOr_of_ne hMissing).bind ?_
  intro vow _
  refine (Avoids.require_of_ne hSeeds).bind ?_
  intro _ _
  exact Avoids.pure vow

theorem loadVowAsOwner_avoids
    {w : World}
    {address : Pubkey}
    {owner : Signer}
    (hMissing : .accountNotInitialized ≠ e)
    (hSeeds : .constraintSeeds ≠ e)
    (hOwner : .vow .invalidOwner ≠ e) :
    Avoids e (loadVowAsOwner w address owner) := by
  unfold loadVowAsOwner
  refine (loadVow_avoids hMissing hSeeds).bind ?_
  intro vow _
  refine (Avoids.require_of_ne hOwner).bind ?_
  intro _ _
  exact Avoids.pure vow

theorem transfer_avoids
    {source destination : Pubkey}
    {amount : Nat}
    {l : Lamports}
    (hFunds : .insufficientFunds ≠ e) :
    Avoids e (transfer source destination amount l) := by
  unfold transfer
  refine (Avoids.require_of_ne hFunds).bind ?_
  intro _ _
  exact Avoids.pure _

/- Share arithmetic fails on overflow only. -/
theorem positionValue_avoids
    {shares price : U128}
    (hOverflow : .vow .mathOverflow ≠ e) :
    Avoids e (positionValue shares price) := by
  unfold positionValue
  refine (Avoids.okOr_of_ne hOverflow).bind ?_
  intro _ _
  exact Avoids.pure _

theorem sharesForDeposit_avoids
    {lamports : U64}
    {price : U128}
    (hOverflow : .vow .mathOverflow ≠ e) :
    Avoids e (sharesForDeposit lamports price) := by
  unfold sharesForDeposit
  refine (Avoids.okOr_of_ne hOverflow).bind ?_
  intro _ _
  exact Avoids.okOr_of_ne hOverflow

theorem settleIdnft_avoids
    {idnft : VowState}
    {config : ProtocolConfig}
    (hOverflow : .vow .mathOverflow ≠ e) :
    Avoids e (settleIdnft idnft config) := by
  unfold settleIdnft
  split
  · exact Avoids.ok idnft
  · refine (positionValue_avoids hOverflow).bind ?_
    intro _ _
    refine (positionValue_avoids hOverflow).bind ?_
    intro _ _
    exact Avoids.pure _

/- A class upgrade can only panic. -/
theorem upgradeClass_avoids
    {now : I64}
    {newClass : U8}
    {idnft : VowState}
    (hPanic : .panicked ≠ e) :
    Avoids e (upgradeClass now newClass idnft) := by
  unfold upgradeClass
  split
  · refine (Avoids.okOr_of_ne hPanic).bind ?_
    intro _ _
    refine (Avoids.okOr_of_ne hPanic).bind ?_
    intro _ _
    exact Avoids.pure _
  · exact Avoids.ok idnft

end Vow
