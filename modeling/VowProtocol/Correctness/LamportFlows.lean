import VowProtocol.Library.Balances
import VowProtocol.Correctness.Refinement

/-
  Where lamports go.

  Every instruction but the two pool cranks is a sequence of
  covered payments between addresses, so a run only gains and
  loses lamports at its edges: arrivals, spends of wallets,
  and the stake pool. Each address has its own rule for who
  can lower its balance, and by how much.

  Key definitions include:
    * `Instruction.cost`
    * `Debit`
    * `externalFlow`

  Key theorems include:
    * `execute_pays`
    * `lamports_fall_debit`
    * `supply_run`
-/

------------------------------------------------------------
-- Account Operations
------------------------------------------------------------

namespace Vow

open MachineInt Fallible Balances

variable {P : Pubkey → Prop}

theorem transfer_pays
    {source destination : Pubkey}
    {amount : Nat}
    {l l' : Lamports}
    (hTransfer :
      transfer source destination amount l = .ok l')
    (hSource : P source) :
    Payments P l l' := by
  rcases transfer_eq_ok_iff.mp hTransfer with ⟨hFunds, hEq⟩
  rw [hEq]
  exact Payments.single destination hSource hFunds

/- A transfer to another address costs the source its amount. -/
theorem transfer_paid
    {source destination : Pubkey}
    {amount : Nat}
    {l l' : Lamports}
    (hTransfer :
      transfer source destination amount l = .ok l')
    (hNe : destination ≠ source) :
    l source = l' source + amount := by
  rcases transfer_eq_ok_iff.mp hTransfer with ⟨hFunds, hEq⟩
  rw [hEq, credit_of_ne hNe.symm, debit_self]
  omega

/- A transfer to the source itself moves nothing. -/
theorem transfer_self
    {source : Pubkey}
    {amount : Nat}
    {l l' : Lamports}
    (hTransfer : transfer source source amount l = .ok l') :
    l' = l := by
  rcases transfer_eq_ok_iff.mp hTransfer with ⟨hFunds, hEq⟩
  rw [hEq]
  funext k
  by_cases hKey : k = source
  · subst hKey
    rw [credit_self, debit_self]
    omega
  · rw [credit_of_ne hKey, debit_of_ne hKey]

/- What opening an account costs its payer. -/
def rentDue
    (env : Env)
    (address : Pubkey)
    (space : Nat)
    (l : Lamports) :
    Nat :=
  if l address = 0 then
    env.minimumBalance space
  else
    max (env.minimumBalance space) 1 - l address

theorem initAccount_transfer
    {env : Env}
    {payer address : Pubkey}
    {space : Nat}
    {l l' : Lamports}
    (hInit : initAccount env payer address space l = .ok l') :
    transfer payer address (rentDue env address space l) l =
      .ok l' :=
  hInit

theorem closeAccount_pays
    {address : Pubkey}
    (destination : Pubkey)
    (l : Lamports)
    (hAddress : P address) :
    Payments P l (closeAccount address destination l) :=
  Payments.single destination hAddress (le_refl (l address))

end Vow

------------------------------------------------------------
-- Handlers Paid For By Their Signer
------------------------------------------------------------

namespace Vow

open MachineInt Fallible Balances

/-
  All payments come out of the signer's wallet, which ends up
  lower by exactly their sum.
-/
structure SignerPays
    (signer : Signer)
    (amount : Nat)
    (l l' : Lamports) :
    Prop where
  payments : Payments (fun k => k = signer.key) l l'
  paid : l signer.key = l' signer.key + amount

theorem SignerPays.refl
    (signer : Signer)
    (l : Lamports) :
    SignerPays signer 0 l l :=
  ⟨Payments.refl l, rfl⟩

theorem SignerPays.ofTransfer
    {signer : Signer}
    {destination : Pubkey}
    {amount : Nat}
    {l l' : Lamports}
    (hTransfer :
      transfer signer.key destination amount l = .ok l')
    (hNe : destination ≠ signer.key) :
    SignerPays signer amount l l' :=
  ⟨transfer_pays hTransfer rfl, transfer_paid hTransfer hNe⟩

theorem SignerPays.ofInit
    {env : Env}
    {signer : Signer}
    {address : Pubkey}
    {space : Nat}
    {l l' : Lamports}
    (hInit :
      initAccount env signer.key address space l = .ok l')
    (hNe : address ≠ signer.key) :
    SignerPays signer (rentDue env address space l) l l' :=
  .ofTransfer (initAccount_transfer hInit) hNe

theorem SignerPays.trans
    {signer : Signer}
    {first second : Nat}
    {l m n : Lamports}
    (hFirst : SignerPays signer first l m)
    (hSecond : SignerPays signer second m n) :
    SignerPays signer (first + second) l n := by
  refine ⟨hFirst.payments.trans hSecond.payments, ?_⟩
  rw [hFirst.paid, hSecond.paid]
  omega

/- The rent of a commitment record, when it is new. -/
def recordRent
    (env : Env)
    (w : World)
    (address : Pubkey) :
    Nat :=
  match w.records.lookup address with
  | some _ => 0
  | none =>
      rentDue env address CommitmentRecord.LEN w.lamports

/-
  What an instruction takes from its signer: the rent of the
  accounts that it opens, and the stake or the deposit.
-/
def Instruction.cost
    (env : Env)
    (w : World) :
    Instruction → Nat
| .initializeConfig _ _ _ _ =>
    rentDue env .config ProtocolConfig.LEN w.lamports
| .registerApp _ programId =>
    rentDue env (.app programId) AppRegistry.LEN w.lamports
| .mintVow _ stakeLamports _ =>
    match w.config with
    | some config =>
        rentDue env (.vow (.vowAsset config.totalMinted))
          VowState.LEN w.lamports + stakeLamports.val
    | none => 0
| .addStake _ _ lamportsToAdd => lamportsToAdd.val
| .activateStake _ _ stakeLamports _ => stakeLamports.val
| .beginUnstake _ vowState =>
    rentDue env (.unstake vowState) UnstakeEscrow.LEN
      w.lamports
| .createSession ix =>
    rentDue env (.session ix.vowState ix.sessionIndex)
      SessionAccount.LEN w.lamports
| .depositYieldBalance _ _ amount => amount.val
| .createAuthorityProfile wallet profileId _ =>
    rentDue env (.authorityProfile wallet.key profileId)
      AuthorityProfile.LEN w.lamports
| .recordCommitment _ vowState =>
    match w.vows.lookup vowState with
    | some vow =>
        recordRent env w (.commitment vow.owner) +
          rentDue env
            (.crCommit (.commitment vow.owner) vowState)
            CrGate.LEN w.lamports
    | none => 0
| .recordFulfillment _ vowState =>
    match w.vows.lookup vowState with
    | some vow =>
        rentDue env
          (.crFulfill (.commitment vow.owner) vowState)
          CrGate.LEN w.lamports
    | none => 0
| _ => 0

theorem initializeConfig_pays
    {env : Env}
    {w w' : World}
    {admin : Signer}
    {splPool : AccountInfo}
    {splStakePool splPoolMint : Pubkey}
    (hOk :
      initializeConfig env w admin splPool splStakePool
        splPoolMint = .ok w') :
    SignerPays admin
      (rentDue env .config ProtocolConfig.LEN w.lamports)
      w.lamports w'.lamports := by
  rcases initializeConfig_ok hOk with ⟨call, hEq⟩
  subst hEq
  exact .ofInit call.hInit (by simp [Signer.key])

theorem registerApp_pays
    {env : Env}
    {w w' : World}
    {payer : Signer}
    {programId : Pubkey}
    (hOk : registerApp env w payer programId = .ok w') :
    SignerPays payer
      (rentDue env (.app programId) AppRegistry.LEN
        w.lamports)
      w.lamports w'.lamports := by
  rcases registerApp_ok hOk with ⟨call, hEq⟩
  subst hEq
  exact .ofInit call.hInit (by simp [Signer.key])

/- A mint pays the rent first and then the stake. -/
theorem mintVow_pays
    {env : Env}
    {w w' : World}
    {owner : Signer}
    {stakeLamports : U64}
    {yieldMode : YieldMode}
    (hOk :
      mintVow env w owner stakeLamports yieldMode =
        .ok w') :
    SignerPays owner
      (Instruction.cost env w
        (.mintVow owner stakeLamports yieldMode))
      w.lamports w'.lamports := by
  rcases mintVow_ok hOk with ⟨call, hEq⟩
  subst hEq
  have hRent := SignerPays.ofInit call.hFunded
    (by simp [Signer.key])
  have hStake := SignerPays.ofTransfer call.hTransfer
    (reserve_ne_key owner)
  simp only [Instruction.cost, call.hConfig]
  exact hRent.trans hStake

theorem addStake_pays
    {env : Env}
    {w w' : World}
    {owner : Signer}
    {vowState : Pubkey}
    {lamportsToAdd : U64}
    (hOk :
      addStake env w owner vowState lamportsToAdd =
        .ok w') :
    SignerPays owner lamportsToAdd.val w.lamports
      w'.lamports := by
  rcases addStake_ok hOk with ⟨call, vow', _, hEq⟩
  subst hEq
  exact .ofTransfer call.hTransfer (reserve_ne_key owner)

theorem activateStake_pays
    {env : Env}
    {w w' : World}
    {owner : Signer}
    {vowState : Pubkey}
    {stakeLamports : U64}
    {yieldMode : YieldMode}
    (hOk :
      activateStake env w owner vowState stakeLamports
        yieldMode = .ok w') :
    SignerPays owner stakeLamports.val w.lamports
      w'.lamports := by
  rcases activateStake_ok hOk with ⟨call, hEq⟩
  subst hEq
  exact .ofTransfer call.hTransfer (reserve_ne_key owner)

theorem beginUnstake_pays
    {env : Env}
    {w w' : World}
    {owner : Signer}
    {vowState : Pubkey}
    (hOk : beginUnstake env w owner vowState = .ok w') :
    SignerPays owner
      (rentDue env (.unstake vowState) UnstakeEscrow.LEN
        w.lamports)
      w.lamports w'.lamports := by
  rcases beginUnstake_ok hOk with ⟨call, hEq⟩
  subst hEq
  exact .ofInit call.hInit (by simp [Signer.key])

theorem createSession_pays
    {env : Env}
    {w w' : World}
    {ix : CreateSession}
    (hOk : createSession env w ix = .ok w') :
    SignerPays ix.owner
      (rentDue env (.session ix.vowState ix.sessionIndex)
        SessionAccount.LEN w.lamports)
      w.lamports w'.lamports := by
  rcases createSession_ok hOk with ⟨call, hEq⟩
  subst hEq
  exact .ofInit call.hInit (by simp [Signer.key])

theorem depositYieldBalance_pays
    {w w' : World}
    {depositor : Signer}
    {vowState : Pubkey}
    {amount : U64}
    (hOk :
      depositYieldBalance w depositor vowState amount =
        .ok w') :
    SignerPays depositor amount.val w.lamports
      w'.lamports := by
  rcases depositYieldBalance_ok hOk with ⟨call, hEq⟩
  subst hEq
  exact .ofTransfer call.hTransfer (reserve_ne_key depositor)

theorem createAuthorityProfile_pays
    {env : Env}
    {w w' : World}
    {wallet : Signer}
    {profileId : Vector U8 8}
    {params : AuthorityProfileParams}
    (hOk :
      createAuthorityProfile env w wallet profileId params =
        .ok w') :
    SignerPays wallet
      (rentDue env (.authorityProfile wallet.key profileId)
        AuthorityProfile.LEN w.lamports)
      w.lamports w'.lamports := by
  rcases createAuthorityProfile_ok hOk with ⟨call, hEq⟩
  subst hEq
  exact .ofInit call.hInit (by simp [Signer.key])

/- Loading a record costs its rent when it is new. -/
theorem loadOrInitRecord_pays
    {env : Env}
    {w : World}
    {payer : Signer}
    {wallet : Pubkey}
    {loaded : CommitmentRecord × Lamports}
    (hOk :
      loadOrInitRecord env w payer (.commitment wallet) =
        .ok loaded) :
    SignerPays payer (recordRent env w (.commitment wallet))
      w.lamports loaded.2 := by
  unfold loadOrInitRecord at hOk
  unfold recordRent
  cases hRecord : w.records.lookup (.commitment wallet) with
  | some record =>
      rw [hRecord] at hOk
      rw [← Except.ok.inj hOk]
      exact .refl payer w.lamports
  | none =>
      rw [hRecord] at hOk
      simp only [bind_eq_ok_iff, pure_eq_ok_iff] at hOk
      rcases hOk with ⟨lamports, hInit, hEq⟩
      rw [← hEq]
      exact .ofInit hInit (by simp [Signer.key])

/- Loading a record moves nothing at a gate. -/
theorem loadOrInitRecord_gate
    {env : Env}
    {w : World}
    {payer : Signer}
    {wallet vowState : Pubkey}
    {loaded : CommitmentRecord × Lamports}
    (hOk :
      loadOrInitRecord env w payer (.commitment wallet) =
        .ok loaded) :
    loaded.2 (.crCommit (.commitment wallet) vowState) =
      w.lamports
        (.crCommit (.commitment wallet) vowState) := by
  unfold loadOrInitRecord at hOk
  split at hOk
  · rw [← Except.ok.inj hOk]
  · simp only [bind_eq_ok_iff, pure_eq_ok_iff] at hOk
    rcases hOk with ⟨lamports, hInit, hEq⟩
    rw [← hEq]
    exact initAccount_of_ne hInit (by simp [Signer.key])
      (by simp)

/- The payer funds the gate, and the record if it is new. -/
theorem recordCommitment_pays
    {env : Env}
    {w w' : World}
    {payer : Signer}
    {vowState : Pubkey}
    (hOk : recordCommitment env w payer vowState = .ok w') :
    SignerPays payer
      (Instruction.cost env w
        (.recordCommitment payer vowState))
      w.lamports w'.lamports := by
  rcases recordCommitment_ok hOk with ⟨call, hEq⟩
  subst hEq
  have hRecord := loadOrInitRecord_pays call.hOpened
  have hGate := SignerPays.ofInit call.hInit
    (by simp [Signer.key])
  have hSame :
      rentDue env
          (.crCommit (.commitment call.vow.owner) vowState)
          CrGate.LEN call.opened =
        rentDue env
          (.crCommit (.commitment call.vow.owner) vowState)
          CrGate.LEN w.lamports := by
    have hKept :
        call.opened
            (.crCommit (.commitment call.vow.owner)
              vowState) =
          w.lamports
            (.crCommit (.commitment call.vow.owner)
              vowState) :=
      loadOrInitRecord_gate call.hOpened
    unfold rentDue
    rw [hKept]
  rw [hSame] at hGate
  simp only [Instruction.cost, call.hLookup]
  exact hRecord.trans hGate

theorem recordFulfillment_pays
    {env : Env}
    {w w' : World}
    {payer : Signer}
    {vowState : Pubkey}
    (hOk : recordFulfillment env w payer vowState = .ok w') :
    SignerPays payer
      (Instruction.cost env w
        (.recordFulfillment payer vowState))
      w.lamports w'.lamports := by
  rcases recordFulfillment_ok hOk with ⟨call, hEq⟩
  subst hEq
  simp only [Instruction.cost, call.hLookup]
  exact .ofInit call.hInit (by simp [Signer.key])

end Vow

------------------------------------------------------------
-- Who Can Lower A Balance
------------------------------------------------------------

namespace Vow

open MachineInt Fallible Balances

/-
  The ways in which an action can lower the balance of an
  address, with who signs it and exactly what it takes.
-/
inductive Debit
    (env : Env)
    (w w' : World) :
    Action → Pubkey → Prop where
  | spends
      (wallet : Signer)
      (amount : Nat)
      (hPaid :
        w'.lamports wallet.key =
          w.lamports wallet.key - amount) :
      Debit env w w' (.spend wallet amount) wallet.key
  | signs
      (ix : Instruction)
      (signer : Signer)
      (hSigner : ix.signer = some signer)
      (hPaid :
        w.lamports signer.key =
          w'.lamports signer.key + ix.cost env w) :
      Debit env w w' (.instruction ix) signer.key
  -- The reserve pays escrows, yield and the stake pool.
  | unstakes
      (owner : Signer)
      (vowState : Pubkey)
      (config : ProtocolConfig)
      (escrow : UnstakeEscrow)
      (hConfig : w.config = some config)
      (hEscrow :
        w.escrows.lookup (.unstake vowState) = some escrow)
      (hOwner : escrow.owner = owner.key)
      (hClosed :
        w'.escrows.lookup (.unstake vowState) = none)
      (hPaid :
        w.reserve =
          w'.reserve +
            (payAmount escrow.lamportsOwed w.reserve
              config.totalPendingUnstake).val)
      (hBound :
        w.reserve ≤ w'.reserve + escrow.lamportsOwed.val) :
      Debit env w w'
        (.instruction (.completeUnstake owner vowState))
        .reserve
  | withdraws
      (owner : Signer)
      (vowState : Pubkey)
      (amount : Option U64)
      (vow vow' : VowState)
      (hBefore : w.vows.lookup vowState = some vow)
      (hOwner : vow.owner = owner.key)
      (hAfter : w'.vows.lookup vowState = some vow')
      (hTaken :
        vow.yieldBalance.val =
          vow'.yieldBalance.val +
            (amount.getD vow.yieldBalance).val)
      (hPaid :
        w.reserve =
          w'.reserve + (amount.getD vow.yieldBalance).val) :
      Debit env w w'
        (.instruction (.withdrawYield owner vowState amount))
        .reserve
  | sessionSpends
      (ix : YieldSpend)
      (session : SessionAccount)
      (vow vow' : VowState)
      (hSession :
        w.sessions.lookup ix.sessionAccount = some session)
      (hBefore : w.vows.lookup ix.vowState = some vow)
      (hLive :
        checkSessionLive env vow session ix.sessionSigner =
          .ok ())
      (hAfter : w'.vows.lookup ix.vowState = some vow')
      (hTaken :
        vow.yieldBalance.val =
          vow'.yieldBalance.val + ix.amount.val)
      (hPaid : w.reserve = w'.reserve + ix.amount.val) :
      Debit env w w' (.instruction (.yieldSpend ix)) .reserve
  -- The stake pool decides what a trade leaves.
  | flushes
      (accounts : PoolAccounts)
      (config : ProtocolConfig)
      (hConfig : w.config = some config)
      (hPool : config.splStakePool ≠ .default)
      (hIdle : env.minimumBalance 0 < w.reserve)
      (hDeposit :
        env.depositSol accounts.splPool
            (w.reserve - env.minimumBalance 0) w.reserve =
          some w'.reserve) :
      Debit env w w'
        (.instruction (.flushReserveToPool accounts))
        .reserve
  | redeems
      (unstakeEscrow : Pubkey)
      (accounts : PoolAccounts)
      (config : ProtocolConfig)
      (escrow : UnstakeEscrow)
      (tokens : U64)
      (hConfig : w.config = some config)
      (hPool : config.splStakePool ≠ .default)
      (hEscrow :
        w.escrows.lookup unstakeEscrow = some escrow)
      (hShort : w.reserve < escrow.lamportsOwed.val)
      (hTokens :
        tokensToBurn
            (Unsigned.ofNat 64
              (escrow.lamportsOwed.val - w.reserve))
            (poolTotalLamports accounts.splPool)
            (poolTokenSupply accounts.splPool)
            accounts.reservePoolTokens.amount =
          .ok tokens)
      (hWithdraw :
        env.withdrawSol accounts.splPool tokens w.reserve =
          some w'.reserve) :
      Debit env w w'
        (.instruction
          (.withdrawFromPool unstakeEscrow accounts))
        .reserve
  -- All of an account's lamports leave it when it is closed.
  | closesConfig
      (admin : Signer)
      (config : ProtocolConfig)
      (hConfig : w.config = some config)
      (hAdmin : config.admin = admin.key)
      (hClosed : w'.config = none)
      (hEmptied : w'.lamports .config = 0)
      (hReturned :
        w'.lamports admin.key =
          w.lamports admin.key + w.lamports .config) :
      Debit env w w'
        (.instruction (.closeProtocolConfig admin)) .config
  | closesEscrow
      (owner : Signer)
      (vowState : Pubkey)
      (config : ProtocolConfig)
      (escrow : UnstakeEscrow)
      (hConfig : w.config = some config)
      (hEscrow :
        w.escrows.lookup (.unstake vowState) = some escrow)
      (hOwner : escrow.owner = owner.key)
      (hClosed :
        w'.escrows.lookup (.unstake vowState) = none)
      (hEmptied : w'.lamports (.unstake vowState) = 0)
      (hReturned :
        w'.lamports owner.key =
          w.lamports owner.key +
            (payAmount escrow.lamportsOwed w.reserve
              config.totalPendingUnstake).val +
            w.lamports (.unstake vowState)) :
      Debit env w w'
        (.instruction (.completeUnstake owner vowState))
        (.unstake vowState)
  | closesSession
      (owner : Signer)
      (vowState : Pubkey)
      (vow : VowState)
      (session : SessionAccount)
      (hVow : w.vows.lookup vowState = some vow)
      (hOwner : vow.owner = owner.key)
      (hSession :
        w.sessions.lookup
          (.session vowState session.sessionIndex) =
            some session)
      (hEligible :
        closeEligible env.unixTimestamp vow session = true)
      (hClosed :
        w'.sessions.lookup
          (.session vowState session.sessionIndex) =
            none)
      (hEmptied :
        w'.lamports
          (.session vowState session.sessionIndex) = 0)
      (hReturned :
        w'.lamports owner.key =
          w.lamports owner.key +
            w.lamports
              (.session vowState session.sessionIndex)) :
      Debit env w w'
        (.instruction (.closeSession owner vowState
          (.session vowState session.sessionIndex)))
        (.session vowState session.sessionIndex)
  | closesProfile
      (wallet : Signer)
      (profile : AuthorityProfile)
      (hProfile :
        w.profiles.lookup
          (.authorityProfile wallet.key profile.profileId) =
            some profile)
      (hWallet : profile.wallet = wallet.key)
      (hClosed :
        w'.profiles.lookup
          (.authorityProfile wallet.key profile.profileId) =
            none)
      (hEmptied :
        w'.lamports
          (.authorityProfile wallet.key profile.profileId) =
            0)
      (hReturned :
        w'.lamports wallet.key =
          w.lamports wallet.key +
            w.lamports
              (.authorityProfile wallet.key
                profile.profileId)) :
      Debit env w w'
        (.instruction (.closeAuthorityProfile wallet
          (.authorityProfile wallet.key profile.profileId)))
        (.authorityProfile wallet.key profile.profileId)

/- The payments of an instruction, each from a debited address. -/
def Pays
    (env : Env)
    (w w' : World)
    (ix : Instruction) :
    Prop :=
  Payments (Debit env w w' (.instruction ix)) w.lamports
    w'.lamports

theorem SignerPays.pays
    {env : Env}
    {w w' : World}
    {ix : Instruction}
    {signer : Signer}
    (hPays :
      SignerPays signer (ix.cost env w) w.lamports
        w'.lamports)
    (hSigner : ix.signer = some signer) :
    Pays env w w' ix := by
  refine Payments.mono hPays.payments ?_
  intro k hKey
  subst hKey
  exact Debit.signs ix signer hSigner hPays.paid

theorem Pays.of_lamports_eq
    {env : Env}
    {w w' : World}
    {ix : Instruction}
    (hEq : w'.lamports = w.lamports) :
    Pays env w w' ix := by
  unfold Pays
  rw [hEq]
  exact Payments.refl _

theorem closeProtocolConfig_pays
    {env : Env}
    {w w' : World}
    {admin : Signer}
    (hOk : closeProtocolConfig w admin = .ok w') :
    Pays env w w' (.closeProtocolConfig admin) := by
  rcases closeProtocolConfig_ok hOk with ⟨call, hEq⟩
  have hRent := closeAccount_returns
    (show admin.key ≠ .config by simp [Signer.key])
    w.lamports
  subst hEq
  exact closeAccount_pays _ _
    (Debit.closesConfig admin call.config call.hConfig
      call.hAdmin rfl hRent.1 hRent.2)

theorem closeSession_pays
    {env : Env}
    {w w' : World}
    {owner : Signer}
    {vowState sessionAccount : Pubkey}
    (hOk :
      closeSession env w owner vowState sessionAccount =
        .ok w') :
    Pays env w w'
      (.closeSession owner vowState sessionAccount) := by
  rcases closeSession_ok hOk with
    ⟨⟨⟨vow, session, hLookup, hOwner, hSession, hSeeds, _⟩,
      hEligible⟩, hEq⟩
  have hRent := closeAccount_returns
    (show owner.key ≠ .session vowState session.sessionIndex
      by simp [Signer.key])
    w.lamports
  subst hEq
  rw [hSeeds] at hSession ⊢
  refine closeAccount_pays _ _
    (Debit.closesSession owner vowState vow session hLookup
      hOwner hSession hEligible ?_ hRent.1 hRent.2)
  rw [AccountMap.lookup_erase_eq, if_pos rfl]

theorem closeAuthorityProfile_pays
    {env : Env}
    {w w' : World}
    {wallet : Signer}
    {address : Pubkey}
    (hOk :
      closeAuthorityProfile w wallet address = .ok w') :
    Pays env w w'
      (.closeAuthorityProfile wallet address) := by
  rcases closeAuthorityProfile_ok hOk with
    ⟨⟨found, hProfile, hSeeds, hWallet⟩, hEq⟩
  have hRent := closeAccount_returns
    (show wallet.key ≠
        .authorityProfile wallet.key found.profileId
      by simp [Signer.key])
    w.lamports
  subst hEq
  rw [hSeeds] at hProfile ⊢
  refine closeAccount_pays _ _
    (Debit.closesProfile wallet found hProfile hWallet ?_
      hRent.1 hRent.2)
  rw [AccountMap.lookup_erase_eq, if_pos rfl]

/-
  A completion pays out of the reserve, at most what the
  escrow owes, and then returns the rent of the escrow.
-/
theorem completeUnstake_pays
    {env : Env}
    {w w' : World}
    {owner : Signer}
    {vowState : Pubkey}
    (hOk : completeUnstake env w owner vowState = .ok w') :
    Pays env w w' (.completeUnstake owner vowState) := by
  rcases completeUnstake_eq_ok_iff.mp hOk with ⟨call, hEq⟩
  have hClosed :
      w'.escrows.lookup (.unstake vowState) = none := by
    rw [hEq, AccountMap.lookup_erase_eq, if_pos rfl]
  have hLamports :
      w'.lamports =
        closeAccount (.unstake vowState) owner.key
          call.lamports := by
    rw [hEq]
  have hPaid :
      w.reserve =
        w'.reserve +
          (payAmount call.escrow.lamportsOwed w.reserve
            call.config.totalPendingUnstake).val := by
    unfold World.reserve
    rw [hLamports]
    exact completed_reserve vowState call.hTransfer
  have hShare := ProRata.share_le_claim
    call.escrow.lamportsOwed.val w.reserve
    call.config.totalPendingUnstake.val
  rw [← payAmount_val] at hShare
  have hEmptied :
      w'.lamports (.unstake vowState) = 0 := by
    rw [hLamports]
    exact (closeAccount_returns (by simp [Signer.key])
      call.lamports).1
  have hReturned :
      w'.lamports owner.key =
        w.lamports owner.key +
          (payAmount call.escrow.lamportsOwed w.reserve
            call.config.totalPendingUnstake).val +
          w.lamports (.unstake vowState) := by
    rw [hLamports]
    exact completed_balance vowState call.hTransfer
  have hPayout : Payments
      (Debit env w w'
        (.instruction (.completeUnstake owner vowState)))
      w.lamports call.lamports :=
    transfer_pays call.hTransfer
      (Debit.unstakes owner vowState call.config call.escrow
        call.hConfig call.hEscrow call.hPayee hClosed hPaid
        (by omega))
  have hRent := closeAccount_pays
    (P := Debit env w w'
      (.instruction (.completeUnstake owner vowState)))
    owner.key call.lamports
    (Debit.closesEscrow owner vowState call.config
      call.escrow call.hConfig call.hEscrow call.hPayee
      hClosed hEmptied hReturned)
  unfold Pays
  rw [hLamports]
  exact hPayout.trans hRent

theorem withdrawYield_pays
    {env : Env}
    {w w' : World}
    {owner : Signer}
    {vowState : Pubkey}
    {amount : Option U64}
    (hOk : withdrawYield w owner vowState amount = .ok w') :
    Pays env w w'
      (.withdrawYield owner vowState amount) := by
  rcases withdrawYield_ok hOk with ⟨call, hEq⟩
  subst hEq
  refine transfer_pays call.hTransfer
    (Debit.withdraws owner vowState amount call.vow
      { call.vow with yieldBalance := call.yieldBalance }
      call.hLookup call.hOwner ?_ call.hBalance
      call.reserve_eq)
  rw [AccountMap.lookup_insert_eq, if_pos rfl]

/-
  A spend pays out of the reserve, unless its destination is
  the reserve itself.
-/
theorem yieldSpend_pays
    {env : Env}
    {w w' : World}
    {ix : YieldSpend}
    (hOk : yieldSpend env w ix = .ok w') :
    Pays env w w' (.yieldSpend ix) := by
  rcases yieldSpend_eq_ok_iff.mp hOk with ⟨call, hEq⟩
  subst hEq
  have hTransfer := call.hTransfer
  by_cases hSelf : ix.destination = .reserve
  · rw [hSelf] at hTransfer
    exact Pays.of_lamports_eq (transfer_self hTransfer)
  · refine transfer_pays hTransfer
      (Debit.sessionSpends ix call.session call.vow
        { call.vow with yieldBalance := call.yieldBalance }
        call.hSession call.hLookup call.hLive ?_ call.hBalance
        (transfer_paid hTransfer hSelf))
    rw [AccountMap.lookup_insert_eq, if_pos rfl]

end Vow

------------------------------------------------------------
-- Instructions
------------------------------------------------------------

namespace Vow

open MachineInt Fallible Balances

/- The two instructions that move lamports off the books. -/
def Instruction.isPoolCrank : Instruction → Bool
| .flushReserveToPool _ => true
| .withdrawFromPool _ _ => true
| _ => false

theorem adminAppAction_lamports
    {w w' : World}
    {admin : Signer}
    {address : Pubkey}
    {change : AppRegistry → AppRegistry}
    (hOk :
      adminAppAction w admin address change = .ok w') :
    w'.lamports = w.lamports := by
  rcases adminAppAction_ok hOk with ⟨call, hEq⟩
  rw [hEq]

theorem updateAuthorityProfile_lamports
    {w w' : World}
    {wallet : Signer}
    {address : Pubkey}
    {params : AuthorityProfileParams}
    (hOk :
      updateAuthorityProfile w wallet address params =
        .ok w') :
    w'.lamports = w.lamports := by
  rcases updateAuthorityProfile_ok hOk with ⟨call, hEq⟩
  rw [hEq]

/- Every other instruction is a sequence of payments. -/
theorem execute_pays
    {env : Env}
    {w w' : World}
    {ix : Instruction}
    (hOk : execute env w ix = .ok w')
    (hCrank : ix.isPoolCrank = false) :
    Pays env w w' ix := by
  cases ix with
  | initializeConfig admin splPool splStakePool mint =>
      exact (initializeConfig_pays hOk).pays rfl
  | setAdmin admin newAdmin =>
      rcases setAdmin_ok hOk with ⟨call, hEq⟩
      exact Pays.of_lamports_eq (by rw [hEq])
  | closeProtocolConfig admin =>
      exact closeProtocolConfig_pays hOk
  | setMintCounter admin newCounter =>
      rcases setMintCounter_ok hOk with ⟨call, hEq⟩
      exact Pays.of_lamports_eq (by rw [hEq])
  | devSetSharePrice admin newPrice =>
      rcases devSetSharePrice_ok hOk with ⟨call, hEq⟩
      exact Pays.of_lamports_eq (by rw [hEq])
  | devFastUnlock admin vowState =>
      rcases devFastUnlock_ok hOk with ⟨call, hEq⟩
      exact Pays.of_lamports_eq (by rw [hEq])
  | registerApp payer programId =>
      exact (registerApp_pays hOk).pays rfl
  | verifyApp admin address =>
      exact Pays.of_lamports_eq (adminAppAction_lamports hOk)
  | blockApp admin address =>
      exact Pays.of_lamports_eq (adminAppAction_lamports hOk)
  | updateSharePrice splPool =>
      rcases updateSharePrice_ok hOk with ⟨call, hEq⟩
      exact Pays.of_lamports_eq (by rw [hEq])
  | flushReserveToPool accounts =>
      exact absurd hCrank (by simp [Instruction.isPoolCrank])
  | withdrawFromPool unstakeEscrow accounts =>
      exact absurd hCrank (by simp [Instruction.isPoolCrank])
  | addStake owner vowState lamportsToAdd =>
      exact (addStake_pays hOk).pays rfl
  | mintVow owner stakeLamports yieldMode =>
      exact (mintVow_pays hOk).pays rfl
  | updateYieldMode owner vowState newMode =>
      rcases updateYieldMode_ok hOk with ⟨call, hEq⟩
      exact Pays.of_lamports_eq (by rw [hEq])
  | beginUnstake owner vowState =>
      exact (beginUnstake_pays hOk).pays rfl
  | completeUnstake owner vowState =>
      exact completeUnstake_pays hOk
  | activateStake owner vowState stakeLamports yieldMode =>
      exact (activateStake_pays hOk).pays rfl
  | harvest vowState =>
      rcases harvest_eq_ok_iff.mp hOk with
        ⟨call, vow', config', _, hEq⟩
      exact Pays.of_lamports_eq (by rw [hEq])
  | createSession ix =>
      exact (createSession_pays hOk).pays rfl
  | revokeSession owner vowState sessionAccount =>
      rcases revokeSession_ok hOk with ⟨call, hEq⟩
      exact Pays.of_lamports_eq (by rw [hEq])
  | closeSession owner vowState sessionAccount =>
      exact closeSession_pays hOk
  | depositYieldBalance depositor vowState amount =>
      exact (depositYieldBalance_pays hOk).pays rfl
  | yieldSpend ix => exact yieldSpend_pays hOk
  | withdrawYield owner vowState amount =>
      exact withdrawYield_pays hOk
  | createAuthorityProfile wallet profileId params =>
      exact (createAuthorityProfile_pays hOk).pays rfl
  | updateAuthorityProfile wallet profile params =>
      exact Pays.of_lamports_eq
        (updateAuthorityProfile_lamports hOk)
  | closeAuthorityProfile wallet profile =>
      exact closeAuthorityProfile_pays hOk
  | recordCommitment payer vowState =>
      exact (recordCommitment_pays hOk).pays rfl
  | recordFulfillment payer vowState =>
      exact (recordFulfillment_pays hOk).pays rfl

/- A pool crank only changes the balance of the reserve. -/
theorem execute_crank
    {env : Env}
    {w w' : World}
    {ix : Instruction}
    (hOk : execute env w ix = .ok w')
    (hCrank : ix.isPoolCrank = true)
    {k : Pubkey}
    (hOther : k ≠ .reserve) :
    w'.lamports k = w.lamports k := by
  cases ix with
  | flushReserveToPool accounts =>
      rcases flushReserveToPool_ok hOk with hSame | ⟨call, hEq⟩
      · rw [hSame]
      · rw [hEq]
        exact if_neg hOther
  | withdrawFromPool unstakeEscrow accounts =>
      rcases withdrawFromPool_ok hOk with
        ⟨_, hSame⟩ | ⟨call, hEq⟩
      · rw [hSame]
      · rw [hEq]
        exact if_neg hOther
  | _ => exact absurd hCrank (by simp [Instruction.isPoolCrank])

end Vow

------------------------------------------------------------
-- Runs
------------------------------------------------------------

namespace Vow

open MachineInt Fallible Balances Transition

/- A crank that lowers the reserve trades with its pool. -/
theorem execute_crank_debit
    {env : Env}
    {w w' : World}
    {ix : Instruction}
    (hOk : execute env w ix = .ok w')
    (hCrank : ix.isPoolCrank = true)
    (hFall : w'.reserve < w.reserve) :
    Debit env w w' (.instruction ix) .reserve := by
  cases ix with
  | flushReserveToPool accounts =>
      rcases flushReserveToPool_ok hOk with hSame | ⟨call, hEq⟩
      · rw [hSame] at hFall
        omega
      · have hLeft : w'.reserve = call.reserve := by
          rw [hEq, World.reserve_withReserve]
        have hDeposit := call.hDeposit
        rw [← hLeft] at hDeposit
        exact Debit.flushes accounts call.config call.hConfig
          call.hPool call.hIdle hDeposit
  | withdrawFromPool unstakeEscrow accounts =>
      rcases withdrawFromPool_ok hOk with
        ⟨_, hSame⟩ | ⟨call, hEq⟩
      · rw [hSame] at hFall
        omega
      · have hLeft : w'.reserve = call.reserve := by
          rw [hEq, World.reserve_withReserve]
        have hWithdraw := call.hWithdraw
        rw [← hLeft] at hWithdraw
        exact Debit.redeems unstakeEscrow accounts call.config
          call.escrow call.tokens call.hConfig call.hPool
          call.hEscrow call.hShort call.hTokens hWithdraw
  | _ => exact absurd hCrank (by simp [Instruction.isPoolCrank])

/-
  A balance that falls in some step of some run falls under
  one of the rules.
-/
theorem lamports_fall_debit
    (w : World)
    (steps : List Step)
    (o : Occurrence World Step)
    (hMem : o ∈ w.trace steps)
    (k : Pubkey)
    (hFall : o.after.lamports k < o.before.lamports k) :
    Debit o.action.env o.before o.after o.action.action
      k := by
  have hStep := mem_trace_exec hMem
  rcases o with ⟨before, ⟨env, action⟩, after⟩
  dsimp only at hStep hFall ⊢
  cases action with
  | instruction ix =>
      have hOk := Step.exec_instruction_iff.mp hStep
      cases hCrank : ix.isPoolCrank with
      | false =>
          by_contra hNot
          have hKept :=
            (execute_pays hOk hCrank).le_of_not hNot
          omega
      | true =>
          have hKey : k = .reserve := by
            by_contra hOther
            rw [execute_crank hOk hCrank hOther] at hFall
            omega
          subst hKey
          exact execute_crank_debit hOk hCrank hFall
  | receive address amount =>
      rw [← Option.some.inj hStep] at hFall
      have hGrown :
          before.lamports k ≤
            credit address amount before.lamports k := by
        unfold credit
        split <;> omega
      exact absurd hFall (Nat.not_lt.mpr hGrown)
  | spend wallet amount =>
      have hAfter := Option.some.inj hStep
      have hKey : k = wallet.key := by
        by_contra hOther
        rw [← hAfter] at hFall
        dsimp only at hFall
        rw [debit_of_ne hOther] at hFall
        omega
      subst hKey
      refine Debit.spends wallet amount ?_
      rw [← hAfter]
      exact debit_self _ _ _

/- A minted identity is unlocked and exits. -/
def dueExitSteps : List Step :=
  [sampleInit,
    sampleStep 0 0
      (.mintVow sampleOwner 5000000000 .treasury),
    sampleStep 0 0 (.devFastUnlock sampleAdmin sampleVow),
    sampleStep 10 0 (.beginUnstake sampleOwner sampleVow)]

def dueExitPaid : Step :=
  sampleStep 10 1 (.completeUnstake sampleOwner sampleVow)

/- The reserve pays the exit, all that the escrow owes. -/
theorem lamports_fall_debit_exit :
    Debit (sampleEnv 10 1) (sampleChain.run dueExitSteps)
        ((sampleChain.run dueExitSteps).run [dueExitPaid])
        dueExitPaid.action .reserve ∧
      (sampleChain.run dueExitSteps).reserve =
        ((sampleChain.run dueExitSteps).run
          [dueExitPaid]).reserve + 5000000000 :=
  ⟨lamports_fall_debit sampleChain (dueExitSteps ++ [dueExitPaid])
      ⟨_, dueExitPaid, _⟩
      (@mem_trace_last World Step Step.exec sampleChain _
        dueExitSteps _ (Step.exec_eq_run (by decide +kernel)))
      .reserve (by decide +kernel),
    by decide +kernel⟩

/- What a step brings in or takes out. -/
def externalFlow
    (o : Occurrence World Step) :
    Int :=
  match o.action.action with
  | .receive _ amount => amount
  | .spend wallet amount =>
      -(min amount (o.before.lamports wallet.key) : Nat)
  | .instruction ix =>
      if ix.isPoolCrank then
        (o.after.reserve : Int) - o.before.reserve
      else 0

/- One step changes the supply by its external flow. -/
theorem exec_supply
    {w w' : World}
    {step : Step}
    (hFinite : FinitelyHeld w.lamports)
    (hStep : step.exec w = some w') :
    FinitelyHeld w'.lamports ∧
      (supply w'.lamports : Int) =
        supply w.lamports + externalFlow ⟨w, step, w'⟩ := by
  rcases step with ⟨env, action⟩
  cases action with
  | instruction ix =>
      have hOk := Step.exec_instruction_iff.mp hStep
      cases hCrank : ix.isPoolCrank with
      | false =>
          rcases (execute_pays hOk hCrank).supply_eq hFinite
            with ⟨hHeld, hSupply⟩
          refine ⟨hHeld, ?_⟩
          simp [externalFlow, hCrank, hSupply]
      | true =>
          rcases supply_of_single hFinite
              (fun k => execute_crank hOk hCrank) with
            ⟨hHeld, hSupply⟩
          refine ⟨hHeld, ?_⟩
          simp only [externalFlow, hCrank, if_true,
            World.reserve]
          omega
  | receive address amount =>
      rw [← Option.some.inj hStep]
      rcases supply_of_single
          (m := credit address amount w.lamports) hFinite
          (fun k hOther => credit_of_ne hOther _ _) with
        ⟨hHeld, hSupply⟩
      refine ⟨hHeld, ?_⟩
      rw [credit_self] at hSupply
      simp only [externalFlow]
      omega
  | spend wallet amount =>
      rw [← Option.some.inj hStep]
      rcases supply_of_single
          (m := debit wallet.key amount w.lamports) hFinite
          (fun k hOther => debit_of_ne hOther _ _) with
        ⟨hHeld, hSupply⟩
      refine ⟨hHeld, ?_⟩
      rw [debit_self] at hSupply
      simp only [externalFlow]
      omega

/- The supply after the recorded steps. -/
def SupplySoFar
    (initial : Nat)
    (history : List (Occurrence World Step))
    (w : World) :
    Prop :=
  FinitelyHeld w.lamports ∧
    (supply w.lamports : Int) =
      initial + (history.map externalFlow).sum

/-
  Over a run the supply changes by what came in from outside
  and what went out; the program creates and destroys
  nothing.
-/
theorem supply_run
    (w : World)
    (steps : List Step)
    (hFinite : FinitelyHeld w.lamports) :
    FinitelyHeld (w.run steps).lamports ∧
      (supply (w.run steps).lamports : Int) =
        supply w.lamports +
          ((w.trace steps).map externalFlow).sum := by
  have hInit : SupplySoFar (supply w.lamports) [] w :=
    ⟨hFinite, by simp⟩
  have hStep :
      ∀ history s step s',
        SupplySoFar (supply w.lamports) history s →
        Step.exec s step = some s' → True →
        SupplySoFar (supply w.lamports)
          (history ++ [⟨s, step, s'⟩]) s' := by
    rintro history s step s' ⟨hHeld, hSum⟩ hExec _
    rcases exec_supply hHeld hExec with ⟨hNext, hSupply⟩
    refine ⟨hNext, ?_⟩
    rw [hSupply, hSum, List.map_append, List.sum_append,
      List.map_cons, List.map_nil, List.sum_singleton]
    omega
  exact @trace_history_invariant World Step Step.exec
    (fun _ => True) (SupplySoFar (supply w.lamports)) hStep
    steps w hInit (fun _ _ => trivial)

/- A chain on which only two wallets hold lamports. -/
def twoWallets : World :=
  World.genesis fun k =>
    if k = sampleAdmin.key ∨ k = sampleOwner.key then
      1000000000000
    else 0

/- A mint moves lamports, an arrival adds ten. -/
def mintAndReceive : List Step :=
  [sampleInit,
    sampleStep 0 0
      (.mintVow sampleOwner 5000000000 .treasury),
    ⟨sampleEnv 0 0, .receive .reserve 10⟩]

theorem supply_run_mint :
    FinitelyHeld twoWallets.lamports ∧
      (supply (twoWallets.run mintAndReceive).lamports :
          Int) =
        supply twoWallets.lamports + 10 := by
  have hFinite : FinitelyHeld twoWallets.lamports := by
    refine ⟨{sampleAdmin.key, sampleOwner.key}, ?_⟩
    intro k hNot
    simp only [Finset.mem_insert,
      Finset.mem_singleton] at hNot
    exact if_neg hNot
  have hFlow :
      ((twoWallets.trace mintAndReceive).map
        externalFlow).sum = 10 := by
    decide +kernel
  refine ⟨hFinite, ?_⟩
  rw [(supply_run twoWallets mintAndReceive hFinite).2,
    hFlow]

end Vow
