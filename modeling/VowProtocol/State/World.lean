import VowProtocol.Library.Fallible
import VowProtocol.State.Accounts

/-
  The chain as the program sees it, the runtime inputs of one
  instruction, and the account operations of the runtime.

  Lamport balances are natural numbers: the lamport supply
  fits 64 bits, so no credit overflows. A system transfer
  succeeds exactly when the source holds the amount; that the
  runtime also refuses a transaction that leaves an account
  neither empty nor rent-exempt is left out.

  Key definitions include:
    * `ProgramError`
    * `World`
    * `Env`
    * `transfer`
    * `initAccount`
    * `closeAccount`
-/

------------------------------------------------------------
-- Errors
------------------------------------------------------------

namespace Vow

/- The error codes that the handlers return. -/
inductive VowError where
  | insufficientStake
  | notMatured
  | alreadyUnstaking
  | invalidOwner
  | sessionExpired
  | sessionInactive
  | sessionInvalidated
  | programNotAllowed
  | dailyLimitExceeded
  | lifetimeLimitExceeded
  | velocityLimitExceeded
  | insufficientYieldBalance
  | appBlocked
  | sharePriceOverflow
  | sharesUnderflow
  | yieldModeUnchanged
  | tooManyProgramIds
  | invalidStakeAccount
  | unauthorized
  | mathOverflow
  | stakeNotDeactivated
  | emptyReserve
  | stakeAccountMismatch
  | identityInactive
  | identityAlreadyActive
  | reserveSufficient
  | sharePriceNotSynced
  deriving DecidableEq

/-
  Everything that aborts an instruction: a program error, a
  failed account constraint, a failed call to another program
  or a panic.
-/
inductive ProgramError where
  | vow (error : VowError)
  | accountNotInitialized
  | accountAlreadyInUse
  | constraintSeeds
  | constraintHasOne
  | constraintTokenMint
  | constraintTokenOwner
  | insufficientFunds
  | stakePoolFailed
  | panicked
  deriving DecidableEq

abbrev Result := Except ProgramError

end Vow

------------------------------------------------------------
-- World
------------------------------------------------------------

namespace Vow

/- Lamports held at every address. -/
abbrev Lamports := Pubkey → Nat

/- The on-chain state that the program reads and writes. -/
structure World where
  lamports : Lamports
  config : Option ProtocolConfig
  vows : AccountMap Pubkey VowState
  escrows : AccountMap Pubkey UnstakeEscrow
  sessions : AccountMap Pubkey SessionAccount
  apps : AccountMap Pubkey AppRegistry
  profiles : AccountMap Pubkey AuthorityProfile
  records : AccountMap Pubkey CommitmentRecord
  gates : AccountMap Pubkey CrGate

/- Lamports of the reserve. -/
def World.reserve
    (w : World) :
    Nat :=
  w.lamports .reserve

/- The chain before the program has run. -/
def World.genesis
    (lamports : Lamports) :
    World where
  lamports := lamports
  config := none
  vows := ∅
  escrows := ∅
  sessions := ∅
  apps := ∅
  profiles := ∅
  records := ∅
  gates := ∅

/- A foreign account as passed to a handler. -/
structure AccountInfo where
  key : Pubkey
  data : List U8

/- A token account as passed to a handler. -/
structure TokenAccount where
  mint : Pubkey
  authority : Pubkey
  amount : U64

/-
  The runtime inputs of one instruction: the clock, the rent
  sysvar, and what a call to the external stake pool program
  would do at that moment. `depositSol` and `withdrawSol` map
  the pool account, the amount and the reserve's lamports
  before the call to its lamports after it, or fail.
-/
structure Env where
  unixTimestamp : I64
  epoch : U64
  minimumBalance : Nat → Nat
  depositSol : AccountInfo → Nat → Nat → Option Nat
  withdrawSol : AccountInfo → U64 → Nat → Option Nat

end Vow

------------------------------------------------------------
-- Lamport Movements
------------------------------------------------------------

namespace Vow

open Fallible

/- Add lamports at one address. -/
def credit
    (address : Pubkey)
    (amount : Nat)
    (l : Lamports) :
    Lamports :=
  fun k => if k = address then l k + amount else l k

/- Remove lamports at one address. -/
def debit
    (address : Pubkey)
    (amount : Nat)
    (l : Lamports) :
    Lamports :=
  fun k => if k = address then l k - amount else l k

/-
  A system transfer. The runtime's rent-state check at the end
  of a transaction, which would refuse to leave the reserve
  with less than its rent-exempt minimum but not empty, is
  left out.
-/
def transfer
    (source destination : Pubkey)
    (amount : Nat)
    (l : Lamports) :
    Result Lamports := do
  require (amount ≤ l source) .insufficientFunds
  return credit destination amount (debit source amount l)

/-
  Fund a new account to rent exemption, as the `init`
  constraint does: lamports already at the address count.
-/
def initAccount
    (env : Env)
    (payer address : Pubkey)
    (space : Nat)
    (l : Lamports) :
    Result Lamports :=
  let required :=
    if l address = 0 then
      env.minimumBalance space
    else
      max (env.minimumBalance space) 1 - l address
  transfer payer address required l

/- Return all lamports of a closed account. -/
def closeAccount
    (address destination : Pubkey)
    (l : Lamports) :
    Lamports :=
  credit destination (l address)
    (debit address (l address) l)

@[simp] theorem credit_self
    (address : Pubkey)
    (amount : Nat)
    (l : Lamports) :
    credit address amount l address = l address + amount := by
  simp [credit]

@[simp] theorem credit_of_ne
    {address k : Pubkey}
    (hNe : k ≠ address)
    (amount : Nat)
    (l : Lamports) :
    credit address amount l k = l k := by
  simp [credit, hNe]

@[simp] theorem debit_self
    (address : Pubkey)
    (amount : Nat)
    (l : Lamports) :
    debit address amount l address = l address - amount := by
  simp [debit]

@[simp] theorem debit_of_ne
    {address k : Pubkey}
    (hNe : k ≠ address)
    (amount : Nat)
    (l : Lamports) :
    debit address amount l k = l k := by
  simp [debit, hNe]

/- A transfer moves the amount and needs it at the source. -/
theorem transfer_eq_ok_iff
    {source destination : Pubkey}
    {amount : Nat}
    {l l' : Lamports} :
    transfer source destination amount l = .ok l' ↔
      amount ≤ l source ∧
        l' = credit destination amount
          (debit source amount l) := by
  unfold transfer
  simp only [bind_eq_ok_iff, require_eq_ok_iff,
    pure_eq_ok_iff, exists_const]
  exact and_congr_right fun _ => eq_comm

/- A transfer leaves all other balances alone. -/
theorem transfer_of_ne
    {source destination k : Pubkey}
    {amount : Nat}
    {l l' : Lamports}
    (hTransfer :
      transfer source destination amount l = .ok l')
    (hSource : k ≠ source)
    (hDestination : k ≠ destination) :
    l' k = l k := by
  rcases transfer_eq_ok_iff.mp hTransfer with ⟨_, hEq⟩
  subst hEq
  rw [credit_of_ne hDestination, debit_of_ne hSource]

/- Opening an account only moves lamports of its payer. -/
theorem initAccount_of_ne
    {env : Env}
    {payer address k : Pubkey}
    {space : Nat}
    {l l' : Lamports}
    (hInit : initAccount env payer address space l = .ok l')
    (hPayer : k ≠ payer)
    (hAddress : k ≠ address) :
    l' k = l k :=
  transfer_of_ne hInit hPayer hAddress

/- Closing an account only moves its own lamports. -/
theorem closeAccount_of_ne
    {address destination k : Pubkey}
    (hAddress : k ≠ address)
    (hDestination : k ≠ destination)
    (l : Lamports) :
    closeAccount address destination l k = l k := by
  unfold closeAccount
  rw [credit_of_ne hDestination, debit_of_ne hAddress]

/- A closed account returns everything it held. -/
theorem closeAccount_returns
    {address destination : Pubkey}
    (hNe : destination ≠ address)
    (l : Lamports) :
    closeAccount address destination l address = 0 ∧
      closeAccount address destination l destination =
        l destination + l address := by
  unfold closeAccount
  rw [credit_of_ne hNe.symm, debit_self, credit_self,
    debit_of_ne hNe]
  exact ⟨Nat.sub_self _, rfl⟩

end Vow

------------------------------------------------------------
-- Loading Accounts
------------------------------------------------------------

namespace Vow

open Fallible

/- The configuration account, which must exist. -/
def loadConfig
    (w : World) :
    Result ProtocolConfig :=
  okOr w.config .accountNotInitialized

/-
  The configuration with its `has_one = admin` constraint.
-/
def loadConfigAsAdmin
    (w : World)
    (admin : Signer) :
    Result ProtocolConfig := do
  let config ← loadConfig w
  require (config.admin = admin.key) (.vow .unauthorized)
  return config

/-
  The identity at an address, under the seeds constraint
  `["vow", asset_id]`.
-/
def loadVow
    (w : World)
    (address : Pubkey) :
    Result VowState := do
  let vow ← okOr (w.vows.lookup address)
    .accountNotInitialized
  require (address = .vow vow.assetId) .constraintSeeds
  return vow

/-
  The identity at an address with its `has_one = owner`
  constraint.
-/
def loadVowAsOwner
    (w : World)
    (address : Pubkey)
    (owner : Signer) :
    Result VowState := do
  let vow ← loadVow w address
  require (vow.owner = owner.key) (.vow .invalidOwner)
  return vow

/-
  The session at an address, under the seeds constraint
  `["session", vow_state, session_index]` and
  `has_one = vow_state`.
-/
def loadSession
    (w : World)
    (address vowState : Pubkey) :
    Result SessionAccount := do
  let session ← okOr (w.sessions.lookup address)
    .accountNotInitialized
  require (address = .session vowState session.sessionIndex)
    .constraintSeeds
  require (session.vowState = vowState)
    (.vow .sessionInactive)
  return session

theorem loadConfig_eq_ok_iff
    {w : World}
    {config : ProtocolConfig} :
    loadConfig w = .ok config ↔ w.config = some config :=
  okOr_eq_ok_iff

theorem loadConfigAsAdmin_eq_ok_iff
    {w : World}
    {admin : Signer}
    {config : ProtocolConfig} :
    loadConfigAsAdmin w admin = .ok config ↔
      w.config = some config ∧
        config.admin = admin.key := by
  unfold loadConfigAsAdmin loadConfig
  simp only [bind_eq_ok_iff, okOr_eq_ok_iff,
    require_eq_ok_iff, pure_eq_ok_iff, exists_const]
  constructor
  · rintro ⟨found, hConfig, hAdmin, rfl⟩
    exact ⟨hConfig, hAdmin⟩
  · rintro ⟨hConfig, hAdmin⟩
    exact ⟨config, hConfig, hAdmin, rfl⟩

theorem loadVow_eq_ok_iff
    {w : World}
    {address : Pubkey}
    {vow : VowState} :
    loadVow w address = .ok vow ↔
      w.vows.lookup address = some vow ∧
        address = .vow vow.assetId := by
  unfold loadVow
  simp only [bind_eq_ok_iff, okOr_eq_ok_iff,
    require_eq_ok_iff, pure_eq_ok_iff, exists_const]
  constructor
  · rintro ⟨found, hLookup, hSeeds, rfl⟩
    exact ⟨hLookup, hSeeds⟩
  · rintro ⟨hLookup, hSeeds⟩
    exact ⟨vow, hLookup, hSeeds, rfl⟩

theorem loadVowAsOwner_eq_ok_iff
    {w : World}
    {address : Pubkey}
    {owner : Signer}
    {vow : VowState} :
    loadVowAsOwner w address owner = .ok vow ↔
      w.vows.lookup address = some vow ∧
        address = .vow vow.assetId ∧
        vow.owner = owner.key := by
  unfold loadVowAsOwner
  simp only [bind_eq_ok_iff, loadVow_eq_ok_iff,
    require_eq_ok_iff, pure_eq_ok_iff, exists_const]
  constructor
  · rintro ⟨found, ⟨hLookup, hSeeds⟩, hOwner, rfl⟩
    exact ⟨hLookup, hSeeds, hOwner⟩
  · rintro ⟨hLookup, hSeeds, hOwner⟩
    exact ⟨vow, ⟨hLookup, hSeeds⟩, hOwner, rfl⟩

theorem loadSession_eq_ok_iff
    {w : World}
    {address vowState : Pubkey}
    {session : SessionAccount} :
    loadSession w address vowState = .ok session ↔
      w.sessions.lookup address = some session ∧
        address = .session vowState session.sessionIndex ∧
        session.vowState = vowState := by
  unfold loadSession
  simp only [bind_eq_ok_iff, okOr_eq_ok_iff,
    require_eq_ok_iff, pure_eq_ok_iff, exists_const]
  constructor
  · rintro ⟨found, hLookup, hSeeds, hVow, rfl⟩
    exact ⟨hLookup, hSeeds, hVow⟩
  · rintro ⟨hLookup, hSeeds, hVow⟩
    exact ⟨session, hLookup, hSeeds, hVow, rfl⟩

end Vow
