import VowProtocol.Library.ByteLayout
import VowProtocol.State.Accounts

/-
  The addresses of the program's accounts as bytes.

  Every account stands at an address that the runtime finds
  from a program id and a list of seeds. It joins the seeds
  without separators, so the address depends on the joined
  bytes alone. The search itself is a parameter: a hash, and
  a bump byte that keeps the result apart from wallet keys.

  Key definitions include:
    * `Address`
    * `Finder`
    * `Pubkey.address`
    * `Pubkey.seeds`
-/

------------------------------------------------------------
-- Bytes
------------------------------------------------------------

namespace Vow

open MachineInt ByteLayout

/- The bytes of a key. -/
abbrev Address := Vector U8 32

/- A byte string literal. -/
def ascii
    (text : String) :
    List U8 :=
  text.toList.map fun letter => Unsigned.ofNat 8 letter.toNat

/- The bytes of a wallet or program key, highest first. -/
def keyBytes
    (n : Nat) :
    Address :=
  ⟨(leBytes 32 n).reverse.toArray, by simp⟩

/- `declare_id!`, decoded from base 58. -/
def ID : Address :=
  keyBytes 46914714947098287413142683082622671748035185002378605608623243573622269103933

/- The id of the stake pool program. -/
def STAKE_POOL_ID : Address :=
  keyBytes 3521700735357263543031109868311805048355375659887143568774686427789001914039

/-
  `Pubkey::find_program_address`: the address for a program
  and the joined seeds.
-/
abbrev Finder := Address → List U8 → Address

end Vow

------------------------------------------------------------
-- Seeds
------------------------------------------------------------

namespace Vow

open MachineInt ByteLayout

def configSeeds : List (List U8) :=
  [ascii "config"]

def reserveSeeds : List (List U8) :=
  [ascii "reserve"]

def vowAssetSeeds
    (nonce : U64) :
    List (List U8) :=
  [ascii "vow_asset", leBytes 8 nonce.val]

def vowSeeds
    (assetId : Address) :
    List (List U8) :=
  [ascii "vow", assetId.toList]

def unstakeSeeds
    (vowState : Address) :
    List (List U8) :=
  [ascii "unstake", vowState.toList]

def sessionSeeds
    (vowState : Address)
    (sessionIndex : U32) :
    List (List U8) :=
  [ascii "session", vowState.toList,
    leBytes 4 sessionIndex.val]

def appSeeds
    (programId : Address) :
    List (List U8) :=
  [ascii "app", programId.toList]

def authorityProfileSeeds
    (wallet : Address)
    (profileId : Vector U8 8) :
    List (List U8) :=
  [ascii "authority_profile", wallet.toList,
    profileId.toList]

def commitmentSeeds
    (wallet : Address) :
    List (List U8) :=
  [ascii "commitment", wallet.toList]

def crCommitSeeds
    (record vowState : Address) :
    List (List U8) :=
  [ascii "cr_commit", record.toList, vowState.toList]

def crFulfillSeeds
    (record vowState : Address) :
    List (List U8) :=
  [ascii "cr_fulfill", record.toList, vowState.toList]

/- The seeds of the stake pool program, which come last. -/
def poolWithdrawAuthoritySeeds
    (pool : Address) :
    List (List U8) :=
  [pool.toList, ascii "withdraw"]

/- The address of a key, found from the seeds of its kind. -/
def Pubkey.address
    (find : Finder) :
    Pubkey → Address
| .key n => keyBytes n
| .config => find ID configSeeds.flatten
| .reserve => find ID reserveSeeds.flatten
| .vowAsset nonce => find ID (vowAssetSeeds nonce).flatten
| .vow assetId =>
    find ID (vowSeeds (assetId.address find)).flatten
| .unstake vowState =>
    find ID (unstakeSeeds (vowState.address find)).flatten
| .session vowState sessionIndex =>
    find ID (sessionSeeds (vowState.address find)
      sessionIndex).flatten
| .app programId =>
    find ID (appSeeds (programId.address find)).flatten
| .authorityProfile wallet profileId =>
    find ID (authorityProfileSeeds (wallet.address find)
      profileId).flatten
| .commitment wallet =>
    find ID (commitmentSeeds (wallet.address find)).flatten
| .crCommit record vowState =>
    find ID (crCommitSeeds (record.address find)
      (vowState.address find)).flatten
| .crFulfill record vowState =>
    find ID (crFulfillSeeds (record.address find)
      (vowState.address find)).flatten
| .poolWithdrawAuthority pool =>
    find STAKE_POOL_ID
      (poolWithdrawAuthoritySeeds
        (pool.address find)).flatten

/- The seeds that an address was found from, if it was. -/
def Pubkey.seeds
    (find : Finder) :
    Pubkey → Option (List (List U8))
| .key _ => none
| .config => some configSeeds
| .reserve => some reserveSeeds
| .vowAsset nonce => some (vowAssetSeeds nonce)
| .vow assetId => some (vowSeeds (assetId.address find))
| .unstake vowState =>
    some (unstakeSeeds (vowState.address find))
| .session vowState sessionIndex =>
    some (sessionSeeds (vowState.address find) sessionIndex)
| .app programId => some (appSeeds (programId.address find))
| .authorityProfile wallet profileId =>
    some (authorityProfileSeeds (wallet.address find)
      profileId)
| .commitment wallet =>
    some (commitmentSeeds (wallet.address find))
| .crCommit record vowState =>
    some (crCommitSeeds (record.address find)
      (vowState.address find))
| .crFulfill record vowState =>
    some (crFulfillSeeds (record.address find)
      (vowState.address find))
| .poolWithdrawAuthority pool =>
    some (poolWithdrawAuthoritySeeds (pool.address find))

/- The program that an address was found for. -/
def Pubkey.program : Pubkey → Address
| .poolWithdrawAuthority _ => STAKE_POOL_ID
| _ => ID

theorem address_of_seeds
    {find : Finder}
    {k : Pubkey}
    {seeds : List (List U8)}
    (hSeeds : k.seeds find = some seeds) :
    k.address find = find k.program seeds.flatten := by
  cases k with
  | key n => cases hSeeds
  | _ =>
      rw [← Option.some.inj hSeeds]
      rfl

/- The keys that the seeds of a key name. -/
def Pubkey.parts : Pubkey → List Pubkey
| .vow assetId => [assetId]
| .unstake vowState => [vowState]
| .session vowState _ => [vowState]
| .app programId => [programId]
| .authorityProfile wallet _ => [wallet]
| .commitment wallet => [wallet]
| .crCommit record vowState => [record, vowState]
| .crFulfill record vowState => [record, vowState]
| .poolWithdrawAuthority pool => [pool]
| _ => []

end Vow
