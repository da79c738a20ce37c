import VowProtocol.Correctness.MintNumbers
import VowProtocol.Correctness.Profiles
import VowProtocol.State.Seeds

/-
  One account at each address.

  The seeds are joined without separators. Their widths and
  first bytes still tell the kinds of accounts apart, and
  within a kind every field has a fixed width. So two accounts
  share an address only if the runtime's search maps two
  different inputs to it, or to a wallet.

  Key definitions include:
    * `AddressFault`
    * `Placed`
    * `Account`
    * `World.accountAt`

  Key theorems include:
    * `address_inj`
    * `exec_placed`
    * `one_account_per_address`
-/

------------------------------------------------------------
-- Widths
------------------------------------------------------------

namespace Vow

open MachineInt ByteLayout

/- The number of seed bytes of each kind of account. -/
def Pubkey.width : Pubkey → Nat
| .key _ => 0
| .config => 6
| .reserve => 7
| .vowAsset _ => 17
| .vow _ => 35
| .unstake _ => 39
| .session _ _ => 43
| .app _ => 35
| .authorityProfile _ _ => 57
| .commitment _ => 42
| .crCommit _ _ => 73
| .crFulfill _ _ => 74
| .poolWithdrawAuthority _ => 40

theorem joined_length
    {find : Finder}
    {k : Pubkey}
    {seeds : List (List U8)}
    (hSeeds : k.seeds find = some seeds) :
    seeds.flatten.length = k.width := by
  cases k with
  | key n => cases hSeeds
  | _ =>
      rw [← Option.some.inj hSeeds]
      simp [configSeeds, reserveSeeds, vowAssetSeeds, vowSeeds,
        unstakeSeeds, sessionSeeds, appSeeds,
        authorityProfileSeeds, commitmentSeeds,
        crCommitSeeds, crFulfillSeeds,
        poolWithdrawAuthoritySeeds, ascii, Pubkey.width]

theorem keyBytes_inj
    {n m : Nat}
    (hLeft : n < 2 ^ 256)
    (hRight : m < 2 ^ 256)
    (hSame : keyBytes n = keyBytes m) :
    n = m := by
  have hLists :
      (leBytes 32 n).reverse = (leBytes 32 m).reverse := by
    have hArrays := congrArg Vector.toArray hSame
    exact congrArg Array.toList hArrays
  apply leBytes_inj _ _ (List.reverse_injective hLists)
  · exact hLeft
  · exact hRight

end Vow

------------------------------------------------------------
-- Distinct Addresses
------------------------------------------------------------

namespace Vow

open MachineInt ByteLayout

/-
  What may go wrong among the keys in use: the search maps
  two inputs to one address, it finds a wallet, or a wallet
  key is wider than an address.
-/
inductive AddressFault
    (find : Finder)
    (Used : Pubkey → Prop) :
    Prop where
  | collision
      (k k' : Pubkey)
      (seeds seeds' : List (List U8))
      (hUsed : Used k ∧ Used k')
      (hSeeds :
        k.seeds find = some seeds ∧
          k'.seeds find = some seeds')
      (hInputs :
        (k.program, seeds.flatten) ≠
          (k'.program, seeds'.flatten))
      (hFound :
        find k.program seeds.flatten =
          find k'.program seeds'.flatten)
  | wallet
      (n : Nat)
      (k : Pubkey)
      (seeds : List (List U8))
      (hUsed : Used (.key n) ∧ Used k)
      (hSeeds : k.seeds find = some seeds)
      (hFound :
        keyBytes n = find k.program seeds.flatten)
  | wide
      (n : Nat)
      (hUsed : Used (.key n))
      (hWide : 2 ^ 256 ≤ n)

variable {find : Finder}
variable {Used : Pubkey → Prop}

/- Accounts at one address were found from the same bytes. -/
theorem joined_eq_of_address_eq
    {k k' : Pubkey}
    {seeds seeds' : List (List U8)}
    (hClear : ¬ AddressFault find Used)
    (hUsed : Used k ∧ Used k')
    (hSeeds : k.seeds find = some seeds)
    (hSeeds' : k'.seeds find = some seeds')
    (hSame : k.address find = k'.address find) :
    seeds.flatten = seeds'.flatten := by
  by_contra hNe
  rw [address_of_seeds hSeeds,
    address_of_seeds hSeeds'] at hSame
  apply hClear
  refine .collision k k' seeds seeds' hUsed
    ⟨hSeeds, hSeeds'⟩ ?_ hSame
  intro hPair
  exact hNe (Prod.mk.inj hPair).2

/- No account stands at the address of a wallet. -/
theorem seeds_none_of_key
    {n : Nat}
    {k : Pubkey}
    (hClear : ¬ AddressFault find Used)
    (hUsed : Used (.key n) ∧ Used k)
    (hSame : keyBytes n = k.address find) :
    k.seeds find = none := by
  cases hSeeds : k.seeds find with
  | none => rfl
  | some seeds =>
      rw [address_of_seeds hSeeds] at hSame
      exact absurd
        (.wallet n k seeds hUsed hSeeds hSame) hClear

/- A key without seeds is the key of a wallet. -/
theorem key_of_seeds_none
    {k : Pubkey}
    (hNone : k.seeds find = none) :
    ∃ n, k = .key n := by
  cases k with
  | key n => exact ⟨n, rfl⟩
  | _ => cases hNone

/- A field of known width is cut off the rest. -/
theorem fields_eq
    {tag : List U8}
    {left right : Address}
    {rest rest' : List U8}
    (hSame :
      tag ++ (left.toList ++ rest) =
        tag ++ (right.toList ++ rest')) :
    left = right ∧ rest = rest' := by
  have hTail := List.append_cancel_left hSame
  have hLength : left.toList.length = right.toList.length := by
    rw [Vector.length_toList, Vector.length_toList]
  rcases List.append_inj hTail hLength with ⟨hLeft, hRest⟩
  exact ⟨Vector.toList_inj.mp hLeft, hRest⟩

/- Equal widths, different first bytes. -/
theorem joined_vow_ne_app
    (assetId programId : Address) :
    (vowSeeds assetId).flatten ≠
      (appSeeds programId).flatten := by
  intro hSame
  have hFirst :
      Unsigned.ofNat 8 118 = Unsigned.ofNat 8 97 :=
    (List.cons.inj hSame).1
  exact absurd hFirst (by decide)

/- Keys of one kind whose parts stand at equal addresses. -/
def Alike
    (find : Finder) :
    Pubkey → Pubkey → Prop
| .config, .config => True
| .reserve, .reserve => True
| .vowAsset n, .vowAsset m => n = m
| .vow a, .vow b => a.address find = b.address find
| .unstake a, .unstake b => a.address find = b.address find
| .session a i, .session b j =>
    a.address find = b.address find ∧ i = j
| .app a, .app b => a.address find = b.address find
| .authorityProfile a i, .authorityProfile b j =>
    a.address find = b.address find ∧ i = j
| .commitment a, .commitment b =>
    a.address find = b.address find
| .crCommit a v, .crCommit b u =>
    a.address find = b.address find ∧
      v.address find = u.address find
| .crFulfill a v, .crFulfill b u =>
    a.address find = b.address find ∧
      v.address find = u.address find
| .poolWithdrawAuthority a, .poolWithdrawAuthority b =>
    a.address find = b.address find
| _, _ => False

/-
  The joined bytes determine the kind and the fields. Only the
  seeds of identities and of apps have the same width, and
  their first bytes differ.
-/
theorem alike_of_joined_eq
    {k k' : Pubkey}
    {seeds seeds' : List (List U8)}
    (hSeeds : k.seeds find = some seeds)
    (hSeeds' : k'.seeds find = some seeds')
    (hJoined : seeds.flatten = seeds'.flatten) :
    Alike find k k' := by
  have hWidth : k.width = k'.width := by
    rw [← joined_length hSeeds, ← joined_length hSeeds',
      hJoined]
  cases k with
  | key n => cases hSeeds
  | config =>
      cases k' with
      | config => trivial
      | _ => exact absurd hWidth (by simp [Pubkey.width])
  | reserve =>
      cases k' with
      | reserve => trivial
      | _ => exact absurd hWidth (by simp [Pubkey.width])
  | vowAsset n =>
      cases k' with
      | vowAsset m =>
          cases hSeeds
          cases hSeeds'
          have hFields :
              ascii "vow_asset" ++ (leBytes 8 n.val ++ []) =
                ascii "vow_asset" ++
                  (leBytes 8 m.val ++ []) := hJoined
          have hBytes := List.append_cancel_left hFields
          rw [List.append_nil, List.append_nil] at hBytes
          exact Unsigned.ext
            (leBytes_inj n.isLt m.isLt hBytes)
      | _ => exact absurd hWidth (by simp [Pubkey.width])
  | vow a =>
      cases k' with
      | vow b =>
          cases hSeeds
          cases hSeeds'
          have hFields :
              ascii "vow" ++ ((a.address find).toList ++ []) =
                ascii "vow" ++
                  ((b.address find).toList ++ []) := hJoined
          exact (fields_eq hFields).1
      | app b =>
          cases hSeeds
          cases hSeeds'
          exact absurd hJoined (joined_vow_ne_app _ _)
      | _ => exact absurd hWidth (by simp [Pubkey.width])
  | unstake a =>
      cases k' with
      | unstake b =>
          cases hSeeds
          cases hSeeds'
          have hFields :
              ascii "unstake" ++ ((a.address find).toList ++ []) =
                ascii "unstake" ++
                  ((b.address find).toList ++ []) := hJoined
          exact (fields_eq hFields).1
      | _ => exact absurd hWidth (by simp [Pubkey.width])
  | session a i =>
      cases k' with
      | session b j =>
          cases hSeeds
          cases hSeeds'
          have hFields :
              ascii "session" ++ ((a.address find).toList ++
                  (leBytes 4 i.val ++ [])) =
                ascii "session" ++ ((b.address find).toList ++
                  (leBytes 4 j.val ++ [])) := hJoined
          rcases fields_eq hFields with ⟨hVow, hRest⟩
          rw [List.append_nil, List.append_nil] at hRest
          exact ⟨hVow, Unsigned.ext
            (leBytes_inj i.isLt j.isLt hRest)⟩
      | _ => exact absurd hWidth (by simp [Pubkey.width])
  | app a =>
      cases k' with
      | app b =>
          cases hSeeds
          cases hSeeds'
          have hFields :
              ascii "app" ++ ((a.address find).toList ++ []) =
                ascii "app" ++
                  ((b.address find).toList ++ []) := hJoined
          exact (fields_eq hFields).1
      | vow b =>
          cases hSeeds
          cases hSeeds'
          exact absurd hJoined.symm (joined_vow_ne_app _ _)
      | _ => exact absurd hWidth (by simp [Pubkey.width])
  | authorityProfile a i =>
      cases k' with
      | authorityProfile b j =>
          cases hSeeds
          cases hSeeds'
          have hFields :
              ascii "authority_profile" ++
                  ((a.address find).toList ++
                    (i.toList ++ [])) =
                ascii "authority_profile" ++
                  ((b.address find).toList ++
                    (j.toList ++ [])) := hJoined
          rcases fields_eq hFields with ⟨hWallet, hRest⟩
          rw [List.append_nil, List.append_nil] at hRest
          exact ⟨hWallet, Vector.toList_inj.mp hRest⟩
      | _ => exact absurd hWidth (by simp [Pubkey.width])
  | commitment a =>
      cases k' with
      | commitment b =>
          cases hSeeds
          cases hSeeds'
          have hFields :
              ascii "commitment" ++ ((a.address find).toList ++ []) =
                ascii "commitment" ++
                  ((b.address find).toList ++ []) := hJoined
          exact (fields_eq hFields).1
      | _ => exact absurd hWidth (by simp [Pubkey.width])
  | crCommit a v =>
      cases k' with
      | crCommit b u =>
          cases hSeeds
          cases hSeeds'
          have hFields :
              ascii "cr_commit" ++ ((a.address find).toList ++
                  ((v.address find).toList ++ [])) =
                ascii "cr_commit" ++ ((b.address find).toList ++
                  ((u.address find).toList ++ [])) := hJoined
          rcases fields_eq hFields with ⟨hRecord, hRest⟩
          have hLast :
              [] ++ ((v.address find).toList ++ []) =
                [] ++ ((u.address find).toList ++ []) := hRest
          exact ⟨hRecord, (fields_eq hLast).1⟩
      | _ => exact absurd hWidth (by simp [Pubkey.width])
  | crFulfill a v =>
      cases k' with
      | crFulfill b u =>
          cases hSeeds
          cases hSeeds'
          have hFields :
              ascii "cr_fulfill" ++ ((a.address find).toList ++
                  ((v.address find).toList ++ [])) =
                ascii "cr_fulfill" ++ ((b.address find).toList ++
                  ((u.address find).toList ++ [])) := hJoined
          rcases fields_eq hFields with ⟨hRecord, hRest⟩
          have hLast :
              [] ++ ((v.address find).toList ++ []) =
                [] ++ ((u.address find).toList ++ []) := hRest
          exact ⟨hRecord, (fields_eq hLast).1⟩
      | _ => exact absurd hWidth (by simp [Pubkey.width])
  | poolWithdrawAuthority a =>
      cases k' with
      | poolWithdrawAuthority b =>
          cases hSeeds
          cases hSeeds'
          have hFields :
              [] ++ ((a.address find).toList ++
                  (ascii "withdraw" ++ [])) =
                [] ++ ((b.address find).toList ++
                  (ascii "withdraw" ++ [])) := hJoined
          exact (fields_eq hFields).1
      | _ => exact absurd hWidth (by simp [Pubkey.width])

theorem alike_of_address_eq
    {k k' : Pubkey}
    {seeds : List (List U8)}
    (hClear : ¬ AddressFault find Used)
    (hUsed : Used k)
    (hUsed' : Used k')
    (hSeeds : k.seeds find = some seeds)
    (hSame : k.address find = k'.address find) :
    Alike find k k' := by
  cases hSeeds' : k'.seeds find with
  | none =>
      rcases key_of_seeds_none hSeeds' with ⟨n, hKey⟩
      subst hKey
      have hNone := seeds_none_of_key hClear
        ⟨hUsed', hUsed⟩ hSame.symm
      rw [hSeeds] at hNone
      cases hNone
  | some seeds' =>
      exact alike_of_joined_eq hSeeds hSeeds'
        (joined_eq_of_address_eq hClear ⟨hUsed, hUsed'⟩
          hSeeds hSeeds' hSame)

/-
  Keys in use have different addresses. The induction is on
  the first key: equal joined bytes give equal addresses of
  the parts, and the parts are in use too.
-/
theorem address_inj
    (hClear : ¬ AddressFault find Used)
    (hParts :
      ∀ k, Used k → ∀ part ∈ k.parts, Used part)
    {k k' : Pubkey}
    (hUsed : Used k)
    (hUsed' : Used k')
    (hSame : k.address find = k'.address find) :
    k = k' := by
  induction k generalizing k' with
  | key n =>
      have hNone := seeds_none_of_key hClear
        ⟨hUsed, hUsed'⟩ hSame
      rcases key_of_seeds_none hNone with ⟨m, hKey⟩
      subst hKey
      have hN : n < 2 ^ 256 := by
        by_contra hWide
        exact hClear (.wide n hUsed (not_lt.mp hWide))
      have hM : m < 2 ^ 256 := by
        by_contra hWide
        exact hClear (.wide m hUsed' (not_lt.mp hWide))
      rw [keyBytes_inj hN hM hSame]
  | config =>
      have hAlike := alike_of_address_eq hClear hUsed hUsed'
        rfl hSame
      cases k' with
      | config => rfl
      | _ => exact hAlike.elim
  | reserve =>
      have hAlike := alike_of_address_eq hClear hUsed hUsed'
        rfl hSame
      cases k' with
      | reserve => rfl
      | _ => exact hAlike.elim
  | vowAsset n =>
      have hAlike := alike_of_address_eq hClear hUsed hUsed'
        rfl hSame
      cases k' with
      | vowAsset m =>
          have hNonce : n = m := hAlike
          rw [hNonce]
      | _ => exact hAlike.elim
  | vow a ih =>
      have hAlike := alike_of_address_eq hClear hUsed hUsed'
        rfl hSame
      cases k' with
      | vow b =>
          rw [ih (hParts _ hUsed a (by simp [Pubkey.parts]))
            (hParts _ hUsed' b (by simp [Pubkey.parts]))
            hAlike]
      | _ => exact hAlike.elim
  | unstake a ih =>
      have hAlike := alike_of_address_eq hClear hUsed hUsed'
        rfl hSame
      cases k' with
      | unstake b =>
          rw [ih (hParts _ hUsed a (by simp [Pubkey.parts]))
            (hParts _ hUsed' b (by simp [Pubkey.parts]))
            hAlike]
      | _ => exact hAlike.elim
  | session a i ih =>
      have hAlike := alike_of_address_eq hClear hUsed hUsed'
        rfl hSame
      cases k' with
      | session b j =>
          rw [ih (hParts _ hUsed a (by simp [Pubkey.parts]))
            (hParts _ hUsed' b (by simp [Pubkey.parts]))
            hAlike.1, hAlike.2]
      | _ => exact hAlike.elim
  | app a ih =>
      have hAlike := alike_of_address_eq hClear hUsed hUsed'
        rfl hSame
      cases k' with
      | app b =>
          rw [ih (hParts _ hUsed a (by simp [Pubkey.parts]))
            (hParts _ hUsed' b (by simp [Pubkey.parts]))
            hAlike]
      | _ => exact hAlike.elim
  | authorityProfile a i ih =>
      have hAlike := alike_of_address_eq hClear hUsed hUsed'
        rfl hSame
      cases k' with
      | authorityProfile b j =>
          rw [ih (hParts _ hUsed a (by simp [Pubkey.parts]))
            (hParts _ hUsed' b (by simp [Pubkey.parts]))
            hAlike.1, hAlike.2]
      | _ => exact hAlike.elim
  | commitment a ih =>
      have hAlike := alike_of_address_eq hClear hUsed hUsed'
        rfl hSame
      cases k' with
      | commitment b =>
          rw [ih (hParts _ hUsed a (by simp [Pubkey.parts]))
            (hParts _ hUsed' b (by simp [Pubkey.parts]))
            hAlike]
      | _ => exact hAlike.elim
  | crCommit a v ihRecord ihVow =>
      have hAlike := alike_of_address_eq hClear hUsed hUsed'
        rfl hSame
      cases k' with
      | crCommit b u =>
          rw [ihRecord
              (hParts _ hUsed a (by simp [Pubkey.parts]))
              (hParts _ hUsed' b (by simp [Pubkey.parts]))
              hAlike.1,
            ihVow
              (hParts _ hUsed v (by simp [Pubkey.parts]))
              (hParts _ hUsed' u (by simp [Pubkey.parts]))
              hAlike.2]
      | _ => exact hAlike.elim
  | crFulfill a v ihRecord ihVow =>
      have hAlike := alike_of_address_eq hClear hUsed hUsed'
        rfl hSame
      cases k' with
      | crFulfill b u =>
          rw [ihRecord
              (hParts _ hUsed a (by simp [Pubkey.parts]))
              (hParts _ hUsed' b (by simp [Pubkey.parts]))
              hAlike.1,
            ihVow
              (hParts _ hUsed v (by simp [Pubkey.parts]))
              (hParts _ hUsed' u (by simp [Pubkey.parts]))
              hAlike.2]
      | _ => exact hAlike.elim
  | poolWithdrawAuthority a ih =>
      have hAlike := alike_of_address_eq hClear hUsed hUsed'
        rfl hSame
      cases k' with
      | poolWithdrawAuthority b =>
          rw [ih (hParts _ hUsed a (by simp [Pubkey.parts]))
            (hParts _ hUsed' b (by simp [Pubkey.parts]))
            hAlike]
      | _ => exact hAlike.elim

end Vow

------------------------------------------------------------
-- Where Accounts Stand
------------------------------------------------------------

namespace Vow

open MachineInt Fallible Transition

/-
  Every account stands at the address that the fields stored
  in it give. A gate stores none.
-/
structure Placed
    (w : World) :
    Prop where
  escrows :
    w.escrows.All fun k escrow => k = .unstake escrow.vowState
  sessions :
    w.sessions.All fun k session =>
      k = .session session.vowState session.sessionIndex
  apps :
    w.apps.All fun k registry => k = .app registry.programId
  profiles :
    w.profiles.All fun k profile =>
      k = .authorityProfile profile.wallet profile.profileId
  records :
    w.records.All fun k record =>
      k = .commitment record.wallet
  gates :
    w.gates.All fun k _ =>
      ∃ wallet vowState,
        k = .crCommit (.commitment wallet) vowState ∨
          k = .crFulfill (.commitment wallet) vowState

variable {env : Env}
variable {w w' : World}
variable {ix : Instruction}

theorem Placed.execute_escrows
    (hPlaced : Placed w)
    (hOk : execute env w ix = .ok w') :
    w'.escrows.All fun k escrow =>
      k = .unstake escrow.vowState := by
  cases ix with
  | beginUnstake owner vowState =>
      rcases beginUnstake_ok hOk with ⟨call, hEq⟩
      subst hEq
      exact hPlaced.escrows.insert rfl
  | completeUnstake owner vowState =>
      rcases completeUnstake_eq_ok_iff.mp hOk with ⟨call, hEq⟩
      subst hEq
      exact hPlaced.escrows.erase _
  | _ =>
      intro k escrow hLookup
      rw [(execute_effect hOk).escrows k
        (by simp [Instruction.escrowSlot])] at hLookup
      exact hPlaced.escrows k escrow hLookup

theorem Placed.execute_sessions
    (hPlaced : Placed w)
    (hOk : execute env w ix = .ok w') :
    w'.sessions.All fun k session =>
      k = .session session.vowState
        session.sessionIndex := by
  cases ix with
  | createSession accounts =>
      rcases createSession_ok hOk with ⟨call, hEq⟩
      subst hEq
      exact hPlaced.sessions.insert rfl
  | revokeSession owner vowState sessionAccount =>
      rcases revokeSession_ok hOk with ⟨call, hEq⟩
      subst hEq
      exact hPlaced.sessions.insert
        (hPlaced.sessions sessionAccount call.session
          call.hSession)
  | closeSession owner vowState sessionAccount =>
      rcases closeSession_ok hOk with ⟨call, hEq⟩
      subst hEq
      exact hPlaced.sessions.erase _
  | yieldSpend accounts =>
      rcases yieldSpend_eq_ok_iff.mp hOk with ⟨call, hEq⟩
      rcases recordSpend_counters call.hSpent with
        ⟨counters, hSession⟩
      subst hEq
      apply hPlaced.sessions.insert
      rw [hSession]
      exact hPlaced.sessions _ call.session call.hSession
  | _ =>
      intro k session hLookup
      rw [(execute_effect hOk).sessions k
        (by simp [Instruction.sessionSlot])] at hLookup
      exact hPlaced.sessions k session hLookup

theorem Placed.execute_apps
    (hPlaced : Placed w)
    (hOk : execute env w ix = .ok w') :
    w'.apps.All fun k registry =>
      k = .app registry.programId := by
  cases ix with
  | registerApp payer programId =>
      rcases registerApp_ok hOk with ⟨call, hEq⟩
      subst hEq
      exact hPlaced.apps.insert rfl
  | verifyApp admin address =>
      rcases adminAppAction_ok hOk with ⟨call, hEq⟩
      subst hEq
      exact hPlaced.apps.insert
        (hPlaced.apps address call.registry call.hRegistry)
  | blockApp admin address =>
      rcases adminAppAction_ok hOk with ⟨call, hEq⟩
      subst hEq
      exact hPlaced.apps.insert
        (hPlaced.apps address call.registry call.hRegistry)
  | recordCommitment payer vowState =>
      rcases recordCommitment_ok hOk with ⟨call, hEq⟩
      subst hEq
      exact hPlaced.apps
  | recordFulfillment payer vowState =>
      rcases recordFulfillment_ok hOk with ⟨call, hEq⟩
      subst hEq
      exact hPlaced.apps
  | _ =>
      rw [(execute_registriesKept hOk rfl).apps]
      exact hPlaced.apps

theorem Placed.execute_profiles
    (hPlaced : Placed w)
    (hOk : execute env w ix = .ok w') :
    w'.profiles.All fun k profile =>
      k = .authorityProfile profile.wallet
        profile.profileId := by
  cases ix with
  | createAuthorityProfile wallet profileId params =>
      rcases createAuthorityProfile_mirrors hOk with
        ⟨account, hMirrors, hProfiles⟩
      rw [hProfiles]
      apply hPlaced.profiles.insert
      rw [hMirrors.wallet, hMirrors.profileId]
      rfl
  | updateAuthorityProfile wallet address params =>
      change updateAuthorityProfile w wallet address params =
        .ok w' at hOk
      rcases updateAuthorityProfile_ok hOk with ⟨call, hEq⟩
      subst hEq
      exact hPlaced.profiles.insert
        (hPlaced.profiles address call.profile
          call.hProfile)
  | closeAuthorityProfile wallet address =>
      rw [closeAuthorityProfile_profiles hOk]
      exact hPlaced.profiles.erase _
  | _ =>
      rw [execute_profilesKept hOk rfl]
      exact hPlaced.profiles

theorem Placed.execute_records
    (hPlaced : Placed w)
    (hOk : execute env w ix = .ok w') :
    (w'.records.All fun k record =>
        k = .commitment record.wallet) ∧
      w'.gates.All fun k _ =>
        ∃ wallet vowState,
          k = .crCommit (.commitment wallet) vowState ∨
            k = .crFulfill (.commitment wallet)
              vowState := by
  cases ix with
  | recordCommitment payer vowState =>
      rcases recordCommitment_ok hOk with ⟨call, hEq⟩
      subst hEq
      exact ⟨hPlaced.records.insert rfl,
        hPlaced.gates.insert
          ⟨call.vow.owner, vowState, Or.inl rfl⟩⟩
  | recordFulfillment payer vowState =>
      rcases recordFulfillment_ok hOk with ⟨call, hEq⟩
      subst hEq
      exact ⟨hPlaced.records.insert
          (hPlaced.records _ call.record call.hRecord),
        hPlaced.gates.insert
          ⟨call.vow.owner, vowState, Or.inr rfl⟩⟩
  | _ =>
      have hKept := execute_recordsKept hOk (by simp) (by simp)
      rw [hKept.1, hKept.2]
      exact ⟨hPlaced.records, hPlaced.gates⟩

theorem exec_placed
    {step : Step}
    (hExec : step.exec w = some w')
    (hPlaced : Placed w) :
    Placed w' := by
  rcases step with ⟨env, action⟩
  cases action with
  | instruction ix =>
      have hOk := Step.exec_instruction_iff.mp hExec
      exact ⟨hPlaced.execute_escrows hOk,
        hPlaced.execute_sessions hOk,
        hPlaced.execute_apps hOk,
        hPlaced.execute_profiles hOk,
        (hPlaced.execute_records hOk).1,
        (hPlaced.execute_records hOk).2⟩
  | _ =>
      rw [← Option.some.inj hExec]
      exact ⟨hPlaced.escrows, hPlaced.sessions, hPlaced.apps,
        hPlaced.profiles, hPlaced.records, hPlaced.gates⟩

theorem placed_run
    (lamports : Lamports)
    (steps : List Step) :
    Placed ((World.genesis lamports).run steps) := by
  have hInit : Placed (World.genesis lamports) :=
    ⟨.empty, .empty, .empty, .empty, .empty, .empty⟩
  refine @run_invariant World Step Step.exec Placed
    (fun _ => True) ?_ _ hInit steps (fun _ _ => trivial)
  intro w step w' _ hPlaced hExec
  exact exec_placed hExec hPlaced

end Vow

------------------------------------------------------------
-- One Store
------------------------------------------------------------

namespace Vow

open MachineInt Fallible Transition

/- An account of the program, of any type. -/
inductive Account where
  | reserve
  | config (config : ProtocolConfig)
  | vow (vow : VowState)
  | escrow (escrow : UnstakeEscrow)
  | session (session : SessionAccount)
  | app (registry : AppRegistry)
  | profile (profile : AuthorityProfile)
  | record (record : CommitmentRecord)
  | gate (gate : CrGate)

/- The account that stands at a key. -/
def World.accountAt
    (w : World)
    (k : Pubkey) :
    Option Account :=
  match k with
  | .reserve => some .reserve
  | .config => w.config.map .config
  | .vow _ => (w.vows.lookup k).map .vow
  | .unstake _ => (w.escrows.lookup k).map .escrow
  | .session _ _ => (w.sessions.lookup k).map .session
  | .app _ => (w.apps.lookup k).map .app
  | .authorityProfile _ _ =>
      (w.profiles.lookup k).map .profile
  | .commitment _ => (w.records.lookup k).map .record
  | .crCommit _ _ => (w.gates.lookup k).map .gate
  | .crFulfill _ _ => (w.gates.lookup k).map .gate
  | _ => none

/- No account hides at a key of another kind. -/
structure Visible
    (w : World) :
    Prop where
  vows :
    w.vows.All fun k vow => w.accountAt k = some (.vow vow)
  escrows :
    w.escrows.All fun k escrow =>
      w.accountAt k = some (.escrow escrow)
  sessions :
    w.sessions.All fun k session =>
      w.accountAt k = some (.session session)
  apps :
    w.apps.All fun k registry =>
      w.accountAt k = some (.app registry)
  profiles :
    w.profiles.All fun k profile =>
      w.accountAt k = some (.profile profile)
  records :
    w.records.All fun k record =>
      w.accountAt k = some (.record record)
  gates :
    w.gates.All fun k gate =>
      w.accountAt k = some (.gate gate)

theorem Placed.visible
    {w : World}
    (hPlaced : Placed w)
    (hNamed :
      w.vows.All fun k vow => NamedByNumber k vow) :
    Visible w := by
  constructor
  · intro k vow hLookup
    have hKey := (hNamed k vow hLookup).address
    rw [hKey] at hLookup ⊢
    simp only [World.accountAt, hLookup, Option.map_some]
  · intro k escrow hLookup
    have hKey := hPlaced.escrows k escrow hLookup
    rw [hKey] at hLookup ⊢
    simp only [World.accountAt, hLookup, Option.map_some]
  · intro k session hLookup
    have hKey := hPlaced.sessions k session hLookup
    rw [hKey] at hLookup ⊢
    simp only [World.accountAt, hLookup, Option.map_some]
  · intro k registry hLookup
    have hKey := hPlaced.apps k registry hLookup
    rw [hKey] at hLookup ⊢
    simp only [World.accountAt, hLookup, Option.map_some]
  · intro k profile hLookup
    have hKey := hPlaced.profiles k profile hLookup
    rw [hKey] at hLookup ⊢
    simp only [World.accountAt, hLookup, Option.map_some]
  · intro k record hLookup
    have hKey := hPlaced.records k record hLookup
    rw [hKey] at hLookup ⊢
    simp only [World.accountAt, hLookup, Option.map_some]
  · intro k gate hLookup
    rcases hPlaced.gates k gate hLookup with
      ⟨wallet, vowState, hKey | hKey⟩
    · rw [hKey] at hLookup ⊢
      simp only [World.accountAt, hLookup, Option.map_some]
    · rw [hKey] at hLookup ⊢
      simp only [World.accountAt, hLookup, Option.map_some]

/- A key that the seeds of another key name, at any depth. -/
inductive Within
    (k : Pubkey) :
    Pubkey → Prop where
  | here : Within k k
  | part
      {part whole : Pubkey}
      (hPart : part ∈ whole.parts)
      (hWithin : Within k part) :
      Within k whole

theorem Within.of_part
    {part k whole : Pubkey}
    (hPart : part ∈ k.parts)
    (hWithin : Within k whole) :
    Within part whole := by
  induction hWithin with
  | here => exact .part hPart .here
  | part hStep _ ih => exact .part hStep ih

/-
  The keys in use: those of the accounts, those that an
  instruction asks about, and those that their seeds name.
-/
def World.InUse
    (w : World)
    (asked : List Pubkey)
    (k : Pubkey) :
    Prop :=
  ∃ whole,
    (whole ∈ asked ∨ (w.accountAt whole).isSome) ∧
      Within k whole

/-
  After every run each account stands at the address that its
  stored fields give, an identity at that of its number. The
  typed accounts are one store of bytes: a plain map from
  addresses holds exactly the account of each key in use, none
  where the key has none, unless the search itself fails to
  keep the addresses in use apart.
-/
theorem one_account_per_address
    (lamports : Lamports)
    (steps : List Step)
    (find : Finder)
    (asked : List Pubkey) :
    Placed ((World.genesis lamports).run steps) ∧
      (((World.genesis lamports).run steps).vows.All
        fun k vow => NamedByNumber k vow) ∧
      Visible ((World.genesis lamports).run steps) ∧
      (AddressFault find
          (((World.genesis lamports).run steps).InUse
            asked) ∨
        ∃ chain : Address → Option Account, ∀ k,
          ((World.genesis lamports).run steps).InUse asked k →
          chain (k.address find) =
            ((World.genesis lamports).run steps).accountAt
              k) := by
  have hReach :
      Reachable ((World.genesis lamports).run steps) :=
    ⟨lamports, steps, rfl⟩
  generalize hWorld :
    (World.genesis lamports).run steps = w at hReach ⊢
  have hPlaced : Placed w := by
    rw [← hWorld]
    exact placed_run lamports steps
  have hNamed :
      w.vows.All fun k vow => NamedByNumber k vow := by
    intro k vow hLookup
    exact named_reachable hReach hLookup
  refine ⟨hPlaced, hNamed, hPlaced.visible hNamed, ?_⟩
  by_cases hFault : AddressFault find (w.InUse asked)
  · exact Or.inl hFault
  · have hParts :
        ∀ k, w.InUse asked k → ∀ part ∈ k.parts,
          w.InUse asked part := by
      rintro k ⟨whole, hWhole, hWithin⟩ part hPart
      exact ⟨whole, hWhole, hWithin.of_part hPart⟩
    have hInj :
        Set.InjOn (Pubkey.address find)
          {k | w.InUse asked k} := by
      intro k hUsed k' hUsed' hSame
      exact address_inj hFault hParts hUsed hUsed' hSame
    refine Or.inr ⟨fun b => w.accountAt
      (Function.invFunOn (Pubkey.address find)
        {k | w.InUse asked k} b), ?_⟩
    intro k hUsed
    dsimp only
    rw [hInj.leftInvOn_invFunOn hUsed]

end Vow
