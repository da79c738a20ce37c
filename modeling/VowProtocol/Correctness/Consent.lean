import VowProtocol.Correctness.Addresses
import VowProtocol.Correctness.Pairing
import VowProtocol.Correctness.SessionLimits

/-
  What happens without the owner's signature.

  As long as an owner signs nothing, an identity keeps its
  terms: its class, principal, mode, dates, counters and
  flags. Its escrow neither opens nor closes, its sessions are
  neither opened, revoked nor closed, and the profiles of the
  owner stay as they are. The account of the identity changes
  by harvests, deposits, spends through the sessions that are
  open already, and fast unlocks while there is no pool.

  Key definitions include:
    * `OthersMove`
    * `LeftAlone`
    * `Consented`

  Key theorems include:
    * `execute_owner_signs`
    * `exec_othersMove`
    * `exec_consented`
    * `owner_consent_needed`
-/

------------------------------------------------------------
-- Owner Calls
------------------------------------------------------------

namespace Vow

open MachineInt Fallible Transition

/- The identity whose owner has to sign the instruction. -/
def Instruction.ownerCall : Instruction → Option Pubkey
| .addStake _ vowState _ => some vowState
| .updateYieldMode _ vowState _ => some vowState
| .beginUnstake _ vowState => some vowState
| .completeUnstake _ vowState => some vowState
| .activateStake _ vowState _ _ => some vowState
| .createSession ix => some ix.vowState
| .revokeSession _ vowState _ => some vowState
| .closeSession _ vowState _ => some vowState
| .withdrawYield _ vowState _ => some vowState
| _ => none

/- The wallet signs the step. -/
def Step.signedBy
    (wallet : Pubkey)
    (step : Step) :
    Bool :=
  match step.action with
  | .instruction ix => ix.signer.map Signer.key = some wallet
  | _ => false

/- Owner calls succeed for the owner alone. -/
theorem execute_owner_signs
    {env : Env}
    {w w' : World}
    {ix : Instruction}
    {vowState : Pubkey}
    {vow : VowState}
    (hOk : execute env w ix = .ok w')
    (hCall : ix.ownerCall = some vowState)
    (hLookup : w.vows.lookup vowState = some vow) :
    Step.signedBy vow.owner ⟨env, .instruction ix⟩ = true := by
  -- The identity that the handler loads is the one asked for.
  have hSigns :
      ∀ (owner : Signer) (identity : Pubkey)
        (found : VowState),
        ix.signer = some owner →
        ix.ownerCall = some identity →
        w.vows.lookup identity = some found →
        found.owner = owner.key →
        Step.signedBy vow.owner ⟨env, .instruction ix⟩ =
          true := by
    intro owner identity found hSigner hIdentity hFound hOwner
    rw [hCall] at hIdentity
    rw [← Option.some.inj hIdentity, hLookup] at hFound
    rw [← Option.some.inj hFound] at hOwner
    unfold Step.signedBy
    dsimp only
    rw [hSigner, hOwner]
    simp
  cases ix with
  | addStake owner identity lamportsToAdd =>
      rcases addStake_ok hOk with ⟨call, vow', _, _⟩
      exact hSigns owner identity call.vow rfl rfl call.hLookup
        call.hOwner
  | updateYieldMode owner identity newMode =>
      rcases updateYieldMode_ok hOk with ⟨call, _⟩
      exact hSigns owner identity call.vow rfl rfl call.hLookup
        call.hOwner
  | beginUnstake owner identity =>
      rcases beginUnstake_ok hOk with ⟨call, _⟩
      exact hSigns owner identity call.vow rfl rfl call.hLookup
        call.hOwner
  | completeUnstake owner identity =>
      rcases completeUnstake_eq_ok_iff.mp hOk with ⟨call, _⟩
      exact hSigns owner identity call.vow rfl rfl call.hLookup
        call.hOwner
  | activateStake owner identity stakeLamports yieldMode =>
      rcases activateStake_ok hOk with ⟨call, _⟩
      exact hSigns owner identity call.vow rfl rfl call.hLookup
        call.hOwner
  | createSession accounts =>
      rcases createSession_ok hOk with ⟨call, _⟩
      exact hSigns accounts.owner accounts.vowState call.vow rfl
        rfl call.hLookup call.hOwner
  | revokeSession owner identity slot =>
      rcases revokeSession_ok hOk with ⟨call, _⟩
      exact hSigns owner identity call.vow rfl rfl call.hLookup
        call.hOwner
  | closeSession owner identity slot =>
      rcases closeSession_ok hOk with ⟨call, _⟩
      exact hSigns owner identity call.vow rfl rfl call.hLookup
        call.hOwner
  | withdrawYield owner identity amount =>
      rcases withdrawYield_ok hOk with ⟨call, _⟩
      exact hSigns owner identity call.vow rfl rfl call.hLookup
        call.hOwner
  | _ =>
      exact absurd hCall (by simp [Instruction.ownerCall])

end Vow

------------------------------------------------------------
-- The Identity
------------------------------------------------------------

namespace Vow

open MachineInt Fallible Transition

/-
  What a step that the owner does not sign makes of the
  identity.
-/
inductive OthersMove
    (vowState : Pubkey)
    (o : Occurrence World Step)
    (vow : VowState) :
    VowState → Prop where
  | idle :
      OthersMove vowState o vow vow
  | harvests
      (config config' : ProtocolConfig)
      (vow' : VowState)
      (hAction :
        o.action.action = .instruction (.harvest vowState))
      (hConfig : o.before.config = some config)
      (hGain :
        harvestGain
          ((matureIfDue o.action.env.unixTimestamp
            vow).settled config.currentSharePrice) config =
          .ok (vow', config')) :
      OthersMove vowState o vow vow'
  | deposits
      (depositor : Signer)
      (amount : U64)
      (hAction :
        o.action.action =
          .instruction
            (.depositYieldBalance depositor vowState amount)) :
      OthersMove vowState o vow
        { vow with
          yieldBalance :=
            vow.yieldBalance.saturatingAdd amount }
  | spends
      (ix : YieldSpend)
      (yieldBalance : U64)
      (hAction :
        o.action.action = .instruction (.yieldSpend ix))
      (hIdentity : ix.vowState = vowState)
      (hBalance :
        vow.yieldBalance.val =
          yieldBalance.val + ix.amount.val) :
      OthersMove vowState o vow
        { vow with yieldBalance := yieldBalance }
  | fastUnlocks
      (admin : Signer)
      (config : ProtocolConfig)
      (hAction :
        o.action.action =
          .instruction (.devFastUnlock admin vowState))
      (hConfig : o.before.config = some config)
      (hPool : config.splStakePool = .default) :
      OthersMove vowState o vow
        { vow with unlockAt := Signed.clamp 63 1 }

/- The step harvests the identity. -/
def Harvests
    (vowState : Pubkey)
    (o : Occurrence World Step) :
    Prop :=
  o.action.action = .instruction (.harvest vowState)

/- A fast unlock of the identity while there is no pool. -/
def FastUnlocks
    (vowState : Pubkey)
    (o : Occurrence World Step) :
    Prop :=
  ∃ admin config,
    o.action.action =
      .instruction (.devFastUnlock admin vowState) ∧
    o.before.config = some config ∧
    config.splStakePool = .default

/- The yield that a step spends through a session. -/
def spentFrom
    (vowState : Pubkey)
    (o : Occurrence World Step) :
    Nat :=
  match o.action.action with
  | .instruction (.yieldSpend ix) =>
      if ix.vowState = vowState then ix.amount.val else 0
  | _ => 0

/-
  What a history without the owner leaves of an identity: only
  a fast unlock has moved its lock, only harvests have settled
  it, matured it or burned shares, and the yield lacks no more
  than was spent through sessions.
-/
structure LeftAlone
    (vowState : Pubkey)
    (history : List (Occurrence World Step))
    (before after : VowState) :
    Prop where
  kept :
    after = { before with
      unlockAt := after.unlockAt
      matured := after.matured
      shares := after.shares
      lastSharePrice := after.lastSharePrice
      accruedGain := after.accruedGain
      yieldBalance := after.yieldBalance
      totalHarvested := after.totalHarvested }
  unlocked :
    after.unlockAt = before.unlockAt ∨
      after.unlockAt = Signed.clamp 63 1 ∧
        ∃ o ∈ history, FastUnlocks vowState o
  settled :
    after = { before with
      unlockAt := after.unlockAt
      yieldBalance := after.yieldBalance } ∨
      ∃ o ∈ history, Harvests vowState o
  matured : before.matured = true → after.matured = true
  burned : after.shares.val ≤ before.shares.val
  yield :
    before.yieldBalance.val ≤
      after.yieldBalance.val +
        (history.map (spentFrom vowState)).sum

theorem LeftAlone.refl
    (vowState : Pubkey)
    (vow : VowState) :
    LeftAlone vowState [] vow vow :=
  ⟨rfl, Or.inl rfl, Or.inl rfl, id, le_refl _, le_refl _⟩

theorem LeftAlone.trans
    {vowState : Pubkey}
    {past future : List (Occurrence World Step)}
    {first second third : VowState}
    (hFirst : LeftAlone vowState past first second)
    (hSecond : LeftAlone vowState future second third) :
    LeftAlone vowState (past ++ future) first third := by
  have hPast :
      ∀ {P : Occurrence World Step → Prop},
        (∃ o ∈ past, P o) → ∃ o ∈ past ++ future, P o := by
    rintro P ⟨o, ho, hHolds⟩
    exact ⟨o, List.mem_append_left _ ho, hHolds⟩
  have hFuture :
      ∀ {P : Occurrence World Step → Prop},
        (∃ o ∈ future, P o) → ∃ o ∈ past ++ future, P o := by
    rintro P ⟨o, ho, hHolds⟩
    exact ⟨o, List.mem_append_right _ ho, hHolds⟩
  constructor
  · have hLast := hSecond.kept
    rw [hFirst.kept] at hLast
    exact hLast
  · rcases hSecond.unlocked with hSame | ⟨hOne, hUnlock⟩
    · rw [hSame]
      rcases hFirst.unlocked with hStill | ⟨hOne, hUnlock⟩
      · exact Or.inl hStill
      · exact Or.inr ⟨hOne, hPast hUnlock⟩
    · exact Or.inr ⟨hOne, hFuture hUnlock⟩
  · rcases hSecond.settled with hSame | hHarvest
    · rcases hFirst.settled with hStill | hHarvest
      · rw [hStill] at hSame
        exact Or.inl hSame
      · exact Or.inr (hPast hHarvest)
    · exact Or.inr (hFuture hHarvest)
  · intro hMatured
    exact hSecond.matured (hFirst.matured hMatured)
  · exact le_trans hSecond.burned hFirst.burned
  · have hLess := hFirst.yield
    have hMore := hSecond.yield
    rw [List.map_append, List.sum_append]
    omega

theorem LeftAlone.owner
    {vowState : Pubkey}
    {history : List (Occurrence World Step)}
    {before after : VowState}
    (hAlone : LeftAlone vowState history before after) :
    after.owner = before.owner := by
  rw [hAlone.kept]

/- Each kind of step leaves the identity alone. -/
theorem OthersMove.leftAlone
    {vowState : Pubkey}
    {o : Occurrence World Step}
    {vow vow' : VowState}
    (hMove : OthersMove vowState o vow vow') :
    LeftAlone vowState [o] vow vow' := by
  cases hMove with
  | idle =>
      exact ⟨rfl, Or.inl rfl, Or.inl rfl, id, le_refl _,
        Nat.le_add_right _ _⟩
  | harvests config config' vow' hAction hConfig hGain =>
      have hYield := (harvestGain_sameIdentity hGain).2
      have hSettled :
          vow.yieldBalance.val ≤ vow'.yieldBalance.val := by
        rcases matureIfDue_cases o.action.env.unixTimestamp
          vow with ⟨due, hDue, _⟩
        rw [hDue] at hYield
        exact hYield
      rcases harvestGain_step hGain with ⟨harvested, hVow⟩
      subst hVow
      refine ⟨rfl, Or.inl rfl,
        Or.inr ⟨o, List.mem_singleton_self o, hAction⟩,
        fun h => harvested.hMatured.mpr (Or.inl h),
        harvested.hShares, ?_⟩
      exact le_trans hSettled (Nat.le_add_right _ _)
  | deposits depositor amount hAction =>
      refine ⟨rfl, Or.inl rfl, Or.inl rfl, id, le_refl _, ?_⟩
      exact le_trans (Unsigned.le_saturatingAdd _ _)
        (Nat.le_add_right _ _)
  | spends ix yieldBalance hAction hIdentity hBalance =>
      refine ⟨rfl, Or.inl rfl, Or.inl rfl, id, le_refl _, ?_⟩
      have hSpent : spentFrom vowState o = ix.amount.val := by
        unfold spentFrom
        rw [hAction]
        exact if_pos hIdentity
      rw [List.map_singleton, List.sum_singleton, hSpent]
      exact le_of_eq hBalance
  | fastUnlocks admin config hAction hConfig hPool =>
      exact ⟨rfl,
        Or.inr ⟨rfl, o, List.mem_singleton_self o, admin,
          config, hAction, hConfig, hPool⟩,
        Or.inl rfl, id, le_refl _, Nat.le_add_right _ _⟩

/- A step on the identity that is no call of the owner. -/
theorem LifeStep.othersMove
    {config : ProtocolConfig}
    {vowState : Pubkey}
    {o : Occurrence World Step}
    {ix : Instruction}
    {life life' : Life}
    (hStep :
      LifeStep o.action.env config vowState ix life life')
    (hConfig : o.before.config = some config)
    (hAction : o.action.action = .instruction ix)
    (hOther : ix.ownerCall ≠ some vowState) :
    OthersMove vowState o life.vow life'.vow := by
  cases hStep with
  | fastUnlock admin vow unstaking hPool =>
      exact .fastUnlocks admin config hAction hConfig hPool
  | harvest config' vow vow' unstaking hGain =>
      exact .harvests config config' vow' hAction hConfig
        hGain
  | deposit depositor amount vow hActive =>
      exact .deposits depositor amount hAction
  | spend accounts yieldBalance vow unstaking hIdentity
      hActive hBalance =>
      exact .spends accounts yieldBalance hAction hIdentity
        hBalance
  | session accounts sessionNonce vow unstaking hIdentity =>
      exact absurd (congrArg some hIdentity) hOther
  | _ => exact absurd rfl hOther

theorem exec_othersMove
    {w w' : World}
    {step : Step}
    {vowState : Pubkey}
    {vow : VowState}
    (hExec : step.exec w = some w')
    (hLookup : w.vows.lookup vowState = some vow)
    (hSilent : step.signedBy vow.owner = false) :
    ∃ vow',
      w'.vows.lookup vowState = some vow' ∧
        OthersMove vowState ⟨w, step, w'⟩ vow vow' := by
  rcases exec_moved hExec (World.life_of_lookup hLookup) with
    ⟨life', hAfter, hMove⟩
  refine ⟨life'.vow,
    (World.life_eq_some_iff.mp hAfter).1, ?_⟩
  cases hMove with
  | idle hIdle hSame =>
      rw [hSame]
      exact .idle
  | acts config ix hConfig hAction hStep =>
      refine @LifeStep.othersMove config vowState
        ⟨w, step, w'⟩ ix _ _ hStep hConfig hAction ?_
      intro hCall
      rcases step with ⟨env, action⟩
      dsimp only at hAction
      subst hAction
      rw [execute_owner_signs
        (Step.exec_instruction_iff.mp hExec) hCall
        hLookup] at hSilent
      cases hSilent

end Vow

------------------------------------------------------------
-- Escrow, Sessions And Profiles
------------------------------------------------------------

namespace Vow

open MachineInt Fallible Transition

theorem exec_escrow_consented
    {w w' : World}
    {step : Step}
    {vowState : Pubkey}
    {vow : VowState}
    (hExec : step.exec w = some w')
    (hLookup : w.vows.lookup vowState = some vow)
    (hSilent : step.signedBy vow.owner = false) :
    w'.escrows.lookup (.unstake vowState) =
      w.escrows.lookup (.unstake vowState) := by
  rcases step with ⟨env, action⟩
  cases action with
  | instruction ix =>
      have hOk := Step.exec_instruction_iff.mp hExec
      apply (execute_effect hOk).escrows
      intro hSlot
      have hCall : ix.ownerCall = some vowState := by
        rcases escrowSlot_eq_unstake hSlot with
          ⟨owner, hIx⟩ | ⟨owner, hIx⟩
        · rw [hIx]
          rfl
        · rw [hIx]
          rfl
      rw [execute_owner_signs hOk hCall hLookup] at hSilent
      cases hSilent
  | _ =>
      rw [← Option.some.inj hExec]

/- A session without its spending counters. -/
def SessionAccount.grant
    (session : SessionAccount) :
    SessionAccount :=
  { session with
    spentToday := 0
    spentTotal := 0
    txCountToday := 0
    lastResetDay := 0 }

theorem recordSpend_grant
    {now : I64}
    {session spent : SessionAccount}
    {amount : U64}
    (hSpent :
      recordSpend (resetDailyIfNeeded now session) amount =
        .ok spent) :
    spent.grant = session.grant := by
  rcases recordSpend_counters hSpent with ⟨counters, hEq⟩
  subst hEq
  rfl

/- The sessions of an identity are in its owner's hands. -/
theorem exec_sessions_consented
    {w w' : World}
    {step : Step}
    {vowState : Pubkey}
    {vow : VowState}
    (hPlaced : Placed w)
    (hExec : step.exec w = some w')
    (hLookup : w.vows.lookup vowState = some vow)
    (hSilent : step.signedBy vow.owner = false)
    (sessionIndex : U32) :
    (w'.sessions.lookup
        (.session vowState sessionIndex)).map
          SessionAccount.grant =
      (w.sessions.lookup
        (.session vowState sessionIndex)).map
          SessionAccount.grant := by
  rcases step with ⟨env, action⟩
  cases action with
  | instruction ix =>
      have hOk := Step.exec_instruction_iff.mp hExec
      have hNoCall : ix.ownerCall ≠ some vowState := by
        intro hCall
        rw [execute_owner_signs hOk hCall hLookup] at hSilent
        cases hSilent
      cases hBefore :
          w.sessions.lookup
            (.session vowState sessionIndex) with
      | none =>
          cases hAfter :
              w'.sessions.lookup
                (.session vowState sessionIndex) with
          | none => rfl
          | some session =>
              rcases execute_slot_none hOk hBefore hAfter with
                ⟨accounts, hIx, hSlot⟩
              rw [hIx] at hNoCall
              exact absurd
                (congrArg some (Pubkey.session.inj hSlot).1.symm)
                hNoCall
      | some session =>
          have hHere : session.vowState = vowState :=
            (Pubkey.session.inj
              (hPlaced.sessions _ session hBefore)).1.symm
          cases execute_slot hOk hBefore with
          | kept hSlot hAfter =>
              rw [hAfter]
          | revoked owner identity hIx hAfter =>
              subst hIx
              rcases revokeSession_ok hOk with ⟨call, _⟩
              have hFound := call.hSession
              have hVow := call.hVow
              rw [hBefore] at hFound
              rw [← Option.some.inj hFound, hHere] at hVow
              exact absurd (congrArg some hVow.symm) hNoCall
          | closed owner identity hIx hAfter =>
              subst hIx
              rcases closeSession_ok hOk with ⟨call, _⟩
              have hFound := call.hSession
              have hVow := call.hVow
              rw [hBefore] at hFound
              rw [← Option.some.inj hFound, hHere] at hVow
              exact absurd (congrArg some hVow.symm) hNoCall
          | spent accounts session' hIx hSlot hLimits hSpent
              hAfter =>
              rw [hAfter, Option.map_some, Option.map_some,
                recordSpend_grant hSpent]
  | _ =>
      rw [← Option.some.inj hExec]

/- A wallet updates and closes its own profiles alone. -/
theorem updateAuthorityProfile_address
    {w w' : World}
    {wallet : Signer}
    {address : Pubkey}
    {params : AuthorityProfileParams}
    (hOk :
      updateAuthorityProfile w wallet address params =
        .ok w') :
    ∃ profileId,
      address = .authorityProfile wallet.key profileId := by
  rcases updateAuthorityProfile_ok hOk with ⟨call, _⟩
  exact ⟨_, call.hSeeds⟩

theorem closeAuthorityProfile_address
    {w w' : World}
    {wallet : Signer}
    {address : Pubkey}
    (hOk :
      closeAuthorityProfile w wallet address = .ok w') :
    ∃ profileId,
      address = .authorityProfile wallet.key profileId := by
  rcases closeAuthorityProfile_ok hOk with ⟨call, _⟩
  exact ⟨_, call.hSeeds⟩

/- So are the profiles of a wallet. -/
theorem exec_profiles_consented
    {w w' : World}
    {step : Step}
    {wallet : Pubkey}
    (hExec : step.exec w = some w')
    (hSilent : step.signedBy wallet = false)
    (profileId : Vector U8 8) :
    w'.profiles.lookup
        (.authorityProfile wallet profileId) =
      w.profiles.lookup
        (.authorityProfile wallet profileId) := by
  rcases step with ⟨env, action⟩
  cases action with
  | instruction ix =>
      have hOk := Step.exec_instruction_iff.mp hExec
      have hSigner : ix.signer.map Signer.key ≠ some wallet := by
        intro hSigned
        unfold Step.signedBy at hSilent
        simp [hSigned] at hSilent
      cases ix with
      | createAuthorityProfile signer created params =>
          rcases createAuthorityProfile_mirrors hOk with
            ⟨account, _, hProfiles⟩
          rw [hProfiles, AccountMap.lookup_insert_eq,
            if_neg]
          intro hHere
          exact hSigner (congrArg some
            (Pubkey.authorityProfile.inj hHere).1.symm)
      | updateAuthorityProfile signer address params =>
          rcases updateAuthorityProfile_mirrors hOk with
            ⟨_, account', _, _, hProfiles⟩
          rcases updateAuthorityProfile_address hOk with
            ⟨updated, hAddress⟩
          rw [hProfiles, AccountMap.lookup_insert_eq,
            if_neg]
          intro hHere
          rw [hAddress] at hHere
          exact hSigner (congrArg some
            (Pubkey.authorityProfile.inj hHere).1.symm)
      | closeAuthorityProfile signer address =>
          rcases closeAuthorityProfile_address hOk with
            ⟨closed, hAddress⟩
          rw [closeAuthorityProfile_profiles hOk,
            AccountMap.lookup_erase_eq, if_neg]
          intro hHere
          rw [hAddress] at hHere
          exact hSigner (congrArg some
            (Pubkey.authorityProfile.inj hHere).1.symm)
      | _ =>
          rw [execute_profilesKept hOk rfl]
  | _ =>
      rw [← Option.some.inj hExec]

end Vow

------------------------------------------------------------
-- Runs Without The Owner
------------------------------------------------------------

namespace Vow

open MachineInt Fallible Transition

/-
  The identity, its escrow, its sessions and the profiles of
  its owner are as they were, up to what others can do, step
  by step and in sum.
-/
structure Consented
    (vowState : Pubkey)
    (vow : VowState)
    (history : List (Occurrence World Step))
    (w w' : World) :
    Prop where
  moves :
    ∀ o ∈ history, ∃ before after,
      o.before.vows.lookup vowState = some before ∧
        o.after.vows.lookup vowState = some after ∧
        OthersMove vowState o before after
  identity :
    ∃ vow',
      w'.vows.lookup vowState = some vow' ∧
        LeftAlone vowState history vow vow'
  escrow :
    w'.escrows.lookup (.unstake vowState) =
      w.escrows.lookup (.unstake vowState)
  sessions :
    ∀ sessionIndex,
      (w'.sessions.lookup
          (.session vowState sessionIndex)).map
            SessionAccount.grant =
        (w.sessions.lookup
          (.session vowState sessionIndex)).map
            SessionAccount.grant
  profiles :
    ∀ profileId,
      w'.profiles.lookup
          (.authorityProfile vow.owner profileId) =
        w.profiles.lookup
          (.authorityProfile vow.owner profileId)

/- One more step without the owner. -/
theorem exec_consented
    {vowState : Pubkey}
    {vow : VowState}
    {history : List (Occurrence World Step)}
    {start w w' : World}
    {step : Step}
    (hBefore : Consented vowState vow history start w)
    (hPlaced : Placed w)
    (hExec : step.exec w = some w')
    (hSilent : step.signedBy vow.owner = false) :
    Consented vowState vow (history ++ [⟨w, step, w'⟩]) start
      w' := by
  rcases hBefore.identity with ⟨found, hFound, hAlone⟩
  have hOther : step.signedBy found.owner = false := by
    rw [hAlone.owner]
    exact hSilent
  rcases exec_othersMove hExec hFound hOther with
    ⟨vow', hLookup, hMove⟩
  constructor
  · intro o ho
    rcases List.mem_append.mp ho with hPast | hLast
    · exact hBefore.moves o hPast
    · rw [List.mem_singleton.mp hLast]
      exact ⟨found, vow', hFound, hLookup, hMove⟩
  · exact ⟨vow', hLookup, hAlone.trans hMove.leftAlone⟩
  · rw [exec_escrow_consented hExec hFound hOther]
    exact hBefore.escrow
  · intro sessionIndex
    rw [exec_sessions_consented hPlaced hExec hFound hOther]
    exact hBefore.sessions sessionIndex
  · intro profileId
    rw [exec_profiles_consented hExec hSilent]
    exact hBefore.profiles profileId

/-
  In every run in which the owner signs no successful step,
  from every state of the chain, nobody else changes the terms
  of an identity, its escrow, its sessions or its owner's
  profiles.
-/
theorem owner_consent_needed
    {w : World}
    (hReach : Reachable w)
    {vowState : Pubkey}
    {vow : VowState}
    (hLookup : w.vows.lookup vowState = some vow)
    (steps : List Step)
    (hSilent :
      ∀ o ∈ w.trace steps,
        o.action.signedBy vow.owner = false) :
    Consented vowState vow (w.trace steps) w
      (w.run steps) := by
  have hPlaced : Placed w := by
    rcases hReach with ⟨lamports, before, hWorld⟩
    rw [hWorld]
    exact placed_run lamports before
  have hInit :
      Placed w ∧ Consented vowState vow [] w w :=
    ⟨hPlaced, ⟨by simp, ⟨vow, hLookup,
        LeftAlone.refl vowState vow⟩,
      rfl, fun _ => rfl, fun _ => rfl⟩⟩
  refine (@trace_history_invariant World Step Step.exec
    (fun o => o.action.signedBy vow.owner = false)
    (fun history w' =>
      Placed w' ∧ Consented vowState vow history w w')
    ?_ steps w hInit hSilent).2
  intro history before step after hBefore hExec hStep
  exact ⟨exec_placed hExec hBefore.1,
    exec_consented hBefore.2 hBefore.1 hExec hStep⟩

/- A session key spends while the owner is away. -/
theorem owner_consent_needed_away :
    (∃ vow,
      sessionChain.vows.lookup sampleVow = some vow ∧
        Consented sampleVow vow
          (sessionChain.trace spendSteps) sessionChain
          (sessionChain.run spendSteps)) ∧
      ((sessionChain.trace spendSteps).map
        (spentFrom sampleVow)).sum = 550 := by
  have hOwner :
      (sessionChain.vows.lookup sampleVow).map
        (fun vow => vow.owner) = some sampleOwner.key := by
    decide +kernel
  rcases Option.map_eq_some_iff.mp hOwner with
    ⟨vow, hLookup, hSame⟩
  have hYield : Reachable yieldChain :=
    ⟨_, yieldSteps, rfl⟩
  have hSteps :
      ∀ step ∈ spendSteps,
        step.signedBy sampleOwner.key = false := by
    decide
  have hSilent :
      ∀ o ∈ sessionChain.trace spendSteps,
        o.action.signedBy vow.owner = false := by
    intro o ho
    rw [hSame]
    exact hSteps _ (mem_trace_action ho)
  exact ⟨⟨vow, hLookup, owner_consent_needed (hYield.run _)
    hLookup spendSteps hSilent⟩, by decide +kernel⟩

end Vow
