import VowProtocol.Correctness.Invalidation
import VowProtocol.Correctness.Lock
import Mathlib.Data.Fintype.EquivFin

/-
  What a session grants: when it may be spent through, when
  it may be closed, and which programs it admits.

  Key definitions include:
    * `SessionValid`
    * `OnTerms`
    * `effectiveExpiry`
    * `SpendsWithin`

  Key theorems include:
    * `close_complements_spend_iff`
    * `exec_onTerms`
    * `session_inherits_programs_iff`
-/

------------------------------------------------------------
-- Closing And Spending
------------------------------------------------------------

namespace Vow

open MachineInt Fallible

/- The validity checks of a spend, without its signer. -/
def SessionValid
    (now : I64)
    (idnft : VowState)
    (session : SessionAccount) :
    Prop :=
  session.active = true ∧
    (session.expiryTs = 0 ∨ now < session.expiryTs) ∧
    idnft.sessionsInvalidatedAt ≤ session.startTs ∧
    idnft.activeStake = true

theorem closeEligible_iff
    {now : I64}
    {idnft : VowState}
    {session : SessionAccount} :
    closeEligible now idnft session = true ↔
      (0 < session.expiryTs ∧ session.expiryTs ≤ now) ∨
        session.active = false ∨
        session.startTs ≤ idnft.sessionsInvalidatedAt ∨
        idnft.activeStake = false := by
  unfold closeEligible
  simp [or_assoc]

/-
  A session may be closed exactly when it cannot be spent
  through, except in two cases: a live session that started
  in the second of the last invalidation may also be closed,
  and a session past a negative expiry may not.
-/
theorem close_complements_spend_iff
    (env : Env)
    (idnft : VowState)
    (session : SessionAccount) :
    (∀ signer,
      checkSessionLive env idnft session signer = .ok () ↔
        signer.key = session.sessionKey ∧
          SessionValid env.unixTimestamp idnft session) ∧
    ((closeEligible env.unixTimestamp idnft session = true ↔
        ¬SessionValid env.unixTimestamp idnft session) ↔
      ¬(session.active = true ∧ idnft.activeStake = true ∧
        ((session.startTs = idnft.sessionsInvalidatedAt ∧
            (session.expiryTs = 0 ∨
              env.unixTimestamp < session.expiryTs)) ∨
          (idnft.sessionsInvalidatedAt < session.startTs ∧
            session.expiryTs < 0 ∧
            session.expiryTs ≤ env.unixTimestamp)))) := by
  refine ⟨fun signer => checkSessionLive_ok_iff, ?_⟩
  rw [closeEligible_iff, SessionValid]
  simp only [Signed.le_def, Signed.lt_def, Signed.ext_iff,
    Signed.val_zero]
  cases session.active with
  | false => simp
  | true =>
      cases idnft.activeStake with
      | false => simp
      | true =>
          simp only [true_and, and_true, false_or, or_false,
            Bool.true_eq_false]
          omega

theorem rejoinChain_reachable
    (taken : Nat) :
    Reachable (rejoinChain taken) := by
  induction taken with
  | zero => exact exitChain_reachable
  | succ taken ih => exact ih.run _

/- A session that is created with a negative expiry. -/
def negativeChain : World :=
  yieldChain.run
    [sampleStep 50 0 (.createSession { sampleSession with
      params := { sampleSession.params with
        expiryTs := Signed.clamp 63 (-5) } })]

/- Can the sample session be closed, and spent through? -/
def World.closableAndLive
    (w : World)
    (env : Env) :
    Option (Bool × Bool) :=
  match w.vows.lookup sampleVow,
      w.sessions.lookup sampleSlot with
  | some vow, some session =>
      some (closeEligible env.unixTimestamp vow session,
        (checkSessionLive env vow session
          ⟨9⟩).toOption.isSome)
  | _, _ => none

/-
  After an exit and an activation in one second, a session of
  that second can be closed although it can be spent through.
  A session created with a negative expiry can neither be
  spent through nor closed.
-/
theorem live_closable_and_dead_unclosable :
    Reachable (rejoinChain 4) ∧
      (rejoinChain 4).closableAndLive
        (sampleEnv 2600000 2) = some (true, true) ∧
      Reachable negativeChain ∧
      negativeChain.closableAndLive (sampleEnv 60 0) =
        some (false, false) := by
  have hYield : Reachable yieldChain :=
    ⟨_, yieldSteps, rfl⟩
  exact ⟨rejoinChain_reachable 4, by decide +kernel,
    hYield.run _, by decide +kernel⟩

end Vow

------------------------------------------------------------
-- Terms Of A Session
------------------------------------------------------------

namespace Vow

open MachineInt Fallible Transition

/- What a session keeps from its creation to its close. -/
structure SameTerms
    (before after : SessionAccount) :
    Prop where
  sessionKey : after.sessionKey = before.sessionKey
  programCount : after.programCount = before.programCount
  expiryTs : after.expiryTs = before.expiryTs

theorem recordSpend_sameTerms
    {now : I64}
    {session spent : SessionAccount}
    {amount : U64}
    (hSpent :
      recordSpend (resetDailyIfNeeded now session) amount =
        .ok spent) :
    SameTerms session spent := by
  rcases recordSpend_counters hSpent with ⟨counters, hEq⟩
  subst hEq
  exact ⟨rfl, rfl, rfl⟩

/- An open slot keeps the terms of its session. -/
def OnTerms
    (slot : Pubkey)
    (created : SessionAccount)
    (w : World) :
    Prop :=
  ∃ session,
    w.sessions.lookup slot = some session ∧
      SameTerms created session

theorem exec_onTerms
    {w w' : World}
    {step : Step}
    {slot : Pubkey}
    {created : SessionAccount}
    (hTerms : OnTerms slot created w)
    (hExec : step.exec w = some w')
    (hOpen : step.closesSession slot = false) :
    OnTerms slot created w' := by
  rcases hTerms with ⟨session, hFound, hKey, hCount, hExpiry⟩
  have hKept :
      ∃ session',
        w'.sessions.lookup slot = some session' ∧
          SameTerms session session' :=
    exec_slot_rel (fun _ => ⟨rfl, rfl, rfl⟩)
      (fun _ => ⟨rfl, rfl, rfl⟩)
      (fun _ _ _ _ hSpent => recordSpend_sameTerms hSpent)
      hExec hFound hOpen
  rcases hKept with ⟨session', hLookup, hSame⟩
  exact ⟨session', hLookup, hSame.sessionKey.trans hKey,
    hSame.programCount.trans hCount,
    hSame.expiryTs.trans hExpiry⟩

end Vow

------------------------------------------------------------
-- Profile Defaults
------------------------------------------------------------

namespace Vow

open MachineInt Fallible Transition

/- The expiry of a session created with a profile. -/
def effectiveExpiry
    (env : Env)
    (profile : AuthorityProfile)
    (params : SessionParams) :
    Int :=
  if params.expiryTs = 0 then
    env.unixTimestamp.val +
      profile.defaultExpiryDays.val * 86400
  else
    params.expiryTs.val

/- Zero parameters inherit the limits of the profile. -/
theorem sessionLimits_profile
    {env : Env}
    {owner : Signer}
    {profile : AuthorityProfile}
    {params limits : SessionParams}
    (hOk :
      sessionLimits env owner (some profile) params =
        .ok limits) :
    limits.expiryTs.val =
        effectiveExpiry env profile params ∧
      (params.dailyLimit = 0 →
        limits.dailyLimit = profile.defaultDailyLimit) ∧
      (params.lifetimeLimit = 0 →
        limits.lifetimeLimit =
          profile.defaultLifetimeLimit) := by
  unfold sessionLimits at hOk
  unfold effectiveExpiry
  by_cases hZero : params.expiryTs = 0
  · simp only [if_pos hZero, bind_eq_ok_iff,
      require_eq_ok_iff, okOr_eq_ok_iff, pure_eq_ok_iff,
      exists_const, Signed.checkedAdd_eq_some_iff,
      Signed.val_clamp] at hOk
    rcases hOk with ⟨_, expiry, hExpiry, hEq⟩
    subst hEq
    have hDays := profile.defaultExpiryDays.isLt
    refine ⟨?_, fun hNone => if_pos hNone,
      fun hNone => if_pos hNone⟩
    rw [if_pos hZero, hExpiry]
    omega
  · simp only [if_neg hZero, bind_eq_ok_iff,
      require_eq_ok_iff, pure_eq_ok_iff, Except.ok.injEq,
      exists_const] at hOk
    rcases hOk with ⟨_, expiry, hExpiry, hEq⟩
    subst hEq
    refine ⟨?_, fun hNone => if_pos hNone,
      fun hNone => if_pos hNone⟩
    rw [if_neg hZero, hExpiry]

/-
  Until the slot is closed, every later spend through it is
  made by one of the programs.
-/
def SpendsWithin
    (slot : Pubkey)
    (programs : List Pubkey)
    (creation : Step)
    (w : World) :
    Prop :=
  ∀ later : List Step,
    MonotoneClock (creation :: later) →
    (∀ o ∈ w.trace later,
      o.action.closesSession slot = false) →
    ∀ o ∈ w.trace later, ∀ ix,
      o.action.action = .instruction (.yieldSpend ix) →
      ix.sessionAccount = slot →
      ix.callingProgram ∈ programs

/- No invalidation lies in the future of its chain. -/
theorem invalidation_not_later
    {lamports : Lamports}
    {steps : List Step}
    {now : Int}
    {vowState : Pubkey}
    {vow : VowState}
    (hClock : MonotoneClock steps)
    (hNow : ∀ step ∈ steps, step.time ≤ now)
    (hStart : 0 ≤ now)
    (hLookup :
      ((World.genesis lamports).run steps).vows.lookup
        vowState = some vow) :
    vow.sessionsInvalidatedAt.val ≤ now := by
  have hLife :
      ((World.genesis lamports).run steps).life vowState =
        some ⟨vow,
          (((World.genesis lamports).run
            steps).escrows.lookup
              (.unstake vowState)).isSome⟩ :=
    World.life_eq_some_iff.mpr ⟨hLookup, rfl⟩
  have hBound :=
    World.life_clocked
      (P := fun _ life t =>
        life.vow.sessionsInvalidatedAt.val ≤ max 0 t)
      (fun _ _ _ _ hHere hLe => by omega)
      (fun _ o life _ _ hBirth _ => by
        rcases hBirth with ⟨config, ix, _, _, hBirth⟩
        cases hBirth
        exact le_max_left 0 _)
      (fun _ o life life' _ _ hMove _ hHere => by
        rcases hMove with
          ⟨_, hSame⟩ | ⟨config, ix, _, _, hStep⟩
        · rw [hSame]
          exact hHere
        · rw [hStep.sessionsInvalidatedAt_eq]
          split
          · exact le_max_right 0 _
          · exact hHere)
      hClock hNow (fun _ _ => trivial) hLife
  dsimp only at hBound
  omega

/- There are more programs than any list names. -/
theorem exists_program_not_mem
    (programs : List Pubkey) :
    ∃ program, program ∉ programs := by
  have hKeys : Function.Injective Pubkey.key := by
    intro a b hSame
    exact Pubkey.key.inj hSame
  have hInfinite : Infinite Pubkey :=
    Infinite.of_injective _ hKeys
  rcases Infinite.exists_notMem_finset programs.toFinset with
    ⟨program, hNot⟩
  exact ⟨program, fun hMem => hNot (List.mem_toFinset.mpr hMem)⟩

/- A spend of nothing through a session by some program. -/
def emptySpend
    (ix : CreateSession)
    (signer : Signer)
    (program : Pubkey) :
    YieldSpend where
  vowState := ix.vowState
  sessionAccount := .session ix.vowState ix.sessionIndex
  callingProgram := program
  executable := true
  appRegistry := none
  destination := .reserve
  sessionSigner := signer
  amount := 0

def emptySpendStep
    (env : Env)
    (ix : CreateSession)
    (signer : Signer)
    (program : Pubkey) :
    Step :=
  ⟨env, .instruction
    (.yieldSpend (emptySpend ix signer program))⟩

/- A fresh session is not rolled over at its start. -/
theorem resetDailyIfNeeded_opened
    (env : Env)
    (ix : CreateSession)
    (vow : VowState)
    (limits : SessionParams) :
    resetDailyIfNeeded env.unixTimestamp
        (openedSession env ix vow limits) =
      openedSession env ix vow limits := by
  unfold resetDailyIfNeeded
  dsimp only
  rw [if_neg]
  rw [Signed.lt_def]
  exact lt_irrefl _

theorem checkLimits_opened
    (env : Env)
    (ix : CreateSession)
    (vow : VowState)
    (limits : SessionParams) :
    checkLimits (openedSession env ix vow limits) 0 =
      .ok () := by
  refine checkLimits_ok_iff.mpr ⟨fun hLimit => hLimit, ?_, ?_⟩
  · intro _
    rw [Unsigned.saturatingAdd_zero]
    exact Nat.zero_le _
  · intro _
    rw [Unsigned.saturatingAdd_zero]
    exact Nat.zero_le _

theorem recordSpend_opened
    (env : Env)
    (ix : CreateSession)
    (vow : VowState)
    (limits : SessionParams) :
    recordSpend (openedSession env ix vow limits) 0 =
      .ok { openedSession env ix vow limits with
        txCountToday := 1 } := by
  rfl

/-
  A session without listed programs that is live when it is
  created is spent through by any program at once.
-/
theorem emptySpend_ok
    {env : Env}
    {w w' : World}
    {ix : CreateSession}
    {signer : Signer}
    {vow : VowState}
    (program : Pubkey)
    (hOk : createSession env w ix = .ok w')
    (hEmpty : ix.allowedProgramIds = [])
    (hLookup : w.vows.lookup ix.vowState = some vow)
    (hStamp :
      vow.sessionsInvalidatedAt ≤ env.unixTimestamp)
    (hSigner : signer.key = ix.sessionKey)
    (hExpiry :
      ∀ session,
        w'.sessions.lookup
          (.session ix.vowState ix.sessionIndex) =
            some session →
        session.expiryTs = 0 ∨
          env.unixTimestamp < session.expiryTs) :
    ∃ w'',
      yieldSpend env w' (emptySpend ix signer program) =
        .ok w'' := by
  rcases createSession_ok hOk with ⟨call, hEq⟩
  have hFound := call.hLookup
  rw [hLookup, Option.some.injEq] at hFound
  subst hFound hEq
  have hLive := hExpiry
    (openedSession env ix call.vow call.limits)
    (AList.lookup_insert _)
  have hMoved :
      ∃ moved,
        transfer .reserve .reserve 0 call.lamports =
          .ok moved :=
    ⟨_, transfer_eq_ok_iff.mpr ⟨Nat.zero_le _, rfl⟩⟩
  rcases hMoved with ⟨moved, hMoved⟩
  refine ⟨_, yieldSpend_eq_ok_iff.mpr
    ⟨{ config := call.config
       vow := { call.vow with
         sessionNonce := call.sessionNonce }
       session := openedSession env ix call.vow call.limits
       spent :=
         { openedSession env ix call.vow call.limits with
           txCountToday := 1 }
       yieldBalance := call.vow.yieldBalance
       lamports := moved
       hConfig := call.hConfig
       hLookup := AList.lookup_insert _
       hVowSeeds := call.hSeeds
       hSession := AList.lookup_insert _
       hSeeds := rfl
       hVow := rfl
       hLive := ?_
       hProgram := ?_
       hRegistry := rfl
       hLimits := ?_
       hFunds := Nat.zero_le _
       hSpent := ?_
       hBalance := ?_
       hTransfer := hMoved }, rfl⟩⟩
  · exact checkSessionLive_ok_iff.mpr
      ⟨hSigner, rfl, hLive, hStamp, call.hActive⟩
  · unfold checkCallingProgram openedSession
    rw [hEmpty]
    rfl
  · rw [resetDailyIfNeeded_opened]
    exact checkLimits_opened env ix call.vow call.limits
  · rw [resetDailyIfNeeded_opened]
    exact recordSpend_opened env ix call.vow call.limits
  · exact (Nat.add_zero _).symm

/-
  So no list of programs bounds the spends of such a session.
-/
theorem live_session_not_within
    {env : Env}
    {w w' : World}
    {ix : CreateSession}
    {signer : Signer}
    {vow : VowState}
    (hOk :
      execute env w (.createSession ix) = .ok w')
    (hEmpty : ix.allowedProgramIds = [])
    (hLookup : w.vows.lookup ix.vowState = some vow)
    (hStamp :
      vow.sessionsInvalidatedAt ≤ env.unixTimestamp)
    (hSigner : signer.key = ix.sessionKey)
    (hExpiry :
      ∀ session,
        w'.sessions.lookup
          (.session ix.vowState ix.sessionIndex) =
            some session →
        session.expiryTs = 0 ∨
          env.unixTimestamp < session.expiryTs)
    (programs : List Pubkey) :
    ¬SpendsWithin (.session ix.vowState ix.sessionIndex)
        programs ⟨env, .instruction (.createSession ix)⟩
        w' := by
  intro hWithin
  rcases exists_program_not_mem programs with
    ⟨program, hForeign⟩
  rcases emptySpend_ok program hOk hEmpty hLookup hStamp
      hSigner hExpiry with ⟨w'', hSpend⟩
  have hExec :
      (emptySpendStep env ix signer program).exec w' =
        some w'' :=
    Step.exec_instruction_iff.mpr hSpend
  have hTrace := trace_cons_of_some hExec []
  rw [trace_nil] at hTrace
  refine hForeign (hWithin
    [emptySpendStep env ix signer program] ?_ ?_
    ⟨w', emptySpendStep env ix signer program, w''⟩ ?_
    (emptySpend ix signer program) rfl rfl)
  · exact List.pairwise_pair.mpr (le_refl _)
  · intro o ho
    rw [World.trace, hTrace, List.mem_singleton] at ho
    rw [ho]
    rfl
  · rw [World.trace, hTrace]
    exact List.mem_singleton.mpr rfl

/- A session on dead terms is never spent through. -/
theorem dead_terms_never_spend
    {w : World}
    {slot : Pubkey}
    {creation : Step}
    {created : SessionAccount}
    {later : List Step}
    (hTerms : OnTerms slot created w)
    (hClock : MonotoneClock (creation :: later))
    (hOpen :
      ∀ o ∈ w.trace later,
        o.action.closesSession slot = false)
    (hDead :
      ¬((∃ signer : Signer,
          signer.key = created.sessionKey) ∧
        (created.expiryTs.val = 0 ∨
          creation.time < created.expiryTs.val))) :
    ∀ o ∈ w.trace later, ∀ ix,
      o.action.action = .instruction (.yieldSpend ix) →
      ix.sessionAccount ≠ slot := by
  have hKept :
      ∀ (s : World) (step : Step) (s' : World),
        OnTerms slot created s → step.exec s = some s' →
        step.closesSession slot = false →
        OnTerms slot created s' := by
    intro s step s' hHere hExec hStep
    exact exec_onTerms hHere hExec hStep
  intro o ho ix hAction hSlot
  rcases (trace_invariant hKept hTerms hOpen).1 o ho with
    ⟨session, hFound, hKey, _, hExpiry⟩
  have hExec := mem_trace_exec ho
  rcases yieldSpend_eq_ok_iff.mp
      (Step.execute_of_exec hAction hExec) with ⟨call, _⟩
  have hLookup := call.hSession
  rw [hSlot, hFound, Option.some.injEq] at hLookup
  subst hLookup
  rcases checkSessionLive_ok_iff.mp call.hLive with
    ⟨hSigner, _, hTime, _, _⟩
  have hLater : creation.time ≤ o.action.time :=
    List.rel_of_pairwise_cons hClock (mem_trace_action ho)
  rw [hExpiry, Signed.ext_iff, Signed.val_zero,
    Signed.lt_def] at hTime
  refine hDead ⟨⟨ix.sessionSigner, hSigner.trans hKey⟩, ?_⟩
  rcases hTime with hNever | hBefore
  · exact Or.inl hNever
  · exact Or.inr (lt_of_le_of_lt hLater hBefore)

/-
  A session created with a profile and without programs of
  its own inherits the limits of the profile. Its program
  list stays empty, which admits every program, so its spends
  stay within the programs of the profile exactly when there
  can be none: the session key is no wallet, or the session
  is created expired.
-/
theorem session_inherits_programs_iff
    {lamports : Lamports}
    {steps : List Step}
    {env : Env}
    {w' : World}
    {ix : CreateSession}
    {address : Pubkey}
    {profile : AuthorityProfile}
    (hClock :
      MonotoneClock
        (steps ++ [⟨env, .instruction (.createSession ix)⟩]))
    (hNow : 0 ≤ env.unixTimestamp.val)
    (hProfile : ix.authorityProfile = some address)
    (hFound :
      ((World.genesis lamports).run steps).profiles.lookup
        address = some profile)
    (hEmpty : ix.allowedProgramIds = [])
    (hOk :
      execute env ((World.genesis lamports).run steps)
        (.createSession ix) = .ok w') :
    (∃ session,
      w'.sessions.lookup
        (.session ix.vowState ix.sessionIndex) =
          some session ∧
      (ix.params.dailyLimit = 0 →
        session.dailyLimit = profile.defaultDailyLimit) ∧
      (ix.params.lifetimeLimit = 0 →
        session.lifetimeLimit =
          profile.defaultLifetimeLimit)) ∧
    (SpendsWithin (.session ix.vowState ix.sessionIndex)
        (profile.defaultAllowedProgramIds.toList.take
          profile.programCount.val)
        ⟨env, .instruction (.createSession ix)⟩ w' ↔
      ¬((∃ signer : Signer, signer.key = ix.sessionKey) ∧
        (effectiveExpiry env profile ix.params = 0 ∨
          env.unixTimestamp.val <
            effectiveExpiry env profile ix.params))) := by
  rcases createSession_ok hOk with ⟨call, hEq⟩
  have hLoaded := call.hProfile
  have hLimits := call.hLimits
  have hLoadedEq : call.profile = some profile := by
    unfold loadProfile at hLoaded
    simp only [hProfile, bind_eq_ok_iff, okOr_eq_ok_iff,
      pure_eq_ok_iff] at hLoaded
    rcases hLoaded with ⟨found, hLoadedFound, hSome⟩
    rw [hFound, Option.some.injEq] at hLoadedFound
    rw [← hSome, hLoadedFound]
  rw [hLoadedEq] at hLimits
  rcases sessionLimits_profile hLimits with
    ⟨hExpiry, hDaily, hLifetime⟩
  have hCreated :
      w'.sessions.lookup
        (.session ix.vowState ix.sessionIndex) =
          some (openedSession env ix call.vow call.limits) := by
    rw [hEq]
    exact AList.lookup_insert _
  refine ⟨⟨_, hCreated, hDaily, hLifetime⟩, ?_⟩
  constructor
  · rintro hWithin ⟨⟨signer, hSigner⟩, hAlive⟩
    rcases List.pairwise_append.mp hClock with
      ⟨hPast, _, hOrder⟩
    have hStamp :=
      invalidation_not_later hPast
        (fun step hStep =>
          hOrder step hStep _ List.mem_cons_self)
        hNow call.hLookup
    have hUsable :
        ∀ session,
          w'.sessions.lookup
            (.session ix.vowState ix.sessionIndex) =
              some session →
          session.expiryTs = 0 ∨
            env.unixTimestamp < session.expiryTs := by
      intro session hSession
      rw [hCreated, Option.some.injEq] at hSession
      rw [← hSession, Signed.ext_iff, Signed.val_zero,
        Signed.lt_def]
      change call.limits.expiryTs.val = 0 ∨
        env.unixTimestamp.val < call.limits.expiryTs.val
      rw [hExpiry]
      exact hAlive
    exact live_session_not_within hOk hEmpty call.hLookup hStamp
      hSigner hUsable _ hWithin
  · intro hDead later hLater hOpen o ho spend hAction hSlot
    exact absurd hSlot
      (dead_terms_never_spend
        ⟨_, hCreated, rfl, rfl, rfl⟩ hLater hOpen
        (by
          rw [← hExpiry] at hDead
          exact hDead)
        o ho spend hAction)

def sampleProfileId : Vector U8 8 :=
  Vector.replicate 8 1

def sampleProfile : Pubkey :=
  .authorityProfile sampleOwner.key sampleProfileId

/- A profile that restricts its sessions to one program. -/
def profileSteps : List Step :=
  yieldSteps ++
    [sampleStep 40 0
      (.createAuthorityProfile sampleOwner sampleProfileId
        { defaultDailyLimit := 300
          defaultLifetimeLimit := 700
          defaultExpiryDays := 30
          defaultAllowedProgramIds := [.key 30]
          metadataUri := [] })]

def profileChain : World :=
  sampleChain.run profileSteps

/- A session with the profile and no list of its own. -/
def profiledSession
    (expiryTs : I64) :
    CreateSession :=
  { sampleSession with
    authorityProfile := some sampleProfile
    params := {
      expiryTs := expiryTs
      dailyLimit := 0
      lifetimeLimit := 0
      velocityLimit := 0 } }

def profiledChain
    (expiryTs : I64) :
    World :=
  profileChain.run
    [sampleStep 50 0
      (.createSession (profiledSession expiryTs))]

/- A session created expired is never spent through. -/
theorem session_inherits_programs_expired :
    ∃ profile,
      profileChain.profiles.lookup sampleProfile =
        some profile ∧
      SpendsWithin sampleSlot
        (profile.defaultAllowedProgramIds.toList.take
          profile.programCount.val)
        (sampleStep 50 0
          (.createSession (profiledSession 10)))
        (profiledChain 10) := by
  have hFound :
      (profileChain.profiles.lookup
        sampleProfile).isSome = true := by
    decide +kernel
  rcases Option.isSome_iff_exists.mp hFound with
    ⟨profile, hProfile⟩
  have hOk :
      execute (sampleEnv 50 0) profileChain
          (.createSession (profiledSession 10)) =
        .ok (profiledChain 10) :=
    execute_eq_run (by decide +kernel)
  have hExpiry :
      effectiveExpiry (sampleEnv 50 0) profile
        (profiledSession 10).params = 10 := by
    unfold effectiveExpiry
    rw [if_neg (by decide)]
    rfl
  have hBoth :=
    session_inherits_programs_iff
      (show MonotoneClock
        (profileSteps ++ [sampleStep 50 0
          (.createSession (profiledSession 10))]) by decide)
      (by decide) rfl hProfile rfl hOk
  refine ⟨profile, hProfile, hBoth.2.mpr ?_⟩
  rw [hExpiry]
  rintro ⟨_, hAlive⟩
  exact absurd hAlive (by decide)

/-
  A session of the restricted profile is spent through by a
  program that the profile does not name.
-/
theorem session_drops_programs :
    Reachable profileChain ∧
      (profileChain.profiles.lookup sampleProfile).map
        (fun profile =>
          profile.defaultAllowedProgramIds.toList.take
            profile.programCount.val) =
              some [.key 30] ∧
      (profiledSession 0).authorityProfile =
        some sampleProfile ∧
      (profiledSession 0).allowedProgramIds = [] ∧
      execute (sampleEnv 50 0) profileChain
          (.createSession (profiledSession 0)) =
        .ok (profiledChain 0) ∧
      execute (sampleEnv 60 0) (profiledChain 0)
          (.yieldSpend (sampleSpend 100)) =
        .ok ((profiledChain 0).run
          [sampleStep 60 0
            (.yieldSpend (sampleSpend 100))]) ∧
      (sampleSpend 100).sessionAccount = sampleSlot ∧
      (sampleSpend 100).callingProgram ∉
        [Pubkey.key 30] :=
  ⟨⟨_, profileSteps, rfl⟩, by decide +kernel, rfl, rfl,
    execute_eq_run (by decide +kernel),
    execute_eq_run (by decide +kernel), rfl, by decide⟩

end Vow
