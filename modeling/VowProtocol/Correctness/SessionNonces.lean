import VowProtocol.Correctness.Lifecycle

/-
  Where open sessions come from, and the nonces of their
  creations.

  Every session stores the session counter of its identity
  and advances it. The creations of one identity are numbered
  0, 1, 2 and so on over any run, so no nonce is ever used
  twice, and the nonces of the sessions that are open at one
  time are distinct.

  Key definitions include:
    * `SessionOrigin`
    * `World.sessionNonceOf`
    * `createdNonce`

  Key theorems include:
    * `exec_sessionOrigin`
    * `Reachable.session_invariant`
    * `session_nonces_consecutive`
-/

------------------------------------------------------------
-- Origins
------------------------------------------------------------

namespace Vow

open MachineInt Fallible Transition

/-
  An open session was opened by this step, or it was open
  before and the step left it alone, revoked it or spent
  through it.
-/
inductive SessionOrigin
    (w w' : World)
    (step : Step)
    (slot : Pubkey)
    (session' : SessionAccount) :
    Prop where
  | opened
      (ix : CreateSession)
      (vow : VowState)
      (limits : SessionParams)
      (sessionNonce : U64)
      (hAction :
        step.action = .instruction (.createSession ix))
      (hSlot : slot = .session ix.vowState ix.sessionIndex)
      (hEmpty : w.sessions.lookup slot = none)
      (hPrograms : ix.allowedProgramIds.length ≤ 8)
      (hVow : w.vows.lookup ix.vowState = some vow)
      (hNonce :
        sessionNonce.val = vow.sessionNonce.val + 1)
      (hVow' :
        w'.vows.lookup ix.vowState =
          some { vow with sessionNonce := sessionNonce })
      (hSession :
        session' = openedSession step.env ix vow limits)
  | kept
      (hBefore : w.sessions.lookup slot = some session')
  | revoked
      (session : SessionAccount)
      (hBefore : w.sessions.lookup slot = some session)
      (hSession : session' = { session with active := false })
  | spent
      (session : SessionAccount)
      (now : I64)
      (amount : U64)
      (hBefore : w.sessions.lookup slot = some session)
      (hSpent :
        recordSpend (resetDailyIfNeeded now session)
          amount = .ok session')

theorem createSession_origin
    {w w' : World}
    {env : Env}
    {ix : CreateSession}
    {session' : SessionAccount}
    (hOk : createSession env w ix = .ok w')
    (hFound :
      w'.sessions.lookup
        (.session ix.vowState ix.sessionIndex) =
          some session') :
    SessionOrigin w w'
      ⟨env, .instruction (.createSession ix)⟩
      (.session ix.vowState ix.sessionIndex) session' := by
  rcases createSession_ok hOk with ⟨call, hEq⟩
  rw [hEq, AccountMap.lookup_insert_eq, if_pos rfl] at hFound
  refine .opened ix call.vow call.limits call.sessionNonce rfl
    rfl call.hFresh call.hPrograms call.hLookup call.hNonce ?_
    (Option.some.inj hFound).symm
  rw [hEq, AccountMap.lookup_insert_eq, if_pos rfl]

/- Every open session has an origin. -/
theorem exec_sessionOrigin
    {w w' : World}
    {step : Step}
    {slot : Pubkey}
    {session' : SessionAccount}
    (hExec : step.exec w = some w')
    (hFound : w'.sessions.lookup slot = some session') :
    SessionOrigin w w' step slot session' := by
  rcases step with ⟨env, action⟩
  cases action with
  | instruction ix =>
      have hOk := Step.exec_instruction_iff.mp hExec
      cases hBefore : w.sessions.lookup slot with
      | none =>
          rcases execute_slot_none hOk hBefore hFound with
            ⟨accounts, hIx, hSlot⟩
          subst hIx hSlot
          exact createSession_origin hOk hFound
      | some session =>
          cases execute_slot hOk hBefore with
          | kept hSlot hLookup =>
              rw [hFound] at hLookup
              rw [← Option.some.inj hLookup] at hBefore
              exact .kept hBefore
          | revoked owner vowState hIx hLookup =>
              rw [hFound] at hLookup
              exact .revoked session hBefore
                (Option.some.inj hLookup)
          | closed owner vowState hIx hLookup =>
              rw [hFound] at hLookup
              exact absurd hLookup (by simp)
          | spent accounts spent hIx hSlot hLimits hSpent
              hLookup =>
              rw [hFound] at hLookup
              rw [← Option.some.inj hLookup] at hSpent
              exact .spent session env.unixTimestamp
                accounts.amount hBefore hSpent
  | _ =>
      rw [← Option.some.inj hExec] at hFound
      exact .kept hFound

/-
  What every creation establishes and every spend and
  revocation keeps holds of every open session of every
  reachable state.
-/
theorem Reachable.session_invariant
    {P : SessionAccount → Prop}
    (hOpened :
      ∀ env ix vow limits,
        ix.allowedProgramIds.length ≤ 8 →
        P (openedSession env ix vow limits))
    (hRevoked :
      ∀ session, P session →
        P { session with active := false })
    (hSpent :
      ∀ session now amount spent, P session →
        recordSpend (resetDailyIfNeeded now session)
          amount = .ok spent →
        P spent)
    {w : World}
    (hReach : Reachable w)
    {slot : Pubkey}
    {session : SessionAccount}
    (hFound : w.sessions.lookup slot = some session) :
    P session := by
  rcases hReach with ⟨lamports, steps, hRun⟩
  subst hRun
  have hAll :
      ∀ slot session,
        ((World.genesis lamports).run steps).sessions.lookup
          slot = some session →
        P session := by
    refine @run_invariant World Step Step.exec
      (fun w => ∀ slot session,
        w.sessions.lookup slot = some session → P session)
      (fun _ => True) ?_ _ ?_ steps (fun _ _ => trivial)
    · intro w step w' _ hBefore hExec slot session hFound
      cases exec_sessionOrigin hExec hFound with
      | opened ix vow limits nonce _ _ _ hPrograms _ _ _
          hSession =>
          rw [hSession]
          exact hOpened _ ix vow limits hPrograms
      | kept hLookup => exact hBefore slot session hLookup
      | revoked old hLookup hSession =>
          rw [hSession]
          exact hRevoked old (hBefore slot old hLookup)
      | spent old now amount hLookup hSpend =>
          exact hSpent old now amount session
            (hBefore slot old hLookup) hSpend
    · intro slot session hNone
      exact absurd hNone (by simp [World.genesis])
  exact hAll slot session hFound

end Vow

------------------------------------------------------------
-- Counters
------------------------------------------------------------

namespace Vow

open MachineInt Fallible Transition

/- The session counter of an identity, zero before its mint. -/
def World.sessionNonceOf
    (w : World)
    (vowState : Pubkey) :
    Nat :=
  match w.vows.lookup vowState with
  | some vow => vow.sessionNonce.val
  | none => 0

theorem World.sessionNonceOf_of_lookup
    {w : World}
    {vowState : Pubkey}
    {vow : VowState}
    (hLookup : w.vows.lookup vowState = some vow) :
    w.sessionNonceOf vowState = vow.sessionNonce.val := by
  unfold World.sessionNonceOf
  rw [hLookup]

/- The identity for which a step opens a session. -/
def Step.opensSessionOf
    (step : Step) :
    Option Pubkey :=
  match step.action with
  | .instruction (.createSession ix) => some ix.vowState
  | _ => none

/- Only a creation moves the counter of an identity. -/
theorem LifeStep.sessionNonce_eq
    {env : Env}
    {config : ProtocolConfig}
    {vowState : Pubkey}
    {ix : Instruction}
    {life life' : Life}
    (hStep : LifeStep env config vowState ix life life')
    (hOther : ∀ accounts, ix ≠ .createSession accounts) :
    life'.vow.sessionNonce = life.vow.sessionNonce := by
  cases hStep with
  | topUp owner lamportsToAdd vow vow' unstaking hActive
      hStaked hTopUp =>
      cases hTopUp with
      | sameClass => rfl
      | raisesClass => rfl
  | harvest config' vow vow' unstaking hGain =>
      rcases harvestGain_step hGain with ⟨harvested, hVow⟩
      subst hVow
      rfl
  | session accounts => exact absurd rfl (hOther accounts)
  | _ => rfl

theorem LifeBirth.sessionNonce_eq
    {env : Env}
    {config : ProtocolConfig}
    {vowState : Pubkey}
    {ix : Instruction}
    {life : Life}
    (hBirth : LifeBirth env config vowState ix life) :
    life.vow.sessionNonce.val = 0 := by
  cases hBirth with
  | mint => exact Unsigned.val_zero

theorem exec_sessionNonceOf
    {w w' : World}
    {step : Step}
    {vowState : Pubkey}
    (hOwned : EscrowOwned w)
    (hExec : step.exec w = some w')
    (hOther : step.opensSessionOf ≠ some vowState) :
    w'.sessionNonceOf vowState =
      w.sessionNonceOf vowState := by
  cases hBefore : w.vows.lookup vowState with
  | some vow =>
      rcases exec_moved hExec (World.life_of_lookup hBefore)
        with ⟨life', hAfter, hMove⟩
      rcases World.life_eq_some_iff.mp hAfter with
        ⟨hLookup, _⟩
      rw [World.sessionNonceOf_of_lookup hBefore,
        World.sessionNonceOf_of_lookup hLookup]
      cases hMove with
      | idle hIdle hSame => rw [hSame]
      | acts config ix hConfig hAction hStep =>
          rw [hStep.sessionNonce_eq]
          intro accounts hIx
          subst hIx
          apply hOther
          unfold Step.opensSessionOf
          rw [hAction]
          exact hStep.rewrites_eq
  | none =>
      have hNone : w.life vowState = none :=
        World.life_eq_none_iff.mpr hBefore
      cases hAfter : w'.vows.lookup vowState with
      | none =>
          unfold World.sessionNonceOf
          rw [hBefore, hAfter]
      | some vow' =>
          have hBirth := exec_born hExec hOwned hNone
            (World.life_of_lookup hAfter)
          rcases hBirth with ⟨config, ix, _, _, hBorn⟩
          rw [World.sessionNonceOf_of_lookup hAfter]
          unfold World.sessionNonceOf
          rw [hBefore]
          exact hBorn.sessionNonce_eq

end Vow

------------------------------------------------------------
-- Numbering
------------------------------------------------------------

namespace Vow

open MachineInt Fallible Transition

/- The nonce of the session that a step opens. -/
def createdNonce
    (vowState : Pubkey)
    (o : Occurrence World Step) :
    Option Nat :=
  match o.action.action with
  | .instruction (.createSession ix) =>
      if ix.vowState = vowState then
        (o.after.sessions.lookup
          (.session ix.vowState ix.sessionIndex)).map
            fun session => session.creationNonce.val
      else none
  | _ => none

theorem createdNonce_of_other
    {vowState : Pubkey}
    {o : Occurrence World Step}
    (hOther : o.action.opensSessionOf ≠ some vowState) :
    createdNonce vowState o = none := by
  unfold createdNonce
  unfold Step.opensSessionOf at hOther
  split
  · rename_i ix hAction
    rw [hAction] at hOther
    exact if_neg (fun hSame => hOther (congrArg some hSame))
  · rfl

/- A creation takes the counter as nonce and advances it. -/
theorem exec_creates
    {w w' : World}
    {step : Step}
    {vowState : Pubkey}
    (hExec : step.exec w = some w')
    (hOpens : step.opensSessionOf = some vowState) :
    createdNonce vowState ⟨w, step, w'⟩ =
        some (w.sessionNonceOf vowState) ∧
      w'.sessionNonceOf vowState =
        w.sessionNonceOf vowState + 1 := by
  rcases step with ⟨env, action⟩
  unfold Step.opensSessionOf at hOpens
  split at hOpens
  · rename_i ix hAction
    cases Option.some.inj hOpens
    cases hAction
    rcases createSession_ok
        (Step.exec_instruction_iff.mp hExec) with ⟨call, hEq⟩
    have hAfter :
        w'.vows.lookup ix.vowState =
          some { call.vow with
            sessionNonce := call.sessionNonce } := by
      rw [hEq, AccountMap.lookup_insert_eq, if_pos rfl]
    have hSession :
        w'.sessions.lookup
            (.session ix.vowState ix.sessionIndex) =
          some (openedSession env ix call.vow call.limits) := by
      rw [hEq, AccountMap.lookup_insert_eq, if_pos rfl]
    rw [World.sessionNonceOf_of_lookup call.hLookup,
      World.sessionNonceOf_of_lookup hAfter]
    refine ⟨?_, call.hNonce⟩
    unfold createdNonce
    dsimp only
    rw [if_pos rfl, hSession]
    rfl
  · exact absurd hOpens (by simp)

/- The creations so far are numbered from zero. -/
def NumberedSoFar
    (vowState : Pubkey)
    (history : List (Occurrence World Step))
    (w : World) :
    Prop :=
  EscrowOwned w ∧
    history.filterMap (createdNonce vowState) =
      List.range (w.sessionNonceOf vowState)

theorem exec_numberedSoFar
    {vowState : Pubkey}
    {history : List (Occurrence World Step)}
    {w w' : World}
    {step : Step}
    (hNumbered : NumberedSoFar vowState history w)
    (hExec : step.exec w = some w') :
    NumberedSoFar vowState (history ++ [⟨w, step, w'⟩])
      w' := by
  rcases hNumbered with ⟨hOwned, hRange⟩
  refine ⟨exec_escrowOwned hExec hOwned, ?_⟩
  rw [List.filterMap_append, hRange]
  by_cases hOpens : step.opensSessionOf = some vowState
  · rcases exec_creates hExec hOpens with ⟨hNonce, hNext⟩
    rw [hNext, List.range_succ, List.filterMap_cons_some
      hNonce, List.filterMap_nil]
  · have hNone :
        createdNonce vowState ⟨w, step, w'⟩ = none :=
      createdNonce_of_other hOpens
    rw [exec_sessionNonceOf hOwned hExec hOpens,
      List.filterMap_cons_none hNone, List.filterMap_nil,
      List.append_nil]

end Vow

------------------------------------------------------------
-- Open Sessions
------------------------------------------------------------

namespace Vow

open MachineInt Fallible Transition

/- The open sessions of an identity have distinct nonces. -/
def World.NoncesDistinct
    (w : World) :
    Prop :=
  ∀ slot slot' session session',
    w.sessions.lookup slot = some session →
    w.sessions.lookup slot' = some session' →
    session.vowState = session'.vowState →
    session.creationNonce = session'.creationNonce →
    slot = slot'

/- They are below the counter of the identity. -/
def World.NoncesUsed
    (w : World) :
    Prop :=
  ∀ slot session,
    w.sessions.lookup slot = some session →
    session.creationNonce.val <
      w.sessionNonceOf session.vowState

/-
  What a step can do to the nonce of a session that is open
  after it: the session is the one just opened, or it was
  open before with the same nonce.
-/
theorem exec_nonce_origin
    {w w' : World}
    {step : Step}
    {slot : Pubkey}
    {session : SessionAccount}
    (hExec : step.exec w = some w')
    (hFound : w'.sessions.lookup slot = some session) :
    (∃ ix, step.action = .instruction (.createSession ix) ∧
      slot = .session ix.vowState ix.sessionIndex ∧
      session.vowState = ix.vowState ∧
      session.creationNonce.val =
        w.sessionNonceOf session.vowState) ∨
    ∃ old, w.sessions.lookup slot = some old ∧
      session.vowState = old.vowState ∧
      session.creationNonce = old.creationNonce := by
  cases exec_sessionOrigin hExec hFound with
  | opened ix vow limits nonce hAction hSlot _ _ hVow _ _
      hSession =>
      refine Or.inl ⟨ix, hAction, hSlot, ?_, ?_⟩
      · rw [hSession]
        rfl
      · rw [hSession]
        exact (World.sessionNonceOf_of_lookup hVow).symm
  | kept hLookup =>
      exact Or.inr ⟨session, hLookup, rfl, rfl⟩
  | revoked old hLookup hSession =>
      refine Or.inr ⟨old, hLookup, ?_, ?_⟩
      · rw [hSession]
      · rw [hSession]
  | spent old now amount hLookup hSpend =>
      rcases recordSpend_counters hSpend with
        ⟨counters, hSession⟩
      refine Or.inr ⟨old, hLookup, ?_, ?_⟩
      · rw [hSession]
      · rw [hSession]

theorem exec_sessionNonceOf_le
    {w w' : World}
    {step : Step}
    (hOwned : EscrowOwned w)
    (hExec : step.exec w = some w')
    (vowState : Pubkey) :
    w.sessionNonceOf vowState ≤
      w'.sessionNonceOf vowState := by
  by_cases hOpens : step.opensSessionOf = some vowState
  · rw [(exec_creates hExec hOpens).2]
    omega
  · rw [exec_sessionNonceOf hOwned hExec hOpens]

theorem exec_noncesUsed
    {w w' : World}
    {step : Step}
    (hOwned : EscrowOwned w)
    (hUsed : w.NoncesUsed)
    (hExec : step.exec w = some w') :
    w'.NoncesUsed := by
  intro slot session hFound
  have hGrows :=
    exec_sessionNonceOf_le hOwned hExec session.vowState
  rcases exec_nonce_origin hExec hFound with
    ⟨ix, hAction, _, hVow, hNonce⟩ |
      ⟨old, hLookup, hVow, hNonce⟩
  · have hOpens :
        step.opensSessionOf = some session.vowState := by
      unfold Step.opensSessionOf
      rw [hAction, hVow]
    rw [(exec_creates hExec hOpens).2, hNonce]
    omega
  · have hBelow := hUsed slot old hLookup
    rw [← hVow, ← hNonce] at hBelow
    omega

theorem exec_noncesDistinct
    {w w' : World}
    {step : Step}
    (hUsed : w.NoncesUsed)
    (hDistinct : w.NoncesDistinct)
    (hExec : step.exec w = some w') :
    w'.NoncesDistinct := by
  intro slot slot' session session' hFound hFound' hVow hNonce
  rcases exec_nonce_origin hExec hFound with
    ⟨ix, hAction, hSlot, _, hNew⟩ |
      ⟨old, hLookup, hOldVow, hOldNonce⟩
  · rcases exec_nonce_origin hExec hFound' with
      ⟨ix', hAction', hSlot', _, _⟩ |
        ⟨old', hLookup', hOldVow', hOldNonce'⟩
    · -- Both slots are the one that the step opened.
      rw [hAction] at hAction'
      cases hAction'
      rw [hSlot, hSlot']
    · -- The other nonce is below the counter.
      have hBelow := hUsed slot' old' hLookup'
      rw [← hOldVow', ← hOldNonce', ← hVow, ← hNonce, hNew]
        at hBelow
      omega
  · rcases exec_nonce_origin hExec hFound' with
      ⟨ix', hAction', hSlot', _, hNew'⟩ |
        ⟨old', hLookup', hOldVow', hOldNonce'⟩
    · have hBelow := hUsed slot old hLookup
      rw [← hOldVow, ← hOldNonce, hVow, hNonce, hNew']
        at hBelow
      omega
    · refine hDistinct slot slot' old old' hLookup hLookup'
        ?_ ?_
      · rw [← hOldVow, ← hOldVow', hVow]
      · rw [← hOldNonce, ← hOldNonce', hNonce]

theorem noncesDistinct_reachable
    {w : World}
    (hReach : Reachable w) :
    w.NoncesDistinct := by
  rcases hReach with ⟨lamports, steps, hRun⟩
  have hSteps :
      ∀ (w : World) (step : Step) (w' : World), True →
        EscrowOwned w ∧ w.NoncesUsed ∧ w.NoncesDistinct →
        step.exec w = some w' →
        EscrowOwned w' ∧ w'.NoncesUsed ∧
          w'.NoncesDistinct := by
    rintro w step w' _ ⟨hOwned, hUsed, hDistinct⟩ hExec
    exact ⟨exec_escrowOwned hExec hOwned,
      exec_noncesUsed hOwned hUsed hExec,
      exec_noncesDistinct hUsed hDistinct hExec⟩
  have hOwned : EscrowOwned (World.genesis lamports) :=
    escrowOwned_reachable ⟨lamports, [], rfl⟩
  have hInit :
      EscrowOwned (World.genesis lamports) ∧
        (World.genesis lamports).NoncesUsed ∧
        (World.genesis lamports).NoncesDistinct := by
    refine ⟨hOwned, ?_, ?_⟩
    · intro slot session hNone
      exact absurd hNone (by simp [World.genesis])
    · intro slot slot' session session' hNone
      exact absurd hNone (by simp [World.genesis])
  have hEnd := run_invariant hSteps hInit
    (fun step (_ : step ∈ steps) => trivial)
  rw [hRun]
  exact hEnd.2.2

/-
  Over every run the creations of an identity store the
  nonces 0, 1, 2 and so on up to its counter, and no two
  sessions that are open together share one.
-/
theorem session_nonces_consecutive
    (lamports : Lamports)
    (steps : List Step)
    (vowState : Pubkey) :
    ((World.genesis lamports).trace steps).filterMap
        (createdNonce vowState) =
      List.range
        (((World.genesis lamports).run steps).sessionNonceOf
          vowState) ∧
      ((World.genesis lamports).run steps).NoncesDistinct := by
  have hOwned : EscrowOwned (World.genesis lamports) :=
    escrowOwned_reachable ⟨lamports, [], rfl⟩
  have hInit :
      NumberedSoFar vowState [] (World.genesis lamports) :=
    ⟨hOwned, rfl⟩
  have hNumbered :=
    @trace_history_invariant World Step Step.exec
      (fun _ => True) (NumberedSoFar vowState)
      (fun _ _ _ _ hBefore hExec _ =>
        exec_numberedSoFar hBefore hExec)
      steps _ hInit (fun _ _ => trivial)
  exact ⟨hNumbered.2,
    noncesDistinct_reachable ⟨lamports, steps, rfl⟩⟩

end Vow
