import VowProtocol.Correctness.SessionLimits

/-
  Who may take value out of an identity: its owner, or the
  holder of a session key that the owner has issued and not
  withdrawn.

  Key definitions include:
    * `Instruction.identity`
    * `Outflow`
    * `CreatedByOwner`
    * `SignedByOwner`
    * `SpentBySession`

  Key theorems include:
    * `exec_outflow`
    * `exec_sessionsCreated`
    * `execute_authorized`
    * `exec_revoked`
    * `outflows_authorized`
-/

------------------------------------------------------------
-- Outflows
------------------------------------------------------------

namespace Vow

open MachineInt Fallible Transition ShareLedger

/- The identity account that an instruction works on. -/
def Instruction.identity : Instruction → Option Pubkey
| .devFastUnlock _ vowState => some vowState
| .addStake _ vowState _ => some vowState
| .updateYieldMode _ vowState _ => some vowState
| .beginUnstake _ vowState => some vowState
| .completeUnstake _ vowState => some vowState
| .activateStake _ vowState _ _ => some vowState
| .harvest vowState => some vowState
| .createSession ix => some ix.vowState
| .revokeSession _ vowState _ => some vowState
| .closeSession _ vowState _ => some vowState
| .depositYieldBalance _ vowState _ => some vowState
| .yieldSpend ix => some ix.vowState
| .withdrawYield _ vowState _ => some vowState
| .recordCommitment _ vowState => some vowState
| .recordFulfillment _ vowState => some vowState
| _ => none

/-
  A step in which the yield of an identity decreases, its
  escrow is opened or closed, or lamports leave the reserve
  in an instruction on the identity. Lamports that move
  between the reserve and the pool are on no identity's
  account.
-/
inductive Outflow
    (vowState : Pubkey)
    (o : Occurrence World Step) :
    Prop where
  | yields
      (vow vow' : VowState)
      (hBefore : o.before.vows.lookup vowState = some vow)
      (hAfter : o.after.vows.lookup vowState = some vow')
      (hLess : vow'.yieldBalance < vow.yieldBalance)
  | escrow
      (hChanged :
        (o.after.escrows.lookup (.unstake vowState)).isSome ≠
          (o.before.escrows.lookup
            (.unstake vowState)).isSome)
  | reserve
      (ix : Instruction)
      (hAction : o.action.action = .instruction ix)
      (hIdentity : ix.identity = some vowState)
      (hLess : o.after.reserve < o.before.reserve)

/-
  An instruction on an identity that it takes no value from
  never lowers the reserve.
-/
theorem reserve_le_of_identity
    {env : Env}
    {w w' : World}
    {ix : Instruction}
    {vowState : Pubkey}
    (hOk : execute env w ix = .ok w')
    (hIdentity : ix.identity = some vowState)
    (hKeeps : ix.outflow ≠ some vowState) :
    w.reserve ≤ w'.reserve := by
  have hKind :
      (∀ admin, ix ≠ .closeProtocolConfig admin) ∧
        ix.kind ≠ .spend ∧ ix.kind ≠ .payout ∧
        ix.kind ≠ .drift := by
    cases ix <;>
      simp_all [Instruction.identity, Instruction.outflow,
        Instruction.kind]
  rcases hKind with ⟨hOpen, hSpend, hPayout, hDrift⟩
  exact (execute_move hOk hOpen).reserve_le hSpend hPayout
    hDrift

/- Value leaves an identity only in its outflow calls. -/
theorem outflow_of_execute
    {env : Env}
    {w w' : World}
    {ix : Instruction}
    {vowState : Pubkey}
    (hOk : execute env w ix = .ok w')
    (hOutflow :
      Outflow vowState ⟨w, ⟨env, .instruction ix⟩, w'⟩) :
    ix.outflow = some vowState := by
  have hEffect := execute_effect hOk
  by_contra hKeeps
  cases hOutflow with
  | yields vow vow' hBefore hAfter hLess =>
      rcases hEffect.vows.lookup_some hBefore with
        ⟨found, hFound, _, hYield⟩
      rw [hAfter] at hFound
      rw [← Option.some.inj hFound] at hYield
      have hLe := hYield hKeeps
      rw [Unsigned.lt_def] at hLess
      omega
  | escrow hChanged =>
      have hSlot :
          ix.escrowSlot ≠ some (.unstake vowState) := by
        intro hSlot
        rcases escrowSlot_eq_unstake hSlot with
          ⟨owner, hIx⟩ | ⟨owner, hIx⟩
        · exact hKeeps (by rw [hIx]; rfl)
        · exact hKeeps (by rw [hIx]; rfl)
      exact hChanged (by rw [hEffect.escrows _ hSlot])
  | reserve found hAction hIdentity hLess =>
      rw [← Action.instruction.inj hAction] at hIdentity
      have hLe := reserve_le_of_identity hOk hIdentity hKeeps
      exact absurd hLess (Nat.not_lt.mpr hLe)

/- A movement of lamports elsewhere is no outflow. -/
theorem not_outflow_of_lamports
    {vowState : Pubkey}
    {w : World}
    {step : Step}
    (lamports : Lamports)
    (hAction : ∀ ix, step.action ≠ .instruction ix) :
    ¬Outflow vowState
      ⟨w, step, { w with lamports := lamports }⟩ := by
  intro hOutflow
  cases hOutflow with
  | yields vow vow' hBefore hAfter hLess =>
      have hSame :=
        Option.some.inj (hBefore.symm.trans hAfter)
      rw [hSame, Unsigned.lt_def] at hLess
      exact absurd hLess (lt_irrefl _)
  | escrow hChanged => exact hChanged rfl
  | reserve ix hIx _ _ => exact hAction ix hIx

/- Every outflow is an outflow call. -/
theorem exec_outflow
    {vowState : Pubkey}
    {w w' : World}
    {step : Step}
    (hExec : step.exec w = some w')
    (hOutflow : Outflow vowState ⟨w, step, w'⟩) :
    ∃ ix,
      step.action = .instruction ix ∧
        ix.outflow = some vowState := by
  rcases step with ⟨env, action⟩
  cases action with
  | instruction ix =>
      exact ⟨ix, rfl, outflow_of_execute
        (Step.exec_instruction_iff.mp hExec) hOutflow⟩
  | _ =>
      rw [← Option.some.inj hExec] at hOutflow
      exact absurd hOutflow
        (not_outflow_of_lamports _ (by simp))

end Vow

------------------------------------------------------------
-- Lives Of Sessions
------------------------------------------------------------

namespace Vow

open MachineInt Fallible Transition

/-
  The session in the slot was created for its identity, with
  its key, by the owner of the identity, and the slot has
  been neither revoked nor closed since.
-/
def CreatedByOwner
    (slot : Pubkey)
    (session : SessionAccount)
    (past : List (Occurrence World Step))
    (w : World) :
    Prop :=
  ∃ earlier creation later accounts vow,
    past = earlier ++ creation :: later ∧
    creation.action.action =
      .instruction (.createSession accounts) ∧
    slot =
      .session accounts.vowState accounts.sessionIndex ∧
    session.vowState = accounts.vowState ∧
    session.sessionKey = accounts.sessionKey ∧
    w.vows.lookup accounts.vowState = some vow ∧
    vow.owner = accounts.owner.key ∧
    ∀ o ∈ later,
      o.action.revokesSession slot = false ∧
        o.action.closesSession slot = false

/- Every active session was created by its owner. -/
def SessionsCreated
    (past : List (Occurrence World Step))
    (w : World) :
    Prop :=
  ∀ slot session,
    w.sessions.lookup slot = some session →
    session.active = true →
    CreatedByOwner slot session past w

/- One more step that leaves the session in place. -/
theorem CreatedByOwner.concat
    {slot : Pubkey}
    {session session' : SessionAccount}
    {past : List (Occurrence World Step)}
    {w w' : World}
    {o : Occurrence World Step}
    (hCreated : CreatedByOwner slot session past w)
    (hVow : session'.vowState = session.vowState)
    (hKey : session'.sessionKey = session.sessionKey)
    (hOwners :
      ∀ k vow, w.vows.lookup k = some vow →
        ∃ vow', w'.vows.lookup k = some vow' ∧
          vow'.owner = vow.owner)
    (hRevoke : o.action.revokesSession slot = false)
    (hClose : o.action.closesSession slot = false) :
    CreatedByOwner slot session' (past ++ [o]) w' := by
  rcases hCreated with
    ⟨earlier, creation, later, accounts, vow, hPast,
      hAction, hSlot, hSame, hSameKey, hLookup, hOwner,
      hLater⟩
  rcases hOwners _ vow hLookup with ⟨vow', hLookup', hOwner'⟩
  refine ⟨earlier, creation, later ++ [o], accounts, vow',
    ?_, hAction, hSlot, hVow.trans hSame,
    hKey.trans hSameKey, hLookup', hOwner'.trans hOwner, ?_⟩
  · rw [hPast, List.append_assoc, List.cons_append]
  · intro step hStep
    rcases List.mem_append.mp hStep with hOld | hNew
    · exact hLater step hOld
    · rw [List.mem_singleton.mp hNew]
      exact ⟨hRevoke, hClose⟩

/- Instructions on other slots do not end a session. -/
theorem not_ends_of_sessionSlot_ne
    (env : Env)
    {ix : Instruction}
    {slot : Pubkey}
    (hSlot : ix.sessionSlot ≠ some slot) :
    Step.revokesSession slot ⟨env, .instruction ix⟩ = false ∧
      Step.closesSession slot ⟨env, .instruction ix⟩ =
        false := by
  cases ix <;>
    simp_all [Step.revokesSession, Step.closesSession,
      Instruction.sessionSlot]

/- A creation starts the life of a session. -/
theorem createSession_createdByOwner
    {env : Env}
    {w w' : World}
    {accounts : CreateSession}
    {session : SessionAccount}
    (hOk : createSession env w accounts = .ok w')
    (hFound :
      w'.sessions.lookup
        (.session accounts.vowState accounts.sessionIndex) =
          some session)
    (past : List (Occurrence World Step)) :
    CreatedByOwner
      (.session accounts.vowState accounts.sessionIndex)
      session
      (past ++ [⟨w,
        ⟨env, .instruction (.createSession accounts)⟩, w'⟩])
      w' := by
  rcases createSession_ok hOk with ⟨call, hEq⟩
  rw [hEq, AList.lookup_insert] at hFound
  rw [← Option.some.inj hFound]
  refine ⟨past, _, [], accounts,
    { call.vow with sessionNonce := call.sessionNonce }, rfl,
    rfl, rfl, rfl, rfl, ?_, call.hOwner, ?_⟩
  · rw [hEq]
    exact AList.lookup_insert _
  · intro o ho
    exact absurd ho (by simp)

theorem execute_sessionsCreated
    {env : Env}
    {w w' : World}
    {ix : Instruction}
    {past : List (Occurrence World Step)}
    (hCreated : SessionsCreated past w)
    (hOk : execute env w ix = .ok w') :
    SessionsCreated
      (past ++ [⟨w, ⟨env, .instruction ix⟩, w'⟩]) w' := by
  have hOwners :
      ∀ k vow, w.vows.lookup k = some vow →
        ∃ vow', w'.vows.lookup k = some vow' ∧
          vow'.owner = vow.owner := by
    intro k vow hLookup
    rcases (execute_effect hOk).vows.lookup_some hLookup with
      ⟨vow', hLookup', hSame, _⟩
    exact ⟨vow', hLookup', hSame.2⟩
  intro slot session' hFound' hActive
  cases hFound : w.sessions.lookup slot with
  | none =>
      rcases execute_slot_none hOk hFound hFound' with
        ⟨accounts, hIx, hSlot⟩
      subst hIx hSlot
      exact createSession_createdByOwner hOk hFound' past
  | some session =>
      cases execute_slot hOk hFound with
      | kept hSlot hLookup =>
          rw [hFound'] at hLookup
          have hSame := Option.some.inj hLookup
          rw [hSame] at hActive
          have hEnds := not_ends_of_sessionSlot_ne env hSlot
          exact (hCreated slot session hFound
            hActive).concat (by rw [hSame]) (by rw [hSame])
              hOwners hEnds.1 hEnds.2
      | revoked _ _ _ hLookup =>
          rw [hFound'] at hLookup
          rw [Option.some.inj hLookup] at hActive
          exact absurd hActive (by simp)
      | closed _ _ _ hLookup =>
          rw [hFound'] at hLookup
          exact absurd hLookup (by simp)
      | spent accounts spent hIx hSlot _ hSpent hLookup =>
          rw [hFound'] at hLookup
          rw [← Option.some.inj hLookup] at hSpent
          subst hIx
          have hSame := recordSpend_sameSession hSpent
          exact (hCreated slot session hFound
            (hSame.active hActive)).concat hSame.vowState
              hSame.sessionKey hOwners rfl rfl

/- Every step keeps the record of creations. -/
theorem exec_sessionsCreated
    {w w' : World}
    {step : Step}
    {past : List (Occurrence World Step)}
    (hCreated : SessionsCreated past w)
    (hExec : step.exec w = some w') :
    SessionsCreated (past ++ [⟨w, step, w'⟩]) w' := by
  rcases step with ⟨env, action⟩
  cases action with
  | instruction ix =>
      exact execute_sessionsCreated hCreated
        (Step.exec_instruction_iff.mp hExec)
  | _ =>
      rw [← Option.some.inj hExec]
      intro slot session hFound hActive
      exact (hCreated slot session hFound hActive).concat
        rfl rfl (fun _ vow hLookup => ⟨vow, hLookup, rfl⟩)
        rfl rfl

theorem trace_sessionsCreated
    (lamports : Lamports)
    (steps : List Step) :
    SessionsCreated ((World.genesis lamports).trace steps)
      ((World.genesis lamports).run steps) := by
  have hStep :
      ∀ past w (step : Step) w',
        SessionsCreated past w → step.exec w = some w' →
        True →
        SessionsCreated (past ++ [⟨w, step, w'⟩]) w' := by
    intro past w step w' hCreated hExec _
    exact exec_sessionsCreated hCreated hExec
  have hInit :
      SessionsCreated [] (World.genesis lamports) := by
    intro slot session hFound
    exact absurd hFound (by simp [World.genesis])
  exact @trace_history_invariant World Step Step.exec
    (fun _ => True) SessionsCreated hStep steps _ hInit
    (fun _ _ => trivial)

end Vow

------------------------------------------------------------
-- Authorization
------------------------------------------------------------

namespace Vow

open MachineInt Fallible Transition

/- The step is signed by the owner of the identity. -/
def SignedByOwner
    (vowState : Pubkey)
    (o : Occurrence World Step) :
    Prop :=
  ∃ ix signer vow,
    o.action.action = .instruction ix ∧
    ix.signer = some signer ∧
    o.before.vows.lookup vowState = some vow ∧
    vow.owner = signer.key

/-
  The step is a spend signed by the key of a session of the
  identity that its owner created, that was neither revoked
  nor closed since, and that has not expired.
-/
def SpentBySession
    (vowState : Pubkey)
    (past : List (Occurrence World Step))
    (o : Occurrence World Step) :
    Prop :=
  ∃ accounts session,
    o.action.action = .instruction (.yieldSpend accounts) ∧
    accounts.vowState = vowState ∧
    o.before.sessions.lookup accounts.sessionAccount =
      some session ∧
    session.vowState = vowState ∧
    accounts.sessionSigner.key = session.sessionKey ∧
    (session.expiryTs = 0 ∨
      o.action.env.unixTimestamp < session.expiryTs) ∧
    CreatedByOwner accounts.sessionAccount session past
      o.before

/- A spend is authorized by its session. -/
theorem yieldSpend_spentBySession
    {env : Env}
    {w w' : World}
    {accounts : YieldSpend}
    {past : List (Occurrence World Step)}
    (hCreated : SessionsCreated past w)
    (hOk : yieldSpend env w accounts = .ok w') :
    SpentBySession accounts.vowState past
      ⟨w, ⟨env, .instruction (.yieldSpend accounts)⟩,
        w'⟩ := by
  rcases yieldSpend_eq_ok_iff.mp hOk with ⟨call, _⟩
  rcases checkSessionLive_ok_iff.mp call.hLive with
    ⟨hKey, hActive, hExpiry, _, _⟩
  exact ⟨accounts, call.session, rfl, rfl, call.hSession,
    call.hVow, hKey, hExpiry, hCreated _ call.session
    call.hSession hActive⟩

/- An outflow call is authorized by its own checks. -/
theorem execute_authorized
    {env : Env}
    {w w' : World}
    {ix : Instruction}
    {vowState : Pubkey}
    {past : List (Occurrence World Step)}
    (hCreated : SessionsCreated past w)
    (hOk : execute env w ix = .ok w')
    (hOutflow : ix.outflow = some vowState) :
    SignedByOwner vowState
        ⟨w, ⟨env, .instruction ix⟩, w'⟩ ∨
      SpentBySession vowState past
        ⟨w, ⟨env, .instruction ix⟩, w'⟩ := by
  cases ix with
  | withdrawYield owner identity amount =>
      rcases withdrawYield_ok hOk with ⟨call, _⟩
      have hHere := Option.some.inj hOutflow
      subst hHere
      exact Or.inl ⟨_, owner, call.vow, rfl, rfl,
        call.hLookup, call.hOwner⟩
  | beginUnstake owner identity =>
      rcases beginUnstake_ok hOk with ⟨call, _⟩
      have hHere := Option.some.inj hOutflow
      subst hHere
      exact Or.inl ⟨_, owner, call.vow, rfl, rfl,
        call.hLookup, call.hOwner⟩
  | completeUnstake owner identity =>
      rcases completeUnstake_eq_ok_iff.mp hOk with ⟨call, _⟩
      have hHere := Option.some.inj hOutflow
      subst hHere
      exact Or.inl ⟨_, owner, call.vow, rfl, rfl,
        call.hLookup, call.hOwner⟩
  | yieldSpend accounts =>
      have hSpent := yieldSpend_spentBySession hCreated hOk
      rw [Option.some.inj hOutflow] at hSpent
      exact Or.inr hSpent
  | _ =>
      exact absurd hOutflow (by simp [Instruction.outflow])

/- A revoked slot stays inactive until it is closed. -/
def Revoked
    (slot : Pubkey)
    (w : World) :
    Prop :=
  ∃ session,
    w.sessions.lookup slot = some session ∧
    session.active = false

theorem exec_revoked
    {w w' : World}
    {step : Step}
    {slot : Pubkey}
    (hRevoked : Revoked slot w)
    (hExec : step.exec w = some w')
    (hOpen : step.closesSession slot = false) :
    Revoked slot w' := by
  rcases hRevoked with ⟨session, hFound, hInactive⟩
  rcases exec_slot_open hExec hFound hOpen with
    ⟨session', hLookup, hSame⟩
  refine ⟨session', hLookup, ?_⟩
  by_contra hActive
  rw [hSame.active (Bool.eq_true_of_not_eq_false hActive)]
    at hInactive
  cases hInactive

/- A successful revocation leaves the slot inactive. -/
theorem revoked_of_exec
    {w w' : World}
    {step : Step}
    {slot : Pubkey}
    (hExec : step.exec w = some w')
    (hRevokes : step.revokesSession slot = true) :
    Revoked slot w' := by
  rcases step with ⟨env, action⟩
  cases action with
  | instruction ix =>
      cases ix with
      | revokeSession owner vowState sessionAccount =>
          have hSame : sessionAccount = slot :=
            of_decide_eq_true hRevokes
          subst hSame
          rcases revokeSession_ok
              (Step.exec_instruction_iff.mp hExec) with
            ⟨call, hEq⟩
          subst hEq
          exact ⟨_, AList.lookup_insert _, rfl⟩
      | _ =>
          exact absurd hRevokes
            (by simp [Step.revokesSession])
  | _ =>
      exact absurd hRevokes (by simp [Step.revokesSession])

/- No spend passes through a revoked slot. -/
theorem yieldSpend_not_revoked
    {env : Env}
    {w w' : World}
    {accounts : YieldSpend}
    (hOk : yieldSpend env w accounts = .ok w')
    (hRevoked : Revoked accounts.sessionAccount w) :
    False := by
  rcases yieldSpend_eq_ok_iff.mp hOk with ⟨call, _⟩
  rcases checkSessionLive_ok_iff.mp call.hLive with
    ⟨_, hActive, _⟩
  rcases hRevoked with ⟨found, hLookup, hInactive⟩
  rw [call.hSession] at hLookup
  rw [← Option.some.inj hLookup, hActive] at hInactive
  exact absurd hInactive (by simp)

/-
  In every run, value leaves an identity only under the
  signature of its owner or of a session key that the owner
  issued and has not withdrawn; and between a revocation and
  a later spend through the same slot, the slot was closed.
-/
theorem outflows_authorized
    (lamports : Lamports)
    (steps : List Step) :
    (∀ vowState past o future,
      (World.genesis lamports).trace steps =
        past ++ o :: future →
      Outflow vowState o →
      SignedByOwner vowState o ∨
        SpentBySession vowState past o) ∧
    (∀ past revocation between o future accounts,
      (World.genesis lamports).trace steps =
        past ++ revocation :: (between ++ o :: future) →
      revocation.action.revokesSession
        accounts.sessionAccount = true →
      o.action.action =
        .instruction (.yieldSpend accounts) →
      ∃ closing ∈ between,
        closing.action.closesSession
          accounts.sessionAccount = true) := by
  refine ⟨?_, ?_⟩
  · intro vowState past o future hTrace hOutflow
    rcases trace_split hTrace with
      ⟨first, _, _, hPast, hBefore, hExec, _⟩
    have hCreated : SessionsCreated past o.before := by
      rw [hPast, hBefore]
      exact trace_sessionsCreated lamports first
    rcases exec_outflow hExec hOutflow with
      ⟨ix, hAction, hIx⟩
    rcases o with ⟨w, ⟨env, action⟩, w'⟩
    dsimp only at hAction
    subst hAction
    exact execute_authorized hCreated
      (Step.exec_instruction_iff.mp hExec) hIx
  · intro past revocation between o future accounts hTrace
      hRevokes hAction
    rcases trace_split hTrace with
      ⟨_, second, _, _, _, hRevoke, hRest⟩
    rcases trace_split hRest.symm with
      ⟨first, _, _, hBetween, hBefore, hExec, _⟩
    by_contra hNone
    -- The slot stays revoked through the steps in between.
    have hOpen :
        ∀ step ∈ trace Step.exec revocation.after first,
          step.action.closesSession
            accounts.sessionAccount = false := by
      intro step hStep
      by_contra hCloses
      rw [← hBetween] at hStep
      exact hNone
        ⟨step, hStep, Bool.eq_true_of_not_eq_false hCloses⟩
    have hRevoked :
        Revoked accounts.sessionAccount o.before := by
      rw [hBefore]
      exact (trace_invariant
        (fun _ _ _ hHolds hStep hKeeps =>
          exec_revoked hHolds hStep hKeeps)
        (revoked_of_exec hRevoke hRevokes) hOpen).2
    rcases o with ⟨w, ⟨env, action⟩, w'⟩
    dsimp only at hAction
    subst hAction
    exact yieldSpend_not_revoked
      (Step.exec_instruction_iff.mp hExec) hRevoked

/- The sample session is opened and then used. -/
def grantedSteps : List Step :=
  yieldSteps ++
    [sampleStep 50 0 (.createSession sampleSession)]

def grantedChain : World :=
  sampleChain.run grantedSteps

def grantedSpend : Step :=
  sampleStep 60 0 (.yieldSpend (sampleSpend 100))

theorem outflows_authorized_sample :
    SignedByOwner sampleVow
        ⟨grantedChain, grantedSpend,
          grantedChain.run [grantedSpend]⟩ ∨
      SpentBySession sampleVow
        (sampleChain.trace grantedSteps)
        ⟨grantedChain, grantedSpend,
          grantedChain.run [grantedSpend]⟩ := by
  have hOk :
      execute (sampleEnv 60 0) grantedChain
          (.yieldSpend (sampleSpend 100)) =
        .ok (grantedChain.run [grantedSpend]) :=
    execute_eq_run (by decide +kernel)
  have hTrace :
      sampleChain.trace (grantedSteps ++ [grantedSpend]) =
        sampleChain.trace grantedSteps ++
          [⟨grantedChain, grantedSpend,
            grantedChain.run [grantedSpend]⟩] :=
    trace_concat_of_some
      (Step.exec_instruction_iff.mpr hOk)
  have hBefore :
      (grantedChain.vows.lookup sampleVow).map
        VowState.yieldBalance = some 1000 := by
    decide +kernel
  have hAfter :
      ((grantedChain.run [grantedSpend]).vows.lookup
        sampleVow).map VowState.yieldBalance =
          some 900 := by
    decide +kernel
  rcases Option.map_eq_some_iff.mp hBefore with
    ⟨vow, hVow, hYield⟩
  rcases Option.map_eq_some_iff.mp hAfter with
    ⟨vow', hVow', hYield'⟩
  have hLess : vow'.yieldBalance < vow.yieldBalance := by
    rw [hYield, hYield']
    decide
  exact (outflows_authorized _
    (grantedSteps ++ [grantedSpend])).1 sampleVow _ _ [] hTrace
      (.yields vow vow' hVow hVow' hLess)

end Vow
