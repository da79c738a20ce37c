import VowProtocol.Correctness.Phases
import VowProtocol.Correctness.SessionLimits

/-
  Invalidation of sessions by stake events. The program
  compares timestamps and not the order of steps, so a
  session outlives a stake event of its own second.

  Key definitions include:
    * `Step.restarts`
    * `StartedAt`

  Key theorems include:
    * `LifeStep.sessionsInvalidatedAt_eq`
    * `invalidation_kept`
    * `startedAt_kept`
    * `spend_after_restart`
    * `stake_event_invalidates`
-/

------------------------------------------------------------
-- Stake Events
------------------------------------------------------------

namespace Vow

open MachineInt Fallible Transition

/- Does the instruction end or renew a stake? -/
def Instruction.restarts
    (vowState : Pubkey)
    (ix : Instruction) :
    Bool :=
  ix.completes vowState || ix.activates vowState

def Step.restarts
    (vowState : Pubkey)
    (step : Step) :
    Bool :=
  step.completes vowState || step.activates vowState

/- Exactly the stake events invalidate sessions. -/
theorem LifeStep.sessionsInvalidatedAt_eq
    {env : Env}
    {config : ProtocolConfig}
    {vowState : Pubkey}
    {ix : Instruction}
    {life life' : Life}
    (hStep : LifeStep env config vowState ix life life') :
    life'.vow.sessionsInvalidatedAt =
      if ix.restarts vowState then
        env.unixTimestamp
      else
        life.vow.sessionsInvalidatedAt := by
  cases hStep with
  | topUp owner lamportsToAdd vow vow' unstaking hActive
      hStaked hTopUp =>
      cases hTopUp with
      | sameClass => rfl
      | raisesClass => rfl
  | complete owner vow =>
      simp [Instruction.restarts, Instruction.completes,
        dormantVow]
  | activate =>
      simp [Instruction.restarts, Instruction.activates,
        activatedVow]
  | harvest config' vow vow' unstaking hGain =>
      rcases harvestGain_step hGain with ⟨harvested, hVow⟩
      subst hVow
      rfl
  | _ => rfl

/- Only an activation makes a dormant identity active. -/
theorem LifeStep.dormant
    {env : Env}
    {config : ProtocolConfig}
    {vowState : Pubkey}
    {ix : Instruction}
    {life life' : Life}
    (hStep : LifeStep env config vowState ix life life')
    (hKeeps : ix.activates vowState = false)
    (hDormant : life.vow.activeStake = false) :
    life'.vow.activeStake = false := by
  cases hStep with
  | topUp owner lamportsToAdd vow vow' unstaking hActive =>
      dsimp only at hDormant
      rw [hActive] at hDormant
      cases hDormant
  | complete => rfl
  | activate =>
      exact absurd hKeeps (by simp [Instruction.activates])
  | harvest config' vow vow' unstaking hGain =>
      rcases harvestGain_step hGain with ⟨harvested, hVow⟩
      subst hVow
      exact hDormant
  | _ => exact hDormant

theorem LifeStep.dormant_of_completes
    {env : Env}
    {config : ProtocolConfig}
    {vowState : Pubkey}
    {ix : Instruction}
    {life life' : Life}
    (hStep : LifeStep env config vowState ix life life')
    (hCompletes : ix.completes vowState = true) :
    life'.vow.activeStake = false := by
  cases hStep with
  | complete => rfl
  | _ =>
      exact absurd hCompletes (by simp [Instruction.completes])

theorem Instruction.rewrites_of_restarts
    {vowState : Pubkey}
    {ix : Instruction}
    (hRestarts : ix.restarts vowState = true) :
    ix.rewrites = some vowState := by
  cases ix with
  | completeUnstake owner identity =>
      simpa [Instruction.restarts, Instruction.completes,
        Instruction.activates, Instruction.rewrites]
        using hRestarts
  | activateStake owner identity stakeLamports yieldMode =>
      simpa [Instruction.restarts, Instruction.completes,
        Instruction.activates, Instruction.rewrites]
        using hRestarts
  | _ => exact absurd hRestarts Bool.false_ne_true

/- A stake event closes no session account. -/
theorem Step.closesSession_of_restarts
    {vowState slot : Pubkey}
    {step : Step}
    (hRestarts : step.restarts vowState = true) :
    step.closesSession slot = false := by
  rcases step with ⟨env, action⟩
  cases action with
  | instruction ix =>
      cases ix with
      | closeSession =>
          exact absurd hRestarts Bool.false_ne_true
      | _ => rfl
  | _ => rfl

/- What a stake event leaves of the identity. -/
theorem exec_restarts
    {vowState : Pubkey}
    {w w' : World}
    {step : Step}
    {life : Life}
    (hExec : step.exec w = some w')
    (hLife : w.life vowState = some life)
    (hEvent : step.restarts vowState = true) :
    ∃ life',
      w'.life vowState = some life' ∧
        life'.vow.sessionsInvalidatedAt =
          step.env.unixTimestamp ∧
        (step.completes vowState = true →
          life'.vow.activeStake = false) := by
  rcases step with ⟨env, action⟩
  cases action with
  | instruction ix =>
      have hRestarts : ix.restarts vowState = true := hEvent
      rcases exec_moved hExec hLife with
        ⟨life', hAfter, hMove⟩
      cases hMove with
      | idle hIdle =>
          exact absurd
            (Instruction.rewrites_of_restarts hRestarts)
            (hIdle ix rfl)
      | acts config acted hConfig hAction hStep =>
          have hSame := Action.instruction.inj hAction
          subst hSame
          refine ⟨life', hAfter, ?_, ?_⟩
          · rw [hStep.sessionsInvalidatedAt_eq,
              if_pos hRestarts]
          · intro hCompletes
            exact hStep.dormant_of_completes hCompletes
  | _ =>
      exact absurd hEvent (by
        simp [Step.restarts, Step.completes, Step.activates])

/- No later step moves the invalidation back. -/
theorem invalidation_kept
    {w : World}
    {vowState : Pubkey}
    {life : Life}
    {since : Int}
    (hOwned : EscrowOwned w)
    (hLife : w.life vowState = some life)
    (hSince : since ≤ life.vow.sessionsInvalidatedAt.val)
    {steps : List Step}
    (hSteps :
      ∀ o ∈ w.trace steps, since ≤ o.action.time) :
    ∃ life',
      (w.run steps).life vowState = some life' ∧
        since ≤ life'.vow.sessionsInvalidatedAt.val := by
  refine (World.life_kept ?_ hOwned hLife hSince hSteps).2
  intro o config ix life life' _ _ _ hStep hLater hSince
  rw [hStep.sessionsInvalidatedAt_eq]
  split
  · exact hLater
  · exact hSince

theorem dormant_kept
    {w : World}
    {vowState : Pubkey}
    {life : Life}
    (hOwned : EscrowOwned w)
    (hLife : w.life vowState = some life)
    (hDormant : life.vow.activeStake = false)
    {steps : List Step}
    (hSteps :
      ∀ o ∈ w.trace steps,
        o.action.activates vowState = false) :
    ∃ life',
      (w.run steps).life vowState = some life' ∧
        life'.vow.activeStake = false := by
  refine World.life_until_activated ?_ hOwned hLife hDormant
    hSteps
  intro env config ix life life' hStep hKeeps hDormant
  exact hStep.dormant hKeeps hDormant

end Vow

------------------------------------------------------------
-- Start Of A Session
------------------------------------------------------------

namespace Vow

open MachineInt Fallible Transition

/- The slot holds a session that started at the given time. -/
def StartedAt
    (slot : Pubkey)
    (start : I64)
    (w : World) :
    Prop :=
  ∃ session,
    w.sessions.lookup slot = some session ∧
      session.startTs = start

theorem createSession_startedAt
    {env : Env}
    {w w' : World}
    {ix : CreateSession}
    (hOk : createSession env w ix = .ok w') :
    StartedAt (.session ix.vowState ix.sessionIndex)
      env.unixTimestamp w' := by
  rcases createSession_ok hOk with ⟨call, hEq⟩
  refine ⟨openedSession env ix call.vow call.limits, ?_, rfl⟩
  rw [hEq]
  exact AList.lookup_insert _

/- Only a close of the slot forgets the start. -/
theorem exec_startedAt
    {slot : Pubkey}
    {start : I64}
    {w w' : World}
    {step : Step}
    (hStarted : StartedAt slot start w)
    (hExec : step.exec w = some w')
    (hOpen : step.closesSession slot = false) :
    StartedAt slot start w' := by
  rcases hStarted with ⟨session, hFound, hStart⟩
  rcases exec_slot_open hExec hFound hOpen with
    ⟨session', hLookup, hSame⟩
  exact ⟨session', hLookup, hSame.startTs.trans hStart⟩

theorem startedAt_kept
    {slot : Pubkey}
    {start : I64}
    {w : World}
    (hStarted : StartedAt slot start w)
    {steps : List Step}
    (hOpen :
      ∀ o ∈ w.trace steps,
        o.action.closesSession slot = false) :
    StartedAt slot start (w.run steps) :=
  (trace_invariant
    (fun _ _ _ hHolds hExec hKeeps =>
      exec_startedAt hHolds hExec hKeeps)
    hStarted hOpen).2

/-
  A spend needs an active identity and a session that started
  no earlier than the last invalidation.
-/
theorem yieldSpend_live
    {env : Env}
    {w w' : World}
    {accounts : YieldSpend}
    {vowState : Pubkey}
    {sessionIndex : U32}
    {start : I64}
    (hOk : yieldSpend env w accounts = .ok w')
    (hSlot :
      accounts.sessionAccount =
        .session vowState sessionIndex)
    (hStarted :
      StartedAt (.session vowState sessionIndex) start w) :
    ∃ vow,
      w.vows.lookup vowState = some vow ∧
        vow.sessionsInvalidatedAt.val ≤ start.val ∧
        vow.activeStake = true := by
  rcases yieldSpend_eq_ok_iff.mp hOk with ⟨call, _⟩
  have hLookup := call.hLookup
  have hSession := call.hSession
  have hSeeds := call.hSeeds
  rcases checkSessionLive_ok_iff.mp call.hLive with
    ⟨_, _, _, hValid, hActive⟩
  rcases hStarted with ⟨found, hFound, hStart⟩
  rw [hSlot] at hSession hSeeds
  rw [hFound] at hSession
  rw [← Option.some.inj hSession, hStart, Signed.le_def]
    at hValid
  injection hSeeds with hIdentity _
  rw [← hIdentity] at hLookup
  exact ⟨call.vow, hLookup, hValid, hActive⟩

end Vow

------------------------------------------------------------
-- Invalidation Along A Run
------------------------------------------------------------

namespace Vow

open MachineInt Fallible Transition

/-
  A spend after a stake event needs a session that started
  no earlier, and an exit has to be undone before it.
-/
theorem spend_after_restart
    {w w' final : World}
    {step : Step}
    {steps : List Step}
    {env : Env}
    {accounts : YieldSpend}
    {vowState : Pubkey}
    {sessionIndex : U32}
    {start : I64}
    {life : Life}
    (hOwned : EscrowOwned w)
    (hLife : w.life vowState = some life)
    (hStarted :
      StartedAt (.session vowState sessionIndex) start w)
    (hExec : step.exec w = some w')
    (hEvent : step.restarts vowState = true)
    (hOpen :
      ∀ o ∈ w'.trace steps,
        o.action.closesSession
          (.session vowState sessionIndex) = false)
    (hLater : ∀ o ∈ w'.trace steps, step.time ≤ o.action.time)
    (hSpend :
      yieldSpend env (w'.run steps) accounts = .ok final)
    (hSlot :
      accounts.sessionAccount =
        .session vowState sessionIndex) :
    step.time ≤ start.val ∧
      (step.completes vowState = true →
        ∃ o ∈ w'.trace steps,
          o.action.activates vowState = true) := by
  have hOwned' := exec_escrowOwned hExec hOwned
  rcases exec_restarts hExec hLife hEvent with
    ⟨life', hLife', hStamp, hDormant⟩
  have hStarted' :=
    exec_startedAt hStarted hExec
      (Step.closesSession_of_restarts hEvent)
  rcases yieldSpend_live hSpend hSlot
      (startedAt_kept hStarted' hOpen) with
    ⟨vow, hLookup, hValid, hActive⟩
  have hFound := World.life_of_lookup hLookup
  refine ⟨?_, ?_⟩
  · have hSince :
        step.time ≤ life'.vow.sessionsInvalidatedAt.val := by
      rw [hStamp]
      exact le_refl _
    rcases invalidation_kept hOwned' hLife' hSince hLater
      with ⟨last, hLast, hKept⟩
    rw [hFound] at hLast
    rw [← Option.some.inj hLast] at hKept
    exact le_trans hKept hValid
  · intro hCompletes
    by_contra hNone
    have hQuiet :
        ∀ o ∈ w'.trace steps,
          o.action.activates vowState = false := by
      intro o ho
      by_contra hActs
      exact hNone ⟨o, ho, Bool.eq_true_of_not_eq_false hActs⟩
    rcases dormant_kept hOwned' hLife'
        (hDormant hCompletes) hQuiet with
      ⟨last, hLast, hIdle⟩
    rw [hFound] at hLast
    rw [← Option.some.inj hLast] at hIdle
    dsimp only at hIdle
    rw [hActive] at hIdle
    cases hIdle

/-
  A spend through a session after a stake event of its
  identity, both after its creation: the event carries the
  timestamp of the creation, and an exit is followed by an
  activation before the spend.
-/
theorem stake_event_invalidates
    {lamports : Lamports}
    {steps : List Step}
    {past before between future :
      List (Occurrence World Step)}
    {creation event spend : Occurrence World Step}
    {ix : CreateSession}
    {accounts : YieldSpend}
    (hClock : MonotoneClock steps)
    (hTrace :
      (World.genesis lamports).trace steps =
        past ++ creation :: (before ++ event ::
          (between ++ spend :: future)))
    (hCreate :
      creation.action.action =
        .instruction (.createSession ix))
    (hEvent : event.action.restarts ix.vowState = true)
    (hSpend :
      spend.action.action =
        .instruction (.yieldSpend accounts))
    (hSlot :
      accounts.sessionAccount =
        .session ix.vowState ix.sessionIndex)
    (hOpen :
      ∀ o ∈ before ++ between,
        o.action.closesSession
          (.session ix.vowState ix.sessionIndex) = false) :
    event.action.time = creation.action.time ∧
      (event.action.completes ix.vowState = true →
        ∃ o ∈ between,
          o.action.activates ix.vowState = true) := by
  rcases trace_split hTrace with
    ⟨first, second, _, _, hStart, hCreated, hAfter⟩
  rcases trace_split hAfter.symm with
    ⟨middle, _, _, hBefore, hReached, hTaken, hLater⟩
  rcases trace_split hLater.symm with
    ⟨last, _, _, hBetween, hFinal, hSpent, _⟩
  have hOk := Step.execute_of_exec hCreate hCreated
  have hOwned : EscrowOwned creation.after :=
    exec_escrowOwned hCreated
      (escrowOwned_reachable ⟨lamports, first, hStart⟩)
  have hStarted : StartedAt
      (.session ix.vowState ix.sessionIndex)
      creation.action.env.unixTimestamp event.before := by
    rw [hReached]
    refine startedAt_kept (createSession_startedAt hOk) ?_
    intro o ho
    exact hOpen o (List.mem_append_left _ (hBefore ▸ ho))
  -- The identity of the session exists from its creation on.
  have hLife :
      ∃ life,
        event.before.life ix.vowState = some life := by
    rcases createSession_ok hOk with ⟨call, hEq⟩
    have hLookup :
        creation.after.vows.lookup ix.vowState =
          some { call.vow with
            sessionNonce := call.sessionNonce } := by
      rw [hEq]
      exact AList.lookup_insert _
    rw [hReached]
    exact World.life_persists hOwned
      (World.life_of_lookup hLookup) middle
  rcases hLife with ⟨life, hLife⟩
  -- The clock orders the creation, the event and the rest.
  have hFirst : creation.action.time ≤ event.action.time :=
    trace_clock hClock hTrace event
      (List.mem_append_right _ List.mem_cons_self)
  have hRest :
      ∀ o ∈ event.after.trace last,
        event.action.time ≤ o.action.time := by
    intro o ho
    rw [← List.cons_append, ← List.append_assoc] at hTrace
    refine trace_clock hClock hTrace o ?_
    exact List.mem_append_left _ (hBetween ▸ ho)
  have hSpendOk := Step.execute_of_exec hSpend hSpent
  rw [hFinal] at hSpendOk
  rcases spend_after_restart
      (hReached ▸ (lifeOf ix.vowState).run_sound hOwned middle)
      hLife hStarted hTaken hEvent
      (fun o ho => hOpen o
        (List.mem_append_right _ (hBetween ▸ ho)))
      hRest hSpendOk hSlot with
    ⟨hStamp, hUndone⟩
  refine ⟨le_antisymm hStamp hFirst, ?_⟩
  rw [hBetween]
  exact hUndone

/- An exit is completed and undone within one second. -/
def rejoinStep
    (ix : Instruction) :
    Step :=
  sampleStep 2600000 2 ix

def rejoinSteps : List Step :=
  [rejoinStep (.createSession sampleSession),
    rejoinStep (.completeUnstake sampleOwner sampleVow),
    rejoinStep
      (.activateStake sampleOwner sampleVow 5000000000
        .treasury),
    rejoinStep (.depositYieldBalance otherOwner sampleVow 1000),
    rejoinStep (.yieldSpend (sampleSpend 100))]

/- The chain after the first of these steps. -/
def rejoinChain : Nat → World
| 0 => exitChain
| taken + 1 =>
    (rejoinChain taken).run (rejoinSteps[taken]?).toList

/- A step from one of these chains to the next. -/
def rejoinOccurrence
    (taken : Nat)
    (ix : Instruction) :
    Occurrence World Step :=
  ⟨rejoinChain taken, rejoinStep ix, rejoinChain (taken + 1)⟩

/- What happens between the exit and the spend. -/
def rejoinBetween : List (Occurrence World Step) :=
  [rejoinOccurrence 2
      (.activateStake sampleOwner sampleVow 5000000000
        .treasury),
    rejoinOccurrence 3
      (.depositYieldBalance otherOwner sampleVow 1000)]

def rejoinTaken : List (Occurrence World Step) :=
  rejoinOccurrence 0 (.createSession sampleSession) ::
    ([] ++ rejoinOccurrence 1
        (.completeUnstake sampleOwner sampleVow) ::
      (rejoinBetween ++ rejoinOccurrence 4
        (.yieldSpend (sampleSpend 100)) :: []))

theorem rejoinBetween_open :
    ∀ o ∈ [] ++ rejoinBetween,
      o.action.closesSession sampleSlot = false :=
  List.forall_mem_cons.mpr
    ⟨rfl, List.forall_mem_cons.mpr
      ⟨rfl, List.forall_mem_nil _⟩⟩

theorem rejoin_clock :
    MonotoneClock (exitSteps ++ rejoinSteps) := by
  decide

/- Every one of the steps succeeds. -/
theorem rejoin_trace :
    sampleChain.trace (exitSteps ++ rejoinSteps) =
      sampleChain.trace exitSteps ++ rejoinTaken := by
  have hCreate :
      (rejoinStep (.createSession sampleSession)).exec
          (rejoinChain 0) = some (rejoinChain 1) :=
    Step.exec_eq_run (by decide +kernel)
  have hComplete :
      (rejoinStep
          (.completeUnstake sampleOwner sampleVow)).exec
          (rejoinChain 1) = some (rejoinChain 2) :=
    Step.exec_eq_run (by decide +kernel)
  have hActivate :
      (rejoinStep
          (.activateStake sampleOwner sampleVow 5000000000
            .treasury)).exec
          (rejoinChain 2) = some (rejoinChain 3) :=
    Step.exec_eq_run (by decide +kernel)
  have hDeposit :
      (rejoinStep
          (.depositYieldBalance otherOwner sampleVow
            1000)).exec
          (rejoinChain 3) = some (rejoinChain 4) :=
    Step.exec_eq_run (by decide +kernel)
  have hSpend :
      (rejoinStep (.yieldSpend (sampleSpend 100))).exec
          (rejoinChain 4) = some (rejoinChain 5) :=
    Step.exec_eq_run (by decide +kernel)
  have hRejoin :
      trace Step.exec (rejoinChain 0) rejoinSteps =
        rejoinTaken := by
    unfold rejoinSteps
    rw [trace_cons_of_some hCreate,
      trace_cons_of_some hComplete,
      trace_cons_of_some hActivate,
      trace_cons_of_some hDeposit,
      trace_cons_of_some hSpend, trace_nil]
    rfl
  rw [← hRejoin]
  exact trace_append sampleChain exitSteps rejoinSteps

/-
  A session that is created in the unstaking window outlives
  the exit and the activation of the same second.
-/
theorem session_outlives_restart :
    ∃ (past before between future :
          List (Occurrence World Step))
        (creation event spend : Occurrence World Step),
      MonotoneClock (exitSteps ++ rejoinSteps) ∧
      sampleChain.trace (exitSteps ++ rejoinSteps) =
        past ++ creation :: (before ++ event ::
          (between ++ spend :: future)) ∧
      creation.action.action =
        .instruction (.createSession sampleSession) ∧
      event.action.action =
        .instruction
          (.completeUnstake sampleOwner sampleVow) ∧
      (∃ o ∈ between,
        o.action.activates sampleVow = true) ∧
      (∀ o ∈ before ++ between,
        o.action.closesSession sampleSlot = false) ∧
      spend.action.action =
        .instruction (.yieldSpend (sampleSpend 100)) := by
  refine ⟨sampleChain.trace exitSteps, [], rejoinBetween, [],
    _, _, _, rejoin_clock, rejoin_trace, rfl, rfl, ?_,
    rejoinBetween_open, rfl⟩
  exact ⟨_, List.mem_cons_self, rfl⟩

theorem stake_event_invalidates_rejoin :
    (rejoinStep
        (.completeUnstake sampleOwner sampleVow)).time =
      (rejoinStep (.createSession sampleSession)).time ∧
      ∃ o ∈ rejoinBetween,
        o.action.activates sampleVow = true := by
  have hBoth :=
    stake_event_invalidates rejoin_clock rejoin_trace
      (show _ = Action.instruction
        (.createSession sampleSession) from rfl)
      rfl rfl rfl rejoinBetween_open
  exact ⟨hBoth.1, hBoth.2 rfl⟩

end Vow
