import VowProtocol.Correctness.Identity
import VowProtocol.Library.SpendMeter

/-
  Spend limits over the life of a session, from its creation
  to its close.

  Key definitions include:
    * `SessionAccount.meter`
    * `SessionAccount.limits`
    * `spendsThrough`
    * `Metered`

  Key theorems include:
    * `resetDailyIfNeeded_meter`
    * `recordSpend_meter`
    * `exec_metered`
    * `session_limits_hold`
-/

------------------------------------------------------------
-- Sessions As Meters
------------------------------------------------------------

namespace Vow

open MachineInt Fallible SpendMeter

/- The running counters of a session. -/
def SessionAccount.meter
    (session : SessionAccount) :
    Meter Int where
  total := session.spentTotal.val
  spent := session.spentToday.val
  count := session.txCountToday.val
  window := session.lastResetDay.val

/- The limits of a session. -/
def SessionAccount.limits
    (session : SessionAccount) :
    Limits where
  lifetime := session.lifetimeLimit.val
  daily := session.dailyLimit.val
  velocity := session.velocityLimit.val

/- The UTC day of a timestamp. -/
def utcDay
    (timestamp : Int) :
    Int :=
  timestamp / 86400

theorem utcDay_mono
    {t t' : Int}
    (hLe : t ≤ t') :
    utcDay t ≤ utcDay t' :=
  Int.ediv_le_ediv (by decide) hLe

/- The program's day number is the UTC day from 1970 on. -/
theorem quot_eq_utcDay
    {now : I64}
    (hClock : 0 ≤ now.val) :
    (now.quot 86400).val = utcDay now.val := by
  rw [Signed.val_quot]
  exact Int.tdiv_eq_ediv_of_nonneg hClock

theorem resetDailyIfNeeded_meter
    {now : I64}
    (hClock : 0 ≤ now.val)
    (session : SessionAccount) :
    (resetDailyIfNeeded now session).meter =
      session.meter.roll (utcDay now.val) := by
  have hDay := quot_eq_utcDay hClock
  unfold resetDailyIfNeeded Meter.roll
  by_cases hNew : session.meter.window < utcDay now.val
  · have hLt : session.lastResetDay < now.quot 86400 := by
      rw [Signed.lt_def, hDay]
      exact hNew
    rw [if_pos hLt, if_pos hNew]
    simp [SessionAccount.meter, ← hDay]
  · have hNot : ¬session.lastResetDay < now.quot 86400 := by
      rw [Signed.lt_def, hDay]
      exact hNew
    rw [if_neg hNot, if_neg hNew]

theorem resetDailyIfNeeded_limits
    (now : I64)
    (session : SessionAccount) :
    (resetDailyIfNeeded now session).limits =
      session.limits := by
  unfold resetDailyIfNeeded
  dsimp only
  split <;> rfl

/-
  A spend that passes the limit checks and is recorded was
  admitted by the exact limits: the saturated sums of the
  checks are the sums that the counters then store.
-/
theorem recordSpend_meter
    {session spent : SessionAccount}
    {amount : U64}
    (hLimits : checkLimits session amount = .ok ())
    (hSpent : recordSpend session amount = .ok spent) :
    spent.meter = session.meter.record amount.val ∧
      spent.limits = session.limits ∧
      session.limits.Admits session.meter amount.val := by
  rcases recordSpend_ok hSpent with
    ⟨today, total, count, hToday, hTotal, hCount, hEq⟩
  rcases checkLimits_ok_iff.mp hLimits with
    ⟨hVelocity, hDaily, hLifetime⟩
  have hTodayMax := today.val_le_maxVal
  have hTotalMax := total.val_le_maxVal
  subst hEq
  refine ⟨?_, rfl, ?_, ?_, ?_⟩
  · simp only [SessionAccount.meter, Meter.record, hToday,
      hTotal, hCount]
  · intro hLimit
    have hChecked := hLifetime hLimit
    rw [Unsigned.le_def, Unsigned.val_saturatingAdd]
      at hChecked
    simp only [SessionAccount.meter, SessionAccount.limits]
    omega
  · intro hLimit
    have hChecked := hDaily hLimit
    rw [Unsigned.le_def, Unsigned.val_saturatingAdd]
      at hChecked
    simp only [SessionAccount.meter, SessionAccount.limits]
    omega
  · intro hLimit
    exact hVelocity hLimit

end Vow

------------------------------------------------------------
-- Histories Of A Slot
------------------------------------------------------------

namespace Vow

open MachineInt Fallible Transition SpendMeter

/- The time of a step. -/
def Step.time
    (step : Step) :
    Int :=
  step.env.unixTimestamp.val

/- The spend that a step makes through a session slot. -/
def spendThrough
    (slot : Pubkey)
    (o : Occurrence World Step) :
    Option (Spend Int) :=
  match o.action.action with
  | .instruction (.yieldSpend accounts) =>
      if accounts.sessionAccount = slot then
        some ⟨utcDay o.action.time, accounts.amount.val⟩
      else
        none
  | _ => none

/- All spends through a slot, by UTC day and amount. -/
def spendsThrough
    (slot : Pubkey)
    (history : List (Occurrence World Step)) :
    List (Spend Int) :=
  history.filterMap (spendThrough slot)

theorem spendsThrough_concat_of_none
    {slot : Pubkey}
    {o : Occurrence World Step}
    (hNone : spendThrough slot o = none)
    (history : List (Occurrence World Step)) :
    spendsThrough slot (history ++ [o]) =
      spendsThrough slot history := by
  simp [spendsThrough, hNone]

theorem spendsThrough_concat_of_some
    {slot : Pubkey}
    {o : Occurrence World Step}
    {spend : Spend Int}
    (hSome : spendThrough slot o = some spend)
    (history : List (Occurrence World Step)) :
    spendsThrough slot (history ++ [o]) =
      spendsThrough slot history ++ [spend] := by
  simp [spendsThrough, hSome]

/- Only an instruction on the slot spends through it. -/
theorem spendThrough_of_sessionSlot_ne
    {slot : Pubkey}
    {env : Env}
    {ix : Instruction}
    (hSlot : ix.sessionSlot ≠ some slot)
    (w w' : World) :
    spendThrough slot ⟨w, ⟨env, .instruction ix⟩, w'⟩ =
      none := by
  cases ix with
  | yieldSpend accounts =>
      have hNe : accounts.sessionAccount ≠ slot := by
        intro hEq
        exact hSlot (by rw [← hEq]; rfl)
      simp [spendThrough, hNe]
  | _ => rfl

/-
  The slot holds a session with these limits, its counters
  are exact for the spends so far, and those spends are
  within the limits.
-/
def Metered
    (slot : Pubkey)
    (limits : Limits)
    (history : List (Occurrence World Step))
    (w : World)
    (now : Int) :
    Prop :=
  0 ≤ now ∧
    ∃ session,
      w.sessions.lookup slot = some session ∧
      session.limits = limits ∧
      session.lastResetDay.val ≤ utcDay now ∧
      Tracks session.meter (spendsThrough slot history) ∧
      limits.Within (spendsThrough slot history)

theorem Metered.later
    {slot : Pubkey}
    {limits : Limits}
    {history : List (Occurrence World Step)}
    {w : World}
    {now later : Int}
    (hMetered : Metered slot limits history w now)
    (hLe : now ≤ later) :
    Metered slot limits history w later := by
  rcases hMetered with
    ⟨hClock, session, hFound, hLimits, hDay, hRest⟩
  exact ⟨le_trans hClock hLe, session, hFound, hLimits,
    le_trans hDay (utcDay_mono hLe), hRest⟩

/- A step that does not spend through the slot. -/
theorem Metered.quiet
    {slot : Pubkey}
    {limits : Limits}
    {history : List (Occurrence World Step)}
    {w w' : World}
    {step : Step}
    {now : Int}
    {session session' : SessionAccount}
    (hMetered : Metered slot limits history w now)
    (hFound : w.sessions.lookup slot = some session)
    (hFound' : w'.sessions.lookup slot = some session')
    (hMeter : session'.meter = session.meter)
    (hLimits : session'.limits = session.limits)
    (hNone : spendThrough slot ⟨w, step, w'⟩ = none) :
    Metered slot limits (history ++ [⟨w, step, w'⟩]) w'
      now := by
  rcases hMetered with
    ⟨hClock, found, hLookup, hSame, hDay, hTracks, hWithin⟩
  rw [hFound] at hLookup
  rw [← Option.some.inj hLookup] at hSame hDay hTracks
  have hWindow :
      session'.lastResetDay.val =
        session.lastResetDay.val :=
    congrArg Meter.window hMeter
  refine ⟨hClock, session', hFound', hLimits.trans hSame,
    ?_, ?_, ?_⟩
  · rw [hWindow]
    exact hDay
  · rw [spendsThrough_concat_of_none hNone, hMeter]
    exact hTracks
  · rw [spendsThrough_concat_of_none hNone]
    exact hWithin

/- A spend through the slot. -/
theorem Metered.spend
    {slot : Pubkey}
    {limits : Limits}
    {history : List (Occurrence World Step)}
    {w w' : World}
    {env : Env}
    {accounts : YieldSpend}
    {session spent : SessionAccount}
    (hMetered :
      Metered slot limits history w env.unixTimestamp.val)
    (hFound : w.sessions.lookup slot = some session)
    (hFound' : w'.sessions.lookup slot = some spent)
    (hSlot : accounts.sessionAccount = slot)
    (hLimits :
      checkLimits
        (resetDailyIfNeeded env.unixTimestamp session)
        accounts.amount = .ok ())
    (hSpent :
      recordSpend
        (resetDailyIfNeeded env.unixTimestamp session)
        accounts.amount = .ok spent) :
    Metered slot limits
      (history ++
        [⟨w, ⟨env, .instruction (.yieldSpend accounts)⟩,
          w'⟩]) w' env.unixTimestamp.val := by
  rcases hMetered with
    ⟨hClock, found, hLookup, hSame, hDay, hTracks, hWithin⟩
  rw [hFound] at hLookup
  rw [← Option.some.inj hLookup] at hSame hDay hTracks
  rcases recordSpend_meter hLimits hSpent with
    ⟨hMeter, hKept, hAdmits⟩
  rw [resetDailyIfNeeded_limits, hSame] at hKept hAdmits
  rw [resetDailyIfNeeded_meter hClock] at hMeter hAdmits
  -- The window of the rolled meter is the day of the spend.
  have hToday :
      (session.meter.roll
        (utcDay env.unixTimestamp.val)).window =
        utcDay env.unixTimestamp.val :=
    Meter.roll_window hDay
  have hRolled :=
    hTracks.roll (utcDay env.unixTimestamp.val)
  have hHistory :
      spendsThrough slot (history ++
          [⟨w, ⟨env, .instruction (.yieldSpend accounts)⟩,
            w'⟩]) =
        spendsThrough slot history ++
          [⟨(session.meter.roll
              (utcDay env.unixTimestamp.val)).window,
            accounts.amount.val⟩] := by
    apply spendsThrough_concat_of_some
    rw [hToday]
    simp [spendThrough, hSlot, Step.time]
  refine ⟨hClock, spent, hFound', hKept, ?_, ?_, ?_⟩
  · change spent.meter.window ≤ _
    rw [hMeter]
    exact le_of_eq hToday
  · rw [hHistory, hMeter]
    exact hRolled.record accounts.amount.val
  · rw [hHistory]
    exact hWithin.record hRolled hAdmits

/-
  Every step but a close of the slot keeps the session
  metered.
-/
theorem exec_metered
    {slot : Pubkey}
    {limits : Limits}
    {history : List (Occurrence World Step)}
    {w w' : World}
    {step : Step}
    (hMetered : Metered slot limits history w step.time)
    (hExec : step.exec w = some w')
    (hOpen : step.closesSession slot = false) :
    Metered slot limits (history ++ [⟨w, step, w'⟩]) w'
      step.time := by
  have hCopy := hMetered
  rcases hCopy with ⟨_, session, hFound, _⟩
  rcases step with ⟨env, action⟩
  cases action with
  | instruction ix =>
      have hOk := Step.exec_instruction_iff.mp hExec
      cases execute_slot hOk hFound with
      | kept hSlot hLookup =>
          exact hMetered.quiet hFound hLookup rfl rfl
            (spendThrough_of_sessionSlot_ne hSlot w w')
      | revoked owner vowState hIx hLookup =>
          subst hIx
          exact hMetered.quiet hFound hLookup rfl rfl rfl
      | closed owner vowState hIx hLookup =>
          subst hIx
          exact absurd hOpen (by simp [Step.closesSession])
      | spent accounts spent hIx hSlot hLimits hSpent
          hLookup =>
          subst hIx
          exact hMetered.spend hFound hLookup hSlot hLimits
            hSpent
  | _ =>
      rw [← Option.some.inj hExec]
      exact hMetered.quiet hFound hFound rfl rfl rfl

/- A creation starts the meter. -/
theorem createSession_metered
    {env : Env}
    {w w' : World}
    {ix : CreateSession}
    {session : SessionAccount}
    (hClock : 0 ≤ env.unixTimestamp.val)
    (hOk : createSession env w ix = .ok w')
    (hFound :
      w'.sessions.lookup
        (.session ix.vowState ix.sessionIndex) =
          some session) :
    Metered (.session ix.vowState ix.sessionIndex)
      session.limits [] w' env.unixTimestamp.val := by
  rcases createSession_ok hOk with ⟨call, hEq⟩
  rw [hEq, AList.lookup_insert] at hFound
  rw [← Option.some.inj hFound]
  refine ⟨hClock, _, ?_, rfl, ?_, ?_, ?_⟩
  · rw [hEq]
    exact AList.lookup_insert _
  · dsimp only [openedSession]
    rw [quot_eq_utcDay hClock]
  · exact tracks_nil Unsigned.val_zero Unsigned.val_zero
      Unsigned.val_zero
  · exact Limits.within_nil _

/-
  The limits of a session hold for its whole life. After a
  creation and any run that does not close the session again,
  the total is the sum of all spends through it, that sum is
  within the lifetime limit, and the sum and the number of
  the spends of each UTC day are within the daily and the
  velocity limit that the creation set.
-/
theorem session_limits_hold
    {env : Env}
    {w w' : World}
    {ix : CreateSession}
    {created : SessionAccount}
    {steps : List Step}
    (hOk : execute env w (.createSession ix) = .ok w')
    (hCreated :
      w'.sessions.lookup
        (.session ix.vowState ix.sessionIndex) =
          some created)
    (hStart : 0 ≤ env.unixTimestamp.val)
    (hClock :
      MonotoneClock
        (⟨env, .instruction (.createSession ix)⟩ :: steps))
    (hOpen :
      ∀ o ∈ w'.trace steps,
        o.action.closesSession
          (.session ix.vowState ix.sessionIndex) = false) :
    ∃ session,
      (w'.run steps).sessions.lookup
        (.session ix.vowState ix.sessionIndex) =
          some session ∧
      session.limits = created.limits ∧
      session.spentTotal.val =
        spentTotal (spendsThrough
          (.session ix.vowState ix.sessionIndex)
          (w'.trace steps)) ∧
      (0 < session.lifetimeLimit.val →
        spentTotal (spendsThrough
          (.session ix.vowState ix.sessionIndex)
          (w'.trace steps)) ≤ session.lifetimeLimit.val) ∧
      ∀ day,
        (0 < session.dailyLimit.val →
          spentIn day (spendsThrough
            (.session ix.vowState ix.sessionIndex)
            (w'.trace steps)) ≤ session.dailyLimit.val) ∧
        (0 < session.velocityLimit.val →
          countIn day (spendsThrough
            (.session ix.vowState ix.sessionIndex)
            (w'.trace steps)) ≤
              session.velocityLimit.val) := by
  have hInit := createSession_metered hStart hOk hCreated
  rw [MonotoneClock, List.pairwise_cons] at hClock
  rcases trace_clocked_invariant Step.time
    (fun _ _ _ _ hMetered hLe => hMetered.later hLe)
    (fun _ _ _ _ hMetered hExec hStep =>
      exec_metered hMetered hExec hStep)
    hInit hClock.1 hClock.2 hOpen with
    ⟨_, _, _, session, hFound, hLimits, _, hTracks,
      hWithin⟩
  rw [List.nil_append] at hTracks hWithin
  rw [← hLimits] at hWithin
  refine ⟨session, hFound, hLimits, hTracks.total,
    hWithin.lifetime, ?_⟩
  intro day
  exact ⟨hWithin.daily day, hWithin.velocity day⟩

/- A session of the first identity, in its first slot. -/
def sampleSession : CreateSession where
  vowState := sampleVow
  authorityProfile := none
  owner := sampleOwner
  sessionKey := .key 9
  allowedProgramIds := []
  params := {
    expiryTs := 0
    dailyLimit := 300
    lifetimeLimit := 700
    velocityLimit := 2 }
  sessionIndex := 0

def sampleSlot : Pubkey := .session sampleVow 0

/- An identity with a thousand lamports of yield. -/
def yieldSteps : List Step :=
  [sampleInit,
    sampleStep 0 0
      (.mintVow sampleOwner 1000000000 .treasury),
    sampleStep 0 0
      (.depositYieldBalance otherOwner sampleVow 1000)]

def yieldChain : World :=
  sampleChain.run yieldSteps

/- The same with an open session. -/
def sessionChain : World :=
  yieldChain.run [sampleStep 50 0 (.createSession sampleSession)]

def sampleSpend
    (amount : U64) :
    YieldSpend where
  vowState := sampleVow
  sessionAccount := sampleSlot
  callingProgram := .key 20
  executable := true
  appRegistry := none
  destination := .key 21
  sessionSigner := ⟨9⟩
  amount := amount

/- Two spends on the first day, a refused one, one later. -/
def spendSteps : List Step :=
  [sampleStep 60 0 (.yieldSpend (sampleSpend 100)),
    sampleStep 70 0 (.yieldSpend (sampleSpend 150)),
    sampleStep 80 0 (.yieldSpend (sampleSpend 10)),
    sampleStep 86400 0 (.yieldSpend (sampleSpend 300))]

theorem spendSteps_keep_open
    (w : World) :
    ∀ o ∈ w.trace spendSteps,
      o.action.closesSession sampleSlot = false := by
  have hSteps :
      ∀ step ∈ spendSteps,
        step.closesSession sampleSlot = false := by
    decide
  intro o ho
  exact hSteps _ (mem_trace_action ho)

theorem session_limits_hold_sample :
    ∃ session,
      (sessionChain.run spendSteps).sessions.lookup
        sampleSlot = some session ∧
      session.spentTotal.val =
        spentTotal (spendsThrough sampleSlot
          (sessionChain.trace spendSteps)) ∧
      spentIn 0 (spendsThrough sampleSlot
        (sessionChain.trace spendSteps)) ≤ 300 := by
  have hOk :
      execute (sampleEnv 50 0) yieldChain
          (.createSession sampleSession) =
        .ok (yieldChain.run
          [sampleStep 50 0 (.createSession sampleSession)]) :=
    execute_eq_run (by decide +kernel)
  have hLimit :
      (sessionChain.sessions.lookup sampleSlot).map
        (fun session => session.dailyLimit.val) =
          some 300 := by
    decide +kernel
  rcases Option.map_eq_some_iff.mp hLimit with
    ⟨created, hCreated, hLimit⟩
  rcases session_limits_hold hOk hCreated (by decide)
      (by decide) (spendSteps_keep_open sessionChain) with
    ⟨session, hFound, hLimits, hTotal, _, hDays⟩
  have hSame : session.dailyLimit.val = 300 :=
    (congrArg Limits.daily hLimits).trans hLimit
  refine ⟨session, hFound, hTotal, ?_⟩
  rw [← hSame]
  exact (hDays 0).1 (by omega)

end Vow
