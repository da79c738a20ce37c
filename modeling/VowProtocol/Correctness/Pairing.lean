import VowProtocol.Correctness.SessionNonces
import VowProtocol.Library.Slot

/-
  Accounts that one instruction opens and another one closes.

  The escrow of an exit and the account of a session are
  places for one message each. Whatever runs in between, the
  n-th completion of an identity pays the debt of its n-th
  exit, in a later epoch and to the same wallet, and the n-th
  close of a session account ends the n-th session that was
  opened there, on the terms it was opened with.

  Key definitions include:
    * `ExitBegun`
    * `ExitPaid`
    * `exitSlot`
    * `SessionAccount.terms`
    * `sessionSlot`

  Key theorems include:
    * `exits_paired`
    * `sessions_paired`
-/

------------------------------------------------------------
-- Exits
------------------------------------------------------------

namespace Vow

open MachineInt Fallible Transition

/- Does the step begin, or complete, the exit? -/
def Step.beginsExit
    (vowState : Pubkey)
    (step : Step) :
    Bool :=
  match step.action with
  | .instruction (.beginUnstake _ identity) =>
      identity = vowState
  | _ => false

def Step.completesExitOf
    (vowState : Pubkey)
    (step : Step) :
    Bool :=
  match step.action with
  | .instruction (.completeUnstake _ identity) =>
      identity = vowState
  | _ => false

/-
  The step is signed by the owner of the identity and writes
  an escrow for the owner, dated with the epoch, that owes the
  position at the price of the config, cast to 64 bits, and
  the yield balance.
-/
def ExitBegun
    (vowState : Pubkey)
    (o : Occurrence World Step)
    (escrow : UnstakeEscrow) :
    Prop :=
  ∃ owner config vow,
    o.action.action =
        .instruction (.beginUnstake owner vowState) ∧
      o.before.config = some config ∧
      o.before.vows.lookup vowState = some vow ∧
      vow.owner = owner.key ∧
      escrow.vowState = vowState ∧
      escrow.owner = owner.key ∧
      escrow.deactivationEpoch = o.action.env.epoch ∧
      escrow.lamportsOwed.val =
        valueAt vow.shares.val
          config.currentSharePrice.val % 2 ^ 64 +
            vow.yieldBalance.val

/-
  The step is signed by the wallet of the escrow, in a later
  epoch. The reserve pays this wallet, at most what the escrow
  owes, and the wallet gets the rent of the escrow.
-/
def ExitPaid
    (vowState : Pubkey)
    (o : Occurrence World Step)
    (escrow : UnstakeEscrow) :
    Prop :=
  ∃ owner paid,
    o.action.action =
        .instruction (.completeUnstake owner vowState) ∧
      escrow.owner = owner.key ∧
      escrow.deactivationEpoch < o.action.env.epoch ∧
      0 < paid ∧
      paid ≤ escrow.lamportsOwed.val ∧
      o.before.reserve = o.after.reserve + paid ∧
      o.after.lamports owner.key =
        o.before.lamports owner.key + paid +
          o.before.lamports (.unstake vowState)

theorem exec_exit_kept
    {vowState : Pubkey}
    {w w' : World}
    {step : Step}
    (hExec : step.exec w = some w')
    (hBegins : step.beginsExit vowState = false)
    (hCompletes : step.completesExitOf vowState = false) :
    w'.escrows.lookup (.unstake vowState) =
      w.escrows.lookup (.unstake vowState) := by
  rcases step with ⟨env, action⟩
  cases action with
  | instruction ix =>
      have hOk := Step.exec_instruction_iff.mp hExec
      apply (execute_effect hOk).escrows
      intro hSlot
      rcases escrowSlot_eq_unstake hSlot with
        ⟨owner, hIx⟩ | ⟨owner, hIx⟩
      · subst hIx
        exact absurd hBegins (by simp [Step.beginsExit])
      · subst hIx
        exact absurd hCompletes
          (by simp [Step.completesExitOf])
  | _ =>
      rw [← Option.some.inj hExec]

theorem exec_exit_begun
    {vowState : Pubkey}
    {w w' : World}
    {step : Step}
    (hExec : step.exec w = some w')
    (hBegins : step.beginsExit vowState = true) :
    w.escrows.lookup (.unstake vowState) = none ∧
      ∃ escrow,
        w'.escrows.lookup (.unstake vowState) =
            some escrow ∧
          ExitBegun vowState ⟨w, step, w'⟩ escrow := by
  rcases step with ⟨env, action⟩
  unfold Step.beginsExit at hBegins
  split at hBegins
  · rename_i owner identity hAction
    rw [decide_eq_true_eq] at hBegins
    cases hAction
    subst hBegins
    rcases beginUnstake_ok
        (Step.exec_instruction_iff.mp hExec) with ⟨call, hEq⟩
    have hEscrow :
        w'.escrows.lookup (.unstake identity) =
          some ⟨identity, owner.key, call.lamportsOwed,
            env.epoch⟩ := by
      rw [hEq, AccountMap.lookup_insert_eq, if_pos rfl]
    exact ⟨call.hFresh, _, hEscrow, owner, call.config,
      call.vow, rfl, call.hConfig, call.hLookup, call.hOwner,
      rfl, rfl, rfl, call.hOwed⟩
  · exact absurd hBegins (by simp)

theorem exec_exit_paid
    {vowState : Pubkey}
    {w w' : World}
    {step : Step}
    (hExec : step.exec w = some w')
    (hCompletes : step.completesExitOf vowState = true) :
    w'.escrows.lookup (.unstake vowState) = none ∧
      ∃ escrow,
        w.escrows.lookup (.unstake vowState) =
            some escrow ∧
          ExitPaid vowState ⟨w, step, w'⟩ escrow := by
  rcases step with ⟨env, action⟩
  unfold Step.completesExitOf at hCompletes
  split at hCompletes
  · rename_i owner identity hAction
    rw [decide_eq_true_eq] at hCompletes
    cases hAction
    subst hCompletes
    rcases completeUnstake_eq_ok_iff.mp
        (Step.exec_instruction_iff.mp hExec) with ⟨call, hEq⟩
    have hAtMost :
        (payAmount call.escrow.lamportsOwed w.reserve
          call.config.totalPendingUnstake).val ≤
            call.escrow.lamportsOwed.val := by
      rw [payAmount_val]
      exact ProRata.share_le_claim _ _ _
    have hClosed :
        w'.escrows.lookup (.unstake identity) = none := by
      rw [hEq, AccountMap.lookup_erase_eq, if_pos rfl]
    have hReserve := completed_reserve identity call.hTransfer
    have hBalance := completed_balance identity call.hTransfer
    have hLamports :
        w'.lamports =
          closeAccount (.unstake identity) owner.key
            call.lamports := by
      rw [hEq]
    rw [← hLamports] at hReserve hBalance
    exact ⟨hClosed, call.escrow, call.hEscrow, owner, _, rfl,
      call.hPayee, call.hEpoch, call.hPay, hAtMost, hReserve,
      hBalance⟩
  · exact absurd hCompletes (by simp)

/- The escrow account of an identity. -/
def exitSlot
    (vowState : Pubkey) :
    Slot Step.exec UnstakeEscrow where
  view w := w.escrows.lookup (.unstake vowState)
  puts := Step.beginsExit vowState
  takes := Step.completesExitOf vowState
  Put := ExitBegun vowState
  Take := ExitPaid vowState
  kept _ _ _ hExec hBegins hCompletes :=
    exec_exit_kept hExec hBegins hCompletes
  filled _ _ _ hExec hBegins := exec_exit_begun hExec hBegins
  emptied _ _ _ hExec hCompletes :=
    exec_exit_paid hExec hCompletes

/-
  Over every run the completions of an identity settle its
  exits one by one and in order. At most one exit is open,
  and its escrow is still what its beginning wrote.
-/
theorem exits_paired
    (lamports : Lamports)
    (steps : List Step)
    (vowState : Pubkey) :
    (exitSlot vowState).Paired
      ((World.genesis lamports).trace steps)
      ((World.genesis lamports).run steps) := by
  apply Slot.trace_paired
  simp [exitSlot, World.genesis]

end Vow

------------------------------------------------------------
-- Sessions
------------------------------------------------------------

namespace Vow

open MachineInt Fallible Transition

/- A session without what spending and revoking change. -/
def SessionAccount.terms
    (session : SessionAccount) :
    SessionAccount :=
  { session with
    spentToday := 0
    spentTotal := 0
    txCountToday := 0
    lastResetDay := 0
    active := true }

def Step.opensSession
    (slot : Pubkey)
    (step : Step) :
    Bool :=
  match step.action with
  | .instruction (.createSession ix) =>
      Pubkey.session ix.vowState ix.sessionIndex = slot
  | _ => false

/-
  The step is signed by the owner of the identity, whose stake
  is active, and the terms are those of its arguments, within
  the limits that were resolved, at the next nonce.
-/
def SessionOpened
    (slot : Pubkey)
    (o : Occurrence World Step)
    (terms : SessionAccount) :
    Prop :=
  ∃ ix vow limits profile,
    o.action.action = .instruction (.createSession ix) ∧
      slot = .session ix.vowState ix.sessionIndex ∧
      o.before.vows.lookup ix.vowState = some vow ∧
      vow.owner = ix.owner.key ∧
      vow.activeStake = true ∧
      loadProfile o.before ix.authorityProfile =
        .ok profile ∧
      sessionLimits o.action.env ix.owner profile
        ix.params = .ok limits ∧
      terms =
        (openedSession o.action.env ix vow limits).terms

/-
  The step is signed by the owner of the identity, when the
  session may be closed, and the owner gets its rent.
-/
def SessionClosed
    (slot : Pubkey)
    (o : Occurrence World Step)
    (terms : SessionAccount) :
    Prop :=
  ∃ owner vow session,
    o.action.action =
        .instruction (.closeSession owner terms.vowState
          slot) ∧
      o.before.vows.lookup terms.vowState = some vow ∧
      vow.owner = owner.key ∧
      o.before.sessions.lookup slot = some session ∧
      session.terms = terms ∧
      closeEligible o.action.env.unixTimestamp vow
        session = true ∧
      o.after.lamports owner.key =
        o.before.lamports owner.key + o.before.lamports slot

/- Spends and revocations keep the terms. -/
theorem exec_session_kept
    {slot : Pubkey}
    {w w' : World}
    {step : Step}
    (hExec : step.exec w = some w')
    (hOpens : step.opensSession slot = false)
    (hCloses : step.closesSession slot = false) :
    (w'.sessions.lookup slot).map SessionAccount.terms =
      (w.sessions.lookup slot).map SessionAccount.terms := by
  cases hBefore : w.sessions.lookup slot with
  | some session =>
      have hKept :=
        exec_slot_rel
          (R := fun before after => after.terms = before.terms)
          (fun _ => rfl) (fun _ => rfl)
          (by
            intro now before amount spent hSpent
            rcases recordSpend_counters hSpent with
              ⟨counters, hSpentEq⟩
            rw [hSpentEq]
            rfl)
          hExec hBefore hCloses
      rcases hKept with ⟨session', hAfter, hTerms⟩
      rw [hAfter, Option.map_some, Option.map_some, hTerms]
  | none =>
      cases hAfter : w'.sessions.lookup slot with
      | none => rfl
      | some session' =>
          cases exec_sessionOrigin hExec hAfter with
          | opened ix vow limits nonce hAction hSlot =>
              refine absurd hOpens ?_
              simp [Step.opensSession, hAction, hSlot]
          | kept hLookup =>
              rw [hBefore] at hLookup
              exact absurd hLookup (by simp)
          | revoked old hLookup =>
              rw [hBefore] at hLookup
              exact absurd hLookup (by simp)
          | spent old now amount hLookup =>
              rw [hBefore] at hLookup
              exact absurd hLookup (by simp)

theorem exec_session_opened
    {slot : Pubkey}
    {w w' : World}
    {step : Step}
    (hExec : step.exec w = some w')
    (hOpens : step.opensSession slot = true) :
    (w.sessions.lookup slot).map SessionAccount.terms =
        none ∧
      ∃ terms,
        (w'.sessions.lookup slot).map SessionAccount.terms =
            some terms ∧
          SessionOpened slot ⟨w, step, w'⟩ terms := by
  rcases step with ⟨env, action⟩
  unfold Step.opensSession at hOpens
  split at hOpens
  · rename_i ix hAction
    rw [decide_eq_true_eq] at hOpens
    cases hAction
    rcases createSession_ok
        (Step.exec_instruction_iff.mp hExec) with ⟨call, hEq⟩
    have hAfter :
        w'.sessions.lookup
            (.session ix.vowState ix.sessionIndex) =
          some (openedSession env ix call.vow call.limits) := by
      rw [hEq, AccountMap.lookup_insert_eq, if_pos rfl]
    subst hOpens
    rw [call.hFresh, hAfter]
    exact ⟨rfl, _, rfl, ix, call.vow, call.limits, call.profile,
      rfl, rfl, call.hLookup, call.hOwner, call.hActive,
      call.hProfile, call.hLimits, rfl⟩
  · exact absurd hOpens (by simp)

theorem exec_session_closed
    {slot : Pubkey}
    {w w' : World}
    {step : Step}
    (hExec : step.exec w = some w')
    (hCloses : step.closesSession slot = true) :
    (w'.sessions.lookup slot).map SessionAccount.terms =
        none ∧
      ∃ terms,
        (w.sessions.lookup slot).map SessionAccount.terms =
            some terms ∧
          SessionClosed slot ⟨w, step, w'⟩ terms := by
  rcases step with ⟨env, action⟩
  unfold Step.closesSession at hCloses
  split at hCloses
  · rename_i owner vowState sessionAccount hAction
    rw [decide_eq_true_eq] at hCloses
    cases hAction
    subst hCloses
    rcases closeSession_ok
        (Step.exec_instruction_iff.mp hExec) with
      ⟨⟨⟨vow, session, hLookup, hOwner, hFound, hSeeds,
        hVow⟩, hEligible⟩, hEq⟩
    have hRefund := (closeAccount_returns
      (show owner.key ≠ sessionAccount by
        simp [hSeeds, Signer.key])
      w.lamports).2
    subst hEq hVow
    rw [AccountMap.lookup_erase_eq, if_pos rfl, hFound]
    exact ⟨rfl, session.terms, rfl, owner, vow, session, rfl,
      hLookup, hOwner, hFound, rfl, hEligible, hRefund⟩
  · exact absurd hCloses (by simp)

/- An account for sessions. -/
def sessionSlot
    (slot : Pubkey) :
    Slot Step.exec SessionAccount where
  view w := (w.sessions.lookup slot).map SessionAccount.terms
  puts := Step.opensSession slot
  takes := Step.closesSession slot
  Put := SessionOpened slot
  Take := SessionClosed slot
  kept _ _ _ hExec hOpens hCloses :=
    exec_session_kept hExec hOpens hCloses
  filled _ _ _ hExec hOpens := exec_session_opened hExec hOpens
  emptied _ _ _ hExec hCloses :=
    exec_session_closed hExec hCloses

/-
  Over every run the closes of a session account end its
  sessions one by one and in order, each on the terms of its
  own creation, and at most one session is open there.
-/
theorem sessions_paired
    (lamports : Lamports)
    (steps : List Step)
    (slot : Pubkey) :
    (sessionSlot slot).Paired
      ((World.genesis lamports).trace steps)
      ((World.genesis lamports).run steps) := by
  apply Slot.trace_paired
  simp [sessionSlot, World.genesis]

end Vow
