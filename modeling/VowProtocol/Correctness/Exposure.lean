import VowProtocol.Correctness.Consent
import Mathlib.Algebra.BigOperators.Ring.Finset

/-
  What an owner's sessions can cost.

  A session may spend up to its lifetime limit, and an
  identity may have any number of sessions. Over every run,
  all that is spent through them, together with what they may
  still spend, is at most what they could spend before, plus
  the limits of the sessions opened since, and only the owner
  opens them. A revoked session adds nothing; a session
  without a limit makes the bound infinite.

  Key definitions include:
    * `SessionAccount.allowance`
    * `World.allowance`
    * `grantedBy`

  Key theorems include:
    * `execute_allowance`
    * `spends_within_grants`
-/

------------------------------------------------------------
-- Allowances
------------------------------------------------------------

namespace Vow

open MachineInt Fallible Transition SpendMeter

/- What the session may still spend of the identity. -/
def SessionAccount.allowance
    (vowState : Pubkey)
    (session : SessionAccount) :
    ℕ∞ :=
  if session.vowState = vowState ∧ session.active = true then
    session.limits.left session.meter
  else 0

/- What all sessions may still spend of the identity. -/
def World.allowance
    (w : World)
    (vowState : Pubkey) :
    ℕ∞ :=
  AccountMap.total (SessionAccount.allowance vowState)
    w.sessions

/- The lifetime limit under which a session is opened. -/
def lifetimeGrant
    (env : Env)
    (w : World)
    (ix : CreateSession) :
    ℕ∞ :=
  match
    (do
      let profile ← loadProfile w ix.authorityProfile
      sessionLimits env ix.owner profile ix.params) with
  | .ok limits =>
      if limits.lifetimeLimit.val = 0 then ⊤
      else (limits.lifetimeLimit.val : ℕ∞)
  | .error _ => 0

/- What a step adds to the allowance of an identity. -/
def grantedBy
    (vowState : Pubkey)
    (o : Occurrence World Step) :
    ℕ∞ :=
  match o.action.action with
  | .instruction (.createSession ix) =>
      if ix.vowState = vowState then
        lifetimeGrant o.action.env o.before ix
      else 0
  | _ => 0

/- A new session may spend its lifetime limit. -/
theorem openedSession_allowance
    {env : Env}
    {w : World}
    {ix : CreateSession}
    {profile : Option AuthorityProfile}
    {limits : SessionParams}
    (hProfile :
      loadProfile w ix.authorityProfile = .ok profile)
    (hLimits :
      sessionLimits env ix.owner profile ix.params =
        .ok limits)
    (vowState : Pubkey)
    (vow : VowState)
    (w' : World) :
    (openedSession env ix vow limits).allowance vowState =
      grantedBy vowState
        ⟨w, ⟨env, .instruction (.createSession ix)⟩, w'⟩ := by
  have hGrant :
      lifetimeGrant env w ix =
        if limits.lifetimeLimit.val = 0 then ⊤
        else (limits.lifetimeLimit.val : ℕ∞) := by
    have hBound :
        (do
          let profile ← loadProfile w ix.authorityProfile
          sessionLimits env ix.owner profile ix.params) =
          .ok limits :=
      bind_eq_ok_iff.mpr ⟨profile, hProfile, hLimits⟩
    unfold lifetimeGrant
    rw [hBound]
  unfold grantedBy SessionAccount.allowance
  dsimp only
  rw [hGrant]
  simp [openedSession, Limits.left, SessionAccount.limits,
    SessionAccount.meter]

/- A spend comes out of the allowance of its session. -/
theorem recordSpend_allowance
    {now : I64}
    {session spent : SessionAccount}
    {amount : U64}
    (hActive : session.active = true)
    (hLimits :
      checkLimits (resetDailyIfNeeded now session) amount =
        .ok ())
    (hSpent :
      recordSpend (resetDailyIfNeeded now session) amount =
        .ok spent)
    (vowState : Pubkey) :
    ((if session.vowState = vowState then amount.val else 0 :
        Nat) : ℕ∞) + spent.allowance vowState ≤
      session.allowance vowState := by
  rcases recordSpend_meter hLimits hSpent with
    ⟨hMeter, hSame, hAdmits⟩
  -- A new day leaves the total as it was.
  have hTotal :
      (resetDailyIfNeeded now session).meter.total =
        session.meter.total := by
    unfold resetDailyIfNeeded
    dsimp only
    split <;> rfl
  have hLeft :
      session.limits.left
          (resetDailyIfNeeded now session).meter =
        session.limits.left session.meter := by
    unfold Limits.left
    rw [hTotal]
  have hVow : spent.vowState = session.vowState := by
    rcases recordSpend_counters hSpent with ⟨counters, hEq⟩
    rw [hEq]
  have hStill : spent.active = session.active := by
    rcases recordSpend_counters hSpent with ⟨counters, hEq⟩
    rw [hEq]
  have hRecord := hAdmits.left_record
  rw [← hMeter, resetDailyIfNeeded_limits, hLeft] at hRecord
  rw [resetDailyIfNeeded_limits] at hSame
  unfold SessionAccount.allowance
  rw [hVow, hStill, hSame]
  by_cases hHere : session.vowState = vowState
  · rw [if_pos hHere, if_pos ⟨hHere, hActive⟩,
      if_pos ⟨hHere, hActive⟩]
    exact hRecord
  · have hOther :
        ¬(session.vowState = vowState ∧
          session.active = true) :=
      fun h => hHere h.1
    rw [if_neg hHere, if_neg hOther, if_neg hOther]
    exact le_of_eq (zero_add 0)

end Vow

------------------------------------------------------------
-- Steps
------------------------------------------------------------

namespace Vow

open MachineInt Fallible Transition SpendMeter

/-
  Spends come out of the allowance, openings add to it, and
  nothing else raises it.
-/
theorem execute_allowance
    {env : Env}
    {w w' : World}
    {ix : Instruction}
    (hOk : execute env w ix = .ok w')
    (vowState : Pubkey) :
    (spentFrom vowState
          ⟨w, ⟨env, .instruction ix⟩, w'⟩ : ℕ∞) +
        w'.allowance vowState ≤
      w.allowance vowState +
        grantedBy vowState
          ⟨w, ⟨env, .instruction ix⟩, w'⟩ := by
  cases ix with
  | createSession accounts =>
      rcases createSession_ok hOk with ⟨call, hEq⟩
      have hSessions :
          w'.allowance vowState =
            w.allowance vowState +
              (openedSession env accounts call.vow
                call.limits).allowance vowState := by
        unfold World.allowance
        rw [hEq]
        exact AccountMap.total_insert_of_lookup_none
          call.hFresh _
      rw [hSessions,
        openedSession_allowance call.hProfile call.hLimits
          vowState call.vow w']
      simp [spentFrom]
  | revokeSession owner identity slot =>
      rcases revokeSession_ok hOk with ⟨call, hEq⟩
      have hRevoked :
          0 + SessionAccount.allowance vowState
              { call.session with active := false } ≤
            call.session.allowance vowState := by
        simp [SessionAccount.allowance]
      have hLess : w'.allowance vowState ≤
          w.allowance vowState := by
        have hTotal :=
          AccountMap.total_insert_add_le call.hSession hRevoked
        unfold World.allowance
        rw [hEq]
        rwa [zero_add] at hTotal
      simpa [spentFrom, grantedBy] using hLess
  | closeSession owner identity slot =>
      rcases closeSession_ok hOk with ⟨call, hEq⟩
      have hLess : w'.allowance vowState ≤
          w.allowance vowState := by
        unfold World.allowance
        rw [hEq]
        exact AccountMap.total_erase_le call.hSession zero_le
      simpa [spentFrom, grantedBy] using hLess
  | yieldSpend accounts =>
      rcases yieldSpend_eq_ok_iff.mp hOk with ⟨call, hEq⟩
      have hActive :=
        (checkSessionLive_ok_iff.mp call.hLive).2.1
      have hLess := AccountMap.total_insert_add_le call.hSession
        (recordSpend_allowance hActive call.hLimits call.hSpent
          vowState)
      rw [call.hVow] at hLess
      have hAfter :
          w'.allowance vowState =
            AccountMap.total
              (SessionAccount.allowance vowState)
              (w.sessions.insert accounts.sessionAccount
                call.spent) := by
        rw [hEq]
        rfl
      rw [hAfter]
      exact hLess.trans le_self_add
  | _ =>
      have hSame : w'.allowance vowState =
          w.allowance vowState := by
        refine AccountMap.total_congr _ ?_
        intro slot
        exact (execute_effect hOk).sessions slot
          (by simp [Instruction.sessionSlot])
      rw [hSame]
      simp [spentFrom, grantedBy]

theorem exec_allowance
    {w w' : World}
    {step : Step}
    (hExec : step.exec w = some w')
    (vowState : Pubkey) :
    (spentFrom vowState ⟨w, step, w'⟩ : ℕ∞) +
        w'.allowance vowState ≤
      w.allowance vowState +
        grantedBy vowState ⟨w, step, w'⟩ := by
  rcases step with ⟨env, action⟩
  cases action with
  | instruction ix =>
      exact execute_allowance
        (Step.exec_instruction_iff.mp hExec) vowState
  | _ =>
      rw [← Option.some.inj hExec]
      simp [spentFrom, grantedBy, World.allowance]

/- Whoever grants is the owner. -/
theorem exec_grant_signed
    {w w' : World}
    {step : Step}
    {vowState : Pubkey}
    (hExec : step.exec w = some w')
    (hGrant : grantedBy vowState ⟨w, step, w'⟩ ≠ 0) :
    ∃ vow,
      w.vows.lookup vowState = some vow ∧
        step.signedBy vow.owner = true := by
  rcases step with ⟨env, action⟩
  cases action with
  | instruction ix =>
      have hOk := Step.exec_instruction_iff.mp hExec
      cases ix with
      | createSession accounts =>
          rcases createSession_ok hOk with ⟨call, _⟩
          have hHere : accounts.vowState = vowState := by
            by_contra hOther
            exact hGrant (if_neg hOther)
          subst hHere
          exact ⟨call.vow, call.hLookup,
            execute_owner_signs hOk rfl call.hLookup⟩
      | _ => exact absurd rfl hGrant
  | _ => exact absurd rfl hGrant

/-
  Over every run, from every state: what sessions spend of an
  identity, and what they may still spend, is within what they
  were granted, and every grant since is signed by the owner.
-/
theorem spends_within_grants
    (w : World)
    (steps : List Step)
    (vowState : Pubkey) :
    ((((w.trace steps).map (spentFrom vowState)).sum : Nat) :
          ℕ∞) +
        (w.run steps).allowance vowState ≤
      w.allowance vowState +
        ((w.trace steps).map (grantedBy vowState)).sum ∧
    ∀ o ∈ w.trace steps,
      grantedBy vowState o ≠ 0 →
      ∃ vow,
        o.before.vows.lookup vowState = some vow ∧
          o.action.signedBy vow.owner = true := by
  refine ⟨?_, ?_⟩
  · rw [Nat.cast_list_sum, List.map_map]
    exact @trace_charged World Step ℕ∞ _ _ _ Step.exec
      (fun w => w.allowance vowState)
      (fun o => (spentFrom vowState o : ℕ∞))
      (grantedBy vowState)
      (fun _ _ _ hExec => exec_allowance hExec vowState) w
      steps
  · intro o ho
    have hExec := mem_trace_exec ho
    exact exec_grant_signed hExec

end Vow
