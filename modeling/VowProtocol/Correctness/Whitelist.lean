import VowProtocol.Correctness.Grants
import VowProtocol.Library.FixedArray

/-
  The programs that a session admits are the programs it was
  created with.

  Key definitions include:
    * `SamePrograms`
    * `Admits`

  Key theorems include:
    * `fillProgramIds_toList`
    * `checkCallingProgram_ok_iff`
    * `exec_slotAdmits`
    * `session_programs_exact`
-/

------------------------------------------------------------
-- Stored Programs
------------------------------------------------------------

namespace Vow

open MachineInt Fallible FixedArray

theorem fillProgramIds_eq
    (ids : List Pubkey)
    (slots : Vector Pubkey 8) :
    fillProgramIds ids slots =
      pad .default ids.length (8 - ids.length)
        (write ids 0 slots) := by
  rfl

/- The array holds the ids and then only padding. -/
theorem fillProgramIds_toList
    {ids : List Pubkey}
    (slots : Vector Pubkey 8)
    (hFits : ids.length ≤ 8) :
    (fillProgramIds ids slots).toList =
      ids ++ List.replicate (8 - ids.length) .default := by
  rw [fillProgramIds_eq]
  exact toList_pad_write .default slots hFits

/- The count cuts off the padding. -/
theorem fillProgramIds_take
    {ids : List Pubkey}
    (slots : Vector Pubkey 8)
    (hFits : ids.length ≤ 8) :
    (fillProgramIds ids slots).toList.take ids.length =
      ids := by
  rw [fillProgramIds_toList slots hFits]
  exact List.take_left

/-
  A session admits a list of programs when its count stays
  within the array and cuts out that list.
-/
structure Admits
    (programs : List Pubkey)
    (session : SessionAccount) :
    Prop where
  count : session.programCount.val = programs.length
  inBounds : session.programCount.val ≤ 8
  slice :
    session.allowedProgramIds.toList.take
      session.programCount.val = programs

theorem openedSession_admits
    {env : Env}
    {ix : CreateSession}
    {vow : VowState}
    {limits : SessionParams}
    (hFits : ix.allowedProgramIds.length ≤ 8) :
    Admits ix.allowedProgramIds
      (openedSession env ix vow limits) := by
  have hCount :
      (openedSession env ix vow limits).programCount.val =
        ix.allowedProgramIds.length := by
    unfold openedSession
    rw [Unsigned.val_ofNat]
    exact Nat.mod_eq_of_lt (by omega)
  refine ⟨hCount, hCount.trans_le hFits, ?_⟩
  rw [hCount]
  exact fillProgramIds_take _ hFits

end Vow

------------------------------------------------------------
-- The Check
------------------------------------------------------------

namespace Vow

open MachineInt Fallible

/- The slice of the check stays within the array. -/
theorem checkCallingProgram_avoids_panic
    {programs : List Pubkey}
    {session : SessionAccount}
    (hAdmits : Admits programs session)
    (ix : YieldSpend) :
    Avoids .panicked (checkCallingProgram session ix) := by
  unfold checkCallingProgram
  refine Avoids.bind (Avoids.require_of_ne (by simp)) ?_
  intro _ _
  refine Avoids.bind
    (Avoids.require (fun _ => hAdmits.inBounds)) ?_
  intro _ _
  exact Avoids.require_of_ne (by simp)

/- The check passes for the admitted programs only. -/
theorem checkCallingProgram_ok_iff
    {programs : List Pubkey}
    {session : SessionAccount}
    (hAdmits : Admits programs session)
    (ix : YieldSpend) :
    checkCallingProgram session ix = .ok () ↔
      ix.executable = true ∧
        (programs = [] ∨ ix.callingProgram ∈ programs) := by
  have hEmpty :
      0 < session.programCount ↔ programs ≠ [] := by
    rw [Unsigned.lt_def, Unsigned.val_zero, hAdmits.count]
    exact List.length_pos_iff
  unfold checkCallingProgram
  simp only [bind_eq_ok_iff, require_eq_ok_iff,
    exists_const, hAdmits.slice, hEmpty]
  constructor
  · rintro ⟨hExecutable, _, hMember⟩
    refine ⟨hExecutable, ?_⟩
    by_cases hNone : programs = []
    · exact Or.inl hNone
    · exact Or.inr (hMember hNone)
  · rintro ⟨hExecutable, hListed⟩
    refine ⟨hExecutable, fun _ => hAdmits.inBounds, ?_⟩
    intro hSome
    rcases hListed with hNone | hMember
    · exact absurd hNone hSome
    · exact hMember

end Vow

------------------------------------------------------------
-- Runs
------------------------------------------------------------

namespace Vow

open MachineInt Fallible Transition

/- The stored programs stay until the session is closed. -/
structure SamePrograms
    (before after : SessionAccount) :
    Prop where
  programCount : after.programCount = before.programCount
  allowedProgramIds :
    after.allowedProgramIds = before.allowedProgramIds

theorem recordSpend_samePrograms
    {now : I64}
    {session spent : SessionAccount}
    {amount : U64}
    (hSpent :
      recordSpend (resetDailyIfNeeded now session) amount =
        .ok spent) :
    SamePrograms session spent := by
  rcases recordSpend_counters hSpent with ⟨counters, hEq⟩
  subst hEq
  exact ⟨rfl, rfl⟩

theorem SamePrograms.admits
    {programs : List Pubkey}
    {before after : SessionAccount}
    (hSame : SamePrograms before after)
    (hAdmits : Admits programs before) :
    Admits programs after := by
  constructor
  · rw [hSame.programCount]
    exact hAdmits.count
  · rw [hSame.programCount]
    exact hAdmits.inBounds
  · rw [hSame.programCount, hSame.allowedProgramIds]
    exact hAdmits.slice

/- The slot is open and admits the programs. -/
def SlotAdmits
    (slot : Pubkey)
    (programs : List Pubkey)
    (w : World) :
    Prop :=
  ∃ session,
    w.sessions.lookup slot = some session ∧
      Admits programs session

theorem exec_slotAdmits
    {w w' : World}
    {step : Step}
    {slot : Pubkey}
    {programs : List Pubkey}
    (hAdmits : SlotAdmits slot programs w)
    (hExec : step.exec w = some w')
    (hOpen : step.closesSession slot = false) :
    SlotAdmits slot programs w' := by
  rcases hAdmits with ⟨session, hFound, hAdmits⟩
  have hKept :
      ∃ session',
        w'.sessions.lookup slot = some session' ∧
          SamePrograms session session' :=
    exec_slot_rel (fun _ => ⟨rfl, rfl⟩)
      (fun _ => ⟨rfl, rfl⟩)
      (fun _ _ _ _ hSpent => recordSpend_samePrograms hSpent)
      hExec hFound hOpen
  rcases hKept with ⟨session', hLookup, hSame⟩
  exact ⟨session', hLookup, hSame.admits hAdmits⟩

theorem run_slotAdmits
    {w : World}
    {slot : Pubkey}
    {programs : List Pubkey}
    {later : List Step}
    (hAdmits : SlotAdmits slot programs w)
    (hOpen :
      ∀ o ∈ w.trace later,
        o.action.closesSession slot = false) :
    SlotAdmits slot programs (w.run later) := by
  have hKept :
      ∀ (s : World) (step : Step) (s' : World),
        SlotAdmits slot programs s → step.exec s = some s' →
        step.closesSession slot = false →
        SlotAdmits slot programs s' := by
    intro s step s' hHere hExec hStep
    exact exec_slotAdmits hHere hExec hStep
  exact (trace_invariant hKept hAdmits hOpen).2

/- A spend has passed the check of its session's programs. -/
theorem yieldSpend_checked
    {env : Env}
    {w w' : World}
    {ix : YieldSpend}
    {session : SessionAccount}
    (hFound :
      w.sessions.lookup ix.sessionAccount = some session)
    (hOk : execute env w (.yieldSpend ix) = .ok w') :
    checkCallingProgram session ix = .ok () := by
  rcases yieldSpend_eq_ok_iff.mp hOk with ⟨call, _⟩
  have hOpened := call.hSession
  rw [hFound, Option.some.injEq] at hOpened
  rw [hOpened]
  exact call.hProgram

/-
  A session is created with at most eight programs. Until it
  is closed, whatever runs in between, the check of a spend
  never slices past the array, and it passes for a program
  exactly when the list of the creation is empty or names it.
  No spend through the session succeeds without it.
-/
theorem session_programs_exact
    {env : Env}
    {w w' : World}
    {ix : CreateSession}
    {later : List Step}
    (hOk : execute env w (.createSession ix) = .ok w')
    (hOpen :
      ∀ o ∈ w'.trace later,
        o.action.closesSession
          (.session ix.vowState ix.sessionIndex) = false) :
    ix.allowedProgramIds.length ≤ 8 ∧
      ∃ session,
        (w'.run later).sessions.lookup
          (.session ix.vowState ix.sessionIndex) =
            some session ∧
        session.programCount.val ≤ 8 ∧
        ∀ spend,
          checkCallingProgram session spend ≠
            .error .panicked ∧
          (checkCallingProgram session spend = .ok () ↔
            spend.executable = true ∧
              (ix.allowedProgramIds = [] ∨
                spend.callingProgram ∈
                  ix.allowedProgramIds)) ∧
          (spend.sessionAccount =
              .session ix.vowState ix.sessionIndex →
            ∀ now spent,
              execute now (w'.run later)
                  (.yieldSpend spend) = .ok spent →
              checkCallingProgram session spend =
                .ok ()) := by
  rcases createSession_ok hOk with ⟨call, hEq⟩
  have hFits := call.hPrograms
  have hCreated :
      SlotAdmits (.session ix.vowState ix.sessionIndex)
        ix.allowedProgramIds w' := by
    refine ⟨openedSession env ix call.vow call.limits, ?_,
      openedSession_admits hFits⟩
    rw [hEq]
    exact AList.lookup_insert _
  rcases run_slotAdmits hCreated hOpen with
    ⟨session, hFound, hAdmits⟩
  refine ⟨hFits, session, hFound, hAdmits.inBounds, ?_⟩
  intro spend
  refine ⟨checkCallingProgram_avoids_panic hAdmits spend,
    checkCallingProgram_ok_iff hAdmits spend, ?_⟩
  intro hSlot now spent hSpent
  rw [← hSlot] at hFound
  exact yieldSpend_checked hFound hSpent

/- The sample session, restricted to two programs. -/
def listedSession : CreateSession :=
  { sampleSession with
    allowedProgramIds := [.key 20, .key 30] }

def listedChain : World :=
  yieldChain.run
    [sampleStep 50 0 (.createSession listedSession)]

/- The padding is not admitted after some spends. -/
theorem session_programs_exact_listed :
    ∃ session,
      (listedChain.run spendSteps).sessions.lookup
        sampleSlot = some session ∧
      checkCallingProgram session (sampleSpend 1) =
        .ok () ∧
      checkCallingProgram session
        { sampleSpend 1 with callingProgram := .default } ≠
          .ok () := by
  have hOk :
      execute (sampleEnv 50 0) yieldChain
          (.createSession listedSession) =
        .ok listedChain :=
    execute_eq_run (by decide +kernel)
  rcases session_programs_exact hOk
      (spendSteps_keep_open listedChain) with
    ⟨_, session, hFound, _, hExact⟩
  refine ⟨session, hFound, ?_, ?_⟩
  · exact (hExact _).2.1.mpr ⟨rfl, Or.inr (by decide)⟩
  · intro hPasses
    exact absurd ((hExact _).2.1.mp hPasses) (by decide)

end Vow
