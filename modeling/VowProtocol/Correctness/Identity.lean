import VowProtocol.Correctness.Refinement

/-
  What a step can do to identities, escrows and session
  slots, and who owns an open escrow.

  Key definitions include:
    * `Instruction.outflow`
    * `Instruction.escrowSlot`
    * `Instruction.sessionSlot`
    * `VowChange`
    * `Effect`
    * `EscrowOwned`
    * `SlotChange`
    * `SameSession`

  Key theorems include:
    * `execute_effect`
    * `escrowOwned_reachable`
    * `execute_slot`
    * `execute_slot_none`
    * `exec_slot_rel`
    * `exec_slot_open`
-/

------------------------------------------------------------
-- Identities
------------------------------------------------------------

namespace Vow

open MachineInt Fallible

/- The identity that an instruction may take value from. -/
def Instruction.outflow : Instruction → Option Pubkey
| .withdrawYield _ vowState _ => some vowState
| .yieldSpend ix => some ix.vowState
| .beginUnstake _ vowState => some vowState
| .completeUnstake _ vowState => some vowState
| _ => none

/-
  What one instruction does to the identities: nothing, an
  update of one identity, or a mint. Owners never change, and
  yield drops only for the outflow identity.
-/
inductive VowChange
    (ix : Instruction)
    (w w' : World) :
    Prop where
  | same
      (hVows : w'.vows = w.vows)
  | update
      (vowState : Pubkey)
      (vow vow' : VowState)
      (hLookup : w.vows.lookup vowState = some vow)
      (hVows : w'.vows = w.vows.insert vowState vow')
      (hSame : SameIdentity vow vow')
      (hYield :
        ix.outflow ≠ some vowState →
        vow.yieldBalance.val ≤ vow'.yieldBalance.val)
  | mint
      (vowState : Pubkey)
      (vow : VowState)
      (hVows : w'.vows = w.vows.insert vowState vow)
      (hFresh : w.vows.lookup vowState = none)

/- The escrow account that an instruction writes. -/
def Instruction.escrowSlot : Instruction → Option Pubkey
| .beginUnstake _ vowState => some (.unstake vowState)
| .completeUnstake _ vowState => some (.unstake vowState)
| _ => none

/- The session account that an instruction writes. -/
def Instruction.sessionSlot : Instruction → Option Pubkey
| .createSession ix =>
    some (.session ix.vowState ix.sessionIndex)
| .revokeSession _ _ sessionAccount => some sessionAccount
| .closeSession _ _ sessionAccount => some sessionAccount
| .yieldSpend ix => some ix.sessionAccount
| _ => none

/- What one instruction does to the three account maps. -/
structure Effect
    (ix : Instruction)
    (w w' : World) :
    Prop where
  vows : VowChange ix w w'
  escrows :
    ∀ k, ix.escrowSlot ≠ some k →
      w'.escrows.lookup k = w.escrows.lookup k
  sessions :
    ∀ k, ix.sessionSlot ≠ some k →
      w'.sessions.lookup k = w.sessions.lookup k

/- An effect on identities alone. -/
theorem VowChange.effect
    {ix : Instruction}
    {w w' : World}
    (hVows : VowChange ix w w')
    (hEscrows : w'.escrows = w.escrows)
    (hSessions : w'.sessions = w.sessions) :
    Effect ix w w' where
  vows := hVows
  escrows := by
    intro k _
    rw [hEscrows]
  sessions := by
    intro k _
    rw [hSessions]

theorem Untouched.effect
    {ix : Instruction}
    {w w' : World}
    (hFrame : Untouched w w') :
    Effect ix w w' :=
  (VowChange.same hFrame.vows).effect hFrame.escrows
    hFrame.sessions

theorem harvestGain_sameIdentity
    {idnft idnft' : VowState}
    {config config' : ProtocolConfig}
    (hHarvest :
      harvestGain idnft config = .ok (idnft', config')) :
    SameIdentity idnft idnft' ∧
      idnft.yieldBalance.val ≤ idnft'.yieldBalance.val := by
  rcases harvestGain_cases hHarvest with
    ⟨_, _, _, hVow, _⟩ | ⟨moved, hVow, _⟩
  · subst hVow
    exact ⟨⟨rfl, rfl⟩, le_refl _⟩
  · subst hVow
    exact ⟨⟨rfl, rfl⟩, Unsigned.le_saturatingAdd _ _⟩

theorem harvest_effect
    {env : Env}
    {w w' : World}
    {vowState : Pubkey}
    (hOk : harvest env w vowState = .ok w') :
    Effect (.harvest vowState) w w' := by
  rcases harvest_eq_ok_iff.mp hOk with
    ⟨call, vow', config', hGain, hEq⟩
  have hSettle := call.hSettle
  rcases matureIfDue_cases env.unixTimestamp call.vow with
    ⟨_, hDue, _⟩
  rw [hDue] at hSettle
  have hSettled := settleIdnft_ok hSettle
  rcases harvestGain_sameIdentity hGain with
    ⟨hSame, hYield⟩
  rw [hSettled] at hSame hYield
  subst hEq
  exact VowChange.effect
    (.update vowState call.vow vow' call.hLookup rfl hSame
      (fun _ => hYield)) rfl rfl

theorem slot_ne
    {slot k : Pubkey}
    (hSlot : some slot ≠ some k) :
    k ≠ slot := by
  intro hEq
  exact hSlot (by rw [hEq])

/- Every instruction stays within its slots. -/
theorem execute_effect
    {env : Env}
    {w w' : World}
    {ix : Instruction}
    (hOk : execute env w ix = .ok w') :
    Effect ix w w' := by
  cases ix with
  | initializeConfig =>
      rcases initializeConfig_ok hOk with ⟨call, hEq⟩
      subst hEq
      exact VowChange.effect (.same rfl) rfl rfl
  | setAdmin =>
      rcases setAdmin_ok hOk with ⟨call, hEq⟩
      subst hEq
      exact VowChange.effect (.same rfl) rfl rfl
  | closeProtocolConfig =>
      rcases closeProtocolConfig_ok hOk with ⟨call, hEq⟩
      subst hEq
      exact VowChange.effect (.same rfl) rfl rfl
  | setMintCounter =>
      rcases setMintCounter_ok hOk with ⟨call, hEq⟩
      subst hEq
      exact VowChange.effect (.same rfl) rfl rfl
  | devSetSharePrice =>
      rcases devSetSharePrice_ok hOk with ⟨call, hEq⟩
      subst hEq
      exact VowChange.effect (.same rfl) rfl rfl
  | devFastUnlock _ vowState =>
      rcases devFastUnlock_ok hOk with ⟨call, hEq⟩
      subst hEq
      exact VowChange.effect
        (.update vowState call.vow _ call.hLookup rfl
          ⟨rfl, rfl⟩ (fun _ => le_refl _)) rfl rfl
  | registerApp =>
      exact (registerApp_untouched hOk).effect
  | verifyApp =>
      exact (adminAppAction_untouched hOk).effect
  | blockApp =>
      exact (adminAppAction_untouched hOk).effect
  | updateSharePrice =>
      rcases updateSharePrice_ok hOk with ⟨call, hEq⟩
      subst hEq
      exact VowChange.effect (.same rfl) rfl rfl
  | flushReserveToPool =>
      rcases flushReserveToPool_ok hOk with hEq | ⟨call, hEq⟩
      · subst hEq
        exact VowChange.effect (.same rfl) rfl rfl
      · subst hEq
        exact VowChange.effect (.same rfl) rfl rfl
  | withdrawFromPool =>
      rcases withdrawFromPool_ok hOk with
        ⟨_, hEq⟩ | ⟨call, hEq⟩
      · subst hEq
        exact VowChange.effect (.same rfl) rfl rfl
      · subst hEq
        exact VowChange.effect (.same rfl) rfl rfl
  | addStake _ vowState =>
      rcases addStake_ok hOk with ⟨call, vow', hTopUp, hEq⟩
      rcases hTopUp.sameIdentity with ⟨hSame, hYield⟩
      subst hEq
      exact VowChange.effect
        (.update vowState call.vow vow' call.hLookup rfl hSame
          (fun _ => le_of_eq (by rw [hYield]))) rfl rfl
  | mintVow =>
      rcases mintVow_ok hOk with ⟨call, hEq⟩
      subst hEq
      exact VowChange.effect (.mint _ _ rfl call.hFresh) rfl rfl
  | updateYieldMode _ vowState =>
      rcases updateYieldMode_ok hOk with ⟨call, hEq⟩
      subst hEq
      exact VowChange.effect
        (.update vowState call.vow _ call.hLookup rfl
          ⟨rfl, rfl⟩ (fun _ => le_refl _)) rfl rfl
  | beginUnstake _ vowState =>
      rcases beginUnstake_ok hOk with ⟨call, hEq⟩
      subst hEq
      refine ⟨.update vowState call.vow _ call.hLookup rfl
        ⟨rfl, rfl⟩ (fun hNe => absurd rfl hNe), ?_,
        fun _ _ => rfl⟩
      intro k hSlot
      exact AList.lookup_insert_ne (slot_ne hSlot)
  | completeUnstake _ vowState =>
      rcases completeUnstake_eq_ok_iff.mp hOk with ⟨call, hEq⟩
      subst hEq
      refine ⟨.update vowState call.vow _ call.hLookup rfl
        ⟨rfl, rfl⟩ (fun hNe => absurd rfl hNe), ?_,
        fun _ _ => rfl⟩
      intro k hSlot
      exact AList.lookup_erase_ne (slot_ne hSlot)
  | activateStake _ vowState =>
      rcases activateStake_ok hOk with ⟨call, hEq⟩
      subst hEq
      rw [settleIdnft_ok call.hSettle]
      exact VowChange.effect
        (.update vowState call.vow _ call.hLookup rfl ⟨rfl, rfl⟩
          (fun _ => le_refl _)) rfl rfl
  | harvest => exact harvest_effect hOk
  | createSession ix =>
      rcases createSession_ok hOk with ⟨call, hEq⟩
      subst hEq
      refine ⟨.update ix.vowState call.vow _ call.hLookup rfl
        ⟨rfl, rfl⟩ (fun _ => le_refl _), fun _ _ => rfl, ?_⟩
      intro k hSlot
      exact AList.lookup_insert_ne (slot_ne hSlot)
  | revokeSession =>
      rcases revokeSession_ok hOk with ⟨call, hEq⟩
      subst hEq
      refine ⟨.same rfl, fun _ _ => rfl, ?_⟩
      intro k hSlot
      exact AList.lookup_insert_ne (slot_ne hSlot)
  | closeSession =>
      rcases closeSession_ok hOk with ⟨call, hEq⟩
      subst hEq
      refine ⟨.same rfl, fun _ _ => rfl, ?_⟩
      intro k hSlot
      exact AList.lookup_erase_ne (slot_ne hSlot)
  | depositYieldBalance _ vowState =>
      rcases depositYieldBalance_ok hOk with ⟨call, hEq⟩
      subst hEq
      exact VowChange.effect
        (.update vowState call.vow _ call.hLookup rfl ⟨rfl, rfl⟩
          (fun _ => Unsigned.le_saturatingAdd _ _)) rfl rfl
  | yieldSpend ix =>
      rcases yieldSpend_eq_ok_iff.mp hOk with ⟨call, hEq⟩
      subst hEq
      refine ⟨.update ix.vowState call.vow _ call.hLookup rfl
        ⟨rfl, rfl⟩ (fun hNe => absurd rfl hNe),
        fun _ _ => rfl, ?_⟩
      intro k hSlot
      exact AList.lookup_insert_ne (slot_ne hSlot)
  | withdrawYield _ vowState =>
      rcases withdrawYield_ok hOk with ⟨call, hEq⟩
      subst hEq
      exact VowChange.effect
        (.update vowState call.vow _ call.hLookup rfl ⟨rfl, rfl⟩
          (fun hNe => absurd rfl hNe)) rfl rfl
  | createAuthorityProfile =>
      exact (createAuthorityProfile_untouched hOk).effect
  | updateAuthorityProfile =>
      exact (updateAuthorityProfile_untouched hOk).effect
  | closeAuthorityProfile =>
      exact (closeAuthorityProfile_untouched hOk).effect
  | recordCommitment =>
      exact (recordCommitment_untouched hOk).effect
  | recordFulfillment =>
      exact (recordFulfillment_untouched hOk).effect

end Vow

------------------------------------------------------------
-- Escrow Owners
------------------------------------------------------------

namespace Vow

open MachineInt Fallible

/- An identity survives every change under its owner. -/
theorem VowChange.lookup_some
    {ix : Instruction}
    {w w' : World}
    (hChange : VowChange ix w w')
    {k : Pubkey}
    {vow : VowState}
    (hFound : w.vows.lookup k = some vow) :
    ∃ vow',
      w'.vows.lookup k = some vow' ∧
      SameIdentity vow vow' ∧
      (ix.outflow ≠ some k →
        vow.yieldBalance.val ≤ vow'.yieldBalance.val) := by
  cases hChange with
  | same hVows =>
      rw [hVows]
      exact ⟨vow, hFound, ⟨rfl, rfl⟩, fun _ => le_refl _⟩
  | update vowState old new hLookup hVows hSame hYield =>
      rw [hVows, AccountMap.lookup_insert_eq]
      by_cases hKey : k = vowState
      · subst hKey
        rw [hFound] at hLookup
        rw [Option.some.inj hLookup, if_pos rfl]
        exact ⟨new, rfl, hSame, hYield⟩
      · rw [if_neg hKey]
        exact ⟨vow, hFound, ⟨rfl, rfl⟩, fun _ => le_refl _⟩
  | mint vowState new hVows hFresh =>
      have hKey : k ≠ vowState := by
        intro hEq
        rw [hEq, hFresh] at hFound
        exact absurd hFound (by simp)
      rw [hVows, AList.lookup_insert_ne hKey]
      exact ⟨vow, hFound, ⟨rfl, rfl⟩, fun _ => le_refl _⟩

/- Every open escrow belongs to the owner of its identity. -/
def EscrowOwned
    (w : World) :
    Prop :=
  ∀ vowState escrow,
    w.escrows.lookup (.unstake vowState) = some escrow →
    ∃ vow,
      w.vows.lookup vowState = some vow ∧
      vowState = .vow vow.assetId ∧
      vow.owner = escrow.owner

/- An instruction that writes the escrow of an identity. -/
theorem escrowSlot_eq_unstake
    {ix : Instruction}
    {vowState : Pubkey}
    (hSlot : ix.escrowSlot = some (.unstake vowState)) :
    (∃ owner, ix = .beginUnstake owner vowState) ∨
      ∃ owner, ix = .completeUnstake owner vowState := by
  cases ix with
  | beginUnstake owner identity =>
      simp only [Instruction.escrowSlot, Option.some.injEq,
        Pubkey.unstake.injEq] at hSlot
      exact Or.inl ⟨owner, by rw [hSlot]⟩
  | completeUnstake owner identity =>
      simp only [Instruction.escrowSlot, Option.some.injEq,
        Pubkey.unstake.injEq] at hSlot
      exact Or.inr ⟨owner, by rw [hSlot]⟩
  | _ =>
      exact absurd hSlot (by simp [Instruction.escrowSlot])

theorem execute_escrowOwned
    {env : Env}
    {w w' : World}
    {ix : Instruction}
    (hOk : execute env w ix = .ok w')
    (hOwned : EscrowOwned w) :
    EscrowOwned w' := by
  have hEffect := execute_effect hOk
  intro vowState escrow hEscrow
  by_cases hSlot : ix.escrowSlot = some (.unstake vowState)
  · rcases escrowSlot_eq_unstake hSlot with
      ⟨owner, hIx⟩ | ⟨owner, hIx⟩
    · subst hIx
      rcases beginUnstake_ok hOk with ⟨call, hEq⟩
      subst hEq
      rw [AList.lookup_insert] at hEscrow
      rw [← Option.some.inj hEscrow]
      exact ⟨_, AList.lookup_insert _, call.hSeeds,
        call.hOwner⟩
    · subst hIx
      rcases completeUnstake_eq_ok_iff.mp hOk with ⟨call, hEq⟩
      subst hEq
      rw [AList.lookup_erase] at hEscrow
      exact absurd hEscrow (by simp)
  · rw [hEffect.escrows _ hSlot] at hEscrow
    rcases hOwned vowState escrow hEscrow with
      ⟨vow, hLookup, hSeeds, hOwner⟩
    rcases hEffect.vows.lookup_some hLookup with
      ⟨vow', hLookup', hSame, _⟩
    refine ⟨vow', hLookup', ?_, ?_⟩
    · rw [hSame.1]
      exact hSeeds
    · rw [hSame.2]
      exact hOwner

theorem exec_escrowOwned
    {w w' : World}
    {step : Step}
    (hExec : step.exec w = some w')
    (hOwned : EscrowOwned w) :
    EscrowOwned w' := by
  rcases step with ⟨env, action⟩
  cases action with
  | instruction ix =>
      exact execute_escrowOwned
        (Step.exec_instruction_iff.mp hExec) hOwned
  | _ =>
      rw [← Option.some.inj hExec]
      exact hOwned

theorem escrowOwned_reachable
    {w : World}
    (hReach : Reachable w) :
    EscrowOwned w := by
  rcases hReach with ⟨lamports, steps, hRun⟩
  have hSteps :
      ∀ (w : World) (step : Step) (w' : World),
        True → EscrowOwned w → step.exec w = some w' →
        EscrowOwned w' := by
    intro w step w' _ hOwned hExec
    exact exec_escrowOwned hExec hOwned
  have hInit : EscrowOwned (World.genesis lamports) := by
    intro vowState escrow hEscrow
    exact absurd hEscrow (by simp [World.genesis])
  rw [hRun]
  exact Transition.run_invariant hSteps hInit
    fun _ _ => trivial

end Vow

------------------------------------------------------------
-- Session Slots
------------------------------------------------------------

namespace Vow

open MachineInt Fallible

/- Does the step close the session slot? -/
def Step.closesSession
    (slot : Pubkey)
    (step : Step) :
    Bool :=
  match step.action with
  | .instruction (.closeSession _ _ sessionAccount) =>
      sessionAccount = slot
  | _ => false

/- Does the step revoke the session in the slot? -/
def Step.revokesSession
    (slot : Pubkey)
    (step : Step) :
    Bool :=
  match step.action with
  | .instruction (.revokeSession _ _ sessionAccount) =>
      sessionAccount = slot
  | _ => false

/-
  What one instruction does to an open session slot: nothing,
  a revocation, a close or a spend.
-/
inductive SlotChange
    (env : Env)
    (ix : Instruction)
    (slot : Pubkey)
    (session : SessionAccount)
    (w' : World) :
    Prop where
  | kept
      (hSlot : ix.sessionSlot ≠ some slot)
      (hLookup : w'.sessions.lookup slot = some session)
  | revoked
      (owner : Signer)
      (vowState : Pubkey)
      (hIx : ix = .revokeSession owner vowState slot)
      (hLookup :
        w'.sessions.lookup slot =
          some { session with active := false })
  | closed
      (owner : Signer)
      (vowState : Pubkey)
      (hIx : ix = .closeSession owner vowState slot)
      (hLookup : w'.sessions.lookup slot = none)
  | spent
      (accounts : YieldSpend)
      (session' : SessionAccount)
      (hIx : ix = .yieldSpend accounts)
      (hSlot : accounts.sessionAccount = slot)
      (hLimits :
        checkLimits
          (resetDailyIfNeeded env.unixTimestamp session)
          accounts.amount = .ok ())
      (hSpent :
        recordSpend
          (resetDailyIfNeeded env.unixTimestamp session)
          accounts.amount = .ok session')
      (hLookup : w'.sessions.lookup slot = some session')

/- An open slot is never filled again before it is closed. -/
theorem execute_slot
    {env : Env}
    {w w' : World}
    {ix : Instruction}
    {slot : Pubkey}
    {session : SessionAccount}
    (hOk : execute env w ix = .ok w')
    (hFound : w.sessions.lookup slot = some session) :
    SlotChange env ix slot session w' := by
  by_cases hSlot : ix.sessionSlot = some slot
  · cases ix with
    | createSession accounts =>
        rcases createSession_ok hOk with ⟨call, _⟩
        have hFresh := call.hFresh
        rw [Option.some.inj hSlot, hFound] at hFresh
        exact absurd hFresh (by simp)
    | revokeSession owner vowState sessionAccount =>
        have hSame : sessionAccount = slot :=
          Option.some.inj hSlot
        subst hSame
        rcases revokeSession_ok hOk with ⟨call, hEq⟩
        have hLookup := call.hSession
        rw [hFound] at hLookup
        rw [← Option.some.inj hLookup] at hEq
        subst hEq
        exact .revoked owner vowState rfl
          (AList.lookup_insert _)
    | closeSession owner vowState sessionAccount =>
        have hSame : sessionAccount = slot :=
          Option.some.inj hSlot
        subst hSame
        rcases closeSession_ok hOk with ⟨call, hEq⟩
        subst hEq
        exact .closed owner vowState rfl
          (AList.lookup_erase _ _)
    | yieldSpend accounts =>
        have hSame : accounts.sessionAccount = slot :=
          Option.some.inj hSlot
        rcases yieldSpend_eq_ok_iff.mp hOk with ⟨call, hEq⟩
        have hLookup := call.hSession
        have hLimits := call.hLimits
        have hSpent := call.hSpent
        rw [hSame, hFound] at hLookup
        rw [← Option.some.inj hLookup] at hLimits hSpent
        subst hEq
        refine .spent accounts call.spent rfl hSame hLimits
          hSpent ?_
        rw [← hSame]
        exact AList.lookup_insert _
    | _ =>
        exact absurd hSlot (by simp [Instruction.sessionSlot])
  · refine .kept hSlot ?_
    rw [(execute_effect hOk).sessions _ hSlot]
    exact hFound

/- An empty slot is only ever filled by a creation. -/
theorem execute_slot_none
    {env : Env}
    {w w' : World}
    {ix : Instruction}
    {slot : Pubkey}
    {session : SessionAccount}
    (hOk : execute env w ix = .ok w')
    (hNone : w.sessions.lookup slot = none)
    (hFound : w'.sessions.lookup slot = some session) :
    ∃ accounts,
      ix = .createSession accounts ∧
        slot = .session accounts.vowState
          accounts.sessionIndex := by
  by_cases hSlot : ix.sessionSlot = some slot
  · cases ix with
    | createSession accounts =>
        exact ⟨accounts, rfl, (Option.some.inj hSlot).symm⟩
    | revokeSession owner vowState sessionAccount =>
        rcases revokeSession_ok hOk with ⟨call, _⟩
        rw [← Option.some.inj hSlot, call.hSession] at hNone
        exact absurd hNone (by simp)
    | closeSession owner vowState sessionAccount =>
        rcases closeSession_ok hOk with ⟨call, hEq⟩
        rw [hEq, Option.some.inj hSlot] at hFound
        rw [AList.lookup_erase] at hFound
        exact absurd hFound (by simp)
    | yieldSpend accounts =>
        rcases yieldSpend_eq_ok_iff.mp hOk with ⟨call, _⟩
        have hLookup := call.hSession
        have hSame : accounts.sessionAccount = slot :=
          Option.some.inj hSlot
        rw [hSame, hNone] at hLookup
        exact absurd hLookup (by simp)
    | _ =>
        exact absurd hSlot (by simp [Instruction.sessionSlot])
  · rw [(execute_effect hOk).sessions _ hSlot, hNone]
      at hFound
    exact absurd hFound (by simp)

/-
  A relation that holds along a revocation and along a spend
  holds along every step that leaves the slot open.
-/
theorem exec_slot_rel
    {R : SessionAccount → SessionAccount → Prop}
    (hRefl : ∀ session, R session session)
    (hRevoke :
      ∀ session, R session { session with active := false })
    (hSpend :
      ∀ now session amount spent,
        recordSpend (resetDailyIfNeeded now session)
          amount = .ok spent →
        R session spent)
    {w w' : World}
    {step : Step}
    {slot : Pubkey}
    {session : SessionAccount}
    (hExec : step.exec w = some w')
    (hFound : w.sessions.lookup slot = some session)
    (hOpen : step.closesSession slot = false) :
    ∃ session',
      w'.sessions.lookup slot = some session' ∧
        R session session' := by
  rcases step with ⟨env, action⟩
  cases action with
  | instruction ix =>
      have hOk := Step.exec_instruction_iff.mp hExec
      cases execute_slot hOk hFound with
      | kept hSlot hLookup =>
          exact ⟨session, hLookup, hRefl session⟩
      | revoked owner vowState hIx hLookup =>
          exact ⟨_, hLookup, hRevoke session⟩
      | closed owner vowState hIx hLookup =>
          subst hIx
          exact absurd hOpen (by simp [Step.closesSession])
      | spent accounts spent hIx hSlot hLimits hSpent
          hLookup =>
          exact ⟨spent, hLookup, hSpend _ _ _ _ hSpent⟩
  | _ =>
      rw [← Option.some.inj hExec]
      exact ⟨session, hFound, hRefl session⟩

/- What stays of a session until it is closed. -/
structure SameSession
    (before after : SessionAccount) :
    Prop where
  vowState : after.vowState = before.vowState
  sessionKey : after.sessionKey = before.sessionKey
  startTs : after.startTs = before.startTs
  active : after.active = true → before.active = true

theorem recordSpend_sameSession
    {now : I64}
    {session spent : SessionAccount}
    {amount : U64}
    (hSpent :
      recordSpend (resetDailyIfNeeded now session) amount =
        .ok spent) :
    SameSession session spent := by
  rcases recordSpend_counters hSpent with ⟨counters, hEq⟩
  subst hEq
  exact ⟨rfl, rfl, rfl, id⟩

theorem exec_slot_open
    {w w' : World}
    {step : Step}
    {slot : Pubkey}
    {session : SessionAccount}
    (hExec : step.exec w = some w')
    (hFound : w.sessions.lookup slot = some session)
    (hOpen : step.closesSession slot = false) :
    ∃ session',
      w'.sessions.lookup slot = some session' ∧
        SameSession session session' := by
  refine exec_slot_rel (fun _ => ⟨rfl, rfl, rfl, id⟩) ?_ ?_
    hExec hFound hOpen
  · intro session
    refine ⟨rfl, rfl, rfl, ?_⟩
    intro hActive
    exact absurd hActive Bool.false_ne_true
  · intro now session amount spent hSpent
    exact recordSpend_sameSession hSpent

end Vow
