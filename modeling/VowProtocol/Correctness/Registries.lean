import VowProtocol.Correctness.SessionLimits

/-
  The app registries, the commitment records and their gates:
  which instructions write them, and what they write.

  Key definitions include:
    * `RegistriesKept`
    * `Instruction.writesRegistries`
    * `AppBarred`

  Key theorems include:
    * `execute_registriesKept`
    * `exec_appBarred`
    * `blocked_app_never_spends`
-/

------------------------------------------------------------
-- Writers
------------------------------------------------------------

namespace Vow

open MachineInt Fallible

/- The registries, the records and the gates are unchanged. -/
structure RegistriesKept
    (w w' : World) :
    Prop where
  apps : w'.apps = w.apps
  records : w'.records = w.records
  gates : w'.gates = w.gates

/- The instructions that write a registry or a record. -/
def Instruction.writesRegistries : Instruction → Bool
| .registerApp _ _ => true
| .verifyApp _ _ => true
| .blockApp _ _ => true
| .recordCommitment _ _ => true
| .recordFulfillment _ _ => true
| _ => false

theorem createAuthorityProfile_registriesKept
    {env : Env}
    {w w' : World}
    {wallet : Signer}
    {profileId : Vector U8 8}
    {params : AuthorityProfileParams}
    (hOk :
      createAuthorityProfile env w wallet profileId params =
        .ok w') :
    RegistriesKept w w' := by
  rcases createAuthorityProfile_ok hOk with ⟨call, hEq⟩
  subst hEq
  exact ⟨rfl, rfl, rfl⟩

theorem updateAuthorityProfile_registriesKept
    {w w' : World}
    {wallet : Signer}
    {address : Pubkey}
    {params : AuthorityProfileParams}
    (hOk :
      updateAuthorityProfile w wallet address params =
        .ok w') :
    RegistriesKept w w' := by
  rcases updateAuthorityProfile_ok hOk with ⟨call, hEq⟩
  subst hEq
  exact ⟨rfl, rfl, rfl⟩

theorem closeAuthorityProfile_registriesKept
    {w w' : World}
    {wallet : Signer}
    {address : Pubkey}
    (hOk :
      closeAuthorityProfile w wallet address = .ok w') :
    RegistriesKept w w' := by
  rcases closeAuthorityProfile_ok hOk with ⟨call, hEq⟩
  subst hEq
  exact ⟨rfl, rfl, rfl⟩

/- All other instructions leave them alone. -/
theorem execute_registriesKept
    {env : Env}
    {w w' : World}
    {ix : Instruction}
    (hOk : execute env w ix = .ok w')
    (hIx : ix.writesRegistries = false) :
    RegistriesKept w w' := by
  cases ix with
  | initializeConfig =>
      rcases initializeConfig_ok hOk with ⟨call, hEq⟩
      subst hEq
      exact ⟨rfl, rfl, rfl⟩
  | setAdmin =>
      rcases setAdmin_ok hOk with ⟨call, hEq⟩
      subst hEq
      exact ⟨rfl, rfl, rfl⟩
  | closeProtocolConfig =>
      rcases closeProtocolConfig_ok hOk with ⟨call, hEq⟩
      subst hEq
      exact ⟨rfl, rfl, rfl⟩
  | setMintCounter =>
      rcases setMintCounter_ok hOk with ⟨call, hEq⟩
      subst hEq
      exact ⟨rfl, rfl, rfl⟩
  | devSetSharePrice =>
      rcases devSetSharePrice_ok hOk with ⟨call, hEq⟩
      subst hEq
      exact ⟨rfl, rfl, rfl⟩
  | devFastUnlock =>
      rcases devFastUnlock_ok hOk with ⟨call, hEq⟩
      subst hEq
      exact ⟨rfl, rfl, rfl⟩
  | updateSharePrice =>
      rcases updateSharePrice_ok hOk with ⟨call, hEq⟩
      subst hEq
      exact ⟨rfl, rfl, rfl⟩
  | flushReserveToPool =>
      rcases flushReserveToPool_ok hOk with hEq | ⟨call, hEq⟩
      · subst hEq
        exact ⟨rfl, rfl, rfl⟩
      · subst hEq
        exact ⟨rfl, rfl, rfl⟩
  | withdrawFromPool =>
      rcases withdrawFromPool_ok hOk with
        ⟨_, hEq⟩ | ⟨call, hEq⟩
      · subst hEq
        exact ⟨rfl, rfl, rfl⟩
      · subst hEq
        exact ⟨rfl, rfl, rfl⟩
  | addStake =>
      rcases addStake_ok hOk with ⟨call, vow', _, hEq⟩
      subst hEq
      exact ⟨rfl, rfl, rfl⟩
  | mintVow =>
      rcases mintVow_ok hOk with ⟨call, hEq⟩
      subst hEq
      exact ⟨rfl, rfl, rfl⟩
  | updateYieldMode =>
      rcases updateYieldMode_ok hOk with ⟨call, hEq⟩
      subst hEq
      exact ⟨rfl, rfl, rfl⟩
  | beginUnstake =>
      rcases beginUnstake_ok hOk with ⟨call, hEq⟩
      subst hEq
      exact ⟨rfl, rfl, rfl⟩
  | completeUnstake =>
      rcases completeUnstake_eq_ok_iff.mp hOk with ⟨call, hEq⟩
      subst hEq
      exact ⟨rfl, rfl, rfl⟩
  | activateStake =>
      rcases activateStake_ok hOk with ⟨call, hEq⟩
      subst hEq
      exact ⟨rfl, rfl, rfl⟩
  | harvest =>
      rcases harvest_eq_ok_iff.mp hOk with
        ⟨call, vow', config', _, hEq⟩
      subst hEq
      exact ⟨rfl, rfl, rfl⟩
  | createSession =>
      rcases createSession_ok hOk with ⟨call, hEq⟩
      subst hEq
      exact ⟨rfl, rfl, rfl⟩
  | revokeSession =>
      rcases revokeSession_ok hOk with ⟨call, hEq⟩
      subst hEq
      exact ⟨rfl, rfl, rfl⟩
  | closeSession =>
      rcases closeSession_ok hOk with ⟨call, hEq⟩
      subst hEq
      exact ⟨rfl, rfl, rfl⟩
  | depositYieldBalance =>
      rcases depositYieldBalance_ok hOk with ⟨call, hEq⟩
      subst hEq
      exact ⟨rfl, rfl, rfl⟩
  | yieldSpend =>
      rcases yieldSpend_eq_ok_iff.mp hOk with ⟨call, hEq⟩
      subst hEq
      exact ⟨rfl, rfl, rfl⟩
  | withdrawYield =>
      rcases withdrawYield_ok hOk with ⟨call, hEq⟩
      subst hEq
      exact ⟨rfl, rfl, rfl⟩
  | createAuthorityProfile =>
      exact createAuthorityProfile_registriesKept hOk
  | updateAuthorityProfile =>
      exact updateAuthorityProfile_registriesKept hOk
  | closeAuthorityProfile =>
      exact closeAuthorityProfile_registriesKept hOk
  | _ =>
      exact absurd hIx (by simp [Instruction.writesRegistries])

end Vow

------------------------------------------------------------
-- Blocked Apps
------------------------------------------------------------

namespace Vow

open MachineInt Fallible Transition

/- The registry of the program says that it is blocked. -/
def AppBarred
    (programId : Pubkey)
    (w : World) :
    Prop :=
  ∃ registry,
    w.apps.lookup (.app programId) = some registry ∧
      registry.blocked = true

/- All but two instructions leave records and gates alone. -/
theorem execute_recordsKept
    {env : Env}
    {w w' : World}
    {ix : Instruction}
    (hOk : execute env w ix = .ok w')
    (hCommit : ∀ payer v, ix ≠ .recordCommitment payer v)
    (hFulfill : ∀ payer v, ix ≠ .recordFulfillment payer v) :
    w'.records = w.records ∧ w'.gates = w.gates := by
  cases ix with
  | registerApp payer programId =>
      rcases registerApp_ok hOk with ⟨call, hEq⟩
      subst hEq
      exact ⟨rfl, rfl⟩
  | verifyApp admin address =>
      rcases adminAppAction_ok hOk with ⟨call, hEq⟩
      subst hEq
      exact ⟨rfl, rfl⟩
  | blockApp admin address =>
      rcases adminAppAction_ok hOk with ⟨call, hEq⟩
      subst hEq
      exact ⟨rfl, rfl⟩
  | recordCommitment payer v => exact absurd rfl (hCommit _ _)
  | recordFulfillment payer v =>
      exact absurd rfl (hFulfill _ _)
  | _ =>
      have hKept := execute_registriesKept hOk rfl
      exact ⟨hKept.records, hKept.gates⟩

/- No admin action unblocks a registry. -/
theorem adminAppAction_appBarred
    {w w' : World}
    {admin : Signer}
    {address programId : Pubkey}
    {change : AppRegistry → AppRegistry}
    (hChange :
      ∀ registry : AppRegistry,
        registry.blocked = true →
        (change registry).blocked = true)
    (hBarred : AppBarred programId w)
    (hOk :
      adminAppAction w admin address change = .ok w') :
    AppBarred programId w' := by
  rcases hBarred with ⟨registry, hLookup, hBlocked⟩
  rcases adminAppAction_ok hOk with ⟨call, hEq⟩
  have hFound := call.hRegistry
  by_cases hSame : Pubkey.app programId = address
  · subst hSame
    rw [hLookup, Option.some.injEq] at hFound
    refine ⟨change call.registry, ?_, hChange _ ?_⟩
    · rw [hEq, AccountMap.lookup_insert_eq, if_pos rfl]
    · rw [← hFound]
      exact hBlocked
  · refine ⟨registry, ?_, hBlocked⟩
    rw [hEq, AccountMap.lookup_insert_eq, if_neg hSame]
    exact hLookup

/- A blocked app stays blocked. -/
theorem execute_appBarred
    {env : Env}
    {w w' : World}
    {ix : Instruction}
    {programId : Pubkey}
    (hBarred : AppBarred programId w)
    (hOk : execute env w ix = .ok w') :
    AppBarred programId w' := by
  by_cases hIx : ix.writesRegistries = false
  · rw [AppBarred, (execute_registriesKept hOk hIx).apps]
    exact hBarred
  · cases ix with
    | registerApp payer registered =>
        rcases hBarred with ⟨registry, hLookup, hBlocked⟩
        rcases registerApp_ok hOk with ⟨call, hEq⟩
        have hOther :
            Pubkey.app programId ≠ .app registered := by
          intro hSame
          rw [hSame, call.hFresh] at hLookup
          exact absurd hLookup (by simp)
        refine ⟨registry, ?_, hBlocked⟩
        rw [hEq, AccountMap.lookup_insert_eq, if_neg hOther]
        exact hLookup
    | verifyApp =>
        refine adminAppAction_appBarred ?_ hBarred hOk
        intro registry hBlocked
        exact hBlocked
    | blockApp =>
        refine adminAppAction_appBarred ?_ hBarred hOk
        intro registry _
        rfl
    | recordCommitment =>
        rcases recordCommitment_ok hOk with ⟨call, hEq⟩
        subst hEq
        exact hBarred
    | recordFulfillment =>
        rcases recordFulfillment_ok hOk with ⟨call, hEq⟩
        subst hEq
        exact hBarred
    | _ => exact absurd rfl hIx

theorem exec_appBarred
    {w w' : World}
    {step : Step}
    {programId : Pubkey}
    (hBarred : AppBarred programId w)
    (hExec : step.exec w = some w') :
    AppBarred programId w' := by
  rcases step with ⟨env, action⟩
  cases action with
  | instruction ix =>
      exact execute_appBarred hBarred
        (Step.exec_instruction_iff.mp hExec)
  | _ =>
      rw [← Option.some.inj hExec]
      exact hBarred

/- Blocking bars the program of the registry. -/
theorem blockApp_appBarred
    {w w' : World}
    {admin : Signer}
    {programId : Pubkey}
    (hOk : blockApp w admin (.app programId) = .ok w') :
    AppBarred programId w' := by
  rcases adminAppAction_ok hOk with ⟨call, hEq⟩
  refine ⟨{ call.registry with blocked := true }, ?_, rfl⟩
  rw [hEq, AccountMap.lookup_insert_eq, if_pos rfl]

/- Does the step spend through the program? -/
def Step.spendsBy
    (programId : Pubkey)
    (step : Step) :
    Bool :=
  match step.action with
  | .instruction (.yieldSpend ix) =>
      ix.callingProgram = programId
  | _ => false

/- Does the step leave the optional registry account out? -/
def Step.omitsRegistry
    (step : Step) :
    Bool :=
  match step.action with
  | .instruction (.yieldSpend ix) => ix.appRegistry.isNone
  | _ => false

/- A barred program only spends where nothing is checked. -/
theorem spend_omitsRegistry
    {w w' : World}
    {step : Step}
    {programId : Pubkey}
    (hBarred : AppBarred programId w)
    (hExec : step.exec w = some w')
    (hSpends : step.spendsBy programId = true) :
    step.omitsRegistry = true := by
  rcases step with ⟨env, action⟩
  unfold Step.spendsBy at hSpends
  split at hSpends
  · rename_i ix hAction
    dsimp only at hAction
    subst hAction
    have hProgram : ix.callingProgram = programId :=
      of_decide_eq_true hSpends
    rcases yieldSpend_eq_ok_iff.mp
        (Step.exec_instruction_iff.mp hExec) with ⟨call, _⟩
    have hCheck := call.hRegistry
    rcases hBarred with ⟨registry, hLookup, hBlocked⟩
    unfold checkAppRegistry at hCheck
    cases hRegistry : ix.appRegistry with
    | none => simp [Step.omitsRegistry, hRegistry]
    | some address =>
        simp only [hRegistry, bind_eq_ok_iff, okOr_eq_ok_iff,
          require_eq_ok_iff, exists_const] at hCheck
        rcases hCheck with ⟨found, hFound, hSeeds, hOpen⟩
        rw [hSeeds, hProgram, hLookup,
          Option.some.injEq] at hFound
        rw [← hFound, hBlocked] at hOpen
        exact absurd hOpen (by simp)
  · exact absurd hSpends (by simp)

/-
  Once an app is blocked, none of its spends succeeds in any
  later run whose spends by it all pass the registry account.
  The account is the caller's choice, and a spend without it
  is not checked.
-/
theorem blocked_app_never_spends
    {env : Env}
    {w w' : World}
    {admin : Signer}
    {programId : Pubkey}
    {steps : List Step}
    (hBlock :
      execute env w (.blockApp admin (.app programId)) =
        .ok w')
    (hSupplied :
      ∀ step ∈ steps,
        step.spendsBy programId = true →
          step.omitsRegistry = false) :
    ∀ o ∈ w'.trace steps,
      o.action.spendsBy programId = false := by
  have hBarred : AppBarred programId w' :=
    blockApp_appBarred hBlock
  have hKept :
      ∀ (s : World) (step : Step) (s' : World),
        AppBarred programId s → step.exec s = some s' →
        True → AppBarred programId s' := by
    intro s step s' hHere hExec _
    exact exec_appBarred hHere hExec
  intro o ho
  have hHere : AppBarred programId o.before :=
    (trace_invariant hKept hBarred
      (fun _ _ => trivial)).1 o ho
  have hExec := mem_trace_exec ho
  rw [Bool.eq_false_iff]
  intro hSpends
  have hOmits := spend_omitsRegistry hHere hExec hSpends
  rw [hSupplied o.action (mem_trace_action ho) hSpends]
    at hOmits
  exact absurd hOmits (by simp)

def sampleProgram : Pubkey := .key 20

/- An open session, and its program registered. -/
def registeredChain : World :=
  sessionChain.run
    [sampleStep 50 0 (.registerApp otherOwner sampleProgram)]

/- The admin blocks the program. -/
def barredChain : World :=
  registeredChain.run
    [sampleStep 50 0
      (.blockApp sampleAdmin (.app sampleProgram))]

theorem registeredChain_blocks :
    execute (sampleEnv 50 0) registeredChain
        (.blockApp sampleAdmin (.app sampleProgram)) =
      .ok barredChain :=
  execute_eq_run (by decide +kernel)

/- The program spends with its registry, another without. -/
def supplyingSteps : List Step :=
  [sampleStep 60 0 (.yieldSpend { sampleSpend 100 with
      appRegistry := some (.app sampleProgram) }),
    sampleStep 70 0 (.yieldSpend { sampleSpend 100 with
      callingProgram := .key 22 })]

theorem blocked_app_never_spends_sample :
    (barredChain.trace supplyingSteps).length = 1 ∧
      ∀ o ∈ barredChain.trace supplyingSteps,
        o.action.spendsBy sampleProgram = false :=
  ⟨by decide +kernel,
    blocked_app_never_spends registeredChain_blocks
      (by decide)⟩

/-
  The blocked program spends by leaving its registry out.
-/
theorem blocked_app_spends :
    Reachable registeredChain ∧
      execute (sampleEnv 50 0) registeredChain
          (.blockApp sampleAdmin (.app sampleProgram)) =
        .ok barredChain ∧
      (sampleSpend 100).callingProgram = sampleProgram ∧
      (sampleSpend 100).appRegistry = none ∧
      execute (sampleEnv 60 0) barredChain
          (.yieldSpend (sampleSpend 100)) =
        .ok (barredChain.run
          [sampleStep 60 0
            (.yieldSpend (sampleSpend 100))]) := by
  have hReach : Reachable registeredChain := by
    have hYield : Reachable yieldChain :=
      ⟨_, yieldSteps, rfl⟩
    exact (hYield.run _).run _
  exact ⟨hReach, registeredChain_blocks, rfl, rfl,
    execute_eq_run (by decide +kernel)⟩

end Vow
