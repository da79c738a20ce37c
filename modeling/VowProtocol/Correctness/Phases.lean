import VowProtocol.Correctness.Lifecycle

/-
  The phases of an identity and the commitments it fulfils.

  An open escrow means that the stake is active, emptied and
  matured; a dormant identity has no shares and no escrow.
  From this the two commitment counters stay exact over the
  whole life of an identity.

  Key definitions include:
    * `Step.activates`
    * `Step.completes`
    * `Phased`
    * `Accounted`

  Key theorems include:
    * `LifeStep.phased`
    * `phased_reachable`
    * `lifecycle_phases`
    * `LifeStep.accounted`
    * `commitments_exact`
-/

------------------------------------------------------------
-- Phases
------------------------------------------------------------

namespace Vow

open MachineInt Fallible Transition

/- Does the instruction re-activate the identity? -/
def Instruction.activates
    (vowState : Pubkey) :
    Instruction → Bool
| .activateStake _ identity _ _ => identity = vowState
| _ => false

/- Does the instruction complete an exit of the identity? -/
def Instruction.completes
    (vowState : Pubkey) :
    Instruction → Bool
| .completeUnstake _ identity => identity = vowState
| _ => false

/- The same of a step of the chain. -/
def Step.activates
    (vowState : Pubkey)
    (step : Step) :
    Bool :=
  match step.action with
  | .instruction ix => ix.activates vowState
  | _ => false

def Step.completes
    (vowState : Pubkey)
    (step : Step) :
    Bool :=
  match step.action with
  | .instruction ix => ix.completes vowState
  | _ => false

theorem Step.activates_eq
    {step : Step}
    {ix : Instruction}
    (hAction : step.action = .instruction ix)
    {vowState : Pubkey} :
    step.activates vowState = ix.activates vowState := by
  unfold Step.activates
  rw [hAction]

theorem Step.completes_eq
    {step : Step}
    {ix : Instruction}
    (hAction : step.action = .instruction ix)
    {vowState : Pubkey} :
    step.completes vowState = ix.completes vowState := by
  unfold Step.completes
  rw [hAction]

/-
  The three phases: an exit in progress has emptied a matured
  stake, and a dormant identity holds nothing.
-/
structure Phased
    (life : Life) :
    Prop where
  unstaking :
    life.unstaking = true →
      life.vow.activeStake = true ∧
        life.vow.shares.val = 0 ∧
        life.vow.matured = true
  dormant :
    life.vow.activeStake = false →
      life.vow.shares.val = 0 ∧ life.unstaking = false

theorem LifeBirth.phased
    {env : Env}
    {config : ProtocolConfig}
    {vowState : Pubkey}
    {ix : Instruction}
    {life : Life}
    (hBirth : LifeBirth env config vowState ix life) :
    Phased life := by
  cases hBirth with
  | mint owner stakeLamports yieldMode stakeClass shares
      unlockAt hAddress hOpens =>
      refine ⟨?_, ?_⟩
      · intro hOpen
        exact absurd hOpen (by simp)
      · intro hDormant
        exact absurd hDormant (by simp [mintedVow])

/- A top-up finds no exit in progress. -/
theorem Phased.not_unstaking
    {life : Life}
    (hPhased : Phased life)
    (hStaked : 0 < life.vow.shares.val) :
    life.unstaking = false := by
  cases hOpen : life.unstaking with
  | false => rfl
  | true =>
      have hEmpty := (hPhased.unstaking hOpen).2.1
      omega

/- A live position in any form is in phase. -/
theorem Phased.of_live
    {life : Life}
    (hActive : life.vow.activeStake = true)
    (hOpen : life.unstaking = false) :
    Phased life where
  unstaking := by
    intro hUnstaking
    rw [hOpen] at hUnstaking
    exact absurd hUnstaking (by simp)
  dormant := by
    intro hDormant
    rw [hActive] at hDormant
    exact absurd hDormant (by simp)

theorem TopsUp.activeStake_eq
    {env : Env}
    {config : ProtocolConfig}
    {lamportsToAdd : U64}
    {vow vow' : VowState}
    (hTopUp : TopsUp env config lamportsToAdd vow vow') :
    vow'.activeStake = vow.activeStake := by
  cases hTopUp with
  | sameClass => rfl
  | raisesClass => rfl

theorem LifeStep.phased
    {env : Env}
    {config : ProtocolConfig}
    {vowState : Pubkey}
    {ix : Instruction}
    {life life' : Life}
    (hStep : LifeStep env config vowState ix life life')
    (hPhased : Phased life) :
    Phased life' := by
  cases hStep with
  | topUp owner lamportsToAdd vow vow' unstaking hActive
      hStaked hTopUp =>
      exact .of_live (hTopUp.activeStake_eq.trans hActive)
        (hPhased.not_unstaking hStaked)
  | unstake owner vow hActive hMature =>
      refine ⟨?_, ?_⟩
      · intro _
        exact ⟨hActive, Unsigned.val_zero, rfl⟩
      · intro hDormant
        exact absurd (hActive.symm.trans hDormant) (by simp)
  | complete owner vow =>
      refine ⟨?_, ?_⟩
      · intro hOpen
        exact absurd hOpen (by simp)
      · intro _
        exact ⟨(hPhased.unstaking rfl).2.1, rfl⟩
  | activate owner stakeLamports yieldMode newClass
      newShares unlockAt vow unstaking hDormant hOpens =>
      exact .of_live rfl (hPhased.dormant hDormant).2
  | harvest config' vow vow' unstaking hGain =>
      rcases harvestGain_step hGain with ⟨harvested, hVow⟩
      subst hVow
      have hShares := harvested.hShares
      refine ⟨?_, ?_⟩
      · intro hOpen
        rcases hPhased.unstaking hOpen with
          ⟨hActive, hEmpty, hMature⟩
        dsimp only at hEmpty
        refine ⟨hActive, ?_,
          harvested.hMatured.mpr (Or.inl hMature)⟩
        dsimp only
        omega
      · intro hDormant
        rcases hPhased.dormant hDormant with
          ⟨hEmpty, hClosed⟩
        dsimp only at hEmpty
        refine ⟨?_, hClosed⟩
        dsimp only
        omega
  | _ => exact ⟨hPhased.unstaking, hPhased.dormant⟩

theorem phased_reachable
    {w : World}
    (hReach : Reachable w)
    {vowState : Pubkey}
    {life : Life}
    (hLife : w.life vowState = some life) :
    Phased life := by
  refine hReach.life_invariant ?_ ?_ hLife
  · intro env config ix life hBirth
    exact hBirth.phased
  · intro env config ix life life' hPhased hStep
    exact hStep.phased hPhased

/- Only a re-activation gives shares to an emptied stake. -/
theorem LifeStep.shares_zero
    {env : Env}
    {config : ProtocolConfig}
    {vowState : Pubkey}
    {ix : Instruction}
    {life life' : Life}
    (hStep : LifeStep env config vowState ix life life')
    (hKeeps : ix.activates vowState = false)
    (hEmpty : life.vow.shares.val = 0) :
    life'.vow.shares.val = 0 := by
  cases hStep with
  | topUp owner lamportsToAdd vow vow' unstaking hActive
      hStaked hTopUp =>
      exact absurd hEmpty (Nat.ne_of_gt hStaked)
  | unstake => exact Unsigned.val_zero
  | activate =>
      exact absurd hKeeps (by simp [Instruction.activates])
  | harvest config' vow vow' unstaking hGain =>
      rcases harvestGain_step hGain with ⟨harvested, hVow⟩
      subst hVow
      have hShares := harvested.hShares
      dsimp only at hEmpty ⊢
      omega
  | _ => exact hEmpty

/-
  What every step but an activation keeps of an identity
  holds until its next activation.
-/
theorem World.life_until_activated
    {P : Life → Prop}
    {vowState : Pubkey}
    (hStep :
      ∀ env config ix life life',
        LifeStep env config vowState ix life life' →
        ix.activates vowState = false →
        P life → P life')
    {w : World}
    {life : Life}
    (hOwned : EscrowOwned w)
    (hLife : w.life vowState = some life)
    (hInit : P life)
    {steps : List Step}
    (hSteps :
      ∀ o ∈ w.trace steps,
        o.action.activates vowState = false) :
    ∃ life',
      (w.run steps).life vowState = some life' ∧
        P life' := by
  refine (World.life_kept ?_ hOwned hLife hInit hSteps).2
  intro o config ix life life' _ _ hAction hMove hKeeps
    hHolds
  rw [Step.activates_eq hAction] at hKeeps
  exact hStep _ config ix life life' hMove hKeeps hHolds

/- An emptied stake stays empty until a re-activation. -/
theorem shares_zero_kept
    {w : World}
    {vowState : Pubkey}
    {life : Life}
    (hOwned : EscrowOwned w)
    (hLife : w.life vowState = some life)
    (hEmpty : life.vow.shares.val = 0)
    {steps : List Step}
    (hSteps :
      ∀ o ∈ w.trace steps,
        o.action.activates vowState = false) :
    ∃ life',
      (w.run steps).life vowState = some life' ∧
        life'.vow.shares.val = 0 := by
  refine World.life_until_activated ?_ hOwned hLife hEmpty
    hSteps
  intro env config ix life life' hStep hKeeps hEmpty
  exact hStep.shares_zero hKeeps hEmpty

/-
  The phase invariant, and what follows from it: an exit that
  has begun leaves no shares until the next re-activation,
  and a completed exit was matured.
-/
theorem lifecycle_phases
    {w : World}
    (hReach : Reachable w)
    {vowState : Pubkey}
    {vow : VowState}
    (hLookup : w.vows.lookup vowState = some vow) :
    (w.escrows.lookup (.unstake vowState) ≠ none →
      vow.activeStake = true ∧ vow.shares.val = 0 ∧
        vow.matured = true) ∧
    (vow.activeStake = false →
      vow.shares.val = 0 ∧
        w.escrows.lookup (.unstake vowState) = none) ∧
    (∀ env owner w' steps,
      execute env w (.beginUnstake owner vowState) =
        .ok w' →
      (∀ o ∈ w'.trace steps,
        o.action.activates vowState = false) →
      ∃ vow',
        (w'.run steps).vows.lookup vowState = some vow' ∧
          vow'.shares.val = 0) ∧
    (∀ env owner w',
      execute env w (.completeUnstake owner vowState) =
        .ok w' →
      vow.matured = true) := by
  have hLife := World.life_of_lookup hLookup
  have hPhased := phased_reachable hReach hLife
  have hOwned := escrowOwned_reachable hReach
  have hExit :
      w.escrows.lookup (.unstake vowState) ≠ none →
        vow.activeStake = true ∧ vow.shares.val = 0 ∧
          vow.matured = true := by
    intro hOpen
    exact hPhased.unstaking
      (Option.isSome_iff_ne_none.mpr hOpen)
  refine ⟨hExit, ?_, ?_, ?_⟩
  · intro hDormant
    rcases hPhased.dormant hDormant with ⟨hEmpty, hClosed⟩
    refine ⟨hEmpty, ?_⟩
    by_contra hOpen
    rw [Option.isSome_iff_ne_none.mpr hOpen] at hClosed
    exact absurd hClosed (by simp)
  · intro env owner w' steps hOk hSteps
    rcases beginUnstake_life hOk with
      ⟨_, _, _, _, _, _, hAfter⟩
    rcases shares_zero_kept (execute_escrowOwned hOk hOwned)
      hAfter Unsigned.val_zero hSteps with
      ⟨life', hLife', hEmpty⟩
    exact ⟨life'.vow,
      (World.life_eq_some_iff.mp hLife').1, hEmpty⟩
  · intro env owner w' hOk
    rcases completeUnstake_eq_ok_iff.mp hOk with ⟨call, _⟩
    have hOpen :
        w.escrows.lookup (.unstake vowState) ≠ none := by
      rw [call.hEscrow]
      simp
    exact (hExit hOpen).2.2

/- A stake that has begun its exit after its lock. -/
def exitSteps : List Step :=
  [sampleInit,
    sampleStep 0 0
      (.mintVow sampleOwner 5000000000 .compound),
    sampleStep 2592000 1
      (.beginUnstake sampleOwner sampleVow)]

def exitChain : World :=
  sampleChain.run exitSteps

theorem exitChain_reachable :
    Reachable exitChain :=
  ⟨_, exitSteps, rfl⟩

theorem exitChain_found :
    ∃ vow, exitChain.vows.lookup sampleVow = some vow :=
  Option.isSome_iff_exists.mp (by decide +kernel)

theorem lifecycle_phases_exit :
    ∃ vow,
      exitChain.vows.lookup sampleVow = some vow ∧
        vow.activeStake = true ∧ vow.shares.val = 0 ∧
        vow.matured = true := by
  rcases exitChain_found with ⟨vow, hLookup⟩
  exact ⟨vow, hLookup,
    (lifecycle_phases exitChain_reachable hLookup).1
      (by decide +kernel)⟩

end Vow

------------------------------------------------------------
-- Commitments
------------------------------------------------------------

namespace Vow

open MachineInt Fallible Transition

/- Commitments in progress: one while the stake is active. -/
def VowState.inProgress
    (vow : VowState) :
    Nat :=
  if vow.activeStake then 1 else 0

/-
  The commitment counters. Below the largest 32-bit value
  they differ exactly by the commitment in progress.
-/
structure Accounted
    (vow : VowState) :
    Prop where
  fulfilled :
    vow.totalFulfilled.val ≤ vow.totalCommitments.val
  exact :
    vow.totalCommitments.val < 2 ^ 32 - 1 →
      vow.totalCommitments.val =
        vow.totalFulfilled.val + vow.inProgress

/-
  What one step does to the counters: a completed exit adds
  one fulfilment, a re-activation one commitment, and nothing
  else moves either.
-/
structure Counted
    (vowState : Pubkey)
    (ix : Instruction)
    (vow vow' : VowState) :
    Prop where
  fulfilled :
    vow'.totalFulfilled.val =
      if ix.completes vowState then
        min (vow.totalFulfilled.val + 1) (2 ^ 32 - 1)
      else
        vow.totalFulfilled.val
  commitments :
    vow'.totalCommitments.val =
      if ix.activates vowState then
        min (vow.totalCommitments.val + 1) (2 ^ 32 - 1)
      else
        vow.totalCommitments.val
  inProgress :
    vow'.activeStake =
      if ix.completes vowState then false
      else if ix.activates vowState then true
      else vow.activeStake

theorem TopsUp.counters_eq
    {env : Env}
    {config : ProtocolConfig}
    {lamportsToAdd : U64}
    {vow vow' : VowState}
    (hTopUp : TopsUp env config lamportsToAdd vow vow') :
    vow'.totalFulfilled = vow.totalFulfilled ∧
      vow'.totalCommitments = vow.totalCommitments := by
  cases hTopUp with
  | sameClass => exact ⟨rfl, rfl⟩
  | raisesClass => exact ⟨rfl, rfl⟩

theorem LifeStep.counted
    {env : Env}
    {config : ProtocolConfig}
    {vowState : Pubkey}
    {ix : Instruction}
    {life life' : Life}
    (hStep : LifeStep env config vowState ix life life')
    (hPhased : Phased life) :
    Counted vowState ix life.vow life'.vow := by
  cases hStep with
  | topUp owner lamportsToAdd vow vow' unstaking hActive
      hStaked hTopUp =>
      rcases hTopUp.counters_eq with ⟨hDone, hMade⟩
      exact ⟨congrArg Unsigned.val hDone,
        congrArg Unsigned.val hMade, hTopUp.activeStake_eq⟩
  | complete owner vow =>
      have hMature : vow.matured = true :=
        (hPhased.unstaking rfl).2.2
      refine ⟨?_, rfl, ?_⟩
      · simp only [Instruction.completes, dormantVow,
          hMature, decide_true, if_true,
          Unsigned.val_saturatingAdd]
        rfl
      · simp [Instruction.completes, dormantVow]
  | activate owner stakeLamports yieldMode newClass
      newShares unlockAt vow unstaking hDormant hOpens =>
      refine ⟨rfl, ?_, ?_⟩
      · simp only [Instruction.activates, activatedVow,
          decide_true, if_true, Unsigned.val_saturatingAdd]
        rfl
      · simp [Instruction.activates, Instruction.completes,
          activatedVow]
  | harvest config' vow vow' unstaking hGain =>
      rcases harvestGain_step hGain with ⟨harvested, hVow⟩
      subst hVow
      exact ⟨rfl, rfl, rfl⟩
  | _ => exact ⟨rfl, rfl, rfl⟩

/- A completion is a step of an exit in progress. -/
theorem LifeStep.unstaking_of_completes
    {env : Env}
    {config : ProtocolConfig}
    {vowState : Pubkey}
    {ix : Instruction}
    {life life' : Life}
    (hStep : LifeStep env config vowState ix life life')
    (hCompletes : ix.completes vowState = true) :
    life.unstaking = true := by
  cases hStep with
  | complete => rfl
  | _ =>
      exact absurd hCompletes
        (by simp [Instruction.completes])

/- A re-activation is a step of a dormant identity. -/
theorem LifeStep.dormant_of_activates
    {env : Env}
    {config : ProtocolConfig}
    {vowState : Pubkey}
    {ix : Instruction}
    {life life' : Life}
    (hStep : LifeStep env config vowState ix life life')
    (hActivates : ix.activates vowState = true) :
    life.vow.activeStake = false := by
  cases hStep with
  | activate owner stakeLamports yieldMode newClass
      newShares unlockAt vow unstaking hDormant =>
      exact hDormant
  | _ =>
      exact absurd hActivates
        (by simp [Instruction.activates])

theorem Counted.accounted
    {vowState : Pubkey}
    {ix : Instruction}
    {vow vow' : VowState}
    (hCounted : Counted vowState ix vow vow')
    (hCompletes :
      ix.completes vowState = true →
        vow.activeStake = true)
    (hActivates :
      ix.activates vowState = true →
        vow.activeStake = false)
    (hAccounted : Accounted vow) :
    Accounted vow' := by
  rcases hCounted with ⟨hDone, hMade, hActive⟩
  rcases hAccounted with ⟨hLe, hExact⟩
  unfold VowState.inProgress at hExact
  have hBound := vow.totalCommitments.isLt
  by_cases hC : ix.completes vowState = true
  · have hNot : ¬ ix.activates vowState = true := by
      intro hA
      exact absurd
        ((hCompletes hC).symm.trans (hActivates hA)) (by simp)
    rw [if_pos hC] at hDone hActive
    rw [if_neg hNot] at hMade
    rw [hCompletes hC, if_pos rfl] at hExact
    refine ⟨by omega, ?_⟩
    intro hFits
    rw [VowState.inProgress, hActive]
    simp only [Bool.false_eq_true, if_false]
    omega
  · rw [if_neg hC] at hDone hActive
    by_cases hA : ix.activates vowState = true
    · rw [if_pos hA] at hMade hActive
      rw [hActivates hA] at hExact
      simp only [Bool.false_eq_true, if_false] at hExact
      refine ⟨by omega, ?_⟩
      intro hFits
      rw [VowState.inProgress, hActive, if_pos rfl]
      omega
    · rw [if_neg hA] at hMade hActive
      refine ⟨by omega, ?_⟩
      intro hFits
      rw [VowState.inProgress, hActive]
      rw [hMade] at hFits
      rw [hMade, hDone]
      exact hExact hFits

theorem LifeStep.accounted
    {env : Env}
    {config : ProtocolConfig}
    {vowState : Pubkey}
    {ix : Instruction}
    {life life' : Life}
    (hStep : LifeStep env config vowState ix life life')
    (hPhased : Phased life)
    (hAccounted : Accounted life.vow) :
    Accounted life'.vow := by
  refine (hStep.counted hPhased).accounted ?_ ?_ hAccounted
  · intro hCompletes
    exact (hPhased.unstaking
      (hStep.unstaking_of_completes hCompletes)).1
  · intro hActivates
    exact hStep.dormant_of_activates hActivates

/- A mint opens the first commitment. -/
theorem LifeBirth.accounted
    {env : Env}
    {config : ProtocolConfig}
    {vowState : Pubkey}
    {ix : Instruction}
    {life : Life}
    (hBirth : LifeBirth env config vowState ix life) :
    Accounted life.vow := by
  cases hBirth with
  | mint => exact ⟨Nat.zero_le _, fun _ => rfl⟩

theorem accounted_reachable
    {w : World}
    (hReach : Reachable w)
    {vowState : Pubkey}
    {life : Life}
    (hLife : w.life vowState = some life) :
    Phased life ∧ Accounted life.vow := by
  refine hReach.life_invariant
    (P := fun life => Phased life ∧ Accounted life.vow)
    ?_ ?_ hLife
  · intro env config ix life hBirth
    exact ⟨hBirth.phased, hBirth.accounted⟩
  · rintro env config ix life life' ⟨hPhased, hAccounted⟩
      hStep
    exact ⟨hStep.phased hPhased,
      hStep.accounted hPhased hAccounted⟩

/- An instruction on another identity counts nothing. -/
theorem Instruction.not_completes
    {ix : Instruction}
    {vowState : Pubkey}
    (hIdle : ix.rewrites ≠ some vowState) :
    ix.completes vowState = false := by
  cases ix with
  | completeUnstake owner identity =>
      simpa [Instruction.completes, Instruction.rewrites]
        using hIdle
  | _ => rfl

theorem Step.not_completes
    {step : Step}
    {vowState : Pubkey}
    (hIdle :
      ∀ ix, step.action = .instruction ix →
        ix.rewrites ≠ some vowState) :
    step.completes vowState = false := by
  rcases step with ⟨env, action⟩
  cases action with
  | instruction ix =>
      exact Instruction.not_completes (hIdle ix rfl)
  | _ => rfl

/-
  Commitment accounting. The counters differ exactly by the
  commitment in progress, and the fulfilment counter moves
  only when an exit of a matured stake is completed, by one.
-/
theorem commitments_exact
    {w : World}
    (hReach : Reachable w)
    {vowState : Pubkey}
    {vow : VowState}
    (hLookup : w.vows.lookup vowState = some vow) :
    vow.totalFulfilled.val ≤ vow.totalCommitments.val ∧
    (vow.totalCommitments.val < 2 ^ 32 - 1 →
      vow.totalCommitments.val =
        vow.totalFulfilled.val +
          if vow.activeStake then 1 else 0) ∧
    ∀ (step : Step) w', step.exec w = some w' →
      ∃ vow',
        w'.vows.lookup vowState = some vow' ∧
        (step.completes vowState = true →
          vow.activeStake = true ∧ vow.matured = true ∧
            (vow.totalCommitments.val < 2 ^ 32 - 1 →
              vow'.totalFulfilled.val =
                vow.totalFulfilled.val + 1)) ∧
        (step.completes vowState = false →
          vow'.totalFulfilled = vow.totalFulfilled) := by
  have hLife := World.life_of_lookup hLookup
  rcases accounted_reachable hReach hLife with
    ⟨hPhased, hLe, hExact⟩
  refine ⟨hLe, hExact, ?_⟩
  intro step w' hExec
  rcases exec_moved hExec hLife with ⟨life', hLife', hMove⟩
  refine ⟨life'.vow, (World.life_eq_some_iff.mp hLife').1,
    ?_⟩
  cases hMove with
  | idle hIdle hSame =>
      rw [hSame, Step.not_completes hIdle]
      simp
  | acts config ix hConfig hAction hStep =>
      rw [Step.completes_eq hAction]
      have hDone := (hStep.counted hPhased).fulfilled
      refine ⟨?_, ?_⟩
      · intro hCompletes
        rcases hPhased.unstaking
          (hStep.unstaking_of_completes hCompletes) with
          ⟨hActive, _, hMature⟩
        refine ⟨hActive, hMature, ?_⟩
        intro hFits
        have hSum := hExact hFits
        rw [if_pos hCompletes] at hDone
        rw [hDone]
        dsimp only at hSum hFits ⊢
        omega
      · intro hOther
        rw [hOther] at hDone
        exact Unsigned.ext hDone

theorem commitments_exact_exit :
    ∃ vow,
      exitChain.vows.lookup sampleVow = some vow ∧
        vow.totalFulfilled.val ≤
          vow.totalCommitments.val := by
  rcases exitChain_found with ⟨vow, hLookup⟩
  exact ⟨vow, hLookup,
    (commitments_exact exitChain_reachable hLookup).1⟩

end Vow
