import VowProtocol.Correctness.Lock

/-
  The stake days that an identity records.

  Days are recorded when an exit completes, so they add up
  whole stakes across any number of cycles. They never exceed
  the time since the mint, and the lock makes every fulfilled
  commitment worth at least thirty of them.

  Key definitions include:
    * `Truthful`

  Key theorems include:
    * `dormantVow_days`
    * `LifeStep.truthful`
    * `truthful_run`
    * `stake_days_truthful`
-/

------------------------------------------------------------
-- Recorded Days
------------------------------------------------------------

namespace Vow

open MachineInt Fallible Transition

/-
  The stake days recorded so far are covered by the time the
  identity has been staked, and every fulfilment by thirty of
  them. While the stake is active its days are not recorded
  yet, so the record ends where the stake began.
-/
structure Truthful
    (vow : VowState)
    (now : Int) :
    Prop where
  nonneg : 0 ≤ vow.currentStakeStartedAt.val
  began : vow.currentStakeStartedAt.val ≤ now
  locked :
    vow.currentStakeStartedAt.val + 30 * 86400 ≤
      vow.unlockAt.val
  matured :
    vow.matured = true →
      vow.currentStakeStartedAt.val + 30 * 86400 ≤ now
  fulfilled :
    30 * vow.totalFulfilled.val ≤
      vow.cumulativeStakeDays.val
  recorded :
    vow.firstStakedAt.val +
        86400 * vow.cumulativeStakeDays.val ≤
      if vow.activeStake then
        vow.currentStakeStartedAt.val
      else now

theorem Truthful.later
    {vow : VowState}
    {now now' : Int}
    (hTruthful : Truthful vow now)
    (hLe : now ≤ now') :
    Truthful vow now' where
  nonneg := hTruthful.nonneg
  began := hTruthful.began.trans hLe
  locked := hTruthful.locked
  matured := fun hMatured =>
    (hTruthful.matured hMatured).trans hLe
  fulfilled := hTruthful.fulfilled
  recorded := by
    have hRecorded := hTruthful.recorded
    split
    · rename_i hActive
      rwa [if_pos hActive] at hRecorded
    · rename_i hDormant
      rw [if_neg hDormant] at hRecorded
      exact hRecorded.trans hLe

/- The record never reaches past the present. -/
theorem Truthful.recorded_le
    {vow : VowState}
    {now : Int}
    (hTruthful : Truthful vow now) :
    vow.firstStakedAt.val +
        86400 * vow.cumulativeStakeDays.val ≤ now := by
  have hRecorded := hTruthful.recorded
  split at hRecorded
  · exact hRecorded.trans hTruthful.began
  · exact hRecorded

/- A completed stake records its whole days. -/
theorem dormantVow_days
    {now : I64}
    {vow : VowState}
    (hNonneg : 0 ≤ vow.currentStakeStartedAt.val)
    (hBegan : vow.currentStakeStartedAt.val ≤ now.val) :
    (dormantVow now vow).cumulativeStakeDays.val =
      min
        (vow.cumulativeStakeDays.val +
          (now.val -
            vow.currentStakeStartedAt.val).toNat / 86400)
        (2 ^ 64 - 1) := by
  have hUpper := now.upper
  have hSeconds :
      (now.saturatingSub vow.currentStakeStartedAt).val =
        now.val - vow.currentStakeStartedAt.val := by
    rw [Signed.val_saturatingSub]
    omega
  unfold dormantVow
  dsimp only
  rw [Unsigned.val_saturatingAdd, Unsigned.val_ofNat,
    hSeconds, Nat.mod_eq_of_lt (by omega)]
  rfl

theorem Truthful.complete
    {now : I64}
    {vow : VowState}
    (hTruthful : Truthful vow now.val)
    (hActive : vow.activeStake = true)
    (hMatured : vow.matured = true) :
    Truthful (dormantVow now vow) now.val := by
  have hNonneg := hTruthful.nonneg
  have hBegan := hTruthful.began
  have hRipe := hTruthful.matured hMatured
  have hFulfilled := hTruthful.fulfilled
  have hRecorded := hTruthful.recorded
  have hDays := dormantVow_days hNonneg hBegan
  rw [hActive, if_pos rfl] at hRecorded
  refine ⟨hNonneg, hBegan, hTruthful.locked,
    hTruthful.matured, ?_, ?_⟩
  · have hCount :
        (dormantVow now vow).totalFulfilled.val ≤
          vow.totalFulfilled.val + 1 ∧
        (dormantVow now vow).totalFulfilled.val <
          2 ^ 32 := by
      refine ⟨?_, Unsigned.isLt _⟩
      simp only [dormantVow, hMatured, if_true,
        Unsigned.val_saturatingAdd]
      exact min_le_left _ _
    rw [hDays]
    omega
  · change vow.firstStakedAt.val + _ ≤ now.val
    rw [hDays]
    omega

theorem LifeStep.truthful
    {env : Env}
    {config : ProtocolConfig}
    {vowState : Pubkey}
    {ix : Instruction}
    {life life' : Life}
    (hStep : LifeStep env config vowState ix life life')
    (hPool : config.splStakePool ≠ .default)
    (hClock : 0 ≤ env.unixTimestamp.val)
    (hPhased : Phased life)
    (hTruthful :
      Truthful life.vow env.unixTimestamp.val) :
    Truthful life'.vow env.unixTimestamp.val := by
  cases hStep with
  | fastUnlock admin vow unstaking hDefault =>
      exact absurd hDefault hPool
  | topUp owner lamportsToAdd vow vow' unstaking hActive
      hStaked hTopUp =>
      cases hTopUp with
      | sameClass =>
          exact { hTruthful with }
      | raisesClass principal newClass shares unlockAt
          hPrincipal hNewClass hShares hClass hLock =>
          rcases hLock with ⟨lock, hLock, hUnlock⟩
          have hLong := lockDuration_ge hLock
          have hBegan := hTruthful.began
          refine { hTruthful with
            locked := ?_
            matured := fun hFalse =>
              absurd hFalse (by simp) }
          change vow.currentStakeStartedAt.val + _ ≤
            unlockAt.val
          dsimp only at hBegan
          omega
  | unstake owner vow hActive hMature =>
      refine { hTruthful with matured := ?_ }
      intro _
      rcases hMature with hMatured | hDue
      · exact hTruthful.matured hMatured
      · exact hTruthful.locked.trans hDue
  | complete owner vow =>
      rcases hPhased.unstaking rfl with
        ⟨hActive, _, hMatured⟩
      exact hTruthful.complete hActive hMatured
  | activate owner stakeLamports yieldMode newClass
      newShares unlockAt vow unstaking hDormant hOpens =>
      rcases hOpens.locked with ⟨lock, hLock, hUnlock⟩
      have hLong := lockDuration_ge hLock
      refine ⟨hClock, le_refl _, ?_,
        fun hFalse => absurd hFalse (by simp [activatedVow]),
        hTruthful.fulfilled, hTruthful.recorded_le⟩
      change env.unixTimestamp.val + _ ≤ unlockAt.val
      omega
  | harvest config' vow vow' unstaking hGain =>
      rcases harvestGain_step hGain with ⟨harvested, hVow⟩
      subst hVow
      refine { hTruthful with matured := ?_ }
      intro hTrue
      rcases harvested.hMatured.mp hTrue with hBefore | hDue
      · exact hTruthful.matured hBefore
      · exact hTruthful.locked.trans hDue
  | _ => exact { hTruthful with }

/- A mint at a nonnegative time starts an empty record. -/
theorem LifeBirth.truthful
    {env : Env}
    {config : ProtocolConfig}
    {vowState : Pubkey}
    {ix : Instruction}
    {life : Life}
    (hBirth : LifeBirth env config vowState ix life)
    (hClock : 0 ≤ env.unixTimestamp.val) :
    Truthful life.vow env.unixTimestamp.val := by
  cases hBirth with
  | mint owner stakeLamports yieldMode stakeClass shares
      unlockAt hAddress hOpens =>
      rcases hOpens.locked with ⟨lock, hLock, hUnlock⟩
      have hLong := lockDuration_ge hLock
      refine ⟨hClock, le_refl _, ?_,
        fun hFalse => absurd hFalse (by simp [mintedVow]),
        Nat.zero_le _, ?_⟩
      · change env.unixTimestamp.val + _ ≤ unlockAt.val
        omega
      · exact (Int.add_zero env.unixTimestamp.val).le

end Vow

------------------------------------------------------------
-- Days Along A Run
------------------------------------------------------------

namespace Vow

open MachineInt Fallible Transition

theorem truthful_run
    {lamports : Lamports}
    {steps : List Step}
    {now : Int}
    (hClock : MonotoneClock steps)
    (hNonneg : ∀ step ∈ steps, 0 ≤ step.time)
    (hPool : PoolAlways (World.genesis lamports) steps)
    (hNow : ∀ step ∈ steps, step.time ≤ now)
    {vowState : Pubkey}
    {life : Life}
    (hLife :
      ((World.genesis lamports).run steps).life vowState =
        some life) :
    Phased life ∧ Truthful life.vow now := by
  have hAdmissible :
      ∀ o ∈ (World.genesis lamports).trace steps,
        PoolConfigured o.before ∧ 0 ≤ o.action.time := by
    intro o ho
    exact ⟨hPool.before o ho,
      hNonneg o.action (mem_trace_action ho)⟩
  refine World.life_clocked
    (P := fun _ life t => Phased life ∧ Truthful life.vow t)
    ?_ ?_ ?_ hClock hNow hAdmissible hLife
  · rintro steps life t t' ⟨hPhased, hTruthful⟩ hLe
    exact ⟨hPhased, hTruthful.later hLe⟩
  · rintro steps o life _ _ ⟨config, ix, _, _, hMint⟩
      ⟨_, hTime⟩
    exact ⟨hMint.phased, hMint.truthful hTime⟩
  · rintro steps o life life' _ _ hMove ⟨hReal, hTime⟩
      ⟨hPhased, hTruthful⟩
    cases hMove with
    | idle hIdle hSame =>
        rw [hSame]
        exact ⟨hPhased, hTruthful⟩
    | acts config ix hConfig hAction hStep =>
        exact ⟨hStep.phased hPhased,
          hStep.truthful (hReal config hConfig) hTime hPhased
            hTruthful⟩

/-
  Reputation days are truthful: thirty for every fulfilled
  commitment, and no more than have passed since the mint.
  Neither bound needs the counters to stay below their
  widths.
-/
theorem stake_days_truthful
    {lamports : Lamports}
    {steps : List Step}
    {now : Int}
    (hClock : MonotoneClock steps)
    (hNonneg : ∀ step ∈ steps, 0 ≤ step.time)
    (hPool : PoolAlways (World.genesis lamports) steps)
    (hNow : ∀ step ∈ steps, step.time ≤ now)
    {vowState : Pubkey}
    {vow : VowState}
    (hLookup :
      ((World.genesis lamports).run steps).vows.lookup
        vowState = some vow) :
    30 * vow.totalFulfilled.val ≤
        vow.cumulativeStakeDays.val ∧
      (vow.cumulativeStakeDays.val : Int) ≤
        (now - vow.firstStakedAt.val) / 86400 := by
  rcases truthful_run hClock hNonneg hPool hNow
    (World.life_of_lookup hLookup) with ⟨_, hTruthful⟩
  refine ⟨hTruthful.fulfilled, ?_⟩
  have hRecorded := hTruthful.recorded_le
  dsimp only at hRecorded
  omega

/- An exit in a configured pool, completed an epoch later. -/
def paidSteps : List Step :=
  soloSteps ++
    [sampleStep 2678400 2 topUp, sampleStep 2678400 2 payUp]

theorem stake_days_truthful_paid :
    ∃ vow,
      (sampleChain.run paidSteps).vows.lookup sampleVow =
          some vow ∧
        vow.totalFulfilled.val = 1 ∧
        30 * vow.totalFulfilled.val ≤
          vow.cumulativeStakeDays.val ∧
        (vow.cumulativeStakeDays.val : Int) ≤
          (2678400 - vow.firstStakedAt.val) / 86400 := by
  have hFulfilled :
      ((sampleChain.run paidSteps).vows.lookup
        sampleVow).map (fun vow => vow.totalFulfilled.val) =
          some 1 := by
    decide +kernel
  rcases Option.map_eq_some_iff.mp hFulfilled with
    ⟨vow, hLookup, hOne⟩
  have hClock : MonotoneClock paidSteps := by
    decide
  have hNonneg : ∀ step ∈ paidSteps, 0 ≤ step.time := by
    decide
  have hNow : ∀ step ∈ paidSteps, step.time ≤ 2678400 := by
    decide
  have hPool : PoolAlways sampleChain paidSteps := by
    decide +kernel
  exact ⟨vow, hLookup, hOne,
    stake_days_truthful hClock hNonneg hPool hNow hLookup⟩

end Vow
