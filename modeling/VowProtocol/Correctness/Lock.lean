import VowProtocol.Correctness.Payout
import VowProtocol.Correctness.Reputation
import VowProtocol.Correctness.SessionLimits

/-
  The lock of a stake.

  Maturity is cached in a sticky flag, so what the flag means
  is an invariant over whole runs: it is only ever set when
  the lock of the current class, counted from the latest step
  that started a lock, has run out.

  Key definitions include:
    * `PoolConfigured`
    * `StartsLock`
    * `LockedSince`

  Key theorems include:
    * `lockDuration_mono`
    * `move_lockedSince`
    * `lockedSince_run`
    * `lock_never_bypassed`
-/

------------------------------------------------------------
-- Locks
------------------------------------------------------------

namespace Vow

open MachineInt Fallible Transition

/- Longer classes have longer locks. -/
theorem lockSeconds_sorted :
    LOCK_SECONDS.Pairwise fun shorter longer =>
      shorter.val ≤ longer.val := by
  decide

theorem lockDuration_mono
    {lower higher : U8}
    {shorter longer : I64}
    (hLower : lockDuration lower = .ok shorter)
    (hHigher : lockDuration higher = .ok longer)
    (hLess : lower < higher) :
    shorter.val ≤ longer.val := by
  rcases List.getElem?_eq_some_iff.mp
    (okOr_eq_ok_iff.mp hLower) with ⟨hFirst, hShorter⟩
  rcases List.getElem?_eq_some_iff.mp
    (okOr_eq_ok_iff.mp hHigher) with ⟨hSecond, hLonger⟩
  rw [← hShorter, ← hLonger]
  exact List.pairwise_iff_getElem.mp lockSeconds_sorted _ _
    hFirst hSecond hLess

/- Every lock is at least thirty days. -/
theorem lockDuration_ge
    {stakeClass : U8}
    {lock : I64}
    (hLock : lockDuration stakeClass = .ok lock) :
    30 * 86400 ≤ lock.val := by
  have hAll :
      ∀ lock ∈ LOCK_SECONDS, 30 * 86400 ≤ lock.val := by
    decide
  exact hAll lock
    (List.mem_of_getElem? (okOr_eq_ok_iff.mp hLock))

/- A configuration, if there is one, names a real pool. -/
def PoolConfigured
    (w : World) :
    Prop :=
  ∀ config, w.config = some config →
    config.splStakePool ≠ .default

instance (w : World) : Decidable (PoolConfigured w) :=
  match hConfig : w.config with
  | none =>
      isTrue (by simp [PoolConfigured, hConfig])
  | some config =>
      decidable_of_iff (config.splStakePool ≠ .default)
        (by simp [PoolConfigured, hConfig])

/- Every state of the run names a real pool. -/
def PoolAlways
    (w : World)
    (steps : List Step) :
    Prop :=
  ∀ first, first <+: steps → PoolConfigured (w.run first)

instance (w : World) (steps : List Step) :
    Decidable (PoolAlways w steps) :=
  decidable_of_iff
    (∀ first ∈ steps.inits, PoolConfigured (w.run first))
    (by simp [PoolAlways, List.mem_inits])

theorem PoolAlways.before
    {w : World}
    {steps : List Step}
    (hPool : PoolAlways w steps) :
    ∀ o ∈ w.trace steps, PoolConfigured o.before := by
  intro o ho
  rcases mem_trace_elim ho with
    ⟨first, second, hSplit, hBefore, _⟩
  rw [hBefore]
  exact hPool first ⟨_, hSplit.symm⟩

/-
  A step that starts a lock of the identity: its mint, a
  re-activation or a top-up that raises its class.
-/
inductive StartsLock
    (vowState : Pubkey)
    (o : Occurrence World Step) :
    Prop where
  | mint
      (owner : Signer)
      (stakeLamports : U64)
      (yieldMode : YieldMode)
      (hAction :
        o.action.action =
          .instruction
            (.mintVow owner stakeLamports yieldMode))
      (hBefore : o.before.vows.lookup vowState = none)
      (hAfter : o.after.vows.lookup vowState ≠ none)
  | activate
      (owner : Signer)
      (stakeLamports : U64)
      (yieldMode : YieldMode)
      (hAction :
        o.action.action =
          .instruction
            (.activateStake owner vowState stakeLamports
              yieldMode))
  | raise
      (owner : Signer)
      (lamportsToAdd : U64)
      (vow vow' : VowState)
      (hAction :
        o.action.action =
          .instruction
            (.addStake owner vowState lamportsToAdd))
      (hBefore : o.before.vows.lookup vowState = some vow)
      (hAfter : o.after.vows.lookup vowState = some vow')
      (hClass : vow.stakeClass < vow'.stakeClass)

/- Other instructions on an existing identity start none. -/
theorem not_startsLock
    {vowState : Pubkey}
    {o : Occurrence World Step}
    (hExists : o.before.vows.lookup vowState ≠ none)
    (hOther :
      ∀ ix, o.action.action = .instruction ix →
        ix.activates vowState = false ∧
          ∀ owner lamportsToAdd,
            ix ≠ .addStake owner vowState lamportsToAdd) :
    ¬ StartsLock vowState o := by
  intro hStart
  cases hStart with
  | mint owner stakeLamports yieldMode hAction hBefore =>
      exact hExists hBefore
  | activate owner stakeLamports yieldMode hAction =>
      exact absurd (hOther _ hAction).1
        (by simp [Instruction.activates])
  | raise owner lamportsToAdd vow vow' hAction =>
      exact (hOther _ hAction).2 owner lamportsToAdd rfl

end Vow

------------------------------------------------------------
-- The Lock Along A Run
------------------------------------------------------------

namespace Vow

open MachineInt Fallible Transition

/-
  The lock of the current class, counted from `start`, is in
  force: the maturity flag is only set once it has run out,
  and a dormant identity has matured.
-/
structure LockHeld
    (start : Int)
    (lock : I64)
    (vow : VowState)
    (now : Int) :
    Prop where
  duration : lockDuration vow.stakeClass = .ok lock
  unlockAt : vow.unlockAt.val = start + lock.val
  began : start ≤ now
  matured : vow.matured = true → vow.unlockAt.val ≤ now
  dormant : vow.activeStake = false → vow.matured = true

theorem LockHeld.later
    {start now now' : Int}
    {lock : I64}
    {vow : VowState}
    (hHeld : LockHeld start lock vow now)
    (hLe : now ≤ now') :
    LockHeld start lock vow now' where
  duration := hHeld.duration
  unlockAt := hHeld.unlockAt
  began := hHeld.began.trans hLe
  matured := fun hMatured => (hHeld.matured hMatured).trans hLe
  dormant := hHeld.dormant

/- A lock that starts now is in force. -/
theorem LockEnds.held
    {now : I64}
    {vow : VowState}
    (hEnds : LockEnds now vow.stakeClass vow.unlockAt)
    (hMatured : vow.matured = false)
    (hActive : vow.activeStake = true) :
    ∃ lock, LockHeld now.val lock vow now.val := by
  rcases hEnds with ⟨lock, hLock, hUnlock⟩
  refine ⟨lock, hLock, hUnlock, le_refl _, ?_, ?_⟩
  · intro hTrue
    rw [hMatured] at hTrue
    exact absurd hTrue (by simp)
  · intro hFalse
    rw [hActive] at hFalse
    exact absurd hFalse (by simp)

/-
  A step that keeps the class and the end of the lock, and
  sets the maturity flag only when it may.
-/
structure KeepsLock
    (now : Int)
    (vow vow' : VowState) :
    Prop where
  stakeClass : vow'.stakeClass = vow.stakeClass
  unlockAt : vow'.unlockAt = vow.unlockAt
  matured :
    vow'.matured = true →
      vow.matured = true ∨ vow.unlockAt.val ≤ now
  dormant :
    vow'.activeStake = false → vow'.matured = true

theorem LockHeld.kept
    {start now : Int}
    {lock : I64}
    {vow vow' : VowState}
    (hHeld : LockHeld start lock vow now)
    (hKeeps : KeepsLock now vow vow') :
    LockHeld start lock vow' now where
  duration := by
    rw [hKeeps.stakeClass]
    exact hHeld.duration
  unlockAt := by
    rw [hKeeps.unlockAt]
    exact hHeld.unlockAt
  began := hHeld.began
  matured := by
    intro hMatured
    rw [hKeeps.unlockAt]
    rcases hKeeps.matured hMatured with hBefore | hDue
    · exact hHeld.matured hBefore
    · exact hDue
  dormant := hKeeps.dormant

/- A step that does not touch the lock at all. -/
theorem LockHeld.keepsLock
    {start now : Int}
    {lock : I64}
    {vow vow' : VowState}
    (hHeld : LockHeld start lock vow now)
    (hClass : vow'.stakeClass = vow.stakeClass)
    (hUnlock : vow'.unlockAt = vow.unlockAt)
    (hMatured : vow'.matured = vow.matured)
    (hActive : vow'.activeStake = vow.activeStake) :
    KeepsLock now vow vow' := by
  refine ⟨hClass, hUnlock, ?_, ?_⟩
  · intro hTrue
    exact Or.inl (hMatured.symm.trans hTrue)
  · intro hFalse
    rw [hMatured]
    exact hHeld.dormant (hActive.symm.trans hFalse)

/-
  The lock in force was started by the latest step of the
  history that started one.
-/
def LockedSince
    (vowState : Pubkey)
    (steps : List (Occurrence World Step))
    (vow : VowState)
    (now : Int) :
    Prop :=
  ∃ earlier start later lock,
    steps = earlier ++ start :: later ∧
      StartsLock vowState start ∧
      (∀ o ∈ later, ¬ StartsLock vowState o) ∧
      LockHeld start.action.time lock vow now

theorem LockedSince.later
    {vowState : Pubkey}
    {steps : List (Occurrence World Step)}
    {vow : VowState}
    {now now' : Int}
    (hLocked : LockedSince vowState steps vow now)
    (hLe : now ≤ now') :
    LockedSince vowState steps vow now' := by
  rcases hLocked with
    ⟨earlier, start, later, lock, hSplit, hStart, hQuiet,
      hHeld⟩
  exact ⟨earlier, start, later, lock, hSplit, hStart, hQuiet,
    hHeld.later hLe⟩

/- A step that starts a lock becomes the latest one. -/
theorem LockedSince.restart
    {vowState : Pubkey}
    {steps : List (Occurrence World Step)}
    {o : Occurrence World Step}
    {vow : VowState}
    (hStart : StartsLock vowState o)
    (hEnds :
      LockEnds o.action.env.unixTimestamp vow.stakeClass
        vow.unlockAt)
    (hMatured : vow.matured = false)
    (hActive : vow.activeStake = true) :
    LockedSince vowState (steps ++ [o]) vow
      o.action.time := by
  rcases hEnds.held hMatured hActive with ⟨lock, hHeld⟩
  refine ⟨steps, o, [], lock, rfl, hStart, ?_, hHeld⟩
  intro later hLater
  exact absurd hLater (by simp)

/- A step that starts no lock joins the quiet ones. -/
theorem LockedSince.quiet
    {vowState : Pubkey}
    {steps : List (Occurrence World Step)}
    {o : Occurrence World Step}
    {vow vow' : VowState}
    {now : Int}
    (hLocked : LockedSince vowState steps vow now)
    (hNot : ¬ StartsLock vowState o)
    (hKeeps :
      ∀ start lock, LockHeld start lock vow now →
        KeepsLock now vow vow') :
    LockedSince vowState (steps ++ [o]) vow' now := by
  rcases hLocked with
    ⟨earlier, start, later, lock, hSplit, hStart, hQuiet,
      hHeld⟩
  refine ⟨earlier, start, later ++ [o], lock, ?_, hStart, ?_,
    hHeld.kept (hKeeps _ lock hHeld)⟩
  · rw [hSplit, List.append_assoc, List.cons_append]
  · intro p hp
    rcases List.mem_append.mp hp with hOld | hNew
    · exact hQuiet p hOld
    · rw [List.mem_singleton.mp hNew]
      exact hNot

/- A birth is the first step that starts a lock. -/
theorem birth_lockedSince
    {vowState : Pubkey}
    {steps : List (Occurrence World Step)}
    {o : Occurrence World Step}
    {life : Life}
    (hBefore : o.before.life vowState = none)
    (hAfter : o.after.life vowState = some life)
    (hBirth : StepBirth vowState o.before o.action life) :
    LockedSince vowState (steps ++ [o]) life.vow
      o.action.time := by
  rcases hBirth with ⟨config, ix, _, hAction, hMint⟩
  cases hMint with
  | mint owner stakeLamports yieldMode stakeClass shares
      unlockAt hAddress hOpens =>
      refine LockedSince.restart
        (.mint owner stakeLamports yieldMode hAction
          (World.life_eq_none_iff.mp hBefore) ?_)
        hOpens.locked rfl rfl
      rw [(World.life_eq_some_iff.mp hAfter).1]
      simp

/- A top-up restarts the lock or leaves it alone. -/
theorem topUp_lockedSince
    {vowState : Pubkey}
    {steps : List (Occurrence World Step)}
    {o : Occurrence World Step}
    {config : ProtocolConfig}
    {owner : Signer}
    {lamportsToAdd : U64}
    {vow vow' : VowState}
    (hAction :
      o.action.action =
        .instruction
          (.addStake owner vowState lamportsToAdd))
    (hBefore : o.before.vows.lookup vowState = some vow)
    (hAfter : o.after.vows.lookup vowState = some vow')
    (hActive : vow.activeStake = true)
    (hTopUp :
      TopsUp o.action.env config lamportsToAdd vow vow')
    (hLocked :
      LockedSince vowState steps vow o.action.time) :
    LockedSince vowState (steps ++ [o]) vow'
      o.action.time := by
  cases hTopUp with
  | sameClass principal newClass shares hPrincipal
      hNewClass hShares hClass =>
      refine hLocked.quiet ?_ ?_
      · intro hStart
        cases hStart with
        | mint owner stakeLamports yieldMode hMint =>
            rw [hAction] at hMint
            exact absurd hMint (by simp)
        | activate owner stakeLamports yieldMode hActivate =>
            rw [hAction] at hActivate
            exact absurd hActivate (by simp)
        | raise owner amount found found' _ hFound hFound'
            hRaise =>
            rw [hBefore] at hFound
            rw [hAfter] at hFound'
            rw [← Option.some.inj hFound,
              ← Option.some.inj hFound'] at hRaise
            exact absurd hRaise (Nat.lt_irrefl _)
      · intro start lock hHeld
        exact hHeld.keepsLock rfl rfl rfl rfl
  | raisesClass principal newClass shares unlockAt
      hPrincipal hNewClass hShares hClass hLock =>
      exact LockedSince.restart
        (.raise owner lamportsToAdd vow _ hAction hBefore
          hAfter hClass) hLock rfl hActive

/-
  Every step of an identity keeps the lock in force, as long
  as `dev_fast_unlock` is refused.
-/
theorem move_lockedSince
    {vowState : Pubkey}
    {steps : List (Occurrence World Step)}
    {o : Occurrence World Step}
    {life life' : Life}
    (hBefore : o.before.life vowState = some life)
    (hAfter : o.after.life vowState = some life')
    (hMove :
      StepMove vowState o.before o.action life life')
    (hPool : PoolConfigured o.before)
    (hPhased : Phased life)
    (hLocked :
      LockedSince vowState steps life.vow o.action.time) :
    LockedSince vowState (steps ++ [o]) life'.vow
      o.action.time := by
  have hFound := (World.life_eq_some_iff.mp hBefore).1
  have hFound' := (World.life_eq_some_iff.mp hAfter).1
  have hExists : o.before.vows.lookup vowState ≠ none := by
    rw [hFound]
    simp
  cases hMove with
  | idle hIdle hSame =>
      rw [hSame]
      refine hLocked.quiet (not_startsLock hExists ?_) ?_
      · intro ix hAction
        have hOther := hIdle ix hAction
        constructor
        · cases ix with
          | activateStake owner identity =>
              simpa [Instruction.activates,
                Instruction.rewrites] using hOther
          | _ => rfl
        · intro owner lamportsToAdd hIx
          rw [hIx] at hOther
          exact hOther rfl
      · intro start lock hHeld
        exact hHeld.keepsLock rfl rfl rfl rfl
  | acts config ix hConfig hAction hStep =>
      have hNot :
          ix.activates vowState = false →
          (∀ owner lamportsToAdd,
            ix ≠ .addStake owner vowState lamportsToAdd) →
          ¬ StartsLock vowState o := by
        intro hKeeps hOther
        refine not_startsLock hExists ?_
        intro found hFoundAction
        rw [hAction] at hFoundAction
        rw [← Action.instruction.inj hFoundAction]
        exact ⟨hKeeps, hOther⟩
      cases hStep with
      | fastUnlock admin vow unstaking hDefault =>
          exact absurd hDefault (hPool config hConfig)
      | topUp owner lamportsToAdd vow vow' unstaking
          hActive hStaked hTopUp =>
          exact topUp_lockedSince hAction hFound hFound'
            hActive hTopUp hLocked
      | unstake owner vow hActive hMature =>
          refine hLocked.quiet (hNot rfl (by simp)) ?_
          intro start lock hHeld
          exact ⟨rfl, rfl, fun _ => hMature, fun _ => rfl⟩
      | complete owner vow =>
          refine hLocked.quiet (hNot rfl (by simp)) ?_
          intro start lock hHeld
          exact ⟨rfl, rfl, Or.inl,
            fun _ => (hPhased.unstaking rfl).2.2⟩
      | activate owner stakeLamports yieldMode newClass
          newShares unlockAt vow unstaking hDormant hOpens =>
          exact LockedSince.restart
            (.activate owner stakeLamports yieldMode hAction)
            hOpens.locked rfl rfl
      | harvest config' vow vow' unstaking hGain =>
          rcases harvestGain_step hGain with ⟨harvested, hVow⟩
          subst hVow
          refine hLocked.quiet (hNot rfl (by simp)) ?_
          intro start lock hHeld
          refine ⟨rfl, rfl, harvested.hMatured.mp, ?_⟩
          intro hDormant
          exact harvested.hMatured.mpr
            (Or.inl (hHeld.dormant hDormant))
      | _ =>
          refine hLocked.quiet (hNot rfl (by simp)) ?_
          intro start lock hHeld
          exact hHeld.keepsLock rfl rfl rfl rfl

/-
  Invariants of one identity over the history of a run whose
  clock never goes back, read at any time from its last step
  on.
-/
theorem World.life_clocked
    {P : List (Occurrence World Step) → Life → Int → Prop}
    {Admissible : Occurrence World Step → Prop}
    {vowState : Pubkey}
    (hLater :
      ∀ steps life t t', P steps life t → t ≤ t' →
        P steps life t')
    (hBirth :
      ∀ steps o life, o.before.life vowState = none →
        o.after.life vowState = some life →
        StepBirth vowState o.before o.action life →
        Admissible o → P (steps ++ [o]) life o.action.time)
    (hMove :
      ∀ steps o life life',
        o.before.life vowState = some life →
        o.after.life vowState = some life' →
        StepMove vowState o.before o.action life life' →
        Admissible o → P steps life o.action.time →
        P (steps ++ [o]) life' o.action.time)
    {lamports : Lamports}
    {steps : List Step}
    {now : Int}
    (hClock : MonotoneClock steps)
    (hNow : ∀ step ∈ steps, step.time ≤ now)
    (hSteps :
      ∀ o ∈ (World.genesis lamports).trace steps,
        Admissible o)
    {life : Life}
    (hLife :
      ((World.genesis lamports).run steps).life vowState =
        some life) :
    P ((World.genesis lamports).trace steps) life now := by
  have hOwned : EscrowOwned (World.genesis lamports) :=
    escrowOwned_reachable ⟨lamports, [], rfl⟩
  have hEmpty :
      (World.genesis lamports).life vowState = none := rfl
  -- Timestamps are 64-bit, so the initial time is below all.
  have hFuture :
      ∀ step ∈ steps, min now (-2 ^ 63) ≤ step.time := by
    intro step _
    exact (min_le_right _ _).trans
      step.env.unixTimestamp.lower
  rcases (lifeOf vowState).clocked_invariant Step.time hLater
    (fun steps w step w' => hBirth steps ⟨w, step, w'⟩)
    (fun steps w step w' => hMove steps ⟨w, step, w'⟩)
    hOwned hEmpty hFuture hClock hSteps with
    ⟨t, hTime, hHolds⟩
  refine hLater _ _ _ _ (hHolds life hLife) ?_
  rcases hTime with hFirst | ⟨step, hStep, hLast⟩
  · rw [hFirst]
    exact min_le_left _ _
  · rw [hLast]
    exact hNow step hStep

/- The lock is in force at the end of every run. -/
theorem lockedSince_run
    {lamports : Lamports}
    {steps : List Step}
    {now : Int}
    (hClock : MonotoneClock steps)
    (hPool : PoolAlways (World.genesis lamports) steps)
    (hNow : ∀ step ∈ steps, step.time ≤ now)
    {vowState : Pubkey}
    {life : Life}
    (hLife :
      ((World.genesis lamports).run steps).life vowState =
        some life) :
    Phased life ∧
      LockedSince vowState
        ((World.genesis lamports).trace steps) life.vow
        now := by
  refine World.life_clocked
    (P := fun steps life t =>
      Phased life ∧ LockedSince vowState steps life.vow t)
    ?_ ?_ ?_ hClock hNow hPool.before hLife
  · rintro steps life t t' ⟨hPhased, hLocked⟩ hLe
    exact ⟨hPhased, hLocked.later hLe⟩
  · intro steps o life hBefore hAfter hBirth _
    refine ⟨?_, birth_lockedSince hBefore hAfter hBirth⟩
    rcases hBirth with ⟨config, ix, _, _, hMint⟩
    exact hMint.phased
  · rintro steps o life life' hBefore hAfter hMove hReal
      ⟨hPhased, hLocked⟩
    refine ⟨?_, move_lockedSince hBefore hAfter hMove hReal
      hPhased hLocked⟩
    cases hMove with
    | idle hIdle hSame =>
        rw [hSame]
        exact hPhased
    | acts config ix hConfig hAction hStep =>
        exact hStep.phased hPhased

/- The lock is in force before every step of a run. -/
theorem lockedSince_before
    {lamports : Lamports}
    {steps : List Step}
    {past future : List (Occurrence World Step)}
    {o : Occurrence World Step}
    (hClock : MonotoneClock steps)
    (hPool : PoolAlways (World.genesis lamports) steps)
    (hTrace :
      (World.genesis lamports).trace steps =
        past ++ o :: future)
    {vowState : Pubkey}
    {life : Life}
    (hLife : o.before.life vowState = some life) :
    LockedSince vowState past life.vow o.action.time := by
  rcases trace_split hTrace with
    ⟨first, second, hSplit, hPast, hBefore, _, _⟩
  subst hSplit
  subst hPast
  rw [hBefore] at hLife
  rw [MonotoneClock, List.pairwise_append] at hClock
  refine (lockedSince_run hClock.1 ?_ ?_ hLife).2
  · intro start hPrefix
    exact hPool start
      (hPrefix.trans (List.prefix_append _ _))
  · intro step hStep
    exact hClock.2.2 step hStep o.action List.mem_cons_self

end Vow

------------------------------------------------------------
-- The End Of The Lock
------------------------------------------------------------

namespace Vow

open MachineInt Fallible Transition

/- An exit waits for the lock in force. -/
theorem LockHeld.exit
    {start : Int}
    {lock now : I64}
    {vow : VowState}
    (hHeld : LockHeld start lock vow now.val)
    (hMature : vow.matured = true ∨ vow.unlockAt ≤ now) :
    start + lock.val ≤ now.val := by
  rw [← hHeld.unlockAt]
  rcases hMature with hMatured | hDue
  · exact hHeld.matured hMatured
  · exact hDue

theorem TopsUp.unlockAt_le
    {env : Env}
    {config : ProtocolConfig}
    {lamportsToAdd : U64}
    {vow vow' : VowState}
    (hTopUp : TopsUp env config lamportsToAdd vow vow')
    {start : Int}
    {lock : I64}
    (hHeld : LockHeld start lock vow env.unixTimestamp.val) :
    vow.unlockAt.val ≤ vow'.unlockAt.val := by
  cases hTopUp with
  | sameClass => exact le_refl _
  | raisesClass principal newClass shares unlockAt
      hPrincipal hNewClass hShares hClass hLock =>
      rcases hLock with ⟨longer, hLonger, hUnlock⟩
      have hMono :=
        lockDuration_mono hHeld.duration hLonger hClass
      calc vow.unlockAt.val
          = start + lock.val := hHeld.unlockAt
        _ ≤ env.unixTimestamp.val + longer.val :=
            Int.add_le_add hHeld.began hMono
        _ = unlockAt.val := hUnlock.symm

/- No step moves the end of a lock in force earlier. -/
theorem LifeStep.unlockAt_le
    {env : Env}
    {config : ProtocolConfig}
    {vowState : Pubkey}
    {ix : Instruction}
    {life life' : Life}
    (hStep : LifeStep env config vowState ix life life')
    (hPool : config.splStakePool ≠ .default)
    {start : Int}
    {lock : I64}
    (hHeld :
      LockHeld start lock life.vow env.unixTimestamp.val) :
    life.vow.unlockAt.val ≤ life'.vow.unlockAt.val := by
  cases hStep with
  | fastUnlock admin vow unstaking hDefault =>
      exact absurd hDefault hPool
  | topUp owner lamportsToAdd vow vow' unstaking hActive
      hStaked hTopUp =>
      exact hTopUp.unlockAt_le hHeld
  | activate owner stakeLamports yieldMode newClass
      newShares unlockAt vow unstaking hDormant hOpens =>
      -- A dormant identity has matured, so its old lock is over.
      rcases hOpens.locked with ⟨next, hNext, hUnlock⟩
      have hOver := hHeld.matured (hHeld.dormant hDormant)
      have hLong := lockDuration_ge hNext
      change vow.unlockAt.val ≤ unlockAt.val
      dsimp only at hOver
      omega
  | harvest config' vow vow' unstaking hGain =>
      rcases harvestGain_step hGain with ⟨harvested, hVow⟩
      subst hVow
      exact le_refl _
  | _ => exact le_refl _

/- The end of the lock never moves earlier in a run. -/
theorem unlockAt_le_run
    {lamports : Lamports}
    {steps first second : List Step}
    (hClock : MonotoneClock steps)
    (hPool : PoolAlways (World.genesis lamports) steps)
    (hSplit : steps = first ++ second)
    {vowState : Pubkey}
    {vow : VowState}
    (hLookup :
      ((World.genesis lamports).run first).vows.lookup
        vowState = some vow) :
    ∃ vow',
      ((World.genesis lamports).run steps).vows.lookup
        vowState = some vow' ∧
      vow.unlockAt.val ≤ vow'.unlockAt.val := by
  have hReach :
      Reachable ((World.genesis lamports).run first) :=
    ⟨lamports, first, rfl⟩
  have hTrace :
      (World.genesis lamports).trace steps =
        (World.genesis lamports).trace first ++
          ((World.genesis lamports).run first).trace
            second := by
    rw [hSplit]
    exact trace_append _ first second
  have hRun :
      (World.genesis lamports).run steps =
        ((World.genesis lamports).run first).run second := by
    rw [hSplit]
    exact List.foldl_append
  -- Before every later step the lock in force is known.
  have hBefore :
      ∀ o ∈ ((World.genesis lamports).run first).trace
          second,
        PoolConfigured o.before ∧
          ∀ life, o.before.life vowState = some life →
            ∃ past, LockedSince vowState past life.vow
              o.action.time := by
    intro o ho
    have hMem : o ∈ (World.genesis lamports).trace steps := by
      rw [hTrace]
      exact List.mem_append_right _ ho
    refine ⟨hPool.before o hMem, ?_⟩
    intro life hLife
    rcases List.append_of_mem hMem with
      ⟨past, future, hAt⟩
    exact ⟨past, lockedSince_before hClock hPool hAt hLife⟩
  have hKept :=
    World.life_kept
      (P := fun life =>
        vow.unlockAt.val ≤ life.vow.unlockAt.val)
      ?_ (escrowOwned_reachable hReach)
      (World.life_of_lookup hLookup) (le_refl _) hBefore
  · rcases hKept.2 with ⟨life', hLife', hLe⟩
    rw [hRun]
    exact ⟨life'.vow, (World.life_eq_some_iff.mp hLife').1,
      hLe⟩
  · rintro o config ix life life' hLife hConfig hAction
      hStep ⟨hReal, hHeldAt⟩ hLe
    rcases hHeldAt life hLife with
      ⟨_, _, _, _, _, _, _, _, hHeld⟩
    exact hLe.trans
      (hStep.unlockAt_le (hReal config hConfig) hHeld)

/-
  The lock is never shortened or bypassed: an exit begins no
  earlier than the lock of the identity's class after the
  latest step that started a lock, and the end of the lock
  never moves earlier, whatever top-ups are made.
-/
theorem lock_never_bypassed
    {lamports : Lamports}
    {steps : List Step}
    (hClock : MonotoneClock steps)
    (hPool : PoolAlways (World.genesis lamports) steps)
    (vowState : Pubkey) :
    (∀ past o future owner,
      (World.genesis lamports).trace steps =
        past ++ o :: future →
      o.action.action =
        .instruction (.beginUnstake owner vowState) →
      ∃ vow earlier start later lock,
        o.before.vows.lookup vowState = some vow ∧
        past = earlier ++ start :: later ∧
        StartsLock vowState start ∧
        (∀ p ∈ later, ¬ StartsLock vowState p) ∧
        lockDuration vow.stakeClass = .ok lock ∧
        start.action.time + lock.val ≤ o.action.time) ∧
    (∀ first second vow,
      steps = first ++ second →
      ((World.genesis lamports).run first).vows.lookup
        vowState = some vow →
      ∃ vow',
        ((World.genesis lamports).run steps).vows.lookup
          vowState = some vow' ∧
        vow.unlockAt.val ≤ vow'.unlockAt.val) := by
  refine ⟨?_, ?_⟩
  · intro past o future owner hTrace hAction
    rcases trace_split hTrace with
      ⟨_, _, _, _, _, hExec, _⟩
    rcases beginUnstake_life
      (Step.execute_of_exec hAction hExec) with
      ⟨config, vow, _, hLife, _, hMature, _⟩
    rcases lockedSince_before hClock hPool hTrace hLife with
      ⟨earlier, start, later, lock, hSplit, hStart, hQuiet,
        hHeld⟩
    exact ⟨vow, earlier, start, later, lock,
      (World.life_eq_some_iff.mp hLife).1, hSplit, hStart,
      hQuiet, hHeld.duration, hHeld.exit hMature⟩
  · intro first second vow hSplit hLookup
    exact unlockAt_le_run hClock hPool hSplit hLookup

/- The exit of an owner in a configured pool. -/
theorem lock_never_bypassed_solo :
    ∃ vow earlier start later lock,
      (sampleChain.run pooledSteps).vows.lookup sampleVow =
        some vow ∧
      sampleChain.trace pooledSteps =
        earlier ++ start :: later ∧
      StartsLock sampleVow start ∧
      (∀ p ∈ later, ¬ StartsLock sampleVow p) ∧
      lockDuration vow.stakeClass = .ok lock ∧
      start.action.time + lock.val ≤ 2678400 := by
  have hExec :
      Step.exec (sampleChain.run pooledSteps)
          (sampleStep 2678400 1
            (.beginUnstake sampleOwner sampleVow)) =
        some ((sampleChain.run pooledSteps).run
          [sampleStep 2678400 1
            (.beginUnstake sampleOwner sampleVow)]) :=
    Step.exec_eq_run (by decide +kernel)
  have hClock : MonotoneClock soloSteps := by
    decide
  have hPool : PoolAlways sampleChain soloSteps := by
    decide +kernel
  have hTime :
      (sampleStep 2678400 1
        (.beginUnstake sampleOwner sampleVow)).time =
          2678400 := by
    decide
  have hTrace := trace_concat_of_some hExec
  have hLock :=
    (lock_never_bypassed hClock hPool sampleVow).1 _ _ _
      sampleOwner hTrace rfl
  rw [hTime] at hLock
  exact hLock

end Vow
