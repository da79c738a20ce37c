import VowProtocol.Correctness.Phases

/-
  The reputation of an identity: what is permanent about it,
  and the consistency of its stake class.

  Key definitions include:
    * `Permanent`
    * `classIndex`
    * `Graded`

  Key theorems include:
    * `LifeStep.permanent`
    * `soulbound_permanent`
    * `classForStake_eq_ok_iff`
    * `LifeStep.graded`
    * `stakeClass_consistent`
-/

------------------------------------------------------------
-- Permanence
------------------------------------------------------------

namespace Vow

open MachineInt Fallible Transition

/-
  What never changes about an identity, and what never
  decreases.
-/
structure Permanent
    (before after : VowState) :
    Prop where
  owner : after.owner = before.owner
  assetId : after.assetId = before.assetId
  nonce : after.nonce = before.nonce
  createdAt : after.createdAt = before.createdAt
  firstStakedAt : after.firstStakedAt = before.firstStakedAt
  totalCommitments :
    before.totalCommitments.val ≤ after.totalCommitments.val
  totalFulfilled :
    before.totalFulfilled.val ≤ after.totalFulfilled.val
  cumulativeStakeDays :
    before.cumulativeStakeDays.val ≤
      after.cumulativeStakeDays.val
  highestClassEver :
    before.highestClassEver.val ≤ after.highestClassEver.val
  sessionNonce :
    before.sessionNonce.val ≤ after.sessionNonce.val

theorem Permanent.refl
    (vow : VowState) :
    Permanent vow vow :=
  ⟨rfl, rfl, rfl, rfl, rfl, le_refl _, le_refl _, le_refl _,
    le_refl _, le_refl _⟩

theorem Permanent.trans
    {first second third : VowState}
    (hFirst : Permanent first second)
    (hSecond : Permanent second third) :
    Permanent first third where
  owner := hSecond.owner.trans hFirst.owner
  assetId := hSecond.assetId.trans hFirst.assetId
  nonce := hSecond.nonce.trans hFirst.nonce
  createdAt := hSecond.createdAt.trans hFirst.createdAt
  firstStakedAt :=
    hSecond.firstStakedAt.trans hFirst.firstStakedAt
  totalCommitments :=
    hFirst.totalCommitments.trans hSecond.totalCommitments
  totalFulfilled :=
    hFirst.totalFulfilled.trans hSecond.totalFulfilled
  cumulativeStakeDays :=
    hFirst.cumulativeStakeDays.trans
      hSecond.cumulativeStakeDays
  highestClassEver :=
    hFirst.highestClassEver.trans hSecond.highestClassEver
  sessionNonce :=
    hFirst.sessionNonce.trans hSecond.sessionNonce

/- The running maximum of a class never falls. -/
theorem le_ite_class
    (highest newClass : U8) :
    highest.val ≤
      (if highest < newClass then newClass
        else highest).val := by
  by_cases hLess : highest < newClass
  · rw [if_pos hLess]
    exact Nat.le_of_lt hLess
  · rw [if_neg hLess]

theorem TopsUp.permanent
    {env : Env}
    {config : ProtocolConfig}
    {lamportsToAdd : U64}
    {vow vow' : VowState}
    (hTopUp : TopsUp env config lamportsToAdd vow vow') :
    Permanent vow vow' := by
  cases hTopUp with
  | sameClass =>
      exact { Permanent.refl vow with }
  | raisesClass principal newClass =>
      exact { Permanent.refl vow with
        highestClassEver :=
          le_ite_class vow.highestClassEver newClass }

theorem LifeStep.permanent
    {env : Env}
    {config : ProtocolConfig}
    {vowState : Pubkey}
    {ix : Instruction}
    {life life' : Life}
    (hStep : LifeStep env config vowState ix life life') :
    Permanent life.vow life'.vow := by
  cases hStep with
  | topUp owner lamportsToAdd vow vow' unstaking hActive
      hStaked hTopUp =>
      exact hTopUp.permanent
  | complete owner vow =>
      refine { Permanent.refl vow with
        totalFulfilled := ?_
        cumulativeStakeDays := Unsigned.le_saturatingAdd _ _ }
      unfold dormantVow
      dsimp only
      split
      · exact Unsigned.le_saturatingAdd _ _
      · exact le_refl _
  | activate owner stakeLamports yieldMode newClass
      newShares unlockAt vow unstaking hDormant hOpens =>
      exact { Permanent.refl vow with
        totalCommitments := Unsigned.le_saturatingAdd _ _
        highestClassEver :=
          le_ite_class vow.highestClassEver newClass }
  | harvest config' vow vow' unstaking hGain =>
      rcases harvestGain_step hGain with ⟨harvested, hVow⟩
      subst hVow
      exact { Permanent.refl vow with }
  | session ix sessionNonce vow unstaking hIdentity hActive
      hNonce =>
      refine { Permanent.refl vow with sessionNonce := ?_ }
      dsimp only
      omega
  | _ => exact { Permanent.refl _ with }

/- An identity sits at the address of its nonce. -/
theorem address_reachable
    {w : World}
    (hReach : Reachable w)
    {vowState : Pubkey}
    {life : Life}
    (hLife : w.life vowState = some life) :
    vowState = .vow (.vowAsset life.vow.nonce) := by
  refine hReach.life_invariant
    (P := fun life =>
      vowState = .vow (.vowAsset life.vow.nonce))
    ?_ ?_ hLife
  · intro env config ix life hBirth
    cases hBirth with
    | mint owner stakeLamports yieldMode stakeClass shares
        unlockAt hAddress =>
        exact hAddress
  · intro env config ix life life' hAddress hStep
    rw [hStep.permanent.nonce]
    exact hAddress

/- A mint never touches an identity that exists. -/
theorem mint_keeps_lookup
    {o : Occurrence World Step}
    {owner : Signer}
    {stakeLamports : U64}
    {yieldMode : YieldMode}
    (hMint :
      o.action.action =
        .instruction (.mintVow owner stakeLamports yieldMode))
    (hExec : o.action.exec o.before = some o.after)
    {vowState : Pubkey}
    {life : Life}
    (hLife : o.before.life vowState = some life) :
    o.after.vows.lookup vowState =
      o.before.vows.lookup vowState := by
  rcases exec_moved hExec hLife with ⟨life', hLife', hMove⟩
  rw [(World.life_eq_some_iff.mp hLife).1,
    (World.life_eq_some_iff.mp hLife').1]
  cases hMove with
  | idle hIdle hSame => rw [hSame]
  | acts config ix hConfig hAction hStep =>
      rw [hMint] at hAction
      have hRewrites := hStep.rewrites_eq
      rw [← Action.instruction.inj hAction] at hRewrites
      exact absurd hRewrites
        (by simp [Instruction.rewrites])

/-
  Soulbound permanence. Whatever a run does, an identity is
  never removed, never overwritten by a mint and keeps its
  permanent part, and no two identities share a nonce.
-/
theorem soulbound_permanent
    {w : World}
    (hReach : Reachable w)
    {vowState : Pubkey}
    {vow : VowState}
    (hLookup : w.vows.lookup vowState = some vow)
    (steps : List Step) :
    (∃ vow',
      (w.run steps).vows.lookup vowState = some vow' ∧
        Permanent vow vow') ∧
    (∀ o ∈ w.trace steps,
      ∀ owner stakeLamports yieldMode,
        o.action.action =
          .instruction
            (.mintVow owner stakeLamports yieldMode) →
        o.after.vows.lookup vowState =
          o.before.vows.lookup vowState) ∧
    ∀ first second vow₁ vow₂,
      (w.run steps).vows.lookup first = some vow₁ →
      (w.run steps).vows.lookup second = some vow₂ →
      vow₁.nonce = vow₂.nonce → first = second := by
  have hOwned := escrowOwned_reachable hReach
  have hKept :=
    World.life_kept (P := fun life => Permanent vow life.vow)
      (fun _ _ _ _ _ _ _ _ hStep _ hKept =>
        hKept.trans hStep.permanent)
      hOwned (World.life_of_lookup hLookup)
      (Permanent.refl vow)
      (fun o (_ : o ∈ w.trace steps) => trivial)
  refine ⟨?_, ?_, ?_⟩
  · rcases hKept.2 with ⟨life', hLife', hPermanent⟩
    exact ⟨life'.vow,
      (World.life_eq_some_iff.mp hLife').1, hPermanent⟩
  · intro o ho owner stakeLamports yieldMode hMint
    rcases hKept.1 o ho with ⟨life, hLife, _⟩
    have hExec := mem_trace_exec ho
    exact mint_keeps_lookup hMint hExec hLife
  · intro first second vow₁ vow₂ hFirst hSecond hNonce
    have hAfter := hReach.run steps
    have hOne := address_reachable hAfter
      (World.life_of_lookup hFirst)
    have hTwo := address_reachable hAfter
      (World.life_of_lookup hSecond)
    dsimp only at hOne hTwo
    rw [hOne, hTwo, hNonce]

/- The exit of the sample stake is completed and migrated. -/
theorem soulbound_permanent_exit :
    ∃ vow vow',
      exitChain.vows.lookup sampleVow = some vow ∧
        (exitChain.run
          [sampleStep 2592000 2
              (.completeUnstake sampleOwner sampleVow),
            sampleStep 2592000 2
              (.closeProtocolConfig sampleAdmin),
            sampleInit,
            sampleStep 2592000 2
              (.mintVow otherOwner 5000000000
                .treasury)]).vows.lookup sampleVow =
          some vow' ∧
        Permanent vow vow' := by
  rcases exitChain_found with ⟨vow, hLookup⟩
  rcases (soulbound_permanent exitChain_reachable hLookup
    _).1 with ⟨vow', hAfter, hPermanent⟩
  exact ⟨vow, vow', hLookup, hAfter, hPermanent⟩

end Vow

------------------------------------------------------------
-- Stake Classes
------------------------------------------------------------

namespace Vow

open MachineInt Fallible Transition

/- The largest whole XNT of every class below the top. -/
def classBounds : List Nat :=
  [100, 300, 500, 1000, 2000, 5000, 10000]

/- The class of a stake: how many bounds it exceeds. -/
def classIndex
    (xnt : Nat) :
    Nat :=
  classBounds.countP fun bound => bound < xnt

theorem classIndex_le
    (xnt : Nat) :
    classIndex xnt ≤ 7 :=
  List.countP_le_length

theorem classIndex_mono
    {fewer more : Nat}
    (hLe : fewer ≤ more) :
    classIndex fewer ≤ classIndex more := by
  apply List.countP_mono_left
  intro bound _ hLess
  simp only [decide_eq_true_eq] at hLess ⊢
  omega

/- A range whose ends share a class lies in that class. -/
theorem classIndex_between
    {low high xnt stakeClass : Nat}
    (hLow : classIndex low = stakeClass)
    (hHigh : classIndex high = stakeClass)
    (hRange : low ≤ xnt ∧ xnt ≤ high) :
    classIndex xnt = stakeClass := by
  apply le_antisymm
  · rw [← hHigh]
    exact classIndex_mono hRange.2
  · rw [← hLow]
    exact classIndex_mono hRange.1

theorem classIndex_top
    {xnt : Nat}
    (hRange : 10001 ≤ xnt) :
    classIndex xnt = 7 :=
  le_antisymm (classIndex_le xnt)
    (classIndex_mono (show 10001 ≤ xnt from hRange))

/- One arm of the match over whole XNT. -/
theorem ok_class_iff
    {xnt : Nat}
    {stakeClass : U8}
    (arm : Nat)
    (hArm : arm < 2 ^ 8)
    (hStake : 1 ≤ xnt)
    (hIndex : classIndex xnt = arm) :
    (.ok (Unsigned.ofNat 8 arm) : Result U8) =
        .ok stakeClass ↔
      1 ≤ xnt ∧ stakeClass.val = classIndex xnt := by
  rw [Except.ok.injEq, Unsigned.ext_iff, Unsigned.val_ofNat,
    Nat.mod_eq_of_lt hArm, hIndex]
  constructor
  · intro hEq
    exact ⟨hStake, hEq.symm⟩
  · rintro ⟨_, hEq⟩
    exact hEq.symm

/- A stake of at least one whole XNT has a class. -/
theorem classForStake_eq_ok_iff
    {lamports : U64}
    {stakeClass : U8} :
    classForStake lamports = .ok stakeClass ↔
      1 ≤ lamports.val / 1000000000 ∧
        stakeClass.val =
          classIndex (lamports.val / 1000000000) := by
  have hXnt :
      lamports.val / LAMPORTS_PER_XNT.val =
        lamports.val / 1000000000 := rfl
  unfold classForStake
  rw [hXnt]
  generalize lamports.val / 1000000000 = xnt
  dsimp only
  split
  · rename_i h
    exact ok_class_iff 0 (by decide) h.1
      (classIndex_between rfl rfl h)
  split
  · rename_i h
    exact ok_class_iff 1 (by decide) (by omega)
      (classIndex_between rfl rfl h)
  split
  · rename_i h
    exact ok_class_iff 2 (by decide) (by omega)
      (classIndex_between rfl rfl h)
  split
  · rename_i h
    exact ok_class_iff 3 (by decide) (by omega)
      (classIndex_between rfl rfl h)
  split
  · rename_i h
    exact ok_class_iff 4 (by decide) (by omega)
      (classIndex_between rfl rfl h)
  split
  · rename_i h
    exact ok_class_iff 5 (by decide) (by omega)
      (classIndex_between rfl rfl h)
  split
  · rename_i h
    exact ok_class_iff 6 (by decide) (by omega)
      (classIndex_between rfl rfl h)
  split
  · rename_i h
    exact ok_class_iff 7 (by decide) (by omega)
      (classIndex_top h)
  · constructor
    · intro hOk
      exact absurd hOk (by simp)
    · rintro ⟨hStake, _⟩
      omega

/- Every class that a stake can have has a lock. -/
theorem lockDuration_of_class
    {stakeClass : U8}
    (hClass : stakeClass.val ≤ 7) :
    ∃ lock, lockDuration stakeClass = .ok lock := by
  have hIndex : stakeClass.val < LOCK_SECONDS.length :=
    Nat.lt_succ_of_le hClass
  exact ⟨_, okOr_eq_ok_iff.mpr
    (List.getElem?_eq_getElem hIndex)⟩

theorem classForStake_le
    {lamports : U64}
    {stakeClass : U8}
    (hClass : classForStake lamports = .ok stakeClass) :
    stakeClass.val ≤ 7 := by
  rw [(classForStake_eq_ok_iff.mp hClass).2]
  exact classIndex_le _

/-
  The class of an identity is the class of its principal, and
  the highest class is a bound on it.
-/
structure Graded
    (vow : VowState) :
    Prop where
  graded :
    classForStake vow.principalLamports =
      .ok vow.stakeClass
  highest :
    vow.stakeClass.val ≤ vow.highestClassEver.val
  range : vow.highestClassEver.val ≤ 7

/- A new class enters the running maximum. -/
theorem Graded.raise
    {principal : U64}
    {newClass highest : U8}
    (hClass : classForStake principal = .ok newClass)
    (hRange : highest.val ≤ 7) :
    newClass.val ≤
        (if highest < newClass then newClass
          else highest).val ∧
      (if highest < newClass then newClass
        else highest).val ≤ 7 := by
  by_cases hLess : highest < newClass
  · rw [if_pos hLess]
    exact ⟨le_refl _, classForStake_le hClass⟩
  · rw [if_neg hLess]
    exact ⟨Nat.le_of_not_lt hLess, hRange⟩

/-
  A top-up that does not raise the class leaves the principal
  in its class: the class of a larger principal is not lower.
-/
theorem classForStake_same
    {less more : U64}
    {stakeClass newClass : U8}
    (hLe : less.val ≤ more.val)
    (hOld : classForStake less = .ok stakeClass)
    (hNew : classForStake more = .ok newClass)
    (hNot : ¬ stakeClass < newClass) :
    classForStake more = .ok stakeClass := by
  rcases classForStake_eq_ok_iff.mp hOld with ⟨_, hFew⟩
  rcases classForStake_eq_ok_iff.mp hNew with ⟨_, hMany⟩
  have hMono : stakeClass.val ≤ newClass.val := by
    rw [hFew, hMany]
    exact classIndex_mono (Nat.div_le_div_right hLe)
  rw [Unsigned.lt_def] at hNot
  have hSame : newClass = stakeClass :=
    Unsigned.ext (by omega)
  rw [← hSame]
  exact hNew

theorem TopsUp.graded
    {env : Env}
    {config : ProtocolConfig}
    {lamportsToAdd : U64}
    {vow vow' : VowState}
    (hTopUp : TopsUp env config lamportsToAdd vow vow')
    (hGraded : Graded vow) :
    Graded vow' := by
  cases hTopUp with
  | sameClass principal newClass shares hPrincipal
      hNewClass hShares hClass =>
      have hMore :
          vow.principalLamports.val ≤ principal.val := by
        omega
      exact ⟨classForStake_same hMore hGraded.graded
        hNewClass hClass, hGraded.highest, hGraded.range⟩
  | raisesClass principal newClass shares unlockAt
      hPrincipal hNewClass =>
      rcases Graded.raise hNewClass hGraded.range with
        ⟨hHighest, hRange⟩
      exact ⟨hNewClass, hHighest, hRange⟩

theorem LifeStep.graded
    {env : Env}
    {config : ProtocolConfig}
    {vowState : Pubkey}
    {ix : Instruction}
    {life life' : Life}
    (hStep : LifeStep env config vowState ix life life')
    (hGraded : Graded life.vow) :
    Graded life'.vow := by
  cases hStep with
  | topUp owner lamportsToAdd vow vow' unstaking hActive
      hStaked hTopUp =>
      exact hTopUp.graded hGraded
  | activate owner stakeLamports yieldMode newClass
      newShares unlockAt vow unstaking hDormant hOpens =>
      rcases Graded.raise hOpens.graded hGraded.range with
        ⟨hHighest, hRange⟩
      exact ⟨hOpens.graded, hHighest, hRange⟩
  | harvest config' vow vow' unstaking hGain =>
      rcases harvestGain_step hGain with ⟨harvested, hVow⟩
      subst hVow
      exact ⟨hGraded.graded, hGraded.highest, hGraded.range⟩
  | _ =>
      exact ⟨hGraded.graded, hGraded.highest, hGraded.range⟩

theorem graded_reachable
    {w : World}
    (hReach : Reachable w)
    {vowState : Pubkey}
    {life : Life}
    (hLife : w.life vowState = some life) :
    Graded life.vow := by
  refine hReach.life_invariant
    (P := fun life => Graded life.vow) ?_ ?_ hLife
  · intro env config ix life hBirth
    cases hBirth with
    | mint owner stakeLamports yieldMode stakeClass shares
        unlockAt hAddress hOpens =>
        exact ⟨hOpens.graded, le_refl _,
          classForStake_le hOpens.graded⟩
  · intro env config ix life life' hGraded hStep
    exact hStep.graded hGraded

/- More principal than a graded one has a class again. -/
theorem Graded.classForStake_avoids
    {vow : VowState}
    {principal : U64}
    (hGraded : Graded vow)
    (hMore : vow.principalLamports.val ≤ principal.val) :
    Avoids (.vow .insufficientStake)
      (classForStake principal) := by
  rcases classForStake_eq_ok_iff.mp hGraded.graded with
    ⟨hStake, _⟩
  have hIndex := classIndex_le (principal.val / 1000000000)
  have hOk :
      classForStake principal =
        .ok ⟨classIndex (principal.val / 1000000000),
          by omega⟩ := by
    rw [classForStake_eq_ok_iff]
    refine ⟨?_, rfl⟩
    exact hStake.trans (Nat.div_le_div_right hMore)
  rw [hOk]
  exact Avoids.ok _

/- A top-up of a live stake is never too small. -/
theorem addStake_avoids_insufficientStake
    {env : Env}
    {w : World}
    {owner : Signer}
    {vowState : Pubkey}
    {vow : VowState}
    {lamportsToAdd : U64}
    (hLookup : w.vows.lookup vowState = some vow)
    (hGraded : Graded vow)
    (hPositive : 0 < lamportsToAdd) :
    Avoids (.vow .insufficientStake)
      (addStake env w owner vowState lamportsToAdd) := by
  unfold addStake
  refine (Avoids.okOr_of_ne (by simp)).bind ?_
  intro config _
  refine (loadVowAsOwner_avoids (by simp) (by simp)
    (by simp)).bind ?_
  intro loaded hLoaded
  rw [loadVowAsOwner_eq_ok_iff, hLookup] at hLoaded
  rw [← Option.some.inj hLoaded.1]
  refine (Avoids.require hPositive).bind ?_
  intro _ _
  refine (Avoids.require_of_ne (by simp)).bind ?_
  intro _ _
  refine (Avoids.require_of_ne (by simp)).bind ?_
  intro _ _
  refine (settleIdnft_avoids (by simp)).bind ?_
  intro settled hSettle
  refine (transfer_avoids (by simp)).bind ?_
  intro _ _
  refine (Avoids.okOr_of_ne (by simp)).bind ?_
  intro principal hPrincipal
  have hMore :
      vow.principalLamports.val ≤ principal.val := by
    rw [okOr_eq_ok_iff, Unsigned.checkedAdd_eq_some_iff,
      settleIdnft_eq_settled hSettle] at hPrincipal
    rw [hPrincipal]
    exact Nat.le_add_right _ _
  refine (hGraded.classForStake_avoids hMore).bind ?_
  intro _ _
  refine (sharesForDeposit_avoids (by simp)).bind ?_
  intro _ _
  refine (upgradeClass_avoids (by simp)).bind ?_
  intro _ _
  refine (Avoids.okOr_of_ne (by simp)).bind ?_
  intro _ _
  refine (Avoids.okOr_of_ne (by simp)).bind ?_
  intro _ _
  exact Avoids.pure _

/-
  Class consistency. The class of an identity is the class of
  its principal and never above its highest class, a top-up
  of a live identity is never refused as too small, and no
  lookup of a lock is out of range.
-/
theorem stakeClass_consistent
    {w : World}
    (hReach : Reachable w)
    {vowState : Pubkey}
    {vow : VowState}
    (hLookup : w.vows.lookup vowState = some vow) :
    classForStake vow.principalLamports =
      .ok vow.stakeClass ∧
    vow.stakeClass.val ≤ vow.highestClassEver.val ∧
    vow.highestClassEver.val ≤ 7 ∧
    (∀ env owner lamportsToAdd,
      vow.activeStake = true → 0 < lamportsToAdd →
      execute env w
          (.addStake owner vowState lamportsToAdd) ≠
        .error (.vow .insufficientStake)) ∧
    (∃ lock, lockDuration vow.stakeClass = .ok lock) ∧
    ∀ lamports stakeClass,
      classForStake lamports = .ok stakeClass →
      ∃ lock, lockDuration stakeClass = .ok lock := by
  have hGraded :=
    graded_reachable hReach (World.life_of_lookup hLookup)
  refine ⟨hGraded.graded, hGraded.highest, hGraded.range,
    ?_, ?_, ?_⟩
  · intro env owner lamportsToAdd _ hPositive
    exact addStake_avoids_insufficientStake hLookup hGraded
      hPositive
  · exact lockDuration_of_class
      (hGraded.highest.trans hGraded.range)
  · intro lamports stakeClass hClass
    exact lockDuration_of_class (classForStake_le hClass)

theorem stakeClass_consistent_exit :
    ∃ vow,
      exitChain.vows.lookup sampleVow = some vow ∧
        classForStake vow.principalLamports =
          .ok vow.stakeClass := by
  rcases exitChain_found with ⟨vow, hLookup⟩
  exact ⟨vow, hLookup,
    (stakeClass_consistent exitChain_reachable hLookup).1⟩

end Vow
