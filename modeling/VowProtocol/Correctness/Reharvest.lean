import VowProtocol.Correctness.Principal

/-
  A second harvest at the same price.

  A harvest settles the identity and clears its gain, except
  for the odd lamport that the Hybrid mode carries. That
  lamport is a gain of its own for the next harvest.

  Key definitions include:
    * `VowState.carriesOdd`

  Key theorems include:
    * `harvestGain_cleared`
    * `harvestGain_carried`
    * `harvestGain_leaves`
    * `harvest_twice_iff`
-/

------------------------------------------------------------
-- What A Harvest Leaves
------------------------------------------------------------

namespace Vow

open MachineInt Fallible

/- Does a harvest of this settled gain carry a lamport? -/
def VowState.carriesOdd
    (idnft : VowState) :
    Prop :=
  idnft.yieldMode = .hybrid ∧ 0 < idnft.accruedGain.val ∧
    idnft.accruedGain.val % 2 = 1

instance (idnft : VowState) :
    Decidable idnft.carriesOdd :=
  inferInstanceAs (Decidable (_ ∧ _ ∧ _))

/- Without a gain a harvest changes nothing. -/
theorem harvestGain_cleared
    {idnft : VowState}
    (hGain : idnft.accruedGain = 0)
    (config : ProtocolConfig) :
    harvestGain idnft config = .ok (idnft, config) := by
  rcases idnft with ⟨⟩
  subst hGain
  unfold harvestGain
  dsimp only
  split
  · have hZero : Signed.toUnsigned 64 (0 : I64) = 0 := by
      decide
    rw [if_pos (by decide), hZero,
      Unsigned.saturatingAdd_zero]
  · rw [if_pos (by decide)]
  · rw [if_pos (by decide)]

/- A credit of nothing burns nothing. -/
theorem creditGain_nothing
    (idnft : VowState)
    (config : ProtocolConfig)
    (harvested : U64)
    (carry : I64) :
    creditGain idnft config 0 harvested carry =
      .ok ({ idnft with
        totalHarvested :=
          idnft.totalHarvested.saturatingAdd harvested
        accruedGain := carry }, config) := by
  have hBurn :
      sharesToBurn 0 config.currentSharePrice = .ok 0 :=
    sharesToBurn_eq_ok_iff.mpr (by simp)
  have hKeep :
      idnft.shares.checkedSub 0 = some idnft.shares :=
    Unsigned.checkedSub_eq_some_iff.mpr (by simp)
  unfold creditGain
  simp only [bind_eq_ok_iff, hBurn, require_eq_ok_iff,
    okOr_eq_ok_iff, pure_eq_ok_iff]
  refine ⟨0, rfl, (), Nat.zero_le _, idnft.shares, hKeep,
    ?_⟩
  rw [Unsigned.saturatingAdd_zero,
    Unsigned.saturatingSub_zero,
    Unsigned.saturatingAdd_zero]

/-
  A carried lamport is counted as harvested and carried again.
-/
theorem harvestGain_carried
    {idnft : VowState}
    (hMode : idnft.yieldMode = .hybrid)
    (hGain : idnft.accruedGain = 1)
    (config : ProtocolConfig) :
    harvestGain idnft config =
      .ok ({ idnft with
        totalHarvested :=
          idnft.totalHarvested.saturatingAdd 1 },
        config) := by
  have hCarried :=
    creditGain_nothing idnft config
      (Signed.toUnsigned 64 (1 : I64)) 1
  rcases idnft with ⟨⟩
  subst hMode hGain
  unfold harvestGain
  dsimp only
  rw [if_neg (by decide)]
  exact hCarried

/-
  After a harvest the gain is cleared, except that an odd
  Hybrid gain leaves one lamport behind.
-/
theorem harvestGain_leaves
    {idnft idnft' : VowState}
    {config config' : ProtocolConfig}
    (hHarvest :
      harvestGain idnft config = .ok (idnft', config')) :
    (¬idnft.carriesOdd ∧ idnft'.accruedGain = 0) ∨
      (idnft.carriesOdd ∧ idnft'.accruedGain = 1 ∧
        (idnft'.totalHarvested.val : Int) =
          min (idnft.totalHarvested.val +
            idnft.accruedGain.val) (2 ^ 64 - 1)) := by
  by_cases hGain :
      idnft.yieldMode ≠ .compound →
        idnft.accruedGain.val ≤ 0
  · rcases harvestGain_nothing hGain config with
      ⟨harvested, hNothing⟩
    rw [hNothing, Except.ok.injEq, Prod.mk.injEq] at hHarvest
    refine Or.inl ⟨?_, hHarvest.1 ▸ rfl⟩
    rintro ⟨hMode, hPositive, _⟩
    have hNone := hGain (by rw [hMode]; simp)
    omega
  · rw [Classical.not_imp, not_le] at hGain
    rcases hGain with ⟨hMode, hPositive⟩
    have hVal :=
      accruedGain_toUnsigned (le_of_lt hPositive)
    have hCarry := harvestCarry_val (le_of_lt hPositive)
    rw [harvestGain_credits hMode hPositive] at hHarvest
    rcases creditGain_ok hHarvest with
      ⟨_, _, _, _, hVow, _⟩
    have hLeft :
        idnft'.accruedGain.val = (harvestCarry idnft).val := by
      rw [hVow]
    by_cases hOdd : idnft.carriesOdd
    · refine Or.inr ⟨hOdd, ?_, ?_⟩
      · apply Signed.ext
        rw [hLeft, hCarry, hOdd.1]
        exact hOdd.2.2
      · rw [hVow]
        dsimp only
        rw [Unsigned.val_saturatingAdd, Unsigned.maxVal]
        omega
    · refine Or.inl ⟨hOdd, ?_⟩
      apply Signed.ext
      rw [hLeft, hCarry, Signed.val_zero]
      cases hCase : idnft.yieldMode with
      | compound => rfl
      | treasury => rfl
      | hybrid =>
          have hEven : idnft.accruedGain.val % 2 ≠ 1 := by
            intro hRest
            exact hOdd ⟨hCase, hPositive, hRest⟩
          dsimp only
          omega

/- A harvest keeps what settlement and maturity read. -/
theorem harvestGain_keeps
    {idnft idnft' : VowState}
    {config config' : ProtocolConfig}
    (hHarvest :
      harvestGain idnft config = .ok (idnft', config')) :
    config'.currentSharePrice = config.currentSharePrice ∧
      idnft'.assetId = idnft.assetId ∧
      idnft'.lastSharePrice = idnft.lastSharePrice ∧
      idnft'.yieldMode = idnft.yieldMode ∧
      idnft'.matured = idnft.matured ∧
      idnft'.unlockAt = idnft.unlockAt := by
  rcases harvestGain_cases hHarvest with
    ⟨_, _, _, hVow, hConfig⟩ | ⟨moved, hVow, hConfig⟩
  · rw [hVow, hConfig]
    exact ⟨rfl, rfl, rfl, rfl, rfl, rfl⟩
  · rw [hVow, hConfig]
    exact ⟨rfl, rfl, rfl, rfl, rfl, rfl⟩

end Vow

------------------------------------------------------------
-- The Second Harvest
------------------------------------------------------------

namespace Vow

open MachineInt Fallible

/- Maturity does not change twice at one time. -/
theorem matureIfDue_again
    {now : I64}
    {vow vow' : VowState}
    (hMatured :
      vow'.matured = (matureIfDue now vow).matured)
    (hUnlock : vow'.unlockAt = vow.unlockAt) :
    matureIfDue now vow' = vow' := by
  rcases matureIfDue_cases now vow with ⟨matured, hDue, hIff⟩
  rw [hDue] at hMatured
  unfold matureIfDue
  rw [if_neg]
  rintro ⟨hUnripe, hTime⟩
  rw [hUnlock] at hTime
  rw [hMatured, hIff.mpr (Or.inr hTime)] at hUnripe
  exact absurd hUnripe (by simp)

/-
  What a second harvest at the same time does: it finds the
  identity mature and settled, and distributes what the first
  one left.
-/
theorem harvest_again
    {env : Env}
    {w w' : World}
    {vowState : Pubkey}
    {config : ProtocolConfig}
    {vow : VowState}
    (hConfig : w.config = some config)
    (hLookup : w.vows.lookup vowState = some vow)
    (hFirst : harvest env w vowState = .ok w') :
    ∃ config' settled vow',
      settled = (matureIfDue env.unixTimestamp vow).settled
        config.currentSharePrice ∧
      harvestGain settled config = .ok (vow', config') ∧
      w'.config = some config' ∧
      w'.vows.lookup vowState = some vow' ∧
      ∀ vow₂ config₂,
        harvestGain vow' config' = .ok (vow₂, config₂) →
        ∃ w₂,
          harvest env w' vowState = .ok w₂ ∧
          w₂.vows.lookup vowState = some vow₂ ∧
          w₂.config = some config₂ := by
  rcases harvest_eq_ok_iff.mp hFirst with
    ⟨call, vow', config', hGain, hEq⟩
  have hFound := call.hConfig
  have hLoaded := call.hLookup
  rw [hConfig, Option.some.injEq] at hFound
  rw [hLookup, Option.some.injEq] at hLoaded
  subst hFound hLoaded
  have hSettled := settleIdnft_eq_settled call.hSettle
  rcases harvestGain_keeps hGain with
    ⟨hPrice, hAsset, hLast, _, hMatured, hUnlock⟩
  rcases matureIfDue_cases env.unixTimestamp call.vow with
    ⟨matured, hDue, _⟩
  have hLookup' : w'.vows.lookup vowState = some vow' := by
    rw [hEq]
    simp
  refine ⟨config', call.settled, vow', hSettled, hGain,
    by rw [hEq], hLookup', ?_⟩
  intro vow₂ config₂ hAgain
  have hSeeds' : vowState = .vow vow'.assetId := by
    rw [hAsset, hSettled, hDue]
    exact call.hSeeds
  have hMature :
      matureIfDue env.unixTimestamp vow' = vow' := by
    apply matureIfDue_again
    · rw [hMatured, hSettled]
      rfl
    · rw [hUnlock, hSettled, hDue]
      rfl
  have hSame :
      settleIdnft vow' config' = .ok vow' := by
    unfold settleIdnft
    rw [if_pos]
    rw [hLast, hSettled, hPrice]
    rfl
  refine ⟨_, harvest_eq_ok_iff.mpr
    ⟨⟨config', vow', vow', by rw [hEq], hLookup', hSeeds',
      ?_⟩, vow₂, config₂, hAgain, rfl⟩, by simp, rfl⟩
  rw [hMature]
  exact hSame

/-
  A second harvest at the same time and price leaves the
  identity and the configuration alone, unless the first one
  carried an odd lamport and the harvested total can still
  grow: that lamport is then counted again on every call.
-/
theorem harvest_twice_iff
    {env : Env}
    {w w' : World}
    {vowState : Pubkey}
    {config : ProtocolConfig}
    {vow : VowState}
    (hConfig : w.config = some config)
    (hLookup : w.vows.lookup vowState = some vow)
    (hFirst : harvest env w vowState = .ok w') :
    (∃ w₂,
      harvest env w' vowState = .ok w₂ ∧
      w₂.vows.lookup vowState = w'.vows.lookup vowState ∧
      w₂.config = w'.config) ↔
      ¬((vow.settled config.currentSharePrice).carriesOdd ∧
        vow.totalHarvested.val +
          (vow.settled
            config.currentSharePrice).accruedGain.val <
            (2 ^ 64 - 1 : Int)) := by
  rcases harvest_again hConfig hLookup hFirst with
    ⟨config', settled, vow', hSettled, hGain, hConfig',
      hLookup', hSecond⟩
  rcases matureIfDue_cases env.unixTimestamp vow with
    ⟨matured, hDue, _⟩
  rw [hDue] at hSettled
  have hGainEq :
      settled.accruedGain =
        (vow.settled config.currentSharePrice).accruedGain := by
    rw [hSettled]
    rfl
  have hTotalEq :
      settled.totalHarvested = vow.totalHarvested := by
    rw [hSettled]
    rfl
  have hOddIff :
      settled.carriesOdd ↔
        (vow.settled config.currentSharePrice).carriesOdd := by
    rw [hSettled]
    rfl
  rw [hConfig', hLookup']
  rcases harvestGain_leaves hGain with
    ⟨hEven, hZero⟩ | ⟨hOdd, hOne, hTotal⟩
  · rcases hSecond vow' config'
        (harvestGain_cleared hZero config') with
      ⟨w₂, hOk, hVow, hKept⟩
    refine iff_of_true ⟨w₂, hOk, hVow, hKept⟩ ?_
    rintro ⟨hOdd, _⟩
    exact hEven (hOddIff.mpr hOdd)
  · rcases hSecond _ config'
        (harvestGain_carried
          ((harvestGain_keeps hGain).2.2.2.1.trans hOdd.1)
          hOne config') with
      ⟨w₂, hOk, hVow, hKept⟩
    rw [hGainEq, hTotalEq] at hTotal
    have hMax := vow'.totalHarvested.isLt
    constructor
    · rintro ⟨found, hFound, hSame, _⟩ ⟨_, hRoom⟩
      rw [hOk, Except.ok.injEq] at hFound
      rw [← hFound, hVow, Option.some.injEq] at hSame
      have hCount :
          (vow'.totalHarvested.saturatingAdd 1).val =
            vow'.totalHarvested.val :=
        congrArg (fun vow => vow.totalHarvested.val) hSame
      rw [Unsigned.val_saturatingAdd,
        Unsigned.val_one (by decide),
        Unsigned.maxVal] at hCount
      omega
    · intro hFull
      have hSaturated :
          vow'.totalHarvested.saturatingAdd 1 =
            vow'.totalHarvested := by
        apply Unsigned.ext
        rw [Unsigned.val_saturatingAdd,
          Unsigned.val_one (by decide), Unsigned.maxVal]
        have hNoRoom :
            ¬(vow.totalHarvested.val +
              (vow.settled
                config.currentSharePrice).accruedGain.val <
                (2 ^ 64 - 1 : Int)) :=
          fun hRoom => hFull ⟨hOddIff.mp hOdd, hRoom⟩
        omega
      rw [hSaturated] at hVow
      exact ⟨w₂, hOk, hVow, hKept⟩

/- A Hybrid stake whose price has risen. -/
def hybridChain
    (price : Nat) :
    World :=
  sampleChain.run
    [sampleInit,
      sampleStep 0 0
        (.mintVow sampleOwner 1000000000 .hybrid),
      priceStep (Unsigned.ofNat 128 price)]

def hybridConfig
    (price : Nat) :
    ProtocolConfig :=
  mintConfig (Unsigned.ofNat 128 price) 1000000000 1

def hybridVow : VowState :=
  { firstVow with yieldMode := .hybrid }

def onceHarvested
    (price : Nat) :
    World :=
  (hybridChain price).run [harvestStep]

def twiceHarvested
    (price : Nat) :
    World :=
  (onceHarvested price).run [harvestStep]

/- An even gain is harvested once. -/
theorem harvest_twice_even :
    ∃ w₂,
      harvest (sampleEnv 0 0) (onceHarvested (2 * 10 ^ 12))
        sampleVow = .ok w₂ ∧
      w₂.vows.lookup sampleVow =
        (onceHarvested (2 * 10 ^ 12)).vows.lookup
          sampleVow ∧
      w₂.config = (onceHarvested (2 * 10 ^ 12)).config := by
  have hConfig :
      (hybridChain (2 * 10 ^ 12)).config =
        some (hybridConfig (2 * 10 ^ 12)) := by
    decide +kernel
  have hLookup :
      (hybridChain (2 * 10 ^ 12)).vows.lookup sampleVow =
        some hybridVow := by
    decide +kernel
  have hFirst :
      execute (sampleEnv 0 0) (hybridChain (2 * 10 ^ 12))
          (.harvest sampleVow) =
        .ok (onceHarvested (2 * 10 ^ 12)) :=
    execute_eq_run (by decide +kernel)
  exact (harvest_twice_iff hConfig hLookup hFirst).mpr
    (by decide +kernel)

/-
  A gain of one lamport is counted as harvested twice by two
  calls at the same time and price.
-/
theorem harvest_recounts_odd :
    Reachable (hybridChain (10 ^ 12 + 1000)) ∧
      execute (sampleEnv 0 0) (hybridChain (10 ^ 12 + 1000))
          (.harvest sampleVow) =
        .ok (onceHarvested (10 ^ 12 + 1000)) ∧
      execute (sampleEnv 0 0)
          (onceHarvested (10 ^ 12 + 1000))
          (.harvest sampleVow) =
        .ok (twiceHarvested (10 ^ 12 + 1000)) ∧
      ((onceHarvested (10 ^ 12 + 1000)).vows.lookup
        sampleVow).map (fun vow => vow.totalHarvested.val) =
          some 1 ∧
      ((twiceHarvested (10 ^ 12 + 1000)).vows.lookup
        sampleVow).map (fun vow => vow.totalHarvested.val) =
          some 2 :=
  ⟨⟨_, _, rfl⟩, execute_eq_run (by decide +kernel),
    execute_eq_run (by decide +kernel), by decide +kernel,
    by decide +kernel⟩

end Vow
