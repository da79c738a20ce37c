import VowProtocol.Correctness.Lifecycle
import VowProtocol.Correctness.Reharvest

/-
  How gains add up over many settlements and harvests.

  A settlement records the difference of two rounded position
  values. The differences of a list of prices telescope, so
  only the last price counts. In Hybrid mode half of what is
  settled is credited, and the odd lamport is carried to the
  next harvest.

  Key definitions include:
    * `settleThrough`
    * `SettlesWithin`
    * `settledGain`
    * `gainOver`

  Key theorems include:
    * `settled_settled`
    * `settle_path_independent`
    * `harvestGain_hybrid`
    * `hybrid_splits_exactly`
-/

------------------------------------------------------------
-- Lists Of Prices
------------------------------------------------------------

namespace Vow

open MachineInt Fallible

/- Settle at the prices of a list, one after the other. -/
def settleThrough
    (config : ProtocolConfig)
    (prices : List U128)
    (idnft : VowState) :
    Result VowState :=
  prices.foldlM
    (fun idnft price =>
      settleIdnft idnft
        { config with currentSharePrice := price }) idnft

/- The position is worth an amount that fits at the price. -/
structure ValueFits
    (shares price : Nat) :
    Prop where
  product : shares * price < 2 ^ 128
  value : valueAt shares price < 2 ^ 63

/-
  Nothing overflows when the identity is settled from its
  last price to the given one.
-/
structure SettlesWithin
    (idnft : VowState)
    (price : U128) :
    Prop where
  fits : ValueFits idnft.shares.val price.val
  lower : -2 ^ 63 ≤ netGain idnft price
  upper : netGain idnft price < 2 ^ 63

/- Within the range the recorded gain is exact. -/
theorem settled_accruedGain
    {idnft : VowState}
    {price : U128}
    (hLast :
      ValueFits idnft.shares.val idnft.lastSharePrice.val)
    (hWithin : SettlesWithin idnft price) :
    (idnft.settled price).accruedGain.val =
      netGain idnft price := by
  have hOld := hLast.value
  have hNew := hWithin.fits.value
  have hLower := hWithin.lower
  have hUpper := hWithin.upper
  unfold VowState.settled netGain at *
  simp only [Signed.val_saturatingAdd, Signed.val_clamp]
  omega

/- An intermediate settlement keeps the gain of a price. -/
theorem netGain_settled
    {idnft : VowState}
    {price : U128}
    (hStart :
      ValueFits idnft.shares.val idnft.lastSharePrice.val)
    (hPrice : SettlesWithin idnft price)
    (last : U128) :
    netGain (idnft.settled price) last =
      netGain idnft last := by
  have hGain := settled_accruedGain hStart hPrice
  have hSplit :
      netGain (idnft.settled price) last =
        (idnft.settled price).accruedGain.val +
          ((valueAt idnft.shares.val last.val : Int) -
            valueAt idnft.shares.val price.val) := by
    rfl
  rw [hSplit, hGain]
  unfold netGain
  omega

theorem SettlesWithin.settled
    {idnft : VowState}
    {price last : U128}
    (hStart :
      ValueFits idnft.shares.val idnft.lastSharePrice.val)
    (hPrice : SettlesWithin idnft price)
    (hLast : SettlesWithin idnft last) :
    SettlesWithin (idnft.settled price) last := by
  constructor
  · exact hLast.fits
  · rw [netGain_settled hStart hPrice]
    exact hLast.lower
  · rw [netGain_settled hStart hPrice]
    exact hLast.upper

/- Two settlements record what the second alone would. -/
theorem settled_settled
    {idnft : VowState}
    {price last : U128}
    (hStart :
      ValueFits idnft.shares.val idnft.lastSharePrice.val)
    (hPrice : SettlesWithin idnft price)
    (hLast : SettlesWithin idnft last) :
    (idnft.settled price).settled last =
      idnft.settled last := by
  have hGain :
      ((idnft.settled price).settled last).accruedGain =
        (idnft.settled last).accruedGain := by
    apply Signed.ext
    rw [settled_accruedGain hPrice.fits
        (SettlesWithin.settled hStart hPrice hLast),
      netGain_settled hStart hPrice,
      settled_accruedGain hStart hLast]
  calc
    (idnft.settled price).settled last =
        { idnft with
          accruedGain :=
            ((idnft.settled price).settled
              last).accruedGain
          lastSharePrice := last } := rfl
    _ = idnft.settled last := by
        rw [hGain]
        rfl

theorem settleThrough_cons
    (config : ProtocolConfig)
    (price : U128)
    (prices : List U128)
    (idnft : VowState) :
    settleThrough config (price :: prices) idnft =
      (settleIdnft idnft
          { config with currentSharePrice := price } >>=
        settleThrough config prices) := by
  unfold settleThrough
  exact List.foldlM_cons

theorem settleThrough_eq_settled
    {idnft : VowState}
    {prices : List U128}
    {last : U128}
    (config : ProtocolConfig)
    (hStart :
      ValueFits idnft.shares.val idnft.lastSharePrice.val)
    (hPrices :
      ∀ price ∈ prices ++ [last],
        SettlesWithin idnft price) :
    settleThrough config (prices ++ [last]) idnft =
      .ok (idnft.settled last) := by
  have hLast : SettlesWithin idnft last :=
    hPrices last (by simp)
  induction prices generalizing idnft with
  | nil =>
      rw [List.nil_append, settleThrough_cons,
        settleIdnft_of_fits hStart.product
          hLast.fits.product]
      rfl
  | cons price prices ih =>
      have hPrice : SettlesWithin idnft price :=
        hPrices price List.mem_cons_self
      -- Each later price is as far within the range as
      -- it is from the start.
      have hRest :
          ∀ later ∈ prices ++ [last],
            SettlesWithin (idnft.settled price) later := by
        intro later hLater
        exact SettlesWithin.settled hStart hPrice
          (hPrices later (List.mem_cons_of_mem _ hLater))
      rw [List.cons_append, settleThrough_cons,
        settleIdnft_of_fits hStart.product
          hPrice.fits.product, ok_bind]
      rw [ih hPrice.fits hRest
        (SettlesWithin.settled hStart hPrice hLast)]
      rw [settled_settled hStart hPrice hLast]

/-
  However often an identity is settled on the way, the last
  settlement leaves the gain and the price that a single one
  at the last price would, and both succeed.
-/
theorem settle_path_independent
    {idnft : VowState}
    {prices : List U128}
    {last : U128}
    (config : ProtocolConfig)
    (hStart :
      ValueFits idnft.shares.val idnft.lastSharePrice.val)
    (hPrices :
      ∀ price ∈ prices ++ [last],
        SettlesWithin idnft price) :
    settleThrough config (prices ++ [last]) idnft =
        settleIdnft idnft
          { config with currentSharePrice := last } ∧
      ∃ settled,
        settleIdnft idnft
            { config with currentSharePrice := last } =
          .ok settled ∧
        settled.accruedGain.val = netGain idnft last ∧
        settled.lastSharePrice = last := by
  have hLast : SettlesWithin idnft last :=
    hPrices last (by simp)
  have hSingle :
      settleIdnft idnft
          { config with currentSharePrice := last } =
        .ok (idnft.settled last) :=
    settleIdnft_of_fits hStart.product hLast.fits.product
  refine ⟨?_, idnft.settled last, hSingle,
    settled_accruedGain hStart hLast, rfl⟩
  rw [hSingle]
  exact settleThrough_eq_settled config hStart hPrices

/- A detour over a higher and a lower price adds nothing. -/
theorem settle_path_independent_detour :
    settleThrough (mintConfig 0 1000000000 1)
        [1500000000000, 900000000000, 1200000000000]
        firstVow =
      settleIdnft firstVow
        (mintConfig 1200000000000 1000000000 1) ∧
    ∃ settled,
      settleIdnft firstVow
          (mintConfig 1200000000000 1000000000 1) =
        .ok settled ∧
      settled.accruedGain.val = 200000000 := by
  have hStart :
      ValueFits firstVow.shares.val
        firstVow.lastSharePrice.val := by
    constructor
    · decide
    · decide
  have hPrices :
      ∀ price ∈ [1500000000000, 900000000000] ++
          [(1200000000000 : U128)],
        SettlesWithin firstVow price := by
    intro price hMem
    have hRange :
        ∀ price ∈ [1500000000000, 900000000000] ++
            [(1200000000000 : U128)],
          firstVow.shares.val * price.val < 2 ^ 128 ∧
          valueAt firstVow.shares.val price.val < 2 ^ 63 ∧
          -2 ^ 63 ≤ netGain firstVow price ∧
          netGain firstVow price < 2 ^ 63 := by
      decide
    rcases hRange price hMem with
      ⟨hProduct, hValue, hLower, hUpper⟩
    exact ⟨⟨hProduct, hValue⟩, hLower, hUpper⟩
  rcases settle_path_independent
      (mintConfig 0 1000000000 1) hStart hPrices with
    ⟨hSame, settled, hOk, hGain, _⟩
  exact ⟨hSame, settled, hOk, hGain⟩

end Vow

------------------------------------------------------------
-- Hybrid Harvests
------------------------------------------------------------

namespace Vow

open MachineInt Fallible

/- A position is worth no less at a higher price. -/
theorem valueAt_le_valueAt
    {price price' : Nat}
    (shares : Nat)
    (hLe : price ≤ price') :
    valueAt shares price ≤ valueAt shares price' :=
  Nat.div_le_div_right (Nat.mul_le_mul_left shares hLe)

/-
  A Hybrid harvest credits half of a gain and carries what is
  left of it.
-/
theorem harvestGain_hybrid
    {idnft idnft' : VowState}
    {config config' : ProtocolConfig}
    (hMode : idnft.yieldMode = .hybrid)
    (hGain : 0 ≤ idnft.accruedGain.val)
    (hRoom :
      idnft.yieldBalance.val + idnft.accruedGain.val / 2 <
        2 ^ 64)
    (hHarvest :
      harvestGain idnft config = .ok (idnft', config')) :
    (idnft'.yieldBalance.val : Int) =
        idnft.yieldBalance.val +
          idnft.accruedGain.val / 2 ∧
      idnft'.accruedGain.val =
        idnft.accruedGain.val % 2 := by
  have hCredit := harvestCredit_val hGain
  rw [hMode] at hCredit
  dsimp only at hCredit
  constructor
  · rcases harvestGain_cases hHarvest with
      ⟨_, hNothing, _, hVow, _⟩ | ⟨moved, hVow, _⟩
    · rw [hNothing, Unsigned.val_zero] at hCredit
      rw [hVow]
      dsimp only
      omega
    · rw [hVow]
      dsimp only
      rw [Unsigned.val_saturatingAdd, Unsigned.maxVal]
      omega
  · rcases harvestGain_leaves hHarvest with
      ⟨hEven, hCleared⟩ | ⟨⟨_, _, hOdd⟩, hCarried, _⟩
    · have hNotOdd : idnft.accruedGain.val % 2 ≠ 1 := by
        intro hOdd
        exact hEven ⟨hMode, by omega, hOdd⟩
      rw [hCleared, Signed.val_zero]
      omega
    · rw [hCarried, hOdd]
      rfl

/- A rise is recorded in full as long as it fits. -/
theorem settled_of_rising
    {vow : VowState}
    {price : U128}
    (hCarry : 0 ≤ vow.accruedGain.val)
    (hRising : vow.lastSharePrice ≤ price)
    (hUpper : netGain vow price < 2 ^ 63) :
    0 ≤ netGain vow price ∧
      (vow.settled price).accruedGain.val =
        netGain vow price := by
  have hValue :=
    valueAt_le_valueAt vow.shares.val
      (Unsigned.le_def.mp hRising)
  unfold VowState.settled
  unfold netGain at hUpper ⊢
  rw [Signed.val_saturatingAdd, Signed.val_clamp]
  omega

/- A Hybrid harvest at a price that is not below the last. -/
theorem hybrid_harvest_step
    {now : I64}
    {vow vow' : VowState}
    {config config' : ProtocolConfig}
    (hMode : vow.yieldMode = .hybrid)
    (hCarry : 0 ≤ vow.accruedGain.val)
    (hRising : vow.lastSharePrice ≤ config.currentSharePrice)
    (hUpper : netGain vow config.currentSharePrice < 2 ^ 63)
    (hRoom :
      vow.yieldBalance.val +
          netGain vow config.currentSharePrice / 2 < 2 ^ 64)
    (hGain :
      harvestGain
        ((matureIfDue now vow).settled
          config.currentSharePrice) config =
        .ok (vow', config')) :
    vow'.yieldMode = .hybrid ∧
      (vow'.yieldBalance.val : Int) =
        vow.yieldBalance.val +
          netGain vow config.currentSharePrice / 2 ∧
      vow'.accruedGain.val =
        netGain vow config.currentSharePrice % 2 := by
  rcases settled_of_rising hCarry hRising hUpper with
    ⟨hNonneg, hSettled⟩
  rcases matureIfDue_cases now vow with ⟨matured, hDue, _⟩
  rw [hDue] at hGain
  -- Maturity is no part of what the settlement reads.
  have hRecorded :
      (VowState.settled { vow with matured := matured }
        config.currentSharePrice).accruedGain.val =
          netGain vow config.currentSharePrice :=
    hSettled
  have hHybrid :
      (VowState.settled { vow with matured := matured }
        config.currentSharePrice).yieldMode = .hybrid :=
    hMode
  rcases harvestGain_keeps hGain with
    ⟨_, _, _, hKept, _, _⟩
  have hBoth :=
    harvestGain_hybrid hHybrid
      (by rw [hRecorded]; exact hNonneg)
      (by rw [hRecorded]; exact hRoom) hGain
  rw [hRecorded] at hBoth
  exact ⟨hKept.trans hMode, hBoth.1, hBoth.2⟩

end Vow

------------------------------------------------------------
-- Runs Of Hybrid Harvests
------------------------------------------------------------

namespace Vow

open MachineInt Fallible Transition

/- The difference that a harvest of the identity settles. -/
def settledGain
    (vowState : Pubkey)
    (o : Occurrence World Step) :
    Int :=
  match o.action.action, o.before.config,
      o.before.vows.lookup vowState with
  | .instruction (.harvest harvested), some config,
      some vow =>
      if harvested = vowState then
        (valueAt vow.shares.val
            config.currentSharePrice.val : Int) -
          valueAt vow.shares.val vow.lastSharePrice.val
      else 0
  | _, _, _ => 0

/- What all harvests of the identity settle together. -/
def gainOver
    (vowState : Pubkey)
    (history : List (Occurrence World Step)) :
    Int :=
  (history.map (settledGain vowState)).sum

theorem gainOver_concat
    (vowState : Pubkey)
    (history : List (Occurrence World Step))
    (o : Occurrence World Step) :
    gainOver vowState (history ++ [o]) =
      gainOver vowState history + settledGain vowState o := by
  simp [gainOver]

theorem settledGain_idle
    {vowState : Pubkey}
    {o : Occurrence World Step}
    (hIdle :
      ∀ ix, o.action.action = .instruction ix →
        ix.rewrites ≠ some vowState) :
    settledGain vowState o = 0 := by
  unfold settledGain
  split
  · rename_i harvested config vow hAction hConfig hLookup
    rw [if_neg]
    intro hSame
    exact hIdle _ hAction (congrArg some hSame)
  · rfl

theorem settledGain_harvest
    {vowState : Pubkey}
    {o : Occurrence World Step}
    {config : ProtocolConfig}
    {vow : VowState}
    (hAction :
      o.action.action = .instruction (.harvest vowState))
    (hConfig : o.before.config = some config)
    (hLookup : o.before.vows.lookup vowState = some vow) :
    vow.accruedGain.val + settledGain vowState o =
      netGain vow config.currentSharePrice := by
  unfold settledGain netGain
  rw [hAction, hConfig, hLookup]
  dsimp only
  rw [if_pos rfl]

/-
  The only instruction that acts on the identity is its
  harvest. No harvest settles it at a lower price than the
  one before, and nothing leaves the range of its type.
-/
structure HarvestsUpward
    (vowState : Pubkey)
    (o : Occurrence World Step) :
    Prop where
  only :
    ∀ ix, o.action.action = .instruction ix →
      ix.rewrites = some vowState →
      ix = .harvest vowState
  rising :
    ∀ config vow,
      o.action.action = .instruction (.harvest vowState) →
      o.before.config = some config →
      o.before.vows.lookup vowState = some vow →
      vow.lastSharePrice ≤ config.currentSharePrice
  inRange :
    ∀ config vow,
      o.action.action = .instruction (.harvest vowState) →
      o.before.config = some config →
      o.before.vows.lookup vowState = some vow →
      netGain vow config.currentSharePrice < 2 ^ 63 ∧
        vow.yieldBalance.val +
            netGain vow config.currentSharePrice / 2 <
          2 ^ 64

/-
  What the run has credited and carried so far: half of what
  was settled, and the rest of it.
-/
def SplitSoFar
    (vowState : Pubkey)
    (opening : Nat)
    (history : List (Occurrence World Step))
    (w : World) :
    Prop :=
  ∃ vow,
    w.vows.lookup vowState = some vow ∧
      vow.yieldMode = .hybrid ∧
      (vow.yieldBalance.val : Int) =
        opening + gainOver vowState history / 2 ∧
      vow.accruedGain.val = gainOver vowState history % 2

theorem exec_splitSoFar
    {w w' : World}
    {step : Step}
    {vowState : Pubkey}
    {opening : Nat}
    {history : List (Occurrence World Step)}
    (hSplit : SplitSoFar vowState opening history w)
    (hExec : step.exec w = some w')
    (hUpward : HarvestsUpward vowState ⟨w, step, w'⟩) :
    SplitSoFar vowState opening
      (history ++ [⟨w, step, w'⟩]) w' := by
  rcases hSplit with
    ⟨vow, hLookup, hMode, hYield, hCarry⟩
  rcases exec_moved hExec (World.life_of_lookup hLookup) with
    ⟨life', hLife', hMove⟩
  have hLookup' := (World.life_eq_some_iff.mp hLife').1
  refine ⟨life'.vow, hLookup', ?_⟩
  rw [gainOver_concat]
  cases hMove with
  | idle hIdle hSame =>
      subst hSame
      rw [settledGain_idle hIdle, add_zero]
      exact ⟨hMode, hYield, hCarry⟩
  | acts config ix hConfig hAction hStep =>
      have hIx :=
        hUpward.only ix hAction hStep.rewrites_eq
      subst hIx
      have hRising :=
        hUpward.rising config vow hAction hConfig hLookup
      rcases hUpward.inRange config vow hAction hConfig
          hLookup with ⟨hUpper, hRoom⟩
      have hNet :=
        settledGain_harvest
          (o := ⟨w, step, w'⟩) hAction hConfig hLookup
      cases hStep with
      | harvest config' vow vow' unstaking hGain =>
          have hNonneg : 0 ≤ vow.accruedGain.val := by
            omega
          rcases hybrid_harvest_step hMode hNonneg hRising
              hUpper hRoom hGain with
            ⟨hMode', hYield', hCarry'⟩
          refine ⟨hMode', ?_, ?_⟩
          · rw [hYield', hYield]
            omega
          · rw [hCarry']
            omega

/-
  Over any run of harvests at prices that do not fall, with
  any other steps in between that leave the identity alone,
  a Hybrid identity is credited half of everything settled,
  rounded down once, and carries the odd lamport.
-/
theorem hybrid_splits_exactly
    {w : World}
    {vowState : Pubkey}
    {vow : VowState}
    {steps : List Step}
    (hLookup : w.vows.lookup vowState = some vow)
    (hMode : vow.yieldMode = .hybrid)
    (hGain : vow.accruedGain = 0)
    (hUpward :
      ∀ o ∈ w.trace steps, HarvestsUpward vowState o) :
    ∃ vow',
      (w.run steps).vows.lookup vowState = some vow' ∧
      (vow'.yieldBalance.val : Int) - vow.yieldBalance.val =
        gainOver vowState (w.trace steps) / 2 ∧
      vow'.accruedGain.val =
        gainOver vowState (w.trace steps) % 2 := by
  have hInit :
      SplitSoFar vowState vow.yieldBalance.val [] w := by
    refine ⟨vow, hLookup, hMode, ?_, ?_⟩
    · simp [gainOver]
    · rw [hGain, Signed.val_zero]
      rfl
  have hEnd :
      SplitSoFar vowState vow.yieldBalance.val
        (w.trace steps) (w.run steps) := by
    refine trace_history_invariant ?_ hInit hUpward
    intro history s step s' hSplit hExec hStep
    exact exec_splitSoFar hSplit hExec hStep
  rcases hEnd with ⟨vow', hLookup', _, hYield, hCarry⟩
  refine ⟨vow', hLookup', ?_, hCarry⟩
  rw [hYield]
  omega

/- A Hybrid stake before its price rises. -/
def hybridStart : World :=
  sampleChain.run
    [sampleInit,
      sampleStep 0 0
        (.mintVow sampleOwner 1000000000 .hybrid)]

/- Gains of three and of four lamports, each harvested. -/
def hybridPath : List Step :=
  [priceStep (Unsigned.ofNat 128 (10 ^ 12 + 3000)),
    harvestStep,
    priceStep (Unsigned.ofNat 128 (10 ^ 12 + 7000)),
    harvestStep]

theorem priceStep_upward
    {o : Occurrence World Step}
    {price : U128}
    (hAction : o.action = priceStep price) :
    HarvestsUpward sampleVow o := by
  have hPrice :
      o.action.action =
        .instruction (.devSetSharePrice sampleAdmin price) := by
    rw [hAction]
    rfl
  constructor
  · intro ix hIx hRewrites
    rw [hPrice] at hIx
    rw [← Action.instruction.inj hIx] at hRewrites
    exact absurd hRewrites (by simp [Instruction.rewrites])
  · intro config vow hHarvest
    rw [hPrice] at hHarvest
    exact absurd hHarvest (by simp)
  · intro config vow hHarvest
    rw [hPrice] at hHarvest
    exact absurd hHarvest (by simp)

theorem harvestStep_upward
    {o : Occurrence World Step}
    (hAction : o.action = harvestStep)
    (hWorld :
      ∀ config ∈ o.before.config,
        ∀ vow ∈ o.before.vows.lookup sampleVow,
          vow.lastSharePrice ≤ config.currentSharePrice ∧
          netGain vow config.currentSharePrice < 2 ^ 63 ∧
          vow.yieldBalance.val +
              netGain vow config.currentSharePrice / 2 <
            2 ^ 64) :
    HarvestsUpward sampleVow o := by
  constructor
  · intro ix hIx _
    rw [hAction] at hIx
    exact (Action.instruction.inj hIx).symm
  · intro config vow _ hConfig hVow
    exact (hWorld config hConfig vow hVow).1
  · intro config vow _ hConfig hVow
    exact (hWorld config hConfig vow hVow).2

/- Seven lamports are settled, of which three are credited. -/
theorem hybrid_splits_exactly_seven :
    ∃ vow',
      (hybridStart.run hybridPath).vows.lookup sampleVow =
        some vow' ∧
      vow'.yieldBalance.val = 3 ∧
      vow'.accruedGain.val = 1 := by
  have hLookup :
      hybridStart.vows.lookup sampleVow = some hybridVow := by
    decide +kernel
  have hSeven :
      gainOver sampleVow (hybridStart.trace hybridPath) =
        7 := by
    decide +kernel
  have hUpward :
      ∀ o ∈ hybridStart.trace hybridPath,
        HarvestsUpward sampleVow o := by
    intro o ho
    rcases mem_trace_cons ho with ⟨_, hAction⟩ | ho
    · exact priceStep_upward hAction
    rcases mem_trace_cons ho with ⟨hBefore, hAction⟩ | ho
    · refine harvestStep_upward hAction ?_
      rw [hBefore]
      decide +kernel
    rcases mem_trace_cons ho with ⟨_, hAction⟩ | ho
    · exact priceStep_upward hAction
    rcases mem_trace_cons ho with ⟨hBefore, hAction⟩ | ho
    · refine harvestStep_upward hAction ?_
      rw [hBefore]
      decide +kernel
    · exact absurd ho (by simp)
  rcases hybrid_splits_exactly hLookup rfl rfl hUpward with
    ⟨vow', hLookup', hYield, hCarry⟩
  have hNone : hybridVow.yieldBalance.val = 0 := rfl
  refine ⟨vow', hLookup', ?_, ?_⟩
  · rw [hSeven, hNone] at hYield
    omega
  · rw [hCarry, hSeven]
    rfl

end Vow
