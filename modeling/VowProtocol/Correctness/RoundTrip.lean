import VowProtocol.Correctness.Exit
import VowProtocol.Correctness.Phases
import VowProtocol.Correctness.Reharvest
import VowProtocol.Library.SplitDeposit

/-
  A position that is opened, topped up and left at one price.

  While the price stays the same nothing accrues, so the
  shares of an identity are those that its deposits bought,
  and the bounds on split deposits carry over to the debt
  that an exit records.

  Key definitions include:
    * `Instruction.openingStake`
    * `depositsInto`
    * `BuiltFrom`
    * `AtPrice`

  Key theorems include:
    * `LifeStep.builtFrom`
    * `trace_builtFrom`
    * `round_trip_bounds`
-/

------------------------------------------------------------
-- Deposits
------------------------------------------------------------

namespace Vow

open MachineInt Fallible Transition

/- The stake that opens a position. -/
def Instruction.openingStake : Instruction → Nat
| .mintVow _ stakeLamports _ => stakeLamports.val
| .activateStake _ _ stakeLamports _ => stakeLamports.val
| _ => 0

/- The top-up that an instruction makes to an identity. -/
def Instruction.deposit?
    (vowState : Pubkey) :
    Instruction → Option Nat
| .addStake _ identity lamportsToAdd =>
    if identity = vowState then some lamportsToAdd.val
    else none
| _ => none

def depositOf
    (vowState : Pubkey)
    (o : Occurrence World Step) :
    Option Nat :=
  match o.action.action with
  | .instruction ix => ix.deposit? vowState
  | _ => none

/- The top-ups of an identity, in order. -/
def depositsInto
    (vowState : Pubkey)
    (history : List (Occurrence World Step)) :
    List Nat :=
  history.filterMap (depositOf vowState)

/- Does the instruction begin an exit of the identity? -/
def Instruction.beginsExit
    (vowState : Pubkey) :
    Instruction → Bool
| .beginUnstake _ identity => identity = vowState
| _ => false

/-
  A step on the identity runs at the given price and neither
  ends nor reopens its position. Steps on other identities
  and price updates are free.
-/
def AtPrice
    (price : U128)
    (vowState : Pubkey)
    (o : Occurrence World Step) :
    Prop :=
  ∀ ix, o.action.action = .instruction ix →
    ix.rewrites = some vowState →
    (∀ config, o.before.config = some config →
      config.currentSharePrice = price) ∧
    ix.beginsExit vowState = false ∧
    ix.activates vowState = false

theorem Instruction.deposit?_of_rewrites_ne
    {vowState : Pubkey}
    {ix : Instruction}
    (hIdle : ix.rewrites ≠ some vowState) :
    ix.deposit? vowState = none := by
  cases ix with
  | addStake owner identity lamportsToAdd =>
      apply if_neg
      intro hEq
      exact hIdle (congrArg some hEq)
  | _ => rfl

theorem depositsInto_concat
    (vowState : Pubkey)
    (history : List (Occurrence World Step))
    (o : Occurrence World Step) :
    depositsInto vowState (history ++ [o]) =
      depositsInto vowState history ++
        (depositOf vowState o).toList := by
  rw [depositsInto, List.filterMap_append]
  cases hOf : depositOf vowState o with
  | none => simp [depositsInto, hOf]
  | some deposit => simp [depositsInto, hOf]

end Vow

------------------------------------------------------------
-- Positions At One Price
------------------------------------------------------------

namespace Vow

open MachineInt Fallible Transition SplitDeposit

/- The position is exactly what the deposits bought. -/
structure BuiltFrom
    (price : U128)
    (deposits : List Nat)
    (vow : VowState) :
    Prop where
  gain : vow.accruedGain = 0
  last : vow.lastSharePrice = price
  shares :
    vow.shares.val =
      units 1000000000000 price.val deposits
  principal : vow.principalLamports.val = deposits.sum

/- A settlement at the settled price changes nothing. -/
theorem settled_of_last
    {vow : VowState}
    {price : U128}
    (hLast : vow.lastSharePrice = price) :
    vow.settled price = vow := by
  have hLower := vow.accruedGain.lower
  have hUpper := vow.accruedGain.upper
  have hGain :
      vow.accruedGain.saturatingAdd (Signed.clamp 63 0) =
        vow.accruedGain := by
    apply Signed.ext
    simp only [Signed.val_saturatingAdd, Signed.val_clamp]
    omega
  unfold VowState.settled
  rw [← hLast, sub_self, hGain]

/- What a top-up does to the position, in either case. -/
theorem TopsUp.position
    {env : Env}
    {config : ProtocolConfig}
    {lamportsToAdd : U64}
    {vow vow' : VowState}
    (hTopUp : TopsUp env config lamportsToAdd vow vow') :
    vow'.accruedGain =
        (vow.settled config.currentSharePrice).accruedGain ∧
      vow'.lastSharePrice = config.currentSharePrice ∧
      vow'.shares.val =
        vow.shares.val +
          lamportsToAdd.val * 1000000000000 /
            config.currentSharePrice.val ∧
      vow'.principalLamports.val =
        vow.principalLamports.val + lamportsToAdd.val := by
  cases hTopUp with
  | sameClass principal newClass shares hPrincipal hNewClass
      hShares =>
      exact ⟨rfl, rfl, hShares, hPrincipal⟩
  | raisesClass principal newClass shares unlockAt
      hPrincipal hNewClass hShares =>
      exact ⟨rfl, rfl, hShares, hPrincipal⟩

/- A step at the price of the position extends it, or not. -/
theorem LifeStep.builtFrom
    {env : Env}
    {config : ProtocolConfig}
    {vowState : Pubkey}
    {ix : Instruction}
    {life life' : Life}
    {deposits : List Nat}
    (hStep : LifeStep env config vowState ix life life')
    (hStays :
      ix.beginsExit vowState = false ∧
        ix.activates vowState = false)
    (hBuilt :
      BuiltFrom config.currentSharePrice deposits
        life.vow) :
    BuiltFrom config.currentSharePrice
      (deposits ++ (ix.deposit? vowState).toList)
      life'.vow := by
  rcases hBuilt with ⟨hGain, hLast, hShares, hPrincipal⟩
  -- Only a top-up makes a deposit.
  have hOther :
      ix.deposit? vowState = none →
        deposits ++ (ix.deposit? vowState).toList =
          deposits := by
    intro hNone
    rw [hNone, Option.toList_none, List.append_nil]
  cases hStep with
  | topUp owner lamportsToAdd vow vow' unstaking hActive
      hStaked hTopUp =>
      rcases hTopUp.position with
        ⟨hGain', hLast', hShares', hPrincipal'⟩
      rw [settled_of_last hLast] at hGain'
      have hDeposit :
          (Instruction.addStake owner vowState
            lamportsToAdd).deposit? vowState =
              some lamportsToAdd.val :=
        if_pos rfl
      rw [hDeposit, Option.toList_some]
      refine ⟨hGain'.trans hGain, hLast', ?_, ?_⟩
      · rw [units_concat, ← hShares]
        exact hShares'
      · rw [List.sum_append, List.sum_singleton,
          ← hPrincipal]
        exact hPrincipal'
  | unstake =>
      exact absurd hStays.1 (by simp [Instruction.beginsExit])
  | activate =>
      exact absurd hStays.2 (by simp [Instruction.activates])
  | switchMode owner newMode vow unstaking =>
      rw [hOther rfl, settled_of_last hLast]
      exact ⟨hGain, hLast, hShares, hPrincipal⟩
  | harvest config' vow vow' unstaking hHarvest =>
      rcases matureIfDue_cases env.unixTimestamp vow with
        ⟨matured, hDue, _⟩
      have hSame :
          ({ vow with matured := matured } :
              VowState).settled config.currentSharePrice =
            { vow with matured := matured } :=
        settled_of_last hLast
      have hClear :
          ({ vow with matured := matured } :
            VowState).accruedGain = 0 :=
        hGain
      rw [hDue, hSame, harvestGain_cleared hClear,
        Except.ok.injEq, Prod.mk.injEq] at hHarvest
      rw [hOther rfl, ← hHarvest.1]
      exact ⟨hGain, hLast, hShares, hPrincipal⟩
  | _ =>
      rw [hOther rfl]
      exact ⟨hGain, hLast, hShares, hPrincipal⟩

end Vow

------------------------------------------------------------
-- Whole Runs
------------------------------------------------------------

namespace Vow

open MachineInt Fallible Transition SplitDeposit

/- A new position is what its opening stake bought. -/
theorem opening_builtFrom
    {env : Env}
    {w w' : World}
    {ix : Instruction}
    {vowState : Pubkey}
    {yieldMode : YieldMode}
    {config : ProtocolConfig}
    (hOpens : OpensPosition w vowState yieldMode ix)
    (hConfig : w.config = some config)
    (hOk : execute env w ix = .ok w') :
    ∃ vow, w'.vows.lookup vowState = some vow ∧
      BuiltFrom config.currentSharePrice [ix.openingStake]
        vow := by
  cases hOpens with
  | mint owner stakeLamports before hBefore hNext =>
      rcases mintVow_ok hOk with ⟨call, hEq⟩
      have hFound := call.hConfig
      rw [hBefore] at hConfig hFound
      have hSame := Option.some.inj hConfig
      have hSame' := Option.some.inj hFound
      subst hSame hSame' hEq
      rw [hNext]
      refine ⟨_, AList.lookup_insert _, rfl, rfl, ?_,
        List.sum_singleton.symm⟩
      rw [units_singleton]
      exact call.hOpens.bought
  | activate owner stakeLamports =>
      rcases activateStake_ok hOk with ⟨call, hEq⟩
      have hFound := call.hConfig
      rw [hConfig] at hFound
      have hSame := Option.some.inj hFound
      subst hSame hEq
      refine ⟨_, AList.lookup_insert _, rfl, rfl, ?_,
        List.sum_singleton.symm⟩
      rw [units_singleton]
      exact call.hOpens.bought

/- A step at the price appends its deposit, if it makes one. -/
theorem exec_builtFrom
    {w w' : World}
    {step : Step}
    {vowState : Pubkey}
    {price : U128}
    {deposits : List Nat}
    {life : Life}
    (hExec : Step.exec w step = some w')
    (hPrice : AtPrice price vowState ⟨w, step, w'⟩)
    (hLife : w.life vowState = some life)
    (hBuilt : BuiltFrom price deposits life.vow) :
    ∃ life', w'.life vowState = some life' ∧
      BuiltFrom price
        (deposits ++
          (depositOf vowState ⟨w, step, w'⟩).toList)
        life'.vow := by
  rcases exec_moved hExec hLife with ⟨life', hLife', hMove⟩
  refine ⟨life', hLife', ?_⟩
  cases hMove with
  | idle hIdle hSame =>
      subst hSame
      have hNone :
          depositOf vowState ⟨w, step, w'⟩ = none := by
        unfold depositOf
        split
        · next ix hAction =>
            exact Instruction.deposit?_of_rewrites_ne
              (hIdle ix hAction)
        · rfl
      rw [hNone, Option.toList_none, List.append_nil]
      exact hBuilt
  | acts config ix hConfig hAction hStep =>
      have hAt := hPrice ix hAction hStep.rewrites_eq
      have hSame := hAt.1 config hConfig
      subst hSame
      have hOf :
          depositOf vowState ⟨w, step, w'⟩ =
            ix.deposit? vowState := by
        simp [depositOf, hAction]
      rw [hOf]
      exact hStep.builtFrom hAt.2 hBuilt

/- Over a run the position is what its deposits bought. -/
theorem trace_builtFrom
    {w : World}
    {vowState : Pubkey}
    {price : U128}
    {stake : Nat}
    {life : Life}
    {steps : List Step}
    (hLife : w.life vowState = some life)
    (hBuilt : BuiltFrom price [stake] life.vow)
    (hPrice :
      ∀ o ∈ w.trace steps, AtPrice price vowState o) :
    ∃ life', (w.run steps).life vowState = some life' ∧
      BuiltFrom price
        (stake :: depositsInto vowState (w.trace steps))
        life'.vow := by
  -- The invariant lists the deposits made so far.
  have hInit :
      ∃ life, w.life vowState = some life ∧
        BuiltFrom price (stake :: depositsInto vowState [])
          life.vow :=
    ⟨life, hLife, hBuilt⟩
  refine trace_history_invariant
    (P := fun history s =>
      ∃ life, s.life vowState = some life ∧
        BuiltFrom price
          (stake :: depositsInto vowState history)
          life.vow)
    ?_ hInit hPrice
  intro history s step s' hHolds hExec hAt
  rcases hHolds with ⟨before, hBefore, hSoFar⟩
  rcases exec_builtFrom hExec hAt hBefore hSoFar with
    ⟨after, hAfter, hExtended⟩
  refine ⟨after, hAfter, ?_⟩
  rw [depositsInto_concat, ← List.cons_append]
  exact hExtended

/- The value of a position at the price of its deposits. -/
theorem BuiltFrom.value
    {price : U128}
    {deposits : List Nat}
    {vow : VowState}
    (hBuilt : BuiltFrom price deposits vow) :
    valueAt vow.shares.val price.val =
      worth 1000000000000 price.val
        (units 1000000000000 price.val deposits) := by
  rw [hBuilt.shares, valueAt, worth]

/-
  A stake split into pieces is owed in full at its own price,
  less a share for each piece and one lamport at most. The
  debt never exceeds the deposits.
-/
theorem round_trip_bounds
    {env exitEnv : Env}
    {w₀ w w' : World}
    {ix : Instruction}
    {vowState : Pubkey}
    {yieldMode : YieldMode}
    {opening config : ProtocolConfig}
    {owner : Signer}
    {vow : VowState}
    {steps : List Step}
    (hOpening : w₀.config = some opening)
    (hPrice : 1 ≤ opening.currentSharePrice.val)
    (hOpens : OpensPosition w₀ vowState yieldMode ix)
    (hOk : execute env w₀ ix = .ok w)
    (hAt :
      ∀ o ∈ w.trace steps,
        AtPrice opening.currentSharePrice vowState o)
    (hConfig : (w.run steps).config = some config)
    (hSame :
      config.currentSharePrice = opening.currentSharePrice)
    (hLookup : (w.run steps).vows.lookup vowState = some vow)
    (hYield : vow.yieldBalance.val = 0)
    (hExit :
      beginUnstake exitEnv (w.run steps) owner vowState =
        .ok w') :
    ∃ owed, w'.recordedDebt vowState = some owed ∧
      (((ix.openingStake :: depositsInto vowState
          (w.trace steps)).sum : ℚ) -
          ((depositsInto vowState (w.trace steps)).length +
            1) * opening.currentSharePrice.val /
              1000000000000 - 1 < owed) ∧
      owed ≤
        (ix.openingStake :: depositsInto vowState
          (w.trace steps)).sum := by
  rcases opening_builtFrom hOpens hOpening hOk with
    ⟨opened, hOpened, hBuilt⟩
  rcases trace_builtFrom (World.life_of_lookup hOpened)
    hBuilt hAt with ⟨life, hLife, hAll⟩
  rw [(World.life_eq_some_iff.mp hLife).1,
    Option.some.injEq] at hLookup
  subst hLookup
  have hAbove :=
    worth_units_le 1000000000000
      opening.currentSharePrice.val
      (ix.openingStake :: depositsInto vowState
        (w.trace steps))
  have hScale : 0 < 1000000000000 := by decide
  have hBelow :=
    lt_worth_units hScale hPrice
      (ix.openingStake :: depositsInto vowState
        (w.trace steps))
  -- The deposits are the principal, so the cast is exact.
  have hFits := life.vow.principalLamports.isLt
  rw [hAll.principal] at hFits
  rw [List.length_cons] at hBelow
  refine ⟨_,
    beginUnstake_recordedDebt hConfig
      (World.life_eq_some_iff.mp hLife).1 hExit, ?_⟩
  rw [hSame, hAll.value, hYield, Nat.add_zero,
    Nat.mod_eq_of_lt (by omega)]
  exact ⟨by exact_mod_cast hBelow, hAbove⟩

/- A program at a price of thirty lamports a share. -/
def dearChain : World :=
  sampleChain.run [sampleInit, priceStep 30000000000000]

def dearMinted : World :=
  dearChain.run [sampleStep 0 0 freshMint]

def dearTopUp : Step :=
  sampleStep 0 0
    (.addStake sampleOwner sampleVow 1000000000)

def dearExit : World :=
  (dearMinted.run [dearTopUp]).run
    [sampleStep 2592000 1 beginExit]

/- Two stakes of one XNT at thirty lamports a share. -/
theorem round_trip_bounds_dear :
    ∃ owed, dearExit.recordedDebt sampleVow = some owed ∧
      (2000000000 : ℚ) -
          (1 + 1) * 30000000000000 / 1000000000000 - 1 <
        owed ∧
      owed ≤ 2000000000 := by
  have hOpening :
      dearChain.config =
        some (mintConfig 30000000000000 0 0) := by
    decide +kernel
  have hOpens :
      OpensPosition dearChain sampleVow .treasury freshMint :=
    .mint sampleOwner 1000000000 _ hOpening rfl
  have hOk :
      execute (sampleEnv 0 0) dearChain freshMint =
        .ok dearMinted :=
    execute_eq_run (by decide +kernel)
  have hMinted :
      dearMinted.config =
        some (mintConfig 30000000000000 33333333 1) := by
    decide +kernel
  have hExec :
      Step.exec dearMinted dearTopUp =
        some (dearMinted.run [dearTopUp]) :=
    Step.exec_eq_run (by decide +kernel)
  have hTrace :
      dearMinted.trace [dearTopUp] =
        [⟨dearMinted, dearTopUp,
          dearMinted.run [dearTopUp]⟩] :=
    trace_cons_of_some hExec []
  have hAt :
      ∀ o ∈ dearMinted.trace [dearTopUp],
        AtPrice 30000000000000 sampleVow o := by
    rw [hTrace]
    intro o ho ix hAction _
    rw [List.mem_singleton] at ho
    subst ho
    rw [← Action.instruction.inj hAction]
    refine ⟨?_, rfl, rfl⟩
    intro config hConfig
    rw [hMinted, Option.some.injEq] at hConfig
    rw [← hConfig, mintConfig]
  have hConfig :
      (dearMinted.run [dearTopUp]).config =
        some (mintConfig 30000000000000 66666666 1) := by
    decide +kernel
  rcases Option.isSome_iff_exists.mp
    (by decide +kernel :
      ((dearMinted.run [dearTopUp]).vows.lookup
        sampleVow).isSome = true) with ⟨vow, hVow⟩
  have hYield : vow.yieldBalance.val = 0 := by
    have hZero :
        ((dearMinted.run [dearTopUp]).vows.lookup
          sampleVow).map (fun vow => vow.yieldBalance.val) =
            some 0 := by
      decide +kernel
    rw [hVow] at hZero
    exact Option.some.inj hZero
  have hExit :
      execute (sampleEnv 2592000 1)
          (dearMinted.run [dearTopUp]) beginExit =
        .ok dearExit :=
    execute_eq_run (by decide +kernel)
  rcases round_trip_bounds hOpening (by decide) hOpens hOk
    hAt hConfig rfl hVow hYield hExit with
    ⟨owed, hOwed, hBelow, hAbove⟩
  have hDeposits :
      depositsInto sampleVow
        (dearMinted.trace [dearTopUp]) = [1000000000] := by
    rw [hTrace]
    rfl
  have hStake : freshMint.openingStake = 1000000000 := by
    decide
  have hPrice :
      (mintConfig 30000000000000 0 0).currentSharePrice.val =
        30000000000000 := by
    decide
  rw [hDeposits, hStake] at hBelow hAbove
  rw [hPrice] at hBelow
  refine ⟨owed, hOwed, ?_, hAbove⟩
  norm_num at hBelow ⊢
  exact hBelow

end Vow
