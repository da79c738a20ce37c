import VowProtocol.Correctness.Refinement

/-
  Where a funding gap comes from.

  The reserve may hold less than all positions, balances and
  debts are worth. Over every run, the gap is at most what
  its causes add up to: a new share price revalues the shares
  that are out, the pool gets lamports of the reserve, and a
  harvest rounds by less than one share. At a price of zero a
  harvest burns nothing, so its cause is all that it credits.
  No other instruction opens a gap, in any order and by
  anyone.

  Key definitions include:
    * `Instruction.gapCause`
    * `World.claims`

  Key theorems include:
    * `execute_margin_le_cause`
    * `funding_gap_has_cause`
-/

------------------------------------------------------------
-- Causes
------------------------------------------------------------

namespace Vow

open MachineInt Fallible Transition ShareLedger

/-
  What an instruction may add to the gap, in units of
  `1 / SHARE_PRECISION` lamports. A harvest rounds the burned
  shares down, to less than one; none are worth burning at a
  price of zero.
-/
def Instruction.gapCause
    (ix : Instruction)
    (w w' : World) :
    Int :=
  match ix with
  | .harvest _ =>
      if w.ledger.price = 0 then
        SHARE_PRECISION.val * (w'.sumYield - w.sumYield)
      else w.ledger.price - 1
  | .initializeConfig _ _ _ _ =>
      (w'.ledger.price - w.ledger.price) * w.sumShares
  | .closeProtocolConfig _ =>
      (w'.ledger.price - w.ledger.price) * w.sumShares
  | .devSetSharePrice _ _ =>
      (w'.ledger.price - w.ledger.price) * w.sumShares
  | .updateSharePrice _ =>
      (w'.ledger.price - w.ledger.price) * w.sumShares
  | .flushReserveToPool _ =>
      SHARE_PRECISION.val * (w.reserve - w'.reserve)
  | .withdrawFromPool _ _ =>
      SHARE_PRECISION.val * (w.reserve - w'.reserve)
  | _ => 0

def gapCause
    (o : Occurrence World Step) :
    Int :=
  match o.action.action with
  | .instruction ix => ix.gapCause o.before o.after
  | _ => 0

/- All that the reserve stands for. -/
def World.claims
    (w : World) :
    Nat :=
  w.ledger.price * w.sumShares +
    SHARE_PRECISION.val * (w.sumYield + w.sumOwed)

/- The margin of two worlds with the same claims by account. -/
theorem margin_of_revalued
    {w w' : World}
    (hVows : w'.vows = w.vows)
    (hEscrows : w'.escrows = w.escrows) :
    w.ledger.margin SHARE_PRECISION.val =
      w'.ledger.margin SHARE_PRECISION.val +
        ((w'.ledger.price - w.ledger.price) * w.sumShares +
          SHARE_PRECISION.val *
            ((w.reserve : Int) - w'.reserve)) := by
  have hShares : w'.sumShares = w.sumShares := by
    unfold World.sumShares
    rw [hVows]
  have hYield : w'.sumYield = w.sumYield := by
    unfold World.sumYield
    rw [hVows]
  have hOwed : w'.sumOwed = w.sumOwed := by
    unfold World.sumOwed
    rw [hEscrows]
  unfold Ledger.margin World.ledger
  dsimp only
  rw [hShares, hYield, hOwed]
  ring

/- The same price, and a reserve that is not lower. -/
theorem margin_le_of_funded
    {w w' : World}
    (hVows : w'.vows = w.vows)
    (hEscrows : w'.escrows = w.escrows)
    (hPrice : w'.ledger.price = w.ledger.price)
    (hReserve : w.reserve ≤ w'.reserve) :
    w.ledger.margin SHARE_PRECISION.val ≤
      w'.ledger.margin SHARE_PRECISION.val := by
  rw [margin_of_revalued hVows hEscrows, hPrice,
    sharePrecision_val]
  omega

theorem World.price_of_config
    {w w' : World}
    (hConfig : w'.config = w.config) :
    w'.ledger.price = w.ledger.price := by
  unfold World.ledger
  rw [hConfig]

/- No instruction opens a gap beyond its cause. -/
theorem execute_margin_le_cause
    {env : Env}
    {w w' : World}
    {ix : Instruction}
    (hOk : execute env w ix = .ok w') :
    w.ledger.margin SHARE_PRECISION.val ≤
      w'.ledger.margin SHARE_PRECISION.val +
        ix.gapCause w w' := by
  -- A revaluation, with the reserve as it was.
  have hRevalued :
      w'.vows = w.vows → w'.escrows = w.escrows →
      w'.reserve = w.reserve →
      w.ledger.margin SHARE_PRECISION.val ≤
        w'.ledger.margin SHARE_PRECISION.val +
          (w'.ledger.price - w.ledger.price) *
            w.sumShares := by
    intro hVows hEscrows hReserve
    rw [margin_of_revalued hVows hEscrows, hReserve]
    simp
  -- A transfer to or from the pool, at the same price.
  have hPooled :
      w'.vows = w.vows → w'.escrows = w.escrows →
      w'.config = w.config →
      w.ledger.margin SHARE_PRECISION.val ≤
        w'.ledger.margin SHARE_PRECISION.val +
          SHARE_PRECISION.val *
            ((w.reserve : Int) - w'.reserve) := by
    intro hVows hEscrows hConfig
    rw [margin_of_revalued hVows hEscrows,
      World.price_of_config hConfig]
    simp
  cases ix with
  | harvest vowState => exact (harvest_move hOk).margin_credit_le
  | initializeConfig =>
      rcases initializeConfig_ok hOk with ⟨call, hEq⟩
      rw [hEq] at hRevalued ⊢
      exact hRevalued rfl rfl call.reserve_eq
  | closeProtocolConfig admin =>
      rcases closeProtocolConfig_ok hOk with ⟨_, hEq⟩
      rw [hEq] at hRevalued ⊢
      exact hRevalued rfl rfl (closeConfig_reserve w admin)
  | devSetSharePrice =>
      rcases devSetSharePrice_ok hOk with ⟨call, hEq⟩
      rw [hEq] at hRevalued ⊢
      exact hRevalued rfl rfl rfl
  | updateSharePrice =>
      rcases updateSharePrice_ok hOk with ⟨call, hEq⟩
      rw [hEq] at hRevalued ⊢
      exact hRevalued rfl rfl rfl
  | flushReserveToPool =>
      rcases flushReserveToPool_ok hOk with hEq | ⟨call, hEq⟩
      · rw [hEq] at hPooled ⊢
        exact hPooled rfl rfl rfl
      · rw [hEq] at hPooled ⊢
        exact hPooled rfl rfl rfl
  | withdrawFromPool =>
      rcases withdrawFromPool_ok hOk with
        ⟨_, hEq⟩ | ⟨call, hEq⟩
      · rw [hEq] at hPooled ⊢
        exact hPooled rfl rfl rfl
      · rw [hEq] at hPooled ⊢
        exact hPooled rfl rfl rfl
  | setAdmin =>
      rcases setAdmin_ok hOk with ⟨call, hEq⟩
      have hPrice : w'.ledger.price = w.ledger.price := by
        rw [hEq]
        simp [World.ledger, call.hConfig]
      have hKept := margin_le_of_funded (by rw [hEq])
        (by rw [hEq]) hPrice (by rw [hEq]; exact le_refl _)
      exact hKept.trans (le_of_eq (add_zero _).symm)
  | setMintCounter =>
      rcases setMintCounter_ok hOk with ⟨call, hEq⟩
      have hPrice : w'.ledger.price = w.ledger.price := by
        rw [hEq]
        simp [World.ledger, call.hConfig]
      have hKept := margin_le_of_funded (by rw [hEq])
        (by rw [hEq]) hPrice (by rw [hEq]; exact le_refl _)
      exact hKept.trans (le_of_eq (add_zero _).symm)
  | _ =>
      have hMove := execute_move hOk (by simp)
      have hKept := hMove.margin_le
        (by simp [Instruction.kind])
        (by simp [Instruction.kind])
      exact hKept.trans (le_of_eq (add_zero _).symm)

theorem exec_margin_le_cause
    {w w' : World}
    {step : Step}
    (hExec : step.exec w = some w') :
    w.ledger.margin SHARE_PRECISION.val ≤
      w'.ledger.margin SHARE_PRECISION.val +
        gapCause ⟨w, step, w'⟩ := by
  rcases step with ⟨env, action⟩
  cases action with
  | instruction ix =>
      exact execute_margin_le_cause
        (Step.exec_instruction_iff.mp hExec)
  | _ =>
      rcases exec_outside hExec (by simp) with
        ⟨hConfig, hVows, hEscrows, hReserve⟩
      have hKept := margin_le_of_funded hVows hEscrows
        (World.price_of_config hConfig) hReserve
      exact hKept.trans (le_of_eq (add_zero _).symm)

/-
  After every run, all claims are covered by the reserve up to
  the sum of the causes that occurred in it.
-/
theorem funding_gap_has_cause
    (lamports : Lamports)
    (steps : List Step) :
    (((World.genesis lamports).run steps).claims : Int) ≤
      ((World.genesis lamports).run steps).reserve *
          SHARE_PRECISION.val +
        (((World.genesis lamports).trace steps).map
          gapCause).sum := by
  have hCharged :=
    @trace_charged World Step Int _ _ _ Step.exec
      (fun w => -w.ledger.margin SHARE_PRECISION.val)
      (fun _ => 0) gapCause
      (fun s a s' hExec => by
        have hStep := exec_margin_le_cause hExec
        omega)
      (World.genesis lamports) steps
  -- An empty chain has no claims.
  have hEmpty :
      0 ≤ (World.genesis lamports).ledger.margin
        SHARE_PRECISION.val := by
    have hShares :
        (World.genesis lamports).sumShares = 0 := rfl
    have hYield : (World.genesis lamports).sumYield = 0 := rfl
    have hOwed : (World.genesis lamports).sumOwed = 0 := rfl
    unfold Ledger.margin World.ledger
    dsimp only
    rw [hShares, hYield, hOwed, sharePrecision_val]
    omega
  have hRun :
      0 ≤ ((World.genesis lamports).run
            steps).ledger.margin SHARE_PRECISION.val +
          (((World.genesis lamports).trace steps).map
            gapCause).sum := by
    rw [List.sum_map_zero] at hCharged
    change _ + -((World.genesis lamports).run
        steps).ledger.margin SHARE_PRECISION.val ≤
      _ + (((World.genesis lamports).trace steps).map
        gapCause).sum at hCharged
    omega
  generalize (World.genesis lamports).run steps = w at hRun ⊢
  unfold Ledger.margin at hRun
  unfold World.claims
  push_cast
  change 0 ≤ (w.reserve : Int) * SHARE_PRECISION.val -
    w.ledger.price * w.sumShares -
    SHARE_PRECISION.val * (w.sumYield + w.sumOwed) + _ at hRun
  linarith

end Vow
