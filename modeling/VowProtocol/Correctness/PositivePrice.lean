import VowProtocol.Correctness.PriceReads

/-
  The share price as a divisor.

  A crank never lowers the price below one and a price set by
  hand is positive. An initialization takes the rate of its
  pool as it is, which rounds to zero for a pool of more than
  `10 ^ 12` tokens to a lamport.

  Key definitions include:
    * `PriceDivides`
    * `OpensAbove`

  Key theorems include:
    * `initializeConfig_divides_iff`
    * `execute_divides`
    * `price_positive_iff`
-/

------------------------------------------------------------
-- Divisions By The Price
------------------------------------------------------------

namespace Vow

open MachineInt Fallible Transition

/-
  The price is positive, so deposits find their shares and no
  division by the price falls back to a default.
-/
structure PriceDivides
    (price : U128) :
    Prop where
  positive : 1 ≤ price.val
  issues :
    ∀ lamports, ∃ shares,
      sharesForDeposit lamports price = .ok shares
  divides :
    ∀ scaled : U128,
      (scaled.checkedDiv price).isSome = true

/- All of it follows from a positive price. -/
theorem priceDivides_iff
    {price : U128} :
    PriceDivides price ↔ 1 ≤ price.val := by
  constructor
  · intro hDivides
    exact hDivides.positive
  · intro hPositive
    have hNonzero : price.val ≠ 0 := by omega
    refine ⟨hPositive, ?_, ?_⟩
    · intro lamports
      have hFits :
          lamports.val * 1000000000000 / price.val <
            2 ^ 128 :=
        lt_of_le_of_lt (Nat.div_le_self _ _)
          (scaled_fits lamports)
      exact ⟨⟨_, hFits⟩,
        sharesForDeposit_eq_ok_iff.mpr ⟨hNonzero, rfl⟩⟩
    · intro scaled
      have hFits : scaled.val / price.val < 2 ^ 128 :=
        lt_of_le_of_lt (Nat.div_le_self _ _) scaled.isLt
      have hSome :
          scaled.checkedDiv price = some ⟨_, hFits⟩ :=
        Unsigned.checkedDiv_eq_some_iff.mpr ⟨hNonzero, rfl⟩
      rw [hSome]
      rfl

/- The price of the configuration, if there is one. -/
def World.divides
    (w : World) :
    Prop :=
  ∀ config, w.config = some config →
    PriceDivides config.currentSharePrice

/- A price is kept with the quote. -/
theorem World.divides_of_quote
    {w w' : World}
    (hDivides : w.divides)
    (hQuote : w'.quote = w.quote) :
    w'.divides := by
  intro config' hConfig'
  rw [World.quote, World.quote, hConfig',
    Option.map_some] at hQuote
  rcases Option.map_eq_some_iff.mp hQuote.symm with
    ⟨config, hConfig, hSame⟩
  have hPrice :
      config.currentSharePrice =
        config'.currentSharePrice :=
    congrArg (fun quote => quote.2.1) hSame
  rw [← hPrice]
  exact hDivides config hConfig

end Vow

------------------------------------------------------------
-- Openings
------------------------------------------------------------

namespace Vow

open MachineInt Fallible Transition

/-
  An initialization that reads its pool finds at most
  `10 ^ 12` tokens to a lamport.
-/
def OpensAbove : Instruction → Prop
| .initializeConfig _ splPool splStakePool _ =>
    readsAtOpening splStakePool splPool →
      (poolTokenSupply splPool).val ≤
        (poolTotalLamports splPool).val * 1000000000000
| _ => True

theorem poolRate_pos_iff
    {splStakePool : Pubkey}
    {splPool : AccountInfo}
    (hReads : readsAtOpening splStakePool splPool) :
    1 ≤ poolRate splPool ↔
      (poolTokenSupply splPool).val ≤
        (poolTotalLamports splPool).val *
          1000000000000 := by
  have hSupply := hReads.2.2.2.2
  rw [Unsigned.lt_def, Unsigned.val_zero] at hSupply
  unfold poolRate
  rw [Nat.le_div_iff_mul_le hSupply, Nat.one_mul]

/- An initialization is safe exactly under this condition. -/
theorem initializeConfig_divides_iff
    {env : Env}
    {w w' : World}
    {admin : Signer}
    {splPool : AccountInfo}
    {splStakePool splPoolMint : Pubkey}
    (hOk :
      initializeConfig env w admin splPool splStakePool
        splPoolMint = .ok w') :
    w'.divides ↔
      OpensAbove
        (.initializeConfig admin splPool splStakePool
          splPoolMint) := by
  rcases initializeConfig_quote hOk with
    ⟨opening, hOpening, hQuote⟩
  rcases Option.map_eq_some_iff.mp hQuote with
    ⟨config, hConfig, hSame⟩
  have hPrice : config.currentSharePrice = opening.1 :=
    congrArg (fun quote => quote.2.1) hSame
  have hIff : w'.divides ↔ 1 ≤ opening.1.val := by
    rw [← hPrice, ← priceDivides_iff]
    constructor
    · intro hDivides
      exact hDivides config hConfig
    · intro hDivides found hFound
      rw [hConfig, Option.some.injEq] at hFound
      rw [← hFound]
      exact hDivides
  rw [hIff]
  rcases openingSharePrice_cases hOpening with
    ⟨hReads, hRate⟩ | ⟨hSkips, hUnit⟩
  · rw [hRate, poolRate_pos_iff hReads]
    constructor
    · intro hRich _
      exact hRich
    · intro hRich
      exact hRich hReads
  · apply iff_of_true
    · rw [hUnit, sharePrecision_val]
      decide
    · intro hReads
      exact absurd hReads hSkips

end Vow

------------------------------------------------------------
-- Whole Runs
------------------------------------------------------------

namespace Vow

open MachineInt Fallible Transition

/- A price set by hand is positive. -/
theorem devSetSharePrice_divides
    {w w' : World}
    {admin : Signer}
    {newPrice : U128}
    (hOk : devSetSharePrice w admin newPrice = .ok w') :
    w'.divides := by
  rcases devSetSharePrice_ok hOk with ⟨call, hEq⟩
  have hPositive := call.hPositive
  subst hEq
  intro found hFound
  rw [← Option.some.inj hFound, priceDivides_iff]
  rw [Unsigned.lt_def, Unsigned.val_zero] at hPositive
  exact hPositive

/- A crank keeps the price or computes one of at least one. -/
theorem updateSharePrice_divides
    {w w' : World}
    {splPool : AccountInfo}
    (hDivides : w.divides)
    (hOk : updateSharePrice w splPool = .ok w') :
    w'.divides := by
  rcases updateSharePrice_ok hOk with ⟨call, _⟩
  have hBefore :=
    (hDivides call.config call.hConfig).positive
  rcases updateSharePrice_cases call.hConfig hOk with
    ⟨_, ⟨_, hEq⟩ | ⟨price, _, hPrice, hEq⟩⟩
  · rw [hEq]
    exact hDivides
  · subst hEq
    intro found hFound
    rw [← Option.some.inj hFound, priceDivides_iff]
    dsimp only
    rw [hPrice, crankedPrice]
    split
    · exact hBefore
    · exact Nat.le_max_left 1 _

/- Every other step keeps a positive price. -/
theorem execute_divides
    {env : Env}
    {w w' : World}
    {ix : Instruction}
    (hDivides : w.divides)
    (hOk : execute env w ix = .ok w')
    (hOpens : OpensAbove ix) :
    w'.divides := by
  cases ix with
  | initializeConfig =>
      exact (initializeConfig_divides_iff hOk).mpr hOpens
  | closeProtocolConfig =>
      rcases closeProtocolConfig_ok hOk with ⟨call, hEq⟩
      subst hEq
      intro config hConfig
      exact absurd hConfig (by simp)
  | devSetSharePrice =>
      exact devSetSharePrice_divides hOk
  | updateSharePrice =>
      exact updateSharePrice_divides hDivides hOk
  | _ =>
      exact World.divides_of_quote hDivides
        (execute_quote hOk rfl)

theorem exec_divides
    {w w' : World}
    {step : Step}
    (hDivides : w.divides)
    (hExec : Step.exec w step = some w')
    (hOpens :
      ∀ ix, step.action = .instruction ix →
        OpensAbove ix) :
    w'.divides := by
  rcases step with ⟨env, action⟩
  cases action with
  | instruction ix =>
      exact execute_divides hDivides
        (Step.exec_instruction_iff.mp hExec) (hOpens ix rfl)
  | _ =>
      rw [← Option.some.inj hExec]
      exact hDivides

/-
  Along a run the price divides in every state exactly when
  every initialization opens above the rounding.
-/
theorem price_positive_iff
    {lamports : Lamports}
    {steps : List Step} :
    (∀ o ∈ (World.genesis lamports).trace steps,
      o.after.divides) ↔
    ∀ o ∈ (World.genesis lamports).trace steps,
      ∀ ix, o.action.action = .instruction ix →
        OpensAbove ix := by
  constructor
  · intro hAll o ho ix hAction
    have hAfter := hAll o ho
    have hExec := mem_trace_exec ho
    have hOk := Step.execute_of_exec hAction hExec
    cases ix with
    | initializeConfig =>
        exact (initializeConfig_divides_iff hOk).mp hAfter
    | _ => exact trivial
  · intro hOpens o ho
    have hGenesis : (World.genesis lamports).divides := by
      intro config hConfig
      exact absurd hConfig (by simp [World.genesis])
    have hBefore :=
      (trace_invariant
        (fun _ _ _ hHere hExec hStep =>
          exec_divides hHere hExec hStep)
        hGenesis hOpens).1 o ho
    have hExec := mem_trace_exec ho
    exact exec_divides hBefore hExec (hOpens o ho)

/- A pool of `2 ^ 48` tokens for one lamport. -/
def thinPool : AccountInfo where
  key := .key 7
  data :=
    List.replicate 259 0 ++
      [1, 0, 0, 0, 0, 0, 0, 0, 0, 0, 0, 0, 0, 0, 1, 0]

def thinInit : Step :=
  sampleStep 0 0
    (.initializeConfig sampleAdmin thinPool (.key 7)
      (.key 8))

/-
  The program opens at a price of zero. A stake of one XNT
  fails in the division, and so does its mint.
-/
theorem thin_pool_opens_at_zero :
    Reachable (sampleChain.run [thinInit]) ∧
      (sampleChain.run [thinInit]).config.map
          (fun config => config.currentSharePrice) =
        some 0 ∧
      sharesForDeposit 1000000000 0 =
        .error (.vow .mathOverflow) ∧
      (execute (sampleEnv 0 0) (sampleChain.run [thinInit])
        (.mintVow sampleOwner 1000000000
          .treasury)).toOption.isNone = true :=
  ⟨⟨_, _, rfl⟩, by decide +kernel, by decide +kernel,
    by decide +kernel⟩

end Vow
