import VowProtocol.Correctness.Gains

/-
  Where the share price comes from.

  The quote of a configuration is its pool, its price and the
  pool lamports it cached. Four instructions may change it,
  and two of them read a pool account.

  Key definitions include:
    * `World.quote`
    * `priceReadBy`
    * `lastPriceRead`
    * `ProtocolConfig.PriceSeen`
    * `PriceChecked`

  Key theorems include:
    * `execute_quote`
    * `exec_quoteRead`
    * `issued_at_read_price`
-/

------------------------------------------------------------
-- Quotes
------------------------------------------------------------

namespace Vow

open MachineInt Fallible

/- The pool, the price and the cached pool lamports. -/
def ProtocolConfig.quote
    (config : ProtocolConfig) :
    Pubkey × U128 × U64 :=
  (config.splStakePool, config.currentSharePrice,
    config.lastPoolLamports)

def World.quote
    (w : World) :
    Option (Pubkey × U128 × U64) :=
  w.config.map ProtocolConfig.quote

/- The instructions that may change the quote. -/
def Instruction.quotes : Instruction → Bool
| .initializeConfig _ _ _ _ => true
| .closeProtocolConfig _ => true
| .devSetSharePrice _ _ => true
| .updateSharePrice _ => true
| _ => false

theorem Untouched.quote
    {w w' : World}
    (hSame : Untouched w w') :
    w'.quote = w.quote := by
  rw [World.quote, hSame.config]
  rfl

/- A rewritten configuration with the same quote. -/
theorem World.quote_of_config
    {w w' : World}
    {config config' : ProtocolConfig}
    (hConfig : w.config = some config)
    (hConfig' : w'.config = some config')
    (hSame : config'.quote = config.quote) :
    w'.quote = w.quote := by
  rw [World.quote, World.quote, hConfig, hConfig',
    Option.map_some, Option.map_some, hSame]

/- All other instructions keep the quote. -/
theorem execute_quote
    {env : Env}
    {w w' : World}
    {ix : Instruction}
    (hOk : execute env w ix = .ok w')
    (hIx : ix.quotes = false) :
    w'.quote = w.quote := by
  cases ix with
  | setAdmin =>
      rcases setAdmin_ok hOk with ⟨call, hEq⟩
      subst hEq
      exact World.quote_of_config call.hConfig rfl rfl
  | setMintCounter =>
      rcases setMintCounter_ok hOk with ⟨call, hEq⟩
      subst hEq
      exact World.quote_of_config call.hConfig rfl rfl
  | devFastUnlock =>
      rcases devFastUnlock_ok hOk with ⟨call, hEq⟩
      subst hEq
      rfl
  | registerApp => exact (registerApp_untouched hOk).quote
  | verifyApp => exact (adminAppAction_untouched hOk).quote
  | blockApp => exact (adminAppAction_untouched hOk).quote
  | flushReserveToPool =>
      rcases flushReserveToPool_ok hOk with hEq | ⟨call, hEq⟩
      · subst hEq
        rfl
      · subst hEq
        rfl
  | withdrawFromPool =>
      rcases withdrawFromPool_ok hOk with
        ⟨_, hEq⟩ | ⟨call, hEq⟩
      · subst hEq
        rfl
      · subst hEq
        rfl
  | addStake =>
      rcases addStake_ok hOk with ⟨call, vow', _, hEq⟩
      subst hEq
      exact World.quote_of_config call.hConfig rfl rfl
  | mintVow =>
      rcases mintVow_ok hOk with ⟨call, hEq⟩
      subst hEq
      exact World.quote_of_config call.hConfig rfl rfl
  | updateYieldMode =>
      rcases updateYieldMode_ok hOk with ⟨call, hEq⟩
      subst hEq
      rfl
  | beginUnstake =>
      rcases beginUnstake_ok hOk with ⟨call, hEq⟩
      subst hEq
      exact World.quote_of_config call.hConfig rfl rfl
  | completeUnstake =>
      rcases completeUnstake_eq_ok_iff.mp hOk with ⟨call, hEq⟩
      subst hEq
      exact World.quote_of_config call.hConfig rfl rfl
  | activateStake =>
      rcases activateStake_ok hOk with ⟨call, hEq⟩
      subst hEq
      exact World.quote_of_config call.hConfig rfl rfl
  | harvest =>
      rcases harvest_eq_ok_iff.mp hOk with
        ⟨call, vow', config', hGain, hEq⟩
      subst hEq
      refine World.quote_of_config call.hConfig rfl ?_
      rcases harvestGain_config hGain with ⟨_, _, hSame⟩
      rw [hSame]
      rfl
  | createSession =>
      rcases createSession_ok hOk with ⟨call, hEq⟩
      subst hEq
      rfl
  | revokeSession =>
      rcases revokeSession_ok hOk with ⟨call, hEq⟩
      subst hEq
      rfl
  | closeSession =>
      rcases closeSession_ok hOk with ⟨call, hEq⟩
      subst hEq
      rfl
  | depositYieldBalance =>
      rcases depositYieldBalance_ok hOk with ⟨call, hEq⟩
      subst hEq
      exact World.quote_of_config call.hConfig rfl rfl
  | yieldSpend =>
      rcases yieldSpend_eq_ok_iff.mp hOk with ⟨call, hEq⟩
      subst hEq
      exact World.quote_of_config call.hConfig rfl rfl
  | withdrawYield =>
      rcases withdrawYield_ok hOk with ⟨call, hEq⟩
      subst hEq
      exact World.quote_of_config call.hConfig rfl rfl
  | createAuthorityProfile =>
      exact (createAuthorityProfile_untouched hOk).quote
  | updateAuthorityProfile =>
      exact (updateAuthorityProfile_untouched hOk).quote
  | closeAuthorityProfile =>
      exact (closeAuthorityProfile_untouched hOk).quote
  | recordCommitment =>
      exact (recordCommitment_untouched hOk).quote
  | recordFulfillment =>
      exact (recordFulfillment_untouched hOk).quote
  | _ => exact absurd hIx (by simp [Instruction.quotes])

end Vow

------------------------------------------------------------
-- Reads Of The Pool
------------------------------------------------------------

namespace Vow

open MachineInt Fallible Transition

/- The rounded rate that a pool account records. -/
def poolRate
    (pool : AccountInfo) :
    Nat :=
  (poolTotalLamports pool).val * 1000000000000 /
    (poolTokenSupply pool).val

/- Does an opening compute its price from the account? -/
def readsAtOpening
    (splStakePool : Pubkey)
    (splPool : AccountInfo) :
    Prop :=
  splStakePool ≠ .default ∧ splPool.key = splStakePool ∧
    275 ≤ splPool.data.length ∧
    0 < poolTotalLamports splPool ∧
    0 < poolTokenSupply splPool

instance
    (splStakePool : Pubkey)
    (splPool : AccountInfo) :
    Decidable (readsAtOpening splStakePool splPool) :=
  inferInstanceAs (Decidable (_ ∧ _ ∧ _ ∧ _ ∧ _))

/-
  The last price read under the current configuration, after
  one more successful step.
-/
def priceReadBy
    (read : Option Nat)
    (step : Step) :
    Option Nat :=
  match step.action with
  | .instruction
      (.initializeConfig _ splPool splStakePool _) =>
      if readsAtOpening splStakePool splPool then
        some (poolRate splPool)
      else
        none
  | .instruction (.closeProtocolConfig _) => none
  | .instruction (.updateSharePrice splPool) =>
      if splPool.key ≠ .default ∧
          0 < poolTokenSupply splPool then
        some (max 1 (poolRate splPool))
      else
        read
  | _ => read

/- The last price that a history has read from the pool. -/
def lastPriceRead
    (history : List (Occurrence World Step)) :
    Option Nat :=
  history.foldl (fun read o => priceReadBy read o.action) none

theorem lastPriceRead_concat
    (history : List (Occurrence World Step))
    (o : Occurrence World Step) :
    lastPriceRead (history ++ [o]) =
      priceReadBy (lastPriceRead history) o.action := by
  simp [lastPriceRead]

theorem priceReadBy_of_quotes
    {env : Env}
    {ix : Instruction}
    (hIx : ix.quotes = false)
    (read : Option Nat) :
    priceReadBy read ⟨env, .instruction ix⟩ = read := by
  cases ix with
  | initializeConfig => cases hIx
  | closeProtocolConfig => cases hIx
  | devSetSharePrice => cases hIx
  | updateSharePrice => cases hIx
  | _ => rfl

/- An opening reads the rate, or starts at the unit price. -/
theorem openingSharePrice_cases
    {splStakePool : Pubkey}
    {splPool : AccountInfo}
    {opening : U128 × U64}
    (hOk :
      openingSharePrice splStakePool splPool =
        .ok opening) :
    (readsAtOpening splStakePool splPool ∧
      opening.1.val = poolRate splPool) ∨
    (¬readsAtOpening splStakePool splPool ∧
      opening = (SHARE_PRECISION, 0)) := by
  unfold openingSharePrice at hOk
  dsimp only at hOk
  split at hOk
  case isTrue hReads =>
    simp only [bind_eq_ok_iff, okOr_eq_ok_iff,
      Unsigned.checkedMul_eq_some_iff, pure_eq_ok_iff]
      at hOk
    rcases hOk with ⟨scaled, hScaled, hEq⟩
    have hSupply := hReads.2.2.2.2
    rw [Unsigned.lt_def, Unsigned.val_zero] at hSupply
    have hTotal :=
      Unsigned.val_cast_of_le (v := 128) (by decide)
        (poolTotalLamports splPool)
    have hDivisor :=
      Unsigned.val_cast_of_le (v := 128) (by decide)
        (poolTokenSupply splPool)
    refine Or.inl ⟨hReads, ?_⟩
    rw [← hEq]
    dsimp only
    rw [Unsigned.val_getD_checkedDiv (by omega), hScaled,
      hTotal, hDivisor]
    rfl
  case isFalse hReads =>
    exact Or.inr ⟨hReads, (Except.ok.inj hOk).symm⟩

theorem initializeConfig_quote
    {env : Env}
    {w w' : World}
    {admin : Signer}
    {splPool : AccountInfo}
    {splStakePool splPoolMint : Pubkey}
    (hOk :
      initializeConfig env w admin splPool splStakePool
        splPoolMint = .ok w') :
    ∃ opening,
      openingSharePrice splStakePool splPool =
        .ok opening ∧
      w'.quote = some (splStakePool, opening) := by
  rcases initializeConfig_ok hOk with ⟨call, hEq⟩
  subst hEq
  exact ⟨call.opening, call.hOpening, rfl⟩

end Vow

------------------------------------------------------------
-- Issued Shares
------------------------------------------------------------

namespace Vow

open MachineInt Fallible Transition

/-
  The configuration shows that its price was read: it cached
  pool lamports, or its price is not the opening default.
-/
def ProtocolConfig.PriceSeen
    (config : ProtocolConfig) :
    Prop :=
  0 < config.lastPoolLamports ∨
    config.currentSharePrice ≠ SHARE_PRECISION

/- The instructions that issue shares. -/
def Instruction.issues : Instruction → Bool
| .mintVow _ _ _ => true
| .addStake _ _ _ => true
| .activateStake _ _ _ _ => true
| _ => false

/-
  The instructions that rely on the price without the check
  of `mintVow`: the other two that issue shares, and a crank
  that caches pool lamports but computes no price.
-/
def Instruction.unguarded : Instruction → Bool
| .addStake _ _ _ => true
| .activateStake _ _ _ _ => true
| .updateSharePrice splPool =>
    poolTokenSupply splPool = 0 ∧
      0 < poolTotalLamports splPool
| _ => false

/-
  With a pool configured, an unguarded step only runs where
  the configuration shows that its price was read.
-/
def PriceChecked
    (o : Occurrence World Step) :
    Prop :=
  ∀ ix config,
    o.action.action = .instruction ix →
    o.before.config = some config →
    config.splStakePool ≠ .default →
    ix.unguarded = true →
    config.PriceSeen

/- A price that the configuration vouches for was read. -/
def QuoteRead
    (read : Option Nat)
    (w : World) :
    Prop :=
  ∀ config,
    w.config = some config →
    config.splStakePool ≠ .default →
    config.PriceSeen →
    read = some config.currentSharePrice.val

theorem QuoteRead.of_quote
    {read : Option Nat}
    {w w' : World}
    (hRead : QuoteRead read w)
    (hQuote : w'.quote = w.quote) :
    QuoteRead read w' := by
  intro config' hConfig' hReal hSeen
  rw [World.quote, World.quote, hConfig',
    Option.map_some] at hQuote
  rcases Option.map_eq_some_iff.mp hQuote.symm with
    ⟨config, hConfig, hSame⟩
  unfold ProtocolConfig.quote at hSame
  rw [Prod.mk.injEq, Prod.mk.injEq] at hSame
  rcases hSame with ⟨hPool, hPrice, hLast⟩
  rw [← hPrice]
  refine hRead config hConfig (hPool ▸ hReal) ?_
  rw [ProtocolConfig.PriceSeen, hPrice, hLast]
  exact hSeen

/- A mint on a pool finds cached pool lamports. -/
theorem mintVow_priced
    {env : Env}
    {w w' : World}
    {owner : Signer}
    {stakeLamports : U64}
    {yieldMode : YieldMode}
    {config : ProtocolConfig}
    (hOk :
      mintVow env w owner stakeLamports yieldMode = .ok w')
    (hConfig : w.config = some config)
    (hReal : config.splStakePool ≠ .default) :
    0 < config.lastPoolLamports := by
  rcases mintVow_ok hOk with ⟨call, _⟩
  have hFound := call.hConfig
  rw [hConfig, Option.some.injEq] at hFound
  subst hFound
  exact call.hSynced hReal

/- The price is only set by hand without a pool. -/
theorem devSetSharePrice_pool
    {w w' : World}
    {admin : Signer}
    {newPrice : U128}
    {config' : ProtocolConfig}
    (hOk : devSetSharePrice w admin newPrice = .ok w')
    (hConfig' : w'.config = some config') :
    config'.splStakePool = .default := by
  rcases devSetSharePrice_ok hOk with ⟨call, hEq⟩
  subst hEq
  rw [← Option.some.inj hConfig']
  exact call.hPool

/- An opening vouches for its price only if it read it. -/
theorem initializeConfig_quoteRead
    {env : Env}
    {w w' : World}
    {admin : Signer}
    {splPool : AccountInfo}
    {splStakePool splPoolMint : Pubkey}
    (hOk :
      initializeConfig env w admin splPool splStakePool
        splPoolMint = .ok w') :
    QuoteRead
      (if readsAtOpening splStakePool splPool then
        some (poolRate splPool)
      else
        none) w' := by
  intro config hConfig hReal hSeen
  rcases initializeConfig_quote hOk with
    ⟨opening, hOpening, hQuote⟩
  rw [World.quote, hConfig, Option.map_some,
    Option.some.injEq] at hQuote
  unfold ProtocolConfig.quote at hQuote
  rw [Prod.mk.injEq] at hQuote
  have hPrice : config.currentSharePrice = opening.1 :=
    congrArg Prod.fst hQuote.2
  have hLast : config.lastPoolLamports = opening.2 :=
    congrArg Prod.snd hQuote.2
  rcases openingSharePrice_cases hOpening with
    ⟨hReads, hRate⟩ | ⟨hReads, hDefault⟩
  · rw [if_pos hReads, hPrice, hRate]
  · rw [ProtocolConfig.PriceSeen, hPrice, hLast, hDefault]
      at hSeen
    exact absurd hSeen (by decide)

/-
  A crank on a pool with tokens reads the price. Otherwise it
  keeps the price and only caches the pool lamports, which
  must not be the first sign of a read.
-/
theorem updateSharePrice_quoteRead
    {w w' : World}
    {splPool : AccountInfo}
    {read : Option Nat}
    (hRead : QuoteRead read w)
    (hOk : updateSharePrice w splPool = .ok w')
    (hChecked :
      ∀ config,
        w.config = some config →
        config.splStakePool ≠ .default →
        poolTokenSupply splPool = 0 →
        0 < poolTotalLamports splPool →
        config.PriceSeen) :
    QuoteRead
      (if splPool.key ≠ .default ∧
          0 < poolTokenSupply splPool then
        some (max 1 (poolRate splPool))
      else
        read) w' := by
  have hOpen : ∃ config, w.config = some config := by
    rcases updateSharePrice_ok hOk with ⟨call, _⟩
    exact ⟨call.config, call.hConfig⟩
  rcases hOpen with ⟨config, hConfig⟩
  rcases updateSharePrice_cases hConfig hOk with
    ⟨hKey, ⟨hNone, hEq⟩ | ⟨price, hReal, hPrice, hEq⟩⟩
  · subst hEq
    rw [if_neg]
    · exact hRead
    · rintro ⟨hKeyed, _⟩
      exact hKeyed (hKey.trans hNone)
  subst hEq
  intro found hFound _ hSeen
  rw [← Option.some.inj hFound]
  rw [← Option.some.inj hFound] at hSeen
  dsimp only
  rw [hPrice]
  unfold crankedPrice
  by_cases hSupply : (poolTokenSupply splPool).val = 0
  · have hEmpty : poolTokenSupply splPool = 0 := by
      apply Unsigned.ext
      rw [hSupply, Unsigned.val_zero]
    have hSame : price = config.currentSharePrice := by
      apply Unsigned.ext
      rw [hPrice, crankedPrice, if_pos hSupply]
    have hIdle :
        ¬(splPool.key ≠ .default ∧
          0 < poolTokenSupply splPool) := by
      rintro ⟨_, hTokens⟩
      rw [hEmpty] at hTokens
      exact absurd hTokens (by decide)
    rw [if_pos hSupply, if_neg hIdle]
    apply hRead config hConfig hReal
    rcases hSeen with hCached | hOther
    · exact hChecked config hConfig hReal hEmpty hCached
    · exact Or.inr (hSame ▸ hOther)
  · have hTokens :
        splPool.key ≠ .default ∧
          0 < poolTokenSupply splPool := by
      refine ⟨hKey ▸ hReal, ?_⟩
      rw [Unsigned.lt_def, Unsigned.val_zero]
      omega
    rw [if_neg hSupply, if_pos hTokens]
    rfl

theorem execute_quoteRead
    {env : Env}
    {w w' : World}
    {ix : Instruction}
    {read : Option Nat}
    (hRead : QuoteRead read w)
    (hOk : execute env w ix = .ok w')
    (hChecked :
      ∀ config,
        w.config = some config →
        config.splStakePool ≠ .default →
        ix.unguarded = true → config.PriceSeen) :
    QuoteRead (priceReadBy read ⟨env, .instruction ix⟩)
      w' := by
  by_cases hIx : ix.quotes = false
  · rw [priceReadBy_of_quotes hIx]
    exact hRead.of_quote (execute_quote hOk hIx)
  · cases ix with
    | initializeConfig =>
        exact initializeConfig_quoteRead hOk
    | closeProtocolConfig =>
        rcases closeProtocolConfig_ok hOk with ⟨call, hEq⟩
        subst hEq
        intro config hConfig
        exact absurd hConfig (by simp)
    | devSetSharePrice admin newPrice =>
        intro config hConfig hReal
        exact absurd (devSetSharePrice_pool hOk hConfig)
          hReal
    | updateSharePrice splPool =>
        refine updateSharePrice_quoteRead hRead hOk ?_
        intro config hConfig hReal hEmpty hCached
        refine hChecked config hConfig hReal ?_
        simp [Instruction.unguarded, hEmpty, hCached]
    | _ => exact absurd rfl hIx

theorem exec_quoteRead
    {w w' : World}
    {step : Step}
    {read : Option Nat}
    (hRead : QuoteRead read w)
    (hExec : step.exec w = some w')
    (hChecked : PriceChecked ⟨w, step, w'⟩) :
    QuoteRead (priceReadBy read step) w' := by
  rcases step with ⟨env, action⟩
  cases action with
  | instruction ix =>
      exact execute_quoteRead hRead
        (Step.exec_instruction_iff.mp hExec)
        (fun config => hChecked ix config rfl)
  | _ =>
      rw [← Option.some.inj hExec]
      exact hRead

/-
  In every run whose unguarded steps all find a price that
  shows it was read, shares are only issued at the last price
  read from the pool under the current configuration.
-/
theorem issued_at_read_price
    {lamports : Lamports}
    {steps : List Step}
    {past future : List (Occurrence World Step)}
    {o : Occurrence World Step}
    {ix : Instruction}
    {config : ProtocolConfig}
    (hChecked :
      ∀ o ∈ (World.genesis lamports).trace steps,
        PriceChecked o)
    (hTrace :
      (World.genesis lamports).trace steps =
        past ++ o :: future)
    (hAction : o.action.action = .instruction ix)
    (hIssues : ix.issues = true)
    (hConfig : o.before.config = some config)
    (hReal : config.splStakePool ≠ .default) :
    lastPriceRead past =
      some config.currentSharePrice.val := by
  rcases trace_split hTrace with
    ⟨first, second, _, hPast, hBefore, hExec, _⟩
  have hStep :
      ∀ (history : List (Occurrence World Step))
          (w : World) (step : Step) (w' : World),
        QuoteRead (lastPriceRead history) w →
        step.exec w = some w' →
        PriceChecked ⟨w, step, w'⟩ →
        QuoteRead
          (lastPriceRead (history ++ [⟨w, step, w'⟩]))
          w' := by
    intro history w step w' hRead hStepExec hStepChecked
    rw [lastPriceRead_concat]
    exact exec_quoteRead hRead hStepExec hStepChecked
  have hInit :
      QuoteRead (lastPriceRead [])
        (World.genesis lamports) := by
    intro found hFound
    exact absurd hFound (by simp [World.genesis])
  have hSoFar :
      ∀ before ∈ trace Step.exec (World.genesis lamports)
        first, PriceChecked before := by
    intro before hMem
    apply hChecked before
    rw [hTrace, hPast]
    exact List.mem_append_left _ hMem
  have hRead :=
    trace_history_invariant hStep hInit hSoFar
  rw [← hPast, ← hBefore] at hRead
  have hHere : PriceChecked o := by
    apply hChecked o
    rw [hTrace]
    exact List.mem_append_right _ List.mem_cons_self
  have hOk := Step.execute_of_exec hAction hExec
  apply hRead config hConfig hReal
  cases ix with
  | mintVow =>
      exact Or.inl (mintVow_priced hOk hConfig hReal)
  | addStake =>
      exact hHere _ config hAction hConfig hReal rfl
  | activateStake =>
      exact hHere _ config hAction hConfig hReal rfl
  | _ => cases hIssues

/- An opening for the pool with key 7, by any account. -/
def poolInit
    (splPool : AccountInfo) :
    Step :=
  sampleStep 0 0
    (.initializeConfig sampleAdmin splPool (.key 7) (.key 8))

def poolMintStep : Step :=
  sampleStep 0 0 pooledMint

def poolTopUp : Step :=
  sampleStep 0 0 (.addStake sampleOwner sampleVow 1000000000)

def pooledMinted : World :=
  pooledChain.run [poolMintStep]

/- A stake and a top-up at the price that was read. -/
def pooledHistory : List (Occurrence World Step) :=
  [⟨sampleChain, poolInit samplePool, pooledChain⟩,
    ⟨pooledChain, poolMintStep, pooledMinted⟩]

theorem pooledHistory_trace :
    sampleChain.trace
        [poolInit samplePool, poolMintStep, poolTopUp] =
      pooledHistory ++
        [⟨pooledMinted, poolTopUp,
          pooledMinted.run [poolTopUp]⟩] := by
  have hInit :
      (poolInit samplePool).exec sampleChain =
        some pooledChain :=
    Step.exec_eq_run (by decide +kernel)
  have hMint :
      poolMintStep.exec pooledChain = some pooledMinted :=
    Step.exec_eq_run (by decide +kernel)
  have hTopUp :
      poolTopUp.exec pooledMinted =
        some (pooledMinted.run [poolTopUp]) :=
    Step.exec_eq_run (by decide +kernel)
  unfold World.trace
  rw [trace_cons_of_some hInit, trace_cons_of_some hMint,
    trace_cons_of_some hTopUp, trace_nil]
  rfl

theorem issued_at_read_price_topUp :
    lastPriceRead pooledHistory = some 1000000000000 := by
  have hConfig :
      pooledMinted.config =
        some { pooledConfig with
          totalShares := 1000000000, totalMinted := 1 } := by
    decide +kernel
  have hChecked :
      ∀ o ∈ sampleChain.trace
          [poolInit samplePool, poolMintStep, poolTopUp],
        PriceChecked o := by
    rw [pooledHistory_trace]
    refine List.forall_mem_cons.mpr ⟨?_,
      List.forall_mem_cons.mpr ⟨?_,
        List.forall_mem_cons.mpr ⟨?_,
          List.forall_mem_nil _⟩⟩⟩
    · intro ix config _ hNone
      exact absurd hNone (by simp [sampleChain, World.genesis])
    · intro ix config hAction _ _ hUnguarded
      rw [← Action.instruction.inj hAction] at hUnguarded
      exact absurd hUnguarded (by decide)
    · intro ix config _ hFound _ _
      rw [← Option.some.inj (hConfig.symm.trans hFound)]
      exact Or.inl (by decide)
  exact issued_at_read_price hChecked pooledHistory_trace rfl
    rfl hConfig (by decide)

/- The configuration is opened again without a read. -/
def unreadSteps : List Step :=
  [poolInit samplePool, poolMintStep,
    sampleStep 0 0 (.closeProtocolConfig sampleAdmin),
    poolInit ⟨.default, []⟩]

def unreadChain : World :=
  sampleChain.run unreadSteps

/- The pool after its last token has been redeemed. -/
def emptyPool : AccountInfo where
  key := .key 7
  data :=
    List.replicate 264 0 ++ [1, 0, 0, 0, 0, 0, 0, 0, 0, 0, 0]

/- An opening without a read and a crank without a price. -/
def staleSteps : List Step :=
  [poolInit ⟨.default, []⟩,
    sampleStep 0 0 (.updateSharePrice emptyPool)]

def staleChain : World :=
  sampleChain.run staleSteps

/-
  A top-up after a reopening, and a mint after a crank on a
  pool without tokens, issue shares at a price that nothing
  has read.
-/
theorem issued_at_unread_price :
    (sampleChain.trace (unreadSteps ++ [poolTopUp]) =
        sampleChain.trace unreadSteps ++
          [⟨unreadChain, poolTopUp,
            unreadChain.run [poolTopUp]⟩] ∧
      unreadChain.quote =
        some (.key 7, 1000000000000, 0) ∧
      lastPriceRead (sampleChain.trace unreadSteps) =
        none) ∧
    (sampleChain.trace (staleSteps ++ [poolMintStep]) =
        sampleChain.trace staleSteps ++
          [⟨staleChain, poolMintStep,
            staleChain.run [poolMintStep]⟩] ∧
      staleChain.quote =
        some (.key 7, 1000000000000, 1099511627776) ∧
      lastPriceRead (sampleChain.trace staleSteps) =
        none) := by
  refine ⟨⟨?_, by decide +kernel, by decide +kernel⟩, ?_,
    by decide +kernel, by decide +kernel⟩
  · exact trace_concat_of_some
      (Step.exec_eq_run (by decide +kernel))
  · exact trace_concat_of_some
      (Step.exec_eq_run (by decide +kernel))

end Vow
