import VowProtocol.Correctness.Frames
import VowProtocol.Library.ProRata
import VowProtocol.Library.ShareLedger

/-
  The program refines the abstract share ledger: every
  instruction but `closeProtocolConfig` is a ledger move of
  the kind that its name says.

  Key definitions include:
    * `World.sumShares`
    * `World.sumYield`
    * `World.sumOwed`
    * `World.ledger`
    * `Instruction.kind`

  Key theorems include:
    * `execute_move`
    * `exec_move`
-/

------------------------------------------------------------
-- Sums Over All Accounts
------------------------------------------------------------

namespace Vow

open MachineInt Fallible ShareLedger

/- The shares of all identities. -/
def World.sumShares
    (w : World) :
    Nat :=
  AccountMap.total (fun vow => vow.shares.val) w.vows

/- The yield balances of all identities. -/
def World.sumYield
    (w : World) :
    Nat :=
  AccountMap.total (fun vow => vow.yieldBalance.val) w.vows

/- The debts of all open escrows. -/
def World.sumOwed
    (w : World) :
    Nat :=
  AccountMap.total (fun escrow => escrow.lamportsOwed.val)
    w.escrows

/-
  The ledger that a world stands for. Without a configuration
  the price and the counters read as zero.
-/
def World.ledger
    (w : World) :
    Ledger where
  price :=
    match w.config with
    | some config => config.currentSharePrice.val
    | none => 0
  reserve := w.reserve
  shares := w.sumShares
  yields := w.sumYield
  owed := w.sumOwed
  shareCounter :=
    match w.config with
    | some config => config.totalShares.val
    | none => 0
  yieldCounter :=
    match w.config with
    | some config => config.totalYieldClaims.val
    | none => 0
  pendingCounter :=
    match w.config with
    | some config => config.totalPendingUnstake.val
    | none => 0

theorem World.ledger_of_config
    {w : World}
    {config : ProtocolConfig}
    (hConfig : w.config = some config) :
    w.ledger =
      { price := config.currentSharePrice.val
        reserve := w.reserve
        shares := w.sumShares
        yields := w.sumYield
        owed := w.sumOwed
        shareCounter := config.totalShares.val
        yieldCounter := config.totalYieldClaims.val
        pendingCounter :=
          config.totalPendingUnstake.val } := by
  unfold World.ledger
  rw [hConfig]

/- Moves with the program's precision and 64-bit counters. -/
abbrev VowMove
    (kind : Kind)
    (w w' : World) :
    Prop :=
  Move SHARE_PRECISION.val (Unsigned.maxVal 64) w.ledger kind
    w'.ledger

end Vow

------------------------------------------------------------
-- One Identity Against The Others
------------------------------------------------------------

namespace Vow

open MachineInt Fallible ShareLedger

/- The shares of every identity but one. -/
def World.sharesBut
    (w : World)
    (vowState : Pubkey) :
    Nat :=
  AccountMap.total (fun vow => vow.shares.val)
    (w.vows.erase vowState)

/- The yield balances of every identity but one. -/
def World.yieldBut
    (w : World)
    (vowState : Pubkey) :
    Nat :=
  AccountMap.total (fun vow => vow.yieldBalance.val)
    (w.vows.erase vowState)

/- The debts of every escrow but one. -/
def World.owedBut
    (w : World)
    (address : Pubkey) :
    Nat :=
  AccountMap.total (fun escrow => escrow.lamportsOwed.val)
    (w.escrows.erase address)

theorem World.sumShares_eq
    {w : World}
    {vowState : Pubkey}
    {vow : VowState}
    (hLookup : w.vows.lookup vowState = some vow) :
    w.sumShares = w.sharesBut vowState + vow.shares.val :=
  (AccountMap.total_erase_of_lookup hLookup).symm

theorem World.sumYield_eq
    {w : World}
    {vowState : Pubkey}
    {vow : VowState}
    (hLookup : w.vows.lookup vowState = some vow) :
    w.sumYield =
      w.yieldBut vowState + vow.yieldBalance.val :=
  (AccountMap.total_erase_of_lookup hLookup).symm

theorem World.sumOwed_eq
    {w : World}
    {address : Pubkey}
    {escrow : UnstakeEscrow}
    (hLookup : w.escrows.lookup address = some escrow) :
    w.sumOwed =
      w.owedBut address + escrow.lamportsOwed.val :=
  (AccountMap.total_erase_of_lookup hLookup).symm

/- The ledger after one identity has been written. -/
theorem World.ledger_of_update
    {w w' : World}
    {config : ProtocolConfig}
    {vowState : Pubkey}
    {vow : VowState}
    (hConfig : w'.config = some config)
    (hVows : w'.vows = w.vows.insert vowState vow) :
    w'.ledger =
      { price := config.currentSharePrice.val
        reserve := w'.reserve
        shares := w.sharesBut vowState + vow.shares.val
        yields :=
          w.yieldBut vowState + vow.yieldBalance.val
        owed := w'.sumOwed
        shareCounter := config.totalShares.val
        yieldCounter := config.totalYieldClaims.val
        pendingCounter :=
          config.totalPendingUnstake.val } := by
  rw [World.ledger_of_config hConfig]
  unfold World.sumShares World.sumYield
  rw [hVows, AccountMap.total_insert,
    AccountMap.total_insert, add_comm vow.shares.val,
    add_comm vow.yieldBalance.val]
  rfl

/- A change of one identity that keeps shares and yield. -/
theorem World.ledger_of_same
    {w w' : World}
    {vowState : Pubkey}
    {vow vow' : VowState}
    (hLookup : w.vows.lookup vowState = some vow)
    (hVows : w'.vows = w.vows.insert vowState vow')
    (hShares : vow'.shares = vow.shares)
    (hYield : vow'.yieldBalance = vow.yieldBalance)
    (hConfig : w'.config = w.config)
    (hEscrows : w'.escrows = w.escrows)
    (hReserve : w'.reserve = w.reserve) :
    w'.ledger = w.ledger := by
  have hSumShares : w'.sumShares = w.sumShares := by
    unfold World.sumShares
    rw [hVows]
    exact AccountMap.total_insert_of_eq hLookup
      (by rw [hShares])
  have hSumYield : w'.sumYield = w.sumYield := by
    unfold World.sumYield
    rw [hVows]
    exact AccountMap.total_insert_of_eq hLookup
      (by rw [hYield])
  unfold World.ledger World.sumOwed
  rw [hSumShares, hSumYield, hConfig, hEscrows, hReserve]

end Vow

------------------------------------------------------------
-- Stake Moves
------------------------------------------------------------

namespace Vow

open MachineInt Fallible ShareLedger

/- Shares bought by rounding down cost at most the deposit. -/
theorem issued_le_deposit
    {issued amount price : Nat}
    (hIssued : issued = amount * 1000000000000 / price) :
    issued * price ≤ amount * SHARE_PRECISION.val := by
  rw [hIssued, sharePrecision_val]
  exact Nat.div_mul_le_self _ _

theorem mintVow_move
    {env : Env}
    {w w' : World}
    {owner : Signer}
    {stakeLamports : U64}
    {yieldMode : YieldMode}
    (hOk :
      mintVow env w owner stakeLamports yieldMode =
        .ok w') :
    VowMove .issue w w' := by
  rcases mintVow_ok hOk with ⟨call, hEq⟩
  subst hEq
  have hRest :
      w.sharesBut (.vow (.vowAsset call.config.totalMinted)) =
        w.sumShares :=
    AccountMap.total_erase_of_lookup_none _ call.hFresh
  have hYield :
      w.yieldBut (.vow (.vowAsset call.config.totalMinted)) =
        w.sumYield :=
    AccountMap.total_erase_of_lookup_none _ call.hFresh
  unfold VowMove
  rw [World.ledger_of_config call.hConfig]
  refine Move.of_eq
    (Move.issue stakeLamports.val call.shares.val 0 w.sumShares
      rfl (issued_le_deposit call.hOpens.bought))
    ((World.ledger_of_update rfl rfl).trans ?_)
  apply Ledger.ext
  · rfl
  · exact call.reserve_eq
  · rw [hRest]
    rfl
  · rw [hYield]
    rfl
  · rfl
  · exact call.hTotal
  · rfl
  · rfl

theorem addStake_move
    {env : Env}
    {w w' : World}
    {owner : Signer}
    {vowState : Pubkey}
    {lamportsToAdd : U64}
    (hOk :
      addStake env w owner vowState lamportsToAdd =
        .ok w') :
    VowMove .issue w w' := by
  rcases addStake_ok hOk with ⟨call, vow', hTopUp, hEq⟩
  subst hEq
  have hShares := hTopUp.shares
  have hTotal := call.hTotal
  unfold VowMove
  rw [World.ledger_of_config call.hConfig]
  refine Move.of_eq
    (Move.issue lamportsToAdd.val _ 0 w.sumShares
      rfl (issued_le_deposit rfl))
    ((World.ledger_of_update rfl rfl).trans ?_)
  apply Ledger.ext
  · rfl
  · exact call.reserve_eq
  · have hSum := World.sumShares_eq call.hLookup
    dsimp only
    omega
  · have hSum := World.sumYield_eq call.hLookup
    dsimp only
    rw [hTopUp.sameIdentity.2, hSum]
  · rfl
  · exact call.hTotal
  · rfl
  · rfl

theorem activateStake_move
    {env : Env}
    {w w' : World}
    {owner : Signer}
    {vowState : Pubkey}
    {stakeLamports : U64}
    {yieldMode : YieldMode}
    (hOk :
      activateStake env w owner vowState stakeLamports
        yieldMode = .ok w') :
    VowMove .issue w w' := by
  rcases activateStake_ok hOk with ⟨call, hEq⟩
  subst hEq
  unfold VowMove
  rw [World.ledger_of_config call.hConfig]
  refine Move.of_eq
    (Move.issue stakeLamports.val call.newShares.val
      call.vow.shares.val (w.sharesBut vowState)
      (World.sumShares_eq call.hLookup)
      (issued_le_deposit call.hOpens.bought))
    ((World.ledger_of_update rfl rfl).trans ?_)
  apply Ledger.ext
  · rfl
  · exact call.reserve_eq
  · rfl
  · rw [settleIdnft_ok call.hSettle]
    exact (World.sumYield_eq call.hLookup).symm
  · rfl
  · exact call.hTotal
  · rfl
  · rfl

theorem updateYieldMode_move
    {w w' : World}
    {owner : Signer}
    {vowState : Pubkey}
    {newMode : YieldMode}
    (hOk :
      updateYieldMode w owner vowState newMode = .ok w') :
    VowMove .idle w w' := by
  rcases updateYieldMode_ok hOk with ⟨call, hEq⟩
  subst hEq
  exact Move.of_eq Move.idle
    (World.ledger_of_same call.hLookup rfl rfl rfl rfl rfl
      rfl)

end Vow

------------------------------------------------------------
-- Yield Moves
------------------------------------------------------------

namespace Vow

open MachineInt Fallible ShareLedger

/- Settling and maturing keep shares and yield. -/
theorem settled_shares_yield
    {now : I64}
    {vow settled : VowState}
    {config : ProtocolConfig}
    (hSettle :
      settleIdnft (matureIfDue now vow) config =
        .ok settled) :
    settled.shares = vow.shares ∧
      settled.yieldBalance = vow.yieldBalance := by
  rcases matureIfDue_cases now vow with ⟨_, hDue, _⟩
  rw [hDue] at hSettle
  rw [settleIdnft_ok hSettle]
  exact ⟨rfl, rfl⟩

/- A harvest that credits nothing is a credit of zero. -/
theorem harvest_move
    {env : Env}
    {w w' : World}
    {vowState : Pubkey}
    (hOk : harvest env w vowState = .ok w') :
    VowMove .credit w w' := by
  rcases harvest_eq_ok_iff.mp hOk with
    ⟨call, vow', config', hGain, hEq⟩
  subst hEq
  rcases settled_shares_yield call.hSettle with
    ⟨hShares, hYield⟩
  have hSumShares := World.sumShares_eq call.hLookup
  have hSumYield := World.sumYield_eq call.hLookup
  unfold VowMove
  rw [World.ledger_of_config call.hConfig]
  rcases harvestGain_cases hGain with
    ⟨harvested, _, _, hVow, hSame⟩ | ⟨moved, hVow, hNext⟩
  · subst hVow hSame
    have hBalance := call.vow.yieldBalance.val_le_maxVal
    have hCounter :=
      call.config.totalYieldClaims.val_le_maxVal
    refine Move.of_eq
      (Move.credit 0 0 call.vow.yieldBalance.val w.sumShares
        (w.yieldBut vowState) rfl (by simp) hSumYield)
      ((World.ledger_of_update rfl rfl).trans ?_)
    apply Ledger.ext
    · rfl
    · rfl
    · dsimp only
      rw [hShares, hSumShares]
    · dsimp only
      rw [hYield]
      omega
    · rfl
    · rfl
    · dsimp only
      omega
    · rfl
  · subst hVow hNext
    refine Move.of_eq
      (Move.credit (harvestCredit call.settled).val
        moved.burned.val call.vow.yieldBalance.val
        (w.sharesBut vowState + moved.shares.val)
        (w.yieldBut vowState) ?_ ?_ hSumYield)
      ((World.ledger_of_update rfl rfl).trans ?_)
    · have hSplit := moved.hSplit
      rw [hShares] at hSplit
      dsimp only
      omega
    · rw [moved.hBurned, sharePrecision_val]
    · apply Ledger.ext
      · rfl
      · rfl
      · rfl
      · dsimp only
        rw [hYield]
        rfl
      · rfl
      · rfl
      · rfl
      · rfl

theorem depositYieldBalance_move
    {w w' : World}
    {depositor : Signer}
    {vowState : Pubkey}
    {amount : U64}
    (hOk :
      depositYieldBalance w depositor vowState amount =
        .ok w') :
    VowMove .deposit w w' := by
  rcases depositYieldBalance_ok hOk with ⟨call, hEq⟩
  subst hEq
  unfold VowMove
  rw [World.ledger_of_config call.hConfig]
  refine Move.of_eq
    (Move.deposit amount.val call.vow.yieldBalance.val
      (w.yieldBut vowState) (World.sumYield_eq call.hLookup))
    ((World.ledger_of_update rfl rfl).trans ?_)
  apply Ledger.ext
  · rfl
  · exact call.reserve_eq
  · exact (World.sumShares_eq call.hLookup).symm
  · rfl
  · rfl
  · rfl
  · rfl
  · rfl

/- Withdrawals and session spends move the ledger alike. -/
theorem spend_move
    {w w' : World}
    {config : ProtocolConfig}
    {vowState : Pubkey}
    {vow : VowState}
    {amount yieldBalance : U64}
    (hConfig : w.config = some config)
    (hLookup : w.vows.lookup vowState = some vow)
    (hBalance :
      vow.yieldBalance.val = yieldBalance.val + amount.val)
    (hReserve : w.reserve ≤ w'.reserve + amount.val)
    (hConfig' :
      w'.config = some { config with
        totalYieldClaims :=
          config.totalYieldClaims.saturatingSub amount })
    (hVows :
      w'.vows = w.vows.insert vowState
        { vow with yieldBalance := yieldBalance })
    (hEscrows : w'.escrows = w.escrows) :
    VowMove .spend w w' := by
  have hSumYield := World.sumYield_eq hLookup
  unfold VowMove
  rw [World.ledger_of_config hConfig]
  refine Move.of_eq
    (Move.spend amount.val
      (w.yieldBut vowState + yieldBalance.val) w'.reserve
      ?_ hReserve)
    ((World.ledger_of_update hConfig' hVows).trans ?_)
  · dsimp only
    omega
  · apply Ledger.ext
    · rfl
    · rfl
    · exact (World.sumShares_eq hLookup).symm
    · rfl
    · dsimp only
      unfold World.sumOwed
      rw [hEscrows]
    · rfl
    · rfl
    · rfl

theorem withdrawYield_move
    {w w' : World}
    {owner : Signer}
    {vowState : Pubkey}
    {amount : Option U64}
    (hOk : withdrawYield w owner vowState amount = .ok w') :
    VowMove .spend w w' := by
  rcases withdrawYield_ok hOk with ⟨call, hEq⟩
  subst hEq
  exact spend_move call.hConfig call.hLookup call.hBalance
    (le_of_eq call.reserve_eq) rfl rfl rfl

theorem yieldSpend_move
    {env : Env}
    {w w' : World}
    {ix : YieldSpend}
    (hOk : yieldSpend env w ix = .ok w') :
    VowMove .spend w w' := by
  rcases yieldSpend_eq_ok_iff.mp hOk with ⟨call, hEq⟩
  subst hEq
  exact spend_move call.hConfig call.hLookup call.hBalance
    call.reserve_le rfl rfl rfl

end Vow

------------------------------------------------------------
-- Escrow Moves
------------------------------------------------------------

namespace Vow

open MachineInt Fallible ShareLedger

/- The debt of an exit is covered by what it gives up. -/
theorem owed_le_position
    {owed shares price yieldBalance : Nat}
    (hOwed :
      owed = valueAt shares price % 2 ^ 64 + yieldBalance) :
    owed * SHARE_PRECISION.val ≤
      shares * price +
        yieldBalance * SHARE_PRECISION.val := by
  have hLow := Nat.mod_le (valueAt shares price) (2 ^ 64)
  have hRound :
      valueAt shares price * SHARE_PRECISION.val ≤
        shares * price := by
    rw [sharePrecision_val]
    exact Nat.div_mul_le_self _ _
  have hScaled :=
    Nat.mul_le_mul_right SHARE_PRECISION.val hLow
  rw [hOwed, Nat.add_mul]
  omega

theorem beginUnstake_move
    {env : Env}
    {w w' : World}
    {owner : Signer}
    {vowState : Pubkey}
    (hOk : beginUnstake env w owner vowState = .ok w') :
    VowMove .exit w w' := by
  rcases beginUnstake_ok hOk with ⟨call, hEq⟩
  subst hEq
  unfold VowMove
  rw [World.ledger_of_config call.hConfig]
  refine Move.of_eq
    (Move.exit call.vow.shares.val call.vow.yieldBalance.val
      call.lamportsOwed.val (w.sharesBut vowState)
      (w.yieldBut vowState) (World.sumShares_eq call.hLookup)
      (World.sumYield_eq call.hLookup)
      (owed_le_position call.hOwed))
    ((World.ledger_of_update rfl rfl).trans ?_)
  apply Ledger.ext
  · rfl
  · exact call.reserve_eq
  · simp
  · simp
  · have hDebts :=
      AccountMap.total_insert_of_lookup_none
        (f := fun escrow : UnstakeEscrow =>
          escrow.lamportsOwed.val) call.hFresh
    exact hDebts _
  · rfl
  · rfl
  · exact call.hPending

/- The 128-bit payout formula is exact. -/
theorem payAmount_val
    (owed : U64)
    (reserve : Nat)
    (pending : U64) :
    (payAmount owed reserve pending).val =
      ProRata.share owed.val reserve pending.val := by
  by_cases hShort : reserve < pending.val
  · have hOwed := owed.isLt
    have hPending := pending.isLt
    have hFull :
        ¬(pending = 0 ∨ pending.val ≤ reserve) := by
      rintro (hZero | hCovered)
      · rw [hZero, Unsigned.val_zero] at hShort
        omega
      · omega
    have hReserve :
        (Unsigned.ofNat 128 reserve).val = reserve :=
      Nat.mod_eq_of_lt (by omega)
    have hProduct :
        owed.val * reserve < 2 ^ 128 := by
      have hSquare : owed.val * reserve < 2 ^ 64 * 2 ^ 64 :=
        Nat.mul_lt_mul'' hOwed (by omega)
      omega
    have hMul :
        (owed.cast 128).checkedMul
            (Unsigned.ofNat 128 reserve) =
          some ⟨owed.val * reserve, hProduct⟩ := by
      rw [Unsigned.checkedMul_eq_some_iff, hReserve,
        Unsigned.val_cast_of_le (by decide)]
    have hDivisor : (pending.cast 128).val = pending.val :=
      Unsigned.val_cast_of_le (by decide) pending
    have hSmall := ProRata.share_le_claim owed.val reserve
      pending.val
    rw [ProRata.share_of_short hShort] at hSmall ⊢
    unfold payAmount
    rw [if_neg hFull, hMul, Option.getD_some,
      Unsigned.val_cast,
      Unsigned.val_getD_checkedDiv (by omega), hDivisor]
    exact Nat.mod_eq_of_lt
      (Nat.lt_of_le_of_lt hSmall hOwed)
  · unfold payAmount
    rw [if_pos (Or.inr (by omega)),
      ProRata.share_of_covered (by omega)]

/- What a completion takes out of the reserve. -/
theorem completed_reserve
    {owner : Signer}
    {pay : Nat}
    {l l' : Lamports}
    (vowState : Pubkey)
    (hTransfer :
      transfer .reserve owner.key pay l = .ok l') :
    l .reserve =
      closeAccount (.unstake vowState) owner.key l'
        .reserve + pay := by
  rw [closeAccount_of_ne (by simp) (reserve_ne_key owner)]
  exact transfer_from_reserve hTransfer

/- What the payee of a completion receives. -/
theorem completed_balance
    {owner : Signer}
    {pay : Nat}
    {l l' : Lamports}
    (vowState : Pubkey)
    (hTransfer :
      transfer .reserve owner.key pay l = .ok l') :
    closeAccount (.unstake vowState) owner.key l' owner.key =
      l owner.key + pay + l (.unstake vowState) := by
  have hEscrow :
      l' (.unstake vowState) = l (.unstake vowState) :=
    transfer_of_ne hTransfer (by simp)
      (by simp [Signer.key])
  have hOwner : l' owner.key = l owner.key + pay := by
    rw [(transfer_eq_ok_iff.mp hTransfer).2, credit_self,
      debit_of_ne (reserve_ne_key owner).symm]
  unfold closeAccount
  rw [credit_self, debit_of_ne (by simp [Signer.key]),
    hOwner, hEscrow]

/- A completion pays the share of the reserve. -/
theorem CompleteUnstakeCall.share_pos
    {env : Env}
    {w : World}
    {owner : Signer}
    {vowState : Pubkey}
    (call : CompleteUnstakeCall env w owner vowState) :
    0 < ProRata.share call.escrow.lamportsOwed.val w.reserve
      call.config.totalPendingUnstake.val := by
  have hPay := call.hPay
  rw [Unsigned.lt_def, payAmount_val,
    Unsigned.val_zero] at hPay
  exact hPay

theorem CompleteUnstakeCall.reserve_eq
    {env : Env}
    {w : World}
    {owner : Signer}
    {vowState : Pubkey}
    (call : CompleteUnstakeCall env w owner vowState) :
    w.reserve =
      closeAccount (.unstake vowState) owner.key
          call.lamports .reserve +
        ProRata.share call.escrow.lamportsOwed.val w.reserve
          call.config.totalPendingUnstake.val := by
  have hPaid := completed_reserve vowState call.hTransfer
  rw [payAmount_val] at hPaid
  exact hPaid

theorem completeUnstake_move
    {env : Env}
    {w w' : World}
    {owner : Signer}
    {vowState : Pubkey}
    (hOk : completeUnstake env w owner vowState = .ok w') :
    VowMove .payout w w' := by
  rcases completeUnstake_eq_ok_iff.mp hOk with ⟨call, hEq⟩
  subst hEq
  unfold VowMove
  rw [World.ledger_of_config call.hConfig]
  refine Move.of_eq
    (Move.payout call.escrow.lamportsOwed.val _
      (w.owedBut (.unstake vowState))
      _ (World.sumOwed_eq call.hEscrow) call.reserve_eq
      (ProRata.share_le_claim _ _ _))
    ((World.ledger_of_update rfl rfl).trans ?_)
  apply Ledger.ext
  · rfl
  · rfl
  · exact (World.sumShares_eq call.hLookup).symm
  · exact (World.sumYield_eq call.hLookup).symm
  · rfl
  · rfl
  · rfl
  · rfl

end Vow

------------------------------------------------------------
-- Outside Moves
------------------------------------------------------------

namespace Vow

open MachineInt Fallible ShareLedger

/-
  A step that keeps identities, escrows and the three
  counters can only move the price and the reserve.
-/
theorem drift_move
    {w w' : World}
    (hVows : w'.vows = w.vows)
    (hEscrows : w'.escrows = w.escrows)
    (hShares :
      w'.ledger.shareCounter = w.ledger.shareCounter)
    (hYield :
      w'.ledger.yieldCounter = w.ledger.yieldCounter)
    (hPending :
      w'.ledger.pendingCounter = w.ledger.pendingCounter) :
    VowMove .drift w w' := by
  refine Move.of_eq
    (Move.drift w'.ledger.price w'.ledger.reserve) ?_
  apply Ledger.ext
  · rfl
  · rfl
  · change w'.sumShares = w.sumShares
    unfold World.sumShares
    rw [hVows]
  · change w'.sumYield = w.sumYield
    unfold World.sumYield
    rw [hVows]
  · change w'.sumOwed = w.sumOwed
    unfold World.sumOwed
    rw [hEscrows]
  · exact hShares
  · exact hYield
  · exact hPending

/- Frame steps move nothing. -/
theorem Untouched.move
    {w w' : World}
    (hFrame : Untouched w w') :
    VowMove .idle w w' := by
  refine Move.of_eq Move.idle ?_
  unfold World.ledger World.sumShares World.sumYield
    World.sumOwed
  rw [hFrame.config, hFrame.vows, hFrame.escrows,
    hFrame.reserve]

/- A configuration change outside the three counters. -/
theorem configure_move
    {w w' : World}
    {config config' : ProtocolConfig}
    (hConfig : w.config = some config)
    (hVows : w'.vows = w.vows)
    (hEscrows : w'.escrows = w.escrows)
    (hConfig' : w'.config = some config')
    (hShares : config'.totalShares = config.totalShares)
    (hYield :
      config'.totalYieldClaims = config.totalYieldClaims)
    (hPending :
      config'.totalPendingUnstake =
        config.totalPendingUnstake) :
    VowMove .drift w w' := by
  have hBefore := World.ledger_of_config hConfig
  have hAfter := World.ledger_of_config hConfig'
  apply drift_move hVows hEscrows
  · rw [hBefore, hAfter, hShares]
  · rw [hBefore, hAfter, hYield]
  · rw [hBefore, hAfter, hPending]

/- Lamports that arrive or leave outside the program. -/
theorem lamports_move
    {w w' : World}
    (hVows : w'.vows = w.vows)
    (hEscrows : w'.escrows = w.escrows)
    (hConfig : w'.config = w.config) :
    VowMove .drift w w' := by
  apply drift_move hVows hEscrows
  · unfold World.ledger
    rw [hConfig]
  · unfold World.ledger
    rw [hConfig]
  · unfold World.ledger
    rw [hConfig]

end Vow

------------------------------------------------------------
-- Refinement
------------------------------------------------------------

namespace Vow

open MachineInt Fallible ShareLedger

/- The ledger move that an instruction makes. -/
def Instruction.kind : Instruction → Kind
| .mintVow _ _ _ => .issue
| .addStake _ _ _ => .issue
| .activateStake _ _ _ _ => .issue
| .harvest _ => .credit
| .depositYieldBalance _ _ _ => .deposit
| .withdrawYield _ _ _ => .spend
| .yieldSpend _ => .spend
| .beginUnstake _ _ => .exit
| .completeUnstake _ _ => .payout
| .initializeConfig _ _ _ _ => .drift
| .setAdmin _ _ => .drift
| .closeProtocolConfig _ => .drift
| .setMintCounter _ _ => .drift
| .devSetSharePrice _ _ => .drift
| .updateSharePrice _ => .drift
| .flushReserveToPool _ => .drift
| .withdrawFromPool _ _ => .drift
| _ => .idle

/- Every instruction but the migration helper is a move. -/
theorem execute_move
    {env : Env}
    {w w' : World}
    {ix : Instruction}
    (hOk : execute env w ix = .ok w')
    (hOpen : ∀ admin, ix ≠ .closeProtocolConfig admin) :
    VowMove ix.kind w w' := by
  cases ix with
  | initializeConfig =>
      rcases initializeConfig_ok hOk with ⟨call, hEq⟩
      subst hEq
      refine drift_move ?_ ?_ ?_ ?_ ?_
      · rfl
      · rfl
      · simp [World.ledger, call.hNone, openedConfig]
      · simp [World.ledger, call.hNone, openedConfig]
      · simp [World.ledger, call.hNone, openedConfig]
  | setAdmin =>
      rcases setAdmin_ok hOk with ⟨call, hEq⟩
      subst hEq
      exact configure_move call.hConfig rfl rfl rfl rfl rfl rfl
  | closeProtocolConfig admin =>
      exact absurd rfl (hOpen admin)
  | setMintCounter =>
      rcases setMintCounter_ok hOk with ⟨call, hEq⟩
      subst hEq
      exact configure_move call.hConfig rfl rfl rfl rfl rfl rfl
  | devSetSharePrice =>
      rcases devSetSharePrice_ok hOk with ⟨call, hEq⟩
      subst hEq
      exact configure_move call.hConfig rfl rfl rfl rfl rfl rfl
  | devFastUnlock =>
      rcases devFastUnlock_ok hOk with ⟨call, hEq⟩
      subst hEq
      exact Move.of_eq Move.idle
        (World.ledger_of_same call.hLookup rfl rfl rfl rfl
          rfl rfl)
  | registerApp => exact (registerApp_untouched hOk).move
  | verifyApp => exact (adminAppAction_untouched hOk).move
  | blockApp => exact (adminAppAction_untouched hOk).move
  | updateSharePrice =>
      rcases updateSharePrice_ok hOk with ⟨call, hEq⟩
      subst hEq
      exact configure_move call.hConfig rfl rfl rfl rfl rfl rfl
  | flushReserveToPool =>
      rcases flushReserveToPool_ok hOk with hEq | ⟨call, hEq⟩
      · subst hEq
        exact lamports_move rfl rfl rfl
      · subst hEq
        exact lamports_move rfl rfl rfl
  | withdrawFromPool =>
      rcases withdrawFromPool_ok hOk with
        ⟨_, hEq⟩ | ⟨call, hEq⟩
      · subst hEq
        exact lamports_move rfl rfl rfl
      · subst hEq
        exact lamports_move rfl rfl rfl
  | addStake => exact addStake_move hOk
  | mintVow => exact mintVow_move hOk
  | updateYieldMode => exact updateYieldMode_move hOk
  | beginUnstake => exact beginUnstake_move hOk
  | completeUnstake => exact completeUnstake_move hOk
  | activateStake => exact activateStake_move hOk
  | harvest => exact harvest_move hOk
  | createSession =>
      rcases createSession_ok hOk with ⟨call, hEq⟩
      subst hEq
      exact Move.of_eq Move.idle
        (World.ledger_of_same call.hLookup rfl rfl rfl rfl
          rfl call.reserve_eq)
  | revokeSession =>
      rcases revokeSession_ok hOk with ⟨call, hEq⟩
      subst hEq
      exact Move.idle
  | closeSession =>
      rcases closeSession_ok hOk with ⟨call, hEq⟩
      subst hEq
      refine Move.of_eq Move.idle ?_
      unfold World.ledger World.reserve
      dsimp only
      rw [call.reserve_eq]
      rfl
  | depositYieldBalance =>
      exact depositYieldBalance_move hOk
  | yieldSpend => exact yieldSpend_move hOk
  | withdrawYield => exact withdrawYield_move hOk
  | createAuthorityProfile =>
      exact (createAuthorityProfile_untouched hOk).move
  | updateAuthorityProfile =>
      exact (updateAuthorityProfile_untouched hOk).move
  | closeAuthorityProfile =>
      exact (closeAuthorityProfile_untouched hOk).move
  | recordCommitment =>
      exact (recordCommitment_untouched hOk).move
  | recordFulfillment =>
      exact (recordFulfillment_untouched hOk).move

/- The ledger move of a step of a run. -/
def Step.kind
    (step : Step) :
    Kind :=
  match step.action with
  | .instruction ix => ix.kind
  | _ => .drift

/- Every step of a run is a move. -/
theorem exec_move
    {w w' : World}
    {step : Step}
    (hExec : step.exec w = some w')
    (hOpen : step.closesConfig = false) :
    VowMove step.kind w w' := by
  rcases step with ⟨env, action⟩
  cases action with
  | instruction ix =>
      apply execute_move
        (Step.exec_instruction_iff.mp hExec)
      intro admin hEq
      subst hEq
      exact absurd hOpen (by simp [Step.closesConfig])
  | _ =>
      rw [← Option.some.inj hExec]
      exact lamports_move rfl rfl rfl

end Vow
