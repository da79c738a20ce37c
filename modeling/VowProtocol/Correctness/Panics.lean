import VowProtocol.Correctness.Scores
import VowProtocol.Correctness.SessionNonces
import VowProtocol.Correctness.Whitelist

/-
  Panics.

  Overflow checks are on in the deployed build, an array
  index past the end aborts, and so does a slice. In every
  reachable state almost all of these sites are dead: the
  class always has a lock, the shares and the yield always
  cover what is taken from them, the program list never runs
  past its array. What is left is a clock near its end and
  counters near theirs.

  Key definitions include:
    * `ScoreOverflows`
    * `PanicCause`

  Key theorems include:
    * `harvest_not_panicked`
    * `yieldSpend_panics`
    * `panic_has_cause`
-/

------------------------------------------------------------
-- Computations That Never Panic
------------------------------------------------------------

namespace Vow

open MachineInt Fallible

theorem loadConfig_not_panicked
    {w : World} :
    ¬ loadConfig w = .error .panicked := by
  simp [loadConfig, okOr_eq_error_iff]

theorem loadConfigAsAdmin_not_panicked
    {w : World}
    {admin : Signer} :
    ¬ loadConfigAsAdmin w admin = .error .panicked := by
  unfold loadConfigAsAdmin
  simp only [bind_eq_error_iff,
    require_eq_error_iff, pure_ne_error, reduceCtorEq,
    and_false, exists_false, or_self, not_false_eq_true,
    loadConfig_not_panicked]

theorem loadVow_not_panicked
    {w : World}
    {address : Pubkey} :
    ¬ loadVow w address = .error .panicked :=
  loadVow_avoids (by simp) (by simp)

theorem loadVowAsOwner_not_panicked
    {w : World}
    {address : Pubkey}
    {owner : Signer} :
    ¬ loadVowAsOwner w address owner = .error .panicked :=
  loadVowAsOwner_avoids (by simp) (by simp) (by simp)

theorem loadSession_not_panicked
    {w : World}
    {address vowState : Pubkey} :
    ¬ loadSession w address vowState = .error .panicked := by
  unfold loadSession
  simp only [bind_eq_error_iff, okOr_eq_error_iff,
    require_eq_error_iff, pure_ne_error, reduceCtorEq,
    and_false, exists_false, or_self, not_false_eq_true]

theorem loadProfile_not_panicked
    {w : World}
    {address : Option Pubkey} :
    ¬ loadProfile w address = .error .panicked := by
  unfold loadProfile
  cases address with
  | none => simp
  | some address =>
      simp only [bind_eq_error_iff, okOr_eq_error_iff,
        pure_ne_error, reduceCtorEq,
        and_false, exists_false, or_self, not_false_eq_true]

theorem loadProfileAsWallet_not_panicked
    {w : World}
    {address : Pubkey}
    {wallet : Signer} :
    ¬ loadProfileAsWallet w address wallet =
      .error .panicked := by
  unfold loadProfileAsWallet
  simp only [bind_eq_error_iff, okOr_eq_error_iff,
    require_eq_error_iff, pure_ne_error, reduceCtorEq,
    and_false, exists_false, or_self, not_false_eq_true]

theorem transfer_not_panicked
    {source destination : Pubkey}
    {amount : Nat}
    {l : Lamports} :
    ¬ transfer source destination amount l =
      .error .panicked :=
  transfer_avoids (by simp)

theorem initAccount_not_panicked
    {env : Env}
    {payer address : Pubkey}
    {space : Nat}
    {l : Lamports} :
    ¬ initAccount env payer address space l =
      .error .panicked :=
  transfer_avoids (by simp)

theorem classForStake_not_panicked
    {lamports : U64} :
    ¬ classForStake lamports = .error .panicked := by
  unfold classForStake
  dsimp only
  repeat' split
  all_goals simp

theorem sharesForDeposit_not_panicked
    {lamports : U64}
    {price : U128} :
    ¬ sharesForDeposit lamports price = .error .panicked :=
  sharesForDeposit_avoids (by simp)

theorem positionValue_not_panicked
    {shares price : U128} :
    ¬ positionValue shares price = .error .panicked :=
  positionValue_avoids (by simp)

theorem settleIdnft_not_panicked
    {idnft : VowState}
    {config : ProtocolConfig} :
    ¬ settleIdnft idnft config = .error .panicked :=
  settleIdnft_avoids (by simp)

/- The shares cover what a credit burns. -/
theorem creditGain_not_panicked
    {idnft : VowState}
    {config : ProtocolConfig}
    {amount harvested : U64}
    {carry : I64} :
    ¬ creditGain idnft config amount harvested carry =
      .error .panicked := by
  unfold creditGain sharesToBurn
  simp only [bind_eq_error_iff, okOr_eq_error_iff,
    require_eq_error_iff, require_eq_ok_iff, pure_ne_error,
    reduceCtorEq, and_false, false_or, exists_false,
    or_false, exists_const, not_exists, not_and]
  rintro burned _ hEnough hShort
  rw [Unsigned.le_def] at hEnough
  rw [Unsigned.checkedSub_eq_none_iff] at hShort
  omega

theorem harvestGain_not_panicked
    {idnft : VowState}
    {config : ProtocolConfig} :
    ¬ harvestGain idnft config = .error .panicked := by
  by_cases hGain :
      idnft.yieldMode ≠ .compound →
        idnft.accruedGain.val ≤ 0
  · rcases harvestGain_nothing hGain config with
      ⟨_, hNothing⟩
    rw [hNothing]
    simp
  · rw [Classical.not_imp, not_le] at hGain
    rw [harvestGain_credits hGain.1 hGain.2]
    exact creditGain_not_panicked

theorem poolSharePrice_not_panicked
    {totalLamports supply : U64} :
    ¬ poolSharePrice totalLamports supply =
      .error .panicked := by
  unfold poolSharePrice
  simp only [bind_eq_error_iff, okOr_eq_error_iff,
    pure_ne_error, reduceCtorEq,
    and_false, exists_false, or_self, not_false_eq_true]

theorem tokensToBurn_not_panicked
    {needed totalLamports supply held : U64} :
    ¬ tokensToBurn needed totalLamports supply held =
      .error .panicked := by
  unfold tokensToBurn
  simp only [bind_eq_error_iff, okOr_eq_error_iff,
    pure_ne_error, reduceCtorEq,
    and_false, exists_false, or_self, not_false_eq_true]

theorem checkPoolAccounts_not_panicked
    {config : ProtocolConfig}
    {accounts : PoolAccounts} :
    ¬ checkPoolAccounts config accounts =
      .error .panicked := by
  unfold checkPoolAccounts
  simp only [bind_eq_error_iff,
    require_eq_error_iff, reduceCtorEq,
    and_false, exists_false, or_self, not_false_eq_true]

theorem checkPoolData_not_panicked
    {accounts : PoolAccounts}
    {minLength : Nat} :
    ¬ checkPoolData accounts minLength =
      .error .panicked := by
  unfold checkPoolData
  simp only [bind_eq_error_iff,
    require_eq_error_iff, reduceCtorEq,
    and_false, exists_false, or_self, not_false_eq_true]

theorem checkSessionLive_not_panicked
    {env : Env}
    {idnft : VowState}
    {session : SessionAccount}
    {signer : Signer} :
    ¬ checkSessionLive env idnft session signer =
      .error .panicked := by
  unfold checkSessionLive
  simp only [bind_eq_error_iff,
    require_eq_error_iff, reduceCtorEq,
    and_false, exists_false, or_self, not_false_eq_true]

theorem checkLimits_not_panicked
    {session : SessionAccount}
    {amount : U64} :
    ¬ checkLimits session amount = .error .panicked := by
  unfold checkLimits
  simp only [bind_eq_error_iff,
    require_eq_error_iff, reduceCtorEq,
    and_false, exists_false, or_self, not_false_eq_true]

theorem checkAppRegistry_not_panicked
    {w : World}
    {ix : YieldSpend} :
    ¬ checkAppRegistry w ix = .error .panicked := by
  unfold checkAppRegistry
  cases ix.appRegistry with
  | none => simp
  | some address =>
      simp only [bind_eq_error_iff, okOr_eq_error_iff,
        require_eq_error_iff, reduceCtorEq,
        and_false, exists_false, or_self, not_false_eq_true]

end Vow

------------------------------------------------------------
-- Causes
------------------------------------------------------------

namespace Vow

open MachineInt Fallible

/-
  The score of the record does not fit its 32 bits, or the
  ratio is computed from a product that does not fit 64.
-/
def ScoreOverflows
    (record : CommitmentRecord) :
    Prop :=
  2 ^ 64 ≤ record.totalXntFulfilled.val * 100 ∨
    2 ^ 32 ≤ record.points + record.fulfilledRatio % 2 ^ 32

/- The instructions that start a lock. -/
def Instruction.startsLock : Instruction → Bool
| .mintVow _ _ _ => true
| .addStake _ _ _ => true
| .activateStake _ _ _ _ => true
| _ => false

/-
  The situations in which an instruction can still panic. The
  longest lock is 1825 days. A session without a limit, or
  with the largest one, may run out of its counter.
-/
inductive PanicCause
    (env : Env)
    (w : World) :
    Instruction → Prop where
  | clock
      (ix : Instruction)
      (hLock : ix.startsLock = true)
      (hLate :
        2 ^ 63 ≤ env.unixTimestamp.val + 1825 * 86400) :
      PanicCause env w ix
  | mintCounter
      (owner : Signer)
      (stakeLamports : U64)
      (yieldMode : YieldMode)
      (config : ProtocolConfig)
      (hConfig : w.config = some config)
      (hFull : config.totalMinted.val = 2 ^ 64 - 1) :
      PanicCause env w
        (.mintVow owner stakeLamports yieldMode)
  | profileExpiry
      (ix : CreateSession)
      (address : Pubkey)
      (profile : AuthorityProfile)
      (hAddress : ix.authorityProfile = some address)
      (hFound : w.profiles.lookup address = some profile)
      (hDefault : ix.params.expiryTs = 0)
      (hLate :
        2 ^ 63 ≤ env.unixTimestamp.val +
          (profile.defaultExpiryDays.val : Int) * 86400) :
      PanicCause env w (.createSession ix)
  | spendTotal
      (ix : YieldSpend)
      (session : SessionAccount)
      (hFound :
        w.sessions.lookup ix.sessionAccount = some session)
      (hLimit :
        session.lifetimeLimit.val = 0 ∨
          session.lifetimeLimit.val = 2 ^ 64 - 1)
      (hFull :
        2 ^ 64 ≤ session.spentTotal.val + ix.amount.val) :
      PanicCause env w (.yieldSpend ix)
  | spendCount
      (ix : YieldSpend)
      (session : SessionAccount)
      (hFound :
        w.sessions.lookup ix.sessionAccount = some session)
      (hLimit : session.velocityLimit.val = 0)
      (hFull : session.txCountToday.val = 2 ^ 32 - 1) :
      PanicCause env w (.yieldSpend ix)
  | commitmentScore
      (payer : Signer)
      (vowState : Pubkey)
      (vow : VowState)
      (lockDays : U64)
      (hFound : w.vows.lookup vowState = some vow)
      (hScore :
        ScoreOverflows
          ((w.recordOf vow.owner).committed vow lockDays)) :
      PanicCause env w (.recordCommitment payer vowState)
  | fulfillmentScore
      (payer : Signer)
      (vowState : Pubkey)
      (vow : VowState)
      (hFound : w.vows.lookup vowState = some vow)
      (hScore :
        ScoreOverflows
          ((w.recordOf vow.owner).fulfilled vow)) :
      PanicCause env w (.recordFulfillment payer vowState)

end Vow

------------------------------------------------------------
-- Panicking Computations
------------------------------------------------------------

namespace Vow

open MachineInt Fallible

/- Only a class beyond the table has no lock. -/
theorem lockDuration_panics
    {stakeClass : U8}
    (hPanic : lockDuration stakeClass = .error .panicked) :
    7 < stakeClass.val := by
  by_contra hClass
  rcases lockDuration_of_class (Nat.le_of_not_lt hClass) with
    ⟨lock, hLock⟩
  rw [hLock] at hPanic
  exact absurd hPanic (by simp)

theorem lockDuration_le
    {stakeClass : U8}
    {lock : I64}
    (hLock : lockDuration stakeClass = .ok lock) :
    0 ≤ lock.val ∧ lock.val ≤ 1825 * 86400 := by
  unfold lockDuration at hLock
  rw [okOr_eq_ok_iff] at hLock
  have hAll :
      ∀ lock ∈ LOCK_SECONDS,
        0 ≤ lock.val ∧ lock.val ≤ 1825 * 86400 := by
    decide
  exact hAll lock (List.mem_of_getElem? hLock)

/- A lock that ends past the clock's range. -/
theorem unlock_panics
    {now lock : I64}
    {stakeClass : U8}
    (hLock : lockDuration stakeClass = .ok lock)
    (hNone : now.checkedAdd lock = none) :
    2 ^ 63 ≤ now.val + 1825 * 86400 := by
  rcases lockDuration_le hLock with ⟨hPos, hLe⟩
  have hLower := now.lower
  rw [Signed.checkedAdd_eq_none_iff] at hNone
  omega

theorem upgradeClass_panics
    {now : I64}
    {newClass : U8}
    {idnft : VowState}
    (hClass : newClass.val ≤ 7)
    (hPanic :
      upgradeClass now newClass idnft = .error .panicked) :
    2 ^ 63 ≤ now.val + 1825 * 86400 := by
  unfold upgradeClass at hPanic
  split at hPanic
  · simp only [bind_eq_error_iff, okOr_eq_error_iff,
      pure_ne_error, and_true, and_false, exists_false,
      or_false] at hPanic
    rcases hPanic with hNone | ⟨lock, hLock, hNone⟩
    · have hBeyond := lockDuration_panics hNone
      omega
    · exact unlock_panics hLock hNone
  · exact absurd hPanic (by simp)

theorem sessionLimits_panics
    {env : Env}
    {owner : Signer}
    {profile : Option AuthorityProfile}
    {params : SessionParams}
    (hPanic :
      sessionLimits env owner profile params =
        .error .panicked) :
    ∃ found,
      profile = some found ∧
      params.expiryTs = 0 ∧
      2 ^ 63 ≤ env.unixTimestamp.val +
        (found.defaultExpiryDays.val : Int) * 86400 := by
  unfold sessionLimits at hPanic
  cases profile with
  | none => exact absurd hPanic (by simp)
  | some found =>
      simp only [bind_eq_error_iff, require_eq_error_iff,
        reduceCtorEq, and_false, false_or] at hPanic
      rcases hPanic with ⟨_, _, hPanic⟩
      split at hPanic
      · rename_i hZero
        simp only [bind_eq_error_iff, okOr_eq_error_iff,
          pure_ne_error, and_true, and_false, exists_false,
          or_false] at hPanic
        have hDays := found.defaultExpiryDays.isLt
        have hVal :
            (Signed.clamp 63
              ((found.defaultExpiryDays.val : Int) *
                86400)).val =
              (found.defaultExpiryDays.val : Int) * 86400 := by
          rw [Signed.val_clamp]
          omega
        refine ⟨found, rfl, hZero, ?_⟩
        have hLower := env.unixTimestamp.lower
        rw [Signed.checkedAdd_eq_none_iff, hVal] at hPanic
        omega
      · exact absurd hPanic pure_ne_error

theorem computeScore_panics
    {record : CommitmentRecord}
    (hPanic : computeScore record = .error .panicked) :
    ScoreOverflows record := by
  by_contra hNot
  unfold ScoreOverflows at hNot
  rw [not_or, not_le, not_le] at hNot
  have hOk :
      computeScore record =
        .ok ⟨record.points +
          record.fulfilledRatio % 2 ^ 32, hNot.2⟩ :=
    computeScore_eq_ok_iff.mpr ⟨fun _ => hNot.1, rfl⟩
  rw [hOk] at hPanic
  exact absurd hPanic (by simp)

end Vow

------------------------------------------------------------
-- Spends
------------------------------------------------------------

namespace Vow

open MachineInt Fallible

/- What keeps the spend checks away from a panic. -/
structure SessionSane
    (session : SessionAccount) :
    Prop where
  programs : session.programCount.val ≤ 8
  today : session.spentToday.val ≤ session.spentTotal.val

theorem resetDailyIfNeeded_sane
    {session : SessionAccount}
    (hSane : SessionSane session)
    (now : I64) :
    SessionSane (resetDailyIfNeeded now session) := by
  unfold resetDailyIfNeeded
  dsimp only
  split
  · exact ⟨hSane.programs, Nat.zero_le _⟩
  · exact hSane

theorem recordSpend_sane
    {session spent : SessionAccount}
    {amount : U64}
    (hSane : SessionSane session)
    (hSpent : recordSpend session amount = .ok spent) :
    SessionSane spent := by
  rcases recordSpend_ok hSpent with
    ⟨today, total, count, hToday, hTotal, _, hEq⟩
  have hLe := hSane.today
  subst hEq
  refine ⟨hSane.programs, ?_⟩
  dsimp only
  omega

theorem session_sane_reachable
    {w : World}
    (hReach : Reachable w)
    {slot : Pubkey}
    {session : SessionAccount}
    (hFound : w.sessions.lookup slot = some session) :
    SessionSane session := by
  refine hReach.session_invariant ?_ ?_ ?_ hFound
  · intro env ix vow limits hPrograms
    have hAdmits :
        Admits ix.allowedProgramIds
          (openedSession env ix vow limits) :=
      openedSession_admits hPrograms
    exact ⟨hAdmits.inBounds, le_refl _⟩
  · intro session hSane
    exact ⟨hSane.programs, hSane.today⟩
  · intro session now amount spent hSane hSpent
    exact recordSpend_sane
      (resetDailyIfNeeded_sane hSane now) hSpent

/- A new day only lowers the daily counters. -/
theorem resetDailyIfNeeded_counters
    (now : I64)
    (session : SessionAccount) :
    (resetDailyIfNeeded now session).spentTotal =
        session.spentTotal ∧
      (resetDailyIfNeeded now session).lifetimeLimit =
        session.lifetimeLimit ∧
      (resetDailyIfNeeded now session).velocityLimit =
        session.velocityLimit ∧
      (resetDailyIfNeeded now session).txCountToday.val ≤
        session.txCountToday.val := by
  unfold resetDailyIfNeeded
  dsimp only
  split
  · exact ⟨rfl, rfl, rfl, Nat.zero_le _⟩
  · exact ⟨rfl, rfl, rfl, le_refl _⟩

/-
  A spend within its limits panics only when the session has
  no effective lifetime limit, or no velocity limit.
-/
theorem recordSpend_panics
    {session : SessionAccount}
    {amount : U64}
    (hSane : SessionSane session)
    (hLimits : checkLimits session amount = .ok ())
    (hPanic :
      recordSpend session amount = .error .panicked) :
    ((session.lifetimeLimit.val = 0 ∨
        session.lifetimeLimit.val = 2 ^ 64 - 1) ∧
      2 ^ 64 ≤ session.spentTotal.val + amount.val) ∨
    (session.velocityLimit.val = 0 ∧
      session.txCountToday.val = 2 ^ 32 - 1) := by
  rcases checkLimits_ok_iff.mp hLimits with
    ⟨hVelocity, _, hLifetime⟩
  have hToday := hSane.today
  have hCount := session.txCountToday.isLt
  have hLimit := session.lifetimeLimit.isLt
  have hRate := session.velocityLimit.isLt
  rw [Unsigned.lt_def, Unsigned.val_zero] at hVelocity hLifetime
  rw [Unsigned.lt_def] at hVelocity
  rw [Unsigned.le_def, Unsigned.val_saturatingAdd] at hLifetime
  unfold recordSpend at hPanic
  simp only [bind_eq_error_iff, okOr_eq_error_iff,
    pure_ne_error, and_true, and_false, exists_false,
    or_false, Unsigned.checkedAdd_eq_none_iff,
    Unsigned.val_one (show 0 < 32 by decide)] at hPanic
  unfold Unsigned.maxVal at hLifetime
  rcases hPanic with hDay | ⟨_, _, hTotal | ⟨_, _, hTx⟩⟩
  · left
    omega
  · left
    omega
  · right
    omega

theorem yieldSpend_panics
    {env : Env}
    {w : World}
    {ix : YieldSpend}
    (hReach : Reachable w)
    (hPanic : yieldSpend env w ix = .error .panicked) :
    PanicCause env w (.yieldSpend ix) := by
  unfold yieldSpend at hPanic
  simp only [bind_eq_error_iff, okOr_eq_error_iff,
    require_eq_error_iff, require_eq_ok_iff, pure_ne_error,
    reduceCtorEq, and_true, and_false, exists_false,
    or_false, false_or, exists_const,
    loadConfig_not_panicked, loadVow_not_panicked,
    loadSession_not_panicked, checkSessionLive_not_panicked,
    checkAppRegistry_not_panicked, checkLimits_not_panicked,
    transfer_not_panicked,
    Unsigned.checkedSub_eq_none_iff] at hPanic
  rcases hPanic with
    ⟨_, _, vow, _, session, hSession, _, _, hPanic⟩
  have hFound := (loadSession_eq_ok_iff.mp hSession).1
  have hSane := session_sane_reachable hReach hFound
  rcases hPanic with hProgram |
    ⟨_, _, _, _, _, hLimits, hFunds, _, hPanic⟩
  · unfold checkCallingProgram at hProgram
    simp only [bind_eq_error_iff, require_eq_error_iff,
      reduceCtorEq, and_false, and_true, false_or, or_false,
      exists_false] at hProgram
    rcases hProgram with ⟨_, _, hBeyond⟩
    exact absurd (fun _ => hSane.programs) hBeyond
  · rcases hPanic with hShort | ⟨_, _, hSpend⟩
    · rw [Unsigned.le_def] at hFunds
      omega
    · rcases resetDailyIfNeeded_counters env.unixTimestamp
          session with ⟨hTotal, hLifetime, hRate, hCount⟩
      rcases recordSpend_panics
          (resetDailyIfNeeded_sane hSane _) hLimits hSpend
        with ⟨hLimit, hFull⟩ | ⟨hLimit, hFull⟩
      · rw [hLifetime] at hLimit
        rw [hTotal] at hFull
        exact .spendTotal ix session hFound hLimit hFull
      · rw [hRate] at hLimit
        have hLess := session.txCountToday.isLt
        exact .spendCount ix session hFound hLimit (by omega)

end Vow

------------------------------------------------------------
-- Stakes, Sessions And Records
------------------------------------------------------------

namespace Vow

open MachineInt Fallible

theorem mintVow_panics
    {env : Env}
    {w : World}
    {owner : Signer}
    {stakeLamports : U64}
    {yieldMode : YieldMode}
    (hPanic :
      mintVow env w owner stakeLamports yieldMode =
        .error .panicked) :
    PanicCause env w
      (.mintVow owner stakeLamports yieldMode) := by
  unfold mintVow at hPanic
  simp only [bind_eq_error_iff, okOr_eq_error_iff,
    require_eq_error_iff, pure_ne_error, reduceCtorEq,
    and_true, and_false, exists_false, or_false, false_or,
    loadConfig_not_panicked, initAccount_not_panicked,
    classForStake_not_panicked, transfer_not_panicked,
    sharesForDeposit_not_panicked,
    Unsigned.checkedAdd_eq_none_iff,
    Unsigned.val_one (show 0 < 64 by decide)] at hPanic
  rcases hPanic with
    ⟨config, hConfig, _, _, _, _, stakeClass, hClass, _, _, _,
      _, _, _, hLock | ⟨lock, hLock, hUnlock |
        ⟨_, _, _, _, hFull⟩⟩⟩
  · have hBeyond := lockDuration_panics hLock
    have hRange := classForStake_le hClass
    omega
  · exact .clock _ rfl (unlock_panics hLock hUnlock)
  · have hLess := config.totalMinted.isLt
    exact .mintCounter owner stakeLamports yieldMode config
      (loadConfig_eq_ok_iff.mp hConfig) (by omega)

theorem addStake_panics
    {env : Env}
    {w : World}
    {owner : Signer}
    {vowState : Pubkey}
    {lamportsToAdd : U64}
    (hPanic :
      addStake env w owner vowState lamportsToAdd =
        .error .panicked) :
    PanicCause env w
      (.addStake owner vowState lamportsToAdd) := by
  unfold addStake at hPanic
  simp only [bind_eq_error_iff, okOr_eq_error_iff,
    require_eq_error_iff, pure_ne_error, reduceCtorEq,
    and_false, exists_false, or_false, false_or,
    loadConfig_not_panicked, loadVowAsOwner_not_panicked,
    settleIdnft_not_panicked, classForStake_not_panicked,
    transfer_not_panicked,
    sharesForDeposit_not_panicked] at hPanic
  rcases hPanic with
    ⟨_, _, _, _, _, _, _, _, _, _, _, _, _, _, _, _, newClass,
      hClass, _, _, hUpgrade⟩
  exact .clock _ rfl
    (upgradeClass_panics (classForStake_le hClass) hUpgrade)

theorem activateStake_panics
    {env : Env}
    {w : World}
    {owner : Signer}
    {vowState : Pubkey}
    {stakeLamports : U64}
    {yieldMode : YieldMode}
    (hPanic :
      activateStake env w owner vowState stakeLamports
        yieldMode = .error .panicked) :
    PanicCause env w
      (.activateStake owner vowState stakeLamports
        yieldMode) := by
  unfold activateStake at hPanic
  simp only [bind_eq_error_iff, okOr_eq_error_iff,
    require_eq_error_iff, pure_ne_error, reduceCtorEq,
    and_true, and_false, exists_false, or_false, false_or,
    loadConfig_not_panicked, loadVowAsOwner_not_panicked,
    settleIdnft_not_panicked, classForStake_not_panicked,
    transfer_not_panicked,
    sharesForDeposit_not_panicked] at hPanic
  rcases hPanic with
    ⟨_, _, _, _, _, _, _, _, newClass, hClass, _, _, _, _,
      hLock | ⟨lock, hLock, hUnlock⟩⟩
  · have hBeyond := lockDuration_panics hLock
    have hRange := classForStake_le hClass
    omega
  · exact .clock _ rfl (unlock_panics hLock hUnlock)

theorem createSession_panics
    {env : Env}
    {w : World}
    {ix : CreateSession}
    (hPanic : createSession env w ix = .error .panicked) :
    PanicCause env w (.createSession ix) := by
  unfold createSession at hPanic
  simp only [bind_eq_error_iff, okOr_eq_error_iff,
    require_eq_error_iff, pure_ne_error, reduceCtorEq,
    and_false, exists_false, or_false, false_or,
    loadConfig_not_panicked, loadVowAsOwner_not_panicked,
    initAccount_not_panicked,
    loadProfile_not_panicked] at hPanic
  rcases hPanic with
    ⟨_, _, _, _, _, _, _, _, profile, hProfile, _, _, _, _, _,
      _, hLimits⟩
  rcases sessionLimits_panics hLimits with
    ⟨found, hSome, hDefault, hLate⟩
  subst hSome
  unfold loadProfile at hProfile
  split at hProfile
  · exact absurd hProfile (by simp)
  · rename_i address hAddress
    simp only [bind_eq_ok_iff, okOr_eq_ok_iff,
      pure_eq_ok_iff, Option.some.injEq] at hProfile
    rcases hProfile with ⟨record, hFound, hSame⟩
    subst hSame
    exact .profileExpiry ix address record hAddress hFound
      hDefault hLate

theorem recordCommitment_panics
    {env : Env}
    {w : World}
    {payer : Signer}
    {vowState : Pubkey}
    (hReach : Reachable w)
    (hPanic :
      recordCommitment env w payer vowState =
        .error .panicked) :
    PanicCause env w (.recordCommitment payer vowState) := by
  have hOpen :
      ∀ address,
        ¬ loadOrInitRecord env w payer address =
          .error .panicked :=
    fun _ => loadOrInitRecord_avoids_panic
  unfold recordCommitment at hPanic
  simp only [bind_eq_error_iff, require_eq_error_iff,
    pure_ne_error, reduceCtorEq, and_false, exists_false,
    or_false, false_or, loadVow_not_panicked,
    initAccount_not_panicked, hOpen] at hPanic
  rcases hPanic with
    ⟨vow, hVow, loaded, hLoaded, _, _, _, _,
      hLock | ⟨lock, hLock, hScore⟩⟩
  · have hRange := graded_lookup hReach
      (loadVow_eq_ok_iff.mp hVow).1
    have hBeyond := lockDuration_panics hLock
    omega
  · refine .commitmentScore payer vowState vow
      ((lock.quot 86400).toUnsigned 64)
      (loadVow_eq_ok_iff.mp hVow).1 ?_
    rw [loadOrInitRecord_ok hLoaded] at hScore
    exact computeScore_panics hScore

theorem recordFulfillment_panics
    {env : Env}
    {w : World}
    {payer : Signer}
    {vowState : Pubkey}
    (hPanic :
      recordFulfillment env w payer vowState =
        .error .panicked) :
    PanicCause env w
      (.recordFulfillment payer vowState) := by
  unfold recordFulfillment at hPanic
  simp only [bind_eq_error_iff, okOr_eq_error_iff,
    okOr_eq_ok_iff, require_eq_error_iff, pure_ne_error,
    reduceCtorEq, and_false, exists_false, or_false,
    false_or, loadVow_not_panicked,
    initAccount_not_panicked] at hPanic
  rcases hPanic with
    ⟨vow, hVow, record, hRecord, _, _, _, _, _, _, hScore⟩
  have hSame : w.recordOf vow.owner = record := by
    unfold World.recordOf
    rw [hRecord]
    rfl
  refine .fulfillmentScore payer vowState vow
    (loadVow_eq_ok_iff.mp hVow).1 ?_
  rw [hSame]
  exact computeScore_panics hScore

end Vow

------------------------------------------------------------
-- Every Instruction
------------------------------------------------------------

namespace Vow

open MachineInt Fallible

theorem openingSharePrice_not_panicked
    {splStakePool : Pubkey}
    {splPool : AccountInfo} :
    ¬ openingSharePrice splStakePool splPool =
      .error .panicked := by
  unfold openingSharePrice
  dsimp only
  split
  · simp only [bind_eq_error_iff, okOr_eq_error_iff,
      pure_ne_error, reduceCtorEq, and_false, exists_false,
      or_self, not_false_eq_true]
  · simp

theorem updateSharePrice_not_panicked
    {w : World}
    {splPool : AccountInfo} :
    ¬ updateSharePrice w splPool = .error .panicked := by
  unfold updateSharePrice
  simp only [bind_eq_error_iff, require_eq_error_iff,
    loadConfig_not_panicked, reduceCtorEq, and_false,
    false_or, not_exists, not_and]
  intro config _ _ _
  split
  · exact pure_ne_error
  · simp only [bind_eq_error_iff, require_eq_error_iff,
      reduceCtorEq, and_false, false_or, not_exists,
      not_and]
    intro _ _
    split
    · simp only [bind_eq_error_iff, pure_ne_error, and_false,
        poolSharePrice_not_panicked, exists_false, or_self,
        not_false_eq_true]
    · exact pure_ne_error

theorem flushReserveToPool_not_panicked
    {env : Env}
    {w : World}
    {accounts : PoolAccounts} :
    ¬ flushReserveToPool env w accounts =
      .error .panicked := by
  unfold flushReserveToPool
  simp only [bind_eq_error_iff, loadConfig_not_panicked,
    checkPoolAccounts_not_panicked, false_or, not_exists,
    not_and]
  intro config _ _ _
  split
  · exact pure_ne_error
  · simp only [bind_eq_error_iff, false_or, not_exists,
      checkPoolData_not_panicked, not_and]
    intro _ _
    split
    · exact pure_ne_error
    · simp only [bind_eq_error_iff, okOr_eq_error_iff,
        pure_ne_error, reduceCtorEq, and_false, exists_false,
        or_self, not_false_eq_true]

theorem withdrawFromPool_not_panicked
    {env : Env}
    {w : World}
    {unstakeEscrow : Pubkey}
    {accounts : PoolAccounts} :
    ¬ withdrawFromPool env w unstakeEscrow accounts =
      .error .panicked := by
  unfold withdrawFromPool
  simp only [bind_eq_error_iff, okOr_eq_error_iff,
    require_eq_error_iff, loadConfig_not_panicked,
    checkPoolAccounts_not_panicked, reduceCtorEq, and_false,
    false_or, not_exists, not_and]
  intro config _ escrow _ _ _ _ _
  split
  · exact pure_ne_error
  · simp only [bind_eq_error_iff, okOr_eq_error_iff,
      require_eq_error_iff, checkPoolData_not_panicked,
      tokensToBurn_not_panicked, pure_ne_error, reduceCtorEq,
      and_false, exists_false, or_self, not_false_eq_true]

/- The balance covers what a withdrawal takes. -/
theorem withdrawYield_not_panicked
    {w : World}
    {owner : Signer}
    {vowState : Pubkey}
    {amount : Option U64} :
    ¬ withdrawYield w owner vowState amount =
      .error .panicked := by
  unfold withdrawYield
  simp only [bind_eq_error_iff, okOr_eq_error_iff,
    require_eq_error_iff, require_eq_ok_iff, pure_ne_error,
    loadConfig_not_panicked, loadVowAsOwner_not_panicked,
    transfer_not_panicked, reduceCtorEq, and_false, and_true,
    false_or, or_false, exists_false, exists_const,
    not_exists, not_and, Unsigned.checkedSub_eq_none_iff]
  intro config _ vow _ hCovered _ _
  rw [Unsigned.le_def] at hCovered
  omega

theorem harvest_not_panicked
    {env : Env}
    {w : World}
    {vowState : Pubkey} :
    ¬ harvest env w vowState = .error .panicked := by
  unfold harvest
  simp only [bind_eq_error_iff, loadConfig_not_panicked,
    loadVow_not_panicked, settleIdnft_not_panicked,
    harvestGain_not_panicked, pure_ne_error, and_false,
    exists_false, or_self, not_false_eq_true]

/- The other handlers have no site that could panic. -/
def Instruction.plain : Instruction → Bool
| .initializeConfig _ _ _ _ => true
| .setAdmin _ _ => true
| .closeProtocolConfig _ => true
| .setMintCounter _ _ => true
| .devSetSharePrice _ _ => true
| .devFastUnlock _ _ => true
| .registerApp _ _ => true
| .verifyApp _ _ => true
| .blockApp _ _ => true
| .updateYieldMode _ _ _ => true
| .beginUnstake _ _ => true
| .completeUnstake _ _ => true
| .revokeSession _ _ _ => true
| .closeSession _ _ _ => true
| .depositYieldBalance _ _ _ => true
| .createAuthorityProfile _ _ _ => true
| .updateAuthorityProfile _ _ _ => true
| .closeAuthorityProfile _ _ => true
| _ => false

theorem execute_plain_not_panicked
    {env : Env}
    {w : World}
    {ix : Instruction}
    (hPlain : ix.plain = true) :
    ¬ execute env w ix = .error .panicked := by
  cases ix with
  | initializeConfig | setAdmin | closeProtocolConfig
  | setMintCounter | devSetSharePrice | devFastUnlock
  | registerApp | verifyApp | blockApp | updateYieldMode
  | beginUnstake | completeUnstake | revokeSession
  | closeSession | depositYieldBalance
  | createAuthorityProfile | updateAuthorityProfile
  | closeAuthorityProfile =>
      simp only [execute, initializeConfig, setAdmin,
        closeProtocolConfig, setMintCounter,
        devSetSharePrice, devFastUnlock, registerApp,
        verifyApp, blockApp, adminAppAction,
        updateYieldMode, beginUnstake, completeUnstake,
        revokeSession, closeSession, depositYieldBalance,
        createAuthorityProfile, updateAuthorityProfile,
        closeAuthorityProfile, bind_eq_error_iff,
        okOr_eq_error_iff, require_eq_error_iff,
        pure_ne_error, reduceCtorEq, and_false, exists_false,
        or_self, not_false_eq_true,
        loadConfig_not_panicked,
        loadConfigAsAdmin_not_panicked,
        loadVow_not_panicked, loadVowAsOwner_not_panicked,
        loadSession_not_panicked,
        loadProfileAsWallet_not_panicked,
        initAccount_not_panicked, transfer_not_panicked,
        positionValue_not_panicked,
        settleIdnft_not_panicked,
        openingSharePrice_not_panicked]
  | _ => exact absurd hPlain (by simp [Instruction.plain])

/-
  In every reachable state an instruction panics only for one
  of the listed causes.
-/
theorem panic_has_cause
    (env : Env)
    (w : World)
    (ix : Instruction)
    (hReach : Reachable w)
    (hPanic : execute env w ix = .error .panicked) :
    PanicCause env w ix := by
  cases ix with
  | updateSharePrice splPool =>
      exact absurd hPanic updateSharePrice_not_panicked
  | flushReserveToPool accounts =>
      exact absurd hPanic flushReserveToPool_not_panicked
  | withdrawFromPool unstakeEscrow accounts =>
      exact absurd hPanic withdrawFromPool_not_panicked
  | addStake owner vowState lamportsToAdd =>
      exact addStake_panics hPanic
  | mintVow owner stakeLamports yieldMode =>
      exact mintVow_panics hPanic
  | activateStake owner vowState stakeLamports yieldMode =>
      exact activateStake_panics hPanic
  | harvest vowState =>
      exact absurd hPanic harvest_not_panicked
  | createSession ix => exact createSession_panics hPanic
  | yieldSpend ix => exact yieldSpend_panics hReach hPanic
  | withdrawYield owner vowState amount =>
      exact absurd hPanic withdrawYield_not_panicked
  | recordCommitment payer vowState =>
      exact recordCommitment_panics hReach hPanic
  | recordFulfillment payer vowState =>
      exact recordFulfillment_panics hPanic
  | _ =>
      exact absurd hPanic (execute_plain_not_panicked rfl)

/- A mint in the last second of the clock does panic. -/
theorem panic_has_cause_mint :
    PanicCause (sampleEnv (2 ^ 63 - 1) 0)
      (sampleChain.run [sampleInit])
      (.mintVow sampleOwner 5000000000 .treasury) :=
  panic_has_cause _ _ _ ⟨_, _, rfl⟩ rfl

end Vow
