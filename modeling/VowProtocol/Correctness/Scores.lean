import VowProtocol.Correctness.Registries
import VowProtocol.Correctness.Reputation
import VowProtocol.Library.PledgeBook

/-
  The commitment score of a wallet.

  A record counts the principal of an identity twice, once as
  a commitment and once as a fulfilment, each at the time of
  its own call. The record of a wallet is a book of pledges:
  it stays covered while fulfilments follow commitments and
  no principal grows between the two.

  Key definitions include:
    * `CommitmentRecord.exactScore`
    * `KeepsPledges`
    * `Represents`
    * `ScoreBounded`

  Key theorems include:
    * `computeScore_eq_ok_iff`
    * `execute_moves`
    * `scores_bounded`
-/

------------------------------------------------------------
-- Scores In Unbounded Integers
------------------------------------------------------------

namespace Vow

open MachineInt Fallible

/- The fulfilled share of the commitments in percent. -/
def CommitmentRecord.fulfilledRatio
    (record : CommitmentRecord) :
    Nat :=
  record.totalXntFulfilled.val * 100 /
    record.totalXntCommitted.val

/- The points of a record besides the ratio. -/
def CommitmentRecord.points
    (record : CommitmentRecord) :
    Nat :=
  record.highestClassEver.val * 100 +
    min record.totalXnftsMinted.val 50 * 10

def CommitmentRecord.exactScore
    (record : CommitmentRecord) :
    Nat :=
  record.points + record.fulfilledRatio

theorem CommitmentRecord.points_lt
    (record : CommitmentRecord) :
    record.points < 2 ^ 32 := by
  have hClass := record.highestClassEver.isLt
  unfold CommitmentRecord.points
  omega

/- The points are summed without an overflow. -/
theorem CommitmentRecord.exists_points_iff
    {record : CommitmentRecord}
    {score : U32}
    {ratio : Nat} :
    (∃ points : U32,
      points.val =
          record.highestClassEver.val * 100 % 2 ^ 32 +
            min record.totalXnftsMinted.val 50 * 10 %
              2 ^ 32 ∧
        score.val = points.val + ratio) ↔
      score.val = record.points + ratio := by
  have hClass := record.highestClassEver.isLt
  have hLess := record.points_lt
  rw [Nat.mod_eq_of_lt (by omega),
    Nat.mod_eq_of_lt (by omega)]
  constructor
  · rintro ⟨points, hPoints, hScore⟩
    rw [hScore, hPoints, CommitmentRecord.points]
  · intro hScore
    exact ⟨⟨record.points, hLess⟩, rfl, hScore⟩

/- The score keeps the low 32 bits of the ratio. -/
theorem computeScore_eq_ok_iff
    {record : CommitmentRecord}
    {score : U32} :
    computeScore record = .ok score ↔
      (0 < record.totalXntCommitted →
        record.totalXntFulfilled.val * 100 < 2 ^ 64) ∧
      score.val =
        record.points + record.fulfilledRatio % 2 ^ 32 := by
  have hHundred : Unsigned.val (100 : U64) = 100 := rfl
  unfold computeScore
  by_cases hCommitted : 0 < record.totalXntCommitted
  · simp only [bind_eq_ok_iff, hCommitted, if_true,
      okOr_eq_ok_iff, Unsigned.checkedAdd_eq_some_iff,
      Unsigned.checkedMul_eq_some_iff, Unsigned.val_ofNat,
      Unsigned.val_cast, true_implies,
      CommitmentRecord.exists_points_iff, hHundred]
    constructor
    · rintro ⟨scaled, hScaled, hScore⟩
      have hLess := scaled.isLt
      have hQuotient :=
        Nat.div_le_self scaled.val
          record.totalXntCommitted.val
      rw [Nat.mod_eq_of_lt (a := scaled.val / _) (by omega),
        hScaled] at hScore
      rw [hScaled] at hLess
      exact ⟨hLess, hScore⟩
    · rintro ⟨hLess, hScore⟩
      refine ⟨⟨_, hLess⟩, rfl, ?_⟩
      have hQuotient :=
        Nat.div_le_self
          (record.totalXntFulfilled.val * 100)
          record.totalXntCommitted.val
      rw [Nat.mod_eq_of_lt
        (a := record.totalXntFulfilled.val * 100 / _)
        (by omega)]
      exact hScore
  · have hZero : record.totalXntCommitted.val = 0 :=
      Nat.eq_zero_of_not_pos hCommitted
    simp only [bind_eq_ok_iff, hCommitted, if_false,
      okOr_eq_ok_iff, Unsigned.checkedAdd_eq_some_iff,
      Unsigned.val_ofNat, Unsigned.val_cast,
      Except.ok.injEq, exists_eq_left',
      CommitmentRecord.exists_points_iff, false_implies,
      true_and, Nat.zero_mod, Nat.div_zero, hZero,
      CommitmentRecord.fulfilledRatio]

/- The totals for which the score is exact and bounded. -/
structure CommitmentRecord.InBounds
    (record : CommitmentRecord) :
    Prop where
  highest : record.highestClassEver.val ≤ 7
  covered :
    record.totalXntFulfilled.val ≤
      record.totalXntCommitted.val
  fits : record.totalXntFulfilled.val * 100 < 2 ^ 64

theorem CommitmentRecord.InBounds.ratio_le
    {record : CommitmentRecord}
    (hBounds : record.InBounds) :
    record.fulfilledRatio ≤ 100 := by
  have hCovered := hBounds.covered
  apply Nat.div_le_of_le_mul
  omega

theorem CommitmentRecord.InBounds.exactScore_le
    {record : CommitmentRecord}
    (hBounds : record.InBounds) :
    record.exactScore ≤ 1300 := by
  have hHighest := hBounds.highest
  have hRatio := hBounds.ratio_le
  unfold CommitmentRecord.exactScore
    CommitmentRecord.points
  omega

/- Within the bounds nothing overflows or is cut off. -/
theorem CommitmentRecord.InBounds.computeScore_iff
    {record : CommitmentRecord}
    (hBounds : record.InBounds)
    {score : U32} :
    computeScore record = .ok score ↔
      score.val = record.exactScore := by
  have hRatio := hBounds.ratio_le
  rw [computeScore_eq_ok_iff, Nat.mod_eq_of_lt (by omega)]
  constructor
  · intro hOk
    exact hOk.2
  · intro hScore
    exact ⟨fun _ => hBounds.fits, hScore⟩

theorem CommitmentRecord.InBounds.computeScore_avoids
    {record : CommitmentRecord}
    (hBounds : record.InBounds)
    {e : ProgramError} :
    Avoids e (computeScore record) := by
  have hScore := hBounds.exactScore_le
  have hOk :
      computeScore record =
        .ok ⟨record.exactScore, by omega⟩ :=
    hBounds.computeScore_iff.mpr rfl
  rw [hOk]
  exact Avoids.ok _

end Vow

------------------------------------------------------------
-- Pledges
------------------------------------------------------------

namespace Vow

open MachineInt Fallible Transition

/- The principal of an identity, zero when there is none. -/
def World.principalOf
    (w : World)
    (vowState : Pubkey) :
    Nat :=
  match w.vows.lookup vowState with
  | some vow => vow.principalLamports.val
  | none => 0

/- The wallet has recorded the commitment of the identity. -/
def World.commitRecorded
    (w : World)
    (wallet vowState : Pubkey) :
    Bool :=
  (w.gates.lookup
    (.crCommit (.commitment wallet) vowState)).isSome

def World.fulfillRecorded
    (w : World)
    (wallet vowState : Pubkey) :
    Bool :=
  (w.gates.lookup
    (.crFulfill (.commitment wallet) vowState)).isSome

/- The commitment is recorded and its fulfilment is not. -/
def World.awaits
    (w : World)
    (wallet vowState : Pubkey) :
    Bool :=
  w.commitRecorded wallet vowState &&
    !w.fulfillRecorded wallet vowState

/-
  The instruction keeps the pledges of the wallet. A recorded
  fulfilment has its commitment recorded, with a total that
  fits the score, and no principal grows between the two.
-/
def KeepsPledges
    (wallet : Pubkey)
    (w : World) :
    Instruction → Prop
| .recordFulfillment _ vowState =>
    ∀ vow, w.vows.lookup vowState = some vow →
      vow.owner = wallet →
      w.commitRecorded wallet vowState = true ∧
        ((w.recordOf wallet).totalXntFulfilled.val +
          vow.principalLamports.val) * 100 < 2 ^ 64
| .addStake _ vowState _ => w.awaits wallet vowState = false
| .activateStake _ vowState stakeLamports _ =>
    w.awaits wallet vowState = true →
      stakeLamports.val ≤ w.principalOf vowState
| _ => True

/- The same of a successful step of a run. -/
def PledgesKept
    (wallet : Pubkey)
    (o : Occurrence World Step) :
    Prop :=
  ∀ ix, o.action.action = .instruction ix →
    KeepsPledges wallet o.before ix

theorem World.principalOf_of_lookup
    {w : World}
    {vowState : Pubkey}
    {vow : VowState}
    (hLookup : w.vows.lookup vowState = some vow) :
    w.principalOf vowState = vow.principalLamports.val := by
  simp [World.principalOf, hLookup]

theorem World.principalOf_congr
    {w w' : World}
    (hVows : w'.vows = w.vows) :
    w'.principalOf = w.principalOf := by
  funext k
  rw [World.principalOf, hVows, World.principalOf]

theorem World.awaits_eq_true_iff
    {w : World}
    {wallet vowState : Pubkey} :
    w.awaits wallet vowState = true ↔
      w.commitRecorded wallet vowState = true ∧
        w.fulfillRecorded wallet vowState = false := by
  simp [World.awaits]

/- A step that keeps the pledges never raises a pending one. -/
theorem LifeStep.principal_le
    {env : Env}
    {config : ProtocolConfig}
    {w : World}
    {wallet vowState : Pubkey}
    {ix : Instruction}
    {life life' : Life}
    (hStep : LifeStep env config vowState ix life life')
    (hLife : w.life vowState = some life)
    (hKeeps : KeepsPledges wallet w ix)
    (hAwaits : w.awaits wallet vowState = true) :
    life'.vow.principalLamports.val ≤
      life.vow.principalLamports.val := by
  cases hStep with
  | topUp =>
      have hNot : w.awaits wallet vowState = false := hKeeps
      exact absurd hAwaits (by simp [hNot])
  | activate owner stakeLamports yieldMode newClass
      newShares unlockAt vow unstaking hDormant hOpens =>
      have hLookup := (World.life_eq_some_iff.mp hLife).1
      have hStake := hKeeps hAwaits
      rw [World.principalOf_of_lookup hLookup] at hStake
      exact hStake
  | harvest config' vow vow' unstaking hGain =>
      rcases harvestGain_step hGain with ⟨harvested, hVow⟩
      subst hVow
      exact le_refl _
  | _ => exact le_refl _

end Vow

------------------------------------------------------------
-- The Book Of A Wallet
------------------------------------------------------------

namespace Vow

open MachineInt Fallible Transition PledgeBook

/-
  The book behind the record of a wallet. Gates only exist for
  identities, and the gate of a fulfilment only behind that of
  the commitment.
-/
structure Represents
    (wallet : Pubkey)
    (w : World)
    (b : Book Pubkey) :
    Prop where
  amount : b.amount = w.principalOf
  pledged :
    b.pledged = (w.recordOf wallet).totalXntCommitted.val
  redeemed :
    b.redeemed = (w.recordOf wallet).totalXntFulfilled.val
  pending :
    ∀ k, k ∈ b.pending ↔ w.awaits wallet k = true
  ordered :
    ∀ k, w.fulfillRecorded wallet k = true →
      w.commitRecorded wallet k = true
  exist :
    ∀ k, w.commitRecorded wallet k = true →
      (w.vows.lookup k).isSome = true

/- Identities stay, and no pending principal grows. -/
theorem execute_principal_le
    {env : Env}
    {w w' : World}
    {ix : Instruction}
    {wallet vowState : Pubkey}
    (hOk : execute env w ix = .ok w')
    (hKeeps : KeepsPledges wallet w ix)
    (hExists : (w.vows.lookup vowState).isSome = true) :
    (w'.vows.lookup vowState).isSome = true ∧
      (w.awaits wallet vowState = true →
        w'.principalOf vowState ≤ w.principalOf vowState) := by
  rcases Option.isSome_iff_exists.mp hExists with
    ⟨vow, hLookup⟩
  have hLife := World.life_of_lookup hLookup
  rcases execute_moved hOk hLife with ⟨life', hLife', hMove⟩
  have hLookup' := (World.life_eq_some_iff.mp hLife').1
  rw [hLookup', World.principalOf_of_lookup hLookup,
    World.principalOf_of_lookup hLookup']
  refine ⟨rfl, ?_⟩
  intro hAwaits
  cases hMove with
  | idle hIdle hSame =>
      subst hSame
      exact le_refl _
  | acts config found hConfig hAction hStep =>
      rw [← Action.instruction.inj hAction] at hStep
      exact hStep.principal_le hLife hKeeps hAwaits

/- A step may change the amounts of the book alone. -/
theorem Represents.reamounted
    {w w' : World}
    {wallet : Pubkey}
    {b : Book Pubkey}
    (hRep : Represents wallet w b)
    (hRecord : w'.recordOf wallet = w.recordOf wallet)
    (hCommit :
      w'.commitRecorded wallet = w.commitRecorded wallet)
    (hFulfill :
      w'.fulfillRecorded wallet =
        w.fulfillRecorded wallet)
    (hStay :
      ∀ k, (w.vows.lookup k).isSome = true →
        (w'.vows.lookup k).isSome = true) :
    Represents wallet w'
      { b with amount := w'.principalOf } := by
  refine ⟨rfl, ?_, ?_, ?_, ?_, ?_⟩
  · rw [hRecord]
    exact hRep.pledged
  · rw [hRecord]
    exact hRep.redeemed
  · intro k
    rw [World.awaits, hCommit, hFulfill]
    exact hRep.pending k
  · rw [hCommit, hFulfill]
    exact hRep.ordered
  · intro k hRecorded
    rw [hCommit] at hRecorded
    exact hStay k (hRep.exist k hRecorded)

/- A step that leaves records and gates alone. -/
theorem Represents.revised
    {env : Env}
    {w w' : World}
    {ix : Instruction}
    {wallet : Pubkey}
    {b : Book Pubkey}
    (hRep : Represents wallet w b)
    (hOk : execute env w ix = .ok w')
    (hKeeps : KeepsPledges wallet w ix)
    (hRecords : w'.records = w.records)
    (hGates : w'.gates = w.gates) :
    ∃ b', Moves (Unsigned.maxVal 64) b b' ∧
      Represents wallet w' b' := by
  refine ⟨{ b with amount := w'.principalOf },
    .revise _ ?_, hRep.reamounted ?_ ?_ ?_ ?_⟩
  · intro k hPending
    have hAwaits := (hRep.pending k).mp hPending
    have hExists :=
      hRep.exist k (World.awaits_eq_true_iff.mp hAwaits).1
    rw [hRep.amount]
    exact (execute_principal_le hOk hKeeps hExists).2 hAwaits
  · rw [World.recordOf, hRecords, World.recordOf]
  · funext k
    rw [World.commitRecorded, hGates, World.commitRecorded]
  · funext k
    rw [World.fulfillRecorded, hGates,
      World.fulfillRecorded]
  · intro k hExists
    exact (execute_principal_le hOk hKeeps hExists).1

/- A step that changes nothing of the wallet. -/
theorem Represents.unchanged
    {w w' : World}
    {wallet : Pubkey}
    {b : Book Pubkey}
    (hRep : Represents wallet w b)
    (hVows : w'.vows = w.vows)
    (hRecord : w'.recordOf wallet = w.recordOf wallet)
    (hCommit :
      w'.commitRecorded wallet = w.commitRecorded wallet)
    (hFulfill :
      w'.fulfillRecorded wallet =
        w.fulfillRecorded wallet) :
    Represents wallet w' b := by
  have hSame :
      Represents wallet w'
        { b with amount := w'.principalOf } := by
    apply hRep.reamounted hRecord hCommit hFulfill
    intro k hExists
    rw [hVows]
    exact hExists
  rw [World.principalOf_congr hVows, ← hRep.amount] at hSame
  exact hSame

/- The gate of a commitment records it and nothing else. -/
theorem World.gates_commit
    {w w' : World}
    {owner vowState : Pubkey}
    (hGates :
      w'.gates =
        w.gates.insert
          (.crCommit (.commitment owner) vowState) {})
    (wallet k : Pubkey) :
    w'.commitRecorded wallet k =
        (decide (wallet = owner ∧ k = vowState) ||
          w.commitRecorded wallet k) ∧
      w'.fulfillRecorded wallet k =
        w.fulfillRecorded wallet k := by
  unfold World.commitRecorded World.fulfillRecorded
  rw [hGates, AccountMap.lookup_insert_eq,
    AccountMap.lookup_insert_eq]
  by_cases hSame : wallet = owner ∧ k = vowState
  · simp [hSame]
  · simp [hSame]

/- The gate of a fulfilment does the same. -/
theorem World.gates_fulfill
    {w w' : World}
    {owner vowState : Pubkey}
    (hGates :
      w'.gates =
        w.gates.insert
          (.crFulfill (.commitment owner) vowState) {})
    (wallet k : Pubkey) :
    w'.commitRecorded wallet k =
        w.commitRecorded wallet k ∧
      w'.fulfillRecorded wallet k =
        (decide (wallet = owner ∧ k = vowState) ||
          w.fulfillRecorded wallet k) := by
  unfold World.commitRecorded World.fulfillRecorded
  rw [hGates, AccountMap.lookup_insert_eq,
    AccountMap.lookup_insert_eq]
  by_cases hSame : wallet = owner ∧ k = vowState
  · simp [hSame]
  · simp [hSame]

/- A commitment opens a pledge of the owner. -/
theorem Represents.committed
    {env : Env}
    {w w' : World}
    {payer : Signer}
    {wallet vowState : Pubkey}
    {b : Book Pubkey}
    (hRep : Represents wallet w b)
    (hOk : recordCommitment env w payer vowState = .ok w') :
    ∃ b', Moves (Unsigned.maxVal 64) b b' ∧
      Represents wallet w' b' := by
  rcases recordCommitment_ok hOk with ⟨call, hEq⟩
  have hRecord :=
    World.recordOf_insert (congrArg World.records hEq) wallet
  have hGates :=
    World.gates_commit (congrArg World.gates hEq) wallet
  have hVows : w'.vows = w.vows := by rw [hEq]
  have hPrincipal := World.principalOf_congr hVows
  by_cases hOwner : wallet = call.vow.owner
  · subst hOwner
    have hNew :
        w.commitRecorded call.vow.owner vowState = false := by
      simp [World.commitRecorded, call.hGate]
    have hUnfulfilled :
        w.fulfillRecorded call.vow.owner vowState = false := by
      by_contra hSome
      rw [Bool.not_eq_false] at hSome
      exact absurd (hRep.ordered vowState hSome)
        (by simp [hNew])
    have hFresh : vowState ∉ b.pending := by
      simp [hRep.pending, World.awaits, hNew]
    rw [if_pos rfl] at hRecord
    refine ⟨_, .pledge vowState hFresh, ?_, ?_, ?_, ?_, ?_, ?_⟩
    · exact hRep.amount.trans hPrincipal.symm
    · rw [hRecord, hRep.pledged, hRep.amount,
        World.principalOf_of_lookup call.hLookup]
      exact Nat.min_comm _ _
    · rw [hRecord]
      exact hRep.redeemed
    · intro k
      rw [Finset.mem_insert, hRep.pending, World.awaits,
        World.awaits, (hGates k).1, (hGates k).2]
      by_cases hKey : k = vowState
      · simp [hKey, hUnfulfilled]
      · simp [hKey]
    · intro k hFulfilled
      rw [(hGates k).2] at hFulfilled
      simp [(hGates k).1, hRep.ordered k hFulfilled]
    · intro k hRecorded
      rw [hVows]
      by_cases hKey : k = vowState
      · rw [hKey, call.hLookup]
        rfl
      · simp only [(hGates k).1, hKey, and_false,
          decide_false, Bool.false_or] at hRecorded
        exact hRep.exist k hRecorded
  · rw [if_neg hOwner] at hRecord
    refine ⟨b, .revise b.amount fun _ _ => le_refl _,
      hRep.unchanged hVows hRecord ?_ ?_⟩
    · funext k
      simp [(hGates k).1, hOwner]
    · funext k
      exact (hGates k).2

/- A fulfilment redeems the pledge, if it was recorded. -/
theorem Represents.fulfilled
    {env : Env}
    {w w' : World}
    {payer : Signer}
    {wallet vowState : Pubkey}
    {b : Book Pubkey}
    (hRep : Represents wallet w b)
    (hKeeps :
      KeepsPledges wallet w
        (.recordFulfillment payer vowState))
    (hOk : recordFulfillment env w payer vowState = .ok w') :
    ∃ b', Moves (Unsigned.maxVal 64) b b' ∧
      Represents wallet w' b' := by
  rcases recordFulfillment_ok hOk with ⟨call, hEq⟩
  have hRecord :=
    World.recordOf_insert (congrArg World.records hEq) wallet
  have hGates :=
    World.gates_fulfill (congrArg World.gates hEq) wallet
  have hVows : w'.vows = w.vows := by rw [hEq]
  have hPrincipal := World.principalOf_congr hVows
  by_cases hOwner : wallet = call.vow.owner
  · subst hOwner
    have hCommitted :
        w.commitRecorded call.vow.owner vowState = true :=
      (hKeeps call.vow call.hLookup rfl).1
    have hOpen : vowState ∈ b.pending := by
      rw [hRep.pending, World.awaits, hCommitted]
      simp [World.fulfillRecorded, call.hGate]
    have hBefore :
        w.recordOf call.vow.owner = call.record := by
      simp [World.recordOf, call.hRecord]
    rw [if_pos rfl] at hRecord
    refine ⟨_, .redeem vowState hOpen, ?_, ?_, ?_, ?_, ?_, ?_⟩
    · exact hRep.amount.trans hPrincipal.symm
    · rw [hRecord]
      exact hRep.pledged.trans (by rw [hBefore]; rfl)
    · rw [hRecord, hRep.redeemed, hRep.amount, hBefore,
        World.principalOf_of_lookup call.hLookup]
      exact Nat.min_comm _ _
    · intro k
      rw [Finset.mem_erase, hRep.pending, World.awaits,
        World.awaits, (hGates k).1, (hGates k).2]
      by_cases hKey : k = vowState
      · simp [hKey]
      · simp [hKey]
    · intro k hFulfilled
      rw [(hGates k).1]
      by_cases hKey : k = vowState
      · rw [hKey]
        exact hCommitted
      · simp only [(hGates k).2, hKey, and_false,
          decide_false, Bool.false_or] at hFulfilled
        exact hRep.ordered k hFulfilled
    · intro k hRecorded
      rw [(hGates k).1] at hRecorded
      rw [hVows]
      exact hRep.exist k hRecorded
  · rw [if_neg hOwner] at hRecord
    refine ⟨b, .revise b.amount fun _ _ => le_refl _,
      hRep.unchanged hVows hRecord ?_ ?_⟩
    · funext k
      exact (hGates k).1
    · funext k
      simp [(hGates k).2, hOwner]

/- Every step of the program is a move of the book. -/
theorem execute_moves
    {env : Env}
    {w w' : World}
    {ix : Instruction}
    {wallet : Pubkey}
    {b : Book Pubkey}
    (hRep : Represents wallet w b)
    (hKeeps : KeepsPledges wallet w ix)
    (hOk : execute env w ix = .ok w') :
    ∃ b', Moves (Unsigned.maxVal 64) b b' ∧
      Represents wallet w' b' := by
  cases ix with
  | recordCommitment payer vowState =>
      exact hRep.committed hOk
  | recordFulfillment payer vowState =>
      exact hRep.fulfilled hKeeps hOk
  | _ =>
      have hKept :=
        execute_recordsKept hOk (by simp) (by simp)
      exact hRep.revised hOk hKeeps hKept.1 hKept.2

end Vow

------------------------------------------------------------
-- Scores In Every State
------------------------------------------------------------

namespace Vow

open MachineInt Fallible Transition PledgeBook

/- The stored score is the computed one. -/
structure Scored
    (record : CommitmentRecord) :
    Prop where
  highest : record.highestClassEver.val ≤ 7
  score :
    computeScore record = .ok record.commitmentScore

/- What holds of the record of a wallet along a run. -/
structure BookKept
    (wallet : Pubkey)
    (w : World) :
    Prop where
  reachable : Reachable w
  scored : Scored (w.recordOf wallet)
  covered :
    ∃ b, Represents wallet w b ∧
      b.Covered (Unsigned.maxVal 64)

theorem graded_lookup
    {w : World}
    (hReach : Reachable w)
    {vowState : Pubkey}
    {vow : VowState}
    (hLookup : w.vows.lookup vowState = some vow) :
    vow.stakeClass.val ≤ 7 := by
  have hGraded :=
    graded_reachable hReach (World.life_of_lookup hLookup)
  exact hGraded.highest.trans hGraded.range

theorem CommitmentRecord.committed_highest
    {record : CommitmentRecord}
    {vow : VowState}
    (hRecord : record.highestClassEver.val ≤ 7)
    (hVow : vow.stakeClass.val ≤ 7)
    (lockDays : U64) :
    (record.committed vow lockDays).highestClassEver.val ≤
      7 := by
  unfold CommitmentRecord.committed
  dsimp only
  split
  · exact hVow
  · exact hRecord

/- Every step stores the score that it computes. -/
theorem execute_scored
    {env : Env}
    {w w' : World}
    {ix : Instruction}
    {wallet : Pubkey}
    (hReach : Reachable w)
    (hOk : execute env w ix = .ok w')
    (hScored : Scored (w.recordOf wallet)) :
    Scored (w'.recordOf wallet) := by
  cases ix with
  | recordCommitment payer vowState =>
      rcases recordCommitment_ok hOk with ⟨call, hEq⟩
      rw [World.recordOf_insert
        (congrArg World.records hEq) wallet]
      by_cases hOwner : wallet = call.vow.owner
      · subst hOwner
        rw [if_pos rfl]
        refine ⟨?_, call.hScore⟩
        exact CommitmentRecord.committed_highest
          hScored.highest (graded_lookup hReach call.hLookup)
          ((call.lock.quot 86400).toUnsigned 64)
      · rw [if_neg hOwner]
        exact hScored
  | recordFulfillment payer vowState =>
      rcases recordFulfillment_ok hOk with ⟨call, hEq⟩
      rw [World.recordOf_insert
        (congrArg World.records hEq) wallet]
      by_cases hOwner : wallet = call.vow.owner
      · subst hOwner
        have hBefore :
            w.recordOf call.vow.owner = call.record := by
          simp [World.recordOf, call.hRecord]
        rw [hBefore] at hScored
        rw [if_pos rfl]
        exact ⟨hScored.highest, call.hScore⟩
      · rw [if_neg hOwner]
        exact hScored
  | _ =>
      have hKept :=
        execute_recordsKept hOk (by simp) (by simp)
      unfold World.recordOf
      rw [hKept.1]
      exact hScored

/- One step of the chain keeps the book. -/
theorem exec_bookKept
    {w w' : World}
    {step : Step}
    {wallet : Pubkey}
    (hKept : BookKept wallet w)
    (hExec : Step.exec w step = some w')
    (hPledges : PledgesKept wallet ⟨w, step, w'⟩) :
    BookKept wallet w' := by
  have hRun : w.run [step] = w' := advance_of_some hExec
  have hReach : Reachable w' := by
    rw [← hRun]
    exact hKept.reachable.run [step]
  rcases hKept with ⟨hBefore, hScored, b, hRep, hCovered⟩
  rcases step with ⟨env, action⟩
  cases action with
  | instruction ix =>
      have hOk := Step.exec_instruction_iff.mp hExec
      rcases execute_moves hRep (hPledges ix rfl) hOk with
        ⟨b', hMoves, hRep'⟩
      exact ⟨hReach, execute_scored hBefore hOk hScored, b',
        hRep', hMoves.covered hCovered⟩
  | _ =>
      have hSame := Option.some.inj hExec
      subst hSame
      exact ⟨hReach, hScored, b,
        hRep.unchanged rfl rfl rfl rfl, hCovered⟩

theorem genesis_bookKept
    (lamports : Lamports)
    (wallet : Pubkey) :
    BookKept wallet (World.genesis lamports) := by
  have hEmpty : Scored emptyRecord :=
    ⟨by decide, by decide⟩
  refine ⟨⟨lamports, [], rfl⟩, hEmpty,
    ⟨(World.genesis lamports).principalOf, ∅, 0, 0⟩,
    ⟨rfl, rfl, rfl, ?_, ?_, ?_⟩, ?_⟩
  · intro k
    simp [World.awaits, World.commitRecorded, World.genesis]
  · intro k hFulfilled
    simp [World.fulfillRecorded, World.genesis] at hFulfilled
  · intro k hCommitted
    simp [World.commitRecorded, World.genesis] at hCommitted
  · simp [Book.Covered]

/- The book bounds the record. -/
theorem BookKept.inBounds
    {wallet : Pubkey}
    {w : World}
    (hKept : BookKept wallet w) :
    (w.recordOf wallet).InBounds := by
  rcases hKept with ⟨_, hScored, b, hRep, hCovered⟩
  have hMax :=
    (w.recordOf wallet).totalXntFulfilled.val_le_maxVal
  rw [← hRep.redeemed] at hMax
  have hLess := hCovered.redeemed_le hMax
  rw [hRep.redeemed, hRep.pledged] at hLess
  refine ⟨hScored.highest, hLess, ?_⟩
  by_cases hCommitted :
      0 < (w.recordOf wallet).totalXntCommitted
  · exact (computeScore_eq_ok_iff.mp hScored.score).1
      hCommitted
  · have hZero :
        (w.recordOf wallet).totalXntCommitted.val = 0 :=
      Nat.eq_zero_of_not_pos hCommitted
    omega

/- A commitment leaves the record in its bounds. -/
theorem BookKept.committed_inBounds
    {wallet vowState : Pubkey}
    {w : World}
    {vow : VowState}
    (hKept : BookKept wallet w)
    (hLookup : w.vows.lookup vowState = some vow)
    (lockDays : U64) :
    ((w.recordOf wallet).committed vow
      lockDays).InBounds := by
  have hBounds := hKept.inBounds
  refine ⟨?_, ?_, hBounds.fits⟩
  · exact CommitmentRecord.committed_highest
      hBounds.highest
      (graded_lookup hKept.reachable hLookup) lockDays
  · exact hBounds.covered.trans
      (Unsigned.le_saturatingAdd _ _)

/- So does the fulfilment of a recorded commitment. -/
theorem BookKept.fulfilled_inBounds
    {wallet vowState : Pubkey}
    {w : World}
    {vow : VowState}
    (hKept : BookKept wallet w)
    (hLookup : w.vows.lookup vowState = some vow)
    (hAwaits : w.awaits wallet vowState = true)
    (hFits :
      ((w.recordOf wallet).totalXntFulfilled.val +
        vow.principalLamports.val) * 100 < 2 ^ 64) :
    ((w.recordOf wallet).fulfilled vow).InBounds := by
  rcases hKept.covered with ⟨b, hRep, hCovered⟩
  have hCap : Unsigned.maxVal 64 = 2 ^ 64 - 1 := rfl
  have hOpen := (hRep.pending vowState).mpr hAwaits
  have hAmount : b.amount vowState =
      vow.principalLamports.val := by
    rw [hRep.amount]
    exact World.principalOf_of_lookup hLookup
  have hLess := hCovered.redeem_le hOpen
  rw [hAmount, hRep.redeemed, hRep.pledged] at hLess
  have hTotal :
      ((w.recordOf wallet).fulfilled
          vow).totalXntFulfilled.val =
        (w.recordOf wallet).totalXntFulfilled.val +
          vow.principalLamports.val := by
    unfold CommitmentRecord.fulfilled
    rw [Unsigned.val_saturatingAdd]
    omega
  refine ⟨hKept.inBounds.highest, ?_, ?_⟩
  · rw [hTotal]
    exact hLess (by omega)
  · rw [hTotal]
    exact hFits

theorem loadOrInitRecord_avoids_panic
    {env : Env}
    {w : World}
    {payer : Signer}
    {address : Pubkey} :
    Avoids .panicked
      (loadOrInitRecord env w payer address) := by
  unfold loadOrInitRecord
  cases w.records.lookup address with
  | none =>
      refine (transfer_avoids (by simp)).bind ?_
      intro _ _
      exact Avoids.pure _
  | some record => exact Avoids.ok _

/- No commitment overflows its score. -/
theorem BookKept.recordCommitment_avoids
    {env : Env}
    {w : World}
    {payer : Signer}
    {vowState : Pubkey}
    {vow : VowState}
    (hLookup : w.vows.lookup vowState = some vow)
    (hKept : BookKept vow.owner w) :
    Avoids .panicked
      (recordCommitment env w payer vowState) := by
  unfold recordCommitment
  refine (loadVow_avoids (by simp) (by simp)).bind ?_
  intro found hFound
  rw [loadVow_eq_ok_iff, hLookup] at hFound
  rw [← Option.some.inj hFound.1]
  refine loadOrInitRecord_avoids_panic.bind ?_
  intro loaded hLoaded
  refine (Avoids.require_of_ne (by simp)).bind ?_
  intro _ _
  refine (transfer_avoids (by simp)).bind ?_
  intro _ _
  rcases lockDuration_of_class
    (graded_lookup hKept.reachable hLookup) with ⟨lock, hLock⟩
  rw [hLock]
  refine (Avoids.ok lock).bind ?_
  intro _ _
  rw [loadOrInitRecord_ok hLoaded]
  refine (hKept.committed_inBounds hLookup
    _).computeScore_avoids.bind ?_
  intro _ _
  exact Avoids.pure _

/- No fulfilment of a recorded commitment does, if it fits. -/
theorem BookKept.recordFulfillment_avoids
    {env : Env}
    {w : World}
    {payer : Signer}
    {vowState : Pubkey}
    {vow : VowState}
    (hLookup : w.vows.lookup vowState = some vow)
    (hKept : BookKept vow.owner w)
    (hKeeps :
      KeepsPledges vow.owner w
        (.recordFulfillment payer vowState)) :
    Avoids .panicked
      (recordFulfillment env w payer vowState) := by
  rcases hKeeps vow hLookup rfl with ⟨hCommitted, hFits⟩
  unfold recordFulfillment
  refine (loadVow_avoids (by simp) (by simp)).bind ?_
  intro found hFound
  rw [loadVow_eq_ok_iff, hLookup] at hFound
  rw [← Option.some.inj hFound.1]
  refine (Avoids.okOr_of_ne (by simp)).bind ?_
  intro record hRecord
  refine (Avoids.require_of_ne (by simp)).bind ?_
  intro _ hGate
  refine (transfer_avoids (by simp)).bind ?_
  intro _ _
  refine (Avoids.require_of_ne (by simp)).bind ?_
  intro _ _
  have hAwaits : w.awaits vow.owner vowState = true := by
    rw [require_eq_ok_iff] at hGate
    simp [World.awaits, hCommitted, World.fulfillRecorded,
      hGate]
  have hBefore : w.recordOf vow.owner = record := by
    rw [okOr_eq_ok_iff] at hRecord
    simp [World.recordOf, hRecord]
  have hBounds :=
    hKept.fulfilled_inBounds hLookup hAwaits hFits
  rw [hBefore] at hBounds
  refine hBounds.computeScore_avoids.bind ?_
  intro _ _
  exact Avoids.pure _

/- The bounds that a reader of the record relies on. -/
structure ScoreBounded
    (record : CommitmentRecord) :
    Prop where
  covered :
    record.totalXntFulfilled.val ≤
      record.totalXntCommitted.val
  ratio : record.fulfilledRatio ≤ 100
  exact : record.commitmentScore.val = record.exactScore
  bound : record.commitmentScore.val ≤ 1300

theorem BookKept.scoreBounded
    {wallet : Pubkey}
    {w : World}
    (hKept : BookKept wallet w) :
    ScoreBounded (w.recordOf wallet) := by
  have hBounds := hKept.inBounds
  have hExact :=
    hBounds.computeScore_iff.mp hKept.scored.score
  refine ⟨hBounds.covered, hBounds.ratio_le, hExact, ?_⟩
  rw [hExact]
  exact hBounds.exactScore_le

/-
  In every state of a run whose steps keep the pledges of a
  wallet, the record of the wallet is covered and its score
  is exact and at most 1300. No commitment panics there, and
  no fulfilment that keeps the pledges does.
-/
theorem scores_bounded
    {lamports : Lamports}
    {wallet : Pubkey}
    {steps : List Step}
    (hPledges :
      ∀ o ∈ (World.genesis lamports).trace steps,
        PledgesKept wallet o) :
    ScoreBounded
      (((World.genesis lamports).run steps).recordOf
        wallet) ∧
    ∀ env payer vowState vow,
      ((World.genesis lamports).run steps).vows.lookup
        vowState = some vow →
      vow.owner = wallet →
      execute env ((World.genesis lamports).run steps)
          (.recordCommitment payer vowState) ≠
        .error .panicked ∧
      (KeepsPledges wallet
          ((World.genesis lamports).run steps)
          (.recordFulfillment payer vowState) →
        execute env ((World.genesis lamports).run steps)
            (.recordFulfillment payer vowState) ≠
          .error .panicked) := by
  have hKept :
      BookKept wallet
        ((World.genesis lamports).run steps) :=
    (trace_invariant
      (fun _ _ _ hBefore hExec hStep =>
        exec_bookKept hBefore hExec hStep)
      (genesis_bookKept lamports wallet) hPledges).2
  refine ⟨hKept.scoreBounded, ?_⟩
  intro env payer vowState vow hLookup hOwner
  subst hOwner
  refine ⟨BookKept.recordCommitment_avoids hLookup hKept, ?_⟩
  intro hKeeps
  exact BookKept.recordFulfillment_avoids hLookup hKept
    hKeeps

/- A stake of one XNT whose commitment is recorded. -/
def pledgeSteps : List Step :=
  [sampleInit,
    sampleStep 0 0
      (.mintVow sampleOwner 1000000000 .treasury),
    sampleStep 0 0
      (.recordCommitment sampleOwner sampleVow)]

def fulfillStep
    (now : Int) :
    Step :=
  sampleStep now 1 (.recordFulfillment sampleOwner sampleVow)

/- The lock runs out and a harvest notices it. -/
def maturedSteps : List Step :=
  pledgeSteps ++ [sampleStep 2592000 1 (.harvest sampleVow)]

def maturedChain : World :=
  sampleChain.run maturedSteps

theorem maturedChain_keepsPledges :
    KeepsPledges sampleOwner.key maturedChain
      (.recordFulfillment sampleOwner sampleVow) := by
  intro vow hLookup _
  have hPrincipal :
      (maturedChain.vows.lookup sampleVow).map
          (fun vow => vow.principalLamports.val) =
        some 1000000000 := by
    decide +kernel
  have hFulfilled :
      (maturedChain.recordOf
        sampleOwner.key).totalXntFulfilled.val = 0 := by
    decide +kernel
  rw [hLookup] at hPrincipal
  have hAmount : vow.principalLamports.val = 1000000000 :=
    Option.some.inj hPrincipal
  refine ⟨by decide +kernel, ?_⟩
  rw [hFulfilled]
  omega

/- The commitment is fulfilled as it was made. -/
theorem scores_bounded_fulfilled :
    ScoreBounded
      ((sampleChain.run
        (maturedSteps ++ [fulfillStep 2592000])).recordOf
          sampleOwner.key) := by
  have hExec :
      Step.exec maturedChain (fulfillStep 2592000) =
        some (maturedChain.run [fulfillStep 2592000]) :=
    Step.exec_eq_run (by decide +kernel)
  have hTrace :
      sampleChain.trace
          (maturedSteps ++ [fulfillStep 2592000]) =
        sampleChain.trace maturedSteps ++
          [⟨maturedChain, fulfillStep 2592000,
            maturedChain.run [fulfillStep 2592000]⟩] :=
    trace_concat_of_some hExec
  have hPledges :
      ∀ o ∈ sampleChain.trace
          (maturedSteps ++ [fulfillStep 2592000]),
        PledgesKept sampleOwner.key o := by
    intro o ho ix hAction
    rw [hTrace, List.mem_append, List.mem_singleton] at ho
    rcases ho with hEarlier | hLast
    · -- The steps before the last need no condition.
      have hMem := mem_trace_action hEarlier
      simp only [maturedSteps, pledgeSteps,
        List.cons_append, List.nil_append, List.mem_cons,
        List.not_mem_nil, or_false] at hMem
      rcases hMem with hStep | hStep | hStep | hStep
      all_goals
        rw [hStep] at hAction
        rw [← Action.instruction.inj hAction]
        exact trivial
    · subst hLast
      rw [← Action.instruction.inj hAction]
      exact maturedChain_keepsPledges
  exact (scores_bounded hPledges).1

/- The same stake grows before its fulfilment is recorded. -/
def grownSteps : List Step :=
  pledgeSteps ++
    [sampleStep 0 0
        (.addStake sampleOwner sampleVow 20000000000),
      sampleStep 1000000000 1 (.harvest sampleVow),
      fulfillStep 1000000000]

/-
  One XNT is recorded as committed and 21 as fulfilled, for a
  score of 2110.
-/
theorem grown_stake_exceeds_score :
    Reachable (sampleChain.run grownSteps) ∧
      ((sampleChain.run grownSteps).recordOf
        sampleOwner.key).totalXntCommitted.val =
          1000000000 ∧
      ((sampleChain.run grownSteps).recordOf
        sampleOwner.key).totalXntFulfilled.val =
          21000000000 ∧
      ((sampleChain.run grownSteps).recordOf
        sampleOwner.key).commitmentScore.val = 2110 :=
  ⟨⟨_, _, rfl⟩, by decide +kernel, by decide +kernel,
    by decide +kernel⟩

end Vow
