import VowProtocol.Correctness.Scores

/-
  The commitment record of a wallet as the books of its
  history.

  A record keeps counters and no list of what it counted. Over
  every run the counters are the clipped sums over the calls
  that recorded an identity of the wallet, each identity is
  counted once at most by either call, and the stored score is
  the score of the stored counters.

  Key definitions include:
    * `Entry`
    * `commitmentsOf`
    * `fulfillmentsOf`
    * `KeepsBooks`

  Key theorems include:
    * `exec_keepsBooks`
    * `commitment_record_exact`
-/

------------------------------------------------------------
-- Entries
------------------------------------------------------------

namespace Vow

open MachineInt Fallible Transition

/- An identity as it was when a call recorded it. -/
structure Entry where
  vowState : Pubkey
  vow : VowState

def World.entryOf
    (w : World)
    (wallet vowState : Pubkey) :
    Option Entry :=
  match w.vows.lookup vowState with
  | some vow =>
      if vow.owner = wallet then some ⟨vowState, vow⟩
      else none
  | none => none

def commitmentBy
    (wallet : Pubkey)
    (o : Occurrence World Step) :
    Option Entry :=
  match o.action.action with
  | .instruction (.recordCommitment _ vowState) =>
      o.before.entryOf wallet vowState
  | _ => none

def fulfillmentBy
    (wallet : Pubkey)
    (o : Occurrence World Step) :
    Option Entry :=
  match o.action.action with
  | .instruction (.recordFulfillment _ vowState) =>
      o.before.entryOf wallet vowState
  | _ => none

/- What a history recorded of the identities of a wallet. -/
def commitmentsOf
    (wallet : Pubkey)
    (history : List (Occurrence World Step)) :
    List Entry :=
  history.filterMap (commitmentBy wallet)

def fulfillmentsOf
    (wallet : Pubkey)
    (history : List (Occurrence World Step)) :
    List Entry :=
  history.filterMap (fulfillmentBy wallet)

def Entry.principal
    (entry : Entry) :
    Nat :=
  entry.vow.principalLamports.val

/- The days of the lock of the class, as the record counts. -/
def Entry.lockDays
    (entry : Entry) :
    Nat :=
  match lockDuration entry.vow.stakeClass with
  | .ok lock => ((lock.quot 86400).toUnsigned 64).val
  | .error _ => 0

def Entry.stakeClass
    (entry : Entry) :
    Nat :=
  entry.vow.stakeClass.val

/- The highest class among the entries. -/
def highestClass
    (entries : List Entry) :
    Nat :=
  (entries.map Entry.stakeClass).foldl max 0

theorem World.entryOf_of_lookup
    {w : World}
    {vowState : Pubkey}
    {vow : VowState}
    (hLookup : w.vows.lookup vowState = some vow)
    (wallet : Pubkey) :
    w.entryOf wallet vowState =
      if vow.owner = wallet then some ⟨vowState, vow⟩
      else none := by
  unfold World.entryOf
  rw [hLookup]

theorem highestClass_concat
    (entries : List Entry)
    (entry : Entry) :
    highestClass (entries ++ [entry]) =
      max (highestClass entries) entry.stakeClass := by
  unfold highestClass
  rw [List.map_append, List.foldl_append]
  rfl

end Vow

------------------------------------------------------------
-- Books
------------------------------------------------------------

namespace Vow

open MachineInt Fallible Transition

/-
  The record of the wallet agrees with its entries. A gate is
  there exactly for the identities that were recorded.
-/
structure KeepsBooks
    (wallet : Pubkey)
    (commitments fulfillments : List Entry)
    (w : World) :
    Prop where
  minted :
    (w.recordOf wallet).totalXnftsMinted.Totals
      (commitments.map fun _ => 1)
  committed :
    (w.recordOf wallet).totalXntCommitted.Totals
      (commitments.map Entry.principal)
  fulfilled :
    (w.recordOf wallet).totalXntFulfilled.Totals
      (fulfillments.map Entry.principal)
  days :
    (w.recordOf wallet).totalCommitmentDays.Totals
      (commitments.map Entry.lockDays)
  highest :
    (w.recordOf wallet).highestClassEver.val =
      highestClass commitments
  score :
    computeScore (w.recordOf wallet) =
      .ok (w.recordOf wallet).commitmentScore
  opened :
    (w.records.lookup (.commitment wallet)).isSome = true ↔
      commitments ≠ []
  named :
    commitments ≠ [] → (w.recordOf wallet).wallet = wallet
  follows : fulfillments ≠ [] → commitments ≠ []
  matured :
    ∀ entry ∈ fulfillments, entry.vow.matured = true
  commitGates :
    ∀ v, w.commitRecorded wallet v = true ↔
      v ∈ commitments.map Entry.vowState
  fulfillGates :
    ∀ v, w.fulfillRecorded wallet v = true ↔
      v ∈ fulfillments.map Entry.vowState
  commitsOnce : (commitments.map Entry.vowState).Nodup
  fulfillsOnce : (fulfillments.map Entry.vowState).Nodup

/- Only the records and the gates are read. -/
theorem KeepsBooks.congr
    {wallet : Pubkey}
    {commitments fulfillments : List Entry}
    {w w' : World}
    (hBooks : KeepsBooks wallet commitments fulfillments w)
    (hRecord :
      w'.records.lookup (.commitment wallet) =
        w.records.lookup (.commitment wallet))
    (hCommit :
      w'.commitRecorded wallet = w.commitRecorded wallet)
    (hFulfill :
      w'.fulfillRecorded wallet =
        w.fulfillRecorded wallet) :
    KeepsBooks wallet commitments fulfillments w' := by
  have hSame : w'.recordOf wallet = w.recordOf wallet := by
    unfold World.recordOf
    rw [hRecord]
  rcases hBooks with
    ⟨hMinted, hCommitted, hFulfilled, hDays, hHighest,
      hScore, hOpened, hNamed, hFollows, hMatured, hGates,
      hGates', hOnce, hOnce'⟩
  rw [← hSame] at hMinted hCommitted hFulfilled hDays
  rw [← hSame] at hHighest hScore hNamed
  rw [← hRecord] at hOpened
  rw [← hCommit] at hGates
  rw [← hFulfill] at hGates'
  exact ⟨hMinted, hCommitted, hFulfilled, hDays, hHighest,
    hScore, hOpened, hNamed, hFollows, hMatured, hGates,
    hGates', hOnce, hOnce'⟩

/- A commitment is one more entry. -/
theorem KeepsBooks.commit
    {env : Env}
    {w w' : World}
    {payer : Signer}
    {vowState : Pubkey}
    {vow : VowState}
    {commitments fulfillments : List Entry}
    (hBooks :
      KeepsBooks vow.owner commitments fulfillments w)
    (hLookup : w.vows.lookup vowState = some vow)
    (hOk : recordCommitment env w payer vowState = .ok w') :
    KeepsBooks vow.owner
      (commitments ++ [⟨vowState, vow⟩]) fulfillments
      w' := by
  rcases recordCommitment_ok hOk with ⟨call, hEq⟩
  have hFound := call.hLookup
  rw [hLookup, Option.some.injEq] at hFound
  subst hFound
  have hRecord :=
    World.recordOf_insert (congrArg World.records hEq)
      call.vow.owner
  rw [if_pos rfl] at hRecord
  have hGates :=
    World.gates_commit (congrArg World.gates hEq) call.vow.owner
  have hFresh :
      vowState ∉ commitments.map Entry.vowState := by
    rw [← hBooks.commitGates, World.commitRecorded, call.hGate]
    simp
  have hDays :
      Entry.lockDays ⟨vowState, call.vow⟩ =
        ((call.lock.quot 86400).toUnsigned 64).val := by
    unfold Entry.lockDays
    rw [call.hLock]
  have hSome :
      (w'.records.lookup (.commitment call.vow.owner)).isSome =
        true := by
    rw [hEq, AccountMap.lookup_insert_eq, if_pos rfl]
    rfl
  refine ⟨?_, ?_, ?_, ?_, ?_, ?_, ?_, ?_, ?_, hBooks.matured,
    ?_, ?_, ?_, hBooks.fulfillsOnce⟩
  · rw [hRecord, List.map_append]
    exact hBooks.minted.saturatingAdd 1
  · rw [hRecord, List.map_append]
    exact hBooks.committed.saturatingAdd _
  · rw [hRecord]
    exact hBooks.fulfilled
  · rw [hRecord, List.map_append, List.map_singleton, hDays]
    exact hBooks.days.saturatingAdd _
  · rw [hRecord, highestClass_concat, ← hBooks.highest]
    unfold CommitmentRecord.committed Entry.stakeClass
    dsimp only
    split
    · rename_i hLess
      rw [Unsigned.lt_def] at hLess
      omega
    · rename_i hLess
      rw [Unsigned.lt_def] at hLess
      omega
  · rw [hRecord]
    exact call.hScore
  · simp [hSome]
  · intro _
    rw [hRecord]
    rfl
  · simp
  · intro v
    rw [(hGates v).1, Bool.or_eq_true, hBooks.commitGates v,
      List.map_append, List.mem_append]
    simp [or_comm]
  · intro v
    rw [(hGates v).2]
    exact hBooks.fulfillGates v
  · rw [List.map_append, List.map_singleton,
      ← List.concat_eq_append]
    exact hBooks.commitsOnce.concat hFresh

/- So is a fulfilment, of a matured identity. -/
theorem KeepsBooks.fulfill
    {env : Env}
    {w w' : World}
    {payer : Signer}
    {vowState : Pubkey}
    {vow : VowState}
    {commitments fulfillments : List Entry}
    (hBooks :
      KeepsBooks vow.owner commitments fulfillments w)
    (hLookup : w.vows.lookup vowState = some vow)
    (hOk : recordFulfillment env w payer vowState = .ok w') :
    KeepsBooks vow.owner commitments
      (fulfillments ++ [⟨vowState, vow⟩]) w' := by
  rcases recordFulfillment_ok hOk with ⟨call, hEq⟩
  have hFound := call.hLookup
  have hScore := call.hScore
  rw [hLookup, Option.some.injEq] at hFound
  subst hFound
  have hBefore : w.recordOf call.vow.owner = call.record := by
    simp [World.recordOf, call.hRecord]
  have hRecord :=
    World.recordOf_insert (congrArg World.records hEq)
      call.vow.owner
  rw [if_pos rfl, ← hBefore] at hRecord
  rw [← hBefore] at hScore
  have hGates :=
    World.gates_fulfill (congrArg World.gates hEq)
      call.vow.owner
  have hOpen : commitments ≠ [] := by
    rw [← hBooks.opened, call.hRecord]
    rfl
  have hFresh :
      vowState ∉ fulfillments.map Entry.vowState := by
    rw [← hBooks.fulfillGates, World.fulfillRecorded,
      call.hGate]
    simp
  have hSome :
      (w'.records.lookup (.commitment call.vow.owner)).isSome =
        true := by
    rw [hEq, AccountMap.lookup_insert_eq, if_pos rfl]
    rfl
  refine ⟨?_, ?_, ?_, ?_, ?_, ?_, ?_, ?_, fun _ => hOpen, ?_,
    ?_, ?_, hBooks.commitsOnce, ?_⟩
  · rw [hRecord]
    exact hBooks.minted
  · rw [hRecord]
    exact hBooks.committed
  · rw [hRecord, List.map_append]
    exact hBooks.fulfilled.saturatingAdd _
  · rw [hRecord]
    exact hBooks.days
  · rw [hRecord]
    exact hBooks.highest
  · rw [hRecord]
    exact hScore
  · simp [hSome, hOpen]
  · intro _
    rw [hRecord]
    exact hBooks.named hOpen
  · intro entry hEntry
    rcases List.mem_append.mp hEntry with hOld | hNew
    · exact hBooks.matured entry hOld
    · rw [List.mem_singleton] at hNew
      rw [hNew]
      exact call.hMatured
  · intro v
    rw [(hGates v).1]
    exact hBooks.commitGates v
  · intro v
    rw [(hGates v).2, Bool.or_eq_true, hBooks.fulfillGates v,
      List.map_append, List.mem_append]
    simp [or_comm]
  · rw [List.map_append, List.map_singleton,
      ← List.concat_eq_append]
    exact hBooks.fulfillsOnce.concat hFresh

end Vow

------------------------------------------------------------
-- Runs
------------------------------------------------------------

namespace Vow

open MachineInt Fallible Transition

/- The record agrees with all that the history recorded. -/
def BooksKept
    (wallet : Pubkey)
    (history : List (Occurrence World Step))
    (w : World) :
    Prop :=
  KeepsBooks wallet (commitmentsOf wallet history)
    (fulfillmentsOf wallet history) w

theorem filterMap_singleton_toList
    {α β : Type}
    (f : α → Option β)
    (a : α) :
    [a].filterMap f = (f a).toList := by
  cases hValue : f a with
  | none => rw [List.filterMap_cons_none hValue]; rfl
  | some b => rw [List.filterMap_cons_some hValue]; rfl

theorem KeepsBooks.booksKept
    {wallet : Pubkey}
    {history : List (Occurrence World Step)}
    {o : Occurrence World Step}
    {commitment fulfillment : Option Entry}
    {w' : World}
    (hBooks :
      KeepsBooks wallet
        (commitmentsOf wallet history ++ commitment.toList)
        (fulfillmentsOf wallet history ++
          fulfillment.toList) w')
    (hCommit : commitmentBy wallet o = commitment)
    (hFulfill : fulfillmentBy wallet o = fulfillment) :
    BooksKept wallet (history ++ [o]) w' := by
  unfold BooksKept
  rw [commitmentsOf, fulfillmentsOf, List.filterMap_append,
    List.filterMap_append, filterMap_singleton_toList,
    filterMap_singleton_toList, hCommit, hFulfill]
  exact hBooks

/- A call for an identity of another wallet changes nothing. -/
theorem KeepsBooks.commit_other
    {env : Env}
    {w w' : World}
    {payer : Signer}
    {vowState wallet : Pubkey}
    {vow : VowState}
    {commitments fulfillments : List Entry}
    (hBooks : KeepsBooks wallet commitments fulfillments w)
    (hLookup : w.vows.lookup vowState = some vow)
    (hOther : vow.owner ≠ wallet)
    (hOk : recordCommitment env w payer vowState = .ok w') :
    KeepsBooks wallet commitments fulfillments w' := by
  rcases recordCommitment_ok hOk with ⟨call, hEq⟩
  have hFound := call.hLookup
  rw [hLookup, Option.some.injEq] at hFound
  subst hFound
  have hGates :=
    World.gates_commit (congrArg World.gates hEq) wallet
  refine hBooks.congr ?_ ?_ ?_
  · rw [hEq, AccountMap.lookup_insert_eq, if_neg]
    intro hSame
    exact hOther (Pubkey.commitment.inj hSame).symm
  · funext v
    simp [(hGates v).1, hOther.symm]
  · funext v
    exact (hGates v).2

theorem KeepsBooks.fulfill_other
    {env : Env}
    {w w' : World}
    {payer : Signer}
    {vowState wallet : Pubkey}
    {vow : VowState}
    {commitments fulfillments : List Entry}
    (hBooks : KeepsBooks wallet commitments fulfillments w)
    (hLookup : w.vows.lookup vowState = some vow)
    (hOther : vow.owner ≠ wallet)
    (hOk : recordFulfillment env w payer vowState = .ok w') :
    KeepsBooks wallet commitments fulfillments w' := by
  rcases recordFulfillment_ok hOk with ⟨call, hEq⟩
  have hFound := call.hLookup
  rw [hLookup, Option.some.injEq] at hFound
  subst hFound
  have hGates :=
    World.gates_fulfill (congrArg World.gates hEq) wallet
  refine hBooks.congr ?_ ?_ ?_
  · rw [hEq, AccountMap.lookup_insert_eq, if_neg]
    intro hSame
    exact hOther (Pubkey.commitment.inj hSame).symm
  · funext v
    exact (hGates v).1
  · funext v
    simp [(hGates v).2, hOther.symm]

/- Every step of the chain keeps the books. -/
theorem exec_keepsBooks
    {wallet : Pubkey}
    {history : List (Occurrence World Step)}
    {w w' : World}
    {step : Step}
    (hBooks : BooksKept wallet history w)
    (hExec : step.exec w = some w') :
    BooksKept wallet (history ++ [⟨w, step, w'⟩]) w' := by
  have hQuiet :
      w'.records = w.records → w'.gates = w.gates →
      KeepsBooks wallet
        (commitmentsOf wallet history ++ [])
        (fulfillmentsOf wallet history ++ []) w' := by
    intro hRecords hGates
    rw [List.append_nil, List.append_nil]
    refine hBooks.congr (congrArg _ hRecords) ?_ ?_
    · unfold World.commitRecorded
      rw [hGates]
    · unfold World.fulfillRecorded
      rw [hGates]
  rcases step with ⟨env, action⟩
  cases action with
  | instruction ix =>
      have hOk := Step.exec_instruction_iff.mp hExec
      cases ix with
      | recordCommitment payer vowState =>
          rcases recordCommitment_ok hOk with ⟨call, _⟩
          have hEntry :=
            World.entryOf_of_lookup call.hLookup wallet
          refine KeepsBooks.booksKept ?_ hEntry
            (rfl : _ = (none : Option Entry))
          rw [Option.toList_none, List.append_nil]
          by_cases hOwner : call.vow.owner = wallet
          · subst hOwner
            rw [if_pos rfl]
            exact hBooks.commit call.hLookup hOk
          · rw [if_neg hOwner, Option.toList_none,
              List.append_nil]
            exact hBooks.commit_other call.hLookup hOwner hOk
      | recordFulfillment payer vowState =>
          rcases recordFulfillment_ok hOk with ⟨call, _⟩
          have hEntry :=
            World.entryOf_of_lookup call.hLookup wallet
          refine KeepsBooks.booksKept ?_
            (rfl : _ = (none : Option Entry)) hEntry
          rw [Option.toList_none, List.append_nil]
          by_cases hOwner : call.vow.owner = wallet
          · subst hOwner
            rw [if_pos rfl]
            exact hBooks.fulfill call.hLookup hOk
          · rw [if_neg hOwner, Option.toList_none,
              List.append_nil]
            exact hBooks.fulfill_other call.hLookup hOwner hOk
      | _ =>
          have hKept :=
            execute_recordsKept hOk (by simp) (by simp)
          exact (hQuiet hKept.1 hKept.2).booksKept rfl rfl
  | _ =>
      have hSame := Option.some.inj hExec
      subst hSame
      exact (hQuiet rfl rfl).booksKept rfl rfl

theorem genesis_keepsBooks
    (lamports : Lamports)
    (wallet : Pubkey) :
    KeepsBooks wallet [] [] (World.genesis lamports) := by
  have hEmpty :
      computeScore emptyRecord =
        .ok emptyRecord.commitmentScore := by
    decide
  refine ⟨Unsigned.totals_nil, Unsigned.totals_nil,
    Unsigned.totals_nil, Unsigned.totals_nil, rfl, hEmpty, ?_,
    ?_, ?_, ?_, ?_, ?_, List.nodup_nil, List.nodup_nil⟩
  · simp [World.genesis]
  · simp
  · simp
  · simp
  · intro v
    simp [World.commitRecorded, World.genesis]
  · intro v
    simp [World.fulfillRecorded, World.genesis]

/-
  After every run the record of every wallet is what the
  calls of the run recorded: its counters are their clipped
  sums, no identity was counted twice, and the score is that
  of the counters.
-/
theorem commitment_record_exact
    (lamports : Lamports)
    (steps : List Step)
    (wallet : Pubkey) :
    KeepsBooks wallet
      (commitmentsOf wallet
        ((World.genesis lamports).trace steps))
      (fulfillmentsOf wallet
        ((World.genesis lamports).trace steps))
      ((World.genesis lamports).run steps) :=
  @trace_history_invariant World Step Step.exec
    (fun _ => True) (BooksKept wallet)
    (fun _ _ _ _ hBefore hExec _ =>
      exec_keepsBooks hBefore hExec)
    steps _ (genesis_keepsBooks lamports wallet)
    (fun _ _ => trivial)

end Vow
