import VowProtocol.Correctness.Reputation
import VowProtocol.Program.Events

/-
  What an indexer learns from the events alone.

  An indexer that folds the events of a run, and never reads
  an account, knows of every identity its owner, class,
  principal, yield, maturity, activity, session counter,
  reputation and pending payout, as they are on chain. The
  end of the lock is right as long as no fast unlock has
  succeeded: that instruction emits nothing.

  Key definitions include:
    * `IdentityView`
    * `Event.revise`
    * `Indexer.read`
    * `replay`
    * `Follows`

  Key theorems include:
    * `Follows.revise`
    * `execute_follows`
    * `replay_follows`
-/

------------------------------------------------------------
-- The Indexer
------------------------------------------------------------

namespace Vow

open MachineInt Fallible

/- What the indexer keeps of an identity. -/
structure IdentityView where
  owner : Pubkey
  stakeClass : U8
  principalLamports : U64
  yieldBalance : U64
  totalHarvested : U64
  unlockAt : I64
  matured : Bool
  activeStake : Bool
  sessionNonce : U64
  totalCommitments : U32
  totalFulfilled : U32
  highestClassEver : U8
  lamportsOwed : Option U64
  deriving DecidableEq

/- The gain that counts as harvested. -/
def positiveGain
    (gain : I64) :
    U64 :=
  (if 0 ≤ gain then gain else 0 : I64).toUnsigned 64

/- The view of an identity from its accounts. -/
def viewOf
    (unlockAt : I64)
    (vow : VowState)
    (lamportsOwed : Option U64) :
    IdentityView where
  owner := vow.owner
  stakeClass := vow.stakeClass
  principalLamports := vow.principalLamports
  yieldBalance := vow.yieldBalance
  totalHarvested := vow.totalHarvested
  unlockAt := unlockAt
  matured := vow.matured
  activeStake := vow.activeStake
  sessionNonce := vow.sessionNonce
  totalCommitments := vow.totalCommitments
  totalFulfilled := vow.totalFulfilled
  highestClassEver := vow.highestClassEver
  lamportsOwed := lamportsOwed

/- The identity whose view an event revises. -/
def Event.subject : Event → Option Pubkey
| .vowMatured assetId _ _ => some (.vow assetId)
| .vowUnstakeBegun assetId _ _ => some (.vow assetId)
| .vowUnstaked assetId _ _ => some (.vow assetId)
| .vowStakeActivated assetId _ _ _ _ _ => some (.vow assetId)
| .harvested assetId _ _ _ _ => some (.vow assetId)
| .yieldWithdrawn assetId _ _ => some (.vow assetId)
| .yieldDeposited assetId _ _ => some (.vow assetId)
| .yieldSpent assetId _ _ _ _ => some (.vow assetId)
| .sessionCreated vowState _ _ _ => some vowState
| .stakeAdded assetId _ _ _ _ _ _ => some (.vow assetId)
| _ => none

/- How an event revises the view of its subject. -/
def Event.revise
    (view : IdentityView) :
    Event → IdentityView
| .vowMatured _ _ _ => { view with matured := true }
| .vowUnstakeBegun _ _ lamportsOwed =>
    { view with
      yieldBalance := 0
      lamportsOwed := some lamportsOwed }
| .vowUnstaked _ _ _ =>
    { view with
      activeStake := false
      totalFulfilled :=
        if view.matured then
          view.totalFulfilled.saturatingAdd 1
        else view.totalFulfilled
      lamportsOwed := none }
| .vowStakeActivated _ _ newClass stakeLamports _ unlockAt =>
    { view with
      stakeClass := newClass
      principalLamports := stakeLamports
      unlockAt := unlockAt
      matured := false
      activeStake := true
      totalCommitments :=
        view.totalCommitments.saturatingAdd 1
      highestClassEver :=
        if view.highestClassEver < newClass then newClass
        else view.highestClassEver }
| .harvested _ _ gain yieldCredited _ =>
    { view with
      yieldBalance :=
        view.yieldBalance.saturatingAdd yieldCredited
      totalHarvested :=
        view.totalHarvested.saturatingAdd
          (positiveGain gain) }
| .yieldWithdrawn _ _ amount =>
    { view with
      yieldBalance := view.yieldBalance.saturatingSub amount }
| .yieldDeposited _ _ amount =>
    { view with
      yieldBalance := view.yieldBalance.saturatingAdd amount }
| .yieldSpent _ _ _ amount _ =>
    { view with
      yieldBalance := view.yieldBalance.saturatingSub amount }
| .sessionCreated _ _ _ creationNonce =>
    { view with
      sessionNonce :=
        Unsigned.ofNat 64 (creationNonce.val + 1) }
| .stakeAdded _ _ _ newPrincipal oldClass newClass unlockAt =>
    { view with
      stakeClass := newClass
      principalLamports := newPrincipal
      unlockAt := unlockAt
      matured :=
        if oldClass < newClass then false else view.matured
      highestClassEver :=
        if view.highestClassEver < newClass then newClass
        else view.highestClassEver }
| _ => view

/- The views by identity account. -/
abbrev Indexer := Pubkey → Option IdentityView

/- A mint opens a view; any other event revises its own. -/
def Indexer.read
    (index : Indexer)
    (event : Event) :
    Indexer :=
  fun vowState =>
    match event with
    | .vowMinted assetId owner stakeClass stakeLamports _
        unlockAt =>
        if vowState = .vow assetId then
          some {
            owner := owner
            stakeClass := stakeClass
            principalLamports := stakeLamports
            yieldBalance := 0
            totalHarvested := 0
            unlockAt := unlockAt
            matured := false
            activeStake := true
            sessionNonce := 0
            totalCommitments := 1
            totalFulfilled := 0
            highestClassEver := stakeClass
            lamportsOwed := none }
        else index vowState
    | event =>
        if event.subject = some vowState then
          (index vowState).map event.revise
        else index vowState

/- The views after a list of events. -/
def replay
    (events : List Event) :
    Indexer :=
  events.foldl Indexer.read fun _ => none

end Vow

------------------------------------------------------------
-- Reading Events
------------------------------------------------------------

namespace Vow

open MachineInt Fallible

/- Reading an event that has a subject. -/
theorem Indexer.read_of_subject
    {event : Event}
    {vowState : Pubkey}
    (hSubject : event.subject = some vowState)
    (index : Indexer)
    (v : Pubkey) :
    index.read event v =
      if v = vowState then (index v).map event.revise
      else index v := by
  cases event with
  | vowMinted => exact absurd hSubject (by simp [Event.subject])
  | _ =>
      simp only [Indexer.read, hSubject,
        Option.some.injEq, eq_comm]

/- Reading several events of one identity. -/
theorem foldl_read_of_subject
    {events : List Event}
    {vowState : Pubkey}
    (hSubjects :
      ∀ event ∈ events, event.subject = some vowState)
    (index : Indexer)
    (v : Pubkey) :
    events.foldl Indexer.read index v =
      if v = vowState then
        (index v).map fun view =>
          events.foldl (fun view event =>
            event.revise view) view
      else index v := by
  induction events generalizing index with
  | nil => simp
  | cons event events ih =>
      have hHead := hSubjects event List.mem_cons_self
      have hTail :
          ∀ later ∈ events,
            later.subject = some vowState := by
        intro later hLater
        exact hSubjects later
          (List.mem_cons_of_mem _ hLater)
      rw [List.foldl_cons, ih hTail,
        Indexer.read_of_subject hHead]
      by_cases hHere : v = vowState
      · rw [if_pos hHere, if_pos hHere, if_pos hHere,
          Option.map_map]
        rfl
      · rw [if_neg hHere, if_neg hHere, if_neg hHere]

end Vow

------------------------------------------------------------
-- Following The Chain
------------------------------------------------------------

namespace Vow

open MachineInt Fallible

/- What the escrow of an identity owes, if there is one. -/
def World.owedAt
    (w : World)
    (vowState : Pubkey) :
    Option U64 :=
  (w.escrows.lookup (.unstake vowState)).map
    fun escrow => escrow.lamportsOwed

/-
  The view of one identity is the one of its accounts. The
  end of the lock only has to be right when `lockKnown` holds.
-/
inductive Seen
    (lockKnown : Prop)
    (owed : Option U64) :
    Option VowState → Option IdentityView → Prop where
  | unknown :
      Seen lockKnown owed none none
  | known
      (vow : VowState)
      (unlockAt : I64)
      (hUnlock : lockKnown → unlockAt = vow.unlockAt) :
      Seen lockKnown owed (some vow)
        (some (viewOf unlockAt vow owed))

/- The index shows every identity and no other. -/
def Follows
    (lockKnown : Prop)
    (index : Indexer)
    (w : World) :
    Prop :=
  ∀ vowState,
    Seen lockKnown (w.owedAt vowState)
      (w.vows.lookup vowState) (index vowState)

/- Nothing to follow when no identity changes. -/
theorem Follows.keep
    {lockKnown : Prop}
    {index : Indexer}
    {w w' : World}
    (hFollows : Follows lockKnown index w)
    (hVows : w'.vows = w.vows)
    (hEscrows : w'.escrows = w.escrows) :
    Follows lockKnown index w' := by
  intro vowState
  unfold World.owedAt
  rw [hVows, hEscrows]
  exact hFollows vowState

/-
  A step that rewrites one identity is followed when its
  events revise the view in the same way.
-/
theorem Follows.revise
    {lockKnown : Prop}
    {index : Indexer}
    {w w' : World}
    {vowState : Pubkey}
    {vow vow' : VowState}
    {events : List Event}
    (hFollows : Follows lockKnown index w)
    (hLookup : w.vows.lookup vowState = some vow)
    (hVows : w'.vows = w.vows.insert vowState vow')
    (hEscrows :
      ∀ v, v ≠ vowState → w'.owedAt v = w.owedAt v)
    (hSubjects :
      ∀ event ∈ events, event.subject = some vowState)
    (hRevise :
      ∀ unlockAt, (lockKnown → unlockAt = vow.unlockAt) →
        ∃ unlockAt', (lockKnown → unlockAt' = vow'.unlockAt) ∧
          events.foldl (fun view event => event.revise view)
              (viewOf unlockAt vow (w.owedAt vowState)) =
            viewOf unlockAt' vow' (w'.owedAt vowState)) :
    Follows lockKnown (events.foldl Indexer.read index) w' := by
  intro v
  rw [hVows, AccountMap.lookup_insert_eq,
    foldl_read_of_subject hSubjects]
  by_cases hHere : v = vowState
  · subst hHere
    rw [if_pos rfl, if_pos rfl]
    have hSeen := hFollows v
    rw [hLookup] at hSeen
    generalize hView : index v = view at hSeen
    cases hSeen with
    | known vow unlockAt hUnlock =>
        rcases hRevise unlockAt hUnlock with
          ⟨unlockAt', hUnlock', hEq⟩
        rw [Option.map_some, hEq]
        exact Seen.known vow' unlockAt' hUnlock'
  · rw [if_neg hHere, if_neg hHere, hEscrows v hHere]
    exact hFollows v

/- The same when the lock of the identity stays. -/
theorem Follows.revise_same_lock
    {lockKnown : Prop}
    {index : Indexer}
    {w w' : World}
    {vowState : Pubkey}
    {vow vow' : VowState}
    {events : List Event}
    (hFollows : Follows lockKnown index w)
    (hLookup : w.vows.lookup vowState = some vow)
    (hVows : w'.vows = w.vows.insert vowState vow')
    (hEscrows :
      ∀ v, v ≠ vowState → w'.owedAt v = w.owedAt v)
    (hSubjects :
      ∀ event ∈ events, event.subject = some vowState)
    (hUnlock : vow'.unlockAt = vow.unlockAt)
    (hRevise :
      ∀ unlockAt,
        events.foldl (fun view event => event.revise view)
            (viewOf unlockAt vow (w.owedAt vowState)) =
          viewOf unlockAt vow' (w'.owedAt vowState)) :
    Follows lockKnown (events.foldl Indexer.read index) w' := by
  refine hFollows.revise hLookup hVows hEscrows hSubjects ?_
  intro unlockAt hExact
  refine ⟨unlockAt, ?_, hRevise unlockAt⟩
  intro hHolds
  rw [hUnlock]
  exact hExact hHolds

/- One event about one identity, without its escrow. -/
theorem Follows.revise_one
    {lockKnown : Prop}
    {index : Indexer}
    {w w' : World}
    {vowState : Pubkey}
    {vow vow' : VowState}
    {event : Event}
    (hFollows : Follows lockKnown index w)
    (hLookup : w.vows.lookup vowState = some vow)
    (hVows : w'.vows = w.vows.insert vowState vow')
    (hEscrows : w'.escrows = w.escrows)
    (hSubject : event.subject = some vowState)
    (hUnlock : vow'.unlockAt = vow.unlockAt)
    (hRevise :
      ∀ unlockAt,
        event.revise
            (viewOf unlockAt vow (w.owedAt vowState)) =
          viewOf unlockAt vow' (w.owedAt vowState)) :
    Follows lockKnown ([event].foldl Indexer.read index)
      w' := by
  have hOwed : w'.owedAt = w.owedAt := by
    unfold World.owedAt
    rw [hEscrows]
  refine hFollows.revise_same_lock hLookup hVows ?_ ?_ hUnlock
    ?_
  · intro v _
    rw [hOwed]
  · intro other hMem
    rw [List.mem_singleton.mp hMem]
    exact hSubject
  · intro unlockAt
    rw [hOwed]
    exact hRevise unlockAt

end Vow

------------------------------------------------------------
-- Harvests
------------------------------------------------------------

namespace Vow

open MachineInt Fallible

/-
  The events of a step can be computed, and reading them
  follows it.
-/
def Reported
    (lockKnown : Prop)
    (index : Indexer)
    (w' : World)
    (events : Result (List Event)) :
    Prop :=
  ∃ log,
    events = .ok log ∧
      Follows lockKnown (log.foldl Indexer.read index) w'

/- The maturity event sets the flag when the check does. -/
theorem maturedEvents_revise
    (now unlockAt : I64)
    (vow : VowState)
    (owed : Option U64) :
    (maturedEvents now vow).foldl
        (fun view event => event.revise view)
        (viewOf unlockAt vow owed) =
      viewOf unlockAt (matureIfDue now vow) owed := by
  unfold maturedEvents matureIfDue
  split
  · rfl
  · rfl

theorem maturedEvents_subject
    {now : I64}
    {vow : VowState}
    {event : Event}
    (hMem : event ∈ maturedEvents now vow) :
    event.subject = some (.vow vow.assetId) := by
  unfold maturedEvents at hMem
  split at hMem
  · rw [List.mem_singleton.mp hMem]
    rfl
  · exact absurd hMem (by simp)

theorem positiveGain_of_nonpos
    {gain : I64}
    (hGain : gain ≤ 0) :
    positiveGain gain = 0 := by
  have hZero : (if 0 ≤ gain then gain else 0 : I64) = 0 := by
    split
    · rename_i hPos
      rw [Signed.le_def] at hGain hPos
      exact Signed.ext (by omega)
    · rfl
  unfold positiveGain
  rw [hZero]
  decide

theorem positiveGain_of_pos
    {gain : I64}
    (hGain : ¬ gain ≤ 0) :
    positiveGain gain = gain.toUnsigned 64 := by
  have hPos : (0 : I64) ≤ gain := by
    rw [Signed.le_def, Signed.val_zero] at hGain ⊢
    omega
  unfold positiveGain
  rw [if_pos hPos]

/- A credit burns the shares that its event reports. -/
theorem creditGain_burns
    {idnft idnft' : VowState}
    {config config' : ProtocolConfig}
    {amount harvested : U64}
    {carry : I64}
    (hOk :
      creditGain idnft config amount harvested carry =
        .ok (idnft', config')) :
    ∃ burned shares,
      sharesToBurn amount config.currentSharePrice =
        .ok burned ∧
      idnft' = { idnft with
        shares := shares
        yieldBalance :=
          idnft.yieldBalance.saturatingAdd amount
        totalHarvested :=
          idnft.totalHarvested.saturatingAdd harvested
        accruedGain := carry } := by
  unfold creditGain at hOk
  simp only [bind_eq_ok_iff, pure_eq_ok_iff,
    Prod.mk.injEq] at hOk
  rcases hOk with
    ⟨burned, hBurned, _, _, shares, _, hVow, _⟩
  exact ⟨burned, shares, hBurned, hVow.symm⟩

/-
  A harvest reports what it credits, and every positive gain
  counts as harvested, whatever the mode.
-/
theorem harvestGain_report
    {idnft idnft' : VowState}
    {config config' : ProtocolConfig}
    (hGain :
      harvestGain idnft config = .ok (idnft', config')) :
    ∃ report shares accruedGain,
      harvestReport idnft config = .ok report ∧
      idnft' = { idnft with
        shares := shares
        yieldBalance :=
          idnft.yieldBalance.saturatingAdd report.1
        totalHarvested :=
          idnft.totalHarvested.saturatingAdd
            (positiveGain idnft.accruedGain)
        accruedGain := accruedGain } := by
  unfold harvestGain at hGain
  unfold harvestReport
  cases hMode : idnft.yieldMode with
  | compound =>
      rw [hMode] at hGain
      dsimp only at hGain ⊢
      rw [Except.ok.injEq, Prod.mk.injEq] at hGain
      refine ⟨(0, 0), idnft.shares, 0, rfl, ?_⟩
      rw [← hGain.1, Unsigned.saturatingAdd_zero]
      rfl
  | treasury =>
      rw [hMode] at hGain
      dsimp only at hGain ⊢
      by_cases hNone : idnft.accruedGain ≤ 0
      · rw [if_pos hNone, Except.ok.injEq,
          Prod.mk.injEq] at hGain
        refine ⟨(0, 0), idnft.shares, 0, if_pos hNone, ?_⟩
        rw [← hGain.1, positiveGain_of_nonpos hNone,
          Unsigned.saturatingAdd_zero,
          Unsigned.saturatingAdd_zero]
      · rw [if_neg hNone] at hGain
        rw [if_neg hNone, positiveGain_of_pos hNone]
        rcases creditGain_burns hGain with
          ⟨burned, shares, hBurned, hVow⟩
        refine ⟨_, shares, 0,
          bind_eq_ok_iff.mpr ⟨burned, hBurned, rfl⟩, ?_⟩
        rw [hVow, hMode]
  | hybrid =>
      rw [hMode] at hGain
      dsimp only at hGain ⊢
      by_cases hNone : idnft.accruedGain ≤ 0
      · rw [if_pos hNone, Except.ok.injEq,
          Prod.mk.injEq] at hGain
        refine ⟨(0, 0), idnft.shares, 0, if_pos hNone, ?_⟩
        rw [← hGain.1, positiveGain_of_nonpos hNone,
          Unsigned.saturatingAdd_zero,
          Unsigned.saturatingAdd_zero]
      · rw [if_neg hNone] at hGain
        rw [if_neg hNone, positiveGain_of_pos hNone]
        rcases creditGain_burns hGain with
          ⟨burned, shares, hBurned, hVow⟩
        refine ⟨_, shares, idnft'.accruedGain,
          bind_eq_ok_iff.mpr ⟨burned, hBurned, rfl⟩, ?_⟩
        rw [hVow, hMode]

theorem harvest_follows
    {lockKnown : Prop}
    {index : Indexer}
    {env : Env}
    {w w' : World}
    {vowState : Pubkey}
    (hFollows : Follows lockKnown index w)
    (hOk : harvest env w vowState = .ok w') :
    Reported lockKnown index w'
      (harvestEvents env w vowState) := by
  rcases harvest_eq_ok_iff.mp hOk with
    ⟨call, vow', config', hGain, hEq⟩
  rcases harvestGain_report hGain with
    ⟨report, shares, accruedGain, hReport, hVow⟩
  have hEvents :
      harvestEvents env w vowState =
        .ok (maturedEvents env.unixTimestamp call.vow ++
          [.harvested call.settled.assetId call.settled.owner
            call.settled.accruedGain report.1 report.2]) := by
    unfold harvestEvents
    simp only [bind_eq_ok_iff, loadConfig_eq_ok_iff,
      loadVow_eq_ok_iff]
    exact ⟨call.config, call.hConfig, call.vow,
      ⟨call.hLookup, call.hSeeds⟩, call.settled,
      call.hSettle, report, hReport, rfl⟩
  have hSettled := settleIdnft_eq_settled call.hSettle
  rcases matureIfDue_cases env.unixTimestamp call.vow with
    ⟨matured, hDue, _⟩
  refine ⟨_, hEvents, ?_⟩
  refine hFollows.revise_same_lock call.hLookup
    (show w'.vows = w.vows.insert vowState vow' by
      rw [hEq]) ?_ ?_ ?_ ?_
  · intro v _
    rw [hEq]
    rfl
  · intro event hMem
    rcases List.mem_append.mp hMem with hMatured | hHarvested
    · exact (maturedEvents_subject hMatured).trans
        (congrArg some call.hSeeds.symm)
    · rw [List.mem_singleton.mp hHarvested, hSettled, hDue]
      exact congrArg some call.hSeeds.symm
  · rw [hVow, hSettled, hDue]
    rfl
  · intro unlockAt
    have hOwed : w'.owedAt vowState = w.owedAt vowState := by
      rw [hEq]
      rfl
    rw [List.foldl_append, maturedEvents_revise, hVow,
      hSettled, hDue, hOwed]
    rfl

end Vow

------------------------------------------------------------
-- Stakes
------------------------------------------------------------

namespace Vow

open MachineInt Fallible

/- A mint opens the view of its identity. -/
theorem mintVow_follows
    {lockKnown : Prop}
    {index : Indexer}
    {env : Env}
    {w w' : World}
    {owner : Signer}
    {stakeLamports : U64}
    {yieldMode : YieldMode}
    (hFollows : Follows lockKnown index w)
    (hEscrows : EscrowOwned w)
    (hOk :
      mintVow env w owner stakeLamports yieldMode =
        .ok w') :
    Reported lockKnown index w'
      (mintVowEvents env w owner stakeLamports) := by
  unfold mintVow at hOk
  simp only [bind_eq_ok_iff, loadConfig_eq_ok_iff,
    require_eq_ok_iff, okOr_eq_ok_iff, pure_eq_ok_iff,
    exists_const] at hOk
  rcases hOk with
    ⟨config, hConfig, hFresh, _, _, stakeClass, hClass, _, _,
      _, shares, hShares, lock, hLock, unlockAt, hUnlock, _,
      _, _, _, hEq⟩
  have hEvents :
      mintVowEvents env w owner stakeLamports =
        .ok [.vowMinted (.vowAsset config.totalMinted)
          owner.key stakeClass stakeLamports shares
          unlockAt] := by
    unfold mintVowEvents
    simp only [bind_eq_ok_iff, loadConfig_eq_ok_iff,
      okOr_eq_ok_iff]
    exact ⟨config, hConfig, stakeClass, hClass, shares,
      hShares, lock, hLock, unlockAt, hUnlock, rfl⟩
  refine ⟨_, hEvents, ?_⟩
  subst hEq
  intro v
  dsimp only [World.owedAt]
  rw [AccountMap.lookup_insert_eq, List.foldl_cons,
    List.foldl_nil]
  dsimp only [Indexer.read]
  by_cases hHere : v = .vow (.vowAsset config.totalMinted)
  · subst hHere
    rw [if_pos rfl, if_pos rfl,
      hEscrows.lookup_none hFresh, Option.map_none]
    exact Seen.known
      (mintedVow env config owner stakeLamports yieldMode
        stakeClass shares unlockAt) unlockAt (fun _ => rfl)
  · rw [if_neg hHere, if_neg hHere]
    exact hFollows v

/- A top-up inside the class only moves the principal. -/
theorem Event.revise_stakeAdded_kept
    (view : IdentityView)
    {assetId owner : Pubkey}
    {lamportsAdded newPrincipal : U64}
    {oldClass newClass : U8}
    {unlockAt : I64}
    (hHighest : ¬ view.highestClassEver < newClass)
    (hClass : ¬ oldClass < newClass) :
    Event.revise view
        (.stakeAdded assetId owner lamportsAdded
          newPrincipal oldClass newClass unlockAt) =
      { view with
        stakeClass := newClass
        principalLamports := newPrincipal
        unlockAt := unlockAt } := by
  simp only [Event.revise]
  rw [if_neg hHighest, if_neg hClass]

/- A top-up to a higher class restarts the lock. -/
theorem Event.revise_stakeAdded_raised
    (view : IdentityView)
    {assetId owner : Pubkey}
    {lamportsAdded newPrincipal : U64}
    {oldClass newClass : U8}
    {unlockAt : I64}
    (hClass : oldClass < newClass) :
    Event.revise view
        (.stakeAdded assetId owner lamportsAdded
          newPrincipal oldClass newClass unlockAt) =
      { view with
        stakeClass := newClass
        principalLamports := newPrincipal
        unlockAt := unlockAt
        matured := false
        highestClassEver :=
          if view.highestClassEver < newClass then newClass
          else view.highestClassEver } := by
  simp only [Event.revise]
  rw [if_pos hClass]

/-
  A top-up reports the class of the new principal, which is
  the class that the account ends up with.
-/
theorem addStake_follows
    {lockKnown : Prop}
    {index : Indexer}
    {env : Env}
    {w w' : World}
    {owner : Signer}
    {vowState : Pubkey}
    {lamportsToAdd : U64}
    (hFollows : Follows lockKnown index w)
    (hGraded :
      ∀ vow, w.vows.lookup vowState = some vow →
        Graded vow)
    (hOk :
      addStake env w owner vowState lamportsToAdd =
        .ok w') :
    Reported lockKnown index w'
      (addStakeEvents env w owner vowState
        lamportsToAdd) := by
  unfold addStake at hOk
  simp only [bind_eq_ok_iff, loadConfig_eq_ok_iff,
    loadVowAsOwner_eq_ok_iff, require_eq_ok_iff,
    okOr_eq_ok_iff, pure_eq_ok_iff, exists_const] at hOk
  rcases hOk with
    ⟨config, hConfig, vow, ⟨hLookup, hSeeds, hOwner⟩, _, _,
      _, settled, hSettle, _, _, principal, hPrincipal,
      newClass, hClass, _, _, upgraded, hUpgrade, shares, _,
      _, _, hEq⟩
  have hEvents :
      addStakeEvents env w owner vowState lamportsToAdd =
        .ok [.stakeAdded upgraded.assetId upgraded.owner
          lamportsToAdd principal settled.stakeClass
          newClass upgraded.unlockAt] := by
    unfold addStakeEvents
    simp only [bind_eq_ok_iff, loadConfig_eq_ok_iff,
      loadVowAsOwner_eq_ok_iff, okOr_eq_ok_iff]
    exact ⟨config, hConfig, vow, ⟨hLookup, hSeeds, hOwner⟩,
      settled, hSettle, principal, hPrincipal, newClass,
      hClass, upgraded, hUpgrade, rfl⟩
  have hSettled := settleIdnft_eq_settled hSettle
  refine ⟨_, hEvents, ?_⟩
  refine hFollows.revise hLookup
    (show w'.vows = w.vows.insert vowState
        { upgraded with
          principalLamports := principal
          shares := shares } by rw [← hEq])
    ?_ ?_ ?_
  · intro v _
    rw [← hEq]
    rfl
  · intro event hMem
    rw [List.mem_singleton.mp hMem, hSeeds]
    rcases upgradeClass_cases hUpgrade with
      ⟨_, hSame⟩ | ⟨_, _, _, hRaised⟩
    · rw [hSame, hSettled]
      rfl
    · rw [hRaised, hSettled]
      rfl
  · intro unlockAt hUnlock
    refine ⟨upgraded.unlockAt, fun _ => rfl, ?_⟩
    have hOwed : w'.owedAt vowState = w.owedAt vowState := by
      rw [← hEq]
      rfl
    rw [hOwed, List.foldl_cons, List.foldl_nil]
    rcases upgradeClass_cases hUpgrade with
      ⟨hNot, hSame⟩ | ⟨hLess, _, _, hRaised⟩
    · -- The class of a larger principal is not lower.
      have hMore :
          vow.principalLamports.val ≤ principal.val := by
        rw [Unsigned.checkedAdd_eq_some_iff, hSettled]
          at hPrincipal
        exact hPrincipal ▸ Nat.le_add_right _ _
      have hOld := hGraded vow hLookup
      rw [hSettled] at hNot
      have hKept := classForStake_same hMore hOld.graded
        hClass hNot
      have hSameClass : newClass = vow.stakeClass := by
        rw [hClass] at hKept
        exact Except.ok.inj hKept
      have hHighest :
          ¬ vow.highestClassEver < vow.stakeClass := by
        rw [Unsigned.lt_def]
        exact Nat.not_lt.mpr hOld.highest
      have hEqual : ¬ vow.stakeClass < vow.stakeClass := by
        rw [Unsigned.lt_def]
        exact Nat.lt_irrefl _
      rw [hSame, hSettled, hSameClass]
      exact Event.revise_stakeAdded_kept
        (viewOf unlockAt vow (w.owedAt vowState))
        hHighest hEqual
    · rw [hRaised, hSettled]
      rw [hSettled] at hLess
      exact Event.revise_stakeAdded_raised
        (viewOf unlockAt vow (w.owedAt vowState))
        hLess

/- A re-activation restarts the view. -/
theorem activateStake_follows
    {lockKnown : Prop}
    {index : Indexer}
    {env : Env}
    {w w' : World}
    {owner : Signer}
    {vowState : Pubkey}
    {stakeLamports : U64}
    {yieldMode : YieldMode}
    (hFollows : Follows lockKnown index w)
    (hOk :
      activateStake env w owner vowState stakeLamports
        yieldMode = .ok w') :
    Reported lockKnown index w'
      (activateStakeEvents env w owner vowState
        stakeLamports) := by
  unfold activateStake at hOk
  simp only [bind_eq_ok_iff, loadConfig_eq_ok_iff,
    loadVowAsOwner_eq_ok_iff, require_eq_ok_iff,
    okOr_eq_ok_iff, pure_eq_ok_iff, exists_const] at hOk
  rcases hOk with
    ⟨config, hConfig, vow, ⟨hLookup, hSeeds, hOwner⟩, _,
      settled, hSettle, newClass, hClass, _, _, shares,
      hShares, lock, hLock, unlockAt, hUnlock, _, _, hEq⟩
  have hEvents :
      activateStakeEvents env w owner vowState
          stakeLamports =
        .ok [.vowStakeActivated vow.assetId vow.owner
          newClass stakeLamports shares unlockAt] := by
    unfold activateStakeEvents
    simp only [bind_eq_ok_iff, loadConfig_eq_ok_iff,
      loadVowAsOwner_eq_ok_iff, okOr_eq_ok_iff]
    exact ⟨config, hConfig, vow, ⟨hLookup, hSeeds, hOwner⟩,
      newClass, hClass, shares, hShares, lock, hLock,
      unlockAt, hUnlock, rfl⟩
  rw [settleIdnft_eq_settled hSettle] at hEq
  subst hEq
  refine ⟨_, hEvents, ?_⟩
  refine hFollows.revise hLookup rfl ?_ ?_ ?_
  · intro v _
    rfl
  · intro event hMem
    rw [List.mem_singleton.mp hMem, hSeeds]
    rfl
  · intro _ _
    exact ⟨unlockAt, fun _ => rfl, rfl⟩

/- A begun exit matures the view and records the debt. -/
theorem beginUnstake_follows
    {lockKnown : Prop}
    {index : Indexer}
    {env : Env}
    {w w' : World}
    {owner : Signer}
    {vowState : Pubkey}
    (hFollows : Follows lockKnown index w)
    (hOk : beginUnstake env w owner vowState = .ok w') :
    Reported lockKnown index w'
      (beginUnstakeEvents env w owner vowState) := by
  unfold beginUnstake at hOk
  simp only [bind_eq_ok_iff, loadConfig_eq_ok_iff,
    loadVowAsOwner_eq_ok_iff, require_eq_ok_iff,
    okOr_eq_ok_iff, pure_eq_ok_iff, exists_const] at hOk
  rcases hOk with
    ⟨config, hConfig, vow, ⟨hLookup, hSeeds, hOwner⟩, _, _,
      _, _, _, settled, hSettle, value, hValue, lamportsOwed,
      hOwed, _, _, hEq⟩
  have hEvents :
      beginUnstakeEvents env w owner vowState =
        .ok (maturedEvents env.unixTimestamp vow ++
          [.vowUnstakeBegun settled.assetId settled.owner
            lamportsOwed]) := by
    unfold beginUnstakeEvents
    simp only [bind_eq_ok_iff, loadConfig_eq_ok_iff,
      loadVowAsOwner_eq_ok_iff, okOr_eq_ok_iff]
    exact ⟨config, hConfig, vow, ⟨hLookup, hSeeds, hOwner⟩,
      settled, hSettle, value, hValue, lamportsOwed, hOwed,
      rfl⟩
  have hSettled := settleIdnft_eq_settled hSettle
  rcases matureIfDue_cases env.unixTimestamp vow with
    ⟨matured, hDue, _⟩
  refine ⟨_, hEvents, ?_⟩
  refine hFollows.revise_same_lock hLookup
    (show w'.vows = w.vows.insert vowState
        { settled with shares := 0, yieldBalance := 0 } by
      rw [← hEq]) ?_ ?_ ?_ ?_
  · intro v hOther
    rw [← hEq]
    unfold World.owedAt
    rw [AccountMap.lookup_insert_eq, if_neg]
    intro hSame
    exact hOther (Pubkey.unstake.inj hSame)
  · intro event hMem
    rcases List.mem_append.mp hMem with hMatured | hBegun
    · rw [hSeeds]
      exact maturedEvents_subject hMatured
    · rw [List.mem_singleton.mp hBegun, hSeeds, hSettled,
        hDue]
      rfl
  · rw [hSettled, hDue]
    rfl
  · intro unlockAt
    have hDebt :
        w'.owedAt vowState = some lamportsOwed := by
      rw [← hEq]
      unfold World.owedAt
      rw [AccountMap.lookup_insert_eq, if_pos rfl]
      rfl
    rw [List.foldl_append, maturedEvents_revise, hSettled,
      hDue, hDebt]
    rfl

/- A completed exit settles the debt. -/
theorem completeUnstake_follows
    {lockKnown : Prop}
    {index : Indexer}
    {env : Env}
    {w w' : World}
    {owner : Signer}
    {vowState : Pubkey}
    (hFollows : Follows lockKnown index w)
    (hOk : completeUnstake env w owner vowState = .ok w') :
    Reported lockKnown index w'
      (completeUnstakeEvents w owner vowState) := by
  rcases completeUnstake_eq_ok_iff.mp hOk with ⟨call, hEq⟩
  have hEvents :
      completeUnstakeEvents w owner vowState =
        .ok [.vowUnstaked call.vow.assetId owner.key
          (payAmount call.escrow.lamportsOwed w.reserve
            call.config.totalPendingUnstake)] := by
    unfold completeUnstakeEvents
    simp only [bind_eq_ok_iff, loadConfig_eq_ok_iff,
      loadVowAsOwner_eq_ok_iff, okOr_eq_ok_iff]
    exact ⟨call.config, call.hConfig, call.vow,
      ⟨call.hLookup, call.hSeeds, call.hOwner⟩, call.escrow,
      call.hEscrow, rfl⟩
  subst hEq
  refine ⟨_, hEvents, ?_⟩
  refine hFollows.revise_same_lock call.hLookup rfl ?_ ?_ rfl ?_
  · intro v hOther
    unfold World.owedAt
    rw [AccountMap.lookup_erase_eq, if_neg]
    intro hSame
    exact hOther (Pubkey.unstake.inj hSame)
  · intro event hMem
    rw [List.mem_singleton.mp hMem]
    exact congrArg some call.hSeeds.symm
  · intro unlockAt
    unfold World.owedAt
    rw [AccountMap.lookup_erase_eq, if_pos rfl]
    rfl

end Vow

------------------------------------------------------------
-- Yield And Sessions
------------------------------------------------------------

namespace Vow

open MachineInt Fallible

/- An exact subtraction is the saturating one. -/
theorem saturatingSub_of_eq_add
    {a b c : U64}
    (hSum : a.val = b.val + c.val) :
    a.saturatingSub c = b := by
  apply Unsigned.ext
  rw [Unsigned.val_saturatingSub]
  omega

theorem depositYieldBalance_follows
    {lockKnown : Prop}
    {index : Indexer}
    {w w' : World}
    {depositor : Signer}
    {vowState : Pubkey}
    {amount : U64}
    (hFollows : Follows lockKnown index w)
    (hOk :
      depositYieldBalance w depositor vowState amount =
        .ok w') :
    Reported lockKnown index w'
      (depositYieldBalanceEvents w depositor vowState
        amount) := by
  rcases depositYieldBalance_ok hOk with ⟨call, hEq⟩
  have hEvents :
      depositYieldBalanceEvents w depositor vowState
          amount =
        .ok [.yieldDeposited call.vow.assetId depositor.key
          amount] := by
    unfold depositYieldBalanceEvents
    simp only [bind_eq_ok_iff, loadVow_eq_ok_iff]
    exact ⟨call.vow, ⟨call.hLookup, call.hSeeds⟩, rfl⟩
  subst hEq
  refine ⟨_, hEvents, ?_⟩
  refine hFollows.revise_one call.hLookup rfl rfl ?_ rfl ?_
  · exact congrArg some call.hSeeds.symm
  · intro unlockAt
    rfl

theorem withdrawYield_follows
    {lockKnown : Prop}
    {index : Indexer}
    {w w' : World}
    {owner : Signer}
    {vowState : Pubkey}
    {amount : Option U64}
    (hFollows : Follows lockKnown index w)
    (hOk : withdrawYield w owner vowState amount = .ok w') :
    Reported lockKnown index w'
      (withdrawYieldEvents w owner vowState amount) := by
  rcases withdrawYield_ok hOk with ⟨call, hEq⟩
  have hEvents :
      withdrawYieldEvents w owner vowState amount =
        .ok [.yieldWithdrawn call.vow.assetId owner.key
          (amount.getD call.vow.yieldBalance)] := by
    unfold withdrawYieldEvents
    simp only [bind_eq_ok_iff, loadVowAsOwner_eq_ok_iff]
    exact ⟨call.vow,
      ⟨call.hLookup, call.hSeeds, call.hOwner⟩, rfl⟩
  subst hEq
  refine ⟨_, hEvents, ?_⟩
  refine hFollows.revise_one call.hLookup rfl rfl ?_ rfl ?_
  · exact congrArg some call.hSeeds.symm
  · intro unlockAt
    simp only [Event.revise, viewOf,
      saturatingSub_of_eq_add call.hBalance]

theorem yieldSpend_follows
    {lockKnown : Prop}
    {index : Indexer}
    {env : Env}
    {w w' : World}
    {ix : YieldSpend}
    (hFollows : Follows lockKnown index w)
    (hOk : yieldSpend env w ix = .ok w') :
    Reported lockKnown index w' (yieldSpendEvents w ix) := by
  rcases yieldSpend_eq_ok_iff.mp hOk with ⟨call, hEq⟩
  have hEvents :
      yieldSpendEvents w ix =
        .ok [.yieldSpent call.vow.assetId
          call.session.sessionKey ix.callingProgram ix.amount
          ix.destination] := by
    unfold yieldSpendEvents
    simp only [bind_eq_ok_iff, loadVow_eq_ok_iff,
      loadSession_eq_ok_iff]
    exact ⟨call.vow, ⟨call.hLookup, call.hVowSeeds⟩,
      call.session,
      ⟨call.hSession, call.hSeeds, call.hVow⟩, rfl⟩
  subst hEq
  refine ⟨_, hEvents, ?_⟩
  refine hFollows.revise_one call.hLookup rfl rfl ?_ rfl ?_
  · exact congrArg some call.hVowSeeds.symm
  · intro unlockAt
    simp only [Event.revise, viewOf,
      saturatingSub_of_eq_add call.hBalance]

theorem createSession_follows
    {lockKnown : Prop}
    {index : Indexer}
    {env : Env}
    {w w' : World}
    {ix : CreateSession}
    (hFollows : Follows lockKnown index w)
    (hOk : createSession env w ix = .ok w') :
    Reported lockKnown index w'
      (createSessionEvents env w ix) := by
  rcases createSession_ok hOk with ⟨call, hEq⟩
  have hEvents :
      createSessionEvents env w ix =
        .ok [.sessionCreated ix.vowState ix.sessionKey
          call.limits.expiryTs call.vow.sessionNonce] := by
    unfold createSessionEvents
    simp only [bind_eq_ok_iff, loadVowAsOwner_eq_ok_iff]
    exact ⟨call.vow, ⟨call.hLookup, call.hSeeds, call.hOwner⟩,
      call.profile, call.hProfile, call.limits, call.hLimits,
      rfl⟩
  have hNext :
      Unsigned.ofNat 64 (call.vow.sessionNonce.val + 1) =
        call.sessionNonce := by
    apply Unsigned.ext
    rw [Unsigned.val_ofNat, ← call.hNonce]
    exact Nat.mod_eq_of_lt call.sessionNonce.isLt
  subst hEq
  refine ⟨_, hEvents, ?_⟩
  refine hFollows.revise_one call.hLookup rfl rfl rfl rfl ?_
  intro unlockAt
  simp only [Event.revise, viewOf, hNext]

end Vow

------------------------------------------------------------
-- Other Instructions
------------------------------------------------------------

namespace Vow

open MachineInt Fallible

/- An event of no identity leaves every view alone. -/
theorem foldl_read_of_none
    {events : List Event}
    (hNone :
      ∀ event ∈ events,
        ∀ index : Indexer, index.read event = index)
    (index : Indexer) :
    events.foldl Indexer.read index = index := by
  induction events with
  | nil => rfl
  | cons event events ih =>
      rw [List.foldl_cons,
        hNone event List.mem_cons_self]
      apply ih
      intro later hLater
      exact hNone later (List.mem_cons_of_mem _ hLater)

/- A step that changes no identity. -/
theorem Reported.keep
    {lockKnown : Prop}
    {index : Indexer}
    {w w' : World}
    {log : List Event}
    {events : Result (List Event)}
    (hFollows : Follows lockKnown index w)
    (hVows : w'.vows = w.vows)
    (hEscrows : w'.escrows = w.escrows)
    (hEvents : events = .ok log)
    (hNone :
      ∀ event ∈ log,
        ∀ index : Indexer, index.read event = index) :
    Reported lockKnown index w' events := by
  refine ⟨log, hEvents, ?_⟩
  rw [foldl_read_of_none hNone]
  exact hFollows.keep hVows hEscrows

/- Events that no view depends on. -/
theorem Indexer.read_of_none
    {event : Event}
    (hSubject : event.subject = none)
    (hMint :
      ∀ assetId owner stakeClass stakeLamports shares
          unlockAt,
        event ≠ .vowMinted assetId owner stakeClass
          stakeLamports shares unlockAt)
    (index : Indexer) :
    index.read event = index := by
  funext v
  cases event with
  | vowMinted assetId owner stakeClass stake shares unlock =>
      exact absurd rfl (hMint _ _ _ _ _ _)
  | _ =>
      simp only [Indexer.read, hSubject]
      rw [if_neg (by simp)]

theorem Reported.keep_one
    {lockKnown : Prop}
    {index : Indexer}
    {w w' : World}
    {event : Event}
    {events : Result (List Event)}
    (hFollows : Follows lockKnown index w)
    (hVows : w'.vows = w.vows)
    (hEscrows : w'.escrows = w.escrows)
    (hEvents : events = .ok [event])
    (hNone : ∀ index : Indexer, index.read event = index) :
    Reported lockKnown index w' events := by
  refine Reported.keep hFollows hVows hEscrows hEvents ?_
  intro other hMem
  rw [List.mem_singleton.mp hMem]
  exact hNone

theorem Reported.keep_quiet
    {lockKnown : Prop}
    {index : Indexer}
    {w w' : World}
    (hFollows : Follows lockKnown index w)
    (hVows : w'.vows = w.vows)
    (hEscrows : w'.escrows = w.escrows) :
    Reported lockKnown index w' (.ok []) :=
  Reported.keep hFollows hVows hEscrows rfl
    (fun _ hMem => absurd hMem (by simp))

theorem revokeSession_follows
    {lockKnown : Prop}
    {index : Indexer}
    {w w' : World}
    {owner : Signer}
    {vowState sessionAccount : Pubkey}
    (hFollows : Follows lockKnown index w)
    (hOk :
      revokeSession w owner vowState sessionAccount =
        .ok w') :
    Reported lockKnown index w'
      (revokeSessionEvents w vowState sessionAccount) := by
  rcases revokeSession_ok hOk with ⟨call, hEq⟩
  have hSession := loadSession_eq_ok_iff.mpr
    ⟨call.hSession, call.hSeeds, call.hVow⟩
  subst hEq
  refine Reported.keep_one hFollows rfl rfl
    (bind_eq_ok_iff.mpr ⟨call.session, hSession, rfl⟩) ?_
  exact Indexer.read_of_none rfl (by simp)

theorem blockApp_follows
    {lockKnown : Prop}
    {index : Indexer}
    {w w' : World}
    {admin : Signer}
    {address : Pubkey}
    (hFollows : Follows lockKnown index w)
    (hOk : blockApp w admin address = .ok w') :
    Reported lockKnown index w'
      (blockAppEvents w address) := by
  rcases adminAppAction_ok hOk with ⟨call, hEq⟩
  subst hEq
  refine Reported.keep_one hFollows rfl rfl
    (bind_eq_ok_iff.mpr ⟨call.registry,
      okOr_eq_ok_iff.mpr call.hRegistry, rfl⟩) ?_
  exact Indexer.read_of_none rfl (by simp)

theorem updateSharePrice_follows
    {lockKnown : Prop}
    {index : Indexer}
    {w w' : World}
    {splPool : AccountInfo}
    (hFollows : Follows lockKnown index w)
    (hOk : updateSharePrice w splPool = .ok w') :
    Reported lockKnown index w'
      (updateSharePriceEvents w splPool) := by
  unfold updateSharePrice at hOk
  unfold updateSharePriceEvents
  simp only [bind_eq_ok_iff, loadConfig_eq_ok_iff] at hOk
  rcases hOk with ⟨config, hConfig, _, _, hOk⟩
  rw [loadConfig_eq_ok_iff.mpr hConfig, ok_bind]
  split at hOk
  · rename_i hPool
    rw [if_pos hPool, ← pure_eq_ok_iff.mp hOk]
    exact Reported.keep_quiet hFollows rfl rfl
  · rename_i hPool
    rw [if_neg hPool]
    simp only [bind_eq_ok_iff] at hOk
    rcases hOk with ⟨_, _, hOk⟩
    dsimp only
    split at hOk
    · rename_i hSupply
      rw [if_pos hSupply]
      rcases bind_eq_ok_iff.mp hOk with ⟨price, hPrice, hEq⟩
      rw [← pure_eq_ok_iff.mp hEq]
      refine Reported.keep_one hFollows rfl rfl
        (bind_eq_ok_iff.mpr ⟨price, hPrice, rfl⟩) ?_
      exact Indexer.read_of_none rfl (by simp)
    · rename_i hSupply
      rw [if_neg hSupply]
      rw [← pure_eq_ok_iff.mp hOk]
      refine Reported.keep_one hFollows rfl rfl rfl ?_
      exact Indexer.read_of_none rfl (by simp)

/- The mode is not part of the view. -/
theorem updateYieldMode_follows
    {lockKnown : Prop}
    {index : Indexer}
    {w w' : World}
    {owner : Signer}
    {vowState : Pubkey}
    {newMode : YieldMode}
    (hFollows : Follows lockKnown index w)
    (hOk :
      updateYieldMode w owner vowState newMode = .ok w') :
    Reported lockKnown index w'
      (updateYieldModeEvents w owner vowState newMode) := by
  rcases updateYieldMode_ok hOk with ⟨call, hEq⟩
  have hLoaded := loadVowAsOwner_eq_ok_iff.mpr
    ⟨call.hLookup, call.hSeeds, call.hOwner⟩
  subst hEq
  refine ⟨_, bind_eq_ok_iff.mpr ⟨call.vow, hLoaded, rfl⟩,
    ?_⟩
  rw [foldl_read_of_none]
  · change Follows lockKnown
      (List.foldl Indexer.read index []) _
    refine hFollows.revise_same_lock call.hLookup rfl ?_ ?_ rfl
      ?_
    · intro v _
      rfl
    · intro event hMem
      exact absurd hMem (by simp)
    · intro unlockAt
      rfl
  · intro event hMem
    rw [List.mem_singleton.mp hMem]
    exact Indexer.read_of_none rfl (by simp)

/- A fast unlock goes unseen. -/
theorem devFastUnlock_follows
    {lockKnown : Prop}
    {index : Indexer}
    {w w' : World}
    {admin : Signer}
    {vowState : Pubkey}
    (hFollows : Follows lockKnown index w)
    (hUnknown : ¬ lockKnown)
    (hOk : devFastUnlock w admin vowState = .ok w') :
    Reported lockKnown index w' (.ok []) := by
  rcases devFastUnlock_ok hOk with ⟨call, hEq⟩
  subst hEq
  refine ⟨[], rfl, ?_⟩
  refine hFollows.revise call.hLookup rfl ?_ ?_ ?_
  · intro v _
    rfl
  · intro event hMem
    exact absurd hMem (by simp)
  · intro unlockAt _
    refine ⟨unlockAt, fun hKnown => absurd hKnown hUnknown,
      ?_⟩
    rfl

end Vow

------------------------------------------------------------
-- Runs
------------------------------------------------------------

namespace Vow

open MachineInt Fallible Transition

/- The instruction that moves a lock without an event. -/
def Instruction.fastUnlocks : Instruction → Bool
| .devFastUnlock _ _ => true
| _ => false

/- The events of an instruction follow it. -/
theorem execute_follows
    {lockKnown : Prop}
    {index : Indexer}
    {env : Env}
    {w w' : World}
    {ix : Instruction}
    (hReach : Reachable w)
    (hFollows : Follows lockKnown index w)
    (hLock : lockKnown → ix.fastUnlocks = false)
    (hOk : execute env w ix = .ok w') :
    Reported lockKnown index w' (ix.events env w) := by
  cases ix with
  | initializeConfig admin splPool splStakePool mint =>
      rcases initializeConfig_ok hOk with ⟨call, hEq⟩
      subst hEq
      refine Reported.keep_one hFollows rfl rfl rfl ?_
      exact Indexer.read_of_none rfl (by simp)
  | setAdmin admin newAdmin =>
      rcases setAdmin_ok hOk with ⟨call, hEq⟩
      subst hEq
      exact Reported.keep_quiet hFollows rfl rfl
  | closeProtocolConfig admin =>
      rcases closeProtocolConfig_ok hOk with ⟨call, hEq⟩
      subst hEq
      exact Reported.keep_quiet hFollows rfl rfl
  | setMintCounter admin newCounter =>
      rcases setMintCounter_ok hOk with ⟨call, hEq⟩
      subst hEq
      exact Reported.keep_quiet hFollows rfl rfl
  | devSetSharePrice admin newPrice =>
      rcases devSetSharePrice_ok hOk with ⟨call, hEq⟩
      subst hEq
      exact Reported.keep_quiet hFollows rfl rfl
  | devFastUnlock admin vowState =>
      refine devFastUnlock_follows hFollows ?_ hOk
      intro hKnown
      exact absurd (hLock hKnown)
        (by simp [Instruction.fastUnlocks])
  | registerApp payer programId =>
      have hFrame := registerApp_untouched hOk
      refine Reported.keep_one hFollows hFrame.vows
        hFrame.escrows rfl ?_
      exact Indexer.read_of_none rfl (by simp)
  | verifyApp admin address =>
      have hFrame := adminAppAction_untouched hOk
      exact Reported.keep_quiet hFollows hFrame.vows
        hFrame.escrows
  | blockApp admin address =>
      exact blockApp_follows hFollows hOk
  | updateSharePrice splPool =>
      exact updateSharePrice_follows hFollows hOk
  | flushReserveToPool accounts =>
      rcases flushReserveToPool_ok hOk with hSame | ⟨call, hEq⟩
      · subst hSame
        exact Reported.keep_quiet hFollows rfl rfl
      · subst hEq
        exact Reported.keep_quiet hFollows rfl rfl
  | withdrawFromPool unstakeEscrow accounts =>
      rcases withdrawFromPool_ok hOk with
        ⟨_, hSame⟩ | ⟨call, hEq⟩
      · subst hSame
        exact Reported.keep_quiet hFollows rfl rfl
      · subst hEq
        exact Reported.keep_quiet hFollows rfl rfl
  | addStake owner vowState lamportsToAdd =>
      refine addStake_follows hFollows ?_ hOk
      intro vow hLookup
      exact graded_reachable hReach
        (World.life_of_lookup hLookup)
  | mintVow owner stakeLamports yieldMode =>
      exact mintVow_follows hFollows
        (escrowOwned_reachable hReach) hOk
  | updateYieldMode owner vowState newMode =>
      exact updateYieldMode_follows hFollows hOk
  | beginUnstake owner vowState =>
      exact beginUnstake_follows hFollows hOk
  | completeUnstake owner vowState =>
      exact completeUnstake_follows hFollows hOk
  | activateStake owner vowState stakeLamports yieldMode =>
      exact activateStake_follows hFollows hOk
  | harvest vowState =>
      exact harvest_follows hFollows hOk
  | createSession ix =>
      exact createSession_follows hFollows hOk
  | revokeSession owner vowState sessionAccount =>
      exact revokeSession_follows hFollows hOk
  | closeSession owner vowState sessionAccount =>
      rcases closeSession_ok hOk with ⟨call, hEq⟩
      subst hEq
      exact Reported.keep_quiet hFollows rfl rfl
  | depositYieldBalance depositor vowState amount =>
      exact depositYieldBalance_follows hFollows hOk
  | yieldSpend ix => exact yieldSpend_follows hFollows hOk
  | withdrawYield owner vowState amount =>
      exact withdrawYield_follows hFollows hOk
  | createAuthorityProfile wallet profileId params =>
      have hFrame := createAuthorityProfile_untouched hOk
      exact Reported.keep_quiet hFollows hFrame.vows
        hFrame.escrows
  | updateAuthorityProfile wallet profile params =>
      have hFrame := updateAuthorityProfile_untouched hOk
      exact Reported.keep_quiet hFollows hFrame.vows
        hFrame.escrows
  | closeAuthorityProfile wallet profile =>
      have hFrame := closeAuthorityProfile_untouched hOk
      exact Reported.keep_quiet hFollows hFrame.vows
        hFrame.escrows
  | recordCommitment payer vowState =>
      have hFrame := recordCommitment_untouched hOk
      exact Reported.keep_quiet hFollows hFrame.vows
        hFrame.escrows
  | recordFulfillment payer vowState =>
      have hFrame := recordFulfillment_untouched hOk
      exact Reported.keep_quiet hFollows hFrame.vows
        hFrame.escrows

/- Does the step move a lock without an event? -/
def Step.fastUnlocks
    (step : Step) :
    Bool :=
  match step.action with
  | .instruction ix => ix.fastUnlocks
  | _ => false

/- The events of one step follow it. -/
theorem exec_follows
    {lockKnown : Prop}
    {index : Indexer}
    {w w' : World}
    {step : Step}
    (hReach : Reachable w)
    (hFollows : Follows lockKnown index w)
    (hLock : lockKnown → step.fastUnlocks = false)
    (hExec : step.exec w = some w') :
    Follows lockKnown
      ((eventsOf ⟨w, step, w'⟩).foldl Indexer.read index)
      w' := by
  rcases step with ⟨env, action⟩
  cases action with
  | instruction ix =>
      have hOk := Step.exec_instruction_iff.mp hExec
      rcases execute_follows hReach hFollows hLock hOk with
        ⟨log, hLog, hNext⟩
      unfold eventsOf
      dsimp only
      rw [hLog]
      exact hNext
  | receive address amount =>
      rw [← Option.some.inj hExec]
      exact hFollows.keep rfl rfl
  | spend wallet amount =>
      rw [← Option.some.inj hExec]
      exact hFollows.keep rfl rfl

/- The history so far, read from its events. -/
def ReplaysSoFar
    (lockKnown : Prop)
    (history : List (Occurrence World Step))
    (w : World) :
    Prop :=
  Reachable w ∧
    Follows lockKnown
      (replay (history.flatMap eventsOf)) w

theorem replaysSoFar_run
    {lockKnown : Prop}
    (lamports : Lamports)
    (steps : List Step)
    (hLock :
      lockKnown →
        ∀ o ∈ (World.genesis lamports).trace steps,
          o.action.fastUnlocks = false) :
    ReplaysSoFar lockKnown
      ((World.genesis lamports).trace steps)
      ((World.genesis lamports).run steps) := by
  have hInit :
      ReplaysSoFar lockKnown [] (World.genesis lamports) := by
    refine ⟨⟨lamports, [], rfl⟩, ?_⟩
    intro vowState
    exact Seen.unknown
  refine @trace_history_invariant World Step Step.exec
    (fun o => lockKnown → o.action.fastUnlocks = false)
    (ReplaysSoFar lockKnown) ?_ steps _ hInit ?_
  · rintro history w step w' ⟨hReach, hFollows⟩ hExec hQuiet
    refine ⟨?_, ?_⟩
    · have hNext := hReach.run [step]
      rwa [World.run, run_cons, run_nil,
        advance_of_some hExec] at hNext
    · have hNext := exec_follows hReach hFollows hQuiet hExec
      unfold replay at hNext ⊢
      rw [List.flatMap_append, List.foldl_append,
        List.flatMap_singleton]
      exact hNext
  · intro o hMem hKnown
    exact hLock hKnown o hMem

/-
  After every run from an empty chain the replayed events
  show every identity as it is on chain, and no other; the
  end of the lock too, unless a fast unlock succeeded.
-/
theorem replay_follows
    (lamports : Lamports)
    (steps : List Step) :
    Follows
      (∀ o ∈ (World.genesis lamports).trace steps,
        o.action.fastUnlocks = false)
      (replay ((World.genesis lamports).log steps))
      ((World.genesis lamports).run steps) :=
  (replaysSoFar_run lamports steps (fun hQuiet => hQuiet)).2

end Vow
