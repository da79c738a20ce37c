import Mathlib.Algebra.BigOperators.Group.List.Basic
import Mathlib.Algebra.Order.Ring.Nat
import Mathlib.Data.ENat.Basic

/-
  A spend meter with a lazily reset window.

  The meter keeps a running total and the amount and number
  of spends of one window. A new window is only started when
  the next spend needs it, so between spends the window may
  lie in the past. `Tracks` relates the meter to the history
  of all spends; `Within` bounds the history itself.

  Key definitions include:
    * `SpendMeter.Meter`
    * `SpendMeter.Tracks`
    * `SpendMeter.Limits`
    * `SpendMeter.Limits.Within`
    * `SpendMeter.Limits.left`

  Key theorems include:
    * `SpendMeter.Tracks.roll`
    * `SpendMeter.Tracks.record`
    * `SpendMeter.Limits.Within.record`
    * `SpendMeter.Limits.Admits.left_record`
-/

------------------------------------------------------------
-- Histories
------------------------------------------------------------

namespace SpendMeter

variable {D : Type}

/- One spend, in its window. -/
structure Spend (D : Type) where
  window : D
  amount : Nat

/- The amount of all spends. -/
def spentTotal
    (history : List (Spend D)) :
    Nat :=
  (history.map Spend.amount).sum

theorem spentTotal_concat
    (history : List (Spend D))
    (spend : Spend D) :
    spentTotal (history ++ [spend]) =
      spentTotal history + spend.amount := by
  simp [spentTotal]

variable [LinearOrder D]

/- The spends of one window. -/
def spendsIn
    (window : D)
    (history : List (Spend D)) :
    List (Spend D) :=
  history.filter fun spend => spend.window = window

/- The amount spent in one window. -/
def spentIn
    (window : D)
    (history : List (Spend D)) :
    Nat :=
  spentTotal (spendsIn window history)

/- The number of spends in one window. -/
def countIn
    (window : D)
    (history : List (Spend D)) :
    Nat :=
  (spendsIn window history).length

theorem spendsIn_concat_self
    (history : List (Spend D))
    (spend : Spend D) :
    spendsIn spend.window (history ++ [spend]) =
      spendsIn spend.window history ++ [spend] := by
  simp [spendsIn]

theorem spendsIn_concat_of_ne
    {window : D}
    {spend : Spend D}
    (hNe : spend.window ≠ window)
    (history : List (Spend D)) :
    spendsIn window (history ++ [spend]) =
      spendsIn window history := by
  simp [spendsIn, hNe]

/- Nothing was spent in a window after the last spend. -/
theorem spendsIn_eq_nil
    {latest window : D}
    {history : List (Spend D)}
    (hPast : ∀ spend ∈ history, spend.window ≤ latest)
    (hLater : latest < window) :
    spendsIn window history = [] := by
  rw [spendsIn, List.filter_eq_nil_iff]
  intro spend hMem hEq
  have hEq := of_decide_eq_true hEq
  have hLe := hPast spend hMem
  rw [hEq] at hLe
  exact absurd hLater (not_lt_of_ge hLe)

end SpendMeter

------------------------------------------------------------
-- The Meter
------------------------------------------------------------

namespace SpendMeter

variable {D : Type} [LinearOrder D]

/- The running counters of a metered account. -/
structure Meter (D : Type) where
  total : Nat
  spent : Nat
  count : Nat
  window : D

/- Start a window if it is later than the current one. -/
def Meter.roll
    (meter : Meter D)
    (window : D) :
    Meter D :=
  if meter.window < window then
    { meter with spent := 0, count := 0, window := window }
  else
    meter

/- Count one spend in the current window. -/
def Meter.record
    (meter : Meter D)
    (amount : Nat) :
    Meter D :=
  { meter with
    total := meter.total + amount
    spent := meter.spent + amount
    count := meter.count + 1 }

/- The counters are exact for the history so far. -/
structure Tracks
    (meter : Meter D)
    (history : List (Spend D)) :
    Prop where
  total : meter.total = spentTotal history
  spent : meter.spent = spentIn meter.window history
  count : meter.count = countIn meter.window history
  past : ∀ spend ∈ history, spend.window ≤ meter.window

/- A meter that starts at zero has an empty history. -/
theorem tracks_nil
    {meter : Meter D}
    (hTotal : meter.total = 0)
    (hSpent : meter.spent = 0)
    (hCount : meter.count = 0) :
    Tracks meter [] where
  total := hTotal
  spent := hSpent
  count := hCount
  past := by
    intro spend hMem
    exact absurd hMem (by simp)

theorem Meter.roll_window
    {meter : Meter D}
    {window : D}
    (hLe : meter.window ≤ window) :
    (meter.roll window).window = window := by
  unfold Meter.roll
  split
  · rfl
  · rename_i hNot
    exact le_antisymm hLe (le_of_not_gt hNot)

/- Rolling to a later window keeps the counters exact. -/
theorem Tracks.roll
    {meter : Meter D}
    {history : List (Spend D)}
    (hTracks : Tracks meter history)
    (window : D) :
    Tracks (meter.roll window) history := by
  unfold Meter.roll
  split
  · rename_i hLater
    have hNone := spendsIn_eq_nil hTracks.past hLater
    refine ⟨hTracks.total, ?_, ?_, ?_⟩
    · simp [spentIn, hNone, spentTotal]
    · simp [countIn, hNone]
    · intro spend hMem
      exact le_trans (hTracks.past spend hMem)
        (le_of_lt hLater)
  · exact hTracks

/- A recorded spend keeps the counters exact. -/
theorem Tracks.record
    {meter : Meter D}
    {history : List (Spend D)}
    (hTracks : Tracks meter history)
    (amount : Nat) :
    Tracks (meter.record amount)
      (history ++ [⟨meter.window, amount⟩]) where
  total := by
    rw [spentTotal_concat, ← hTracks.total]
    rfl
  spent := by
    have hSpends := spendsIn_concat_self history
      ⟨meter.window, amount⟩
    have hSpent := hTracks.spent
    unfold spentIn at hSpent ⊢
    change meter.spent + amount =
      spentTotal (spendsIn meter.window _)
    rw [hSpends, spentTotal_concat, ← hSpent]
  count := by
    have hSpends := spendsIn_concat_self history
      ⟨meter.window, amount⟩
    have hCount := hTracks.count
    unfold countIn at hCount ⊢
    change meter.count + 1 =
      (spendsIn meter.window _).length
    rw [hSpends, List.length_append, ← hCount]
    rfl
  past := by
    intro spend hMem
    rcases List.mem_append.mp hMem with hOld | hNew
    · exact hTracks.past spend hOld
    · rw [List.mem_singleton.mp hNew]
      exact le_refl meter.window

end SpendMeter

------------------------------------------------------------
-- Limits
------------------------------------------------------------

namespace SpendMeter

variable {D : Type} [LinearOrder D]

/- Spend limits; a zero limit is no limit. -/
structure Limits where
  lifetime : Nat
  daily : Nat
  velocity : Nat

/- A history within the limits, window by window. -/
structure Limits.Within
    (limits : Limits)
    (history : List (Spend D)) :
    Prop where
  lifetime :
    0 < limits.lifetime →
    spentTotal history ≤ limits.lifetime
  daily :
    ∀ window, 0 < limits.daily →
    spentIn window history ≤ limits.daily
  velocity :
    ∀ window, 0 < limits.velocity →
    countIn window history ≤ limits.velocity

/- What the meter is asked before a spend is recorded. -/
structure Limits.Admits
    (limits : Limits)
    (meter : Meter D)
    (amount : Nat) :
    Prop where
  lifetime :
    0 < limits.lifetime →
    meter.total + amount ≤ limits.lifetime
  daily :
    0 < limits.daily →
    meter.spent + amount ≤ limits.daily
  velocity :
    0 < limits.velocity → meter.count < limits.velocity

theorem Limits.within_nil
    (limits : Limits) :
    limits.Within ([] : List (Spend D)) where
  lifetime := fun _ => Nat.zero_le _
  daily := fun _ _ => Nat.zero_le _
  velocity := fun _ _ => Nat.zero_le _

/-
  An admitted spend keeps the whole history within the
  limits: in its own window by the counters, elsewhere
  because nothing is added there.
-/
theorem Limits.Within.record
    {limits : Limits}
    {meter : Meter D}
    {history : List (Spend D)}
    {amount : Nat}
    (hWithin : limits.Within history)
    (hTracks : Tracks meter history)
    (hAdmits : limits.Admits meter amount) :
    limits.Within
      (history ++ [⟨meter.window, amount⟩]) := by
  have hAfter := hTracks.record amount
  refine ⟨?_, ?_, ?_⟩
  · intro hLimit
    rw [← hAfter.total]
    exact hAdmits.lifetime hLimit
  · intro window hLimit
    by_cases hWindow : meter.window = window
    · subst hWindow
      exact hAfter.spent ▸ hAdmits.daily hLimit
    · rw [spentIn, spendsIn_concat_of_ne hWindow]
      exact hWithin.daily window hLimit
  · intro window hLimit
    by_cases hWindow : meter.window = window
    · subst hWindow
      exact hAfter.count ▸ hAdmits.velocity hLimit
    · rw [countIn, spendsIn_concat_of_ne hWindow]
      exact hWithin.velocity window hLimit

end SpendMeter

------------------------------------------------------------
-- Allowances
------------------------------------------------------------

namespace SpendMeter

variable {D : Type}

/- What may still be spent over the whole lifetime. -/
def Limits.left
    (limits : Limits)
    (meter : Meter D) :
    ℕ∞ :=
  if limits.lifetime = 0 then ⊤
  else ((limits.lifetime - meter.total : Nat) : ℕ∞)

/- An admitted spend comes out of the allowance. -/
theorem Limits.Admits.left_record
    {limits : Limits}
    {meter : Meter D}
    {amount : Nat}
    (hAdmits : limits.Admits meter amount) :
    (amount : ℕ∞) + limits.left (meter.record amount) ≤
      limits.left meter := by
  unfold Limits.left
  by_cases hLimit : limits.lifetime = 0
  · rw [if_pos hLimit, if_pos hLimit]
    exact le_top
  · rw [if_neg hLimit, if_neg hLimit]
    have hFits :=
      hAdmits.lifetime (Nat.pos_of_ne_zero hLimit)
    have hLess :
        amount + (limits.lifetime -
            (meter.record amount).total) ≤
          limits.lifetime - meter.total := by
      unfold Meter.record
      dsimp only
      omega
    exact_mod_cast hLess

end SpendMeter
