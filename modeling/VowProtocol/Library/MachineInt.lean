import Mathlib.Algebra.Order.Ring.Int
import Mathlib.Algebra.Order.Group.Nat
import Mathlib.Data.Nat.Init
import Mathlib.Tactic.Zify

/-
  Fixed-width machine integers with checked, saturating and
  narrowing operations.

  A value carries the proof that it fits its width, so every
  operation either returns an in-range value or fails. All
  specifications are stated through `val`, in unbounded
  arithmetic.

  Key definitions include:
    * `Unsigned`
    * `Unsigned.cast`
    * `Unsigned.checkedAdd`
    * `Unsigned.checkedMul`
    * `Unsigned.checkedDiv`
    * `Unsigned.saturatingAdd`
    * `Unsigned.saturatingSub`
    * `Unsigned.Totals`
    * `Signed`
    * `Signed.clamp`
    * `Signed.checkedAdd`
    * `Signed.saturatingAdd`
-/

------------------------------------------------------------
-- Unsigned Integers
------------------------------------------------------------

namespace MachineInt

/- A `w`-bit unsigned integer. -/
@[ext] structure Unsigned (w : Nat) where
  val : Nat
  isLt : val < 2 ^ w
  deriving DecidableEq

namespace Unsigned

variable {w : Nat}

instance : LE (Unsigned w) :=
  ⟨fun a b => a.val ≤ b.val⟩

instance : LT (Unsigned w) :=
  ⟨fun a b => a.val < b.val⟩

instance (a b : Unsigned w) : Decidable (a ≤ b) :=
  inferInstanceAs (Decidable (a.val ≤ b.val))

instance (a b : Unsigned w) : Decidable (a < b) :=
  inferInstanceAs (Decidable (a.val < b.val))

theorem le_def {a b : Unsigned w} :
    a ≤ b ↔ a.val ≤ b.val := Iff.rfl

theorem lt_def {a b : Unsigned w} :
    a < b ↔ a.val < b.val := Iff.rfl

/- Reduction of a natural number modulo `2 ^ w`. -/
def ofNat
    (w n : Nat) :
    Unsigned w :=
  ⟨n % 2 ^ w, Nat.mod_lt n (Nat.two_pow_pos w)⟩

instance (n : Nat) : OfNat (Unsigned w) n :=
  ⟨ofNat w n⟩

instance : Inhabited (Unsigned w) :=
  ⟨0⟩

@[simp] theorem val_ofNat
    (n : Nat) :
    (ofNat w n).val = n % 2 ^ w := rfl

@[simp] theorem val_ofNatLit
    (n : Nat) [n.AtLeastTwo] :
    (OfNat.ofNat n : Unsigned w).val = n % 2 ^ w := rfl

@[simp] theorem val_zero :
    (0 : Unsigned w).val = 0 :=
  Nat.zero_mod _

theorem val_one
    (hWidth : 0 < w) :
    (1 : Unsigned w).val = 1 :=
  Nat.mod_eq_of_lt (Nat.one_lt_two_pow (by omega))

/- The largest `w`-bit value. -/
def maxVal (w : Nat) : Nat :=
  2 ^ w - 1

theorem val_le_maxVal
    (a : Unsigned w) :
    a.val ≤ maxVal w :=
  Nat.le_sub_one_of_lt a.isLt

end Unsigned

end MachineInt

------------------------------------------------------------
-- Casts
------------------------------------------------------------

namespace MachineInt

namespace Unsigned

variable {w : Nat}

/- The cast `a as uN`: truncation to the low `v` bits. -/
def cast
    (v : Nat)
    (a : Unsigned w) :
    Unsigned v :=
  ofNat v a.val

@[simp] theorem val_cast
    (v : Nat)
    (a : Unsigned w) :
    (a.cast v).val = a.val % 2 ^ v := rfl

/- A cast keeps every value that fits the target width. -/
theorem val_cast_of_lt
    {v : Nat}
    {a : Unsigned w}
    (hFits : a.val < 2 ^ v) :
    (a.cast v).val = a.val :=
  Nat.mod_eq_of_lt hFits

/- A widening cast keeps the value. -/
theorem val_cast_of_le
    {v : Nat}
    (hWidth : w ≤ v)
    (a : Unsigned w) :
    (a.cast v).val = a.val :=
  val_cast_of_lt
    (Nat.lt_of_lt_of_le a.isLt
      (Nat.pow_le_pow_right (by omega) hWidth))

end Unsigned

end MachineInt

------------------------------------------------------------
-- Checked Operations
------------------------------------------------------------

namespace MachineInt

namespace Unsigned

variable {w : Nat}

/- The value `n` when it fits `w` bits. -/
def ofNat?
    (w n : Nat) :
    Option (Unsigned w) :=
  if hFits : n < 2 ^ w then some ⟨n, hFits⟩ else none

/- Addition that fails on overflow. -/
def checkedAdd
    (a b : Unsigned w) :
    Option (Unsigned w) :=
  ofNat? w (a.val + b.val)

/- Subtraction that fails below zero. -/
def checkedSub
    (a b : Unsigned w) :
    Option (Unsigned w) :=
  if b.val ≤ a.val then ofNat? w (a.val - b.val) else none

/- Multiplication that fails on overflow. -/
def checkedMul
    (a b : Unsigned w) :
    Option (Unsigned w) :=
  ofNat? w (a.val * b.val)

/- Division that fails on a zero divisor. -/
def checkedDiv
    (a b : Unsigned w) :
    Option (Unsigned w) :=
  if b.val = 0 then none else ofNat? w (a.val / b.val)

theorem ofNat?_eq_some_iff
    {n : Nat}
    {c : Unsigned w} :
    ofNat? w n = some c ↔ c.val = n := by
  unfold ofNat?
  constructor
  · intro hSome
    by_cases hFits : n < 2 ^ w
    · rw [dif_pos hFits] at hSome
      exact (congrArg val (Option.some.inj hSome)).symm
    · rw [dif_neg hFits] at hSome
      exact absurd hSome (by simp)
  · intro hVal
    subst hVal
    rw [dif_pos c.isLt]

/- Checked addition succeeds with the exact sum. -/
@[simp] theorem checkedAdd_eq_some_iff
    {a b c : Unsigned w} :
    checkedAdd a b = some c ↔ c.val = a.val + b.val :=
  ofNat?_eq_some_iff

/- Checked addition fails on a sum that does not fit. -/
theorem checkedAdd_eq_none_iff
    {a b : Unsigned w} :
    checkedAdd a b = none ↔ 2 ^ w ≤ a.val + b.val := by
  unfold checkedAdd ofNat?
  by_cases hFits : a.val + b.val < 2 ^ w
  · rw [dif_pos hFits]
    simpa using hFits
  · rw [dif_neg hFits]
    simpa using hFits

/- Checked subtraction fails on a smaller minuend. -/
theorem checkedSub_eq_none_iff
    {a b : Unsigned w} :
    checkedSub a b = none ↔ a.val < b.val := by
  have hLess := a.isLt
  unfold checkedSub ofNat?
  by_cases hLe : b.val ≤ a.val
  · rw [if_pos hLe, dif_pos (by omega)]
    simpa using hLe
  · rw [if_neg hLe]
    simpa using hLe

/- Checked subtraction succeeds with the exact difference. -/
@[simp] theorem checkedSub_eq_some_iff
    {a b c : Unsigned w} :
    checkedSub a b = some c ↔ a.val = c.val + b.val := by
  unfold checkedSub
  by_cases hLe : b.val ≤ a.val
  · rw [if_pos hLe, ofNat?_eq_some_iff]
    omega
  · rw [if_neg hLe]
    constructor
    · intro hSome
      exact absurd hSome (by simp)
    · intro hVal
      omega

/- Checked multiplication succeeds with the exact product. -/
@[simp] theorem checkedMul_eq_some_iff
    {a b c : Unsigned w} :
    checkedMul a b = some c ↔ c.val = a.val * b.val :=
  ofNat?_eq_some_iff

/- Checked division succeeds with the exact quotient. -/
@[simp] theorem checkedDiv_eq_some_iff
    {a b c : Unsigned w} :
    checkedDiv a b = some c ↔
      b.val ≠ 0 ∧ c.val = a.val / b.val := by
  unfold checkedDiv
  by_cases hZero : b.val = 0
  · simp [hZero]
  · simp [hZero, ofNat?_eq_some_iff]

/- A nonzero divisor makes checked division succeed. -/
theorem val_getD_checkedDiv
    {a b d : Unsigned w}
    (hDivisor : b.val ≠ 0) :
    ((checkedDiv a b).getD d).val = a.val / b.val := by
  have hFits : a.val / b.val < 2 ^ w :=
    Nat.lt_of_le_of_lt (Nat.div_le_self _ _) a.isLt
  simp [checkedDiv, hDivisor, ofNat?, hFits]

end Unsigned

end MachineInt

------------------------------------------------------------
-- Saturating Operations
------------------------------------------------------------

namespace MachineInt

namespace Unsigned

variable {w : Nat}

/- Addition clipped at the largest value. -/
def saturatingAdd
    (a b : Unsigned w) :
    Unsigned w :=
  ⟨min (a.val + b.val) (maxVal w), by
    have hPos := Nat.two_pow_pos w
    unfold maxVal
    omega⟩

/- Subtraction clipped at zero. -/
def saturatingSub
    (a b : Unsigned w) :
    Unsigned w :=
  ⟨a.val - b.val, Nat.lt_of_le_of_lt (Nat.sub_le _ _) a.isLt⟩

@[simp] theorem val_saturatingAdd
    (a b : Unsigned w) :
    (saturatingAdd a b).val =
      min (a.val + b.val) (maxVal w) := rfl

@[simp] theorem val_saturatingSub
    (a b : Unsigned w) :
    (saturatingSub a b).val = a.val - b.val := rfl

@[simp] theorem saturatingAdd_zero
    (a : Unsigned w) :
    saturatingAdd a 0 = a := by
  have hMax := a.val_le_maxVal
  apply Unsigned.ext
  rw [val_saturatingAdd, val_zero]
  omega

@[simp] theorem saturatingSub_zero
    (a : Unsigned w) :
    saturatingSub a 0 = a := by
  apply Unsigned.ext
  rw [val_saturatingSub, val_zero]
  omega

/- A saturating sum is never below its first operand. -/
theorem le_saturatingAdd
    (a b : Unsigned w) :
    a.val ≤ (saturatingAdd a b).val := by
  have hMax := a.val_le_maxVal
  rw [val_saturatingAdd]
  omega

/- The counter holds the clipped sum of the amounts. -/
def Totals
    (counter : Unsigned w)
    (amounts : List Nat) :
    Prop :=
  counter.val = min amounts.sum (maxVal w)

theorem totals_nil :
    Totals (0 : Unsigned w) [] := by
  unfold Totals
  rw [val_zero, List.sum_nil, Nat.zero_min]

/- A clipped sum is clipped once, however it was summed. -/
theorem Totals.saturatingAdd
    {counter : Unsigned w}
    {amounts : List Nat}
    (hTotals : Totals counter amounts)
    (amount : Unsigned w) :
    Totals (counter.saturatingAdd amount)
      (amounts ++ [amount.val]) := by
  unfold Totals at hTotals ⊢
  rw [val_saturatingAdd, hTotals, List.sum_append,
    List.sum_singleton]
  omega

end Unsigned

end MachineInt

------------------------------------------------------------
-- Signed Integers
------------------------------------------------------------

namespace MachineInt

/- A signed integer of `w + 1` bits. -/
@[ext] structure Signed (w : Nat) where
  val : Int
  lower : -2 ^ w ≤ val
  upper : val < 2 ^ w
  deriving DecidableEq

namespace Signed

variable {w : Nat}

instance : LE (Signed w) :=
  ⟨fun a b => a.val ≤ b.val⟩

instance : LT (Signed w) :=
  ⟨fun a b => a.val < b.val⟩

instance (a b : Signed w) : Decidable (a ≤ b) :=
  inferInstanceAs (Decidable (a.val ≤ b.val))

instance (a b : Signed w) : Decidable (a < b) :=
  inferInstanceAs (Decidable (a.val < b.val))

theorem le_def {a b : Signed w} :
    a ≤ b ↔ a.val ≤ b.val := Iff.rfl

theorem lt_def {a b : Signed w} :
    a < b ↔ a.val < b.val := Iff.rfl

/- An integer clamped to the signed range. -/
def clamp
    (w : Nat)
    (x : Int) :
    Signed w :=
  ⟨max (-2 ^ w) (min x (2 ^ w - 1)), by omega, by
    have hPos : (0 : Int) < 2 ^ w :=
      Int.pow_pos (by decide)
    omega⟩

@[simp] theorem val_clamp
    (x : Int) :
    (clamp w x).val = max (-2 ^ w) (min x (2 ^ w - 1)) := rfl

instance (n : Nat) : OfNat (Signed w) n :=
  ⟨clamp w n⟩

instance : Inhabited (Signed w) :=
  ⟨0⟩

@[simp] theorem val_zero :
    (0 : Signed w).val = 0 := by
  have hPos : (0 : Int) < 2 ^ w :=
      Int.pow_pos (by decide)
  change max (-2 ^ w) (min ((0 : Nat) : Int) (2 ^ w - 1)) = 0
  omega

/- The value `x` when it lies in the signed range. -/
def ofInt?
    (w : Nat)
    (x : Int) :
    Option (Signed w) :=
  if hRange : -2 ^ w ≤ x ∧ x < 2 ^ w then
    some ⟨x, hRange.1, hRange.2⟩
  else
    none

/- Addition that fails on overflow. -/
def checkedAdd
    (a b : Signed w) :
    Option (Signed w) :=
  ofInt? w (a.val + b.val)

/- Addition clipped to the signed range. -/
def saturatingAdd
    (a b : Signed w) :
    Signed w :=
  clamp w (a.val + b.val)

/- Subtraction clipped to the signed range. -/
def saturatingSub
    (a b : Signed w) :
    Signed w :=
  clamp w (a.val - b.val)

theorem ofInt?_eq_some_iff
    {x : Int}
    {c : Signed w} :
    ofInt? w x = some c ↔ c.val = x := by
  unfold ofInt?
  constructor
  · intro hSome
    by_cases hRange : -2 ^ w ≤ x ∧ x < 2 ^ w
    · rw [dif_pos hRange] at hSome
      exact (congrArg val (Option.some.inj hSome)).symm
    · rw [dif_neg hRange] at hSome
      exact absurd hSome (by simp)
  · intro hVal
    subst hVal
    rw [dif_pos ⟨c.lower, c.upper⟩]

/- Checked signed addition succeeds with the exact sum. -/
@[simp] theorem checkedAdd_eq_some_iff
    {a b c : Signed w} :
    checkedAdd a b = some c ↔ c.val = a.val + b.val :=
  ofInt?_eq_some_iff

/- It fails on a sum that does not fit. -/
theorem checkedAdd_eq_none_iff
    {a b : Signed w} :
    checkedAdd a b = none ↔
      a.val + b.val < -2 ^ w ∨ 2 ^ w ≤ a.val + b.val := by
  unfold checkedAdd ofInt?
  by_cases hRange :
      -2 ^ w ≤ a.val + b.val ∧ a.val + b.val < 2 ^ w
  · rw [dif_pos hRange]
    simp only [reduceCtorEq, false_iff]
    omega
  · rw [dif_neg hRange]
    simp only [true_iff]
    omega

@[simp] theorem val_saturatingAdd
    (a b : Signed w) :
    (saturatingAdd a b).val =
      max (-2 ^ w) (min (a.val + b.val) (2 ^ w - 1)) := rfl

@[simp] theorem val_saturatingSub
    (a b : Signed w) :
    (saturatingSub a b).val =
      max (-2 ^ w) (min (a.val - b.val) (2 ^ w - 1)) := rfl

/- Division by a positive constant, rounded toward zero. -/
def quot
    (a : Signed w)
    (d : Nat) :
    Signed w :=
  ⟨a.val.tdiv d, by
    have hAbs := Int.natAbs_tdiv_le_natAbs a.val d
    have hLower := a.lower
    have hUpper := a.upper
    omega, by
    have hAbs := Int.natAbs_tdiv_le_natAbs a.val d
    have hLower := a.lower
    have hUpper := a.upper
    by_cases hNonneg : 0 ≤ a.val
    · omega
    · have hQuot : 0 ≤ (-a.val).tdiv d :=
        Int.tdiv_nonneg (by omega) (Int.natCast_nonneg d)
      rw [Int.neg_tdiv] at hQuot
      omega⟩

@[simp] theorem val_quot
    (a : Signed w)
    (d : Nat) :
    (a.quot d).val = a.val.tdiv d := rfl

/- The cast `a as uN` of a signed value: two's complement. -/
def toUnsigned
    (v : Nat)
    (a : Signed w) :
    Unsigned v :=
  ⟨(a.val % 2 ^ v).toNat, by
    have hPos : (0 : Int) < 2 ^ v :=
      Int.pow_pos (by decide)
    have hMod := Int.emod_lt_of_pos a.val hPos
    have hNonneg := Int.emod_nonneg a.val (ne_of_gt hPos)
    zify
    rwa [Int.toNat_of_nonneg hNonneg]⟩

/- A nonnegative value that fits is kept by the cast. -/
theorem val_toUnsigned_of_nonneg
    {v : Nat}
    {a : Signed w}
    (hNonneg : 0 ≤ a.val)
    (hFits : a.val < 2 ^ v) :
    ((a.toUnsigned v).val : Int) = a.val := by
  have hMod : a.val % 2 ^ v = a.val :=
    Int.emod_eq_of_lt hNonneg hFits
  change ((a.val % 2 ^ v).toNat : Int) = a.val
  rw [hMod]
  omega

end Signed

end MachineInt
