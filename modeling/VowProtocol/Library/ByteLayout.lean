import VowProtocol.Library.MachineInt
import Mathlib.Algebra.Order.Group.Nat

/-
  Numbers as byte strings of a fixed width.

  Joining fields of a known width loses nothing, so what a
  joined string determines is what its fields determine.

  Key definitions include:
    * `ByteLayout.leBytes`
    * `ByteLayout.readLe`

  Key theorems include:
    * `ByteLayout.readLe_leBytes`
    * `ByteLayout.leBytes_inj`
-/

------------------------------------------------------------
-- Little-Endian Numbers
------------------------------------------------------------

namespace ByteLayout

open MachineInt

/- The lowest `width` bytes of a number, lowest first. -/
def leBytes : Nat → Nat → List (Unsigned 8)
| 0, _ => []
| width + 1, n =>
    Unsigned.ofNat 8 (n % 256) :: leBytes width (n / 256)

/- The number that a byte string stands for. -/
def readLe
    (bytes : List (Unsigned 8)) :
    Nat :=
  bytes.foldr (fun byte rest => byte.val + 256 * rest) 0

@[simp] theorem leBytes_length
    (width n : Nat) :
    (leBytes width n).length = width := by
  induction width generalizing n with
  | zero => rfl
  | succ width ih =>
      rw [leBytes, List.length_cons, ih]

/- Reading gives back what fits the width. -/
theorem readLe_leBytes
    (width n : Nat) :
    readLe (leBytes width n) = n % 256 ^ width := by
  induction width generalizing n with
  | zero =>
      rw [pow_zero, Nat.mod_one]
      rfl
  | succ width ih =>
      have hByte :
          (Unsigned.ofNat 8 (n % 256)).val = n % 256 := by
        rw [Unsigned.val_ofNat]
        omega
      have hRead :
          readLe (leBytes (width + 1) n) =
            (Unsigned.ofNat 8 (n % 256)).val +
              256 * readLe (leBytes width (n / 256)) := rfl
      rw [hRead, hByte, ih, pow_succ', Nat.mod_mul]

theorem leBytes_inj
    {width n m : Nat}
    (hLeft : n < 256 ^ width)
    (hRight : m < 256 ^ width)
    (hSame : leBytes width n = leBytes width m) :
    n = m := by
  have hRead : readLe (leBytes width n) =
      readLe (leBytes width m) := by
    rw [hSame]
  rw [readLe_leBytes, readLe_leBytes, Nat.mod_eq_of_lt hLeft,
    Nat.mod_eq_of_lt hRight] at hRead
  exact hRead

end ByteLayout
