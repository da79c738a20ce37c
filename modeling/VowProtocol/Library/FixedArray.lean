import Mathlib.Data.List.Basic

/-
  A variable-length list stored in an array of fixed length:
  the entries one after the other, then a padding value in
  the slots that are left.

  Key definitions include:
    * `FixedArray.write`
    * `FixedArray.pad`

  Key theorems include:
    * `FixedArray.toList_write`
    * `FixedArray.pad_eq_write`
    * `FixedArray.toList_pad_write`
-/

------------------------------------------------------------
-- Writing Entries
------------------------------------------------------------

namespace FixedArray

variable {α : Type} {n : Nat}

/- Write the entries into the slots from `start` on. -/
def write
    (xs : List α)
    (start : Nat)
    (slots : Vector α n) :
    Vector α n :=
  (xs.zipIdx start).foldl
    (fun slots entry =>
      slots.setIfInBounds entry.2 entry.1) slots

theorem write_cons
    (x : α)
    (xs : List α)
    (start : Nat)
    (slots : Vector α n) :
    write (x :: xs) start slots =
      write xs (start + 1) (slots.setIfInBounds start x) := by
  rfl

/- The slots before and after the entries are kept. -/
theorem toList_write
    (xs : List α)
    {start : Nat}
    {slots : Vector α n}
    (hFits : start + xs.length ≤ n) :
    (write xs start slots).toList =
      slots.toList.take start ++ xs ++
        slots.toList.drop (start + xs.length) := by
  induction xs generalizing start slots with
  | nil =>
      simp [write]
  | cons x xs ih =>
      rw [List.length_cons] at hFits
      have hSlot : start < slots.toList.length := by
        rw [Vector.length_toList]
        omega
      have hSet :
          (slots.setIfInBounds start x).toList =
            slots.toList.set start x :=
        Vector.toList_setIfInBounds
      have hTake :
          (slots.toList.set start x).take (start + 1) =
            slots.toList.take start ++ [x] := by
        rw [List.set_eq_take_append_cons_drop, if_pos hSlot,
          List.take_append, List.length_take,
          Nat.min_eq_left (Nat.le_of_lt hSlot),
          List.take_take,
          Nat.min_eq_right (Nat.le_succ start)]
        simp
      have hDrop :
          (slots.toList.set start x).drop
              (start + 1 + xs.length) =
            slots.toList.drop (start + 1 + xs.length) :=
        List.drop_set_of_lt (by omega)
      rw [write_cons, ih (by omega), hSet, hTake, hDrop,
        List.length_cons]
      simp [Nat.add_comm, Nat.add_left_comm]

end FixedArray

------------------------------------------------------------
-- Padding
------------------------------------------------------------

namespace FixedArray

variable {α : Type} {n : Nat}

/- Write one value into `count` slots from `start` on. -/
def pad
    (blank : α)
    (start count : Nat)
    (slots : Vector α n) :
    Vector α n :=
  (List.range' start count).foldl
    (fun slots i => slots.setIfInBounds i blank) slots

theorem pad_eq_write
    (blank : α)
    (start count : Nat)
    (slots : Vector α n) :
    pad blank start count slots =
      write (List.replicate count blank) start slots := by
  induction count generalizing start slots with
  | zero => rfl
  | succ count ih =>
      rw [List.replicate_succ, write_cons, ← ih]
      rfl

/-
  A list that fits is stored as itself followed by the
  padding, whatever the array held before.
-/
theorem toList_pad_write
    {xs : List α}
    (blank : α)
    (slots : Vector α n)
    (hFits : xs.length ≤ n) :
    (pad blank xs.length (n - xs.length)
        (write xs 0 slots)).toList =
      xs ++ List.replicate (n - xs.length) blank := by
  have hStored :
      (write xs 0 slots).toList =
        xs ++ slots.toList.drop xs.length := by
    rw [toList_write xs (by omega)]
    simp
  have hRoom :
      xs.length +
        (List.replicate (n - xs.length) blank).length ≤
          n := by
    rw [List.length_replicate]
    omega
  have hRest :
      (xs ++ slots.toList.drop xs.length).drop
        (xs.length + (n - xs.length)) = [] := by
    have hLength :
        (xs ++ slots.toList.drop xs.length).length =
          xs.length + (n - xs.length) := by
      rw [List.length_append, List.length_drop,
        Vector.length_toList]
    exact List.drop_eq_nil_of_le (Nat.le_of_eq hLength)
  rw [pad_eq_write, toList_write _ hRoom, hStored,
    List.take_left, List.length_replicate, hRest,
    List.append_nil]

end FixedArray
