import Mathlib.Algebra.BigOperators.Group.List.Basic
import Mathlib.Algebra.Order.Group.Nat
import Mathlib.Data.List.AList

/-
  Finite account maps and sums of a quantity over all
  accounts.

  An account map is a non-dependent association list with
  distinct keys. `AccountMap.total f m` adds the quantity `f`
  over every stored value. The lemmas say how the total moves
  under creation, update and removal of one account.

  Key definitions include:
    * `AccountMap`
    * `AccountMap.All`
    * `AccountMap.total`

  Key theorems include:
    * `AccountMap.total_insert_of_lookup_none`
    * `AccountMap.total_insert_of_lookup`
    * `AccountMap.total_erase_of_lookup`
    * `AccountMap.total_congr`
    * `AccountMap.total_insert_add_le`
-/

------------------------------------------------------------
-- Account Maps
------------------------------------------------------------

/- A finite map from keys to account values. -/
abbrev AccountMap (K V : Type) :=
  AList (fun _ : K => V)

namespace AccountMap

variable {K V : Type} [DecidableEq K]

/- Lookup after an insertion. -/
theorem lookup_insert_eq
    (m : AccountMap K V)
    (k k' : K)
    (v : V) :
    (m.insert k v).lookup k' =
      if k' = k then some v else m.lookup k' := by
  by_cases hKey : k' = k
  · subst hKey
    simp
  · simp [hKey]

/- Lookup after a removal. -/
theorem lookup_erase_eq
    (m : AccountMap K V)
    (k k' : K) :
    (m.erase k).lookup k' =
      if k' = k then none else m.lookup k' := by
  by_cases hKey : k' = k
  · subst hKey
    simp
  · simp [hKey]

/- Every stored account satisfies `R` at its key. -/
def All
    (R : K → V → Prop)
    (m : AccountMap K V) :
    Prop :=
  ∀ k v, m.lookup k = some v → R k v

variable {R : K → V → Prop}

theorem All.empty :
    All R (∅ : AccountMap K V) := by
  intro k v hLookup
  simp at hLookup

theorem All.insert
    {m : AccountMap K V}
    {k : K}
    {v : V}
    (hAll : All R m)
    (hNew : R k v) :
    All R (m.insert k v) := by
  intro k' v' hLookup
  rw [lookup_insert_eq] at hLookup
  by_cases hKey : k' = k
  · rw [if_pos hKey] at hLookup
    cases hLookup
    rw [hKey]
    exact hNew
  · rw [if_neg hKey] at hLookup
    exact hAll k' v' hLookup

theorem All.erase
    {m : AccountMap K V}
    (hAll : All R m)
    (k : K) :
    All R (m.erase k) := by
  intro k' v' hLookup
  rw [lookup_erase_eq] at hLookup
  by_cases hKey : k' = k
  · rw [if_pos hKey] at hLookup
    cases hLookup
  · rw [if_neg hKey] at hLookup
    exact hAll k' v' hLookup

end AccountMap

------------------------------------------------------------
-- Totals
------------------------------------------------------------

namespace AccountMap

variable {K V M : Type} [DecidableEq K] [AddCommMonoid M]

/- The sum of `f` over every stored value. -/
def total
    (f : V → M)
    (m : AccountMap K V) :
    M :=
  (m.entries.map (fun entry => f entry.2)).sum

omit [DecidableEq K] in
@[simp] theorem total_empty
    (f : V → M) :
    total f (∅ : AccountMap K V) = 0 := rfl

/- Removing a stored account removes its share of the total. -/
theorem total_erase_of_lookup
    {f : V → M}
    {m : AccountMap K V}
    {k : K}
    {v : V}
    (hLookup : m.lookup k = some v) :
    total f (m.erase k) + f v = total f m := by
  have hMem : (⟨k, v⟩ : Σ _ : K, V) ∈ m.entries :=
    AList.mem_lookup_iff.mp hLookup
  have hKey : k ∈ m.entries.keys :=
    List.mem_keys_of_mem hMem
  rcases List.exists_of_kerase hKey with
    ⟨value, before, after, hFresh, hEntries, hErase⟩
  have hSame : value = v := by
    have hOther :
        (⟨k, value⟩ : Σ _ : K, V) ∈ m.entries := by
      rw [hEntries]
      simp
    exact m.nodupKeys.eq_of_mk_mem hOther hMem
  subst hSame
  have hTotal :
      total f m =
        (before.map (fun entry => f entry.2)).sum +
          (f value +
            (after.map (fun entry => f entry.2)).sum) := by
    unfold total
    rw [hEntries]
    simp
  have hErased :
      total f (m.erase k) =
        (before.map (fun entry => f entry.2)).sum +
          (after.map (fun entry => f entry.2)).sum := by
    unfold total AList.erase
    simp [hErase]
  rw [hTotal, hErased, add_assoc, add_comm _ (f value)]

/- Removing a missing account changes no total. -/
theorem total_erase_of_lookup_none
    (f : V → M)
    {m : AccountMap K V}
    {k : K}
    (hLookup : m.lookup k = none) :
    total f (m.erase k) = total f m := by
  have hFresh : k ∉ m := AList.lookup_eq_none.mp hLookup
  have hSame : m.erase k = m :=
    AList.ext (List.kerase_of_notMem_keys hFresh)
  rw [hSame]

/- An insertion is a removal followed by one new account. -/
theorem total_insert
    (f : V → M)
    (m : AccountMap K V)
    (k : K)
    (v : V) :
    total f (m.insert k v) = f v + total f (m.erase k) := by
  unfold total AList.erase
  simp [AList.entries_insert]

/- Creating an account adds its share to the total. -/
theorem total_insert_of_lookup_none
    {f : V → M}
    {m : AccountMap K V}
    {k : K}
    (hLookup : m.lookup k = none)
    (v : V) :
    total f (m.insert k v) = total f m + f v := by
  have hFresh : k ∉ m := AList.lookup_eq_none.mp hLookup
  unfold total
  rw [AList.entries_insert_of_notMem hFresh]
  simp [add_comm]

/- Updating an account replaces its share of the total. -/
theorem total_insert_of_lookup
    {f : V → M}
    {m : AccountMap K V}
    {k : K}
    {v : V}
    (hLookup : m.lookup k = some v)
    (v' : V) :
    total f (m.insert k v') + f v = total f m + f v' := by
  rw [total_insert, add_assoc,
    total_erase_of_lookup hLookup, add_comm]

/-
  An update that keeps the measured quantity keeps the total.
-/
theorem total_insert_of_eq
    {f : V → Nat}
    {m : AccountMap K V}
    {k : K}
    {v v' : V}
    (hLookup : m.lookup k = some v)
    (hSame : f v' = f v) :
    total f (m.insert k v') = total f m := by
  have hInsert := total_insert_of_lookup (f := f) hLookup v'
  omega

/- The total depends on the stored accounts only. -/
theorem total_congr
    (f : V → M)
    {m m' : AccountMap K V}
    (hSame : ∀ k, m'.lookup k = m.lookup k) :
    total f m' = total f m := by
  have hEntries : m'.entries.Perm m.entries := by
    refine List.lookup_ext m'.nodupKeys m.nodupKeys ?_
    intro k v
    exact iff_of_eq (congrArg (v ∈ ·) (hSame k))
  exact (hEntries.map _).sum_eq

end AccountMap

------------------------------------------------------------
-- Ordered Totals
------------------------------------------------------------

namespace AccountMap

variable {K V M : Type} [DecidableEq K] [AddCommMonoid M]
  [PartialOrder M] [IsOrderedAddMonoid M]

/- What an account gives up leaves the total. -/
theorem total_insert_add_le
    {f : V → M}
    {m : AccountMap K V}
    {k : K}
    {v v' : V}
    {amount : M}
    (hLookup : m.lookup k = some v)
    (hLess : amount + f v' ≤ f v) :
    amount + total f (m.insert k v') ≤ total f m := by
  rw [total_insert, ← total_erase_of_lookup hLookup,
    ← add_assoc, add_comm _ (f v)]
  exact add_le_add_left hLess _

/- A removed account takes its share with it. -/
theorem total_erase_le
    {f : V → M}
    {m : AccountMap K V}
    {k : K}
    {v : V}
    (hLookup : m.lookup k = some v)
    (hPos : 0 ≤ f v) :
    total f (m.erase k) ≤ total f m := by
  rw [← total_erase_of_lookup hLookup]
  exact le_add_of_nonneg_right hPos

end AccountMap
