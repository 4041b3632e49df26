import Mathlib.Algebra.Order.BigOperators.Group.Finset
import Mathlib.Data.List.AList

/-!
# Dictionaries, their values, and the order nobody promises

A dictionary is Mathlib's `AList`: its entries carry the proof that no key occurs twice. This
module adds what a program reads back out of one: `values`, the keys under which a value is stored
(`Keyed`), and `Enumeration`, the arbitrary order in which a hashed dictionary lists its values. A
table whose keys are not listed is a partial function; `update_eq_some` reads it after a change, and
`sum_update_add` compares a weight before and after one.

Nothing here names a program.
-/

namespace AniChat.Collections

/-- A dictionary from `κ` to `α`: at most one value for a key. -/
abbrev Dictionary (κ α : Type*) := AList fun _ : κ => α

/-- An order in which a hashed dictionary may list its values: some permutation of any list it is
given, and no promise which. -/
structure Enumeration (α : Type*) where
  order : List α → List α
  perm : ∀ l, (order l).Perm l

/-- The enumeration that lists values as they are stored. -/
def Enumeration.stored (α : Type*) : Enumeration α := ⟨id, fun _ => List.Perm.refl _⟩

namespace Dictionary

variable {κ α : Type*}

/-- The values, in the order they are stored. -/
def values (d : Dictionary κ α) : List α := d.entries.map Sigma.snd

theorem length_values (d : Dictionary κ α) : (values d).length = d.keys.length := by
  simp only [values, AList.keys, List.keys, List.length_map]

variable [DecidableEq κ]

theorem mem_values {d : Dictionary κ α} {v : α} : v ∈ values d ↔ ∃ k, d.lookup k = some v := by
  simp only [values, List.mem_map, Sigma.exists, exists_eq_right, ← Option.mem_def,
    AList.mem_lookup_iff]

/-- Every value is stored under its own key. -/
def Keyed (key : α → κ) (d : Dictionary κ α) : Prop := ∀ k v, d.lookup k = some v → key v = k

theorem keyed_empty (key : α → κ) : Keyed key (∅ : Dictionary κ α) := fun k v h => by
  simp only [AList.lookup_empty, reduceCtorEq] at h

theorem lookup_insert_iff {d : Dictionary κ α} {k k' : κ} {v : α} :
    (d.insert k v).lookup k' = if k' = k then some v else d.lookup k' := by
  by_cases h : k' = k
  · rw [if_pos h, h, AList.lookup_insert]
  · rw [if_neg h, AList.lookup_insert_ne h]

theorem Keyed.insert {key : α → κ} {d : Dictionary κ α} (h : Keyed key d) (v : α) :
    Keyed key (d.insert (key v) v) := by
  intro k w hw
  rw [lookup_insert_iff] at hw
  split at hw
  · next hk => cases hw; exact hk.symm
  · exact h k w hw

/-- The keys of the values, in order, are the dictionary's keys. -/
theorem Keyed.map_values {key : α → κ} {d : Dictionary κ α} (h : Keyed key d) :
    (values d).map key = d.keys := by
  simp only [values, AList.keys, List.keys, List.map_map]
  refine List.map_congr_left fun e he => ?_
  exact h e.1 e.2 (AList.mem_lookup_iff.mpr he)

/-- One value for a key: no two values share theirs. -/
theorem Keyed.nodup_map {key : α → κ} {d : Dictionary κ α} (h : Keyed key d) :
    ((values d).map key).Nodup := by
  rw [h.map_values]
  exact d.keys_nodup

theorem Keyed.mem_values {key : α → κ} {d : Dictionary κ α} (h : Keyed key d) {v : α} :
    v ∈ values d ↔ d.lookup (key v) = some v := by
  rw [Dictionary.mem_values]
  constructor
  · rintro ⟨k, hk⟩
    rw [h k v hk]
    exact hk
  · exact fun hk => ⟨key v, hk⟩

/-- Writing under a key never shrinks the list of values. -/
theorem length_values_insert_le (d : Dictionary κ α) (k : κ) (v : α) :
    (values d).length ≤ (values (d.insert k v)).length := by
  rw [length_values, length_values, AList.keys_insert]
  by_cases h : k ∈ d.keys
  · rw [List.length_cons, List.length_erase_of_mem h]
    omega
  · rw [List.length_cons, List.erase_of_not_mem h]
    omega

end Dictionary

/-! ## Tables as partial functions -/

section Table

variable {κ α : Type*} [DecidableEq κ] {f : κ → Option α} {k k' : κ} {a b : α}

/-- What a table holds after one entry is stored is that entry, or was there under another key. -/
theorem update_eq_some : Function.update f k (some a) k' = some b ↔
    k' = k ∧ b = a ∨ k' ≠ k ∧ f k' = some b := by
  rw [Function.update_apply]
  by_cases hk : k' = k
  · simp only [hk, if_true, Option.some.injEq, ne_eq, not_true_eq_false, false_and, or_false,
      true_and, eq_comm]
  · simp only [hk, if_false, ne_eq, not_false_eq_true, true_and, false_and, false_or]

/-- Where it holds nothing it held nothing. -/
theorem update_eq_none : Function.update f k (some a) k' = none ↔ k' ≠ k ∧ f k' = none := by
  rw [Function.update_apply]
  by_cases hk : k' = k
  · simp only [hk, if_true, reduceCtorEq, ne_eq, not_true_eq_false, false_and]
  · simp only [hk, if_false, ne_eq, not_false_eq_true, true_and]

/-- What it holds after one entry is removed was there under another key. -/
theorem update_none_eq_some : Function.update f k none k' = some b ↔ k' ≠ k ∧ f k' = some b := by
  rw [Function.update_apply]
  by_cases hk : k' = k
  · simp only [hk, if_true, reduceCtorEq, ne_eq, not_true_eq_false, false_and]
  · simp only [hk, if_false, ne_eq, not_false_eq_true, true_and]

/-- A weight added up over the keys of a table, after one of its values is replaced. -/
theorem sum_update_add {β : Type*} {f : κ → β} {x : β} {s : Finset κ} (weight : β → ℕ)
    (mem : k ∈ s) : ∑ j ∈ s, weight (Function.update f k x j) + weight (f k) =
      ∑ j ∈ s, weight (f j) + weight x := by
  have hrest : ∑ j ∈ s.erase k, weight (Function.update f k x j) =
      ∑ j ∈ s.erase k, weight (f j) := by
    apply Finset.sum_congr rfl
    intro j hj
    rw [Function.update_of_ne (Finset.ne_of_mem_erase hj)]
  rw [← Finset.add_sum_erase s _ mem, ← Finset.add_sum_erase s (fun j => weight (f j)) mem, hrest,
    Function.update_self]
  omega

end Table

end AniChat.Collections
