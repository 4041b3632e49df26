import Mathlib.Data.List.Nodup
import Mathlib.Order.Lattice

/-!
# The latest element of each key

Elements carry a key and a date. `LatestRows ms rows` says what a list of most recent elements is:
one row for each key of `ms`, the latest of that key, in decreasing order of date. It determines
its rows (`LatestRows.unique`), whatever the order of `ms`.

A program that overwrites keeps, for each key, the last element it was handed (`lastWith`). The two
agree exactly when the last element of each key is its latest: `LatestLast`, a condition on the
order of arrival. `latestRows_iff_latestLast` is that equivalence.

Nothing here names a program.
-/

namespace AniChat.Collections

variable {α κ δ : Type*} (key : α → κ) (date : α → δ)

section Last

variable [DecidableEq κ]

/-- The last element of `l` whose key is `k`. -/
def lastWith (k : κ) (l : List α) : Option α := (l.filter fun a => key a = k).getLast?

variable {key}

theorem lastWith_snoc (k : κ) (l : List α) (a : α) :
    lastWith key k (l ++ [a]) = if k = key a then some a else lastWith key k l := by
  unfold lastWith
  by_cases h : key a = k
  · rw [if_pos h.symm, List.filter_append, List.filter_cons_of_pos (by simpa using h),
      List.filter_nil, List.getLast?_append, List.getLast?_singleton, Option.some_or]
  · rw [if_neg (Ne.symm h), List.filter_append, List.filter_cons_of_neg (by simpa using h),
      List.filter_nil, List.append_nil]

theorem mem_of_lastWith {k : κ} {l : List α} {a : α} (h : lastWith key k l = some a) :
    a ∈ l ∧ key a = k := by
  have hmem := List.mem_of_getLast? h
  simpa only [List.mem_filter, decide_eq_true_eq] using hmem

/-- A key that occurs has a last element. -/
theorem exists_lastWith {l : List α} {a : α} (h : a ∈ l) : ∃ r, lastWith key (key a) l = some r := by
  have hmem : a ∈ l.filter fun b => key b = key a := by simp only [List.mem_filter, h, decide_true,
    and_self]
  cases hl : (l.filter fun b => key b = key a).getLast? with
  | none => rw [List.getLast?_eq_none_iff.mp hl] at hmem; cases hmem
  | some r => exact ⟨r, hl⟩

/-- A key has a last element exactly when it occurs. -/
theorem exists_lastWith_iff {l : List α} {k : κ} :
    (∃ r, lastWith key k l = some r) ↔ ∃ a ∈ l, key a = k := by
  constructor
  · rintro ⟨r, hr⟩
    exact ⟨r, mem_of_lastWith hr⟩
  · rintro ⟨a, ha, rfl⟩
    exact exists_lastWith ha

end Last

variable [LinearOrder δ]

/-- **The most recent elements of `ms`**: for each key that occurs one row, the latest element of
that key, and the rows in decreasing order of date. -/
structure LatestRows (ms rows : List α) : Prop where
  mem : ∀ r ∈ rows, r ∈ ms
  one : (rows.map key).Nodup
  latest : ∀ m ∈ ms, ∃ r ∈ rows, key r = key m ∧ date m ≤ date r
  decreasing : rows.Pairwise fun a b => date b < date a

variable {key date}

/-- The rows speak of the members of `ms`, not of their order. -/
theorem LatestRows.congr {ms ms' rows : List α} (h : LatestRows key date ms rows)
    (same : ∀ a, a ∈ ms ↔ a ∈ ms') : LatestRows key date ms' rows where
  mem r hr := (same r).mp (h.mem r hr)
  one := h.one
  latest m hm := h.latest m ((same m).mpr hm)
  decreasing := h.decreasing

/-- A row is the latest of its key. -/
theorem LatestRows.mem_iff {ms rows : List α} (h : LatestRows key date ms rows)
    (distinct : ∀ a ∈ ms, ∀ b ∈ ms, date a = date b → a = b) {r : α} :
    r ∈ rows ↔ r ∈ ms ∧ ∀ m ∈ ms, key m = key r → date m ≤ date r := by
  constructor
  · intro hr
    refine ⟨h.mem r hr, fun m hm hk => ?_⟩
    obtain ⟨r', hr', hk', hle⟩ := h.latest m hm
    rw [List.inj_on_of_nodup_map h.one hr hr' (hk.symm.trans hk'.symm)]
    exact hle
  · rintro ⟨hr, hmax⟩
    obtain ⟨r', hr', hk', hle⟩ := h.latest r hr
    have hge := hmax r' (h.mem r' hr') hk'
    rw [distinct r hr r' (h.mem r' hr') (le_antisymm hle hge)]
    exact hr'

/-- The rows depend on the members of `ms` alone. -/
theorem LatestRows.unique {ms ms' rows rows' : List α} (h : LatestRows key date ms rows)
    (h' : LatestRows key date ms' rows') (same : ∀ a, a ∈ ms ↔ a ∈ ms')
    (distinct : ∀ a ∈ ms, ∀ b ∈ ms, date a = date b → a = b) : rows = rows' := by
  have distinct' : ∀ a ∈ ms', ∀ b ∈ ms', date a = date b → a = b := fun a ha b hb =>
    distinct a ((same a).mpr ha) b ((same b).mpr hb)
  have mem : ∀ a, a ∈ rows ↔ a ∈ rows' := fun a => by
    rw [h.mem_iff distinct, h'.mem_iff distinct']
    simp only [same]
  have perm : rows.Perm rows' :=
    (List.perm_ext_iff_of_nodup (List.Nodup.of_map _ h.one) (List.Nodup.of_map _ h'.one)).mpr mem
  exact List.Perm.eq_of_pairwise (fun a b _ _ hab hba => absurd hab (lt_asymm hba))
    h.decreasing h'.decreasing perm

variable (key date)

/-- The last element of each key is its latest. -/
def LatestLast [DecidableEq κ] (ms : List α) : Prop :=
  ∀ m ∈ ms, ∀ r, lastWith key (key m) ms = some r → date m ≤ date r

variable {key date}

/-- Rows that keep the last element of each key are the most recent elements exactly when the last
of each key is its latest. -/
theorem latestRows_iff_latestLast [DecidableEq κ] {ms rows : List α}
    (last : ∀ r, r ∈ rows ↔ lastWith key (key r) ms = some r) (one : (rows.map key).Nodup)
    (sorted : rows.Pairwise fun a b => date b ≤ date a)
    (distinct : ∀ a ∈ ms, ∀ b ∈ ms, date a = date b → a = b) :
    LatestRows key date ms rows ↔ LatestLast key date ms := by
  have mem : ∀ r ∈ rows, r ∈ ms := fun r hr => (mem_of_lastWith ((last r).mp hr)).1
  constructor
  · intro h m hm r hr
    obtain ⟨hrm, hrk⟩ := mem_of_lastWith hr
    have hrow : r ∈ rows := (last r).mpr (by rw [hrk]; exact hr)
    exact ((h.mem_iff distinct).mp hrow).2 m hm hrk.symm
  · intro h
    refine ⟨mem, one, fun m hm => ?_, ?_⟩
    · obtain ⟨r, hr⟩ : ∃ r, lastWith key (key m) ms = some r := exists_lastWith hm
      obtain ⟨-, hrk⟩ := mem_of_lastWith hr
      exact ⟨r, (last r).mpr (by rw [hrk]; exact hr), hrk, h m hm r hr⟩
    · -- distinct rows have distinct dates, so the order is strict
      refine (sorted.and (List.Nodup.of_map _ one)).imp_of_mem fun {a b} ha hb hab => ?_
      exact lt_of_le_of_ne hab.1 fun hd => hab.2 (distinct b (mem b hb) a (mem a ha) hd).symm

end AniChat.Collections
