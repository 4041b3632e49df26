import Mathlib.Data.List.Nodup
import Mathlib.Data.List.Pairwise
import Mathlib.Logic.Function.Basic

/-!
# Trees of paths

A store that keeps primitive values at the ends of paths, and nothing else: an inner node is there
while something lies below it. The tree is the list of its leaves, with the proof that no leaf lies
at or below another, so each of them can be reached.

A write puts a leaf at a path. What lay below the path goes, and so does a leaf the path leads
through (`value_set`). An update writes the children of a path one by one and leaves its other
children (`value_update`). A `Layout` is a family of paths that do not meet: a tree that `Holds` data
under a layout is a table of them, and a write of the tree is a write of the table.

Nothing here names a program.
-/

namespace AniChat.Collections

variable {K V : Type*}

/-- One of two paths leads through the other. -/
def Related (p q : List K) : Prop := p <+: q ∨ q <+: p

instance [DecidableEq K] (p q : List K) : Decidable (Related p q) :=
  inferInstanceAs (Decidable (p <+: q ∨ q <+: p))

theorem Related.symm {p q : List K} (h : Related p q) : Related q p := Or.symm h

theorem related_self (p : List K) : Related p p := .inl List.prefix_rfl

/-- Paths of one length lead through each other only where they are one path. -/
theorem related_iff_of_length {p q : List K} (h : p.length = q.length) : Related p q ↔ p = q := by
  constructor
  · rintro (hp | hq)
    · exact hp.eq_of_length h
    · exact (hq.eq_of_length h.symm).symm
  · rintro rfl
    exact related_self p

/-- Of the children of a path, none leads through another. -/
theorem related_child {p : List K} {k k' : K} : Related (p ++ [k]) (p ++ [k']) ↔ k = k' := by
  have hlength : (p ++ [k]).length = (p ++ [k']).length := by
    rw [List.length_append, List.length_append]
    rfl
  rw [related_iff_of_length hlength, List.append_cancel_left_eq, List.singleton_inj]

/-- A tree, by its leaves: no leaf lies at or below another. -/
structure PathTree (K V : Type*) where
  leaves : List (List K × V)
  apart : leaves.Pairwise fun a b => ¬ Related a.1 b.1

instance : Std.Symm fun a b : List K × V => ¬ Related a.1 b.1 := ⟨fun _ _ h hr => h hr.symm⟩

namespace PathTree

/-- Nothing stored. -/
def empty : PathTree K V := ⟨[], .nil⟩

/-- Something lies at a path or below it. -/
def Exists (t : PathTree K V) (p : List K) : Prop := ∃ e ∈ t.leaves, p <+: e.1

variable [DecidableEq K]

instance (t : PathTree K V) (p : List K) : Decidable (t.Exists p) :=
  inferInstanceAs (Decidable (∃ e ∈ t.leaves, p <+: e.1))

/-- The leaf at a path. -/
def value (t : PathTree K V) (p : List K) : Option V :=
  (t.leaves.find? fun e => e.1 = p).map Prod.snd

/-- A leaf is written at a path. -/
def set (t : PathTree K V) (p : List K) (v : V) : PathTree K V where
  leaves := (p, v) :: t.leaves.filter fun e => ¬ Related p e.1
  apart := by
    refine List.pairwise_cons.mpr ⟨fun e he => ?_, t.apart.filter _⟩
    exact of_decide_eq_true (List.mem_filter.mp he).2

/-- The children of a path are written one by one. -/
def update (t : PathTree K V) (p : List K) (fields : List (K × V)) : PathTree K V :=
  fields.foldl (fun t f => t.set (p ++ [f.1]) f.2) t

/-! ## Reading -/

variable {t : PathTree K V} {p q : List K} {v : V}

theorem value_eq_some : t.value p = some v ↔ (p, v) ∈ t.leaves := by
  constructor
  · intro h
    obtain ⟨e, he, rfl⟩ := Option.map_eq_some_iff.mp h
    have hkey : e.1 = p := by simpa only [decide_eq_true_eq] using List.find?_some he
    exact hkey ▸ List.mem_of_find?_eq_some he
  · intro h
    cases hf : t.leaves.find? fun e => e.1 = p with
    | none =>
      have hne := List.find?_eq_none.mp hf _ h
      exact absurd (decide_eq_true rfl) hne
    | some e =>
      have hkey : e.1 = p := by simpa only [decide_eq_true_eq] using List.find?_some hf
      -- two leaves at one path are one leaf
      have heq : e = (p, v) := by
        by_contra hne
        have happart := t.apart.forall (List.mem_of_find?_eq_some hf) h hne
        exact happart (hkey ▸ related_self _)
      rw [value, hf, heq]
      rfl

theorem exists_iff : t.Exists p ↔ ∃ q v, t.value q = some v ∧ p <+: q := by
  constructor
  · rintro ⟨⟨q, v⟩, he, hp⟩
    exact ⟨q, v, value_eq_some.mpr he, hp⟩
  · rintro ⟨q, v, hq, hp⟩
    exact ⟨(q, v), value_eq_some.mp hq, hp⟩

/-! ## Writing -/

/-- **Read after write.** -/
theorem value_set (t : PathTree K V) (p q : List K) (v : V) :
    (t.set p v).value q = if q = p then some v else if Related p q then none else t.value q := by
  refine Option.ext fun w => ?_
  rw [value_eq_some]
  show (q, w) ∈ (p, v) :: t.leaves.filter _ ↔ _
  rw [List.mem_cons, List.mem_filter, ← value_eq_some, decide_eq_true_eq, Prod.mk.injEq]
  by_cases hq : q = p
  · subst hq
    simp only [related_self, not_true_eq_false, and_false, or_false, true_and, if_true,
      Option.some.injEq, eq_comm]
  · by_cases hr : Related p q
    · simp only [hq, hr, false_and, not_true_eq_false, and_false, or_false, if_false, if_true,
        reduceCtorEq]
    · simp only [hq, hr, false_and, not_false_eq_true, and_true, false_or, if_false]

theorem value_set_self (t : PathTree K V) (p : List K) (v : V) : (t.set p v).value p = some v := by
  rw [value_set, if_pos rfl]

/-- A write leaves the paths that neither lead through its own nor are led through by it. -/
theorem value_set_of_apart (v : V) (h : ¬ Related p q) : (t.set p v).value q = t.value q := by
  have hne : q ≠ p := fun he => h (he ▸ related_self _)
  rw [value_set, if_neg hne, if_neg h]

/-- An update leaves every path apart from those it writes. -/
theorem value_update_of_apart (fields : List (K × V))
    (h : ∀ f ∈ fields, ¬ Related (p ++ [f.1]) q) : (t.update p fields).value q = t.value q := by
  induction fields generalizing t with
  | nil => rfl
  | cons f fields ih =>
    have hrest : ∀ f' ∈ fields, ¬ Related (p ++ [f'.1]) q := fun f' hf' =>
      h f' (List.mem_cons_of_mem _ hf')
    have hstep := value_set_of_apart (t := t) f.2 (h f List.mem_cons_self)
    exact (@ih (t.set (p ++ [f.1]) f.2) hrest).trans hstep

/-- The value of a field, in a list of fields. -/
def field (fields : List (K × V)) (k : K) : Option V :=
  (fields.find? fun f => f.1 = k).map Prod.snd

theorem field_cons (f : K × V) (fields : List (K × V)) (k : K) :
    field (f :: fields) k = if f.1 = k then some f.2 else field fields k := by
  by_cases hk : f.1 = k
  · simp only [field, List.find?_cons, hk, decide_true, Option.map_some, if_true]
  · simp only [field, List.find?_cons, hk, decide_false, if_false]

theorem field_eq_none {fields : List (K × V)} {k : K} :
    field fields k = none ↔ k ∉ fields.map Prod.fst := by
  induction fields with
  | nil => exact iff_of_true rfl nofun
  | cons f fields ih =>
    rw [field_cons, List.map_cons, List.mem_cons, not_or, ← ih]
    by_cases hk : f.1 = k
    · rw [if_pos hk]
      exact iff_of_false nofun fun h => h.1 hk.symm
    · rw [if_neg hk]
      exact (and_iff_right (Ne.symm hk)).symm

/-- **Read after update**, at a child of the path. -/
theorem value_update (t : PathTree K V) (p : List K) {fields : List (K × V)}
    (nodup : (fields.map Prod.fst).Nodup) (k : K) :
    (t.update p fields).value (p ++ [k]) = (field fields k).or (t.value (p ++ [k])) := by
  induction fields generalizing t with
  | nil => rfl
  | cons f fields ih =>
    obtain ⟨hfirst, hnodup⟩ := List.nodup_cons.mp nodup
    have hstep : (t.update p (f :: fields)).value (p ++ [k]) =
        (field fields k).or ((t.set (p ++ [f.1]) f.2).value (p ++ [k])) :=
      ih (t.set (p ++ [f.1]) f.2) hnodup
    by_cases hk : f.1 = k
    · subst hk
      -- no later field has this key
      have hlater : fields.find? (fun f' => f'.1 = f.1) = none := by
        refine List.find?_eq_none.mpr fun f' hf' hkey => ?_
        exact hfirst (List.mem_map.mpr ⟨f', hf', of_decide_eq_true hkey⟩)
      rw [hstep, field_cons, if_pos rfl, field, hlater, value_set_self]
      rfl
    · have hapart : ¬ Related (p ++ [f.1]) (p ++ [k]) := fun h => hk (related_child.mp h)
      rw [hstep, field_cons, if_neg hk, value_set_of_apart f.2 hapart]

/-- After an update a leaf was there before, or is one of its fields. -/
theorem value_update_cases {fields : List (K × V)}
    (h : (t.update p fields).value q = some v) :
    (∃ k, q = p ++ [k]) ∨ t.value q = some v := by
  by_cases hq : ∃ k, q = p ++ [k]
  · exact .inl hq
  · right
    induction fields generalizing t with
    | nil => exact h
    | cons f fields ih =>
      have hset : (t.set (p ++ [f.1]) f.2).value q = some v := ih h
      rw [value_set, if_neg fun he => hq ⟨f.1, he⟩] at hset
      split at hset
      · cases hset
      · exact hset

/-! ## Layouts -/

/-- Where a program keeps its data: a path for each datum, none leading through another. -/
structure Layout (ι K : Type*) where
  path : ι → List K
  apart : ∀ n n', Related (path n) (path n') → n = n'

variable {ι : Type*} {layout : Layout ι K} {content content' : ι → Option V}

/-- The tree keeps the data where the layout has them, and keeps nothing else. -/
structure Holds (layout : Layout ι K) (t : PathTree K V) (content : ι → Option V) : Prop where
  stored : ∀ n, t.value (layout.path n) = content n
  only : ∀ p v, t.value p = some v → ∃ n, layout.path n = p

theorem holds_empty (layout : Layout ι K) :
    Holds layout (empty : PathTree K V) fun _ => none where
  stored _ := rfl
  only _ _ h := by cases h

/-- Writing one datum changes one datum. -/
theorem Holds.set [DecidableEq ι] (h : Holds layout t content) (n : ι) (v : V) :
    Holds layout (t.set (layout.path n) v) (Function.update content n (some v)) where
  stored n' := by
    rw [value_set, Function.update_apply]
    by_cases hn : n' = n
    · rw [if_pos (congrArg layout.path hn), if_pos hn]
    · have hapart : ¬ Related (layout.path n) (layout.path n') := fun hr =>
        hn (layout.apart n n' hr).symm
      have hpath : layout.path n' ≠ layout.path n := fun he => hapart (he ▸ related_self _)
      rw [if_neg hpath, if_neg hapart, if_neg hn, h.stored]
  only p w hw := by
    rw [value_set] at hw
    split at hw
    · next hp => exact ⟨n, hp.symm⟩
    · split at hw
      · cases hw
      · exact h.only p w hw

/-- Updating the children of a path changes the data kept there, field by field. -/
theorem Holds.update (h : Holds layout t content) (child : K → ι)
    (at_child : ∀ k, layout.path (child k) = p ++ [k]) {fields : List (K × V)}
    (nodup : (fields.map Prod.fst).Nodup)
    (here : ∀ k, content' (child k) = (field fields k).or (content (child k)))
    (elsewhere : ∀ n, (∀ k, n ≠ child k) → content' n = content n) :
    Holds layout (t.update p fields) content' where
  stored n := by
    by_cases hn : ∃ k, n = child k
    · obtain ⟨k, rfl⟩ := hn
      rw [at_child, value_update t p nodup, here, ← at_child, h.stored]
    · have hne : ∀ k, n ≠ child k := fun k he => hn ⟨k, he⟩
      have hapart : ∀ f ∈ fields, ¬ Related (p ++ [f.1]) (layout.path n) := by
        intro f _ hr
        rw [← at_child] at hr
        exact hne f.1 (layout.apart _ _ hr).symm
      rw [value_update_of_apart fields hapart, h.stored, elsewhere n hne]
  only q v hv := by
    rcases value_update_cases hv with ⟨k, rfl⟩ | hold
    · exact ⟨child k, at_child k⟩
    · exact h.only q v hold

/-- An inner node is there while a datum below it is. -/
theorem Holds.exists_iff (h : Holds layout t content) :
    t.Exists p ↔ ∃ n, content n ≠ none ∧ p <+: layout.path n := by
  rw [PathTree.exists_iff]
  constructor
  · rintro ⟨q, v, hv, hp⟩
    obtain ⟨n, rfl⟩ := h.only q v hv
    rw [h.stored] at hv
    exact ⟨n, by rw [hv]; exact Option.some_ne_none v, hp⟩
  · rintro ⟨n, hn, hp⟩
    obtain ⟨v, hv⟩ := Option.ne_none_iff_exists'.mp hn
    exact ⟨layout.path n, v, by rw [h.stored, hv], hp⟩

end PathTree

end AniChat.Collections
