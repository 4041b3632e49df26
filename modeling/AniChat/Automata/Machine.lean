import Mathlib.Data.List.Induction
import Mathlib.Logic.Function.Basic

/-!
# Guarded machines and their runs

A machine is one guarded, executable step: `step s e` is the state after event `e`, and `none` where
`e` is not enabled. A run feeds a list of events from a given state, so the same definition replays
a concrete trace and carries the inductions.

## What is proved

- `run_invariant`, `run_induction`: what one step keeps, a run keeps. The second form speaks of the
  events so far as well as of the state, for facts about a history; `run_induction_of_meets` is the
  same for runs that meet a condition.
- `Meets` and `Always`: every step of a run meets a condition on the state before it and the event;
  every state along a run satisfies a predicate. `always_iff_meets` says when the one is the other,
  `run_iff_meets` when the last state tells of every step.
- `run_length_le`, `exists_run_atRest`: events that lower a measure run out.
- `run_emits`, `run_emits_of_meets`: a machine that another one follows step by step. The labels a
  step hands on may depend on the state it starts from. `run_simulates` is the same for a relation.
- `run_filter`: a simulation in which some events are dropped on one side. It is the induction of a
  two-run statement.
- `sync`: two machines that move together on shared events, and the projections of its runs.
- `family`: many of one machine, and what one of them does in a run.
- `restrict`: a machine that takes fewer steps. Guards that look at both sides of a `sync` are such.

Nothing here names a program.
-/

namespace AniChat.Automata

variable {σ τ ε ι κ : Type*}

/-- A guarded, executable step on states `σ` under events `ε`. -/
structure Machine (σ ε : Type*) where
  step : σ → ε → Option σ

namespace Machine

variable (M : Machine σ ε)

/-- The state after a list of events, when each is enabled where it comes. -/
def run (s : σ) : List ε → Option σ
  | [] => some s
  | e :: es => (M.step s e).bind fun s' => run s' es

variable {M}

@[simp] theorem run_nil (s : σ) : M.run s [] = some s := rfl

theorem run_cons (s : σ) (e : ε) (es : List ε) :
    M.run s (e :: es) = (M.step s e).bind fun s' => M.run s' es := rfl

theorem run_cons_eq_some {s s' : σ} {e : ε} {es : List ε} :
    M.run s (e :: es) = some s' ↔ ∃ t, M.step s e = some t ∧ M.run t es = some s' := by
  rw [run_cons, Option.bind_eq_some_iff]

theorem run_append (s : σ) (es fs : List ε) :
    M.run s (es ++ fs) = (M.run s es).bind fun s' => M.run s' fs := by
  induction es generalizing s with
  | nil => rfl
  | cons e es ih =>
    rw [List.cons_append, run_cons, run_cons]
    cases M.step s e with
    | none => rfl
    | some t => exact ih t

theorem run_append_eq_some {s s' : σ} {es fs : List ε} :
    M.run s (es ++ fs) = some s' ↔ ∃ t, M.run s es = some t ∧ M.run t fs = some s' := by
  rw [run_append, Option.bind_eq_some_iff]

theorem run_snoc_eq_some {s s' : σ} {es : List ε} {e : ε} :
    M.run s (es ++ [e]) = some s' ↔ ∃ t, M.run s es = some t ∧ M.step t e = some s' := by
  simp only [run_append_eq_some, run_cons_eq_some, run_nil, Option.some.injEq, exists_eq_right]

/-! ## Invariants -/

/-- What every step keeps, every run keeps. -/
theorem run_invariant {P : σ → Prop} (keep : ∀ s e s', P s → M.step s e = some s' → P s')
    {s s' : σ} {es : List ε} (start : P s) (h : M.run s es = some s') : P s' := by
  induction es generalizing s with
  | nil => cases h; exact start
  | cons e es ih =>
    obtain ⟨t, ht, hrun⟩ := run_cons_eq_some.mp h
    exact ih (keep s e t start ht) hrun

/-- What every step under an admitted event keeps, every run of admitted events keeps. -/
theorem run_invariant_of {P : σ → Prop} {ok : ε → Prop}
    (keep : ∀ s e s', ok e → P s → M.step s e = some s' → P s')
    {s s' : σ} {es : List ε} (all : ∀ e ∈ es, ok e) (start : P s) (h : M.run s es = some s') :
    P s' := by
  induction es generalizing s with
  | nil => cases h; exact start
  | cons e es ih =>
    obtain ⟨t, ht, hrun⟩ := run_cons_eq_some.mp h
    exact ih (fun e' he' => all e' (List.mem_cons_of_mem _ he'))
      (keep s e t (all e List.mem_cons_self) start ht) hrun

/-! ## Conditions along a run -/

variable (M)

/-- Every step the run takes from `s` meets `C`, a condition on the state before it and the
event. -/
def Meets (C : σ → ε → Prop) (s : σ) : List ε → Prop
  | [] => True
  | e :: es => C s e ∧ ∀ t, M.step s e = some t → Meets C t es

/-- Every state the run passes through, the first and the last included, satisfies `P`. -/
def Always (P : σ → Prop) (s : σ) : List ε → Prop
  | [] => P s
  | e :: es => P s ∧ ∀ t, M.step s e = some t → Always P t es

variable {M}

/-- What holds after every outcome of a step holds after the one it has. -/
theorem forall_step {P : σ → Prop} {s t : σ} {e : ε} (h : M.step s e = some t) :
    (∀ u, M.step s e = some u → P u) ↔ P t := by
  constructor
  · exact fun hall => hall t h
  · intro hP u hu
    cases h.symm.trans hu
    exact hP

theorem meets_cons_of_step {C : σ → ε → Prop} {s t : σ} {e : ε} {es : List ε}
    (h : M.step s e = some t) : M.Meets C s (e :: es) ↔ C s e ∧ M.Meets C t es :=
  and_congr_right fun _ => forall_step h

theorem always_cons_of_step {P : σ → Prop} {s t : σ} {e : ε} {es : List ε}
    (h : M.step s e = some t) : M.Always P s (e :: es) ↔ P s ∧ M.Always P t es :=
  and_congr_right fun _ => forall_step h

/-- What holds along a run holds where it starts. -/
theorem always_start {P : σ → Prop} {s : σ} {es : List ε} (h : M.Always P s es) : P s := by
  cases es with
  | nil => exact h
  | cons _ _ => exact h.1

/-- A longer run meets a condition when the run before it does and its last step does. -/
theorem meets_snoc {C : σ → ε → Prop} {s t : σ} {es : List ε} {e : ε} (h : M.run s es = some t) :
    M.Meets C s (es ++ [e]) ↔ M.Meets C s es ∧ C t e := by
  induction es generalizing s with
  | nil =>
    cases h
    exact ⟨fun hmeets => ⟨trivial, hmeets.1⟩, fun hC => ⟨hC.2, fun _ _ => trivial⟩⟩
  | cons e' es ih =>
    obtain ⟨u, hu, hrun⟩ := run_cons_eq_some.mp h
    rw [List.cons_append, meets_cons_of_step hu, meets_cons_of_step hu, ih hrun, and_assoc]

/-- Induction over a run that meets a condition, from its end. -/
theorem run_induction_of_meets {s₀ : σ} {P : List ε → σ → Prop} {C : σ → ε → Prop} (nil : P [] s₀)
    (snoc : ∀ es e s s', M.run s₀ es = some s → C s e → P es s → M.step s e = some s' →
      P (es ++ [e]) s')
    {es : List ε} {s : σ} (meets : M.Meets C s₀ es) (h : M.run s₀ es = some s) : P es s := by
  induction es using List.reverseRecOn generalizing s with
  | nil => cases h; exact nil
  | append_singleton es e ih =>
    obtain ⟨t, ht, hstep⟩ := run_snoc_eq_some.mp h
    obtain ⟨hmeets, hC⟩ := (meets_snoc ht).mp meets
    exact snoc es e t s ht hC (ih hmeets ht) hstep

/-- A condition that the events meet in every state is met along every run. -/
theorem meets_of_forall {C : σ → ε → Prop} {s : σ} {es : List ε} (all : ∀ e ∈ es, ∀ s, C s e) :
    M.Meets C s es := by
  induction es generalizing s with
  | nil => trivial
  | cons e es ih =>
    exact ⟨all e List.mem_cons_self s, fun _ _ => ih fun e' he' => all e' (List.mem_cons_of_mem _ he')⟩

/-- An invariant is a condition that every run meets. -/
theorem meets_of_invariant {I : σ → Prop} (keep : ∀ s e s', I s → M.step s e = some s' → I s')
    {s : σ} (start : I s) (es : List ε) : M.Meets (fun s _ => I s) s es := by
  induction es generalizing s with
  | nil => trivial
  | cons e es ih => exact ⟨start, fun t ht => ih (keep s e t start ht)⟩

/-- Induction over a run from its end: the predicate speaks of the events so far and the state
they lead to. -/
theorem run_induction {s₀ : σ} {P : List ε → σ → Prop} (nil : P [] s₀)
    (snoc : ∀ es e s s', M.run s₀ es = some s → P es s → M.step s e = some s' → P (es ++ [e]) s')
    {es : List ε} {s : σ} (h : M.run s₀ es = some s) : P es s := by
  have meets : M.Meets (fun _ _ => True) s₀ es :=
    meets_of_invariant (I := fun _ => True) (fun _ _ _ _ _ => trivial) trivial es
  exact run_induction_of_meets nil (fun es e s s' hrun _ => snoc es e s s' hrun) meets h

/-- A predicate that each step establishes exactly when its condition is met, and that holds at
the start, holds along a run exactly when every step of it meets the condition. -/
theorem always_iff_meets {P Q : σ → Prop} {C : σ → ε → Prop}
    (keep : ∀ s e s', P s → Q s → M.step s e = some s' → Q s' ∧ (P s' ↔ C s e))
    {s s' : σ} {es : List ε} (hP : P s) (hQ : Q s) (h : M.run s es = some s') :
    M.Always P s es ↔ M.Meets C s es := by
  induction es generalizing s with
  | nil => exact ⟨fun _ => trivial, fun _ => hP⟩
  | cons e es ih =>
    obtain ⟨t, ht, hrun⟩ := run_cons_eq_some.mp h
    obtain ⟨hQ', hiff⟩ := keep s e t hP hQ ht
    rw [always_cons_of_step ht, meets_cons_of_step ht]
    constructor
    · rintro ⟨-, hrest⟩
      have hPt : P t := always_start hrest
      exact ⟨hiff.mp hPt, (ih hPt hQ' hrun).mp hrest⟩
    · rintro ⟨hC, hrest⟩
      exact ⟨hP, (ih (hiff.mpr hC) hQ' hrun).mpr hrest⟩

/-- A predicate that holds after each step exactly when it held before it and the condition was met
holds at the end of a run exactly when it held at the start and each step met the condition. -/
theorem run_iff_meets {P : σ → Prop} {C : σ → ε → Prop} {ok : ε → Prop}
    (keep : ∀ s e s', ok e → M.step s e = some s' → (P s' ↔ P s ∧ C s e))
    {s s' : σ} {es : List ε} (all : ∀ e ∈ es, ok e) (h : M.run s es = some s') :
    P s' ↔ P s ∧ M.Meets C s es := by
  induction es generalizing s with
  | nil => cases h; exact (and_iff_left trivial).symm
  | cons e es ih =>
    obtain ⟨t, ht, hrun⟩ := run_cons_eq_some.mp h
    rw [ih (fun e' he' => all e' (List.mem_cons_of_mem _ he')) hrun,
      keep s e t (all e List.mem_cons_self) ht, and_assoc, meets_cons_of_step ht]

/-- Conditions that agree on the steps there are agree along runs. -/
theorem meets_congr {C D : σ → ε → Prop} (agree : ∀ s e s', M.step s e = some s' → (C s e ↔ D s e))
    {s s' : σ} {es : List ε} (h : M.run s es = some s') : M.Meets C s es ↔ M.Meets D s es := by
  induction es generalizing s with
  | nil => exact Iff.rfl
  | cons e es ih =>
    obtain ⟨t, ht, hrun⟩ := run_cons_eq_some.mp h
    rw [meets_cons_of_step ht, meets_cons_of_step ht]
    exact and_congr (agree s e t ht) (ih hrun)

/-! ## Coming to rest -/

variable (M)

/-- No admitted event is enabled. -/
def AtRest (inner : ε → Prop) (s : σ) : Prop := ∀ e, inner e → M.step s e = none

variable {M}

/-- A run of admitted events, each of which lowers a measure, is no longer than the measure it uses
up. -/
theorem run_length_le {I : σ → Prop} {inner : ε → Prop} {μ : σ → ℕ}
    (down : ∀ s e s', inner e → I s → M.step s e = some s' → I s' ∧ μ s' < μ s)
    {s s' : σ} {es : List ε} (all : ∀ e ∈ es, inner e) (start : I s) (h : M.run s es = some s') :
    es.length + μ s' ≤ μ s := by
  induction es generalizing s with
  | nil =>
    cases h
    simp
  | cons e es ih =>
    obtain ⟨t, ht, hrun⟩ := run_cons_eq_some.mp h
    obtain ⟨hI, hμ⟩ := down s e t (all e List.mem_cons_self) start ht
    have hrest := ih (fun e' he' => all e' (List.mem_cons_of_mem _ he')) hI hrun
    rw [List.length_cons]
    omega

/-- Where admitted events lower a measure, some run of them comes to rest. -/
theorem exists_run_atRest {I : σ → Prop} {inner : ε → Prop} {μ : σ → ℕ}
    (down : ∀ s e s', inner e → I s → M.step s e = some s' → I s' ∧ μ s' < μ s)
    {s : σ} (start : I s) :
    ∃ es s', (∀ e ∈ es, inner e) ∧ M.run s es = some s' ∧ M.AtRest inner s' := by
  induction hn : μ s using Nat.strongRecOn generalizing s with
  | ind n ih =>
    by_cases hrest : M.AtRest inner s
    · exact ⟨[], s, fun _ he => (List.not_mem_nil he).elim, rfl, hrest⟩
    · unfold AtRest at hrest
      push Not at hrest
      obtain ⟨e, he, hstep⟩ := hrest
      obtain ⟨t, ht⟩ := Option.ne_none_iff_exists'.mp hstep
      obtain ⟨hI, hμ⟩ := down s e t he start ht
      obtain ⟨es, s', hall, hrun, hs'⟩ := ih (μ t) (hn ▸ hμ) hI rfl
      refine ⟨e :: es, s', ?_, run_cons_eq_some.mpr ⟨t, ht, hrun⟩, hs'⟩
      intro e' he'
      rcases List.mem_cons.mp he' with rfl | he'
      · exact he
      · exact hall e' he'

/-- **Coming to rest.** Where admitted events keep an invariant and lower a measure, a run of them is
no longer than the measure it started with, ends in the invariant, and can go on to a state where none
is enabled. -/
theorem run_rests {I : σ → Prop} {inner : ε → Prop} {μ : σ → ℕ}
    (down : ∀ s e s', inner e → I s → M.step s e = some s' → I s' ∧ μ s' < μ s)
    {s s' : σ} {es : List ε} (start : I s) (all : ∀ e ∈ es, inner e) (h : M.run s es = some s') :
    es.length ≤ μ s ∧ I s' ∧ ∃ fs s'', (∀ e ∈ fs, inner e) ∧ M.run s' fs = some s'' ∧ I s'' ∧
      M.AtRest inner s'' := by
  have keep : ∀ s e s', inner e → I s → M.step s e = some s' → I s' :=
    fun s e s' he hs hstep => (down s e s' he hs hstep).1
  have hlength := run_length_le down all start h
  have hs' := run_invariant_of keep all start h
  obtain ⟨fs, s'', hfs, hrun, hrest⟩ := exists_run_atRest down hs'
  exact ⟨by omega, hs', fs, s'', hfs, hrun, run_invariant_of keep hfs hs' hrun, hrest⟩

/-! ## Following another machine -/

variable (M)

/-- The labels a run hands on, each read off the state before the step and its event. -/
def emits (label : σ → ε → Option ι) (s : σ) : List ε → List ι
  | [] => []
  | e :: es => (label s e).toList ++ ((M.step s e).map fun t => emits label t es).getD []

variable {M}

theorem emits_cons_of_step {label : σ → ε → Option ι} {s t : σ} {e : ε} {es : List ε}
    (h : M.step s e = some t) :
    M.emits label s (e :: es) = (label s e).toList ++ M.emits label t es := by
  simp only [emits, h, Option.map_some, Option.getD_some]

/-- A longer run hands on the labels of the run before it, and then its last step's. -/
theorem emits_snoc {label : σ → ε → Option ι} {s t t' : σ} {es : List ε} {e : ε}
    (h : M.run s es = some t) (hstep : M.step t e = some t') :
    M.emits label s (es ++ [e]) = M.emits label s es ++ (label t e).toList := by
  induction es generalizing s with
  | nil =>
    cases h
    exact (emits_cons_of_step hstep).trans (List.append_nil _)
  | cons e' es ih =>
    obtain ⟨u, hu, hrun⟩ := run_cons_eq_some.mp h
    rw [List.cons_append, emits_cons_of_step hu, emits_cons_of_step hu, ih hrun, List.append_assoc]

/-- A label that does not look at the state is a filter of the events. -/
theorem emits_const {label : ε → Option ι} {s s' : σ} {es : List ε} (h : M.run s es = some s') :
    M.emits (fun _ => label) s es = es.filterMap label := by
  induction es generalizing s with
  | nil => rfl
  | cons e es ih =>
    obtain ⟨t, ht, hrun⟩ := run_cons_eq_some.mp h
    rw [emits_cons_of_step ht, ih hrun]
    cases hl : label e with
    | none => simp only [Option.toList_none, List.nil_append, List.filterMap_cons_none hl]
    | some i => simp only [Option.toList_some, List.singleton_append, List.filterMap_cons_some hl]

/-- Refinement by labels where the steps of `M` follow those of `N` under a condition, along the
runs that meet it. -/
theorem run_emits_of_meets {N : Machine τ ι} {f : σ → τ} {label : σ → ε → Option ι}
    {C : σ → ε → Prop}
    (follow : ∀ s e s', C s e → M.step s e = some s' → N.run (f s) (label s e).toList = some (f s'))
    {s s' : σ} {es : List ε} (meets : M.Meets C s es) (h : M.run s es = some s') :
    N.run (f s) (M.emits label s es) = some (f s') := by
  induction es generalizing s with
  | nil => cases h; rfl
  | cons e es ih =>
    obtain ⟨t, ht, hrun⟩ := run_cons_eq_some.mp h
    rw [emits_cons_of_step ht]
    exact run_append_eq_some.mpr ⟨f t, follow s e t meets.1 ht, ih (meets.2 t ht) hrun⟩

/-- **Refinement by labels.** Where each step of `M` is, through the view `f`, the step of `N`
under the label it hands on (or no step), each run of `M` is a run of `N` under its labels. `I` is
an invariant the steps may use. -/
theorem run_emits {N : Machine τ ι} {f : σ → τ} {label : σ → ε → Option ι} (I : σ → Prop)
    (follow : ∀ s e s', I s → M.step s e = some s' →
      I s' ∧ N.run (f s) (label s e).toList = some (f s'))
    {s s' : σ} {es : List ε} (start : I s) (h : M.run s es = some s') :
    N.run (f s) (M.emits label s es) = some (f s') := by
  have meets : M.Meets (fun s _ => I s) s es :=
    meets_of_invariant (fun s e s' hI hstep => (follow s e s' hI hstep).1) start es
  exact run_emits_of_meets (fun s e s' hI hstep => (follow s e s' hI hstep).2) meets h

/-- **Simulation by labels.** Where a relation is kept by each step of `M` together with the step of
`N` under the label it hands on (or no step), each run of `M` is matched by the run of `N` under its
labels. -/
theorem run_simulates {N : Machine τ ι} {R : σ → τ → Prop} {label : σ → ε → Option ι}
    (follow : ∀ s e s' t, R s t → M.step s e = some s' →
      ∃ t', N.run t (label s e).toList = some t' ∧ R s' t')
    {s s' : σ} {t : τ} {es : List ε} (start : R s t) (h : M.run s es = some s') :
    ∃ t', N.run t (M.emits label s es) = some t' ∧ R s' t' := by
  induction es generalizing s t with
  | nil => cases h; exact ⟨t, rfl, start⟩
  | cons e es ih =>
    obtain ⟨u, hu, hrun⟩ := run_cons_eq_some.mp h
    obtain ⟨v, hv, hR⟩ := follow s e u t start hu
    obtain ⟨t', ht', hR'⟩ := ih hR hrun
    rw [emits_cons_of_step hu]
    exact ⟨t', run_append_eq_some.mpr ⟨v, hv, ht'⟩, hR'⟩

/-- No step restores `good`, so a run that ends well was good from its start. -/
theorem run_good {good : σ → Prop} (back : ∀ s e s', M.step s e = some s' → good s' → good s)
    {s s' : σ} {es : List ε} (h : M.run s es = some s') (hg : good s') : good s := by
  induction es generalizing s with
  | nil => cases h; exact hg
  | cons e es ih =>
    obtain ⟨u, hu, hrun⟩ := run_cons_eq_some.mp h
    exact back s e u hu (ih hrun)

/-- **Simulation with dropped events.** A relation that every kept event preserves on both sides,
and every dropped event preserves on the first side alone, relates a run to its filtered run. Steps
into bad states are set aside by `good`, which no step restores. -/
theorem run_filter {N : Machine τ ε} {R : σ → τ → Prop} {keep : ε → Bool} {good : σ → Prop}
    (back : ∀ s e s', M.step s e = some s' → good s' → good s)
    (kept : ∀ s t e s', R s t → good s → good s' → M.step s e = some s' → keep e = true →
      ∃ t', N.step t e = some t' ∧ R s' t')
    (dropped : ∀ s t e s', R s t → good s → good s' → M.step s e = some s' → keep e = false →
      R s' t)
    {s s' : σ} {t : τ} {es : List ε} (start : R s t) (h : M.run s es = some s') (hg : good s') :
    ∃ t', N.run t (es.filter keep) = some t' ∧ R s' t' := by
  induction es generalizing s t with
  | nil => cases h; exact ⟨t, rfl, start⟩
  | cons e es ih =>
    obtain ⟨u, hu, hrun⟩ := run_cons_eq_some.mp h
    have hgu : good u := run_good back hrun hg
    have hgs : good s := back s e u hu hgu
    cases hk : keep e with
    | true =>
      obtain ⟨v, hv, hR⟩ := kept s t e u start hgs hgu hu hk
      obtain ⟨t', ht', hR'⟩ := ih hR hrun
      rw [List.filter_cons_of_pos hk]
      exact ⟨t', run_cons_eq_some.mpr ⟨v, hv, ht'⟩, hR'⟩
    | false =>
      rw [List.filter_cons_of_neg (by simp only [hk, Bool.false_eq_true, not_false_eq_true])]
      exact ih (dropped s t e u start hgs hgu hu hk) hrun

/-! ## Two machines that move together -/

/-- Two machines driven by shared events: each side takes the step its reading of the event names,
or none. The event is enabled when both sides are. -/
def sync (M : Machine σ ι) (N : Machine τ κ) (left : ε → Option ι) (right : ε → Option κ) :
    Machine (σ × τ) ε where
  step s e := (M.run s.1 (left e).toList).bind fun a =>
    (N.run s.2 (right e).toList).map fun b => (a, b)

section Sync

variable {M : Machine σ ι} {N : Machine τ κ} {left : ε → Option ι} {right : ε → Option κ}

theorem sync_step_eq_some {s s' : σ × τ} {e : ε} :
    (sync M N left right).step s e = some s' ↔
      M.run s.1 (left e).toList = some s'.1 ∧ N.run s.2 (right e).toList = some s'.2 := by
  obtain ⟨a', b'⟩ := s'
  simp only [sync, Option.bind_eq_some_iff, Option.map_eq_some_iff, Prod.mk.injEq]
  constructor
  · rintro ⟨a, ha, b, hb, rfl, rfl⟩
    exact ⟨ha, hb⟩
  · rintro ⟨ha, hb⟩
    exact ⟨a', ha, b', hb, rfl, rfl⟩

/-- A run of both is a run of the first under its reading of the events. -/
theorem sync_run_left {s s' : σ × τ} {es : List ε} (h : (sync M N left right).run s es = some s') :
    M.run s.1 (es.filterMap left) = some s'.1 := by
  rw [← emits_const h]
  exact run_emits (fun _ => True)
    (fun _ _ _ _ hstep => ⟨trivial, (sync_step_eq_some.mp hstep).1⟩) trivial h

/-- A run of both is a run of the second under its reading of the events. -/
theorem sync_run_right {s s' : σ × τ} {es : List ε}
    (h : (sync M N left right).run s es = some s') :
    N.run s.2 (es.filterMap right) = some s'.2 := by
  rw [← emits_const h]
  exact run_emits (fun _ => True)
    (fun _ _ _ _ hstep => ⟨trivial, (sync_step_eq_some.mp hstep).2⟩) trivial h

end Sync

/-! ## Many of one machine -/

/-- A machine for each index. An event moves one of them. -/
def family [DecidableEq κ] (M : Machine σ ε) : Machine (κ → σ) (κ × ε) where
  step s e := (M.step (s e.1) e.2).map fun t => Function.update s e.1 t

section Family

variable [DecidableEq κ] {M : Machine σ ε} {s s' : κ → σ}

theorem family_step_eq_some {e : κ × ε} : (family M).step s e = some s' ↔
    ∃ t, M.step (s e.1) e.2 = some t ∧ Function.update s e.1 t = s' :=
  Option.map_eq_some_iff

/-- Each of them takes a run of its own, under the events that are its. -/
theorem family_run {es : List (κ × ε)} (h : (family M).run s es = some s') (i : κ) :
    M.run (s i) (es.filterMap fun e => if e.1 = i then some e.2 else none) = some (s' i) := by
  induction es generalizing s with
  | nil =>
    cases h
    rfl
  | cons e es ih =>
    obtain ⟨t, ht, hrun⟩ := run_cons_eq_some.mp h
    obtain ⟨x, hx, rfl⟩ := family_step_eq_some.mp ht
    have hrest := ih hrun
    by_cases he : e.1 = i
    · subst he
      rw [Function.update_self] at hrest
      simp only [List.filterMap_cons, if_true]
      exact run_cons_eq_some.mpr ⟨x, hx, hrest⟩
    · rw [Function.update_of_ne (Ne.symm he)] at hrest
      simp only [List.filterMap_cons, if_neg he]
      exact hrest

end Family

/-! ## Fewer steps -/

/-- The machine takes only the steps that a guard on the state and the event allows. -/
def restrict (M : Machine σ ε) (G : σ → ε → Prop) [∀ s e, Decidable (G s e)] : Machine σ ε where
  step s e := if G s e then M.step s e else none

section Restrict

variable {M : Machine σ ε} {G : σ → ε → Prop} [∀ s e, Decidable (G s e)]

theorem restrict_step_eq_some {s s' : σ} {e : ε} :
    (restrict M G).step s e = some s' ↔ G s e ∧ M.step s e = some s' :=
  Option.ite_none_right_eq_some

/-- A run of fewer steps is a run. -/
theorem restrict_run {s s' : σ} {es : List ε} (h : (restrict M G).run s es = some s') :
    M.run s es = some s' := by
  induction es generalizing s with
  | nil => exact h
  | cons e es ih =>
    obtain ⟨t, ht, hrun⟩ := run_cons_eq_some.mp h
    exact run_cons_eq_some.mpr ⟨t, (restrict_step_eq_some.mp ht).2, ih hrun⟩

end Restrict

end Machine

end AniChat.Automata
