import AniChat.Laws.Extensions.ImageLoading

/-!
# When the main queue traps

A completion handler dispatches its block whatever the download ended in, and the block
force-unwraps the data. The handler's one guard is that the image view is there.

## What is proved

- `safe_step`: a step keeps the queue free of blocks with no data exactly when no download of a
  living image view ends without data at it.
- `safe_iff_drains`: a queue is free of such blocks exactly when the main queue can run it to its
  end without a trap.
- `drains_iff`: so a run leads to no trap exactly when each of its downloads ends in bytes, or after
  its image view.
-/

namespace AniChat

open Automata

namespace ImageLoader

variable {Data Bitmap : Type} {platform : Platform Data Bitmap} {s s' : ImageLoader Data Bitmap}
  {e : Event Data}

/-- The URL string of a load is one that `URL(string:)` accepts. -/
def Event.WellFormed (platform : Platform Data Bitmap) : Event Data → Prop
  | .loadImageUsingCache _ urlString _ => platform.isURL urlString = true
  | _ => True

instance (platform : Platform Data Bitmap) : ∀ e : Event Data, Decidable (e.WellFormed platform)
  | .loadImageUsingCache _ urlString _ => inferInstanceAs (Decidable (platform.isURL urlString = true))
  | .cancelImageRequest _ => .isTrue trivial
  | .completed _ _ => .isTrue trivial
  | .block => .isTrue trivial
  | .deinit _ => .isTrue trivial
  | .evict _ => .isTrue trivial

/-- A download ends in bytes, or after its image view. -/
def Delivers (s : ImageLoader Data Bitmap) : Event Data → Prop
  | .completed task data => ∀ t, s.tasks task = some t → s.views t.view = none ∨ data ≠ none
  | _ => True

/-- Nothing has trapped, and no block is there that will. -/
def Safe (s : ImageLoader Data Bitmap) : Prop :=
  s.trapped = false ∧ ∀ block ∈ s.mainQueue, block.data ≠ none

theorem safe_step (wellFormed : e.WellFormed platform) (h : (machine platform).step s e = some s') :
    s'.Safe ↔ s.Safe ∧ s.Delivers e := by
  obtain ⟨untrapped, hstep⟩ := step_cases h
  cases hstep with
  | malformed missing bad => exact absurd wellFormed (ne_true_of_eq_false bad)
  | @dropped task view urlString state data found outstanding gone =>
    refine (and_iff_left fun t found' => ?_).symm
    cases found.symm.trans found'
    exact .inl gone
  | @dispatched task view urlString state data found outstanding alive =>
    have hdelivers : s.Delivers (.completed task data) ↔ data ≠ none := by
      constructor
      · exact fun h => (h _ found).resolve_left alive
      · exact fun h t _ => .inr h
    rw [hdelivers]
    unfold Safe
    dsimp only
    simp only [List.forall_mem_append, List.forall_mem_singleton, and_assoc]
  | trap next =>
    refine iff_of_false nofun fun h => ?_
    exact h.1.2 _ (by rw [next]; exact List.mem_cons_self) rfl
  | undecodable next bad =>
    refine Iff.trans ?_ (and_iff_left trivial).symm
    unfold Safe
    rw [next, List.forall_mem_cons]
    simp only [ne_eq, reduceCtorEq, not_false_eq_true, true_and]
  | shown next good =>
    refine Iff.trans ?_ (and_iff_left trivial).symm
    unfold Safe
    rw [next, List.forall_mem_cons]
    simp only [setImage, ne_eq, reduceCtorEq, not_false_eq_true, true_and]
  | _ => exact (and_iff_left trivial).symm

/-! ## Draining the main queue -/

/-- A block keeps the queue free of blocks with no data. -/
theorem safe_block (h : (machine platform).step s .block = some s') : s'.Safe ↔ s.Safe := by
  have ok : Event.WellFormed platform (.block : Event Data) := trivial
  exact (safe_step ok h).trans (and_iff_left trivial)

theorem safe_of_drains {queue : List (Block Data)} (isQueue : s.mainQueue = queue)
    (drains : ∀ n s', (machine platform).run s (List.replicate n .block) = some s' →
      s'.trapped = false) : s.Safe := by
  have untrapped : s.trapped = false := drains 0 s rfl
  induction queue generalizing s with
  | nil => exact ⟨untrapped, by rw [isQueue]; exact nofun⟩
  | cons block rest ih =>
    have hstep := block_step platform untrapped isQueue
    have later : ∀ n s', (machine platform).run (runBlock platform { s with mainQueue := rest } block)
        (List.replicate n .block) = some s' → s'.trapped = false :=
      fun n s' hrun => drains (n + 1) s' (Machine.run_cons_eq_some.mpr ⟨_, hstep, hrun⟩)
    have hsafe := ih (runBlock_mainQueue _ block) later (later 0 _ rfl)
    exact (safe_block hstep).mp hsafe

/-- The queue holds no block that traps exactly when the main queue can run it through. -/
theorem safe_iff_drains : s.Safe ↔
    ∀ n s', (machine platform).run s (List.replicate n .block) = some s' → s'.trapped = false := by
  constructor
  · intro hsafe n s' hrun
    have keep : ∀ s e s', e = .block → Safe s → (machine platform).step s e = some s' → Safe s' := by
      rintro s e s' rfl hsafe hstep
      exact (safe_block hstep).mpr hsafe
    have all : ∀ e ∈ List.replicate n Event.block, e = (.block : Event Data) :=
      fun e he => List.eq_of_mem_replicate he
    exact (Machine.run_invariant_of keep all hsafe hrun).1
  · exact safe_of_drains rfl

/-- **Loading traps exactly when a download of a living image view ends without data.** After a run
of loads of well-formed URLs the main queue runs all its blocks without a trap if and only if each
download of the run ended in bytes, or after its image view. -/
theorem drains_iff {es : List (Event Data)} (wellFormed : ∀ e ∈ es, e.WellFormed platform)
    (run : (machine platform).run initial es = some s) :
    (∀ n s', (machine platform).run s (List.replicate n .block) = some s' → s'.trapped = false) ↔
      (machine platform).Meets Delivers initial es := by
  have keep : ∀ s e s', Event.WellFormed platform e → (machine platform).step s e = some s' →
      (Safe s' ↔ Safe s ∧ Delivers s e) := fun _ _ _ ok hstep => safe_step ok hstep
  have start : Safe (initial : ImageLoader Data Bitmap) := ⟨rfl, nofun⟩
  rw [← safe_iff_drains, Machine.run_iff_meets keep wellFormed run, and_iff_right start]

/-- A load that is cancelled, and one that succeeds after it. -/
def cancelled : List (Event String) :=
  [.loadImageUsingCache 0 "a" 0, .cancelImageRequest 0, .deinit 0, .completed 0 none,
    .loadImageUsingCache 1 "b" 1, .completed 1 (some "bytes"), .block]

theorem drains_cancelled : ∃ s, (machine verbatim).run initial cancelled = some s ∧
    ((∀ n s', (machine verbatim).run s (List.replicate n .block) = some s' → s'.trapped = false) ↔
      (machine verbatim).Meets Delivers initial cancelled) :=
  ⟨_, rfl, drains_iff (by decide) rfl⟩

/-- A download is cancelled while its image view is there, and the block of its completion traps. -/
theorem trapped_cancellation : ¬ ∀ (Data Bitmap : Type) (platform : Platform Data Bitmap) es s,
    (∀ e ∈ es, Event.WellFormed platform e) → (machine platform).run initial es = some s →
      s.trapped = false := by
  intro law
  have h := law _ _ verbatim [.loadImageUsingCache 0 "a" 0, .cancelImageRequest 0, .completed 0 none,
    .block] _ (by decide) rfl
  cases h

end ImageLoader

end AniChat
