import AniChat.Laws.Controller.LoginForm
import AniChat.Laws.Controller.RegisterGate

/-!
# The avatar the user chose

An accepted selection writes the avatar and the flag that one is selected. Configuring a cell for
the strip clears the flag and leaves the avatar, and cells are configured while the user scrolls.

## What is proved

- `unselected_run`: events that select nothing leave the avatar, and the flag unless a cell is
  configured among them.
- `kept_iff`: the last selection is the one a press registers with exactly when no cell was
  configured after it.
-/

namespace AniChat

open Automata

namespace LoginVC

/-- The event is a selection that `didSelectItemAt` accepts. -/
def Event.accepted : Event → Bool
  | .didSelectItemAt _ (some true) => true
  | _ => false

/-- The screen has `name` selected: `handleRegister` registers with it, and the alert about the
avatar is not among those it asks for. -/
structure Kept (vc : LoginVC) (name : String) : Prop where
  didSelectProfile : vc.didSelectProfile = some true
  avatar : vc.avatar = some name
  registers : ∀ username email password, vc.Filled username email password →
    ∃ asked : Option String, "Please Select An Avatar" ∉ asked ∧ vc.handleRegister = { vc with
      alerts := asked.toList ++ vc.alerts
      attempt := some (.register ⟨username, email, password, name⟩ .putData) }

/-- The two fields are all it takes. -/
theorem kept_of_selected {vc : LoginVC} {name : String} (flag : vc.didSelectProfile = some true)
    (avatar : vc.avatar = some name) : vc.Kept name := by
  refine ⟨flag, avatar, fun username email password filled => ?_⟩
  obtain ⟨asked, hforce, -, hmessage⟩ := forceUserToFullyRegister_spec filled
  refine ⟨asked, fun h => ?_, ?_⟩
  · have hfield := hmessage _ h
    revert hfield
    decide
  · obtain ⟨_, _, _, _, _, _, _, _, _, _, _⟩ := vc
    obtain ⟨rfl, rfl, rfl⟩ := filled
    cases flag
    cases avatar
    unfold handleRegister
    dsimp only
    rw [hforce]
    rfl

/-! ## After the last selection -/

/-- Any other event leaves the avatar, and the flag unless it configures a cell. -/
theorem unselected_step {vc vc' : LoginVC} {e : Event} (other : e.accepted = false)
    (hstep : machine.step vc e = some vc') :
    vc'.avatar = vc.avatar ∧ (e ≠ .cellForItemAt → vc'.didSelectProfile = vc.didSelectProfile) := by
  cases hform : e.isForm with
  | false =>
    have hstays := form_stays hform hstep
    have havatar : vc'.form.avatar = vc.form.avatar := by rw [hstays]
    have hflag : vc'.form.didSelectProfile = vc.form.didSelectProfile := by rw [hstays]
    exact ⟨havatar, fun _ => hflag⟩
  | true =>
    cases step_cases hstep with
    | didSelectItemAt row cell =>
      match cell with
      | some true => cases other
      | some false => exact ⟨rfl, fun _ => rfl⟩
      | none => exact ⟨rfl, fun _ => rfl⟩
    | cellForItemAt => exact ⟨rfl, fun h => absurd rfl h⟩
    | press => cases hform
    | signIn => cases hform
    | register => cases hform
    | popViewController => cases hform
    | _ => exact ⟨rfl, fun _ => rfl⟩

/-- Events that select nothing leave the avatar, and leave the flag exactly when none of them
configures a cell. -/
theorem unselected_run {vc vc' : LoginVC} {es : List Event} (flag : vc.didSelectProfile = some true)
    (others : ∀ e ∈ es, e.accepted = false) (run : machine.run vc es = some vc') :
    vc'.avatar = vc.avatar ∧ (vc'.didSelectProfile = some true ↔ .cellForItemAt ∉ es) := by
  induction es using List.reverseRecOn generalizing vc' with
  | nil => cases run; exact ⟨rfl, iff_of_true flag nofun⟩
  | append_singleton es e ih =>
    obtain ⟨t, hrun, hstep⟩ := Machine.run_snoc_eq_some.mp run
    obtain ⟨havatar, hflag⟩ := ih (fun e' he' => others e' (List.mem_append_left _ he')) hrun
    obtain ⟨hsame, hkeep⟩ :=
      unselected_step (others e (List.mem_append_right _ List.mem_cons_self)) hstep
    refine ⟨hsame.trans havatar, ?_⟩
    rw [List.mem_append, not_or, List.mem_singleton, ← hflag]
    by_cases hcell : e = .cellForItemAt
    · subst hcell
      cases hstep
      exact iff_of_false nofun fun h => h.2 rfl
    · rw [hkeep hcell]
      exact ⟨fun h => ⟨h, fun heq => hcell heq.symm⟩, fun h => h.1⟩

/-- What an accepted selection leaves. -/
theorem selected_run {start vc : LoginVC} {before after : List Event} {row : Fin avatars.length}
    (run : machine.run start (before ++ .didSelectItemAt row (some true) :: after) = some vc) :
    ∃ s, s.didSelectProfile = some true ∧ s.avatar = some (avatars.get row) ∧
      machine.run s after = some vc := by
  obtain ⟨t, -, hrest⟩ := Machine.run_append_eq_some.mp run
  obtain ⟨s, hstep, hafter⟩ := Machine.run_cons_eq_some.mp hrest
  cases hstep
  exact ⟨_, rfl, rfl, hafter⟩

/-- Where something is accepted, something is accepted last. -/
theorem exists_last_accepted {es : List Event} (selects : ∃ e ∈ es, e.accepted = true) :
    ∃ before row after, es = before ++ .didSelectItemAt row (some true) :: after ∧
      ∀ e ∈ after, e.accepted = false := by
  induction es with
  | nil => obtain ⟨_, h, -⟩ := selects; cases h
  | cons e es ih =>
    by_cases hlater : ∃ e ∈ es, e.accepted = true
    · obtain ⟨before, row, after, rfl, others⟩ := ih hlater
      exact ⟨e :: before, row, after, rfl, others⟩
    · have others : ∀ e ∈ es, e.accepted = false := fun e' he' =>
        Bool.eq_false_iff.mpr fun h => hlater ⟨e', he', h⟩
      obtain ⟨e', he', accepted⟩ := selects
      rcases List.mem_cons.mp he' with rfl | he'
      · match e' with
        | .didSelectItemAt row (some true) => exact ⟨[], row, es, rfl, others⟩
      · exact absurd ⟨e', he', accepted⟩ hlater

/-- **The choice survives exactly when no cell is configured after it.** A run with an accepted
selection has a last one, and the screen keeps it if and only if no `cellForItemAt` comes after it.
-/
theorem kept_iff {start vc : LoginVC} {es : List Event} (run : machine.run start es = some vc)
    (selects : ∃ e ∈ es, e.accepted = true) :
    ∃ before row after, es = before ++ .didSelectItemAt row (some true) :: after ∧
      (∀ e ∈ after, e.accepted = false) ∧ (vc.Kept (avatars.get row) ↔ .cellForItemAt ∉ after) := by
  obtain ⟨before, row, after, rfl, others⟩ := exists_last_accepted selects
  refine ⟨before, row, after, rfl, others, ?_⟩
  obtain ⟨s, flag, avatar, hafter⟩ := selected_run run
  obtain ⟨havatar, hflag⟩ := unselected_run flag others hafter
  exact ⟨fun kept => hflag.mp kept.didSelectProfile,
    fun hcell => kept_of_selected (hflag.mpr hcell) (havatar.trans avatar)⟩

/-- Two selections, and then the strip stands still. -/
def selections : List Event :=
  [.cellForItemAt, .cellForItemAt, .didSelectItemAt ⟨0, by decide⟩ (some true), .cellForItemAt,
    .didDeselectItemAt, .didSelectItemAt ⟨1, by decide⟩ (some true), .didDeselectItemAt]

theorem kept_selections : ∃ vc, machine.run new selections = some vc ∧
    ∃ before row after, selections = before ++ .didSelectItemAt row (some true) :: after ∧
      (∀ e ∈ after, e.accepted = false) ∧ (vc.Kept (avatars.get row) ↔ .cellForItemAt ∉ after) :=
  ⟨_, rfl, kept_iff rfl ⟨.didSelectItemAt ⟨0, by decide⟩ (some true), by simp [selections], rfl⟩⟩

/-- The user selects an avatar and scrolls: the choice is forgotten. -/
theorem forgotten_choice : ¬ ∀ es vc before row after, machine.run new es = some vc →
    es = before ++ .didSelectItemAt row (some true) :: after →
      (∀ e ∈ after, e.accepted = false) → vc.Kept (avatars.get row) := by
  intro law
  have kept := law [.cellForItemAt, .didSelectItemAt ⟨1, by decide⟩ (some true), .cellForItemAt] _
    [.cellForItemAt] ⟨1, by decide⟩ [.cellForItemAt] rfl rfl (by decide)
  cases kept.didSelectProfile

end LoginVC

end AniChat
