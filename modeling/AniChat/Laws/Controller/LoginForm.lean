import AniChat.Laws.Controller.LoginButton

/-!
# What the login screen's behaviour depends on

Two screens that differ in their alerts behave alike, and what a press does depends on the form the
user has filled in and on nothing an earlier attempt has left.

## What is proved

- `quiet_step`: a step of one of two screens alike is a step of the other, to screens alike.
- `form_step`, `form_stays`: events of the form change the form as they would on a fresh screen; all
  other events leave it.
- `quiet_press`: a press on a screen that is ready acts as on a fresh one with the same form.
-/

namespace AniChat

open Automata

namespace LoginVC

/-- The screen without its alerts. -/
def quiet (vc : LoginVC) : LoginVC := { vc with alerts := [] }

/-- A fresh screen with the same form: texts, mode and avatar. -/
def form (vc : LoginVC) : LoginVC :=
  { vc with home := none, isEnabled := true, alerts := [], attempt := none, navigationStack := [] }

/-- Screens that are alike differ in their alerts. -/
theorem eq_of_quiet {a b : LoginVC} (h : a.quiet = b.quiet) : b = { a with alerts := b.alerts } := by
  obtain ⟨_, _, _, _, _, _, _, _, _, _, _⟩ := a
  obtain ⟨_, _, _, _, _, _, _, _, _, _, _⟩ := b
  cases h
  rfl

/-! ## The press -/

theorem quiet_handleLogin {a b : LoginVC} (h : a.quiet = b.quiet) :
    a.handleLogin.quiet = b.handleLogin.quiet := by
  rw [eq_of_quiet h]
  unfold handleLogin
  dsimp only
  split
  · rfl
  · rfl

theorem quiet_handleRegister {a b : LoginVC} (h : a.quiet = b.quiet) :
    a.handleRegister.quiet = b.handleRegister.quiet := by
  rw [eq_of_quiet h]
  obtain ⟨as, has⟩ := forceUserToFullyRegister_eq a
  obtain ⟨bs, hbs⟩ := forceUserToFullyRegister_eq { a with alerts := b.alerts }
  unfold handleRegister
  dsimp only
  rw [has, hbs]
  split
  · dsimp only
    split
    · rfl
    · rfl
    · rfl
    · rfl
  · rfl

theorem quiet_loginOrRegister {a b : LoginVC} {home : ObjectId}
    (h : quiet { a with home := some home, isEnabled := false } =
      quiet { b with home := some home, isEnabled := false }) :
    (a.loginOrRegister home).quiet = (b.loginOrRegister home).quiet := by
  have hmode : a.selectedSegmentIndex = b.selectedSegmentIndex :=
    congrArg (fun vc => vc.selectedSegmentIndex) h
  unfold loginOrRegister
  dsimp only
  by_cases hm : a.selectedSegmentIndex = 0
  · rw [if_pos hm, if_pos (hmode ▸ hm)]
    exact quiet_handleLogin h
  · rw [if_neg hm, if_neg (hmode ▸ hm)]
    exact quiet_handleRegister h

/-- A press on a screen that is ready acts as on a fresh one with the same form. -/
theorem quiet_press {vc : LoginVC} {home : ObjectId} (attempt : vc.attempt = none)
    (shown : vc.navigationStack = []) :
    (vc.loginOrRegister home).quiet = (vc.form.loginOrRegister home).quiet := by
  refine quiet_loginOrRegister ?_
  obtain ⟨_, _, _, _, _, _, _, _, _, _, _⟩ := vc
  cases attempt
  cases shown
  rfl

/-! ## Steps -/

/-- A step of a screen is a step of any screen alike. -/
theorem quiet_step {a a' b : LoginVC} {e : Event} (h : a.quiet = b.quiet)
    (hstep : machine.step a e = some a') :
    ∃ b', machine.step b e = some b' ∧ a'.quiet = b'.quiet := by
  have hb := eq_of_quiet h
  generalize b.alerts = alerts at hb
  subst hb
  cases step_cases hstep with
  | press home enabled shown =>
    refine ⟨_, if_pos ⟨enabled, shown⟩, quiet_loginOrRegister rfl⟩
  | toggle => exact ⟨_, rfl, rfl⟩
  | editName => exact ⟨_, rfl, rfl⟩
  | editEmail => exact ⟨_, rfl, rfl⟩
  | editPassword => exact ⟨_, rfl, rfl⟩
  | cellForItemAt => exact ⟨_, rfl, rfl⟩
  | didSelectItemAt row cell =>
    refine ⟨_, rfl, ?_⟩
    unfold didSelectItemAt
    split
    · rfl
    · rfl
  | didDeselectItemAt => exact ⟨_, rfl, rfl⟩
  | @signIn email password user error waits =>
    refine ⟨loginCompletion { a with alerts := alerts } error, ?_, ?_⟩
    · simp only [machine, step, waits]
    · cases error with
      | none => rfl
      | some err => rfl
  | @register request stage reply outcome waits resumed =>
    refine ⟨registerCompletion { a with alerts := alerts } request outcome, ?_, ?_⟩
    · simp only [machine, step, waits, resumed, Option.map_some]
    · cases outcome with
      | next stage => rfl
      | returned => rfl
      | completion => rfl
  | @popViewController top rest pushed =>
    refine ⟨{ a with alerts := alerts, navigationStack := rest }, ?_, rfl⟩
    simp only [machine, step, pushed]

/-- An event of the form acts on it as on a fresh screen's. -/
theorem form_step {vc vc' : LoginVC} {e : Event} (isForm : e.isForm = true)
    (hstep : machine.step vc e = some vc') : machine.step vc.form e = some vc'.form := by
  cases step_cases hstep with
  | press => cases isForm
  | signIn => cases isForm
  | register => cases isForm
  | popViewController => cases isForm
  | didSelectItemAt row cell =>
    show some (vc.form.didSelectItemAt row cell) = some (vc.didSelectItemAt row cell).form
    unfold didSelectItemAt
    split
    · rfl
    · rfl
  | _ => rfl

/-- Any other event leaves the form as it is. -/
theorem form_stays {vc vc' : LoginVC} {e : Event} (isForm : e.isForm = false)
    (hstep : machine.step vc e = some vc') : vc'.form = vc.form := by
  cases step_cases hstep with
  | press home =>
    obtain ⟨_, _, _, h, -⟩ := loginOrRegister_eq vc home
    rw [h]
    rfl
  | signIn user error =>
    cases error with
    | none => rfl
    | some err => rfl
  | @register request stage reply outcome =>
    cases outcome with
    | next stage => rfl
    | returned => rfl
    | completion => rfl
  | popViewController => rfl
  | _ => cases isForm

end LoginVC

end AniChat
