import AniChat.Controller.LoginVC
import AniChat.Laws.Client.Registration

/-!
# The button of the login screen

`loginOrRegister` disables the button. It is enabled again where both completions end well and where
the user is asked to select an avatar, and nowhere else: not when the sign-in fails, not when a
stage of the registration fails, and not on an early return.

## What is proved

- `single_flight_iff`: along a run the button is enabled exactly when no attempt is in flight, if
  and only if every step of the run takes one of the exits that enable it (`Exits`).
- `stuck_run`: after any other exit the button stays disabled, whatever happens.
- `disabled_of_attempt`, `home_of_attempt`: the other half holds in every run, and `home!` finds a
  screen whenever an attempt ends.
-/

namespace AniChat

open Automata

namespace LoginClient

/-- The stage succeeded, and what its closure captured or looks for is there. -/
def Reply.Succeeds : Reply → Prop
  | .putData error alive => error = none ∧ alive = true
  | .downloadURL url error => error = none ∧ url ≠ none
  | .createUser error currentUser => error = none ∧ currentUser ≠ none
  | .updateChildValues error => error = none

/-- A closure goes on, or calls back, exactly on success. -/
theorem resume_returned_iff {stage : Stage} {reply : Reply} {outcome : Outcome}
    (h : resume stage reply = some outcome) : outcome ≠ .returned ↔ reply.Succeeds := by
  cases resume_cases h with
  | _ => simp only [Reply.Succeeds, ne_eq, reduceCtorEq, not_true_eq_false, not_false_eq_true,
      and_self, and_false, false_and, Bool.false_eq_true, Option.some_ne_none]

end LoginClient

namespace LoginVC

/-! ## One step of the screen -/

/-- What one event can do. -/
inductive Step (vc : LoginVC) : Event → LoginVC → Prop where
  | press (home : ObjectId) (enabled : vc.isEnabled = true) (shown : vc.navigationStack = []) :
      Step vc (.press home) (vc.loginOrRegister home)
  | toggle (index : Int) : Step vc (.toggle index) { vc with selectedSegmentIndex := index }
  | editName (text : Option Text) : Step vc (.editName text) { vc with nameText := text }
  | editEmail (text : Option Text) : Step vc (.editEmail text) { vc with emailText := text }
  | editPassword (text : Option Text) : Step vc (.editPassword text) { vc with passwordText := text }
  | cellForItemAt : Step vc .cellForItemAt vc.cellForItemAt
  | didSelectItemAt (row : Fin avatars.length) (cell : Option Bool) :
      Step vc (.didSelectItemAt row cell) (vc.didSelectItemAt row cell)
  | didDeselectItemAt : Step vc .didDeselectItemAt vc
  | signIn {email password : Text} (user : Uid) (error : Option String)
      (waits : vc.attempt = some (.login email password)) :
      Step vc (.signIn user error) (vc.loginCompletion error)
  | register {request : RegisterRequest} {stage : LoginClient.Stage} {reply : LoginClient.Reply}
      {outcome : LoginClient.Outcome} (waits : vc.attempt = some (.register request stage))
      (resumed : LoginClient.resume stage reply = some outcome) :
      Step vc (.register reply) (vc.registerCompletion request outcome)
  | popViewController {top : ObjectId} {rest : List ObjectId}
      (pushed : vc.navigationStack = top :: rest) :
      Step vc .popViewController { vc with navigationStack := rest }

theorem step_cases {vc vc' : LoginVC} {e : Event} (h : machine.step vc e = some vc') :
    Step vc e vc' := by
  change step vc e = some vc' at h
  cases e with
  | press home =>
    obtain ⟨hg, he⟩ := Option.ite_none_right_eq_some.mp h
    cases he; exact .press home hg.1 hg.2
  | toggle index => cases h; exact .toggle index
  | editName text => cases h; exact .editName text
  | editEmail text => cases h; exact .editEmail text
  | editPassword text => cases h; exact .editPassword text
  | cellForItemAt => cases h; exact .cellForItemAt
  | didSelectItemAt row cell => cases h; exact .didSelectItemAt row cell
  | didDeselectItemAt => cases h; exact .didDeselectItemAt
  | signIn user error =>
    simp only [step] at h
    split at h
    · next hw => cases h; exact .signIn user error hw
    · cases h
  | register reply =>
    simp only [step] at h
    split at h
    · next hw =>
      obtain ⟨outcome, hres, rfl⟩ := Option.map_eq_some_iff.mp h
      exact .register hw hres
    · cases h
  | popViewController =>
    simp only [step] at h
    split at h
    · cases h
    · next hp => cases h; exact .popViewController hp

/-! ## The press -/

/-- The alerts of `forceUserToFullyRegister` are all it changes. -/
theorem forceUserToFullyRegister_eq (vc : LoginVC) :
    ∃ alerts, vc.forceUserToFullyRegister = { vc with alerts := alerts } := by
  unfold forceUserToFullyRegister
  repeat' split
  all_goals exact ⟨_, rfl⟩

/-- The fields are there, and in register mode the avatar question has been put and answered: the
conditions under which a press does not return early. -/
def Proceeds (vc : LoginVC) : Prop :=
  vc.emailText ≠ none ∧ vc.passwordText ≠ none ∧
  (vc.selectedSegmentIndex = 0 ∨
    vc.nameText ≠ none ∧ vc.didSelectProfile ≠ none ∧
      (vc.didSelectProfile = some true → vc.avatar ≠ none))

/-- A press with no attempt in flight either starts one and leaves the button disabled, or asks for
an avatar and enables it, or returns early with the button disabled. -/
inductive Pressed (vc vc' : LoginVC) : Prop where
  | started (proceeds : vc.Proceeds) (disabled : vc'.isEnabled = false) (attempt : vc'.attempt ≠ none)
  | asked (proceeds : vc.Proceeds) (enabled : vc'.isEnabled = true)
      (attempt : vc'.attempt = vc.attempt)
  | early (returns : ¬ vc.Proceeds) (disabled : vc'.isEnabled = false)
      (attempt : vc'.attempt = vc.attempt)

theorem handleLogin_pressed (vc : LoginVC) (home : ObjectId) (mode : vc.selectedSegmentIndex = 0) :
    Pressed vc (handleLogin { vc with home := some home, isEnabled := false }) := by
  unfold handleLogin
  split
  · next email password hemail hpassword =>
    change vc.emailText = some email at hemail
    change vc.passwordText = some password at hpassword
    refine .started ⟨by rw [hemail]; exact nofun, by rw [hpassword]; exact nofun, .inl mode⟩ rfl ?_
    exact nofun
  · next hmissing =>
    refine .early ?_ rfl rfl
    intro ⟨hemail, hpassword, _⟩
    obtain ⟨email, hemail⟩ := Option.ne_none_iff_exists'.mp hemail
    obtain ⟨password, hpassword⟩ := Option.ne_none_iff_exists'.mp hpassword
    exact hmissing email password hemail hpassword

theorem handleRegister_pressed (vc : LoginVC) (home : ObjectId)
    (mode : vc.selectedSegmentIndex ≠ 0) :
    Pressed vc (handleRegister { vc with home := some home, isEnabled := false }) := by
  obtain ⟨alerts, hforce⟩ :=
    forceUserToFullyRegister_eq { vc with home := some home, isEnabled := false }
  unfold handleRegister
  split
  · next username email password hname hemail hpassword =>
    change vc.nameText = some username at hname
    change vc.emailText = some email at hemail
    change vc.passwordText = some password at hpassword
    have htexts : vc.emailText ≠ none ∧ vc.passwordText ≠ none ∧ vc.nameText ≠ none := by
      rw [hname, hemail, hpassword]
      exact ⟨nofun, nofun, nofun⟩
    dsimp only
    rw [hforce]
    split
    · next hselect =>
      change vc.didSelectProfile = none at hselect
      refine .early ?_ rfl rfl
      intro ⟨_, _, h⟩
      rcases h with h | ⟨_, h, _⟩
      · exact mode h
      · exact h hselect
    · next hselect havatar =>
      change vc.didSelectProfile = some true at hselect
      change vc.avatar = none at havatar
      refine .early ?_ rfl rfl
      intro ⟨_, _, h⟩
      rcases h with h | ⟨_, _, h⟩
      · exact mode h
      · exact h hselect havatar
    · next avatarName hselect havatar =>
      change vc.didSelectProfile = some true at hselect
      change vc.avatar = some avatarName at havatar
      refine .started ⟨htexts.1, htexts.2.1, .inr ⟨htexts.2.2, ?_, ?_⟩⟩ rfl nofun
      · rw [hselect]; exact nofun
      · rw [havatar]; exact nofun
    · next hselect =>
      change vc.didSelectProfile = some false at hselect
      refine .asked ⟨htexts.1, htexts.2.1, .inr ⟨htexts.2.2, ?_, ?_⟩⟩ rfl rfl
      · rw [hselect]; exact nofun
      · rw [hselect]; exact nofun
  · next hmissing =>
    refine .early ?_ rfl rfl
    intro ⟨hemail, hpassword, h⟩
    rcases h with h | ⟨hname, _, _⟩
    · exact mode h
    · obtain ⟨username, hname⟩ := Option.ne_none_iff_exists'.mp hname
      obtain ⟨email, hemail⟩ := Option.ne_none_iff_exists'.mp hemail
      obtain ⟨password, hpassword⟩ := Option.ne_none_iff_exists'.mp hpassword
      exact hmissing username email password hname hemail hpassword

theorem loginOrRegister_pressed (vc : LoginVC) (home : ObjectId) :
    Pressed vc (vc.loginOrRegister home) := by
  unfold loginOrRegister
  dsimp only
  split
  · next mode => exact handleLogin_pressed vc home mode
  · next mode => exact handleRegister_pressed vc home mode

/-- A press makes a home screen and starts at most one attempt, at its first stage. It changes
nothing else but the button and the alerts. -/
theorem loginOrRegister_eq (vc : LoginVC) (home : ObjectId) :
    ∃ isEnabled alerts attempt, vc.loginOrRegister home =
        { vc with home := some home, isEnabled := isEnabled, alerts := alerts, attempt := attempt } ∧
      ∀ request stage, attempt = some (.register request stage) →
        stage = .putData ∨ vc.attempt = some (.register request stage) := by
  obtain ⟨alerts, hforce⟩ :=
    forceUserToFullyRegister_eq { vc with home := some home, isEnabled := false }
  unfold loginOrRegister handleLogin handleRegister
  dsimp only
  rw [hforce]
  repeat' split
  all_goals first
    | exact ⟨_, _, vc.attempt, rfl, fun _ _ h => .inr h⟩
    | exact ⟨_, _, _, rfl, fun _ _ h => by cases h; exact .inl rfl⟩
    | exact ⟨_, _, _, rfl, fun _ _ h => by cases h⟩

theorem loginOrRegister_home (vc : LoginVC) (home : ObjectId) :
    (vc.loginOrRegister home).home = some home := by
  obtain ⟨_, _, _, h, -⟩ := loginOrRegister_eq vc home
  rw [h]

theorem loginOrRegister_navigationStack (vc : LoginVC) (home : ObjectId) :
    (vc.loginOrRegister home).navigationStack = vc.navigationStack := by
  obtain ⟨_, _, _, h, -⟩ := loginOrRegister_eq vc home
  rw [h]

/-- A press starts an attempt at its first stage, or none. -/
theorem loginOrRegister_attempt (vc : LoginVC) (home : ObjectId) {request : RegisterRequest}
    {stage : LoginClient.Stage}
    (h : (vc.loginOrRegister home).attempt = some (.register request stage)) :
    stage = .putData ∨ vc.attempt = some (.register request stage) := by
  obtain ⟨_, _, _, heq, hstage⟩ := loginOrRegister_eq vc home
  rw [heq] at h
  exact hstage request stage h

/-! ## Along a run -/

/-- The button is enabled exactly when no attempt is in flight. -/
def SingleFlight (vc : LoginVC) : Prop := vc.isEnabled = true ↔ vc.attempt = none

/-- The step takes an exit that enables the button, or goes on: a press does not return early, the
sign-in succeeds, and so does each stage of a registration. -/
def Exits (vc : LoginVC) : Event → Prop
  | .press _ => vc.Proceeds
  | .signIn _ error => error = none
  | .register reply => reply.Succeeds
  | _ => True

theorem singleFlight_press {vc : LoginVC} {home : ObjectId} (h : vc.SingleFlight)
    (enabled : vc.isEnabled = true) :
    (vc.loginOrRegister home).SingleFlight ↔ vc.Proceeds := by
  have hnone : vc.attempt = none := h.mp enabled
  unfold SingleFlight
  cases loginOrRegister_pressed vc home with
  | started proceeds disabled attempt =>
    simp only [disabled, Bool.false_eq_true, attempt, proceeds]
  | asked proceeds enabled attempt => simp only [enabled, attempt, hnone, proceeds]
  | early returns disabled attempt =>
    simp only [disabled, Bool.false_eq_true, attempt, hnone, returns, iff_true]

theorem SingleFlight.disabled {vc : LoginVC} (h : vc.SingleFlight) {a : Attempt}
    (waits : vc.attempt = some a) : vc.isEnabled = false := by
  rw [← Bool.not_eq_true]
  intro henabled
  rw [h.mp henabled] at waits
  cases waits

theorem singleFlight_signIn {vc : LoginVC} (h : vc.SingleFlight) {a : Attempt}
    (waits : vc.attempt = some a) (error : Option String) :
    (vc.loginCompletion error).SingleFlight ↔ error = none := by
  have hdisabled := h.disabled waits
  unfold SingleFlight loginCompletion
  cases error with
  | none => simp only [succeed]
  | some err => simp only [alert, hdisabled, Bool.false_eq_true, false_iff, not_true_eq_false,
      reduceCtorEq]

theorem singleFlight_register {vc : LoginVC} (h : vc.SingleFlight) {a : Attempt}
    (waits : vc.attempt = some a) (request : RegisterRequest) (outcome : LoginClient.Outcome) :
    (vc.registerCompletion request outcome).SingleFlight ↔ outcome ≠ .returned := by
  have hdisabled := h.disabled waits
  unfold SingleFlight registerCompletion
  cases outcome with
  | next stage => simp only [hdisabled, Bool.false_eq_true, reduceCtorEq, ne_eq, not_false_eq_true]
  | returned => simp only [hdisabled, Bool.false_eq_true, false_iff, not_true_eq_false, ne_eq]
  | completion => simp only [succeed, ne_eq, reduceCtorEq, not_false_eq_true]

theorem singleFlight_didSelectItemAt {vc : LoginVC} (h : vc.SingleFlight)
    (row : Fin avatars.length) (cell : Option Bool) :
    (vc.didSelectItemAt row cell).SingleFlight := by
  unfold didSelectItemAt
  split
  · exact h
  · exact h

/-- One step keeps the button right exactly when it takes such an exit. -/
theorem singleFlight_step {vc vc' : LoginVC} {e : Event} (h : vc.SingleFlight)
    (hstep : machine.step vc e = some vc') : vc'.SingleFlight ↔ vc.Exits e := by
  cases step_cases hstep with
  | press home enabled => exact singleFlight_press h enabled
  | toggle => exact iff_true_intro h
  | editName => exact iff_true_intro h
  | editEmail => exact iff_true_intro h
  | editPassword => exact iff_true_intro h
  | cellForItemAt => exact iff_true_intro h
  | didSelectItemAt row cell => exact iff_true_intro (singleFlight_didSelectItemAt h row cell)
  | didDeselectItemAt => exact iff_true_intro h
  | signIn user error waits => exact singleFlight_signIn h waits error
  | register waits resumed =>
    exact (singleFlight_register h waits _ _).trans (LoginClient.resume_returned_iff resumed)
  | popViewController => exact iff_true_intro h

/-- **The button is enabled exactly when no attempt is in flight, if and only if every step takes an
exit that enables it.** -/
theorem single_flight_iff {es : List Event} {vc : LoginVC} (run : machine.run new es = some vc) :
    machine.Always SingleFlight new es ↔ machine.Meets Exits new es := by
  have keep : ∀ vc e vc', vc.SingleFlight → True → machine.step vc e = some vc' →
      True ∧ (vc'.SingleFlight ↔ vc.Exits e) :=
    fun _ _ _ h _ hstep => ⟨trivial, singleFlight_step h hstep⟩
  exact Machine.always_iff_meets keep (iff_of_true rfl rfl) trivial run

/-- Alice's sign-in, and its answer. -/
def aliceSignsIn (error : Option String) : List Event :=
  [.toggle 0, .press 0, .signIn "alice" error]

theorem single_flight_aliceSignsIn : ∃ vc, machine.run new (aliceSignsIn none) = some vc ∧
    (machine.Always SingleFlight new (aliceSignsIn none) ↔
      machine.Meets Exits new (aliceSignsIn none)) :=
  ⟨_, rfl, single_flight_iff rfl⟩

/-- After a failed sign-in no attempt is in flight and the button is disabled. -/
theorem stuck_after_failed_signIn : ¬ ∀ es vc, machine.run new es = some vc → vc.SingleFlight := by
  intro law
  have h := law (aliceSignsIn (some "The password is invalid")) _ rfl
  exact Bool.false_ne_true (h.mpr rfl)

/-! ## After any other exit -/

/-- The button is disabled and nothing is under way that would enable it. -/
def Stuck (vc : LoginVC) : Prop := vc.isEnabled = false ∧ vc.attempt = none

theorem stuck_step {vc vc' : LoginVC} {e : Event} (h : vc.Stuck)
    (hstep : machine.step vc e = some vc') : vc'.Stuck := by
  obtain ⟨hdisabled, hnone⟩ := h
  cases step_cases hstep with
  | press home enabled => rw [hdisabled] at enabled; cases enabled
  | toggle => exact ⟨hdisabled, hnone⟩
  | editName => exact ⟨hdisabled, hnone⟩
  | editEmail => exact ⟨hdisabled, hnone⟩
  | editPassword => exact ⟨hdisabled, hnone⟩
  | cellForItemAt => exact ⟨hdisabled, hnone⟩
  | didSelectItemAt row cell =>
    unfold didSelectItemAt
    split
    · exact ⟨hdisabled, hnone⟩
    · exact ⟨hdisabled, hnone⟩
  | didDeselectItemAt => exact ⟨hdisabled, hnone⟩
  | signIn user error waits => rw [hnone] at waits; cases waits
  | register waits => rw [hnone] at waits; cases waits
  | popViewController => exact ⟨hdisabled, hnone⟩

/-- The app is unusable until it is started again. -/
theorem stuck_run {vc vc' : LoginVC} {es : List Event} (h : vc.Stuck)
    (run : machine.run vc es = some vc') : vc'.Stuck :=
  Machine.run_invariant (fun _ _ _ => stuck_step) h run

/-- While an attempt is in flight the button is disabled, whatever has happened before. -/
theorem disabled_of_attempt {es : List Event} {vc : LoginVC} (run : machine.run new es = some vc)
    (waits : vc.attempt ≠ none) : vc.isEnabled = false := by
  have keep : ∀ (vc : LoginVC) e vc', (vc.attempt ≠ none → vc.isEnabled = false) →
      machine.step vc e = some vc' → vc'.attempt ≠ none → vc'.isEnabled = false := by
    intro vc e vc' ih hstep
    cases step_cases hstep with
    | press home enabled =>
      cases loginOrRegister_pressed vc home with
      | started proceeds disabled => exact fun _ => disabled
      | asked proceeds enabled' attempt =>
        intro hwaits
        rw [attempt] at hwaits
        exact absurd enabled (by rw [ih hwaits]; exact nofun)
      | early returns disabled => exact fun _ => disabled
    | didSelectItemAt row cell =>
      unfold didSelectItemAt
      split
      · exact ih
      · exact ih
    | signIn user error waits =>
      intro hwaits
      cases error with
      | none => exact absurd rfl hwaits
      | some err => exact absurd rfl hwaits
    | @register request stage reply outcome waits =>
      intro hwaits
      cases outcome with
      | next stage => exact ih (by rw [waits]; exact nofun)
      | returned => exact absurd rfl hwaits
      | completion => exact absurd rfl hwaits
    | _ => exact ih
  exact Machine.run_invariant keep (fun h => absurd rfl h) run waits

/-- An attempt starts with a press, which has set `home`. -/
theorem home_of_attempt {es : List Event} {vc : LoginVC} (run : machine.run new es = some vc)
    (waits : vc.attempt ≠ none) : vc.home ≠ none := by
  have keep : ∀ (vc : LoginVC) e vc', (vc.attempt ≠ none → vc.home ≠ none) →
      machine.step vc e = some vc' → vc'.attempt ≠ none → vc'.home ≠ none := by
    intro vc e vc' ih hstep
    cases step_cases hstep with
    | press home =>
      intro _
      rw [loginOrRegister_home]
      exact nofun
    | didSelectItemAt row cell =>
      unfold didSelectItemAt
      split
      · exact ih
      · exact ih
    | signIn user error waits =>
      intro hwaits
      unfold loginCompletion at hwaits ⊢
      split at hwaits
      · exact absurd rfl hwaits
      · exact absurd rfl hwaits
    | @register request stage reply outcome waits =>
      intro hwaits
      have hhome := ih (by rw [waits]; exact nofun)
      unfold registerCompletion
      split
      · exact hhome
      · exact hhome
      · exact hhome
    | _ => exact ih
  exact Machine.run_invariant keep (fun h => absurd rfl h) run waits

end LoginVC

end AniChat
