import AniChat.Laws.Controller.LoginButton

/-!
# What gates a registration

`forceUserToFullyRegister` alerts the user to the first field that is too short and returns nothing,
so `handleRegister` goes on whatever it found. What decides is the avatar question alone: with an
avatar selected the screen registers, before the strip has shown a cell it returns with the button
disabled, and otherwise it asks for an avatar on top of the alert there may be already.

## What is proved

- `forceUserToFullyRegister_spec`: the helper asks for one alert, about a field, exactly when the
  texts are not valid.
- `gated_iff`: a press is gated as the texts and the selection ask for exactly when the texts are
  valid and the avatar question has been put, or nothing is selected and UIKit drops the second
  alert.
-/

namespace AniChat

open Automata

namespace LoginVC

/-- The texts pass the checks of `forceUserToFullyRegister`. -/
def Valid (username email password : Text) : Prop :=
  3 ≤ username.length ∧ 4 ≤ email.length ∧ "@" ∈ email ∧ 6 ≤ password.length

/-- The texts of its alerts. -/
def fieldMessages : List String :=
  ["Enter Your Name", "Enter Your Email", "Enter a Valid Email", "Enter a Password"]

/-- The fields hold these texts. -/
def Filled (vc : LoginVC) (username email password : Text) : Prop :=
  vc.nameText = some username ∧ vc.emailText = some email ∧ vc.passwordText = some password

/-- The avatar the screen takes to be selected. -/
def selectedAvatar (vc : LoginVC) : Option String :=
  if vc.didSelectProfile = some true then vc.avatar else none

/-- An alert about a field, asked for where the texts are not valid. -/
theorem alert_spec (vc : LoginVC) {username email password : Text} {message : String}
    (field : message ∈ fieldMessages) (invalid : ¬ Valid username email password) :
    ∃ asked : Option String, vc.alert message = { vc with alerts := asked.toList ++ vc.alerts } ∧
      (asked = none ↔ Valid username email password) ∧
      ∀ message ∈ asked, message ∈ fieldMessages := by
  refine ⟨some message, rfl, iff_of_false nofun invalid, fun _ h => ?_⟩
  cases h
  exact field

/-- The helper asks for an alert about a field exactly when the texts are not valid. -/
theorem forceUserToFullyRegister_spec {vc : LoginVC} {username email password : Text}
    (filled : vc.Filled username email password) :
    ∃ asked : Option String,
      vc.forceUserToFullyRegister = { vc with alerts := asked.toList ++ vc.alerts } ∧
      (asked = none ↔ Valid username email password) ∧
      ∀ message ∈ asked, message ∈ fieldMessages := by
  obtain ⟨_, _, _, _, _, _, _, _, _, _, _⟩ := vc
  obtain ⟨rfl, rfl, rfl⟩ := filled
  unfold forceUserToFullyRegister
  dsimp only
  by_cases hn : username.length < 3
  · rw [if_pos hn]
    exact alert_spec _ (by decide) fun h => Nat.not_le.mpr hn h.1
  rw [if_neg hn]
  by_cases he : email.length < 4
  · rw [if_pos he]
    exact alert_spec _ (by decide) fun h => Nat.not_le.mpr he h.2.1
  rw [if_neg he]
  by_cases ha : "@" ∉ email
  · rw [if_pos ha]
    exact alert_spec _ (by decide) fun h => ha h.2.2.1
  rw [if_neg ha]
  by_cases hp : password.length < 6
  · rw [if_pos hp]
    exact alert_spec _ (by decide) fun h => Nat.not_le.mpr hp h.2.2.2
  rw [if_neg hp]
  have valid : Valid username email password := ⟨by omega, by omega, not_not.mp ha, by omega⟩
  exact ⟨none, rfl, iff_of_true rfl valid, nofun⟩

/-- A press in register mode with the fields filled: the helper's alert first, then the avatar
question. -/
inductive Registered (vc vc' : LoginVC) (home : ObjectId) (username email password : Text)
    (asked : Option String) : Prop where
  | returns (selected : vc.selectedAvatar = none) (asks : vc.didSelectProfile ≠ some false)
      (after : vc' = { vc with
        home := some home, isEnabled := false, alerts := asked.toList ++ vc.alerts })
  | asks (selected : vc.didSelectProfile = some false)
      (after : vc' = { vc with
        home := some home, isEnabled := true,
        alerts := "Please Select An Avatar" :: (asked.toList ++ vc.alerts) })
  | registers {avatarName : String} (selected : vc.selectedAvatar = some avatarName)
      (after : vc' = { vc with
        home := some home, isEnabled := false, alerts := asked.toList ++ vc.alerts,
        attempt := some (.register ⟨username, email, password, avatarName⟩ .putData) })

theorem registered_cases {vc : LoginVC} (home : ObjectId) {username email password : Text}
    (filled : vc.Filled username email password) (mode : vc.selectedSegmentIndex ≠ 0) :
    ∃ asked : Option String, (asked = none ↔ Valid username email password) ∧
      (∀ message ∈ asked, message ∈ fieldMessages) ∧
      Registered vc (vc.loginOrRegister home) home username email password asked := by
  obtain ⟨_, _, _, _, avatar, didSelectProfile, _, _, _, _, _⟩ := vc
  obtain ⟨rfl, rfl, rfl⟩ := filled
  obtain ⟨asked, hforce, hvalid, hmessage⟩ :=
    @forceUserToFullyRegister_spec ⟨some username, some email, some password, _, avatar,
      didSelectProfile, some home, false, _, _, _⟩ username email password ⟨rfl, rfl, rfl⟩
  refine ⟨asked, hvalid, hmessage, ?_⟩
  unfold loginOrRegister handleRegister
  dsimp only
  rw [if_neg mode, hforce]
  cases didSelectProfile with
  | none => exact .returns rfl nofun rfl
  | some flag =>
    cases flag with
    | false => exact .asks rfl rfl
    | true =>
      cases avatar with
      | none => exact .returns rfl nofun rfl
      | some avatarName => exact .registers rfl rfl

/-! ## The gate -/

/-- How many of the alerts that one press asks for are presented. UIKit drops the second of two;
were it to present it as well, `again` would be true. -/
def presented (again : Bool) (asked : Nat) : Nat := if again then asked else min asked 1

/-- The press registers if and only if the texts are valid and an avatar is selected, and otherwise
sends nothing, presents one alert and enables the button. -/
structure Gated (again : Bool) (vc vc' : LoginVC) (username email password : Text) : Prop where
  sends : (∃ request, vc'.attempt = some (.register request .putData)) ↔
    Valid username email password ∧ vc.selectedAvatar ≠ none
  refuses : ¬ (Valid username email password ∧ vc.selectedAvatar ≠ none) →
    vc'.attempt = none ∧ vc'.isEnabled = true ∧
      ∃ asked, vc'.alerts = asked ++ vc.alerts ∧ presented again asked.length = 1

/-- The alert about the avatar is the only one presented when there is no other, or UIKit drops it.
-/
theorem presented_eq_one_iff {again : Bool} {asked : Option String} :
    presented again ("Please Select An Avatar" :: asked.toList).length = 1 ↔
      asked = none ∨ again = false := by
  cases asked with
  | none =>
    cases again with
    | false => exact iff_of_true rfl (.inl rfl)
    | true => exact iff_of_true rfl (.inl rfl)
  | some message =>
    cases again with
    | false => exact iff_of_true rfl (.inr rfl)
    | true => exact iff_of_false nofun nofun

/-- **The checks gate the press only where the avatar question does.** From a screen with no attempt
in flight, as it is wherever its button is enabled, the press is gated exactly when the texts are
valid and an avatar is selected, or the strip has shown its cells, nothing is selected, and no alert
about a field is presented as well. -/
theorem gated_iff (again : Bool) {vc vc' : LoginVC} {home : ObjectId} {username email password : Text}
    (filled : vc.Filled username email password) (mode : vc.selectedSegmentIndex ≠ 0)
    (idle : vc.attempt = none) (press : machine.step vc (.press home) = some vc') :
    Gated again vc vc' username email password ↔
      Valid username email password ∧ vc.selectedAvatar ≠ none ∨
        vc.didSelectProfile = some false ∧ (Valid username email password ∨ again = false) := by
  obtain ⟨-, hafter⟩ := Option.ite_none_right_eq_some.mp press
  cases hafter
  obtain ⟨asked, hvalid, -, hpress⟩ := registered_cases home filled mode
  cases hpress with
  | returns selected asks after =>
    refine iff_of_false (fun gated => ?_) ?_
    · have henabled := (gated.refuses fun h => h.2 selected).2.1
      rw [after] at henabled
      cases henabled
    · rintro (⟨-, h⟩ | ⟨h, -⟩)
      · exact h selected
      · exact asks h
  | asks selected after =>
    have hnone : vc.selectedAvatar = none := if_neg (by rw [selected]; exact nofun)
    have hsent : ¬ ∃ request, (vc.loginOrRegister home).attempt =
        some (.register request .putData) := by
      rw [after]
      rintro ⟨request, h⟩
      cases idle.symm.trans h
    constructor
    · intro gated
      obtain ⟨-, -, alerts, halerts, hone⟩ := gated.refuses fun h => h.2 hnone
      rw [after, ← List.cons_append] at halerts
      rw [← List.append_cancel_right halerts] at hone
      exact .inr ⟨selected, (presented_eq_one_iff.mp hone).imp_left hvalid.mp⟩
    · rintro (⟨-, h⟩ | ⟨-, h⟩)
      · exact absurd hnone h
      · refine ⟨iff_of_false hsent fun h => h.2 hnone, fun _ => ?_⟩
        rw [after]
        exact ⟨idle, rfl, "Please Select An Avatar" :: asked.toList, rfl,
          presented_eq_one_iff.mpr (h.imp_left hvalid.mpr)⟩
  | @registers avatarName selected after =>
    have hsome : vc.selectedAvatar ≠ none := by rw [selected]; exact nofun
    have hsent : ∃ request, (vc.loginOrRegister home).attempt =
        some (.register request .putData) := by
      rw [after]
      exact ⟨_, rfl⟩
    constructor
    · exact fun gated => .inl (gated.sends.mp hsent)
    · rintro (h | ⟨hflag, -⟩)
      · exact ⟨iff_of_true hsent h, fun hnot => absurd h hnot⟩
      · refine absurd (if_neg ?_) hsome
        rw [hflag]
        exact nofun

/-- The form filled in, and an avatar selected. -/
def filledIn (name email password : Text) : LoginVC :=
  { new with
    nameText := some name, emailText := some email, passwordText := some password,
    avatar := some "002-dog", didSelectProfile := some true }

example (name email password : Text) : machine.run new [.editName name, .editEmail email,
    .editPassword password, .cellForItemAt, .didSelectItemAt ⟨1, by decide⟩ (some true)] =
      some (filledIn name email password) := rfl

theorem gated_filledIn : ∃ vc', Gated false (filledIn ["A", "n", "n"] ["a", "@", "b", "c"]
    ["s", "e", "c", "r", "e", "t"]) vc' ["A", "n", "n"] ["a", "@", "b", "c"]
      ["s", "e", "c", "r", "e", "t"] :=
  ⟨_, (@gated_iff false _ _ 1 _ _ _ ⟨rfl, rfl, rfl⟩ one_ne_zero rfl rfl).mpr
    (.inl ⟨⟨by decide, by decide, by decide, by decide⟩, nofun⟩)⟩

/-- With an avatar selected an empty form registers. -/
theorem registers_unchecked : ¬ ∀ again vc vc' home username email password,
    vc.Filled username email password → vc.selectedSegmentIndex ≠ 0 → vc.attempt = none →
      machine.step vc (.press home) = some vc' → Gated again vc vc' username email password := by
  intro law
  have gated := law false (filledIn [] [] []) _ 1 [] [] [] ⟨rfl, rfl, rfl⟩ one_ne_zero rfl rfl
  have valid := (gated.sends.mp ⟨_, rfl⟩).1
  cases valid.1

end LoginVC

end AniChat
