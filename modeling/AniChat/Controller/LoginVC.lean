import AniChat.Automata.Machine
import AniChat.Client.LoginClient

/-!
# LoginVC — the login screen

The screen's fields, the press of its button (`loginOrRegister`, `handleLogin`, `handleRegister`,
`forceUserToFullyRegister`), the avatar strip, and the closures the screen gives to `LoginClient`.
The machine runs them in any order in which they can come; the answers of Firebase come with their
events.

The screen is the root of the navigation controller and is never released. Its button can be pressed
while it is enabled and no other screen lies on top.
-/

namespace AniChat

open Automata

/-- A Swift `Character`: one extended grapheme cluster, by its scalars. -/
abbrev Character := String

/-- What a text field holds, as the collection of its characters. -/
abbrev Text := List Character

/-- The arguments of `LoginClient.register`. -/
structure RegisterRequest where
  name : Text
  email : Text
  password : Text
  avatar : String
  deriving DecidableEq

/-- A call into `LoginClient` whose chain of callbacks has not ended. -/
inductive Attempt where
  | login (email password : Text)
  | register (request : RegisterRequest) (stage : LoginClient.Stage)
  deriving DecidableEq

structure LoginVC where
  /-- `nameTextField.text`, and the texts of the other two fields. -/
  nameText : Option Text
  emailText : Option Text
  passwordText : Option Text
  /-- Of `loginSegmentControl`: 0 is "Login", 1 is "Register". -/
  selectedSegmentIndex : Int
  avatar : Option String
  didSelectProfile : Option Bool
  home : Option ObjectId
  /-- `loginRegisterButton.isEnabled`. -/
  isEnabled : Bool
  /-- The alerts asked for, the last one first. -/
  alerts : List String
  attempt : Option Attempt
  /-- The recents screens pushed on top of this one, the topmost first. -/
  navigationStack : List ObjectId

namespace LoginVC

/-- The pictures the avatar strip offers. -/
def avatars : List String :=
  ["001-panda bear", "002-dog", "003-elephant", "004-sheep", "005-fox", "006-crocodile",
    "007-llama", "008-zebra", "009-horse", "010-snake", "011-bear", "012-cat", "013-rhinoceros",
    "014-sloth", "015-whale", "016-frog", "017-hippopotamus", "018-koala", "019-boar", "020-pig",
    "021-guinea pig", "022-squirrel", "023-lemur", "024-duck", "025-monkey", "026-camel",
    "027-hen", "028-walrus", "029-mole", "030-mouse", "031-buffalo", "032-cow", "033-owl",
    "034-giraffe", "035-bat", "036-jaguar", "037-wolf", "038-chameleon", "039-ostrich",
    "040-rabbit", "041-lion", "042-eagle", "043-shark", "044-tiger", "045-raccoon",
    "046-anteater", "047-penguin", "048-beaver", "049-hedgehog", "050-kangaroo"]

/-- `LoginVC()`, in register mode as the segment control starts. -/
def new : LoginVC where
  nameText := some []
  emailText := some []
  passwordText := some []
  selectedSegmentIndex := 1
  avatar := none
  didSelectProfile := none
  home := none
  isEnabled := true
  alerts := []
  attempt := none
  navigationStack := []

/-- `alert(message:)`. -/
def alert (vc : LoginVC) (message : String) : LoginVC :=
  { vc with alerts := message :: vc.alerts }

/-- `forceUserToFullyRegister()`: the first field that is too short gets an alert. The caller is not
told. -/
def forceUserToFullyRegister (vc : LoginVC) : LoginVC :=
  match vc.nameText with
  | none => vc
  | some username =>
    if username.length < 3 then vc.alert "Enter Your Name"
    else match vc.emailText with
      | none => vc
      | some email =>
        if email.length < 4 then vc.alert "Enter Your Email"
        else if "@" ∉ email then vc.alert "Enter a Valid Email"
        else match vc.passwordText with
          | none => vc
          | some password => if password.length < 6 then vc.alert "Enter a Password" else vc

/-- `loginClient.register(name:email:password:avatar:)` is called. -/
def register (vc : LoginVC) (request : RegisterRequest) : LoginVC :=
  { vc with attempt := some (.register request .putData) }

/-- `handleRegister()`. -/
def handleRegister (vc : LoginVC) : LoginVC :=
  match vc.nameText, vc.emailText, vc.passwordText with
  | some username, some email, some password =>
    let vc := vc.forceUserToFullyRegister
    match vc.didSelectProfile, vc.avatar with
    | none, _ => vc
    | some true, none => vc
    | some true, some avatarName => vc.register ⟨username, email, password, avatarName⟩
    | some false, _ => { vc.alert "Please Select An Avatar" with isEnabled := true }
  | _, _, _ => vc

/-- `handleLogin()`. -/
def handleLogin (vc : LoginVC) : LoginVC :=
  match vc.emailText, vc.passwordText with
  | some email, some password => { vc with attempt := some (.login email password) }
  | _, _ => vc

/-- `loginOrRegister()`, the button's action; `home` is the `RecentMessagesVC` it makes. -/
def loginOrRegister (vc : LoginVC) (home : ObjectId) : LoginVC :=
  let vc := { vc with home := some home, isEnabled := false }
  if vc.selectedSegmentIndex = 0 then vc.handleLogin else vc.handleRegister

/-- Where both closures end well: `home!` is pushed and the button enabled. An attempt has set
`home` (`home_of_attempt`). -/
def succeed (vc : LoginVC) : LoginVC :=
  { vc with
    navigationStack := vc.home.toList ++ vc.navigationStack
    isEnabled := true
    attempt := none }

/-- The closure given to `loginClient.login`. -/
def loginCompletion (vc : LoginVC) (error : Option String) : LoginVC :=
  match error with
  | some _ => { vc.alert "Invalid Username or Password" with attempt := none }
  | none => vc.succeed

/-- A closure of `loginClient.register` has run. Only the last one calls back. -/
def registerCompletion (vc : LoginVC) (request : RegisterRequest) :
    LoginClient.Outcome → LoginVC
  | .next stage => { vc with attempt := some (.register request stage) }
  | .returned => { vc with attempt := none }
  | .completion => vc.succeed

/-- `collectionView(_:cellForItemAt:)`, as far as the screen's own fields. -/
def cellForItemAt (vc : LoginVC) : LoginVC := { vc with didSelectProfile := some false }

/-- `collectionView(_:didSelectItemAt:)`; `cell` is the `isSelected` of the cell at the row, if one
is there. -/
def didSelectItemAt (vc : LoginVC) (row : Fin avatars.length) (cell : Option Bool) : LoginVC :=
  match cell with
  | some true => { vc with avatar := some avatars[row], didSelectProfile := some true }
  | _ => vc

/-- What happens on the screen, and the answers of Firebase. -/
inductive Event where
  /-- The button is pressed; `home` is the object `RecentMessagesVC()` makes. -/
  | press (home : ObjectId)
  /-- The segment control is set; `handleToggle` changes only what is shown. -/
  | toggle (index : Int)
  | editName (text : Option Text)
  | editEmail (text : Option Text)
  | editPassword (text : Option Text)
  | cellForItemAt
  | didSelectItemAt (row : Fin avatars.length) (cell : Option Bool)
  /-- `didDeselectItemAt` only changes a border. -/
  | didDeselectItemAt
  /-- `signIn` completes; without an error, `user` is signed in. -/
  | signIn (user : Uid) (error : Option String)
  /-- A stage of `register` completes. -/
  | register (reply : LoginClient.Reply)
  /-- The topmost screen is popped. -/
  | popViewController

/-- The event belongs to the form: Firebase and the screens above have no part in it. -/
def Event.isForm : Event → Bool
  | .press _ => false
  | .signIn _ _ => false
  | .register _ => false
  | .popViewController => false
  | _ => true

/-- The user an event signs in: a sign-in without an error, or an account that was created. -/
def Event.signsIn : Event → Option Uid
  | .signIn user none => some user
  | .register (.createUser none currentUser) => currentUser
  | _ => none

/-- One of them happens. -/
def step (vc : LoginVC) : Event → Option LoginVC
  | .press home =>
    if vc.isEnabled = true ∧ vc.navigationStack = [] then some (vc.loginOrRegister home) else none
  | .toggle index => some { vc with selectedSegmentIndex := index }
  | .editName text => some { vc with nameText := text }
  | .editEmail text => some { vc with emailText := text }
  | .editPassword text => some { vc with passwordText := text }
  | .cellForItemAt => some vc.cellForItemAt
  | .didSelectItemAt row cell => some (vc.didSelectItemAt row cell)
  | .didDeselectItemAt => some vc
  | .signIn _ error =>
    match vc.attempt with
    | some (.login _ _) => some (vc.loginCompletion error)
    | _ => none
  | .register reply =>
    match vc.attempt with
    | some (.register request stage) =>
      (LoginClient.resume stage reply).map (vc.registerCompletion request)
    | _ => none
  | .popViewController =>
    match vc.navigationStack with
    | [] => none
    | _ :: rest => some { vc with navigationStack := rest }

/-- The login screen. -/
def machine : Machine LoginVC Event := ⟨step⟩

end LoginVC

end AniChat
