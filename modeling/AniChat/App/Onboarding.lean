import AniChat.Controller.LoginVC

/-!
# The login screens of all clients and the services

Every client has a login screen, and all of them share the services of registration. What concerns
both sides happens in both at once: a press that calls `LoginClient.register`, the closures of its
stages, a sign-in, and a sign-out on the screen above.

The login screen is never released and holds its `LoginClient`, so the weak `self` of the first
closure is there.
-/

namespace AniChat

open Automata

/-- The string that the characters of a text make. -/
def Text.string (text : Text) : String := String.join text

namespace LoginVC

/-- What a press has just given to `LoginClient.register`. -/
def registering (vc : LoginVC) : Option RegisterRequest :=
  match vc.attempt with
  | some (.register request .putData) => some request
  | _ => none

end LoginVC

namespace Onboarding

inductive Event where
  /-- The form of a client's screen is edited. -/
  | form (c : ClientId) (e : { e : LoginVC.Event // e.isForm = true })
  /-- The button is pressed; `call` is what is registered, under the number of the call. -/
  | press (c : ClientId) (home : ObjectId) (call : Option (Nat × RegisterRequest))
  | signIn (c : ClientId) (user : Uid) (error : Option String)
  | putData (id : CallId) (error : Option String)
  | downloadURL (id : CallId) (url : Option AvatarUrl) (error : Option String)
  | createUser (id : CallId) (uid : Uid) (error : Option String)
  | updateChildValues (id : CallId) (error : Option String)
  /-- The screen above signs out and is popped. -/
  | logout (c : ClientId)

/-- What the services see of an event. -/
def inServices : Event → Option Services.Event
  | .form _ _ => none
  | .press c _ call => call.map fun (k, request) => .register ⟨c, k⟩ request.name.string
      request.email.string request.password.string request.avatar
  | .signIn c user none => some (.auth c (some user))
  | .signIn _ _ (some _) => none
  | .putData id error => some (.putData id error true)
  | .downloadURL id url error => some (.downloadURL id url error)
  | .createUser id uid error => some (.createUser id uid error)
  | .updateChildValues id error => some (.updateChildValues id error)
  | .logout c => some (.auth c none)

/-- What the screens see of it. -/
def onScreens : Event → Option (ClientId × LoginVC.Event)
  | .form c e => some (c, e)
  | .press c home _ => some (c, .press home)
  | .signIn c user error => some (c, .signIn user error)
  | .putData id error => some (id.client, .register (.putData error true))
  | .downloadURL id url error => some (id.client, .register (.downloadURL url error))
  | .createUser id uid error => some (id.client, .register (.createUser error (some uid)))
  | .updateChildValues id error => some (id.client, .register (.updateChildValues error))
  | .logout c => some (c, .popViewController)

/-- A press registers what the screen gives to `register`, and a sign-in is into an account that has
the email and the password. -/
def Agrees (s : Services × (ClientId → LoginVC)) : Event → Prop
  | .press c home call => call.map Prod.snd = ((s.2 c).loginOrRegister home).registering
  | .signIn c user none =>
    match (s.2 c).attempt with
    | some (.login email password) =>
      s.1.accounts.lookup email.string = some ⟨user, password.string⟩
    | _ => False
  | _ => True

instance (s : Services × (ClientId → LoginVC)) (e : Event) : Decidable (Agrees s e) := by
  unfold Agrees
  split
  · infer_instance
  · split <;> infer_instance
  · infer_instance

/-- The services and all login screens. -/
def machine : Machine (Services × (ClientId → LoginVC)) Event :=
  (Machine.sync Services.machine (Machine.family LoginVC.machine) inServices onScreens).restrict Agrees

/-- Nothing registered, and a new screen on every client. -/
def initial : Services × (ClientId → LoginVC) := (.initial, fun _ => .new)

end Onboarding

end AniChat
