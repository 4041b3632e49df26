import AniChat.Automata.Machine
import AniChat.Client.ChatClient
import AniChat.Collections.Dictionary

/-!
# LoginClient — registration and the services it touches

`LoginClient.register` is a chain of four asynchronous stages: the avatar is uploaded, its download
URL is asked for, the account is created, and the profile is written to `users/<uid>`. Each closure
looks at the answer of its stage and starts the next, runs the completion, or only returns.

`LoginClient.resume` is these closures. `Services` holds what they act on (Storage, Auth, `users`),
who is signed in on each client, and every call of `register`; its machine answers the stages of all
calls in any order. An answer comes with its effect on the service.

What is taken from Firebase's documented behaviour: an upload replaces the object at its path
together with its download token; `downloadURL` answers with the URL of the object stored;
`createUser` makes a new uid for an email that has no account, and signs it in.
-/

namespace AniChat

open Automata Collections

/-- `NoError.errorless(error).errorless`, the error by its `localizedDescription`. -/
def errorless : Option String → Bool
  | none => true
  | some _ => false

/-- A download URL: the object's path and the token it was issued with. -/
structure AvatarUrl where
  path : String
  token : Nat
  deriving DecidableEq

/-- The record at `users/<uid>`, the dictionary `userInfo`. -/
structure UserInfo where
  name : String
  email : String
  avatarUrl : AvatarUrl
  deriving DecidableEq

/-! ## The closures of `register` -/

namespace LoginClient

/-- The stage a call of `register` waits for, with what its closures have captured. -/
inductive Stage where
  | putData
  | downloadURL
  | createUser (avatarUrl : AvatarUrl)
  | updateChildValues (avatarUrl : AvatarUrl) (myUid : Uid)
  deriving DecidableEq

/-- What the closure of a stage is called with, or finds when it runs. -/
inductive Reply where
  /-- `alive`: the weak `self` is still there. -/
  | putData (error : Option String) (alive : Bool)
  | downloadURL (url : Option AvatarUrl) (error : Option String)
  /-- `currentUser`: the uid of `Auth.auth().currentUser`. -/
  | createUser (error : Option String) (currentUser : Option Uid)
  | updateChildValues (error : Option String)
  deriving DecidableEq

/-- What the closure then does. -/
inductive Outcome where
  | next (stage : Stage)
  | returned
  | completion
  deriving DecidableEq

/-- The closure of each stage, on its reply. -/
def resume : Stage → Reply → Option Outcome
  | .putData, .putData error alive =>
    some (if errorless error = false then .returned
      else if alive = false then .returned
      else .next .downloadURL)
  | .downloadURL, .downloadURL url error =>
    some (if errorless error = false then .returned
      else match url with
        | none => .returned
        | some avatarUrl => .next (.createUser avatarUrl))
  | .createUser avatarUrl, .createUser error currentUser =>
    some (if errorless error = false then .returned
      else match currentUser with
        | none => .returned
        | some myUid => .next (.updateChildValues avatarUrl myUid))
  | .updateChildValues _ _, .updateChildValues error =>
    some (if errorless error = false then .returned else .completion)
  | _, _ => none

end LoginClient

/-! ## The services and the calls -/

/-- An account of Firebase Auth. -/
structure Account where
  uid : Uid
  password : String
  deriving DecidableEq

/-- A call of `register`: its arguments, how far it has come, and what it has done. -/
structure RegisterCall where
  name : String
  email : String
  password : String
  avatar : String
  /-- The stage it waits for; none once the chain has stopped. -/
  stage : Option LoginClient.Stage
  /-- The user `createUser` made for it. -/
  authResult : Option Uid
  /-- How often the completion has run. -/
  completions : Nat

/-- A call of `register`, by the client that made it. -/
structure CallId where
  client : ClientId
  attempt : Nat
  deriving DecidableEq

namespace RegisterCall

/-- `register(name:email:password:avatar:completion:)`, as far as `putData`. -/
def start (name email password avatar : String) : RegisterCall :=
  ⟨name, email, password, avatar, some .putData, none, 0⟩

/-- The call after a closure has run. -/
def after (call : RegisterCall) : LoginClient.Outcome → RegisterCall
  | .next stage => { call with stage := some stage }
  | .returned => { call with stage := none }
  | .completion => { call with stage := none, completions := call.completions + 1 }

/-- The record the last stage writes. -/
def userInfo (call : RegisterCall) (avatarUrl : AvatarUrl) : UserInfo :=
  ⟨call.name, call.email, avatarUrl⟩

end RegisterCall

/-- Storage, Auth and the subtree `users`, who is signed in on each client, and the calls of
`register`. -/
structure Services where
  /-- The download token of the object at a path. -/
  storage : String → Option Nat
  /-- How many tokens have been issued: the next one. -/
  issued : Nat
  accounts : Dictionary String Account
  users : Uid → Option UserInfo
  currentUser : ClientId → Option Uid
  calls : CallId → Option RegisterCall

namespace Services

/-- Nothing stored, no account, nobody signed in. -/
def initial : Services := ⟨fun _ => none, 0, ∅, fun _ => none, fun _ => none, fun _ => none⟩

inductive Event where
  /-- The signed-in user of a client changes by something else than `register`. -/
  | auth (c : ClientId) (user : Option Uid)
  | register (id : CallId) (name email password avatar : String)
  | putData (id : CallId) (error : Option String) (alive : Bool)
  | downloadURL (id : CallId) (url : Option AvatarUrl) (error : Option String)
  /-- Without an error, `uid` is the new user. -/
  | createUser (id : CallId) (uid : Uid) (error : Option String)
  | updateChildValues (id : CallId) (error : Option String)

def setUser (s : Services) (c : ClientId) (user : Option Uid) : Services :=
  { s with currentUser := Function.update s.currentUser c user }

def setCall (s : Services) (id : CallId) (call : RegisterCall) : Services :=
  { s with calls := Function.update s.calls id (some call) }

/-- Storage takes an upload. -/
def upload (s : Services) (path : String) : Services :=
  { s with storage := Function.update s.storage path (some s.issued), issued := s.issued + 1 }

/-- Auth creates an account and signs it in. -/
def createUser (s : Services) (c : ClientId) (email password : String) (uid : Uid) : Services :=
  { s with
    accounts := s.accounts.insert email ⟨uid, password⟩
    currentUser := Function.update s.currentUser c (some uid) }

/-- The database takes a profile. -/
def updateChildValues (s : Services) (uid : Uid) (userInfo : UserInfo) : Services :=
  { s with users := Function.update s.users uid (some userInfo) }

/-- No account has this uid. -/
def Unused (s : Services) (uid : Uid) : Prop :=
  ∀ account ∈ Dictionary.values s.accounts, account.uid ≠ uid

instance (s : Services) (uid : Uid) : Decidable (s.Unused uid) :=
  inferInstanceAs (Decidable (∀ account ∈ Dictionary.values s.accounts, account.uid ≠ uid))

/-- The closure of the stage the call waits for runs on `reply`. -/
def reply (s : Services) (id : CallId) (call : RegisterCall) (reply : LoginClient.Reply) :
    Option Services :=
  call.stage.bind fun stage =>
    (LoginClient.resume stage reply).map fun outcome => s.setCall id (call.after outcome)

/-- A service answers a stage, and the closure runs. -/
def step (s : Services) : Event → Option Services
  | .auth c user => some (s.setUser c user)
  | .register id name email password avatar =>
    match s.calls id with
    | some _ => none
    | none => some (s.setCall id (.start name email password avatar))
  | .putData id error alive => (s.calls id).bind fun call =>
    (if errorless error then s.upload call.avatar else s).reply id call (.putData error alive)
  | .downloadURL id url error => (s.calls id).bind fun call =>
    if errorless error = true → ∀ u ∈ url, u.path = call.avatar ∧ s.storage u.path = some u.token then
      s.reply id call (.downloadURL url error)
    else none
  | .createUser id uid error => (s.calls id).bind fun call =>
    if errorless error then
      if call.email ∉ s.accounts ∧ s.Unused uid then
        (s.createUser id.client call.email call.password uid).reply id
          { call with authResult := some uid } (.createUser error (some uid))
      else none
    else s.reply id call (.createUser error (s.currentUser id.client))
  | .updateChildValues id error => (s.calls id).bind fun call =>
    match call.stage with
    | some (.updateChildValues avatarUrl myUid) =>
      (if errorless error then s.updateChildValues myUid (call.userInfo avatarUrl) else s).reply id
        call (.updateChildValues error)
    | _ => none

/-- All clients' registrations and the services, as one machine. -/
def machine : Machine Services Event := ⟨step⟩

end Services

end AniChat
