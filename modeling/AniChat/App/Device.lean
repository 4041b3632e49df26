import AniChat.Controller.LoginVC
import AniChat.Controller.RecentMessagesVC

/-!
# One device — the app's screens over its sessions

The login screen, every `RecentMessagesVC` it has made, and who is signed in, while users come and
go. Observers are never removed, so a delivery may reach the screen of an earlier session, or none
if it has been released. `Message.chatPartnerId()` force-unwraps the current user: where nobody is
signed in the program stops.

A released object is `none`, which is what a weak reference to it then reads. A screen may be
released once nothing holds it: not `LoginVC.home`, not the navigation controller, not an armed
timer, not a clearing block on the main queue.
-/

namespace AniChat

open Automata Collections

/-- Where the program stops. -/
inductive Trap where
  /-- `Auth.auth().currentUser!` in `chatPartnerId()`. -/
  | currentUser
  /-- `messages[indexPath.row]` past the end. -/
  | index
  deriving DecidableEq

structure Device where
  login : LoginVC
  /-- `Auth.auth().currentUser?.uid`. -/
  currentUser : Option Uid
  /-- The recents screens that are alive, by object. -/
  vcs : ObjectId → Option RecentMessagesVC
  /-- The objects made so far. -/
  allocated : List ObjectId
  trap : Option Trap

namespace Device

/-- The app as it is started. Auth may restore the user of an earlier start. -/
def initial (restored : Option Uid) : Device := ⟨LoginVC.new, restored, fun _ => none, [], none⟩

def setScreen (d : Device) (k : ObjectId) (vc : RecentMessagesVC) : Device :=
  { d with vcs := Function.update d.vcs k (some vc) }

/-- A forced unwrap or an index fails. -/
def stop (d : Device) (trap : Trap) : Device := { d with trap := some trap }

/-- The login screen moves; an event that signs a user in says so to Auth. -/
def setLogin (d : Device) (login : LoginVC) (e : LoginVC.Event) : Device :=
  { d with login := login, currentUser := e.signsIn.or d.currentUser }

/-- `home = RecentMessagesVC()`. -/
def allocate (d : Device) (home : ObjectId) : Device :=
  { d with
    vcs := Function.update d.vcs home (some .new)
    allocated := home :: d.allocated }

/-- `RecentMessagesVC.logout()`: `try! Auth.auth().signOut()`, then the screen is popped. -/
def logout (d : Device) (login : LoginVC) : Device := { d with login := login, currentUser := none }

/-- The closure of a single read in `messagesForUserObserver`, and the observer closure it calls:
`guard let strongSelf = self`, then `message.chatPartnerId()`. -/
def deliver (d : Device) (k : ObjectId) (order : Enumeration Message) (info : MessageInfo) :
    Device :=
  match d.vcs k with
  | none => d
  | some vc =>
    let message := Message.ofSnapshot d.currentUser info
    match message.chatPartnerId d.currentUser with
    | none => d.stop .currentUser
    | some chatPartnerId => d.setScreen k (vc.receive chatPartnerId order message)

/-- `messages[indexPath.row].chatPartnerId()`. `cellForRowAt` evaluates it by setting the cell's
message, `didSelectRowAt` itself; each then starts a read of `users/<partner>`. -/
def partnerAt (d : Device) (vc : RecentMessagesVC) (row : Nat) : Device :=
  match vc.messages[row]? with
  | none => d.stop .index
  | some message =>
    match message.chatPartnerId d.currentUser with
    | none => d.stop .currentUser
    | some _ => d

inductive Event where
  /-- On the login screen. Popping is `logout`'s. -/
  | login (e : LoginVC.Event)
  | viewDidLoad (k : ObjectId)
  | logout (k : ObjectId)
  /-- A message is handed to the observer closure of screen `k`; it was read for the index entry
  `v`, `m`. -/
  | deliver (k : ObjectId) (v : Uid) (m : MessageId) (order : Enumeration Message)
      (info : MessageInfo)
  /-- The main queue runs another block of screen `k`. -/
  | screen (k : ObjectId) (e : RecentMessagesVC.Event)
  /-- The table of screen `k` asks for a row below the count it last read. -/
  | cellForRowAt (k : ObjectId) (row : Nat)
  | didSelectRowAt (k : ObjectId) (row : Nat)
  | release (k : ObjectId)

/-- The table of screen `k` is shown and has the row. -/
def askRow (d : Device) (k : ObjectId) (row : Nat) : Option Device :=
  (d.vcs k).bind fun vc => if row < vc.table.length then some (d.partnerAt vc row) else none

/-- What happens while the program runs. -/
def act (d : Device) : Event → Option Device
  | .login e =>
    match e with
    | .popViewController => none
    | .press home =>
      if home ∈ d.allocated then none
      else (LoginVC.machine.step d.login (.press home)).map fun login =>
        (d.allocate home).setLogin login (.press home)
    | e => (LoginVC.machine.step d.login e).map fun login => d.setLogin login e
  | .viewDidLoad k => (d.vcs k).bind fun vc =>
    if k ∈ d.login.navigationStack ∧ vc.viewLoaded = false then
      some (d.setScreen k (vc.viewDidLoad d.currentUser))
    else none
  | .logout k => (d.vcs k).bind fun vc =>
    if d.login.navigationStack.head? = some k ∧ vc.viewLoaded = true then
      (LoginVC.machine.step d.login .popViewController).map d.logout
    else none
  | .deliver k _ _ order info =>
    if ∀ vc ∈ d.vcs k, vc.observing ≠ none then some (d.deliver k order info) else none
  | .screen k e => (d.vcs k).bind fun vc =>
    match e with
    | .received _ _ _ => none
    | e => (RecentMessagesVC.machine.step vc e).map (d.setScreen k)
  | .cellForRowAt k row => d.askRow k row
  | .didSelectRowAt k row => d.askRow k row
  | .release k => (d.vcs k).bind fun vc =>
    if d.login.home ≠ some k ∧ k ∉ d.login.navigationStack ∧ vc.timer = false ∧
        vc.navBar.isClearing = false then
      some { d with vcs := Function.update d.vcs k none }
    else none

/-- A step of the program, until it has stopped. -/
def step (d : Device) (e : Event) : Option Device :=
  match d.trap with
  | some _ => none
  | none => d.act e

/-- One device. -/
def machine : Machine Device Event := ⟨step⟩

end Device

end AniChat
