import AniChat.Automata.Machine
import AniChat.Client.Snapshots

/-!
# ContactVC — the list of contacts

The view controller's data, the closure of `ChatClient.contactObserver` that fills it, and the cell
its table configures. `childAdded` fires once for each child of `users`, in any order; who is signed
in is asked each time it fires.

The observer is never removed and holds the screen weakly; the machine is the screen while it is
there.
-/

namespace AniChat

open Automata

/-- The `User` object that is built from the fields at `users/<uid>`. -/
def User.ofFields (urls : Urls) (uid : Uid) (name email : String) (avatarUrl : Option AvatarUrl) :
    User where
  id := some uid
  name := some name
  email := some email
  avatar := avatarUrl.map urls.absoluteString

/-- The closure of `contactObserver`, on the child `key` with these fields: the user it hands on. -/
def ChatClient.contactObserver (urls : Urls) (currentUser : Option Uid) (key : Uid)
    (fields : Option (String × String × Option AvatarUrl)) : Option User :=
  if some key ≠ currentUser then
    fields.map fun f => .ofFields urls key f.1 f.2.1 f.2.2
  else none

/-! ## The cell -/

structure ContactCell where
  nameLabel : Option String
  emailLabel : Option String
  /-- The URL `profileImageView` was last asked to load. -/
  urlString : Option String
  deriving DecidableEq

/-- `contact` is set, and its `didSet` runs. It force-unwraps all it shows: `none` is the trap. -/
def ContactCell.setContact (contact : User) : Option ContactCell := do
  let name ← contact.name
  let email ← contact.email
  let avatar ← contact.avatar
  return { nameLabel := some name, emailLabel := some email, urlString := some avatar }

/-! ## The screen -/

structure ContactVC where
  /-- Set by `showContacts`, which makes the screen. -/
  recentMessagesVC : Option ObjectId
  contacts : List User
  title : Option String
  viewLoaded : Bool
  /-- The children of `users` for which `childAdded` has fired. -/
  fired : List Uid
  /-- The array the table read at its last `reloadData()`. -/
  table : List User

namespace ContactVC

/-- `ContactVC()`, with the screen that shows it. -/
def new (recentMessagesVC : ObjectId) : ContactVC where
  recentMessagesVC := some recentMessagesVC
  contacts := []
  title := none
  viewLoaded := false
  fired := []
  table := []

/-- `viewDidLoad()`: it attaches the observer. -/
def viewDidLoad (vc : ContactVC) : ContactVC :=
  { vc with title := some "Contacts", viewLoaded := true }

/-- `childAdded` fires for `key`, and the closure of `observeContacts` runs on what the client hands
on: it appends the user and reloads at once. -/
def childAdded (vc : ContactVC) (key : Uid) (contact : Option User) : ContactVC :=
  match contact with
  | none => { vc with fired := key :: vc.fired }
  | some user =>
    { vc with
      fired := key :: vc.fired
      contacts := vc.contacts ++ [user]
      table := vc.contacts ++ [user] }

/-- `viewWillAppear(_:)` reloads the table, and UIKit reads the data source of its own accord, as on a
layout. -/
def reloadData (vc : ContactVC) : ContactVC := { vc with table := vc.contacts }

/-- `tableView(_:cellForRowAt:)`: `none` is a trap. -/
def cellForRowAt (vc : ContactVC) (row : Nat) : Option ContactCell :=
  vc.contacts[row]?.bind ContactCell.setContact

/-- `tableView(_:didSelectRowAt:)`: the user given to `showInbox`; `none` is the trap. -/
def didSelectRowAt (vc : ContactVC) (row : Nat) : Option User := vc.contacts[row]?

/-- The blocks that run on one screen. -/
inductive Event where
  | viewDidLoad
  /-- `childAdded` fires for `key`, whose snapshot has these fields, while `currentUser` is signed
  in. -/
  | childAdded (currentUser : Option Uid) (key : Uid)
      (fields : Option (String × String × Option AvatarUrl))
  | viewWillAppear
  | layout

/-- One block runs. -/
def step (urls : Urls) (vc : ContactVC) : Event → Option ContactVC
  | .viewDidLoad => if vc.viewLoaded = false then some vc.viewDidLoad else none
  | .childAdded currentUser key fields =>
    if vc.viewLoaded = true ∧ key ∉ vc.fired then
      some (vc.childAdded key (ChatClient.contactObserver urls currentUser key fields))
    else none
  | .viewWillAppear => some vc.reloadData
  | .layout => some vc.reloadData

/-- One list of contacts. -/
def machine (urls : Urls) : Machine ContactVC Event := ⟨step urls⟩

end ContactVC

end AniChat
