import AniChat.Automata.Machine
import AniChat.Model.Message

/-!
# ContactInboxVC — one conversation

The view controller's data and the blocks that run on it: the `childAdded` closure of
`observeMessages`, the closures of the single reads it starts, the reloads they dispatch, and
`handleSend`. Each read is independent of the others, so the machine completes them in any order.

Once the screen is released its observer only returns (`Reader.childAdded` of the client's model);
the machine is the screen while it is there. What `handleSend` gives to `ChatClient.send` is an
event of that model too.
-/

namespace AniChat

open Automata

structure ContactInboxVC where
  user : Option User
  title : Option String
  /-- `inputTextField.text`. -/
  inputText : Option String
  messages : List Message
  /-- The path `user-messages/<uid>/<toId>` that is observed. -/
  observing : Option (Uid × Uid)
  /-- The ids whose single read is outstanding. -/
  requested : List MessageId
  /-- The reloads dispatched and not yet run. -/
  reloads : Nat
  /-- The array the collection view read at its last `reloadData()`. -/
  table : List Message

namespace ContactInboxVC

/-- `ContactInboxVC(collectionViewLayout:)`. -/
def new : ContactInboxVC where
  user := none
  title := none
  inputText := some ""
  messages := []
  observing := none
  requested := []
  reloads := 0
  table := []

/-- `observeMessages()`, as far as attaching the observer. -/
def observeMessages (vc : ContactInboxVC) (currentUser : Option Uid) : ContactInboxVC :=
  match currentUser, vc.user.bind User.id with
  | some uid, some toId => { vc with observing := some (uid, toId) }
  | _, _ => vc

/-- `user` is set, and its `didSet` runs. -/
def setUser (vc : ContactInboxVC) (user : Option User) (currentUser : Option Uid) :
    ContactInboxVC :=
  match user.bind User.name with
  | none => { vc with user := user }
  | some name => observeMessages { vc with user := user, title := some name } currentUser

/-- The `childAdded` closure: it starts the single read of `messages/<id>`. -/
def childAdded (vc : ContactInboxVC) (id : MessageId) : ContactInboxVC :=
  { vc with requested := id :: vc.requested }

/-- The closure of the single read: it appends the message and dispatches a reload, unless the
snapshot is empty. -/
def read (vc : ContactInboxVC) (id : MessageId) (snapshot : Option MessageInfo) : ContactInboxVC :=
  match snapshot with
  | none => { vc with requested := vc.requested.erase id }
  | some info =>
    { vc with
      requested := vc.requested.erase id
      messages := vc.messages ++ [Message.ofInboxSnapshot info]
      reloads := vc.reloads + 1 }

/-- The dispatched reload runs. -/
def reloadData (vc : ContactInboxVC) : ContactInboxVC :=
  { vc with reloads := vc.reloads - 1, table := vc.messages }

/-- UIKit reads the data source of its own accord, as on a layout. -/
def layout (vc : ContactInboxVC) : ContactInboxVC := { vc with table := vc.messages }

/-- The text field is edited. -/
def edit (vc : ContactInboxVC) (text : Option String) : ContactInboxVC :=
  { vc with inputText := text }

/-- `send(text:)`: with a contact it sends, empties the text field and reloads at once. -/
def send (vc : ContactInboxVC) : ContactInboxVC :=
  match vc.user with
  | none => vc
  | some _ => { vc with inputText := some "", table := vc.messages }

/-- `handleSend()`. -/
def handleSend (vc : ContactInboxVC) : ContactInboxVC :=
  match vc.inputText with
  | none => vc
  | some _ => vc.send

/-- The blocks that run on one screen. -/
inductive Event where
  | childAdded (id : MessageId)
  /-- The single read of `messages/<id>` completes with `snapshot`. -/
  | read (id : MessageId) (snapshot : Option MessageInfo)
  | reload
  | layout
  | edit (text : Option String)
  | handleSend

/-- One block runs. -/
def step (vc : ContactInboxVC) : Event → Option ContactInboxVC
  | .childAdded id => some (vc.childAdded id)
  | .read id snapshot => if id ∈ vc.requested then some (vc.read id snapshot) else none
  | .reload => if vc.reloads ≠ 0 then some vc.reloadData else none
  | .layout => some vc.layout
  | .edit text => some (vc.edit text)
  | .handleSend => some vc.handleSend

/-- One conversation. -/
def machine : Machine ContactInboxVC Event := ⟨step⟩

/-- A screen opened on `contact` while `currentUser` is signed in, as `didSelectRowAt` and
`showInbox` open one. -/
def opened (contact : User) (currentUser : Option Uid) : ContactInboxVC :=
  new.setUser (some contact) currentUser

end ContactInboxVC

end AniChat
