import AniChat.Client.ChatClient
import AniChat.Controller.ContactInboxVC
import AniChat.Controller.ContactVC

/-!
# Every conversation of every client

The chat's world together with all `ContactInboxVC`s. What concerns both happens in both at once: the
attaching of a screen's observer when its `user` is set, the `childAdded` events and the closures of
the single reads of that observer, and the call of `ChatClient.send` that a press of the button
makes. Messages are sent from these screens only.

A screen is released once nothing holds it: no closure of a single read and no dispatched reload. Its
observer is never removed, and returns from then on.
-/

namespace AniChat

open Automata

/-- A conversation screen, by the client it is on. -/
structure InboxId where
  client : ClientId
  vc : ObjectId
  deriving DecidableEq

/-- The observer of a screen. -/
def InboxId.reader (id : InboxId) : ReaderId := ⟨id.client, .inbox id.vc⟩

/-- The event is one of a conversation screen. -/
def World.Event.OfInbox : World.Event → Bool
  | .send _ _ _ _ _ => true
  | .observeMessages _ _ _ => true
  | .release ⟨_, .inbox _⟩ => true
  | .partnerAdded ⟨_, .inbox _⟩ _ => true
  | .childAdded ⟨_, .inbox _⟩ _ _ => true
  | .serve ⟨_, .inbox _⟩ _ _ => true
  | .read ⟨_, .inbox _⟩ _ _ _ => true
  | _ => false

namespace ContactInboxVC

/-- What `handleSend()` gives to `ChatClient.send`: the recipient's id and the text. -/
def sending (vc : ContactInboxVC) : Option (Uid × String) :=
  match vc.inputText, vc.user.bind User.id with
  | some text, some toId => some (toId, text)
  | _, _ => none

end ContactInboxVC

/-! ## The screens -/

namespace Inboxes

/-- What happens to one screen and its observer. -/
inductive Event where
  /-- The screen is made and its `user` set, from the fields at `users/<uid>`, while `currentUser` is
  signed in. -/
  | opened (uid : Uid) (name email : String) (avatarUrl : Option AvatarUrl)
      (currentUser : Option Uid)
  | childAdded (v : Uid) (m : MessageId)
  /-- The server answers a single read. -/
  | serve (v : Uid) (m : MessageId)
  /-- The closure of a single read runs. -/
  | read (v : Uid) (m : MessageId) (value : Option MessageInfo)
  | reload
  | layout
  | edit (text : Option String)
  /-- The button is pressed or return is typed; `m` is the key that `send` makes. -/
  | handleSend (m : MessageId) (date : Date) (sending : Option (Uid × String))
  /-- The screen is released; `attached` tells whether it has an observer. -/
  | release (attached : Bool)

/-- One of them happens to a screen, or to what is left of it. -/
def act (urls : Urls) : Option ContactInboxVC → Event → Option (Option ContactInboxVC)
  | none, .opened uid name email avatarUrl currentUser =>
    some (some (.opened (.ofFields urls uid name email avatarUrl) currentUser))
  | none, .childAdded _ _ => some none
  | none, .serve _ _ => some none
  | some vc, .childAdded _ m => some (some (vc.childAdded m))
  | some vc, .serve _ _ => some (some vc)
  | some vc, .read _ m value => (ContactInboxVC.machine.step vc (.read m value)).map some
  | some vc, .reload => (ContactInboxVC.machine.step vc .reload).map some
  | some vc, .layout => some (some vc.layout)
  | some vc, .edit text => some (some (vc.edit text))
  | some vc, .handleSend _ _ sending =>
    if vc.sending = sending then some (some vc.handleSend) else none
  | some vc, .release attached =>
    if vc.requested = [] ∧ vc.reloads = 0 ∧ attached = vc.observing.isSome then some none else none
  | _, _ => none

/-- All screens, each by itself. -/
def machine (urls : Urls) : Machine (InboxId → Option ContactInboxVC) (InboxId × Event) where
  step vcs e := (act urls (vcs e.1) e.2).map fun vc => Function.update vcs e.1 vc

/-- What the world sees of an event of screen `id`. -/
def inWorld (id : InboxId) : Event → Option World.Event
  | .opened uid _ _ _ _ => some (.observeMessages id.client id.vc uid)
  | .childAdded v m => some (.childAdded id.reader v m)
  | .serve v m => some (.serve id.reader v m)
  | .read v m value => some (.read id.reader v m value)
  | .handleSend m date (some sending) => some (.send id.client m sending.1 date sending.2)
  | .release true => some (.release id.reader)
  | _ => none

end Inboxes

/-! ## The world and the screens -/

namespace Conversations

inductive Event where
  | world (e : { e : World.Event // e.OfInbox = false })
  | inbox (id : InboxId) (e : Inboxes.Event)

def inWorld : Event → Option World.Event
  | .world e => some e
  | .inbox id e => Inboxes.inWorld id e

def onScreens : Event → Option (InboxId × Inboxes.Event)
  | .world _ => none
  | .inbox id e => some (id, e)

/-- A screen is opened by whoever is signed in. -/
def Agrees (s : World × (InboxId → Option ContactInboxVC)) : Event → Prop
  | .inbox id (.opened _ _ _ _ currentUser) => currentUser = s.1.currentUser id.client
  | _ => True

instance (s : World × (InboxId → Option ContactInboxVC)) (e : Event) : Decidable (Agrees s e) := by
  unfold Agrees
  split <;> infer_instance

/-- All clients, the server and all conversation screens. -/
def machine (urls : Urls) : Machine (World × (InboxId → Option ContactInboxVC)) Event :=
  (Machine.sync World.machine (Inboxes.machine urls) inWorld onScreens).restrict Agrees

/-- No screen yet. -/
def initial : World × (InboxId → Option ContactInboxVC) := (.initial, fun _ => none)

end Conversations

end AniChat
