import AniChat.App.Conversations
import AniChat.App.System

/-!
# One phone — the navigation over all screens

What lies over the recents screen of the device: the list of contacts that `showContacts` presents and
the conversation screens that `RecentMessagesVC.didSelectRowAt` and `ContactVC.showInbox` push. The
phone is the device among all clients, with the conversation screens of all clients and this
navigation.

Both pushes come late. A tap on a row reads `users/<partner>` first, and the closure of that read
force-unwraps `navigationController`, which is `nil` once its screen was popped: the program stops. A
choice in the list is pushed by the completion of `dismiss`, which asks for it with `?`.

A presented list takes all touches, a pushed conversation those of the screens under it.
-/

namespace AniChat

open Automata

/-! ## What lies over the recents screen -/

/-- A single read of `users/<partner>`, started by a tap on a row of screen `home`. -/
structure RowRead where
  home : ObjectId
  partner : Uid
  deriving DecidableEq

structure Navigation where
  /-- The conversation screens over the recents screen, the topmost first. -/
  inboxes : List ObjectId
  /-- The list that is presented. -/
  contactVC : Option ContactVC
  /-- The reads whose closure has not run. -/
  rowReads : List RowRead
  /-- The dismissals whose completion has not run, with the `recentMessagesVC` of the list and the
  user that was chosen. -/
  dismissals : List (Option ObjectId × User)
  /-- `navigationController!` has failed. -/
  stopped : Bool

namespace Navigation

/-- Nothing is pushed or presented. -/
def initial : Navigation := ⟨[], none, [], [], false⟩

/-- `navigationController?.pushViewController(inbox, animated: true)`; without a navigation
controller there is none to push it. -/
def push (n : Navigation) (inbox : ObjectId) (onStack : Bool) : Navigation :=
  if onStack then { n with inboxes := inbox :: n.inboxes } else n

/-- The end of the closure in `didSelectRowAt`, where a record was found. -/
def rowOpens (n : Navigation) (read : RowRead) (inbox : ObjectId) (onStack : Bool) : Navigation :=
  { n.push inbox onStack with rowReads := n.rowReads.erase read, stopped := !onStack }

/-- `showInbox(user:)`: `dismiss` is called. -/
def showInbox (n : Navigation) (recentMessagesVC : Option ObjectId) (user : User) : Navigation :=
  { n with dismissals := (recentMessagesVC, user) :: n.dismissals }

/-- The completion of `dismiss`, while the list is there. -/
def dismissed (n : Navigation) (dismissal : Option ObjectId × User) (inbox : ObjectId)
    (onStack : Bool) : Navigation :=
  { n.push inbox onStack with contactVC := none, dismissals := n.dismissals.erase dismissal }

inductive Event where
  /-- A tap on a row starts a read. -/
  | didSelectRowAt (read : RowRead)
  /-- Its closure returns: the recents screen is gone, or there is no record. -/
  | rowReturns (read : RowRead)
  | rowOpens (read : RowRead) (inbox : ObjectId) (onStack : Bool)
  | showContacts (home : ObjectId)
  | contacts (e : ContactVC.Event)
  /-- A tap on a row of the list. -/
  | didSelectContact (row : Nat)
  /-- The completion of `dismiss` returns: the list is gone. -/
  | dismissalReturns (dismissal : Option ObjectId × User)
  | dismissed (dismissal : Option ObjectId × User) (inbox : ObjectId) (onStack : Bool)
  /-- The list is drawn down. -/
  | swipe
  /-- The back button pops the topmost conversation. -/
  | popViewController

/-- One of them happens. -/
def step (urls : Urls) (n : Navigation) : Event → Option Navigation
  | .didSelectRowAt read => some { n with rowReads := read :: n.rowReads }
  | .rowReturns read =>
    if read ∈ n.rowReads then some { n with rowReads := n.rowReads.erase read } else none
  | .rowOpens read inbox onStack =>
    if read ∈ n.rowReads then some (n.rowOpens read inbox onStack) else none
  | .showContacts home => some { n with contactVC := some (.new home) }
  | .contacts e => n.contactVC.bind fun vc =>
    ((ContactVC.machine urls).step vc e).map fun vc => { n with contactVC := some vc }
  | .didSelectContact row => n.contactVC.bind fun vc =>
    if row < vc.table.length then
      (vc.didSelectRowAt row).map fun contact => n.showInbox vc.recentMessagesVC contact
    else none
  | .dismissalReturns dismissal =>
    if dismissal ∈ n.dismissals then
      some { n with contactVC := none, dismissals := n.dismissals.erase dismissal }
    else none
  | .dismissed dismissal inbox onStack =>
    if dismissal ∈ n.dismissals then some (n.dismissed dismissal inbox onStack) else none
  | .swipe => n.contactVC.map fun _ => { n with contactVC := none }
  | .popViewController =>
    match n.contactVC, n.inboxes with
    | none, _ :: rest => some { n with inboxes := rest }
    | _, _ => none

def machine (urls : Urls) : Machine Navigation Event := ⟨step urls⟩

end Navigation

/-! ## The phone among all clients -/

/-- The phone has an event of its own for it: it concerns another part too. -/
def Navigation.Event.OfPhone : Navigation.Event → Bool
  | .didSelectRowAt _ => true
  | .rowOpens _ _ _ => true
  | .dismissed _ _ _ => true
  | _ => false

/-- The same. -/
def System.Event.OfPhone : System.Event → Bool
  | .world e => e.1.OfInbox
  | .device (.didSelectRowAt _ _) => true
  | .device _ => false

/-- An event of the world as one in which the device has no part, if it is. -/
def System.Event.ofWorld (e : World.Event) : Option System.Event :=
  if h : e.OfDevice = false then some (.world ⟨e, h⟩) else none

namespace Phone

/-- The fields a conversation is opened with: at `users/<uid>`, or of a contact that was made from
them. -/
structure Profile where
  uid : Uid
  name : String
  email : String
  avatarUrl : Option AvatarUrl

/-- The `User` object. -/
def Profile.user (urls : Urls) (p : Profile) : User := .ofFields urls p.uid p.name p.email p.avatarUrl

inductive Event where
  | system (e : { e : System.Event // e.OfPhone = false })
  /-- On a conversation screen of any client. The phone's own are opened by the two pushes. -/
  | inbox (id : InboxId) (e : Inboxes.Event)
  /-- A tap on row `row` of the recents screen; `partner` is what `chatPartnerId()` answers. -/
  | didSelectRowAt (home : ObjectId) (row : Nat) (partner : Option Uid)
  /-- The closure of a row's read runs, on the record it found, while `currentUser` is signed in. -/
  | rowOpens (home : ObjectId) (profile : Profile) (inbox : ObjectId) (currentUser : Option Uid)
      (onStack : Bool)
  /-- The completion of `dismiss` runs for the user that was chosen. -/
  | dismissed (recentMessagesVC : Option ObjectId) (profile : Profile) (inbox : ObjectId)
      (currentUser : Option Uid) (onStack : Bool)
  | navigation (e : { e : Navigation.Event // e.OfPhone = false })

/-- A conversation is opened on the phone. -/
def opens (profile : Profile) (inbox : ObjectId) (currentUser : Option Uid) :
    InboxId × Inboxes.Event :=
  (⟨0, inbox⟩, .opened profile.uid profile.name profile.email profile.avatarUrl currentUser)

/-- What happens to a conversation screen. -/
def onScreens : Event → Option (InboxId × Inboxes.Event)
  | .inbox id e => some (id, e)
  | .rowOpens _ profile inbox currentUser _ => some (opens profile inbox currentUser)
  | .dismissed _ profile inbox currentUser _ => some (opens profile inbox currentUser)
  | _ => none

/-- What the device and the world see. -/
def inSystem (e : Event) : Option System.Event :=
  match e with
  | .system e => some e
  | .didSelectRowAt home row _ => some (.device (.didSelectRowAt home row))
  | e => (onScreens e).bind fun x => (Inboxes.inWorld x.1 x.2).bind System.Event.ofWorld

/-- What the navigation sees. -/
def onNavigation (urls : Urls) : Event → Option Navigation.Event
  | .didSelectRowAt home _ partner => partner.map fun v => .didSelectRowAt ⟨home, v⟩
  | .rowOpens home profile inbox _ onStack => some (.rowOpens ⟨home, profile.uid⟩ inbox onStack)
  | .dismissed recentMessagesVC profile inbox _ onStack =>
    some (.dismissed (recentMessagesVC, profile.user urls) inbox onStack)
  | .navigation e => some e
  | _ => none

/-- The device, the conversation screens of all clients, and what lies over the recents screen. -/
abbrev State := (World × Device) × (InboxId → Option ContactInboxVC) × Navigation

/-- `home` has a navigation controller. -/
def OnStack (s : State) (home : ObjectId) : Prop := home ∈ s.1.2.login.navigationStack

instance (s : State) (home : ObjectId) : Decidable (OnStack s home) :=
  inferInstanceAs (Decidable (home ∈ s.1.2.login.navigationStack))

/-- The partner whose record a tap on a row asks for. -/
def partnerAt (s : State) (home : ObjectId) (row : Nat) : Option Uid :=
  (s.1.2.vcs home).bind fun vc => vc.messages[row]?.bind (Message.chatPartnerId s.1.2.currentUser)

/-- The phone's own program runs. -/
def Running (s : State) : Prop := s.1.2.trap = none ∧ s.2.2.stopped = false

instance (s : State) : Decidable (Running s) :=
  inferInstanceAs (Decidable (s.1.2.trap = none ∧ s.2.2.stopped = false))

/-- The phone's own program takes the step. -/
def Event.isOwn : Event → Bool
  | .system e =>
    match e.1 with
    | .world _ => false
    | .device _ => true
  | .inbox _ (.serve _ _) => false
  | .inbox id _ => id.client = 0
  | _ => true

/-- The conversation screen is on top. -/
def OnTop (s : State) (inbox : ObjectId) : Prop :=
  s.2.2.contactVC.isNone = true ∧ s.2.2.inboxes.head? = some inbox

instance (s : State) (inbox : ObjectId) : Decidable (OnTop s inbox) :=
  inferInstanceAs (Decidable (_ ∧ _))

/-- The recents screen is on top. -/
def HomeOnTop (s : State) (home : ObjectId) : Prop :=
  s.2.2.contactVC.isNone = true ∧ s.2.2.inboxes = [] ∧
    s.1.2.login.navigationStack.head? = some home

instance (s : State) (home : ObjectId) : Decidable (HomeOnTop s home) :=
  inferInstanceAs (Decidable (_ ∧ _ ∧ _))

/-- Where the parts meet: what an event says about another part is so, what the user touches is on
top, and what is pushed is not released. -/
def Fits (s : State) : Event → Prop
  | .system ⟨.device (.logout home), _⟩ => HomeOnTop s home
  | .inbox id (.opened _ _ _ _ currentUser) => id.client ≠ 0 ∧ currentUser = s.1.1.currentUser id.client
  | .inbox id (.release _) => id.client = 0 → id.vc ∉ s.2.2.inboxes
  | .inbox id (.edit _) => id.client = 0 → OnTop s id.vc
  | .inbox id (.handleSend _ _ _) => id.client = 0 → OnTop s id.vc
  | .didSelectRowAt home row partner => HomeOnTop s home ∧ partner = partnerAt s home row
  | .rowOpens home _ _ currentUser onStack =>
    s.1.2.vcs home ≠ none ∧ currentUser = s.1.2.currentUser ∧ onStack = decide (OnStack s home)
  | .dismissed recentMessagesVC _ _ currentUser onStack =>
    currentUser = s.1.2.currentUser ∧ onStack = decide (∃ home ∈ recentMessagesVC, OnStack s home)
  | .navigation ⟨.showContacts home, _⟩ => HomeOnTop s home
  | .navigation ⟨.contacts (.childAdded currentUser _ _), _⟩ => currentUser = s.1.2.currentUser
  | _ => True

instance (s : State) (e : Event) : Decidable (Fits s e) := by
  unfold Fits
  split <;> infer_instance

/-- Nothing happens on the phone once its program has stopped. -/
def Agrees (s : State) (e : Event) : Prop := (e.isOwn = true → Running s) ∧ Fits s e

instance (s : State) (e : Event) : Decidable (Agrees s e) :=
  inferInstanceAs (Decidable (_ ∧ _))

/-- The phone among all clients. -/
def machine (urls : Urls) : Machine State Event :=
  (Machine.sync System.machine
    (Machine.sync (Inboxes.machine urls) (Navigation.machine urls) onScreens (onNavigation urls))
    inSystem some).restrict Agrees

/-- The app is started on the phone; Auth may restore a user. -/
def initial (restored : Option Uid) : State :=
  (System.initial restored, fun _ => none, .initial)

end Phone

end AniChat
