import AniChat.Controller.ContactVC

/-!
# One list of contacts among all registrations

The services of registration with one `ContactVC` on client `c`. What the screen's observer sees is
what the services have: `childAdded` fires for a user whose record is there, with the fields of that
record, and finds whoever is signed in on the client.
-/

namespace AniChat

open Automata

namespace Directory

/-- A step of the services, or a block of the screen. -/
inductive Event where
  | services (e : Services.Event)
  | screen (e : ContactVC.Event)

def inServices : Event → Option Services.Event
  | .services e => some e
  | .screen _ => none

def onScreen : Event → Option ContactVC.Event
  | .services _ => none
  | .screen e => some e

/-- What the screen is told is so. -/
def Agrees (c : ClientId) (s : Services × ContactVC) : Event → Prop
  | .screen (.childAdded currentUser key fields) =>
    currentUser = s.1.currentUser c ∧ s.1.users key ≠ none ∧
      fields = (s.1.users key).map fun info => (info.name, info.email, some info.avatarUrl)
  | _ => True

instance (c : ClientId) (s : Services × ContactVC) : ∀ e, Decidable (Agrees c s e)
  | .services _ => .isTrue trivial
  | .screen .viewDidLoad => .isTrue trivial
  | .screen (.childAdded _ _ _) => inferInstanceAs (Decidable (_ ∧ _ ∧ _))
  | .screen .viewWillAppear => .isTrue trivial
  | .screen .layout => .isTrue trivial

/-- The services and the screen. -/
def machine (urls : Urls) (c : ClientId) : Machine (Services × ContactVC) Event :=
  (Machine.sync Services.machine (ContactVC.machine urls) inServices onScreen).restrict (Agrees c)

end Directory

end AniChat
