import AniChat.Automata.Machine
import AniChat.Collections.Dictionary
import AniChat.Model.Message
import Mathlib.Data.List.Sort

/-!
# RecentMessagesVC — the recents screen

The view controller's data and the blocks the main queue runs on it: the observer closure of
`viewDidLoad`, the timer it arms, the reload `handleReload` dispatches, the callback of the profile
fetch, and the clearing block that callback dispatches. The machine runs them in any order in which
they can come.

A Swift dictionary lists its values in no promised order, so a delivery carries the order it saw.
-/

namespace AniChat

open Automata Collections

/-- `a` may stand before `b` in an array sorted by `$0.date! > $1.date!`. -/
def Message.NotOlder (a b : Message) : Prop := b.date ≤ a.date

instance : DecidableRel Message.NotOlder := fun a b => inferInstanceAs (Decidable (b.date ≤ a.date))

instance : Std.Total Message.NotOlder := ⟨fun a b => le_total b.date a.date⟩

instance : IsTrans Message Message.NotOlder := ⟨fun _ _ _ hab hbc => le_trans hbc hab⟩

/-- `sorted { $0.date! > $1.date! }`. -/
def sortedByDate (messages : List Message) : List Message := messages.insertionSort Message.NotOlder

/-- How far `setupNavBar` has come. -/
inductive NavBar where
  /-- Nothing was started: the view is not loaded, or nobody was signed in when it was. -/
  | idle
  /-- The single read of `users/<uid>` is outstanding. -/
  | fetching
  /-- The callback has dispatched its clearing block. -/
  | clearing (name : String)
  /-- The block has run, or the read found no record. -/
  | done
  deriving DecidableEq

/-- A clearing block is on the main queue. It holds the view controller. -/
def NavBar.isClearing : NavBar → Bool
  | .clearing _ => true
  | _ => false

structure RecentMessagesVC where
  messagesDictionary : Dictionary Uid Message
  messages : List Message
  /-- The timer is valid: armed, not invalidated and not fired. -/
  timer : Bool
  /-- The reload blocks `handleReload` has dispatched and the main queue has not run. -/
  reloads : Nat
  navBar : NavBar
  title : Option String
  /-- The array the table read at its last `reloadData()`. -/
  table : List Message
  viewLoaded : Bool
  /-- The user `messagesForUserObserver` was attached for. -/
  observing : Option Uid

namespace RecentMessagesVC

/-- `RecentMessagesVC()`. -/
def new : RecentMessagesVC where
  messagesDictionary := ∅
  messages := []
  timer := false
  reloads := 0
  navBar := .idle
  title := none
  table := []
  viewLoaded := false
  observing := none

/-- `viewDidLoad()`: a first reload, before the table has a data source, then `setupNavBar()` and
the observer. `fetchUserProfile` and `messagesForUserObserver` both return at once when nobody is
signed in. -/
def viewDidLoad (vc : RecentMessagesVC) (currentUser : Option Uid) : RecentMessagesVC :=
  { vc with
    table := []
    viewLoaded := true
    observing := currentUser
    navBar := if currentUser.isSome then .fetching else .idle }

/-- The observer closure, once `message.chatPartnerId()` has answered `chatPartnerId`. It writes
under the partner whatever the dates, sorts the values, and arms a new timer in place of the old. -/
def receive (vc : RecentMessagesVC) (chatPartnerId : Uid) (order : Enumeration Message)
    (message : Message) : RecentMessagesVC :=
  { vc with
    messagesDictionary := vc.messagesDictionary.insert chatPartnerId message
    messages := sortedByDate
      (order.order (Dictionary.values (vc.messagesDictionary.insert chatPartnerId message)))
    timer := true }

/-- `handleReload()`, called by the timer: it dispatches a reload. -/
def handleReload (vc : RecentMessagesVC) : RecentMessagesVC :=
  { vc with timer := false, reloads := vc.reloads + 1 }

/-- The dispatched reload runs. -/
def reloadData (vc : RecentMessagesVC) : RecentMessagesVC :=
  { vc with reloads := vc.reloads - 1, table := vc.messages }

/-- UIKit reads the data source of its own accord, as on the first layout after it was set. -/
def layout (vc : RecentMessagesVC) : RecentMessagesVC := { vc with table := vc.messages }

/-- The callback `setupNavBar` gives to `fetchUserProfile`: it dispatches the clearing block. -/
def profileFetched (vc : RecentMessagesVC) (name : String) : RecentMessagesVC :=
  { vc with navBar := .clearing name }

/-- The read of `users/<uid>` found no record: the callback is not called. -/
def profileMissing (vc : RecentMessagesVC) : RecentMessagesVC := { vc with navBar := .done }

/-- The clearing block. -/
def clear (vc : RecentMessagesVC) (name : String) : RecentMessagesVC :=
  { vc with
    messagesDictionary := ∅
    messages := []
    table := []
    title := some name
    navBar := .done }

/-- The blocks the main queue runs on one view controller. -/
inductive Event where
  /-- A message is handed to the observer closure while `signedIn` is signed in. -/
  | received (signedIn : Uid) (order : Enumeration Message) (message : Message)
  | timerFired
  | reload
  | layout
  | profileFetched (name : String)
  | profileMissing
  | clear

/-- The main queue runs one block. -/
def step (vc : RecentMessagesVC) : Event → Option RecentMessagesVC
  | .received signedIn order message =>
    some (vc.receive (message.partnerOf signedIn) order message)
  | .timerFired => if vc.timer = true then some vc.handleReload else none
  | .reload => if vc.reloads ≠ 0 then some vc.reloadData else none
  | .layout => some vc.layout
  | .profileFetched name => if vc.navBar = .fetching then some (vc.profileFetched name) else none
  | .profileMissing => if vc.navBar = .fetching then some vc.profileMissing else none
  | .clear =>
    match vc.navBar with
    | .clearing name => some (vc.clear name)
    | _ => none

/-- One recents screen on the main queue. -/
def machine : Machine RecentMessagesVC Event := ⟨step⟩

/-- A screen whose view was loaded while `u` was signed in. -/
def loaded (u : Uid) : RecentMessagesVC := new.viewDidLoad (some u)

end RecentMessagesVC

end AniChat
