import AniChat.Automata.Machine
import AniChat.Model.Message
import Mathlib.Data.Finset.Insert

/-!
# ChatClient — sends, observers and the database between them

`ChatClient.send`, `ChatClient.messagesForUserObserver` and `ContactInboxVC.observeMessages` over
the part of the Realtime Database they touch: `messages/<id>` and `user-messages/<u>/<v>/<id>`.

One machine holds the database, every client's signed-in user, the calls of `send` that passed their
guard, and the observers that were attached. Its events are the asynchronous steps of all clients in
any order: a call, the server's verdict on one write, a completion closure, a `childAdded` event, a
single-value read being served, and its closure running.

What is taken from Firebase's documented behaviour: a key of `childByAutoId` is fresh; a write is
applied whole or rejected whole, and its completion closure runs after that; a `childAdded` observer
fires once for each child that is there, and for no other; a single-value read returns what is
stored when it is served. Nothing orders writes or reads of different paths.

There, a child is once the server has accepted it. The SDK raises a client's own `setValue` to that
client's observers at once, and takes it back if it is rejected, which no observer of the app looks
for; this early event is left out. So a client that sees its own entry early looks like one whose
entry was accepted early, and what is said of an index while a write may be outstanding or rejected
is about the server's.
-/

namespace AniChat

open Automata

abbrev ClientId := Nat

/-- The identity of a view controller object on its device. -/
abbrev ObjectId := Nat

/-! ## The database -/

/-- The two subtrees the chat writes. A leaf under `user-messages` always holds `1`, so the subtree
is the set of its paths. -/
structure Database where
  messages : MessageId → Option MessageInfo
  userMessages : Finset (Uid × Uid × MessageId)

/-- Nothing stored. -/
def Database.empty : Database := ⟨fun _ => none, ∅⟩

/-- The paths the chat writes to. -/
inductive Path where
  | message (m : MessageId)
  | userMessage (u v : Uid) (m : MessageId)
  deriving DecidableEq

/-- Something is stored at a path. -/
def Database.Exists (db : Database) : Path → Prop
  | .message m => db.messages m ≠ none
  | .userMessage u v m => (u, v, m) ∈ db.userMessages

instance (db : Database) : ∀ p, Decidable (db.Exists p)
  | .message m => inferInstanceAs (Decidable (db.messages m ≠ none))
  | .userMessage u v m => inferInstanceAs (Decidable ((u, v, m) ∈ db.userMessages))

/-- `user-messages/<u>` has a child `<v>`: some entry lies under it. -/
def Database.HasPartner (db : Database) (u v : Uid) : Prop :=
  ∃ e ∈ db.userMessages, e.1 = u ∧ e.2.1 = v

instance (db : Database) (u v : Uid) : Decidable (db.HasPartner u v) :=
  inferInstanceAs (Decidable (∃ e ∈ db.userMessages, e.1 = u ∧ e.2.1 = v))

/-! ## A call of `send` -/

/-- The three writes of a `send`, by the name of their reference. -/
inductive SendWrite where
  | childRef
  | userMessagesRef
  | recipientUserMessagesRef
  deriving DecidableEq

/-- How one write stands. -/
inductive WriteState where
  | unissued
  | outstanding
  | accepted
  | rejected
  deriving DecidableEq

/-- The server has answered. -/
def WriteState.Settled (x : WriteState) : Prop := x = .accepted ∨ x = .rejected

instance (x : WriteState) : Decidable x.Settled :=
  inferInstanceAs (Decidable (x = .accepted ∨ x = .rejected))

/-- The server's verdict as a state. -/
def WriteState.ofVerdict (accepted : Bool) : WriteState := if accepted then .accepted else .rejected

/-- A call of `send` that passed its guard: what its closure captured, whether the closure has run,
and how its writes stand. -/
structure SendCall where
  fromId : Uid
  recipientId : Uid
  messageInfo : MessageInfo
  completed : Bool
  writes : SendWrite → WriteState

namespace SendCall

/-- Where each write goes, `m` being the key `childByAutoId` made. -/
def path (m : MessageId) (s : SendCall) : SendWrite → Path
  | .childRef => .message m
  | .userMessagesRef => .userMessage s.fromId s.recipientId m
  | .recipientUserMessagesRef => .userMessage s.recipientId s.fromId m

/-- The completion closure of `updateChildValues`: it issues both index writes. Its `error` argument
is not looked at. -/
def completion (s : SendCall) : SendCall where
  fromId := s.fromId
  recipientId := s.recipientId
  messageInfo := s.messageInfo
  completed := true
  writes
    | .childRef => s.writes .childRef
    | .userMessagesRef => .outstanding
    | .recipientUserMessagesRef => .outstanding

/-- The server answers write `k`. -/
def settle (s : SendCall) (k : SendWrite) (accepted : Bool) : SendCall :=
  { s with writes := Function.update s.writes k (.ofVerdict accepted) }

/-- The call has no write outstanding and none still to come. -/
def Settled (s : SendCall) : Prop := s.completed = true ∧ ∀ k, (s.writes k).Settled

end SendCall

/-- `send(text:recipient:)` by `fromId`, as far as the call of `updateChildValues`. -/
def ChatClient.send (fromId recipientId : Uid) (date : Date) (text : String) : SendCall where
  fromId := fromId
  recipientId := recipientId
  messageInfo := { toId := recipientId, fromId := fromId, date := date, text := text }
  completed := false
  writes
    | .childRef => .outstanding
    | .userMessagesRef => .unissued
    | .recipientUserMessagesRef => .unissued

/-- An accepted write, applied. `updateChildValues` at a fresh key stores the dictionary;
`setValue(1)` adds a leaf. -/
def Database.apply (db : Database) (m : MessageId) (s : SendCall) : SendWrite → Database
  | .childRef => { db with messages := Function.update db.messages m (some s.messageInfo) }
  | .userMessagesRef =>
    { db with userMessages := insert (s.fromId, s.recipientId, m) db.userMessages }
  | .recipientUserMessagesRef =>
    { db with userMessages := insert (s.recipientId, s.fromId, m) db.userMessages }

/-! ## An attached observer -/

/-- The view controller an observer works for: `messagesForUserObserver` for a `RecentMessagesVC`,
`observeMessages` for a `ContactInboxVC`. -/
inductive Owner where
  | recents (vc : ObjectId)
  | inbox (vc : ObjectId)
  deriving DecidableEq

/-- An attached observer, by the client it runs on and its owner. -/
structure ReaderId where
  client : ClientId
  owner : Owner
  deriving DecidableEq

/-- How far one index entry has come in an observer. -/
inductive Read where
  /-- `childAdded` has not fired. -/
  | unseen
  /-- It fired after the owner was gone: `guard let strongSelf = self else { return }`. -/
  | dropped
  /-- The single read of `messages/<id>` is outstanding. -/
  | requested
  /-- The read was served; its closure has not run. -/
  | served (value : Option MessageInfo)
  /-- The closure has run. -/
  | finished (value : Option MessageInfo)
  deriving DecidableEq

/-- An observer with everything nested under it. -/
structure Reader where
  /-- The path component captured when it was attached. -/
  uid : Uid
  /-- The `<v>` for which an observer of `user-messages/<uid>/<v>` is attached. -/
  partners : List Uid
  reads : Uid × MessageId → Read
  /-- The entries whose message was handed on, in order. -/
  delivered : List (Uid × MessageId)
  /-- The owner is still there. Only `observeMessages` asks. -/
  alive : Bool

namespace Reader

/-- An observer as it is attached. -/
def attached (uid : Uid) (partners : List Uid) : Reader := ⟨uid, partners, fun _ => .unseen, [], true⟩

/-- `childAdded` on `user-messages/<uid>`: the closure attaches the nested observer. -/
def partnerAdded (r : Reader) (v : Uid) : Reader := { r with partners := v :: r.partners }

/-- `childAdded` on `user-messages/<uid>/<v>`: the closure starts the single read, except that
`observeMessages` first asks for its owner. -/
def childAdded (r : Reader) (owner : Owner) (e : Uid × MessageId) : Reader :=
  match owner with
  | .recents _ => { r with reads := Function.update r.reads e .requested }
  | .inbox _ =>
    { r with reads := Function.update r.reads e (if r.alive then .requested else .dropped) }

/-- The server answers the single read. -/
def serve (r : Reader) (e : Uid × MessageId) (value : Option MessageInfo) : Reader :=
  { r with reads := Function.update r.reads e (.served value) }

/-- The closure of the single read: it hands the message on when the snapshot holds one. -/
def read (r : Reader) (e : Uid × MessageId) (value : Option MessageInfo) : Reader :=
  { r with
    reads := Function.update r.reads e (.finished value)
    delivered := if value.isSome then r.delivered ++ [e] else r.delivered }

end Reader

/-! ## All clients together -/

/-- The database, who is signed in where, the calls of `send`, and the attached observers. -/
structure World where
  db : Database
  currentUser : ClientId → Option Uid
  sends : MessageId → Option SendCall
  readers : ReaderId → Option Reader

namespace World

/-- Nothing stored, nobody signed in, nothing attached. -/
def initial : World := ⟨.empty, fun _ => none, fun _ => none, fun _ => none⟩

inductive Event where
  /-- The signed-in user of a client changes. -/
  | auth (c : ClientId) (user : Option Uid)
  /-- A call of `send`; `m` is the key it makes, `recipientId` is `recipient.id!`. -/
  | send (c : ClientId) (m : MessageId) (recipientId : Uid) (date : Date) (text : String)
  /-- The server accepts or rejects a write. -/
  | settle (m : MessageId) (k : SendWrite) (accepted : Bool)
  /-- The completion closure of a `send` runs. -/
  | completion (m : MessageId)
  | messagesForUserObserver (c : ClientId) (vc : ObjectId)
  | observeMessages (c : ClientId) (vc : ObjectId) (toId : Uid)
  /-- The owner of an observer is released. -/
  | release (id : ReaderId)
  | partnerAdded (id : ReaderId) (v : Uid)
  | childAdded (id : ReaderId) (v : Uid) (m : MessageId)
  | serve (id : ReaderId) (v : Uid) (m : MessageId)
  /-- The closure of a single read runs, on `value`. -/
  | read (id : ReaderId) (v : Uid) (m : MessageId) (value : Option MessageInfo)

def setUser (w : World) (c : ClientId) (user : Option Uid) : World :=
  { w with currentUser := Function.update w.currentUser c user }

def setSend (w : World) (m : MessageId) (s : SendCall) : World :=
  { w with sends := Function.update w.sends m (some s) }

def setReader (w : World) (id : ReaderId) (r : Reader) : World :=
  { w with readers := Function.update w.readers id (some r) }

/-- The server's verdict on write `k` of the call `s`. -/
def settle (w : World) (m : MessageId) (s : SendCall) (k : SendWrite) (accepted : Bool) : World :=
  { w with
    db := if accepted then w.db.apply m s k else w.db
    sends := Function.update w.sends m (some (s.settle k accepted)) }

/-- Attach an observer for whoever is signed in on `c`, unless nobody is: both observers begin with
`guard let uid = Auth.auth().currentUser?.uid else { return }`. -/
def attach (w : World) (c : ClientId) (owner : Owner) (partners : List Uid) : Option World :=
  match w.readers ⟨c, owner⟩, w.currentUser c with
  | some _, _ => none
  | none, none => some w
  | none, some uid => some (w.setReader ⟨c, owner⟩ (.attached uid partners))

/-- One step of one client or of the server. -/
def step (w : World) : Event → Option World
  | .auth c user => some (w.setUser c user)
  | .send c m recipientId date text =>
    match w.sends m, w.currentUser c with
    | some _, _ => none
    | none, none => some w
    | none, some fromId => some (w.setSend m (ChatClient.send fromId recipientId date text))
  | .settle m k accepted =>
    match w.sends m with
    | none => none
    | some s => if s.writes k = .outstanding then some (w.settle m s k accepted) else none
  | .completion m =>
    match w.sends m with
    | none => none
    | some s =>
      if s.completed = false ∧ (s.writes .childRef).Settled then some (w.setSend m s.completion)
      else none
  | .messagesForUserObserver c vc => w.attach c (.recents vc) []
  | .observeMessages c vc toId => w.attach c (.inbox vc) [toId]
  | .release id =>
    match w.readers id with
    | none => none
    | some r => some (w.setReader id { r with alive := false })
  | .partnerAdded id v =>
    match w.readers id, id.owner with
    | some r, .recents _ =>
      if v ∉ r.partners ∧ w.db.HasPartner r.uid v then some (w.setReader id (r.partnerAdded v))
      else none
    | _, _ => none
  | .childAdded id v m =>
    match w.readers id with
    | none => none
    | some r =>
      if v ∈ r.partners ∧ (r.uid, v, m) ∈ w.db.userMessages ∧ r.reads (v, m) = .unseen then
        some (w.setReader id (r.childAdded id.owner (v, m)))
      else none
  | .serve id v m =>
    match w.readers id with
    | none => none
    | some r =>
      if r.reads (v, m) = .requested then
        some (w.setReader id (r.serve (v, m) (w.db.messages m)))
      else none
  | .read id v m value =>
    match w.readers id with
    | none => none
    | some r =>
      if r.reads (v, m) = .served value then some (w.setReader id (r.read (v, m) value))
      else none

/-- All clients and the server, as one machine. -/
def machine : Machine World Event := ⟨step⟩

end World

end AniChat
