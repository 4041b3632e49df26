import AniChat.Client.Backend
import AniChat.Collections.PathTree

/-!
# Snapshots — what is written to the Realtime Database, and read back

The database keeps strings and numbers at the ends of paths. The writers hand it dictionaries
(`messageInfo` in `send`, `userInfo` in `register`) and the `1` of an index entry. The readers ask a
snapshot for a dictionary and force-cast its fields one by one: `as! String`, `as! NSNumber`. Where a
field is missing or of another type the program stops.

A reader answers with `none` where it stops, and with `some none` where it finds no dictionary and
only returns.
-/

namespace AniChat

open Automata Collections

/-- A primitive value of the database. -/
inductive Value where
  | string (s : String)
  | number (q : ℚ)
  deriving DecidableEq

/-- The Realtime Database. -/
abbrev Tree := PathTree String Value

/-- `URL.absoluteString` and `URL(string:)`, on the download URLs of Storage. -/
structure Urls where
  absoluteString : AvatarUrl → String
  url : String → Option AvatarUrl
  /-- What was made from a URL is read as that URL. -/
  round : ∀ u, url (absoluteString u) = some u

/-! ## Writers -/

/-- A write of the client library. -/
inductive Write where
  | updateChildValues (path : List String) (values : List (String × Value))
  | setValue (path : List String) (value : Value)

namespace Write

/-- The server applies an accepted write. -/
def apply (t : Tree) : Write → Tree
  | .updateChildValues path values => t.update path values
  | .setValue path value => t.set path value

/-- The database under accepted writes. -/
def machine : Machine Tree Write := ⟨fun t write => some (write.apply t)⟩

end Write

/-- The dictionary `messageInfo` of `send`. -/
def MessageInfo.values (info : MessageInfo) : List (String × Value) :=
  [("toId", .string info.toId), ("fromId", .string info.fromId), ("date", .number info.date),
    ("text", .string info.text)]

/-- The dictionary `userInfo` of `register`. -/
def UserInfo.values (urls : Urls) (info : UserInfo) : List (String × Value) :=
  [("name", .string info.name), ("email", .string info.email),
    ("avatarUrl", .string (urls.absoluteString info.avatarUrl))]

/-- The write `k` of a call of `send`, as it is issued. -/
def SendCall.write (m : MessageId) (s : SendCall) : SendWrite → Write
  | .childRef => .updateChildValues ["messages", m] s.messageInfo.values
  | .userMessagesRef => .setValue ["user-messages", s.fromId, s.recipientId, m] (.number 1)
  | .recipientUserMessagesRef =>
    .setValue ["user-messages", s.recipientId, s.fromId, m] (.number 1)

/-- The last write of a call of `register`, as it is issued. -/
def RegisterCall.write (urls : Urls) (call : RegisterCall) (avatarUrl : AvatarUrl) (myUid : Uid) :
    Write :=
  .updateChildValues ["users", myUid] ((call.userInfo avatarUrl).values urls)

/-! ## Readers -/

/-- `snapshot.value as? [String: Any]`, of the snapshot at a path. -/
def dictionary (t : Tree) (path : List String) : Option (String → Option Value) :=
  if t.Exists path ∧ t.value path = none then some fun key => t.value (path ++ [key]) else none

/-- `dictionary[key] as! String`. -/
def asString (dictionary : String → Option Value) (key : String) : Option String :=
  match dictionary key with
  | some (.string s) => some s
  | _ => none

/-- `dictionary[key] as! NSNumber`. -/
def asNumber (dictionary : String → Option Value) (key : String) : Option ℚ :=
  match dictionary key with
  | some (.number q) => some q
  | _ => none

/-- The fields of a message, as `messagesForUserObserver`, `messageObserver` and `observeMessages`
cast them. -/
def MessageInfo.ofDictionary (dictionary : String → Option Value) : Option MessageInfo := do
  let date ← asNumber dictionary "date"
  let toId ← asString dictionary "toId"
  let fromId ← asString dictionary "fromId"
  let text ← asString dictionary "text"
  return { toId, fromId, date, text }

/-- The fields of a profile, as `fetchUserProfile` and `didSelectRowAt` cast them: `URL(string:)` is
force-unwrapped. -/
def UserInfo.ofDictionary (urls : Urls) (userInfo : String → Option Value) : Option UserInfo := do
  let name ← asString userInfo "name"
  let email ← asString userInfo "email"
  let avatarUrl ← (asString userInfo "avatarUrl").bind urls.url
  return { name, email, avatarUrl }

/-- The fields of a profile, as `contactObserver` casts them: `URL(string:)` may find no URL. -/
def contactFields (urls : Urls) (userInfo : String → Option Value) :
    Option (String × String × Option AvatarUrl) := do
  let name ← asString userInfo "name"
  let email ← asString userInfo "email"
  let avatarUrl ← asString userInfo "avatarUrl"
  return (name, email, urls.url avatarUrl)

/-- The fields of a profile, as the `didSet` of `RecentMessageCell.message` casts them: the name, and
the URL as it is written. -/
def cellFields (dictionary : String → Option Value) : Option (String × String) := do
  let name ← asString dictionary "name"
  let imageStr ← asString dictionary "avatarUrl"
  return (name, imageStr)

/-- `if let dictionary = snapshot.value as? [String: Any] { … }`, of the snapshot at a path. -/
def readSnapshot {α : Type} (cast : (String → Option Value) → Option α) (t : Tree)
    (path : List String) : Option (Option α) :=
  match dictionary t path with
  | none => some none
  | some d => (cast d).map some

namespace Backend

/-- The write an event gets accepted. -/
def write (urls : Urls) (s : World × Services) : Event → Option Write
  | .world ⟨.settle m k true, _⟩ => (s.1.sends m).map fun call => call.write m k
  | .services ⟨.updateChildValues id none, _⟩ => (s.2.calls id).bind fun call =>
    match call.stage with
    | some (.updateChildValues avatarUrl myUid) => some (call.write urls avatarUrl myUid)
    | _ => none
  | _ => none

end Backend

end AniChat
