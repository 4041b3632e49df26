import Mathlib.Algebra.Order.Ring.Rat

/-!
# Messages and users

The record a message is in the database, the object the view controllers hold, and the `User` object
a screen is opened with.

The class `Message` declares `toId`, `fromId`, `date` and `text` optional. Every place that builds a
`Message` sets all four before it hands the object on, and nothing clears them, so here they are
plain fields; `incoming` is set by one of the two observers only and stays optional.
-/

namespace AniChat

/-- A user's id, as Firebase Auth gives it out. -/
abbrev Uid := String

/-- The key of a message: what `childByAutoId` makes up. -/
abbrev MessageId := String

/-- Seconds since 1970. A finite `Double` is a rational number, and the code only compares. -/
abbrev Date := ℚ

/-- The value stored at `messages/<id>`, the dictionary `messageInfo`. -/
structure MessageInfo where
  toId : Uid
  fromId : Uid
  date : Date
  text : String
  deriving DecidableEq

/-- A `Message` object. -/
structure Message where
  toId : Uid
  fromId : Uid
  date : Date
  text : String
  incoming : Option Bool
  deriving DecidableEq

/-- A `User` object, with the URL of its avatar as the string it was made from. -/
structure User where
  id : Option Uid
  name : Option String
  email : Option String
  avatar : Option String
  deriving DecidableEq

namespace Message

/-- The object the single read in `messagesForUserObserver` builds from a snapshot. `incoming` asks
who is signed in when the read completes. -/
def ofSnapshot (currentUser : Option Uid) (info : MessageInfo) : Message where
  toId := info.toId
  fromId := info.fromId
  date := info.date
  text := info.text
  incoming := some (decide (some info.toId = currentUser))

/-- The object the single read in `observeMessages` builds: the same, without `incoming`. -/
def ofInboxSnapshot (info : MessageInfo) : Message where
  toId := info.toId
  fromId := info.fromId
  date := info.date
  text := info.text
  incoming := none

/-- The other party of a message, seen by `uid`. -/
def partnerOf (uid : Uid) (m : Message) : Uid := if m.fromId = uid then m.toId else m.fromId

/-- `chatPartnerId()`. It force-unwraps the current user: `none` is the trap. -/
def chatPartnerId (currentUser : Option Uid) (m : Message) : Option Uid :=
  currentUser.map fun uid => m.partnerOf uid

end Message

/-- The message is between `u` and `v`, in one order or the other. -/
def MessageInfo.Between (u v : Uid) (info : MessageInfo) : Prop :=
  (info.fromId = u ∧ info.toId = v) ∨ (info.fromId = v ∧ info.toId = u)

theorem MessageInfo.between_comm {u v : Uid} {info : MessageInfo} :
    info.Between u v ↔ info.Between v u := or_comm

/-- Seen by one of its two parties, a message's partner is the other. -/
theorem Message.partnerOf_of_between {u v : Uid} {info : MessageInfo} (h : info.Between u v)
    (user : Option Uid) : (Message.ofSnapshot user info).partnerOf u = v := by
  unfold Message.partnerOf Message.ofSnapshot
  rcases h with ⟨hf, ht⟩ | ⟨hf, ht⟩
  · rw [if_pos hf]; exact ht
  · split
    · next h => exact ht.trans (h.symm.trans hf)
    · exact hf

end AniChat
