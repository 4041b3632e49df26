import AniChat.Automata.Machine
import AniChat.Client.LoginClient
import AniChat.Model.Message

/-!
# RecentMessageCell — a row of the recents table

The cell's labels, the message it was given last, and the single reads of `users/<partner>` its
assignments have started. The table hands a cell on from row to row, and a read completes whenever
it does.

The cell asks its image view for a picture by the URL in the profile; what becomes of the request is
`UIImageView`'s.
-/

namespace AniChat

open Automata

/-- What the cell looks up elsewhere. -/
structure Lookups where
  /-- The record at `users/<uid>`. It is written once. -/
  users : Uid → Option UserInfo
  /-- `Date.time(by:)`, and below `Date.monthDayYear(by:)`: a `DateFormatter` of the device's
  locale. -/
  time : Date → String
  monthDayYear : Date → String

structure RecentMessageCell where
  message : Option Message
  /-- What the message's `chatPartnerId()` answered when it was assigned. -/
  partnerId : Option Uid
  /-- `nameLabel.text`, and the texts of the other labels. -/
  nameLabel : Option String
  timeLabel : Option String
  dateLabel : Option String
  messageLabel : Option String
  /-- The URL `profileImageView` was last asked to load. -/
  avatarUrl : Option AvatarUrl
  /-- The labels are subviews of the cell. -/
  subviews : Bool
  /-- The partners whose single read is outstanding. -/
  reads : List Uid

namespace RecentMessageCell

/-- `RecentMessageCell(style:reuseIdentifier:)`. -/
def new : RecentMessageCell where
  message := none
  partnerId := none
  nameLabel := none
  timeLabel := none
  dateLabel := none
  messageLabel := none
  avatarUrl := none
  subviews := false
  reads := []

/-- `setupCell()`. -/
def setupCell (cell : RecentMessageCell) : RecentMessageCell := { cell with subviews := true }

/-- `message` is set, and its `didSet` runs while `signedIn` is signed in. -/
def setMessage (cell : RecentMessageCell) (signedIn : Uid) (message : Message) : RecentMessageCell :=
  { cell.setupCell with
    message := some message
    partnerId := some (message.partnerOf signedIn)
    reads := message.partnerOf signedIn :: cell.reads }

/-- The closure of the single read, on a cell that holds `message`. -/
def read (cell : RecentMessageCell) (lookups : Lookups) (message : Message) (partnerId : Uid)
    (snapshot : Option UserInfo) : RecentMessageCell :=
  match snapshot with
  | none => { cell with reads := cell.reads.erase partnerId }
  | some dictionary =>
    { cell with
      reads := cell.reads.erase partnerId
      nameLabel := some dictionary.name
      timeLabel := some (lookups.time message.date)
      dateLabel := some (lookups.monthDayYear message.date)
      messageLabel := some message.text
      avatarUrl := some dictionary.avatarUrl }

/-- `clearCell()`. It leaves the message. -/
def clearCell (cell : RecentMessageCell) : RecentMessageCell :=
  { cell with
    subviews := false
    nameLabel := none
    timeLabel := none
    dateLabel := none
    messageLabel := none }

/-- `prepareForReuse()`. -/
def prepareForReuse (cell : RecentMessageCell) : RecentMessageCell := cell.clearCell

/-- What happens to one cell. -/
inductive Event where
  | setMessage (signedIn : Uid) (message : Message)
  | prepareForReuse
  /-- A single read of `users/<partnerId>` completes with `snapshot`. -/
  | read (partnerId : Uid) (snapshot : Option UserInfo)

/-- One of them happens. A read answers with the record, or with nothing before it was written; its
closure force-unwraps the message. -/
def step (lookups : Lookups) (cell : RecentMessageCell) : Event → Option RecentMessageCell
  | .setMessage signedIn message => some (cell.setMessage signedIn message)
  | .prepareForReuse => some cell.prepareForReuse
  | .read partnerId snapshot =>
    if partnerId ∈ cell.reads ∧ (snapshot = none ∨ snapshot = lookups.users partnerId) then
      cell.message.map fun message => cell.read lookups message partnerId snapshot
    else none

/-- One cell of the recents table. -/
def machine (lookups : Lookups) : Machine RecentMessageCell Event := ⟨step lookups⟩

end RecentMessageCell

end AniChat
