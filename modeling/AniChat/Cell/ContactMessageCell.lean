import AniChat.Model.Message

/-!
# ContactMessageCell — a bubble of a conversation

The cell as `ContactInboxVC.collectionView(_:cellForItemAt:)` and its `setupCell` leave it: on which
side the bubble hangs, its colours, its text, and what its image view was asked to load. The cell has
no `prepareForReuse`; a cell comes back as its last message left it.
-/

namespace AniChat

/-- The colours the bubbles use. -/
inductive Colour where
  | blue
  | grey
  | white
  | black
  deriving DecidableEq

structure ContactMessageCell where
  /-- `messageTextView.text` and `textColor`. -/
  text : String
  textColor : Colour
  /-- `bubbleView.backgroundColor`. -/
  bubbleColor : Colour
  /-- `profileImageView.isHidden`. -/
  isHidden : Bool
  /-- `bubbleViewRightAnchor?.isActive` and `bubbleViewLeftAnchor?.isActive`. -/
  rightAnchor : Bool
  leftAnchor : Bool
  /-- The URL `profileImageView` was last asked to load. -/
  urlString : Option String
  deriving DecidableEq

namespace ContactMessageCell

/-- `ContactMessageCell(frame:)`. -/
def new : ContactMessageCell where
  text := "SAMPLE"
  textColor := .white
  bubbleColor := .blue
  isHidden := false
  rightAnchor := true
  leftAnchor := false
  urlString := none

/-- `setupCell(cell:message:)` of a screen with this contact, while `currentUser` is signed in. -/
def setupCell (cell : ContactMessageCell) (user : Option User) (currentUser : Option Uid)
    (message : Message) : ContactMessageCell :=
  let cell := match user.bind User.avatar with
    | some profileImage => { cell with urlString := some profileImage }
    | none => cell
  if some message.fromId = currentUser then
    { cell with
      bubbleColor := .blue
      textColor := .white
      isHidden := true
      rightAnchor := true
      leftAnchor := false }
  else
    { cell with
      bubbleColor := .grey
      textColor := .black
      isHidden := false
      rightAnchor := false
      leftAnchor := true }

/-- `collectionView(_:cellForItemAt:)`, on the cell that was dequeued. -/
def cellForItemAt (cell : ContactMessageCell) (user : Option User) (currentUser : Option Uid)
    (message : Message) : ContactMessageCell :=
  { cell.setupCell user currentUser message with text := message.text }

end ContactMessageCell

end AniChat
