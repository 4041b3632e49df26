import AniChat.Cell.RecentMessageCell

/-!
# What a reused cell shows

The closure of a read writes the profile it asked for beside the message the cell holds by then. A
cell that was handed on has the reads of its earlier messages outstanding still, and nothing tells
the closure which message its read was for.

## What is proved

- `message_of_reads`: while a read is outstanding the cell holds a message, so `message!` finds one.
- `consistent_step`: an assignment keeps the cell consistent exactly when the labels are empty or
  show the new message already, and a read does exactly when the cell is cleared or the profile is
  that of the partner of the current message.
- `consistent_iff`: so the cell never mixes conversations along a run exactly when each step is so.
-/

namespace AniChat

open Automata

namespace RecentMessageCell

variable {lookups : Lookups}

/-- The labels and the picture asked for are those of a message and of a profile. -/
def Shows (lookups : Lookups) (cell : RecentMessageCell) (message : Message) (info : UserInfo) : Prop :=
  cell.nameLabel = some info.name ∧ cell.timeLabel = some (lookups.time message.date) ∧
  cell.dateLabel = some (lookups.monthDayYear message.date) ∧
  cell.messageLabel = some message.text ∧ cell.avatarUrl = some info.avatarUrl

/-- Where the cell shows a name, all it shows is of its message and of that message's partner. -/
def Consistent (lookups : Lookups) (cell : RecentMessageCell) : Prop :=
  cell.subviews = true → cell.nameLabel ≠ none →
    ∃ message partnerId info, cell.message = some message ∧ cell.partnerId = some partnerId ∧
      lookups.users partnerId = some info ∧ cell.Shows lookups message info

/-- A message is assigned to labels that are empty or show it already, and a read that finds a
profile completes on a cleared cell or finds the name and the picture of the current partner. -/
def Fits (lookups : Lookups) (cell : RecentMessageCell) : Event → Prop
  | .setMessage signedIn message => cell.nameLabel ≠ none →
      ∃ info, lookups.users (message.partnerOf signedIn) = some info ∧ cell.Shows lookups message info
  | .prepareForReuse => True
  | .read _ snapshot => cell.subviews = true → ∀ dictionary, snapshot = some dictionary →
      ∃ partnerId info, cell.partnerId = some partnerId ∧ lookups.users partnerId = some info ∧
        dictionary.name = info.name ∧ dictionary.avatarUrl = info.avatarUrl

/-! ## One step -/

/-- What one event can do. -/
inductive Step (lookups : Lookups) (cell : RecentMessageCell) : Event → RecentMessageCell → Prop where
  | setMessage (signedIn : Uid) (message : Message) :
      Step lookups cell (.setMessage signedIn message) (cell.setMessage signedIn message)
  | prepareForReuse : Step lookups cell .prepareForReuse cell.prepareForReuse
  | read {message : Message} {partnerId : Uid} {snapshot : Option UserInfo}
      (outstanding : partnerId ∈ cell.reads)
      (served : snapshot = none ∨ snapshot = lookups.users partnerId)
      (holds : cell.message = some message) :
      Step lookups cell (.read partnerId snapshot) (cell.read lookups message partnerId snapshot)

theorem step_cases {cell cell' : RecentMessageCell} {e : Event}
    (h : (machine lookups).step cell e = some cell') : Step lookups cell e cell' := by
  cases e with
  | setMessage signedIn message => cases h; exact .setMessage signedIn message
  | prepareForReuse => cases h; exact .prepareForReuse
  | read partnerId snapshot =>
    obtain ⟨⟨outstanding, served⟩, h⟩ := Option.ite_none_right_eq_some.mp h
    obtain ⟨message, holds, rfl⟩ := Option.map_eq_some_iff.mp h
    exact .read outstanding served holds

theorem read_reads (cell : RecentMessageCell) (message : Message) (partnerId : Uid)
    (snapshot : Option UserInfo) :
    (cell.read lookups message partnerId snapshot).reads = cell.reads.erase partnerId ∧
      (cell.read lookups message partnerId snapshot).message = cell.message := by
  cases snapshot with
  | none => exact ⟨rfl, rfl⟩
  | some dictionary => exact ⟨rfl, rfl⟩

/-- **The force unwrap finds a message.** -/
theorem message_of_reads {es : List Event} {cell : RecentMessageCell}
    (run : (machine lookups).run new es = some cell) (outstanding : cell.reads ≠ []) :
    cell.message ≠ none := by
  have keep : ∀ (cell : RecentMessageCell) e cell', (cell.reads ≠ [] → cell.message ≠ none) →
      (machine lookups).step cell e = some cell' → cell'.reads ≠ [] → cell'.message ≠ none := by
    intro cell e cell' ih hstep
    cases step_cases hstep with
    | setMessage signedIn message => exact fun _ => Option.some_ne_none _
    | prepareForReuse => exact ih
    | @read message partnerId snapshot outstanding served holds =>
      rw [(read_reads cell message partnerId snapshot).2, holds]
      exact fun _ => Option.some_ne_none _
  exact Machine.run_invariant keep (fun h => absurd rfl h) run outstanding

/-! ## Consistency -/

/-- An assignment brings the labels back to view as they are. -/
theorem consistent_setMessage (cell : RecentMessageCell) (signedIn : Uid) (message : Message) :
    (cell.setMessage signedIn message).Consistent lookups ↔
      cell.Fits lookups (.setMessage signedIn message) := by
  constructor
  · intro h shown
    obtain ⟨m, p, info, hm, hp, hinfo, hshows⟩ := h rfl shown
    cases hm
    cases hp
    exact ⟨info, hinfo, hshows⟩
  · intro fits _ shown
    obtain ⟨info, hinfo, hshows⟩ := fits shown
    exact ⟨message, _, info, rfl, rfl, hinfo, hshows⟩

/-- A read that finds a profile writes it beside the message the cell holds. -/
theorem consistent_read {cell : RecentMessageCell} {message : Message}
    (holds : cell.message = some message) (partnerId : Uid) (dictionary : UserInfo) :
    (cell.read lookups message partnerId (some dictionary)).Consistent lookups ↔
      cell.Fits lookups (.read partnerId (some dictionary)) := by
  constructor
  · intro h subviews d hd
    cases hd
    obtain ⟨m, p, info, -, hp, hinfo, hname, -, -, -, hurl⟩ := h subviews (Option.some_ne_none _)
    exact ⟨p, info, hp, hinfo, Option.some.inj hname, Option.some.inj hurl⟩
  · intro fits subviews _
    obtain ⟨p, info, hp, hinfo, hname, hurl⟩ := fits subviews dictionary rfl
    exact ⟨message, p, info, holds, hp, hinfo, congrArg some hname, rfl, rfl, rfl, congrArg some hurl⟩

/-- A step keeps the cell consistent exactly when it fits. -/
theorem consistent_step {cell cell' : RecentMessageCell} {e : Event} (h : cell.Consistent lookups)
    (hstep : (machine lookups).step cell e = some cell') :
    cell'.Consistent lookups ↔ cell.Fits lookups e := by
  cases step_cases hstep with
  | setMessage signedIn message => exact consistent_setMessage cell signedIn message
  | prepareForReuse => exact iff_of_true nofun trivial
  | @read message partnerId snapshot outstanding served holds =>
    cases snapshot with
    | none => exact iff_of_true h nofun
    | some dictionary => exact consistent_read holds partnerId dictionary

/-- **A cell mixes no conversations along a run exactly when each of its steps fits.** -/
theorem consistent_iff {es : List Event} {cell : RecentMessageCell}
    (run : (machine lookups).run new es = some cell) :
    (machine lookups).Always (Consistent lookups) new es ↔
      (machine lookups).Meets (Fits lookups) new es := by
  have keep : ∀ (cell : RecentMessageCell) e cell', cell.Consistent lookups → True →
      (machine lookups).step cell e = some cell' →
        True ∧ (cell'.Consistent lookups ↔ cell.Fits lookups e) :=
    fun _ _ _ h _ hstep => ⟨trivial, consistent_step h hstep⟩
  exact Machine.always_iff_meets keep nofun trivial run

/-- Bob and Carol have profiles. The locale is of no account. -/
def bobAndCarol : Lookups where
  users uid :=
    if uid = "bob" then some ⟨"Bob", "bob@ani.chat", ⟨"002-dog", 0⟩⟩
    else if uid = "carol" then some ⟨"Carol", "carol@ani.chat", ⟨"012-cat", 1⟩⟩
    else none
  time _ := "9:41 AM"
  monthDayYear _ := "11/14/2019"

/-- A message of Bob's, read, and one of Carol's after the reuse. -/
def scrolled : List Event :=
  [.setMessage "alice" ⟨"alice", "bob", 1, "hi", none⟩, .read "bob" (bobAndCarol.users "bob"),
    .prepareForReuse, .setMessage "alice" ⟨"alice", "carol", 2, "hello", none⟩,
    .read "carol" (bobAndCarol.users "carol")]

theorem consistent_scrolled : ∃ cell, (machine bobAndCarol).run new scrolled = some cell ∧
    ((machine bobAndCarol).Always (Consistent bobAndCarol) new scrolled ↔
      (machine bobAndCarol).Meets (Fits bobAndCarol) new scrolled) :=
  ⟨_, rfl, consistent_iff rfl⟩

/-- The read for Bob's message completes after the cell was given Carol's: his name stands over her
text. -/
theorem mixed_conversations : ¬ ∀ lookups es cell, (machine lookups).run new es = some cell →
    cell.Consistent lookups := by
  intro law
  obtain ⟨m, p, info, hm, hp, hinfo, hname, -⟩ := law bobAndCarol
    [.setMessage "alice" ⟨"alice", "bob", 1, "hi", none⟩, .prepareForReuse,
      .setMessage "alice" ⟨"alice", "carol", 2, "hello", none⟩,
      .read "bob" (bobAndCarol.users "bob")] _ rfl rfl (Option.some_ne_none _)
  cases hp
  cases hinfo
  revert hname
  decide

end RecentMessageCell

end AniChat
