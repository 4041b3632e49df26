import AniChat.Automata.Board
import AniChat.Laws.Client.Delivery

/-!
# The chat is a board

What the database, the calls of `send` and the observers do together, seen from outside: a message is
posted when the server accepts its record, and an observer is a subscriber that is shown the messages
of one user, or those between two. The index, the single reads and the order of the writes do not
appear.

## What is proved

- `board_step`: each step of the world is a step of the board, or leaves it.
- `refines_board`: so each run of the world is a run of the board, whatever the server rejects.
-/

namespace AniChat

open Automata Collections

instance (u v : Uid) (info : MessageInfo) : Decidable (info.Between u v) :=
  inferInstanceAs (Decidable (_ ∨ _))

/-- What an observer is there for: the messages of a user, or those with one partner. -/
structure Interest where
  uid : Uid
  partner : Option Uid

/-- The message is one of those. -/
def Interest.Wants (interest : Interest) (info : MessageInfo) : Prop :=
  match interest.partner with
  | none => info.fromId = interest.uid ∨ info.toId = interest.uid
  | some v => info.Between interest.uid v

instance (interest : Interest) (info : MessageInfo) : Decidable (interest.Wants info) := by
  unfold Interest.Wants
  split <;> infer_instance

/-- An observer as a subscriber. -/
def Reader.subscriber (owner : Owner) (r : Reader) : Subscriber MessageId Interest where
  interest :=
    match owner with
    | .recents _ => ⟨r.uid, none⟩
    | .inbox _ => ⟨r.uid, r.partners.head?⟩
  shown := r.delivered.map Prod.snd

namespace World

/-- The world as a board. -/
def board (w : World) : Board MessageId MessageInfo ReaderId Interest where
  posted := w.db.messages
  subscribers id := (w.readers id).map fun r => r.subscriber id.owner

/-- What the board sees of an event. -/
def onBoard (w : World) : Event → Option (Board.Event MessageId MessageInfo ReaderId Interest)
  | .settle m .childRef true => (w.sends m).map fun s => .post m s.messageInfo
  | .messagesForUserObserver c vc =>
    (w.currentUser c).map fun uid => .subscribe ⟨c, .recents vc⟩ ⟨uid, none⟩
  | .observeMessages c vc toId =>
    (w.currentUser c).map fun uid => .subscribe ⟨c, .inbox vc⟩ ⟨uid, some toId⟩
  | .read id _ m (some _) => some (.deliver id m)
  | _ => none

/-! ## One conversation an observer of one -/

/-- The observer of a conversation screen has met entries of that conversation only. -/
def Single (w : World) : Prop :=
  ∀ id r vc, w.readers id = some r → id.owner = .inbox vc →
    ∃ v, r.partners = [v] ∧ ∀ v' m, r.reads (v', m) ≠ .unseen → v' = v

theorem Single.setReader {w : World} (h : w.Single) {id : ReaderId} {r : Reader}
    (self : ∀ vc, id.owner = .inbox vc →
      ∃ v, r.partners = [v] ∧ ∀ v' m, r.reads (v', m) ≠ .unseen → v' = v) :
    (w.setReader id r).Single := by
  intro id' r' vc hr' howner
  rcases update_eq_some.mp hr' with ⟨rfl, rfl⟩ | ⟨-, hold⟩
  · exact self vc howner
  · exact h id' r' vc hold howner

/-- An entry that an observer has met moves on. -/
theorem Single.move {w : World} (h : w.Single) {id : ReaderId} {r r' : Reader}
    (reader : w.readers id = some r) (partners : r'.partners = r.partners) {v : Uid} {m : MessageId}
    {x : Read} (reads : r'.reads = Function.update r.reads (v, m) x)
    (met : v ∈ r.partners ∨ r.reads (v, m) ≠ .unseen) : (w.setReader id r').Single := by
  refine h.setReader fun vc howner => ?_
  obtain ⟨v₀, hpartners, hmet⟩ := h id r vc reader howner
  refine ⟨v₀, partners.trans hpartners, fun v' m' hne => ?_⟩
  by_cases he : (v', m') = (v, m)
  · cases he
    rcases met with hv | hv
    · rw [hpartners] at hv
      exact List.mem_singleton.mp hv
    · exact hmet _ _ hv
  · rw [reads, Function.update_of_ne he] at hne
    exact hmet v' m' hne

theorem single_step {w w' : World} {e : Event} (h : w.Single)
    (hstep : machine.step w e = some w') : w'.Single := by
  cases step_cases hstep with
  | messagesForUserObserver => exact h.setReader nofun
  | @observeMessages c vc toId uid =>
    exact h.setReader fun _ _ => ⟨toId, rfl, fun _ _ hne => absurd rfl hne⟩
  | @release id r reader => exact h.setReader fun vc howner => h id r vc reader howner
  | @partnerAdded id r v vc reader owner =>
    refine h.setReader fun vc' howner => ?_
    cases owner.symm.trans howner
  | @childAdded id r v m reader nested =>
    cases how : id.owner with
    | recents vc => exact h.move reader rfl rfl (.inl nested)
    | inbox vc => exact h.move reader rfl rfl (.inl nested)
  | serve reader out => exact h.move reader rfl rfl (.inr (by rw [out]; exact nofun))
  | read reader served => exact h.move reader rfl rfl (.inr (by rw [served]; exact nofun))
  | _ => exact h

/-! ## One step -/

/-- Changing an observer changes its subscriber. -/
theorem board_setReader (w : World) (id : ReaderId) (r : Reader) :
    (w.setReader id r).board =
      { w.board with
        subscribers := Function.update w.board.subscribers id (some (r.subscriber id.owner)) } := by
  simp only [board, setReader, Board.mk.injEq, true_and]
  funext id'
  by_cases hid : id' = id
  · subst hid
    rw [Function.update_self, Function.update_self]
    rfl
  · rw [Function.update_of_ne hid, Function.update_of_ne hid]

/-- An observer that was shown nothing new is the same subscriber. -/
theorem board_same {w : World} {id : ReaderId} {r r' : Reader} (reader : w.readers id = some r)
    (same : r'.subscriber id.owner = r.subscriber id.owner) : (w.setReader id r').board = w.board := by
  have hold : w.board.subscribers id = some (r.subscriber id.owner) := by
    simp [board, reader]
  rw [board_setReader, same, ← hold, Function.update_eq_self]

/-- The board of a world with a new observer. -/
theorem board_attached {w : World} {id : ReaderId} (new : w.readers id = none) (r : Reader)
    (nothing : r.delivered = []) :
    (Board.machine Interest.Wants).step w.board (.subscribe id (r.subscriber id.owner).interest) =
      some (w.setReader id r).board := by
  have hnone : w.board.subscribers id = none := by
    simp [board, new]
  have hr : r.subscriber id.owner = ⟨(r.subscriber id.owner).interest, []⟩ := by
    simp [Reader.subscriber, nothing]
  rw [board_setReader, hr]
  simp [Board.machine, Board.step, hnone]

/-- A message record that the server accepts is posted. -/
theorem board_posted {w : World} {m : MessageId} {s : SendCall} (hc : w.Consistent)
    (call : w.sends m = some s) (out : s.writes .childRef = .outstanding) :
    (Board.machine Interest.Wants).step w.board (.post m s.messageInfo) =
      some (w.settle m s .childRef true).board := by
  have hnone : w.board.posted m = none := by
    show w.db.messages m = none
    rw [(hc.tracks m s call).stored, out]
    rfl
  simp only [Board.machine, Board.step, hnone]
  rfl

/-- An entry and its key tell the partner. -/
theorem partner_unique {w : World} (hc : w.Consistent) {u v v' : Uid} {m : MessageId}
    (entry : (u, v, m) ∈ w.db.userMessages) (entry' : (u, v', m) ∈ w.db.userMessages) : v' = v := by
  obtain ⟨s, hs, -, hbetween⟩ := indexed_call hc entry
  obtain ⟨s', hs', -, hbetween'⟩ := indexed_call hc entry'
  cases hs.symm.trans hs'
  rcases hbetween with ⟨hf, ht⟩ | ⟨hf, ht⟩ <;> rcases hbetween' with ⟨hf', ht'⟩ | ⟨hf', ht'⟩
  · exact ht'.symm.trans ht
  · exact hf'.symm.trans (hf.trans (ht'.symm.trans ht))
  · exact ht'.symm.trans (ht.trans (hf'.symm.trans hf))
  · exact hf'.symm.trans hf

/-- A closure that finds a message shows it to a subscriber that wants it and has not seen it. -/
theorem board_delivered {w : World} {id : ReaderId} {r : Reader} {v : Uid} {m : MessageId}
    {info : MessageInfo} (hc : w.Consistent) (ho : w.Observed) (single : w.Single)
    (reader : w.readers id = some r) (served : r.reads (v, m) = .served (some info)) :
    (Board.machine Interest.Wants).step w.board (.deliver id m) =
      some (w.setReader id (r.read (v, m) (some info))).board := by
  have hr := ho id r reader
  have hentry : (r.uid, v, m) ∈ w.db.userMessages := hr.seen v m (by rw [served]; exact nofun)
  have hstored : w.db.messages m = some info := hr.found v m info (by rw [served]; rfl)
  have hbetween := indexed_between hc hentry hstored
  have hsubscribed : w.board.subscribers id = some (r.subscriber id.owner) := by
    simp [board, reader]
  have hposted : w.board.posted m = some info := hstored
  have hwants : (r.subscriber id.owner).interest.Wants info := by
    unfold Reader.subscriber Interest.Wants
    cases how : id.owner with
    | recents vc => exact hbetween.imp And.left And.right
    | inbox vc =>
      obtain ⟨v₀, hpartners, hmet⟩ := single id r vc reader how
      have hv : v = v₀ := hmet v m (by rw [served]; exact nofun)
      subst hv
      simp only [hpartners, List.head?_cons]
      exact hbetween
  have hfirst : m ∉ (r.subscriber id.owner).shown := by
    intro hm
    obtain ⟨⟨v', m'⟩, he, rfl⟩ := List.mem_map.mp hm
    have hcount := List.count_pos_iff.mpr he
    rw [hr.once] at hcount
    have hseen : r.reads (v', m') ≠ .unseen := by
      intro hunseen
      rw [hunseen] at hcount
      cases hcount
    -- the same key under the same user is the same entry, whose closure has not run
    cases partner_unique hc hentry (hr.seen v' m' hseen)
    rw [served] at hcount
    cases hcount
  have hshown : (r.read (v, m) (some info)).subscriber id.owner =
      { r.subscriber id.owner with shown := (r.subscriber id.owner).shown ++ [m] } := by
    simp [Reader.subscriber, Reader.read]
  rw [board_setReader, hshown]
  simp [Board.machine, Board.step, hsubscribed, hposted, hwants, hfirst]

/-- A step of the world is the step of the board that it shows, or none. -/
theorem board_step {w w' : World} {e : Event} (hc : w.Consistent) (ho : w.Observed)
    (single : w.Single) (hstep : machine.step w e = some w') :
    (Board.machine Interest.Wants).run w.board (w.onBoard e).toList = some w'.board := by
  have one : ∀ {e' : Board.Event MessageId MessageInfo ReaderId Interest}, w.onBoard e = some e' →
      (Board.machine Interest.Wants).step w.board e' = some w'.board →
      (Board.machine Interest.Wants).run w.board (w.onBoard e).toList = some w'.board := by
    intro e' he' hstep'
    rw [he']
    exact Machine.run_cons_eq_some.mpr ⟨_, hstep', rfl⟩
  have stays : w.onBoard e = none → w'.board = w.board →
      (Board.machine Interest.Wants).run w.board (w.onBoard e).toList = some w'.board := by
    intro hnone hsame
    rw [hnone, hsame]
    rfl
  cases step_cases hstep with
  | auth => exact stays rfl rfl
  | sendSignedOut => exact stays rfl rfl
  | send => exact stays rfl rfl
  | @settle m k s accepted call out =>
    cases k with
    | childRef =>
      cases accepted with
      | true => exact one (by simp [onBoard, call]) (board_posted hc call out)
      | false => exact stays rfl rfl
    | userMessagesRef => exact stays rfl (by cases accepted <;> rfl)
    | recipientUserMessagesRef => exact stays rfl (by cases accepted <;> rfl)
  | completion => exact stays rfl rfl
  | messagesForUserSignedOut signedOut => exact stays (by simp [onBoard, signedOut]) rfl
  | observeMessagesSignedOut signedOut => exact stays (by simp [onBoard, signedOut]) rfl
  | messagesForUserObserver signedIn new =>
    exact one (by simp [onBoard, signedIn]; rfl) (board_attached new _ rfl)
  | observeMessages signedIn new =>
    exact one (by simp [onBoard, signedIn]; rfl) (board_attached new _ rfl)
  | release reader => exact stays rfl (board_same reader rfl)
  | partnerAdded reader owner => exact stays rfl (board_same reader (by rw [owner]; rfl))
  | @childAdded id r v m reader =>
    refine stays rfl (board_same reader ?_)
    cases id.owner <;> rfl
  | serve reader => exact stays rfl (board_same reader rfl)
  | @read id r v m value reader served =>
    cases value with
    | none => exact stays rfl (board_same reader rfl)
    | some info => exact one rfl (board_delivered hc ho single reader served)

/-- Each run between reachable worlds is one between their boards. -/
theorem board_run {w w' : World} {es : List Event} (hc : w.Consistent) (ho : w.Observed)
    (single : w.Single) (run : machine.run w es = some w') :
    (Board.machine Interest.Wants).run w.board (machine.emits onBoard w es) = some w'.board :=
  Machine.run_emits (fun w => w.Consistent ∧ w.Observed ∧ w.Single)
    (fun _ _ _ h hstep => ⟨⟨consistent_step h.1 hstep, observed_step h.1 h.2.1 hstep,
      single_step h.2.2 hstep⟩, board_step h.1 h.2.1 h.2.2 hstep⟩) ⟨hc, ho, single⟩ run

theorem single_initial : initial.Single := fun _ _ _ hr => by cases hr

theorem single_run {w : World} {es : List Event} (run : machine.run initial es = some w) : w.Single :=
  Machine.run_invariant (fun _ _ _ => single_step) single_initial run

/-- What a reachable world's observers were shown, they want, and none of it twice. -/
theorem board_sound {w : World} {es : List Event} (run : machine.run initial es = some w) :
    Board.Sound Interest.Wants w.board :=
  Board.sound_run (board_run consistent_initial observed_initial single_initial run)

end World

end AniChat
