import AniChat.App.System
import AniChat.Laws.App.Sessions
import AniChat.Laws.Client.Delivery

/-!
# Where the rows of a recents screen come from

The device and the world together: the observer the world holds for a screen watches the user whose
view it loaded under, and every message on the screen was read for an index entry of that user.

## What is proved

- `Linked`: the two sides agree on who is signed in and on the user of each screen's observer, and
  each value of a screen's dictionary has a `Source` in the database.
- `recents_session`: while a screen is shown, its array lists its dictionary by date with one row
  for each partner, a message read for the entry `user-messages/<u>/<v>/<m>` stands under `v`, and
  the rows the table expects are there.
-/

namespace AniChat

open Automata Collections

/-! ## Observers of the world -/

namespace World

/-- The change an event makes to who is signed in on the device. -/
def Event.auth? : Event → Option (Option Uid)
  | .auth 0 user => some user
  | _ => none

theorem currentUser_step {w w' : World} {e : Event} (hstep : machine.step w e = some w') :
    w'.currentUser 0 = e.auth?.getD (w.currentUser 0) := by
  cases step_cases hstep with
  | auth c user =>
    show Function.update w.currentUser c user 0 = _
    cases c with
    | zero => exact Function.update_self ..
    | succ c => exact Function.update_of_ne (Nat.succ_ne_zero c).symm ..
  | _ => rfl

/-- An event attaches the observer of a recents screen, on behalf of whoever is signed in, or leaves
its user as it is. -/
theorem readers_step {w w' : World} {e : Event} (hstep : machine.step w e = some w')
    {c : ClientId} {vc : ObjectId} {r' : Reader} (reader : w'.readers ⟨c, .recents vc⟩ = some r') :
    (∃ r, w.readers ⟨c, .recents vc⟩ = some r ∧ r'.uid = r.uid) ∨
      e = .messagesForUserObserver c vc ∧ w.readers ⟨c, .recents vc⟩ = none ∧
        w.currentUser c = some r'.uid := by
  have keep : ∀ {id : ReaderId} {r s : Reader}, w.readers id = some r →
      (w.setReader id s).readers ⟨c, .recents vc⟩ = some r' → s.uid = r.uid →
      ∃ r, w.readers ⟨c, .recents vc⟩ = some r ∧ r'.uid = r.uid := by
    intro id r s hr h huid
    rcases update_eq_some.mp h with ⟨rfl, rfl⟩ | ⟨-, hold⟩
    · exact ⟨r, hr, huid⟩
    · exact ⟨r', hold, rfl⟩
  cases step_cases hstep with
  | @messagesForUserObserver c' vc' uid signedIn new =>
    rcases update_eq_some.mp reader with ⟨hid, rfl⟩ | ⟨-, hold⟩
    · cases hid
      exact .inr ⟨rfl, new, signedIn⟩
    · exact .inl ⟨r', hold, rfl⟩
  | @observeMessages c' vc' toId uid signedIn new =>
    rcases update_eq_some.mp reader with ⟨hid, -⟩ | ⟨-, hold⟩
    · cases hid
    · exact .inl ⟨r', hold, rfl⟩
  | release hr => exact .inl (keep hr reader rfl)
  | partnerAdded hr => exact .inl (keep hr reader rfl)
  | @childAdded id r v m hr =>
    refine .inl (keep hr reader ?_)
    unfold Reader.childAdded
    split <;> rfl
  | serve hr => exact .inl (keep hr reader rfl)
  | read hr => exact .inl (keep hr reader rfl)
  | _ => exact .inl ⟨r', reader, rfl⟩

end World

/-- The values of a recents screen's dictionary are entered by deliveries only. -/
theorem RecentMessagesVC.lookup_step {vc vc' : RecentMessagesVC} {e : RecentMessagesVC.Event}
    (hstep : RecentMessagesVC.machine.step vc e = some vc') {v : Uid} {message : Message}
    (h : vc'.messagesDictionary.lookup v = some message) :
    vc.messagesDictionary.lookup v = some message ∨ ∃ u order, e = .received u order message := by
  cases RecentMessagesVC.step_cases hstep with
  | received u order message' =>
    change (vc.messagesDictionary.insert _ message').lookup v = _ at h
    rw [Dictionary.lookup_insert_iff] at h
    split at h
    · cases h; exact .inr ⟨u, order, rfl⟩
    · exact .inl h
  | clear =>
    change (∅ : Dictionary Uid Message).lookup v = _ at h
    rw [AList.lookup_empty] at h
    cases h
  | _ => exact .inl h

/-! ## The device and the world -/

namespace Device

/-- The change an event makes to who is signed in. -/
def Event.auth? : Event → Option (Option Uid)
  | .login e => e.signsIn.map some
  | .logout _ => some none
  | _ => none

theorem currentUser_step {d d' : Device} {e : Event} (hstep : machine.step d e = some d') :
    d'.currentUser = e.auth?.getD d.currentUser := by
  have hrow : ∀ {k row}, e.row? = some (k, row) → e.auth? = none := by
    intro k row asks
    rcases row_cases asks with rfl | rfl
    · rfl
    · rfl
  obtain ⟨-, hact⟩ := step_cases hstep
  cases hact with
  | @login e login =>
    show e.signsIn.or d.currentUser = (e.signsIn.map some).getD d.currentUser
    cases e.signsIn with
    | none => rfl
    | some user => rfl
  | rowMissing asks => rw [hrow asks]; rfl
  | rowSignedOut asks => rw [hrow asks]; rfl
  | row asks => rw [hrow asks]; rfl
  | _ => rfl

end Device

namespace System

/-- Both sides of an event make the same change. -/
theorem auth_eq (e : Event) :
    (inWorld e).bind World.Event.auth? = (onDevice e).bind Device.Event.auth? := by
  cases e with
  | world e =>
    obtain ⟨e, hforeign⟩ := e
    show e.auth? = none
    cases e with
    | auth c user =>
      cases c with
      | zero => cases hforeign
      | succ c => rfl
    | _ => rfl
  | device e =>
    cases e with
    | login e =>
      show (e.signsIn.map _).bind World.Event.auth? = e.signsIn.map some
      cases e.signsIn with
      | none => rfl
      | some user => rfl
    | _ => rfl

/-- The device and the world agree on who is signed in. -/
theorem user_step {s s' : World × Device} {e : Event} (h : s.1.currentUser 0 = s.2.currentUser)
    (hstep : machine.step s e = some s') : s'.1.currentUser 0 = s'.2.currentUser := by
  have hworld : s'.1.currentUser 0 =
      ((inWorld e).bind World.Event.auth?).getD (s.1.currentUser 0) := by
    cases he : inWorld e with
    | none => rw [world_stays he hstep]; rfl
    | some e' => exact World.currentUser_step (world_step he hstep)
  have hdevice : s'.2.currentUser =
      ((onDevice e).bind Device.Event.auth?).getD s.2.currentUser := by
    cases e with
    | device e => exact Device.currentUser_step (device_step hstep)
    | world e => rw [device_stays hstep]; rfl
  rw [hworld, hdevice, auth_eq, h]

/-- The world attaches a screen's observer when the device loads its view. -/
theorem attaches {e : Event} {k : ObjectId}
    (h : inWorld e = some (.messagesForUserObserver 0 k)) : e = .device (.viewDidLoad k) := by
  cases e with
  | world e =>
    obtain ⟨e, hforeign⟩ := e
    cases h
    cases hforeign
  | device e =>
    cases e with
    | login e =>
      obtain ⟨user, -, h⟩ := Option.map_eq_some_iff.mp h
      cases h
    | viewDidLoad k' => cases h; rfl
    | _ => cases h

/-! ## What both know of a screen -/

/-- The message was read for an index entry of `u`. -/
def Source (db : Database) (u : Uid) (message : Message) : Prop :=
  ∃ v m info user, (u, v, m) ∈ db.userMessages ∧ db.messages m = some info ∧
    message = Message.ofSnapshot user info

theorem Source.mono {db db' : Database} {u : Uid} {message : Message} (h : Source db u message)
    (le : db.Le db') : Source db' u message := by
  obtain ⟨v, m, info, user, hentry, hstored, hmessage⟩ := h
  exact ⟨v, m, info, user, le.entries hentry, le.messages m info hstored, hmessage⟩

/-- The two sides agree: on who is signed in, on the user whose entries a screen's observer watches,
and on where the values of a screen's dictionary come from. -/
structure Linked (s : World × Device) : Prop where
  user : s.1.currentUser 0 = s.2.currentUser
  observing : ∀ k r vc, s.1.readers ⟨0, .recents k⟩ = some r → s.2.vcs k = some vc →
    vc.observing = some r.uid
  allocated : ∀ k, s.1.readers ⟨0, .recents k⟩ ≠ none → k ∈ s.2.allocated
  sourced : ∀ k vc u, s.2.vcs k = some vc → vc.observing = some u →
    ∀ v message, vc.messagesDictionary.lookup v = some message → Source s.1.db u message

/-- What each side keeps on its own, with what they agree on. -/
structure Sound (s : World × Device) : Prop where
  consistent : s.1.Consistent
  observed : s.1.Observed
  tidy : s.2.Tidy
  made : s.2.Made
  linked : Linked s

/-- A message the device is handed was read for an entry of the user its screen observes. -/
theorem deliver_source {s s' : World × Device} {k : ObjectId} {v : Uid} {m : MessageId}
    {order : Enumeration Message} {info : MessageInfo} {vc : RecentMessagesVC} {u : Uid} (h : Sound s)
    (hstep : machine.step s (.device (.deliver k v m order info)) = some s')
    (alive : s.2.vcs k = some vc) (observes : vc.observing = some u) :
    (u, v, m) ∈ s.1.db.userMessages ∧ s.1.db.messages m = some info := by
  have hread := world_step (e := .device (.deliver k v m order info)) rfl hstep
  generalize s'.1 = w' at hread
  cases World.step_cases hread with
  | @read _ r _ _ _ reader served =>
    have hsound := h.observed _ r reader
    have hu : u = r.uid :=
      Option.some.inj (observes.symm.trans (h.linked.observing k r vc reader alive))
    subst hu
    refine ⟨hsound.seen v m ?_, hsound.found v m info ?_⟩
    · rw [served]; exact nofun
    · rw [served]; rfl

theorem linked_observing {s s' : World × Device} {e : Event} (h : Sound s)
    (hstep : machine.step s e = some s') {k : ObjectId} {r : Reader} {vc : RecentMessagesVC}
    (reader : s'.1.readers ⟨0, .recents k⟩ = some r) (alive : s'.2.vcs k = some vc) :
    vc.observing = some r.uid := by
  -- the observer was there, or the device has just loaded the view of `k`
  have hreader : (∃ r₀, s.1.readers ⟨0, .recents k⟩ = some r₀ ∧ r.uid = r₀.uid) ∨
      e = .device (.viewDidLoad k) ∧ s.1.readers ⟨0, .recents k⟩ = none ∧
        s.1.currentUser 0 = some r.uid := by
    cases he : inWorld e with
    | none =>
      rw [world_stays he hstep] at reader
      exact .inl ⟨r, reader, rfl⟩
    | some e' =>
      rcases World.readers_step (world_step he hstep) reader with hold | ⟨rfl, hnone, huser⟩
      · exact .inl hold
      · exact .inr ⟨attaches he, hnone, huser⟩
  cases e with
  | world e =>
    rw [device_stays hstep] at alive
    rcases hreader with ⟨r₀, hr₀, huid⟩ | ⟨heq, -⟩
    · rw [huid]; exact h.linked.observing k r₀ vc hr₀ alive
    · cases heq
  | device e =>
    obtain ⟨-, hact⟩ := Device.step_cases (device_step hstep)
    have hscreen := Device.screen_cases hact k
    rw [alive] at hscreen
    generalize hs : some vc = x at hscreen
    cases hscreen with
    | same elsewhere =>
      rcases hreader with ⟨r₀, hr₀, huid⟩ | ⟨heq, -⟩
      · rw [huid]; exact h.linked.observing k r₀ vc hr₀ hs.symm
      · exact absurd (Event.device.inj heq) elsewhere
    | made event fresh =>
      rcases hreader with ⟨r₀, hr₀, -⟩ | ⟨heq, -⟩
      · exact absurd (h.linked.allocated k (by rw [hr₀]; exact nofun)) fresh
      · cases (Event.device.inj heq).symm.trans event
    | @loaded vc₀ event alive₀ pushed first =>
      cases hs
      rcases hreader with ⟨r₀, hr₀, -⟩ | ⟨-, -, huser⟩
      · have hobs := h.linked.observing k r₀ vc₀ hr₀ alive₀
        rw [(h.tidy k vc₀ alive₀).unloaded first] at hobs
        cases hobs
      · exact h.linked.user.symm.trans huser
    | @moved vc₀ _ e' alive₀ inner elsewhere source =>
      cases hs
      rcases hreader with ⟨r₀, hr₀, huid⟩ | ⟨heq, -⟩
      · rw [huid, Device.step_observing inner]
        exact h.linked.observing k r₀ vc₀ hr₀ alive₀
      · exact absurd (Event.device.inj heq) elsewhere
    | gone => cases hs

theorem linked_allocated {s s' : World × Device} {e : Event} (h : Sound s)
    (hstep : machine.step s e = some s') {k : ObjectId}
    (attached : s'.1.readers ⟨0, .recents k⟩ ≠ none) : k ∈ s'.2.allocated := by
  have grows : ∀ k ∈ s.2.allocated, k ∈ s'.2.allocated := by
    cases e with
    | world e => rw [device_stays hstep]; exact fun _ hk => hk
    | device e =>
      rw [Device.allocated_act (Device.step_cases (device_step hstep)).2]
      exact fun _ hk => List.mem_append_right _ hk
  obtain ⟨r, hr⟩ := Option.ne_none_iff_exists'.mp attached
  cases he : inWorld e with
  | none =>
    rw [world_stays he hstep] at attached
    exact grows k (h.linked.allocated k attached)
  | some e' =>
    rcases World.readers_step (world_step he hstep) hr with ⟨r₀, hr₀, -⟩ | ⟨rfl, -, -⟩
    · exact grows k (h.linked.allocated k (by rw [hr₀]; exact nofun))
    · -- the view that loads belongs to a living screen
      obtain rfl := attaches he
      have halive : s.2.vcs k ≠ none := by
        obtain ⟨-, hact⟩ := Device.step_cases (device_step hstep)
        generalize s'.2 = d' at hact
        cases hact with
        | viewDidLoad alive => rw [alive]; exact nofun
        | rowMissing asks => cases asks
        | rowSignedOut asks => cases asks
        | row asks => cases asks
      exact grows k (h.made k halive)

theorem db_step {s s' : World × Device} {e : Event} (h : Sound s)
    (hstep : machine.step s e = some s') : s.1.db.Le s'.1.db := by
  cases he : inWorld e with
  | none => rw [world_stays he hstep]; exact .refl _
  | some e' => exact World.db_step h.consistent (world_step he hstep)

theorem linked_sourced {s s' : World × Device} {e : Event} (h : Sound s)
    (hstep : machine.step s e = some s') {k : ObjectId} {vc : RecentMessagesVC} {u v : Uid}
    {message : Message} (alive : s'.2.vcs k = some vc) (observes : vc.observing = some u)
    (found : vc.messagesDictionary.lookup v = some message) : Source s'.1.db u message := by
  have le := db_step h hstep
  cases e with
  | world e =>
    rw [device_stays hstep] at alive
    exact (h.linked.sourced k vc u alive observes v message found).mono le
  | device e =>
    obtain ⟨-, hact⟩ := Device.step_cases (device_step hstep)
    have hscreen := Device.screen_cases hact k
    rw [alive] at hscreen
    generalize hs : some vc = x at hscreen
    cases hscreen with
    | same => exact (h.linked.sourced k vc u hs.symm observes v message found).mono le
    | made =>
      cases hs
      rw [show RecentMessagesVC.new.messagesDictionary = ∅ from rfl, AList.lookup_empty] at found
      cases found
    | @loaded vc₀ event alive₀ pushed first =>
      cases hs
      have htidy := h.tidy k vc₀ alive₀
      change vc₀.messagesDictionary.lookup v = _ at found
      rw [htidy.empty (htidy.unloaded first), AList.lookup_empty] at found
      cases found
    | @moved vc₀ _ e' alive₀ inner elsewhere source =>
      cases hs
      have observes₀ : vc₀.observing = some u := (Device.step_observing inner).symm.trans observes
      rcases RecentMessagesVC.lookup_step inner found with hold | ⟨u', order, rfl⟩
      · exact (h.linked.sourced k vc₀ u alive₀ observes₀ v message hold).mono le
      · obtain ⟨-, -, v', m, info, rfl, rfl⟩ := source u' order message rfl
        obtain ⟨hentry, hstored⟩ := deliver_source h hstep alive₀ observes₀
        exact Source.mono ⟨v', m, info, _, hentry, hstored, rfl⟩ le
    | gone => cases hs

theorem linked_step {s s' : World × Device} {e : Event} (h : Sound s)
    (hstep : machine.step s e = some s') : Linked s' where
  user := user_step h.linked.user hstep
  observing _ _ _ := linked_observing h hstep
  allocated _ := linked_allocated h hstep
  sourced _ _ _ alive observes _ _ := linked_sourced h hstep alive observes

/-- The device's side of a run is a run of the device. -/
theorem device_run {restored : Option Uid} {s : World × Device} {es : List Event}
    (run : machine.run (initial restored) es = some s) :
    Device.machine.run (.initial restored) (deviceEvents es) = some s.2 :=
  Machine.sync_run_right run

/-- The world's side is a run of the world, which begins as Auth restores the user. -/
theorem world_run {restored : Option Uid} {s : World × Device} {es : List Event}
    (run : machine.run (initial restored) es = some s) :
    World.machine.run .initial (.auth 0 restored :: es.filterMap inWorld) = some s.1 :=
  Machine.run_cons_eq_some.mpr ⟨_, rfl, Machine.sync_run_left run⟩

theorem sound_of_linked {restored : Option Uid} {s : World × Device} {es : List Event}
    (run : machine.run (initial restored) es = some s) (linked : Linked s) : Sound s where
  consistent := World.consistent_run (world_run run)
  observed := World.observed_run (world_run run)
  tidy := Device.tidy_run (device_run run)
  made := Device.made_run (device_run run)
  linked := linked

theorem sound_run {restored : Option Uid} {s : World × Device} {es : List Event}
    (run : machine.run (initial restored) es = some s) : Sound s := by
  have start : Linked (initial restored) := ⟨rfl, nofun, fun _ h => absurd rfl h, nofun⟩
  have hlinked : Linked s := by
    refine @Machine.run_induction _ _ machine (initial restored) (fun _ s => Linked s) start ?_ _ _ run
    intro es e s s' hrun h hstep
    exact linked_step (sound_of_linked hrun h) hstep
  exact sound_of_linked run hlinked

/-- Read for an entry `user-messages/<u>/<v>`, a message is between `u` and `v`. -/
theorem Source.between {w : World} (hc : w.Consistent) {u : Uid} {message : Message}
    (h : Source w.db u message) :
    (message.fromId = u ∨ message.toId = u) ∧ ∃ m info user,
      (u, message.partnerOf u, m) ∈ w.db.userMessages ∧ w.db.messages m = some info ∧
        message = Message.ofSnapshot user info := by
  obtain ⟨v, m, info, user, hentry, hstored, rfl⟩ := h
  have hb := World.indexed_between hc hentry hstored
  refine ⟨?_, m, info, user, ?_, hstored, rfl⟩
  · rcases hb with ⟨hf, -⟩ | ⟨-, ht⟩
    · exact .inl hf
    · exact .inr ht
  · rw [Message.partnerOf_of_between hb]
    exact hentry

/-! ## The recents screen in its session -/

/-- **The recents screen represents its user's conversations.** While screen `k` is shown and
observes `u`: `u` is signed in; the array is the dictionary's values, newest first, one row for each
partner; a value stands under the partner `chatPartnerId()` answers, and was read for that partner's
entry of `u`'s index; each row the table expects is there and leads back to its key; and the next
message handed over for the entry `user-messages/<u>/<v>` is stored under `v`. -/
theorem recents_session {restored : Option Uid} {es : List Event} {s : World × Device}
    {k : ObjectId} {vc : RecentMessagesVC} {u : Uid}
    (run : machine.run (initial restored) es = some s) (shown : k ∈ s.2.login.navigationStack)
    (alive : s.2.vcs k = some vc) (observes : vc.observing = some u) :
    s.2.currentUser = some u ∧
    vc.messages.Perm (Dictionary.values vc.messagesDictionary) ∧
    (vc.messages.Pairwise fun a b => b.date ≤ a.date) ∧
    (vc.messages.map (Message.partnerOf u)).Nodup ∧
    vc.table.length ≤ vc.messages.length ∧
    (∀ v message, vc.messagesDictionary.lookup v = some message →
      message.chatPartnerId s.2.currentUser = some v ∧ ∃ m info user,
        (u, v, m) ∈ s.1.db.userMessages ∧ s.1.db.messages m = some info ∧
          message = Message.ofSnapshot user info) ∧
    (∀ row < vc.table.length, ∃ message v, vc.messages[row]? = some message ∧
      message.chatPartnerId s.2.currentUser = some v ∧
        vc.messagesDictionary.lookup v = some message) ∧
    ∀ v m order info s', machine.step s (.device (.deliver k v m order info)) = some s' →
      ∃ vc', s'.2.vcs k = some vc' ∧
        vc'.messagesDictionary.lookup v = some (Message.ofSnapshot (some u) info) := by
  have hsound := sound_run run
  obtain ⟨-, u', vc', huser, hvc', hobs, hrep⟩ :=
    (Device.inSession_run (device_run run)).session k shown
  cases alive.symm.trans hvc'
  obtain rfl := hobs u observes
  have hpartner : ∀ message : Message,
      message.chatPartnerId s.2.currentUser = some (message.partnerOf u) := by
    intro message
    rw [huser]
    rfl
  refine ⟨huser, hrep.perm, hrep.sorted, hrep.one, hrep.table, ?_, ?_, ?_⟩
  · intro v message hv
    have hkey := hrep.keyed v message hv
    have hsource := hsound.linked.sourced k vc u alive observes v message hv
    rw [hpartner, hkey]
    exact ⟨rfl, hkey ▸ (hsource.between hsound.consistent).2⟩
  · intro row hrow
    have hlt : row < vc.messages.length := Nat.lt_of_lt_of_le hrow hrep.table
    exact ⟨vc.messages[row], _, List.getElem?_eq_getElem hlt, hpartner _,
      hrep.mem_iff.mp (List.getElem_mem hlt)⟩
  · intro v m order info s' hstep
    obtain ⟨hentry, hstored⟩ := deliver_source hsound hstep alive observes
    have hb := World.indexed_between hsound.consistent hentry hstored
    obtain ⟨-, hact⟩ := Device.step_cases (device_step hstep)
    generalize s'.2 = d' at hact
    cases hact with
    | deliverReleased gone => rw [alive] at gone; cases gone
    | deliverSignedOut _ _ signedOut => rw [huser] at signedOut; cases signedOut
    | @deliver _ _ _ _ _ u' vc' alive' attached signedIn =>
      cases alive.symm.trans alive'
      cases huser.symm.trans signedIn
      refine ⟨_, Function.update_self .., ?_⟩
      show (vc.messagesDictionary.insert _ _).lookup v = _
      rw [Message.partnerOf_of_between hb, AList.lookup_insert]
    | rowMissing asks => cases asks
    | rowSignedOut asks => cases asks
    | row asks => cases asks

/-- Dave then writes to her too, on another client, and the table is reloaded. -/
def daveFollows : List Event :=
  aliceReads ++ [.world ⟨.auth 2 (some "dave"), rfl⟩, .world ⟨.send 2 "n" "alice" 2 "hello", rfl⟩,
    .world ⟨.settle "n" .childRef true, rfl⟩, .world ⟨.completion "n", rfl⟩,
    .world ⟨.settle "n" .recipientUserMessagesRef true, rfl⟩,
    .world ⟨.partnerAdded ⟨0, .recents 10⟩ "dave", rfl⟩,
    .world ⟨.childAdded ⟨0, .recents 10⟩ "dave" "n", rfl⟩,
    .world ⟨.serve ⟨0, .recents 10⟩ "dave" "n", rfl⟩,
    .device (.deliver 10 "dave" "n" (.stored Message) ⟨"alice", "dave", 2, "hello"⟩),
    .device (.screen 10 .timerFired), .device (.screen 10 .reload)]

theorem recents_session_daveFollows : ∃ s vc, machine.run (initial none) daveFollows = some s ∧
    s.2.vcs 10 = some vc ∧ vc.messages.map (Message.partnerOf "alice") = ["dave", "bob"] ∧
    (vc.messages.Pairwise fun a b => b.date ≤ a.date) ∧
    (vc.messages.map (Message.partnerOf "alice")).Nodup ∧
    ∀ row < 2, ∃ message v, vc.messages[row]? = some message ∧
      message.chatPartnerId s.2.currentUser = some v ∧
        vc.messagesDictionary.lookup v = some message := by
  obtain ⟨-, -, hsorted, hone, -, -, hrows, -⟩ :=
    @recents_session none daveFollows _ 10 _ "alice" rfl (by decide) rfl rfl
  exact ⟨_, _, rfl, rfl, rfl, hsorted, hone, hrows⟩

end System

end AniChat
