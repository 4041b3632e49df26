import AniChat.App.Conversations
import AniChat.Cell.ContactMessageCell
import AniChat.Laws.Client.Delivery
import AniChat.Laws.Client.Snapshots
import AniChat.Laws.Controller.Refresh

/-!
# What a conversation shows

The screens of all clients against the world's observers: a screen's array is what its observer has
handed on, in that order (`Follows`).

## What is proved

- `transcript_exact`: a conversation only ever shows stored messages between its two users, none of
  them twice, whatever the server rejects; and when nothing is in flight and every write was
  accepted it shows exactly those that its user's index has, which are those that were sent.
- `mirrored`: then the two parties see the same messages, each on one party's right and on the
  other's left.
-/

namespace AniChat

open Automata Collections

/-! ## The screen's own steps -/

namespace ContactInboxVC

theorem read_observing (vc : ContactInboxVC) (m : MessageId) (value : Option MessageInfo) :
    (vc.read m value).observing = vc.observing := by
  cases value with
  | none => rfl
  | some info => rfl

theorem read_user (vc : ContactInboxVC) (m : MessageId) (value : Option MessageInfo) :
    (vc.read m value).user = vc.user := by
  cases value with
  | none => rfl
  | some info => rfl

theorem handleSend_observing (vc : ContactInboxVC) : vc.handleSend.observing = vc.observing := by
  unfold handleSend send
  split
  · rfl
  · split <;> rfl

theorem handleSend_user (vc : ContactInboxVC) : vc.handleSend.user = vc.user := by
  unfold handleSend send
  split
  · rfl
  · split <;> rfl

/-- A screen opened from a profile has that user as its contact. -/
theorem opened_user (urls : Urls) (uid : Uid) (name email : String) (avatarUrl : Option AvatarUrl)
    (currentUser : Option Uid) :
    (opened (.ofFields urls uid name email avatarUrl) currentUser).user =
      some (.ofFields urls uid name email avatarUrl) := by
  cases currentUser with
  | none => rfl
  | some u => rfl

/-- A screen opened from a profile observes its conversation with that user, for whoever is signed
in. -/
theorem opened_observing (urls : Urls) (uid : Uid) (name email : String)
    (avatarUrl : Option AvatarUrl) (currentUser : Option Uid) :
    (opened (.ofFields urls uid name email avatarUrl) currentUser).observing =
      currentUser.map fun u => (u, uid) := by
  cases currentUser with
  | none => rfl
  | some u => rfl

end ContactInboxVC

/-! ## What one event does -/

/-- The observer an event works on. -/
def World.Event.reader? : World.Event → Option ReaderId
  | .messagesForUserObserver c vc => some ⟨c, .recents vc⟩
  | .observeMessages c vc _ => some ⟨c, .inbox vc⟩
  | .release id => some id
  | .partnerAdded id _ => some id
  | .childAdded id _ _ => some id
  | .serve id _ _ => some id
  | .read id _ _ _ => some id
  | _ => none

/-- The call of `send` an event works on. -/
def World.Event.send? : World.Event → Option MessageId
  | .send _ m _ _ _ => some m
  | .settle m _ _ => some m
  | .completion m => some m
  | _ => none

namespace World

/-- An event leaves every call it does not work on. -/
theorem sends_untouched {w w' : World} {e : Event} (hstep : machine.step w e = some w')
    {m : MessageId} (other : e.send? ≠ some m) : w'.sends m = w.sends m := by
  have elsewhere : ∀ {m' : MessageId} {s : SendCall}, some m' ≠ some m →
      Function.update w.sends m' (some s) m = w.sends m := fun hne =>
    Function.update_of_ne (fun he => hne (congrArg some he.symm)) ..
  cases step_cases hstep with
  | send => exact elsewhere other
  | settle => exact elsewhere other
  | completion => exact elsewhere other
  | _ => rfl

theorem sends_untouched_run {w w' : World} {es : List Event} {m : MessageId}
    (run : machine.run w es = some w') (other : ∀ e ∈ es, e.send? ≠ some m) :
    w'.sends m = w.sends m :=
  Machine.run_invariant_of (P := fun t => t.sends m = w.sends m)
    (fun _ _ _ other same step => (sends_untouched step other).trans same) other rfl run

/-- An event leaves every observer it does not work on. -/
theorem readers_untouched {w w' : World} {e : Event} (hstep : machine.step w e = some w')
    {rid : ReaderId} (other : e.reader? ≠ some rid) : w'.readers rid = w.readers rid := by
  have elsewhere : ∀ {rid' : ReaderId} {r : Reader}, some rid' ≠ some rid →
      (w.setReader rid' r).readers rid = w.readers rid := fun hne =>
    Function.update_of_ne (fun he => hne (congrArg some he.symm)) ..
  cases step_cases hstep with
  | messagesForUserObserver => exact elsewhere other
  | observeMessages => exact elsewhere other
  | release => exact elsewhere other
  | partnerAdded => exact elsewhere other
  | childAdded => exact elsewhere other
  | serve => exact elsewhere other
  | read => exact elsewhere other
  | _ => rfl

/-- So does a run of events none of which works on it. -/
theorem readers_untouched_run {w w' : World} {es : List Event} {rid : ReaderId}
    (run : machine.run w es = some w') (other : ∀ e ∈ es, e.reader? ≠ some rid) :
    w'.readers rid = w.readers rid :=
  Machine.run_invariant_of (P := fun t => t.readers rid = w.readers rid)
    (fun _ _ _ other same step => (readers_untouched step other).trans same) other rfl run

/-- An event that is not of a conversation screen works on no observer of one. -/
theorem reader?_foreign {e : Event} (foreign : e.OfInbox = false) (id : InboxId) :
    e.reader? ≠ some id.reader := by
  intro he
  cases e with
  | messagesForUserObserver => cases he
  | observeMessages => cases foreign
  | release => cases he; cases foreign
  | partnerAdded => cases he; cases foreign
  | childAdded => cases he; cases foreign
  | serve => cases he; cases foreign
  | read => cases he; cases foreign
  | _ => cases he

/-- An observer that is attached is new. -/
theorem attach_new {w w' : World} {c : ClientId} {owner : Owner} {partners : List Uid}
    (h : w.attach c owner partners = some w') : w.readers ⟨c, owner⟩ = none := by
  unfold attach at h
  split at h
  · cases h
  · next hr _ => exact hr
  · next hr _ => exact hr

end World

/-- What was handed on is stored. -/
theorem Reader.Sound.delivered_stored {db : Database} {owner : Owner} {r : Reader}
    (h : r.Sound db owner) {e : Uid × MessageId} (delivered : e ∈ r.delivered) :
    ∃ info, db.messages e.2 = some info ∧ r.reads e = .finished (some info) := by
  have hcount : 0 < r.delivered.count e := List.count_pos_iff.mpr delivered
  rw [h.once e] at hcount
  cases hr : r.reads e with
  | finished value =>
    cases value with
    | some info => exact ⟨info, h.found e.1 e.2 info (by rw [hr]; rfl), rfl⟩
    | none => rw [hr] at hcount; cases hcount
  | _ => rw [hr] at hcount; cases hcount

namespace ContactInboxVC

/-- A transcript of stored messages stands when more is stored. -/
theorem transcript_mono {db db' : Database} (le : db.Le db') {ids : List MessageId}
    (stored : ∀ m ∈ ids, ∃ info, db.messages m = some info) :
    transcript db'.messages ids = transcript db.messages ids := by
  refine List.filterMap_congr fun m hm => ?_
  obtain ⟨info, hinfo⟩ := stored m hm
  rw [hinfo, le.messages m info hinfo]

end ContactInboxVC

namespace Conversations

open ContactInboxVC (transcript transcript_append transcript_mono)

variable {urls : Urls}

/-- A step is one of the world, or one of a screen with what it does to the world. -/
theorem step_cases {s s' : World × (InboxId → Option ContactInboxVC)} {e : Event}
    (h : (machine urls).step s e = some s') :
    (∃ e', e = .world e' ∧ World.machine.step s.1 e' = some s'.1 ∧ s'.2 = s.2) ∨
      ∃ id e' x, e = .inbox id e' ∧ Agrees s e ∧
        World.machine.run s.1 (Inboxes.inWorld id e').toList = some s'.1 ∧
        Inboxes.act urls (s.2 id) e' = some x ∧ s'.2 = Function.update s.2 id x := by
  obtain ⟨hagrees, hsync⟩ := Machine.restrict_step_eq_some.mp h
  obtain ⟨hleft, hright⟩ := Machine.sync_step_eq_some.mp hsync
  cases e with
  | world e' =>
    obtain ⟨w, hw, hnil⟩ := Machine.run_cons_eq_some.mp hleft
    exact .inl ⟨e', rfl, hw.trans hnil, (Option.some.inj hright).symm⟩
  | inbox id e' =>
    obtain ⟨vcs, hvcs, hnil⟩ := Machine.run_cons_eq_some.mp hright
    obtain ⟨x, hx, hupdate⟩ := Option.map_eq_some_iff.mp (hvcs.trans hnil)
    exact .inr ⟨id, e', x, rfl, hagrees, hleft, hx, hupdate.symm⟩

/-- The world of a run has a run of its own. -/
theorem world_run {s : World × (InboxId → Option ContactInboxVC)} {es : List Event}
    (run : (machine urls).run initial es = some s) :
    World.machine.run .initial (es.filterMap inWorld) = some s.1 :=
  Machine.sync_run_left (Machine.restrict_run run)

/-! ## A screen and its observer -/

/-- The observer of a screen that shows the conversation of `u` with `v`: the screen's array is what
it has handed on. -/
structure Follows (db : Database) (r : Reader) (vc : ContactInboxVC) (u v : Uid) : Prop where
  uid : r.uid = u
  partners : r.partners = [v]
  alive : r.alive = true
  seen : ∀ v' m, r.reads (v', m) ≠ .unseen → v' = v
  messages : vc.messages = transcript db.messages (r.delivered.map Prod.snd)

/-- A living screen shows what its observer handed on, or was opened with nobody signed in and shows
nothing. -/
structure LinkedAt (w : World) (id : InboxId) (vc : ContactInboxVC) : Prop where
  attached : ∀ u v, vc.observing = some (u, v) →
    ∃ r, w.readers id.reader = some r ∧ Follows w.db r vc u v
  unattached : vc.observing = none → w.readers id.reader = none
  refreshed : vc.Refreshed

/-- All living screens do. -/
def Linked (s : World × (InboxId → Option ContactInboxVC)) : Prop :=
  ∀ id vc, s.2 id = some vc → LinkedAt s.1 id vc

/-- A step that leaves the observer of a screen leaves what the screen shows of it. -/
theorem LinkedAt.mono {w w' : World} {id : InboxId} {vc : ContactInboxVC} (h : LinkedAt w id vc)
    (observed : w.Observed) (le : w.db.Le w'.db)
    (same : w'.readers id.reader = w.readers id.reader) : LinkedAt w' id vc := by
  refine ⟨fun u v hobs => ?_, fun hobs => same.trans (h.unattached hobs), h.refreshed⟩
  obtain ⟨r, hr, hf⟩ := h.attached u v hobs
  refine ⟨r, same.trans hr, hf.uid, hf.partners, hf.alive, hf.seen, ?_⟩
  rw [transcript_mono le fun m hm => ?_]
  · exact hf.messages
  · obtain ⟨e, he, rfl⟩ := List.mem_map.mp hm
    obtain ⟨info, hinfo, -⟩ := (observed _ r hr).delivered_stored he
    exact ⟨info, hinfo⟩

/-! ## One step -/

/-- What one event can do to a screen. -/
inductive Act (urls : Urls) : Option ContactInboxVC → Inboxes.Event → Option ContactInboxVC → Prop where
  | opened (uid : Uid) (name email : String) (avatarUrl : Option AvatarUrl)
      (currentUser : Option Uid) :
      Act urls none (.opened uid name email avatarUrl currentUser)
        (some (.opened (.ofFields urls uid name email avatarUrl) currentUser))
  | dropped (v : Uid) (m : MessageId) : Act urls none (.childAdded v m) none
  | childAdded (vc : ContactInboxVC) (v : Uid) (m : MessageId) :
      Act urls (some vc) (.childAdded v m) (some (vc.childAdded m))
  | serve (x : Option ContactInboxVC) (v : Uid) (m : MessageId) : Act urls x (.serve v m) x
  | read {vc : ContactInboxVC} {v : Uid} {m : MessageId} {value : Option MessageInfo}
      (out : m ∈ vc.requested) : Act urls (some vc) (.read v m value) (some (vc.read m value))
  | reload {vc : ContactInboxVC} (queued : vc.reloads ≠ 0) :
      Act urls (some vc) .reload (some vc.reloadData)
  | layout (vc : ContactInboxVC) : Act urls (some vc) .layout (some vc.layout)
  | edit (vc : ContactInboxVC) (text : Option String) :
      Act urls (some vc) (.edit text) (some (vc.edit text))
  | handleSend {vc : ContactInboxVC} {m : MessageId} {date : Date} {sending : Option (Uid × String)}
      (sends : vc.sending = sending) :
      Act urls (some vc) (.handleSend m date sending) (some vc.handleSend)
  | release {vc : ContactInboxVC} {attached : Bool} (idle : vc.requested = [] ∧ vc.reloads = 0)
      (observes : attached = vc.observing.isSome) : Act urls (some vc) (.release attached) none

theorem act_cases {x x' : Option ContactInboxVC} {e : Inboxes.Event}
    (h : Inboxes.act urls x e = some x') : Act urls x e x' := by
  cases x with
  | none =>
    cases e with
    | opened => cases h; exact .opened ..
    | childAdded => cases h; exact .dropped ..
    | serve => cases h; exact .serve ..
    | _ => cases h
  | some vc =>
    cases e with
    | opened => cases h
    | childAdded => cases h; exact .childAdded ..
    | serve => cases h; exact .serve ..
    | read v m value =>
      obtain ⟨vc', hvc', rfl⟩ := Option.map_eq_some_iff.mp h
      cases ContactInboxVC.step_cases hvc' with
      | read _ _ out => exact .read out
    | reload =>
      obtain ⟨vc', hvc', rfl⟩ := Option.map_eq_some_iff.mp h
      cases ContactInboxVC.step_cases hvc' with
      | reload queued => exact .reload queued
    | layout => cases h; exact .layout _
    | edit => cases h; exact .edit ..
    | handleSend m date sending =>
      obtain ⟨hsends, h⟩ := Option.ite_none_right_eq_some.mp h
      cases h
      exact .handleSend hsends
    | release attached =>
      obtain ⟨hidle, h⟩ := Option.ite_none_right_eq_some.mp h
      cases h
      exact .release ⟨hidle.1, hidle.2.1⟩ hidle.2.2

/-- A screen that shows what it showed keeps its observer. -/
theorem LinkedAt.same {w w' : World} {id : InboxId} {vc vc' : ContactInboxVC} (h : LinkedAt w id vc)
    (db : w'.db = w.db) (readers : w'.readers id.reader = w.readers id.reader)
    (observing : vc'.observing = vc.observing) (messages : vc'.messages = vc.messages)
    (refreshed : vc'.Refreshed) : LinkedAt w' id vc' := by
  refine ⟨fun u v hobs => ?_, fun hobs => readers.trans (h.unattached (observing.symm.trans hobs)),
    refreshed⟩
  obtain ⟨r, hr, hf⟩ := h.attached u v (observing.symm.trans hobs)
  refine ⟨r, readers.trans hr, hf.uid, hf.partners, hf.alive, hf.seen, ?_⟩
  rw [messages, db]
  exact hf.messages

/-- Moving one read of a screen's observer forward. -/
theorem Follows.update {db : Database} {r : Reader} {vc vc' : ContactInboxVC} {u v : Uid}
    (h : Follows db r vc u v) {m : MessageId} {x : Read} {delivered : List (Uid × MessageId)}
    (messages : vc'.messages = transcript db.messages (delivered.map Prod.snd)) :
    Follows db { r with reads := Function.update r.reads (v, m) x, delivered := delivered } vc' u v where
  uid := h.uid
  partners := h.partners
  alive := h.alive
  seen v' m' hne := by
    by_cases he : (v', m') = (v, m)
    · exact congrArg Prod.fst he
    · exact h.seen v' m' (by simpa only [Function.update_of_ne he] using hne)
  messages := messages

/-- A screen is opened, and its observer attached for whoever is signed in. -/
theorem linked_opened {w w' : World} {id : InboxId} {uid : Uid} {name email : String}
    {avatarUrl : Option AvatarUrl}
    (hstep : World.machine.step w (.observeMessages id.client id.vc uid) = some w') :
    LinkedAt w' id
      (.opened (.ofFields urls uid name email avatarUrl) (w.currentUser id.client)) := by
  have hnew : w.readers id.reader = none := World.attach_new hstep
  have hobs := ContactInboxVC.opened_observing urls uid name email avatarUrl (w.currentUser id.client)
  have hempty := ContactInboxVC.opened_messages (.ofFields urls uid name email avatarUrl)
    (w.currentUser id.client)
  have hrefreshed := ContactInboxVC.refreshed_opened (.ofFields urls uid name email avatarUrl)
    (w.currentUser id.client)
  generalize ContactInboxVC.opened (.ofFields urls uid name email avatarUrl)
    (w.currentUser id.client) = vc at hobs hempty hrefreshed ⊢
  cases World.step_cases hstep with
  | observeMessagesSignedOut signedOut =>
    rw [signedOut] at hobs
    refine ⟨fun u v h => ?_, fun _ => hnew, hrefreshed⟩
    rw [hobs] at h
    cases h
  | @observeMessages c vc toId u signedIn new =>
    rw [signedIn] at hobs
    refine ⟨fun u' v h => ?_, fun h => ?_, hrefreshed⟩
    · rw [hobs] at h
      cases h
      refine ⟨.attached u [uid], Function.update_self .., rfl, rfl, rfl, ?_, hempty⟩
      exact fun _ _ hne => absurd rfl hne
    · rw [hobs] at h
      cases h

/-- The observer of a living screen that an event works on. -/
theorem LinkedAt.reader {w : World} {id : InboxId} {vc : ContactInboxVC} (h : LinkedAt w id vc)
    {r : Reader} (reader : w.readers id.reader = some r) :
    ∃ u v, vc.observing = some (u, v) ∧ Follows w.db r vc u v := by
  cases hobs : vc.observing with
  | none =>
    rw [h.unattached hobs] at reader
    cases reader
  | some path =>
    obtain ⟨u, v⟩ := path
    obtain ⟨r', hr', hf⟩ := h.attached u v hobs
    cases reader.symm.trans hr'
    exact ⟨u, v, rfl, hf⟩

theorem linked_childAdded {w w' : World} {id : InboxId} {vc : ContactInboxVC} {v : Uid}
    {m : MessageId} (h : LinkedAt w id vc)
    (hstep : World.machine.step w (.childAdded id.reader v m) = some w') :
    LinkedAt w' id (vc.childAdded m) := by
  cases World.step_cases hstep with
  | @childAdded _ r _ _ reader nested child first =>
    obtain ⟨u, v', hobs, hf⟩ := h.reader reader
    have hv : v = v' := by
      rw [hf.partners] at nested
      exact List.mem_singleton.mp nested
    subst hv
    refine ⟨fun u' v' hobs' => ?_, fun hnone => ?_, h.refreshed⟩
    · cases hobs.symm.trans hobs'
      refine ⟨_, Function.update_self .., ?_⟩
      exact hf.update hf.messages
    · cases hobs.symm.trans hnone

theorem linked_serve {w w' : World} {id : InboxId} {vc : ContactInboxVC} {v : Uid}
    {m : MessageId} (h : LinkedAt w id vc)
    (hstep : World.machine.step w (.serve id.reader v m) = some w') : LinkedAt w' id vc := by
  cases World.step_cases hstep with
  | @serve _ r _ _ reader out =>
    obtain ⟨u, v', hobs, hf⟩ := h.reader reader
    have hv : v = v' := hf.seen v m (by rw [out]; exact nofun)
    subst hv
    refine ⟨fun u' v' hobs' => ?_, fun hnone => ?_, h.refreshed⟩
    · cases hobs.symm.trans hobs'
      exact ⟨_, Function.update_self .., hf.update hf.messages⟩
    · cases hobs.symm.trans hnone

/-- The closure of a read appends to the screen what it hands on. -/
theorem linked_read {w w' : World} {id : InboxId} {vc : ContactInboxVC} {v : Uid} {m : MessageId}
    {value : Option MessageInfo} (observed : w.Observed) (h : LinkedAt w id vc)
    (out : m ∈ vc.requested)
    (hstep : World.machine.step w (.read id.reader v m value) = some w') :
    LinkedAt w' id (vc.read m value) := by
  have hrefreshed : (vc.read m value).Refreshed :=
    ContactInboxVC.refreshed_step h.refreshed (e := .read m value) (if_pos out)
  have hobserving := ContactInboxVC.read_observing vc m value
  cases World.step_cases hstep with
  | @read _ r _ _ _ reader served =>
    obtain ⟨u, v', hobs, hf⟩ := h.reader reader
    have hv : v = v' := hf.seen v m (by rw [served]; exact nofun)
    subst hv
    refine ⟨fun u' v' hobs' => ?_, fun hnone => ?_, hrefreshed⟩
    · cases hobs.symm.trans (hobserving.symm.trans hobs')
      refine ⟨_, Function.update_self .., hf.update ?_⟩
      rw [ContactInboxVC.read_messages, hf.messages]
      cases value with
      | none => exact List.append_nil _
      | some info =>
        have hinfo : w.db.messages m = some info :=
          (observed _ r reader).found v m info (by rw [served]; rfl)
        show _ = transcript w.db.messages ((r.delivered ++ [(v, m)]).map Prod.snd)
        rw [List.map_append, List.map_singleton, transcript_append, hinfo]
    · cases hobs.symm.trans (hobserving.symm.trans hnone)

/-- What the world does for an event of a screen, one step at most. -/
theorem inbox_world {w w' : World} {id : InboxId} {e : Inboxes.Event}
    (hrun : World.machine.run w (Inboxes.inWorld id e).toList = some w') :
    (Inboxes.inWorld id e = none ∧ w' = w) ∨
      ∃ e', Inboxes.inWorld id e = some e' ∧ World.machine.step w e' = some w' := by
  cases he : Inboxes.inWorld id e with
  | none =>
    rw [he] at hrun
    exact .inl ⟨rfl, (Option.some.inj hrun).symm⟩
  | some e' =>
    rw [he] at hrun
    obtain ⟨t, ht, hnil⟩ := Machine.run_cons_eq_some.mp hrun
    exact .inr ⟨e', rfl, ht.trans hnil⟩

/-- An event of one screen works on the observer of no other. -/
theorem inWorld_reader? {id id' : InboxId} {e : Inboxes.Event} {e' : World.Event}
    (he : Inboxes.inWorld id e = some e') (other : id' ≠ id) : e'.reader? ≠ some id'.reader := by
  have hreader : id.reader ≠ id'.reader := by
    intro h
    obtain ⟨c, vc⟩ := id
    obtain ⟨c', vc'⟩ := id'
    cases h
    exact other rfl
  have hsome : some id.reader ≠ some id'.reader := fun h => hreader (Option.some.inj h)
  unfold Inboxes.inWorld at he
  split at he
  · cases he; exact hsome
  · cases he; exact hsome
  · cases he; exact hsome
  · cases he; exact hsome
  · cases he; exact nofun
  · cases he; exact hsome
  · cases he

/-- What an event of a screen leaves of it is linked. -/
theorem linked_act {w w' : World} {id : InboxId} {e : Inboxes.Event}
    {x : Option ContactInboxVC} {vc' : ContactInboxVC} (observed : w.Observed)
    (h : ∀ vc, x = some vc → LinkedAt w id vc)
    (signedIn : ∀ uid name email avatarUrl user, e = .opened uid name email avatarUrl user →
      user = w.currentUser id.client)
    (hrun : World.machine.run w (Inboxes.inWorld id e).toList = some w')
    (hact : Act urls x e (some vc')) : LinkedAt w' id vc' := by
  generalize hx : some vc' = x' at hact
  -- the world steps with the events it sees, and stays with the others
  have hstep : ∀ e', Inboxes.inWorld id e = some e' → World.machine.step w e' = some w' := by
    intro e' he'
    rcases inbox_world hrun with ⟨hnone, -⟩ | ⟨e'', he'', hstep⟩
    · cases hnone.symm.trans he'
    · cases he''.symm.trans he'
      exact hstep
  have hstays : Inboxes.inWorld id e = none → w' = w := by
    intro hnone
    rcases inbox_world hrun with ⟨-, hw⟩ | ⟨e', he', -⟩
    · exact hw
    · cases hnone.symm.trans he'
  cases hact with
  | opened uid name email avatarUrl user =>
    cases hx
    rw [signedIn uid name email avatarUrl user rfl]
    exact linked_opened (hstep _ rfl)
  | dropped => cases hx
  | childAdded vc v m => cases hx; exact linked_childAdded (h vc rfl) (hstep _ rfl)
  | serve _ v m => exact linked_serve (h vc' hx.symm) (hstep _ rfl)
  | @read vc v m value out => cases hx; exact linked_read observed (h vc rfl) out (hstep _ rfl)
  | @reload vc queued =>
    cases hx
    rw [hstays rfl]
    exact (h vc rfl).same rfl rfl rfl rfl (.inl rfl)
  | layout vc =>
    cases hx
    rw [hstays rfl]
    exact (h vc rfl).same rfl rfl rfl rfl (.inl rfl)
  | edit vc text =>
    cases hx
    rw [hstays rfl]
    exact (h vc rfl).same rfl rfl rfl rfl (h vc rfl).refreshed
  | @handleSend vc m date sending sends =>
    cases hx
    have hscreen : ∀ w'', w''.db = w.db → w''.readers = w.readers → LinkedAt w'' id vc.handleSend :=
      fun w'' db readers => (h vc rfl).same db (congrFun readers _)
        (ContactInboxVC.handleSend_observing vc) (ContactInboxVC.handleSend_messages vc)
        (ContactInboxVC.refreshed_handleSend (h vc rfl).refreshed)
    cases sending with
    | none => rw [hstays rfl]; exact hscreen w rfl rfl
    | some sending =>
      have hsend := hstep _ rfl
      cases World.step_cases hsend with
      | sendSignedOut => exact hscreen _ rfl rfl
      | send => exact hscreen _ rfl rfl
  | release => cases hx

/-- The world and the screens in step. -/
structure Sound (s : World × (InboxId → Option ContactInboxVC)) : Prop where
  consistent : s.1.Consistent
  observed : s.1.Observed
  linked : Linked s

theorem sound_step {s s' : World × (InboxId → Option ContactInboxVC)} {e : Event} (h : Sound s)
    (hstep : (machine urls).step s e = some s') : Sound s' := by
  rcases step_cases hstep with ⟨e', rfl, hworld, hvcs⟩ | ⟨id, e', x, rfl, hagrees, hrun, hact, hvcs⟩
  · have le := World.db_step h.consistent hworld
    refine ⟨World.consistent_step h.consistent hworld,
      World.observed_step h.consistent h.observed hworld, fun id vc hvc => ?_⟩
    rw [hvcs] at hvc
    exact (h.linked id vc hvc).mono h.observed le
      (World.readers_untouched hworld (World.reader?_foreign e'.2 id))
  · have hworld : s'.1.Consistent ∧ s'.1.Observed ∧ s.1.db.Le s'.1.db := by
      rcases inbox_world hrun with ⟨-, hw⟩ | ⟨we, -, hwe⟩
      · rw [hw]
        exact ⟨h.consistent, h.observed, .refl _⟩
      · exact ⟨World.consistent_step h.consistent hwe,
          World.observed_step h.consistent h.observed hwe, World.db_step h.consistent hwe⟩
    refine ⟨hworld.1, hworld.2.1, fun id' vc hvc => ?_⟩
    rw [hvcs, Function.update_apply] at hvc
    split at hvc
    · next hid =>
      subst hid hvc
      refine linked_act h.observed (h.linked id') ?_ hrun (act_cases hact)
      rintro uid name email avatarUrl user rfl
      exact hagrees
    · next hid =>
      have same : s'.1.readers id'.reader = s.1.readers id'.reader := by
        rcases inbox_world hrun with ⟨-, hw⟩ | ⟨we, he, hwe⟩
        · rw [hw]
        · exact World.readers_untouched hwe (inWorld_reader? he hid)
      exact (h.linked id' vc hvc).mono h.observed hworld.2.2 same

theorem sound_run {s : World × (InboxId → Option ContactInboxVC)} {es : List Event}
    (run : (machine urls).run initial es = some s) : Sound s :=
  Machine.run_invariant (fun _ _ _ => sound_step)
    ⟨World.consistent_initial, World.observed_initial, fun _ _ hvc => by cases hvc⟩ run

/-! ## What a screen shows -/

/-- What an observer of one conversation has handed on: entries of that conversation, each once. -/
theorem Follows.delivered {db : Database} {owner : Owner} {r : Reader} {vc : ContactInboxVC}
    {u v : Uid} (h : Follows db r vc u v) (sound : r.Sound db owner) :
    (r.delivered.map Prod.snd).Nodup ∧ ∀ m, m ∈ r.delivered.map Prod.snd ↔ (v, m) ∈ r.delivered := by
  have hpartner : ∀ e ∈ r.delivered, e.1 = v := by
    rintro ⟨v', m⟩ he
    obtain ⟨info, -, hfinished⟩ := sound.delivered_stored he
    exact h.seen v' m (by rw [hfinished]; exact nofun)
  have hnodup : r.delivered.Nodup := by
    refine List.nodup_iff_count_le_one.mpr fun e => ?_
    rw [sound.once e]
    split
    · exact Nat.le_refl 1
    · exact Nat.zero_le 1
  refine ⟨(List.nodup_map_iff_inj_on hnodup).mpr fun a ha b hb hab => ?_, fun m => ⟨fun hm => ?_,
    fun hm => List.mem_map.mpr ⟨_, hm, rfl⟩⟩⟩
  · exact Prod.ext ((hpartner a ha).trans (hpartner b hb).symm) hab
  · obtain ⟨⟨v', m'⟩, he, rfl⟩ := List.mem_map.mp hm
    cases hpartner _ he
    exact he

/-- The event rejects no write. -/
def Accepts (e : Event) : Prop := ∀ e', inWorld e = some e' → e'.Accepts

theorem accepted_run {s : World × (InboxId → Option ContactInboxVC)} {es : List Event}
    (run : (machine urls).run initial es = some s) (accepts : ∀ e ∈ es, Accepts e) :
    s.1.Accepted := by
  refine World.accepted_run (world_run run) fun e' he' => ?_
  obtain ⟨e, he, hworld⟩ := List.mem_filterMap.mp he'
  exact accepts e he e' hworld

/-- A message on a screen is a stored message between the two users of its conversation. -/
theorem Sound.between {s : World × (InboxId → Option ContactInboxVC)} (h : Sound s) {id : InboxId}
    {vc : ContactInboxVC} {u v : Uid} (alive : s.2 id = some vc)
    (observes : vc.observing = some (u, v)) {message : Message} (shown : message ∈ vc.messages) :
    ∃ m info, s.1.db.messages m = some info ∧ info.Between u v ∧
      message = Message.ofInboxSnapshot info := by
  obtain ⟨r, hr, hf⟩ := (h.linked id vc alive).attached u v observes
  have hreader := h.observed _ r hr
  rw [hf.messages] at shown
  obtain ⟨m, hm, hinfo⟩ := List.mem_filterMap.mp shown
  obtain ⟨info, hstored, hfinished⟩ :=
    hreader.delivered_stored (((hf.delivered hreader).2 m).mp hm)
  have hentry : (u, v, m) ∈ s.1.db.userMessages :=
    hf.uid ▸ hreader.seen v m (by rw [hfinished]; exact nofun)
  rw [hstored] at hinfo
  exact ⟨m, info, hstored, World.indexed_between h.consistent hentry hstored,
    (Option.some.inj hinfo).symm⟩

/-- Between two settled parties, what a screen's observer has handed on is what is stored between
them. -/
theorem handed_on {s : World × (InboxId → Option ContactInboxVC)} {es : List Event} {id : InboxId}
    {vc : ContactInboxVC} {u v : Uid} {r : Reader} (run : (machine urls).run initial es = some s)
    (accepts : ∀ e ∈ es, Accepts e) (quiet : s.1.Quiet) (reader : s.1.readers id.reader = some r)
    (follows : Follows s.1.db r vc u v) (m : MessageId) :
    m ∈ r.delivered.map Prod.snd ↔ ∃ info, s.1.db.messages m = some info ∧ info.Between u v := by
  have haccepted := accepted_run run accepts
  have hreader := haccepted.observed _ r reader
  have hwatches : r.Watches id.reader.owner v :=
    ⟨follows.partners ▸ List.mem_singleton_self v, follows.alive⟩
  have hcount := quiet.delivered haccepted.observed haccepted.found reader hwatches m
  rw [(follows.delivered hreader).2 m, ← List.count_pos_iff, hcount,
    ← quiet.entries haccepted.consistent haccepted.unrejected u v m, ← follows.uid]
  split
  · next hentry => exact iff_of_true Nat.one_pos hentry
  · next hentry => exact iff_of_false (Nat.lt_irrefl 0) hentry

/-- **A conversation shows its messages and no others.** In every run, whatever the server rejects,
the array of a screen of `u` with `v` is a transcript of stored messages between the two, none of
them twice, and the collection view shows it once the dispatched reloads have run. When every write
was accepted and nothing is in flight, these are exactly the messages that `u`'s index has under `v`,
and exactly those that were sent between the two. -/
theorem transcript_exact {s : World × (InboxId → Option ContactInboxVC)} {es : List Event}
    {id : InboxId} {vc : ContactInboxVC} {u v : Uid}
    (run : (machine urls).run initial es = some s) (alive : s.2 id = some vc)
    (observes : vc.observing = some (u, v)) :
    ∃ ids : List MessageId, ids.Nodup ∧ vc.messages = transcript s.1.db.messages ids ∧
      (vc.reloads = 0 → vc.table = vc.messages) ∧
      (∀ m ∈ ids, ∃ info, s.1.db.messages m = some info ∧ info.Between u v) ∧
      ((∀ e ∈ es, Accepts e) → s.1.Quiet → ∀ m,
        (m ∈ ids ↔ (u, v, m) ∈ s.1.db.userMessages) ∧
        (m ∈ ids ↔ ∃ call, s.1.sends m = some call ∧ call.messageInfo.Between u v)) := by
  have hsound := sound_run run
  have hlinked := hsound.linked id vc alive
  obtain ⟨r, hr, hf⟩ := hlinked.attached u v observes
  have hreader := hsound.observed _ r hr
  obtain ⟨hnodup, hmem⟩ := hf.delivered hreader
  refine ⟨r.delivered.map Prod.snd, hnodup, hf.messages, fun hreloads => ?_, fun m hm => ?_,
    fun accepts quiet m => ?_⟩
  · exact hlinked.refreshed.resolve_right fun hne => hne hreloads
  · obtain ⟨info, hinfo, hfinished⟩ := hreader.delivered_stored ((hmem m).mp hm)
    have hentry : (u, v, m) ∈ s.1.db.userMessages :=
      hf.uid ▸ hreader.seen v m (by rw [hfinished]; exact nofun)
    exact ⟨info, hinfo, World.indexed_between hsound.consistent hentry hinfo⟩
  · have haccepted := accepted_run run accepts
    have hstored := handed_on run accepts quiet hr hf m
    refine ⟨hstored.trans (quiet.entries haccepted.consistent haccepted.unrejected u v m).symm,
      hstored.trans ?_⟩
    rw [quiet.messages haccepted.consistent haccepted.unrejected m]
    cases s.1.sends m with
    | none => simp only [Option.map_none, reduceCtorEq, false_and, exists_false]
    | some call => simp only [Option.map_some, Option.some.injEq, exists_eq_left']

end Conversations

/-! ## On whose side a message hangs -/

namespace ContactMessageCell

/-- A bubble as `cellForItemAt` leaves it hangs right exactly when its message is from the user who
is signed in, and left otherwise, whatever the cell showed before. -/
theorem cellForItemAt_anchors (cell : ContactMessageCell) (user : Option User)
    (currentUser : Option Uid) (message : Message) :
    (cell.cellForItemAt user currentUser message).rightAnchor =
        decide (some message.fromId = currentUser) ∧
      (cell.cellForItemAt user currentUser message).leftAnchor =
        !decide (some message.fromId = currentUser) := by
  by_cases h : some message.fromId = currentUser
  · simp only [cellForItemAt, setupCell, if_pos h, decide_eq_true h, Bool.not_true, and_self]
  · simp only [cellForItemAt, setupCell, if_neg h, decide_eq_false h, Bool.not_false, and_self]

end ContactMessageCell

namespace Conversations

variable {urls : Urls}

/-- **The two parties see the same conversation, each from its own side.** When every write was
accepted and nothing is in flight, a screen of `u` with `v` and a screen of `v` with `u` have the
same messages, in an order of their own. While the two are different users and signed in on their
devices, each message's bubble has the same text on both and hangs right on one and left on the
other, whichever cells are dequeued for it. -/
theorem mirrored {s : World × (InboxId → Option ContactInboxVC)} {es : List Event}
    {a b : InboxId} {va vb : ContactInboxVC} {u v : Uid}
    (run : (machine urls).run initial es = some s) (accepts : ∀ e ∈ es, Accepts e)
    (quiet : s.1.Quiet) (aliveA : s.2 a = some va) (aliveB : s.2 b = some vb)
    (observesA : va.observing = some (u, v)) (observesB : vb.observing = some (v, u)) :
    va.messages.Perm vb.messages ∧
      (s.1.currentUser a.client = some u → s.1.currentUser b.client = some v → u ≠ v →
        ∀ message ∈ va.messages, ∀ cell cell' : ContactMessageCell,
          let bubbleA := cell.cellForItemAt va.user (s.1.currentUser a.client) message
          let bubbleB := cell'.cellForItemAt vb.user (s.1.currentUser b.client) message
          bubbleA.text = bubbleB.text ∧ bubbleA.rightAnchor = bubbleB.leftAnchor ∧
            bubbleA.leftAnchor = bubbleB.rightAnchor ∧
            bubbleA.rightAnchor ≠ bubbleA.leftAnchor) := by
  have hsound := sound_run run
  obtain ⟨ra, hra, hfa⟩ := (hsound.linked a va aliveA).attached u v observesA
  obtain ⟨rb, hrb, hfb⟩ := (hsound.linked b vb aliveB).attached v u observesB
  have hsame : (ra.delivered.map Prod.snd).Perm (rb.delivered.map Prod.snd) := by
    refine (List.perm_ext_iff_of_nodup (hfa.delivered (hsound.observed _ ra hra)).1
      (hfb.delivered (hsound.observed _ rb hrb)).1).mpr fun m => ?_
    rw [handed_on run accepts quiet hra hfa, handed_on run accepts quiet hrb hfb]
    simp only [MessageInfo.between_comm]
  refine ⟨?_, fun signedInA signedInB distinct message hmessage cell cell' => ?_⟩
  · rw [hfa.messages, hfb.messages]
    exact hsame.filterMap _
  -- a message of the conversation is from exactly one of the two
  have hfrom : message.fromId = u ∨ message.fromId = v := by
    obtain ⟨m, info, -, hbetween, rfl⟩ := hsound.between aliveA observesA hmessage
    exact hbetween.imp And.left And.left
  obtain ⟨hrightA, hleftA⟩ :=
    cell.cellForItemAt_anchors va.user (s.1.currentUser a.client) message
  obtain ⟨hrightB, hleftB⟩ :=
    cell'.cellForItemAt_anchors vb.user (s.1.currentUser b.client) message
  refine ⟨rfl, ?_, ?_, ?_⟩
  · rw [hrightA, hleftB, signedInA, signedInB]
    rcases hfrom with h | h <;> simp [h, distinct, Ne.symm distinct]
  · rw [hleftA, hrightB, signedInA, signedInB]
    rcases hfrom with h | h <;> simp [h, distinct, Ne.symm distinct]
  · rw [hrightA, hleftA]
    exact Bool.self_ne_not _

/-- Alice and Bob open their conversation, Alice writes, and both screens are handed the message. -/
def aliceAndBob : List Event :=
  [.world ⟨.auth 0 (some "alice"), rfl⟩, .world ⟨.auth 1 (some "bob"), rfl⟩,
    .inbox ⟨0, 0⟩ (.opened "bob" "Bob" "bob@ani.chat" none (some "alice")),
    .inbox ⟨1, 0⟩ (.opened "alice" "Alice" "alice@ani.chat" none (some "bob")),
    .inbox ⟨0, 0⟩ (.edit (some "hi")), .inbox ⟨0, 0⟩ (.handleSend "m" 1 (some ("bob", "hi"))),
    .world ⟨.settle "m" .childRef true, rfl⟩, .world ⟨.completion "m", rfl⟩,
    .world ⟨.settle "m" .userMessagesRef true, rfl⟩,
    .world ⟨.settle "m" .recipientUserMessagesRef true, rfl⟩,
    .inbox ⟨1, 0⟩ (.childAdded "alice" "m"), .inbox ⟨0, 0⟩ (.childAdded "bob" "m"),
    .inbox ⟨0, 0⟩ (.serve "bob" "m"), .inbox ⟨1, 0⟩ (.serve "alice" "m"),
    .inbox ⟨0, 0⟩ (.read "bob" "m" (some ⟨"bob", "alice", 1, "hi"⟩)),
    .inbox ⟨1, 0⟩ (.read "alice" "m" (some ⟨"bob", "alice", 1, "hi"⟩)),
    .inbox ⟨1, 0⟩ .reload]

theorem aliceAndBob_accepts : ∀ e ∈ aliceAndBob, Accepts e := by
  simp only [aliceAndBob, List.mem_cons, List.not_mem_nil, or_false, forall_eq_or_imp, forall_eq,
    Accepts, inWorld, Inboxes.inWorld, Option.some.injEq, forall_eq', reduceCtorEq,
    World.Event.Accepts, and_self, IsEmpty.forall_iff, implies_true]

theorem aliceAndBob_quiet {s : World × (InboxId → Option ContactInboxVC)}
    (run : (machine .dotted).run initial aliceAndBob = some s) : s.1.Quiet := by
  have hworld := world_run run
  refine ⟨fun m call hcall => ?_, fun id r hr => ?_⟩
  · by_cases hm : m = "m"
    · subst hm
      cases run
      cases hcall
      exact ⟨rfl, fun k => by cases k <;> exact .inl rfl⟩
    · have other : ∀ e ∈ aliceAndBob.filterMap inWorld, e.send? ≠ some m := by
        simp only [aliceAndBob, List.filterMap_cons, List.filterMap_nil, inWorld, Inboxes.inWorld,
          List.mem_cons, List.not_mem_nil, or_false, forall_eq_or_imp, forall_eq,
          World.Event.send?, ne_eq, Option.some.injEq, Ne.symm hm, reduceCtorEq,
          not_false_eq_true, and_self]
      cases (World.sends_untouched_run hworld other).symm.trans hcall
  by_cases halice : id = ⟨0, .inbox 0⟩
  · subst halice
    cases run
    cases hr
    refine Reader.quiet_single (u := "alice") (v := "bob") rfl rfl rfl fun v' m' h => ?_
    rcases Finset.mem_insert.mp h with h | h
    · exact absurd (show "alice" = "bob" from congrArg Prod.fst h) (by decide)
    · exact Prod.ext_iff.mp (congrArg Prod.snd (Finset.mem_singleton.mp h))
  by_cases hbob : id = ⟨1, .inbox 0⟩
  · subst hbob
    cases run
    cases hr
    refine Reader.quiet_single (u := "bob") (v := "alice") rfl rfl rfl fun v' m' h => ?_
    rcases Finset.mem_insert.mp h with h | h
    · exact Prod.ext_iff.mp (congrArg Prod.snd h)
    · exact absurd (show "bob" = "alice" from congrArg Prod.fst (Finset.mem_singleton.mp h))
        (by decide)
  · have other : ∀ e ∈ aliceAndBob.filterMap inWorld, e.reader? ≠ some id := by
      simp only [aliceAndBob, List.filterMap_cons, List.filterMap_nil, inWorld, Inboxes.inWorld,
        List.mem_cons, List.not_mem_nil, or_false, forall_eq_or_imp, forall_eq,
        World.Event.reader?, InboxId.reader, ne_eq, Option.some.injEq, Ne.symm halice, Ne.symm hbob,
        reduceCtorEq, not_false_eq_true, and_self]
    cases (World.readers_untouched_run hworld other).symm.trans hr

theorem transcript_exact_aliceAndBob : ∃ s vc, (machine .dotted).run initial aliceAndBob = some s ∧
    s.2 ⟨0, 0⟩ = some vc ∧ vc.messages ≠ [] ∧
    ∃ ids, vc.messages = ContactInboxVC.transcript s.1.db.messages ids ∧ "m" ∈ ids := by
  obtain ⟨ids, -, hids, -, -, hexact⟩ :=
    @transcript_exact .dotted _ aliceAndBob ⟨0, 0⟩ _ "alice" "bob" rfl rfl rfl
  obtain ⟨-, hsent⟩ := hexact aliceAndBob_accepts (aliceAndBob_quiet rfl) "m"
  exact ⟨_, _, rfl, rfl, List.cons_ne_nil _ _, ids, hids, hsent.mpr ⟨_, rfl, .inl ⟨rfl, rfl⟩⟩⟩

/-- Alice's own message hangs on her right and on Bob's left. -/
theorem mirrored_aliceAndBob : ∃ s va vb, (machine .dotted).run initial aliceAndBob = some s ∧
    s.2 ⟨0, 0⟩ = some va ∧ s.2 ⟨1, 0⟩ = some vb ∧ va.messages ≠ [] ∧
    va.messages.Perm vb.messages ∧ ∀ message ∈ va.messages, ∀ cell cell' : ContactMessageCell,
      (cell.cellForItemAt va.user (some "alice") message).rightAnchor =
        (cell'.cellForItemAt vb.user (some "bob") message).leftAnchor := by
  obtain ⟨hperm, hanchors⟩ := @mirrored .dotted _ aliceAndBob ⟨0, 0⟩ ⟨1, 0⟩ _ _ "alice" "bob" rfl
    aliceAndBob_accepts (aliceAndBob_quiet rfl) rfl rfl rfl rfl
  exact ⟨_, _, _, rfl, rfl, rfl, List.cons_ne_nil _ _, hperm, fun message hmessage cell cell' =>
    (hanchors rfl rfl (by decide) message hmessage cell cell').2.1⟩

end Conversations

end AniChat
