import AniChat.Laws.App.Conversations
import AniChat.Laws.App.Isolation
import AniChat.Laws.Controller.Refresh

/-!
# What the recents screen lists

The rows of a shown recents screen against what its observer has handed on: every partner a message
was handed on for has a row, as long as the clearing block finds nothing to erase.

## What is proved

- `recents_complete`: when every write was accepted and nothing is in flight, the rows are exactly the
  users with whom a message was exchanged, one row each, and the table shows them.
-/

namespace AniChat

open Automata Collections

/-! ## One side at a time -/

/-- An observer stays, for its user, and hands on what its reads find. -/
theorem World.delivered_step {w w' : World} {e : World.Event}
    (hstep : World.machine.step w e = some w') {id : ReaderId} {r : Reader}
    (reader : w.readers id = some r) :
    ∃ r', w'.readers id = some r' ∧ r'.uid = r.uid ∧
      (r'.delivered = r.delivered ∨ ∃ v m info, e = .read id v m (some info) ∧
        r'.delivered = r.delivered ++ [(v, m)]) := by
  -- the observer an event works on is this one, or another
  have moves : ∀ {id' : ReaderId} {r₀ t : Reader}, w.readers id' = some r₀ → t.uid = r₀.uid →
      (t.delivered = r₀.delivered ∨ ∃ v m info, e = .read id' v m (some info) ∧
        t.delivered = r₀.delivered ++ [(v, m)]) →
      ∃ r', (w.setReader id' t).readers id = some r' ∧ r'.uid = r.uid ∧
        (r'.delivered = r.delivered ∨ ∃ v m info, e = .read id v m (some info) ∧
          r'.delivered = r.delivered ++ [(v, m)]) := by
    intro id' r₀ t hr₀ huid hdelivered
    by_cases hid : id = id'
    · subst hid
      cases hr₀.symm.trans reader
      exact ⟨t, Function.update_self .., huid, hdelivered⟩
    · exact ⟨r, (Function.update_of_ne hid ..).trans reader, rfl, .inl rfl⟩
  have attaches : ∀ {id' : ReaderId} {t : Reader}, w.readers id' = none →
      ∃ r', (w.setReader id' t).readers id = some r' ∧ r'.uid = r.uid ∧
        (r'.delivered = r.delivered ∨ ∃ v m info, e = .read id v m (some info) ∧
          r'.delivered = r.delivered ++ [(v, m)]) := by
    intro id' t hnew
    refine ⟨r, (Function.update_of_ne (fun hid => ?_) ..).trans reader, rfl, .inl rfl⟩
    rw [hid, hnew] at reader
    cases reader
  cases World.step_cases hstep with
  | messagesForUserObserver signedIn new => exact attaches new
  | observeMessages signedIn new => exact attaches new
  | release hr => exact moves hr rfl (.inl rfl)
  | partnerAdded hr => exact moves hr rfl (.inl rfl)
  | @childAdded id' r₀ v m hr =>
    refine moves hr ?_ (.inl ?_)
    · unfold Reader.childAdded
      split <;> rfl
    · unfold Reader.childAdded
      split <;> rfl
  | serve hr => exact moves hr rfl (.inl rfl)
  | @read id' r₀ v m value hr =>
    cases value with
    | none => exact moves hr rfl (.inl rfl)
    | some info => exact moves hr rfl (.inr ⟨v, m, info, rfl, rfl⟩)
  | _ => exact ⟨r, reader, rfl, .inl rfl⟩

namespace RecentMessagesVC

/-- Only the clearing block takes a key out of the dictionary. -/
theorem lookup_kept {vc vc' : RecentMessagesVC} {e : Event} (keeps : e ≠ .clear)
    (hstep : machine.step vc e = some vc') {v : Uid}
    (listed : vc.messagesDictionary.lookup v ≠ none) : vc'.messagesDictionary.lookup v ≠ none := by
  cases step_cases hstep with
  | received u order message =>
    show (vc.messagesDictionary.insert _ message).lookup v ≠ none
    obtain ⟨m, hm⟩ := Option.ne_none_iff_exists'.mp listed
    intro hnone
    by_cases hv : v = message.partnerOf u
    · rw [hv, AList.lookup_insert] at hnone
      cases hnone
    · rw [AList.lookup_insert_ne hv, hm] at hnone
      cases hnone
  | clear => exact absurd rfl keeps
  | _ => exact listed

end RecentMessagesVC

/-- A screen that is shown after a step was shown before it, or is pushed as it was made. -/
theorem Device.shown_before {d d' : Device} {e : Event} {k : ObjectId} (session : d.InSession)
    (hact : Act d e d') (shown : k ∈ d'.login.navigationStack) :
    k ∈ d.login.navigationStack ∨ d.vcs k = some .new := by
  cases hact with
  | @press home login fresh inner =>
    cases LoginVC.step_cases inner with
    | press home enabled empty =>
      refine .inl ?_
      rw [← LoginVC.loginOrRegister_navigationStack d.login home]
      exact shown
  | @login e login noPress noPop inner =>
    rcases (pushes_home noPress inner).2 k shown with hold | hhome
    · exact .inl hold
    · by_cases hattempt : d.login.attempt = none
      · -- without an attempt nothing is pushed
        cases LoginVC.step_cases inner with
        | press home => exact absurd rfl (noPress home)
        | popViewController => exact absurd rfl noPop
        | signIn user error waits => cases hattempt.symm.trans waits
        | register waits => cases hattempt.symm.trans waits
        | didSelectItemAt row cell =>
          refine .inl ?_
          change k ∈ (LoginVC.didSelectItemAt _ row cell).navigationStack at shown
          unfold LoginVC.didSelectItemAt at shown
          split at shown <;> exact shown
        | _ => exact .inl shown
      · obtain ⟨-, home, hhome', hmade⟩ := session.attempt hattempt
        cases hhome.symm.trans hhome'
        exact .inr hmade
  | logout alive loaded top =>
    refine .inl ?_
    rw [top]
    exact List.mem_cons_of_mem _ shown
  | _ => exact .inl shown

/-- Every screen's table has read its array, or a refresh is on its way. -/
theorem Device.refreshed_run {restored : Option Uid} {d : Device} {es : List Event}
    (run : machine.run (initial restored) es = some d) :
    ∀ k vc, d.vcs k = some vc → vc.Refreshed := by
  refine @Machine.run_induction _ _ machine (initial restored)
    (fun _ d => ∀ k vc, d.vcs k = some vc → vc.Refreshed) (fun _ _ h => by cases h) ?_ _ _ run
  intro es e d d' hrun h hstep k vc' alive'
  have hscreen := screen_cases (step_cases hstep).2 k
  rw [alive'] at hscreen
  generalize hs : some vc' = x at hscreen
  cases hscreen with
  | same => exact h k vc' hs.symm
  | made => cases hs; exact .inl rfl
  | @loaded vc event alive pushed first =>
    cases hs
    have htidy := tidy_run hrun k vc alive
    have hperm := (listed_run hrun k vc alive).perm
    rw [htidy.empty (htidy.unloaded first)] at hperm
    exact .inl hperm.eq_nil.symm
  | moved alive inner => cases hs; exact RecentMessagesVC.refreshed_step (h k _ alive) inner
  | gone => cases hs

/-- Nothing but its clearing block takes a key from a living screen. -/
theorem Device.lookup_kept {d d' : Device} {e : Event} {k : ObjectId} {vc vc' : RecentMessagesVC}
    (made : d.Made) (hact : Act d e d') (keeps : e ≠ .screen k .clear) (alive : d.vcs k = some vc)
    (alive' : d'.vcs k = some vc') {v : Uid} (listed : vc.messagesDictionary.lookup v ≠ none) :
    vc'.messagesDictionary.lookup v ≠ none := by
  have same : d'.vcs k = d.vcs k → vc'.messagesDictionary.lookup v ≠ none := by
    intro hsame
    rw [hsame, alive] at alive'
    cases alive'
    exact listed
  have changed : ∀ {k' : ObjectId} {vc₀ vc₁ : RecentMessagesVC}, d.vcs k' = some vc₀ →
      d'.vcs = Function.update d.vcs k' (some vc₁) →
      (k' = k → vc₀.messagesDictionary.lookup v ≠ none → vc₁.messagesDictionary.lookup v ≠ none) →
      vc'.messagesDictionary.lookup v ≠ none := by
    intro k' vc₀ vc₁ hk' hvcs hkeeps
    by_cases hk : k = k'
    · subst hk
      rw [hvcs, Function.update_self] at alive'
      cases alive'
      cases hk'.symm.trans alive
      exact hkeeps rfl listed
    · exact same (by rw [hvcs, Function.update_of_ne hk])
  cases hact with
  | @press home login fresh =>
    refine same (Function.update_of_ne (fun hk => fresh ?_) ..)
    rw [← hk]
    exact made k (by rw [alive]; exact nofun)
  | viewDidLoad alive₀ => exact changed alive₀ rfl fun _ h => h
  | @deliver _ _ _ order info u _ alive₀ =>
    exact changed alive₀ rfl fun _ => RecentMessagesVC.lookup_kept
      (e := .received u order (Message.ofSnapshot (some u) info)) nofun rfl
  | @screen k' e' vc₀ vc₁ alive₀ silent inner =>
    refine changed alive₀ rfl fun hk => RecentMessagesVC.lookup_kept (fun hclear => keeps ?_) inner
    rw [hk, hclear]
  | @release k' =>
    refine same (Function.update_of_ne (fun hk => ?_) ..)
    rw [hk] at alive'
    cases (Function.update_self ..).symm.trans alive'
  | _ => exact same rfl

namespace System

/-- The clearing block of a screen finds nothing to erase. -/
def Keeps (s : World × Device) (e : Event) : Prop :=
  ∀ k vc, e = .device (.screen k .clear) → s.2.vcs k = some vc → vc.messages = []

/-- The rows of screen `k`: it observes `u` through an observer, and while it is shown it lists every
partner a message was handed on for. -/
def Tracks (s : World × Device) (k : ObjectId) : Prop :=
  ∀ vc u, s.2.vcs k = some vc → vc.observing = some u →
    ∃ r, s.1.readers ⟨0, .recents k⟩ = some r ∧ r.uid = u ∧
      (k ∈ s.2.login.navigationStack → ∀ entry ∈ r.delivered,
        vc.messagesDictionary.lookup entry.1 ≠ none)

/-- A message is handed on to a screen of the device by a delivery. -/
theorem deliver_of_read {e : Event} {k : ObjectId} {v : Uid} {m : MessageId} {info : MessageInfo}
    (he : inWorld e = some (.read ⟨0, .recents k⟩ v m (some info))) :
    ∃ order, e = .device (.deliver k v m order info) := by
  cases e with
  | world e =>
    obtain ⟨e, hforeign⟩ := e
    cases he
    cases hforeign
  | device e =>
    cases e with
    | login e =>
      obtain ⟨user, -, he⟩ := Option.map_eq_some_iff.mp he
      cases he
    | deliver k' v' m' order info' => cases he; exact ⟨order, rfl⟩
    | _ => cases he

/-- The observer of a screen over one step of both sides. -/
theorem reader_step {s s' : World × Device} {e : Event} (hstep : machine.step s e = some s')
    {k : ObjectId} {r : Reader} (reader : s.1.readers ⟨0, .recents k⟩ = some r) :
    ∃ r', s'.1.readers ⟨0, .recents k⟩ = some r' ∧ r'.uid = r.uid ∧
      (r'.delivered = r.delivered ∨ ∃ v m order info, e = .device (.deliver k v m order info) ∧
        r'.delivered = r.delivered ++ [(v, m)]) := by
  cases he : inWorld e with
  | none =>
    rw [world_stays he hstep]
    exact ⟨r, reader, rfl, .inl rfl⟩
  | some e' =>
    obtain ⟨r', hr', huid, hdelivered⟩ := World.delivered_step (world_step he hstep) reader
    refine ⟨r', hr', huid, hdelivered.imp_right ?_⟩
    rintro ⟨v, m, info, rfl, happend⟩
    obtain ⟨order, rfl⟩ := deliver_of_read he
    exact ⟨v, m, order, info, rfl, happend⟩

/-- Loading a view attaches the screen's observer for whoever is signed in. -/
theorem viewDidLoad_reader {s s' : World × Device} {k : ObjectId} {u : Uid}
    (hstep : machine.step s (.device (.viewDidLoad k)) = some s') (signedIn : s.1.currentUser 0 = some u) :
    s'.1.readers ⟨0, .recents k⟩ = some (.attached u []) := by
  have hworld := world_step (e := .device (.viewDidLoad k)) rfl hstep
  generalize s'.1 = w' at hworld
  cases World.step_cases hworld with
  | messagesForUserSignedOut signedOut => cases signedIn.symm.trans signedOut
  | messagesForUserObserver signedIn' new =>
    cases signedIn.symm.trans signedIn'
    exact Function.update_self ..

/-- A delivery lists its partner. -/
theorem tracks_deliver {s s' : World × Device} {k : ObjectId} {v : Uid} {m : MessageId}
    {order : Enumeration Message} {info : MessageInfo} (sound : Sound s) (session : s.2.InSession)
    (h : Tracks s k) (hstep : machine.step s (.device (.deliver k v m order info)) = some s') :
    Tracks s' k := by
  intro vc' u alive' observes'
  obtain ⟨-, hact⟩ := Device.step_cases (device_step hstep)
  have source := fun vc => @deliver_source s s' k v m order info vc u sound hstep
  have reader := fun r => @reader_step s s' _ hstep k r
  generalize s'.2 = d' at hact alive'
  cases hact with
  | deliverReleased gone => cases gone.symm.trans alive'
  | @deliverSignedOut _ _ _ _ _ vc alive attached signedOut =>
    obtain ⟨r, hr, huid, -⟩ := h vc' u alive' observes'
    obtain ⟨r', hr', huid', -⟩ := reader r hr
    refine ⟨r', hr', huid'.trans huid, fun shown => ?_⟩
    obtain ⟨-, u', -, huser, -⟩ := session.session k shown
    cases signedOut.symm.trans huser
  | @deliver _ _ _ _ _ u' vc alive attached signedIn =>
    cases (Function.update_self ..).symm.trans alive'
    obtain ⟨r, hr, huid, hlisted⟩ := h vc u alive observes'
    obtain ⟨r', hr', huid', hdelivered⟩ := reader r hr
    refine ⟨r', hr', huid'.trans huid, fun shown entry hentry => ?_⟩
    obtain ⟨-, u'', vc'', huser, hvc'', hobs, -⟩ := session.session k shown
    cases alive.symm.trans hvc''
    cases signedIn.symm.trans huser
    cases hobs u observes'
    obtain ⟨hindexed, hstored⟩ := source vc alive observes'
    have hpartner := Message.partnerOf_of_between
      (World.indexed_between sound.consistent hindexed hstored) (some u)
    have hkept : ∀ v', vc.messagesDictionary.lookup v' ≠ none →
        (vc.receive ((Message.ofSnapshot (some u) info).partnerOf u) order
          (Message.ofSnapshot (some u) info)).messagesDictionary.lookup v' ≠ none := fun v' =>
      RecentMessagesVC.lookup_kept (e := .received u order (Message.ofSnapshot (some u) info)) nofun rfl
    have hnew : (vc.receive ((Message.ofSnapshot (some u) info).partnerOf u) order
        (Message.ofSnapshot (some u) info)).messagesDictionary.lookup v ≠ none := by
      show (vc.messagesDictionary.insert _ _).lookup v ≠ none
      rw [hpartner, AList.lookup_insert]
      exact nofun
    rcases hdelivered with hsame | ⟨v', m', order', info', heq, happend⟩
    · rw [hsame] at hentry
      exact hkept _ (hlisted shown entry hentry)
    · cases heq
      rw [happend] at hentry
      rcases List.mem_append.mp hentry with hold | hlast
      · exact hkept _ (hlisted shown entry hold)
      · rw [List.mem_singleton.mp hlast]
        exact hnew
  | rowMissing asks => cases asks
  | rowSignedOut asks => cases asks
  | row asks => cases asks

theorem tracks_step {s s' : World × Device} {e : Event} (sound : Sound s) (session : s.2.InSession)
    (listed : s.2.Listed) (keeps : Keeps s e) (h : ∀ k, Tracks s k) (hstep : machine.step s e = some s') :
    ∀ k, Tracks s' k := by
  intro k
  by_cases hdeliver : ∃ v m order info, e = .device (.deliver k v m order info)
  · obtain ⟨v, m, order, info, rfl⟩ := hdeliver
    exact tracks_deliver sound session (h k) hstep
  intro vc' u alive' observes'
  -- the observer hands nothing on to this screen
  have reader : ∀ r, s.1.readers ⟨0, .recents k⟩ = some r →
      ∃ r', s'.1.readers ⟨0, .recents k⟩ = some r' ∧ r'.uid = r.uid ∧ r'.delivered = r.delivered := by
    intro r hr
    obtain ⟨r', hr', huid, hdelivered⟩ := reader_step hstep hr
    refine ⟨r', hr', huid, hdelivered.resolve_right ?_⟩
    rintro ⟨v, m, order, info, heq, -⟩
    exact hdeliver ⟨v, m, order, info, heq⟩
  have follow : ∀ vc, s.2.vcs k = some vc → vc.observing = some u →
      (k ∈ s'.2.login.navigationStack → k ∈ s.2.login.navigationStack) →
      (∀ v, vc.messagesDictionary.lookup v ≠ none → vc'.messagesDictionary.lookup v ≠ none) →
      ∃ r, s'.1.readers ⟨0, .recents k⟩ = some r ∧ r.uid = u ∧
        (k ∈ s'.2.login.navigationStack → ∀ entry ∈ r.delivered,
          vc'.messagesDictionary.lookup entry.1 ≠ none) := by
    intro vc alive observes shown kept
    obtain ⟨r, hr, huid, hlisted⟩ := h k vc u alive observes
    obtain ⟨r', hr', huid', hdelivered⟩ := reader r hr
    refine ⟨r', hr', huid'.trans huid, fun shown' entry hentry => ?_⟩
    rw [hdelivered] at hentry
    exact kept entry.1 (hlisted (shown shown') entry hentry)
  cases e with
  | world e =>
    rw [device_stays hstep] at alive' follow ⊢
    exact follow vc' alive' observes' id fun _ hv => hv
  | device e =>
    obtain ⟨-, hact⟩ := Device.step_cases (device_step hstep)
    have shown := fun hk => @Device.shown_before s.2 s'.2 e k session hact hk
    have hscreen := Device.screen_cases hact k
    rw [alive'] at hscreen
    generalize hs : some vc' = x at hscreen
    cases hscreen with
    | same =>
      refine follow vc' hs.symm observes' (fun hk => (shown hk).resolve_right fun hnew => ?_)
        fun _ hv => hv
      cases hs.trans hnew
      cases observes'
    | made => cases hs; cases observes'
    | @loaded vc event alive pushed first =>
      cases hs
      subst event
      have hreader := viewDidLoad_reader hstep (sound.linked.user.trans observes')
      exact ⟨_, hreader, rfl, fun _ _ hentry => (List.not_mem_nil hentry).elim⟩
    | @moved vc _ e' alive inner =>
      cases hs
      have observes : vc.observing = some u := (Device.step_observing inner).symm.trans observes'
      refine follow vc alive observes (fun hk => (shown hk).resolve_right fun hnew => ?_) ?_
      · cases alive.symm.trans hnew
        cases observes
      · intro v hv
        by_cases hclear : e = .screen k .clear
        · -- what the clearing block erases is nothing
          obtain ⟨message, hmessage⟩ := Option.ne_none_iff_exists'.mp hv
          have hempty := keeps k vc (congrArg _ hclear) alive
          have hmem := (listed k vc alive).perm.mem_iff.mpr
            (Dictionary.mem_values.mpr ⟨v, hmessage⟩)
          rw [hempty] at hmem
          cases hmem
        · exact Device.lookup_kept sound.made hact hclear alive alive' hv
    | gone => cases hs

/-- The event rejects no write. -/
def Accepts (e : Event) : Prop := ∀ e', inWorld e = some e' → e'.Accepts

theorem accepted_run {restored : Option Uid} {s : World × Device} {es : List Event}
    (run : machine.run (initial restored) es = some s) (accepts : ∀ e ∈ es, Accepts e) :
    s.1.Accepted := by
  refine World.accepted_run (world_run run) fun e' he' => ?_
  rcases List.mem_cons.mp he' with rfl | he'
  · trivial
  · obtain ⟨e, he, hworld⟩ := List.mem_filterMap.mp he'
    exact accepts e he e' hworld

theorem tracks_run {restored : Option Uid} {s : World × Device} {es : List Event}
    (run : machine.run (initial restored) es = some s)
    (keeps : machine.Meets Keeps (initial restored) es) : ∀ k, Tracks s k := by
  have start : ∀ k, Tracks (initial restored) k := fun _ _ _ h => by cases h
  refine @Machine.run_induction_of_meets _ _ machine (initial restored) (fun _ s => ∀ k, Tracks s k)
    Keeps start ?_ _ _ keeps run
  intro es e s s' hrun hkeeps h hstep
  have hdevice := device_run hrun
  exact tracks_step (sound_run hrun) (Device.inSession_run hdevice) (Device.listed_run hdevice) hkeeps
    h hstep

/-- What was sent is indexed, handed on once, and listed. -/
theorem listed_of_sent {restored : Option Uid} {s : World × Device} {es : List Event}
    {k : ObjectId} {vc : RecentMessagesVC} {u v : Uid}
    (run : machine.run (initial restored) es = some s) (accepts : ∀ e ∈ es, Accepts e)
    (keeps : machine.Meets Keeps (initial restored) es) (quiet : s.1.Quiet)
    (shown : k ∈ s.2.login.navigationStack) (alive : s.2.vcs k = some vc)
    (observes : vc.observing = some u) {m : MessageId} {call : SendCall}
    (sent : s.1.sends m = some call) (between : call.messageInfo.Between u v) :
    v ∈ vc.messages.map (Message.partnerOf u) := by
  have haccepted := accepted_run run accepts
  obtain ⟨-, u', vc', -, hvc', hobs, hrep⟩ :=
    (Device.inSession_run (device_run run)).session k shown
  cases alive.symm.trans hvc'
  obtain rfl := hobs u observes
  obtain ⟨r, hr, huid, hlisted⟩ := tracks_run run keeps k vc u alive observes
  have hentry : (r.uid, v, m) ∈ s.1.db.userMessages := by
    rw [huid]
    refine (quiet.entries haccepted.consistent haccepted.unrejected u v m).mpr
      ⟨call.messageInfo, ?_, between⟩
    rw [quiet.messages haccepted.consistent haccepted.unrejected m, sent]
    rfl
  have hcount := quiet.delivered haccepted.observed haccepted.found hr (v := v) trivial m
  rw [if_pos hentry] at hcount
  have hdelivered : (v, m) ∈ r.delivered := by
    apply List.count_pos_iff.mp
    omega
  obtain ⟨message, hmessage⟩ := Option.ne_none_iff_exists'.mp (hlisted shown _ hdelivered)
  obtain ⟨row, hrow, hpartner⟩ := hrep.exists_row.mpr ⟨message, hmessage⟩
  exact List.mem_map.mpr ⟨row, hrow, hpartner⟩

/-- **The recents screen lists everyone a message was exchanged with.** While a screen of `u` is shown:
when every write was accepted, nothing is in flight, and no clearing block found anything to erase,
its rows are exactly the users whom `u` wrote to or heard from, one row each; and the table shows them
once the timer and the dispatched reloads have run. -/
theorem recents_complete {restored : Option Uid} {s : World × Device} {es : List Event}
    {k : ObjectId} {vc : RecentMessagesVC} {u : Uid}
    (run : machine.run (initial restored) es = some s) (accepts : ∀ e ∈ es, Accepts e)
    (keeps : machine.Meets Keeps (initial restored) es) (quiet : s.1.Quiet)
    (shown : k ∈ s.2.login.navigationStack) (alive : s.2.vcs k = some vc)
    (observes : vc.observing = some u) :
    (vc.messages.map (Message.partnerOf u)).Nodup ∧
    (∀ v, v ∈ vc.messages.map (Message.partnerOf u) ↔
      ∃ m call, s.1.sends m = some call ∧ call.messageInfo.Between u v) ∧
    (vc.timer = false → vc.reloads = 0 → vc.table = vc.messages) := by
  have haccepted := accepted_run run accepts
  have hsound := sound_run run
  obtain ⟨-, u', vc', huser, hvc', hobs, hrep⟩ :=
    (Device.inSession_run (device_run run)).session k shown
  cases alive.symm.trans hvc'
  obtain rfl := hobs u observes
  have hmessages := quiet.messages haccepted.consistent haccepted.unrejected
  have hentries := quiet.entries haccepted.consistent haccepted.unrejected
  refine ⟨hrep.one, fun v => ⟨fun hv => ?_, ?_⟩, ?_⟩
  · -- a row was read for an entry, and an entry is of a message that was sent
    obtain ⟨message, hmessage, rfl⟩ := List.mem_map.mp hv
    have hsource := hsound.linked.sourced k vc u alive observes _ message (hrep.mem_iff.mp hmessage)
    obtain ⟨m, info, user, hentry, -, -⟩ := (hsource.between hsound.consistent).2
    obtain ⟨info', hinfo', hbetween⟩ := (hentries _ _ m).mp hentry
    rw [hmessages m] at hinfo'
    obtain ⟨call, hcall, rfl⟩ := Option.map_eq_some_iff.mp hinfo'
    exact ⟨m, call, hcall, hbetween⟩
  · rintro ⟨m, call, hcall, hbetween⟩
    exact listed_of_sent run accepts keeps quiet shown alive observes hcall hbetween
  · intro htimer hreloads
    have hrefreshed := Device.refreshed_run (device_run run) k vc alive
    simpa [RecentMessagesVC.Refreshed, htimer, hreloads] using hrefreshed

/-- Alice reads Bob's message, the last write is accepted, and her table is reloaded. -/
def aliceLists : List Event :=
  aliceReads ++ [.world ⟨.settle "m" .userMessagesRef true, rfl⟩, .device (.screen 10 .timerFired),
    .device (.screen 10 .reload)]

theorem aliceLists_accepts : ∀ e ∈ aliceLists, Accepts e := by
  simp [aliceLists, aliceReads, arrives, bobWrites, handedOn, Accepts, inWorld, World.Event.Accepts,
    LoginVC.Event.signsIn]

theorem aliceLists_keeps : machine.Meets Keeps (initial none) aliceLists := by
  have silent : ∀ e ∈ aliceLists, ∀ k, e ≠ .device (.screen k .clear) := by
    simp [aliceLists, aliceReads, arrives, bobWrites, handedOn]
  exact Machine.meets_of_forall fun e he s k vc hclear => absurd hclear (silent e he k)

theorem aliceLists_quiet {s : World × Device} (run : machine.run (initial none) aliceLists = some s) :
    s.1.Quiet := by
  have hworld := world_run run
  refine ⟨fun m call hcall => ?_, fun id r hr => ?_⟩
  · by_cases hm : m = "m"
    · subst hm
      cases run
      cases hcall
      exact ⟨rfl, fun k => by cases k <;> exact .inl rfl⟩
    · have other : ∀ e ∈ .auth 0 none :: aliceLists.filterMap inWorld, e.send? ≠ some m := by
        simp only [aliceLists, aliceReads, arrives, bobWrites, handedOn, List.cons_append,
          List.nil_append, List.filterMap_cons, List.filterMap_nil, inWorld, LoginVC.Event.signsIn,
          Option.map_some, Option.map_none, List.mem_cons, List.not_mem_nil, or_false,
          forall_eq_or_imp, forall_eq, World.Event.send?, ne_eq, Option.some.injEq, Ne.symm hm,
          reduceCtorEq, not_false_eq_true, and_self]
      cases (World.sends_untouched_run hworld other).symm.trans hcall
  by_cases hid : id = ⟨0, .recents 10⟩
  · subst hid
    cases run
    cases hr
    refine Reader.quiet_single (u := "alice") (v := "bob") rfl rfl rfl fun v' m' h => ?_
    rcases Finset.mem_insert.mp h with h | h
    · exact absurd (show "alice" = "bob" from congrArg Prod.fst h) (by decide)
    · exact Prod.ext_iff.mp (congrArg Prod.snd (Finset.mem_singleton.mp h))
  · have other : ∀ e ∈ .auth 0 none :: aliceLists.filterMap inWorld, e.reader? ≠ some id := by
      simp only [aliceLists, aliceReads, arrives, bobWrites, handedOn, List.cons_append,
        List.nil_append, List.filterMap_cons, List.filterMap_nil, inWorld, LoginVC.Event.signsIn,
        Option.map_some, Option.map_none, List.mem_cons, List.not_mem_nil, or_false,
        forall_eq_or_imp, forall_eq, World.Event.reader?, ne_eq, Option.some.injEq, Ne.symm hid,
        reduceCtorEq, not_false_eq_true, and_self]
    cases (World.readers_untouched_run hworld other).symm.trans hr

theorem recents_complete_aliceLists : ∃ s vc, machine.run (initial none) aliceLists = some s ∧
    s.2.vcs 10 = some vc ∧ vc.table.length = 1 ∧
    ("bob" ∈ vc.messages.map (Message.partnerOf "alice") ↔
      ∃ m call, s.1.sends m = some call ∧ call.messageInfo.Between "alice" "bob") := by
  refine ⟨_, _, rfl, rfl, rfl, ?_⟩
  exact (@recents_complete none _ aliceLists 10 _ "alice" rfl
    aliceLists_accepts aliceLists_keeps (aliceLists_quiet rfl)
    (by decide) rfl rfl).2.1 "bob"

end System

end AniChat
