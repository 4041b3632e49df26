import AniChat.App.Phone
import AniChat.Laws.App.Conversations
import AniChat.Laws.App.Directory
import AniChat.Laws.App.Sources

/-!
# What is open on the phone

A run of the phone is a run of the device among all clients (`system_run`) and a run of all
conversations (`conversations_run`), so what holds of those holds on the phone. On top of that the
navigation: what is pushed or presented belongs to the session on screen.

## What is proved

- `open_conversations`: while a conversation is pushed or the list of contacts is presented, one recents
  screen lies under it and somebody is signed in; each pushed conversation is that user's.
- `navigation_controller`: the forced unwrap in `didSelectRowAt` fails for no read but one that outlives
  its screen.
-/

namespace AniChat

open Automata Collections

/-- While a screen is shown, only a sign-out changes who is signed in and what is on the stack. -/
theorem Device.kept_on_stack {d d' : Device} {e : Event} (h : d.InSession)
    (shown : d.login.navigationStack ≠ []) (hstep : machine.step d e = some d')
    (stays : ∀ k, e ≠ .logout k) :
    d'.login.navigationStack = d.login.navigationStack ∧ d'.currentUser = d.currentUser := by
  have hidle : d.login.attempt = none := by
    by_contra hne
    exact shown (h.attempt hne).1
  obtain ⟨-, hact⟩ := step_cases hstep
  cases hact with
  | press fresh inner =>
    cases LoginVC.step_cases inner with
    | press home enabled empty => exact absurd empty shown
  | login noPress noPop inner =>
    cases LoginVC.step_cases inner with
    | press home => exact absurd rfl (noPress home)
    | popViewController => exact absurd rfl noPop
    | signIn user error waits => cases hidle.symm.trans waits
    | register waits => cases hidle.symm.trans waits
    | didSelectItemAt row cell =>
      refine ⟨?_, rfl⟩
      show (LoginVC.didSelectItemAt _ row cell).navigationStack = _
      unfold LoginVC.didSelectItemAt
      split <;> rfl
    | _ => exact ⟨rfl, rfl⟩
  | logout => exact absurd rfl (stays _)
  | _ => exact ⟨rfl, rfl⟩

namespace Navigation

variable {urls : Urls}

/-- What each event can do. -/
inductive Step (urls : Urls) (n : Navigation) : Event → Navigation → Prop where
  | didSelectRowAt (read : RowRead) :
      Step urls n (.didSelectRowAt read) { n with rowReads := read :: n.rowReads }
  | rowReturns {read : RowRead} (out : read ∈ n.rowReads) :
      Step urls n (.rowReturns read) { n with rowReads := n.rowReads.erase read }
  | rowOpens {read : RowRead} (inbox : ObjectId) (onStack : Bool) (out : read ∈ n.rowReads) :
      Step urls n (.rowOpens read inbox onStack) (n.rowOpens read inbox onStack)
  | showContacts (home : ObjectId) :
      Step urls n (.showContacts home) { n with contactVC := some (.new home) }
  | contacts {e : ContactVC.Event} {vc vc' : ContactVC} (presented : n.contactVC = some vc)
      (inner : (ContactVC.machine urls).step vc e = some vc') :
      Step urls n (.contacts e) { n with contactVC := some vc' }
  | didSelectContact {row : Nat} {vc : ContactVC} {contact : User} (presented : n.contactVC = some vc)
      (listed : vc.contacts[row]? = some contact) :
      Step urls n (.didSelectContact row) (n.showInbox vc.recentMessagesVC contact)
  | dismissalReturns {dismissal : Option ObjectId × User} (out : dismissal ∈ n.dismissals) :
      Step urls n (.dismissalReturns dismissal)
        { n with contactVC := none, dismissals := n.dismissals.erase dismissal }
  | dismissed {dismissal : Option ObjectId × User} (inbox : ObjectId) (onStack : Bool)
      (out : dismissal ∈ n.dismissals) :
      Step urls n (.dismissed dismissal inbox onStack) (n.dismissed dismissal inbox onStack)
  | swipe : Step urls n .swipe { n with contactVC := none }
  | popViewController {top : ObjectId} {rest : List ObjectId} (pushed : n.inboxes = top :: rest) :
      Step urls n .popViewController { n with inboxes := rest }

theorem step_cases {n n' : Navigation} {e : Event} (h : (machine urls).step n e = some n') :
    Step urls n e n' := by
  change step urls n e = some n' at h
  cases e with
  | didSelectRowAt read => cases h; exact .didSelectRowAt read
  | rowReturns read =>
    obtain ⟨out, h⟩ := Option.ite_none_right_eq_some.mp h
    cases h
    exact .rowReturns out
  | rowOpens read inbox onStack =>
    obtain ⟨out, h⟩ := Option.ite_none_right_eq_some.mp h
    cases h
    exact .rowOpens inbox onStack out
  | showContacts home => cases h; exact .showContacts home
  | contacts e =>
    obtain ⟨vc, hvc, h⟩ := Option.bind_eq_some_iff.mp h
    obtain ⟨vc', hvc', rfl⟩ := Option.map_eq_some_iff.mp h
    exact .contacts hvc hvc'
  | didSelectContact row =>
    obtain ⟨vc, hvc, h⟩ := Option.bind_eq_some_iff.mp h
    obtain ⟨-, h⟩ := Option.ite_none_right_eq_some.mp h
    obtain ⟨contact, hcontact, rfl⟩ := Option.map_eq_some_iff.mp h
    exact .didSelectContact hvc hcontact
  | dismissalReturns dismissal =>
    obtain ⟨out, h⟩ := Option.ite_none_right_eq_some.mp h
    cases h
    exact .dismissalReturns out
  | dismissed dismissal inbox onStack =>
    obtain ⟨out, h⟩ := Option.ite_none_right_eq_some.mp h
    cases h
    exact .dismissed inbox onStack out
  | swipe =>
    obtain ⟨vc, -, rfl⟩ := Option.map_eq_some_iff.mp h
    exact .swipe
  | popViewController =>
    simp only [step] at h
    split at h
    · next hpushed =>
      cases h
      exact .popViewController hpushed
    · cases h

/-- What lies on the stack after an event is what lay there, or one conversation that was pushed. -/
theorem step_inboxes {n n' : Navigation} {e : Event} (h : (machine urls).step n e = some n') :
    n'.inboxes.Sublist n.inboxes ∨
      ∃ inbox, n'.inboxes = inbox :: n.inboxes ∧
        ((∃ read, e = .rowOpens read inbox true) ∨
          ∃ dismissal, e = .dismissed dismissal inbox true) := by
  cases step_cases h with
  | @rowOpens read inbox onStack =>
    cases onStack with
    | true => exact .inr ⟨inbox, rfl, .inl ⟨read, rfl⟩⟩
    | false => exact .inl (List.Sublist.refl _)
  | @dismissed dismissal inbox onStack =>
    cases onStack with
    | true => exact .inr ⟨inbox, rfl, .inr ⟨dismissal, rfl⟩⟩
    | false => exact .inl (List.Sublist.refl _)
  | @popViewController top rest pushed =>
    refine .inl ?_
    rw [pushed]
    exact List.sublist_cons_self top rest
  | _ => exact .inl (List.Sublist.refl _)

/-- The list after an event is the one there was, one that was presented now, or one that took an
event of its own. -/
theorem step_contactVC {n n' : Navigation} {e : Event} (h : (machine urls).step n e = some n')
    {vc' : ContactVC} (presented : n'.contactVC = some vc') :
    n.contactVC = some vc' ∨ (∃ home, e = .showContacts home ∧ vc' = .new home) ∨
      ∃ vc e', e = .contacts e' ∧ n.contactVC = some vc ∧
        (ContactVC.machine urls).step vc e' = some vc' := by
  cases step_cases h with
  | showContacts home => cases presented; exact .inr (.inl ⟨home, rfl, rfl⟩)
  | @contacts e vc vc' presented' inner =>
    cases presented
    exact .inr (.inr ⟨vc, e, rfl, presented', inner⟩)
  | @rowOpens read inbox onStack =>
    cases onStack with
    | true => exact .inl presented
    | false => exact .inl presented
  | dismissalReturns => cases presented
  | @dismissed dismissal inbox onStack =>
    cases onStack with
    | true => cases presented
    | false => cases presented
  | swipe => cases presented
  | _ => exact .inl presented

/-- A read that is out was out before, or a tap has started it. -/
theorem step_rowReads {n n' : Navigation} {e : Event} (h : (machine urls).step n e = some n')
    {read : RowRead} (out : read ∈ n'.rowReads) :
    read ∈ n.rowReads ∨ e = .didSelectRowAt read := by
  cases step_cases h with
  | didSelectRowAt read' =>
    rcases List.mem_cons.mp out with rfl | hold
    · exact .inr rfl
    · exact .inl hold
  | rowReturns => exact .inl (List.mem_of_mem_erase out)
  | rowOpens => exact .inl (List.mem_of_mem_erase out)
  | @dismissed dismissal inbox onStack =>
    cases onStack with
    | true => exact .inl out
    | false => exact .inl out
  | _ => exact .inl out

/-- Only the closure of a row's read stops the program, and only off the stack. -/
theorem step_stopped {n n' : Navigation} {e : Event} (h : (machine urls).step n e = some n') :
    n'.stopped = n.stopped ∨ ∃ read inbox onStack, e = .rowOpens read inbox onStack ∧
      read ∈ n.rowReads ∧ n'.stopped = !onStack := by
  cases step_cases h with
  | @rowOpens read inbox onStack out => exact .inr ⟨read, inbox, onStack, rfl, out, rfl⟩
  | @dismissed dismissal inbox onStack =>
    cases onStack with
    | true => exact .inl rfl
    | false => exact .inl rfl
  | _ => exact .inl rfl

end Navigation

namespace Phone

variable {urls : Urls}

/-! ## The parts of one step -/

theorem step_cases {s s' : State} {e : Event} (h : (machine urls).step s e = some s') :
    Agrees s e ∧ System.machine.run s.1 (inSystem e).toList = some s'.1 ∧
      (Inboxes.machine urls).run s.2.1 (onScreens e).toList = some s'.2.1 ∧
      (Navigation.machine urls).run s.2.2 (onNavigation urls e).toList = some s'.2.2 := by
  obtain ⟨hagrees, hsync⟩ := Machine.restrict_step_eq_some.mp h
  obtain ⟨hsystem, hright⟩ := Machine.sync_step_eq_some.mp hsync
  obtain ⟨r, hr, hnil⟩ := Machine.run_cons_eq_some.mp hright
  cases Option.some.inj hnil
  obtain ⟨hscreens, hnavigation⟩ := Machine.sync_step_eq_some.mp hr
  exact ⟨hagrees, hsystem, hscreens, hnavigation⟩

/-- One label, one step. -/
theorem run_toList {σ ε : Type} {M : Machine σ ε} {s s' : σ} {x : Option ε}
    (h : M.run s x.toList = some s') :
    (x = none ∧ s' = s) ∨ ∃ e, x = some e ∧ M.step s e = some s' := by
  cases x with
  | none => exact .inl ⟨rfl, (Option.some.inj h).symm⟩
  | some e =>
    obtain ⟨t, ht, hnil⟩ := Machine.run_cons_eq_some.mp h
    exact .inr ⟨e, rfl, ht.trans hnil⟩

/-- The device among all clients has a run of its own. -/
theorem system_run {restored : Option Uid} {s : State} {es : List Event}
    (run : (machine urls).run (initial restored) es = some s) :
    System.machine.run (System.initial restored) (es.filterMap inSystem) = some s.1 :=
  Machine.sync_run_left (Machine.restrict_run run)

/-! ## The conversations of a run -/

/-- The device has no part in what the world sees of a conversation screen. -/
theorem ofDevice_inWorld {id : InboxId} {e : Inboxes.Event} {e' : World.Event}
    (he : Inboxes.inWorld id e = some e') : e'.OfDevice = false := by
  cases e with
  | read v m value =>
    obtain ⟨c, vc⟩ := id
    cases he
    cases c with
    | zero => rfl
    | succ c => rfl
  | handleSend m date sending =>
    cases sending with
    | none => cases he
    | some sending => cases he; rfl
  | release attached =>
    cases attached with
    | false => cases he
    | true => cases he; rfl
  | opened => cases he; rfl
  | childAdded => cases he; rfl
  | serve => cases he; rfl
  | _ => cases he

/-- No event of the device is one of a conversation screen in the world. -/
theorem ofInbox_inWorld {e : System.Event} (foreign : e.OfPhone = false) {e' : World.Event}
    (he : System.inWorld e = some e') : e'.OfInbox = false := by
  cases e with
  | world e => cases he; exact foreign
  | device e =>
    cases e with
    | login e =>
      obtain ⟨user, -, rfl⟩ := Option.map_eq_some_iff.mp he
      rfl
    | logout => cases he; rfl
    | viewDidLoad => cases he; rfl
    | deliver => cases he; rfl
    | _ => cases he

/-- What the world sees of an event. -/
def inWorld (e : Event) : Option World.Event := (inSystem e).bind System.inWorld

/-- What the conversations of all clients see of it. -/
def inConversations (e : Event) : Option Conversations.Event :=
  match onScreens e with
  | some x => some (.inbox x.1 x.2)
  | none => (inWorld e).bind fun e' =>
    if h : e'.OfInbox = false then some (.world ⟨e', h⟩) else none

/-- For a conversation screen, the world sees what the screen's event does to it. -/
theorem inWorld_screen {e : Event} {x : InboxId × Inboxes.Event} (h : onScreens e = some x) :
    inWorld e = Inboxes.inWorld x.1 x.2 := by
  have hbind : ((Inboxes.inWorld x.1 x.2).bind System.Event.ofWorld).bind System.inWorld =
      Inboxes.inWorld x.1 x.2 := by
    cases he : Inboxes.inWorld x.1 x.2 with
    | none => rfl
    | some e' =>
      show (System.Event.ofWorld e').bind System.inWorld = some e'
      rw [System.Event.ofWorld, dif_pos (ofDevice_inWorld he)]
      rfl
  cases e with
  | inbox => cases h; exact hbind
  | rowOpens => cases h; exact hbind
  | dismissed => cases h; exact hbind
  | _ => cases h

/-- Any other event of the world is not of a conversation screen. -/
theorem inWorld_foreign {e : Event} (h : onScreens e = none) {e' : World.Event}
    (he : inWorld e = some e') : e'.OfInbox = false := by
  cases e with
  | system e => exact ofInbox_inWorld e.2 he
  | didSelectRowAt => cases he
  | navigation => cases he
  | inbox => cases h
  | rowOpens => cases h
  | dismissed => cases h

/-- The world's part of a step. -/
theorem world_step {s s' : State} {e : Event} (h : (machine urls).step s e = some s') :
    World.machine.run s.1.1 (inWorld e).toList = some s'.1.1 := by
  obtain ⟨-, hsystem, -, -⟩ := step_cases h
  unfold inWorld
  rcases run_toList hsystem with ⟨hnone, hs⟩ | ⟨e', he', hstep⟩
  · rw [hnone, hs]
    rfl
  · rw [he']
    exact (Machine.sync_step_eq_some.mp hstep).1

/-- A screen is opened by whoever is signed in, on the phone as anywhere. -/
theorem agrees_screen {s s' : State} {e : Event} {x : InboxId × Inboxes.Event}
    (linked : s.1.1.currentUser 0 = s.1.2.currentUser) (h : (machine urls).step s e = some s')
    (hx : onScreens e = some x) :
    Conversations.Agrees (s.1.1, s.2.1) (.inbox x.1 x.2) := by
  obtain ⟨⟨-, hfits⟩, -, -, -⟩ := step_cases h
  cases e with
  | inbox id e =>
    cases hx
    cases e with
    | opened => exact hfits.2
    | _ => trivial
  | rowOpens => cases hx; exact hfits.2.1.trans linked.symm
  | dismissed => cases hx; exact hfits.1.trans linked.symm
  | _ => cases hx

/-- The conversations' part of a step. -/
theorem conversations_step {s s' : State} {e : Event}
    (linked : s.1.1.currentUser 0 = s.1.2.currentUser) (h : (machine urls).step s e = some s') :
    (Conversations.machine urls).run (s.1.1, s.2.1) (inConversations e).toList =
      some (s'.1.1, s'.2.1) := by
  obtain ⟨-, -, hscreens, -⟩ := step_cases h
  have hworld := world_step h
  have one : ∀ {e' : Conversations.Event}, Conversations.Agrees (s.1.1, s.2.1) e' →
      World.machine.run s.1.1 (Conversations.inWorld e').toList = some s'.1.1 →
      (Inboxes.machine urls).run s.2.1 (Conversations.onScreens e').toList = some s'.2.1 →
      (Conversations.machine urls).run (s.1.1, s.2.1) [e'] = some (s'.1.1, s'.2.1) :=
    fun hagrees hw hv => Machine.run_cons_eq_some.mpr
      ⟨_, Machine.restrict_step_eq_some.mpr ⟨hagrees, Machine.sync_step_eq_some.mpr ⟨hw, hv⟩⟩, rfl⟩
  unfold inConversations
  cases hx : onScreens e with
  | some x =>
    rw [inWorld_screen hx] at hworld
    rw [hx] at hscreens
    exact one (agrees_screen linked h hx) hworld hscreens
  | none =>
    rw [hx] at hscreens
    cases he : inWorld e with
    | none =>
      rw [he] at hworld
      have hw : s'.1.1 = s.1.1 := (Option.some.inj hworld).symm
      have hv : s'.2.1 = s.2.1 := (Option.some.inj hscreens).symm
      rw [hw, hv]
      rfl
    | some e' =>
      rw [he] at hworld
      have hforeign := inWorld_foreign hx he
      show (Conversations.machine urls).run _ (dite _ _ _ : Option Conversations.Event).toList = _
      rw [dif_pos hforeign]
      exact one trivial hworld hscreens

/-- All conversations have a run of their own, which begins as Auth restores the phone's user. -/
theorem conversations_run {restored : Option Uid} {s : State} {es : List Event}
    (run : (machine urls).run (initial restored) es = some s) :
    (Conversations.machine urls).run Conversations.initial
      (.world ⟨.auth 0 restored, rfl⟩ :: es.filterMap inConversations) = some (s.1.1, s.2.1) := by
  have follow : ∀ (s : State) e s', s.1.1.currentUser 0 = s.1.2.currentUser →
      (machine urls).step s e = some s' → s'.1.1.currentUser 0 = s'.1.2.currentUser ∧
        (Conversations.machine urls).run (s.1.1, s.2.1) (inConversations e).toList =
          some (s'.1.1, s'.2.1) := by
    intro s e s' linked hstep
    refine ⟨?_, conversations_step linked hstep⟩
    rcases run_toList (step_cases hstep).2.1 with ⟨-, hs⟩ | ⟨e', -, hsystem⟩
    · rw [hs]
      exact linked
    · exact System.user_step linked hsystem
  refine Machine.run_cons_eq_some.mpr ⟨(World.initial.setUser 0 restored, fun _ => none), rfl, ?_⟩
  rw [← Machine.emits_const run]
  exact Machine.run_emits (f := fun s : State => (s.1.1, s.2.1))
    (fun s => s.1.1.currentUser 0 = s.1.2.currentUser) follow rfl run

/-! ## The conversations over the recents screen -/

/-- A living screen of the phone shows a conversation of whoever is signed in, with its contact. -/
def Belongs (user : Option Uid) (vcs : InboxId → Option ContactInboxVC) (inbox : ObjectId) : Prop :=
  ∃ vc u v, vcs ⟨0, inbox⟩ = some vc ∧ user = some u ∧ vc.observing = some (u, v) ∧
    vc.user.bind User.id = some v

/-- No event of a screen changes that, except its release. -/
theorem belongs_screens {user : Option Uid} {vcs vcs' : InboxId → Option ContactInboxVC}
    {inbox : ObjectId} {x : Option (InboxId × Inboxes.Event)} (h : Belongs user vcs inbox)
    (hrun : (Inboxes.machine urls).run vcs x.toList = some vcs')
    (kept : ∀ attached, x ≠ some (⟨0, inbox⟩, .release attached)) : Belongs user vcs' inbox := by
  rcases run_toList hrun with ⟨-, hvcs⟩ | ⟨⟨id, e⟩, rfl, hstep⟩
  · rw [hvcs]
    exact h
  obtain ⟨vc, u, v, hvc, huser, hobserving, hcontact⟩ := h
  obtain ⟨y, hy, rfl⟩ := Option.map_eq_some_iff.mp hstep
  unfold Belongs
  by_cases hid : (⟨0, inbox⟩ : InboxId) = id
  · subst hid
    have same : ∀ vc' : ContactInboxVC, y = some vc' → vc'.observing = vc.observing →
        vc'.user = vc.user → ∃ vc' u v, Function.update vcs ⟨0, inbox⟩ y ⟨0, inbox⟩ = some vc' ∧
          user = some u ∧ vc'.observing = some (u, v) ∧ vc'.user.bind User.id = some v := by
      intro vc' hy' hobserving' huser'
      refine ⟨vc', u, v, ?_, huser, hobserving'.trans hobserving, ?_⟩
      · rw [Function.update_self, hy']
      · rw [huser']
        exact hcontact
    rw [hvc] at hy
    generalize hx : some vc = x at hy
    cases Conversations.act_cases hy with
    | opened => cases hx
    | dropped => cases hx
    | childAdded => cases hx; exact same _ rfl rfl rfl
    | serve => exact same vc hx.symm rfl rfl
    | read =>
      cases hx
      exact same _ rfl (ContactInboxVC.read_observing ..) (ContactInboxVC.read_user ..)
    | reload => cases hx; exact same _ rfl rfl rfl
    | layout => cases hx; exact same _ rfl rfl rfl
    | edit => cases hx; exact same _ rfl rfl rfl
    | handleSend =>
      cases hx
      exact same _ rfl (ContactInboxVC.handleSend_observing _) (ContactInboxVC.handleSend_user _)
    | @release _ attached => exact absurd rfl (kept attached)
  · refine ⟨vc, u, v, ?_, huser, hobserving, hcontact⟩
    exact (Function.update_of_ne hid ..).trans hvc

/-- A conversation that is opened on the phone belongs to whoever is signed in. -/
theorem belongs_opened {vcs vcs' : InboxId → Option ContactInboxVC} {profile : Profile}
    {inbox : ObjectId} {u : Uid}
    (hrun : (Inboxes.machine urls).run vcs [opens profile inbox (some u)] = some vcs') :
    Belongs (some u) vcs' inbox := by
  obtain ⟨t, ht, hnil⟩ := Machine.run_cons_eq_some.mp hrun
  cases Option.some.inj hnil
  obtain ⟨y, hy, rfl⟩ := Option.map_eq_some_iff.mp ht
  generalize hx : vcs (opens profile inbox (some u)).1 = x at hy
  cases Conversations.act_cases hy with
  | opened =>
    refine ⟨_, u, profile.uid, Function.update_self .., rfl, ?_, ?_⟩
    · rw [ContactInboxVC.opened_observing]
      rfl
    · rw [ContactInboxVC.opened_user]
      rfl

/-! ## The session under them -/

/-- The event signs out. -/
def Event.SignsOut (e : Event) : Prop :=
  ∃ home h, e = .system ⟨.device (.logout home), h⟩

/-- The device signs out in no other event. -/
theorem inSystem_logout {e : Event} {home : ObjectId}
    (h : inSystem e = some (.device (.logout home))) : e.SignsOut := by
  have screen : ∀ x : InboxId × Inboxes.Event,
      (Inboxes.inWorld x.1 x.2).bind System.Event.ofWorld ≠ some (.device (.logout home)) := by
    intro x hx
    obtain ⟨e', -, he'⟩ := Option.bind_eq_some_iff.mp hx
    unfold System.Event.ofWorld at he'
    split at he' <;> cases he'
  cases e with
  | system e =>
    obtain ⟨e, hforeign⟩ := e
    cases h
    exact ⟨home, hforeign, rfl⟩
  | didSelectRowAt => cases h
  | navigation => cases h
  | inbox id e => exact absurd h (screen (id, e))
  | rowOpens _ profile inbox currentUser => exact absurd h (screen (opens profile inbox currentUser))
  | dismissed _ profile inbox currentUser => exact absurd h (screen (opens profile inbox currentUser))

/-- While a screen is shown, only a sign-out changes the session. -/
theorem session_kept {s s' : State} {e : Event} (session : s.1.2.InSession)
    (shown : s.1.2.login.navigationStack ≠ []) (h : (machine urls).step s e = some s')
    (stays : ¬ e.SignsOut) : s'.1.2.login.navigationStack = s.1.2.login.navigationStack ∧
      s'.1.2.currentUser = s.1.2.currentUser := by
  obtain ⟨-, hsystem, -, -⟩ := step_cases h
  rcases run_toList hsystem with ⟨-, hs⟩ | ⟨e', he', hstep⟩
  · rw [hs]
    exact ⟨rfl, rfl⟩
  cases e' with
  | world e' =>
    rw [System.device_stays hstep]
    exact ⟨rfl, rfl⟩
  | device e' =>
    refine Device.kept_on_stack session shown (System.device_step hstep) fun k hlogout => ?_
    subst hlogout
    exact stays (inSystem_logout he')

/-- The navigation is in order: it lies over a screen that is shown, its conversations belong to whoever
is signed in, and its list has only others. -/
structure Orderly (s : State) : Prop where
  covers : s.2.2.inboxes ≠ [] ∨ s.2.2.contactVC ≠ none → s.1.2.login.navigationStack ≠ []
  conversations : ∀ inbox ∈ s.2.2.inboxes, Belongs s.1.2.currentUser s.2.1 inbox
  contacts : ∀ vc, s.2.2.contactVC = some vc → ∀ contact ∈ vc.contacts,
    contact.id ≠ s.1.2.currentUser

/-- The navigation takes its step of an event. -/
theorem navigation_step {s s' : State} {e : Event} (h : (machine urls).step s e = some s') :
    s'.2.2 = s.2.2 ∨ ∃ e', onNavigation urls e = some e' ∧
      (Navigation.machine urls).step s.2.2 e' = some s'.2.2 := by
  rcases run_toList (step_cases h).2.2.2 with ⟨-, hn⟩ | hstep
  · exact .inl hn
  · exact .inr hstep

/-- A conversation is pushed by one of the two pushes, over a recents screen that is on the stack. -/
theorem pushes {s : State} {e : Event} {e' : Navigation.Event} {inbox : ObjectId} (fits : Fits s e)
    (he : onNavigation urls e = some e')
    (hpush : (∃ read, e' = .rowOpens read inbox true) ∨
      ∃ dismissal, e' = .dismissed dismissal inbox true) :
    (∃ home, OnStack s home) ∧
      ∃ profile, onScreens e = some (opens profile inbox s.1.2.currentUser) := by
  cases e with
  | rowOpens home profile inbox' currentUser onStack =>
    obtain ⟨-, rfl, hstack⟩ := fits
    rcases hpush with ⟨read, rfl⟩ | ⟨dismissal, rfl⟩
    · cases he
      exact ⟨⟨home, of_decide_eq_true hstack.symm⟩, profile, rfl⟩
    · cases he
  | dismissed recentMessagesVC profile inbox' currentUser onStack =>
    obtain ⟨rfl, hstack⟩ := fits
    rcases hpush with ⟨read, rfl⟩ | ⟨dismissal, rfl⟩
    · cases he
    · cases he
      obtain ⟨home, -, hhome⟩ := of_decide_eq_true hstack.symm
      exact ⟨⟨home, hhome⟩, profile, rfl⟩
  | didSelectRowAt home row partner =>
    obtain ⟨v, -, rfl⟩ := Option.map_eq_some_iff.mp he
    rcases hpush with ⟨read, hread⟩ | ⟨dismissal, hdismissal⟩
    · cases hread
    · cases hdismissal
  | navigation e =>
    obtain ⟨e, hforeign⟩ := e
    cases he
    rcases hpush with ⟨read, rfl⟩ | ⟨dismissal, rfl⟩
    · cases hforeign
    · cases hforeign
  | _ => cases he

/-- The list is presented over a recents screen that is on the stack. -/
theorem presents {s : State} {e : Event} {home : ObjectId} (fits : Fits s e)
    (he : onNavigation urls e = some (.showContacts home)) : OnStack s home := by
  cases e with
  | navigation e =>
    obtain ⟨e, hforeign⟩ := e
    cases he
    exact List.mem_of_mem_head? fits.2.2
  | didSelectRowAt =>
    obtain ⟨v, -, he⟩ := Option.map_eq_some_iff.mp he
    cases he
  | _ => cases he

/-- What is pushed or presented after an event lies over a screen that was shown before it. -/
theorem covers_before {s s' : State} {e : Event} (h : Orderly s)
    (hstep : (machine urls).step s e = some s')
    (shown : s'.2.2.inboxes ≠ [] ∨ s'.2.2.contactVC ≠ none) :
    s.1.2.login.navigationStack ≠ [] := by
  have nonempty : ∀ home, OnStack s home → s.1.2.login.navigationStack ≠ [] := by
    intro home hhome hnil
    rw [OnStack, hnil] at hhome
    cases hhome
  have hfits := (step_cases hstep).1.2
  rcases navigation_step hstep with hn | ⟨e', he', hn⟩
  · rw [hn] at shown
    exact h.covers shown
  rcases shown with hinboxes | hlist
  · rcases Navigation.step_inboxes hn with hsub | ⟨inbox, -, hpush⟩
    · refine h.covers (.inl fun hnil => hinboxes ?_)
      rw [hnil] at hsub
      exact List.sublist_nil.mp hsub
    · obtain ⟨⟨home, hhome⟩, -⟩ := pushes hfits he' hpush
      exact nonempty home hhome
  · obtain ⟨vc', hvc'⟩ := Option.ne_none_iff_exists'.mp hlist
    rcases Navigation.step_contactVC hn hvc' with hsame | ⟨home, rfl, -⟩ | ⟨vc, e'', -, hvc, -⟩
    · exact h.covers (.inr (by rw [hsame]; exact nofun))
    · exact nonempty home (presents hfits he')
    · exact h.covers (.inr (by rw [hvc]; exact nofun))

theorem orderly_conversations {s s' : State} {e : Event} (h : Orderly s)
    (session : s.1.2.InSession) (hstep : (machine urls).step s e = some s')
    (user : s'.1.2.currentUser = s.1.2.currentUser) {inbox : ObjectId}
    (pushed : inbox ∈ s'.2.2.inboxes) : Belongs s'.1.2.currentUser s'.2.1 inbox := by
  obtain ⟨⟨-, hfits⟩, -, hscreens, -⟩ := step_cases hstep
  rw [user]
  have stays : inbox ∈ s.2.2.inboxes → Belongs s.1.2.currentUser s'.2.1 inbox := by
    intro hold
    refine belongs_screens (h.conversations inbox hold) hscreens fun attached hrelease => ?_
    cases e with
    | inbox id e' =>
      cases hrelease
      exact hfits rfl hold
    | rowOpens => cases hrelease
    | dismissed => cases hrelease
    | _ => cases hrelease
  rcases navigation_step hstep with hn | ⟨e', he', hn⟩
  · exact stays (hn ▸ pushed)
  rcases Navigation.step_inboxes hn with hsub | ⟨inbox', hcons, hpush⟩
  · exact stays (hsub.subset pushed)
  rw [hcons] at pushed
  rcases List.mem_cons.mp pushed with rfl | hold
  · obtain ⟨⟨home, hhome⟩, profile, hopens⟩ := pushes hfits he' hpush
    obtain ⟨-, u, vc, huser, -⟩ := session.session home hhome
    rw [huser] at hopens ⊢
    rw [hopens] at hscreens
    exact belongs_opened hscreens
  · exact stays hold

theorem orderly_contacts {s s' : State} {e : Event} (h : Orderly s)
    (hstep : (machine urls).step s e = some s')
    (user : s'.1.2.currentUser = s.1.2.currentUser) {vc' : ContactVC}
    (presented : s'.2.2.contactVC = some vc') :
    ∀ contact ∈ vc'.contacts, contact.id ≠ s'.1.2.currentUser := by
  obtain ⟨⟨-, hfits⟩, -, -, -⟩ := step_cases hstep
  rw [user]
  rcases navigation_step hstep with hn | ⟨e', he', hn⟩
  · exact h.contacts vc' (hn ▸ presented)
  rcases Navigation.step_contactVC hn presented with hsame | ⟨home, -, rfl⟩ | ⟨vc, e'', rfl, hvc, hinner⟩
  · exact h.contacts vc' hsame
  · exact fun contact hcontact => (List.not_mem_nil hcontact).elim
  · have hold := h.contacts vc hvc
    cases ContactVC.step_cases hinner with
    | @childAdded currentUser key fields =>
      intro contact hcontact
      rw [ContactVC.childAdded_contacts] at hcontact
      rcases List.mem_append.mp hcontact with hmem | hnew
      · exact hold contact hmem
      have huser : currentUser = s.1.2.currentUser := by
        cases e with
        | navigation e =>
          obtain ⟨e, hforeign⟩ := e
          cases he'
          exact hfits
        | didSelectRowAt =>
          obtain ⟨v, -, he'⟩ := Option.map_eq_some_iff.mp he'
          cases he'
        | _ => cases he'
      have hnew' := Option.mem_toList.mp hnew
      unfold ChatClient.contactObserver at hnew'
      obtain ⟨hother, hfields⟩ := Option.ite_none_right_eq_some.mp hnew'
      obtain ⟨f, -, rfl⟩ := Option.map_eq_some_iff.mp hfields
      exact huser ▸ hother
    | _ => exact hold

theorem orderly_step {s s' : State} {e : Event} (h : Orderly s) (session : s.1.2.InSession)
    (hstep : (machine urls).step s e = some s') : Orderly s' := by
  by_cases hout : e.SignsOut
  · -- nothing lies over the screen that signs out
    obtain ⟨home, hforeign, rfl⟩ := hout
    obtain ⟨⟨-, -, hinboxes, -⟩, -⟩ := step_cases hstep
    obtain ⟨⟨-, hlist, -⟩, -⟩ := step_cases hstep
    rcases navigation_step hstep with hn | ⟨e', he', -⟩
    · have hlist' : s'.2.2.contactVC = none := by
        rw [hn]
        exact Option.isNone_iff_eq_none.mp hlist
      rw [← hn] at hinboxes
      refine ⟨fun hshown => ?_, fun inbox hmem => ?_, fun vc hvc => ?_⟩
      · rcases hshown with hne | hne
        · exact absurd hinboxes hne
        · exact absurd hlist' hne
      · rw [hinboxes] at hmem
        cases hmem
      · rw [hlist'] at hvc
        cases hvc
    · cases he'
  · have kept : s'.2.2.inboxes ≠ [] ∨ s'.2.2.contactVC ≠ none →
        s'.1.2.login.navigationStack = s.1.2.login.navigationStack ∧
          s'.1.2.currentUser = s.1.2.currentUser := fun hshown =>
      session_kept session (covers_before h hstep hshown) hstep hout
    refine ⟨fun hshown => ?_, fun inbox hmem => ?_, fun vc hvc => ?_⟩
    · rw [(kept hshown).1]
      exact covers_before h hstep hshown
    · exact orderly_conversations h session hstep (kept (.inl (List.ne_nil_of_mem hmem))).2 hmem
    · exact orderly_contacts h hstep (kept (.inr (by rw [hvc]; exact nofun))).2 hvc

theorem session_run {restored : Option Uid} {s : State} {es : List Event}
    (run : (machine urls).run (initial restored) es = some s) : s.1.2.InSession :=
  Device.inSession_run (System.device_run (system_run run))

theorem orderly_run {restored : Option Uid} {s : State} {es : List Event}
    (run : (machine urls).run (initial restored) es = some s) : Orderly s := by
  have start : Orderly (initial restored) := by
    refine ⟨fun h => ?_, fun _ h => ?_, fun _ h => ?_⟩
    · rcases h with h | h <;> exact absurd rfl h
    · cases h
    · cases h
  exact @Machine.run_induction _ _ (machine urls) (initial restored) (fun _ s => Orderly s) start
    (fun _ _ _ _ hrun h hstep => orderly_step h (session_run hrun) hstep) _ _ run

/-- **What is open belongs to the session.** While a conversation is pushed or the list of contacts is
presented, exactly one recents screen lies under it and somebody is signed in. Every conversation on
the stack is alive and is theirs: it observes it for the signed-in user, what its button sends goes to
its contact, and its messages are stored messages between the two. The list has only others. -/
theorem open_conversations {restored : Option Uid} {s : State} {es : List Event}
    (run : (machine urls).run (initial restored) es = some s) :
    (s.2.2.inboxes ≠ [] ∨ s.2.2.contactVC ≠ none →
      ∃ home u, s.1.2.login.navigationStack = [home] ∧ s.1.2.currentUser = some u) ∧
    (∀ inbox ∈ s.2.2.inboxes, ∃ vc u v, s.2.1 ⟨0, inbox⟩ = some vc ∧ s.1.2.currentUser = some u ∧
      vc.observing = some (u, v) ∧ (∀ toId text, vc.sending = some (toId, text) → toId = v) ∧
      ∀ message ∈ vc.messages, ∃ m info, s.1.1.db.messages m = some info ∧ info.Between u v ∧
        message = Message.ofInboxSnapshot info) ∧
    ∀ vc, s.2.2.contactVC = some vc → ∀ contact ∈ vc.contacts, contact.id ≠ s.1.2.currentUser := by
  have h := orderly_run run
  have hsound := Conversations.sound_run (conversations_run run)
  refine ⟨fun hshown => ?_, fun inbox hmem => ?_, h.contacts⟩
  · obtain ⟨home, hhome⟩ := List.exists_mem_of_ne_nil _ (h.covers hshown)
    obtain ⟨hstack, u, -, huser, -⟩ := (session_run run).session home hhome
    exact ⟨home, u, hstack, huser⟩
  · obtain ⟨vc, u, v, hvc, huser, hobserving, hcontact⟩ := h.conversations inbox hmem
    refine ⟨vc, u, v, hvc, huser, hobserving, fun toId text hsending => ?_, fun message hmessage =>
      hsound.between hvc hobserving hmessage⟩
    unfold ContactInboxVC.sending at hsending
    split at hsending
    · next hto =>
      cases hsending
      exact Option.some.inj (hto.symm.trans hcontact)
    · cases hsending

/-! ## Reads that outlive their screen -/

/-- A sign-out finds no row's read outstanding. -/
def Settled (s : State) (e : Event) : Prop := e.SignsOut → s.2.2.rowReads = []

/-- The screens of the outstanding reads are shown, and no read has found otherwise. -/
structure Expected (s : State) : Prop where
  reads : ∀ read ∈ s.2.2.rowReads, OnStack s read.home
  running : s.2.2.stopped = false

/-- A tap is on a screen that is shown. -/
theorem taps {s : State} {e : Event} {read : RowRead} (fits : Fits s e)
    (he : onNavigation urls e = some (.didSelectRowAt read)) : OnStack s read.home := by
  cases e with
  | didSelectRowAt home row partner =>
    obtain ⟨v, -, he⟩ := Option.map_eq_some_iff.mp he
    cases he
    exact List.mem_of_mem_head? fits.1.2.2
  | navigation e =>
    obtain ⟨e, hforeign⟩ := e
    cases he
    cases hforeign
  | _ => cases he

/-- What the closure of a row's read is told of the stack is so. -/
theorem rowOpens_onStack {s : State} {e : Event} {read : RowRead} {inbox : ObjectId} {onStack : Bool}
    (fits : Fits s e) (he : onNavigation urls e = some (.rowOpens read inbox onStack)) :
    onStack = decide (OnStack s read.home) := by
  cases e with
  | rowOpens => cases he; exact fits.2.2
  | didSelectRowAt =>
    obtain ⟨v, -, he⟩ := Option.map_eq_some_iff.mp he
    cases he
  | navigation e =>
    obtain ⟨e, hforeign⟩ := e
    cases he
    cases hforeign
  | _ => cases he

theorem expected_step {s s' : State} {e : Event} (settled : Settled s e) (h : Expected s)
    (session : s.1.2.InSession) (hstep : (machine urls).step s e = some s') : Expected s' := by
  have hfits := (step_cases hstep).1.2
  refine ⟨fun read hread => ?_, ?_⟩
  · by_cases hout : e.SignsOut
    · obtain ⟨home, hforeign, rfl⟩ := hout
      rcases navigation_step hstep with hn | ⟨e', he', -⟩
      · rw [hn, settled ⟨home, hforeign, rfl⟩] at hread
        cases hread
      · cases he'
    · have hbefore : OnStack s read.home := by
        rcases navigation_step hstep with hn | ⟨e', he', hn⟩
        · exact h.reads read (hn ▸ hread)
        rcases Navigation.step_rowReads hn hread with hold | rfl
        · exact h.reads read hold
        · exact taps hfits he'
      unfold OnStack at hbefore ⊢
      rw [(session_kept session (List.ne_nil_of_mem hbefore) hstep hout).1]
      exact hbefore
  · rcases navigation_step hstep with hn | ⟨e', he', hn⟩
    · rw [hn]
      exact h.running
    rcases Navigation.step_stopped hn with hsame | ⟨read, inbox, onStack, rfl, hread, hstopped⟩
    · exact hsame.trans h.running
    · rw [hstopped, rowOpens_onStack hfits he', decide_eq_true (h.reads read hread)]
      rfl

/-- What a sign-out does. -/
theorem logout_step {s s' : State} {home : ObjectId} {h : (System.Event.device (.logout home)).OfPhone = false}
    (session : s.1.2.InSession)
    (hstep : (machine urls).step s (.system ⟨.device (.logout home), h⟩) = some s') :
    Running s' ∧ s'.1.1 = s.1.1.setUser 0 none ∧ s'.2 = s.2 ∧ s'.1.2.currentUser = none ∧
      s'.1.2.vcs = s.1.2.vcs ∧ s.1.2.vcs home ≠ none ∧ s'.1.2.login.navigationStack = [] := by
  obtain ⟨⟨hrunning, -⟩, hsystem, hscreens, hnavigation⟩ := step_cases hstep
  have hs : s'.2 = s.2 := Prod.ext (Option.some.inj hscreens).symm (Option.some.inj hnavigation).symm
  obtain ⟨t, hsys, hnil⟩ := Machine.run_cons_eq_some.mp hsystem
  cases Option.some.inj hnil
  have hworld := @System.world_step _ _ _ (.auth 0 none) rfl hsys
  obtain ⟨-, hact⟩ := Device.step_cases (System.device_step hsys)
  have htrap := (hrunning rfl).1
  have hstopped := (hrunning rfl).2
  rw [Running, hs]
  generalize s'.1.2 = d' at hact
  cases hact with
  | @logout _ rest vc alive loaded top =>
    obtain ⟨hstack, -⟩ := session.session home (by rw [top]; exact List.mem_cons_self)
    have hrest : rest = [] := (List.cons.inj (top.symm.trans hstack)).2
    refine ⟨⟨htrap, hstopped⟩, (Option.some.inj hworld).symm, rfl, rfl, rfl, ?_, hrest⟩
    rw [alive]
    exact nofun
  | rowMissing asks => cases asks
  | rowSignedOut asks => cases asks
  | row asks => cases asks

/-- The closure of a row's read, on the record it found, while nobody is signed in and its screen is off
the stack: the conversation observes nothing, and the program stops. -/
theorem rowOpens_signedOut {s : State} {home inbox : ObjectId} {profile : Profile}
    (running : Running s) (signedOut : s.1.2.currentUser = none) (alive : s.1.2.vcs home ≠ none)
    (popped : ¬ OnStack s home) (out : ⟨home, profile.uid⟩ ∈ s.2.2.rowReads)
    (user : s.1.1.currentUser 0 = none) (reader : s.1.1.readers ⟨0, .inbox inbox⟩ = none)
    (screen : s.2.1 ⟨0, inbox⟩ = none) :
    (machine urls).step s (.rowOpens home profile inbox none false) = some
      (s.1, Function.update s.2.1 ⟨0, inbox⟩ (some (.opened (profile.user urls) none)),
        s.2.2.rowOpens ⟨home, profile.uid⟩ inbox false) := by
  have hobserve : World.machine.step s.1.1 (.observeMessages 0 inbox profile.uid) = some s.1.1 := by
    show World.attach s.1.1 0 (.inbox inbox) [profile.uid] = some s.1.1
    simp only [World.attach, reader, user]
  have hopened : (Inboxes.machine urls).step s.2.1 (opens profile inbox none) =
      some (Function.update s.2.1 ⟨0, inbox⟩ (some (.opened (profile.user urls) none))) := by
    show (Inboxes.act urls (s.2.1 ⟨0, inbox⟩) _).map _ = _
    rw [screen]
    rfl
  have hreads : (Navigation.machine urls).step s.2.2 (.rowOpens ⟨home, profile.uid⟩ inbox false) =
      some (s.2.2.rowOpens ⟨home, profile.uid⟩ inbox false) := if_pos out
  refine Machine.restrict_step_eq_some.mpr ⟨⟨fun _ => running, alive, signedOut.symm, ?_⟩,
    Machine.sync_step_eq_some.mpr ⟨Machine.run_cons_eq_some.mpr ⟨s.1, ?_, rfl⟩,
      Machine.run_cons_eq_some.mpr ⟨_, Machine.sync_step_eq_some.mpr ⟨?_, ?_⟩, rfl⟩⟩⟩
  · exact (decide_eq_false popped).symm
  · exact Machine.sync_step_eq_some.mpr ⟨Machine.run_cons_eq_some.mpr ⟨_, hobserve, rfl⟩, rfl⟩
  · exact Machine.run_cons_eq_some.mpr ⟨_, hopened, rfl⟩
  · exact Machine.run_cons_eq_some.mpr ⟨_, hreads, rfl⟩

/-- **A row's read must not outlive its screen.** As long as every sign-out finds no such read
outstanding, `navigationController!` never fails. But where one is, its closure stops the program if it
runs next and finds the record. -/
theorem navigation_controller {restored : Option Uid} {s : State} {es : List Event}
    (run : (machine urls).run (initial restored) es = some s) :
    ((machine urls).Meets Settled (initial restored) es → s.2.2.stopped = false) ∧
    ∀ home h s', (machine urls).step s (.system ⟨.device (.logout home), h⟩) = some s' →
      ∀ profile : Profile, ⟨home, profile.uid⟩ ∈ s.2.2.rowReads →
        ∀ inbox, s.1.1.readers ⟨0, .inbox inbox⟩ = none → s.2.1 ⟨0, inbox⟩ = none →
          ∃ s'', (machine urls).step s' (.rowOpens home profile inbox none false) = some s'' ∧
            s''.2.2.stopped = true := by
  refine ⟨fun settled => ?_, fun home h s' hstep profile hread inbox hreader hscreen => ?_⟩
  · have start : Expected (initial restored) := ⟨fun _ h => (by cases h), rfl⟩
    exact (@Machine.run_induction_of_meets _ _ (machine urls) (initial restored)
      (fun _ s => Expected s) Settled start (fun _ _ _ _ hrun hsettled h hstep =>
        expected_step hsettled h (session_run hrun) hstep) _ _ settled run).running
  · obtain ⟨hrunning, hworld, hs, huser, hvcs, halive, hstack⟩ := logout_step (session_run run) hstep
    refine ⟨_, rowOpens_signedOut hrunning huser (hvcs ▸ halive) ?_ (hs ▸ hread) ?_ ?_ (hs ▸ hscreen),
      rfl⟩
    · rw [OnStack, hstack]
      exact List.not_mem_nil
    · rw [hworld]
      show Function.update s.1.1.currentUser 0 none 0 = none
      exact Function.update_self ..
    · rw [hworld]
      exact hreader

/-- Alice signs in; Bob writes to her from another client, and she taps on his row. -/
def aliceTaps : List Event :=
  [.system ⟨.device (.login (.toggle 0)), rfl⟩, .system ⟨.device (.login (.press 10)), rfl⟩,
    .system ⟨.device (.login (.signIn "alice" none)), rfl⟩,
    .system ⟨.device (.viewDidLoad 10), rfl⟩, .system ⟨.world ⟨.auth 2 (some "bob"), rfl⟩, rfl⟩,
    .inbox ⟨2, 0⟩ (.opened "alice" "Alice" "alice@ani.chat" none (some "bob")),
    .inbox ⟨2, 0⟩ (.edit (some "hi")), .inbox ⟨2, 0⟩ (.handleSend "m" 1 (some ("alice", "hi"))),
    .system ⟨.world ⟨.settle "m" .childRef true, rfl⟩, rfl⟩,
    .system ⟨.world ⟨.completion "m", rfl⟩, rfl⟩,
    .system ⟨.world ⟨.settle "m" .recipientUserMessagesRef true, rfl⟩, rfl⟩,
    .system ⟨.world ⟨.partnerAdded ⟨0, .recents 10⟩ "bob", rfl⟩, rfl⟩,
    .system ⟨.world ⟨.childAdded ⟨0, .recents 10⟩ "bob" "m", rfl⟩, rfl⟩,
    .system ⟨.world ⟨.serve ⟨0, .recents 10⟩ "bob" "m", rfl⟩, rfl⟩,
    .system ⟨System.handedOn "m" "alice" 10, rfl⟩, .system ⟨.device (.screen 10 .layout), rfl⟩,
    .didSelectRowAt 10 0 (some "bob")]

/-- The conversation is pushed, and its observer reads the message. -/
def aliceOpens : List Event :=
  aliceTaps ++
    [.rowOpens 10 ⟨"bob", "Bob", "bob@ani.chat", none⟩ 20 (some "alice") true,
      .inbox ⟨0, 20⟩ (.childAdded "bob" "m"), .inbox ⟨0, 20⟩ (.serve "bob" "m"),
      .inbox ⟨0, 20⟩ (.read "bob" "m" (some ⟨"alice", "bob", 1, "hi"⟩))]

theorem open_conversations_aliceOpens : ∃ s vc,
    (machine .dotted).run (initial none) aliceOpens = some s ∧ s.2.2.inboxes = [20] ∧
    s.2.1 ⟨0, 20⟩ = some vc ∧ vc.messages.length = 1 ∧ ∃ u v, s.1.2.currentUser = some u ∧
      ∀ message ∈ vc.messages, ∃ m info, s.1.1.db.messages m = some info ∧ info.Between u v ∧
        message = Message.ofInboxSnapshot info := by
  obtain ⟨vc, u, v, hvc, huser, -, -, hmessages⟩ :=
    (@open_conversations .dotted none _ aliceOpens rfl).2.1 20 (List.mem_singleton_self 20)
  cases hvc
  exact ⟨_, _, rfl, rfl, rfl, rfl, u, v, huser, hmessages⟩

theorem navigation_controller_aliceTaps : ∃ s s' s'',
    (machine .dotted).run (initial none) aliceTaps = some s ∧
    (machine .dotted).step s (.system ⟨.device (.logout 10), rfl⟩) = some s' ∧
    (machine .dotted).step s' (.rowOpens 10 ⟨"bob", "Bob", "bob@ani.chat", none⟩ 20 none false) =
      some s'' ∧ s''.2.2.stopped = true := by
  obtain ⟨s'', hstep, hstopped⟩ := (@navigation_controller .dotted none _ aliceTaps rfl).2 10 rfl _
    rfl ⟨"bob", "Bob", "bob@ani.chat", none⟩ (List.mem_singleton_self _) 20 rfl rfl
  exact ⟨_, _, s'', rfl, rfl, hstep, hstopped⟩

end Phone

end AniChat
