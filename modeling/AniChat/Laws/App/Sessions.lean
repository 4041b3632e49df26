import AniChat.App.Device
import AniChat.Laws.Controller.LoginButton
import AniChat.Laws.Controller.Recents

/-!
# The sessions of one device

`Act` says once what each event can do on the device, `Screen` what it can do to one screen; the
invariants come from them.

## What is proved

- `login_run`: the login screen of a device has a run of its own.
- `inSession_run`: the screen on the navigation stack belongs to the user who is signed in and shows
  that user's dictionary; an attempt under way has a screen of its own that nothing has touched.
- `listed_run`: whoever is signed in, no screen's table expects a row that is not there, so no row
  is asked for past the end (`index_run`).
- `allocated_run`, `made_run`: every screen was made by a press.
-/

namespace AniChat

open Automata Collections

namespace Device

/-! ## One step of the device -/

/-- The row an event asks for. -/
def Event.row? : Event → Option (ObjectId × Nat)
  | .cellForRowAt k row => some (k, row)
  | .didSelectRowAt k row => some (k, row)
  | _ => none

/-- What the login screen does in an event. -/
def Event.onLogin : Event → Option LoginVC.Event
  | .login e => some e
  | .logout _ => some .popViewController
  | _ => none

/-- The object an event makes. -/
def Event.makes : Event → Option ObjectId
  | .login (.press home) => some home
  | _ => none

theorem row_cases {e : Event} {k : ObjectId} {row : Nat} (asks : e.row? = some (k, row)) :
    e = .cellForRowAt k row ∨ e = .didSelectRowAt k row := by
  cases e with
  | cellForRowAt => cases asks; exact .inl rfl
  | didSelectRowAt => cases asks; exact .inr rfl
  | _ => cases asks

/-- An event that asks for a row is neither a press nor on the login screen. -/
theorem row_elsewhere {e : Event} {k : ObjectId} {row : Nat} (asks : e.row? = some (k, row)) :
    e.makes = none ∧ e.onLogin = none := by
  rcases row_cases asks with rfl | rfl
  · exact ⟨rfl, rfl⟩
  · exact ⟨rfl, rfl⟩

/-- What one event can do while the program runs. -/
inductive Act (d : Device) : Event → Device → Prop where
  | press {home : ObjectId} {login : LoginVC} (fresh : home ∉ d.allocated)
      (inner : LoginVC.machine.step d.login (.press home) = some login) :
      Act d (.login (.press home)) ((d.allocate home).setLogin login (.press home))
  | login {e : LoginVC.Event} {login : LoginVC} (noPress : ∀ home, e ≠ .press home)
      (noPop : e ≠ .popViewController) (inner : LoginVC.machine.step d.login e = some login) :
      Act d (.login e) (d.setLogin login e)
  | viewDidLoad {k : ObjectId} {vc : RecentMessagesVC} (alive : d.vcs k = some vc)
      (pushed : k ∈ d.login.navigationStack) (first : vc.viewLoaded = false) :
      Act d (.viewDidLoad k) (d.setScreen k (vc.viewDidLoad d.currentUser))
  | logout {k : ObjectId} {rest : List ObjectId} {vc : RecentMessagesVC}
      (alive : d.vcs k = some vc) (loaded : vc.viewLoaded = true)
      (top : d.login.navigationStack = k :: rest) :
      Act d (.logout k) (d.logout { d.login with navigationStack := rest })
  | deliverReleased {k v m order info} (gone : d.vcs k = none) :
      Act d (.deliver k v m order info) d
  | deliverSignedOut {k v m order info} {vc : RecentMessagesVC} (alive : d.vcs k = some vc)
      (attached : vc.observing ≠ none) (signedOut : d.currentUser = none) :
      Act d (.deliver k v m order info) (d.stop .currentUser)
  | deliver {k v m order info u} {vc : RecentMessagesVC} (alive : d.vcs k = some vc)
      (attached : vc.observing ≠ none) (signedIn : d.currentUser = some u) :
      Act d (.deliver k v m order info) (d.setScreen k
        (vc.receive ((Message.ofSnapshot (some u) info).partnerOf u) order
          (Message.ofSnapshot (some u) info)))
  | screen {k : ObjectId} {e : RecentMessagesVC.Event} {vc vc' : RecentMessagesVC}
      (alive : d.vcs k = some vc) (silent : e.message? = none)
      (inner : RecentMessagesVC.machine.step vc e = some vc') :
      Act d (.screen k e) (d.setScreen k vc')
  | rowMissing {e : Event} {k : ObjectId} {row : Nat} {vc : RecentMessagesVC}
      (asks : e.row? = some (k, row)) (alive : d.vcs k = some vc) (shown : row < vc.table.length)
      (past : vc.messages.length ≤ row) : Act d e (d.stop .index)
  | rowSignedOut {e : Event} {k : ObjectId} {row : Nat} {vc : RecentMessagesVC}
      (asks : e.row? = some (k, row)) (alive : d.vcs k = some vc) (shown : row < vc.table.length)
      (inRange : row < vc.messages.length) (signedOut : d.currentUser = none) :
      Act d e (d.stop .currentUser)
  | row {e : Event} {k : ObjectId} {row : Nat} {vc : RecentMessagesVC} {u : Uid}
      (asks : e.row? = some (k, row)) (alive : d.vcs k = some vc) (shown : row < vc.table.length)
      (inRange : row < vc.messages.length) (signedIn : d.currentUser = some u) : Act d e d
  | release {k : ObjectId} {vc : RecentMessagesVC} (alive : d.vcs k = some vc)
      (home : d.login.home ≠ some k) (popped : k ∉ d.login.navigationStack)
      (idle : vc.timer = false ∧ vc.navBar.isClearing = false) :
      Act d (.release k) { d with vcs := Function.update d.vcs k none }

theorem deliver_cases {d : Device} {k : ObjectId} {v : Uid} {m : MessageId}
    {order : Enumeration Message} {info : MessageInfo}
    (attached : ∀ vc ∈ d.vcs k, vc.observing ≠ none) :
    Act d (.deliver k v m order info) (d.deliver k order info) := by
  unfold deliver Message.chatPartnerId
  cases hk : d.vcs k with
  | none => exact .deliverReleased hk
  | some vc =>
    cases hu : d.currentUser with
    | none => exact .deliverSignedOut hk (attached vc hk) hu
    | some u => exact .deliver hk (attached vc hk) hu

theorem askRow_cases {d d' : Device} {e : Event} {k : ObjectId} {row : Nat}
    (asks : e.row? = some (k, row)) (h : d.askRow k row = some d') : Act d e d' := by
  obtain ⟨vc, hk, h⟩ := Option.bind_eq_some_iff.mp h
  obtain ⟨hrow, h⟩ := Option.ite_none_right_eq_some.mp h
  cases h
  unfold partnerAt Message.chatPartnerId
  cases hm : vc.messages[row]? with
  | none => exact .rowMissing asks hk hrow (List.getElem?_eq_none_iff.mp hm)
  | some message =>
    cases hu : d.currentUser with
    | none => exact .rowSignedOut asks hk hrow (List.getElem?_eq_some_iff.mp hm).1 hu
    | some u => exact .row asks hk hrow (List.getElem?_eq_some_iff.mp hm).1 hu

theorem login_cases {d d' : Device} {e : LoginVC.Event} (h : d.act (.login e) = some d') :
    Act d (.login e) d' := by
  cases e with
  | popViewController => cases h
  | press home =>
    obtain ⟨hfresh, h⟩ := Option.ite_none_left_eq_some.mp h
    obtain ⟨login, hlogin, rfl⟩ := Option.map_eq_some_iff.mp h
    exact .press hfresh hlogin
  | _ =>
    simp only [act] at h
    obtain ⟨login, hlogin, rfl⟩ := Option.map_eq_some_iff.mp h
    exact .login nofun nofun hlogin

theorem act_cases {d d' : Device} {e : Event} (h : d.act e = some d') : Act d e d' := by
  cases e with
  | login e => exact login_cases h
  | viewDidLoad k =>
    obtain ⟨vc, hk, h⟩ := Option.bind_eq_some_iff.mp h
    obtain ⟨hg, h⟩ := Option.ite_none_right_eq_some.mp h
    cases h
    exact .viewDidLoad hk hg.1 hg.2
  | logout k =>
    obtain ⟨vc, hk, h⟩ := Option.bind_eq_some_iff.mp h
    obtain ⟨hg, h⟩ := Option.ite_none_right_eq_some.mp h
    obtain ⟨login, hlogin, rfl⟩ := Option.map_eq_some_iff.mp h
    obtain ⟨rest, htop⟩ := List.head?_eq_some_iff.mp hg.1
    cases LoginVC.step_cases hlogin with
    | popViewController pushed =>
      obtain ⟨rfl, rfl⟩ := List.cons.inj (pushed.symm.trans htop)
      exact .logout hk hg.2 htop
  | deliver k v m order info =>
    obtain ⟨hg, h⟩ := Option.ite_none_right_eq_some.mp h
    cases h
    exact deliver_cases hg
  | screen k e =>
    obtain ⟨vc, hk, h⟩ := Option.bind_eq_some_iff.mp h
    cases e with
    | received => cases h
    | _ =>
      obtain ⟨vc', hvc', rfl⟩ := Option.map_eq_some_iff.mp h
      exact .screen hk rfl hvc'
  | cellForRowAt k row => exact askRow_cases rfl h
  | didSelectRowAt k row => exact askRow_cases rfl h
  | release k =>
    obtain ⟨vc, hk, h⟩ := Option.bind_eq_some_iff.mp h
    obtain ⟨hg, h⟩ := Option.ite_none_right_eq_some.mp h
    cases h
    exact .release hk hg.1 hg.2.1 hg.2.2

theorem askRow_of {d d' : Device} {e : Event} {k : ObjectId} {row : Nat}
    (asks : e.row? = some (k, row)) (h : d.askRow k row = some d') : d.act e = some d' := by
  rcases row_cases asks with rfl | rfl
  · exact h
  · exact h

/-- Conversely, each of these is a step. Two-run statements replay one run's steps in another. -/
theorem act_of {d d' : Device} {e : Event} (h : Act d e d') : d.act e = some d' := by
  cases h with
  | press fresh inner => simp only [act, if_neg fresh, inner, Option.map_some]
  | @login e login noPress noPop inner =>
    cases e with
    | press home => exact absurd rfl (noPress home)
    | popViewController => exact absurd rfl noPop
    | _ => simp only [act, inner, Option.map_some]
  | viewDidLoad alive pushed first =>
    simp only [act, alive, Option.bind_some, if_pos (And.intro pushed first)]
  | @logout k rest vc alive loaded top =>
    have hpop : LoginVC.machine.step d.login .popViewController =
        some { d.login with navigationStack := rest } := by
      show LoginVC.step d.login .popViewController = _
      simp only [LoginVC.step, top]
    simp only [act, alive, Option.bind_some, top, List.head?_cons, loaded, and_self, if_true, hpop,
      Option.map_some]
  | deliverReleased gone =>
    simp only [act, deliver, gone, Option.mem_def, reduceCtorEq, false_implies, implies_true, if_true]
  | deliverSignedOut alive attached signedOut =>
    simp only [act, deliver, alive, Option.mem_def, Option.some.injEq, forall_eq', attached, ne_eq,
      not_false_eq_true, if_true, Message.chatPartnerId, signedOut, Option.map_none]
  | deliver alive attached signedIn =>
    simp only [act, deliver, alive, Option.mem_def, Option.some.injEq, forall_eq', attached, ne_eq,
      not_false_eq_true, if_true, Message.chatPartnerId, signedIn, Option.map_some]
  | @screen k e vc vc' alive silent inner =>
    cases e with
    | received => cases silent
    | _ => simp only [act, alive, Option.bind_some, inner, Option.map_some]
  | rowMissing asks alive shown past =>
    refine askRow_of asks ?_
    simp only [askRow, alive, Option.bind_some, if_pos shown, partnerAt,
      List.getElem?_eq_none_iff.mpr past]
  | rowSignedOut asks alive shown inRange signedOut =>
    refine askRow_of asks ?_
    simp only [askRow, alive, Option.bind_some, if_pos shown, partnerAt,
      List.getElem?_eq_getElem inRange, Message.chatPartnerId, signedOut, Option.map_none]
  | row asks alive shown inRange signedIn =>
    refine askRow_of asks ?_
    simp only [askRow, alive, Option.bind_some, if_pos shown, partnerAt,
      List.getElem?_eq_getElem inRange, Message.chatPartnerId, signedIn, Option.map_some]
  | release alive home popped idle =>
    simp only [act, alive, Option.bind_some,
      if_pos (And.intro home (And.intro popped (And.intro idle.1 idle.2)))]

/-- A step is taken by a program that has not stopped. -/
theorem step_cases {d d' : Device} {e : Event} (h : machine.step d e = some d') :
    d.trap = none ∧ Act d e d' := by
  change step d e = some d' at h
  unfold step at h
  split at h
  · cases h
  · next htrap => exact ⟨htrap, act_cases h⟩

/-- What can happen happens while the program runs. -/
theorem step_of {d d' : Device} {e : Event} (running : d.trap = none) (h : Act d e d') :
    machine.step d e = some d' := by
  show step d e = some d'
  unfold step
  rw [running]
  exact act_of h

/-! ## The login screen -/

/-- The login screen of a device has a run of its own. -/
theorem login_run {restored : Option Uid} {d : Device} {es : List Event}
    (run : machine.run (initial restored) es = some d) :
    LoginVC.machine.run .new (es.filterMap Event.onLogin) = some d.login := by
  rw [← Machine.emits_const run]
  refine @Machine.run_emits _ _ _ _ machine LoginVC.machine Device.login _ (fun _ => True) ?_ _ _ _
    trivial run
  intro d e d' _ hstep
  refine ⟨trivial, ?_⟩
  obtain ⟨-, hact⟩ := step_cases hstep
  cases hact with
  | press fresh inner => exact Machine.run_cons_eq_some.mpr ⟨_, inner, rfl⟩
  | login noPress noPop inner => exact Machine.run_cons_eq_some.mpr ⟨_, inner, rfl⟩
  | @logout k rest vc alive loaded top =>
    refine Machine.run_cons_eq_some.mpr ⟨{ d.login with navigationStack := rest }, ?_, rfl⟩
    simp only [LoginVC.machine, LoginVC.step, top]
  | rowMissing asks => rw [(row_elsewhere asks).2]; rfl
  | rowSignedOut asks => rw [(row_elsewhere asks).2]; rfl
  | row asks => rw [(row_elsewhere asks).2]; rfl
  | _ => rfl

/-! ## One screen -/

/-- A delivery reached screen `k` while `u` was signed in, and gave it `message`. -/
def Delivered (d : Device) (e : Event) (k : ObjectId) (vc : RecentMessagesVC) (u : Uid)
    (order : Enumeration Message) (message : Message) : Prop :=
  d.currentUser = some u ∧ vc.observing ≠ none ∧
    ∃ v m info, e = .deliver k v m order info ∧ message = Message.ofSnapshot (some u) info

/-- What one event can do to screen `k`. A screen that is there follows its own machine, and what it
receives was delivered to it. -/
inductive Screen (d : Device) (e : Event) (k : ObjectId) : Option RecentMessagesVC → Prop where
  | same (elsewhere : e ≠ .viewDidLoad k) : Screen d e k (d.vcs k)
  | made (event : e = .login (.press k)) (fresh : k ∉ d.allocated) : Screen d e k (some .new)
  | loaded {vc : RecentMessagesVC} (event : e = .viewDidLoad k) (alive : d.vcs k = some vc)
      (pushed : k ∈ d.login.navigationStack) (first : vc.viewLoaded = false) :
      Screen d e k (some (vc.viewDidLoad d.currentUser))
  | moved {vc vc' : RecentMessagesVC} {e' : RecentMessagesVC.Event} (alive : d.vcs k = some vc)
      (inner : RecentMessagesVC.machine.step vc e' = some vc')
      (elsewhere : e ≠ .viewDidLoad k)
      (source : ∀ u order message, e' = .received u order message →
        d.Delivered e k vc u order message) : Screen d e k (some vc')
  | gone (home : d.login.home ≠ some k) (popped : k ∉ d.login.navigationStack) : Screen d e k none

theorem setScreen_vcs (d : Device) (k k' : ObjectId) (vc : RecentMessagesVC) :
    (d.setScreen k vc).vcs k' = if k' = k then some vc else d.vcs k' := by
  simp only [setScreen, Function.update_apply]

theorem screen_cases {d d' : Device} {e : Event} (h : Act d e d') (k : ObjectId) :
    Screen d e k (d'.vcs k) := by
  cases h with
  | @press home login fresh =>
    show Screen d _ k (Function.update d.vcs home (some .new) k)
    rw [Function.update_apply]
    split
    · next hk => subst hk; exact .made rfl fresh
    · exact .same nofun
  | login => exact .same nofun
  | @viewDidLoad k' vc alive pushed first =>
    rw [setScreen_vcs]
    split
    · next hk => subst hk; exact .loaded rfl alive pushed first
    · next hk => exact .same fun h => hk (Event.viewDidLoad.inj h).symm
  | logout => exact .same nofun
  | deliverReleased => exact .same nofun
  | deliverSignedOut => exact .same nofun
  | @deliver k' v m order info u vc alive attached signedIn =>
    rw [setScreen_vcs]
    split
    · next hk =>
      subst hk
      refine @Screen.moved d _ k vc _ (.received u order (Message.ofSnapshot (some u) info)) alive
        rfl nofun ?_
      intro u' order' message heq
      cases heq
      exact ⟨signedIn, attached, v, m, info, rfl, rfl⟩
    · exact .same nofun
  | @screen k' e' vc vc' alive silent inner =>
    rw [setScreen_vcs]
    split
    · next hk =>
      subst hk
      refine .moved alive inner nofun ?_
      intro u order message heq
      rw [heq] at silent
      cases silent
    · exact .same nofun
  | rowMissing asks => exact .same fun h => by rw [h] at asks; cases asks
  | rowSignedOut asks => exact .same fun h => by rw [h] at asks; cases asks
  | row asks => exact .same fun h => by rw [h] at asks; cases asks
  | @release k' vc alive home popped idle =>
    show Screen d _ k (Function.update d.vcs k' none k)
    rw [Function.update_apply]
    split
    · next hk => subst hk; exact .gone home popped
    · exact .same nofun

/-- Whoever is signed in, each screen's array is in step with its dictionary and its table. -/
def Listed (d : Device) : Prop := ∀ k vc, d.vcs k = some vc → vc.Lists

theorem listed_step {d d' : Device} {e : Event} (h : d.Listed) (hstep : machine.step d e = some d') :
    d'.Listed := by
  obtain ⟨-, hact⟩ := step_cases hstep
  intro k vc' hvc'
  have hscreen := screen_cases hact k
  rw [hvc'] at hscreen
  generalize hs : some vc' = x at hscreen
  cases hscreen with
  | same => exact h k vc' hs.symm
  | made => cases hs; exact RecentMessagesVC.lists_new
  | loaded _ alive => cases hs; exact RecentMessagesVC.lists_viewDidLoad (h k _ alive) _
  | moved alive inner => cases hs; exact RecentMessagesVC.lists_step (h k _ alive) inner
  | gone => cases hs

theorem listed_run {restored : Option Uid} {d : Device} {es : List Event}
    (run : machine.run (initial restored) es = some d) : d.Listed :=
  Machine.run_invariant (fun _ _ _ => listed_step) (fun _ _ h => by cases h) run

/-! ## The session on screen -/

/-- The screen on the navigation stack belongs to whoever is signed in. While an attempt is under
way nothing is on the stack, and the screen it is to push is as it was made. -/
structure InSession (d : Device) : Prop where
  attempt : d.login.attempt ≠ none → d.login.navigationStack = [] ∧
    ∃ home, d.login.home = some home ∧ d.vcs home = some .new
  registering : ∀ request url uid,
    d.login.attempt = some (.register request (.updateChildValues url uid)) → d.currentUser ≠ none
  session : ∀ k ∈ d.login.navigationStack, d.login.navigationStack = [k] ∧
    ∃ u vc, d.currentUser = some u ∧ d.vcs k = some vc ∧
      (∀ u', vc.observing = some u' → u' = u) ∧ vc.Represents u

theorem inSession_initial (restored : Option Uid) : (initial restored).InSession where
  attempt h := absurd rfl h
  registering := nofun
  session := nofun

/-- With an empty stack only the attempt matters. -/
theorem inSession_empty {d : Device} (stack : d.login.navigationStack = [])
    (attempt : d.login.attempt ≠ none →
      ∃ home, d.login.home = some home ∧ d.vcs home = some .new)
    (registering : ∀ request url uid,
      d.login.attempt = some (.register request (.updateChildValues url uid)) →
        d.currentUser ≠ none) : d.InSession where
  attempt h := ⟨stack, attempt h⟩
  registering := registering
  session k hk := by rw [stack] at hk; cases hk

/-- With no attempt under way either, there is nothing to say. -/
theorem inSession_idle {d : Device} (attempt : d.login.attempt = none)
    (stack : d.login.navigationStack = []) : d.InSession :=
  inSession_empty stack (fun h => absurd attempt h)
    fun request url uid h => by rw [attempt] at h; cases h

/-- The attempt ends well: its screen is pushed for the user who is signed in. -/
theorem inSession_succeed {d : Device} {home : ObjectId} {u : Uid}
    (stack : d.login.navigationStack = []) (hhome : d.login.home = some home)
    (made : d.vcs home = some .new) (login : LoginVC) (hlogin : login = d.login.succeed) :
    InSession { d with login := login, currentUser := some u } := by
  have hstack : login.navigationStack = [home] := by
    rw [hlogin]
    show d.login.home.toList ++ d.login.navigationStack = [home]
    rw [stack, hhome]
    rfl
  have hattempt : login.attempt = none := by rw [hlogin]; rfl
  refine ⟨fun h => absurd hattempt h, ?_, ?_⟩
  · intro request url uid h
    rw [show login.attempt = _ from h] at hattempt
    cases hattempt
  · intro k hk
    rw [show login.navigationStack = _ from hstack] at hk ⊢
    obtain rfl := List.mem_singleton.mp hk
    exact ⟨rfl, u, .new, rfl, made, nofun, RecentMessagesVC.represents_new u⟩

/-- Only the attempt, the home screen and the stack of the login screen matter. -/
theorem InSession.congr {d d' : Device} (h : d.InSession)
    (attempt : d'.login.attempt = d.login.attempt)
    (home : d'.login.home = d.login.home)
    (stack : d'.login.navigationStack = d.login.navigationStack)
    (user : d'.currentUser = d.currentUser) (vcs : d'.vcs = d.vcs) : d'.InSession where
  attempt hne := by
    rw [stack, home, vcs]
    exact h.attempt (attempt ▸ hne)
  registering request url uid hr := by
    rw [user]
    exact h.registering request url uid (attempt ▸ hr)
  session k hk := by
    rw [stack, user, vcs]
    exact h.session k (stack ▸ hk)

theorem inSession_press {d : Device} {home : ObjectId} {login : LoginVC} (h : d.InSession)
    (inner : LoginVC.machine.step d.login (.press home) = some login) :
    ((d.allocate home).setLogin login (.press home)).InSession := by
  cases LoginVC.step_cases inner with
  | press home enabled shown =>
    have hstack : (d.login.loginOrRegister home).navigationStack = [] := by
      rw [LoginVC.loginOrRegister_navigationStack, shown]
    refine inSession_empty hstack (fun _ => ⟨home, LoginVC.loginOrRegister_home _ _, ?_⟩) ?_
    · exact Function.update_self ..
    · intro request url uid hattempt
      rcases LoginVC.loginOrRegister_attempt _ _ hattempt with hputData | hold
      · cases hputData
      · exact h.registering request url uid hold

theorem inSession_login {d : Device} {e : LoginVC.Event} {login : LoginVC} (h : d.InSession)
    (noPress : ∀ home, e ≠ .press home) (noPop : e ≠ .popViewController)
    (inner : LoginVC.machine.step d.login e = some login) : (d.setLogin login e).InSession := by
  cases LoginVC.step_cases inner with
  | press home => exact absurd rfl (noPress home)
  | popViewController => exact absurd rfl noPop
  | toggle => exact h.congr rfl rfl rfl rfl rfl
  | editName => exact h.congr rfl rfl rfl rfl rfl
  | editEmail => exact h.congr rfl rfl rfl rfl rfl
  | editPassword => exact h.congr rfl rfl rfl rfl rfl
  | cellForItemAt => exact h.congr rfl rfl rfl rfl rfl
  | didDeselectItemAt => exact h.congr rfl rfl rfl rfl rfl
  | didSelectItemAt row cell =>
    unfold LoginVC.didSelectItemAt
    split
    · exact h.congr rfl rfl rfl rfl rfl
    · exact h.congr rfl rfl rfl rfl rfl
  | signIn user error waits =>
    obtain ⟨hstack, home, hhome, hmade⟩ := h.attempt (by rw [waits]; exact nofun)
    cases error with
    | none => exact inSession_succeed hstack hhome hmade _ rfl
    | some err => exact inSession_idle rfl hstack
  | @register request stage reply outcome waits resumed =>
    obtain ⟨hstack, home, hhome, hmade⟩ := h.attempt (by rw [waits]; exact nofun)
    cases LoginClient.resume_cases resumed with
    | updateChildValues url uid =>
      -- the account has signed its user in, two closures before
      obtain ⟨u, hu⟩ := Option.ne_none_iff_exists'.mp (h.registering request url uid waits)
      have hlogin := inSession_succeed (u := u) hstack hhome hmade _ rfl
      exact hlogin.congr rfl rfl rfl hu rfl
    | createUser url uid =>
      exact inSession_empty hstack (fun _ => ⟨home, hhome, hmade⟩) fun _ _ _ _ => nofun
    | putData =>
      exact inSession_empty hstack (fun _ => ⟨home, hhome, hmade⟩) fun _ _ _ hs => by cases hs
    | downloadURL url =>
      exact inSession_empty hstack (fun _ => ⟨home, hhome, hmade⟩) fun _ _ _ hs => by cases hs
    | putDataFailed => exact inSession_idle rfl hstack
    | putDataReleased => exact inSession_idle rfl hstack
    | downloadURLFailed => exact inSession_idle rfl hstack
    | downloadURLMissing => exact inSession_idle rfl hstack
    | createUserFailed => exact inSession_idle rfl hstack
    | createUserSignedOut => exact inSession_idle rfl hstack
    | updateChildValuesFailed => exact inSession_idle rfl hstack

/-- A screen that nothing has touched is changed only by its view being loaded. -/
theorem new_step {vc : RecentMessagesVC} {e : RecentMessagesVC.Event} (silent : e.message? = none)
    (h : RecentMessagesVC.machine.step .new e = some vc) : vc = .new := by
  cases RecentMessagesVC.step_cases h with
  | received => cases silent
  | timerFired armed => cases armed
  | reload queued => exact absurd rfl queued
  | layout => rfl
  | profileFetched name out => cases out
  | profileMissing out => cases out
  | clear queued => cases queued

theorem step_observing {vc vc' : RecentMessagesVC} {e : RecentMessagesVC.Event}
    (h : RecentMessagesVC.machine.step vc e = some vc') : vc'.observing = vc.observing := by
  cases RecentMessagesVC.step_cases h with
  | _ => rfl

/-- Events of the screens leave the login screen and the signed-in user alone. -/
theorem inSession_screens {d d' : Device} {e : Event} (h : d.InSession) (hact : Act d e d')
    (login : d'.login = d.login) (user : d'.currentUser = d.currentUser)
    (noPress : ∀ home, e ≠ .login (.press home)) : d'.InSession where
  attempt hne := by
    rw [login] at hne ⊢
    obtain ⟨hstack, home, hhome, hmade⟩ := h.attempt hne
    refine ⟨hstack, home, hhome, ?_⟩
    have hscreen := screen_cases hact home
    generalize d'.vcs home = x at hscreen
    cases hscreen with
    | same => exact hmade
    | made event => exact absurd event (noPress home)
    | loaded _ _ pushed => rw [hstack] at pushed; cases pushed
    | @moved vc vc' e' alive inner _ source =>
      cases hmade.symm.trans alive
      have hsilent : e'.message? = none := by
        cases e' with
        | received u order message => exact absurd rfl (source u order message rfl).2.1
        | _ => rfl
      rw [new_step hsilent inner]
    | gone hhome' => exact absurd hhome hhome'
  registering request url uid hr := by
    rw [user]
    exact h.registering request url uid (login ▸ hr)
  session k hk := by
    rw [login] at hk ⊢
    obtain ⟨hstack, u, vc, hu, hvc, hobs, hrep⟩ := h.session k hk
    refine ⟨hstack, u, ?_⟩
    rw [user]
    have hscreen := screen_cases hact k
    generalize d'.vcs k = x at hscreen
    cases hscreen with
    | same => exact ⟨vc, hu, hvc, hobs, hrep⟩
    | made event => exact absurd event (noPress k)
    | loaded _ alive =>
      cases hvc.symm.trans alive
      refine ⟨_, hu, rfl, ?_, hrep.viewDidLoad _⟩
      intro u' hu'
      exact Option.some.inj (hu'.symm.trans hu)
    | @moved vc' vc'' e' alive inner _ source =>
      cases hvc.symm.trans alive
      refine ⟨vc'', hu, rfl, ?_, ?_⟩
      · rw [step_observing inner]; exact hobs
      · refine RecentMessagesVC.represents_step ?_ hrep inner
        cases e' with
        | received u' order message =>
          exact Option.some.inj ((source u' order message rfl).1.symm.trans hu)
        | _ => trivial
    | gone _ popped => exact absurd hk popped

theorem inSession_step {d d' : Device} {e : Event} (h : d.InSession)
    (hstep : machine.step d e = some d') : d'.InSession := by
  obtain ⟨-, hact⟩ := step_cases hstep
  have screens := inSession_screens h hact
  cases hact with
  | press fresh inner => exact inSession_press h inner
  | login noPress noPop inner => exact inSession_login h noPress noPop inner
  | @logout k rest vc alive loaded top =>
    obtain ⟨hstack, -⟩ := h.session k (by rw [top]; exact List.mem_cons_self)
    have hrest : rest = [] := (List.cons.inj (top.symm.trans hstack)).2
    have hnone : d.login.attempt = none := by
      by_contra hne
      rw [(h.attempt hne).1] at top
      cases top
    exact inSession_idle hnone hrest
  | viewDidLoad => exact screens rfl rfl nofun
  | deliverReleased => exact h
  | deliverSignedOut => exact h.congr rfl rfl rfl rfl rfl
  | deliver => exact screens rfl rfl nofun
  | screen => exact screens rfl rfl nofun
  | rowMissing => exact h.congr rfl rfl rfl rfl rfl
  | rowSignedOut => exact h.congr rfl rfl rfl rfl rfl
  | row => exact h
  | release => exact screens rfl rfl nofun

theorem inSession_run {restored : Option Uid} {d : Device} {es : List Event}
    (run : machine.run (initial restored) es = some d) : d.InSession :=
  Machine.run_invariant (fun _ _ _ => inSession_step) (inSession_initial restored) run

/-! ## Observers -/

/-- A screen whose view is not loaded observes nobody, and one that observes nobody holds nothing.
-/
structure Attached (vc : RecentMessagesVC) : Prop where
  unloaded : vc.viewLoaded = false → vc.observing = none
  empty : vc.observing = none → vc.messagesDictionary = ∅

theorem attached_step {vc vc' : RecentMessagesVC} {e : RecentMessagesVC.Event} (h : Attached vc)
    (receives : e.message? ≠ none → vc.observing ≠ none)
    (hstep : RecentMessagesVC.machine.step vc e = some vc') : Attached vc' := by
  cases RecentMessagesVC.step_cases hstep with
  | received => exact ⟨h.unloaded, fun hnone => absurd hnone (receives nofun)⟩
  | clear => exact ⟨h.unloaded, fun _ => rfl⟩
  | _ => exact ⟨h.unloaded, h.empty⟩

/-- Every living screen is so. -/
def Tidy (d : Device) : Prop := ∀ k vc, d.vcs k = some vc → Attached vc

theorem tidy_step {d d' : Device} {e : Event} (h : d.Tidy) (hstep : machine.step d e = some d') :
    d'.Tidy := by
  obtain ⟨-, hact⟩ := step_cases hstep
  intro k vc' hvc'
  have hscreen := screen_cases hact k
  rw [hvc'] at hscreen
  generalize hs : some vc' = x at hscreen
  cases hscreen with
  | same => exact h k vc' hs.symm
  | made => cases hs; exact ⟨fun _ => rfl, fun _ => rfl⟩
  | loaded _ alive _ first =>
    cases hs
    have hvc := h k _ alive
    exact ⟨nofun, fun _ => hvc.empty (hvc.unloaded first)⟩
  | @moved vc _ e' alive inner _ source =>
    cases hs
    refine attached_step (h k vc alive) (fun hm => ?_) inner
    cases e' with
    | received u order message => exact (source u order message rfl).2.1
    | _ => exact absurd rfl hm
  | gone => cases hs

theorem tidy_run {restored : Option Uid} {d : Device} {es : List Event}
    (run : machine.run (initial restored) es = some d) : d.Tidy :=
  Machine.run_invariant (fun _ _ _ => tidy_step) (fun _ _ h => by cases h) run

/-! ## The objects made -/

/-- The objects made stay made. -/
theorem allocated_act {d d' : Device} {e : Event} (hact : Act d e d') :
    d'.allocated = e.makes.toList ++ d.allocated := by
  cases hact with
  | @login e login noPress =>
    cases e with
    | press home => exact absurd rfl (noPress home)
    | _ => rfl
  | rowMissing asks => rw [(row_elsewhere asks).1]; rfl
  | rowSignedOut asks => rw [(row_elsewhere asks).1]; rfl
  | row asks => rw [(row_elsewhere asks).1]; rfl
  | _ => rfl

/-- The objects made in a run are the screens of its presses. -/
theorem allocated_run {restored : Option Uid} {d : Device} {es : List Event}
    (run : machine.run (initial restored) es = some d) :
    ∀ k, k ∈ d.allocated ↔ k ∈ es.filterMap Event.makes := by
  refine @Machine.run_induction _ _ machine (initial restored)
    (fun es d => ∀ k, k ∈ d.allocated ↔ k ∈ es.filterMap Event.makes) (fun k => Iff.rfl) ?_ _ _ run
  intro es e d d' _ ih hstep k
  rw [allocated_act (step_cases hstep).2, List.filterMap_append, List.mem_append, List.mem_append,
    ih k, or_comm]
  refine or_congr_right ?_
  cases hmakes : e.makes with
  | none => simp only [List.filterMap_cons_none hmakes, List.filterMap_nil, Option.toList_none]
  | some home => simp only [List.filterMap_cons_some hmakes, List.filterMap_nil, Option.toList_some]

/-- Every living screen was made. -/
def Made (d : Device) : Prop := ∀ k, d.vcs k ≠ none → k ∈ d.allocated

theorem made_step {d d' : Device} {e : Event} (h : d.Made) (hstep : machine.step d e = some d') :
    d'.Made := by
  obtain ⟨-, hact⟩ := step_cases hstep
  intro k hk
  rw [allocated_act hact, List.mem_append]
  have hscreen := screen_cases hact k
  generalize d'.vcs k = x at hscreen hk
  cases hscreen with
  | same => exact .inr (h k hk)
  | made event => rw [event]; exact .inl List.mem_cons_self
  | loaded _ alive => exact .inr (h k (by rw [alive]; exact nofun))
  | moved alive => exact .inr (h k (by rw [alive]; exact nofun))
  | gone => exact absurd rfl hk

theorem made_run {restored : Option Uid} {d : Device} {es : List Event}
    (run : machine.run (initial restored) es = some d) : d.Made :=
  Machine.run_invariant (fun _ _ _ => made_step) (fun _ h => absurd rfl h) run

/-! ## Rows -/

/-- No row is asked for past the end. -/
theorem index_run {restored : Option Uid} {d : Device} {es : List Event}
    (run : machine.run (initial restored) es = some d) : d.trap ≠ some .index := by
  have keep : ∀ (d : Device) e d', d.Listed ∧ d.trap ≠ some .index → machine.step d e = some d' →
      d'.Listed ∧ d'.trap ≠ some .index := by
    intro d e d' ⟨hl, htrap⟩ hstep
    refine ⟨listed_step hl hstep, ?_⟩
    obtain ⟨hnone, hact⟩ := step_cases hstep
    cases hact with
    | @rowMissing _ k row vc _ alive shown past =>
      have htable := (hl k vc alive).table
      omega
    | deliverSignedOut => exact nofun
    | rowSignedOut => exact nofun
    | _ => exact htrap
  have start : (initial restored).Listed ∧ (initial restored).trap ≠ some .index :=
    ⟨fun _ _ h => (by cases h), nofun⟩
  exact (Machine.run_invariant keep start run).2

end Device

end AniChat
