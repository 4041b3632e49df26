import AniChat.Laws.App.Sources
import AniChat.Laws.Controller.LoginForm

/-!
# Accounts on a shared device

Observers of earlier sessions stay attached and keep handing messages to their screens. They reach
no screen of a later session: its path was fixed when it was attached, and each session has a screen
of its own.

## What is proved

- `Same`: one device is another without its old screens. `same_kept`, `same_dropped`: every event
  beside those screens is a step of both, every other event leaves the relation as it is.
- `same_begins`, `without_run`: from a press on, a run is so related to the run in which only the
  form was filled in before.
- `account_isolation`: what a screen shows was sent by or to the user it observes, and is what it
  shows in the run without the earlier sessions.
-/

namespace AniChat

open Automata Collections

namespace Device

/-- The screen an event is about. -/
def Event.screen? : Event → Option ObjectId
  | .login _ => none
  | .viewDidLoad k => some k
  | .logout k => some k
  | .deliver k _ _ _ _ => some k
  | .screen k _ => some k
  | .cellForRowAt k _ => some k
  | .didSelectRowAt k _ => some k
  | .release k => some k

/-- The event fills in the form of the login screen. -/
def Event.isForm : Event → Bool
  | .login e => e.isForm
  | _ => false

/-- The event is about none of the screens `old`. -/
def Event.beside (old : List ObjectId) (e : Event) : Bool :=
  match e.screen? with
  | none => true
  | some k => decide (k ∉ old)

/-- The run `pre`, the press that makes screen `k`, `post`, without the sessions of `pre`: of `pre`
only the form is filled in, and what happens to its screens later is left out. -/
def without (pre : List Event) (k : ObjectId) (post : List Event) : List Event :=
  pre.filter Event.isForm ++
    .login (.press k) :: post.filter (Event.beside (pre.filterMap Event.makes))

/-! ## Two devices, one without the old screens -/

/-- No session has begun beside the old screens: nothing is shown, no other screen has been touched,
and no account is waiting for its profile. -/
structure Unstarted (old : List ObjectId) (d : Device) : Prop where
  stack : d.login.navigationStack = []
  untouched : ∀ k, k ∉ old → ∀ vc, d.vcs k = some vc → vc = .new
  unregistered : ∀ request url uid,
    d.login.attempt ≠ some (.register request (.updateChildValues url uid))

/-- `t` is `d` without the screens `old`. Who is signed in may differ until a session begins. -/
structure Same (old : List ObjectId) (d t : Device) : Prop where
  login : d.login.quiet = t.login.quiet
  stack : ∀ k ∈ d.login.navigationStack, k ∉ old
  home : ∀ k, d.login.home = some k → k ∉ old
  vcs : ∀ k, k ∉ old → d.vcs k = t.vcs k
  allocated : ∀ k ∈ t.allocated, k ∈ d.allocated
  earlier : ∀ k ∈ old, k ∈ d.allocated
  trap : t.trap = none
  user : d.currentUser = t.currentUser ∨ d.Unstarted old

/-- What happens to the old screens alone is not seen. -/
theorem Same.elsewhere {old : List ObjectId} {d d' t : Device} (h : Same old d t)
    (login : d'.login = d.login) (user : d'.currentUser = d.currentUser)
    (allocated : d'.allocated = d.allocated) (vcs : ∀ k, k ∉ old → d'.vcs k = d.vcs k) :
    Same old d' t where
  login := by rw [login]; exact h.login
  stack := by rw [login]; exact h.stack
  home := by rw [login]; exact h.home
  vcs k hk := (vcs k hk).trans (h.vcs k hk)
  allocated := by rw [allocated]; exact h.allocated
  earlier := by rw [allocated]; exact h.earlier
  trap := h.trap
  user := by
    rw [user]
    refine h.user.imp_right fun hun => ⟨by rw [login]; exact hun.stack, ?_, ?_⟩
    · exact fun k hk vc hvc => hun.untouched k hk vc ((vcs k hk).symm.trans hvc)
    · rw [login]; exact hun.unregistered

/-- Both give screen `k` the same state. -/
theorem Same.setScreen {old : List ObjectId} {d t : Device} (h : Same old d t) (k : ObjectId)
    {vc : RecentMessagesVC} (started : d.currentUser = t.currentUser ∨ vc = .new) :
    Same old (d.setScreen k vc) (t.setScreen k vc) where
  login := h.login
  stack := h.stack
  home := h.home
  vcs k' hk' := by
    rw [setScreen_vcs, setScreen_vcs, h.vcs k' hk']
  allocated := h.allocated
  earlier := h.earlier
  trap := h.trap
  user := by
    rcases started with hu | hnew
    · exact .inl hu
    · refine h.user.imp_right fun hun => ⟨hun.stack, fun k' hk' vc' hvc' => ?_, hun.unregistered⟩
      rcases update_eq_some.mp hvc' with ⟨-, rfl⟩ | ⟨-, hold⟩
      · exact hnew
      · exact hun.untouched k' hk' vc' hold

/-- Once a screen beside the old ones has been touched, both have the same user. -/
theorem Same.user_eq {old : List ObjectId} {d t : Device} (h : Same old d t) {k : ObjectId}
    {vc : RecentMessagesVC} (beside : k ∉ old) (alive : d.vcs k = some vc) (touched : vc ≠ .new) :
    d.currentUser = t.currentUser := by
  rcases h.user with hu | hun
  · exact hu
  · exact absurd (hun.untouched k beside vc alive) touched

theorem beside_iff {old : List ObjectId} {e : Event} {k : ObjectId} (about : e.screen? = some k) :
    e.beside old = true ↔ k ∉ old := by
  unfold Event.beside
  rw [about]
  exact decide_eq_true_iff

theorem row_screen {e : Event} {k : ObjectId} {row : Nat} (asks : e.row? = some (k, row)) :
    e.screen? = some k := by
  rcases row_cases asks with rfl | rfl
  · rfl
  · rfl

/-! ## The press -/

/-- What a press does. -/
structure Pressed (d : Device) (home : ObjectId) (d' : Device) : Prop where
  fresh : home ∉ d.allocated
  enabled : d.login.isEnabled = true
  shown : d.login.navigationStack = []
  login : d'.login = d.login.loginOrRegister home
  stack : d'.login.navigationStack = []
  vcs : ∀ k, d'.vcs k = if k = home then some .new else d.vcs k
  allocated : d'.allocated = home :: d.allocated
  user : d'.currentUser = d.currentUser
  trap : d'.trap = d.trap
  registering : ∀ request url uid,
    d'.login.attempt = some (.register request (.updateChildValues url uid)) →
      d.login.attempt = some (.register request (.updateChildValues url uid))
  home : d'.login.home = some home

theorem pressed_of_step {d d' : Device} {home : ObjectId}
    (hstep : machine.step d (.login (.press home)) = some d') : Pressed d home d' := by
  obtain ⟨-, hact⟩ := step_cases hstep
  cases hact with
  | login noPress => exact absurd rfl (noPress home)
  | rowMissing asks => cases asks
  | rowSignedOut asks => cases asks
  | row asks => cases asks
  | press fresh inner =>
    cases LoginVC.step_cases inner with
    | press home enabled shown =>
      refine ⟨fresh, enabled, shown, rfl, ?_, ?_, rfl, rfl, rfl, ?_, ?_⟩
      · exact (LoginVC.loginOrRegister_navigationStack d.login home).trans shown
      · exact fun k => Function.update_apply ..
      · intro request url uid hattempt
        rcases LoginVC.loginOrRegister_attempt _ _ hattempt with hputData | hwaits
        · cases hputData
        · exact hwaits
      · exact LoginVC.loginOrRegister_home d.login home

/-- Where the button is ready, it can be pressed with any new object. -/
theorem press_of {d : Device} {home : ObjectId} (running : d.trap = none) (fresh : home ∉ d.allocated)
    (enabled : d.login.isEnabled = true) (shown : d.login.navigationStack = []) :
    ∃ d', machine.step d (.login (.press home)) = some d' := by
  have inner : LoginVC.machine.step d.login (.press home) = some (d.login.loginOrRegister home) := by
    show LoginVC.step d.login (.press home) = _
    simp only [LoginVC.step, enabled, shown, and_self, if_true]
  exact ⟨_, step_of running (.press fresh inner)⟩

/-- A press beside old screens shows nothing and touches none. -/
theorem Pressed.unstarted {old : List ObjectId} {d d' : Device} {home : ObjectId}
    (h : Pressed d home d') (untouched : ∀ k, k ∉ old → ∀ vc, d.vcs k = some vc → vc = .new)
    (unregistered : ∀ request url uid,
      d.login.attempt ≠ some (.register request (.updateChildValues url uid))) :
    d'.Unstarted old where
  stack := h.stack
  untouched k hk vc hvc := by
    rw [h.vcs] at hvc
    split at hvc
    · exact (Option.some.inj hvc).symm
    · exact untouched k hk vc hvc
  unregistered request url uid hattempt :=
    unregistered request url uid (h.registering request url uid hattempt)

/-- Two presses of one object, on screens alike, give devices alike. -/
theorem Pressed.same {old : List ObjectId} {d d' t t' : Device} {home : ObjectId}
    (h : Pressed d home d') (ht : Pressed t home t') (beside : home ∉ old)
    (login : d'.login.quiet = t'.login.quiet) (vcs : ∀ k, k ∉ old → d.vcs k = t.vcs k)
    (allocated : ∀ k ∈ t.allocated, k ∈ d.allocated) (earlier : ∀ k ∈ old, k ∈ d.allocated)
    (trap : t.trap = none) (user : d.currentUser = t.currentUser ∨ d'.Unstarted old) :
    Same old d' t' where
  login := login
  stack k hk := by rw [h.stack] at hk; cases hk
  home k hk := by
    rw [h.home] at hk
    cases hk
    exact beside
  vcs k hk := by rw [h.vcs, ht.vcs, vcs k hk]
  allocated k hk := by
    rw [ht.allocated] at hk
    rw [h.allocated]
    rcases List.mem_cons.mp hk with rfl | hk
    · exact List.mem_cons_self
    · exact List.mem_cons_of_mem _ (allocated k hk)
  earlier k hk := by
    rw [h.allocated]
    exact List.mem_cons_of_mem _ (earlier k hk)
  trap := ht.trap.trans trap
  user := by rw [h.user, ht.user]; exact user

/-! ## Steps of both -/

/-- A step of the login screen that signs nobody in pushes nothing, unless an account was waiting
for its profile. -/
theorem unregistered_step {vc vc' : LoginVC} {e : LoginVC.Event} (noPress : ∀ home, e ≠ .press home)
    (noPop : e ≠ .popViewController) (nobody : e.signsIn = none)
    (unregistered : ∀ request url uid,
      vc.attempt ≠ some (.register request (.updateChildValues url uid)))
    (hstep : LoginVC.machine.step vc e = some vc') :
    vc'.navigationStack = vc.navigationStack ∧ ∀ request url uid,
      vc'.attempt ≠ some (.register request (.updateChildValues url uid)) := by
  cases LoginVC.step_cases hstep with
  | press home => exact absurd rfl (noPress home)
  | popViewController => exact absurd rfl noPop
  | didSelectItemAt row cell =>
    unfold LoginVC.didSelectItemAt
    split
    · exact ⟨rfl, unregistered⟩
    · exact ⟨rfl, unregistered⟩
  | signIn user error waits =>
    cases error with
    | none => cases nobody
    | some err => exact ⟨rfl, fun _ _ _ => nofun⟩
  | @register request stage reply outcome waits resumed =>
    cases LoginClient.resume_cases resumed with
    | updateChildValues url uid => exact absurd waits (unregistered request url uid)
    | createUser url uid => cases nobody
    | putData => exact ⟨rfl, fun _ _ _ h => by cases h⟩
    | downloadURL => exact ⟨rfl, fun _ _ _ h => by cases h⟩
    | _ => exact ⟨rfl, fun _ _ _ => nofun⟩
  | _ => exact ⟨rfl, unregistered⟩

/-- The login screen pushes its home screen, if any. -/
theorem pushes_home {vc vc' : LoginVC} {e : LoginVC.Event} (noPress : ∀ home, e ≠ .press home)
    (hstep : LoginVC.machine.step vc e = some vc') :
    vc'.home = vc.home ∧
      ∀ k ∈ vc'.navigationStack, k ∈ vc.navigationStack ∨ vc.home = some k := by
  have stays : ∀ k ∈ vc.navigationStack, k ∈ vc.navigationStack ∨ vc.home = some k :=
    fun _ hk => .inl hk
  have pushes : ∀ k ∈ vc.succeed.navigationStack, k ∈ vc.navigationStack ∨ vc.home = some k := by
    intro k hk
    rcases List.mem_append.mp hk with hk | hk
    · exact .inr (Option.mem_toList.mp hk)
    · exact .inl hk
  cases LoginVC.step_cases hstep with
  | press home => exact absurd rfl (noPress home)
  | popViewController pushed =>
    exact ⟨rfl, fun k hk => .inl (by rw [pushed]; exact List.mem_cons_of_mem _ hk)⟩
  | didSelectItemAt row cell =>
    unfold LoginVC.didSelectItemAt
    split
    · exact ⟨rfl, stays⟩
    · exact ⟨rfl, stays⟩
  | signIn user error =>
    cases error with
    | none => exact ⟨rfl, pushes⟩
    | some err => exact ⟨rfl, stays⟩
  | @register request stage reply outcome =>
    cases outcome with
    | next => exact ⟨rfl, stays⟩
    | returned => exact ⟨rfl, stays⟩
    | completion => exact ⟨rfl, pushes⟩
  | _ => exact ⟨rfl, stays⟩

theorem same_press {old : List ObjectId} {d d' t : Device} {home : ObjectId} (h : Same old d t)
    (hstep : machine.step d (.login (.press home)) = some d') :
    ∃ t', machine.step t (.login (.press home)) = some t' ∧ Same old d' t' := by
  have hpressed := pressed_of_step hstep
  have henabled : t.login.isEnabled = d.login.isEnabled :=
    (congrArg LoginVC.isEnabled h.login).symm
  have hstack : t.login.navigationStack = d.login.navigationStack :=
    (congrArg LoginVC.navigationStack h.login).symm
  have fresh : home ∉ t.allocated := fun hmem => hpressed.fresh (h.allocated home hmem)
  obtain ⟨t', ht'⟩ :=
    press_of h.trap fresh (henabled.trans hpressed.enabled) (hstack.trans hpressed.shown)
  have hpressed' := pressed_of_step ht'
  have beside : home ∉ old := fun hold => hpressed.fresh (h.earlier home hold)
  have hlogin : d'.login.quiet = t'.login.quiet := by
    rw [hpressed.login, hpressed'.login, LoginVC.eq_of_quiet h.login]
    exact LoginVC.quiet_loginOrRegister rfl
  refine ⟨t', ht', hpressed.same hpressed' beside hlogin h.vcs h.allocated h.earlier h.trap ?_⟩
  exact h.user.imp_right fun hun => hpressed.unstarted hun.untouched hun.unregistered

theorem same_login {old : List ObjectId} {d t : Device} (h : Same old d t) {e : LoginVC.Event}
    {login : LoginVC} (noPress : ∀ home, e ≠ .press home) (noPop : e ≠ .popViewController)
    (inner : LoginVC.machine.step d.login e = some login) :
    ∃ t', machine.step t (.login e) = some t' ∧ Same old (d.setLogin login e) t' := by
  obtain ⟨login', inner', hquiet⟩ := LoginVC.quiet_step h.login inner
  refine ⟨_, step_of h.trap (.login noPress noPop inner'), ?_⟩
  obtain ⟨hhome, hpush⟩ := pushes_home noPress inner
  refine ⟨hquiet, ?_, ?_, h.vcs, h.allocated, h.earlier, h.trap, ?_⟩
  · intro k hk
    rcases hpush k hk with hstack | hk
    · exact h.stack k hstack
    · exact h.home k hk
  · exact fun k hk => h.home k (hhome.symm.trans hk)
  · show e.signsIn.or d.currentUser = e.signsIn.or t.currentUser ∨ _
    cases hs : e.signsIn with
    | some user => exact .inl rfl
    | none =>
      refine h.user.imp id fun hun => ?_
      obtain ⟨hstack, hun'⟩ := unregistered_step noPress noPop hs hun.unregistered inner
      exact ⟨hstack.trans hun.stack, hun.untouched, hun'⟩

theorem same_logout {old : List ObjectId} {d t : Device} (h : Same old d t) {k : ObjectId}
    {rest : List ObjectId} {vc : RecentMessagesVC} (beside : k ∉ old) (alive : d.vcs k = some vc)
    (loaded : vc.viewLoaded = true) (top : d.login.navigationStack = k :: rest) :
    ∃ t', machine.step t (.logout k) = some t' ∧
      Same old (d.logout { d.login with navigationStack := rest }) t' := by
  have hstack : t.login.navigationStack = d.login.navigationStack :=
    (congrArg LoginVC.navigationStack h.login).symm
  refine ⟨_, step_of h.trap (.logout ((h.vcs k beside).symm.trans alive) loaded
    (hstack.trans top)), ?_⟩
  refine ⟨?_, ?_, h.home, h.vcs, h.allocated, h.earlier, h.trap, .inl rfl⟩
  · show LoginVC.quiet { d.login with navigationStack := rest } =
      LoginVC.quiet { t.login with navigationStack := rest }
    rw [LoginVC.eq_of_quiet h.login]
    rfl
  · exact fun k' hk' => h.stack k' (by rw [top]; exact List.mem_cons_of_mem _ hk')

/-- **Every event beside the old screens is a step of both.** -/
theorem same_kept {old : List ObjectId} {d d' t : Device} {e : Event} (h : Same old d t)
    (untrapped : d'.trap = none) (hstep : machine.step d e = some d')
    (kept : e.beside old = true) : ∃ t', machine.step t e = some t' ∧ Same old d' t' := by
  have hstack : t.login.navigationStack = d.login.navigationStack :=
    (congrArg LoginVC.navigationStack h.login).symm
  obtain ⟨-, hact⟩ := step_cases hstep
  cases hact with
  | press => exact same_press h hstep
  | login noPress noPop inner => exact same_login h noPress noPop inner
  | logout alive loaded top =>
    exact same_logout h ((beside_iff rfl).mp kept) alive loaded top
  | @viewDidLoad k vc alive pushed first =>
    have hk := (beside_iff rfl).mp kept
    have huser : d.currentUser = t.currentUser := by
      rcases h.user with hu | hun
      · exact hu
      · rw [hun.stack] at pushed; cases pushed
    refine ⟨_, step_of h.trap (.viewDidLoad ((h.vcs k hk).symm.trans alive)
      (by rw [hstack]; exact pushed) first), ?_⟩
    rw [← huser]
    exact h.setScreen k (.inl huser)
  | @deliverReleased k v m order info gone =>
    have hk := (beside_iff rfl).mp kept
    exact ⟨_, step_of h.trap (.deliverReleased ((h.vcs k hk).symm.trans gone)), h⟩
  | deliverSignedOut => cases untrapped
  | @deliver k v m order info u vc alive attached signedIn =>
    have hk := (beside_iff rfl).mp kept
    have huser := h.user_eq hk alive fun hnew => attached (by rw [hnew]; rfl)
    exact ⟨_, step_of h.trap (.deliver ((h.vcs k hk).symm.trans alive) attached
      (huser.symm.trans signedIn)), h.setScreen k (.inl huser)⟩
  | @screen k e vc vc' alive silent inner =>
    have hk := (beside_iff rfl).mp kept
    refine ⟨_, step_of h.trap (.screen ((h.vcs k hk).symm.trans alive) silent inner),
      h.setScreen k (h.user.imp_right fun hun => ?_)⟩
    cases hun.untouched k hk vc alive
    exact new_step silent inner
  | rowMissing => cases untrapped
  | rowSignedOut => cases untrapped
  | @row e k row vc u asks alive shown inRange signedIn =>
    have hk := (beside_iff (row_screen asks)).mp kept
    have huser := h.user_eq hk alive fun hnew => by rw [hnew] at shown; cases shown
    exact ⟨_, step_of h.trap (.row asks ((h.vcs k hk).symm.trans alive) shown inRange
      (huser.symm.trans signedIn)), h⟩
  | @release k vc alive home popped idle =>
    have hk := (beside_iff rfl).mp kept
    have hhome : t.login.home = d.login.home := (congrArg LoginVC.home h.login).symm
    refine ⟨_, step_of h.trap (.release ((h.vcs k hk).symm.trans alive) (by rw [hhome]; exact home)
      (by rw [hstack]; exact popped) idle), ?_⟩
    refine ⟨h.login, h.stack, h.home, ?_, h.allocated, h.earlier, h.trap, ?_⟩
    · intro k' hk'
      show Function.update d.vcs k none k' = Function.update t.vcs k none k'
      rw [Function.update_apply, Function.update_apply, h.vcs k' hk']
    · refine h.user.imp_right fun hun => ⟨hun.stack, fun k' hk' vc' hvc' => ?_, hun.unregistered⟩
      change Function.update d.vcs k none k' = _ at hvc'
      rw [Function.update_apply] at hvc'
      split at hvc'
      · cases hvc'
      · exact hun.untouched k' hk' vc' hvc'

/-- **An event about an old screen leaves the relation as it is.** -/
theorem same_dropped {old : List ObjectId} {d d' t : Device} {e : Event} (h : Same old d t)
    (untrapped : d'.trap = none) (hstep : machine.step d e = some d')
    (dropped : e.beside old = false) : Same old d' t := by
  have hold : ∀ {k}, e.screen? = some k → k ∈ old := by
    intro k about
    by_contra hk
    rw [(beside_iff about).mpr hk] at dropped
    cases dropped
  have hset : ∀ {k} {x : Option RecentMessagesVC}, k ∈ old →
      ∀ k', k' ∉ old → Function.update d.vcs k x k' = d.vcs k' := by
    intro k x hk k' hk'
    have hne : k' ≠ k := fun heq => hk' (by rw [heq]; exact hk)
    exact Function.update_of_ne hne ..
  obtain ⟨-, hact⟩ := step_cases hstep
  cases hact with
  | press => cases dropped
  | login => cases dropped
  | viewDidLoad alive pushed => exact absurd (hold rfl) (h.stack _ pushed)
  | logout alive loaded top =>
    exact absurd (hold rfl) (h.stack _ (by rw [top]; exact List.mem_cons_self))
  | deliverReleased => exact h
  | deliverSignedOut => cases untrapped
  | deliver => exact h.elsewhere rfl rfl rfl (hset (hold rfl))
  | screen => exact h.elsewhere rfl rfl rfl (hset (hold rfl))
  | rowMissing => cases untrapped
  | rowSignedOut => cases untrapped
  | row => exact h
  | release => exact h.elsewhere rfl rfl rfl (hset (hold rfl))

/-! ## Before the press -/

/-- A device on which only the form has been filled in, as `d` has it. -/
def filled (restored : Option Uid) (d : Device) : Device :=
  { initial restored with login := d.login.form }

theorem row_isForm {e : Event} {k : ObjectId} {row : Nat} (asks : e.row? = some (k, row)) :
    e.isForm = false := by
  rcases row_cases asks with rfl | rfl
  · rfl
  · rfl

/-- Filling in the form signs nobody in. -/
theorem signsIn_of_isForm {e : LoginVC.Event} (isForm : e.isForm = true) : e.signsIn = none := by
  cases e with
  | signIn => cases isForm
  | register => cases isForm
  | _ => rfl

/-- No step starts the program again. -/
theorem running_of_step {d d' : Device} {e : Event} (hstep : machine.step d e = some d')
    (_ : d'.trap = none) : d.trap = none := (step_cases hstep).1

theorem filled_kept {restored : Option Uid} {d d' : Device} {e : Event} (isForm : e.isForm = true)
    (hstep : machine.step d e = some d') :
    machine.step (d.filled restored) e = some (d'.filled restored) := by
  obtain ⟨-, hact⟩ := step_cases hstep
  cases hact with
  | press => cases isForm
  | @login e login noPress noPop inner =>
    rw [step_of rfl (.login noPress noPop (LoginVC.form_step isForm inner))]
    simp only [filled, setLogin, signsIn_of_isForm isForm, Option.none_or, initial]
  | rowMissing asks => rw [row_isForm asks] at isForm; cases isForm
  | rowSignedOut asks => rw [row_isForm asks] at isForm; cases isForm
  | row asks => rw [row_isForm asks] at isForm; cases isForm
  | _ => cases isForm

theorem filled_dropped {restored : Option Uid} {d d' : Device} {e : Event}
    (isForm : e.isForm = false) (hstep : machine.step d e = some d') : d'.filled restored = d.filled restored := by
  obtain ⟨-, hact⟩ := step_cases hstep
  cases hact with
  | press fresh inner => simp only [filled, setLogin, LoginVC.form_stays rfl inner]
  | login noPress noPop inner => simp only [filled, setLogin, LoginVC.form_stays isForm inner]
  | _ => rfl

/-- The events of the form alone fill it in as it is after the whole run. -/
theorem filled_run {restored : Option Uid} {d : Device} {es : List Event}
    (run : machine.run (initial restored) es = some d) (untrapped : d.trap = none) :
    machine.run (initial restored) (es.filter Event.isForm) = some (d.filled restored) := by
  have kept : ∀ (d t : Device) e d', t = d.filled restored → d.trap = none → d'.trap = none →
      machine.step d e = some d' → e.isForm = true →
      ∃ t', machine.step t e = some t' ∧ t' = d'.filled restored := by
    intro d t e d' ht _ _ hstep isForm
    rw [ht]
    exact ⟨_, filled_kept isForm hstep, rfl⟩
  have dropped : ∀ (d t : Device) e d', t = d.filled restored → d.trap = none → d'.trap = none →
      machine.step d e = some d' → e.isForm = false → t = d'.filled restored := by
    intro d t e d' ht _ _ hstep isForm
    rw [filled_dropped isForm hstep]
    exact ht
  obtain ⟨t, hrun, rfl⟩ :=
    Machine.run_filter (fun _ _ _ => running_of_step) kept dropped rfl run untrapped
  exact hrun

/-- **The press begins both alike.** Nothing is shown and no attempt is under way where the button
can be pressed, and the screen it makes is a fresh one. -/
theorem same_begins {restored : Option Uid} {d d' : Device} {pre : List Event} {k : ObjectId}
    (run : machine.run (initial restored) pre = some d)
    (hstep : machine.step d (.login (.press k)) = some d') :
    ∃ t, machine.step (d.filled restored) (.login (.press k)) = some t ∧
      Same (pre.filterMap Event.makes) d' t := by
  have hpressed := pressed_of_step hstep
  have hallocated := allocated_run run
  have hidle : d.login.attempt = none := by
    by_contra hwaits
    have henabled := hpressed.enabled
    rw [LoginVC.disabled_of_attempt (login_run run) hwaits] at henabled
    cases henabled
  have hgone : ∀ k', k' ∉ pre.filterMap Event.makes → d.vcs k' = none := by
    intro k' hk'
    by_contra halive
    exact hk' ((hallocated k').mp (made_run run k' halive))
  obtain ⟨t, ht⟩ := @press_of (d.filled restored) k rfl List.not_mem_nil rfl rfl
  have hpressed' := pressed_of_step ht
  have hlogin : d'.login.quiet = t.login.quiet := by
    rw [hpressed.login, hpressed'.login]
    exact LoginVC.quiet_press hidle hpressed.shown
  refine ⟨t, ht, hpressed.same hpressed' ?_ hlogin hgone nofun ?_ rfl (.inr ?unstarted)⟩
  · exact fun hk => hpressed.fresh ((hallocated k).mpr hk)
  · exact fun k' hk' => (hallocated k').mpr hk'
  · refine hpressed.unstarted ?_ ?_
    · intro k' hk' vc hvc
      rw [hgone k' hk'] at hvc
      cases hvc
    · intro request url uid hwaits
      rw [hidle] at hwaits
      cases hwaits

/-- A press makes a new object. -/
theorem press_fresh {restored : Option Uid} {d : Device} {pre post : List Event} {k : ObjectId}
    (run : machine.run (initial restored) (pre ++ .login (.press k) :: post) = some d) :
    k ∉ pre.filterMap Event.makes := by
  obtain ⟨d₁, hpre, hrest⟩ := Machine.run_append_eq_some.mp run
  obtain ⟨d₂, hpress, -⟩ := Machine.run_cons_eq_some.mp hrest
  rw [← allocated_run hpre k]
  exact (pressed_of_step hpress).fresh

/-- **The run without the earlier sessions.** It is a run, and every screen made since is in it what
it is with them. -/
theorem without_run {restored : Option Uid} {d : Device} {pre post : List Event} {k : ObjectId}
    (run : machine.run (initial restored) (pre ++ .login (.press k) :: post) = some d)
    (untrapped : d.trap = none) :
    ∃ t, machine.run (initial restored) (without pre k post) = some t ∧
      Same (pre.filterMap Event.makes) d t := by
  obtain ⟨d₁, hpre, hrest⟩ := Machine.run_append_eq_some.mp run
  obtain ⟨d₂, hpress, hpost⟩ := Machine.run_cons_eq_some.mp hrest
  have htrap₁ : d₁.trap = none :=
    Machine.run_good (fun _ _ _ => running_of_step) hrest untrapped
  obtain ⟨t₂, hpress', hsame⟩ := same_begins hpre hpress
  have kept : ∀ (d t : Device) e d', Same (pre.filterMap Event.makes) d t → d.trap = none →
      d'.trap = none → machine.step d e = some d' → e.beside (pre.filterMap Event.makes) = true →
      ∃ t', machine.step t e = some t' ∧ Same (pre.filterMap Event.makes) d' t' :=
    fun _ _ _ _ h _ htrap hstep hkept => same_kept h htrap hstep hkept
  have dropped : ∀ (d t : Device) e d', Same (pre.filterMap Event.makes) d t → d.trap = none →
      d'.trap = none → machine.step d e = some d' → e.beside (pre.filterMap Event.makes) = false →
      Same (pre.filterMap Event.makes) d' t :=
    fun _ _ _ _ h _ htrap hstep hdropped => same_dropped h htrap hstep hdropped
  obtain ⟨t, hpost', hsame'⟩ :=
    Machine.run_filter (fun _ _ _ => running_of_step) kept dropped hsame hpost untrapped
  refine ⟨t, ?_, hsame'⟩
  refine Machine.run_append_eq_some.mpr ⟨_, filled_run hpre htrap₁, ?_⟩
  exact Machine.run_cons_eq_some.mpr ⟨t₂, hpress', hpost'⟩

end Device

namespace System

/-- **Account isolation on a shared device.** A screen that observes `u` only ever contains messages
sent by or to `u`, whoever else has used the device and whatever their observers still deliver. And
it is what it is in the run in which the sessions before its press never happened. -/
theorem account_isolation {restored : Option Uid} {es : List Event} {s : World × Device}
    {k : ObjectId} {vc : RecentMessagesVC} {u : Uid}
    (run : machine.run (initial restored) es = some s) (untrapped : s.2.trap = none)
    (alive : s.2.vcs k = some vc) (observes : vc.observing = some u) :
    (∀ message ∈ vc.messages, message.fromId = u ∨ message.toId = u) ∧
    ∀ pre post, deviceEvents es = pre ++ .login (.press k) :: post →
      ∃ d, Device.machine.run (.initial restored) (Device.without pre k post) = some d ∧
        d.trap = none ∧ d.vcs k = some vc := by
  have hsound := sound_run run
  have hdevice := device_run run
  constructor
  · intro message hmem
    have hlists := Device.listed_run hdevice k vc alive
    obtain ⟨v, hv⟩ := Dictionary.mem_values.mp (hlists.perm.mem_iff.mp hmem)
    exact ((hsound.linked.sourced k vc u alive observes v message hv).between hsound.consistent).1
  · intro pre post hes
    rw [hes] at hdevice
    obtain ⟨d, hrun, hsame⟩ := Device.without_run hdevice untrapped
    have fresh := Device.press_fresh hdevice
    exact ⟨d, hrun, hsame.trap, (hsame.vcs k fresh).symm.trans alive⟩

/-- Alice leaves with her message still to come, and Carol signs in; both messages then arrive. -/
def carolFollows : List Event :=
  arrives "alice" 10 ++ bobWrites "m" "alice" 10 ++ [.device (.logout 10)] ++ arrives "carol" 11 ++
    [handedOn "m" "alice" 10] ++ bobWrites "n" "carol" 11 ++ [handedOn "n" "carol" 11]

theorem account_isolation_carolFollows : ∃ s vc,
    machine.run (initial none) carolFollows = some s ∧ s.2.vcs 11 = some vc ∧
    vc.messages.map Message.text = ["hi"] ∧
    (∀ message ∈ vc.messages, message.fromId = "carol" ∨ message.toId = "carol") ∧
    ∃ d, Device.machine.run (.initial none)
        [.login (.toggle 0), .login (.toggle 0), .login (.press 11), .login (.signIn "carol" none),
          .viewDidLoad 11, .deliver 11 "bob" "n" (.stored Message) ⟨"carol", "bob", 1, "hi"⟩] =
        some d ∧ d.vcs 11 = some vc := by
  obtain ⟨hown, hsame⟩ := @account_isolation none carolFollows _ 11 _ "carol" rfl rfl rfl rfl
  obtain ⟨d, hrun, -, hvc⟩ := hsame
    [.login (.toggle 0), .login (.press 10), .login (.signIn "alice" none), .viewDidLoad 10,
      .logout 10, .login (.toggle 0)]
    [.login (.signIn "carol" none), .viewDidLoad 11,
      .deliver 10 "bob" "m" (.stored Message) ⟨"alice", "bob", 1, "hi"⟩,
      .deliver 11 "bob" "n" (.stored Message) ⟨"carol", "bob", 1, "hi"⟩] rfl
  exact ⟨_, _, rfl, rfl, rfl, hown, d, hrun, hvc⟩

end System

end AniChat
