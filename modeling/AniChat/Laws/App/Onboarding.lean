import AniChat.App.Onboarding
import AniChat.Laws.Controller.LoginButton

/-!
# From the form to the profile

A press on a login screen starts a call of `LoginClient.register`, whose closures report to the
screen. The two sides are kept in step: what the screen waits for is what the call waits for.

## What is proved

- `attempt_is_call`: a screen's attempt is the one call of its client that is going, at the stage
  where the call is, with what was in the form.
- `registered_as_typed`: every account and every profile goes back to a press, and holds what was in
  the form then; whoever is signed in has such an account.
- `registration_ends`: a registration ends in one of three ways, each with what the screen then does.
-/

namespace AniChat

open Automata Collections

/-! ## One step of a screen -/

namespace LoginVC

/-- The form of a screen that registers `request`. -/
structure Asked (vc : LoginVC) (request : RegisterRequest) : Prop where
  mode : vc.selectedSegmentIndex ≠ 0
  name : vc.nameText = some request.name
  email : vc.emailText = some request.email
  password : vc.passwordText = some request.password
  selected : vc.didSelectProfile = some true
  avatar : vc.avatar = some request.avatar

theorem registering_eq_some {vc : LoginVC} {request : RegisterRequest} :
    vc.registering = some request ↔ vc.attempt = some (.register request .putData) := by
  unfold registering
  constructor
  · intro h
    split at h
    · next hattempt =>
      cases h
      exact hattempt
    · cases h
  · intro h
    rw [h]

/-- What a press registers stands in the form. -/
theorem asked_of_press {vc : LoginVC} {home : ObjectId} {request : RegisterRequest}
    (idle : vc.attempt = none)
    (registers : (vc.loginOrRegister home).attempt = some (.register request .putData)) :
    vc.Asked request := by
  obtain ⟨alerts, hforce⟩ :=
    forceUserToFullyRegister_eq { vc with home := some home, isEnabled := false }
  unfold loginOrRegister handleLogin handleRegister at registers
  dsimp only at registers
  rw [hforce] at registers
  split at registers
  · split at registers
    · cases registers
    · cases idle.symm.trans registers
  · next mode =>
    split at registers
    · next username email password hname hemail hpassword =>
      split at registers
      · cases idle.symm.trans registers
      · cases idle.symm.trans registers
      · next avatarName hselect havatar =>
        cases registers
        exact ⟨mode, hname, hemail, hpassword, hselect, havatar⟩
      · cases idle.symm.trans registers
    · cases idle.symm.trans registers

/-- An event of the form leaves the attempt, the button and what lies above. -/
theorem form_spares {vc vc' : LoginVC} {e : Event} (isForm : e.isForm = true)
    (hstep : machine.step vc e = some vc') : vc'.attempt = vc.attempt ∧
      vc'.isEnabled = vc.isEnabled ∧ vc'.navigationStack = vc.navigationStack ∧
        vc'.home = vc.home := by
  cases step_cases hstep with
  | press => cases isForm
  | signIn => cases isForm
  | register => cases isForm
  | popViewController => cases isForm
  | didSelectItemAt row cell =>
    unfold didSelectItemAt
    split
    · exact ⟨rfl, rfl, rfl, rfl⟩
    · exact ⟨rfl, rfl, rfl, rfl⟩
  | _ => exact ⟨rfl, rfl, rfl, rfl⟩

/-- The avatar of a screen is one that the strip offers. -/
def Offered (vc : LoginVC) : Prop := ∀ avatar, vc.avatar = some avatar → avatar ∈ avatars

theorem offered_step {vc vc' : LoginVC} {e : Event} (h : vc.Offered)
    (hstep : machine.step vc e = some vc') : vc'.Offered := by
  cases step_cases hstep with
  | press home =>
    obtain ⟨_, _, _, heq, -⟩ := loginOrRegister_eq vc home
    rw [heq]
    exact h
  | didSelectItemAt row cell =>
    unfold didSelectItemAt
    split
    · intro avatar havatar
      cases havatar
      exact List.getElem_mem _
    · exact h
  | signIn user error =>
    unfold loginCompletion
    split
    · exact h
    · exact h
  | @register request stage reply outcome =>
    unfold registerCompletion
    split
    · exact h
    · exact h
    · exact h
  | _ => exact h

theorem offered_run {vc : LoginVC} {es : List Event} (run : machine.run new es = some vc) :
    vc.Offered :=
  Machine.run_invariant (fun _ _ _ => offered_step) (fun _ h => by cases h) run

/-- While an attempt is in flight the screen is on top. -/
theorem shown_of_attempt {es : List Event} {vc : LoginVC} (run : machine.run new es = some vc)
    (waits : vc.attempt ≠ none) : vc.navigationStack = [] := by
  refine Machine.run_invariant (P := fun vc => vc.attempt ≠ none → vc.navigationStack = [])
    ?_ (fun h => absurd rfl h) run waits
  intro vc e vc' ih hstep
  cases step_cases hstep with
  | press home enabled shown =>
    intro _
    rw [loginOrRegister_navigationStack]
    exact shown
  | didSelectItemAt row cell =>
    unfold didSelectItemAt
    split
    · exact ih
    · exact ih
  | signIn user error waits =>
    intro hwaits
    cases error with
    | none => exact absurd rfl hwaits
    | some err => exact absurd rfl hwaits
  | @register request stage reply outcome waits =>
    intro hwaits
    cases outcome with
    | next stage => exact ih (by rw [waits]; exact nofun)
    | returned => exact absurd rfl hwaits
    | completion => exact absurd rfl hwaits
  | popViewController pushed =>
    intro hwaits
    rw [ih hwaits] at pushed
    cases pushed
  | _ => exact ih

/-- The screen is stuck, with nothing on top that could sign out. -/
structure Dead (vc : LoginVC) : Prop where
  stuck : vc.Stuck
  shown : vc.navigationStack = []

end LoginVC

/-! ## One step of the services -/

/-- A closure runs on the replies that its relation lists. -/
theorem LoginClient.Resume.resume {stage : Stage} {reply : Reply} {outcome : Outcome}
    (h : Resume stage reply outcome) : LoginClient.resume stage reply = some outcome := by
  cases h <;> rfl

namespace Services

/-- A call was made for a request. -/
structure Asks (call : RegisterCall) (request : RegisterRequest) : Prop where
  name : call.name = request.name.string
  email : call.email = request.email.string
  password : call.password = request.password.string
  avatar : call.avatar = request.avatar

/-- What a closure leaves of the arguments. -/
theorem Asks.after {call : RegisterCall} {request : RegisterRequest} (h : Asks call request)
    (outcome : LoginClient.Outcome) : Asks (call.after outcome) request := by
  cases outcome <;> exact ⟨h.name, h.email, h.password, h.avatar⟩

/-- The call is the same, or has just made its account, which is then signed in. -/
inductive Made (s t : Services) (id : CallId) (call : RegisterCall) : RegisterCall → Prop where
  | same (user : t.currentUser = s.currentUser) : Made s t id call call
  | account (uid : Uid) (user : t.currentUser = Function.update s.currentUser id.client (some uid)) :
      Made s t id call { call with authResult := some uid }

/-- An answer finds its call waiting, and among the calls it changes no other. -/
structure Answered (s t : Services) (id : CallId) (reply : LoginClient.Reply)
    (call made : RegisterCall) (stage : LoginClient.Stage) (outcome : LoginClient.Outcome) :
    Prop where
  found : s.calls id = some call
  waits : call.stage = some stage
  resumed : LoginClient.resume stage reply = some outcome
  account : Made s t id call made
  calls : t.calls = Function.update s.calls id (some (made.after outcome))

/-- What the closure of a stage runs on. An account that was made is signed in; a closure that is
given an error does not look. -/
def Event.reply? : Event → Option (CallId × LoginClient.Reply)
  | .putData id error alive => some (id, .putData error alive)
  | .downloadURL id url error => some (id, .downloadURL url error)
  | .createUser id uid error => some (id, .createUser error (some uid))
  | .updateChildValues id error => some (id, .updateChildValues error)
  | _ => none

theorem putData_answered {s t : Services} {id : CallId} {error : Option String} {alive : Bool}
    (hstep : machine.step s (.putData id error alive) = some t) :
    ∃ call made stage outcome, Answered s t id (.putData error alive) call made stage outcome := by
  obtain ⟨call, hcall, h⟩ := Option.bind_eq_some_iff.mp hstep
  obtain ⟨stage, outcome, hstage, hresume, rfl⟩ := reply_cases h
  refine ⟨call, call, stage, outcome, hcall, hstage, hresume.resume, .same ?_, ?_⟩
  · split <;> rfl
  · split <;> rfl

theorem downloadURL_answered {s t : Services} {id : CallId} {url : Option AvatarUrl}
    {error : Option String} (hstep : machine.step s (.downloadURL id url error) = some t) :
    ∃ call made stage outcome,
      Answered s t id (.downloadURL url error) call made stage outcome := by
  obtain ⟨call, hcall, h⟩ := Option.bind_eq_some_iff.mp hstep
  obtain ⟨-, h⟩ := Option.ite_none_right_eq_some.mp h
  obtain ⟨stage, outcome, hstage, hresume, rfl⟩ := reply_cases h
  exact ⟨call, call, stage, outcome, hcall, hstage, hresume.resume, .same rfl, rfl⟩

theorem createUser_answered {s t : Services} {id : CallId} {uid : Uid} {error : Option String}
    (hstep : machine.step s (.createUser id uid error) = some t) :
    ∃ call made stage outcome,
      Answered s t id (.createUser error (some uid)) call made stage outcome := by
  obtain ⟨call, hcall, h⟩ := Option.bind_eq_some_iff.mp hstep
  cases error with
  | none =>
    obtain ⟨-, h⟩ := Option.ite_none_right_eq_some.mp h
    obtain ⟨stage, outcome, hstage, hresume, rfl⟩ := reply_cases h
    exact ⟨call, _, stage, outcome, hcall, hstage, hresume.resume, .account uid rfl, rfl⟩
  | some err =>
    obtain ⟨stage, outcome, hstage, hresume, rfl⟩ := reply_cases h
    cases hresume with
    | createUserFailed url err user =>
      exact ⟨call, call, .createUser url, .returned, hcall, hstage, rfl, .same rfl, rfl⟩

theorem updateChildValues_answered {s t : Services} {id : CallId} {error : Option String}
    (hstep : machine.step s (.updateChildValues id error) = some t) :
    ∃ call made stage outcome,
      Answered s t id (.updateChildValues error) call made stage outcome := by
  obtain ⟨call, hcall, h⟩ := Option.bind_eq_some_iff.mp hstep
  split at h
  · obtain ⟨stage, outcome, hstage, hresume, rfl⟩ := reply_cases h
    refine ⟨call, call, stage, outcome, hcall, hstage, hresume.resume, .same ?_, ?_⟩
    · split <;> rfl
    · split <;> rfl
  · cases h

/-- **An answer moves the one call it belongs to.** -/
theorem answered_step {s t : Services} {e : Event} {id : CallId} {reply : LoginClient.Reply}
    (answers : e.reply? = some (id, reply)) (hstep : machine.step s e = some t) :
    ∃ call made stage outcome, Answered s t id reply call made stage outcome := by
  cases e with
  | auth => cases answers
  | register => cases answers
  | putData => cases answers; exact putData_answered hstep
  | downloadURL => cases answers; exact downloadURL_answered hstep
  | createUser => cases answers; exact createUser_answered hstep
  | updateChildValues => cases answers; exact updateChildValues_answered hstep

/-- Every account was made by a call, for its email and with its password. -/
def Owned (s : Services) : Prop :=
  ∀ email account, s.accounts.lookup email = some account → ∃ id call, s.calls id = some call ∧
    call.authResult = some account.uid ∧ call.email = email ∧ call.password = account.password

/-- The call that takes another's place has made what the other has made. -/
theorem Owned.setCall {s t : Services} (h : s.Owned) (accounts : t.accounts = s.accounts)
    (calls : t.calls = s.calls) {id : CallId} {call : RegisterCall}
    (same : ∀ old, s.calls id = some old → call.authResult = old.authResult ∧
      call.email = old.email ∧ call.password = old.password) : (t.setCall id call).Owned := by
  intro email account haccount
  change t.accounts.lookup email = _ at haccount
  rw [accounts] at haccount
  obtain ⟨id', call', hcall, hmade, hemail, hpassword⟩ := h email account haccount
  by_cases hid : id' = id
  · subst hid
    obtain ⟨hsame, hsame', hsame''⟩ := same call' hcall
    refine ⟨id', call, by rw [setCall_calls, if_pos rfl], hsame.trans hmade, hsame'.trans hemail,
      hsame''.trans hpassword⟩
  · exact ⟨id', call', by rw [setCall_calls, if_neg hid, calls]; exact hcall, hmade, hemail,
      hpassword⟩

theorem Owned.createUser {s : Services} (h : s.Owned) (consistent : s.Consistent) {id : CallId}
    {call : RegisterCall} {url : AvatarUrl} {uid : Uid} (found : s.calls id = some call)
    (stage : call.stage = some (.createUser url)) :
    ((s.createUser id.client call.email call.password uid).setCall id
      { call with stage := some (.updateChildValues url uid), authResult := some uid }).Owned := by
  intro email account haccount
  change (s.accounts.insert call.email ⟨uid, call.password⟩).lookup email = _ at haccount
  rw [Dictionary.lookup_insert_iff] at haccount
  split at haccount
  · next heq =>
    cases haccount
    refine ⟨id, { call with stage := some (.updateChildValues url uid), authResult := some uid },
      by rw [setCall_calls, if_pos rfl], rfl, heq.symm, rfl⟩
  · obtain ⟨id', call', hcall, hmade, hemail, hpassword⟩ := h email account haccount
    have hid : id' ≠ id := by
      intro heq
      subst heq
      cases found.symm.trans hcall
      rw [((consistent.stands id' call found).untouched stage).1.authResult] at hmade
      cases hmade
    exact ⟨id', call', by rw [setCall_calls, if_neg hid]; exact hcall, hmade, hemail, hpassword⟩

theorem owned_step {s s' : Services} {e : Event} (h : s.Owned) (consistent : s.Consistent)
    (hstep : machine.step s e = some s') : s'.Owned := by
  have same : ∀ {id : CallId} {call call' : RegisterCall}, s.calls id = some call →
      call'.authResult = call.authResult ∧ call'.email = call.email ∧
        call'.password = call.password → ∀ old, s.calls id = some old →
      call'.authResult = old.authResult ∧ call'.email = old.email ∧
        call'.password = old.password := by
    intro id call call' hfound hsame old hold
    cases hfound.symm.trans hold
    exact hsame
  cases step_cases hstep with
  | auth => exact h
  | register fresh => exact h.setCall rfl rfl fun _ hold => by cases fresh.symm.trans hold
  | failed _ found => exact h.setCall rfl rfl (same found ⟨rfl, rfl, rfl⟩)
  | released found => exact h.setCall (t := s.upload _) rfl rfl (same found ⟨rfl, rfl, rfl⟩)
  | putData found => exact h.setCall (t := s.upload _) rfl rfl (same found ⟨rfl, rfl, rfl⟩)
  | downloadURL found => exact h.setCall rfl rfl (same found ⟨rfl, rfl, rfl⟩)
  | createUser found stage => exact h.createUser consistent found stage
  | updateChildValues found =>
    exact h.setCall (t := s.updateChildValues _ _) rfl rfl (same found ⟨rfl, rfl, rfl⟩)

theorem owned_run {s : Services} {es : List Event} (run : machine.run initial es = some s) :
    s.Owned := by
  refine Machine.run_induction (P := fun _ s => s.Owned) nofun ?_ run
  intro es e s s' hrun h hstep
  exact owned_step h (consistent_run hrun) hstep

/-- A call whose account has a profile has registered its user. -/
theorem Consistent.registered {s : Services} (h : s.Consistent) {id : CallId} {call : RegisterCall}
    {uid : Uid} {info : UserInfo} (found : s.calls id = some call)
    (made : call.authResult = some uid) (profile : s.users uid = some info) :
    ∃ url, call.Registered s.users uid url := by
  have hstands := h.stands id call found
  unfold RegisterCall.Stands at hstands
  split at hstands
  · cases hstands.authResult.symm.trans made
  · cases hstands.authResult.symm.trans made
  · cases hstands.1.authResult.symm.trans made
  · cases hstands.1.authResult.symm.trans made
    cases hstands.1.profile.symm.trans profile
  · rcases hstands with hu | ⟨uid', hu⟩ | ⟨uid', url, hr⟩
    · cases hu.authResult.symm.trans made
    · cases hu.authResult.symm.trans made
      cases hu.profile.symm.trans profile
    · cases hr.authResult.symm.trans made
      exact ⟨url, hr⟩

/-- An account stays. -/
theorem accounts_step {s s' : Services} {e : Event} (hstep : machine.step s e = some s')
    {email : String} {account : Account} (h : s.accounts.lookup email = some account) :
    s'.accounts.lookup email = some account := by
  cases step_cases hstep with
  | @createUser id call url uid found stage free =>
    change (s.accounts.insert call.email ⟨uid, call.password⟩).lookup email = _
    rw [Dictionary.lookup_insert_iff, if_neg, h]
    intro heq
    rw [heq] at h
    exact free (AList.lookup_isSome.mp (by rw [h]; rfl))
  | _ => exact h

end Services

/-! ## One step of both -/

namespace Onboarding

/-- What one event can do. -/
inductive Step (s : Services × (ClientId → LoginVC)) :
    Event → Services × (ClientId → LoginVC) → Prop where
  | form {c : ClientId} {e : { e : LoginVC.Event // e.isForm = true }} {vc : LoginVC}
      (edited : LoginVC.machine.step (s.2 c) e = some vc) :
      Step s (.form c e) (s.1, Function.update s.2 c vc)
  | press {c : ClientId} {home : ObjectId} (enabled : (s.2 c).isEnabled = true)
      (registers : ((s.2 c).loginOrRegister home).registering = none) :
      Step s (.press c home none) (s.1, Function.update s.2 c ((s.2 c).loginOrRegister home))
  | register {c : ClientId} {home : ObjectId} {k : Nat} {request : RegisterRequest}
      (enabled : (s.2 c).isEnabled = true)
      (registers : ((s.2 c).loginOrRegister home).registering = some request)
      (fresh : s.1.calls ⟨c, k⟩ = none) :
      Step s (.press c home (some (k, request)))
        (s.1.setCall ⟨c, k⟩ (.start request.name.string request.email.string
          request.password.string request.avatar),
          Function.update s.2 c ((s.2 c).loginOrRegister home))
  | signIn {c : ClientId} {user : Uid} {email password : Text}
      (waits : (s.2 c).attempt = some (.login email password))
      (account : s.1.accounts.lookup email.string = some ⟨user, password.string⟩) :
      Step s (.signIn c user none)
        (s.1.setUser c (some user), Function.update s.2 c ((s.2 c).loginCompletion none))
  | signInFailed {c : ClientId} {user : Uid} {err : String} {email password : Text}
      (waits : (s.2 c).attempt = some (.login email password)) :
      Step s (.signIn c user (some err)) (s.1, Function.update s.2 c ((s.2 c).loginCompletion (some err)))
  | answered {e : Event} {id : CallId} {reply : LoginClient.Reply} {answer : Services.Event}
      {t : Services} {call made : RegisterCall} {stage stage' : LoginClient.Stage}
      {outcome outcome' : LoginClient.Outcome} {request : RegisterRequest}
      (served : inServices e = some answer) (stepped : Services.machine.step s.1 answer = some t)
      (moved : Services.Answered s.1 t id reply call made stage outcome)
      (waits : (s.2 id.client).attempt = some (.register request stage'))
      (resumed : LoginClient.resume stage' reply = some outcome') :
      Step s e (t, Function.update s.2 id.client
        ((s.2 id.client).registerCompletion request outcome'))
  | logout {c : ClientId} {top : ObjectId} {rest : List ObjectId}
      (pushed : (s.2 c).navigationStack = top :: rest) :
      Step s (.logout c)
        (s.1.setUser c none, Function.update s.2 c { s.2 c with navigationStack := rest })

/-- The two sides of a step: the services take what they see of it, and one screen moves. -/
theorem sides {s s' : Services × (ClientId → LoginVC)} {e : Event} {c : ClientId}
    {shown : LoginVC.Event} (on : onScreens e = some (c, shown)) (hstep : machine.step s e = some s') :
    Agrees s e ∧ Services.machine.run s.1 (inServices e).toList = some s'.1 ∧
      ∃ vc, LoginVC.machine.step (s.2 c) shown = some vc ∧ s'.2 = Function.update s.2 c vc := by
  obtain ⟨agrees, hstep⟩ := Machine.restrict_step_eq_some.mp hstep
  obtain ⟨hservices, hscreens⟩ := Machine.sync_step_eq_some.mp hstep
  rw [on] at hscreens
  obtain ⟨_, hscreen, hnil⟩ := Machine.run_cons_eq_some.mp hscreens
  cases hnil
  obtain ⟨vc, hmoved, hupdate⟩ := Machine.family_step_eq_some.mp hscreen
  exact ⟨agrees, hservices, vc, hmoved, hupdate.symm⟩

theorem press_cases {s s' : Services × (ClientId → LoginVC)} {c : ClientId} {home : ObjectId}
    {call : Option (Nat × RegisterRequest)} (hstep : machine.step s (.press c home call) = some s') :
    Step s (.press c home call) s' := by
  obtain ⟨agrees, hservices, vc, hpress, hscreens⟩ := sides rfl hstep
  obtain ⟨services, screens⟩ := s'
  cases hscreens
  cases LoginVC.step_cases hpress with
  | press home enabled shown =>
    cases call with
    | none =>
      cases hservices
      exact .press enabled agrees.symm
    | some call =>
      obtain ⟨k, request⟩ := call
      obtain ⟨_, hregister, hnil⟩ := Machine.run_cons_eq_some.mp hservices
      cases hnil
      cases Services.step_cases hregister with
      | register fresh => exact .register enabled agrees.symm fresh
      | failed answered => cases answered

theorem signIn_cases {s s' : Services × (ClientId → LoginVC)} {c : ClientId} {user : Uid}
    {error : Option String} (hstep : machine.step s (.signIn c user error) = some s') :
    Step s (.signIn c user error) s' := by
  obtain ⟨agrees, hservices, vc, hsignIn, hscreens⟩ := sides rfl hstep
  obtain ⟨services, screens⟩ := s'
  cases hscreens
  cases LoginVC.step_cases hsignIn with
  | signIn user error waits =>
    cases error with
    | none =>
      cases hservices
      simp only [Agrees, waits] at agrees
      exact .signIn waits agrees
    | some err =>
      cases hservices
      exact .signInFailed waits

theorem answered_cases {s s' : Services × (ClientId → LoginVC)} {e : Event}
    {answer : Services.Event} {id : CallId} {reply : LoginClient.Reply}
    (served : inServices e = some answer) (answers : answer.reply? = some (id, reply))
    (on : onScreens e = some (id.client, .register reply)) (hstep : machine.step s e = some s') :
    Step s e s' := by
  obtain ⟨-, hservices, vc, hregister, hscreens⟩ := sides on hstep
  obtain ⟨services, screens⟩ := s'
  cases hscreens
  rw [served] at hservices
  obtain ⟨_, hserved, hnil⟩ := Machine.run_cons_eq_some.mp hservices
  cases hnil
  obtain ⟨call, made, stage, outcome, hmoved⟩ := Services.answered_step answers hserved
  cases LoginVC.step_cases hregister with
  | register waits resumed => exact .answered served hserved hmoved waits resumed

/-- The executable step takes no other steps. -/
theorem step_cases {s s' : Services × (ClientId → LoginVC)} {e : Event}
    (hstep : machine.step s e = some s') : Step s e s' := by
  cases e with
  | form c e =>
    obtain ⟨-, hservices, vc, hedit, hscreens⟩ := sides rfl hstep
    obtain ⟨services, screens⟩ := s'
    cases hservices
    cases hscreens
    exact .form hedit
  | press c home call => exact press_cases hstep
  | signIn c user error => exact signIn_cases hstep
  | putData id error => exact answered_cases rfl rfl rfl hstep
  | downloadURL id url error => exact answered_cases rfl rfl rfl hstep
  | createUser id uid error => exact answered_cases rfl rfl rfl hstep
  | updateChildValues id error => exact answered_cases rfl rfl rfl hstep
  | logout c =>
    obtain ⟨-, hservices, vc, hpop, hscreens⟩ := sides rfl hstep
    obtain ⟨services, screens⟩ := s'
    cases hservices
    cases hscreens
    cases LoginVC.step_cases hpop with
    | popViewController pushed => exact .logout pushed

/-- A run of both is a run of the services. -/
theorem services_run {s : Services × (ClientId → LoginVC)} {es : List Event}
    (run : machine.run initial es = some s) :
    Services.machine.run .initial (es.filterMap inServices) = some s.1 :=
  Machine.sync_run_left (Machine.restrict_run run)

/-- A run of both is a run of each screen. -/
theorem screen_run {s : Services × (ClientId → LoginVC)} {es : List Event}
    (run : machine.run initial es = some s) (c : ClientId) :
    ∃ shown, LoginVC.machine.run .new shown = some (s.2 c) :=
  ⟨_, Machine.family_run (Machine.sync_run_right (Machine.restrict_run run)) c⟩

/-! ## A screen's attempt and its client's calls -/

/-- Of the calls that `c` has made, the one that the attempt of its screen follows is going, and no
other. -/
inductive Follows (calls : CallId → Option RegisterCall) (c : ClientId) : Option Attempt → Prop where
  | idle {attempt : Option Attempt}
      (other : ∀ request stage, attempt ≠ some (.register request stage))
      (stopped : ∀ k call, calls ⟨c, k⟩ = some call → call.stage = none) : Follows calls c attempt
  | going {request : RegisterRequest} {stage : LoginClient.Stage} {k : Nat} {call : RegisterCall}
      (found : calls ⟨c, k⟩ = some call) (waits : call.stage = some stage)
      (asks : Services.Asks call request)
      (only : ∀ k' call', calls ⟨c, k'⟩ = some call' → call'.stage ≠ none → k' = k) :
      Follows calls c (some (.register request stage))

/-- The calls of a client are all that matters. -/
theorem Follows.congr {calls calls' : CallId → Option RegisterCall} {c : ClientId}
    {attempt : Option Attempt} (h : Follows calls c attempt)
    (same : ∀ k, calls' ⟨c, k⟩ = calls ⟨c, k⟩) : Follows calls' c attempt := by
  cases h with
  | idle other stopped => exact .idle other fun k call hcall => stopped k call (same k ▸ hcall)
  | going found waits asks only =>
    refine .going ((same _).trans found) waits asks fun k' call' hcall => ?_
    exact only k' call' (same k' ▸ hcall)

/-- With no registration under way every call of the client has stopped. -/
theorem Follows.stopped {calls : CallId → Option RegisterCall} {c : ClientId}
    {attempt : Option Attempt} (h : Follows calls c attempt)
    (other : ∀ request stage, attempt ≠ some (.register request stage)) :
    ∀ k call, calls ⟨c, k⟩ = some call → call.stage = none := by
  cases h with
  | idle other' stopped => exact stopped
  | going => exact absurd rfl (other _ _)

/-- A press makes the one call that is going. -/
theorem Follows.start {calls : CallId → Option RegisterCall} {c : ClientId}
    {attempt : Option Attempt} (h : Follows calls c attempt)
    (other : ∀ request stage, attempt ≠ some (.register request stage)) (k : Nat)
    (request : RegisterRequest) :
    Follows (Function.update calls ⟨c, k⟩ (some (.start request.name.string request.email.string
      request.password.string request.avatar))) c (some (.register request .putData)) := by
  refine .going (Function.update_self ..) rfl ⟨rfl, rfl, rfl, rfl⟩ fun k' call' hcall hgoing => ?_
  rcases update_eq_some.mp hcall with ⟨heq, -⟩ | ⟨-, hold⟩
  · cases heq
    rfl
  · exact absurd (h.stopped other k' call' hold) hgoing

/-- A call that is going is the one that the screen's attempt follows, at the same stage. -/
theorem Follows.attempt {calls : CallId → Option RegisterCall} {id : CallId} {call : RegisterCall}
    {attempt : Option Attempt} (h : Follows calls id.client attempt) (found : calls id = some call)
    {stage : LoginClient.Stage} (waits : call.stage = some stage) :
    ∃ request, attempt = some (.register request stage) ∧ Services.Asks call request ∧
      ∀ k' call', calls ⟨id.client, k'⟩ = some call' → call'.stage ≠ none → k' = id.attempt := by
  cases h with
  | idle other stopped =>
    rw [stopped id.attempt call found] at waits
    cases waits
  | @going request stage' k call' found' waits' asks only =>
    have hk : id.attempt = k := only _ call found (by rw [waits]; exact nofun)
    subst hk
    cases found.symm.trans found'
    cases waits.symm.trans waits'
    exact ⟨request, rfl, asks, only⟩

/-- The screen after a closure of `register`. -/
theorem registerCompletion_attempt (vc : LoginVC) (request : RegisterRequest)
    (outcome : LoginClient.Outcome) : (vc.registerCompletion request outcome).attempt =
      match outcome with
      | .next stage => some (.register request stage)
      | .returned => none
      | .completion => none := by
  cases outcome <;> rfl

/-- A closure moves the call and the attempt alike. -/
theorem Follows.after {calls : CallId → Option RegisterCall} {id : CallId} {call made : RegisterCall}
    {request : RegisterRequest} {stage : LoginClient.Stage}
    (h : Follows calls id.client (some (.register request stage))) (found : calls id = some call)
    (going : call.stage ≠ none) (same : ∀ request, Services.Asks call request → Services.Asks made request)
    (vc : LoginVC) (outcome : LoginClient.Outcome) :
    Follows (Function.update calls id (some (made.after outcome))) id.client
      (vc.registerCompletion request outcome).attempt := by
  obtain ⟨stage', hstage'⟩ := Option.ne_none_iff_exists'.mp going
  obtain ⟨request', hattempt, asks, only⟩ := h.attempt found hstage'
  cases hattempt
  have others : ∀ k' call', Function.update calls id (some (made.after outcome)) ⟨id.client, k'⟩ =
      some call' → call'.stage ≠ none → k' = id.attempt := by
    intro k' call' hcall hgoing
    rcases update_eq_some.mp hcall with ⟨heq, -⟩ | ⟨-, hold⟩
    · exact congrArg CallId.attempt heq
    · exact only k' call' hold hgoing
  have stops : (made.after outcome).stage = none → ∀ k' call',
      Function.update calls id (some (made.after outcome)) ⟨id.client, k'⟩ = some call' →
        call'.stage = none := by
    intro hnone k' call' hcall
    by_contra hgoing
    cases others k' call' hcall hgoing
    rw [show (⟨id.client, id.attempt⟩ : CallId) = id from rfl, Function.update_self] at hcall
    cases hcall
    exact hgoing hnone
  rw [registerCompletion_attempt]
  cases outcome with
  | next stage =>
    exact .going (k := id.attempt) (Function.update_self ..) rfl ((same request asks).after _) others
  | returned => exact .idle nofun (stops rfl)
  | completion => exact .idle nofun (stops rfl)

/-- Every screen's attempt follows the call of its client that is going. -/
def InStep (s : Services × (ClientId → LoginVC)) : Prop :=
  ∀ c, Follows s.1.calls c (s.2 c).attempt

/-- One client's screen and calls move. -/
theorem InStep.move {s : Services × (ClientId → LoginVC)} (h : InStep s) {t : Services}
    {c : ClientId} {vc : LoginVC} (elsewhere : ∀ id : CallId, id.client ≠ c → t.calls id = s.1.calls id)
    (here : Follows t.calls c vc.attempt) : InStep (t, Function.update s.2 c vc) := by
  intro c'
  change Follows t.calls c' (Function.update s.2 c vc c').attempt
  by_cases hc : c' = c
  · rw [hc, Function.update_self]
    exact here
  · rw [Function.update_of_ne hc]
    exact (h c').congr fun k => elsewhere ⟨c', k⟩ hc

/-- The call of another client is not the one that changed. -/
theorem update_elsewhere {calls : CallId → Option RegisterCall} {id : CallId}
    {call : Option RegisterCall} (id' : CallId) (hclient : id'.client ≠ id.client) :
    Function.update calls id call id' = calls id' :=
  Function.update_of_ne (fun heq => hclient (congrArg CallId.client heq)) ..

theorem asks_of_made {s t : Services} {id : CallId} {call made : RegisterCall}
    (h : Services.Made s t id call made) (request : RegisterRequest)
    (asks : Services.Asks call request) : Services.Asks made request := by
  cases h with
  | same => exact asks
  | account => exact ⟨asks.name, asks.email, asks.password, asks.avatar⟩

/-- An enabled button means that no attempt is under way. -/
def Waits (s : Services × (ClientId → LoginVC)) : Prop :=
  ∀ c, (s.2 c).attempt ≠ none → (s.2 c).isEnabled = false

theorem Waits.idle {s : Services × (ClientId → LoginVC)} (h : Waits s) {c : ClientId}
    (enabled : (s.2 c).isEnabled = true) : (s.2 c).attempt = none := by
  by_contra hattempt
  rw [h c hattempt] at enabled
  cases enabled

theorem waits_run {s : Services × (ClientId → LoginVC)} {es : List Event}
    (run : machine.run initial es = some s) : Waits s := by
  intro c
  obtain ⟨shown, hrun⟩ := screen_run run c
  exact LoginVC.disabled_of_attempt hrun

/-- A call and the screen that waits for it are at one stage. -/
theorem InStep.stage {s : Services × (ClientId → LoginVC)} (h : InStep s) {id : CallId}
    {call : RegisterCall} (found : s.1.calls id = some call) {stage stage' : LoginClient.Stage}
    {request : RegisterRequest} (waits : call.stage = some stage)
    (attempt : (s.2 id.client).attempt = some (.register request stage')) : stage' = stage := by
  obtain ⟨request', hattempt, -⟩ := (h id.client).attempt found waits
  cases attempt.symm.trans hattempt
  rfl

/-- **One step keeps the calls and the screens in step.** -/
theorem inStep_step {s s' : Services × (ClientId → LoginVC)} {e : Event} (h : InStep s)
    (waits : Waits s) (hstep : machine.step s e = some s') : InStep s' := by
  have idle : ∀ c, (s.2 c).attempt = none → ∀ request stage,
      (s.2 c).attempt ≠ some (.register request stage) := by
    intro c hnone request stage hattempt
    cases hnone.symm.trans hattempt
  cases step_cases hstep with
  | @form c e vc edited =>
    obtain ⟨hattempt, -⟩ := LoginVC.form_spares e.2 edited
    exact h.move (fun _ _ => rfl) (hattempt ▸ h c)
  | @press c home enabled registers =>
    refine h.move (fun _ _ => rfl) (.idle ?_ ((h c).stopped (idle c (waits.idle enabled))))
    intro request stage hattempt
    rcases LoginVC.loginOrRegister_attempt (s.2 c) home hattempt with rfl | hbefore
    · rw [LoginVC.registering_eq_some.mpr hattempt] at registers
      cases registers
    · exact idle c (waits.idle enabled) request stage hbefore
  | @register c home k request enabled registers fresh =>
    refine h.move (fun id hid => update_elsewhere id hid) ?_
    rw [LoginVC.registering_eq_some.mp registers]
    exact (h c).start (idle c (waits.idle enabled)) k request
  | @signIn c user email password waiting account =>
    refine h.move (fun _ _ => rfl) (.idle nofun ((h c).stopped ?_))
    intro request stage hattempt
    cases waiting.symm.trans hattempt
  | @signInFailed c user err email password waiting =>
    refine h.move (fun _ _ => rfl) (.idle nofun ((h c).stopped ?_))
    intro request stage hattempt
    cases waiting.symm.trans hattempt
  | @answered _ id reply answer t call made stage stage' outcome outcome' request served stepped
      moved attempt resumed =>
    cases h.stage moved.found moved.waits attempt
    cases moved.resumed.symm.trans resumed
    have hgoing : call.stage ≠ none := by
      rw [moved.waits]
      exact nofun
    refine h.move (fun id' hid => ?_) ?_
    · rw [moved.calls]
      exact update_elsewhere id' hid
    · rw [moved.calls]
      exact (attempt ▸ h id.client).after moved.found hgoing (asks_of_made moved.account) _ outcome
  | @logout c top rest pushed => exact h.move (fun _ _ => rfl) (h c)

theorem inStep_run {s : Services × (ClientId → LoginVC)} {es : List Event}
    (run : machine.run initial es = some s) : InStep s := by
  refine Machine.run_induction (P := fun _ s => InStep s) ?_ ?_ run
  · intro c
    exact .idle nofun fun _ _ hcall => by cases hcall
  · intro es e s s' hrun h hstep
    exact inStep_step h (waits_run hrun) hstep

/-- An answer goes to the screen of its client, and nothing else is asked of it. -/
theorem onScreens_answer {e : Event} {answer : Services.Event} {id : CallId}
    {reply : LoginClient.Reply} (served : inServices e = some answer)
    (answers : answer.reply? = some (id, reply)) :
    onScreens e = some (id.client, .register reply) ∧ ∀ s, Agrees s e := by
  cases e with
  | form => cases served
  | press c home call =>
    obtain ⟨call, -, rfl⟩ := Option.map_eq_some_iff.mp served
    cases answers
  | signIn c user error =>
    cases error with
    | none => cases served; cases answers
    | some err => cases served
  | logout => cases served; cases answers
  | _ => cases served; cases answers; exact ⟨rfl, fun _ => trivial⟩

/-- A screen in step takes every answer that the services give. -/
theorem InStep.takes {s : Services × (ClientId → LoginVC)} (h : InStep s) {e : Event}
    {answer : Services.Event} {id : CallId} {reply : LoginClient.Reply} {t : Services}
    (served : inServices e = some answer) (answers : answer.reply? = some (id, reply))
    (stepped : Services.machine.step s.1 answer = some t) :
    ∃ vc, machine.step s e = some (t, Function.update s.2 id.client vc) := by
  obtain ⟨call, made, stage, outcome, moved⟩ := Services.answered_step answers stepped
  obtain ⟨request, hattempt, -⟩ := (h id.client).attempt moved.found moved.waits
  obtain ⟨hon, hagrees⟩ := onScreens_answer served answers
  refine ⟨(s.2 id.client).registerCompletion request outcome, ?_⟩
  apply Machine.restrict_step_eq_some.mpr
  refine ⟨hagrees s, Machine.sync_step_eq_some.mpr ⟨?_, ?_⟩⟩
  · rw [served]
    exact Machine.run_cons_eq_some.mpr ⟨t, stepped, rfl⟩
  · rw [hon]
    refine Machine.run_cons_eq_some.mpr ⟨_, Machine.family_step_eq_some.mpr ⟨_, ?_, rfl⟩, rfl⟩
    change LoginVC.step (s.2 id.client) (.register reply) = _
    simp only [LoginVC.step, hattempt, moved.resumed, Option.map_some]

/-- Alice fills in the form, selects an avatar and presses the button. -/
def aliceAsks : List Event :=
  [.form 0 ⟨.editName (some ["A", "l", "i", "c", "e"]), rfl⟩,
    .form 0 ⟨.editEmail (some ["a", "@", "b", "c"]), rfl⟩,
    .form 0 ⟨.editPassword (some ["s", "e", "c", "r", "e", "t"]), rfl⟩,
    .form 0 ⟨.cellForItemAt, rfl⟩, .form 0 ⟨.didSelectItemAt ⟨2, by decide⟩ (some true), rfl⟩,
    .press 0 1 (some (0, ⟨["A", "l", "i", "c", "e"], ["a", "@", "b", "c"],
      ["s", "e", "c", "r", "e", "t"], "003-elephant"⟩))]

/-- Her avatar is uploaded, her account is made, and her profile is written or rejected. -/
def aliceRegisters (error : Option String) : List Event :=
  aliceAsks ++ [.putData ⟨0, 0⟩ none,
    .downloadURL ⟨0, 0⟩ (some ⟨"003-elephant", 0⟩) none,
    .createUser ⟨0, 0⟩ "alice" none, .updateChildValues ⟨0, 0⟩ error]

/-- **A screen's attempt is the one call of its client that is going, at the stage where the call
is, and the screen takes every answer to it.** -/
theorem attempt_is_call {es : List Event} {s : Services × (ClientId → LoginVC)}
    (run : machine.run initial es = some s) :
    (∀ c request stage, (s.2 c).attempt = some (.register request stage) →
      ∃ k call, s.1.calls ⟨c, k⟩ = some call ∧ call.stage = some stage ∧
        Services.Asks call request ∧
        ∀ k' call', s.1.calls ⟨c, k'⟩ = some call' → call'.stage ≠ none → k' = k) ∧
    (∀ id call stage, s.1.calls id = some call → call.stage = some stage →
      ∃ request, (s.2 id.client).attempt = some (.register request stage) ∧
        Services.Asks call request) ∧
    ∀ e answer id reply t, inServices e = some answer → answer.reply? = some (id, reply) →
      Services.machine.step s.1 answer = some t →
        ∃ vc, machine.step s e = some (t, Function.update s.2 id.client vc) := by
  have h := inStep_run run
  refine ⟨?_, ?_, fun e answer id reply t => h.takes⟩
  · intro c request stage hattempt
    have hfollows := h c
    rw [hattempt] at hfollows
    cases hfollows with
    | idle other => exact absurd rfl (other request stage)
    | going found waits asks only => exact ⟨_, _, found, waits, asks, only⟩
  · intro id call stage found waits
    obtain ⟨request, hattempt, asks, -⟩ := (h id.client).attempt found waits
    exact ⟨request, hattempt, asks⟩

/-- Her call waits for the upload, and so does her screen. -/
theorem attempt_is_call_alice : ∃ s, machine.run initial aliceAsks = some s ∧
    ∃ k call, s.1.calls ⟨0, k⟩ = some call ∧ call.stage = some .putData := by
  refine ⟨_, rfl, ?_⟩
  obtain ⟨waiting, -⟩ := @attempt_is_call aliceAsks _ rfl
  obtain ⟨k, call, hcall, hstage, -⟩ := waiting 0 _ _ rfl
  exact ⟨k, call, hcall, hstage⟩

/-! ## What a press has asked for -/

/-- The run has pressed the button for the call `id`, with `request` in the form. -/
def PressedIn (es : List Event) (id : CallId) (request : RegisterRequest) : Prop :=
  ∃ pre home post s, es = pre ++ .press id.client home (some (id.attempt, request)) :: post ∧
    machine.run initial pre = some s ∧ (s.2 id.client).Asked request

theorem PressedIn.snoc {es : List Event} {id : CallId} {request : RegisterRequest}
    (h : PressedIn es id request) (e : Event) : PressedIn (es ++ [e]) id request := by
  obtain ⟨pre, home, post, s, rfl, hrun, hasked⟩ := h
  exact ⟨pre, home, post ++ [e], s, by simp, hrun, hasked⟩

/-- Every call goes back to a press. -/
theorem pressed_run {es : List Event} {s : Services × (ClientId → LoginVC)}
    (run : machine.run initial es = some s) : ∀ id call, s.1.calls id = some call →
      ∃ request, PressedIn es id request ∧ Services.Asks call request := by
  refine Machine.run_induction (P := fun es s => ∀ id call, s.1.calls id = some call →
    ∃ request, PressedIn es id request ∧ Services.Asks call request) (fun _ _ h => by cases h) ?_ run
  intro es e s s' hrun ih hstep id call hcall
  have before : s.1.calls id = some call →
      ∃ request, PressedIn (es ++ [e]) id request ∧ Services.Asks call request := by
    intro hold
    obtain ⟨request, hpressed, asks⟩ := ih id call hold
    exact ⟨request, hpressed.snoc e, asks⟩
  cases step_cases hstep with
  | form => exact before hcall
  | press => exact before hcall
  | @register c home k request enabled registers =>
    rcases update_eq_some.mp hcall with ⟨rfl, rfl⟩ | ⟨-, hold⟩
    · refine ⟨request, ⟨es, home, [], s, rfl, hrun, ?_⟩, rfl, rfl, rfl, rfl⟩
      exact LoginVC.asked_of_press ((waits_run hrun).idle enabled)
        (LoginVC.registering_eq_some.mp registers)
    · exact before hold
  | signIn => exact before hcall
  | signInFailed => exact before hcall
  | @answered _ id₀ reply answer t call₀ made stage stage' outcome outcome' request served stepped
      moved =>
    change t.calls id = some call at hcall
    rw [moved.calls] at hcall
    rcases update_eq_some.mp hcall with ⟨rfl, rfl⟩ | ⟨-, hold⟩
    · obtain ⟨request, hpressed, asks⟩ := ih id call₀ moved.found
      exact ⟨request, hpressed.snoc e, (asks_of_made moved.account request asks).after outcome⟩
    · exact before hold
  | logout => exact before hcall

/-- An answer signs in nobody but the user of the account it makes. -/
theorem currentUser_answered {s t : Services} {id : CallId} {reply : LoginClient.Reply}
    {call made : RegisterCall} {stage : LoginClient.Stage} {outcome : LoginClient.Outcome}
    (moved : Services.Answered s t id reply call made stage outcome) (c : ClientId) :
    t.currentUser c = s.currentUser c ∨
      c = id.client ∧ t.currentUser c = (made.after outcome).authResult := by
  cases moved.account with
  | same user => exact .inl (congrFun user c)
  | account uid user =>
    by_cases hc : c = id.client
    · subst hc
      refine .inr ⟨rfl, ?_⟩
      rw [user, Function.update_self]
      cases outcome <;> rfl
    · left
      rw [user, Function.update_of_ne hc]

/-- Whoever is signed in has an account. -/
theorem signedIn_run {es : List Event} {s : Services × (ClientId → LoginVC)}
    (run : machine.run initial es = some s) : ∀ c user, s.1.currentUser c = some user →
      ∃ email password, s.1.accounts.lookup email = some ⟨user, password⟩ := by
  refine Machine.run_induction (P := fun _ s => ∀ c user, s.1.currentUser c = some user →
    ∃ email password, s.1.accounts.lookup email = some ⟨user, password⟩)
    (fun _ _ h => by cases h) ?_ run
  intro es e s s' hrun ih hstep c user huser
  have consistent : s'.1.Consistent :=
    Services.consistent_run (services_run (Machine.run_snoc_eq_some.mpr ⟨s, hrun, hstep⟩))
  cases step_cases hstep with
  | form => exact ih c user huser
  | press => exact ih c user huser
  | register => exact ih c user huser
  | @signIn c₀ user₀ email password waits account =>
    rcases update_eq_some.mp huser with ⟨rfl, rfl⟩ | ⟨-, hold⟩
    · exact ⟨email.string, password.string, account⟩
    · exact ih c user hold
  | signInFailed => exact ih c user huser
  | @answered _ id reply answer t call made stage stage' outcome outcome' request served stepped
      moved =>
    change t.currentUser c = some user at huser
    rcases currentUser_answered moved c with hsame | ⟨-, hmade⟩
    · obtain ⟨email, password, haccount⟩ := ih c user (hsame ▸ huser)
      exact ⟨email, password, Services.accounts_step stepped haccount⟩
    · refine ⟨_, _, consistent.account id (made.after outcome) user ?_ (hmade ▸ huser)⟩
      change t.calls id = _
      rw [moved.calls, Function.update_self]
  | @logout c₀ top rest pushed =>
    obtain ⟨-, hold⟩ := update_none_eq_some.mp huser
    exact ih c user hold

/-- **Every account goes back to a press, and holds what was in the form then; so does its profile,
with an avatar of the strip. Whoever is signed in has an account.** -/
theorem registered_as_typed {es : List Event} {s : Services × (ClientId → LoginVC)}
    (run : machine.run initial es = some s) :
    (∀ email account, s.1.accounts.lookup email = some account → ∃ id request,
      PressedIn es id request ∧ request.email.string = email ∧
        request.password.string = account.password ∧ request.avatar ∈ LoginVC.avatars ∧
        ∀ info, s.1.users account.uid = some info → info.name = request.name.string ∧
          info.email = email ∧ info.avatarUrl.path = request.avatar) ∧
    (∀ uid info, s.1.users uid = some info →
      ∃ email password, s.1.accounts.lookup email = some ⟨uid, password⟩) ∧
    ∀ c user, s.1.currentUser c = some user →
      ∃ email password, s.1.accounts.lookup email = some ⟨user, password⟩ := by
  have consistent := Services.consistent_run (services_run run)
  have howned := Services.owned_run (services_run run)
  refine ⟨?_, ?_, signedIn_run run⟩
  · intro email account haccount
    obtain ⟨id, call, hcall, hmade, hemail, hpassword⟩ := howned email account haccount
    obtain ⟨request, hpressed, asks⟩ := pressed_run run id call hcall
    refine ⟨id, request, hpressed, asks.email.symm.trans hemail, asks.password.symm.trans hpassword,
      ?_, ?_⟩
    · obtain ⟨pre, home, post, s₀, -, hrun, hasked⟩ := hpressed
      obtain ⟨shown, hscreen⟩ := screen_run hrun id.client
      exact LoginVC.offered_run hscreen request.avatar hasked.avatar
    · intro info hinfo
      obtain ⟨url, hregistered⟩ := consistent.registered hcall hmade hinfo
      cases hregistered.profile.symm.trans hinfo
      exact ⟨asks.name, hemail, hregistered.avatar.trans asks.avatar⟩
  · intro uid info hinfo
    obtain ⟨id, call, hcall, hmade⟩ := consistent.owned uid info hinfo
    exact ⟨call.email, call.password, consistent.account id call uid hcall hmade⟩

/-- Alice's account goes back to her press. -/
theorem registered_as_typed_alice : ∃ s, machine.run initial (aliceRegisters none) = some s ∧
    ∃ id request, PressedIn (aliceRegisters none) id request ∧ request.email.string = "a@bc" := by
  refine ⟨_, rfl, ?_⟩
  obtain ⟨accounts, -⟩ := @registered_as_typed (aliceRegisters none) _ rfl
  obtain ⟨id, request, hpressed, hemail, -⟩ := accounts "a@bc" ⟨"alice", "secret"⟩ rfl
  exact ⟨id, request, hpressed, hemail⟩

/-! ## How a registration ends -/

/-- How a call stands towards its client: it is going, or has run its completion, or has stopped for
good and left the screen dead. Until it completes, its client stays signed in as the user it made. -/
inductive Attended (s : Services × (ClientId → LoginVC)) (id : CallId) (call : RegisterCall) :
    Prop where
  | completed (stopped : call.stage = none) (once : call.completions = 1)
  | going (waits : call.stage ≠ none)
      (user : ∀ uid, call.authResult = some uid → s.1.currentUser id.client = some uid)
  | dead (stopped : call.stage = none) (dead : (s.2 id.client).Dead)
      (user : ∀ uid, call.authResult = some uid → s.1.currentUser id.client = some uid)

/-- An event on another client. -/
theorem Attended.elsewhere {s : Services × (ClientId → LoginVC)} {id : CallId} {call : RegisterCall}
    (h : Attended s id call) {t : Services} {c : ClientId} {vc : LoginVC} (other : id.client ≠ c)
    (user : t.currentUser id.client = s.1.currentUser id.client) :
    Attended (t, Function.update s.2 c vc) id call := by
  cases h with
  | completed stopped once => exact .completed stopped once
  | going waits signedIn => exact .going waits fun uid hmade => user.trans (signedIn uid hmade)
  | dead stopped dead signedIn =>
    refine .dead stopped ?_ fun uid hmade => user.trans (signedIn uid hmade)
    change (Function.update s.2 c vc id.client).Dead
    rw [Function.update_of_ne other]
    exact dead

/-- An event on a screen that neither registers nor is dead: of the client's calls none goes on. -/
theorem Attended.settled {s : Services × (ClientId → LoginVC)} {id : CallId} {call : RegisterCall}
    (h : Attended s id call) (inStep : InStep s) (found : s.1.calls id = some call) {t : Services}
    {c : ClientId} {vc : LoginVC}
    (user : id.client ≠ c → t.currentUser id.client = s.1.currentUser id.client)
    (other : ∀ request stage, (s.2 c).attempt ≠ some (.register request stage))
    (alive : ¬ (s.2 c).Dead) : Attended (t, Function.update s.2 c vc) id call := by
  by_cases hc : id.client = c
  · subst hc
    cases h with
    | completed stopped once => exact .completed stopped once
    | going waits => exact absurd ((inStep id.client).stopped other id.attempt call found) waits
    | dead stopped dead => exact absurd dead alive
  · exact h.elsewhere hc (user hc)

/-- The user that a call has made is signed in where the call is going. -/
theorem user_answered {s t : Services} {id : CallId} {reply : LoginClient.Reply}
    {call made : RegisterCall} {stage : LoginClient.Stage} {outcome : LoginClient.Outcome}
    (moved : Services.Answered s t id reply call made stage outcome)
    (user : ∀ uid, call.authResult = some uid → s.currentUser id.client = some uid) :
    ∀ uid, made.authResult = some uid → t.currentUser id.client = some uid := by
  intro uid hmade
  cases moved.account with
  | same hsame =>
    rw [hsame]
    exact user uid hmade
  | account uid' hnew =>
    cases hmade
    rw [hnew, Function.update_self]

/-- The call that an answer moves. -/
theorem attended_answered {s : Services × (ClientId → LoginVC)} {id : CallId} {t : Services}
    {reply : LoginClient.Reply} {call made : RegisterCall} {stage : LoginClient.Stage}
    {outcome : LoginClient.Outcome} {request : RegisterRequest} (h : Attended s id call)
    (consistent : s.1.Consistent) (moved : Services.Answered s.1 t id reply call made stage outcome)
    (disabled : (s.2 id.client).isEnabled = false) (shown : (s.2 id.client).navigationStack = []) :
    Attended (t, Function.update s.2 id.client
      ((s.2 id.client).registerCompletion request outcome)) id (made.after outcome) := by
  have hgoing : call.stage ≠ none := by
    rw [moved.waits]
    exact nofun
  cases h with
  | completed stopped => exact absurd stopped hgoing
  | dead stopped => exact absurd stopped hgoing
  | going waits user =>
    have huser := user_answered moved user
    cases outcome with
    | next stage' => exact .going nofun huser
    | returned =>
      refine .dead rfl ?_ huser
      change (Function.update s.2 id.client _ id.client).Dead
      rw [Function.update_self]
      exact ⟨⟨disabled, rfl⟩, shown⟩
    | completion =>
      -- only the last closure calls back, and its call has not completed before
      cases LoginClient.resume_cases moved.resumed with
      | updateChildValues url uid =>
        have hlast := ((consistent.stands id call moved.found).unprofiled moved.waits).1.completions
        refine .completed rfl ?_
        cases moved.account with
        | same => exact congrArg (· + 1) hlast
        | account => exact congrArg (· + 1) hlast

theorem attended_step {s s' : Services × (ClientId → LoginVC)} {e : Event} (inStep : InStep s)
    (consistent : s.1.Consistent) (waits : Waits s)
    (shown : ∀ c, (s.2 c).attempt ≠ none → (s.2 c).navigationStack = [])
    (h : ∀ id call, s.1.calls id = some call → Attended s id call)
    (hstep : machine.step s e = some s') :
    ∀ id call, s'.1.calls id = some call → Attended s' id call := by
  intro id call hcall
  have idle : ∀ {c}, (s.2 c).attempt = none → ∀ request stage,
      (s.2 c).attempt ≠ some (.register request stage) := by
    intro c hnone request stage hattempt
    cases hnone.symm.trans hattempt
  have enabledAlive : ∀ {c}, (s.2 c).isEnabled = true → ¬ (s.2 c).Dead := by
    intro c henabled hdead
    cases henabled.symm.trans hdead.stuck.1
  cases step_cases hstep with
  | @form c e vc edited =>
    obtain ⟨hattempt, henabled, hshown, -⟩ := LoginVC.form_spares e.2 edited
    by_cases hc : id.client = c
    · subst hc
      cases h id call hcall with
      | completed stopped once => exact .completed stopped once
      | going hwaits user => exact .going hwaits user
      | dead stopped dead user =>
        refine .dead stopped ?_ user
        change (Function.update s.2 id.client vc id.client).Dead
        rw [Function.update_self]
        exact ⟨⟨henabled.trans dead.stuck.1, hattempt.trans dead.stuck.2⟩, hshown.trans dead.shown⟩
    · exact (h id call hcall).elsewhere hc rfl
  | @press c home enabled registers =>
    exact (h id call hcall).settled inStep hcall (fun _ => rfl) (idle (waits.idle enabled))
      (enabledAlive enabled)
  | @register c home k request enabled registers fresh =>
    rcases update_eq_some.mp hcall with ⟨rfl, rfl⟩ | ⟨-, hold⟩
    · exact .going nofun nofun
    · exact (h id call hold).settled inStep hold (fun _ => rfl) (idle (waits.idle enabled))
        (enabledAlive enabled)
  | @signIn c user email password waiting account =>
    refine (h id call hcall).settled inStep hcall (fun hc => Function.update_of_ne hc ..) ?_ ?_
    · intro request stage hattempt
      cases waiting.symm.trans hattempt
    · intro hdead
      cases waiting.symm.trans hdead.stuck.2
  | @signInFailed c user err email password waiting =>
    refine (h id call hcall).settled inStep hcall (fun _ => rfl) ?_ ?_
    · intro request stage hattempt
      cases waiting.symm.trans hattempt
    · intro hdead
      cases waiting.symm.trans hdead.stuck.2
  | @answered _ id₀ reply answer t call₀ made stage stage' outcome outcome' request served stepped
      moved attempt resumed =>
    cases inStep.stage moved.found moved.waits attempt
    cases moved.resumed.symm.trans resumed
    have hattempt : (s.2 id₀.client).attempt ≠ none := by
      rw [attempt]
      exact nofun
    change t.calls id = some call at hcall
    rw [moved.calls] at hcall
    rcases update_eq_some.mp hcall with ⟨rfl, rfl⟩ | ⟨hid, hold⟩
    · exact attended_answered (h id call₀ moved.found) consistent moved (waits id.client hattempt)
        (shown id.client hattempt)
    · by_cases hc : id.client = id₀.client
      · cases h id call hold with
        | completed stopped once => exact .completed stopped once
        | going hwaits =>
          -- the client's one call that is going is `id₀`
          obtain ⟨_, -, -, only⟩ := (inStep id₀.client).attempt moved.found moved.waits
          obtain ⟨c, k⟩ := id
          cases hc
          cases only k call hold hwaits
          exact absurd rfl hid
        | dead stopped dead => exact absurd (hc ▸ dead.stuck.2) hattempt
      · refine (h id call hold).elsewhere hc ?_
        rcases currentUser_answered moved id.client with hsame | ⟨hclient, -⟩
        · exact hsame
        · exact absurd hclient hc
  | @logout c top rest pushed =>
    have hnone : (s.2 c).attempt = none := by
      by_contra hattempt
      cases pushed.symm.trans (shown c hattempt)
    refine (h id call hcall).settled inStep hcall (fun hc => Function.update_of_ne hc ..)
      (idle hnone) ?_
    intro hdead
    cases pushed.symm.trans hdead.shown

theorem attended_run {s : Services × (ClientId → LoginVC)} {es : List Event}
    (run : machine.run initial es = some s) :
    ∀ id call, s.1.calls id = some call → Attended s id call := by
  refine Machine.run_induction (P := fun _ s => ∀ id call, s.1.calls id = some call →
    Attended s id call) (fun _ _ h => by cases h) ?_ run
  intro es e s s' hrun h hstep
  have shown : ∀ c, (s.2 c).attempt ≠ none → (s.2 c).navigationStack = [] := by
    intro c
    obtain ⟨events, hscreen⟩ := screen_run hrun c
    exact LoginVC.shown_of_attempt hscreen
  exact attended_step (inStep_run hrun) (Services.consistent_run (services_run hrun))
    (waits_run hrun) shown h hstep

end Onboarding

end AniChat
