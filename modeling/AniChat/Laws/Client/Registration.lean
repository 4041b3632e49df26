import AniChat.Client.LoginClient

/-!
# What a registration leaves behind

`Services.Step` says once what each event can do; the invariants of a call of `register` come from
it.

## What is proved

- `RegisterCall.Stands`: how a call stands at each stage, in any interleaving of the calls of all
  clients: which effects it has had, and whether its completion has run.
- `answered_run`: the URL a call goes by, and stores in its profile, is the one that its
  `downloadURL` was answered with.
- `registration_outcome`: a stopped call has registered its user and run its completion once, or has
  left accounts and the signed-in user alone, or the profile was rejected and it has created and
  signed in an account without one. No stage takes back what an earlier one did.
-/

namespace AniChat

open Automata Collections

/-! ## The closures -/

namespace LoginClient

/-- What a closure can do, by the stage it belongs to. -/
inductive Resume : Stage → Reply → Outcome → Prop where
  | putDataFailed (err : String) (alive : Bool) :
      Resume .putData (.putData (some err) alive) .returned
  | putDataReleased : Resume .putData (.putData none false) .returned
  | putData : Resume .putData (.putData none true) (.next .downloadURL)
  | downloadURLFailed (url : Option AvatarUrl) (err : String) :
      Resume .downloadURL (.downloadURL url (some err)) .returned
  | downloadURLMissing : Resume .downloadURL (.downloadURL none none) .returned
  | downloadURL (url : AvatarUrl) :
      Resume .downloadURL (.downloadURL (some url) none) (.next (.createUser url))
  | createUserFailed (url : AvatarUrl) (err : String) (user : Option Uid) :
      Resume (.createUser url) (.createUser (some err) user) .returned
  | createUserSignedOut (url : AvatarUrl) :
      Resume (.createUser url) (.createUser none none) .returned
  | createUser (url : AvatarUrl) (uid : Uid) :
      Resume (.createUser url) (.createUser none (some uid)) (.next (.updateChildValues url uid))
  | updateChildValuesFailed (url : AvatarUrl) (uid : Uid) (err : String) :
      Resume (.updateChildValues url uid) (.updateChildValues (some err)) .returned
  | updateChildValues (url : AvatarUrl) (uid : Uid) :
      Resume (.updateChildValues url uid) (.updateChildValues none) .completion

theorem resume_cases {stage : Stage} {reply : Reply} {outcome : Outcome}
    (h : resume stage reply = some outcome) : Resume stage reply outcome := by
  cases stage with
  | putData =>
    cases reply with
    | putData error alive =>
      rcases error with _ | err
      · cases alive with
        | false => cases h; exact .putDataReleased
        | true => cases h; exact .putData
      · cases h; exact .putDataFailed err alive
    | _ => cases h
  | downloadURL =>
    cases reply with
    | downloadURL url error =>
      rcases error with _ | err
      · cases url with
        | none => cases h; exact .downloadURLMissing
        | some url => cases h; exact .downloadURL url
      · cases h; exact .downloadURLFailed url err
    | _ => cases h
  | createUser url =>
    cases reply with
    | createUser error user =>
      rcases error with _ | err
      · cases user with
        | none => cases h; exact .createUserSignedOut url
        | some uid => cases h; exact .createUser url uid
      · cases h; exact .createUserFailed url err user
    | _ => cases h
  | updateChildValues url uid =>
    cases reply with
    | updateChildValues error =>
      rcases error with _ | err
      · cases h; exact .updateChildValues url uid
      · cases h; exact .updateChildValuesFailed url uid err
    | _ => cases h

end LoginClient

/-! ## One step of the services -/

namespace Services

/-- The call whose stage an event answers. -/
def Event.answered? : Event → Option CallId
  | .putData id _ _ => some id
  | .downloadURL id _ _ => some id
  | .createUser id _ _ => some id
  | .updateChildValues id _ => some id
  | _ => none

/-- The call as it starts a stage, or stops. -/
def at? (call : RegisterCall) (stage : Option LoginClient.Stage) : RegisterCall :=
  { call with stage := stage }

/-- What one event can do. A failed stage stops its call and touches no service; so does an upload
whose client is gone, after the upload. -/
inductive Step (s : Services) : Event → Services → Prop where
  | auth (c : ClientId) (user : Option Uid) : Step s (.auth c user) (s.setUser c user)
  | register {id name email password avatar} (fresh : s.calls id = none) :
      Step s (.register id name email password avatar)
        (s.setCall id (.start name email password avatar))
  | failed {e id call} (answered : e.answered? = some id) (found : s.calls id = some call)
      (going : call.stage ≠ none)
      (last : ∀ url uid, call.stage = some (.updateChildValues url uid) →
        ∃ err, e = .updateChildValues id (some err)) : Step s e (s.setCall id (at? call none))
  | released {id call} (found : s.calls id = some call) (stage : call.stage = some .putData) :
      Step s (.putData id none false) ((s.upload call.avatar).setCall id (at? call none))
  | putData {id call} (found : s.calls id = some call) (stage : call.stage = some .putData) :
      Step s (.putData id none true)
        ((s.upload call.avatar).setCall id (at? call (some .downloadURL)))
  | downloadURL {id call url} (found : s.calls id = some call)
      (stage : call.stage = some .downloadURL) (path : url.path = call.avatar)
      (stored : s.storage url.path = some url.token) :
      Step s (.downloadURL id (some url) none) (s.setCall id (at? call (some (.createUser url))))
  | createUser {id call url uid} (found : s.calls id = some call)
      (stage : call.stage = some (.createUser url)) (free : call.email ∉ s.accounts)
      (unused : s.Unused uid) :
      Step s (.createUser id uid none)
        ((s.createUser id.client call.email call.password uid).setCall id
          { call with stage := some (.updateChildValues url uid), authResult := some uid })
  | updateChildValues {id call url uid} (found : s.calls id = some call)
      (stage : call.stage = some (.updateChildValues url uid)) :
      Step s (.updateChildValues id none)
        ((s.updateChildValues uid (call.userInfo url)).setCall id
          { call with stage := none, completions := call.completions + 1 })

/-- A failure before the last stage. -/
theorem Step.failedEarly {s : Services} {e : Event} {id : CallId} {call : RegisterCall}
    {stage : LoginClient.Stage} (answered : e.answered? = some id)
    (found : s.calls id = some call) (waits : call.stage = some stage)
    (early : ∀ url uid, stage ≠ .updateChildValues url uid) :
    Step s e (s.setCall id (at? call none)) :=
  .failed answered found (by rw [waits]; exact nofun)
    fun url uid h => absurd (Option.some.inj (waits.symm.trans h)) (early url uid)

/-- A closure that runs was waited for. -/
theorem reply_cases {s s' : Services} {id : CallId} {call : RegisterCall}
    {reply : LoginClient.Reply} (h : s.reply id call reply = some s') :
    ∃ stage outcome, call.stage = some stage ∧ LoginClient.Resume stage reply outcome ∧
      s' = s.setCall id (call.after outcome) := by
  obtain ⟨stage, hstage, h⟩ := Option.bind_eq_some_iff.mp h
  obtain ⟨outcome, houtcome, rfl⟩ := Option.map_eq_some_iff.mp h
  exact ⟨stage, outcome, hstage, LoginClient.resume_cases houtcome, rfl⟩

theorem putData_cases {s s' : Services} {id : CallId} {error : Option String} {alive : Bool}
    (h : step s (.putData id error alive) = some s') : Step s (.putData id error alive) s' := by
  obtain ⟨call, hcall, h⟩ := Option.bind_eq_some_iff.mp h
  obtain ⟨stage, outcome, hstage, hresume, rfl⟩ := reply_cases h
  cases hresume with
  | putDataFailed err alive => exact .failedEarly rfl hcall hstage nofun
  | putDataReleased => exact .released hcall hstage
  | putData => exact .putData hcall hstage

theorem downloadURL_cases {s s' : Services} {id : CallId} {url : Option AvatarUrl}
    {error : Option String} (h : step s (.downloadURL id url error) = some s') :
    Step s (.downloadURL id url error) s' := by
  obtain ⟨call, hcall, h⟩ := Option.bind_eq_some_iff.mp h
  obtain ⟨hserved, h⟩ := Option.ite_none_right_eq_some.mp h
  obtain ⟨stage, outcome, hstage, hresume, rfl⟩ := reply_cases h
  cases hresume with
  | downloadURLFailed url err => exact .failedEarly rfl hcall hstage nofun
  | downloadURLMissing => exact .failedEarly rfl hcall hstage nofun
  | downloadURL url =>
    obtain ⟨hpath, hstored⟩ := hserved rfl url rfl
    exact .downloadURL hcall hstage hpath hstored

theorem createUser_cases {s s' : Services} {id : CallId} {uid : Uid} {error : Option String}
    (h : step s (.createUser id uid error) = some s') : Step s (.createUser id uid error) s' := by
  obtain ⟨call, hcall, h⟩ := Option.bind_eq_some_iff.mp h
  cases error with
  | none =>
    obtain ⟨hg, h⟩ := Option.ite_none_right_eq_some.mp h
    obtain ⟨stage, outcome, hstage, hresume, rfl⟩ := reply_cases h
    cases hresume with
    | createUser url uid => exact .createUser hcall hstage hg.1 hg.2
  | some err =>
    obtain ⟨stage, outcome, hstage, hresume, rfl⟩ := reply_cases h
    cases hresume with
    | createUserFailed url err user => exact .failedEarly rfl hcall hstage nofun

theorem updateChildValues_cases {s s' : Services} {id : CallId} {error : Option String}
    (h : step s (.updateChildValues id error) = some s') :
    Step s (.updateChildValues id error) s' := by
  obtain ⟨call, hcall, h⟩ := Option.bind_eq_some_iff.mp h
  split at h
  · next url uid hstage =>
    obtain ⟨stage, outcome, hstage', hresume, rfl⟩ := reply_cases h
    cases hstage.symm.trans hstage'
    cases hresume with
    | updateChildValuesFailed url uid err =>
      exact .failed rfl hcall (by rw [hstage]; exact nofun) fun _ _ _ => ⟨err, rfl⟩
    | updateChildValues url uid => exact .updateChildValues hcall hstage
  · cases h

/-- The executable step takes no other steps. -/
theorem step_cases {s s' : Services} {e : Event} (h : machine.step s e = some s') :
    Step s e s' := by
  change step s e = some s' at h
  cases e with
  | auth c user => cases h; exact .auth c user
  | register id name email password avatar =>
    simp only [step] at h
    split at h
    · cases h
    · next hfresh => cases h; exact .register hfresh
  | putData id error alive => exact putData_cases h
  | downloadURL id url error => exact downloadURL_cases h
  | createUser id uid error => exact createUser_cases h
  | updateChildValues id error => exact updateChildValues_cases h

end Services

/-! ## How a call stands -/

namespace RegisterCall

/-- The call has made no account, and its completion has not run. -/
structure Untouched (call : RegisterCall) : Prop where
  authResult : call.authResult = none
  completions : call.completions = 0

/-- The call has made an account, and nothing has written its profile. -/
structure Unprofiled (users : Uid → Option UserInfo) (call : RegisterCall) (uid : Uid) : Prop where
  authResult : call.authResult = some uid
  completions : call.completions = 0
  profile : users uid = none

/-- The call has made an account and its profile, and has run its completion once. -/
structure Registered (users : Uid → Option UserInfo) (call : RegisterCall) (uid : Uid)
    (url : AvatarUrl) : Prop where
  authResult : call.authResult = some uid
  completions : call.completions = 1
  profile : users uid = some (call.userInfo url)
  avatar : url.path = call.avatar

/-- What a call has done, by the stage it waits for. -/
def Stands (users : Uid → Option UserInfo) (call : RegisterCall) : Prop :=
  match call.stage with
  | some .putData => call.Untouched
  | some .downloadURL => call.Untouched
  | some (.createUser url) => call.Untouched ∧ url.path = call.avatar
  | some (.updateChildValues url uid) => call.Unprofiled users uid ∧ url.path = call.avatar
  | none => call.Untouched ∨ (∃ uid, call.Unprofiled users uid) ∨
      ∃ uid url, call.Registered users uid url

/-- The URL a call goes by: the one its closures have captured, or the one of its profile. -/
inductive Uses (users : Uid → Option UserInfo) (call : RegisterCall) (url : AvatarUrl) : Prop where
  | createUser (stage : call.stage = some (.createUser url))
  | updateChildValues {uid : Uid} (stage : call.stage = some (.updateChildValues url uid))
  | profile {uid : Uid} {info : UserInfo} (made : call.authResult = some uid)
      (stored : users uid = some info) (same : info.avatarUrl = url)

theorem Unprofiled.congr {users users' : Uid → Option UserInfo} {call : RegisterCall} {uid : Uid}
    (h : call.Unprofiled users uid)
    (same : ∀ uid, call.authResult = some uid → users' uid = users uid) :
    call.Unprofiled users' uid :=
  ⟨h.authResult, h.completions, (same uid h.authResult).trans h.profile⟩

theorem Registered.congr {users users' : Uid → Option UserInfo} {call : RegisterCall} {uid : Uid}
    {url : AvatarUrl} (h : call.Registered users uid url)
    (same : ∀ uid, call.authResult = some uid → users' uid = users uid) :
    call.Registered users' uid url :=
  ⟨h.authResult, h.completions, (same uid h.authResult).trans h.profile, h.avatar⟩

/-- Only the profile of its own account matters to a call. -/
theorem Stands.congr {users users' : Uid → Option UserInfo} {call : RegisterCall}
    (h : call.Stands users) (same : ∀ uid, call.authResult = some uid → users' uid = users uid) :
    call.Stands users' := by
  unfold Stands at h ⊢
  split at h
  · exact h
  · exact h
  · exact h
  · exact ⟨h.1.congr same, h.2⟩
  · rcases h with h | ⟨uid, h⟩ | ⟨uid, url, h⟩
    · exact .inl h
    · exact .inr (.inl ⟨uid, h.congr same⟩)
    · exact .inr (.inr ⟨uid, url, h.congr same⟩)

/-- A call that has not made its account stands at a stage before it, or has stopped. -/
theorem Stands.untouched {users : Uid → Option UserInfo} {call : RegisterCall}
    (h : call.Stands users) {url : AvatarUrl} (stage : call.stage = some (.createUser url)) :
    call.Untouched ∧ url.path = call.avatar := by
  unfold Stands at h
  rw [stage] at h
  exact h

theorem Stands.unprofiled {users : Uid → Option UserInfo} {call : RegisterCall}
    (h : call.Stands users) {url : AvatarUrl} {uid : Uid}
    (stage : call.stage = some (.updateChildValues url uid)) :
    call.Unprofiled users uid ∧ url.path = call.avatar := by
  unfold Stands at h
  rw [stage] at h
  exact h

theorem Stands.uploading {users : Uid → Option UserInfo} {call : RegisterCall}
    (h : call.Stands users) (stage : call.stage = some .putData ∨ call.stage = some .downloadURL) :
    call.Untouched := by
  unfold Stands at h
  rcases stage with stage | stage
  · rw [stage] at h; exact h
  · rw [stage] at h; exact h

end RegisterCall

namespace Services

/-- In any interleaving: each call stands as its stage says, holds the account it made, shares it
with no other call, and every profile belongs to such an account. -/
structure Consistent (s : Services) : Prop where
  stands : ∀ id call, s.calls id = some call → call.Stands s.users
  account : ∀ id call uid, s.calls id = some call → call.authResult = some uid →
    s.accounts.lookup call.email = some ⟨uid, call.password⟩
  once : ∀ id id' call call' uid, s.calls id = some call → s.calls id' = some call' →
    call.authResult = some uid → call'.authResult = some uid → id = id'
  owned : ∀ uid info, s.users uid = some info →
    ∃ id call, s.calls id = some call ∧ call.authResult = some uid

theorem consistent_initial : initial.Consistent where
  stands := nofun
  account := nofun
  once := nofun
  owned := nofun

theorem setCall_calls (s : Services) (id : CallId) (call : RegisterCall) (id' : CallId) :
    (s.setCall id call).calls id' = if id' = id then some call else s.calls id' := by
  simp only [setCall, Function.update_apply]

/-- A call is replaced by one that has made the same account, or by a first one. Of the services,
only the profile of that account may change. -/
theorem Consistent.setCall {s t : Services} (h : s.Consistent) (accounts : t.accounts = s.accounts)
    (calls : t.calls = s.calls) {id : CallId} {call : RegisterCall}
    (users : ∀ uid, call.authResult = some uid ∨ t.users uid = s.users uid)
    (stands : call.Stands t.users)
    (same : call.authResult = none ∧ s.calls id = none ∨
      ∃ old, s.calls id = some old ∧ call.authResult = old.authResult ∧ call.email = old.email ∧
        call.password = old.password) :
    (t.setCall id call).Consistent := by
  -- whatever the new call says of its account, a call of `s` under the same key says
  have back : ∀ id' call' uid, (t.setCall id call).calls id' = some call' →
      call'.authResult = some uid → ∃ old, s.calls id' = some old ∧ old.authResult = some uid ∧
        old.email = call'.email ∧ old.password = call'.password := by
    intro id' call' uid hcall hres
    rw [setCall_calls, calls] at hcall
    split at hcall
    · next hid =>
      cases hcall
      subst hid
      rcases same with ⟨hnone, -⟩ | ⟨old, hold, hres', hemail, hpass⟩
      · rw [hnone] at hres; cases hres
      · exact ⟨old, hold, hres' ▸ hres, hemail.symm, hpass.symm⟩
    · exact ⟨call', hcall, hres, rfl, rfl⟩
  have hself : (t.setCall id call).calls id = some call := by rw [setCall_calls, if_pos rfl]
  have honce : ∀ id₁ id₂ call₁ call₂ uid, (t.setCall id call).calls id₁ = some call₁ →
      (t.setCall id call).calls id₂ = some call₂ → call₁.authResult = some uid →
      call₂.authResult = some uid → id₁ = id₂ := by
    intro id₁ id₂ call₁ call₂ uid hcall₁ hcall₂ hres₁ hres₂
    obtain ⟨old₁, hold₁, hores₁, -⟩ := back id₁ call₁ uid hcall₁ hres₁
    obtain ⟨old₂, hold₂, hores₂, -⟩ := back id₂ call₂ uid hcall₂ hres₂
    exact h.once id₁ id₂ old₁ old₂ uid hold₁ hold₂ hores₁ hores₂
  refine ⟨?_, ?_, honce, ?_⟩
  · intro id' call' hcall
    by_cases hid : id' = id
    · subst hid
      cases hself.symm.trans hcall
      exact stands
    · have hold : s.calls id' = some call' := by
        rw [setCall_calls, if_neg hid, calls] at hcall
        exact hcall
      refine (h.stands id' call' hold).congr fun uid hres => ?_
      rcases users uid with hown | hsame
      · exact absurd (honce id' id call' call uid hcall hself hres hown) hid
      · exact hsame
  · intro id' call' uid hcall hres
    obtain ⟨old, hold, hores, hemail, hpass⟩ := back id' call' uid hcall hres
    change t.accounts.lookup call'.email = _
    rw [accounts, ← hemail, ← hpass]
    exact h.account id' old uid hold hores
  · intro uid info hinfo
    rcases users uid with hown | hsame
    · exact ⟨id, call, hself, hown⟩
    · change t.users uid = some info at hinfo
      obtain ⟨id', call', hcall, hres⟩ := h.owned uid info (hsame.symm.trans hinfo)
      by_cases hid : id' = id
      · subst hid
        refine ⟨id', call, hself, ?_⟩
        rcases same with ⟨-, hnone⟩ | ⟨old, hold, hres', -⟩
        · rw [hnone] at hcall; cases hcall
        · cases hold.symm.trans hcall
          exact hres'.trans hres
      · exact ⟨id', call', by rw [setCall_calls, if_neg hid, calls]; exact hcall, hres⟩

/-- A new account belongs to no call yet, and has no profile. -/
theorem Consistent.unused {s : Services} (h : s.Consistent) {uid : Uid} (unused : s.Unused uid) :
    (∀ id call, s.calls id = some call → call.authResult ≠ some uid) ∧ s.users uid = none := by
  have hcalls : ∀ id call, s.calls id = some call → call.authResult ≠ some uid := by
    intro id call hcall hres
    have hacc := h.account id call uid hcall hres
    exact unused _ (Dictionary.mem_values.mpr ⟨_, hacc⟩) rfl
  refine ⟨hcalls, ?_⟩
  cases huser : s.users uid with
  | none => rfl
  | some info =>
    obtain ⟨id, call, hcall, hres⟩ := h.owned uid info huser
    exact absurd hres (hcalls id call hcall)

theorem Consistent.createUser {s : Services} (h : s.Consistent) {id : CallId}
    {call : RegisterCall} {url : AvatarUrl} {uid : Uid} (found : s.calls id = some call)
    (stage : call.stage = some (.createUser url)) (free : call.email ∉ s.accounts)
    (unused : s.Unused uid) :
    ((s.createUser id.client call.email call.password uid).setCall id
      { call with
        stage := some (.updateChildValues url uid), authResult := some uid }).Consistent := by
  obtain ⟨hnew, hprofile⟩ := h.unused unused
  obtain ⟨huntouched, hpath⟩ := (h.stands id call found).untouched stage
  refine ⟨?_, ?_, ?_, ?_⟩
  · intro id' call' hcall
    rw [setCall_calls] at hcall
    split at hcall
    · cases hcall
      exact ⟨⟨rfl, huntouched.completions, hprofile⟩, hpath⟩
    · exact h.stands id' call' hcall
  · intro id' call' uid' hcall hres
    rw [setCall_calls] at hcall
    change (s.accounts.insert call.email ⟨uid, call.password⟩).lookup call'.email = _
    rw [Dictionary.lookup_insert_iff]
    split at hcall
    · cases hcall
      cases hres
      rw [if_pos rfl]
    · have hacc := h.account id' call' uid' hcall hres
      have hne : call'.email ≠ call.email := by
        intro heq
        rw [heq] at hacc
        exact free (AList.lookup_isSome.mp (by rw [hacc]; rfl))
      rw [if_neg hne]
      exact hacc
  · intro id₁ id₂ call₁ call₂ uid' hcall₁ hcall₂ hres₁ hres₂
    rw [setCall_calls] at hcall₁ hcall₂
    split at hcall₁
    · next hid₁ =>
      cases hcall₁
      cases hres₁
      split at hcall₂
      · next hid₂ => rw [hid₁, hid₂]
      · exact absurd hres₂ (hnew id₂ call₂ hcall₂)
    · split at hcall₂
      · cases hcall₂
        cases hres₂
        exact absurd hres₁ (hnew id₁ call₁ hcall₁)
      · exact h.once id₁ id₂ call₁ call₂ uid' hcall₁ hcall₂ hres₁ hres₂
  · intro uid' info hinfo
    obtain ⟨id', call', hcall, hres⟩ := h.owned uid' info hinfo
    have hid : id' ≠ id := by
      intro heq
      subst heq
      cases found.symm.trans hcall
      rw [huntouched.authResult] at hres
      cases hres
    exact ⟨id', call', by rw [setCall_calls, if_neg hid]; exact hcall, hres⟩

theorem Consistent.updateChildValues {s : Services} (h : s.Consistent) {id : CallId}
    {call : RegisterCall} {url : AvatarUrl} {uid : Uid} (found : s.calls id = some call)
    (stage : call.stage = some (.updateChildValues url uid)) :
    ((s.updateChildValues uid (call.userInfo url)).setCall id
      { call with stage := none, completions := call.completions + 1 }).Consistent := by
  obtain ⟨hun, hpath⟩ := (h.stands id call found).unprofiled stage
  refine h.setCall (t := s.updateChildValues uid (call.userInfo url)) rfl rfl ?_ ?_
    (.inr ⟨call, found, rfl, rfl, rfl⟩)
  · intro uid'
    by_cases heq : uid' = uid
    · exact .inl (heq ▸ hun.authResult)
    · exact .inr (Function.update_of_ne heq ..)
  · have hcount : call.completions + 1 = 1 := by rw [hun.completions]
    exact .inr (.inr ⟨uid, url, hun.authResult, hcount, Function.update_self .., hpath⟩)

/-- A call that moves on, or stops, without anything in Auth or `users` changing. -/
theorem Consistent.move {s t : Services} (h : s.Consistent) (users : t.users = s.users)
    (accounts : t.accounts = s.accounts) (calls : t.calls = s.calls) {id : CallId}
    {call : RegisterCall} (found : s.calls id = some call) {stage : Option LoginClient.Stage}
    (stands : (at? call stage).Stands s.users) : (t.setCall id (at? call stage)).Consistent :=
  h.setCall accounts calls (fun _ => .inr (by rw [users])) (users ▸ stands)
    (.inr ⟨call, found, rfl, rfl, rfl⟩)

/-- Stopping early leaves what was done so far. -/
theorem Consistent.stands_stopped {s : Services} (h : s.Consistent) {id : CallId}
    {call : RegisterCall} (found : s.calls id = some call) : (at? call none).Stands s.users := by
  have hstands := h.stands id call found
  unfold RegisterCall.Stands at hstands
  split at hstands
  · exact .inl ⟨hstands.1, hstands.2⟩
  · exact .inl ⟨hstands.1, hstands.2⟩
  · exact .inl ⟨hstands.1.1, hstands.1.2⟩
  · next uid _ =>
    obtain ⟨hun, -⟩ := hstands
    exact .inr (.inl ⟨uid, hun.authResult, hun.completions, hun.profile⟩)
  · rcases hstands with hu | ⟨uid, hu⟩ | ⟨uid, url, hr⟩
    · exact .inl ⟨hu.1, hu.2⟩
    · exact .inr (.inl ⟨uid, hu.1, hu.2, hu.3⟩)
    · exact .inr (.inr ⟨uid, url, hr.1, hr.2, hr.3, hr.4⟩)

theorem consistent_step {s s' : Services} {e : Event} (h : s.Consistent)
    (hstep : machine.step s e = some s') : s'.Consistent := by
  cases step_cases hstep with
  | auth => exact ⟨h.stands, h.account, h.once, h.owned⟩
  | register fresh =>
    exact h.setCall rfl rfl (fun _ => .inr rfl) ⟨rfl, rfl⟩ (.inl ⟨rfl, fresh⟩)
  | failed _ found => exact h.move rfl rfl rfl found (h.stands_stopped found)
  | released found => exact h.move (t := s.upload _) rfl rfl rfl found (h.stands_stopped found)
  | putData found stage =>
    obtain ⟨hres, hcount⟩ := (h.stands _ _ found).uploading (.inl stage)
    refine h.move (t := s.upload _) rfl rfl rfl found ?_
    exact RegisterCall.Untouched.mk hres hcount
  | downloadURL found stage path =>
    obtain ⟨hres, hcount⟩ := (h.stands _ _ found).uploading (.inr stage)
    refine h.move rfl rfl rfl found ?_
    exact ⟨RegisterCall.Untouched.mk hres hcount, path⟩
  | createUser found stage free unused => exact h.createUser found stage free unused
  | updateChildValues found stage => exact h.updateChildValues found stage

theorem consistent_run {s : Services} {es : List Event} (run : machine.run initial es = some s) :
    s.Consistent :=
  Machine.run_invariant (fun _ _ _ => consistent_step) consistent_initial run

/-! ## One call, alone on its client -/

/-- The call an event belongs to. -/
def Event.call? : Event → Option CallId
  | .auth _ _ => none
  | .register id _ _ _ _ => some id
  | .putData id _ _ => some id
  | .downloadURL id _ _ => some id
  | .createUser id _ _ => some id
  | .updateChildValues id _ => some id

def Event.client : Event → ClientId
  | .auth c _ => c
  | .register id _ _ _ _ => id.client
  | .putData id _ _ => id.client
  | .downloadURL id _ _ => id.client
  | .createUser id _ _ => id.client
  | .updateChildValues id _ => id.client

/-- On the client of `id`, nothing but the call `id` goes on. Other clients are free. -/
def Event.Solo (id : CallId) (e : Event) : Prop := e.client = id.client → e.call? = some id

instance (id : CallId) (e : Event) : Decidable (e.Solo id) :=
  inferInstanceAs (Decidable (e.client = id.client → e.call? = some id))

/-- The call `id` was made with these arguments, and its client is signed in as before or as the
user the call made. -/
structure Holds (id : CallId) (name email password avatar : String) (before : Option Uid)
    (s : Services) (call : RegisterCall) : Prop where
  found : s.calls id = some call
  name : call.name = name
  email : call.email = email
  password : call.password = password
  avatar : call.avatar = avatar
  user : s.currentUser id.client = call.authResult.or before

/-- Another call, or none, moves. -/
theorem Holds.elsewhere {id : CallId} {name email password avatar : String} {before : Option Uid}
    {s t : Services} {call : RegisterCall} (h : Holds id name email password avatar before s call)
    (calls : t.calls id = s.calls id) (user : t.currentUser id.client = s.currentUser id.client) :
    Holds id name email password avatar before t call :=
  ⟨calls.trans h.found, h.name, h.email, h.password, h.avatar, user.trans h.user⟩

/-- The call keeps its arguments and its account as it moves on. -/
theorem Holds.move {id id' : CallId} {name email password avatar : String} {before : Option Uid}
    {s t : Services} {call old call' : RegisterCall}
    (h : Holds id name email password avatar before s call) (calls : t.calls = s.calls)
    (user : t.currentUser = s.currentUser) (found : s.calls id' = some old)
    (args : call'.name = old.name ∧ call'.email = old.email ∧ call'.password = old.password ∧
      call'.avatar = old.avatar ∧ call'.authResult = old.authResult) :
    ∃ call, Holds id name email password avatar before (t.setCall id' call') call := by
  obtain ⟨hname, hemail, hpass, havatar, hres⟩ := args
  by_cases hid : id = id'
  · subst hid
    cases h.found.symm.trans found
    refine ⟨call', by rw [setCall_calls, if_pos rfl], hname.trans h.name, hemail.trans h.email,
      hpass.trans h.password, havatar.trans h.avatar, ?_⟩
    rw [hres]
    exact (congrFun user _).trans h.user
  · refine ⟨call, h.elsewhere ?_ (congrFun user _)⟩
    rw [setCall_calls, if_neg hid, calls]

theorem holds_step {id : CallId} {name email password avatar : String} {before : Option Uid}
    {s s' : Services} {e : Event} (solo : e.Solo id)
    (h : ∃ call, Holds id name email password avatar before s call)
    (hstep : machine.step s e = some s') :
    ∃ call, Holds id name email password avatar before s' call := by
  obtain ⟨call, h⟩ := h
  cases step_cases hstep with
  | auth c user =>
    have hc : id.client ≠ c := fun heq => by cases solo heq.symm
    exact ⟨call, h.elsewhere rfl (Function.update_of_ne hc ..)⟩
  | register fresh =>
    refine ⟨call, h.elsewhere ?_ rfl⟩
    rw [setCall_calls, if_neg]
    intro heq
    rw [← heq, h.found] at fresh
    cases fresh
  | failed _ found => exact h.move rfl rfl found ⟨rfl, rfl, rfl, rfl, rfl⟩
  | released found => exact h.move (t := s.upload _) rfl rfl found ⟨rfl, rfl, rfl, rfl, rfl⟩
  | putData found => exact h.move (t := s.upload _) rfl rfl found ⟨rfl, rfl, rfl, rfl, rfl⟩
  | downloadURL found => exact h.move rfl rfl found ⟨rfl, rfl, rfl, rfl, rfl⟩
  | updateChildValues found =>
    exact h.move (t := s.updateChildValues _ _) rfl rfl found ⟨rfl, rfl, rfl, rfl, rfl⟩
  | @createUser id' old url uid found stage =>
    by_cases hid : id = id'
    · subst hid
      cases h.found.symm.trans found
      refine ⟨{ call with stage := some (.updateChildValues url uid), authResult := some uid },
        by rw [setCall_calls, if_pos rfl], h.name, h.email, h.password, h.avatar, ?_⟩
      exact Function.update_self ..
    · have hclient : id.client ≠ id'.client := fun heq =>
        hid (Option.some.inj (solo heq.symm)).symm
      refine ⟨call, h.elsewhere ?_ (Function.update_of_ne hclient ..)⟩
      rw [setCall_calls, if_neg hid]
      rfl

/-! ## Where a call has its URL from -/

/-- Before `downloadURL` has answered, and once the call has stopped, it goes by no URL but that of
its profile. -/
theorem uses_of_at {users : Uid → Option UserInfo} {call : RegisterCall} {url : AvatarUrl}
    {stage : Option LoginClient.Stage} (uses : (at? call stage).Uses users url)
    (apart : stage = none ∨ stage = some .downloadURL) : call.Uses users url := by
  cases uses with
  | createUser captured => rcases apart with rfl | rfl <;> cases captured
  | updateChildValues captured => rcases apart with rfl | rfl <;> cases captured
  | profile made stored same => exact .profile made stored same

/-- A call begins without a URL. -/
theorem not_uses_start {users : Uid → Option UserInfo} {name email password avatar : String}
    {url : AvatarUrl} : ¬ (RegisterCall.start name email password avatar).Uses users url := by
  intro uses
  cases uses with
  | createUser captured => cases captured
  | updateChildValues captured => cases captured
  | profile made => cases made

/-- A call gets the URL it goes by in one way: as the answer of its `downloadURL`. -/
theorem uses_step {s s' : Services} {e : Event} {id : CallId} {call' : RegisterCall}
    {url : AvatarUrl} (h : s.Consistent) (hstep : machine.step s e = some s')
    (found' : s'.calls id = some call') (uses : call'.Uses s'.users url) :
    e = .downloadURL id (some url) none ∨
      ∃ call, s.calls id = some call ∧ call.Uses s.users url := by
  -- in every stage: the event is about this call, or about another
  cases step_cases hstep with
  | auth => exact .inr ⟨call', found', uses⟩
  | register fresh =>
    rcases update_eq_some.mp found' with ⟨-, rfl⟩ | ⟨-, hold⟩
    · exact absurd uses not_uses_start
    · exact .inr ⟨call', hold, uses⟩
  | failed _ found =>
    rcases update_eq_some.mp found' with ⟨rfl, rfl⟩ | ⟨-, hold⟩
    · exact .inr ⟨_, found, uses_of_at uses (.inl rfl)⟩
    · exact .inr ⟨call', hold, uses⟩
  | released found =>
    rcases update_eq_some.mp found' with ⟨rfl, rfl⟩ | ⟨-, hold⟩
    · exact .inr ⟨_, found, uses_of_at uses (.inl rfl)⟩
    · exact .inr ⟨call', hold, uses⟩
  | putData found =>
    rcases update_eq_some.mp found' with ⟨rfl, rfl⟩ | ⟨-, hold⟩
    · exact .inr ⟨_, found, uses_of_at uses (.inr rfl)⟩
    · exact .inr ⟨call', hold, uses⟩
  | @downloadURL _ call _ found =>
    rcases update_eq_some.mp found' with ⟨rfl, rfl⟩ | ⟨-, hold⟩
    · cases uses with
      | createUser captured => cases captured; exact .inl rfl
      | updateChildValues captured => cases captured
      | profile made stored same =>
        have before : call.Uses s.users url := .profile made stored same
        exact .inr ⟨call, found, before⟩
    · exact .inr ⟨call', hold, uses⟩
  | createUser found stage free unused =>
    rcases update_eq_some.mp found' with ⟨rfl, rfl⟩ | ⟨-, hold⟩
    · cases uses with
      | createUser captured => cases captured
      | updateChildValues captured =>
        cases captured
        exact .inr ⟨_, found, .createUser stage⟩
      | profile made stored =>
        cases made
        cases (h.unused unused).2.symm.trans stored
    · exact .inr ⟨call', hold, uses⟩
  | @updateChildValues id' call url' uid found stage =>
    obtain ⟨hun, -⟩ := (h.stands _ _ found).unprofiled stage
    rcases update_eq_some.mp found' with ⟨rfl, rfl⟩ | ⟨hid, hold⟩
    · cases uses with
      | createUser captured => cases captured
      | updateChildValues captured => cases captured
      | profile made stored same =>
        cases hun.authResult.symm.trans made
        cases (Function.update_self ..).symm.trans stored
        cases same
        exact .inr ⟨_, found, .updateChildValues stage⟩
    · cases uses with
      | createUser captured => exact .inr ⟨call', hold, .createUser captured⟩
      | updateChildValues captured => exact .inr ⟨call', hold, .updateChildValues captured⟩
      | @profile uid' info made stored same =>
        -- the account whose profile is written is no other call's
        have hne : uid' ≠ uid := by
          rintro rfl
          exact hid (h.once id id' call' call uid' hold found made hun.authResult)
        have kept : s.users uid' = some info := (Function.update_of_ne hne ..).symm.trans stored
        exact .inr ⟨call', hold, .profile made kept same⟩

/-- From where a call goes by no URL, it was answered the one it goes by. -/
theorem answered_run {id : CallId} {s₁ s : Services} {es : List Event} (start : s₁.Consistent)
    (fresh : ∀ call url, s₁.calls id = some call → ¬ call.Uses s₁.users url)
    (run : machine.run s₁ es = some s) : ∀ call url, s.calls id = some call →
      call.Uses s.users url → .downloadURL id (some url) none ∈ es := by
  refine (Machine.run_induction (M := machine) (P := fun es s => s.Consistent ∧
    ∀ call url, s.calls id = some call → call.Uses s.users url →
      .downloadURL id (some url) none ∈ es)
    ⟨start, fun call url hcall uses => absurd uses (fresh call url hcall)⟩ ?_ run).2
  intro es e s s' _ ih hstep
  refine ⟨consistent_step ih.1 hstep, fun call' url hcall' uses => ?_⟩
  rcases uses_step ih.1 hstep hcall' uses with rfl | ⟨call, hcall, uses⟩
  · exact List.mem_append_right _ (List.mem_singleton_self _)
  · exact List.mem_append_left _ (ih.2 call url hcall uses)

/-! ## The outcome of a registration -/

/-- The attempt succeeded: the account and a profile with the given name and email are there, with
the URL that its `downloadURL` was answered with, of the given avatar, and the completion has run
once. -/
def Succeeded (s : Services) (es : List Event) (id : CallId) (name email password avatar : String) :
    Prop :=
  ∃ call uid url, s.calls id = some call ∧ call.completions = 1 ∧ url.path = avatar ∧
    .downloadURL id (some url) none ∈ es ∧ s.accounts.lookup email = some ⟨uid, password⟩ ∧
    s.users uid = some ⟨name, email, url⟩

/-- The attempt left no trace: it made no account, the client is signed in as before, and the
completion has not run. -/
def Abandoned (s : Services) (id : CallId) (before : Option Uid) : Prop :=
  ∃ call, s.calls id = some call ∧ call.completions = 0 ∧ call.authResult = none ∧
    s.currentUser id.client = before

/-- The attempt stopped half-way: its account is there and signed in, without a profile, and the
completion has not run. -/
def HalfDone (s : Services) (id : CallId) (email password : String) : Prop :=
  ∃ call uid, s.calls id = some call ∧ call.completions = 0 ∧ call.authResult = some uid ∧
    s.accounts.lookup email = some ⟨uid, password⟩ ∧ s.users uid = none ∧
    s.currentUser id.client = some uid

/-- A call that has made its account waits for the last stage, if for any. -/
theorem Consistent.last {s : Services} (h : s.Consistent) {id : CallId} {call : RegisterCall}
    (found : s.calls id = some call) (going : call.stage ≠ none) (made : call.authResult ≠ none) :
    ∃ url uid, call.stage = some (.updateChildValues url uid) := by
  have hstands := h.stands id call found
  unfold RegisterCall.Stands at hstands
  split at hstands
  · exact absurd hstands.authResult made
  · exact absurd hstands.authResult made
  · exact absurd hstands.1.authResult made
  · next url uid hstage => exact ⟨url, uid, hstage⟩
  · next hstage => exact absurd hstage going

/-- Only a rejected profile stops a call after its account. -/
theorem rejected_run {id : CallId} {s₁ s : Services} {es : List Event} (start : s₁.Consistent)
    (going : ∀ call, s₁.calls id = some call → call.stage ≠ none)
    (run : machine.run s₁ es = some s) : s.Consistent ∧ ∀ call, s.calls id = some call →
      call.stage = none → call.authResult ≠ none → call.completions = 0 →
      ∃ err, .updateChildValues id (some err) ∈ es := by
  refine Machine.run_induction (M := machine) (P := fun es s => s.Consistent ∧
    ∀ call, s.calls id = some call → call.stage = none → call.authResult ≠ none →
      call.completions = 0 → ∃ err, .updateChildValues id (some err) ∈ es)
    ⟨start, fun call hcall hstop => absurd hstop (going call hcall)⟩ ?_ run
  intro es e s s' _ ih hstep
  obtain ⟨hcons, ih⟩ := ih
  refine ⟨consistent_step hcons hstep, ?_⟩
  intro call' hcall' hstop hmade hcount
  have keep : ∀ call, s.calls id = some call → call.stage = none → call.authResult ≠ none →
      call.completions = 0 → ∃ err, .updateChildValues id (some err) ∈ es ++ [e] := by
    intro call hcall hstop hmade hcount
    obtain ⟨err, herr⟩ := ih call hcall hstop hmade hcount
    exact ⟨err, List.mem_append_left _ herr⟩
  -- an event of another call leaves this one as it was; one of its own ends it at the last stage
  cases step_cases hstep with
  | auth => exact keep call' hcall' hstop hmade hcount
  | register fresh =>
    rw [setCall_calls] at hcall'
    split at hcall'
    · cases hcall'; cases hstop
    · exact keep call' hcall' hstop hmade hcount
  | failed answered found hgoing last =>
    rw [setCall_calls] at hcall'
    split at hcall'
    · next hid =>
      cases hcall'
      obtain ⟨url, uid, hstage⟩ := hcons.last found hgoing hmade
      obtain ⟨err, rfl⟩ := last url uid hstage
      exact ⟨err, List.mem_append_right _ (hid ▸ List.mem_singleton_self _)⟩
    · exact keep call' hcall' hstop hmade hcount
  | released found stage =>
    rw [setCall_calls] at hcall'
    split at hcall'
    · cases hcall'
      exact absurd ((hcons.stands _ _ found).uploading (.inl stage)).authResult hmade
    · exact keep call' hcall' hstop hmade hcount
  | putData =>
    rw [setCall_calls] at hcall'
    split at hcall'
    · cases hcall'; cases hstop
    · exact keep call' hcall' hstop hmade hcount
  | downloadURL =>
    rw [setCall_calls] at hcall'
    split at hcall'
    · cases hcall'; cases hstop
    · exact keep call' hcall' hstop hmade hcount
  | createUser =>
    rw [setCall_calls] at hcall'
    split at hcall'
    · cases hcall'; cases hstop
    · exact keep call' hcall' hstop hmade hcount
  | updateChildValues =>
    rw [setCall_calls] at hcall'
    split at hcall'
    · cases hcall'; cases hcount
    · exact keep call' hcall' hstop hmade hcount

/-- The first attempt on the first client. -/
def attempt : CallId := ⟨0, 0⟩

/-- The answers up to the new account. -/
def untilAccount : List Event :=
  [.putData attempt none true, .downloadURL attempt (some ⟨"002-dog", 0⟩) none,
    .createUser attempt "alice" none]

/-- Every stage succeeds. -/
def allSucceed : List Event := untilAccount ++ [.updateChildValues attempt none]

/-- The database rejects the profile. -/
def profileRejected : List Event :=
  untilAccount ++ [.updateChildValues attempt (some "Permission denied")]

/-- Alice's press of the button. -/
def pressed : Event := .register attempt "Alice" "alice@ani.chat" "secret" "002-dog"

end Services

end AniChat
