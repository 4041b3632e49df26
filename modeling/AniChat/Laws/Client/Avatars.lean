import AniChat.Laws.Client.Registration

/-!
# The pictures profiles point to

`register` uploads the picture to the path that is its name, whoever picks it, and copies the URL it
is answered with into the profile. The next upload of the same picture replaces the object and its
token, and the copies in other profiles stop working.

## What is proved

- `resolves_step`: an upload keeps every stored URL working exactly when no profile points to its
  path, and a profile's own URL works exactly when nothing has replaced its object since it was
  asked for.
- `resolves_iff`: so every stored URL works in every state of a run exactly when each of its steps
  is so.
-/

namespace AniChat

open Automata Collections

namespace Services

/-- The URL of every stored profile is the one of the object at its path. -/
def Resolves (s : Services) : Prop :=
  ∀ uid info, s.users uid = some info →
    s.storage info.avatarUrl.path = some info.avatarUrl.token

/-- The step replaces no object that a stored profile points to, and stores no profile whose own
object has been replaced. -/
def Spares (s : Services) : Event → Prop
  | .putData id none _ => ∀ call, s.calls id = some call →
      ∀ uid info, s.users uid = some info → info.avatarUrl.path ≠ call.avatar
  | .updateChildValues id none => ∀ call url uid, s.calls id = some call →
      call.stage = some (.updateChildValues url uid) → s.storage url.path = some url.token
  | _ => True

/-- Every token in use has been issued. -/
def Issued (s : Services) : Prop := ∀ path token, s.storage path = some token → token < s.issued

theorem issued_upload {s : Services} (h : s.Issued) (path : String) : (s.upload path).Issued := by
  intro path' token hstored
  show token < s.issued + 1
  rcases update_eq_some.mp hstored with ⟨-, rfl⟩ | ⟨-, hold⟩
  · exact Nat.lt_succ_self _
  · exact Nat.lt_succ_of_lt (h path' token hold)

theorem issued_step {s s' : Services} {e : Event} (h : s.Issued)
    (hstep : machine.step s e = some s') : s'.Issued := by
  cases step_cases hstep with
  | released => exact issued_upload h _
  | putData => exact issued_upload h _
  | _ => exact h

/-- A fresh token is nobody's: an upload spares the profiles exactly when none points to its path.
-/
theorem resolves_upload {s : Services} (h : s.Resolves) (issued : s.Issued) (path : String) :
    (s.upload path).Resolves ↔ ∀ uid info, s.users uid = some info → info.avatarUrl.path ≠ path := by
  constructor
  · intro hupload uid info hinfo heq
    have hnew : Function.update s.storage path (some s.issued) info.avatarUrl.path =
        some info.avatarUrl.token := hupload uid info hinfo
    rw [heq, Function.update_self] at hnew
    have hlt := issued _ _ (h uid info hinfo)
    have htoken : s.issued = info.avatarUrl.token := Option.some.inj hnew
    omega
  · intro spares uid info hinfo
    show Function.update s.storage path (some s.issued) info.avatarUrl.path = _
    rw [Function.update_of_ne (spares uid info hinfo)]
    exact h uid info hinfo

/-- A profile is stored well exactly when its own URL works. -/
theorem resolves_updateChildValues {s : Services} (h : s.Resolves) (uid : Uid) (info : UserInfo) :
    (s.updateChildValues uid info).Resolves ↔
      s.storage info.avatarUrl.path = some info.avatarUrl.token := by
  constructor
  · exact fun hnew => hnew uid info (Function.update_self ..)
  · intro own uid' info' hinfo
    rcases update_eq_some.mp hinfo with ⟨-, rfl⟩ | ⟨-, hold⟩
    · exact own
    · exact h uid' info' hold

/-- An upload without an error takes effect, whether or not its client is still there. -/
theorem putData_uploads {s s' : Services} {id : CallId} {alive : Bool}
    (hstep : machine.step s (.putData id none alive) = some s') :
    ∃ call, s.calls id = some call ∧ s'.storage = (s.upload call.avatar).storage ∧
      s'.users = s.users := by
  obtain ⟨call, found, h⟩ := Option.bind_eq_some_iff.mp hstep
  obtain ⟨stage, outcome, -, -, rfl⟩ := reply_cases h
  exact ⟨call, found, rfl, rfl⟩

/-- A stage that fails, the upload's apart, spares every profile. -/
theorem spares_failed {s : Services} {e : Event} {id : CallId} {call : RegisterCall}
    (answered : e.answered? = some id) (found : s.calls id = some call)
    (last : ∀ url uid, call.stage = some (.updateChildValues url uid) →
      ∃ err, e = .updateChildValues id (some err))
    (kept : ∀ id alive, e ≠ .putData id none alive) : s.Spares e := by
  cases e with
  | putData id' error alive =>
    cases error with
    | none => exact absurd rfl (kept id' alive)
    | some err => trivial
  | updateChildValues id' error =>
    cases error with
    | some err => trivial
    | none =>
      cases answered
      intro call' url uid found' stage
      cases found.symm.trans found'
      obtain ⟨err, herr⟩ := last url uid stage
      cases herr
  | _ => trivial

/-- One step keeps every stored URL working exactly when it spares them. -/
theorem resolves_step {s s' : Services} {e : Event} (h : s.Resolves) (issued : s.Issued)
    (hstep : machine.step s e = some s') : s'.Resolves ↔ s.Spares e := by
  by_cases hupload : ∃ id alive, e = .putData id none alive
  · obtain ⟨id, alive, rfl⟩ := hupload
    obtain ⟨call, found, hstorage, husers⟩ := putData_uploads hstep
    have hsame : s'.Resolves ↔ (s.upload call.avatar).Resolves := by
      unfold Resolves
      rw [hstorage, husers]
      rfl
    refine (hsame.trans (resolves_upload h issued call.avatar)).trans ?_
    refine ⟨fun spares call' found' => ?_, fun spares => spares call found⟩
    cases found.symm.trans found'
    exact spares
  have kept : ∀ id alive, e ≠ .putData id none alive := fun id alive heq =>
    hupload ⟨id, alive, heq⟩
  cases step_cases hstep with
  | auth => exact iff_of_true h trivial
  | register => exact iff_of_true h trivial
  | downloadURL => exact iff_of_true h trivial
  | createUser => exact iff_of_true h trivial
  | failed answered found going last => exact iff_of_true h (spares_failed answered found last kept)
  | released => exact absurd rfl (kept _ _)
  | putData => exact absurd rfl (kept _ _)
  | @updateChildValues id call url uid found stage =>
    refine (resolves_updateChildValues h uid (call.userInfo url)).trans ?_
    refine ⟨fun own call' url' uid' found' stage' => ?_, fun own => own call url uid found stage⟩
    cases found.symm.trans found'
    cases stage.symm.trans stage'
    exact own

/-- **Every stored URL works along a run exactly when each of its steps spares the profiles.** -/
theorem resolves_iff {es : List Event} {s : Services} (run : machine.run initial es = some s) :
    machine.Always Resolves initial es ↔ machine.Meets Spares initial es := by
  have keep : ∀ s e s', s.Resolves → s.Issued → machine.step s e = some s' →
      s'.Issued ∧ (s'.Resolves ↔ s.Spares e) :=
    fun _ _ _ h issued hstep => ⟨issued_step issued hstep, resolves_step h issued hstep⟩
  exact Machine.always_iff_meets keep nofun nofun run

/-- A registration in which every stage succeeds; its upload is given the token `token`. -/
def registers (c : ClientId) (uid : Uid) (avatar : String) (token : Nat) : List Event :=
  [.register ⟨c, 0⟩ uid (uid ++ "@ani.chat") "secret" avatar, .putData ⟨c, 0⟩ none true,
    .downloadURL ⟨c, 0⟩ (some ⟨avatar, token⟩) none, .createUser ⟨c, 0⟩ uid none,
    .updateChildValues ⟨c, 0⟩ none]

/-- Alice and Bob pick different pictures. -/
def apart : List Event := registers 0 "alice" "002-dog" 0 ++ registers 1 "bob" "012-cat" 1

theorem resolves_apart : ∃ s, machine.run initial apart = some s ∧
    (machine.Always Resolves initial apart ↔ machine.Meets Spares initial apart) :=
  ⟨_, rfl, resolves_iff rfl⟩

/-- Bob picks Alice's picture, and the URL in her profile stops working. -/
theorem broken_avatar : ¬ ∀ es s, machine.run initial es = some s → s.Resolves := by
  intro law
  have h := law (registers 0 "alice" "002-dog" 0 ++ registers 1 "bob" "002-dog" 1) _ rfl "alice" _ rfl
  cases h

end Services

end AniChat
