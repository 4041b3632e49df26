import AniChat.App.Directory
import AniChat.Laws.Client.Registration
import AniChat.Laws.Client.Snapshots

/-!
# Who is in the list of contacts

Registrations of all clients go on while the list is filled, so the children of `users` come in any
order and at any time.

## What is proved

- `users_step`: a profile that is stored stays as it is.
- `contacts_complete`: while one user is signed in, the list never shows a person twice nor the user,
  each row is a stored profile, and once `childAdded` has fired for every profile the list is all
  registered users but the one who is signed in.
- `contacts_rows`: no row the table shows is out of range, a tap opens the contact the row shows, and
  no force unwrap of the cell fails, whoever signs in or out.
-/

namespace AniChat

open Automata Collections

/-- A profile that is stored stays as it is: an account writes its profile once. -/
theorem Services.users_step {s s' : Services} {e : Services.Event} (h : s.Consistent)
    (hstep : Services.machine.step s e = some s') {uid : Uid} {info : UserInfo}
    (stored : s.users uid = some info) : s'.users uid = some info := by
  cases Services.step_cases hstep with
  | @updateChildValues id call url uid' found stage =>
    have hun := ((h.stands id call found).unprofiled stage).1
    have hne : uid ≠ uid' := fun he => by
      rw [he, hun.profile] at stored
      cases stored
    exact (Function.update_of_ne hne ..).trans stored
  | _ => exact stored

namespace ContactVC

variable {urls : Urls} {vc vc' : ContactVC}

/-- What one block can do. -/
inductive Step (urls : Urls) (vc : ContactVC) : Event → ContactVC → Prop where
  | viewDidLoad (first : vc.viewLoaded = false) : Step urls vc .viewDidLoad vc.viewDidLoad
  | childAdded {currentUser key fields} (loaded : vc.viewLoaded = true) (first : key ∉ vc.fired) :
      Step urls vc (.childAdded currentUser key fields)
        (vc.childAdded key (ChatClient.contactObserver urls currentUser key fields))
  | viewWillAppear : Step urls vc .viewWillAppear vc.reloadData
  | layout : Step urls vc .layout vc.reloadData

theorem step_cases {e : Event} (h : (machine urls).step vc e = some vc') : Step urls vc e vc' := by
  cases e with
  | viewDidLoad =>
    obtain ⟨hfirst, h⟩ := Option.ite_none_right_eq_some.mp h
    cases h
    exact .viewDidLoad hfirst
  | childAdded currentUser key fields =>
    obtain ⟨⟨hloaded, hfirst⟩, h⟩ := Option.ite_none_right_eq_some.mp h
    cases h
    exact .childAdded hloaded hfirst
  | viewWillAppear => cases h; exact .viewWillAppear
  | layout => cases h; exact .layout

theorem childAdded_fired (vc : ContactVC) (key : Uid) (contact : Option User) :
    (vc.childAdded key contact).fired = key :: vc.fired := by
  cases contact with
  | none => rfl
  | some user => rfl

theorem childAdded_contacts (vc : ContactVC) (key : Uid) (contact : Option User) :
    (vc.childAdded key contact).contacts = vc.contacts ++ contact.toList := by
  cases contact with
  | none => exact (List.append_nil _).symm
  | some user => rfl

/-! ## Rows -/

/-- What `contactObserver` hands on can be shown by a cell. -/
def Showable (contact : User) : Prop :=
  ∃ name email avatar, contact.name = some name ∧ contact.email = some email ∧
    contact.avatar = some avatar

/-- The table shows the contacts as they were when it was last reloaded: the list only grows. -/
structure Rows (vc : ContactVC) : Prop where
  table : vc.table <+: vc.contacts
  showable : ∀ contact ∈ vc.contacts, Showable contact

theorem Rows.childAdded (h : vc.Rows) (key : Uid) {contact : Option User}
    (shows : ∀ user, contact = some user → Showable user) : (vc.childAdded key contact).Rows := by
  cases contact with
  | none => exact ⟨h.table, h.showable⟩
  | some user =>
    refine ⟨List.prefix_rfl, fun contact hmem => ?_⟩
    rcases List.mem_append.mp hmem with hold | hnew
    · exact h.showable contact hold
    · rw [List.mem_singleton.mp hnew]
      exact shows user rfl

end ContactVC

namespace Directory

variable {urls : Urls} {c : ClientId} {s s' : Services × ContactVC}

/-- A step is one of the services, or a block of the screen that is told what is so. -/
theorem step_cases {e : Event} (h : (machine urls c).step s e = some s') :
    (∃ e', e = .services e' ∧ Services.machine.step s.1 e' = some s'.1 ∧ s'.2 = s.2) ∨
      ∃ e', e = .screen e' ∧ Agrees c s (.screen e') ∧ ContactVC.Step urls s.2 e' s'.2 ∧
        s'.1 = s.1 := by
  obtain ⟨hagrees, hsync⟩ := Machine.restrict_step_eq_some.mp h
  obtain ⟨hleft, hright⟩ := Machine.sync_step_eq_some.mp hsync
  cases e with
  | services e' =>
    obtain ⟨t, ht, hnil⟩ := Machine.run_cons_eq_some.mp hleft
    exact .inl ⟨e', rfl, ht.trans hnil, (Option.some.inj hright).symm⟩
  | screen e' =>
    obtain ⟨t, ht, hnil⟩ := Machine.run_cons_eq_some.mp hright
    exact .inr ⟨e', rfl, hagrees, ContactVC.step_cases (ht.trans hnil),
      (Option.some.inj hleft).symm⟩

/-- What the client hands on for a stored profile. -/
theorem contactObserver_stored (currentUser : Option Uid) (key : Uid) (info : UserInfo) :
    ChatClient.contactObserver urls currentUser key
        (some (info.name, info.email, some info.avatarUrl)) =
      if some key ≠ currentUser then
        some (.ofFields urls key info.name info.email (some info.avatarUrl))
      else none := rfl

/-! ## Rows -/

theorem rows_step {e : Event} (h : s.2.Rows) (hstep : (machine urls c).step s e = some s') :
    s'.2.Rows := by
  rcases step_cases hstep with ⟨e', rfl, -, hvc⟩ | ⟨e', rfl, hagrees, hscreen, -⟩
  · rw [hvc]; exact h
  · generalize s'.2 = vc' at hscreen
    cases hscreen with
    | viewDidLoad => exact ⟨h.table, h.showable⟩
    | @childAdded currentUser key fields =>
      obtain ⟨-, hstored, rfl⟩ := hagrees
      obtain ⟨info, hinfo⟩ := Option.ne_none_iff_exists'.mp hstored
      rw [hinfo]
      refine h.childAdded key fun user huser => ?_
      change ChatClient.contactObserver urls currentUser key (some _) = _ at huser
      rw [contactObserver_stored] at huser
      split at huser
      · cases huser
        exact ⟨_, _, _, rfl, rfl, rfl⟩
      · cases huser
    | viewWillAppear => exact ⟨List.prefix_rfl, h.showable⟩
    | layout => exact ⟨List.prefix_rfl, h.showable⟩

/-- **A tap opens what its row shows.** In every run, each row the table shows is in range; the cell
of the row is configured without a trap and shows the contact the table read there, and a tap hands
that contact to `showInbox`. -/
theorem contacts_rows {k : ObjectId} {es : List Event} {services : Services} {vc : ContactVC}
    (run : (machine urls c).run (.initial, .new k) es = some (services, vc)) {row : Nat}
    (shown : row < vc.table.length) :
    ∃ contact cell, vc.table[row]? = some contact ∧ vc.didSelectRowAt row = some contact ∧
      vc.cellForRowAt row = some cell ∧ cell.nameLabel = contact.name ∧
      cell.emailLabel = contact.email ∧ cell.urlString = contact.avatar := by
  have start : (ContactVC.new k).Rows := ⟨List.prefix_rfl, nofun⟩
  have hrows : vc.Rows :=
    Machine.run_invariant (P := fun s : Services × ContactVC => s.2.Rows)
      (fun _ _ _ h hstep => rows_step h hstep) start run
  have hcontact : vc.contacts[row]? = some vc.table[row] := by
    rw [hrows.table.getElem shown]
    exact List.getElem?_eq_getElem (Nat.lt_of_lt_of_le shown hrows.table.length_le)
  obtain ⟨name, email, avatar, hname, hemail, havatar⟩ :=
    hrows.showable _ (hrows.table.mem (List.getElem_mem shown))
  refine ⟨vc.table[row], ⟨some name, some email, some avatar⟩, List.getElem?_eq_getElem shown,
    hcontact, ?_, hname.symm, hemail.symm, havatar.symm⟩
  unfold ContactVC.cellForRowAt ContactCell.setContact
  rw [hcontact, Option.bind_some, hname, hemail, havatar]
  rfl

/-! ## The whole list -/

/-- Where `childAdded` fires, `u` is signed in. -/
def DuringSession (u : Uid) : Event → Prop
  | .screen (.childAdded currentUser _ _) => currentUser = some u
  | _ => True

/-- The list against the profiles: a row for each child that has fired, but for the user's own. -/
structure Listed (urls : Urls) (u : Uid) (s : Services × ContactVC) : Prop where
  consistent : s.1.Consistent
  fired : s.2.fired.Nodup
  present : ∀ uid ∈ s.2.fired, s.1.users uid ≠ none
  ids : s.2.contacts.map User.id = (s.2.fired.reverse.filter (· ≠ u)).map some
  stored : ∀ contact ∈ s.2.contacts, ∃ uid info, s.1.users uid = some info ∧
    contact = .ofFields urls uid info.name info.email (some info.avatarUrl)

/-- What is handed on for a child, in the terms of the invariant. -/
theorem contactObserver_session (u key : Uid) (info : UserInfo) :
    ChatClient.contactObserver urls (some u) key
        (some (info.name, info.email, some info.avatarUrl)) =
      if key ≠ u then some (.ofFields urls key info.name info.email (some info.avatarUrl))
      else none := by
  rw [contactObserver_stored]
  exact if_congr (not_congr Option.some_inj) rfl rfl

theorem listed_childAdded {u key : Uid} {info : UserInfo} (h : Listed urls u s)
    (first : key ∉ s.2.fired) (hinfo : s.1.users key = some info) :
    Listed urls u (s.1, s.2.childAdded key (ChatClient.contactObserver urls (some u) key
      (some (info.name, info.email, some info.avatarUrl)))) := by
  rw [contactObserver_session]
  refine ⟨h.consistent, ?_, ?_, ?_, ?_⟩
  · rw [ContactVC.childAdded_fired]
    exact List.nodup_cons.mpr ⟨first, h.fired⟩
  · rw [ContactVC.childAdded_fired]
    intro uid hmem
    rcases List.mem_cons.mp hmem with rfl | hold
    · show s.1.users uid ≠ none
      rw [hinfo]
      exact Option.some_ne_none info
    · exact h.present uid hold
  · rw [ContactVC.childAdded_fired, ContactVC.childAdded_contacts, List.map_append, h.ids,
      List.reverse_cons, List.filter_append, List.map_append]
    refine congrArg _ ?_
    by_cases hkey : key = u
    · rw [if_neg (not_not_intro hkey), List.filter_cons_of_neg (by simpa using hkey)]
      rfl
    · rw [if_pos hkey, List.filter_cons_of_pos (by simpa using hkey)]
      rfl
  · rw [ContactVC.childAdded_contacts]
    intro contact hmem
    rcases List.mem_append.mp hmem with hold | hnew
    · exact h.stored contact hold
    · split at hnew
      · exact ⟨key, info, hinfo, List.mem_singleton.mp hnew⟩
      · cases hnew

theorem listed_step {u : Uid} {e : Event} (session : DuringSession u e) (h : Listed urls u s)
    (hstep : (machine urls c).step s e = some s') : Listed urls u s' := by
  obtain ⟨services', vc'⟩ := s'
  rcases step_cases hstep with ⟨e', rfl, hservices, rfl⟩ | ⟨e', rfl, hagrees, hscreen, rfl⟩
  · have keeps : ∀ uid info, s.1.users uid = some info → services'.users uid = some info :=
      fun uid info => Services.users_step h.consistent hservices
    refine ⟨Services.consistent_step h.consistent hservices, h.fired, fun uid hmem => ?_, h.ids,
      fun contact hmem => ?_⟩
    · obtain ⟨info, hinfo⟩ := Option.ne_none_iff_exists'.mp (h.present uid hmem)
      rw [keeps uid info hinfo]
      exact Option.some_ne_none info
    · obtain ⟨uid, info, hinfo, hcontact⟩ := h.stored contact hmem
      exact ⟨uid, info, keeps uid info hinfo, hcontact⟩
  · cases hscreen with
    | viewDidLoad => exact ⟨h.consistent, h.fired, h.present, h.ids, h.stored⟩
    | @childAdded currentUser key fields loaded first =>
      obtain ⟨-, hstored, rfl⟩ := hagrees
      obtain ⟨info, hinfo⟩ := Option.ne_none_iff_exists'.mp hstored
      cases (show currentUser = some u from session)
      rw [hinfo]
      exact listed_childAdded h first hinfo
    | viewWillAppear => exact ⟨h.consistent, h.fired, h.present, h.ids, h.stored⟩
    | layout => exact ⟨h.consistent, h.fired, h.present, h.ids, h.stored⟩

theorem listed_run {u : Uid} {k : ObjectId} {es : List Event}
    (session : ∀ e ∈ es, DuringSession u e)
    (run : (machine urls c).run (.initial, .new k) es = some s) : Listed urls u s := by
  have start : Listed urls u (.initial, .new k) :=
    ⟨Services.consistent_initial, List.nodup_nil, fun _ h => (List.not_mem_nil h).elim, rfl,
      fun _ h => (List.not_mem_nil h).elim⟩
  exact Machine.run_invariant_of (fun _ _ _ => listed_step) session start run

/-- **The list is everyone else, once.** While `u` is signed in no person is listed twice, each row
is the stored profile of another user, and when `childAdded` has fired for every profile there is,
the list has every registered user but `u`. -/
theorem contacts_complete {u : Uid} {k : ObjectId} {es : List Event} {services : Services}
    {vc : ContactVC} (session : ∀ e ∈ es, DuringSession u e)
    (run : (machine urls c).run (.initial, .new k) es = some (services, vc)) :
    (vc.contacts.map User.id).Nodup ∧
    (∀ contact ∈ vc.contacts, ∃ uid info, uid ≠ u ∧ services.users uid = some info ∧
      contact = .ofFields urls uid info.name info.email (some info.avatarUrl)) ∧
    ((∀ uid, services.users uid ≠ none → uid ∈ vc.fired) → ∀ uid,
      some uid ∈ vc.contacts.map User.id ↔ services.users uid ≠ none ∧ uid ≠ u) := by
  have h := listed_run session run
  have hids : vc.contacts.map User.id = (vc.fired.reverse.filter (· ≠ u)).map some := h.ids
  have hmem : ∀ uid, some uid ∈ vc.contacts.map User.id ↔ uid ∈ vc.fired ∧ uid ≠ u := by
    intro uid
    rw [hids, List.mem_map]
    simp only [Option.some.injEq, exists_eq_right, List.mem_filter, List.mem_reverse,
      decide_eq_true_eq]
  refine ⟨?_, fun contact hcontact => ?_, fun all uid => ?_⟩
  · rw [hids]
    exact ((List.nodup_reverse.mpr h.fired).filter _).map (Option.some_injective _)
  · obtain ⟨uid, info, hinfo, rfl⟩ := h.stored contact hcontact
    have hid : some uid ∈ vc.contacts.map User.id := List.mem_map.mpr ⟨_, hcontact, rfl⟩
    exact ⟨uid, info, ((hmem uid).mp hid).2, hinfo, rfl⟩
  · rw [hmem]
    exact and_congr_left fun _ => ⟨h.present uid, all uid⟩

/-- A client registers a user. -/
def registers (id : CallId) (uid : Uid) (name email avatar : String) (token : Nat) : List Event :=
  [.services (.register id name email "secret" avatar), .services (.putData id none true),
    .services (.downloadURL id (some ⟨avatar, token⟩) none), .services (.createUser id uid none),
    .services (.updateChildValues id none)]

/-- Alice registers and opens her list; Bob registers on another client. -/
def aliceLooks : List Event :=
  registers ⟨0, 0⟩ "alice" "Alice" "alice@ani.chat" "002-dog" 0 ++
    [.screen .viewDidLoad, .screen .viewWillAppear,
      .screen (.childAdded (some "alice") "alice"
        (some ("Alice", "alice@ani.chat", some ⟨"002-dog", 0⟩)))] ++
    registers ⟨1, 0⟩ "bob" "Bob" "bob@ani.chat" "012-cat" 1 ++
    [.screen (.childAdded (some "alice") "bob" (some ("Bob", "bob@ani.chat", some ⟨"012-cat", 1⟩)))]

theorem contacts_complete_aliceLooks : ∃ services vc,
    (machine .dotted 0).run (.initial, .new 10) aliceLooks = some (services, vc) ∧
    (vc.contacts.map User.id).Nodup ∧ vc.contacts.map User.name = [some "Bob"] := by
  have h := @contacts_complete .dotted 0 "alice" 10 aliceLooks _ _
    (by simp only [aliceLooks, registers, List.cons_append, List.nil_append, List.mem_cons,
      List.not_mem_nil, or_false, forall_eq_or_imp, forall_eq, DuringSession, and_self]) rfl
  exact ⟨_, _, rfl, h.1, rfl⟩

theorem contacts_rows_aliceLooks : ∃ services vc,
    (machine .dotted 0).run (.initial, .new 10) aliceLooks = some (services, vc) ∧
    ∃ contact cell, vc.didSelectRowAt 0 = some contact ∧ vc.cellForRowAt 0 = some cell ∧
      cell.nameLabel = contact.name := by
  obtain ⟨contact, cell, -, hselect, hcell, hname, -⟩ :=
    @contacts_rows .dotted 0 10 aliceLooks _ _ rfl 0 Nat.zero_lt_one
  exact ⟨_, _, rfl, contact, cell, hselect, hcell, hname⟩

end Directory

end AniChat
