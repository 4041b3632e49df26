import AniChat.Client.Snapshots
import AniChat.Laws.Client.Registration
import AniChat.Laws.Client.Sends

/-!
# What is read back is what was written

The typed tables of the world and of the services against the tree of the Realtime Database that the
accepted writes build. `layout` says where each datum lies; no two of these paths meet, so a write of
one changes no other.

## What is proved

- `represents_step`: the tree holds the typed tables, whatever the next event.
- `snapshots_read`: in every reachable state every reader decodes every snapshot: no `as! String`,
  no `as! NSNumber` and no `URL(string:)!` stops the program, what is read is the typed record, a
  missing record reads as missing, and the children of each node are the entries of its table.
-/

namespace AniChat

open Automata Collections

/-! ## Where the data lie -/

/-- A leaf the program writes. -/
inductive Datum where
  | message (m : MessageId) (key : String)
  | userMessage (u v : Uid) (m : MessageId)
  | user (uid : Uid) (key : String)
  deriving DecidableEq

/-- The path of a leaf. -/
def Datum.path : Datum → List String
  | .message m key => ["messages", m, key]
  | .userMessage u v m => ["user-messages", u, v, m]
  | .user uid key => ["users", uid, key]

/-- Paths that start differently do not meet. -/
theorem not_related_of_head {a b : String} (p q : List String) (h : a ≠ b) :
    ¬ Related (a :: p) (b :: q) := by
  rintro (hp | hq)
  · exact h (List.cons_prefix_cons.mp hp).1
  · exact h (List.cons_prefix_cons.mp hq).1.symm

/-- The layout of the database. -/
def layout : PathTree.Layout Datum String where
  path := Datum.path
  apart n n' hr := by
    cases n with
    | message m key =>
      cases n' with
      | message m' key' => cases (related_iff_of_length (by rfl)).mp hr; rfl
      | userMessage u v m' => exact absurd hr (not_related_of_head _ _ (by decide))
      | user uid key' => exact absurd hr (not_related_of_head _ _ (by decide))
    | userMessage u v m =>
      cases n' with
      | message m' key' => exact absurd hr (not_related_of_head _ _ (by decide))
      | userMessage u' v' m' => cases (related_iff_of_length (by rfl)).mp hr; rfl
      | user uid key' => exact absurd hr (not_related_of_head _ _ (by decide))
    | user uid key =>
      cases n' with
      | message m' key' => exact absurd hr (not_related_of_head _ _ (by decide))
      | userMessage u v m' => exact absurd hr (not_related_of_head _ _ (by decide))
      | user uid' key' => cases (related_iff_of_length (by rfl)).mp hr; rfl

theorem two_lt_length (n : Datum) : 2 < (layout.path n).length := by
  cases n with
  | message m key => show 2 < 3; decide
  | userMessage u v m => show 2 < 4; decide
  | user uid key => show 2 < 3; decide

/-- What the typed tables have at a leaf. -/
def content (urls : Urls) (db : Database) (users : Uid → Option UserInfo) : Datum → Option Value
  | .message m key => (db.messages m).bind fun info => PathTree.field info.values key
  | .userMessage u v m => if (u, v, m) ∈ db.userMessages then some (.number 1) else none
  | .user uid key => (users uid).bind fun info => PathTree.field (info.values urls) key

/-- The tree holds the typed tables. -/
def Represents (urls : Urls) (t : Tree) (db : Database) (users : Uid → Option UserInfo) : Prop :=
  PathTree.Holds layout t (content urls db users)

namespace Represents

variable {urls : Urls} {t : Tree} {db : Database} {users : Uid → Option UserInfo}

/-! ## Writing -/

theorem nodup_message (info : MessageInfo) : (info.values.map Prod.fst).Nodup := by
  show ["toId", "fromId", "date", "text"].Nodup
  decide

theorem nodup_user (info : UserInfo) : ((info.values urls).map Prod.fst).Nodup := by
  show ["name", "email", "avatarUrl"].Nodup
  decide

/-- All messages have the same fields. -/
theorem field_message {info info' : MessageInfo} {key : String}
    (h : PathTree.field info.values key = none) : PathTree.field info'.values key = none := by
  have hkey : key ∉ ["toId", "fromId", "date", "text"] := PathTree.field_eq_none.mp h
  exact PathTree.field_eq_none.mpr hkey

/-- All profiles have the same fields. -/
theorem field_user {info info' : UserInfo} {key : String}
    (h : PathTree.field (info.values urls) key = none) :
    PathTree.field (info'.values urls) key = none := by
  have hkey : key ∉ ["name", "email", "avatarUrl"] := PathTree.field_eq_none.mp h
  exact PathTree.field_eq_none.mpr hkey

/-- Where all records have one list of keys, a record written over another replaces it. -/
theorem field_or {α : Type} {fields : α → List (String × Value)} {info : α} {old : Option α}
    {key : String} (same : ∀ info', PathTree.field (fields info) key = none →
      PathTree.field (fields info') key = none) :
    PathTree.field (fields info) key = (PathTree.field (fields info) key).or
      (old.bind fun info' => PathTree.field (fields info') key) := by
  cases h : PathTree.field (fields info) key with
  | some value => rfl
  | none =>
    cases old with
    | none => rfl
    | some info' => exact (same info' h).symm

theorem message (h : Represents urls t db users) (m : MessageId) (info : MessageInfo) :
    Represents urls (t.update ["messages", m] info.values)
      { db with messages := Function.update db.messages m (some info) } users := by
  refine PathTree.Holds.update h (Datum.message m) (fun _ => rfl)
    (nodup_message info) (fun key => ?_) fun n hn => ?_
  · show (Function.update db.messages m (some info) m).bind _ = _
    rw [Function.update_self]
    exact field_or fun _ => field_message
  · cases n with
    | message m' key =>
      have hne : m' ≠ m := fun he => hn key (he ▸ rfl)
      show (Function.update db.messages m (some info) m').bind _ = _
      rw [Function.update_of_ne hne]
      rfl
    | userMessage u v m' => rfl
    | user uid key => rfl

theorem userMessage (h : Represents urls t db users) (u v : Uid) (m : MessageId) :
    Represents urls (t.set ["user-messages", u, v, m] (.number 1))
      { db with userMessages := insert (u, v, m) db.userMessages } users := by
  have hset := PathTree.Holds.set h (.userMessage u v m) (.number 1)
  have hcontent : Function.update (content urls db users) (.userMessage u v m) (some (.number 1)) =
      content urls { db with userMessages := insert (u, v, m) db.userMessages } users := by
    funext n
    rw [Function.update_apply]
    cases n with
    | message m' key => rfl
    | user uid key => rfl
    | userMessage u' v' m' =>
      simp only [content, Finset.mem_insert, Datum.userMessage.injEq, Prod.mk.injEq]
      split
      · next he => rw [if_pos (.inl he)]
      · next he => simp only [he, false_or]
  rw [hcontent] at hset
  exact hset

theorem user (h : Represents urls t db users) (uid : Uid) (info : UserInfo) :
    Represents urls (t.update ["users", uid] (info.values urls)) db
      (Function.update users uid (some info)) := by
  refine PathTree.Holds.update h (Datum.user uid) (fun _ => rfl)
    (nodup_user info) (fun key => ?_) fun n hn => ?_
  · show (Function.update users uid (some info) uid).bind _ = _
    rw [Function.update_self]
    exact field_or fun _ => field_user
  · cases n with
    | message m' key => rfl
    | userMessage u v m' => rfl
    | user uid' key =>
      have hne : uid' ≠ uid := fun he => hn key (he ▸ rfl)
      show (Function.update users uid (some info) uid').bind _ = _
      rw [Function.update_of_ne hne]
      rfl

/-- An accepted write of `send` changes the tree as it changes the tables. -/
theorem send (h : Represents urls t db users) (m : MessageId) (s : SendCall) (k : SendWrite) :
    Represents urls ((s.write m k).apply t) (db.apply m s k) users := by
  cases k with
  | childRef => exact h.message m s.messageInfo
  | userMessagesRef => exact h.userMessage s.fromId s.recipientId m
  | recipientUserMessagesRef => exact h.userMessage s.recipientId s.fromId m

/-! ## Reading -/

/-- A record reads as the dictionary of its fields. -/
theorem dictionary_eq {α : Type} (h : Represents urls t db users) {a b : String} {record : Option α}
    {fields : α → List (String × Value)} (stored : t.Exists [a, b] ↔ record ≠ none)
    (keys : ∀ key, t.value [a, b, key] = record.bind fun info => PathTree.field (fields info) key) :
    dictionary t [a, b] = record.map fun info => PathTree.field (fields info) := by
  have hvalue : t.value [a, b] = none := by
    refine Option.eq_none_iff_forall_ne_some.mpr fun v hv => ?_
    obtain ⟨n, hn⟩ := h.only _ v hv
    have hlength : (layout.path n).length = 2 := congrArg List.length hn
    exact absurd hlength (Nat.ne_of_gt (two_lt_length n))
  unfold dictionary
  cases record with
  | none => rw [if_neg fun hd => stored.mp hd.1 rfl]; rfl
  | some info =>
    rw [if_pos ⟨stored.mpr (Option.some_ne_none info), hvalue⟩]
    exact congrArg some (funext keys)

theorem dictionary_message (h : Represents urls t db users) (m : MessageId) :
    dictionary t ["messages", m] = (db.messages m).map fun info => PathTree.field info.values := by
  refine h.dictionary_eq ?_ fun key => h.stored (.message m key)
  rw [PathTree.Holds.exists_iff h]
  constructor
  · rintro ⟨n, hn, hp⟩ hnone
    cases n with
    | message m' key =>
      obtain ⟨rfl, -⟩ := List.cons_prefix_cons.mp (List.cons_prefix_cons.mp hp).2
      exact hn (by simp only [content, hnone, Option.bind_none])
    | userMessage u v m' => exact absurd (.inl hp) (not_related_of_head _ _ (by decide))
    | user uid key => exact absurd (.inl hp) (not_related_of_head _ _ (by decide))
  · intro hm
    obtain ⟨info, hinfo⟩ := Option.ne_none_iff_exists'.mp hm
    refine ⟨.message m "toId", ?_, ["toId"], rfl⟩
    simp only [content, hinfo, Option.bind_some]
    exact nofun

/-- Something lies at or below `users/<uid>` when a profile is there. -/
theorem exists_user (h : Represents urls t db users) (uid : Uid) :
    t.Exists ["users", uid] ↔ users uid ≠ none := by
  rw [PathTree.Holds.exists_iff h]
  constructor
  · rintro ⟨n, hn, hp⟩ hnone
    cases n with
    | message m key => exact absurd (.inl hp) (not_related_of_head _ _ (by decide))
    | userMessage u v m => exact absurd (.inl hp) (not_related_of_head _ _ (by decide))
    | user uid' key =>
      obtain ⟨rfl, -⟩ := List.cons_prefix_cons.mp (List.cons_prefix_cons.mp hp).2
      exact hn (by simp only [content, hnone, Option.bind_none])
  · intro huser
    obtain ⟨info, hinfo⟩ := Option.ne_none_iff_exists'.mp huser
    refine ⟨.user uid "name", ?_, ["name"], rfl⟩
    simp only [content, hinfo, Option.bind_some]
    exact nofun

theorem dictionary_user (h : Represents urls t db users) (uid : Uid) :
    dictionary t ["users", uid] =
      (users uid).map fun info => PathTree.field (info.values urls) :=
  h.dictionary_eq (h.exists_user uid) fun key => h.stored (.user uid key)

/-- An entry of the index is there. -/
theorem exists_entry (h : Represents urls t db users) (u v : Uid) (m : MessageId) :
    t.Exists ["user-messages", u, v, m] ↔ (u, v, m) ∈ db.userMessages := by
  rw [PathTree.Holds.exists_iff h]
  constructor
  · rintro ⟨n, hn, hp⟩
    cases n with
    | message m' key => exact absurd (.inl hp) (not_related_of_head _ _ (by decide))
    | userMessage u' v' m' =>
      cases hp.eq_of_length rfl
      by_contra hmem
      exact hn (if_neg hmem)
    | user uid key => exact absurd (.inl hp) (not_related_of_head _ _ (by decide))
  · intro hmem
    refine ⟨.userMessage u v m, ?_, List.prefix_rfl⟩
    simp only [content, if_pos hmem]
    exact nofun

/-- A partner is a child of `user-messages/<u>` while an entry lies below it. -/
theorem exists_partner (h : Represents urls t db users) (u v : Uid) :
    t.Exists ["user-messages", u, v] ↔ db.HasPartner u v := by
  rw [PathTree.Holds.exists_iff h]
  constructor
  · rintro ⟨n, hn, hp⟩
    cases n with
    | message m key => exact absurd (.inl hp) (not_related_of_head _ _ (by decide))
    | userMessage u' v' m =>
      obtain ⟨rfl, hv⟩ := List.cons_prefix_cons.mp (List.cons_prefix_cons.mp hp).2
      obtain ⟨rfl, -⟩ := List.cons_prefix_cons.mp hv
      by_contra hmem
      exact hn (if_neg fun hentry => hmem ⟨_, hentry, rfl, rfl⟩)
    | user uid key => exact absurd (.inl hp) (not_related_of_head _ _ (by decide))
  · rintro ⟨⟨u', v', m⟩, hmem, rfl, rfl⟩
    refine ⟨.userMessage u' v' m, ?_, [m], rfl⟩
    simp only [content, if_pos hmem]
    exact nofun

/-- A reader that casts all it asks for reads the typed record, or reads that there is none. -/
theorem readSnapshot_eq {α β : Type} {path : List String} {record : Option α}
    {fields : α → List (String × Value)} {cast : (String → Option Value) → Option β} {view : α → β}
    (reads : dictionary t path = record.map fun info => PathTree.field (fields info))
    (casts : ∀ info, cast (PathTree.field (fields info)) = some (view info)) :
    readSnapshot cast t path = some (record.map view) := by
  unfold readSnapshot
  rw [reads]
  cases record with
  | none => rfl
  | some info =>
    show (cast (PathTree.field (fields info))).map some = _
    rw [casts]
    rfl

end Represents

/-! ## The readers' casts -/

theorem MessageInfo.ofDictionary_values (info : MessageInfo) :
    ofDictionary (PathTree.field info.values) = some info := rfl

theorem UserInfo.ofDictionary_values (urls : Urls) (info : UserInfo) :
    ofDictionary urls (PathTree.field (info.values urls)) = some info := by
  show ((some (urls.absoluteString info.avatarUrl)).bind urls.url).bind _ = _
  rw [Option.bind_some, urls.round]
  rfl

theorem contactFields_values (urls : Urls) (info : UserInfo) :
    contactFields urls (PathTree.field (info.values urls)) =
      some (info.name, info.email, some info.avatarUrl) := by
  show some (info.name, info.email, urls.url (urls.absoluteString info.avatarUrl)) = _
  rw [urls.round]

theorem cellFields_values (urls : Urls) (info : UserInfo) :
    cellFields (PathTree.field (info.values urls)) =
      some (info.name, urls.absoluteString info.avatarUrl) := rfl

/-- URLs that write the token as so many dots before the path. -/
def Urls.dotted : Urls where
  absoluteString u := String.ofList (List.replicate u.token '.' ++ '/' :: u.path.toList)
  url s := match s.toList.dropWhile (· = '.') with
    | '/' :: path => some ⟨String.ofList path, (s.toList.takeWhile (· = '.')).length⟩
    | _ => none
  round u := by
    have hdots : ∀ c ∈ List.replicate u.token '.', decide (c = '.') = true := by
      intro c hc
      rw [List.eq_of_mem_replicate hc]
      rfl
    simp only [String.toList_ofList, List.dropWhile_append_of_pos hdots,
      List.takeWhile_append_of_pos hdots]
    simp only [List.dropWhile_cons_of_neg, List.takeWhile_cons_of_neg, Char.reduceEq, decide_false,
      Bool.false_eq_true, not_false_eq_true, List.append_nil, List.length_replicate,
      String.ofList_toList]

namespace Backend

variable {urls : Urls}

/-- A step of the world alone. -/
theorem represents_world {w w' : World} {services : Services} {t : Tree}
    {e : { e : World.Event // e.isAuth = false }} (h : Represents urls t w.db services.users)
    (hstep : World.machine.step w e = some w') :
    ∃ t', Write.machine.run t (write urls (w, services) (.world e)).toList = some t' ∧
      Represents urls t' w'.db services.users := by
  obtain ⟨e, foreign⟩ := e
  cases World.step_cases hstep with
  | @settle m k call accepted found out =>
    cases accepted with
    | false => exact ⟨t, rfl, h⟩
    | true =>
      refine ⟨(call.write m k).apply t, ?_, h.send m call k⟩
      show Write.machine.run t ((w.sends m).map _).toList = _
      rw [found]
      rfl
  | _ => exact ⟨t, rfl, h⟩

/-- A step of the services, with what it does to the world. -/
theorem represents_services {w : World} {services services' : Services} {t : Tree}
    {e : { e : Services.Event // e.isAuth = false }} (h : Represents urls t w.db services.users)
    (hstep : Services.machine.step services e = some services') :
    ∃ t', Write.machine.run t (write urls (w, services) (.services e)).toList = some t' ∧
      Represents urls t' w.db services'.users := by
  obtain ⟨e, foreign⟩ := e
  cases Services.step_cases hstep with
  | @updateChildValues id call url uid found stage =>
    refine ⟨(call.write urls url uid).apply t, ?_, h.user uid (call.userInfo url)⟩
    show Write.machine.run t ((services.calls id).bind _).toList = _
    rw [found, Option.bind_some, stage]
    rfl
  | @failed e id call answered found going last =>
    refine ⟨t, ?_, h⟩
    cases e with
    | updateChildValues id' error =>
      -- a failed write is not accepted
      cases error with
      | none =>
        cases answered
        show Write.machine.run t ((services.calls id).bind _).toList = _
        rw [found, Option.bind_some]
        split
        · next url uid stage =>
          obtain ⟨err, he⟩ := last url uid stage
          cases he
        · rfl
      | some err => rfl
    | _ => rfl
  | _ => exact ⟨t, rfl, h⟩

/-- **The tree follows every step of the world and the services.** -/
theorem represents_step {s s' : World × Services} {e : Event} {t : Tree}
    (h : Represents urls t s.1.db s.2.users) (hstep : machine.step s e = some s') :
    ∃ t', Write.machine.run t (write urls s e).toList = some t' ∧
      Represents urls t' s'.1.db s'.2.users := by
  obtain ⟨hworld, hservices⟩ := Machine.sync_step_eq_some.mp hstep
  cases e with
  | auth c user =>
    obtain ⟨w, hw, hnil⟩ := Machine.run_cons_eq_some.mp hworld
    obtain ⟨services, hs, hnil'⟩ := Machine.run_cons_eq_some.mp hservices
    cases hw
    cases hs
    rw [← Option.some.inj hnil, ← Option.some.inj hnil']
    exact ⟨t, rfl, h⟩
  | world e =>
    obtain ⟨w, hw, hnil⟩ := Machine.run_cons_eq_some.mp hworld
    rw [← Option.some.inj hnil, ← Option.some.inj hservices]
    exact represents_world h hw
  | services e =>
    obtain ⟨services, hs, hnil⟩ := Machine.run_cons_eq_some.mp hservices
    -- an account that is created signs in on the world's side, and stores nothing there
    have hdb : s'.1.db = s.1.db := by
      cases hsigns : e.1.signsIn with
      | none =>
        simp only [inWorld, hsigns, Option.map_none, Option.toList_none, Machine.run_nil] at hworld
        rw [Option.some.inj hworld]
      | some signedIn =>
        simp only [inWorld, hsigns, Option.map_some, Option.toList_some] at hworld
        obtain ⟨w, hw, hnil⟩ := Machine.run_cons_eq_some.mp hworld
        cases hw
        rw [← Option.some.inj hnil]
        rfl
    rw [hdb, ← Option.some.inj hnil]
    exact represents_services h hs

/-- The writes a run gets accepted. -/
def writes (urls : Urls) (es : List Event) : List Write := machine.emits (write urls) initial es

theorem represents_run {es : List Event} {s : World × Services}
    (run : machine.run initial es = some s) :
    ∃ t, Write.machine.run .empty (writes urls es) = some t ∧
      Represents urls t s.1.db s.2.users := by
  have start : Represents urls .empty initial.1.db initial.2.users := by
    have hempty := PathTree.holds_empty (V := Value) layout
    have hcontent : content urls initial.1.db initial.2.users = fun _ => none := by
      funext n
      cases n with
      | message m key => rfl
      | userMessage u v m =>
        show (if (u, v, m) ∈ (∅ : Finset _) then some (Value.number 1) else none) = none
        exact if_neg (Finset.notMem_empty _)
      | user uid key => rfl
    rw [Represents, hcontent]
    exact hempty
  exact Machine.run_simulates
    (R := fun (s : World × Services) t => Represents urls t s.1.db s.2.users)
    (fun _ _ _ _ h hstep => represents_step h hstep) start run

/-- **What is read back is what was written.** In every reachable state of all clients' sends and
registrations the tree that the accepted writes built is there, and on it: the message readers read
what `messages/<id>` was given; the children of `user-messages/<u>` and of `user-messages/<u>/<v>`
are the partners and the entries of the index; and each reader of `users/<uid>` reads the profile
that was registered. No reader stops at a cast or at `URL(string:)!`. -/
theorem snapshots_read {es : List Event} {s : World × Services}
    (run : machine.run initial es = some s) :
    ∃ t, Write.machine.run .empty (writes urls es) = some t ∧
      (∀ m, readSnapshot MessageInfo.ofDictionary t ["messages", m] = some (s.1.db.messages m)) ∧
      (∀ u v, t.Exists ["user-messages", u, v] ↔ s.1.db.HasPartner u v) ∧
      (∀ u v m, t.Exists ["user-messages", u, v, m] ↔ (u, v, m) ∈ s.1.db.userMessages) ∧
      (∀ uid, t.Exists ["users", uid] ↔ s.2.users uid ≠ none) ∧
      (∀ uid, readSnapshot (UserInfo.ofDictionary urls) t ["users", uid] = some (s.2.users uid)) ∧
      (∀ uid, readSnapshot (contactFields urls) t ["users", uid] =
        some ((s.2.users uid).map fun info => (info.name, info.email, some info.avatarUrl))) ∧
      ∀ uid, readSnapshot cellFields t ["users", uid] =
        some ((s.2.users uid).map fun info => (info.name, urls.absoluteString info.avatarUrl)) := by
  obtain ⟨t, ht, h⟩ := @represents_run urls es s run
  refine ⟨t, ht, fun m => ?_, h.exists_partner, h.exists_entry, h.exists_user, fun uid => ?_,
    fun uid => ?_, fun uid => ?_⟩
  · have hread := Represents.readSnapshot_eq (h.dictionary_message m)
      MessageInfo.ofDictionary_values
    rw [Option.map_id'] at hread
    exact hread
  · have hread := Represents.readSnapshot_eq (h.dictionary_user uid)
      (UserInfo.ofDictionary_values urls)
    rw [Option.map_id'] at hread
    exact hread
  · exact Represents.readSnapshot_eq (h.dictionary_user uid) (contactFields_values urls)
  · exact Represents.readSnapshot_eq (h.dictionary_user uid) (cellFields_values urls)

/-- Bob registers on client 1, and Alice writes to him from client 0. -/
def bobRegisters : List Event :=
  [.services ⟨.register ⟨1, 0⟩ "Bob" "bob@ani.chat" "secret" "002-dog", rfl⟩,
    .services ⟨.putData ⟨1, 0⟩ none true, rfl⟩,
    .services ⟨.downloadURL ⟨1, 0⟩ (some ⟨"002-dog", 0⟩) none, rfl⟩,
    .services ⟨.createUser ⟨1, 0⟩ "bob" none, rfl⟩,
    .services ⟨.updateChildValues ⟨1, 0⟩ none, rfl⟩, .auth 0 (some "alice"),
    .world ⟨.send 0 "m" "bob" 1 "hi", rfl⟩, .world ⟨.settle "m" .childRef true, rfl⟩]

theorem snapshots_read_bobRegisters : ∃ s t, machine.run initial bobRegisters = some s ∧
    Write.machine.run .empty (writes Urls.dotted bobRegisters) = some t ∧
    readSnapshot MessageInfo.ofDictionary t ["messages", "m"] =
      some (some ⟨"bob", "alice", 1, "hi"⟩) ∧
    readSnapshot (UserInfo.ofDictionary Urls.dotted) t ["users", "bob"] =
      some (some ⟨"Bob", "bob@ani.chat", ⟨"002-dog", 0⟩⟩) := by
  obtain ⟨t, ht, hmessages, -, -, -, husers, -⟩ :=
    @snapshots_read Urls.dotted bobRegisters _ rfl
  exact ⟨_, t, rfl, ht, hmessages "m", husers "bob"⟩

end Backend

end AniChat
