import AniChat.Client.ChatClient
import AniChat.Collections.Dictionary
import Mathlib.Tactic.Tauto

/-!
# What the writes of a `send` leave in the database

`World.Step` says once what each event can do; `step_cases` derives it from the executable step.
Every invariant of the chat's database comes from it.

## What is proved

- `World.Consistent`: in every reachable state, what is stored under a key is exactly what the
  accepted writes of the call that made the key put there. It holds whatever the server rejects.
- `all_or_nothing_iff`: a finished call is all-or-nothing exactly when the server's verdicts agree.
  The completion closure issues the index writes without looking at its error, so a rejected message
  with accepted index writes leaves two dangling entries (`send_leaves_dangling_entries`).
-/

namespace AniChat

open Automata Collections

/-! ## One step of the world -/

namespace World

/-- What one event can do. -/
inductive Step (w : World) : Event → World → Prop where
  | auth (c : ClientId) (user : Option Uid) : Step w (.auth c user) (w.setUser c user)
  | sendSignedOut {c m recipientId date text} (signedOut : w.currentUser c = none) :
      Step w (.send c m recipientId date text) w
  | send {c m recipientId date text fromId} (fresh : w.sends m = none)
      (signedIn : w.currentUser c = some fromId) :
      Step w (.send c m recipientId date text)
        (w.setSend m (ChatClient.send fromId recipientId date text))
  | settle {m k s} (accepted : Bool) (call : w.sends m = some s)
      (out : s.writes k = .outstanding) :
      Step w (.settle m k accepted) (w.settle m s k accepted)
  | completion {m s} (call : w.sends m = some s) (first : s.completed = false)
      (answered : (s.writes .childRef).Settled) :
      Step w (.completion m) (w.setSend m s.completion)
  | messagesForUserSignedOut {c vc} (signedOut : w.currentUser c = none) :
      Step w (.messagesForUserObserver c vc) w
  | observeMessagesSignedOut {c vc toId} (signedOut : w.currentUser c = none) :
      Step w (.observeMessages c vc toId) w
  | messagesForUserObserver {c vc uid} (signedIn : w.currentUser c = some uid)
      (new : w.readers ⟨c, .recents vc⟩ = none) :
      Step w (.messagesForUserObserver c vc) (w.setReader ⟨c, .recents vc⟩ (.attached uid []))
  | observeMessages {c vc toId uid} (signedIn : w.currentUser c = some uid)
      (new : w.readers ⟨c, .inbox vc⟩ = none) :
      Step w (.observeMessages c vc toId) (w.setReader ⟨c, .inbox vc⟩ (.attached uid [toId]))
  | release {id r} (reader : w.readers id = some r) :
      Step w (.release id) (w.setReader id { r with alive := false })
  | partnerAdded {id r v vc} (reader : w.readers id = some r) (owner : id.owner = .recents vc)
      (first : v ∉ r.partners) (child : w.db.HasPartner r.uid v) :
      Step w (.partnerAdded id v) (w.setReader id (r.partnerAdded v))
  | childAdded {id r v m} (reader : w.readers id = some r) (nested : v ∈ r.partners)
      (child : (r.uid, v, m) ∈ w.db.userMessages) (first : r.reads (v, m) = .unseen) :
      Step w (.childAdded id v m) (w.setReader id (r.childAdded id.owner (v, m)))
  | serve {id r v m} (reader : w.readers id = some r) (out : r.reads (v, m) = .requested) :
      Step w (.serve id v m) (w.setReader id (r.serve (v, m) (w.db.messages m)))
  | read {id r v m value} (reader : w.readers id = some r)
      (served : r.reads (v, m) = .served value) :
      Step w (.read id v m value) (w.setReader id (r.read (v, m) value))

theorem attach_cases {w w' : World} {c : ClientId} {owner : Owner} {partners : List Uid}
    (h : w.attach c owner partners = some w') :
    (w.currentUser c = none ∧ w' = w) ∨ ∃ uid, w.currentUser c = some uid ∧
      w.readers ⟨c, owner⟩ = none ∧ w' = w.setReader ⟨c, owner⟩ (.attached uid partners) := by
  unfold attach at h
  split at h
  · cases h
  · next huser => cases h; exact .inl ⟨huser, rfl⟩
  · next uid hr huser => cases h; exact .inr ⟨uid, huser, hr, rfl⟩

/-- The executable step takes no other steps. -/
theorem step_cases {w w' : World} {e : Event} (h : machine.step w e = some w') : Step w e w' := by
  change step w e = some w' at h
  cases e with
  | auth c user => cases h; exact .auth c user
  | send c m recipientId date text =>
    simp only [step] at h
    split at h
    · cases h
    · next huser => cases h; exact .sendSignedOut huser
    · next hfresh huser => cases h; exact .send hfresh huser
  | settle m k accepted =>
    simp only [step] at h
    split at h
    · cases h
    · next s hs =>
      split at h
      · next hout => cases h; exact .settle accepted hs hout
      · cases h
  | completion m =>
    simp only [step] at h
    split at h
    · cases h
    · next s hs =>
      split at h
      · next hg => cases h; exact .completion hs hg.1 hg.2
      · cases h
  | messagesForUserObserver c vc =>
    rcases attach_cases h with ⟨hout, rfl⟩ | ⟨uid, hin, hnew, rfl⟩
    · exact .messagesForUserSignedOut hout
    · exact .messagesForUserObserver hin hnew
  | observeMessages c vc toId =>
    rcases attach_cases h with ⟨hout, rfl⟩ | ⟨uid, hin, hnew, rfl⟩
    · exact .observeMessagesSignedOut hout
    · exact .observeMessages hin hnew
  | release id =>
    simp only [step] at h
    split at h
    · cases h
    · next r hr => cases h; exact .release hr
  | partnerAdded id v =>
    simp only [step] at h
    split at h
    · next r vc hr howner =>
      split at h
      · next hg => cases h; exact .partnerAdded hr howner hg.1 hg.2
      · cases h
    · cases h
  | childAdded id v m =>
    simp only [step] at h
    split at h
    · cases h
    · next r hr =>
      split at h
      · next hg => cases h; exact .childAdded hr hg.1 hg.2.1 hg.2.2
      · cases h
  | serve id v m =>
    simp only [step] at h
    split at h
    · cases h
    · next r hr =>
      split at h
      · next hout => cases h; exact .serve hr hout
      · cases h
  | read id v m value =>
    simp only [step] at h
    split at h
    · cases h
    · next r hr =>
      split at h
      · next hserved => cases h; exact .read hr hserved
      · cases h

end World

/-! ## The database against the calls -/

theorem Database.apply_messages (db : Database) (m m' : MessageId) (s : SendCall) (k : SendWrite) :
    (db.apply m s k).messages m' =
      if m' = m ∧ k = .childRef then some s.messageInfo else db.messages m' := by
  cases k with
  | childRef => simp only [apply, Function.update_apply, and_true]
  | userMessagesRef => simp only [apply, reduceCtorEq, and_false, if_false]
  | recipientUserMessagesRef => simp only [apply, reduceCtorEq, and_false, if_false]

theorem Database.mem_apply {db : Database} {m m' : MessageId} {s : SendCall} {k : SendWrite}
    {u v : Uid} : (u, v, m') ∈ (db.apply m s k).userMessages ↔
      (u, v, m') ∈ db.userMessages ∨ s.path m k = .userMessage u v m' := by
  cases k with
  | childRef => simp only [apply, SendCall.path, reduceCtorEq, or_false]
  | userMessagesRef =>
    simp only [apply, SendCall.path, Finset.mem_insert, Prod.mk.injEq, Path.userMessage.injEq]
    tauto
  | recipientUserMessagesRef =>
    simp only [apply, SendCall.path, Finset.mem_insert, Prod.mk.injEq, Path.userMessage.injEq]
    tauto

theorem SendCall.path_eq_message {m m' : MessageId} {s : SendCall} {k : SendWrite} :
    s.path m k = .message m' ↔ k = .childRef ∧ m = m' := by
  cases k <;> simp only [path, Path.message.injEq, reduceCtorEq, true_and, false_and]

/-- A path of a call carries the call's key. -/
theorem SendCall.key_of_path {m m' : MessageId} {s : SendCall} {k : SendWrite} {u v : Uid}
    (h : s.path m k = .userMessage u v m') : m' = m := by
  cases k with
  | childRef => cases h
  | userMessagesRef => cases h; rfl
  | recipientUserMessagesRef => cases h; rfl

/-- What is stored under the key of a call is what its accepted writes put there, and the call is at
one of its stages. -/
structure SendCall.Tracks (db : Database) (m : MessageId) (s : SendCall) : Prop where
  info : s.messageInfo.fromId = s.fromId ∧ s.messageInfo.toId = s.recipientId
  stored : db.messages m = if s.writes .childRef = .accepted then some s.messageInfo else none
  indexed : ∀ u v, (u, v, m) ∈ db.userMessages ↔
    ∃ k, s.writes k = .accepted ∧ s.path m k = .userMessage u v m
  issued : s.writes .childRef ≠ .unissued
  waiting : s.completed = false → ∀ k, k ≠ .childRef → s.writes k = .unissued
  answered : s.completed = true → (s.writes .childRef).Settled ∧ ∀ k, s.writes k ≠ .unissued

/-- The database holds what the calls put there and nothing else. -/
structure World.Consistent (w : World) : Prop where
  fresh : ∀ m, w.sends m = none → w.db.messages m = none ∧ ∀ u v, (u, v, m) ∉ w.db.userMessages
  tracks : ∀ m s, w.sends m = some s → s.Tracks w.db m

namespace World

theorem consistent_initial : initial.Consistent where
  fresh _ _ := ⟨rfl, fun _ _ => Finset.notMem_empty _⟩
  tracks _ _ h := by cases h

/-- A call that has just been made has written nothing. -/
theorem tracks_send {db : Database} {m : MessageId} (messages : db.messages m = none)
    (entries : ∀ u v, (u, v, m) ∉ db.userMessages) (fromId recipientId : Uid) (date : Date)
    (text : String) : (ChatClient.send fromId recipientId date text).Tracks db m where
  info := ⟨rfl, rfl⟩
  stored := by rw [messages]; rfl
  indexed u v := by
    refine ⟨fun h => absurd h (entries u v), ?_⟩
    intro ⟨k, hk, _⟩
    cases k <;> cases hk
  issued h := by cases h
  waiting _ k hk := by
    cases k with
    | childRef => exact absurd rfl hk
    | userMessagesRef => rfl
    | recipientUserMessagesRef => rfl
  answered h := by cases h

/-- The completion closure writes nothing itself. -/
theorem tracks_completion {db : Database} {m : MessageId} {s : SendCall} (h : s.Tracks db m)
    (first : s.completed = false) (answered : (s.writes .childRef).Settled) :
    s.completion.Tracks db m where
  info := h.info
  stored := h.stored
  indexed u v := by
    rw [h.indexed]
    have quiet := h.waiting first
    refine exists_congr fun k => ?_
    cases k with
    | childRef => exact Iff.rfl
    | userMessagesRef =>
      have hq := quiet .userMessagesRef (by simp only [ne_eq, reduceCtorEq, not_false_eq_true])
      simp only [hq, SendCall.completion, reduceCtorEq, false_and]
    | recipientUserMessagesRef =>
      have hq := quiet .recipientUserMessagesRef
        (by simp only [ne_eq, reduceCtorEq, not_false_eq_true])
      simp only [hq, SendCall.completion, reduceCtorEq, false_and]
  issued := h.issued
  waiting hc := by cases hc
  answered _ := by
    refine ⟨answered, fun k => ?_⟩
    cases k with
    | childRef => exact h.issued
    | userMessagesRef => simp only [SendCall.completion, ne_eq, reduceCtorEq, not_false_eq_true]
    | recipientUserMessagesRef =>
      simp only [SendCall.completion, ne_eq, reduceCtorEq, not_false_eq_true]

theorem ofVerdict_settled (accepted : Bool) : (WriteState.ofVerdict accepted).Settled := by
  cases accepted with
  | false => exact .inr rfl
  | true => exact .inl rfl

theorem settled_ne_unissued {x : WriteState} (h : x.Settled) : x ≠ .unissued := by
  intro he
  rcases h with h | h <;> rw [h] at he <;> cases he

theorem settle_messageInfo (s : SendCall) (k : SendWrite) (accepted : Bool) :
    (s.settle k accepted).messageInfo = s.messageInfo := rfl

theorem settle_writes (s : SendCall) (k k' : SendWrite) (accepted : Bool) :
    (s.settle k accepted).writes k' = if k' = k then .ofVerdict accepted else s.writes k' := by
  simp only [SendCall.settle, Function.update_apply]

theorem settle_path (s : SendCall) (k k' : SendWrite) (accepted : Bool) (m : MessageId) :
    (s.settle k accepted).path m k' = s.path m k' := by
  cases k' <;> rfl

/-- After a verdict a write is accepted when it was, or when the verdict accepts it. -/
theorem settle_accepted {s : SendCall} {k k' : SendWrite} {accepted : Bool}
    (out : s.writes k = .outstanding) : (s.settle k accepted).writes k' = .accepted ↔
      s.writes k' = .accepted ∨ (k' = k ∧ accepted = true) := by
  rw [settle_writes]
  by_cases hk : k' = k
  · subst hk
    cases accepted <;> simp only [out, WriteState.ofVerdict, if_true, if_false, Bool.false_eq_true,
      reduceCtorEq, and_true, and_false, or_true, or_false]
  · simp only [hk, if_false, false_and, or_false]

/-- A verdict on one write keeps the account of the call it belongs to. -/
theorem tracks_settle {db : Database} {m : MessageId} {s : SendCall} {k : SendWrite}
    (h : s.Tracks db m) (out : s.writes k = .outstanding) (accepted : Bool) :
    (s.settle k accepted).Tracks (if accepted then db.apply m s k else db) m where
  info := h.info
  stored := by
    have hst := h.stored
    simp only [settle_accepted out, settle_messageInfo]
    cases accepted with
    | false => simpa only [Bool.false_eq_true, and_false, or_false, if_false] using hst
    | true =>
      by_cases hk : k = .childRef
      · subst hk
        simp only [Database.apply_messages, and_self, or_true, if_true]
      · simpa only [Database.apply_messages, hk, Ne.symm hk, and_false, false_and, or_false,
          if_false, if_true] using hst
  indexed u v := by
    have hix := h.indexed u v
    simp only [settle_accepted out, settle_path]
    cases accepted with
    | false => simpa only [Bool.false_eq_true, and_false, or_false, if_false] using hix
    | true =>
      simp only [if_true, Database.mem_apply, hix, and_true, or_and_right, exists_or,
        exists_eq_left]
  issued := by
    rw [settle_writes]
    split
    · exact settled_ne_unissued (ofVerdict_settled accepted)
    · exact h.issued
  waiting hc k' hk' := by
    have hw := h.waiting hc k' hk'
    have hne : k' ≠ k := fun he => by rw [he, out] at hw; cases hw
    rw [settle_writes, if_neg hne]
    exact hw
  answered hc := by
    obtain ⟨hs, hi⟩ := h.answered hc
    refine ⟨?_, fun k' => ?_⟩
    · rw [settle_writes]
      split
      · exact ofVerdict_settled accepted
      · exact hs
    · rw [settle_writes]
      split
      · exact settled_ne_unissued (ofVerdict_settled accepted)
      · exact hi k'

/-- The account of a call looks only at what is stored under its key. -/
theorem Tracks.congr {db db' : Database} {m : MessageId} {s : SendCall} (h : s.Tracks db m)
    (messages : db'.messages m = db.messages m)
    (entries : ∀ u v, (u, v, m) ∈ db'.userMessages ↔ (u, v, m) ∈ db.userMessages) :
    s.Tracks db' m where
  info := h.info
  stored := messages.trans h.stored
  indexed u v := (entries u v).trans (h.indexed u v)
  issued := h.issued
  waiting := h.waiting
  answered := h.answered

/-- A write lands under its own call's key. -/
theorem settle_elsewhere (db : Database) {m m' : MessageId} (hne : m' ≠ m) (s : SendCall)
    (k : SendWrite) (accepted : Bool) :
    (if accepted then db.apply m s k else db).messages m' = db.messages m' ∧
      ∀ u v, (u, v, m') ∈ (if accepted then db.apply m s k else db).userMessages ↔
        (u, v, m') ∈ db.userMessages := by
  cases accepted with
  | false => exact ⟨rfl, fun _ _ => Iff.rfl⟩
  | true =>
    refine ⟨?_, fun u v => ?_⟩
    · simp only [if_true, Database.apply_messages, hne, false_and, if_false]
    · simp only [if_true, Database.mem_apply]
      exact or_iff_left fun hp => hne (SendCall.key_of_path hp)

theorem Consistent.congr {w w' : World} (h : w.Consistent) (db : w'.db = w.db)
    (sends : w'.sends = w.sends) : w'.Consistent where
  fresh m hm := by rw [db]; exact h.fresh m (sends ▸ hm)
  tracks m s hs := by rw [db]; exact h.tracks m s (sends ▸ hs)

/-- Storing a call, and what it does to the database under its own key, keeps the account. -/
theorem Consistent.setSend {w w' : World} (h : w.Consistent) {m : MessageId} {s : SendCall}
    (sends : w'.sends = Function.update w.sends m (some s)) (self : s.Tracks w'.db m)
    (elsewhere : ∀ m', m' ≠ m → w'.db.messages m' = w.db.messages m' ∧
      ∀ u v, (u, v, m') ∈ w'.db.userMessages ↔ (u, v, m') ∈ w.db.userMessages) :
    w'.Consistent where
  fresh m' hm' := by
    rw [sends] at hm'
    obtain ⟨hm, hold⟩ := update_eq_none.mp hm'
    obtain ⟨he, hi⟩ := elsewhere m' hm
    obtain ⟨hf, hg⟩ := h.fresh m' hold
    exact ⟨he.trans hf, fun u v hmem => hg u v ((hi u v).mp hmem)⟩
  tracks m' s' hs' := by
    rw [sends] at hs'
    rcases update_eq_some.mp hs' with ⟨rfl, rfl⟩ | ⟨hm, hold⟩
    · exact self
    · obtain ⟨he, hi⟩ := elsewhere m' hm
      exact Tracks.congr (h.tracks m' s' hold) he hi

theorem consistent_step {w w' : World} {e : Event} (h : w.Consistent)
    (hstep : machine.step w e = some w') : w'.Consistent := by
  cases step_cases hstep with
  | @send c m recipientId date text fromId fresh _ =>
    obtain ⟨hm, hu⟩ := h.fresh m fresh
    exact h.setSend rfl (tracks_send hm hu fromId recipientId date text)
      fun _ _ => ⟨rfl, fun _ _ => Iff.rfl⟩
  | @settle m k s accepted call out =>
    exact h.setSend rfl (tracks_settle (h.tracks m s call) out accepted)
      fun m' hm' => settle_elsewhere w.db hm' s k accepted
  | @completion m s call first answered =>
    exact h.setSend rfl (tracks_completion (h.tracks m s call) first answered)
      fun _ _ => ⟨rfl, fun _ _ => Iff.rfl⟩
  | sendSignedOut => exact h
  | messagesForUserSignedOut => exact h
  | observeMessagesSignedOut => exact h
  | auth => exact h.congr rfl rfl
  | messagesForUserObserver => exact h.congr rfl rfl
  | observeMessages => exact h.congr rfl rfl
  | release => exact h.congr rfl rfl
  | partnerAdded => exact h.congr rfl rfl
  | childAdded => exact h.congr rfl rfl
  | serve => exact h.congr rfl rfl
  | read => exact h.congr rfl rfl

/-- **The database holds what the calls put there**, in every reachable state and whatever the
server rejects. -/
theorem consistent_run {w : World} {es : List Event} (h : machine.run initial es = some w) :
    w.Consistent :=
  Machine.run_invariant (fun _ _ _ => consistent_step) consistent_initial h

end World

end AniChat
