import AniChat.Laws.Client.Sends

/-!
# When a `send` is all-or-nothing

`ChatClient.send` issues one write, and two more from the first one's completion closure. The
closure is handed an error and does not look at it, and nothing looks at the outcome of the other
two. So a finished call leaves behind exactly the paths the server accepted a write to
(`exists_iff_granted`), and it is all-or-nothing exactly when the server's verdicts agree.
-/

namespace AniChat

open Automata Collections

namespace World

/-- The verdict an event carries on write `k` of the call with key `m`. -/
def Event.verdict (m : MessageId) (k : SendWrite) : Event → Option Bool
  | .settle m' k' accepted => if m' = m ∧ k' = k then some accepted else none
  | _ => none

/-- The server's verdict on write `k` of the call with key `m`, among the events of a run. -/
def verdict (es : List Event) (m : MessageId) (k : SendWrite) : Option Bool :=
  es.findSome? (Event.verdict m k)

theorem verdict_snoc (es : List Event) (e : Event) (m : MessageId) (k : SendWrite) :
    verdict (es ++ [e]) m k = (verdict es m k).or (e.verdict m k) := by
  simp only [verdict, List.findSome?_append, List.findSome?_cons, List.findSome?_nil]
  cases e.verdict m k <;> rfl

theorem ofVerdict_inj {a b : Bool} : WriteState.ofVerdict a = .ofVerdict b ↔ a = b := by
  cases a <;> cases b <;> simp only [WriteState.ofVerdict, Bool.false_eq_true, if_false, if_true,
    reduceCtorEq]

/-- The states of the writes are the verdicts of the run so far. -/
structure Recorded (es : List Event) (w : World) : Prop where
  unmade : ∀ m, w.sends m = none → ∀ k, verdict es m k = none
  made : ∀ m s, w.sends m = some s → ∀ k a, verdict es m k = some a ↔ s.writes k = .ofVerdict a

theorem recorded_initial : Recorded [] initial where
  unmade _ _ _ := rfl
  made _ _ h := by cases h

/-- An event that carries no verdict and leaves every known call's verdicts in place. -/
theorem Recorded.keep {es : List Event} {w w' : World} {e : Event} (h : Recorded es w)
    (silent : ∀ m k, e.verdict m k = none)
    (unmade : ∀ m, w'.sends m = none → w.sends m = none)
    (made : ∀ m s, w'.sends m = some s → ∀ k a, verdict es m k = some a ↔
      s.writes k = .ofVerdict a) : Recorded (es ++ [e]) w' where
  unmade m hm k := by
    rw [verdict_snoc, silent, Option.or_none]
    exact h.unmade m (unmade m hm) k
  made m s hs k a := by
    rw [verdict_snoc, silent, Option.or_none]
    exact made m s hs k a

/-- An event that touches no call. -/
theorem Recorded.same {es : List Event} {w w' : World} {e : Event} (h : Recorded es w)
    (silent : ∀ m k, e.verdict m k = none) (sends : w'.sends = w.sends) :
    Recorded (es ++ [e]) w' :=
  h.keep silent (fun _ hm => sends ▸ hm) fun m s hs => h.made m s (sends ▸ hs)

/-- An event that changes one call, to one with the same verdicts. -/
theorem Recorded.update {es : List Event} {w w' : World} {e : Event} (h : Recorded es w)
    (silent : ∀ m k, e.verdict m k = none) {m : MessageId} {s : SendCall}
    (sends : w'.sends = Function.update w.sends m (some s))
    (self : ∀ k a, verdict es m k = some a ↔ s.writes k = .ofVerdict a) :
    Recorded (es ++ [e]) w' := by
  refine h.keep silent (fun m' hm' => ?_) fun m' s' hs' => ?_
  · rw [sends] at hm'
    exact (update_eq_none.mp hm').2
  · rw [sends] at hs'
    rcases update_eq_some.mp hs' with ⟨rfl, rfl⟩ | ⟨-, hold⟩
    · exact self
    · exact h.made m' s' hold

/-- The server's answer is the verdict from then on. -/
theorem Recorded.settle {es : List Event} {w : World} (h : Recorded es w) {m : MessageId}
    {s : SendCall} {k : SendWrite} (call : w.sends m = some s) (out : s.writes k = .outstanding)
    (accepted : Bool) : Recorded (es ++ [.settle m k accepted]) (w.settle m s k accepted) where
  unmade m' hm' k' := by
    obtain ⟨hm, hold⟩ := update_eq_none.mp hm'
    rw [verdict_snoc, h.unmade m' hold k']
    simp only [Event.verdict, Ne.symm hm, false_and, if_false, Option.or_none]
  made m' s' hs' k' a := by
    rw [verdict_snoc]
    rcases update_eq_some.mp hs' with ⟨rfl, rfl⟩ | ⟨hm, hold⟩
    · rw [settle_writes]
      have hmade := h.made m' s call
      by_cases hk : k' = k
      · subst hk
        -- an outstanding write has no verdict yet
        have hnone : verdict es m' k' = none := by
          cases hv : verdict es m' k' with
          | none => rfl
          | some b =>
            have hb := (hmade k' b).mp hv
            rw [out] at hb
            rcases ofVerdict_settled b with he | he <;> rw [he] at hb <;> cases hb
        simp only [hnone, Event.verdict, and_self, if_true, Option.none_or, Option.some.injEq,
          ofVerdict_inj]
      · simp only [Event.verdict, Ne.symm hk, and_false, if_false, Option.or_none, hk]
        exact hmade k' a
    · simp only [Event.verdict, Ne.symm hm, false_and, if_false, Option.or_none]
      exact h.made m' s' hold k' a

theorem recorded_step {es : List Event} {w w' : World} {e : Event} (hc : w.Consistent)
    (h : Recorded es w) (hstep : machine.step w e = some w') : Recorded (es ++ [e]) w' := by
  cases step_cases hstep with
  | @send c m recipientId date text fromId fresh _ =>
    refine h.update (fun _ _ => rfl) rfl fun k a => ?_
    rw [h.unmade m fresh k]
    cases k <;> cases a <;> simp only [ChatClient.send, WriteState.ofVerdict, Bool.false_eq_true,
      if_false, if_true, reduceCtorEq]
  | settle accepted call out => exact h.settle call out accepted
  | @completion m s call first _ =>
    refine h.update (fun _ _ => rfl) rfl fun k a => ?_
    rw [h.made m s call]
    have quiet := (hc.tracks m s call).waiting first k
    cases k with
    | childRef => exact Iff.rfl
    | userMessagesRef =>
      rw [quiet (by simp only [ne_eq, reduceCtorEq, not_false_eq_true])]
      cases a <;> simp only [SendCall.completion, WriteState.ofVerdict, Bool.false_eq_true,
        if_false, if_true, reduceCtorEq]
    | recipientUserMessagesRef =>
      rw [quiet (by simp only [ne_eq, reduceCtorEq, not_false_eq_true])]
      cases a <;> simp only [SendCall.completion, WriteState.ofVerdict, Bool.false_eq_true,
        if_false, if_true, reduceCtorEq]
  | sendSignedOut => exact h.same (fun _ _ => rfl) rfl
  | messagesForUserSignedOut => exact h.same (fun _ _ => rfl) rfl
  | observeMessagesSignedOut => exact h.same (fun _ _ => rfl) rfl
  | auth => exact h.same (fun _ _ => rfl) rfl
  | messagesForUserObserver => exact h.same (fun _ _ => rfl) rfl
  | observeMessages => exact h.same (fun _ _ => rfl) rfl
  | release => exact h.same (fun _ _ => rfl) rfl
  | partnerAdded => exact h.same (fun _ _ => rfl) rfl
  | childAdded => exact h.same (fun _ _ => rfl) rfl
  | serve => exact h.same (fun _ _ => rfl) rfl
  | read => exact h.same (fun _ _ => rfl) rfl

theorem recorded_run {w : World} {es : List Event} (h : machine.run initial es = some w) :
    Recorded es w :=
  Machine.run_induction recorded_initial
    (fun _ _ _ _ hrun ih hstep => recorded_step (consistent_run hrun) ih hstep) h

end World

/-! ## The law -/

open World

/-- All three of a call's paths are there, or none is. -/
def SendCall.AllOrNothing (db : Database) (m : MessageId) (s : SendCall) : Prop :=
  (∀ k, db.Exists (s.path m k)) ∨ ∀ k, ¬ db.Exists (s.path m k)

/-- Among the events `es` the server accepted a write to the path of write `k`. The two index
writes of a message to oneself share their path. -/
def SendCall.Granted (es : List Event) (m : MessageId) (s : SendCall) (k : SendWrite) : Prop :=
  ∃ k', s.path m k' = s.path m k ∧ verdict es m k' = some true

/-- A finished call leaves exactly the paths the server accepted a write to. -/
theorem exists_iff_granted {es : List Event} {w : World} {m : MessageId} {s : SendCall}
    (run : machine.run .initial es = some w) (call : w.sends m = some s) (k : SendWrite) :
    w.db.Exists (s.path m k) ↔ s.Granted es m k := by
  have ht := (consistent_run run).tracks m s call
  have hv : ∀ k', verdict es m k' = some true ↔ s.writes k' = .accepted := fun k' =>
    (recorded_run run).made m s call k' true
  simp only [SendCall.Granted, hv]
  have index : ∀ u v, (u, v, m) ∈ w.db.userMessages ↔
      ∃ k', s.path m k' = .userMessage u v m ∧ s.writes k' = .accepted := fun u v => by
    rw [ht.indexed]
    exact exists_congr fun _ => and_comm
  cases k with
  | childRef =>
    have key : ∀ k', s.path m k' = s.path m .childRef ↔ k' = .childRef := fun k' =>
      SendCall.path_eq_message.trans (and_iff_left rfl)
    simp only [key, exists_eq_left]
    simp only [SendCall.path, Database.Exists, ht.stored, ne_eq, ite_eq_right_iff, reduceCtorEq,
      imp_false, not_not]
  | userMessagesRef => exact index _ _
  | recipientUserMessagesRef => exact index _ _

/-- **A `send` is all-or-nothing exactly when the server's verdicts agree**: it accepted a write to
each of the three paths or to none. The states in which nothing of the call is outstanding are among
those the law speaks of. -/
theorem all_or_nothing_iff {es : List Event} {w : World} {m : MessageId} {s : SendCall}
    (run : machine.run .initial es = some w) (call : w.sends m = some s) :
    s.AllOrNothing w.db m ↔ ∀ k k', s.Granted es m k ↔ s.Granted es m k' := by
  simp only [SendCall.AllOrNothing, exists_iff_granted run call]
  refine ⟨?_, fun agree => ?_⟩
  · intro h k k'
    rcases h with all | nothing
    · exact iff_of_true (all k) (all k')
    · exact iff_of_false (nothing k) (nothing k')
  · by_cases hk : s.Granted es m .childRef
    · exact .inl fun k => (agree .childRef k).mp hk
    · exact .inr fun k hg => hk ((agree .childRef k).mpr hg)

/-- Alice writes to Bob, and the server answers the three writes as given. -/
def sendRun (message own recipients : Bool) : List Event :=
  [.auth 0 (some "alice"), .send 0 "m" "bob" 1 "hi", .settle "m" .childRef message,
    .completion "m", .settle "m" .userMessagesRef own,
    .settle "m" .recipientUserMessagesRef recipients]

/-- The law at a run the server accepts whole. -/
theorem all_or_nothing_accepted : ∃ w s, machine.run .initial (sendRun true true true) = some w ∧
    w.sends "m" = some s ∧ (s.AllOrNothing w.db "m" ↔
      ∀ k k', s.Granted (sendRun true true true) "m" k ↔ s.Granted (sendRun true true true) "m" k') :=
  ⟨_, _, rfl, rfl, all_or_nothing_iff rfl rfl⟩

/-- The message is rejected and both entries are accepted: two index entries refer to nothing. -/
theorem send_leaves_dangling_entries : ¬ ∀ es w m s, machine.run .initial es = some w →
    w.sends m = some s → s.Settled → s.AllOrNothing w.db m := by
  intro law
  rcases law (sendRun false true true) _ "m" _ rfl rfl
    ⟨rfl, fun k => by cases k; exacts [.inr rfl, .inl rfl, .inl rfl]⟩ with all | nothing
  · exact all .childRef (by decide)
  · exact nothing .userMessagesRef (by decide)

end AniChat
