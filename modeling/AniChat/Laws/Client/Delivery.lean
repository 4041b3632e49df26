import AniChat.Laws.Client.Sends

/-!
# End-to-end delivery

The chat's protocol, from a call of `send` on one client to the message in an observer on another,
with every step of every client interleaved.

## What is proved

- `Database.Le`: a step adds to the database and takes nothing back.
- `Reader.Sound`: what an observer has seen is in the index, what its reads found is what is stored,
  and an entry is handed on once, when its read has finished.
- `delivery`: when every write is accepted, an index entry always refers to a stored message between
  its two users, so no read finds its message absent; and when nothing is in flight both indexes of
  two users hold exactly the messages between them, each handed on once by every observer.

The order of the writes carries the first half: the index writes are issued from the completion of
the message write, so an entry in the index means the message is there (`indexed_stored`).
-/

namespace AniChat

open Automata Collections

/-! ## The database grows -/

/-- Everything stored in `db` is stored in `db'`. -/
structure Database.Le (db db' : Database) : Prop where
  messages : ∀ m info, db.messages m = some info → db'.messages m = some info
  entries : db.userMessages ⊆ db'.userMessages

theorem Database.Le.refl (db : Database) : db.Le db := ⟨fun _ _ h => h, Finset.Subset.refl _⟩

namespace World

/-- A step adds to the database and takes nothing back. -/
theorem db_step {w w' : World} {e : Event} (hc : w.Consistent)
    (hstep : machine.step w e = some w') : w.db.Le w'.db := by
  cases step_cases hstep with
  | @settle m k s accepted call out =>
    cases accepted with
    | false => exact .refl _
    | true =>
      refine ⟨fun m' info hm => ?_, fun ⟨u, v, m'⟩ he => Database.mem_apply.mpr (.inl he)⟩
      show (w.db.apply m s k).messages m' = some info
      rw [Database.apply_messages]
      split
      · next hg =>
        -- nothing is stored at a key whose message write is outstanding
        obtain ⟨rfl, rfl⟩ := hg
        rw [(hc.tracks m' s call).stored, out, if_neg (by simp only [reduceCtorEq,
          not_false_eq_true])] at hm
        cases hm
      · exact hm
  | send => exact .refl _
  | completion => exact .refl _
  | sendSignedOut => exact .refl _
  | messagesForUserSignedOut => exact .refl _
  | observeMessagesSignedOut => exact .refl _
  | auth => exact .refl _
  | messagesForUserObserver => exact .refl _
  | observeMessages => exact .refl _
  | release => exact .refl _
  | partnerAdded => exact .refl _
  | childAdded => exact .refl _
  | serve => exact .refl _
  | read => exact .refl _

end World

/-! ## Observers -/

/-- The closure of the read has handed a message on. -/
def Read.handedOn : Read → Bool
  | .finished (some _) => true
  | _ => false

/-- What the read found, once it was served. -/
def Read.value? : Read → Option (Option MessageInfo)
  | .served value => some value
  | .finished value => some value
  | _ => none

/-- An observer against the database. -/
structure Reader.Sound (db : Database) (owner : Owner) (r : Reader) : Prop where
  seen : ∀ v m, r.reads (v, m) ≠ .unseen → (r.uid, v, m) ∈ db.userMessages
  found : ∀ v m info, (r.reads (v, m)).value? = some (some info) → db.messages m = some info
  once : ∀ e, r.delivered.count e = if (r.reads e).handedOn then 1 else 0
  dropped : ∀ e, r.reads e = .dropped → r.alive = false ∧ ∃ vc, owner = .inbox vc

namespace Reader

theorem sound_attached (db : Database) (owner : Owner) (uid : Uid) (partners : List Uid) :
    (attached uid partners).Sound db owner where
  seen _ _ h := absurd rfl h
  found _ _ _ h := by cases h
  once _ := rfl
  dropped _ h := by cases h

/-- A larger database keeps an observer sound. -/
theorem Sound.mono {db db' : Database} {owner : Owner} {r : Reader} (h : r.Sound db owner)
    (le : db.Le db') : r.Sound db' owner where
  seen v m hm := le.entries (h.seen v m hm)
  found v m info hv := le.messages m info (h.found v m info hv)
  once := h.once
  dropped := h.dropped

/-- Moving one read forward keeps an observer sound, when the new stage is sound. -/
theorem Sound.update {db : Database} {owner : Owner} {r : Reader} (h : r.Sound db owner)
    {v : Uid} {m : MessageId} {x : Read} {delivered : List (Uid × MessageId)}
    (seen : (r.uid, v, m) ∈ db.userMessages)
    (found : ∀ info, x.value? = some (some info) → db.messages m = some info)
    (once : ∀ e, delivered.count e = if e = (v, m) then (if x.handedOn then 1 else 0)
      else r.delivered.count e)
    (dropped : x = .dropped → r.alive = false ∧ ∃ vc, owner = .inbox vc) :
    Sound db owner
      { r with reads := Function.update r.reads (v, m) x, delivered := delivered } where
  seen v' m' hne := by
    by_cases he : (v', m') = (v, m)
    · cases he; exact seen
    · simp only [Function.update_of_ne he] at hne
      exact h.seen v' m' hne
  found v' m' info hv := by
    by_cases he : (v', m') = (v, m)
    · cases he
      simp only [Function.update_self] at hv
      exact found info hv
    · simp only [Function.update_of_ne he] at hv
      exact h.found v' m' info hv
  once e := by
    rw [once e]
    by_cases he : e = (v, m)
    · subst he
      simp only [if_true, Function.update_self]
    · simp only [he, if_false, Function.update_of_ne he]
      exact h.once e
  dropped e hd := by
    by_cases he : e = (v, m)
    · subst he
      simp only [Function.update_self] at hd
      exact dropped hd
    · simp only [Function.update_of_ne he] at hd
      exact h.dropped e hd

/-- A stage before the closure hands nothing on, so the account of what was handed on stands. -/
theorem Sound.count_same {db : Database} {owner : Owner} {r : Reader} (h : r.Sound db owner)
    {e₀ : Uid × MessageId} {x : Read} (before : (r.reads e₀).handedOn = false)
    (after : x.handedOn = false) (e : Uid × MessageId) : r.delivered.count e =
      if e = e₀ then (if x.handedOn then 1 else 0) else r.delivered.count e := by
  by_cases he : e = e₀
  · subst he
    have hcount := h.once e
    simp only [before, Bool.false_eq_true, if_false] at hcount
    simp only [after, if_true, Bool.false_eq_true, if_false]
    exact hcount
  · rw [if_neg he]

theorem sound_childAdded {db : Database} {owner : Owner} {r : Reader} (h : r.Sound db owner)
    {v : Uid} {m : MessageId} (child : (r.uid, v, m) ∈ db.userMessages)
    (first : r.reads (v, m) = .unseen) : (r.childAdded owner (v, m)).Sound db owner := by
  have before : (r.reads (v, m)).handedOn = false := by rw [first]; rfl
  cases owner with
  | recents vc =>
    exact h.update child (fun _ hv => by cases hv) (h.count_same before rfl) fun hd => by cases hd
  | inbox vc =>
    refine h.update child (fun info hv => ?_) (h.count_same before ?_) fun hd => ?_
    · cases ha : r.alive <;> rw [ha] at hv <;> cases hv
    · cases r.alive <;> rfl
    · cases ha : r.alive with
      | true => rw [ha] at hd; cases hd
      | false => exact ⟨rfl, vc, rfl⟩

theorem sound_serve {db : Database} {owner : Owner} {r : Reader} (h : r.Sound db owner)
    {v : Uid} {m : MessageId} (out : r.reads (v, m) = .requested) :
    (r.serve (v, m) (db.messages m)).Sound db owner := by
  have before : (r.reads (v, m)).handedOn = false := by rw [out]; rfl
  refine h.update (h.seen v m (by rw [out]; simp only [ne_eq, reduceCtorEq, not_false_eq_true]))
    (fun info hv => ?_) (h.count_same before rfl) fun hd => by cases hd
  simpa only [Read.value?, Option.some.injEq] using hv

theorem sound_read {db : Database} {owner : Owner} {r : Reader} (h : r.Sound db owner)
    {v : Uid} {m : MessageId} {value : Option MessageInfo} (served : r.reads (v, m) = .served value) :
    (r.read (v, m) value).Sound db owner := by
  have before : (r.reads (v, m)).handedOn = false := by rw [served]; rfl
  have child := h.seen v m (by rw [served]; simp only [ne_eq, reduceCtorEq, not_false_eq_true])
  have stored : ∀ info, value = some info → db.messages m = some info := fun info hv =>
    h.found v m info (by rw [served, hv]; rfl)
  refine h.update child (fun info hv => stored info (Option.some.inj hv)) (fun e => ?_)
    fun hd => by cases hd
  cases value with
  | none => exact h.count_same before rfl e
  | some info =>
    have hcount := h.once (v, m)
    simp only [before, Bool.false_eq_true, if_false] at hcount
    by_cases he : e = (v, m)
    · subst he
      simp only [Option.isSome_some, if_true, List.count_append, hcount, List.count_singleton_self,
        Read.handedOn]
    · simp only [Option.isSome_some, if_true, List.count_append, he, if_false,
        List.count_singleton, beq_iff_eq, Ne.symm he, Nat.add_zero]

end Reader

namespace World

/-- Every attached observer is sound. -/
def Observed (w : World) : Prop := ∀ id r, w.readers id = some r → r.Sound w.db id.owner

theorem Observed.setReader {w : World} (h : w.Observed) {id : ReaderId} {r : Reader}
    (sound : r.Sound w.db id.owner) : (w.setReader id r).Observed := by
  intro id' r' hr'
  rcases update_eq_some.mp hr' with ⟨rfl, rfl⟩ | ⟨-, hold⟩
  · exact sound
  · exact h id' r' hold

theorem observed_step {w w' : World} {e : Event} (hc : w.Consistent) (h : w.Observed)
    (hstep : machine.step w e = some w') : w'.Observed := by
  have le := db_step hc hstep
  cases step_cases hstep with
  | settle => exact fun id r hr => (h id r hr).mono le
  | send => exact h
  | completion => exact h
  | sendSignedOut => exact h
  | messagesForUserSignedOut => exact h
  | observeMessagesSignedOut => exact h
  | auth => exact h
  | messagesForUserObserver => exact h.setReader (Reader.sound_attached _ _ _ _)
  | observeMessages => exact h.setReader (Reader.sound_attached _ _ _ _)
  | @release id r reader =>
    have hr := h id r reader
    exact h.setReader ⟨hr.seen, hr.found, hr.once, fun e he => ⟨rfl, (hr.dropped e he).2⟩⟩
  | @partnerAdded id r v vc reader owner first child =>
    have hr := h id r reader
    exact h.setReader ⟨hr.seen, hr.found, hr.once, hr.dropped⟩
  | childAdded reader nested child first =>
    exact h.setReader (Reader.sound_childAdded (h _ _ reader) child first)
  | serve reader out => exact h.setReader (Reader.sound_serve (h _ _ reader) out)
  | read reader served => exact h.setReader (Reader.sound_read (h _ _ reader) served)

theorem observed_initial : initial.Observed := fun _ _ hr => by cases hr

theorem observed_run {w : World} {es : List Event} (h : machine.run initial es = some w) :
    w.Observed := by
  have keep : ∀ s e s', s.Consistent ∧ s.Observed → machine.step s e = some s' →
      s'.Consistent ∧ s'.Observed := fun _ _ _ hs hstep =>
    ⟨consistent_step hs.1 hstep, observed_step hs.1 hs.2 hstep⟩
  exact (Machine.run_invariant keep ⟨consistent_initial, observed_initial⟩ h).2

/-! ## When every write is accepted -/

/-- The event rejects nothing. -/
def Event.Accepts : Event → Prop
  | .settle _ _ accepted => accepted = true
  | _ => True

/-- No write of any call was rejected. -/
def Unrejected (w : World) : Prop := ∀ m s, w.sends m = some s → ∀ k, s.writes k ≠ .rejected

theorem Unrejected.setSend {w w' : World} (h : w.Unrejected) {m : MessageId} {s : SendCall}
    (sends : w'.sends = Function.update w.sends m (some s)) (self : ∀ k, s.writes k ≠ .rejected) :
    w'.Unrejected := by
  intro m' s' hs'
  rw [sends] at hs'
  rcases update_eq_some.mp hs' with ⟨rfl, rfl⟩ | ⟨-, hold⟩
  · exact self
  · exact h m' s' hold

theorem unrejected_step {w w' : World} {e : Event} (ok : e.Accepts) (h : w.Unrejected)
    (hstep : machine.step w e = some w') : w'.Unrejected := by
  cases step_cases hstep with
  | send => exact h.setSend rfl fun k hk => by cases k <;> cases hk
  | @settle m k s accepted call out =>
    refine h.setSend rfl fun k' => ?_
    rw [settle_writes]
    split
    · have : accepted = true := ok
      subst this
      simp only [WriteState.ofVerdict, if_true, ne_eq, reduceCtorEq, not_false_eq_true]
    · exact h m s call k'
  | @completion m s call first answered =>
    refine h.setSend rfl fun k => ?_
    cases k with
    | childRef => exact h m s call .childRef
    | userMessagesRef => simp only [SendCall.completion, ne_eq, reduceCtorEq, not_false_eq_true]
    | recipientUserMessagesRef =>
      simp only [SendCall.completion, ne_eq, reduceCtorEq, not_false_eq_true]
  | sendSignedOut => exact h
  | messagesForUserSignedOut => exact h
  | observeMessagesSignedOut => exact h
  | auth => exact h
  | messagesForUserObserver => exact h
  | observeMessages => exact h
  | release => exact h
  | partnerAdded => exact h
  | childAdded => exact h
  | serve => exact h
  | read => exact h

/-- A path under `user-messages` belongs to a call between its two users. -/
theorem between_of_path {db : Database} {m : MessageId} {s : SendCall} (h : s.Tracks db m)
    {k : SendWrite} {u v : Uid} (path : s.path m k = .userMessage u v m) :
    s.messageInfo.Between u v := by
  obtain ⟨hf, ht⟩ := h.info
  cases k with
  | childRef => cases path
  | userMessagesRef => cases path; exact .inl ⟨hf, ht⟩
  | recipientUserMessagesRef => cases path; exact .inr ⟨hf, ht⟩

/-- An index entry belongs to a call between its two users, whatever became of the message write. -/
theorem indexed_call {w : World} (hc : w.Consistent) {u v : Uid} {m : MessageId}
    (entry : (u, v, m) ∈ w.db.userMessages) : ∃ s, w.sends m = some s ∧ s.completed = true ∧
      s.messageInfo.Between u v := by
  cases hs : w.sends m with
  | none => exact absurd entry ((hc.fresh m hs).2 u v)
  | some s =>
    have ht := hc.tracks m s hs
    obtain ⟨k, hk, hp⟩ := (ht.indexed u v).mp entry
    refine ⟨s, rfl, ?_, between_of_path ht hp⟩
    -- an index write is issued by the completion closure only
    cases hcomp : s.completed with
    | true => rfl
    | false =>
      have hne : k ≠ .childRef := fun he => by subst he; cases hp
      rw [ht.waiting hcomp k hne] at hk
      cases hk

/-- A message that is stored under an index entry is between the entry's users. -/
theorem indexed_between {w : World} (hc : w.Consistent) {u v : Uid} {m : MessageId}
    {info : MessageInfo} (entry : (u, v, m) ∈ w.db.userMessages)
    (stored : w.db.messages m = some info) : info.Between u v := by
  obtain ⟨s, hs, -, hb⟩ := indexed_call hc entry
  have hst := (hc.tracks m s hs).stored
  rw [stored] at hst
  split at hst
  · cases hst; exact hb
  · cases hst

/-- With no write rejected, an index entry means its message is stored. -/
theorem indexed_stored {w : World} (hc : w.Consistent) (hu : w.Unrejected) {u v : Uid}
    {m : MessageId} (entry : (u, v, m) ∈ w.db.userMessages) :
    ∃ info, w.db.messages m = some info ∧ info.Between u v := by
  obtain ⟨s, hs, hcomp, hb⟩ := indexed_call hc entry
  have ht := hc.tracks m s hs
  have hacc : s.writes .childRef = .accepted :=
    (ht.answered hcomp).1.resolve_right (hu m s hs .childRef)
  exact ⟨s.messageInfo, by rw [ht.stored, if_pos hacc], hb⟩

/-- No single read has found its message absent. -/
def Found (w : World) : Prop :=
  ∀ id r, w.readers id = some r → ∀ e, (r.reads e).value? ≠ some none

theorem Found.setReader {w : World} (h : w.Found) {id : ReaderId} {r : Reader}
    (self : ∀ e, (r.reads e).value? ≠ some none) : (w.setReader id r).Found := by
  intro id' r' hr'
  rcases update_eq_some.mp hr' with ⟨rfl, rfl⟩ | ⟨-, hold⟩
  · exact self
  · exact h id' r' hold

/-- Moving one read forward finds nothing absent, when the new stage does not. -/
theorem found_update {f : Uid × MessageId → Read} (h : ∀ e, (f e).value? ≠ some none)
    {e₀ : Uid × MessageId} {x : Read} (hx : x.value? ≠ some none) (e : Uid × MessageId) :
    (Function.update f e₀ x e).value? ≠ some none := by
  rw [Function.update_apply]
  split
  · exact hx
  · exact h e

theorem found_step {w w' : World} {e : Event} (hc : w.Consistent) (ho : w.Observed)
    (hu : w.Unrejected) (h : w.Found) (hstep : machine.step w e = some w') : w'.Found := by
  cases step_cases hstep with
  | settle => exact h
  | send => exact h
  | completion => exact h
  | sendSignedOut => exact h
  | messagesForUserSignedOut => exact h
  | observeMessagesSignedOut => exact h
  | auth => exact h
  | messagesForUserObserver => exact h.setReader fun _ hv => by cases hv
  | observeMessages => exact h.setReader fun _ hv => by cases hv
  | @release id r reader =>
    have hr := h id r reader
    exact h.setReader hr
  | @partnerAdded id r v vc reader =>
    have hr := h id r reader
    exact h.setReader hr
  | @childAdded id r v m reader nested child first =>
    refine h.setReader ?_
    have hr := h id r reader
    cases hw : id.owner with
    | recents vc => exact found_update hr fun hv => by cases hv
    | inbox vc =>
      refine found_update hr ?_
      cases r.alive <;> exact fun hv => by cases hv
  | @serve id r v m reader out =>
    have entry := (ho id r reader).seen v m
      (by rw [out]; simp only [ne_eq, reduceCtorEq, not_false_eq_true])
    obtain ⟨info, hinfo, -⟩ := indexed_stored hc hu entry
    refine h.setReader (found_update (h id r reader) fun hv => ?_)
    rw [hinfo] at hv
    cases hv
  | @read id r v m value reader served =>
    refine h.setReader (found_update (h id r reader) fun hv => h id r reader (v, m) ?_)
    rw [served]
    exact hv

/-- Everything that holds along a run in which every write is accepted. -/
structure Accepted (w : World) : Prop where
  consistent : w.Consistent
  observed : w.Observed
  unrejected : w.Unrejected
  found : w.Found

theorem accepted_initial : initial.Accepted where
  consistent := consistent_initial
  observed := observed_initial
  unrejected _ _ hs := by cases hs
  found _ _ hr := by cases hr

theorem accepted_step {w w' : World} {e : Event} (ok : e.Accepts) (h : w.Accepted)
    (hstep : machine.step w e = some w') : w'.Accepted where
  consistent := consistent_step h.consistent hstep
  observed := observed_step h.consistent h.observed hstep
  unrejected := unrejected_step ok h.unrejected hstep
  found := found_step h.consistent h.observed h.unrejected h.found hstep

theorem accepted_run {w : World} {es : List Event} (h : machine.run initial es = some w)
    (accepts : ∀ e ∈ es, e.Accepts) : w.Accepted :=
  Machine.run_invariant_of (fun _ _ _ => accepted_step) accepts accepted_initial h

end World

/-! ## Nothing in flight -/

/-- Nothing of an observer is in flight: every child has fired, and no read is outstanding. -/
structure Reader.Quiet (db : Database) (owner : Owner) (r : Reader) : Prop where
  partners : ∀ vc, owner = .recents vc → ∀ v, db.HasPartner r.uid v → v ∈ r.partners
  children : ∀ v ∈ r.partners, ∀ m, (r.uid, v, m) ∈ db.userMessages → r.reads (v, m) ≠ .unseen
  reads : ∀ e, r.reads e ≠ .requested ∧ ∀ value, r.reads e ≠ .served value

/-- Nothing is in flight anywhere. -/
structure World.Quiet (w : World) : Prop where
  sends : ∀ m s, w.sends m = some s → s.Settled
  readers : ∀ id r, w.readers id = some r → r.Quiet w.db id.owner

/-- An observer is quiet once the only entry of its user is read. -/
theorem Reader.quiet_single {db : Database} {owner : Owner} {u v : Uid} {m : MessageId} {r : Reader}
    {x y : Read} {value : Option MessageInfo} (uid : r.uid = u) (partners : r.partners = [v])
    (reads : r.reads = Function.update (Function.update (Function.update (fun _ => .unseen) (v, m) x)
      (v, m) y) (v, m) (.finished value))
    (entries : ∀ v' m', (u, v', m') ∈ db.userMessages → v' = v ∧ m' = m) : r.Quiet db owner where
  partners _ _ v' hpartner := by
    obtain ⟨⟨u', v'', m'⟩, hentry, hu, rfl⟩ := hpartner
    change u' = r.uid at hu
    rw [hu, uid] at hentry
    rw [partners, (entries _ m' hentry).1]
    exact List.mem_singleton_self v
  children v' _ m' hentry := by
    rw [uid] at hentry
    obtain ⟨rfl, rfl⟩ := entries v' m' hentry
    rw [reads, Function.update_self]
    exact nofun
  reads e := by
    rw [reads]
    by_cases he : e = (v, m)
    · rw [he, Function.update_self]
      exact ⟨nofun, nofun⟩
    · rw [Function.update_of_ne he, Function.update_of_ne he, Function.update_of_ne he]
      exact ⟨nofun, nofun⟩

/-- The observer hands on what lies under `user-messages/<uid>/<v>`: all partners for
`messagesForUserObserver`, one for an `observeMessages` whose owner is there. -/
def Reader.Watches (owner : Owner) (r : Reader) (v : Uid) : Prop :=
  match owner with
  | .recents _ => True
  | .inbox _ => v ∈ r.partners ∧ r.alive = true

namespace World

/-- A settled call that nothing of was rejected has stored its message and both entries. -/
theorem stored_of_settled {w : World} (hc : w.Consistent) (hu : w.Unrejected) {m : MessageId}
    {s : SendCall} (call : w.sends m = some s) (settled : s.Settled) :
    w.db.messages m = some s.messageInfo ∧ (s.fromId, s.recipientId, m) ∈ w.db.userMessages ∧
      (s.recipientId, s.fromId, m) ∈ w.db.userMessages := by
  have ht := hc.tracks m s call
  have hacc : ∀ k, s.writes k = .accepted := fun k => (settled.2 k).resolve_right (hu m s call k)
  refine ⟨by rw [ht.stored, if_pos (hacc .childRef)], ?_, ?_⟩
  · exact (ht.indexed _ _).mpr ⟨.userMessagesRef, hacc _, rfl⟩
  · exact (ht.indexed _ _).mpr ⟨.recipientUserMessagesRef, hacc _, rfl⟩

/-- In a quiet world what is stored is what was sent. -/
theorem Quiet.messages {w : World} (q : w.Quiet) (hc : w.Consistent) (hu : w.Unrejected)
    (m : MessageId) : w.db.messages m = (w.sends m).map SendCall.messageInfo := by
  cases hs : w.sends m with
  | none => exact (hc.fresh m hs).1
  | some s => exact (stored_of_settled hc hu hs (q.sends m s hs)).1

/-- In a quiet world the index of two users is the set of messages between them. -/
theorem Quiet.entries {w : World} (q : w.Quiet) (hc : w.Consistent) (hu : w.Unrejected)
    (u v : Uid) (m : MessageId) : (u, v, m) ∈ w.db.userMessages ↔
      ∃ info, w.db.messages m = some info ∧ info.Between u v := by
  refine ⟨indexed_stored hc hu, ?_⟩
  intro ⟨info, hinfo, hb⟩
  rw [q.messages hc hu] at hinfo
  obtain ⟨s, hs, rfl⟩ := Option.map_eq_some_iff.mp hinfo
  obtain ⟨-, hown, hrec⟩ := stored_of_settled hc hu hs (q.sends m s hs)
  obtain ⟨hf, ht⟩ := (hc.tracks m s hs).info
  rcases hb with ⟨rfl, rfl⟩ | ⟨rfl, rfl⟩
  · rw [hf, ht]; exact hown
  · rw [hf, ht]; exact hrec

/-- In a quiet world an observer has handed on each entry it watches, once. -/
theorem Quiet.delivered {w : World} (q : w.Quiet) (ho : w.Observed) (hf : w.Found) {id : ReaderId}
    {r : Reader} (reader : w.readers id = some r) {v : Uid} (watches : r.Watches id.owner v)
    (m : MessageId) :
    r.delivered.count (v, m) = if (r.uid, v, m) ∈ w.db.userMessages then 1 else 0 := by
  have hs := ho id r reader
  have hq := q.readers id r reader
  rw [hs.once]
  split
  · next hh =>
    rw [if_pos (hs.seen v m fun he => by rw [he] at hh; cases hh)]
  · next hh =>
    refine (if_neg fun entry => ?_).symm
    have nested : v ∈ r.partners := by
      cases how : id.owner with
      | recents vc => exact hq.partners vc how v ⟨_, entry, rfl, rfl⟩
      | inbox vc => rw [how] at watches; exact watches.1
    have hseen := hq.children v nested m entry
    obtain ⟨hreq, hserved⟩ := hq.reads (v, m)
    cases hr : r.reads (v, m) with
    | unseen => exact hseen hr
    | dropped =>
      obtain ⟨hdead, vc, how⟩ := hs.dropped (v, m) hr
      rw [how] at watches
      have ha : r.alive = true := watches.2
      rw [hdead] at ha
      cases ha
    | requested => exact hreq hr
    | served value => exact hserved value hr
    | finished value =>
      cases value with
      | none => exact hf id r reader (v, m) (by rw [hr]; rfl)
      | some info => exact hh (by rw [hr]; rfl)

end World

open World

/-- **End-to-end delivery.** When every write is accepted: every index entry refers to a stored
message between its two users, and no read finds its message absent; and whenever nothing is in
flight, both indexes of two users hold exactly the messages between them, what is stored is what was
sent, and every observer has handed on each message it watches exactly once. -/
theorem delivery {es : List Event} {w : World} (run : machine.run .initial es = some w)
    (accepts : ∀ e ∈ es, e.Accepts) :
    (∀ u v m, (u, v, m) ∈ w.db.userMessages →
      ∃ info, w.db.messages m = some info ∧ info.Between u v) ∧
    (∀ id r, w.readers id = some r → ∀ e,
      r.reads e ≠ .served none ∧ r.reads e ≠ .finished none) ∧
    (w.Quiet →
      (∀ u v m,
        ((u, v, m) ∈ w.db.userMessages ↔ ∃ info, w.db.messages m = some info ∧ info.Between u v) ∧
        ((v, u, m) ∈ w.db.userMessages ↔ ∃ info, w.db.messages m = some info ∧ info.Between u v)) ∧
      (∀ m, w.db.messages m = (w.sends m).map SendCall.messageInfo) ∧
      ∀ id r, w.readers id = some r → ∀ v m, r.Watches id.owner v →
        r.delivered.count (v, m) = if (r.uid, v, m) ∈ w.db.userMessages then 1 else 0) := by
  have h := accepted_run run accepts
  refine ⟨fun u v m => indexed_stored h.consistent h.unrejected, fun id r hr e => ?_, fun q => ?_⟩
  · have hf := h.found id r hr e
    exact ⟨fun he => hf (by rw [he]; rfl), fun he => hf (by rw [he]; rfl)⟩
  · refine ⟨fun u v m => ?_, q.messages h.consistent h.unrejected, fun id r hr v m watches => ?_⟩
    · have hvu := q.entries h.consistent h.unrejected v u m
      simp only [MessageInfo.between_comm (u := v)] at hvu
      exact ⟨q.entries h.consistent h.unrejected u v m, hvu⟩
    · exact q.delivered h.observed h.found hr watches m

/-- Alice writes to Bob and signs out before the completion closure runs; Bob's recents screen is
handed the message. -/
def deliveryRun : List Event :=
  [.auth 0 (some "alice"), .auth 1 (some "bob"), .messagesForUserObserver 1 0,
    .send 0 "m" "bob" 1 "hi", .auth 0 none, .settle "m" .childRef true, .completion "m",
    .settle "m" .recipientUserMessagesRef true, .settle "m" .userMessagesRef true,
    .partnerAdded ⟨1, .recents 0⟩ "alice", .childAdded ⟨1, .recents 0⟩ "alice" "m",
    .serve ⟨1, .recents 0⟩ "alice" "m",
    .read ⟨1, .recents 0⟩ "alice" "m" (some ⟨"bob", "alice", 1, "hi"⟩)]

theorem delivery_signed_out_sender : ∃ w r, machine.run .initial deliveryRun = some w ∧
    w.readers ⟨1, .recents 0⟩ = some r ∧ r.delivered = [("alice", "m")] ∧
    ∃ info, w.db.messages "m" = some info ∧ info.Between "bob" "alice" :=
  ⟨_, _, rfl, rfl, rfl,
    (@delivery deliveryRun _ rfl (by simp only [deliveryRun, List.mem_cons, List.not_mem_nil,
      or_false, forall_eq_or_imp, forall_eq, Event.Accepts, and_self])).1 _ _ _ (by decide)⟩

end AniChat
