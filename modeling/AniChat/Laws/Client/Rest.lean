import AniChat.Laws.Client.Delivery

/-!
# The chat comes to rest

What is under way needs nobody: the server answers a write or a read, a `childAdded` fires, a closure
runs. Here it is shown to run out.

## What is proved

- `comes_to_rest`: from every reachable state, and whatever the server answers, these steps come to
  an end after a bounded number, in any order. What they end in is exactly a quiet world.
- `eventually_delivered`: when no write is rejected, each message that was sent is then stored and
  was handed on once by each observer that watches for it.

Nothing is assumed of the order of the steps, only that a step that stays possible is not put off
for ever.
-/

namespace AniChat

open Automata Collections

/-- The event needs nobody to do anything. -/
def World.Event.InFlight : World.Event → Prop
  | .settle _ _ _ => True
  | .completion _ => True
  | .partnerAdded _ _ => True
  | .childAdded _ _ _ => True
  | .serve _ _ _ => True
  | .read _ _ _ _ => True
  | _ => False

/-! ## What is still to come -/

/-- The verdicts still to come on a write. -/
def WriteState.remaining : WriteState → ℕ
  | .unissued => 1
  | .outstanding => 1
  | .accepted => 0
  | .rejected => 0

/-- The verdicts and the closure still to come in a call. -/
def SendCall.remaining (s : SendCall) : ℕ :=
  (s.writes .childRef).remaining + (s.writes .userMessagesRef).remaining +
    (s.writes .recipientUserMessagesRef).remaining + if s.completed then 0 else 1

/-- The steps an index entry may still take in an observer. -/
def Read.remaining : Read → ℕ
  | .unseen => 3
  | .requested => 2
  | .served _ => 1
  | .dropped => 0
  | .finished _ => 0

/-- The users and the keys that occur in calls, and the observers there are. -/
structure Bounds where
  users : Finset Uid
  keys : Finset MessageId
  readers : Finset ReaderId

/-- The nested observers that may still be attached, and the steps of all entries there may be. -/
def Reader.remaining (b : Bounds) (r : Reader) : ℕ :=
  (b.users.filter (· ∉ r.partners)).card + ∑ e ∈ b.users ×ˢ b.keys, (r.reads e).remaining

/-- The steps that may still come in a world. -/
def World.remaining (b : Bounds) (w : World) : ℕ :=
  ∑ m ∈ b.keys, (w.sends m).elim 0 SendCall.remaining +
    ∑ id ∈ b.readers, (w.readers id).elim 0 (Reader.remaining b)

/-- Nothing in the world is outside the bounds. -/
structure World.Within (w : World) (b : Bounds) : Prop where
  sends : ∀ m s, w.sends m = some s → m ∈ b.keys ∧ s.fromId ∈ b.users ∧ s.recipientId ∈ b.users
  readers : ∀ id r, w.readers id = some r → id ∈ b.readers

namespace World

/-- What a step leaves of the calls and the observers: those there were, and at most one call or one
observer more. -/
theorem within_setSend {w : World} {b : Bounds} (h : w.Within b) (m : MessageId) (s : SendCall) :
    (w.setSend m s).Within
      ⟨insert s.fromId (insert s.recipientId b.users), insert m b.keys, b.readers⟩ where
  sends m' s' hs' := by
    rcases update_eq_some.mp hs' with ⟨rfl, rfl⟩ | ⟨-, hold⟩
    · simp
    · obtain ⟨hm, hf, hr⟩ := h.sends m' s' hold
      simp [hm, hf, hr]
  readers := h.readers

/-- A call that takes a step is within the same bounds. -/
theorem Within.call {w w' : World} {b : Bounds} (h : w.Within b) {m : MessageId} {s s' : SendCall}
    (call : w.sends m = some s) (sends : w'.sends = Function.update w.sends m (some s'))
    (fromId : s'.fromId = s.fromId) (recipientId : s'.recipientId = s.recipientId)
    (readers : w'.readers = w.readers) : w'.Within b where
  sends m' s₀ hs₀ := by
    rw [sends] at hs₀
    rcases update_eq_some.mp hs₀ with ⟨rfl, rfl⟩ | ⟨-, hold⟩
    · rw [fromId, recipientId]
      exact h.sends m' s call
    · exact h.sends m' s₀ hold
  readers id r hr := h.readers id r (readers ▸ hr)

/-- So is an observer. -/
theorem Within.reader {w : World} {b : Bounds} (h : w.Within b) {id : ReaderId} {r : Reader}
    (reader : w.readers id = some r) (r' : Reader) : (w.setReader id r').Within b where
  sends := h.sends
  readers id' r₀ hr₀ := by
    rcases update_eq_some.mp hr₀ with ⟨rfl, -⟩ | ⟨-, hold⟩
    · exact h.readers id' r reader
    · exact h.readers id' r₀ hold

theorem within_setReader {w : World} {b : Bounds} (h : w.Within b) (id : ReaderId) (r : Reader) :
    (w.setReader id r).Within ⟨b.users, b.keys, insert id b.readers⟩ where
  sends := h.sends
  readers id' r' hr' := by
    rcases update_eq_some.mp hr' with ⟨rfl, -⟩ | ⟨-, hold⟩
    · exact Finset.mem_insert_self _ _
    · exact Finset.mem_insert_of_mem (h.readers id' r' hold)

/-- Every reachable world is within some bounds. -/
theorem within_run {w : World} {es : List Event} (run : machine.run initial es = some w) :
    ∃ b, w.Within b := by
  refine Machine.run_invariant (P := fun w => ∃ b, w.Within b) ?_ ?_ run
  · rintro w e w' ⟨b, h⟩ hstep
    cases step_cases hstep with
    | auth => exact ⟨b, h.sends, h.readers⟩
    | send => exact ⟨_, within_setSend h _ _⟩
    | settle _ call => exact ⟨b, h.call call rfl rfl rfl rfl⟩
    | completion call => exact ⟨b, h.call call rfl rfl rfl rfl⟩
    | messagesForUserObserver => exact ⟨_, within_setReader h _ _⟩
    | observeMessages => exact ⟨_, within_setReader h _ _⟩
    | release reader => exact ⟨b, h.reader reader _⟩
    | partnerAdded reader => exact ⟨b, h.reader reader _⟩
    | childAdded reader => exact ⟨b, h.reader reader _⟩
    | serve reader => exact ⟨b, h.reader reader _⟩
    | read reader => exact ⟨b, h.reader reader _⟩
    | _ => exact ⟨b, h⟩
  · exact ⟨⟨∅, ∅, ∅⟩, ⟨fun _ _ hs => (by cases hs), fun _ _ hr => (by cases hr)⟩⟩

/-- The partner and the key of an index entry are within the bounds. -/
theorem Within.entry {w : World} {b : Bounds} (h : w.Within b) (hc : w.Consistent) {u v : Uid}
    {m : MessageId} (entry : (u, v, m) ∈ w.db.userMessages) : v ∈ b.users ∧ m ∈ b.keys := by
  obtain ⟨s, hs, -, hbetween⟩ := indexed_call hc entry
  obtain ⟨hm, hfrom, hto⟩ := h.sends m s hs
  obtain ⟨hf, ht⟩ := (hc.tracks m s hs).info
  refine ⟨?_, hm⟩
  rcases hbetween with ⟨-, hv⟩ | ⟨hv, -⟩
  · rw [← hv, ht]
    exact hto
  · rw [← hv, hf]
    exact hfrom

/-! ## One step less -/

theorem remaining_settle {s : SendCall} {k : SendWrite} (out : s.writes k = .outstanding)
    (accepted : Bool) : (s.settle k accepted).remaining < s.remaining := by
  have hverdict : (WriteState.ofVerdict accepted).remaining = 0 := by cases accepted <;> rfl
  have hout : (s.writes k).remaining = 1 := by rw [out]; rfl
  have hcompleted : (s.settle k accepted).completed = s.completed := rfl
  cases k with
  | childRef =>
    simp only [SendCall.remaining, settle_writes, hcompleted, if_true, reduceCtorEq, if_false,
      hverdict]
    omega
  | userMessagesRef =>
    simp only [SendCall.remaining, settle_writes, hcompleted, if_true, reduceCtorEq, if_false,
      hverdict]
    omega
  | recipientUserMessagesRef =>
    simp only [SendCall.remaining, settle_writes, hcompleted, if_true, reduceCtorEq, if_false,
      hverdict]
    omega

theorem remaining_completion {db : Database} {m : MessageId} {s : SendCall} (h : s.Tracks db m)
    (first : s.completed = false) : s.completion.remaining < s.remaining := by
  have hown := h.waiting first .userMessagesRef (by simp)
  have hrecipient := h.waiting first .recipientUserMessagesRef (by simp)
  simp [SendCall.remaining, SendCall.completion, hown, hrecipient, first, WriteState.remaining]

theorem remaining_partnerAdded {b : Bounds} {r : Reader} {v : Uid} (mem : v ∈ b.users)
    (first : v ∉ r.partners) : (r.partnerAdded v).remaining b < r.remaining b := by
  unfold Reader.remaining
  apply Nat.add_lt_add_right
  apply Finset.card_lt_card
  constructor
  · intro v' hv'
    simp only [Reader.partnerAdded, List.mem_cons, not_or, Finset.mem_filter] at hv' ⊢
    exact ⟨hv'.1, hv'.2.2⟩
  · intro hsub
    have hv := hsub (Finset.mem_filter.mpr ⟨mem, first⟩)
    simp [Reader.partnerAdded] at hv

/-- Moving one read forward. -/
theorem remaining_update {b : Bounds} {r r' : Reader} {v : Uid} {m : MessageId} {x : Read}
    (mem : v ∈ b.users ∧ m ∈ b.keys) (partners : r'.partners = r.partners)
    (reads : r'.reads = Function.update r.reads (v, m) x)
    (less : x.remaining < (r.reads (v, m)).remaining) : r'.remaining b < r.remaining b := by
  unfold Reader.remaining
  rw [partners, reads]
  have hsum := @sum_update_add _ _ (v, m) _ r.reads x _ Read.remaining (Finset.mem_product.mpr mem)
  omega

theorem remaining_setReader {w : World} {b : Bounds} (h : w.Within b) {id : ReaderId}
    {r r' : Reader} (reader : w.readers id = some r) (less : r'.remaining b < r.remaining b) :
    (w.setReader id r').remaining b < w.remaining b := by
  have hsum := @sum_update_add _ _ id _ w.readers (some r') _
    (fun x => x.elim 0 (Reader.remaining b)) (h.readers id r reader)
  simp only [reader, Option.elim_some] at hsum
  simp only [remaining, setReader]
  omega

theorem remaining_setSend {w w' : World} {b : Bounds} (h : w.Within b) {m : MessageId}
    {s s' : SendCall} (call : w.sends m = some s)
    (sends : w'.sends = Function.update w.sends m (some s')) (readers : w'.readers = w.readers)
    (less : s'.remaining < s.remaining) : w'.remaining b < w.remaining b := by
  have hsum := @sum_update_add _ _ m _ w.sends (some s') _
    (fun x => x.elim 0 SendCall.remaining) (h.sends m s call).1
  simp only [call, Option.elim_some] at hsum
  simp only [remaining, sends, readers]
  omega

/-- What is under way comes nearer to its end with each of its steps. -/
theorem remaining_step {b : Bounds} {w w' : World} {e : Event} (inFlight : e.InFlight)
    (h : w.Consistent ∧ w.Observed ∧ w.Within b) (hstep : machine.step w e = some w') :
    (w'.Consistent ∧ w'.Observed ∧ w'.Within b) ∧ w'.remaining b < w.remaining b := by
  obtain ⟨hc, ho, hb⟩ := h
  have hc' := consistent_step hc hstep
  have ho' := observed_step hc ho hstep
  -- an entry that an observer has met is in the index
  have hseen : ∀ {id : ReaderId} {r : Reader} {v : Uid} {m : MessageId}, w.readers id = some r →
      r.reads (v, m) ≠ .unseen → v ∈ b.users ∧ m ∈ b.keys :=
    fun hr hne => hb.entry hc ((ho _ _ hr).seen _ _ hne)
  cases step_cases hstep with
  | settle accepted call out =>
    exact ⟨⟨hc', ho', hb.call call rfl rfl rfl rfl⟩,
      remaining_setSend hb call rfl rfl (remaining_settle out accepted)⟩
  | @completion m s call first answered =>
    exact ⟨⟨hc', ho', hb.call call rfl rfl rfl rfl⟩,
      remaining_setSend hb call rfl rfl (remaining_completion (hc.tracks m s call) first)⟩
  | partnerAdded reader owner first child =>
    obtain ⟨⟨u, v, m⟩, hentry, rfl, rfl⟩ := child
    exact ⟨⟨hc', ho', hb.reader reader _⟩,
      remaining_setReader hb reader (remaining_partnerAdded (hb.entry hc hentry).1 first)⟩
  | @childAdded id r v m reader nested child first =>
    refine ⟨⟨hc', ho', hb.reader reader _⟩, remaining_setReader hb reader ?_⟩
    have hmem := hb.entry hc child
    cases hw : id.owner with
    | recents vc => exact remaining_update hmem rfl rfl (by rw [first]; decide)
    | inbox vc =>
      refine remaining_update hmem rfl rfl ?_
      rw [first]
      cases r.alive <;> decide
  | serve reader out =>
    have hmem := hseen reader (by rw [out]; exact nofun)
    exact ⟨⟨hc', ho', hb.reader reader _⟩, remaining_setReader hb reader
      (remaining_update hmem rfl rfl (by rw [out]; exact Nat.lt_succ_self 1))⟩
  | read reader served =>
    have hmem := hseen reader (by rw [served]; exact nofun)
    exact ⟨⟨hc', ho', hb.reader reader _⟩, remaining_setReader hb reader
      (remaining_update hmem rfl rfl (by rw [served]; exact Nat.zero_lt_one))⟩
  | _ => exact inFlight.elim

/-! ## At rest -/

/-- Where no step that rejects nothing is possible any more, nothing is in flight. -/
theorem quiet_of_atRest {w : World} (hc : w.Consistent)
    (rest : machine.AtRest (fun e => e.InFlight ∧ e.Accepts) w) : w.Quiet := by
  have stuck : ∀ e : Event, e.InFlight → e.Accepts → step w e = none := fun e hi ha =>
    rest e ⟨hi, ha⟩
  refine ⟨fun m s call => ?_, fun id r reader => ⟨fun vc how v child => ?_, ?_, fun e => ⟨?_, ?_⟩⟩⟩
  · have ht := hc.tracks m s call
    have hanswered : ∀ k, s.writes k ≠ .outstanding := by
      intro k hout
      have hstep := stuck (.settle m k true) trivial rfl
      simp [step, call, hout] at hstep
    have hsettled : ∀ {k}, s.writes k ≠ .unissued → (s.writes k).Settled := by
      intro k hissued
      have hout := hanswered k
      cases hw : s.writes k with
      | unissued => exact absurd hw hissued
      | outstanding => exact absurd hw hout
      | accepted => exact .inl rfl
      | rejected => exact .inr rfl
    have hcompleted : s.completed = true := by
      by_contra hfirst
      have hfirst := Bool.eq_false_iff.mpr hfirst
      have hstep := stuck (.completion m) trivial trivial
      simp [step, call, hfirst, hsettled ht.issued] at hstep
    exact ⟨hcompleted, fun k => hsettled ((ht.answered hcompleted).2 k)⟩
  · by_contra first
    have hstep := stuck (.partnerAdded id v) trivial trivial
    simp [step, reader, how, first, child] at hstep
  · intro v nested m entry first
    have hstep := stuck (.childAdded id v m) trivial trivial
    simp [step, reader, nested, entry, first] at hstep
  · intro out
    have hstep := stuck (.serve id e.1 e.2) trivial trivial
    simp [step, reader, out] at hstep
  · intro value served
    have hstep := stuck (.read id e.1 e.2 value) trivial trivial
    simp [step, reader, served] at hstep

/-- Where nothing is in flight, none of these steps is possible. -/
theorem Quiet.atRest {w : World} (q : w.Quiet) : machine.AtRest Event.InFlight w := by
  intro e inFlight
  by_contra hstep
  obtain ⟨w', hw'⟩ := Option.ne_none_iff_exists'.mp hstep
  cases step_cases hw' with
  | @settle _ k _ _ call out =>
    have hsettled := (q.sends _ _ call).2 k
    rw [out] at hsettled
    rcases hsettled with h | h <;> cases h
  | completion call first _ =>
    have hcompleted := (q.sends _ _ call).1
    rw [first] at hcompleted
    cases hcompleted
  | partnerAdded reader owner first child =>
    exact first ((q.readers _ _ reader).partners _ owner _ child)
  | childAdded reader nested child first =>
    exact (q.readers _ _ reader).children _ nested _ child first
  | serve reader out => exact ((q.readers _ _ reader).reads _).1 out
  | read reader served => exact ((q.readers _ _ reader).reads _).2 _ served
  | _ => exact inFlight.elim

theorem quiet_iff_atRest {w : World} (hc : w.Consistent) :
    machine.AtRest Event.InFlight w ↔ w.Quiet :=
  ⟨fun rest => quiet_of_atRest hc fun e he => rest e he.1, Quiet.atRest⟩

/-- **The chat comes to rest.** From every reachable state the steps that need nobody (the server's
answers, whichever they are, the `childAdded` events and the closures) come to an end after a bounded
number of them, in any order; they have come to an end exactly where nothing is in flight, and from
wherever they have got to they can go on until then. -/
theorem comes_to_rest {es : List Event} {w : World} (run : machine.run initial es = some w) :
    ∃ n, ∀ fs w', (∀ e ∈ fs, e.InFlight) → machine.run w fs = some w' →
      fs.length ≤ n ∧ (machine.AtRest Event.InFlight w' ↔ w'.Quiet) ∧
        ∃ gs w'', (∀ e ∈ gs, e.InFlight) ∧ machine.run w' gs = some w'' ∧ w''.Quiet := by
  obtain ⟨b, hb⟩ := within_run run
  have start : w.Consistent ∧ w.Observed ∧ w.Within b :=
    ⟨consistent_run run, observed_run run, hb⟩
  refine ⟨w.remaining b, fun fs w' inFlight hrun => ?_⟩
  obtain ⟨hlength, hw', gs, w'', hgs, hrun', hw'', hrest⟩ :=
    Machine.run_rests (fun _ _ _ => remaining_step) start inFlight hrun
  exact ⟨hlength, quiet_iff_atRest hw'.1, gs, w'', hgs, hrun', (quiet_iff_atRest hw''.1).mp hrest⟩

/-! ## Delivered in the end -/

/-- What steps that need nobody leave of a call and of an observer. -/
structure Kept (w w' : World) : Prop where
  sends : ∀ m call, w.sends m = some call →
    ∃ call', w'.sends m = some call' ∧ call'.messageInfo = call.messageInfo
  readers : ∀ id r, w.readers id = some r → ∃ r', w'.readers id = some r' ∧ r'.uid = r.uid ∧
    ∀ v, r.Watches id.owner v → r'.Watches id.owner v

theorem Kept.refl (w : World) : w.Kept w where
  sends _ call hcall := ⟨call, hcall, rfl⟩
  readers _ r hr := ⟨r, hr, rfl, fun _ h => h⟩

theorem Kept.trans {w t w' : World} (h : w.Kept t) (h' : t.Kept w') : w.Kept w' where
  sends m call hcall := by
    obtain ⟨call₁, hcall₁, hinfo₁⟩ := h.sends m call hcall
    obtain ⟨call₂, hcall₂, hinfo₂⟩ := h'.sends m call₁ hcall₁
    exact ⟨call₂, hcall₂, hinfo₂.trans hinfo₁⟩
  readers id r hr := by
    obtain ⟨r₁, hr₁, huid₁, hwatches₁⟩ := h.readers id r hr
    obtain ⟨r₂, hr₂, huid₂, hwatches₂⟩ := h'.readers id r₁ hr₁
    exact ⟨r₂, hr₂, huid₂.trans huid₁, fun v hv => hwatches₂ v (hwatches₁ v hv)⟩

/-- One observer moves on. -/
theorem kept_setReader {w : World} {id : ReaderId} {r r' : Reader} (reader : w.readers id = some r)
    (uid : r'.uid = r.uid) (watches : ∀ v, r.Watches id.owner v → r'.Watches id.owner v) :
    w.Kept (w.setReader id r') where
  sends _ call hcall := ⟨call, hcall, rfl⟩
  readers id' r₀ hr₀ := by
    by_cases hid : id' = id
    · subst hid
      cases reader.symm.trans hr₀
      exact ⟨r', Function.update_self .., uid, watches⟩
    · exact ⟨r₀, (Function.update_of_ne hid _ _).trans hr₀, rfl, fun _ h => h⟩

/-- One call moves on. -/
theorem kept_call {w w' : World} {m : MessageId} {s s' : SendCall} (call : w.sends m = some s)
    (sends : w'.sends = Function.update w.sends m (some s')) (readers : w'.readers = w.readers)
    (info : s'.messageInfo = s.messageInfo) : w.Kept w' where
  sends m' s₀ hs₀ := by
    rw [sends]
    by_cases hm : m' = m
    · subst hm
      cases call.symm.trans hs₀
      exact ⟨s', Function.update_self .., info⟩
    · exact ⟨s₀, (Function.update_of_ne hm _ _).trans hs₀, rfl⟩
  readers id r hr := ⟨r, readers ▸ hr, rfl, fun _ h => h⟩

theorem kept_step {w w' : World} {e : Event} (inFlight : e.InFlight)
    (hstep : machine.step w e = some w') : w.Kept w' := by
  cases step_cases hstep with
  | settle _ call => exact kept_call call rfl rfl rfl
  | completion call => exact kept_call call rfl rfl rfl
  | @partnerAdded id r v vc reader owner =>
    refine kept_setReader reader rfl fun v' _ => ?_
    rw [owner]
    trivial
  | @childAdded id r v m reader =>
    refine kept_setReader reader ?_ fun v' hv' => ?_
    · cases id.owner <;> rfl
    · cases how : id.owner with
      | recents vc => trivial
      | inbox vc =>
        rw [how] at hv'
        exact hv'
  | serve reader => exact kept_setReader reader rfl fun _ h => h
  | read reader => exact kept_setReader reader rfl fun _ h => h
  | _ => exact inFlight.elim

theorem kept_run {w w' : World} {fs : List Event} (inFlight : ∀ e ∈ fs, e.InFlight)
    (run : machine.run w fs = some w') : w.Kept w' := by
  refine Machine.run_invariant_of (P := fun t => w.Kept t) ?_ inFlight (Kept.refl w) run
  intro t e t' he h hstep
  exact h.trans (kept_step he hstep)

/-- At rest, with no write ever rejected, a message that was sent before is stored and was handed on
once by each observer that watched for it before. -/
theorem delivered_at_rest {w w' : World} (kept : w.Kept w') (h : w'.Accepted) (quiet : w'.Quiet)
    {m : MessageId} {call : SendCall} (sent : w.sends m = some call) :
    w'.db.messages m = some call.messageInfo ∧
      ∀ id r v, w.readers id = some r → r.Watches id.owner v → call.messageInfo.Between r.uid v →
        ∃ r', w'.readers id = some r' ∧ r'.delivered.count (v, m) = 1 := by
  obtain ⟨call', hcall', hinfo⟩ := kept.sends m call sent
  have hstored : w'.db.messages m = some call.messageInfo := by
    rw [quiet.messages h.consistent h.unrejected m, hcall', ← hinfo]
    rfl
  refine ⟨hstored, fun id r v reader watches between => ?_⟩
  obtain ⟨r', hr', huid, hwatches⟩ := kept.readers id r reader
  have hentry : (r'.uid, v, m) ∈ w'.db.userMessages := by
    rw [quiet.entries h.consistent h.unrejected, huid]
    exact ⟨_, hstored, between⟩
  refine ⟨r', hr', ?_⟩
  rw [quiet.delivered h.observed h.found hr' (hwatches v watches) m, if_pos hentry]

/-- **Every message arrives.** When no write is rejected, from every reachable state, in whatever
order the server's answers, the `childAdded` events and the closures come: after a bounded number of
them none is left, and then each message sent so far is stored, and each observer that watches the
conversation it belongs to has handed it on, once. -/
theorem eventually_delivered {es : List Event} {w : World} (run : machine.run initial es = some w)
    (accepts : ∀ e ∈ es, e.Accepts) :
    ∃ n, ∀ fs w', (∀ e ∈ fs, e.InFlight ∧ e.Accepts) → machine.run w fs = some w' →
      fs.length ≤ n ∧
      (∃ gs w'', (∀ e ∈ gs, e.InFlight ∧ e.Accepts) ∧ machine.run w' gs = some w'' ∧
        machine.AtRest Event.InFlight w'') ∧
      (machine.AtRest Event.InFlight w' → ∀ m call, w.sends m = some call →
        w'.db.messages m = some call.messageInfo ∧
        ∀ id r v, w.readers id = some r → r.Watches id.owner v → call.messageInfo.Between r.uid v →
          ∃ r', w'.readers id = some r' ∧ r'.delivered.count (v, m) = 1) := by
  obtain ⟨b, hb⟩ := within_run run
  have start : w.Consistent ∧ w.Observed ∧ w.Within b :=
    ⟨consistent_run run, observed_run run, hb⟩
  have down : ∀ s e s', e.InFlight ∧ e.Accepts → s.Consistent ∧ s.Observed ∧ s.Within b →
      machine.step s e = some s' →
      (s'.Consistent ∧ s'.Observed ∧ s'.Within b) ∧ s'.remaining b < s.remaining b :=
    fun _ _ _ he => remaining_step he.1
  refine ⟨w.remaining b, fun fs w' hfs hrun => ?_⟩
  obtain ⟨hlength, -, gs, w'', hgs, hrun', hw'', hrest⟩ := Machine.run_rests down start hfs hrun
  refine ⟨hlength, ⟨gs, w'', hgs, hrun', (quiet_of_atRest hw''.1 hrest).atRest⟩,
    fun rest m call sent => ?_⟩
  have haccepted : w'.Accepted := Machine.run_invariant_of
    (fun _ _ _ he hs hstep => accepted_step he.2 hs hstep) hfs (accepted_run run accepts) hrun
  exact delivered_at_rest (kept_run (fun e he => (hfs e he).1) hrun) haccepted
    ((quiet_iff_atRest haccepted.consistent).mp rest) sent

/-- Alice has written to Bob, whose conversation with her is open, and nothing has been answered
yet. -/
def aliceWrites : List Event :=
  [.auth 0 (some "alice"), .auth 1 (some "bob"), .observeMessages 1 4 "alice",
    .send 0 "m" "bob" 2 "hello"]

theorem comes_to_rest_aliceWrites : ∃ w n, machine.run initial aliceWrites = some w ∧
    ∀ fs w', (∀ e ∈ fs, e.InFlight) → machine.run w fs = some w' → fs.length ≤ n := by
  obtain ⟨n, hn⟩ := @comes_to_rest aliceWrites _ rfl
  exact ⟨_, n, rfl, fun fs w' hfs hrun => (hn fs w' hfs hrun).1⟩

theorem eventually_delivered_aliceWrites : ∃ w gs w', machine.run initial aliceWrites = some w ∧
    machine.run w gs = some w' ∧ machine.AtRest Event.InFlight w' ∧
    ∃ r', w'.readers ⟨1, .inbox 4⟩ = some r' ∧ r'.delivered.count ("alice", "m") = 1 := by
  obtain ⟨n, hn⟩ := @eventually_delivered aliceWrites _ rfl (by
    simp only [aliceWrites, List.mem_cons, List.not_mem_nil, or_false, forall_eq_or_imp, forall_eq,
      Event.Accepts, and_self])
  obtain ⟨-, ⟨gs, w', hgs, hrun, hrest⟩, -⟩ :=
    hn [] _ (fun _ he => (List.not_mem_nil he).elim) rfl
  obtain ⟨-, -, hdelivered⟩ := hn gs w' hgs hrun
  obtain ⟨-, harrives⟩ := hdelivered hrest "m" _ rfl
  exact ⟨_, gs, w', rfl, hrun, hrest,
    harrives ⟨1, .inbox 4⟩ _ "alice" rfl ⟨List.mem_singleton_self _, rfl⟩ (.inr ⟨rfl, rfl⟩)⟩

end World

end AniChat
