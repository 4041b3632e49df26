import AniChat.Laws.App.Conversations
import Mathlib.Data.Set.Card

/-!
# Where a message comes from

Every message that a screen shows goes back to one press of the button on one screen, and its text
to one edit of that screen's field.

## What is proved

- `typed_by_sender`: a message on a screen was sent from a screen of its recipient's conversation, on
  a client where its sender was signed in, with the text that stood in the field. Unless that text is
  empty, it is the last thing typed there.
- `sent_at_most_once`: a text is sent no more often than it was typed, since a press empties the
  field.

An empty field is sent as it is: `handleSend()` asks only whether there is a text.
-/

namespace AniChat

open Automata Collections

/-! ## The calls of `send` -/

namespace World

/-- A call after a step was there before it, with the same message, or the step is its `send`. -/
theorem sends_step {w w' : World} {e : Event} (hstep : machine.step w e = some w') {m : MessageId}
    {call' : SendCall} (hcall : w'.sends m = some call') :
    (∃ call, w.sends m = some call ∧ call.messageInfo = call'.messageInfo) ∨
      ∃ c recipientId date text fromId, e = .send c m recipientId date text ∧
        w.currentUser c = some fromId ∧ w.sends m = none ∧
        call'.messageInfo = ⟨recipientId, fromId, date, text⟩ := by
  have kept : ∀ {m₀ : MessageId} {s : SendCall} (s₀ : SendCall), w.sends m₀ = some s →
      s₀.messageInfo = s.messageInfo → Function.update w.sends m₀ (some s₀) m = some call' →
      ∃ call, w.sends m = some call ∧ call.messageInfo = call'.messageInfo := by
    intro m₀ s s₀ hs hinfo hupdate
    rcases update_eq_some.mp hupdate with ⟨rfl, rfl⟩ | ⟨-, hold⟩
    · exact ⟨s, hs, hinfo.symm⟩
    · exact ⟨call', hold, rfl⟩
  cases step_cases hstep with
  | @send c m₀ recipientId date text fromId fresh signedIn =>
    rcases update_eq_some.mp hcall with ⟨rfl, rfl⟩ | ⟨-, hold⟩
    · exact .inr ⟨c, recipientId, date, text, fromId, rfl, signedIn, fresh, rfl⟩
    · exact .inl ⟨call', hold, rfl⟩
  | settle accepted call out => exact .inl (kept _ call (settle_messageInfo ..) hcall)
  | @completion _ s call first answered => exact .inl (kept s.completion call rfl hcall)
  | _ => exact .inl ⟨call', hcall, rfl⟩

/-- What is stored was sent. -/
theorem Consistent.sent {w : World} (h : w.Consistent) {m : MessageId} {info : MessageInfo}
    (stored : w.db.messages m = some info) :
    ∃ call, w.sends m = some call ∧ call.messageInfo = info := by
  cases hs : w.sends m with
  | none =>
    rw [(h.fresh m hs).1] at stored
    cases stored
  | some call =>
    refine ⟨call, rfl, ?_⟩
    rw [(h.tracks m call hs).stored] at stored
    split at stored
    · exact Option.some.inj stored
    · cases stored

end World

namespace ContactInboxVC

theorem read_inputText (vc : ContactInboxVC) (m : MessageId) (value : Option MessageInfo) :
    (vc.read m value).inputText = vc.inputText := by
  cases value with
  | none => rfl
  | some info => rfl

/-- A press on a screen with a contact leaves nothing in the field. -/
theorem handleSend_inputText {vc : ContactInboxVC} (contact : vc.user ≠ none) {text : String}
    (h : vc.handleSend.inputText = some text) : text = "" := by
  cases htext : vc.inputText with
  | none =>
    simp only [handleSend, htext] at h
    cases h
  | some old =>
    cases huser : vc.user with
    | none => exact absurd huser contact
    | some user =>
      simp only [handleSend, htext, send, huser] at h
      exact (Option.some.inj h).symm

/-- The field of a new screen is empty. -/
theorem opened_inputText (contact : User) (currentUser : Option Uid) :
    (opened contact currentUser).inputText = some "" := by
  unfold opened setUser observeMessages
  split
  · rfl
  · split <;> rfl

/-- What a press with a text and a contact gives to `ChatClient.send`. -/
theorem sending_eq_some {vc : ContactInboxVC} {toId : Uid} {text : String} :
    vc.sending = some (toId, text) ↔ vc.inputText = some text ∧ vc.user.bind User.id = some toId := by
  unfold sending
  constructor
  · intro h
    split at h
    · next htext hid =>
      cases h
      exact ⟨htext, hid⟩
    · cases h
  · rintro ⟨htext, hid⟩
    rw [htext, hid]

end ContactInboxVC

namespace Conversations

open ContactInboxVC (transcript)

variable {urls : Urls}

/-! ## What stands in a field -/

/-- The event works on the field of screen `id`, or makes the screen or releases it. -/
def Event.touchesField (id : InboxId) : Event → Bool
  | .inbox id' (.edit _) => id' = id
  | .inbox id' (.handleSend _ _ _) => id' = id
  | .inbox id' (.opened _ _ _ _ _) => id' = id
  | .inbox id' (.release _) => id' = id
  | _ => false

/-- An event of one screen leaves the fields of the others. -/
theorem Event.touchesField_other {id id' : InboxId} (other : id ≠ id') (e : Inboxes.Event) :
    Event.touchesField id (.inbox id' e) = false := by
  cases e with
  | opened => exact decide_eq_false (Ne.symm other)
  | edit => exact decide_eq_false (Ne.symm other)
  | handleSend => exact decide_eq_false (Ne.symm other)
  | release => exact decide_eq_false (Ne.symm other)
  | _ => rfl

/-- The last that happened to the field of screen `id` is that `text` was typed. -/
def LastTyped (es : List Event) (id : InboxId) (text : String) : Prop :=
  ∃ pre mid, es = pre ++ .inbox id (.edit (some text)) :: mid ∧
    ∀ e ∈ mid, e.touchesField id = false

/-- Events that leave a field leave what was last typed there. -/
theorem LastTyped.snoc {es : List Event} {id : InboxId} {text : String} (h : LastTyped es id text)
    {e : Event} (leaves : e.touchesField id = false) : LastTyped (es ++ [e]) id text := by
  obtain ⟨pre, mid, rfl, hmid⟩ := h
  refine ⟨pre, mid ++ [e], ?_, ?_⟩
  · rw [List.append_assoc, List.cons_append]
  · intro e' he'
    rcases List.mem_append.mp he' with he' | he'
    · exact hmid e' he'
    · rw [List.mem_singleton.mp he']
      exact leaves

/-- A living screen has a contact, and what stands in its field was last typed there. -/
def Typed (es : List Event) (s : World × (InboxId → Option ContactInboxVC)) : Prop :=
  ∀ id vc, s.2 id = some vc → vc.user ≠ none ∧
    ∀ text, vc.inputText = some text → text = "" ∨ LastTyped es id text

/-- The screen an event leaves keeps its contact, and its field as long as the event leaves it. -/
theorem act_field {x x' : Option ContactInboxVC} {e : Inboxes.Event} (h : Act urls x e x')
    (id : InboxId) {vc' : ContactInboxVC} (alive : x' = some vc')
    (leaves : Event.touchesField id (.inbox id e) = false) :
    ∃ vc, x = some vc ∧ vc'.user = vc.user ∧ vc'.inputText = vc.inputText := by
  cases h with
  | opened => simp [Event.touchesField] at leaves
  | dropped => cases alive
  | childAdded vc => cases alive; exact ⟨vc, rfl, rfl, rfl⟩
  | serve => exact ⟨vc', alive, rfl, rfl⟩
  | @read vc _ m value =>
    cases alive
    exact ⟨vc, rfl, vc.read_user m value, vc.read_inputText m value⟩
  | @reload vc => cases alive; exact ⟨vc, rfl, rfl, rfl⟩
  | layout vc => cases alive; exact ⟨vc, rfl, rfl, rfl⟩
  | edit => simp [Event.touchesField] at leaves
  | handleSend => simp [Event.touchesField] at leaves
  | release => cases alive

theorem typed_step {es : List Event} {s s' : World × (InboxId → Option ContactInboxVC)} {e : Event}
    (h : Typed es s) (hstep : (machine urls).step s e = some s') : Typed (es ++ [e]) s' := by
  intro id vc' hvc'
  -- a screen whose field the event leaves
  have kept : e.touchesField id = false → ∀ vc, s.2 id = some vc → vc'.user = vc.user →
      vc'.inputText = vc.inputText → vc'.user ≠ none ∧
        ∀ text, vc'.inputText = some text → text = "" ∨ LastTyped (es ++ [e]) id text := by
    intro leaves vc hvc huser hfield
    obtain ⟨hcontact, htyped⟩ := h id vc hvc
    rw [huser, hfield]
    exact ⟨hcontact, fun text htext => (htyped text htext).imp_right fun hlast => hlast.snoc leaves⟩
  rcases step_cases hstep with ⟨e', rfl, -, hvcs⟩ | ⟨id', e', x, rfl, -, -, hact, hvcs⟩
  · rw [hvcs] at hvc'
    exact kept rfl vc' hvc' rfl rfl
  by_cases hid : id = id'
  · subst hid
    rw [hvcs, Function.update_self] at hvc'
    have hacts := act_cases hact
    by_cases leaves : Event.touchesField id (.inbox id e') = false
    · obtain ⟨vc, hvc, huser, hfield⟩ := act_field hacts id hvc' leaves
      exact kept leaves vc hvc huser hfield
    subst hvc'
    generalize hx : s.2 id = x at hacts
    cases hacts with
    | opened uid name email avatarUrl currentUser =>
      refine ⟨?_, fun text htext => .inl ?_⟩
      · rw [ContactInboxVC.opened_user]
        exact nofun
      · rw [ContactInboxVC.opened_inputText] at htext
        exact (Option.some.inj htext).symm
    | edit vc text =>
      refine ⟨(h id vc hx).1, fun text' htext => .inr ?_⟩
      cases htext
      exact ⟨es, [], rfl, fun _ he => (List.not_mem_nil he).elim⟩
    | @handleSend vc m date sending sends =>
      have hcontact := (h id vc hx).1
      refine ⟨?_, fun text htext => .inl (ContactInboxVC.handleSend_inputText hcontact htext)⟩
      rw [ContactInboxVC.handleSend_user]
      exact hcontact
    | _ => exact absurd rfl leaves
  · rw [hvcs, Function.update_of_ne hid] at hvc'
    exact kept (Event.touchesField_other hid e') vc' hvc' rfl rfl

theorem typed_run {s : World × (InboxId → Option ContactInboxVC)} {es : List Event}
    (run : (machine urls).run initial es = some s) : Typed es s :=
  Machine.run_induction (P := Typed) (fun _ _ hvc => by cases hvc)
    (fun _ _ _ _ _ h hstep => typed_step h hstep) run

/-! ## The press behind a message -/

/-- A press of the button on screen `id` that sends `info`: the screen is on the recipient, its field
holds the text, and the sender is signed in. -/
structure Press (s : World × (InboxId → Option ContactInboxVC)) (id : InboxId)
    (vc : ContactInboxVC) (info : MessageInfo) : Prop where
  alive : s.2 id = some vc
  signedIn : s.1.currentUser id.client = some info.fromId
  field : vc.inputText = some info.text
  contact : vc.user.bind User.id = some info.toId

/-- The message `info` under the key `m` goes back to a press in the run `es`. -/
def SentBy (urls : Urls) (es : List Event) (m : MessageId) (info : MessageInfo) : Prop :=
  ∃ pre id post s vc,
    es = pre ++ .inbox id (.handleSend m info.date (some (info.toId, info.text))) :: post ∧
      (machine urls).run initial pre = some s ∧ Press s id vc info

theorem SentBy.snoc {es : List Event} {m : MessageId} {info : MessageInfo}
    (h : SentBy urls es m info) (e : Event) : SentBy urls (es ++ [e]) m info := by
  obtain ⟨pre, id, post, s, vc, rfl, hrun, hpress⟩ := h
  refine ⟨pre, id, post ++ [e], s, vc, ?_, hrun, hpress⟩
  rw [List.append_assoc, List.cons_append]

/-- A call after a step was there before it, or the step is the press that makes it. -/
theorem sends_step {s s' : World × (InboxId → Option ContactInboxVC)} {e : Event}
    (hstep : (machine urls).step s e = some s') {m : MessageId} {call' : SendCall}
    (hcall : s'.1.sends m = some call') :
    (∃ call, s.1.sends m = some call ∧ call.messageInfo = call'.messageInfo) ∨
      ∃ id vc, s.1.sends m = none ∧ Press s id vc call'.messageInfo ∧
        e = .inbox id (.handleSend m call'.messageInfo.date
          (some (call'.messageInfo.toId, call'.messageInfo.text))) := by
  rcases step_cases hstep with ⟨e', rfl, hworld, -⟩ | ⟨id, e', x, rfl, -, hrun, hact, -⟩
  · rcases World.sends_step hworld hcall with hold | ⟨c, recipientId, date, text, fromId, he, -⟩
    · exact .inl hold
    · -- no event of the world alone is a `send`
      have hforeign := e'.2
      rw [he] at hforeign
      cases hforeign
  rcases inbox_world hrun with ⟨-, hw⟩ | ⟨we, hwe, hworld⟩
  · rw [hw] at hcall
    exact .inl ⟨call', hcall, rfl⟩
  rcases World.sends_step hworld hcall with
    hold | ⟨c, recipientId, date, text, fromId, rfl, hsignedIn, hfresh, hinfo⟩
  · exact .inl hold
  rw [hinfo]
  have hacts := act_cases hact
  generalize hx : s.2 id = y at hacts
  cases hacts with
  | @handleSend vc m' date' sending sends =>
    cases sending with
    | none => cases hwe
    | some sending =>
      cases hwe
      obtain ⟨hfield, hcontact⟩ := ContactInboxVC.sending_eq_some.mp sends
      exact .inr ⟨id, vc, hfresh, ⟨hx, hsignedIn, hfield, hcontact⟩, rfl⟩
  | @release vc attached => cases attached <;> cases hwe
  | _ => cases hwe

theorem sentBy_run {s : World × (InboxId → Option ContactInboxVC)} {es : List Event}
    (run : (machine urls).run initial es = some s) :
    ∀ m call, s.1.sends m = some call → SentBy urls es m call.messageInfo := by
  refine Machine.run_induction (P := fun es s => ∀ m call, s.1.sends m = some call →
    SentBy urls es m call.messageInfo) (fun _ _ hcall => by cases hcall) ?_ run
  intro es e s s' hrun ih hstep m call' hcall
  rcases sends_step hstep hcall with ⟨call, hold, hinfo⟩ | ⟨id, vc, -, hpress, rfl⟩
  · rw [← hinfo]
    exact (ih m call hold).snoc e
  · exact ⟨es, id, [], s, vc, rfl, hrun, hpress⟩

/-- **A message was typed by its sender, for its recipient.** Whatever message a screen shows, in any
run and whatever the server rejects: somebody pressed the button on a screen of the conversation with
the message's recipient, on a client where the message's sender was signed in, while the field of
that screen held the message's text. Unless the text is empty, it is what was last typed in that
field, which no press emptied since. -/
theorem typed_by_sender {s : World × (InboxId → Option ContactInboxVC)} {es : List Event}
    {id : InboxId} {vc : ContactInboxVC} {u v : Uid} {message : Message}
    (run : (machine urls).run initial es = some s) (alive : s.2 id = some vc)
    (observes : vc.observing = some (u, v)) (shown : message ∈ vc.messages) :
    ∃ m pre id' post s₀ vc₀,
      es = pre ++
        .inbox id' (.handleSend m message.date (some (message.toId, message.text))) :: post ∧
      (machine urls).run initial pre = some s₀ ∧ s₀.2 id' = some vc₀ ∧
      s₀.1.currentUser id'.client = some message.fromId ∧
      vc₀.user.bind User.id = some message.toId ∧ vc₀.inputText = some message.text ∧
      (message.text = "" ∨ LastTyped pre id' message.text) := by
  have hsound := sound_run run
  obtain ⟨m, info, hstored, -, rfl⟩ := hsound.between alive observes shown
  obtain ⟨call, hcall, rfl⟩ := hsound.consistent.sent hstored
  obtain ⟨pre, id', post, s₀, vc₀, hes, hpre, hpress⟩ := sentBy_run run m call hcall
  have htyped := (typed_run hpre id' vc₀ hpress.alive).2 _ hpress.field
  exact ⟨m, pre, id', post, s₀, vc₀, hes, hpre, hpress.alive, hpress.signedIn, hpress.contact,
    hpress.field, htyped⟩

theorem typed_by_sender_aliceAndBob : ∃ s vc message,
    (machine .dotted).run initial aliceAndBob = some s ∧ s.2 ⟨1, 0⟩ = some vc ∧
      message ∈ vc.messages ∧ ∃ pre id' s₀, (machine .dotted).run initial pre = some s₀ ∧
        s₀.1.currentUser id'.client = some message.fromId ∧ LastTyped pre id' message.text := by
  obtain ⟨m, pre, id', post, s₀, vc₀, -, hpre, -, hsender, -, -, htyped⟩ :=
    @typed_by_sender .dotted _ aliceAndBob ⟨1, 0⟩ _ "bob" "alice" ⟨"bob", "alice", 1, "hi", none⟩
      rfl rfl rfl (List.mem_singleton_self _)
  exact ⟨_, _, _, rfl, rfl, List.mem_singleton_self _, pre, id', s₀, hpre, hsender,
    htyped.resolve_left (by decide)⟩

/-! ## No text is sent twice -/

/-- `text` is typed on some screen. -/
def Event.types (text : String) : Event → Bool
  | .inbox _ (.edit typed) => typed = some text
  | _ => false

/-- The keys under which `text` was sent. -/
def sending (w : World) (text : String) : Set MessageId :=
  { m | ∃ call, w.sends m = some call ∧ call.messageInfo.text = text }

/-- The screens whose field holds `text`. -/
def holding (vcs : InboxId → Option ContactInboxVC) (text : String) : Set InboxId :=
  { id | ∃ vc, vcs id = some vc ∧ vc.inputText = some text }

/-- A key under which a step sends is the key of a press on a screen that holds the text. -/
theorem sending_step {s s' : World × (InboxId → Option ContactInboxVC)} {e : Event}
    (hstep : (machine urls).step s e = some s') {text : String} {m : MessageId}
    (sent : m ∈ sending s'.1 text) : m ∈ sending s.1 text ∨
      ∃ id date toId, e = .inbox id (.handleSend m date (some (toId, text))) ∧
        id ∈ holding s.2 text := by
  obtain ⟨call', hcall, rfl⟩ := sent
  rcases sends_step hstep hcall with ⟨call, hold, hinfo⟩ | ⟨id, vc, -, hpress, he⟩
  · exact .inl ⟨call, hold, congrArg MessageInfo.text hinfo⟩
  · exact .inr ⟨id, _, _, he, vc, hpress.alive, hpress.field⟩

/-- A field that comes to hold a text had it typed just then. -/
theorem holding_step {es : List Event} {s s' : World × (InboxId → Option ContactInboxVC)} {e : Event}
    (typed : Typed es s) (hstep : (machine urls).step s e = some s') {text : String}
    (nonempty : text ≠ "") {id : InboxId} (holds : id ∈ holding s'.2 text) :
    e = .inbox id (.edit (some text)) ∨ id ∈ holding s.2 text ∧
      ∀ m date sending, e ≠ .inbox id (.handleSend m date sending) := by
  obtain ⟨vc', hvc', htext⟩ := holds
  rcases step_cases hstep with ⟨e', rfl, -, hvcs⟩ | ⟨id', e', x, rfl, -, -, hact, hvcs⟩
  · rw [hvcs] at hvc'
    exact .inr ⟨⟨vc', hvc', htext⟩, nofun⟩
  by_cases hid : id = id'
  · subst hid
    rw [hvcs, Function.update_self] at hvc'
    have hacts := act_cases hact
    subst hvc'
    generalize hx : s.2 id = x at hacts
    cases hacts with
    | opened uid name email avatarUrl currentUser =>
      rw [ContactInboxVC.opened_inputText] at htext
      exact absurd (Option.some.inj htext).symm nonempty
    | childAdded vc => exact .inr ⟨⟨vc, hx, htext⟩, nofun⟩
    | serve => exact .inr ⟨⟨vc', hx, htext⟩, nofun⟩
    | @read vc _ m value =>
      rw [ContactInboxVC.read_inputText] at htext
      exact .inr ⟨⟨vc, hx, htext⟩, nofun⟩
    | @reload vc => exact .inr ⟨⟨vc, hx, htext⟩, nofun⟩
    | layout vc => exact .inr ⟨⟨vc, hx, htext⟩, nofun⟩
    | edit vc typed =>
      cases htext
      exact .inl rfl
    | @handleSend vc =>
      exact absurd (ContactInboxVC.handleSend_inputText (typed id vc hx).1 htext) nonempty
  · rw [hvcs, Function.update_of_ne hid] at hvc'
    refine .inr ⟨⟨vc', hvc', htext⟩, fun m date sending he => ?_⟩
    cases he
    exact hid rfl

/-- What one event adds to the calls with a text and the fields that hold it, taken together. -/
theorem spent_step {es : List Event} {s s' : World × (InboxId → Option ContactInboxVC)} {e : Event}
    (typed : Typed es s) (hstep : (machine urls).step s e = some s') {text : String}
    (nonempty : text ≠ "") :
    (sending s'.1 text).encard + (holding s'.2 text).encard ≤
      (sending s.1 text).encard + (holding s.2 text).encard + [e].countP (Event.types text) := by
  by_cases hedit : ∃ id, e = .inbox id (.edit (some text))
  · -- an edit: one more field at most, and no call
    obtain ⟨id, rfl⟩ := hedit
    have hsending : sending s'.1 text ⊆ sending s.1 text := by
      intro m hm
      rcases sending_step hstep hm with hold | ⟨_, _, _, he, -⟩
      · exact hold
      · cases he
    have hholding : holding s'.2 text ⊆ insert id (holding s.2 text) := by
      intro id' hid'
      rcases holding_step typed hstep nonempty hid' with he | ⟨hold, -⟩
      · cases he
        exact Set.mem_insert ..
      · exact Set.mem_insert_of_mem _ hold
    have hcount : [Event.inbox id (.edit (some text))].countP (Event.types text) = 1 := by
      simp [Event.types]
    calc (sending s'.1 text).encard + (holding s'.2 text).encard
        ≤ (sending s.1 text).encard + ((holding s.2 text).encard + 1) :=
          add_le_add (Set.encard_le_encard hsending)
            ((Set.encard_le_encard hholding).trans (Set.encard_insert_le _ _))
      _ = _ := by rw [hcount, add_assoc, Nat.cast_one]
  have hholding : holding s'.2 text ⊆ holding s.2 text := by
    intro id hid
    rcases holding_step typed hstep nonempty hid with he | ⟨hold, -⟩
    · exact absurd ⟨id, he⟩ hedit
    · exact hold
  refine le_trans ?_ le_self_add
  by_cases hpress : ∃ id m date toId, e = .inbox id (.handleSend m date (some (toId, text))) ∧
      id ∈ holding s.2 text
  · -- a press: the text leaves the field for the call
    obtain ⟨id, m, date, toId, rfl, hid⟩ := hpress
    have hsending : sending s'.1 text ⊆ insert m (sending s.1 text) := by
      intro m' hm'
      rcases sending_step hstep hm' with hold | ⟨_, _, _, he, -⟩
      · exact Set.mem_insert_of_mem _ hold
      · cases he
        exact Set.mem_insert ..
    have hleft : id ∉ holding s'.2 text := by
      intro hid'
      rcases holding_step typed hstep nonempty hid' with he | ⟨-, hno⟩
      · cases he
      · exact hno m date _ rfl
    calc (sending s'.1 text).encard + (holding s'.2 text).encard
        ≤ (sending s.1 text).encard + 1 + (holding s'.2 text).encard := by
          gcongr
          exact (Set.encard_le_encard hsending).trans (Set.encard_insert_le _ _)
      _ = (sending s.1 text).encard + (insert id (holding s'.2 text)).encard := by
          rw [Set.encard_insert_of_notMem hleft, add_assoc, add_comm 1]
      _ ≤ (sending s.1 text).encard + (holding s.2 text).encard := by
          gcongr
          exact Set.insert_subset hid hholding
  · have hsending : sending s'.1 text ⊆ sending s.1 text := by
      intro m hm
      rcases sending_step hstep hm with hold | ⟨id, date, toId, he, hid⟩
      · exact hold
      · exact absurd ⟨id, m, date, toId, he, hid⟩ hpress
    exact add_le_add (Set.encard_le_encard hsending) (Set.encard_le_encard hholding)

theorem spent_run {s : World × (InboxId → Option ContactInboxVC)} {es : List Event}
    (run : (machine urls).run initial es = some s) {text : String} (nonempty : text ≠ "") :
    (sending s.1 text).encard + (holding s.2 text).encard ≤ es.countP (Event.types text) := by
  refine Machine.run_induction (P := fun es s => (sending s.1 text).encard +
    (holding s.2 text).encard ≤ es.countP (Event.types text)) ?_ ?_ run
  · simp [sending, holding, initial, World.initial]
  · intro es e s s' hrun ih hstep
    refine (spent_step (typed_run hrun) hstep nonempty).trans ?_
    rw [List.countP_append, Nat.cast_add]
    gcongr

/-- The messages of a transcript with a text are no more than the keys that store it. -/
theorem countP_transcript_le (stored : MessageId → Option MessageInfo) {ids : List MessageId}
    (nodup : ids.Nodup) (text : String) :
    ((transcript stored ids).countP fun message => message.text = text : ℕ∞) ≤
      { m | ∃ info, stored m = some info ∧ info.text = text }.encard := by
  let has : MessageId → Bool := fun m => (stored m).any fun info => info.text = text
  have hcount : ((transcript stored ids).countP fun message => message.text = text) =
      (ids.filter has).length := by
    unfold transcript
    rw [List.countP_filterMap, List.countP_eq_length_filter]
    congr 1
    refine List.filter_congr fun m _ => ?_
    cases h : stored m <;> simp [has, h, Message.ofInboxSnapshot]
  have hsub : ((ids.filter has).toFinset : Set MessageId) ⊆
      { m | ∃ info, stored m = some info ∧ info.text = text } := by
    intro m hm
    have hhas : has m = true := (List.mem_filter.mp (List.mem_toFinset.mp hm)).2
    cases h : stored m with
    | none => simp [has, h] at hhas
    | some info => exact ⟨info, h, by simpa [has, h] using hhas⟩
  calc ((transcript stored ids).countP fun message => message.text = text : ℕ∞)
      = ((ids.filter has).toFinset : Set MessageId).encard := by
        rw [hcount, Set.encard_coe_eq_coe_finsetCard, List.toFinset_card_of_nodup (nodup.filter _)]
    _ ≤ _ := Set.encard_le_encard hsub

/-- **A text is sent no more often than it was typed.** In every run the calls of `send` with a text
that is not empty, and the fields in which it still stands, are together no more than the edits that
typed it, on all clients; and no conversation shows it more often than that. A press sends what one
edit left, since it empties the field; an empty field can be sent again and again. -/
theorem sent_at_most_once {s : World × (InboxId → Option ContactInboxVC)} {es : List Event}
    {text : String} (run : (machine urls).run initial es = some s) (nonempty : text ≠ "") :
    (sending s.1 text).encard + (holding s.2 text).encard ≤ es.countP (Event.types text) ∧
      ∀ id vc u v, s.2 id = some vc → vc.observing = some (u, v) →
        vc.messages.countP (fun message => message.text = text) ≤ es.countP (Event.types text) := by
  have hspent := spent_run run nonempty
  refine ⟨hspent, fun id vc u v alive observes => ?_⟩
  have hsound := sound_run run
  obtain ⟨r, hr, hf⟩ := (hsound.linked id vc alive).attached u v observes
  have hnodup := (hf.delivered (hsound.observed _ r hr)).1
  have hstored : { m | ∃ info, s.1.db.messages m = some info ∧ info.text = text } ⊆
      sending s.1 text := by
    rintro m ⟨info, hinfo, htext⟩
    obtain ⟨call, hcall, rfl⟩ := hsound.consistent.sent hinfo
    exact ⟨call, hcall, htext⟩
  have hcount : (vc.messages.countP (fun message => message.text = text) : ℕ∞) ≤
      es.countP (Event.types text) := by
    rw [hf.messages]
    calc ((transcript s.1.db.messages (r.delivered.map Prod.snd)).countP
          fun message => message.text = text : ℕ∞)
        ≤ { m | ∃ info, s.1.db.messages m = some info ∧ info.text = text }.encard :=
          countP_transcript_le _ hnodup text
      _ ≤ (sending s.1 text).encard := Set.encard_le_encard hstored
      _ ≤ (sending s.1 text).encard + (holding s.2 text).encard := le_self_add
      _ ≤ es.countP (Event.types text) := hspent
  exact Nat.cast_le.mp hcount

theorem sent_at_most_once_aliceAndBob : ∃ s vc, (machine .dotted).run initial aliceAndBob = some s ∧
    s.2 ⟨1, 0⟩ = some vc ∧ vc.messages.countP (fun message => message.text = "hi") = 1 ∧
    vc.messages.countP (fun message => message.text = "hi") ≤
      aliceAndBob.countP (Event.types "hi") :=
  ⟨_, _, rfl, rfl, rfl, (@sent_at_most_once .dotted _ aliceAndBob "hi" rfl (by decide)).2
    ⟨1, 0⟩ _ "bob" "alice" rfl rfl⟩

end Conversations

end AniChat
