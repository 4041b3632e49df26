import AniChat.Controller.ContactInboxVC

/-!
# The conversation and the order of its reads

Every id reported under `user-messages/<uid>/<toId>` starts a single read of its own, and the
completion appends the message. So the transcript is the order in which the reads complete.

## What is proved

- `transcript_run`: at any point of a run the array is the messages of the reads completed so far,
  in that order, and these with the outstanding ones are the ids reported.
- `chronological_iff`: once no read is outstanding, the array is the messages of the conversation by
  date exactly when the reads completed by date.
-/

namespace AniChat

open Automata

namespace ContactInboxVC

/-- What one block can do. -/
inductive Step (vc : ContactInboxVC) : Event → ContactInboxVC → Prop where
  | childAdded (id : MessageId) : Step vc (.childAdded id) (vc.childAdded id)
  | read (id : MessageId) (snapshot : Option MessageInfo) (out : id ∈ vc.requested) :
      Step vc (.read id snapshot) (vc.read id snapshot)
  | reload (queued : vc.reloads ≠ 0) : Step vc .reload vc.reloadData
  | layout : Step vc .layout vc.layout
  | edit (text : Option String) : Step vc (.edit text) (vc.edit text)
  | handleSend : Step vc .handleSend vc.handleSend

theorem step_cases {vc vc' : ContactInboxVC} {e : Event} (h : machine.step vc e = some vc') :
    Step vc e vc' := by
  change step vc e = some vc' at h
  cases e with
  | childAdded id => cases h; exact .childAdded id
  | read id snapshot =>
    obtain ⟨hg, he⟩ := Option.ite_none_right_eq_some.mp h
    cases he; exact .read id snapshot hg
  | reload =>
    obtain ⟨hg, he⟩ := Option.ite_none_right_eq_some.mp h
    cases he; exact .reload hg
  | layout => cases h; exact .layout
  | edit text => cases h; exact .edit text
  | handleSend => cases h; exact .handleSend

/-! ## What the functions leave alone -/

@[simp] theorem read_requested (vc : ContactInboxVC) (id : MessageId)
    (snapshot : Option MessageInfo) :
    (vc.read id snapshot).requested = vc.requested.erase id := by
  cases snapshot <;> rfl

@[simp] theorem read_messages (vc : ContactInboxVC) (id : MessageId)
    (snapshot : Option MessageInfo) : (vc.read id snapshot).messages =
      vc.messages ++ (snapshot.map Message.ofInboxSnapshot).toList := by
  cases snapshot with
  | none => exact (List.append_nil _).symm
  | some info => rfl

@[simp] theorem handleSend_requested (vc : ContactInboxVC) :
    vc.handleSend.requested = vc.requested := by
  unfold handleSend send
  split
  · rfl
  · split <;> rfl

@[simp] theorem handleSend_messages (vc : ContactInboxVC) :
    vc.handleSend.messages = vc.messages := by
  unfold handleSend send
  split
  · rfl
  · split <;> rfl

theorem opened_requested (contact : User) (currentUser : Option Uid) :
    (opened contact currentUser).requested = [] := by
  unfold opened setUser observeMessages
  split
  · rfl
  · split <;> rfl

theorem opened_messages (contact : User) (currentUser : Option Uid) :
    (opened contact currentUser).messages = [] := by
  unfold opened setUser observeMessages
  split
  · rfl
  · split <;> rfl

/-! ## The reads of a run -/

/-- The ids reported under the observed path, in order. -/
def reported (es : List Event) : List MessageId := es.filterMap fun
  | .childAdded id => some id
  | _ => none

/-- The ids whose read has completed, in order. -/
def completed (es : List Event) : List MessageId := es.filterMap fun
  | .read id _ => some id
  | _ => none

/-- The messages a list of ids stands for. -/
def transcript (stored : MessageId → Option MessageInfo) (ids : List MessageId) : List Message :=
  ids.filterMap fun id => (stored id).map Message.ofInboxSnapshot

/-- Every single read returns what is stored. `send` writes a message once, so this is one function
for the whole run. -/
def Event.Serves (stored : MessageId → Option MessageInfo) : Event → Prop
  | .read id snapshot => snapshot = stored id
  | _ => True

/-- `a` was not sent after `b`, by their dates. -/
def NotLater (stored : MessageId → Option MessageInfo) (a b : MessageId) : Prop :=
  ∀ x y, stored a = some x → stored b = some y → x.date ≤ y.date

theorem transcript_append (stored : MessageId → Option MessageInfo) (ids : List MessageId)
    (id : MessageId) : transcript stored (ids ++ [id]) =
      transcript stored ids ++ ((stored id).map Message.ofInboxSnapshot).toList := by
  unfold transcript
  rw [List.filterMap_append]
  cases h : stored id with
  | none => simp only [List.filterMap_cons, h, Option.map_none, List.filterMap_nil,
      Option.toList_none]
  | some info => simp only [List.filterMap_cons, h, Option.map_some, List.filterMap_nil,
      Option.toList_some]

/-- A transcript is by date exactly when its ids are. -/
theorem transcript_pairwise_iff {stored : MessageId → Option MessageInfo} {ids : List MessageId} :
    ((transcript stored ids).Pairwise fun a b => a.date ≤ b.date) ↔
      ids.Pairwise (NotLater stored) := by
  unfold transcript
  rw [List.pairwise_filterMap]
  refine ⟨fun h => h.imp ?_, fun h => h.imp ?_⟩
  · intro a b hab x y hx hy
    exact hab _ (by rw [hx]; rfl) _ (by rw [hy]; rfl)
  · intro a b hab p hp q hq
    obtain ⟨x, hx, rfl⟩ := Option.map_eq_some_iff.mp hp
    obtain ⟨y, hy, rfl⟩ := Option.map_eq_some_iff.mp hq
    exact hab x y hx hy

/-- Where a run stands: the array is the reads completed so far in their order, and these with the
outstanding ones are the ids reported. -/
structure Follows (stored : MessageId → Option MessageInfo) (es : List Event)
    (vc : ContactInboxVC) : Prop where
  messages : vc.messages = transcript stored (completed es)
  reads : (reported es).Perm (completed es ++ vc.requested)

/-- A block that reports nothing and completes no read changes neither side. -/
theorem Follows.silent {stored : MessageId → Option MessageInfo} {es : List Event}
    {vc vc' : ContactInboxVC} (h : Follows stored es vc) {e : Event}
    (reports : reported [e] = []) (completes : completed [e] = [])
    (messages : vc'.messages = vc.messages) (requested : vc'.requested = vc.requested) :
    Follows stored (es ++ [e]) vc' where
  messages := by
    unfold completed at completes ⊢
    rw [List.filterMap_append, completes, List.append_nil, messages]
    exact h.messages
  reads := by
    unfold reported at reports ⊢
    unfold completed at completes ⊢
    rw [List.filterMap_append, List.filterMap_append, reports, completes, List.append_nil,
      List.append_nil, requested]
    exact h.reads

theorem follows_step {stored : MessageId → Option MessageInfo} {es : List Event} {e : Event}
    {vc vc' : ContactInboxVC} (serves : e.Serves stored) (h : Follows stored es vc)
    (hstep : machine.step vc e = some vc') : Follows stored (es ++ [e]) vc' := by
  cases step_cases hstep with
  | childAdded id =>
    have hrep : reported (es ++ [.childAdded id]) = reported es ++ [id] := List.filterMap_append
    have hcom : completed (es ++ [.childAdded id]) = completed es :=
      List.filterMap_append.trans (List.append_nil _)
    refine ⟨by rw [hcom]; exact h.messages, ?_⟩
    rw [hrep, hcom]
    have hend : (completed es ++ vc.requested ++ [id]).Perm (completed es ++ id :: vc.requested) := by
      rw [List.append_assoc]
      exact (List.perm_append_singleton id vc.requested).append_left _
    exact (h.reads.append_right [id]).trans hend
  | read id snapshot out =>
    have hrep : reported (es ++ [.read id snapshot]) = reported es :=
      List.filterMap_append.trans (List.append_nil _)
    have hcom : completed (es ++ [.read id snapshot]) = completed es ++ [id] :=
      List.filterMap_append
    have hserved : snapshot = stored id := serves
    refine ⟨?_, ?_⟩
    · rw [hcom, transcript_append, read_messages, h.messages, hserved]
    · rw [hrep, hcom, read_requested, List.append_assoc]
      exact h.reads.trans ((List.perm_cons_erase out).append_left _)
  | reload => exact h.silent rfl rfl rfl rfl
  | layout => exact h.silent rfl rfl rfl rfl
  | edit text => exact h.silent rfl rfl rfl rfl
  | handleSend => exact h.silent rfl rfl (handleSend_messages vc) (handleSend_requested vc)

theorem transcript_run {stored : MessageId → Option MessageInfo} {contact : User}
    {currentUser : Option Uid} {es : List Event} {vc : ContactInboxVC}
    (serves : ∀ e ∈ es, e.Serves stored)
    (run : machine.run (opened contact currentUser) es = some vc) : Follows stored es vc := by
  refine Machine.run_induction (M := machine)
    (P := fun es vc => (∀ e ∈ es, e.Serves stored) → Follows stored es vc)
    (fun _ => ⟨opened_messages _ _, by rw [opened_requested]; exact List.Perm.refl _⟩) ?_ run serves
  intro es e vc vc' _ ih hstep ok
  have oke : e.Serves stored := ok e (List.mem_append_right _ (List.mem_singleton_self e))
  exact follows_step oke (ih fun e' he' => ok e' (List.mem_append_left _ he')) hstep

/-- **The transcript is chronological exactly when the reads complete in date order.** Whatever the
order, once no read is outstanding it holds the reported messages. -/
theorem chronological_iff {stored : MessageId → Option MessageInfo} {contact : User}
    {currentUser : Option Uid} {es : List Event} {vc : ContactInboxVC}
    (serves : ∀ e ∈ es, e.Serves stored)
    (run : machine.run (opened contact currentUser) es = some vc) (settled : vc.requested = []) :
    (vc.messages.Perm (transcript stored (reported es)) ∧
      vc.messages.Pairwise fun a b => a.date ≤ b.date) ↔
    (completed es).Pairwise (NotLater stored) := by
  have h := transcript_run serves run
  have hreads : (completed es).Perm (reported es) := by
    have hp := h.reads
    rw [settled, List.append_nil] at hp
    exact hp.symm
  have hall : vc.messages.Perm (transcript stored (reported es)) := by
    rw [h.messages]
    exact hreads.filterMap _
  rw [and_iff_right hall, h.messages]
  exact transcript_pairwise_iff

/-! ## Two reads that complete out of order -/

/-- Bob, as Alice's list of contacts holds him. -/
def bob : User := ⟨some "bob", some "Bob", some "bob@ani.chat", none⟩

/-- Two messages between Alice and Bob, the first sent first. -/
def twoStored : MessageId → Option MessageInfo
  | "m1" => some ⟨"alice", "bob", 1, "hi"⟩
  | "m2" => some ⟨"bob", "alice", 2, "hello"⟩
  | _ => none

/-- The ids are reported in the order of sending; the later read completes first. -/
def overtaken : List Event :=
  [.childAdded "m1", .childAdded "m2", .read "m2" (twoStored "m2"), .read "m1" (twoStored "m1")]

/-- Both reads complete in the order they were started. -/
def inOrder : List Event :=
  [.childAdded "m1", .childAdded "m2", .read "m1" (twoStored "m1"), .read "m2" (twoStored "m2")]

theorem serves_overtaken : ∀ e ∈ overtaken, e.Serves twoStored := by
  simp only [overtaken, List.mem_cons, List.not_mem_nil, or_false, forall_eq_or_imp, forall_eq,
    Event.Serves, and_self]

theorem serves_inOrder : ∀ e ∈ inOrder, e.Serves twoStored := by
  simp only [inOrder, List.mem_cons, List.not_mem_nil, or_false, forall_eq_or_imp, forall_eq,
    Event.Serves, and_self]

theorem chronological_inOrder : ∃ vc,
    machine.run (opened bob (some "alice")) inOrder = some vc ∧ vc.requested = [] ∧
    ((vc.messages.Perm (transcript twoStored (reported inOrder)) ∧
      vc.messages.Pairwise fun a b => a.date ≤ b.date) ↔
    (completed inOrder).Pairwise (NotLater twoStored)) :=
  ⟨_, rfl, rfl, chronological_iff serves_inOrder rfl rfl⟩

/-- The later message is shown above the earlier one. -/
theorem overtaken_transcript : ¬ ∀ stored contact currentUser es vc,
    (∀ e ∈ es, Event.Serves stored e) →
    machine.run (opened contact currentUser) es = some vc → vc.requested = [] →
    vc.messages.Perm (transcript stored (reported es)) ∧
      vc.messages.Pairwise fun a b => a.date ≤ b.date := by
  intro law
  obtain ⟨-, hsorted⟩ := law twoStored bob (some "alice") overtaken _ serves_overtaken rfl rfl
  have hle : (2 : Date) ≤ 1 := (List.pairwise_cons.mp hsorted).1 _ List.mem_cons_self
  exact absurd hle (by decide)

end ContactInboxVC

end AniChat
