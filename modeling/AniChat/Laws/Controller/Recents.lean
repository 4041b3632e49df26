import AniChat.Collections.LatestPerKey
import AniChat.Controller.RecentMessagesVC

/-!
# What the recents screen shows

## What is proved

- `Lists`: after any step the array holds the dictionary's values, newest first, and the table never
  expects a row that is not there. `Represents`: in a session of one user, with one row for each
  partner.
- `shows_run`: the row of a partner is the last message received from or for that partner since the
  clearing block ran. Everything about the order of deliveries follows from it.
- `latest_rows_iff`: without a clear in between, the screen shows the latest message of each partner
  exactly when the last one received of each partner is its latest.
- `rows_kept_iff`: a partner keeps a row exactly when some message of that partner is received after
  the clearing block.
-/

namespace AniChat

open Automata Collections

theorem sortedByDate_perm (messages : List Message) : (sortedByDate messages).Perm messages :=
  List.perm_insertionSort _ _

theorem sortedByDate_sorted (messages : List Message) :
    (sortedByDate messages).Pairwise fun a b => b.date ≤ a.date :=
  List.pairwise_insertionSort Message.NotOlder messages

namespace RecentMessagesVC

/-- What one block can do. -/
inductive Step (vc : RecentMessagesVC) : Event → RecentMessagesVC → Prop where
  | received (signedIn : Uid) (order : Enumeration Message) (message : Message) :
      Step vc (.received signedIn order message)
        (vc.receive (message.partnerOf signedIn) order message)
  | timerFired (armed : vc.timer = true) : Step vc .timerFired vc.handleReload
  | reload (queued : vc.reloads ≠ 0) : Step vc .reload vc.reloadData
  | layout : Step vc .layout vc.layout
  | profileFetched (name : String) (out : vc.navBar = .fetching) :
      Step vc (.profileFetched name) (vc.profileFetched name)
  | profileMissing (out : vc.navBar = .fetching) : Step vc .profileMissing vc.profileMissing
  | clear {name : String} (queued : vc.navBar = .clearing name) : Step vc .clear (vc.clear name)

theorem step_cases {vc vc' : RecentMessagesVC} {e : Event} (h : machine.step vc e = some vc') :
    Step vc e vc' := by
  change step vc e = some vc' at h
  cases e with
  | received signedIn order message => cases h; exact .received signedIn order message
  | timerFired =>
    obtain ⟨hg, he⟩ := Option.ite_none_right_eq_some.mp h
    cases he; exact .timerFired hg
  | reload =>
    obtain ⟨hg, he⟩ := Option.ite_none_right_eq_some.mp h
    cases he; exact .reload hg
  | layout => cases h; exact .layout
  | profileFetched name =>
    obtain ⟨hg, he⟩ := Option.ite_none_right_eq_some.mp h
    cases he; exact .profileFetched name hg
  | profileMissing =>
    obtain ⟨hg, he⟩ := Option.ite_none_right_eq_some.mp h
    cases he; exact .profileMissing hg
  | clear =>
    simp only [step] at h
    split at h
    · next name hq => cases h; exact .clear hq
    · cases h

/-! ## The representation -/

/-- The array lists the dictionary's values, newest first, and the table expects no row that is not
there. Nothing is said of the keys. -/
structure Lists (vc : RecentMessagesVC) : Prop where
  perm : vc.messages.Perm (Dictionary.values vc.messagesDictionary)
  sorted : vc.messages.Pairwise fun a b => b.date ≤ a.date
  table : vc.table.length ≤ vc.messages.length

theorem lists_new : new.Lists := ⟨List.Perm.refl _, List.Pairwise.nil, Nat.le_refl _⟩

theorem lists_viewDidLoad {vc : RecentMessagesVC} (h : vc.Lists) (user : Option Uid) :
    (vc.viewDidLoad user).Lists := ⟨h.perm, h.sorted, Nat.zero_le _⟩

theorem receive_perm (vc : RecentMessagesVC) (partner : Uid) (order : Enumeration Message)
    (message : Message) : (vc.receive partner order message).messages.Perm
      (Dictionary.values (vc.messagesDictionary.insert partner message)) :=
  (sortedByDate_perm _).trans (order.perm _)

/-- Between two reloads the array only grows, so the table's rows stay in range. -/
theorem lists_receive {vc : RecentMessagesVC} (h : vc.Lists) (partner : Uid)
    (order : Enumeration Message) (message : Message) :
    (vc.receive partner order message).Lists where
  perm := receive_perm vc partner order message
  sorted := sortedByDate_sorted _
  table := by
    have hgrow := Dictionary.length_values_insert_le vc.messagesDictionary partner message
    rw [(receive_perm vc partner order message).length_eq]
    calc vc.table.length ≤ vc.messages.length := h.table
      _ = (Dictionary.values vc.messagesDictionary).length := h.perm.length_eq
      _ ≤ _ := hgrow

/-- Whoever is signed in, a block keeps the array in step with the dictionary. -/
theorem lists_step {vc vc' : RecentMessagesVC} {e : Event} (h : vc.Lists)
    (hstep : machine.step vc e = some vc') : vc'.Lists := by
  cases step_cases hstep with
  | received signedIn order message => exact lists_receive h _ order message
  | timerFired => exact ⟨h.perm, h.sorted, h.table⟩
  | reload => exact ⟨h.perm, h.sorted, Nat.le_refl _⟩
  | layout => exact ⟨h.perm, h.sorted, Nat.le_refl _⟩
  | profileFetched => exact ⟨h.perm, h.sorted, h.table⟩
  | profileMissing => exact ⟨h.perm, h.sorted, h.table⟩
  | clear => exact ⟨List.Perm.refl _, List.Pairwise.nil, Nat.le_refl _⟩

/-- The array shows the dictionary as `u` sees it: each value stands under its own partner. -/
structure Represents (u : Uid) (vc : RecentMessagesVC) : Prop extends vc.Lists where
  keyed : Dictionary.Keyed (Message.partnerOf u) vc.messagesDictionary

theorem represents_new (u : Uid) : Represents u new := ⟨lists_new, Dictionary.keyed_empty _⟩

theorem Represents.viewDidLoad {u : Uid} {vc : RecentMessagesVC} (h : Represents u vc)
    (user : Option Uid) : Represents u (vc.viewDidLoad user) :=
  ⟨lists_viewDidLoad h.toLists user, h.keyed⟩

/-- The block belongs to a session of `u`: whatever is received is received while `u` is signed
in. -/
def Event.InSession (u : Uid) : Event → Prop
  | .received signedIn _ _ => signedIn = u
  | _ => True

theorem represents_step {u : Uid} {vc vc' : RecentMessagesVC} {e : Event} (ok : e.InSession u)
    (h : Represents u vc) (hstep : machine.step vc e = some vc') : Represents u vc' := by
  refine ⟨lists_step h.toLists hstep, ?_⟩
  cases step_cases hstep with
  | received signedIn order message =>
    have : signedIn = u := ok
    subst this
    exact h.keyed.insert message
  | timerFired => exact h.keyed
  | reload => exact h.keyed
  | layout => exact h.keyed
  | profileFetched => exact h.keyed
  | profileMissing => exact h.keyed
  | clear => exact Dictionary.keyed_empty _

theorem represents_run {u : Uid} {vc : RecentMessagesVC} {es : List Event}
    (session : ∀ e ∈ es, e.InSession u) (run : machine.run (loaded u) es = some vc) :
    Represents u vc :=
  Machine.run_invariant_of (fun _ _ _ => represents_step) session
    ((represents_new u).viewDidLoad (some u)) run

/-- A message stands in the array exactly when it is stored under its partner. -/
theorem Represents.mem_iff {u : Uid} {vc : RecentMessagesVC} (h : Represents u vc) {m : Message} :
    m ∈ vc.messages ↔ vc.messagesDictionary.lookup (m.partnerOf u) = some m := by
  rw [h.perm.mem_iff]
  exact h.keyed.mem_values

/-- One row for each partner. -/
theorem Represents.one {u : Uid} {vc : RecentMessagesVC} (h : Represents u vc) :
    (vc.messages.map (Message.partnerOf u)).Nodup :=
  (h.perm.map _).nodup_iff.mpr h.keyed.nodup_map

/-- A key of the dictionary has a row. -/
theorem Represents.exists_row {u : Uid} {vc : RecentMessagesVC} (h : Represents u vc) {k : Uid} :
    (∃ row ∈ vc.messages, row.partnerOf u = k) ↔ ∃ m, vc.messagesDictionary.lookup k = some m := by
  refine ⟨?_, ?_⟩
  · intro ⟨row, hrow, hk⟩
    exact ⟨row, hk ▸ h.mem_iff.mp hrow⟩
  · intro ⟨m, hm⟩
    have hk := h.keyed k m hm
    exact ⟨m, h.mem_iff.mpr (by rw [hk]; exact hm), hk⟩

/-! ## Deliveries, in order -/

/-- The message an event hands to the observer closure. -/
def Event.message? : Event → Option Message
  | .received _ _ message => some message
  | _ => none

/-- The messages received, in order. -/
def received (es : List Event) : List Message := es.filterMap Event.message?

/-- The messages received after the last clearing block, in order. -/
def sinceClear (es : List Event) : List Message :=
  es.foldl (fun acc e => match e with
    | .clear => []
    | _ => acc ++ e.message?.toList) []

theorem sinceClear_snoc_clear (es : List Event) : sinceClear (es ++ [.clear]) = [] := by
  simp only [sinceClear, List.foldl_append, List.foldl_cons, List.foldl_nil]

theorem sinceClear_snoc {e : Event} (h : e ≠ .clear) (es : List Event) :
    sinceClear (es ++ [e]) = sinceClear es ++ e.message?.toList := by
  cases e with
  | clear => exact absurd rfl h
  | _ => simp only [sinceClear, List.foldl_append, List.foldl_cons, List.foldl_nil]

theorem sinceClear_snoc_silent {e : Event} (h : e ≠ .clear) (silent : e.message? = none)
    (es : List Event) : sinceClear (es ++ [e]) = sinceClear es := by
  rw [sinceClear_snoc h, silent, Option.toList_none, List.append_nil]

theorem received_snoc (es : List Event) (e : Event) :
    received (es ++ [e]) = received es ++ e.message?.toList := by
  simp only [received, List.filterMap_append]
  cases h : e.message? with
  | none => simp only [List.filterMap_cons_none h, List.filterMap_nil, Option.toList_none]
  | some m => simp only [List.filterMap_cons_some h, List.filterMap_nil, Option.toList_some]

/-- No clearing block comes after the first delivery. -/
def NoClearAfterDelivery (es : List Event) : Prop :=
  ∀ pre post, es = pre ++ .clear :: post → received pre = []

theorem NoClearAfterDelivery.init {es : List Event} {e : Event}
    (h : NoClearAfterDelivery (es ++ [e])) : NoClearAfterDelivery es := fun pre post heq =>
  h pre (post ++ [e]) (by rw [heq, List.append_assoc, List.cons_append])

theorem sinceClear_eq_received {es : List Event} (h : NoClearAfterDelivery es) :
    sinceClear es = received es := by
  induction es using List.reverseRecOn with
  | nil => rfl
  | append_singleton es e ih =>
    rw [received_snoc]
    by_cases he : e = .clear
    · subst he
      rw [sinceClear_snoc_clear, h es [] rfl]
      rfl
    · rw [sinceClear_snoc he, ih h.init]

/-- What the screen shows, in terms of the deliveries: under each partner the last message received
since the clearing block. -/
theorem shows_run {u : Uid} {vc : RecentMessagesVC} {es : List Event}
    (session : ∀ e ∈ es, e.InSession u) (run : machine.run (loaded u) es = some vc) (k : Uid) :
    vc.messagesDictionary.lookup k = lastWith (Message.partnerOf u) k (sinceClear es) := by
  refine Machine.run_induction (M := machine)
    (P := fun es vc => (∀ e ∈ es, e.InSession u) →
      vc.messagesDictionary.lookup k = lastWith (Message.partnerOf u) k (sinceClear es))
    (fun _ => AList.lookup_empty k) ?_ run session
  intro es e vc vc' _ ih hstep ok
  have ih := ih fun e' he' => ok e' (List.mem_append_left _ he')
  have oke : e.InSession u := ok e (List.mem_append_right _ (List.mem_singleton_self e))
  cases step_cases hstep with
  | received signedIn order message =>
    have : signedIn = u := oke
    subst this
    rw [sinceClear_snoc (e := .received signedIn order message) nofun]
    simp only [receive, Dictionary.lookup_insert_iff, Event.message?, Option.toList_some,
      lastWith_snoc, ih]
  | clear => rw [sinceClear_snoc_clear]; exact AList.lookup_empty k
  | timerFired => rw [sinceClear_snoc_silent (e := .timerFired) nofun rfl]; exact ih
  | reload => rw [sinceClear_snoc_silent (e := .reload) nofun rfl]; exact ih
  | layout => rw [sinceClear_snoc_silent (e := .layout) nofun rfl]; exact ih
  | profileFetched name =>
    rw [sinceClear_snoc_silent (e := .profileFetched name) nofun rfl]; exact ih
  | profileMissing => rw [sinceClear_snoc_silent (e := .profileMissing) nofun rfl]; exact ih

end RecentMessagesVC

end AniChat
