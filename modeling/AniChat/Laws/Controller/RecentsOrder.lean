import AniChat.Laws.Controller.Recents

/-!
# The recents screen and the order of its deliveries

The observer closure writes a message under its partner whatever its date, and the clearing block of
the profile fetch empties the screen whenever it runs. So the screen depends on the order in which
the main queue runs these blocks, and on nothing else about it than two conditions:

- `latest_rows_iff`: it shows the latest message of each partner exactly when the last one received
  of each partner is its latest;
- `rows_kept_iff`: it keeps a row for each partner exactly when some message of each is received
  after the clearing block.
-/

namespace AniChat

open Automata Collections

namespace RecentMessagesVC

/-- Dates told apart: no two messages of the list share theirs. -/
theorem distinct_of_nodup {ms : List Message} (h : (ms.map Message.date).Nodup) :
    ∀ a ∈ ms, ∀ b ∈ ms, a.date = b.date → a = b := fun _ ha _ hb hd =>
  List.inj_on_of_nodup_map h ha hb hd

/-- A row is the last message received of its partner since the clearing block. -/
theorem mem_messages_iff {u : Uid} {vc : RecentMessagesVC} {es : List Event}
    (session : ∀ e ∈ es, e.InSession u) (run : machine.run (loaded u) es = some vc)
    (m : Message) : m ∈ vc.messages ↔
      lastWith (Message.partnerOf u) (m.partnerOf u) (sinceClear es) = some m := by
  rw [(represents_run session run).mem_iff, shows_run session run]

/-- With no clear after the first delivery, the rows are the latest of the messages received exactly
when each partner's last is its latest. -/
theorem latestRows_received_iff {u : Uid} {es : List Event} {vc : RecentMessagesVC}
    (distinct : ∀ a ∈ received es, ∀ b ∈ received es, a.date = b.date → a = b)
    (session : ∀ e ∈ es, e.InSession u) (noClear : NoClearAfterDelivery es)
    (run : machine.run (loaded u) es = some vc) :
    LatestRows (Message.partnerOf u) Message.date (received es) vc.messages ↔
      LatestLast (Message.partnerOf u) Message.date (received es) := by
  have hrep := represents_run session run
  have hrows : ∀ m, m ∈ vc.messages ↔
      lastWith (Message.partnerOf u) (m.partnerOf u) (received es) = some m := fun m => by
    rw [← sinceClear_eq_received noClear]
    exact mem_messages_iff session run m
  exact latestRows_iff_latestLast hrows hrep.one hrep.sorted distinct

/-- **The rows are the latest messages exactly when each partner's latest is received last.** The
messages `ms` come in the order of the deliveries among `es`, with no clear after the first. Two
orders that both end each partner with its latest show the same array. -/
theorem latest_rows_iff {u : Uid} {ms : List Message} {es : List Event} {vc : RecentMessagesVC}
    (distinct : (ms.map Message.date).Nodup) (delivers : (received es).Perm ms)
    (session : ∀ e ∈ es, e.InSession u) (noClear : NoClearAfterDelivery es)
    (run : machine.run (loaded u) es = some vc) :
    (LatestRows (Message.partnerOf u) Message.date ms vc.messages ↔
      LatestLast (Message.partnerOf u) Message.date (received es)) ∧
    ∀ es' vc', (received es').Perm ms → (∀ e ∈ es', e.InSession u) → NoClearAfterDelivery es' →
      machine.run (loaded u) es' = some vc' →
      LatestLast (Message.partnerOf u) Message.date (received es) →
      LatestLast (Message.partnerOf u) Message.date (received es') →
      vc.messages = vc'.messages := by
  have hdist : ∀ {fs}, (received fs).Perm ms →
      ∀ a ∈ received fs, ∀ b ∈ received fs, a.date = b.date → a = b := fun hp =>
    distinct_of_nodup ((hp.map Message.date).nodup_iff.mpr distinct)
  refine ⟨?_, ?_⟩
  · rw [← latestRows_received_iff (hdist delivers) session noClear run]
    exact ⟨fun h => h.congr fun m => delivers.mem_iff.symm,
      fun h => h.congr fun m => delivers.mem_iff⟩
  · intro es' vc' delivers' session' noClear' run' last last'
    have h := (latestRows_received_iff (hdist delivers) session noClear run).mpr last
    have h' := (latestRows_received_iff (hdist delivers') session' noClear' run').mpr last'
    exact h.unique h' (fun m => delivers.mem_iff.trans delivers'.mem_iff.symm) (hdist delivers)

/-- Two messages between Alice and Bob. -/
def older : Message := ⟨"alice", "bob", 1, "hi", some true⟩
def newer : Message := ⟨"bob", "alice", 2, "hello", some false⟩

/-- A message handed to Alice's screen. -/
def Event.toAlice (m : Message) : Event := .received "alice" (.stored Message) m

theorem inSession_toAlice (ms : List Message) :
    ∀ e ∈ ms.map Event.toAlice, e.InSession "alice" := fun e he => by
  obtain ⟨m, -, rfl⟩ := List.mem_map.mp he
  rfl

theorem noClear_toAlice (ms : List Message) : NoClearAfterDelivery (ms.map Event.toAlice) := by
  intro pre post heq
  have hmem : Event.clear ∈ ms.map Event.toAlice := by
    rw [heq]
    exact List.mem_append_right _ List.mem_cons_self
  obtain ⟨m, -, hm⟩ := List.mem_map.mp hmem
  cases hm

theorem latest_rows_older_newer : ∃ vc, machine.run (loaded "alice")
    ([older, newer].map Event.toAlice) = some vc ∧
    (LatestRows (Message.partnerOf "alice") Message.date [older, newer] vc.messages ↔
      LatestLast (Message.partnerOf "alice") Message.date
        (received ([older, newer].map Event.toAlice))) :=
  ⟨_, rfl, (@latest_rows_iff "alice" [older, newer] ([older, newer].map Event.toAlice) _
    (by decide) (List.Perm.refl _) (inSession_toAlice _) (noClear_toAlice _) rfl).1⟩

/-- The newer message is received first, and its row then shows the older one. -/
theorem stale_row : ¬ ∀ u ms es vc, (ms.map Message.date).Nodup → (received es).Perm ms →
    (∀ e ∈ es, e.InSession u) → NoClearAfterDelivery es →
    machine.run (loaded u) es = some vc →
    LatestRows (Message.partnerOf u) Message.date ms vc.messages := by
  intro law
  have h := law "alice" [newer, older] ([newer, older].map Event.toAlice) _ (by decide)
    (List.Perm.refl _) (inSession_toAlice _) (noClear_toAlice _) rfl
  obtain ⟨r, hr, -, hle⟩ := h.latest newer List.mem_cons_self
  have hrow : r = older := List.mem_singleton.mp hr
  subst hrow
  exact absurd hle (by decide)

/-! ## The clearing block -/

/-- **A partner keeps a row exactly when some message of that partner comes after the clearing
block.** -/
theorem rows_kept_iff {u : Uid} {es : List Event} {vc : RecentMessagesVC}
    (session : ∀ e ∈ es, e.InSession u) (run : machine.run (loaded u) es = some vc) :
    (∀ m ∈ received es, m.partnerOf u ∈ vc.messagesDictionary ∧
      ∃ row ∈ vc.messages, row.partnerOf u = m.partnerOf u) ↔
    ∀ m ∈ received es, ∃ m' ∈ sinceClear es, m'.partnerOf u = m.partnerOf u := by
  have hrep := represents_run session run
  refine forall₂_congr fun m _ => ?_
  rw [← AList.lookup_isSome, Option.isSome_iff_exists, hrep.exists_row, and_self,
    shows_run session run, exists_lastWith_iff]

/-- Bob's message is received between the profile's callback and the block it dispatched. -/
def clearedRun : List Event := [.profileFetched "Alice", .toAlice older, .clear]

theorem inSession_clearedRun : ∀ e ∈ clearedRun, e.InSession "alice" := by
  simp only [clearedRun, Event.toAlice, List.mem_cons, List.not_mem_nil, or_false,
    forall_eq_or_imp, forall_eq, Event.InSession, and_self]

theorem rows_kept_clearedRun : ∃ vc, machine.run (loaded "alice") clearedRun = some vc ∧
    ((∀ m ∈ received clearedRun, m.partnerOf "alice" ∈ vc.messagesDictionary ∧
      ∃ row ∈ vc.messages, row.partnerOf "alice" = m.partnerOf "alice") ↔
    ∀ m ∈ received clearedRun, ∃ m' ∈ sinceClear clearedRun,
      m'.partnerOf "alice" = m.partnerOf "alice") :=
  ⟨_, rfl, rows_kept_iff inSession_clearedRun rfl⟩

/-- The clearing block wipes Bob's row, and his message is never delivered again. -/
theorem erased_row : ¬ ∀ u es vc, (∀ e ∈ es, e.InSession u) →
    machine.run (loaded u) es = some vc → vc.navBar = .done →
    ∀ m ∈ received es, m.partnerOf u ∈ vc.messagesDictionary ∧
      ∃ row ∈ vc.messages, row.partnerOf u = m.partnerOf u := by
  intro law
  obtain ⟨-, row, hrow, -⟩ := law "alice" clearedRun _ inSession_clearedRun rfl rfl older
    List.mem_cons_self
  cases hrow

end RecentMessagesVC

end AniChat
