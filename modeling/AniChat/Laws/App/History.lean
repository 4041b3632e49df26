import AniChat.Laws.App.Conversations
import AniChat.Laws.Client.Refinement

/-!
# What a conversation has shown

The refinement of the board, read on the screens: a conversation's array is what its subscriber was
shown, so what holds of the board over time holds of the array.

## What is proved

- `append_only`: as long as a screen is there its array only grows, at its end, by messages it did
  not have.
-/

namespace AniChat

open Automata Collections

namespace Conversations

open ContactInboxVC (transcript)

variable {urls : Urls}

/-- The screen of a conversation is the subscriber to it. -/
theorem Follows.subscriber {db : Database} {r : Reader} {vc : ContactInboxVC} {u v : Uid}
    (h : Follows db r vc u v) (id : InboxId) :
    r.subscriber id.reader.owner = ⟨⟨u, some v⟩, r.delivered.map Prod.snd⟩ := by
  simp [Reader.subscriber, InboxId.reader, h.uid, h.partners]

/-- What the world does in a run from a reachable state. -/
theorem world_run_from {s s' : World × (InboxId → Option ContactInboxVC)} {fs : List Event}
    (run : (machine urls).run s fs = some s') :
    World.machine.run s.1 (fs.filterMap inWorld) = some s'.1 :=
  Machine.sync_run_left (Machine.restrict_run run)

/-- **A conversation only grows at its end.** Between any two moments of a run at which a screen of
`u` with `v` is there, whatever happens in between on all clients, nothing that it shows is taken
away, changed or moved: its array is what it was and, after that, messages between `u` and `v` under
keys that it did not show. -/
theorem append_only {s s' : World × (InboxId → Option ContactInboxVC)} {es fs : List Event}
    {id : InboxId} {vc vc' : ContactInboxVC} {u v : Uid}
    (run : (machine urls).run initial es = some s) (later : (machine urls).run s fs = some s')
    (alive : s.2 id = some vc) (alive' : s'.2 id = some vc') (observes : vc.observing = some (u, v)) :
    vc'.observing = some (u, v) ∧
      ∃ ids more : List MessageId, vc.messages = transcript s.1.db.messages ids ∧
        vc'.messages = vc.messages ++ transcript s'.1.db.messages more ∧ (ids ++ more).Nodup ∧
        ∀ m ∈ ids ++ more, ∃ info, s'.1.db.messages m = some info ∧ info.Between u v := by
  have hs := sound_run run
  have hs' := sound_run (Machine.run_append_eq_some.mpr ⟨s, run, later⟩)
  have hworld := world_run_from later
  obtain ⟨r, hr, hf⟩ := (hs.linked id vc alive).attached u v observes
  -- the board between the two moments
  have hgrows : s.1.board.Grows s'.1.board := Board.grows_run
    (World.board_run hs.consistent hs.observed (World.single_run (world_run run)) hworld)
  have hsubscribed : s.1.board.subscribers id.reader =
      some ⟨⟨u, some v⟩, r.delivered.map Prod.snd⟩ := by
    rw [← hf.subscriber id]
    simp [World.board, hr]
  obtain ⟨sub, hsub, hinterest, more, hmore⟩ := hgrows.subscribers _ _ hsubscribed
  -- the screen at the second moment has the same subscriber
  obtain ⟨r', hr', rfl⟩ := Option.map_eq_some_iff.mp hsub
  obtain ⟨u', v', hobs', hf'⟩ := (hs'.linked id vc' alive').reader hr'
  have hsubscriber := hf'.subscriber id
  rw [hsubscriber] at hinterest hmore
  cases hinterest
  have hshown : r'.delivered.map Prod.snd = r.delivered.map Prod.snd ++ more := hmore.symm
  refine ⟨hobs', r.delivered.map Prod.snd, more, hf.messages, ?_, ?_⟩
  · rw [hf'.messages, hshown, hf.messages]
    show List.filterMap _ _ = _
    rw [List.filterMap_append]
    congr 1
    -- what was shown was stored, and is stored still
    apply List.filterMap_congr
    intro m hm
    obtain ⟨e, he, rfl⟩ := List.mem_map.mp hm
    obtain ⟨info, hinfo, -⟩ := (hs.observed _ r hr).delivered_stored he
    have hstays : s'.1.db.messages e.2 = some info := hgrows.posted e.2 info hinfo
    rw [hinfo, hstays]
  · obtain ⟨hnodup, hposted⟩ :=
      World.board_sound (world_run (Machine.run_append_eq_some.mpr ⟨s, run, later⟩)) id.reader _ hsub
    rw [hsubscriber] at hnodup hposted
    simp only [hshown] at hnodup hposted
    exact ⟨hnodup, hposted⟩

/-- The run of Alice and Bob up to where Bob's observer has its entry, and the rest of it. -/
theorem append_only_aliceAndBob : ∃ s s' vc vc',
    (machine .dotted).run initial (aliceAndBob.take 11) = some s ∧
    (machine .dotted).run s (aliceAndBob.drop 11) = some s' ∧ s.2 ⟨1, 0⟩ = some vc ∧
    s'.2 ⟨1, 0⟩ = some vc' ∧ vc'.messages ≠ vc.messages ∧ vc.messages <+: vc'.messages := by
  obtain ⟨-, ids, more, -, hmessages, -⟩ :=
    @append_only .dotted _ _ (aliceAndBob.take 11) (aliceAndBob.drop 11) ⟨1, 0⟩ _ _ "bob" "alice" rfl
      rfl rfl rfl rfl
  exact ⟨_, _, _, _, rfl, rfl, rfl, rfl, List.cons_ne_nil _ _, _, hmessages.symm⟩

end Conversations

end AniChat
