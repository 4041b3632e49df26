import AniChat.Laws.App.Conversations
import AniChat.Laws.Client.Rest

/-!
# Every message is shown

`eventually_delivered` ends at the observers. Here the screens follow: the closures of the reads run
on them, and then the reloads they dispatched.

## What is proved

- `Backed`: what a screen's observer waits for, the screen waits for, so no closure is stuck on a
  screen that is gone.
- `quiet_of_atRest`: where no step that needs nobody is possible, nothing is in flight and no reload
  is outstanding.
- `eventually_shown`: when no write is rejected, every message sent so far comes to stand on every
  open screen of its conversation, whatever the order of the steps.
-/

namespace AniChat

open Automata Collections

/-- The read is outstanding, or its closure is. -/
def Read.Pending (x : Read) : Prop := x = .requested ∨ ∃ value, x = .served value

/-- The event of a screen needs nobody to do anything. -/
def Inboxes.Event.InFlight : Inboxes.Event → Prop
  | .childAdded _ _ => True
  | .serve _ _ => True
  | .read _ _ _ => True
  | .reload => True
  | _ => False

namespace Conversations

variable {urls : Urls}

/-- The event needs nobody to do anything. -/
def Event.InFlight : Event → Prop
  | .world e => e.1.InFlight
  | .inbox _ e => e.InFlight

/-! ## Nothing waits for a screen that is gone -/

/-- What the observer of screen `id` waits for, the screen waits for, and the observer of a released
screen knows. -/
structure BackedBy (x : Option ContactInboxVC) (r : Reader) : Prop where
  pending : ∀ v m, (r.reads (v, m)).Pending → ∃ vc, x = some vc ∧ m ∈ vc.requested
  released : x = none → r.alive = false

/-- That holds of every screen. -/
def Backed (s : World × (InboxId → Option ContactInboxVC)) : Prop :=
  ∀ id r, s.1.readers id.reader = some r → BackedBy (s.2 id) r

/-- An observer that was just attached waits for nothing. -/
theorem backedBy_attached (uid v : Uid) (vc : ContactInboxVC) :
    BackedBy (some vc) (.attached uid [v]) where
  pending _ _ h := by rcases h with h | ⟨_, h⟩ <;> cases h
  released h := by cases h

/-- A screen that waits for what it waited for. -/
theorem BackedBy.same {x x' : Option ContactInboxVC} {r : Reader} (h : BackedBy x r)
    (requested : ∀ vc, x = some vc → ∃ vc', x' = some vc' ∧ vc'.requested = vc.requested)
    (gone : x' = none → x = none) : BackedBy x' r where
  pending v m hpending := by
    obtain ⟨vc, hvc, hm⟩ := h.pending v m hpending
    obtain ⟨vc', hvc', hrequested⟩ := requested vc hvc
    exact ⟨vc', hvc', hrequested ▸ hm⟩
  released hnone := h.released (gone hnone)

theorem backedBy_childAdded {x : Option ContactInboxVC} {r : Reader} (h : BackedBy x r)
    (vc : ObjectId) (v : Uid) (m : MessageId) :
    BackedBy (x.map fun y => y.childAdded m) (r.childAdded (.inbox vc) (v, m)) where
  pending v' m' hpending := by
    change (Function.update r.reads (v, m) _ (v', m')).Pending at hpending
    by_cases he : (v', m') = (v, m)
    · cases he
      rw [Function.update_self] at hpending
      cases hx : x with
      | none =>
        rw [h.released hx] at hpending
        rcases hpending with hp | ⟨_, hp⟩ <;> cases hp
      | some y => exact ⟨_, rfl, List.mem_cons_self⟩
    · rw [Function.update_of_ne he] at hpending
      obtain ⟨y, rfl, hm⟩ := h.pending v' m' hpending
      exact ⟨_, rfl, List.mem_cons_of_mem _ hm⟩
  released hnone := h.released (Option.map_eq_none_iff.mp hnone)

theorem backedBy_serve {x : Option ContactInboxVC} {r : Reader} (h : BackedBy x r) {v : Uid}
    {m : MessageId} (out : r.reads (v, m) = .requested) (value : Option MessageInfo) :
    BackedBy x (r.serve (v, m) value) where
  pending v' m' hpending := by
    by_cases he : (v', m') = (v, m)
    · cases he
      exact h.pending v m (.inl out)
    · simp only [Reader.serve, Function.update_of_ne he] at hpending
      exact h.pending v' m' hpending
  released := h.released

/-- The closure of one read leaves the others of a screen that observes one conversation. -/
theorem backedBy_read {vc : ContactInboxVC} {r : Reader} (h : BackedBy (some vc) r) {v : Uid}
    {m : MessageId} (single : ∀ v' m', r.reads (v', m') ≠ .unseen → v' = v)
    (value : Option MessageInfo) : BackedBy (some (vc.read m value)) (r.read (v, m) value) where
  pending v' m' hpending := by
    by_cases he : (v', m') = (v, m)
    · simp only [Reader.read, he, Function.update_self] at hpending
      rcases hpending with hp | ⟨_, hp⟩ <;> cases hp
    · simp only [Reader.read, Function.update_of_ne he] at hpending
      obtain ⟨vc', hvc', hm⟩ := h.pending v' m' hpending
      cases hvc'
      refine ⟨_, rfl, ?_⟩
      have hv : v' = v := by
        apply single v' m'
        intro hunseen
        rw [hunseen] at hpending
        rcases hpending with hp | ⟨_, hp⟩ <;> cases hp
      have hne : m' ≠ m := fun hm' => he (by rw [hv, hm'])
      rw [ContactInboxVC.read_requested]
      exact (List.mem_erase_of_ne hne).mpr hm
  released hnone := by cases hnone

theorem backedBy_release {vc : ContactInboxVC} {r : Reader} (h : BackedBy (some vc) r)
    (idle : vc.requested = []) : BackedBy none { r with alive := false } where
  pending v m hpending := by
    obtain ⟨vc', hvc', hm⟩ := h.pending v m hpending
    cases hvc'
    rw [idle] at hm
    exact (List.not_mem_nil hm).elim
  released _ := rfl

theorem backed_act {w w' : World} {id : InboxId} {e : Inboxes.Event} {x x' : Option ContactInboxVC}
    {r' : Reader} (linked : ∀ vc, x = some vc → LinkedAt w id vc)
    (h : ∀ r, w.readers id.reader = some r → BackedBy x r)
    (hrun : World.machine.run w (Inboxes.inWorld id e).toList = some w') (hact : Act urls x e x')
    (reader : w'.readers id.reader = some r') : BackedBy x' r' := by
  -- an event the world sees is a step of it
  have hstep : ∀ e', Inboxes.inWorld id e = some e' → World.machine.step w e' = some w' := by
    intro e' he'
    rcases inbox_world hrun with ⟨hnone, -⟩ | ⟨e'', he'', hstep⟩
    · cases hnone.symm.trans he'
    · cases he''.symm.trans he'
      exact hstep
  -- one it does not see leaves the observer
  have hstays : Inboxes.inWorld id e = none → w.readers id.reader = some r' := by
    intro hnone
    rcases inbox_world hrun with ⟨-, hw⟩ | ⟨e', he', -⟩
    · rw [← hw]
      exact reader
    · cases hnone.symm.trans he'
  cases hact with
  | opened uid name email avatarUrl user =>
    have hworld := hstep _ rfl
    have hnew : w.readers id.reader = none := World.attach_new hworld
    cases World.step_cases hworld with
    | observeMessagesSignedOut => cases hnew.symm.trans reader
    | observeMessages =>
      cases (Function.update_self ..).symm.trans reader
      exact backedBy_attached _ _ _
  | dropped v m =>
    cases World.step_cases (hstep _ rfl) with
    | @childAdded _ r _ _ hr =>
      cases (Function.update_self ..).symm.trans reader
      exact backedBy_childAdded (h r hr) id.vc v m
  | childAdded vc v m =>
    cases World.step_cases (hstep _ rfl) with
    | @childAdded _ r _ _ hr =>
      cases (Function.update_self ..).symm.trans reader
      exact backedBy_childAdded (h r hr) id.vc v m
  | serve _ v m =>
    cases World.step_cases (hstep _ rfl) with
    | @serve _ r _ _ hr out =>
      cases (Function.update_self ..).symm.trans reader
      exact backedBy_serve (h r hr) out _
  | @read vc v m value out =>
    cases World.step_cases (hstep _ rfl) with
    | @read _ r _ _ _ hr served =>
      cases (Function.update_self ..).symm.trans reader
      obtain ⟨u, v₀, -, hf⟩ := (linked vc rfl).reader hr
      have hv : v = v₀ := hf.seen v m (by rw [served]; exact nofun)
      subst hv
      exact backedBy_read (h r hr) hf.seen value
  | @reload vc =>
    refine (h r' (hstays rfl)).same ?_ nofun
    intro vc₀ hvc₀
    cases hvc₀
    exact ⟨_, rfl, rfl⟩
  | layout vc =>
    refine (h r' (hstays rfl)).same ?_ nofun
    intro vc₀ hvc₀
    cases hvc₀
    exact ⟨_, rfl, rfl⟩
  | edit vc text =>
    refine (h r' (hstays rfl)).same ?_ nofun
    intro vc₀ hvc₀
    cases hvc₀
    exact ⟨_, rfl, rfl⟩
  | @handleSend vc m date sending =>
    have hsame : w.readers id.reader = some r' := by
      cases sending with
      | none => exact hstays rfl
      | some sending =>
        rw [← reader]
        exact (World.readers_untouched (hstep _ rfl) nofun).symm
    refine (h r' hsame).same ?_ nofun
    intro vc₀ hvc₀
    cases hvc₀
    exact ⟨_, rfl, ContactInboxVC.handleSend_requested vc⟩
  | @release vc attached idle observes =>
    cases attached with
    | false =>
      have hnone : vc.observing = none := by
        cases hobs : vc.observing with
        | none => rfl
        | some p => rw [hobs] at observes; cases observes
      cases ((linked vc rfl).unattached hnone).symm.trans (hstays rfl)
    | true =>
      cases World.step_cases (hstep _ rfl) with
      | @release _ r hr =>
        cases (Function.update_self ..).symm.trans reader
        exact backedBy_release (h r hr) idle.1

theorem backed_step {s s' : World × (InboxId → Option ContactInboxVC)} {e : Event} (sound : Sound s)
    (h : Backed s) (hstep : (machine urls).step s e = some s') : Backed s' := by
  intro id r' reader
  rcases step_cases hstep with ⟨e', rfl, hworld, hvcs⟩ | ⟨id', e', x, rfl, -, hrun, hact, hvcs⟩
  · rw [World.readers_untouched hworld (World.reader?_foreign e'.2 id)] at reader
    rw [hvcs]
    exact h id r' reader
  rw [hvcs, Function.update_apply]
  split
  · next hid =>
    subst hid
    exact backed_act (sound.linked id) (h id) hrun (act_cases hact) reader
  · next hid =>
    have same : s'.1.readers id.reader = s.1.readers id.reader := by
      rcases inbox_world hrun with ⟨-, hw⟩ | ⟨we, he, hwe⟩
      · rw [hw]
      · exact World.readers_untouched hwe (inWorld_reader? he hid)
    exact h id r' (same.symm.trans reader)

/-! ## At rest -/

/-- A step of the world alone. -/
theorem world_enabled {s : World × (InboxId → Option ContactInboxVC)} {w' : World}
    {e : World.Event} (foreign : e.OfInbox = false) (hworld : World.machine.step s.1 e = some w') :
    (machine urls).step s (.world ⟨e, foreign⟩) = some (w', s.2) := by
  refine Machine.restrict_step_eq_some.mpr ⟨trivial, Machine.sync_step_eq_some.mpr ⟨?_, rfl⟩⟩
  exact Machine.run_cons_eq_some.mpr ⟨w', hworld, rfl⟩

/-- A step of the world with one of a screen. -/
theorem inbox_enabled {s : World × (InboxId → Option ContactInboxVC)} {w' : World} {id : InboxId}
    {e : Inboxes.Event} {we : World.Event} {x : Option ContactInboxVC}
    (inWorld : Inboxes.inWorld id e = some we) (hworld : World.machine.step s.1 we = some w')
    (hact : Inboxes.act urls (s.2 id) e = some x) (agrees : Agrees s (.inbox id e)) :
    (machine urls).step s (.inbox id e) = some (w', Function.update s.2 id x) := by
  refine Machine.restrict_step_eq_some.mpr ⟨agrees, Machine.sync_step_eq_some.mpr ⟨?_, ?_⟩⟩
  · show World.machine.run s.1 (Inboxes.inWorld id e).toList = some w'
    rw [inWorld]
    exact Machine.run_cons_eq_some.mpr ⟨w', hworld, rfl⟩
  · refine Machine.run_cons_eq_some.mpr ⟨Function.update s.2 id x, ?_, rfl⟩
    exact Option.map_eq_some_iff.mpr ⟨x, hact, rfl⟩

/-- What is possible in the world alone is possible with the screens. -/
theorem enabled_of_world {s : World × (InboxId → Option ContactInboxVC)} (h : Backed s)
    {we : World.Event} (inFlight : we.InFlight) (accepts : we.Accepts)
    (hworld : World.machine.step s.1 we ≠ none) :
    ∃ e, (e.InFlight ∧ Accepts e) ∧ (machine urls).step s e ≠ none := by
  obtain ⟨w', hw'⟩ := Option.ne_none_iff_exists'.mp hworld
  have alone : ∀ foreign : we.OfInbox = false,
      ∃ e, (e.InFlight ∧ Accepts e) ∧ (machine urls).step s e ≠ none := by
    intro foreign
    refine ⟨.world ⟨we, foreign⟩, ⟨inFlight, fun e' he' => ?_⟩, ?_⟩
    · cases he'
      exact accepts
    · rw [world_enabled foreign hw']
      exact Option.some_ne_none _
  have together : ∀ {id : InboxId} {e : Inboxes.Event} {x : Option ContactInboxVC},
      Inboxes.inWorld id e = some we → Inboxes.act urls (s.2 id) e = some x → e.InFlight →
      Agrees s (.inbox id e) → ∃ e, (e.InFlight ∧ Accepts e) ∧ (machine urls).step s e ≠ none := by
    intro id e x hwe hact hfly hagrees
    refine ⟨.inbox id e, ⟨hfly, fun e' he' => ?_⟩, ?_⟩
    · cases hwe.symm.trans he'
      exact accepts
    · rw [inbox_enabled hwe hw' hact hagrees]
      exact Option.some_ne_none _
  cases World.step_cases hw' with
  | settle => exact alone rfl
  | completion => exact alone rfl
  | @partnerAdded id v _ _ reader owner =>
    obtain ⟨c, o⟩ := id
    subst owner
    exact alone rfl
  | @childAdded id r v m reader =>
    obtain ⟨c, o⟩ := id
    cases o with
    | recents vc => exact alone rfl
    | inbox vc =>
      cases hvc : s.2 ⟨c, vc⟩ with
      | none => exact @together ⟨c, vc⟩ (.childAdded v m) _ rfl (by rw [hvc]; rfl) trivial trivial
      | some y => exact @together ⟨c, vc⟩ (.childAdded v m) _ rfl (by rw [hvc]; rfl) trivial trivial
  | @serve id r v m reader =>
    obtain ⟨c, o⟩ := id
    cases o with
    | recents vc => exact alone rfl
    | inbox vc =>
      cases hvc : s.2 ⟨c, vc⟩ with
      | none => exact @together ⟨c, vc⟩ (.serve v m) _ rfl (by rw [hvc]; rfl) trivial trivial
      | some y => exact @together ⟨c, vc⟩ (.serve v m) _ rfl (by rw [hvc]; rfl) trivial trivial
  | @read id r v m value reader served =>
    obtain ⟨c, o⟩ := id
    cases o with
    | recents vc => exact alone rfl
    | inbox vc =>
      obtain ⟨y, hy, hm⟩ := (h ⟨c, vc⟩ r reader).pending v m (.inr ⟨value, served⟩)
      refine @together ⟨c, vc⟩ (.read v m value) (some (y.read m value)) rfl ?_ trivial trivial
      rw [hy]
      exact congrArg (Option.map some) (if_pos hm)
  | _ => exact inFlight.elim

/-- Where no step that needs nobody and rejects nothing is possible, nothing is in flight, and every
screen has read its array. -/
theorem quiet_of_atRest {s : World × (InboxId → Option ContactInboxVC)} (sound : Sound s)
    (h : Backed s) (rest : (machine urls).AtRest (fun e => e.InFlight ∧ Accepts e) s) :
    s.1.Quiet ∧ ∀ id vc, s.2 id = some vc → vc.reloads = 0 := by
  refine ⟨World.quiet_of_atRest sound.consistent fun we hwe => ?_, fun id vc hvc => ?_⟩
  · by_contra hworld
    obtain ⟨e, he, hstep⟩ := @enabled_of_world urls _ h _ hwe.1 hwe.2 hworld
    exact hstep (rest e he)
  · by_contra queued
    have hstep := rest (.inbox id .reload) ⟨trivial, fun e' he' => by cases he'⟩
    have hact : Inboxes.act urls (s.2 id) .reload = some (some vc.reloadData) := by
      rw [hvc]
      exact congrArg (Option.map some) (if_pos queued)
    have hright : (Inboxes.machine urls).run s.2 [(id, .reload)] =
        some (Function.update s.2 id (some vc.reloadData)) :=
      Machine.run_cons_eq_some.mpr ⟨_, Option.map_eq_some_iff.mpr ⟨_, hact, rfl⟩, rfl⟩
    have hsome : (machine urls).step s (.inbox id .reload) =
        some (s.1, Function.update s.2 id (some vc.reloadData)) :=
      Machine.restrict_step_eq_some.mpr
        ⟨trivial, Machine.sync_step_eq_some.mpr ⟨rfl, hright⟩⟩
    cases hsome.symm.trans hstep

/-- Where nothing is in flight and every screen has read its array, none of these steps is
possible. -/
theorem atRest_of_quiet {s : World × (InboxId → Option ContactInboxVC)} (quiet : s.1.Quiet)
    (reloaded : ∀ id vc, s.2 id = some vc → vc.reloads = 0) :
    (machine urls).AtRest Event.InFlight s := by
  intro e inFlight
  by_contra hstep
  obtain ⟨s', hs'⟩ := Option.ne_none_iff_exists'.mp hstep
  have hworld : ∀ {we : World.Event} {w' : World}, we.InFlight →
      World.machine.step s.1 we = some w' → False := by
    intro we w' hwe hw'
    cases hw'.symm.trans (quiet.atRest we hwe)
  rcases step_cases hs' with ⟨e', rfl, hw, -⟩ | ⟨id, e', x, rfl, -, hrun, hact, -⟩
  · exact hworld inFlight hw
  rcases inbox_world hrun with ⟨hnone, -⟩ | ⟨we, hwe, hw⟩
  · have hacts := act_cases hact
    generalize hx : s.2 id = y at hacts
    cases hacts with
    | @reload vc queued => exact queued (reloaded id vc hx)
    | childAdded => cases hnone
    | dropped => cases hnone
    | serve => cases hnone
    | read => cases hnone
    | _ => exact inFlight.elim
  · refine hworld ?_ hw
    cases e' with
    | childAdded => cases hwe; trivial
    | serve => cases hwe; trivial
    | read => cases hwe; trivial
    | reload => cases hwe
    | _ => exact inFlight.elim

/-! ## One step less -/

/-- The steps that may still come: those of the world, each of which may dispatch one reload, and the
reloads dispatched. -/
def remaining (b : Bounds) (screens : Finset InboxId)
    (s : World × (InboxId → Option ContactInboxVC)) : ℕ :=
  2 * s.1.remaining b + ∑ id ∈ screens, (s.2 id).elim 0 ContactInboxVC.reloads

/-- A reachable state within bounds. -/
structure Bounded (b : Bounds) (screens : Finset InboxId)
    (s : World × (InboxId → Option ContactInboxVC)) : Prop where
  sound : Sound s
  backed : Backed s
  within : s.1.Within b
  screens : ∀ id vc, s.2 id = some vc → id ∈ screens

theorem bounded_run {s : World × (InboxId → Option ContactInboxVC)} {es : List Event}
    (run : (machine urls).run initial es = some s) : ∃ b screens, Bounded b screens s := by
  obtain ⟨b, hb⟩ := World.within_run (world_run run)
  have hbacked : Sound s ∧ Backed s := by
    refine Machine.run_invariant (P := fun s => Sound s ∧ Backed s) ?_ ?_ run
    · intro s e s' h hstep
      exact ⟨sound_step h.1 hstep, backed_step h.1 h.2 hstep⟩
    · exact ⟨⟨World.consistent_initial, World.observed_initial, fun _ _ hvc => by cases hvc⟩,
        fun _ _ hr => by cases hr⟩
  have hscreens : ∃ screens : Finset InboxId, ∀ id vc, s.2 id = some vc → id ∈ screens := by
    refine Machine.run_invariant (P := fun s : World × (InboxId → Option ContactInboxVC) =>
      ∃ screens : Finset InboxId, ∀ id vc, s.2 id = some vc → id ∈ screens) ?_ ?_ run
    · rintro s e s' ⟨screens, h⟩ hstep
      rcases step_cases hstep with ⟨_, -, -, hvcs⟩ | ⟨id', _, x, -, -, -, -, hvcs⟩
      · exact ⟨screens, hvcs ▸ h⟩
      · refine ⟨insert id' screens, fun id vc hvc => ?_⟩
        by_cases hid : id = id'
        · rw [hid]
          exact Finset.mem_insert_self _ _
        · rw [hvcs, Function.update_of_ne hid] at hvc
          exact Finset.mem_insert_of_mem (h id vc hvc)
    · exact ⟨∅, fun _ _ hvc => by cases hvc⟩
  obtain ⟨screens, hscreens⟩ := hscreens
  exact ⟨b, screens, hbacked.1, hbacked.2, hb, hscreens⟩

/-- A step that needs nobody keeps a living screen, and what it observes, and makes none. -/
theorem act_inFlight {x x' : Option ContactInboxVC} {e : Inboxes.Event} (h : Act urls x e x')
    (inFlight : e.InFlight) :
    (x = none ∧ x' = none) ∨ ∃ vc vc', x = some vc ∧ x' = some vc' ∧ vc'.observing = vc.observing := by
  cases h with
  | dropped => exact .inl ⟨rfl, rfl⟩
  | childAdded vc => exact .inr ⟨vc, _, rfl, rfl, rfl⟩
  | serve =>
    cases x with
    | none => exact .inl ⟨rfl, rfl⟩
    | some vc => exact .inr ⟨vc, vc, rfl, rfl, rfl⟩
  | @read vc _ m value => exact .inr ⟨vc, _, rfl, rfl, vc.read_observing m value⟩
  | @reload vc => exact .inr ⟨vc, _, rfl, rfl, rfl⟩
  | _ => exact inFlight.elim

/-- A read may dispatch one reload, and a reload is one less. -/
theorem act_reloads {x x' : Option ContactInboxVC} {e : Inboxes.Event} (h : Act urls x e x')
    (inFlight : e.InFlight) (id : InboxId) :
    (Inboxes.inWorld id e = none ∧
        x'.elim 0 ContactInboxVC.reloads < x.elim 0 ContactInboxVC.reloads) ∨
      (∃ we, Inboxes.inWorld id e = some we ∧ we.InFlight) ∧
        x'.elim 0 ContactInboxVC.reloads ≤ x.elim 0 ContactInboxVC.reloads + 1 := by
  cases h with
  | dropped => exact .inr ⟨⟨_, rfl, trivial⟩, Nat.zero_le _⟩
  | childAdded => exact .inr ⟨⟨_, rfl, trivial⟩, Nat.le_succ _⟩
  | serve => exact .inr ⟨⟨_, rfl, trivial⟩, Nat.le_succ _⟩
  | @read vc _ m value =>
    refine .inr ⟨⟨_, rfl, trivial⟩, ?_⟩
    cases value with
    | none => exact Nat.le_succ _
    | some info => exact le_rfl
  | @reload vc queued =>
    refine .inl ⟨rfl, ?_⟩
    simp only [Option.elim_some, ContactInboxVC.reloadData]
    omega
  | _ => exact inFlight.elim

theorem remaining_step {b : Bounds} {screens : Finset InboxId}
    {s s' : World × (InboxId → Option ContactInboxVC)} {e : Event} (inFlight : e.InFlight)
    (h : Bounded b screens s) (hstep : (machine urls).step s e = some s') :
    Bounded b screens s' ∧ remaining b screens s' < remaining b screens s := by
  have hsound := sound_step h.sound hstep
  have hbacked := backed_step h.sound h.backed hstep
  have hinv : s.1.Consistent ∧ s.1.Observed ∧ s.1.Within b :=
    ⟨h.sound.consistent, h.sound.observed, h.within⟩
  rcases step_cases hstep with ⟨e', rfl, hworld, hvcs⟩ | ⟨id, e', x, rfl, -, hrun, hact, hvcs⟩
  · obtain ⟨⟨-, -, hwithin⟩, hless⟩ := World.remaining_step inFlight hinv hworld
    refine ⟨⟨hsound, hbacked, hwithin, hvcs ▸ h.screens⟩, ?_⟩
    unfold remaining
    rw [hvcs]
    omega
  have hacts := act_cases hact
  have hscreens : ∀ id' vc, s'.2 id' = some vc → id' ∈ screens := by
    intro id' vc hvc
    by_cases hid : id' = id
    · subst hid
      rw [hvcs, Function.update_self] at hvc
      rcases act_inFlight hacts inFlight with ⟨-, hnone⟩ | ⟨vc₀, -, hx, -⟩
      · cases hnone.symm.trans hvc
      · exact h.screens id' vc₀ hx
    · rw [hvcs, Function.update_of_ne hid] at hvc
      exact h.screens id' vc hvc
  -- the reloads of all screens differ by those of this one
  have hsum : ∑ j ∈ screens, (s'.2 j).elim 0 ContactInboxVC.reloads +
      (s.2 id).elim 0 ContactInboxVC.reloads =
        ∑ j ∈ screens, (s.2 j).elim 0 ContactInboxVC.reloads + x.elim 0 ContactInboxVC.reloads := by
    rw [hvcs]
    rcases act_inFlight hacts inFlight with ⟨hnone, rfl⟩ | ⟨vc₀, -, hx, -⟩
    · rw [show Function.update s.2 id none = s.2 from Function.update_eq_self_iff.mpr hnone.symm,
        hnone]
    · exact sum_update_add (fun x : Option ContactInboxVC => x.elim 0 ContactInboxVC.reloads)
        (h.screens id vc₀ hx)
  rcases act_reloads hacts inFlight id with ⟨hnone, hless⟩ | ⟨⟨we, hwe, hfly⟩, hle⟩
  · rw [hnone] at hrun
    have hw : s'.1 = s.1 := (Option.some.inj hrun).symm
    refine ⟨⟨hsound, hbacked, hw ▸ h.within, hscreens⟩, ?_⟩
    unfold remaining
    rw [hw]
    omega
  · rw [hwe] at hrun
    obtain ⟨t, ht, hnil⟩ := Machine.run_cons_eq_some.mp hrun
    obtain ⟨⟨-, -, hwithin⟩, hless⟩ := World.remaining_step hfly hinv (ht.trans hnil)
    refine ⟨⟨hsound, hbacked, hwithin, hscreens⟩, ?_⟩
    unfold remaining
    omega

/-! ## Shown in the end -/

/-- What steps that need nobody leave of the calls and the screens. -/
structure Kept (s s' : World × (InboxId → Option ContactInboxVC)) : Prop where
  world : s.1.Kept s'.1
  screens : ∀ id vc, s.2 id = some vc →
    ∃ vc', s'.2 id = some vc' ∧ vc'.observing = vc.observing

theorem kept_step {s s' : World × (InboxId → Option ContactInboxVC)} {e : Event}
    (inFlight : e.InFlight) (hstep : (machine urls).step s e = some s') : Kept s s' := by
  rcases step_cases hstep with ⟨e', rfl, hworld, hvcs⟩ | ⟨id, e', x, rfl, -, hrun, hact, hvcs⟩
  · exact ⟨World.kept_step inFlight hworld, fun id vc hvc => ⟨vc, hvcs ▸ hvc, rfl⟩⟩
  have hacts := act_cases hact
  constructor
  · rcases act_reloads hacts inFlight id with ⟨hnone, -⟩ | ⟨⟨we, hwe, hfly⟩, -⟩
    · rw [hnone] at hrun
      rw [← Option.some.inj hrun]
      exact World.Kept.refl _
    · rw [hwe] at hrun
      obtain ⟨t, ht, hnil⟩ := Machine.run_cons_eq_some.mp hrun
      exact World.kept_step hfly (ht.trans hnil)
  · intro id' vc hvc
    rw [hvcs]
    by_cases hid : id' = id
    · subst hid
      rw [Function.update_self]
      rcases act_inFlight hacts inFlight with ⟨hnone, -⟩ | ⟨vc₀, vc', hx, hx', hobs⟩
      · cases hnone.symm.trans hvc
      · cases hx.symm.trans hvc
        exact ⟨vc', hx', hobs⟩
    · rw [Function.update_of_ne hid]
      exact ⟨vc, hvc, rfl⟩

theorem kept_run {s s' : World × (InboxId → Option ContactInboxVC)} {fs : List Event}
    (inFlight : ∀ e ∈ fs, e.InFlight) (run : (machine urls).run s fs = some s') : Kept s s' := by
  refine Machine.run_invariant_of (P := fun t => Kept s t) ?_ inFlight
    ⟨World.Kept.refl _, fun _ vc hvc => ⟨vc, hvc, rfl⟩⟩ run
  intro t e t' he h hstep
  have hstep' := kept_step he hstep
  refine ⟨h.world.trans hstep'.world, fun id vc hvc => ?_⟩
  obtain ⟨vc₁, hvc₁, hobs₁⟩ := h.screens id vc hvc
  obtain ⟨vc₂, hvc₂, hobs₂⟩ := hstep'.screens id vc₁ hvc₁
  exact ⟨vc₂, hvc₂, hobs₂.trans hobs₁⟩

/-- At rest, with no write ever rejected, a message that was sent before stands on the screens of its
conversation that were open before. -/
theorem shown_at_rest {s s' : World × (InboxId → Option ContactInboxVC)} {es : List Event}
    (run : (machine urls).run initial es = some s') (accepts : ∀ e ∈ es, Accepts e) (kept : Kept s s')
    (quiet : s'.1.Quiet) (reloaded : ∀ id vc, s'.2 id = some vc → vc.reloads = 0) {m : MessageId}
    {call : SendCall} (sent : s.1.sends m = some call) {id : InboxId} {vc : ContactInboxVC}
    {u v : Uid} (alive : s.2 id = some vc) (observes : vc.observing = some (u, v))
    (between : call.messageInfo.Between u v) :
    ∃ vc', s'.2 id = some vc' ∧ Message.ofInboxSnapshot call.messageInfo ∈ vc'.table := by
  have haccepted := accepted_run run accepts
  obtain ⟨call', hcall', hinfo⟩ := kept.world.sends m call sent
  have hstored : s'.1.db.messages m = some call.messageInfo := by
    rw [quiet.messages haccepted.consistent haccepted.unrejected m, hcall', ← hinfo]
    rfl
  obtain ⟨vc', hvc', hobs⟩ := kept.screens id vc alive
  have hlinked := (sound_run run).linked id vc' hvc'
  obtain ⟨r, hr, hf⟩ := hlinked.attached u v (hobs.trans observes)
  have hmem : m ∈ r.delivered.map Prod.snd :=
    (handed_on run accepts quiet hr hf m).mpr ⟨_, hstored, between⟩
  refine ⟨vc', hvc', ?_⟩
  have htable : vc'.table = vc'.messages :=
    hlinked.refreshed.resolve_right fun hne => hne (reloaded id vc' hvc')
  rw [htable, hf.messages]
  exact List.mem_filterMap.mpr ⟨m, hmem, by rw [hstored]; rfl⟩

/-- **Every message is shown.** When no write is rejected, from every reachable state, in whatever
order the server's answers, the `childAdded` events, the closures and the reloads come: after a
bounded number of them none is left, and then nothing is in flight, on a screen or off one, and each
message sent so far stands on every screen of its conversation that was open, on both sides. -/
theorem eventually_shown {s : World × (InboxId → Option ContactInboxVC)} {es : List Event}
    (run : (machine urls).run initial es = some s) (accepts : ∀ e ∈ es, Accepts e) :
    ∃ n, ∀ fs s', (∀ e ∈ fs, e.InFlight ∧ Accepts e) → (machine urls).run s fs = some s' →
      fs.length ≤ n ∧
      (∃ gs s'', (∀ e ∈ gs, e.InFlight ∧ Accepts e) ∧ (machine urls).run s' gs = some s'' ∧
        (machine urls).AtRest Event.InFlight s'') ∧
      ((machine urls).AtRest Event.InFlight s' → s'.1.Quiet ∧ ∀ m call, s.1.sends m = some call →
        ∀ id vc u v, s.2 id = some vc → vc.observing = some (u, v) →
          call.messageInfo.Between u v →
          ∃ vc', s'.2 id = some vc' ∧ Message.ofInboxSnapshot call.messageInfo ∈ vc'.table) := by
  obtain ⟨b, screens, start⟩ := bounded_run run
  have down : ∀ t e t', e.InFlight ∧ Accepts e → Bounded b screens t →
      (machine urls).step t e = some t' →
      Bounded b screens t' ∧ remaining b screens t' < remaining b screens t :=
    fun _ _ _ he => remaining_step he.1
  refine ⟨remaining b screens s, fun fs s' hfs hrun => ?_⟩
  obtain ⟨hlength, hs', gs, s'', hgs, hrun', hs'', hrest⟩ :=
    Machine.run_rests down start hfs hrun
  obtain ⟨hquiet, hreloaded⟩ := quiet_of_atRest hs''.sound hs''.backed hrest
  refine ⟨hlength, ⟨gs, s'', hgs, hrun', atRest_of_quiet hquiet hreloaded⟩, ?_⟩
  intro rest
  obtain ⟨hquiet, hreloaded⟩ := quiet_of_atRest hs'.sound hs'.backed fun e he => rest e he.1
  refine ⟨hquiet, fun m call sent id vc u v alive observes between => ?_⟩
  have hall : ∀ e ∈ es ++ fs, Accepts e := by
    intro e he
    rcases List.mem_append.mp he with he | he
    · exact accepts e he
    · exact (hfs e he).2
  exact shown_at_rest (Machine.run_append_eq_some.mpr ⟨s, run, hrun⟩) hall
    (kept_run (fun e he => (hfs e he).1) hrun) hquiet hreloaded sent alive observes between

/-- Bob has Alice's conversation open, and Alice has pressed the button. -/
def aliceSends : List Event :=
  [.world ⟨.auth 4 (some "alice"), rfl⟩, .world ⟨.auth 5 (some "bob"), rfl⟩,
    .inbox ⟨4, 1⟩ (.opened "bob" "Bob" "bob@ani.chat" none (some "alice")),
    .inbox ⟨5, 1⟩ (.opened "alice" "Alice" "alice@ani.chat" none (some "bob")),
    .inbox ⟨4, 1⟩ (.edit (some "hey")), .inbox ⟨4, 1⟩ (.handleSend "k" 3 (some ("bob", "hey")))]

theorem eventually_shown_aliceSends : ∃ s gs s' vc',
    (machine .dotted).run initial aliceSends = some s ∧ (machine .dotted).run s gs = some s' ∧
      s'.1.Quiet ∧ s'.2 ⟨5, 1⟩ = some vc' ∧
      Message.mk "bob" "alice" 3 "hey" none ∈ vc'.table := by
  obtain ⟨n, hn⟩ := @eventually_shown .dotted _ aliceSends rfl (by
    simp only [aliceSends, List.mem_cons, List.not_mem_nil, or_false, forall_eq_or_imp, forall_eq,
      Accepts, inWorld, Inboxes.inWorld, Option.some.injEq, forall_eq', reduceCtorEq,
      World.Event.Accepts, and_self, IsEmpty.forall_iff, implies_true])
  obtain ⟨-, ⟨gs, s', hgs, hrun, hrest⟩, -⟩ :=
    hn [] _ (fun _ he => (List.not_mem_nil he).elim) rfl
  obtain ⟨-, -, hshown⟩ := hn gs s' hgs hrun
  obtain ⟨hquiet, hshown⟩ := hshown hrest
  obtain ⟨vc', hvc', hmem⟩ := hshown "k" _ rfl ⟨5, 1⟩ _ "bob" "alice" rfl rfl (.inr ⟨rfl, rfl⟩)
  exact ⟨_, gs, s', vc', rfl, hrun, hquiet, hvc', hmem⟩

end Conversations

end AniChat
