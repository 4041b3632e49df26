import AniChat.Laws.App.RecentsList
import AniChat.Laws.Client.Rest

/-!
# Everyone comes to be listed

The device follows the chat to rest: messages are handed to its screens, the timers fire, and the
reloads and the clearing blocks run. A message handed on may arm a timer, and a timer dispatches one
reload, so the steps of the world weigh three times as much as those of a screen.

## What is proved

- `Device.Moved`: what a step that needs nobody leaves of the device, and what it may add.
- `quiet_of_atRest`: where no such step is possible, nothing is in flight, no timer is armed, and no
  block is outstanding.
- `eventually_listed`: when no write is rejected, everyone a message was exchanged with comes to have a
  row in the table of the recents screen that is shown, whatever the order of the steps.
-/

namespace AniChat

open Automata Collections

/-! ## What is still to come on a screen -/

/-- The callback and the block of `setupNavBar` still to come. -/
def NavBar.remaining : NavBar → ℕ
  | .fetching => 2
  | .clearing _ => 1
  | _ => 0

namespace RecentMessagesVC

/-- The block needs nobody to do anything. -/
def Event.InFlight : Event → Prop
  | .timerFired => True
  | .reload => True
  | .profileFetched _ => True
  | .profileMissing => True
  | .clear => True
  | _ => False

/-- The blocks still to come; a timer that fires dispatches another. -/
def remaining (vc : RecentMessagesVC) : ℕ :=
  2 * vc.timer.toNat + vc.reloads + vc.navBar.remaining

/-- A message that is handed on arms a timer. -/
theorem remaining_receive (vc : RecentMessagesVC) (chatPartnerId : Uid) (order : Enumeration Message)
    (message : Message) : (vc.receive chatPartnerId order message).remaining ≤ vc.remaining + 2 := by
  simp only [remaining, receive, Bool.toNat_true]
  omega

/-- A block that needs nobody is one less. -/
theorem remaining_step {vc vc' : RecentMessagesVC} {e : Event} (inFlight : e.InFlight)
    (hstep : machine.step vc e = some vc') : vc'.remaining < vc.remaining := by
  cases step_cases hstep with
  | received => exact inFlight.elim
  | layout => exact inFlight.elim
  | timerFired armed =>
    simp only [remaining, handleReload, armed, Bool.toNat_true, Bool.toNat_false]
    omega
  | reload queued =>
    simp only [remaining, reloadData]
    omega
  | profileFetched name out =>
    simp only [remaining, profileFetched, out, NavBar.remaining]
    omega
  | profileMissing out =>
    simp only [remaining, profileMissing, out, NavBar.remaining]
    omega
  | clear queued =>
    simp only [remaining, clear, queued, NavBar.remaining]
    omega

/-- Nothing but loading the view asks for the profile. -/
theorem navBar_step {vc vc' : RecentMessagesVC} {e : Event} (hstep : machine.step vc e = some vc') :
    vc'.navBar.remaining ≤ vc.navBar.remaining := by
  cases step_cases hstep with
  | profileFetched name out =>
    rw [out]
    exact Nat.le_succ 1
  | profileMissing => exact Nat.zero_le _
  | clear => exact Nat.zero_le _
  | _ => exact le_rfl

/-- As long as something is to come, a block can run. -/
theorem exists_step {vc : RecentMessagesVC} (left : vc.remaining ≠ 0) :
    ∃ e vc', e.InFlight ∧ e.message? = none ∧ machine.step vc e = some vc' := by
  by_cases htimer : vc.timer = true
  · exact ⟨.timerFired, vc.handleReload, trivial, rfl, if_pos htimer⟩
  by_cases hreloads : vc.reloads = 0
  · cases hnav : vc.navBar with
    | idle => simp [remaining, htimer, hreloads, hnav, NavBar.remaining] at left
    | done => simp [remaining, htimer, hreloads, hnav, NavBar.remaining] at left
    | fetching => exact ⟨.profileMissing, vc.profileMissing, trivial, rfl, if_pos hnav⟩
    | clearing name =>
      refine ⟨.clear, vc.clear name, trivial, rfl, ?_⟩
      change step vc .clear = _
      simp only [step, hnav]
  · exact ⟨.reload, vc.reloadData, trivial, rfl, if_pos hreloads⟩

end RecentMessagesVC

/-! ## One step of the device -/

namespace Device

/-- The event needs nobody to do anything. -/
def Event.InFlight : Event → Prop
  | .deliver _ _ _ _ _ => True
  | .screen _ e => e.InFlight
  | _ => False

/-- The blocks still to come on these screens. -/
def remaining (screens : Finset ObjectId) (d : Device) : ℕ :=
  ∑ k ∈ screens, (d.vcs k).elim 0 RecentMessagesVC.remaining

/-- What such a step leaves of the device. Every screen goes on observing what it observed, and asks for
no profile. -/
structure Moved (d d' : Device) : Prop where
  login : d'.login = d.login
  currentUser : d'.currentUser = d.currentUser
  allocated : d'.allocated = d.allocated
  trap : d.currentUser ≠ none → d'.trap = d.trap
  screens : ∀ k vc, d.vcs k = some vc → ∃ vc', d'.vcs k = some vc' ∧ vc'.observing = vc.observing
  navBar : ∀ k vc', d'.vcs k = some vc' →
    ∃ vc, d.vcs k = some vc ∧ vc'.navBar.remaining ≤ vc.navBar.remaining

theorem Moved.refl (d : Device) : Moved d d :=
  ⟨rfl, rfl, rfl, fun _ => rfl, fun _ vc hvc => ⟨vc, hvc, rfl⟩, fun _ vc hvc => ⟨vc, hvc, le_rfl⟩⟩

theorem Moved.trans {d t d' : Device} (h : Moved d t) (h' : Moved t d') : Moved d d' where
  login := h'.login.trans h.login
  currentUser := h'.currentUser.trans h.currentUser
  allocated := h'.allocated.trans h.allocated
  trap signedIn := (h'.trap (h.currentUser ▸ signedIn)).trans (h.trap signedIn)
  screens k vc hvc := by
    obtain ⟨vc₁, hvc₁, hobs₁⟩ := h.screens k vc hvc
    obtain ⟨vc₂, hvc₂, hobs₂⟩ := h'.screens k vc₁ hvc₁
    exact ⟨vc₂, hvc₂, hobs₂.trans hobs₁⟩
  navBar k vc' hvc' := by
    obtain ⟨vc₁, hvc₁, hle₁⟩ := h'.navBar k vc' hvc'
    obtain ⟨vc₂, hvc₂, hle₂⟩ := h.navBar k vc₁ hvc₁
    exact ⟨vc₂, hvc₂, hle₁.trans hle₂⟩

/-- One screen is replaced. -/
theorem moved_setScreen {d : Device} {k : ObjectId} {vc vc' : RecentMessagesVC}
    (alive : d.vcs k = some vc) (observing : vc'.observing = vc.observing)
    (navBar : vc'.navBar.remaining ≤ vc.navBar.remaining) : Moved d (d.setScreen k vc') where
  login := rfl
  currentUser := rfl
  allocated := rfl
  trap _ := rfl
  screens k' vc₀ hvc₀ := by
    rw [setScreen_vcs]
    split
    · next hk =>
      subst hk
      cases alive.symm.trans hvc₀
      exact ⟨vc', rfl, observing⟩
    · exact ⟨vc₀, hvc₀, rfl⟩
  navBar k' vc₀ hvc₀ := by
    rw [setScreen_vcs] at hvc₀
    split at hvc₀
    · next hk =>
      subst hk
      cases hvc₀
      exact ⟨vc, alive, navBar⟩
    · exact ⟨vc₀, hvc₀, le_rfl⟩

/-- The blocks of all screens differ by those of this one. -/
theorem remaining_setScreen {screens : Finset ObjectId} {d : Device} {k : ObjectId}
    {vc : RecentMessagesVC} (alive : d.vcs k = some vc) (mem : k ∈ screens)
    (vc' : RecentMessagesVC) : (d.setScreen k vc').remaining screens + vc.remaining =
      d.remaining screens + vc'.remaining := by
  have hsum := sum_update_add (f := d.vcs) (x := some vc')
    (fun x => x.elim 0 RecentMessagesVC.remaining) mem
  rw [alive] at hsum
  exact hsum

/-- A message that is handed on adds two blocks at most. -/
theorem moved_deliver {screens : Finset ObjectId} {d d' : Device} {k : ObjectId} {v : Uid}
    {m : MessageId} {order : Enumeration Message} {info : MessageInfo}
    (made : ∀ k, d.vcs k ≠ none → k ∈ screens)
    (hact : Act d (.deliver k v m order info) d') :
    Moved d d' ∧ d'.remaining screens ≤ d.remaining screens + 2 := by
  cases hact with
  | deliverReleased gone => exact ⟨Moved.refl d, Nat.le_add_right _ 2⟩
  | deliverSignedOut alive attached signedOut =>
    exact ⟨{ Moved.refl d with trap := fun signedIn => absurd signedOut signedIn },
      Nat.le_add_right _ 2⟩
  | @deliver _ _ _ _ _ u vc alive attached signedIn =>
    refine ⟨moved_setScreen alive rfl le_rfl, ?_⟩
    have hmem := made k (by rw [alive]; exact nofun)
    have hsum := remaining_setScreen alive hmem
      (vc.receive ((Message.ofSnapshot (some u) info).partnerOf u) order
        (Message.ofSnapshot (some u) info))
    have hless := vc.remaining_receive ((Message.ofSnapshot (some u) info).partnerOf u) order
      (Message.ofSnapshot (some u) info)
    omega
  | rowMissing asks => cases asks
  | rowSignedOut asks => cases asks
  | row asks => cases asks

/-- A block of a screen is one less. -/
theorem moved_screen {screens : Finset ObjectId} {d d' : Device} {k : ObjectId}
    {e : RecentMessagesVC.Event} (inFlight : e.InFlight) (made : ∀ k, d.vcs k ≠ none → k ∈ screens)
    (hact : Act d (.screen k e) d') :
    Moved d d' ∧ d'.remaining screens < d.remaining screens := by
  cases hact with
  | @screen _ _ vc vc' alive silent inner =>
    have hless := RecentMessagesVC.remaining_step inFlight inner
    refine ⟨moved_setScreen alive (step_observing inner) (RecentMessagesVC.navBar_step inner), ?_⟩
    have hsum := remaining_setScreen alive (made k (by rw [alive]; exact nofun)) vc'
    omega
  | rowMissing asks => cases asks
  | rowSignedOut asks => cases asks
  | row asks => cases asks

end Device

namespace System

/-! ## One step of both -/

/-- The event needs nobody to do anything. -/
def Event.InFlight : Event → Prop
  | .world e => e.1.InFlight
  | .device e => e.InFlight

/-- The steps that may still come. -/
def remaining (b : Bounds) (screens : Finset ObjectId) (s : World × Device) : ℕ :=
  3 * s.1.remaining b + s.2.remaining screens

/-- A reachable state within bounds, in which somebody is signed in and the program runs. -/
structure Bounded (restored : Option Uid) (b : Bounds) (screens : Finset ObjectId)
    (s : World × Device) : Prop where
  reached : ∃ es, machine.run (initial restored) es = some s
  within : s.1.Within b
  allocated : ∀ k ∈ s.2.allocated, k ∈ screens
  running : s.2.trap = none
  signedIn : s.2.currentUser ≠ none

theorem Bounded.sound {restored : Option Uid} {b : Bounds} {screens : Finset ObjectId}
    {s : World × Device} (h : Bounded restored b screens s) : Sound s := by
  obtain ⟨es, run⟩ := h.reached
  exact sound_run run

theorem Bounded.screens {restored : Option Uid} {b : Bounds} {screens : Finset ObjectId}
    {s : World × Device} (h : Bounded restored b screens s) :
    ∀ k, s.2.vcs k ≠ none → k ∈ screens := fun k alive => h.allocated k (h.sound.made k alive)

/-- What a step that needs nobody leaves of both. -/
structure Kept (s s' : World × Device) : Prop where
  world : s.1.Kept s'.1
  device : Device.Moved s.2 s'.2

theorem Kept.refl (s : World × Device) : Kept s s := ⟨World.Kept.refl _, Device.Moved.refl _⟩

theorem Kept.trans {s t s' : World × Device} (h : Kept s t) (h' : Kept t s') : Kept s s' :=
  ⟨h.world.trans h'.world, h.device.trans h'.device⟩

/-- A step of the world is one less there. -/
theorem world_less {restored : Option Uid} {b : Bounds} {screens : Finset ObjectId}
    {s s' : World × Device} {e : Event} {we : World.Event} (h : Bounded restored b screens s)
    (sees : inWorld e = some we) (inFlight : we.InFlight) (hstep : machine.step s e = some s') :
    s.1.Kept s'.1 ∧ s'.1.Within b ∧ s'.1.remaining b < s.1.remaining b := by
  have hworld := world_step sees hstep
  obtain ⟨⟨-, -, hwithin⟩, hless⟩ :=
    World.remaining_step inFlight ⟨h.sound.consistent, h.sound.observed, h.within⟩ hworld
  exact ⟨World.kept_step inFlight hworld, hwithin, hless⟩

theorem kept_step {restored : Option Uid} {b : Bounds} {screens : Finset ObjectId}
    {s s' : World × Device} {e : Event} (inFlight : e.InFlight) (h : Bounded restored b screens s)
    (hstep : machine.step s e = some s') :
    Kept s s' ∧ s'.1.Within b ∧ remaining b screens s' < remaining b screens s := by
  unfold remaining
  cases e with
  | world e =>
    obtain ⟨hkept, hwithin, hless⟩ := world_less h rfl inFlight hstep
    have hdevice := device_stays hstep
    refine ⟨⟨hkept, ?_⟩, hwithin, ?_⟩
    · rw [hdevice]
      exact Device.Moved.refl _
    · rw [hdevice]
      omega
  | device e =>
    obtain ⟨-, hact⟩ := Device.step_cases (device_step hstep)
    cases e with
    | deliver k v m order info =>
      have hread : World.Event.InFlight (.read ⟨0, .recents k⟩ v m (some info)) := trivial
      obtain ⟨hkept, hwithin, hless⟩ := world_less h rfl hread hstep
      obtain ⟨hmoved, hmore⟩ := Device.moved_deliver h.screens hact
      exact ⟨⟨hkept, hmoved⟩, hwithin, by omega⟩
    | screen k e =>
      obtain ⟨hmoved, hless⟩ := Device.moved_screen inFlight h.screens hact
      have hworld := world_stays (e := .device (.screen k e)) rfl hstep
      refine ⟨⟨?_, hmoved⟩, ?_, ?_⟩
      · rw [hworld]
        exact World.Kept.refl _
      · rw [hworld]
        exact h.within
      · rw [hworld]
        omega
    | _ => exact inFlight.elim

theorem bounded_step {restored : Option Uid} {b : Bounds} {screens : Finset ObjectId}
    {s s' : World × Device} {e : Event} (inFlight : e.InFlight) (h : Bounded restored b screens s)
    (hstep : machine.step s e = some s') :
    Bounded restored b screens s' ∧ remaining b screens s' < remaining b screens s := by
  obtain ⟨⟨-, hmoved⟩, hwithin, hless⟩ := kept_step inFlight h hstep
  obtain ⟨es, run⟩ := h.reached
  refine ⟨⟨⟨es ++ [e], Machine.run_snoc_eq_some.mpr ⟨s, run, hstep⟩⟩, hwithin, ?_, ?_, ?_⟩, hless⟩
  · rw [hmoved.allocated]
    exact h.allocated
  · exact (hmoved.trap h.signedIn).trans h.running
  · rw [hmoved.currentUser]
    exact h.signedIn

theorem bounded_run {restored : Option Uid} {s : World × Device} {es : List Event}
    (run : machine.run (initial restored) es = some s) (running : s.2.trap = none)
    (signedIn : s.2.currentUser ≠ none) : ∃ b screens, Bounded restored b screens s := by
  obtain ⟨b, hb⟩ := World.within_run (world_run run)
  exact ⟨b, s.2.allocated.toFinset, ⟨es, run⟩, hb, fun k hk => List.mem_toFinset.mpr hk, running,
    signedIn⟩

/-! ## At rest -/

/-- A block of a screen runs by itself. -/
theorem screen_enabled {s : World × Device} (running : s.2.trap = none) {k : ObjectId}
    {vc vc' : RecentMessagesVC} {e : RecentMessagesVC.Event} (alive : s.2.vcs k = some vc)
    (silent : e.message? = none) (inner : RecentMessagesVC.machine.step vc e = some vc') :
    machine.step s (.device (.screen k e)) = some (s.1, s.2.setScreen k vc') := by
  refine Machine.sync_step_eq_some.mpr ⟨rfl, Machine.run_cons_eq_some.mpr ⟨_, ?_, rfl⟩⟩
  exact Device.step_of running (.screen alive silent inner)

/-- The closure of a read hands its message on. -/
theorem deliver_enabled {s : World × Device} {w' : World} (sound : Sound s)
    (running : s.2.trap = none) (signedIn : s.2.currentUser ≠ none) {k : ObjectId} {v : Uid}
    {m : MessageId} {info : MessageInfo}
    (hworld : World.machine.step s.1 (.read ⟨0, .recents k⟩ v m (some info)) = some w') :
    ∃ d', machine.step s (.device (.deliver k v m (.stored Message) info)) = some (w', d') := by
  have hdevice : ∃ d', Device.Act s.2 (.deliver k v m (.stored Message) info) d' := by
    obtain ⟨u, huser⟩ := Option.ne_none_iff_exists'.mp signedIn
    cases hvc : s.2.vcs k with
    | none => exact ⟨_, .deliverReleased hvc⟩
    | some vc =>
      cases World.step_cases hworld with
      | @read _ r _ _ _ reader =>
        refine ⟨_, .deliver hvc ?_ huser⟩
        rw [sound.linked.observing k r vc reader hvc]
        exact nofun
  obtain ⟨d', hact⟩ := hdevice
  refine ⟨d', Machine.sync_step_eq_some.mpr ⟨?_, ?_⟩⟩
  · exact Machine.run_cons_eq_some.mpr ⟨w', hworld, rfl⟩
  · exact Machine.run_cons_eq_some.mpr ⟨d', Device.step_of running hact, rfl⟩

/-- What is possible in the world alone is possible with the device. -/
theorem enabled_of_world {s : World × Device} (sound : Sound s) (running : s.2.trap = none)
    (signedIn : s.2.currentUser ≠ none) {we : World.Event} (inFlight : we.InFlight)
    (accepts : we.Accepts) (hworld : World.machine.step s.1 we ≠ none) :
    ∃ e, (e.InFlight ∧ Accepts e) ∧ machine.step s e ≠ none := by
  obtain ⟨w', hw'⟩ := Option.ne_none_iff_exists'.mp hworld
  by_cases foreign : we.OfDevice = false
  · refine ⟨.world ⟨we, foreign⟩, ⟨inFlight, fun e' he' => ?_⟩, ?_⟩
    · cases he'
      exact accepts
    · have hstep : machine.step s (.world ⟨we, foreign⟩) = some (w', s.2) :=
        Machine.sync_step_eq_some.mpr ⟨Machine.run_cons_eq_some.mpr ⟨w', hw', rfl⟩, rfl⟩
      rw [hstep]
      exact Option.some_ne_none _
  · -- of what needs nobody, the device has a part in the closures of its reads only
    unfold World.Event.OfDevice at foreign
    split at foreign
    · exact inFlight.elim
    · exact inFlight.elim
    · next k v m info =>
      obtain ⟨d', hd'⟩ := deliver_enabled sound running signedIn hw'
      refine ⟨.device (.deliver k v m (.stored Message) info), ⟨trivial, fun e' he' => ?_⟩, ?_⟩
      · cases he'
        exact accepts
      · rw [hd']
        exact Option.some_ne_none _
    · exact absurd rfl foreign

/-- Where no step that needs nobody and rejects nothing is possible, nothing is in flight, and nothing
is to come on a screen. -/
theorem quiet_of_atRest {s : World × Device} (sound : Sound s) (running : s.2.trap = none)
    (signedIn : s.2.currentUser ≠ none)
    (rest : machine.AtRest (fun e => e.InFlight ∧ Accepts e) s) :
    s.1.Quiet ∧ ∀ k vc, s.2.vcs k = some vc → vc.remaining = 0 := by
  refine ⟨World.quiet_of_atRest sound.consistent fun we hwe => ?_, fun k vc hvc => ?_⟩
  · by_contra hworld
    obtain ⟨e, he, hstep⟩ := enabled_of_world sound running signedIn hwe.1 hwe.2 hworld
    exact hstep (rest e he)
  · by_contra left
    obtain ⟨e, vc', inFlight, silent, inner⟩ := RecentMessagesVC.exists_step left
    have hstep := rest (.device (.screen k e)) ⟨inFlight, fun e' he' => by cases he'⟩
    rw [screen_enabled running hvc silent inner] at hstep
    cases hstep

/-- Where nothing is in flight and nothing is to come on a screen, none of these steps is possible. -/
theorem atRest_of_quiet {s : World × Device} (quiet : s.1.Quiet)
    (idle : ∀ k vc, s.2.vcs k = some vc → vc.remaining = 0) :
    machine.AtRest Event.InFlight s := by
  intro e inFlight
  by_contra hstep
  obtain ⟨s', hs'⟩ := Option.ne_none_iff_exists'.mp hstep
  have hworld : ∀ we, inWorld e = some we → we.InFlight → False := by
    intro we hwe hfly
    cases (world_step hwe hs').symm.trans (quiet.atRest we hfly)
  cases e with
  | world e => exact hworld e.1 rfl inFlight
  | device e =>
    cases e with
    | deliver k v m order info => exact hworld _ rfl trivial
    | screen k e =>
      obtain ⟨-, hact⟩ := Device.step_cases (device_step hs')
      generalize s'.2 = d' at hact
      cases hact with
      | screen alive silent inner =>
        have hless := RecentMessagesVC.remaining_step inFlight inner
        have hnone := idle k _ alive
        omega
      | rowMissing asks => cases asks
      | rowSignedOut asks => cases asks
      | row asks => cases asks
    | _ => exact inFlight.elim

/-! ## Listed in the end -/

theorem kept_run {restored : Option Uid} {b : Bounds} {screens : Finset ObjectId}
    {s s' : World × Device} {fs : List Event} (start : Bounded restored b screens s)
    (inFlight : ∀ e ∈ fs, e.InFlight) (run : machine.run s fs = some s') : Kept s s' := by
  have hkept : Bounded restored b screens s' ∧ Kept s s' := by
    refine Machine.run_invariant_of (P := fun t => Bounded restored b screens t ∧ Kept s t) ?_
      inFlight ⟨start, Kept.refl s⟩ run
    intro t e t' he h hstep
    exact ⟨(bounded_step he h.1 hstep).1, h.2.trans (kept_step he h.1 hstep).1⟩
  exact hkept.2

/-- Every callback and every block of `setupNavBar` has run. -/
def Titled (s : World × Device) : Prop :=
  ∀ k vc, s.2.vcs k = some vc → vc.navBar.remaining = 0

theorem Titled.kept {s s' : World × Device} (h : Titled s) (kept : Kept s s') : Titled s' := by
  intro k vc' hvc'
  obtain ⟨vc, hvc, hle⟩ := kept.device.navBar k vc' hvc'
  have hzero := h k vc hvc
  omega

/-- Where every block of `setupNavBar` has run, none runs any more. -/
theorem Titled.keeps {s s' : World × Device} {e : Event} (h : Titled s)
    (hstep : machine.step s e = some s') : Keeps s e := by
  rintro k vc rfl alive
  obtain ⟨-, hact⟩ := Device.step_cases (device_step hstep)
  generalize s'.2 = d' at hact
  cases hact with
  | screen alive' silent inner =>
    cases RecentMessagesVC.step_cases inner with
    | clear queued =>
      have hzero := h k _ alive'
      rw [queued] at hzero
      cases hzero
  | rowMissing asks => cases asks
  | rowSignedOut asks => cases asks
  | row asks => cases asks

/-- A run goes on, after every block of `setupNavBar` has run, with steps that need nobody. -/
theorem Titled.meets {restored : Option Uid} {b : Bounds} {screens : Finset ObjectId}
    {s s' : World × Device} {es fs : List Event} (h : Titled s)
    (run : machine.run (initial restored) es = some s)
    (keeps : machine.Meets Keeps (initial restored) es) (start : Bounded restored b screens s)
    (inFlight : ∀ e ∈ fs, e.InFlight) (hrun : machine.run s fs = some s') :
    machine.Meets Keeps (initial restored) (es ++ fs) := by
  refine @Machine.run_induction _ _ machine s
    (fun fs t => (∀ e ∈ fs, e.InFlight) → machine.Meets Keeps (initial restored) (es ++ fs))
    (fun _ => (List.append_nil es).symm ▸ keeps) ?_ _ _ hrun inFlight
  intro gs e t t' ht ih hstep hall
  have hgs : ∀ e ∈ gs, e.InFlight := fun e' he' => hall e' (List.mem_append_left _ he')
  rw [← List.append_assoc]
  refine (Machine.meets_snoc (Machine.run_append_eq_some.mpr ⟨s, run, ht⟩)).mpr ⟨ih hgs, ?_⟩
  exact (h.kept (kept_run start hgs ht)).keeps hstep

/-- A table has read its array where no timer is armed and no reload is outstanding. -/
theorem table_of_idle {vc : RecentMessagesVC} (refreshed : vc.Refreshed) (idle : vc.remaining = 0) :
    vc.table = vc.messages := by
  unfold RecentMessagesVC.remaining at idle
  rcases refreshed with h | h | h
  · exact h
  · rw [h, Bool.toNat_true] at idle
    omega
  · omega

/-- At rest, with no write ever rejected, everyone a message was exchanged with before has a row. -/
theorem listed_at_rest {restored : Option Uid} {s s' : World × Device} {es : List Event}
    {k : ObjectId} {vc : RecentMessagesVC} {u : Uid}
    (run : machine.run (initial restored) es = some s') (accepts : ∀ e ∈ es, Accepts e)
    (keeps : machine.Meets Keeps (initial restored) es) (kept : Kept s s') (quiet : s'.1.Quiet)
    (idle : ∀ k vc, s'.2.vcs k = some vc → vc.remaining = 0)
    (shown : k ∈ s.2.login.navigationStack) (alive : s.2.vcs k = some vc)
    (observes : vc.observing = some u) : ∃ vc', s'.2.vcs k = some vc' ∧
      (vc'.table.map (Message.partnerOf u)).Nodup ∧
      ∀ m call v, s.1.sends m = some call → call.messageInfo.Between u v →
        v ∈ vc'.table.map (Message.partnerOf u) := by
  obtain ⟨vc', hvc', hobs'⟩ := kept.device.screens k vc alive
  rw [← kept.device.login] at shown
  have htable := table_of_idle (Device.refreshed_run (device_run run) k vc' hvc') (idle k vc' hvc')
  obtain ⟨-, u', vc₀, -, hvc₀, hobs₀, hrep⟩ :=
    (Device.inSession_run (device_run run)).session k shown
  cases hvc'.symm.trans hvc₀
  obtain rfl := hobs₀ u (hobs'.trans observes)
  refine ⟨vc', hvc', htable ▸ hrep.one, fun m call v sent between => ?_⟩
  obtain ⟨call', hcall', hinfo⟩ := kept.world.sends m call sent
  rw [htable]
  exact listed_of_sent run accepts keeps quiet shown hvc' (hobs'.trans observes) hcall'
    (hinfo ▸ between)

/-- **Everyone comes to be listed.** When no write is rejected, from every reachable state in which a
recents screen of `u` is shown and the program runs, in whatever order the server's answers, the
`childAdded` events, the closures, the timers and the blocks come: after a bounded number of them none
is left; and then, if every block of `setupNavBar` had run and had found nothing to erase, everyone `u`
had written to or heard from has a row in the screen's table, and nobody has two. -/
theorem eventually_listed {restored : Option Uid} {s : World × Device} {es : List Event}
    {k : ObjectId} {vc : RecentMessagesVC} {u : Uid}
    (run : machine.run (initial restored) es = some s) (accepts : ∀ e ∈ es, Accepts e)
    (running : s.2.trap = none) (shown : k ∈ s.2.login.navigationStack)
    (alive : s.2.vcs k = some vc) (observes : vc.observing = some u) :
    ∃ n, ∀ fs s', (∀ e ∈ fs, e.InFlight ∧ Accepts e) → machine.run s fs = some s' →
      fs.length ≤ n ∧
      (∃ gs s'', (∀ e ∈ gs, e.InFlight ∧ Accepts e) ∧ machine.run s' gs = some s'' ∧
        machine.AtRest Event.InFlight s'') ∧
      (machine.Meets Keeps (initial restored) es → Titled s → machine.AtRest Event.InFlight s' →
        ∃ vc', s'.2.vcs k = some vc' ∧ (vc'.table.map (Message.partnerOf u)).Nodup ∧
          ∀ m call v, s.1.sends m = some call → call.messageInfo.Between u v →
            v ∈ vc'.table.map (Message.partnerOf u)) := by
  have signedIn : s.2.currentUser ≠ none := by
    obtain ⟨-, u', -, huser, -⟩ := (Device.inSession_run (device_run run)).session k shown
    rw [huser]
    exact nofun
  obtain ⟨b, screens, start⟩ := bounded_run run running signedIn
  have down : ∀ t e t', e.InFlight ∧ Accepts e → Bounded restored b screens t →
      machine.step t e = some t' →
      Bounded restored b screens t' ∧ remaining b screens t' < remaining b screens t :=
    fun _ _ _ he => bounded_step he.1
  refine ⟨remaining b screens s, fun fs s' hfs hrun => ?_⟩
  obtain ⟨hlength, hs', gs, s'', hgs, hrun', hs'', hrest⟩ :=
    Machine.run_rests down start hfs hrun
  obtain ⟨hquiet, hidle⟩ := quiet_of_atRest hs''.sound hs''.running hs''.signedIn hrest
  refine ⟨hlength, ⟨gs, s'', hgs, hrun', atRest_of_quiet hquiet hidle⟩, fun keeps titled rest => ?_⟩
  obtain ⟨hquiet, hidle⟩ :=
    quiet_of_atRest hs'.sound hs'.running hs'.signedIn fun e he => rest e he.1
  have hfly : ∀ e ∈ fs, e.InFlight := fun e he => (hfs e he).1
  have hall : ∀ e ∈ es ++ fs, Accepts e := by
    intro e he
    rcases List.mem_append.mp he with he | he
    · exact accepts e he
    · exact (hfs e he).2
  exact listed_at_rest (Machine.run_append_eq_some.mpr ⟨s, run, hrun⟩) hall
    (titled.meets run keeps start hfly hrun) (kept_run start hfly hrun) hquiet hidle shown alive
    observes

/-- Alice has signed in and has no profile, and Dave has just written to her. -/
def daveWrites : List Event :=
  arrives "alice" 20 ++ [.device (.screen 20 .profileMissing), .world ⟨.auth 6 (some "dave"), rfl⟩,
    .world ⟨.send 6 "n" "alice" 1 "hi", rfl⟩]

theorem daveWrites_titled {s : World × Device} (run : machine.run (initial none) daveWrites = some s) :
    Titled s := by
  cases run
  intro k vc hvc
  by_cases hk : k = 20
  · subst hk
    cases hvc
    rfl
  · obtain ⟨-, hvc⟩ := (update_eq_some.mp hvc).resolve_left fun h => hk h.1
    obtain ⟨-, hvc⟩ := (update_eq_some.mp hvc).resolve_left fun h => hk h.1
    obtain ⟨-, hvc⟩ := (update_eq_some.mp hvc).resolve_left fun h => hk h.1
    cases hvc

theorem eventually_listed_daveWrites : ∃ s gs s' vc',
    machine.run (initial none) daveWrites = some s ∧ machine.run s gs = some s' ∧
      machine.AtRest Event.InFlight s' ∧ s'.2.vcs 20 = some vc' ∧
      "dave" ∈ vc'.table.map (Message.partnerOf "alice") := by
  have accepts : ∀ e ∈ daveWrites, Accepts e := by
    simp [daveWrites, arrives, Accepts, inWorld, World.Event.Accepts, LoginVC.Event.signsIn]
  have silent : ∀ e ∈ daveWrites, ∀ k, e ≠ .device (.screen k .clear) := by
    simp [daveWrites, arrives]
  have keeps : machine.Meets Keeps (initial none) daveWrites :=
    Machine.meets_of_forall fun e he s k vc hclear => absurd hclear (silent e he k)
  obtain ⟨n, hn⟩ := @eventually_listed none _ daveWrites 20 _ "alice" rfl accepts rfl (by decide) rfl
    rfl
  obtain ⟨-, ⟨gs, s', hgs, hrun, hrest⟩, -⟩ :=
    hn [] _ (fun _ he => (List.not_mem_nil he).elim) rfl
  obtain ⟨-, -, hlisted⟩ := hn gs s' hgs hrun
  obtain ⟨vc', hvc', -, hrows⟩ := hlisted keeps (daveWrites_titled rfl) hrest
  exact ⟨_, gs, s', vc', rfl, hrun, hrest, hvc', hrows "n" _ "dave" rfl (.inr ⟨rfl, rfl⟩)⟩

end System

end AniChat
