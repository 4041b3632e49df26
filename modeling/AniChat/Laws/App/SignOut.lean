import AniChat.App.System
import AniChat.Laws.App.Sessions

/-!
# Signing out with callbacks outstanding

`logout` pops the recents screen and removes no observer. `LoginVC.home` keeps the screen, so a
message whose read completes before the next sign-in still reaches `chatPartnerId()`, which
force-unwraps the current user.

## What is proved

- `trap_step`: the three places that evaluate `chatPartnerId()` are safe exactly when somebody is
  signed in.
- `signed_out_safe_iff`: a run never evaluates it while nobody is signed in exactly when no message
  reaches a living screen, no cell is configured and no row is tapped in a signed-out window.
-/

namespace AniChat

open Automata Collections

namespace Device

/-- Somebody is signed in if the event reaches `chatPartnerId()`: a delivery to a screen that is
alive, a cell, a tap on a row. -/
def Guarded (d : Device) : Event → Prop
  | .deliver k _ _ _ _ => d.vcs k ≠ none → d.currentUser ≠ none
  | .cellForRowAt _ _ => d.currentUser ≠ none
  | .didSelectRowAt _ _ => d.currentUser ≠ none
  | _ => True

/-- The guard of an event that asks for a row. -/
theorem guarded_row {d : Device} {e : Event} {k : ObjectId} {row : Nat}
    (asks : e.row? = some (k, row)) : d.Guarded e ↔ d.currentUser ≠ none := by
  rcases row_cases asks with rfl | rfl
  · rfl
  · rfl

/-- The forced unwrap fails in exactly the steps that are not guarded. -/
theorem trap_step {d d' : Device} {e : Event} (listed : d.Listed)
    (safe : d.trap ≠ some .currentUser) (hstep : machine.step d e = some d') :
    d'.trap ≠ some .currentUser ↔ d.Guarded e := by
  obtain ⟨hnone, hact⟩ := step_cases hstep
  cases hact with
  | press => exact iff_of_true safe trivial
  | login => exact iff_of_true safe trivial
  | viewDidLoad => exact iff_of_true safe trivial
  | logout => exact iff_of_true safe trivial
  | screen => exact iff_of_true safe trivial
  | release => exact iff_of_true safe trivial
  | deliverReleased gone => exact iff_of_true safe fun alive => absurd gone alive
  | deliverSignedOut alive attached signedOut =>
    refine iff_of_false (fun h => h rfl) fun h => h ?_ signedOut
    rw [alive]
    exact nofun
  | deliver alive attached signedIn =>
    refine iff_of_true safe fun _ => ?_
    rw [signedIn]
    exact nofun
  | @rowMissing _ k row vc asks alive shown past =>
    have htable := (listed k vc alive).table
    omega
  | rowSignedOut asks alive shown inRange signedOut =>
    exact iff_of_false (fun h => h rfl) fun h => (guarded_row asks).mp h signedOut
  | row asks alive shown inRange signedIn =>
    refine iff_of_true safe ((guarded_row asks).mpr ?_)
    rw [signedIn]
    exact nofun

end Device

namespace System

/-- The guard, with the rest of the world going on. -/
def Guarded (s : World × Device) : Event → Prop
  | .device e => s.2.Guarded e
  | .world _ => True

/-- `chatPartnerId()` was not evaluated while nobody was signed in. -/
def Safe (s : World × Device) : Prop := s.2.trap ≠ some .currentUser

/-- **No forced unwrap fails along a run exactly when every step of it is guarded.** -/
theorem signed_out_safe_iff {restored : Option Uid} {es : List Event} {s : World × Device}
    (run : machine.run (initial restored) es = some s) :
    machine.Always Safe (initial restored) es ↔ machine.Meets Guarded (initial restored) es := by
  have keep : ∀ s e s', Safe s → s.2.Listed → machine.step s e = some s' →
      s'.2.Listed ∧ (Safe s' ↔ Guarded s e) := by
    intro s e s' hsafe hlisted hstep
    cases e with
    | device e =>
      have hd := device_step hstep
      exact ⟨Device.listed_step hlisted hd, Device.trap_step hlisted hsafe hd⟩
    | world e =>
      unfold Safe
      rw [device_stays hstep]
      exact ⟨hlisted, iff_of_true hsafe trivial⟩
  have start : (initial restored).2.Listed := fun _ _ h => by cases h
  exact Machine.always_iff_meets keep nofun start run

/-- Alice signs out with a read outstanding. -/
def aliceLeaves : List Event :=
  arrives "alice" 10 ++ bobWrites "m" "alice" 10 ++ [.device (.logout 10)]

/-- Carol signs in before its closure runs: nothing fails, although nobody was signed in for a while. -/
theorem signed_out_safe_aliceLeaves :
    let carolArrives := aliceLeaves ++ arrives "carol" 11
    ∃ s₀ s, machine.run (initial none) aliceLeaves = some s₀ ∧ s₀.2.currentUser = none ∧
      machine.run (initial none) (carolArrives ++ [handedOn "m" "alice" 10]) = some s ∧
      machine.Always Safe (initial none) (carolArrives ++ [handedOn "m" "alice" 10]) := by
  intro carolArrives
  have before : ∀ e ∈ carolArrives, ∀ s, Guarded s e := by
    simp [carolArrives, aliceLeaves, arrives, bobWrites, Guarded, Device.Guarded]
  have meets : machine.Meets Guarded (initial none) (carolArrives ++ [handedOn "m" "alice" 10]) :=
    (Machine.meets_snoc rfl).mpr ⟨Machine.meets_of_forall before, fun _ => nofun⟩
  exact ⟨_, _, rfl, rfl, rfl, (signed_out_safe_iff rfl).mpr meets⟩

/-- Alice signs out while the read is outstanding. -/
theorem unwrap_after_logout : ¬ ∀ restored es s,
    machine.run (initial restored) es = some s → Safe s := by
  intro law
  exact law none (arrives "alice" 10 ++ bobWrites "m" "alice" 10 ++
    [.device (.logout 10), handedOn "m" "alice" 10]) _ rfl rfl

end System

end AniChat
