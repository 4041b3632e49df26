import AniChat.App.Device

/-!
# One device among all clients

The device runs as client 0 of the chat's world. What concerns both happens in both at once: a
sign-in or sign-out, the attaching of a screen's observer, and the closure of a single read that
hands a message to a screen. Everything else is an event of one side.
-/

namespace AniChat

open Automata Collections

/-- The events of the world in which the device has a part of its own. -/
def World.Event.OfDevice : World.Event → Bool
  | .auth 0 _ => true
  | .messagesForUserObserver 0 _ => true
  | .read ⟨0, .recents _⟩ _ _ (some _) => true
  | _ => false

namespace System

/-- A step of the device, or one of the world in which the device has no part. -/
inductive Event where
  | device (e : Device.Event)
  | world (e : { e : World.Event // e.OfDevice = false })

/-- What the world sees of an event. -/
def inWorld : Event → Option World.Event
  | .world e => some e
  | .device (.login e) => e.signsIn.map fun user => .auth 0 (some user)
  | .device (.logout _) => some (.auth 0 none)
  | .device (.viewDidLoad k) => some (.messagesForUserObserver 0 k)
  | .device (.deliver k v m _ info) => some (.read ⟨0, .recents k⟩ v m (some info))
  | _ => none

/-- What the device sees of it. -/
def onDevice : Event → Option Device.Event
  | .device e => some e
  | .world _ => none

/-- The device and the world, moving together. -/
def machine : Machine (World × Device) Event :=
  Machine.sync World.machine Device.machine inWorld onDevice

/-- Nothing stored and nothing attached; Auth may restore a user on the device. -/
def initial (restored : Option Uid) : World × Device :=
  (World.initial.setUser 0 restored, .initial restored)

/-- What the device does in a run. -/
def deviceEvents (es : List Event) : List Device.Event := es.filterMap onDevice

/-! ## The two sides of a step -/

theorem device_step {s s' : World × Device} {e : Device.Event}
    (h : machine.step s (.device e) = some s') : Device.machine.step s.2 e = some s'.2 := by
  obtain ⟨d, hd, hrun⟩ := Machine.run_cons_eq_some.mp (Machine.sync_step_eq_some.mp h).2
  have hd' : d = s'.2 := Option.some.inj hrun
  exact hd' ▸ hd

theorem device_stays {s s' : World × Device} {e : { e : World.Event // e.OfDevice = false }}
    (h : machine.step s (.world e) = some s') : s'.2 = s.2 :=
  (Option.some.inj (Machine.sync_step_eq_some.mp h).2).symm

theorem world_step {s s' : World × Device} {e : Event} {e' : World.Event} (sees : inWorld e = some e')
    (h : machine.step s e = some s') : World.machine.step s.1 e' = some s'.1 := by
  have hleft := (Machine.sync_step_eq_some.mp h).1
  rw [sees] at hleft
  obtain ⟨w, hw, hrun⟩ := Machine.run_cons_eq_some.mp hleft
  have hw' : w = s'.1 := Option.some.inj hrun
  exact hw' ▸ hw

theorem world_stays {s s' : World × Device} {e : Event} (sees : inWorld e = none)
    (h : machine.step s e = some s') : s'.1 = s.1 := by
  have hleft := (Machine.sync_step_eq_some.mp h).1
  rw [sees] at hleft
  exact (Option.some.inj hleft).symm

/-! ## Runs -/

/-- A user signs in on the device and the new recents screen loads. -/
def arrives (user : Uid) (k : ObjectId) : List Event :=
  [.device (.login (.toggle 0)), .device (.login (.press k)),
    .device (.login (.signIn user none)), .device (.viewDidLoad k)]

/-- Bob, on another client, writes to the user; the observer of screen `k` reads the message. -/
def bobWrites (m : MessageId) (user : Uid) (k : ObjectId) : List Event :=
  [.world ⟨.auth 1 (some "bob"), rfl⟩, .world ⟨.send 1 m user 1 "hi", rfl⟩,
    .world ⟨.settle m .childRef true, rfl⟩, .world ⟨.completion m, rfl⟩,
    .world ⟨.settle m .recipientUserMessagesRef true, rfl⟩,
    .world ⟨.partnerAdded ⟨0, .recents k⟩ "bob", rfl⟩,
    .world ⟨.childAdded ⟨0, .recents k⟩ "bob" m, rfl⟩, .world ⟨.serve ⟨0, .recents k⟩ "bob" m, rfl⟩]

/-- The closure of the read runs. -/
def handedOn (m : MessageId) (user : Uid) (k : ObjectId) : Event :=
  .device (.deliver k "bob" m (.stored Message) ⟨user, "bob", 1, "hi"⟩)

/-- Bob's message reaches Alice's screen. -/
def aliceReads : List Event :=
  arrives "alice" 10 ++ bobWrites "m" "alice" 10 ++ [handedOn "m" "alice" 10]

end System

end AniChat
