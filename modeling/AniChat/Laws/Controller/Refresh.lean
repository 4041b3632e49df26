import AniChat.Laws.Controller.InboxOrder
import AniChat.Laws.Controller.Recents

/-!
# No refresh is lost

A delivery arms a timer in place of the one before it, the timer dispatches a reload, and the reload
reads the array. Whatever comes between these, a table that has not read the current array has a
refresh on its way: an armed timer, or a reload on the main queue.

The conversation screen dispatches a reload for each message it appends, and reads the array at once
when it sends.
-/

namespace AniChat

open Automata

namespace RecentMessagesVC

/-- The table has read the current array, or a refresh is on its way. -/
def Refreshed (vc : RecentMessagesVC) : Prop :=
  vc.table = vc.messages ∨ vc.timer = true ∨ vc.reloads ≠ 0

theorem refreshed_viewDidLoad (user : Option Uid) : (new.viewDidLoad user).Refreshed := .inl rfl

theorem refreshed_step {vc vc' : RecentMessagesVC} {e : Event} (h : vc.Refreshed)
    (hstep : machine.step vc e = some vc') : vc'.Refreshed := by
  cases step_cases hstep with
  | received => exact .inr (.inl rfl)
  | timerFired => exact .inr (.inr (Nat.succ_ne_zero _))
  | reload => exact .inl rfl
  | layout => exact .inl rfl
  | profileFetched => exact h
  | profileMissing => exact h
  | clear => exact .inl rfl

theorem refreshed_run {user : Option Uid} {vc : RecentMessagesVC} {es : List Event}
    (run : machine.run (new.viewDidLoad user) es = some vc) : vc.Refreshed :=
  Machine.run_invariant (fun _ _ _ => refreshed_step) (refreshed_viewDidLoad user) run

end RecentMessagesVC

namespace ContactInboxVC

/-- The collection view has read the current array, or a reload is queued. -/
def Refreshed (vc : ContactInboxVC) : Prop := vc.table = vc.messages ∨ vc.reloads ≠ 0

theorem refreshed_opened (contact : User) (currentUser : Option Uid) :
    (opened contact currentUser).Refreshed := by
  unfold opened setUser observeMessages
  split
  · exact .inl rfl
  · split
    · exact .inl rfl
    · exact .inl rfl

theorem refreshed_handleSend {vc : ContactInboxVC} (h : vc.Refreshed) : vc.handleSend.Refreshed := by
  unfold handleSend send
  split
  · exact h
  · split
    · exact h
    · exact .inl rfl

theorem refreshed_step {vc vc' : ContactInboxVC} {e : Event} (h : vc.Refreshed)
    (hstep : machine.step vc e = some vc') : vc'.Refreshed := by
  cases step_cases hstep with
  | childAdded => exact h
  | read id snapshot =>
    cases snapshot with
    | none => exact h
    | some info => exact .inr (Nat.succ_ne_zero _)
  | reload => exact .inl rfl
  | layout => exact .inl rfl
  | edit => exact h
  | handleSend => exact refreshed_handleSend h

theorem refreshed_run {contact : User} {currentUser : Option Uid} {vc : ContactInboxVC}
    {es : List Event} (run : machine.run (opened contact currentUser) es = some vc) :
    vc.Refreshed :=
  Machine.run_invariant (fun _ _ _ => refreshed_step) (refreshed_opened contact currentUser) run

end ContactInboxVC

/-- **Neither list drops its last update.** In every reachable state of either screen its table has
read the current array or a refresh is on its way. -/
theorem no_refresh_lost :
    (∀ user es vc, RecentMessagesVC.machine.run (RecentMessagesVC.new.viewDidLoad user) es = some vc →
      vc.Refreshed) ∧
    ∀ contact currentUser es vc,
      ContactInboxVC.machine.run (ContactInboxVC.opened contact currentUser) es = some vc →
        vc.Refreshed :=
  ⟨fun _ _ _ run => RecentMessagesVC.refreshed_run run,
    fun _ _ _ _ run => ContactInboxVC.refreshed_run run⟩

/-- A message arrives between the timer's firing and the reload it dispatched. -/
def burst : List RecentMessagesVC.Event :=
  [.received "alice" (.stored Message) ⟨"alice", "bob", 1, "hi", some true⟩, .timerFired,
    .received "alice" (.stored Message) ⟨"alice", "carol", 2, "hello", some true⟩, .reload]

theorem no_refresh_lost_burst : ∃ vc vc',
    RecentMessagesVC.machine.run (RecentMessagesVC.new.viewDidLoad (some "alice")) burst = some vc ∧
    ContactInboxVC.machine.run (ContactInboxVC.opened ContactInboxVC.bob (some "alice"))
      ContactInboxVC.inOrder = some vc' ∧ vc.Refreshed ∧ vc'.Refreshed :=
  ⟨_, _, rfl, rfl, no_refresh_lost.1 _ burst _ rfl,
    no_refresh_lost.2 _ _ ContactInboxVC.inOrder _ rfl⟩

end AniChat
