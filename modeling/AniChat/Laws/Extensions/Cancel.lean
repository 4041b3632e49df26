import AniChat.Laws.Extensions.ImageLoading

/-!
# Whose download a cancellation stops

`cancelImageRequest` cancels the task in `dataTask`, a variable of the module: the download that was
started last, by whichever image view. A load that hits the cache leaves the variable as it is, and
a task that has completed stays there.

## What is proved

- `local_iff`: a cancellation stops the caller's downloads and no other exactly when the variable
  holds no running download of another view, and the caller has no running download that the
  variable does not hold.
- `cancel_local_iff`: so a run cancels locally exactly when each of its cancellations is so; and
  then each view's downloads are those of a view alone with its calls (`Downloads`).
-/

namespace AniChat

open Automata Collections

/-! ## One view alone -/

/-- The downloads of one image view. -/
abbrev Downloads := TaskId → Option URLSessionTask.State

namespace Downloads

/-- What happens to the downloads of one image view. -/
inductive Call where
  | started (task : TaskId)
  | cancelImageRequest
  | completed (task : TaskId)
  deriving DecidableEq

/-- A running download is cancelled. -/
def cancel : URLSessionTask.State → URLSessionTask.State
  | .running => .canceling
  | .canceling => .canceling
  | .completed => .completed

/-- A cancellation is of every running download of the view. -/
def step (downloads : Downloads) : Call → Option Downloads
  | .started task =>
    if (downloads task).isNone then some (Function.update downloads task (some .running)) else none
  | .cancelImageRequest => some fun task => (downloads task).map cancel
  | .completed task =>
    if downloads task = some .running ∨ downloads task = some .canceling then
      some (Function.update downloads task (some .completed))
    else none

def machine : Machine Downloads Call := ⟨step⟩

/-- Nothing was downloaded yet. -/
def initial : Downloads := fun _ => none

/-- What is not running is not cancelled. -/
theorem map_cancel_of_ne {state : Option URLSessionTask.State} (h : state ≠ some .running) :
    state.map cancel = state := by
  cases state with
  | none => rfl
  | some state =>
    cases state with
    | running => exact absurd rfl h
    | canceling => rfl
    | completed => rfl

/-- Where one download is running, a cancellation is of that one. -/
theorem map_cancel_of_only {downloads : Downloads} {task : TaskId}
    (running : downloads task = some .running)
    (only : ∀ task', downloads task' = some .running → task' = task) :
    (fun task' => (downloads task').map cancel) =
      Function.update downloads task (some .canceling) := by
  funext task'
  by_cases h : task' = task
  · subst h
    rw [Function.update_self, running]
    rfl
  · rw [Function.update_of_ne h]
    exact map_cancel_of_ne fun running' => h (only task' running')

end Downloads

namespace ImageLoader

variable {Data Bitmap : Type} {platform : Platform Data Bitmap} {s s' : ImageLoader Data Bitmap}
  {e : Event Data}

/-! ## Local cancellations -/

/-- A cancellation by `view` leaves every download of another view as it was, and none of its own
running. -/
def Local (view : ViewId) (s s' : ImageLoader Data Bitmap) : Prop :=
  (∀ task t, s.tasks task = some t → t.view ≠ view → s'.tasks task = some t) ∧
  ∀ task t, s'.tasks task = some t → t.view = view → t.state ≠ .running

/-- The event is no cancellation, or a local one. -/
def CancelsLocally (platform : Platform Data Bitmap) (s : ImageLoader Data Bitmap) (e : Event Data) :
    Prop :=
  ∀ view s', e = .cancelImageRequest view → (machine platform).step s e = some s' → Local view s s'

/-- The running download in `dataTask`, if any, is the caller's, and it is the only one the caller
has running. -/
def Owns (s : ImageLoader Data Bitmap) : Event Data → Prop
  | .cancelImageRequest view =>
    (∀ task t, s.dataTask = some task → s.tasks task = some t → t.state = .running → t.view = view) ∧
    ∀ task t, s.tasks task = some t → t.state = .running → t.view = view → s.dataTask = some task
  | _ => True

/-- A cancellation that stops nothing is local where the caller has nothing running. -/
theorem local_of_idle {view : ViewId}
    (idle : ∀ task t, s.dataTask = some task → s.tasks task = some t → t.state ≠ .running) :
    Local view s s ↔ s.Owns (.cancelImageRequest view : Event Data) := by
  constructor
  · rintro ⟨-, own⟩
    exact ⟨fun task t latest found running => absurd running (idle task t latest found),
      fun task t found running hview => absurd running (own task t found hview)⟩
  · rintro ⟨-, held⟩
    exact ⟨fun _ _ found _ => found,
      fun task t found hview running => idle task t (held task t found running hview) found running⟩

/-- The cancellation of the download started last is local where it is the caller's only one. -/
theorem local_of_latest {view owner : ViewId} {urlString : String} {task : TaskId}
    (latest : s.dataTask = some task) (running : s.tasks task = some ⟨owner, urlString, .running⟩) :
    Local view s
        { s with tasks := Function.update s.tasks task (some ⟨owner, urlString, .canceling⟩) } ↔
      s.Owns (.cancelImageRequest view : Event Data) := by
  constructor
  · rintro ⟨others, own⟩
    refine ⟨fun task' t latest' found hrun => ?_, fun task' t found hrun hview => ?_⟩
    · cases latest.symm.trans latest'
      cases running.symm.trans found
      by_contra hview
      have hsame := others task _ running hview
      dsimp only at hsame
      rw [Function.update_self] at hsame
      cases hsame
    · by_contra hother
      refine own task' t ?_ hview hrun
      exact (Function.update_of_ne (fun h => hother (latest.trans (congrArg some h.symm))) ..).trans
        found
  · rintro ⟨caller, held⟩
    have howner : owner = view := caller task _ latest running rfl
    refine ⟨fun task' t found hview => ?_, fun task' t found hview hrun => ?_⟩
    · refine (Function.update_of_ne (fun h => ?_) ..).trans found
      subst h
      cases running.symm.trans found
      exact hview howner
    · rcases update_eq_some.mp found with ⟨-, rfl⟩ | ⟨hne, hold⟩
      · cases hrun
      · exact hne (Option.some.inj ((held task' t hold hrun hview).symm.trans latest))

/-- **A cancellation is local exactly when the module's task is the caller's only running
download.** -/
theorem local_iff (h : (machine platform).step s e = some s') :
    CancelsLocally platform s e ↔ s.Owns e := by
  by_cases hcancel : ∃ view, e = .cancelImageRequest view
  · obtain ⟨view, rfl⟩ := hcancel
    have hlocal : CancelsLocally platform s (.cancelImageRequest view) ↔ Local view s s' := by
      constructor
      · exact fun hall => hall view s' rfl h
      · intro hl view' t hview ht
        cases hview
        cases h.symm.trans ht
        exact hl
    rw [hlocal]
    cases (step_cases h).2 with
    | cancelNothing idle => exact local_of_idle idle
    | cancel latest running => exact local_of_latest latest running
  · refine iff_of_true (fun view t heq _ => absurd ⟨view, heq⟩ hcancel) ?_
    cases e with
    | cancelImageRequest view => exact absurd ⟨view, rfl⟩ hcancel
    | _ => trivial

/-! ## The downloads of one view -/

/-- The downloads of `view`. -/
def downloads (view : ViewId) (s : ImageLoader Data Bitmap) : Downloads := fun task =>
  (s.tasks task).bind fun t => if t.view = view then some t.state else none

/-- What an event is to the downloads of `view`. -/
def call (platform : Platform Data Bitmap) (view : ViewId) (s : ImageLoader Data Bitmap) :
    Event Data → Option Downloads.Call
  | .loadImageUsingCache view' urlString task =>
    if view' = view ∧ (s.cache urlString).isNone ∧ platform.isURL urlString = true then
      some (.started task)
    else none
  | .cancelImageRequest view' => if view' = view then some .cancelImageRequest else none
  | .completed task _ => if (s.downloads view task).isSome then some (.completed task) else none
  | _ => none

/-- A task of `view` that changes changes among its downloads, and a task of another view does not.
-/
theorem downloads_update {view : ViewId} {task : TaskId} {t : URLSessionTask}
    (tasks : s'.tasks = Function.update s.tasks task (some t)) :
    s'.downloads view =
      Function.update (s.downloads view) task (if t.view = view then some t.state else none) := by
  funext task'
  unfold downloads
  rw [tasks]
  by_cases h : task' = task
  · subst h
    rw [Function.update_self, Function.update_self]
    rfl
  · rw [Function.update_of_ne h, Function.update_of_ne h]

/-- A change to a task of another view is none to the downloads of `view`. -/
theorem downloads_other {view : ViewId} {task : TaskId} {t : URLSessionTask}
    (tasks : s'.tasks = Function.update s.tasks task (some t)) (other : t.view ≠ view)
    (before : s.downloads view task = none) : s'.downloads view = s.downloads view := by
  rw [downloads_update tasks, if_neg other, ← before, Function.update_eq_self]

theorem downloads_eq_some {view : ViewId} {task : TaskId} {state : URLSessionTask.State} :
    s.downloads view task = some state ↔
      ∃ urlString, s.tasks task = some ⟨view, urlString, state⟩ := by
  unfold downloads
  rw [Option.bind_eq_some_iff]
  constructor
  · rintro ⟨⟨owner, urlString, state'⟩, found, h⟩
    obtain ⟨hview, hstate⟩ := Option.ite_none_right_eq_some.mp h
    cases hview
    cases hstate
    exact ⟨urlString, found⟩
  · rintro ⟨urlString, found⟩
    exact ⟨_, found, if_pos rfl⟩

/-- A cancellation that is local is one of the caller's downloads alone. -/
theorem downloads_cancelImageRequest {caller : ViewId} (view : ViewId)
    (owns : s.Owns (.cancelImageRequest caller))
    (h : (machine platform).step s (.cancelImageRequest caller) = some s') :
    s'.downloads view =
      if caller = view then fun task => (s.downloads view task).map Downloads.cancel
      else s.downloads view := by
  obtain ⟨mine, held⟩ := owns
  have only : ∀ task, s.downloads caller task = some .running → s.dataTask = some task := by
    intro task hrun
    obtain ⟨urlString, found⟩ := downloads_eq_some.mp hrun
    exact held task _ found rfl rfl
  cases (step_cases h).2 with
  | cancelNothing idle =>
    split
    · next heq =>
      subst heq
      funext task
      refine (Downloads.map_cancel_of_ne fun hrun => ?_).symm
      obtain ⟨urlString, found⟩ := downloads_eq_some.mp hrun
      exact idle task _ (only task hrun) found rfl
    · rfl
  | @cancel _ owner urlString task latest running =>
    have howner : owner = caller := mine task _ latest running rfl
    subst howner
    split
    · next heq =>
      subst heq
      rw [downloads_update rfl, if_pos rfl]
      refine (Downloads.map_cancel_of_only (downloads_eq_some.mpr ⟨urlString, running⟩) ?_).symm
      exact fun task' hrun => Option.some.inj ((only task' hrun).symm.trans latest)
    · next hne =>
      refine downloads_other rfl hne ?_
      unfold downloads
      rw [running]
      exact if_neg hne

theorem downloads_cancelled {caller : ViewId} (view : ViewId)
    (owns : s.Owns (.cancelImageRequest caller))
    (h : (machine platform).step s (.cancelImageRequest caller) = some s') :
    Downloads.machine.run (s.downloads view)
      (call platform view s (.cancelImageRequest caller)).toList = some (s'.downloads view) := by
  rw [downloads_cancelImageRequest view owns h]
  by_cases hview : caller = view
  · have hcall : call platform view s (.cancelImageRequest caller) = some .cancelImageRequest :=
      if_pos hview
    rw [hcall, if_pos hview]
    rfl
  · have hcall : call platform view s (.cancelImageRequest caller) = none := if_neg hview
    rw [hcall, if_neg hview]
    rfl

/-- A download that ends was one of its view's. -/
theorem downloads_completed {task : TaskId} {owner : ViewId} {urlString : String}
    {state : URLSessionTask.State} {data : Option Data} (view : ViewId)
    (found : s.tasks task = some ⟨owner, urlString, state⟩) (outstanding : state ≠ .completed)
    (tasks : s'.tasks = Function.update s.tasks task (some ⟨owner, urlString, .completed⟩)) :
    Downloads.machine.run (s.downloads view) (call platform view s (.completed task data)).toList =
      some (s'.downloads view) := by
  by_cases hview : owner = view
  · subst hview
    have hstate : s.downloads owner task = some state := downloads_eq_some.mpr ⟨urlString, found⟩
    have hrun : some state = some URLSessionTask.State.running ∨
        some state = some URLSessionTask.State.canceling := by
      cases state with
      | running => exact .inl rfl
      | canceling => exact .inr rfl
      | completed => exact absurd rfl outstanding
    have hcall : call platform owner s (.completed task data) = some (.completed task) :=
      if_pos (by rw [hstate]; rfl)
    rw [hcall, downloads_update tasks, if_pos rfl]
    refine Machine.run_cons_eq_some.mpr ⟨_, ?_, rfl⟩
    simp only [Downloads.machine, Downloads.step, hstate, if_pos hrun]
  · have hnone : s.downloads view task = none := by
      unfold downloads
      rw [found]
      exact if_neg hview
    have hcall : call platform view s (.completed task data) = none :=
      if_neg (by rw [hnone]; exact nofun)
    rw [hcall, downloads_other tasks hview hnone]
    rfl

/-- A step is to the downloads of each view what its call is to a view alone. -/
theorem downloads_step (view : ViewId) (owns : s.Owns e)
    (h : (machine platform).step s e = some s') :
    Downloads.machine.run (s.downloads view) (call platform view s e).toList =
      some (s'.downloads view) := by
  cases (step_cases h).2 with
  | @hit view' urlString task cachedImage alive cached =>
    have hcall : call platform view s (.loadImageUsingCache view' urlString task) = none :=
      if_neg fun hc => absurd hc.2.1 (by rw [cached]; exact nofun)
    rw [hcall]
    rfl
  | @miss view' urlString task alive fresh missing good =>
    have hnone : s.downloads view task = none := by
      unfold downloads
      rw [fresh]
      rfl
    have htasks : ((s.setImage view' none).resume view' urlString task).tasks =
        Function.update s.tasks task (some ⟨view', urlString, .running⟩) := rfl
    by_cases hview : view' = view
    · have hcall : call platform view s (.loadImageUsingCache view' urlString task) =
          some (.started task) := if_pos ⟨hview, by rw [missing]; rfl, good⟩
      rw [hcall, downloads_update htasks, if_pos hview]
      refine Machine.run_cons_eq_some.mpr ⟨_, ?_, rfl⟩
      exact if_pos (by rw [hnone]; rfl)
    · have hcall : call platform view s (.loadImageUsingCache view' urlString task) = none :=
        if_neg fun hc => hview hc.1
      rw [hcall, downloads_other htasks hview hnone]
      rfl
  | @malformed view' urlString task missing bad =>
    have hcall : call platform view s (.loadImageUsingCache view' urlString task) = none :=
      if_neg fun hc => absurd hc.2.2 (ne_true_of_eq_false bad)
    rw [hcall]
    rfl
  | cancelNothing => exact downloads_cancelled view owns h
  | cancel => exact downloads_cancelled view owns h
  | dropped found outstanding gone => exact downloads_completed view found outstanding rfl
  | dispatched found outstanding alive => exact downloads_completed view found outstanding rfl
  | trap next => rfl
  | undecodable next bad => rfl
  | shown next good => rfl
  | deinit unheld => rfl
  | evict urlString => rfl

/-- **Cancelling is local exactly where each cancellation is of the caller's one running download.**
In a run of such cancellations each view's downloads are those of a view alone with its calls. -/
theorem cancel_local_iff {es : List (Event Data)} (run : (machine platform).run initial es = some s) :
    ((machine platform).Meets (CancelsLocally platform) initial es ↔
      (machine platform).Meets Owns initial es) ∧
    ((machine platform).Meets Owns initial es → ∀ view,
      Downloads.machine.run .initial ((machine platform).emits (call platform view) initial es) =
        some (s.downloads view)) := by
  refine ⟨Machine.meets_congr (fun _ _ _ => local_iff) run, fun owns view => ?_⟩
  exact Machine.run_emits_of_meets (fun _ _ _ => downloads_step view) owns run

/-- Two views load, and each cancels its own download at once. -/
def inTurn : List (Event String) :=
  [.loadImageUsingCache 0 "a" 0, .cancelImageRequest 0, .loadImageUsingCache 1 "b" 1,
    .cancelImageRequest 1, .completed 1 none]

theorem cancel_local_inTurn : ∃ s, (machine verbatim).run initial inTurn = some s ∧
    ((machine verbatim).Meets (CancelsLocally verbatim) initial inTurn ↔
      (machine verbatim).Meets Owns initial inTurn) :=
  ⟨_, rfl, (cancel_local_iff rfl).1⟩

/-- A view that is about to be reused cancels the download that another view has just started. -/
theorem cancelled_neighbour : ¬ ∀ (Data Bitmap : Type) (platform : Platform Data Bitmap) es s,
    (machine platform).run initial es = some s →
      (machine platform).Meets (CancelsLocally platform) initial es := by
  intro law
  have h := law _ _ verbatim [.loadImageUsingCache 0 "a" 0, .loadImageUsingCache 1 "b" 1,
    .cancelImageRequest 0] _ rfl
  have hlocal := ((h.2 _ rfl).2 _ rfl).1 0 _ rfl rfl
  cases hlocal.1 1 _ rfl Nat.one_ne_zero

end ImageLoader

end AniChat
