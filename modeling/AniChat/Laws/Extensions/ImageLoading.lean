import AniChat.Collections.Dictionary
import AniChat.Extensions.UIImageView

/-!
# One step of the image loader

What each event can do, in named cases, and how the main queue takes its blocks: the first one first,
and each of them once.
-/

namespace AniChat

open Automata Collections

namespace ImageLoader

variable {Data Bitmap : Type} {platform : Platform Data Bitmap} {s s' : ImageLoader Data Bitmap}
  {e : Event Data}

/-- What one event can do. -/
inductive Step (platform : Platform Data Bitmap) (s : ImageLoader Data Bitmap) :
    Event Data → ImageLoader Data Bitmap → Prop where
  /-- A load is answered from the cache. -/
  | hit {view : ViewId} {urlString : String} {task : TaskId} {cachedImage : UIImage Bitmap}
      (alive : s.views view ≠ none) (cached : s.cache urlString = some cachedImage) :
      Step platform s (.loadImageUsingCache view urlString task) (s.setImage view (some cachedImage))
  /-- A load starts a download. -/
  | miss {view : ViewId} {urlString : String} {task : TaskId} (alive : s.views view ≠ none)
      (fresh : s.tasks task = none) (missing : s.cache urlString = none)
      (good : platform.isURL urlString = true) :
      Step platform s (.loadImageUsingCache view urlString task)
        ((s.setImage view none).resume view urlString task)
  /-- `URL(string:)!` fails. -/
  | malformed {view : ViewId} {urlString : String} {task : TaskId}
      (missing : s.cache urlString = none) (bad : platform.isURL urlString = false) :
      Step platform s (.loadImageUsingCache view urlString task)
        { s.setImage view none with trapped := true }
  /-- There is no task to cancel, or it has been cancelled or has completed. -/
  | cancelNothing {view : ViewId}
      (idle : ∀ task t, s.dataTask = some task → s.tasks task = some t → t.state ≠ .running) :
      Step platform s (.cancelImageRequest view) s
  /-- The download started last is cancelled. -/
  | cancel {view owner : ViewId} {urlString : String} {task : TaskId} (latest : s.dataTask = some task)
      (running : s.tasks task = some ⟨owner, urlString, .running⟩) :
      Step platform s (.cancelImageRequest view)
        { s with tasks := Function.update s.tasks task (some ⟨owner, urlString, .canceling⟩) }
  /-- A download ends after its image view. -/
  | dropped {task : TaskId} {view : ViewId} {urlString : String} {state : URLSessionTask.State}
      {data : Option Data} (found : s.tasks task = some ⟨view, urlString, state⟩)
      (outstanding : state ≠ .completed) (gone : s.views view = none) :
      Step platform s (.completed task data)
        { s with tasks := Function.update s.tasks task (some ⟨view, urlString, .completed⟩) }
  /-- A download ends, and its block is dispatched. -/
  | dispatched {task : TaskId} {view : ViewId} {urlString : String} {state : URLSessionTask.State}
      {data : Option Data} (found : s.tasks task = some ⟨view, urlString, state⟩)
      (outstanding : state ≠ .completed) (alive : s.views view ≠ none) :
      Step platform s (.completed task data)
        { s with
          tasks := Function.update s.tasks task (some ⟨view, urlString, .completed⟩)
          mainQueue := s.mainQueue ++ [⟨view, urlString, data⟩] }
  /-- `data!` fails. -/
  | trap {view : ViewId} {urlString : String} {rest : List (Block Data)}
      (next : s.mainQueue = ⟨view, urlString, none⟩ :: rest) :
      Step platform s .block { s with mainQueue := rest, trapped := true }
  /-- The bytes are not those of an image. -/
  | undecodable {view : ViewId} {urlString : String} {data : Data} {rest : List (Block Data)}
      (next : s.mainQueue = ⟨view, urlString, some data⟩ :: rest) (bad : platform.decode data = none) :
      Step platform s .block { s with mainQueue := rest }
  /-- The picture is cached and shown. -/
  | shown {view : ViewId} {urlString : String} {data : Data} {bitmap : Bitmap}
      {rest : List (Block Data)} (next : s.mainQueue = ⟨view, urlString, some data⟩ :: rest)
      (good : platform.decode data = some bitmap) :
      Step platform s .block
        { s.setImage view (some ⟨urlString, bitmap⟩) with
          cache := Function.update s.cache urlString (some ⟨urlString, bitmap⟩), mainQueue := rest }
  | deinit {view : ViewId} (unheld : ∀ block ∈ s.mainQueue, block.view ≠ view) :
      Step platform s (.deinit view) { s with views := Function.update s.views view none }
  | evict (urlString : String) :
      Step platform s (.evict urlString) { s with cache := Function.update s.cache urlString none }

theorem setImage_setImage (s : ImageLoader Data Bitmap) (view : ViewId)
    (image image' : Option (UIImage Bitmap)) :
    (s.setImage view image).setImage view image' = s.setImage view image' := by
  unfold setImage
  dsimp only
  rw [Function.update_idem]

theorem loadImageUsingCache_cases {view : ViewId} {urlString : String} {task : TaskId}
    (alive : s.views view ≠ none) (fresh : s.tasks task = none) :
    Step platform s (.loadImageUsingCache view urlString task)
      (s.loadImageUsingCache platform view urlString task) := by
  unfold loadImageUsingCache
  dsimp only
  split
  · next cachedImage cached =>
    rw [setImage_setImage]
    exact .hit alive cached
  · next missing =>
    split
    · next good => exact .miss alive fresh missing good
    · next bad => exact .malformed missing (Bool.eq_false_iff.mpr bad)

theorem cancelImageRequest_cases (view : ViewId) :
    Step platform s (.cancelImageRequest view) s.cancelImageRequest := by
  unfold cancelImageRequest
  split
  · next none => exact .cancelNothing fun _ _ latest => by rw [none] at latest; cases latest
  · next task latest =>
    unfold cancel
    split
    · next running => exact .cancel latest running
    · next other =>
      refine .cancelNothing fun task' t latest' found => ?_
      cases latest.symm.trans latest'
      obtain ⟨view', urlString, state⟩ := t
      rintro rfl
      exact other view' urlString found

theorem completionHandler_cases {task : TaskId} {view : ViewId} {urlString : String}
    {state : URLSessionTask.State} (data : Option Data)
    (found : s.tasks task = some ⟨view, urlString, state⟩) (outstanding : state ≠ .completed) :
    Step platform s (.completed task data) (s.completionHandler task view urlString data) := by
  unfold completionHandler
  dsimp only
  split
  · next gone => exact .dropped found outstanding gone
  · next alive =>
    exact .dispatched found outstanding (by rw [alive]; exact Option.some_ne_none _)

theorem runBlock_cases {block : Block Data} {rest : List (Block Data)}
    (next : s.mainQueue = block :: rest) :
    Step platform s .block (runBlock platform { s with mainQueue := rest } block) := by
  obtain ⟨view, urlString, data⟩ := block
  unfold runBlock
  dsimp only
  split
  · exact .trap next
  · split
    · next bad => exact .undecodable next bad
    · next good => exact .shown next good

/-- Nothing happens after a trap, and before one what happens is one of the cases. -/
theorem step_cases (h : (machine platform).step s e = some s') :
    s.trapped = false ∧ Step platform s e s' := by
  simp only [machine, step] at h
  obtain ⟨untrapped, h⟩ := Option.ite_none_left_eq_some.mp h
  refine ⟨Bool.eq_false_iff.mpr untrapped, ?_⟩
  cases e with
  | loadImageUsingCache view urlString task =>
    obtain ⟨⟨alive, fresh⟩, h⟩ := Option.ite_none_right_eq_some.mp h
    cases h
    exact loadImageUsingCache_cases (Option.isSome_iff_ne_none.mp alive)
      (Option.isNone_iff_eq_none.mp fresh)
  | cancelImageRequest view =>
    obtain ⟨alive, h⟩ := Option.ite_none_right_eq_some.mp h
    cases h
    exact cancelImageRequest_cases view
  | completed task data =>
    dsimp only at h
    split at h
    · next found =>
      cases h
      exact completionHandler_cases data found nofun
    · next found =>
      obtain ⟨-, h⟩ := Option.ite_none_right_eq_some.mp h
      cases h
      exact completionHandler_cases data found nofun
    · cases h
  | block =>
    dsimp only at h
    split at h
    · cases h
    · next next =>
      cases h
      exact runBlock_cases next
  | deinit view =>
    obtain ⟨⟨-, unheld⟩, h⟩ := Option.ite_none_right_eq_some.mp h
    cases h
    exact .deinit unheld
  | evict urlString =>
    cases h
    exact .evict urlString

/-! ## The main queue -/

/-- The main queue can run its next block. -/
theorem block_step (platform : Platform Data Bitmap) {block : Block Data} {rest : List (Block Data)}
    (untrapped : s.trapped = false) (next : s.mainQueue = block :: rest) :
    (machine platform).step s .block = some (runBlock platform { s with mainQueue := rest } block) := by
  simp only [machine, step, untrapped, next, Bool.false_eq_true, if_false]

theorem runBlock_mainQueue (s : ImageLoader Data Bitmap) (block : Block Data) :
    (runBlock platform s block).mainQueue = s.mainQueue := by
  unfold runBlock
  split
  · rfl
  · split
    · rfl
    · rfl

/-- A block that runs was the first of the queue. -/
theorem block_mainQueue (h : (machine platform).step s .block = some s') :
    ∃ block, s.mainQueue = block :: s'.mainQueue := by
  cases (step_cases h).2 with
  | trap next => exact ⟨_, next⟩
  | undecodable next bad => exact ⟨_, next⟩
  | shown next good => exact ⟨_, next⟩

/-- The main queue runs its blocks in their order. -/
theorem blocks_run {n : Nat} (run : (machine platform).run s (List.replicate n .block) = some s') :
    s'.mainQueue = s.mainQueue.drop n := by
  induction n generalizing s with
  | zero => cases run; rfl
  | succ n ih =>
    rw [List.replicate_succ] at run
    obtain ⟨t, hstep, hrun⟩ := Machine.run_cons_eq_some.mp run
    obtain ⟨block, next⟩ := block_mainQueue hstep
    rw [ih hrun, next, List.drop_succ_cons]

/-- Any string is a URL, and bytes are strings that stand for themselves. -/
def verbatim : Platform String String where
  isURL _ := true
  decode data := some data

end ImageLoader

end AniChat
