import AniChat.Laws.Extensions.ImageLoading

/-!
# Which request a view answers

A load clears the view, and shows the picture at once or starts a download. The block of a download
shows its picture on the view it was started for, whatever the view was asked for since: the view
ends with the picture of the download that was answered last.

## What is proved

- `shown_step`: after an answer the view shows that answer's picture; with no answer since the last
  request it shows that request's picture or waits for a download.
- `last_request_iff`: so a view that waits for nothing shows what it was last asked for exactly when
  no download has answered since, or the last one that has was for that URL.
-/

namespace AniChat

open Automata Collections

namespace ImageLoader

variable {Data Bitmap : Type} {platform : Platform Data Bitmap} {s s' : ImageLoader Data Bitmap}
  {e : Event Data} {view : ViewId}

/-! ## What a view was asked, and what answered -/

/-- A request on a view, or the block of one of its downloads running. -/
inductive Note where
  | asked (urlString : String)
  | answered (urlString : String)
  deriving DecidableEq

/-- The URL asked for last, and the URL answered last since. -/
structure Standing where
  asked : Option String
  answered : Option String
  deriving DecidableEq

/-- A request is not answered yet. -/
def Standing.note (standing : Standing) : Note → Standing
  | .asked urlString => ⟨some urlString, none⟩
  | .answered urlString => ⟨standing.asked, some urlString⟩

/-- How requests and answers stand, in the order they came. -/
def standing (notes : List Note) : Standing := notes.foldl Standing.note ⟨none, none⟩

/-- What an event is to the requests of `view`. -/
def note (view : ViewId) (s : ImageLoader Data Bitmap) : Event Data → Option Note
  | .loadImageUsingCache view' urlString _ => if view' = view then some (.asked urlString) else none
  | .block =>
    match s.mainQueue with
    | [] => none
    | block :: _ => if block.view = view then some (.answered block.urlString) else none
  | _ => none

theorem note_block {block : Block Data} {rest : List (Block Data)}
    (next : s.mainQueue = block :: rest) :
    note view s .block = if block.view = view then some (.answered block.urlString) else none := by
  unfold note
  rw [next]

/-- The view's downloads end in the bytes of an image. -/
def Succeeds (platform : Platform Data Bitmap) (view : ViewId) (s : ImageLoader Data Bitmap) :
    Event Data → Prop
  | .completed task data => ∀ t, s.tasks task = some t → t.view = view →
      ∃ bytes bitmap, data = some bytes ∧ platform.decode bytes = some bitmap
  | _ => True

/-- A download of the view has not ended, or its block has not run. -/
def Waits (view : ViewId) (s : ImageLoader Data Bitmap) : Prop :=
  (∃ task t, s.tasks task = some t ∧ t.view = view ∧ t.state ≠ .completed) ∨
  ∃ block ∈ s.mainQueue, block.view = view

/-! ## Invariants -/

/-- The cache holds under a URL an image of that URL. -/
def Keyed (s : ImageLoader Data Bitmap) : Prop :=
  ∀ urlString image, s.cache urlString = some image → image.urlString = urlString

theorem keyed_step (h : s.Keyed) (hstep : (machine platform).step s e = some s') : s'.Keyed := by
  cases (step_cases hstep).2 with
  | shown next good =>
    intro urlString image hcache
    rcases update_eq_some.mp hcache with ⟨rfl, rfl⟩ | ⟨-, hold⟩
    · rfl
    · exact h urlString image hold
  | evict urlString =>
    intro urlString' image hcache
    exact h urlString' image (update_none_eq_some.mp hcache).2
  | _ => exact h

/-- The view's blocks hold the bytes of images. -/
def Decodes (platform : Platform Data Bitmap) (view : ViewId) (s : ImageLoader Data Bitmap) : Prop :=
  ∀ block ∈ s.mainQueue, block.view = view →
    ∃ bytes bitmap, block.data = some bytes ∧ platform.decode bytes = some bitmap

theorem decodes_step (h : s.Decodes platform view) (succeeds : s.Succeeds platform view e)
    (hstep : (machine platform).step s e = some s') : s'.Decodes platform view := by
  have rest_decodes : ∀ {block : Block Data} {rest : List (Block Data)}, s.mainQueue = block :: rest →
      ∀ b ∈ rest, b.view = view →
        ∃ bytes bitmap, b.data = some bytes ∧ platform.decode bytes = some bitmap :=
    fun next b hb hview => h b (by rw [next]; exact List.mem_cons_of_mem _ hb) hview
  cases (step_cases hstep).2 with
  | dispatched found outstanding alive =>
    intro block hmem hview
    rcases List.mem_append.mp hmem with hold | hnew
    · exact h block hold hview
    · cases List.mem_singleton.mp hnew
      exact succeeds _ found hview
  | trap next => exact rest_decodes next
  | undecodable next bad => exact rest_decodes next
  | shown next good => exact rest_decodes next
  | _ => exact h

/-- After an answer the view shows its picture. With no answer since the last request it shows that
one's picture, or waits. -/
def Shown (view : ViewId) (standing : Standing) (s : ImageLoader Data Bitmap) : Prop :=
  s.trapped = false → ∀ v, s.views view = some v → ∀ url, standing.asked = some url →
    (∀ urlString, standing.answered = some urlString →
      v.image.map UIImage.urlString = some urlString) ∧
    (standing.answered = none → v.image.map UIImage.urlString = some url ∨ s.Waits view)

theorem shown_of_same {standing : Standing} (h : s.Shown view standing) (untrapped : s.trapped = false)
    (views : s'.views view = s.views view) (waits : s.Waits view → s'.Waits view) :
    s'.Shown view standing := by
  intro _ v hv url hasked
  obtain ⟨hanswered, hnone⟩ := h untrapped v (views ▸ hv) url hasked
  exact ⟨hanswered, fun hn => (hnone hn).imp_right waits⟩

/-- What a change to one task leaves outstanding. -/
theorem waits_update {task : TaskId} {t : URLSessionTask} (h : s.Waits view)
    (tasks : s'.tasks = Function.update s.tasks task (some t))
    (queue : ∀ block ∈ s.mainQueue, block ∈ s'.mainQueue)
    (same : ∀ t', s.tasks task = some t' → t'.view = view → t.view = view ∧ t.state ≠ .completed) :
    s'.Waits view := by
  rcases h with ⟨task', t', found, hview, hstate⟩ | ⟨block, hmem, hview⟩
  · refine .inl ?_
    rw [tasks]
    by_cases htask : task' = task
    · subst htask
      exact ⟨task', t, Function.update_self .., same t' found hview⟩
    · exact ⟨task', t', (Function.update_of_ne htask ..).trans found, hview, hstate⟩
  · exact .inr ⟨block, queue block hmem, hview⟩

/-- What is outstanding of a view after a block of another has run. -/
theorem waits_dequeue {block : Block Data} {rest : List (Block Data)} (h : s.Waits view)
    (next : s.mainQueue = block :: rest) (other : block.view ≠ view) (tasks : s'.tasks = s.tasks)
    (queue : s'.mainQueue = rest) : s'.Waits view := by
  unfold Waits
  rw [tasks, queue]
  refine h.imp_right ?_
  rintro ⟨b, hmem, hview⟩
  rw [next] at hmem
  rcases List.mem_cons.mp hmem with rfl | hrest
  · exact absurd hview other
  · exact ⟨b, hrest, hview⟩

/-- A load leaves its view with the picture it was asked for, or waiting. -/
theorem shown_load {standing : Standing} {view' : ViewId} {urlString : String} {task : TaskId}
    (h : s.Shown view standing) (keyed : s.Keyed)
    (hstep : (machine platform).step s (.loadImageUsingCache view' urlString task) = some s') :
    s'.Shown view
      ((note view s (.loadImageUsingCache view' urlString task)).toList.foldl .note standing) := by
  obtain ⟨untrapped, hcases⟩ := step_cases hstep
  by_cases hview : view' = view
  · subst hview
    have hnote : note view' s (.loadImageUsingCache view' urlString task) = some (.asked urlString) :=
      if_pos rfl
    rw [hnote]
    intro untrapped' v hv url hasked
    cases hasked
    refine ⟨nofun, fun _ => ?_⟩
    cases hcases with
    | @hit _ _ _ image alive cached =>
      cases (Function.update_self ..).symm.trans hv
      exact .inl (congrArg some (keyed urlString image cached))
    | miss alive fresh missing good =>
      exact .inr (.inl ⟨task, _, Function.update_self .., rfl, nofun⟩)
    | malformed missing bad => cases untrapped'
  · have hnote : note view s (.loadImageUsingCache view' urlString task) = none := if_neg hview
    rw [hnote]
    cases hcases with
    | hit alive cached =>
      exact shown_of_same h untrapped (Function.update_of_ne (Ne.symm hview) ..) id
    | miss alive fresh missing good =>
      refine shown_of_same h untrapped (Function.update_of_ne (Ne.symm hview) ..) fun hwaits => ?_
      exact waits_update hwaits rfl (fun _ => id) fun t' found => by cases fresh.symm.trans found
    | malformed missing bad =>
      exact shown_of_same h untrapped (Function.update_of_ne (Ne.symm hview) ..) id

/-- A block leaves its view with its picture, and others as they were. -/
theorem shown_block {standing : Standing} (h : s.Shown view standing)
    (decodes : s.Decodes platform view) (hstep : (machine platform).step s .block = some s') :
    s'.Shown view ((note view s .block).toList.foldl .note standing) := by
  obtain ⟨untrapped, hcases⟩ := step_cases hstep
  cases hcases with
  | trap next => exact fun untrapped' => by cases untrapped'
  | @undecodable owner urlString data rest next bad =>
    have hblock : ⟨owner, urlString, some data⟩ ∈ s.mainQueue := by
      rw [next]
      exact List.mem_cons_self
    rw [note_block next]
    by_cases hview : owner = view
    · obtain ⟨bytes, bitmap, hbytes, hdecode⟩ := decodes _ hblock hview
      cases hbytes
      cases bad.symm.trans hdecode
    · rw [if_neg hview]
      exact shown_of_same h untrapped rfl fun hwaits => waits_dequeue hwaits next hview rfl rfl
  | @shown owner urlString data bitmap rest next good =>
    rw [note_block next]
    by_cases hview : owner = view
    · subst hview
      rw [if_pos rfl]
      intro _ v hv url _
      cases (Function.update_self ..).symm.trans hv
      exact ⟨fun _ hanswered => hanswered, nofun⟩
    · rw [if_neg hview]
      exact shown_of_same h untrapped (Function.update_of_ne (Ne.symm hview) ..) fun hwaits =>
        waits_dequeue hwaits next hview rfl rfl

theorem shown_step {standing : Standing} (h : s.Shown view standing) (keyed : s.Keyed)
    (decodes : s.Decodes platform view) (hstep : (machine platform).step s e = some s') :
    s'.Shown view ((note view s e).toList.foldl .note standing) := by
  obtain ⟨untrapped, hcases⟩ := step_cases hstep
  cases hcases with
  | hit => exact shown_load h keyed hstep
  | miss => exact shown_load h keyed hstep
  | malformed => exact shown_load h keyed hstep
  | trap => exact shown_block h decodes hstep
  | undecodable => exact shown_block h decodes hstep
  | shown => exact shown_block h decodes hstep
  | cancelNothing => exact h
  | @cancel caller owner urlString task latest running =>
    refine shown_of_same h untrapped rfl fun hwaits => ?_
    refine waits_update hwaits rfl (fun _ => id) fun t' found hview => ?_
    cases running.symm.trans found
    exact ⟨hview, nofun⟩
  | @dropped task owner urlString state data found outstanding gone =>
    by_cases hview : owner = view
    · subst hview
      exact fun _ v hv => absurd hv (by rw [gone]; exact nofun)
    · refine shown_of_same h untrapped rfl fun hwaits => ?_
      refine waits_update hwaits rfl (fun _ => id) fun t' found' hv => ?_
      cases found.symm.trans found'
      exact absurd hv hview
  | @dispatched task owner urlString state data found outstanding alive =>
    refine shown_of_same h untrapped rfl fun hwaits => ?_
    by_cases hview : owner = view
    · exact .inr ⟨_, List.mem_append_right _ List.mem_cons_self, hview⟩
    · refine waits_update hwaits rfl (fun _ => List.mem_append_left _) fun t' found' hv => ?_
      cases found.symm.trans found'
      exact absurd hv hview
  | @deinit view' unheld =>
    by_cases hview : view' = view
    · subst hview
      exact fun _ v hv => absurd rfl (update_none_eq_some.mp hv).1
    · exact shown_of_same h untrapped (Function.update_of_ne (Ne.symm hview) ..) id
  | evict urlString => exact shown_of_same h untrapped rfl id

/-! ## Along a run -/

/-- The requests on a view and the answers to it, in the order of a run. -/
def notes (platform : Platform Data Bitmap) (view : ViewId) (es : List (Event Data)) : List Note :=
  (machine platform).emits (note view) initial es

theorem shown_run {es : List (Event Data)}
    (succeeds : (machine platform).Meets (Succeeds platform view) initial es)
    (run : (machine platform).run initial es = some s) :
    s.Keyed ∧ s.Decodes platform view ∧ s.Shown view (standing (notes platform view es)) := by
  refine Machine.run_induction_of_meets
    (P := fun es s =>
      s.Keyed ∧ s.Decodes platform view ∧ s.Shown view (standing (notes platform view es)))
    ⟨nofun, nofun, fun _ _ _ _ hasked => by cases hasked⟩
    (fun es e s s' hrun succeeds h hstep => ?_) succeeds run
  obtain ⟨keyed, decodes, shown⟩ := h
  have hnotes : notes platform view (es ++ [e]) = notes platform view es ++ (note view s e).toList :=
    Machine.emits_snoc hrun hstep
  refine ⟨keyed_step keyed hstep, decodes_step decodes succeeds hstep, ?_⟩
  rw [hnotes, standing, List.foldl_append]
  exact shown_step shown keyed decodes hstep

/-- **The last answer wins.** A view whose downloads all succeeded, and that waits for none, shows
the picture of the URL it was asked for last if and only if no download has answered since that
request, or the last one that has was for that URL. -/
theorem last_request_iff {es : List (Event Data)} {v : UIImageView Bitmap} {url : String}
    (succeeds : (machine platform).Meets (Succeeds platform view) initial es)
    (run : (machine platform).run initial es = some s) (untrapped : s.trapped = false)
    (alive : s.views view = some v) (settled : ¬ s.Waits view)
    (asked : (standing (notes platform view es)).asked = some url) :
    v.image.map UIImage.urlString = some url ↔
      (standing (notes platform view es)).answered = none ∨
        (standing (notes platform view es)).answered = some url := by
  obtain ⟨hanswered, hnone⟩ := (shown_run succeeds run).2.2 untrapped v alive url asked
  cases h : (standing (notes platform view es)).answered with
  | none => exact iff_of_true ((hnone h).resolve_right settled) (.inl rfl)
  | some urlString =>
    rw [hanswered urlString h]
    exact ⟨.inr, fun h => h.resolve_left (Option.some_ne_none _)⟩

/-- A view is asked for two pictures, and the downloads answer in this order. -/
def twoRequests (first second : TaskId) : List (Event String) :=
  [.loadImageUsingCache 0 "a" 0, .loadImageUsingCache 0 "b" 1, .completed first (some "bytes"), .block,
    .completed second (some "bytes"), .block]

theorem succeeds_twoRequests (first second : TaskId) :
    (machine verbatim).Meets (Succeeds verbatim 0) initial (twoRequests first second) :=
  ⟨trivial, fun _ _ => ⟨trivial, fun _ _ => ⟨fun _ _ _ => ⟨_, _, rfl, rfl⟩, fun _ _ =>
    ⟨trivial, fun _ _ => ⟨fun _ _ _ => ⟨_, _, rfl, rfl⟩, fun _ _ => ⟨trivial, fun _ _ => trivial⟩⟩⟩⟩⟩⟩

/-- Both downloads have ended and their blocks have run. -/
theorem settled_of_completed {s : ImageLoader String String}
    (zero : s.tasks 0 = some ⟨0, "a", .completed⟩) (one : s.tasks 1 = some ⟨0, "b", .completed⟩)
    (others : ∀ n, s.tasks (n + 2) = none) (queue : s.mainQueue = []) : ¬ s.Waits 0 := by
  rintro (⟨task, t, found, -, hstate⟩ | ⟨block, hmem, -⟩)
  · match task with
    | 0 => cases zero.symm.trans found; exact hstate rfl
    | 1 => cases one.symm.trans found; exact hstate rfl
    | n + 2 => cases (others n).symm.trans found
  · rw [queue] at hmem
    cases hmem

theorem last_request_inOrder : ∃ s v, (machine verbatim).run initial (twoRequests 0 1) = some s ∧
    s.views 0 = some v ∧ v.image.map UIImage.urlString = some "b" :=
  ⟨_, _, rfl, rfl, (last_request_iff (succeeds_twoRequests 0 1) rfl rfl rfl
    (settled_of_completed rfl rfl (fun _ => rfl) rfl) rfl).mpr (.inr rfl)⟩

/-- The older download answers last, and its picture stays. -/
theorem overtaken_request : ¬ ∀ (Data Bitmap : Type) (platform : Platform Data Bitmap) view es s v url,
    (machine platform).Meets (Succeeds platform view) initial es →
      (machine platform).run initial es = some s → s.trapped = false → s.views view = some v →
        ¬ s.Waits view → (standing (notes platform view es)).asked = some url →
          v.image.map UIImage.urlString = some url := by
  intro law
  have h := law _ _ verbatim 0 (twoRequests 1 0) _ _ "b" (succeeds_twoRequests 1 0) rfl rfl rfl
    (settled_of_completed rfl rfl (fun _ => rfl) rfl) rfl
  revert h
  decide

end ImageLoader

end AniChat
