import AniChat.Laws.Extensions.ImageLoading

/-!
# What the cache answers with

Where a URL always serves the same bytes, one image belongs to it: what those bytes decode to.
Entries are made by blocks, late ones and those of cancelled requests among them, and each block
stores under the URL its bytes came from.

## What is proved

- `faithful_step`: an invariant over the cache, the tasks, the blocks and the views, which says of
  each image what URL it is of and of each task and block on which view it was requested.
- `cache_agrees`: what the cache holds and what a view shows is the image of its URL, and a hit
  shows what the download it spares would have shown.
-/

namespace AniChat

open Automata Collections

namespace ImageLoader

variable {Data Bitmap : Type} {platform : Platform Data Bitmap} {serve : String → Data}
  {s s' : ImageLoader Data Bitmap} {e : Event Data} {es : List (Event Data)}

/-- The image of a URL, from the bytes it serves. -/
def fresh (platform : Platform Data Bitmap) (serve : String → Data) (urlString : String) :
    Option (UIImage Bitmap) :=
  (platform.decode (serve urlString)).map fun bitmap => ⟨urlString, bitmap⟩

/-- A download that ends in bytes ends in those that its URL serves. -/
def Serves (serve : String → Data) (s : ImageLoader Data Bitmap) : Event Data → Prop
  | .completed task (some data) => ∀ t, s.tasks task = some t → data = serve t.urlString
  | _ => True

/-- A URL was requested on a view. -/
def Requested (es : List (Event Data)) (view : ViewId) (urlString : String) : Prop :=
  ∃ task, .loadImageUsingCache view urlString task ∈ es

theorem Requested.snoc {view : ViewId} {urlString : String} (h : Requested es view urlString) :
    Requested (es ++ [e]) view urlString := by
  obtain ⟨task, hmem⟩ := h
  exact ⟨task, List.mem_append_left _ hmem⟩

theorem requested_last (view : ViewId) (urlString : String) (task : TaskId) :
    Requested (es ++ [.loadImageUsingCache view urlString task]) view urlString :=
  ⟨task, List.mem_append_right _ List.mem_cons_self⟩

/-- Every image is the image of a URL, and every image a view has or waits for is of a URL requested
on it. -/
structure Faithful (platform : Platform Data Bitmap) (serve : String → Data) (es : List (Event Data))
    (s : ImageLoader Data Bitmap) : Prop where
  cached : ∀ urlString image, s.cache urlString = some image →
    fresh platform serve urlString = some image
  started : ∀ task t, s.tasks task = some t → Requested es t.view t.urlString
  queued : ∀ block ∈ s.mainQueue, Requested es block.view block.urlString ∧
    ∀ data, block.data = some data → data = serve block.urlString
  shown : ∀ view v image, s.views view = some v → v.image = some image →
    ∃ urlString, Requested es view urlString ∧ fresh platform serve urlString = some image

namespace Faithful

theorem snoc (h : Faithful platform serve es s) : Faithful platform serve (es ++ [e]) s where
  cached := h.cached
  started task t found := (h.started task t found).snoc
  queued block hmem := ⟨(h.queued block hmem).1.snoc, (h.queued block hmem).2⟩
  shown view v image hv himage := by
    obtain ⟨urlString, hreq, hfresh⟩ := h.shown view v image hv himage
    exact ⟨urlString, hreq.snoc, hfresh⟩

/-- A view is given no image, or one of a URL that was requested on it. -/
theorem setImage (h : Faithful platform serve es s) (view : ViewId) (image : Option (UIImage Bitmap))
    (good : ∀ img, image = some img →
      ∃ urlString, Requested es view urlString ∧ fresh platform serve urlString = some img) :
    Faithful platform serve es (s.setImage view image) where
  cached := h.cached
  started := h.started
  queued := h.queued
  shown view' v img hv himage := by
    rcases update_eq_some.mp hv with ⟨rfl, rfl⟩ | ⟨-, hold⟩
    · exact good img himage
    · exact h.shown view' v img hold himage

/-- A view is cleared. -/
theorem clear (h : Faithful platform serve es s) (view : ViewId) :
    Faithful platform serve es (s.setImage view none) :=
  h.setImage view none fun _ himage => by cases himage

/-- A task that starts or goes on is for a URL that was requested on its view. -/
theorem task (h : Faithful platform serve es s) {task : TaskId} {view : ViewId} {urlString : String}
    {state : URLSessionTask.State} (requested : Requested es view urlString) :
    Faithful platform serve es
      { s with tasks := Function.update s.tasks task (some ⟨view, urlString, state⟩) } where
  cached := h.cached
  started task' t' found := by
    rcases update_eq_some.mp found with ⟨-, rfl⟩ | ⟨-, hold⟩
    · exact requested
    · exact h.started task' t' hold
  queued := h.queued
  shown := h.shown

/-- A block is dispatched with the bytes of its URL. -/
theorem dispatch (h : Faithful platform serve es s) {view : ViewId} {urlString : String}
    {data : Option Data} (requested : Requested es view urlString)
    (served : ∀ d, data = some d → d = serve urlString) :
    Faithful platform serve es
      { s with mainQueue := s.mainQueue ++ [⟨view, urlString, data⟩] } where
  cached := h.cached
  started := h.started
  queued block hmem := by
    rcases List.mem_append.mp hmem with hold | hnew
    · exact h.queued block hold
    · cases List.mem_singleton.mp hnew
      exact ⟨requested, served⟩
  shown := h.shown

/-- A block leaves the queue. -/
theorem dequeue (h : Faithful platform serve es s) {block : Block Data} {rest : List (Block Data)}
    (next : s.mainQueue = block :: rest) :
    Faithful platform serve es { s with mainQueue := rest } where
  cached := h.cached
  started := h.started
  queued block' hmem := h.queued block' (by rw [next]; exact List.mem_cons_of_mem _ hmem)
  shown := h.shown

/-- An image of its URL is cached. -/
theorem store (h : Faithful platform serve es s) {urlString : String} {image : UIImage Bitmap}
    (good : fresh platform serve urlString = some image) :
    Faithful platform serve es
      { s with cache := Function.update s.cache urlString (some image) } where
  cached urlString' image' hcache := by
    rcases update_eq_some.mp hcache with ⟨rfl, rfl⟩ | ⟨-, hold⟩
    · exact good
    · exact h.cached urlString' image' hold
  started := h.started
  queued := h.queued
  shown := h.shown

end Faithful

theorem faithful_step (h : Faithful platform serve es s) (serves : s.Serves serve e)
    (hstep : (machine platform).step s e = some s') : Faithful platform serve (es ++ [e]) s' := by
  have hlater : Faithful platform serve (es ++ [e]) s := h.snoc
  cases (step_cases hstep).2 with
  | @hit view urlString task cachedImage alive cached =>
    refine hlater.setImage view (some cachedImage) fun image himage => ?_
    cases himage
    exact ⟨urlString, requested_last view urlString task, h.cached urlString cachedImage cached⟩
  | @miss view urlString task alive fresh missing good =>
    have hreq : Requested (es ++ [.loadImageUsingCache view urlString task]) view urlString :=
      requested_last view urlString task
    have htask := @Faithful.task _ _ _ _ _ _ (hlater.clear view) task view urlString .running hreq
    exact ⟨htask.cached, htask.started, htask.queued, htask.shown⟩
  | @malformed view urlString task missing bad =>
    have hclear := hlater.clear view
    exact ⟨hclear.cached, hclear.started, hclear.queued, hclear.shown⟩
  | cancelNothing => exact hlater
  | cancel latest running => exact hlater.task (hlater.started _ _ running)
  | dropped found outstanding gone => exact hlater.task (hlater.started _ _ found)
  | @dispatched task view urlString state data found outstanding alive =>
    have hreq := hlater.started task _ found
    refine (hlater.task hreq).dispatch hreq fun d hd => ?_
    cases hd
    exact serves _ found
  | trap next =>
    have hrest := hlater.dequeue next
    exact ⟨hrest.cached, hrest.started, hrest.queued, hrest.shown⟩
  | undecodable next bad => exact hlater.dequeue next
  | @shown view urlString data bitmap rest next good =>
    have hblock : ⟨view, urlString, some data⟩ ∈ s.mainQueue := by
      rw [next]
      exact List.mem_cons_self
    obtain ⟨hreq, hserved⟩ := hlater.queued _ hblock
    have hfresh : fresh platform serve urlString = some ⟨urlString, bitmap⟩ := by
      unfold fresh
      rw [← hserved data rfl, good]
      rfl
    have hshown := ((hlater.dequeue next).store hfresh).setImage view
      (some ⟨urlString, bitmap⟩) fun image himage => by
        cases himage
        exact ⟨urlString, hreq, hfresh⟩
    exact ⟨hshown.cached, hshown.started, hshown.queued, hshown.shown⟩
  | @deinit view unheld =>
    refine ⟨hlater.cached, hlater.started, hlater.queued, fun view' v image hv himage => ?_⟩
    exact hlater.shown view' v image (update_none_eq_some.mp hv).2 himage
  | evict urlString =>
    refine ⟨fun urlString' image hcache => ?_, hlater.started, hlater.queued, hlater.shown⟩
    exact hlater.cached urlString' image (update_none_eq_some.mp hcache).2

/-- What the code reaches is faithful to the URLs. -/
theorem faithful_run (serves : (machine platform).Meets (Serves serve) initial es)
    (run : (machine platform).run initial es = some s) : Faithful platform serve es s :=
  Machine.run_induction_of_meets ⟨nofun, nofun, nofun, fun _ _ _ hv himage => by
    cases hv
    cases himage⟩ (fun _ _ _ _ _ serves h hstep => faithful_step h serves hstep) serves run

/-! ## A hit and the download it spares -/

/-- The same load without the cache: the entry is forgotten, the download ends in what the URL
serves, and the main queue runs until it has run its block. -/
def download (serve : String → Data) (s : ImageLoader Data Bitmap) (view : ViewId) (urlString : String)
    (task : TaskId) : List (Event Data) :=
  [.evict urlString, .loadImageUsingCache view urlString task,
    .completed task (some (serve urlString))] ++
    List.replicate (s.mainQueue.length + 1) .block

/-- A load that misses and whose download ends has its block behind all others. -/
theorem missed_run {view : ViewId} {urlString : String} {task : TaskId} {data : Data}
    (run : (machine platform).run s [.evict urlString, .loadImageUsingCache view urlString task,
      .completed task (some data)] = some s') :
    s'.mainQueue = s.mainQueue ++ [⟨view, urlString, some data⟩] := by
  obtain ⟨evicted, hevict, run⟩ := Machine.run_cons_eq_some.mp run
  obtain ⟨loading, hload, run⟩ := Machine.run_cons_eq_some.mp run
  obtain ⟨completed, hcompleted, run⟩ := Machine.run_cons_eq_some.mp run
  cases run
  cases (step_cases hevict).2 with
  | evict =>
    cases (step_cases hload).2 with
    | hit alive cached => exact absurd rfl (update_none_eq_some.mp cached).1
    | malformed missing bad => exact absurd (step_cases hcompleted).1 nofun
    | miss alive fresh missing good =>
      cases (step_cases hcompleted).2 with
      | dropped found outstanding gone =>
        cases (Function.update_self ..).symm.trans found
        exact absurd gone (update_eq_none.not.mpr fun h => h.1 rfl)
      | dispatched found outstanding alive' =>
        cases (Function.update_self ..).symm.trans found
        rfl

/-- The download that a hit spares shows the image of its URL. -/
theorem download_shows {view : ViewId} {urlString : String} {task : TaskId} {image : UIImage Bitmap}
    (good : fresh platform serve urlString = some image)
    (run : (machine platform).run s (download serve s view urlString task) = some s') :
    s'.views view = some ⟨some image⟩ := by
  obtain ⟨bitmap, hdecode, rfl⟩ := Option.map_eq_some_iff.mp good
  obtain ⟨queued, hqueued, hblocks⟩ := Machine.run_append_eq_some.mp run
  rw [List.replicate_succ'] at hblocks
  obtain ⟨last, hearlier, hlast⟩ := Machine.run_snoc_eq_some.mp hblocks
  have hqueue : last.mainQueue = [⟨view, urlString, some (serve urlString)⟩] := by
    rw [blocks_run hearlier, missed_run hqueued, List.drop_left]
  cases (step_cases hlast).2 with
  | trap next => cases hqueue.symm.trans next
  | undecodable next bad =>
    cases hqueue.symm.trans next
    cases hdecode.symm.trans bad
  | shown next good =>
    cases hqueue.symm.trans next
    cases hdecode.symm.trans good
    exact Function.update_self ..

/-- **The cached path agrees with the plain path.** Where each URL serves the same bytes, whatever
the cache holds under a URL is the image of that URL, whatever a view shows is the image of a URL
that was requested on it, and a load that the cache answers shows what its download would have
shown. -/
theorem cache_agrees (serves : (machine platform).Meets (Serves serve) initial es)
    (run : (machine platform).run initial es = some s) :
    (∀ urlString image, s.cache urlString = some image →
      fresh platform serve urlString = some image) ∧
    (∀ view v image, s.views view = some v → v.image = some image →
      ∃ urlString, Requested es view urlString ∧ fresh platform serve urlString = some image) ∧
    ∀ view urlString task task' hit plain, s.cache urlString ≠ none →
      (machine platform).step s (.loadImageUsingCache view urlString task) = some hit →
      (machine platform).run s (download serve s view urlString task') = some plain →
        hit.views view = plain.views view := by
  have hfaithful := faithful_run serves run
  refine ⟨hfaithful.cached, hfaithful.shown, ?_⟩
  intro view urlString task task' hit plain hcached hhit hplain
  cases (step_cases hhit).2 with
  | @hit _ _ _ image alive cached =>
    rw [download_shows (hfaithful.cached urlString image cached) hplain]
    exact Function.update_self ..
  | miss alive fresh missing good => exact absurd missing hcached
  | malformed missing bad => exact absurd missing hcached

/-- One view has loaded a picture, and another asks for the same. -/
def loaded : List (Event String) :=
  [.loadImageUsingCache 0 "a" 0, .completed 0 (some "a"), .block]

theorem cache_agrees_loaded : ∃ s hit plain, (machine verbatim).run initial loaded = some s ∧
    (machine verbatim).step s (.loadImageUsingCache 1 "a" 1) = some hit ∧
    (machine verbatim).run s (download id s 1 "a" 2) = some plain ∧ hit.views 1 = plain.views 1 := by
  have serves : (machine verbatim).Meets (Serves id) initial loaded := by
    refine ⟨trivial, fun s hs => ?_⟩
    cases hs
    refine ⟨fun t ht => ?_, fun s hs => ⟨trivial, fun _ _ => trivial⟩⟩
    cases ht
    rfl
  exact ⟨_, _, _, rfl, rfl, rfl,
    (cache_agrees serves rfl).2.2 1 "a" 1 2 _ _ (Option.some_ne_none _) rfl rfl⟩

end ImageLoader

end AniChat
