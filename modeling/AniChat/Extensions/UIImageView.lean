import AniChat.Automata.Machine
import Mathlib.Logic.Function.Basic

/-!
# UIImageView — pictures from the network, through a cache

`loadImageUsingCache` and `cancelImageRequest`, with the two variables of the module that every
image view shares: the cache, and the task of the download that was started last. The machine runs
the calls on any number of image views, the completion handlers of their downloads, the blocks these
dispatch, the cache's evictions, and the end of an image view, in any order.

What is taken from the platform: a completion handler runs once, with no data after an error or a
cancellation; the main queue runs its blocks in the order they were dispatched; `NSCache` may forget
anything; a block keeps its image view alive. `URL(string:)` and `UIImage(data:)` are parameters.
-/

namespace AniChat

open Automata

/-- The identity of an image view. -/
abbrev ViewId := Nat

/-- The identity of a `URLSessionTask`. -/
abbrev TaskId := Nat

/-- The parsers the loader calls. -/
structure Platform (Data Bitmap : Type) where
  /-- `URL(string:)` finds a URL. -/
  isURL : String → Bool
  /-- `UIImage(data:)`. -/
  decode : Data → Option Bitmap

/-- An image, with the URL string whose bytes it was decoded from. No code reads the URL. -/
structure UIImage (Bitmap : Type) where
  urlString : String
  bitmap : Bitmap

structure UIImageView (Bitmap : Type) where
  image : Option (UIImage Bitmap)

/-- `URLSessionTask.State`, of a task that was resumed. -/
inductive URLSessionTask.State where
  | running
  | canceling
  | completed
  deriving DecidableEq

/-- A task, with what its completion handler has captured. -/
structure URLSessionTask where
  view : ViewId
  urlString : String
  state : URLSessionTask.State

/-- A block a completion handler has dispatched, with the image view it holds. -/
structure Block (Data : Type) where
  view : ViewId
  urlString : String
  data : Option Data

structure ImageLoader (Data Bitmap : Type) where
  cache : String → Option (UIImage Bitmap)
  dataTask : Option TaskId
  tasks : TaskId → Option URLSessionTask
  /-- The blocks dispatched and not yet run, the next one first. -/
  mainQueue : List (Block Data)
  /-- The image views that are alive. -/
  views : ViewId → Option (UIImageView Bitmap)
  /-- A force unwrap has failed: the process is gone. -/
  trapped : Bool

namespace ImageLoader

variable {Data Bitmap : Type}

/-- Nothing was loaded yet. Every image view there will be is there, and shows nothing. -/
def initial : ImageLoader Data Bitmap where
  cache _ := none
  dataTask := none
  tasks _ := none
  mainQueue := []
  views _ := some ⟨none⟩
  trapped := false

/-- `view.image = image`. -/
def setImage (s : ImageLoader Data Bitmap) (view : ViewId) (image : Option (UIImage Bitmap)) :
    ImageLoader Data Bitmap :=
  { s with views := Function.update s.views view (some ⟨image⟩) }

/-- `session.dataTask(with:)` makes `task`, and it is resumed. -/
def resume (s : ImageLoader Data Bitmap) (view : ViewId) (urlString : String) (task : TaskId) :
    ImageLoader Data Bitmap :=
  { s with
    dataTask := some task
    tasks := Function.update s.tasks task (some ⟨view, urlString, .running⟩) }

/-- `loadImageUsingCache(urlString:)`. A hit returns before `dataTask` is written. -/
def loadImageUsingCache (platform : Platform Data Bitmap) (s : ImageLoader Data Bitmap) (view : ViewId)
    (urlString : String) (task : TaskId) : ImageLoader Data Bitmap :=
  let s := s.setImage view none
  match s.cache urlString with
  | some cachedImage => s.setImage view (some cachedImage)
  | none =>
    if platform.isURL urlString then s.resume view urlString task else { s with trapped := true }

/-- `task.cancel()`. A task that has completed stays completed. -/
def cancel (s : ImageLoader Data Bitmap) (task : TaskId) : ImageLoader Data Bitmap :=
  match s.tasks task with
  | some ⟨view, urlString, .running⟩ =>
    { s with tasks := Function.update s.tasks task (some ⟨view, urlString, .canceling⟩) }
  | _ => s

/-- `cancelImageRequest()`, on whichever image view. -/
def cancelImageRequest (s : ImageLoader Data Bitmap) : ImageLoader Data Bitmap :=
  match s.dataTask with
  | none => s
  | some task => s.cancel task

/-- The completion handler of a task: it dispatches a block while the image view is there. -/
def completionHandler (s : ImageLoader Data Bitmap) (task : TaskId) (view : ViewId)
    (urlString : String) (data : Option Data) : ImageLoader Data Bitmap :=
  let s := { s with tasks := Function.update s.tasks task (some ⟨view, urlString, .completed⟩) }
  match s.views view with
  | none => s
  | some _ => { s with mainQueue := s.mainQueue ++ [⟨view, urlString, data⟩] }

/-- The block a completion handler dispatched: `data!` first. -/
def runBlock (platform : Platform Data Bitmap) (s : ImageLoader Data Bitmap) (block : Block Data) :
    ImageLoader Data Bitmap :=
  match block.data with
  | none => { s with trapped := true }
  | some data =>
    match platform.decode data with
    | none => s
    | some bitmap =>
      { s.setImage block.view (some ⟨block.urlString, bitmap⟩) with
        cache := Function.update s.cache block.urlString (some ⟨block.urlString, bitmap⟩) }

/-- What happens to the image views of an app. -/
inductive Event (Data : Type) where
  /-- `task` is the task that is made unless the cache has the image. -/
  | loadImageUsingCache (view : ViewId) (urlString : String) (task : TaskId)
  | cancelImageRequest (view : ViewId)
  /-- The completion handler of a task runs. -/
  | completed (task : TaskId) (data : Option Data)
  /-- The main queue runs its next block. -/
  | block
  /-- An image view that no block holds goes away. -/
  | deinit (view : ViewId)
  /-- `NSCache` forgets an entry. -/
  | evict (urlString : String)

/-- One of them happens. After a trap nothing does. -/
def step (platform : Platform Data Bitmap) (s : ImageLoader Data Bitmap) (e : Event Data) :
    Option (ImageLoader Data Bitmap) :=
  if s.trapped = true then none else
    match e with
    | .loadImageUsingCache view urlString task =>
      if (s.views view).isSome ∧ (s.tasks task).isNone then
        some (s.loadImageUsingCache platform view urlString task)
      else none
    | .cancelImageRequest view => if (s.views view).isSome then some s.cancelImageRequest else none
    | .completed task data =>
      match s.tasks task with
      | some ⟨view, urlString, .running⟩ => some (s.completionHandler task view urlString data)
      | some ⟨view, urlString, .canceling⟩ =>
        if data.isNone then some (s.completionHandler task view urlString data) else none
      | _ => none
    | .block =>
      match s.mainQueue with
      | [] => none
      | block :: rest => some (runBlock platform { s with mainQueue := rest } block)
    | .deinit view =>
      if (s.views view).isSome ∧ ∀ block ∈ s.mainQueue, block.view ≠ view then
        some { s with views := Function.update s.views view none }
      else none
    | .evict urlString => some { s with cache := Function.update s.cache urlString none }

/-- All image views of an app. -/
def machine (platform : Platform Data Bitmap) : Machine (ImageLoader Data Bitmap) (Event Data) :=
  ⟨step platform⟩

end ImageLoader

end AniChat
