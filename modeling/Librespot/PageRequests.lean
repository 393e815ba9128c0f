import Librespot.AppEvents
import Librespot.TrackListings

/-!
What becomes of the pages of a context. A list is opened and its pages are loaded only by requests,
so that whatever these leave true stays true.
-/
namespace Librespot.App
open Librespot.Errors Librespot.Programs Librespot.Ids Librespot.Paging Librespot.Tracks Librespot.Contexts

variable {ω : Type}

/-! ### Opening a list -/

section Lists
variable {ρ : Type} {J : ρ → Prop} {K : List ContextTrack → Prop} {resolver : TrackResolver ρ} (pages : ∀ i, Upholds J (resolver.page i))
include pages

theorem openList_upholds (rnd : Rand) (fuel : Nat) (draw : UInt64) (skipTo : Option Test) (options : Option PlayerOptions) :
    Upholds (Listing J K) (openList resolver rnd fuel draw skipTo options) := by
  have shuffles : Upholds (Listing J K) (openShuffle resolver rnd fuel draw options) := by
    refine upholds_bind (upholds_check _) fun options => upholds_bind (toggleShuffle_upholds pages rnd fuel draw _) fun err => ?_
    cases err with
    | some err => exact upholds_pure _
    | none => exact upholds_pure _
  have seeks : ∀ f, Upholds (Listing J K) (openSeek resolver fuel f) := by
    intro f
    refine upholds_bind (trySeek_upholds pages fuel f) ?_
    intro err
    cases err with
    | some err => exact upholds_pure _
    | none => exact upholds_pure _
  cases skipTo with
  | none =>
    refine upholds_bind shuffles ?_
    intro err
    cases err with
    | some err => exact upholds_pure _
    | none => exact seeks _
  | some skipTo =>
    refine upholds_bind (seeks skipTo) ?_
    intro err
    cases err with
    | some err => exact upholds_pure _
    | none => exact shuffles

end Lists

/-! ### The pages of a context -/

section Contexts
variable {I : ω → Prop} {sp : Spclient ω} (requests : ∀ url w, I w → I (sp.request url w).2)
include requests

theorem loadPage_upholds (url : String) : Upholds (fun r : ContextResolver × ω => I r.2) (loadPage sp url) := by
  refine upholds_ite (upholds_pure _) (upholds_bind ?_ fun reply => ?_)
  · exact upholds_zoom (upholds_total (requests _)) (fun _ => id) fun _ _ _ => id
  · cases reply <;> exact upholds_pure _

theorem page_upholds (idx : Nat) : Upholds (fun r : ContextResolver × ω => I r.2) ((contextPages sp).page idx) := by
  have rounds : ∀ rounds, Upholds (fun r : ContextResolver × ω => I r.2) (loadNextPages sp rounds) := by
    intro rounds
    induction rounds with
    | zero => exact upholds_pure _
    | succ rounds ih =>
      refine upholds_bind upholds_get ?_
      intro r
      split
      · exact upholds_throw _
      · refine upholds_ite (upholds_pure _) (upholds_bind (loadPage_upholds requests _) fun answer => ?_)
        cases answer with
        | error err => exact upholds_pure _
        | ok newPage => exact upholds_bind (upholds_modify fun _ => id) fun _ => ih
  refine upholds_bind upholds_get fun r => upholds_bind (rounds _) fun err => ?_
  cases err with
  | some err => exact upholds_pure _
  | none =>
    refine upholds_bind upholds_get ?_
    intro r
    split
    · exact upholds_throw _
    · refine upholds_ite (upholds_ite (upholds_pure _) ?_) (upholds_pure _)
      refine upholds_bind (loadPage_upholds requests _) ?_
      intro answer
      cases answer with
      | error err => exact upholds_pure _
      | ok newPage => exact upholds_bind (upholds_modify fun _ => id) fun _ => upholds_pure _

omit requests in
theorem newTrackList_upholds (resolves : ∀ uri w, I w → I (sp.contextResolve uri w).2) (spotCtx : Context) :
    Upholds I (newTrackListFromContext sp spotCtx) := by
  have again : Upholds I (resolveAgain sp spotCtx) := by
    refine upholds_bind (upholds_total (resolves _)) ?_
    intro answer
    cases answer with
    | error err => exact upholds_pure _
    | ok newSpotCtx => exact upholds_ite (upholds_pure _) (upholds_pure _)
  have complete : Upholds I (completed sp spotCtx) := upholds_ite again (upholds_pure _)
  have creates : Upholds I (newContextResolver sp spotCtx) := by
    refine upholds_bind complete ?_
    intro answer
    cases answer with
    | error err => exact upholds_pure _
    | ok ctx => exact upholds_bind (upholds_check _) fun _ => upholds_pure _
  refine upholds_bind creates ?_
  intro answer
  cases answer with
  | error err => exact upholds_pure _
  | ok r => exact upholds_pure _

end Contexts

end Librespot.App
