import Librespot.ContextResolver

/-!
A context resolver over its lifetime: the constructor, which may resolve the context
anew and marks the tracks of a station, and the calls of `Page` after it.
-/
namespace Librespot.Contexts
open Librespot.Errors Librespot.Programs Librespot.Ids

variable {ω : Type}

/-- Calls of `Page`, one after the other. -/
def pageCalls (sp : Spclient ω) : List Nat → Prog Fault (ContextResolver × ω) (List (Except GoError (List ContextTrack)))
  | [] => return []
  | idx :: rest => do
    let answer ← page sp idx
    return answer :: (← pageCalls sp rest)

/-- The context is that of a station. -/
def Station (ctx : Context) : Prop := hasPrefix ctx.uri "spotify:station:"

instance (ctx : Context) : Decidable (Station ctx) := inferInstanceAs (Decidable (hasPrefix ctx.uri "spotify:station:" = true))

/-- Every track of the page has a map for its metadata. -/
def Annotatable (page : ContextPage) : Prop := ∀ track ∈ page.tracks, track.metadata ≠ none

/-- The context has a page, and the tracks of a station can be marked. -/
def Usable (ctx : Context) : Prop := ctx.pages ≠ [] ∧ (Station ctx → ∀ page ∈ ctx.pages, Annotatable page)

/-- The context that the resolver is made for is usable: the given one if no pages or
    tracks of it are missing, otherwise the one that the service answers with. -/
def UsableContext (sp : Spclient ω) (spotCtx : Context) (w : ω) : Prop :=
  if spotCtx.pages.length = 0 ∨ ¬ isTracksComplete spotCtx then
    ∀ ctx, (sp.contextResolve spotCtx.uri w).1 = .ok ctx → ctx.loading = false → Usable ctx
  else Usable spotCtx

/-- The constructor returns, and whatever pages its resolver is asked for, it answers. -/
def AnswersAlways (sp : Spclient ω) (spotCtx : Context) (w : ω) : Prop :=
  Meets (newContextResolver sp spotCtx) w
    (fun made w' => ∀ r, made = .ok r → ∀ idxs, Meets (pageCalls sp idxs) (r,w') (fun _ _ => True) fun _ => False) fun _ => False

/-! ### Marking the tracks of a station -/

/-- What marking the tracks of one page makes of it. -/
def markPage (page : ContextPage) : Except Fault ContextPage := do return { page with tracks := ← page.tracks.mapM markAutoplay }

theorem markPages_station {ctx : Context} (station : Station ctx) :
    markPages ctx = (ctx.pages.mapM markPage).map fun pages => { ctx with pages } := by
  have tested : hasPrefix ctx.uri "spotify:station:" = true := station
  rw [markPages,if_pos tested]
  show (ctx.pages.mapM markPage).bind _ = _
  cases ctx.pages.mapM markPage <;> rfl

theorem markPages_other {ctx : Context} (other : ¬ Station ctx) : markPages ctx = .ok ctx := by
  have tested : ¬ hasPrefix ctx.uri "spotify:station:" = true := other
  rw [markPages,if_neg tested]
  rfl

/-- The track carries the mark of a station. -/
def Marked (track : ContextTrack) : Prop := track.metadata.get "autoplay.is_autoplay" = "true"

instance (track : ContextTrack) : Decidable (Marked track) := inferInstanceAs (Decidable (_ = "true"))

/-- A track can be marked exactly if it has a map, and then it is. -/
theorem markAutoplay_spec (track : ContextTrack) :
    (track.metadata ≠ none → ∃ marked, markAutoplay track = .ok marked) ∧
      ∀ marked, markAutoplay track = .ok marked → track.metadata ≠ none ∧ Marked marked := by
  unfold markAutoplay
  cases track.metadata with
  | none => exact ⟨fun wrong => absurd rfl wrong,fun marked made => by cases made⟩
  | some entries =>
    refine ⟨fun _ => ⟨_,rfl⟩,?_⟩
    rintro marked ⟨⟩
    refine ⟨by simp,?_⟩
    simp only [Marked,Metadata.get,Option.getD_some,lookup_setKey]

theorem markPage_spec (page : ContextPage) :
    (Annotatable page → ∃ marked, markPage page = .ok marked) ∧
      ∀ marked, markPage page = .ok marked → Annotatable page ∧ ∀ track ∈ marked.tracks, Marked track := by
  constructor
  · intro annotatable
    obtain ⟨tracks,made⟩ := mapM_exists fun track member => (markAutoplay_spec track).1 (annotatable track member)
    exact ⟨{ page with tracks },by rw [markPage,made]; rfl⟩
  · intro marked made
    cases inner : page.tracks.mapM markAutoplay with
    | error f =>
      rw [markPage,inner] at made
      cases made
    | ok tracks =>
      rw [markPage,inner] at made
      cases made
      refine ⟨fun track member => ?_,fun track member => ?_⟩
      · obtain ⟨marked,_,made⟩ := mapM_each inner member
        exact ((markAutoplay_spec track).2 marked made).1
      · obtain ⟨source,_,made⟩ := mapM_source inner member
        exact ((markAutoplay_spec source).2 track made).2

/-- Marking keeps the number of pages and the URI; on a station it needs a map in every
    track and leaves the mark in every track. -/
theorem markPages_spec (ctx : Context) :
    ((Station ctx → ∀ page ∈ ctx.pages, Annotatable page) → ∃ ctx', markPages ctx = .ok ctx') ∧
      ∀ ctx', markPages ctx = .ok ctx' → (Station ctx → ∀ page ∈ ctx.pages, Annotatable page) ∧
        (ctx'.pages = [] ↔ ctx.pages = []) ∧ (Station ctx' → ∀ page ∈ ctx'.pages, ∀ track ∈ page.tracks, Marked track) := by
  by_cases station : Station ctx
  · rw [markPages_station station]
    constructor
    · intro annotatable
      obtain ⟨pages,made⟩ := mapM_exists fun page member => (markPage_spec page).1 (annotatable station page member)
      exact ⟨{ ctx with pages },by rw [made]; rfl⟩
    · intro ctx' made
      cases inner : ctx.pages.mapM markPage with
      | error f =>
        rw [inner] at made
        cases made
      | ok pages =>
        rw [inner] at made
        cases made
        have sizes : ctx.pages.length = pages.length := (mapM_ok inner).length_eq
        refine ⟨fun _ page member => ?_,?_,fun _ page member => ?_⟩
        · obtain ⟨marked,_,made⟩ := mapM_each inner member
          exact ((markPage_spec page).2 marked made).1
        · rw [← List.length_eq_zero_iff,← List.length_eq_zero_iff,sizes]
        · obtain ⟨source,_,made⟩ := mapM_source inner member
          exact ((markPage_spec source).2 page made).2
  · rw [markPages_other station]
    refine ⟨fun _ => ⟨ctx,rfl⟩,?_⟩
    rintro ctx' ⟨⟩
    exact ⟨fun wrong => absurd wrong station,Iff.rfl,fun wrong => absurd wrong station⟩

/-! ### Pages from a list that has one -/

/-- Loading a page changes nothing but the world. -/
theorem loadPage_keeps (sp : Spclient ω) (url : String) (s : ContextResolver × ω) :
    Meets (loadPage sp url) s (fun _ s' => s'.1 = s.1) fun _ => False := by
  unfold loadPage
  by_cases valid : hasPrefix url "hm://"
  · simp only [valid,not_true_eq_false,if_false,meets_bind,meets_zoom,meets_total]
    split <;> rfl
  · rw [if_pos valid]
    rfl

/-- Loading pages adds pages, and a page is always there when there was one. -/
theorem loadNextPages_nonempty (sp : Spclient ω) (rounds : Nat) {s : ContextResolver × ω} (some_page : s.1.ctx.pages ≠ []) :
    Meets (loadNextPages sp rounds) s
      (fun err s' => s'.1.ctx.pages ≠ [] ∧ (err = none → s'.1.ctx.pages.length = s.1.ctx.pages.length + rounds)) fun _ => False := by
  induction rounds generalizing s with
  | zero => exact ⟨some_page,fun _ => rfl⟩
  | succ rounds ih =>
    obtain ⟨lastPage,last⟩ : ∃ lastPage, s.1.ctx.pages.getLast? = some lastPage := by
      cases found : s.1.ctx.pages.getLast? with
      | none => exact absurd (List.getLast?_eq_none_iff.mp found) some_page
      | some lastPage => exact ⟨lastPage,rfl⟩
    rw [loadNextPages,meets_bind,meets_get,last]
    dsimp only
    by_cases finished : lastPage.nextPageUrl.length = 0
    · rw [if_pos finished]
      exact ⟨some_page,by simp⟩
    · rw [if_neg finished,meets_bind]
      have loaded : Meets (loadPage sp lastPage.nextPageUrl) s (fun _ s' => s'.1 = s.1) fun _ => False := loadPage_keeps sp _ s
      refine meets_mono loaded (fun answer s' kept => ?_) fun _ => id
      cases answer with
      | error err =>
        exact ⟨by rw [kept]; exact some_page,by simp⟩
      | ok newPage =>
        rw [meets_bind,meets_modify]
        have longer : (setPages (s'.1.ctx.pages ++ [newPage]) s').1.ctx.pages.length = s.1.ctx.pages.length + 1 := by
          simp [setPages,kept]
        refine meets_mono (ih (by simp [setPages])) (fun err s'' done => ⟨done.1,fun fine => ?_⟩) fun _ => id
        rw [done.2 fine,longer]
        omega

theorem page_nonempty (sp : Spclient ω) (idx : Nat) {s : ContextResolver × ω} (some_page : s.1.ctx.pages ≠ []) :
    Meets (page sp idx) s (fun _ s' => s'.1.ctx.pages ≠ []) fun _ => False := by
  unfold page
  rw [meets_bind,meets_get,meets_bind]
  refine meets_mono (loadNextPages_nonempty sp _ some_page) (fun err s' done => ?_) fun _ => id
  cases err with
  | some err => exact done.1
  | none =>
    have inside : idx < s'.1.ctx.pages.length := by
      rw [done.2 rfl]
      omega
    simp only [meets_bind,meets_get,List.getElem?_eq_getElem inside]
    split_ifs
    · exact done.1
    · rw [meets_bind]
      refine meets_mono (loadPage_keeps sp _ s') (fun answer s'' kept => ?_) fun _ => id
      cases answer with
      | error err =>
        show s''.1.ctx.pages ≠ []
        rw [kept]
        exact done.1
      | ok newPage =>
        rw [meets_bind,meets_modify]
        simpa [setPages,kept] using done.1
    · exact done.1

/-- A resolver with a page answers every sequence of calls. -/
theorem pageCalls_nonempty (sp : Spclient ω) (idxs : List Nat) {s : ContextResolver × ω} (some_page : s.1.ctx.pages ≠ []) :
    Meets (pageCalls sp idxs) s (fun _ _ => True) fun _ => False := by
  induction idxs generalizing s with
  | nil => trivial
  | cons idx rest ih =>
    rw [pageCalls,meets_bind]
    refine meets_mono (page_nonempty sp idx some_page) (fun answer s' kept => ?_) fun _ => id
    rw [meets_bind]
    exact meets_mono (ih kept) (fun _ _ _ => trivial) fun _ => id

/-- Without pages the first call indexes before the first one. -/
theorem page_empty (sp : Spclient ω) {s : ContextResolver × ω} (no_page : s.1.ctx.pages = []) :
    page sp 0 s = .error .indexOutOfRange := by
  simp [page,no_page,loadNextPages]

/-! ### The constructor -/

/-- The context that the constructor goes on with is usable exactly when what it is given is. -/
theorem completed_meets (sp : Spclient ω) (spotCtx : Context) (w : ω) :
    Meets (completed sp spotCtx) w
      (fun answer _ => UsableContext sp spotCtx w ↔ ∀ ctx, answer = .ok ctx → Usable ctx) fun _ => False := by
  unfold completed UsableContext
  by_cases missing : spotCtx.pages.length = 0 ∨ ¬ isTracksComplete spotCtx
  · rw [if_pos missing,if_pos missing,resolveAgain,meets_bind,meets_total]
    cases answered : (sp.contextResolve spotCtx.uri w).1 with
    | error err =>
      constructor
      · rintro _ ctx ⟨⟩
      · rintro _ ctx ⟨⟩
    | ok newSpotCtx =>
      dsimp only
      by_cases loading : newSpotCtx.loading = true
      · simp [loading]
      · rw [if_neg loading]
        have ready : newSpotCtx.loading = false := by simpa using loading
        constructor
        · rintro usable ctx ⟨⟩
          have known : Usable newSpotCtx := usable newSpotCtx rfl ready
          exact known
        · rintro usable ctx ⟨⟩ _
          have known := usable _ rfl
          exact known
  · rw [if_neg missing,if_neg missing]
    constructor
    · rintro usable ctx ⟨⟩
      exact usable
    · exact fun usable => usable spotCtx rfl

theorem constructor_error {sp : Spclient ω} {spotCtx : Context} {w w' : ω} {err : GoError}
    (ran : completed sp spotCtx w = .ok (.error err,w')) : newContextResolver sp spotCtx w = .ok (.error err,w') := by
  rw [newContextResolver,run_bind,ran]
  rfl

theorem constructor_ok {sp : Spclient ω} {spotCtx ctx : Context} {w w' : ω} (ran : completed sp spotCtx w = .ok (.ok ctx,w')) :
    newContextResolver sp spotCtx w =
      (markPages ctx).map fun ctx' => (.ok ⟨inferSpotifyIdTypeFromContextUri spotCtx.uri,ctx'⟩,w') := by
  rw [newContextResolver,run_bind,ran]
  show (check (markPages ctx) >>= _ : Prog _ _ _) w' = _
  rw [run_bind,run_check]
  cases markPages ctx <;> rfl

theorem answers_always_iff (sp : Spclient ω) (spotCtx : Context) (w : ω) :
    AnswersAlways sp spotCtx w ↔ UsableContext sp spotCtx w := by
  obtain ⟨answer,w',ran,exact_when⟩ := meets_returns (completed_meets sp spotCtx w)
  rw [AnswersAlways,exact_when]
  cases answer with
  | error err =>
    rw [Meets,constructor_error ran]
    constructor
    · rintro _ ctx ⟨⟩
    · rintro _ r ⟨⟩
  | ok ctx =>
    obtain ⟨marks,marked⟩ := markPages_spec ctx
    rw [Meets,constructor_ok ran]
    cases made : markPages ctx with
    | error f =>
      refine ⟨False.elim,fun usable => ?_⟩
      obtain ⟨ctx',fine⟩ := marks (usable ctx rfl).2
      rw [fine] at made
      cases made
    | ok ctx' =>
      obtain ⟨annotatable,empty,_⟩ := marked ctx' made
      constructor
      · rintro answers _ ⟨⟩
        refine ⟨fun no_page => ?_,annotatable⟩
        have called := answers _ rfl [0]
        rw [pageCalls,meets_bind,Meets,page_empty sp (empty.mpr no_page)] at called
        exact called
      · rintro usable r ⟨⟩ idxs
        exact pageCalls_nonempty sp idxs (mt empty.mp (usable ctx rfl).1)

/-- A service that answers a context without pages. -/
def noPages : Spclient Unit where
  contextResolve uri w := (.ok ⟨uri,none,[],false⟩,w)
  contextResolveAutoplay uri _ w := (.ok ⟨uri,none,[],false⟩,w)
  request _ w := (.status 404,w)

/-- A station with a track that has no metadata. -/
def bareStation : Context := ⟨"spotify:station:a",none,[⟨"","",[⟨"spotify:track:a","",[],none⟩]⟩],false⟩

theorem answers_always_fails :
    ¬ AnswersAlways noPages ⟨"spotify:playlist:a",none,[],false⟩ () ∧ ¬ AnswersAlways noPages bareStation () := by
  constructor
  · intro answers
    exact answers _ rfl [0]
  · exact id

end Librespot.Contexts
