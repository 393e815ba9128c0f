import Librespot.TrackPositions

/-!
The pages of a context (`spclient/context_resolver.go`). What the service answers
depends on a world that every request may change.
-/
namespace Librespot.Contexts
open Librespot.Errors Librespot.Programs Librespot.Ids Librespot.Paging Librespot.Tracks

variable {ω : Type}

/-- `connectpb.ContextPage`, as far as it is read. -/
structure ContextPage where
  pageUrl : String
  nextPageUrl : String
  tracks : List ContextTrack
deriving DecidableEq, Repr

/-- `connectpb.Context`, as far as it is read. -/
structure Context where
  uri : String
  metadata : Metadata
  pages : List ContextPage
  loading : Bool
deriving DecidableEq, Repr

/-- The ways a request for a page can end. -/
inductive Reply where
  | failed (err : GoError)
  | status (code : Nat)
  | unreadable (err : GoError)
  | malformed (err : GoError)
  | page (page : ContextPage)
deriving DecidableEq, Repr

/-- The requests that `Spclient` makes for contexts. -/
structure Spclient (ω : Type) where
  contextResolve : String → ω → Except GoError Context × ω
  contextResolveAutoplay : String → List String → ω → Except GoError Context × ω
  request : String → ω → Reply × ω

structure ContextResolver where
  typ : SpotifyIdType
  ctx : Context
deriving DecidableEq, Repr

/-- The value of decimal digits. -/
def decimal (digits : List Char) : Option Nat :=
  if digits ≠ [] ∧ digits.all Char.isDigit then some (digits.foldl (fun n c => n * 10 + (c.toNat - '0'.toNat)) 0) else none

/-- `strconv.Atoi`, with its range error. -/
def atoi (s : String) : Option Int :=
  match s.toList with
  | '-' :: digits => (decimal digits).bind fun n => if n ≤ 2 ^ 63 then some (-n) else none
  | '+' :: digits => (decimal digits).bind fun n => if n < 2 ^ 63 then some n else none
  | digits => (decimal digits).bind fun n => if n < 2 ^ 63 then some n else none

/-- The loop of `isTracksComplete` over the pages. -/
def completeFrom (expected : Int) : Nat → List ContextPage → Bool
  | total, [] => expected = total
  | total, page :: rest =>
    if page.nextPageUrl.length ≠ 0 then true else completeFrom expected (total + page.tracks.length) rest

def isTracksComplete (ctx : Context) : Bool :=
  match ((ctx.metadata.getD []).lookup "playlist_number_of_tracks").bind atoi with
  | none => true
  | some expected => if expected < 0 then true else completeFrom expected 0 ctx.pages

/-- `track.Metadata["autoplay.is_autoplay"] = "true"`. -/
def markAutoplay (track : ContextTrack) : Except Fault ContextTrack :=
  match track.metadata with
  | none => .error .nilMapWrite
  | some entries => .ok { track with metadata := some (setKey "autoplay.is_autoplay" "true" entries) }

def markPages (ctx : Context) : Except Fault Context :=
  if hasPrefix ctx.uri "spotify:station:" then do
    let pages ← ctx.pages.mapM fun page => do return { page with tracks := ← page.tracks.mapM markAutoplay }
    return { ctx with pages }
  else return ctx

/-- The context that is resolved anew, with the metadata of the given one put over its own. -/
def resolveAgain (sp : Spclient ω) (spotCtx : Context) : Prog Fault ω (Except GoError Context) := do
  match ← total (sp.contextResolve spotCtx.uri) with
  | .error err => return .error (.wrap s!"failed resolving context {spotCtx.uri}" err)
  | .ok newSpotCtx =>
    if newSpotCtx.loading then return .error (.text s!"context {newSpotCtx.uri} is loading")
    let metadata := (spotCtx.metadata.getD []).foldl (fun m entry => setKey entry.1 entry.2 m) (newSpotCtx.metadata.getD [])
    return .ok { newSpotCtx with metadata := some metadata }

/-- The context as it is, unless pages or tracks of it are missing. -/
def completed (sp : Spclient ω) (spotCtx : Context) : Prog Fault ω (Except GoError Context) :=
  if spotCtx.pages.length = 0 ∨ ¬ isTracksComplete spotCtx then resolveAgain sp spotCtx else return .ok spotCtx

def newContextResolver (sp : Spclient ω) (spotCtx : Context) : Prog Fault ω (Except GoError ContextResolver) := do
  let typ := inferSpotifyIdTypeFromContextUri spotCtx.uri
  match ← completed sp spotCtx with
  | .error err => return .error err
  | .ok ctx => return .ok ⟨typ,← check (markPages ctx)⟩

def loadPage (sp : Spclient ω) (url : String) : Prog Fault (ContextResolver × ω) (Except GoError ContextPage) := do
  if ¬ hasPrefix url "hm://" then return .error (.text s!"invalid page url: {url}")
  let url := String.ofList (url.toList.drop 5)
  match ← zoom Prod.snd (fun world r => (r.1,world)) (total (sp.request url)) with
  | .failed err => return .error (.wrap s!"failed requesting page at {url}" err)
  | .status code => return .error (.text s!"invalid status code from page at {url}: {code}")
  | .unreadable err => return .error (.wrap "failed reading page response body" err)
  | .malformed err => return .error (.wrap "failed json unmarshalling ContextPage" err)
  | .page contextPage => return .ok contextPage

def setPages (pages : List ContextPage) (r : ContextResolver × ω) : ContextResolver × ω :=
  ({ r.1 with ctx := { r.1.ctx with pages } },r.2)

/-- The loop of `Page`, which adds one page a round. -/
def loadNextPages (sp : Spclient ω) : Nat → Prog Fault (ContextResolver × ω) (Option GoError)
  | 0 => return none
  | rounds + 1 => do
    match (← get).1.ctx.pages.getLast? with
    | none => throw .indexOutOfRange
    | some lastPage =>
      if lastPage.nextPageUrl.length = 0 then return some EOF
      match ← loadPage sp lastPage.nextPageUrl with
      | .error err => return some (.wrap "failed fetching next page" err)
      | .ok newPage =>
        modify fun r => setPages (r.1.ctx.pages ++ [newPage]) r
        loadNextPages sp rounds

/-- `ContextResolver.Page`. -/
def page (sp : Spclient ω) (idx : Nat) : Prog Fault (ContextResolver × ω) (Except GoError (List ContextTrack)) := do
  match ← loadNextPages sp (idx + 1 - (← get).1.ctx.pages.length) with
  | some err => return .error err
  | none =>
    match (← get).1.ctx.pages[idx]? with
    | none => throw .indexOutOfRange
    | some page =>
      if page.tracks.length = 0 then
        if page.pageUrl.length = 0 then return .error (.text "invalid empty page without url")
        match ← loadPage sp page.pageUrl with
        | .error err => return .error (.wrap "failed fetching page" err)
        | .ok newPage =>
          modify fun r => setPages (r.1.ctx.pages.set idx newPage) r
          return .ok newPage.tracks
      else return .ok page.tracks

def contextPages (sp : Spclient ω) : TrackResolver (ContextResolver × ω) := ⟨page sp⟩

/-- `NewTrackListFromContext`. -/
def newTrackListFromContext (sp : Spclient ω) (spotCtx : Context) : Prog Fault ω (Except GoError (TrackList ContextResolver)) := do
  match ← newContextResolver sp spotCtx with
  | .error err => return .error (.wrap "failed initializing context resolver" err)
  | .ok ctx => return .ok (newTrackList ctx.typ ctx)

/-! ### Faults -/

theorem loadPage_meets (sp : Spclient ω) (url : String) (r : ContextResolver × ω) :
    Meets (loadPage sp url) r (fun _ _ => True) fun _ => False := by
  unfold loadPage
  by_cases valid : hasPrefix url "hm://"
  · simp only [valid,not_true_eq_false,if_false,meets_bind,meets_zoom,meets_total]
    split <;> trivial
  · rw [if_pos valid]
    trivial

theorem loadNextPages_meets (sp : Spclient ω) (rounds : Nat) (r : ContextResolver × ω) :
    Meets (loadNextPages sp rounds) r (fun _ _ => True) (· = .indexOutOfRange) := by
  induction rounds generalizing r with
  | zero => trivial
  | succ rounds ih =>
    rw [loadNextPages,meets_bind,meets_get]
    split
    · rfl
    · split_ifs
      · trivial
      · rw [meets_bind]
        refine meets_mono (loadPage_meets sp _ r) (fun answer r' _ => ?_) fun _ => False.elim
        cases answer with
        | error err => trivial
        | ok newPage => exact ih _

/-- A context without pages is the only one whose pages cannot be asked for. -/
theorem page_faults (sp : Spclient ω) : PageFaults (contextPages sp) (· = .indexOutOfRange) := by
  intro idx r f faulted
  have meets : Meets (page sp idx) r (fun _ _ => True) (· = .indexOutOfRange) := by
    unfold page
    rw [meets_bind,meets_get,meets_bind]
    refine meets_mono (loadNextPages_meets sp _ r) (fun err r' _ => ?_) fun _ => id
    cases err with
    | some err => trivial
    | none =>
      simp only [meets_bind,meets_get]
      split
      · rfl
      · split_ifs
        · trivial
        · rw [meets_bind]
          refine meets_mono (loadPage_meets sp _ r') (fun answer _ _ => ?_) fun _ => False.elim
          cases answer <;> trivial
        · trivial
  have wrong := meets_fault meets faulted
  exact wrong

theorem markPages_fault {ctx : Context} {f : Fault} (faulted : markPages ctx = .error f) : f = .nilMapWrite := by
  unfold markPages at faulted
  split_ifs at faulted
  · simp only [bind,Except.bind] at faulted
    split at faulted
    · next f' wrong =>
      cases faulted
      obtain ⟨page,_,wrong⟩ := mapM_fault wrong
      split at wrong
      · next f' wrong' =>
        cases wrong
        obtain ⟨track,_,nil⟩ := mapM_fault wrong'
        unfold markAutoplay at nil
        split at nil
        · cases nil
          rfl
        · cases nil
      · cases wrong
    · cases faulted
  · cases faulted

theorem resolveAgain_meets (sp : Spclient ω) (spotCtx : Context) (w : ω) :
    Meets (resolveAgain sp spotCtx) w (fun _ _ => True) fun _ => False := by
  unfold resolveAgain
  simp only [meets_bind,meets_total]
  split
  · trivial
  · split_ifs <;> trivial

theorem newContextResolver_fault {sp : Spclient ω} {spotCtx : Context} {w : ω} {f : Fault}
    (faulted : newContextResolver sp spotCtx w = .error f) : f = .nilMapWrite := by
  have met : Meets (newContextResolver sp spotCtx) w (fun _ _ => True) (· = .nilMapWrite) := by
    have known : Meets (completed sp spotCtx) w (fun _ _ => True) fun _ => False := by
      unfold completed
      split_ifs
      · exact resolveAgain_meets sp spotCtx w
      · trivial
    unfold newContextResolver
    rw [meets_bind]
    refine meets_mono known (fun answer w' _ => ?_) fun _ => False.elim
    cases answer with
    | error err => trivial
    | ok ctx =>
      simp only [meets_bind]
      rw [meets_check]
      exact ⟨fun _ _ => trivial,fun f wrong => markPages_fault wrong⟩
  have wrong := meets_fault met faulted
  exact wrong

/-! ### Opening a list

A new list is opened by its first page, which is asked for again whenever it did
not come. -/

section Opening
variable {ρ σ : Type} {resolver : TrackResolver ρ}

/-- One of the next requests for the first page returns tracks, or it faults. -/
def Answers (resolver : TrackResolver ρ) : Nat → ρ → Prop
  | 0, _ => False
  | tries + 1, state =>
    match resolver.page 0 state with
    | .ok (.ok (_ :: _),_) => True
    | .ok (_,state') => Answers resolver tries state'
    | .error _ => True

instance decidableAnswers (resolver : TrackResolver ρ) : ∀ tries state, Decidable (Answers resolver tries state)
  | 0, _ => isFalse id
  | tries + 1, state =>
    match answered : resolver.page 0 state with
    | .ok (.ok (_ :: _),_) => isTrue (by simp [Answers,answered])
    | .ok (.ok [],state') =>
      have := decidableAnswers resolver tries state'
      decidable_of_iff (Answers resolver tries state') (by simp [Answers,answered])
    | .ok (.error _,state') =>
      have := decidableAnswers resolver tries state'
      decidable_of_iff (Answers resolver tries state') (by simp [Answers,answered])
    | .error _ => isTrue (by simp [Answers,answered])

/-- The list has its first page, or will have it within the given requests. -/
def Opening (resolver : TrackResolver ρ) (tries : Nat) (l : PagedList ρ ContextTrack) : Prop :=
  l.list ≠ [] ∨ l.list = [] ∧ Answers resolver tries l.pages

/-- A fetch uses one request up. -/
theorem fetch_opening {tries : Nat} {l : PagedList ρ ContextTrack} (empty : l.list = [])
    (answers : Answers resolver (tries + 1) l.pages) : Meets (fetchNextPage resolver) l
      (fun x l' => (x.2 = none → l'.list ≠ []) ∧ (x.2 ≠ none → l'.list = [] ∧ Answers resolver tries l'.pages)) fun _ => True := by
  have first : nextPageIdx l.list = 0 := by rw [empty]; rfl
  cases answered : resolver.page 0 l.pages with
  | error f => rw [Meets,fetch_fault (first ▸ answered)]; trivial
  | ok pair =>
    obtain ⟨answer,pages⟩ := pair
    rw [Meets,fetch_eq (first ▸ answered)]
    rw [Answers,answered] at answers
    rcases answer with err | items
    · exact ⟨by simp,fun _ => ⟨empty,answers⟩⟩
    · cases items with
      | nil => exact ⟨by simp,fun _ => ⟨empty,answers⟩⟩
      | cons first rest => simp [received,pageItems]

/-- A loop over a list that has its first page leaves it with one. -/
theorem forNext_loaded {visit : σ → ContextTrack → Except Fault (ForInStep σ)} {rounds : Nat} {x : σ}
    {l : PagedList ρ ContextTrack} {iter : PagedListIterator} (loaded : l.list ≠ []) (low : -1 ≤ iter.pos)
    (inside : iter.pos < l.list.length) :
    Meets (forNext resolver visit rounds x iter) l (fun _ l' => l'.list ≠ []) fun _ => True := by
  have kept : Kept resolver (fun list => list ≠ []) := by
    intro list _ _ items some _ _ more
    exact some (List.append_eq_nil_iff.mp more).1
  exact meets_mono (forNext_meets (P := fun list => list ≠ []) (fun _ _ _ _ => trivial) (fun _ _ _ _ _ _ _ => trivial) rounds x
    loaded iter low inside fun _ => kept) (fun _ _ done => done.1.kept) fun _ => id

/-- A loop from the start uses at most one request up before the list has its first page. -/
theorem forNext_opening {visit : σ → ContextTrack → Except Fault (ForInStep σ)} {tries rounds : Nat} {x : σ}
    {l : PagedList ρ ContextTrack} (opening : Opening resolver (tries + 1) l) :
    Meets (forNext resolver visit rounds x iterStart) l (fun y l' => y.1 = .bounded ∨ Opening resolver tries l') fun _ => True := by
  rcases opening with loaded | ⟨empty,answers⟩
  · exact meets_mono (forNext_loaded loaded (by decide) (by simp only [iterStart]; omega)) (fun _ _ more => .inr (.inl more)) fun _ => id
  cases rounds with
  | zero => exact .inl rfl
  | succ rounds =>
    have last : iterStart.pos + 1 = l.list.length := by rw [empty]; rfl
    rw [forNext,meets_bind]
    unfold Meets
    rw [next_at_end resolver last]
    cases ran : fetchNextPage resolver l with
    | error f => trivial
    | ok pair =>
      obtain ⟨⟨pageIdx,err⟩,l'⟩ := pair
      obtain ⟨loaded,failed⟩ := meets_ok (fetch_opening empty answers) ran
      cases err with
      | some err => exact .inr (.inr (failed (by simp)))
      | none =>
        have nonempty : l'.list ≠ [] := loaded rfl
        have inside : 0 < l'.list.length := List.length_pos_iff.mpr nonempty
        show Meets _ l' _ _
        simp only [if_true,meets_bind,meets_get]
        rw [meets_check]
        refine ⟨fun entry _ => ?_,fun _ _ => trivial⟩
        rw [meets_check]
        refine ⟨?_,fun _ _ => trivial⟩
        rintro (x' | x') _
        · exact .inr (.inl nonempty)
        · exact meets_mono (forNext_loaded nonempty (by simp [iterStart]) (by simpa [iterStart] using inside))
            (fun _ _ more => .inr (.inl more)) fun _ => id

/-- Moving to the start succeeds when the first page is there or comes. -/
theorem moveStart_opening {l : PagedList ρ ContextTrack} (opening : Opening resolver 1 l) :
    Meets (moveStart resolver) l (fun err _ => err = none) fun _ => True := by
  unfold moveStart
  rcases opening with loaded | ⟨empty,answers⟩
  · have nonempty : l.list.length ≠ 0 := fun zero => loaded (List.length_eq_zero_iff.mp zero)
    simp only [meets_bind,meets_get,nonempty,if_false]
    rfl
  · simp only [meets_bind,meets_get,empty,List.length_nil,if_true]
    refine meets_mono (fetch_opening empty answers) ?_ fun _ => id
    rintro ⟨pageIdx,err⟩ l' ⟨_,failed⟩
    cases err with
    | none => rfl
    | some err => exact (failed (by simp)).2.elim

theorem trySeek_opening {tl : TrackList ρ} (opening : Opening resolver 2 tl.tracks) (fuel : Nat) (f : Test) :
    Meets (trySeek resolver fuel f) tl (fun err _ => err = none) fun _ => True := by
  unfold trySeek
  rw [meets_bind]
  have searched : Meets (seek resolver fuel f) tl (fun err tl' => err = none ∨ Opening resolver 1 tl'.tracks) fun _ => True := by
    unfold seek onTracks
    simp only [meets_bind,meets_zoom]
    refine meets_mono (forNext_opening opening) ?_ fun _ => id
    rintro ⟨ending,calls,iter⟩ l done
    cases ending with
    | bounded => trivial
    | left =>
      simp only [meets_bind,meets_zoom]
      exact meets_of (fun _ _ _ => .inl rfl) fun _ _ => trivial
    | ended =>
      have opened : Opening resolver 1 l := done.resolve_left (by simp)
      dsimp only
      cases iter.err with
      | none => exact .inr opened
      | some err => exact .inr opened
  refine meets_mono searched (fun err tl' done => ?_) fun _ => id
  cases err with
  | none => rfl
  | some err =>
    unfold onTracks
    rw [meets_zoom]
    exact moveStart_opening (done.resolve_left (by simp))

/-- Shuffling a list that is opened uses at most one request up. -/
theorem shuffleOn_opening {rnd : Rand} {tries : Nat} {tl : TrackList ρ} (inside : tl.tracks.pos < tl.tracks.list.length)
    (opening : Opening resolver (tries + 1) tl.tracks) (fuel : Nat) (draw : UInt64) :
    Meets (shuffleOn resolver rnd fuel draw) tl (fun _ tl' => Opening resolver tries tl'.tracks) fun _ => True := by
  have loop : Meets (loadAll resolver fuel) tl.tracks (fun y l => y.1 = .bounded ∨ Opening resolver tries l) fun _ => True :=
    forNext_opening opening
  have loads : Meets (loadAll resolver fuel) tl.tracks (fun _ l => Loaded (fun _ => True) tl.tracks l) fun _ => True :=
    meets_mono (forNext_meets (P := fun _ => True) (fun _ _ _ _ => trivial) (by simp) fuel () trivial iterStart (by decide)
      (by simp only [iterStart]; omega) fun _ _ _ _ _ _ _ _ => trivial) (fun _ _ done => done.1) fun _ => id
  cases ran : loadAll resolver fuel tl.tracks with
  | error f => rw [Meets,shuffleOn_fault ran]; trivial
  | ok pair =>
    obtain ⟨⟨ending,_,iter⟩,l⟩ := pair
    by_cases finished : ending = .ended
    · subst finished
      have loaded := meets_ok loads ran
      rw [Meets,shuffleOn_eq draw ran (loaded_inside loaded inside)]
      have opened : Opening resolver tries l := (meets_ok loop ran).resolve_left (by simp)
      refine opened.imp (fun loaded => ?_) fun waiting => ⟨?_,waiting.2⟩
      · exact fun empty => loaded (List.length_eq_zero_iff.mp (by simpa [shuffledList,exchanged] using congrArg List.length empty))
      · exact List.length_eq_zero_iff.mp (by simp [shuffledList,exchanged,waiting.1])
    · rw [Meets,shuffleOn_bounded ran finished]
      trivial

end Opening

end Librespot.Contexts
