import Librespot.ResolverPages

/-!
The mark on the tracks of a station. The constructor marks the tracks that are there;
pages come in later as well, through the URL of the next page or the page's own. A
service that records the pages it hands out tells what came in.
-/
namespace Librespot.Contexts
open Librespot.Errors Librespot.Programs Librespot.Ids

variable {ω : Type}

/-- The service together with a record of the pages that it has handed out. -/
def recording (sp : Spclient ω) : Spclient (ω × List ContextPage) where
  contextResolve uri s := ((sp.contextResolve uri s.1).1,((sp.contextResolve uri s.1).2,s.2))
  contextResolveAutoplay uri recent s := ((sp.contextResolveAutoplay uri recent s.1).1,((sp.contextResolveAutoplay uri recent s.1).2,s.2))
  request url s :=
    match sp.request url s.1 with
    | (.page page,w) => (.page page,(w,s.2 ++ [page]))
    | (reply,w) => (reply,(w,s.2))

/-- The track carries the mark, so that it is reported as autoplay unless it is queued. -/
def AutoplayTrack (typ : SpotifyIdType) (track : ContextTrack) : Prop :=
  Marked track ∧ (track.metadata.get "is_queued" ≠ "true" →
    ∀ provided, contextTrackToProvidedTrack typ track = .ok provided → provided.provider = "autoplay")

/-- Whatever pages are asked for, all their tracks carry the mark. -/
def PagesMarked (sp : Spclient ω) (r : ContextResolver) (w : ω) : Prop :=
  ∀ idxs answers s, pageCalls sp idxs (r,w) = .ok (answers,s) →
    ∀ tracks, .ok tracks ∈ answers → ∀ track ∈ tracks, AutoplayTrack r.typ track

/-- Whatever pages are asked for, the service hands out only pages with the mark on their tracks. -/
def HandsOutMarked (sp : Spclient ω) (r : ContextResolver) (w : ω) : Prop :=
  ∀ idxs answers s, pageCalls (recording sp) idxs (r,(w,[])) = .ok (answers,s) →
    ∀ page ∈ s.2.2, ∀ track ∈ page.tracks, Marked track

/-! ### The record changes nothing else -/

/-- The state without the record. -/
def unrecorded (s : ContextResolver × (ω × List ContextPage)) : ContextResolver × ω := (s.1,s.2.1)

theorem loadPage_seen (sp : Spclient ω) (url : String) (s : ContextResolver × (ω × List ContextPage)) :
    SeenAs unrecorded (loadPage (recording sp) url) (loadPage sp url) s := by
  unfold loadPage
  by_cases valid : hasPrefix url "hm://"
  · simp only [valid,not_true_eq_false,if_false]
    refine seenAs_bind ?_ fun answer s' => ?_
    · obtain ⟨r,w,handed⟩ := s
      simp only [SeenAs,run_zoom,total,ok_map,recording,unrecorded]
      rcases sp.request (String.ofList (url.toList.drop 5)) w with ⟨reply,w'⟩
      cases reply <;> rfl
    · cases answer <;> rfl
  · rw [if_pos valid,if_pos valid]
    exact seenAs_pure _ s

theorem loadNextPages_seen (sp : Spclient ω) (rounds : Nat) (s : ContextResolver × (ω × List ContextPage)) :
    SeenAs unrecorded (loadNextPages (recording sp) rounds) (loadNextPages sp rounds) s := by
  induction rounds generalizing s with
  | zero => exact seenAs_pure _ s
  | succ rounds ih =>
    unfold loadNextPages
    refine seenAs_get ?_
    dsimp only [unrecorded]
    cases s.1.ctx.pages.getLast? with
    | none => exact seenAs_throw _ s
    | some lastPage =>
      dsimp only
      by_cases finished : lastPage.nextPageUrl.length = 0
      · rw [if_pos finished,if_pos finished]
        exact seenAs_pure _ s
      · rw [if_neg finished,if_neg finished]
        refine seenAs_bind (loadPage_seen sp _ s) fun answer s' => ?_
        cases answer with
        | error err => exact seenAs_pure _ s'
        | ok newPage => exact seenAs_bind (seenAs_modify rfl) fun _ s'' => ih s''

theorem page_seen (sp : Spclient ω) (idx : Nat) (s : ContextResolver × (ω × List ContextPage)) :
    SeenAs unrecorded (page (recording sp) idx) (page sp idx) s := by
  unfold page
  refine seenAs_get (seenAs_bind (loadNextPages_seen sp _ s) fun err s' => ?_)
  cases err with
  | some err => exact seenAs_pure _ s'
  | none =>
    refine seenAs_get ?_
    dsimp only [unrecorded]
    cases s'.1.ctx.pages[idx]? with
    | none => exact seenAs_throw _ s'
    | some page =>
      dsimp only
      split_ifs
      · exact seenAs_pure _ s'
      · refine seenAs_bind (loadPage_seen sp _ s') fun answer s'' => ?_
        cases answer with
        | error err => exact seenAs_pure _ s''
        | ok newPage => exact seenAs_bind (seenAs_modify rfl) fun _ s''' => seenAs_pure _ s'''
      · exact seenAs_pure _ s'

theorem pageCalls_seen (sp : Spclient ω) (idxs : List Nat) (s : ContextResolver × (ω × List ContextPage)) :
    SeenAs unrecorded (pageCalls (recording sp) idxs) (pageCalls sp idxs) s := by
  induction idxs generalizing s with
  | nil => exact seenAs_pure _ s
  | cons idx rest ih =>
    refine seenAs_bind (page_seen sp idx s) fun answer s' => ?_
    exact seenAs_bind (ih s') fun answers s'' => seenAs_pure _ s''

/-! ### Where the pages come from -/

/-- The pages between two states: each was there or was handed out, and what has tracks
    stays. -/
structure Grown (s s' : ContextResolver × (ω × List ContextPage)) : Prop where
  recorded : ∀ page ∈ s.2.2, page ∈ s'.2.2
  known : ∀ page ∈ s'.1.ctx.pages, page ∈ s.1.ctx.pages ∨ page ∈ s'.2.2
  kept : ∀ page ∈ s.1.ctx.pages, page.tracks ≠ [] → page ∈ s'.1.ctx.pages
  loaded : ∀ page ∈ s'.2.2, page.tracks ≠ [] → page ∈ s.2.2 ∨ page ∈ s'.1.ctx.pages

theorem Grown.refl (s : ContextResolver × (ω × List ContextPage)) : Grown s s :=
  ⟨fun _ inside => inside,fun _ inside => .inl inside,fun _ inside _ => inside,fun _ inside _ => .inl inside⟩

theorem Grown.trans {s s' s'' : ContextResolver × (ω × List ContextPage)} (first : Grown s s') (second : Grown s' s'') :
    Grown s s'' := by
  refine ⟨fun page inside => second.recorded page (first.recorded page inside),?_,?_,?_⟩
  · intro page inside
    rcases second.known page inside with earlier | handed
    · exact (first.known page earlier).imp_right (second.recorded page)
    · exact .inr handed
  · intro page inside nonempty
    exact second.kept page (first.kept page inside nonempty) nonempty
  · intro page inside nonempty
    rcases second.loaded page inside nonempty with earlier | there
    · exact (first.loaded page earlier nonempty).imp_right fun there => second.kept page there nonempty
    · exact .inr there

/-- A page that was handed out and then put among the others, over an empty one or at the end. -/
theorem grown_put {s s' : ContextResolver × (ω × List ContextPage)} {newPage : ContextPage} {pages : List ContextPage}
    (handed : s'.2.2 = s.2.2 ++ [newPage]) (put : newPage ∈ pages) (known : ∀ page ∈ pages, page ∈ s.1.ctx.pages ∨ page = newPage)
    (kept : ∀ page ∈ s.1.ctx.pages, page.tracks ≠ [] → page ∈ pages) : Grown s (setPages pages s') := by
  have there : newPage ∈ s'.2.2 := by simp [handed]
  refine ⟨fun page inside => ?_,fun page inside => ?_,kept,fun page inside nonempty => ?_⟩
  · show page ∈ s'.2.2
    simp [handed,inside]
  · rcases known page inside with earlier | rfl
    · exact .inl earlier
    · exact .inr there
  · have recorded : page ∈ s'.2.2 := inside
    rw [handed] at recorded
    rcases List.mem_append.mp recorded with earlier | last
    · exact .inl earlier
    · rw [List.mem_singleton.mp last]
      exact .inr put

/-- A page that is loaded is recorded, and nothing else is. -/
theorem loadPage_recorded (sp : Spclient ω) (url : String) (s : ContextResolver × (ω × List ContextPage)) :
    Meets (loadPage (recording sp) url) s
      (fun answer s' => s'.1 = s.1 ∧ ((∀ newPage, answer = .ok newPage → s'.2.2 = s.2.2 ++ [newPage]) ∧
        (∀ err, answer = .error err → s'.2.2 = s.2.2))) fun _ => False := by
  unfold loadPage
  by_cases valid : hasPrefix url "hm://"
  · obtain ⟨r,w,handed⟩ := s
    simp only [valid,not_true_eq_false,if_false,meets_bind,meets_zoom,meets_total,recording]
    rcases sp.request (String.ofList (url.toList.drop 5)) w with ⟨reply,w'⟩
    cases reply <;> simp
  · rw [if_pos valid]
    exact ⟨rfl,by simp,fun _ _ => rfl⟩

theorem grown_unchanged {s s' : ContextResolver × (ω × List ContextPage)} (same : s'.1 = s.1) (recorded : s'.2.2 = s.2.2) :
    Grown s s' := by
  refine ⟨?_,?_,?_,?_⟩
  · intro page inside
    rw [recorded]
    exact inside
  · intro page inside
    rw [same] at inside
    exact .inl inside
  · intro page inside _
    rw [same]
    exact inside
  · intro page inside _
    rw [recorded] at inside
    exact .inl inside

theorem loadNextPages_grown (sp : Spclient ω) (rounds : Nat) (s : ContextResolver × (ω × List ContextPage)) :
    Meets (loadNextPages (recording sp) rounds) s (fun _ s' => Grown s s') fun _ => True := by
  induction rounds generalizing s with
  | zero => exact Grown.refl s
  | succ rounds ih =>
    rw [loadNextPages,meets_bind,meets_get]
    cases s.1.ctx.pages.getLast? with
    | none => trivial
    | some lastPage =>
      dsimp only
      by_cases finished : lastPage.nextPageUrl.length = 0
      · rw [if_pos finished]
        exact Grown.refl s
      · rw [if_neg finished,meets_bind]
        refine meets_mono (loadPage_recorded sp _ s) (fun answer s' done => ?_) fun _ => False.elim
        obtain ⟨same,came,failed⟩ := done
        cases answer with
        | error err => exact grown_unchanged same (failed err rfl)
        | ok newPage =>
          rw [meets_bind,meets_modify]
          have added : Grown s (setPages (s'.1.ctx.pages ++ [newPage]) s') := by
            rw [same]
            exact grown_put (came newPage rfl) (by simp) (by simp) (by simp +contextual)
          exact meets_mono (ih _) (fun _ s'' more => added.trans more) fun _ => id

/-- A call of `Page` answers with the tracks of one of the pages that are there after it. -/
theorem page_grown (sp : Spclient ω) (idx : Nat) (s : ContextResolver × (ω × List ContextPage)) :
    Meets (page (recording sp) idx) s
      (fun answer s' => Grown s s' ∧ ∀ tracks, answer = .ok tracks → ∃ page ∈ s'.1.ctx.pages, page.tracks = tracks) fun _ => True := by
  unfold page
  rw [meets_bind,meets_get,meets_bind]
  refine meets_mono (loadNextPages_grown sp _ s) (fun err s' grown => ?_) fun _ => id
  cases err with
  | some err => exact ⟨grown,by simp⟩
  | none =>
    rw [meets_bind,meets_get]
    cases found : s'.1.ctx.pages[idx]? with
    | none => trivial
    | some page =>
      have member : page ∈ s'.1.ctx.pages := List.mem_of_getElem? found
      dsimp only
      split_ifs with empty
      · exact ⟨grown,by simp⟩
      · rw [meets_bind]
        refine meets_mono (loadPage_recorded sp _ s') (fun answer s'' done => ?_) fun _ => False.elim
        obtain ⟨same,came,failed⟩ := done
        cases answer with
        | error err => exact ⟨grown.trans (grown_unchanged same (failed err rfl)),by simp⟩
        | ok newPage =>
          obtain ⟨inside,rfl⟩ := List.getElem?_eq_some_iff.mp found
          have put : newPage ∈ s'.1.ctx.pages.set idx newPage := List.mem_set inside newPage
          have reloaded : Grown s' (setPages (s''.1.ctx.pages.set idx newPage) s'') := by
            rw [same]
            refine grown_put (came newPage rfl) put (fun page => List.mem_or_eq_of_mem_set) fun page there nonempty => ?_
            obtain ⟨k,bound,rfl⟩ := List.getElem_of_mem there
            have other : idx ≠ k := by
              rintro rfl
              exact nonempty (List.length_eq_zero_iff.mp empty)
            exact List.mem_of_getElem? (by rw [List.getElem?_set_ne other,List.getElem?_eq_getElem bound])
          rw [meets_bind,meets_modify]
          refine ⟨grown.trans reloaded,?_⟩
          rintro tracks ⟨⟩
          refine ⟨newPage,?_,rfl⟩
          show newPage ∈ s''.1.ctx.pages.set idx newPage
          rw [same]
          exact put
      · refine ⟨grown,?_⟩
        rintro tracks ⟨⟩
        exact ⟨page,member,rfl⟩

/-- All tracks that a run of calls answers with are of pages that were there or were handed out. -/
theorem pageCalls_grown (sp : Spclient ω) (idxs : List Nat) (s : ContextResolver × (ω × List ContextPage)) :
    Meets (pageCalls (recording sp) idxs) s
      (fun answers s' => Grown s s' ∧ ∀ tracks, .ok tracks ∈ answers → ∃ page, (page ∈ s.1.ctx.pages ∨ page ∈ s'.2.2) ∧ page.tracks = tracks)
      fun _ => True := by
  induction idxs generalizing s with
  | nil => exact ⟨Grown.refl s,by simp⟩
  | cons idx rest ih =>
    rw [pageCalls,meets_bind]
    refine meets_mono (page_grown sp idx s) (fun answer s' done => ?_) fun _ => id
    obtain ⟨first,there⟩ := done
    rw [meets_bind]
    refine meets_mono (ih s') (fun answers s'' more => ⟨first.trans more.1,fun tracks member => ?_⟩) fun _ => id
    rcases List.mem_cons.mp member with same | later
    · obtain ⟨page,inside,rfl⟩ := there tracks same.symm
      exact ⟨page,(first.known page inside).imp_right (more.1.recorded page),rfl⟩
    · obtain ⟨page,inside,rfl⟩ := more.2 tracks later
      refine ⟨page,?_,rfl⟩
      rcases inside with earlier | handed
      · exact (first.known page earlier).imp_right (more.1.recorded page)
      · exact .inr handed

/-! ### The tracks of a station -/

theorem autoplayTrack_of_marked (typ : SpotifyIdType) {track : ContextTrack} (marked : Marked track) : AutoplayTrack typ track := by
  refine ⟨marked,fun unqueued provided made => ?_⟩
  obtain ⟨_,_,_,provider⟩ := provided_ok made
  have tested : track.metadata.get "autoplay.is_autoplay" = "true" := marked
  rw [provider,providerOf,if_neg unqueued,if_pos tested]

/-- A page with tracks is answered as it is. -/
theorem page_there (sp : Spclient ω) {idx : Nat} {s : ContextResolver × ω} {there : ContextPage}
    (found : s.1.ctx.pages[idx]? = some there) (nonempty : there.tracks ≠ []) : page sp idx s = .ok (.ok there.tracks,s) := by
  have inside : idx < s.1.ctx.pages.length := (List.getElem?_eq_some_iff.mp found).1
  have rounds : idx + 1 - s.1.ctx.pages.length = 0 := by omega
  have some_track : ¬ there.tracks.length = 0 := mt List.length_eq_zero_iff.mp nonempty
  simp only [page,run_bind,run_get,ok_bind,rounds,loadNextPages,run_pure,found,if_neg some_track]

theorem pageCalls_append (sp : Spclient ω) {idxs : List Nat} {idx : Nat} {s s' s'' : ContextResolver × ω}
    {answers : List (Except GoError (List ContextTrack))} {answer : Except GoError (List ContextTrack)}
    (ran : pageCalls sp idxs s = .ok (answers,s')) (called : page sp idx s' = .ok (answer,s'')) :
    pageCalls sp (idxs ++ [idx]) s = .ok (answers ++ [answer],s'') := by
  induction idxs generalizing s answers with
  | nil =>
    cases ran
    simp only [List.nil_append,pageCalls,run_bind,called,ok_bind,run_pure]
  | cons first rest ih =>
    rw [pageCalls,run_bind] at ran
    cases head : page sp first s with
    | error f =>
      rw [head] at ran
      cases ran
    | ok x =>
      rw [head,ok_bind,run_bind] at ran
      cases tail : pageCalls sp rest x.2 with
      | error f =>
        rw [tail] at ran
        cases ran
      | ok y =>
        rw [tail] at ran
        cases ran
        rw [List.cons_append,pageCalls,run_bind,head,ok_bind,run_bind,ih tail]
        rfl

theorem constructor_marks {sp : Spclient ω} {spotCtx : Context} {w w' : ω} {r : ContextResolver}
    (made : newContextResolver sp spotCtx w = .ok (.ok r,w')) (station : Station r.ctx) :
    ∀ page ∈ r.ctx.pages, ∀ track ∈ page.tracks, Marked track := by
  obtain ⟨answer,w'',ran,_⟩ := meets_returns (completed_meets sp spotCtx w)
  cases answer with
  | error err =>
    rw [constructor_error ran] at made
    cases made
  | ok ctx =>
    rw [constructor_ok ran] at made
    cases marked : markPages ctx with
    | error f =>
      rw [marked] at made
      cases made
    | ok ctx' =>
      rw [marked] at made
      cases made
      exact ((markPages_spec ctx).2 ctx' marked).2.2 station

/-- The tracks of a station carry the mark in every run of calls exactly if the service
    hands out no page without it: pages that are loaded later are not marked. -/
theorem station_pages_iff (sp : Spclient ω) (spotCtx : Context) (w : ω) {r : ContextResolver} {w' : ω}
    (made : newContextResolver sp spotCtx w = .ok (.ok r,w')) (station : Station r.ctx) :
    PagesMarked sp r w' ↔ HandsOutMarked sp r w' := by
  constructor
  · intro marked idxs answers s ran page handed track among
    have nonempty : page.tracks ≠ [] := List.ne_nil_of_mem among
    have grown := (meets_ok (pageCalls_grown sp idxs _) ran).1
    have there : page ∈ s.1.ctx.pages := (grown.loaded page handed nonempty).resolve_left List.not_mem_nil
    obtain ⟨k,bound,rfl⟩ := List.getElem_of_mem there
    have seen := seenAs_ok (pageCalls_seen sp idxs (r,(w',[]))) ran
    have again := page_there sp (s := unrecorded s) (List.getElem?_eq_getElem bound) nonempty
    exact (marked _ _ _ (pageCalls_append sp seen again) _ (by simp) track among).1
  · intro handsOut idxs answers s ran tracks answered track among
    have given : ∀ page ∈ r.ctx.pages, ∀ track ∈ page.tracks, Marked track := constructor_marks made station
    obtain ⟨s',recorded,rfl⟩ := seenAs_behind (pageCalls_seen sp idxs (r,(w',[]))) ran
    obtain ⟨page,source,rfl⟩ := (meets_ok (pageCalls_grown sp idxs _) recorded).2 tracks answered
    refine autoplayTrack_of_marked r.typ ?_
    rcases source with earlier | handed
    · exact given page earlier track among
    · exact handsOut idxs answers s' recorded page handed track among

/-- A station whose second page is loaded, and comes without the mark. -/
def secondPage : Spclient Unit where
  contextResolve uri w := (.ok ⟨uri,none,[],false⟩,w)
  contextResolveAutoplay uri _ w := (.ok ⟨uri,none,[],false⟩,w)
  request _ w := (.page ⟨"","",[⟨"spotify:track:b","",[],some []⟩]⟩,w)

def twoPageStation : Context := ⟨"spotify:station:a",none,[⟨"","hm://b",[⟨"spotify:track:a","",[],some []⟩]⟩],false⟩

/-- The resolver for a station of which one page is there. -/
def markedStation : ContextResolver :=
  ⟨"track",{ twoPageStation with pages := [⟨"","hm://b",[⟨"spotify:track:a","",[],some [("autoplay.is_autoplay","true")]⟩]⟩] }⟩

theorem station_pages_small : PagesMarked noPages markedStation () ↔ HandsOutMarked noPages markedStation () :=
  station_pages_iff noPages twoPageStation () (by rfl) (by decide +kernel)

theorem station_pages_unmarked :
    newContextResolver secondPage twoPageStation () = .ok (.ok markedStation,()) ∧ Station markedStation.ctx ∧
      ¬ PagesMarked secondPage markedStation () := by
  refine ⟨by rfl,by decide +kernel,fun marked => ?_⟩
  obtain ⟨s,ran⟩ : ∃ s, pageCalls secondPage [1] (markedStation,()) = .ok ([.ok [⟨"spotify:track:b","",[],some []⟩]],s) := ⟨_,by rfl⟩
  have unmarked := marked [1] _ s ran _ (List.mem_singleton_self _) _ (List.mem_singleton_self _)
  exact absurd unmarked.1 (by decide +kernel)

end Librespot.Contexts
