import Librespot.TrackPages
import Librespot.TrackPositions

/-!
A search through a list and the pages it is still served. It goes through the loaded entries and on
through the pages, up to the first that is empty, and ends at the first entry it does not pass over.
-/
namespace Librespot.Tracks
open Librespot.Errors Librespot.Programs Librespot.Ids Librespot.Paging

variable {ρ : Type} {resolver : TrackResolver ρ} {test : ContextTrack → Except Fault Bool}

/-- Asked for one page after the other, from the given one on, the resolver answers with these. -/
inductive Serves (resolver : TrackResolver ρ) : Nat → ρ → List (List ContextTrack) → Prop where
  | nothing {i : Nat} {state : ρ} : Serves resolver i state []
  | page {i : Nat} {state state' : ρ} {items : List ContextTrack} {pages : List (List ContextTrack)}
      (answered : resolver.page i state = .ok (.ok items,state')) (onward : Serves resolver (i + 1) state' pages) :
      Serves resolver i state (items :: pages)

/-- The entries of pages that follow each other. -/
def servedEntries : Nat → List (List ContextTrack) → List (PagedListItem ContextTrack)
  | _, [] => []
  | i, items :: pages => pageItems i items ++ servedEntries (i + 1) pages

/-- The entries of a list together with those of the pages that follow. -/
def contents (l : PagedList ρ ContextTrack) (pages : List (List ContextTrack)) : List (PagedListItem ContextTrack) :=
  l.list ++ servedEntries (nextPageIdx l.list) pages

/-- The pages before the first empty one, which ends a search with an error. -/
def unbroken (pages : List (List ContextTrack)) : List (List ContextTrack) := pages.takeWhile fun items => !items.isEmpty

/-- What loading some of the pages leaves of the list and of the pages still to come. -/
structure Advanced (resolver : TrackResolver ρ) (l l' : PagedList ρ ContextTrack) (pages pages' : List (List ContextTrack)) : Prop where
  served : Serves resolver (nextPageIdx l'.list) l'.pages pages'
  boundary : ∃ loaded, pages = loaded ++ pages' ∧ (∀ items ∈ loaded, items ≠ []) ∧
    l'.list = l.list ++ servedEntries (nextPageIdx l.list) loaded

theorem unbroken_cons {items : List ContextTrack} (some : items ≠ []) (pages : List (List ContextTrack)) :
    unbroken (items :: pages) = items :: unbroken pages := by
  rw [unbroken,List.takeWhile_cons_of_pos (by simpa using some)]
  rfl

theorem unbroken_of_nonempty {pages : List (List ContextTrack)} (nonempty : ∀ items ∈ pages, items ≠ []) : unbroken pages = pages := by
  refine List.takeWhile_eq_self_iff.mpr ?_
  intro items member
  simpa using nonempty items member

theorem unbroken_append {loaded : List (List ContextTrack)} (some : ∀ items ∈ loaded, items ≠ []) (rest : List (List ContextTrack)) :
    unbroken (loaded ++ rest) = loaded ++ unbroken rest := by
  induction loaded with
  | nil => rfl
  | cons items loaded ih =>
    obtain ⟨first,later⟩ := List.forall_mem_cons.mp some
    rw [List.cons_append,unbroken_cons first,ih later,List.cons_append]

theorem servedEntries_append (i : Nat) (loaded rest : List (List ContextTrack)) :
    servedEntries i (loaded ++ rest) = servedEntries i loaded ++ servedEntries (i + loaded.length) rest := by
  induction loaded generalizing i with
  | nil => rfl
  | cons items loaded ih =>
    simp only [List.cons_append,servedEntries,ih,List.append_assoc,List.length_cons]
    rw [show i + 1 + loaded.length = i + (loaded.length + 1) by omega]

/-- The page after pages that were loaded. -/
theorem nextPageIdx_served (list : List (PagedListItem ContextTrack)) {loaded : List (List ContextTrack)}
    (some : ∀ items ∈ loaded, items ≠ []) :
    nextPageIdx (list ++ servedEntries (nextPageIdx list) loaded) = nextPageIdx list + loaded.length := by
  induction loaded generalizing list with
  | nil => simp [servedEntries]
  | cons items loaded ih =>
    obtain ⟨first,later⟩ := List.forall_mem_cons.mp some
    have number := nextPageIdx_append list (nextPageIdx list) first
    have after := ih (list ++ pageItems (nextPageIdx list) items) later
    rw [number] at after
    rw [servedEntries,← List.append_assoc,after,List.length_cons]
    omega

section
variable {l l' l'' : PagedList ρ ContextTrack} {pages pages' pages'' : List (List ContextTrack)}

theorem advanced_refl (serves : Serves resolver (nextPageIdx l.list) l.pages pages) : Advanced resolver l l pages pages :=
  ⟨serves,[],rfl,by simp,by simp [servedEntries]⟩

/-- What is loaded and what is still to come remain the same together. -/
theorem Advanced.same (advanced : Advanced resolver l l' pages pages') : contents l' (unbroken pages') = contents l (unbroken pages) := by
  obtain ⟨loaded,rfl,some,list⟩ := advanced.boundary
  rw [contents,contents,list,nextPageIdx_served l.list some,unbroken_append some,servedEntries_append,List.append_assoc]

/-- An empty page is still to come. -/
theorem Advanced.broken (advanced : Advanced resolver l l' pages pages') (empty : [] ∈ pages) : [] ∈ pages' := by
  obtain ⟨loaded,rfl,some,_⟩ := advanced.boundary
  rcases List.mem_append.mp empty with before | after
  · exact absurd rfl (some [] before)
  · exact after

theorem Advanced.trans (first : Advanced resolver l l' pages pages') (second : Advanced resolver l' l'' pages' pages'') :
    Advanced resolver l l'' pages pages'' := by
  obtain ⟨loaded,rfl,some,list⟩ := first.boundary
  obtain ⟨loaded',rfl,some',list'⟩ := second.boundary
  refine ⟨second.served,loaded ++ loaded',by rw [List.append_assoc],?_,?_⟩
  · exact fun items member => (List.mem_append.mp member).elim (some items) (some' items)
  · rw [list',list,nextPageIdx_served l.list some,servedEntries_append,List.append_assoc]

end

/-- An entry of the list is where its contents have it. -/
theorem contents_loaded {l : PagedList ρ ContextTrack} (pages : List (List ContextTrack)) {i : Nat} (inside : i < l.list.length) :
    (contents l pages)[i]? = l.list[i]? := List.getElem?_append_left inside

theorem contents_unbroken (l : PagedList ρ ContextTrack) (pages : List (List ContextTrack)) :
    contents l (unbroken pages) <+: contents l pages := by
  have entries : ∀ (pages : List (List ContextTrack)) (i : Nat), servedEntries i (unbroken pages) <+: servedEntries i pages := by
    intro pages
    induction pages with
    | nil => exact fun _ => List.prefix_rfl
    | cons items rest ih =>
      intro i
      by_cases some : items = []
      · subst some
        exact List.nil_prefix
      · rw [unbroken_cons some]
        exact (List.prefix_append_right_inj _).mpr (ih (i + 1))
  exact (List.prefix_append_right_inj _).mpr (entries pages _)

theorem getElem?_unbroken {l : PagedList ρ ContextTrack} (pages : List (List ContextTrack)) {i : Nat}
    (inside : i < (contents l (unbroken pages)).length) : (contents l (unbroken pages))[i]? = (contents l pages)[i]? := by
  obtain ⟨rest,whole⟩ := contents_unbroken l pages
  rw [← whole,List.getElem?_append_left inside]

/-- A resolver of the given pages serves them from any on. -/
theorem serves_pagesOf {pages : List (List ContextTrack)} (of : PagesOf resolver pages) (i : Nat) (state : ρ) :
    Serves resolver i state (pages.drop i) := by
  generalize left : pages.drop i = rest
  induction rest generalizing i state with
  | nil => exact .nothing
  | cons items rest ih =>
    have inside : i < pages.length := by
      by_contra past
      rw [List.drop_eq_nil_of_le (by omega)] at left
      cases left
    rw [List.drop_eq_getElem_cons inside] at left
    obtain ⟨rfl,after⟩ := List.cons.inj left
    obtain ⟨state',answered⟩ := of.answers i state
    rw [pageAnswer,List.getElem?_eq_getElem inside] at answered
    exact .page answered (ih (i + 1) state' after)

/-- While there are entries to come, `next` moves on to the next of them. -/
theorem next_served {l : PagedList ρ ContextTrack} {pages : List (List ContextTrack)}
    (serves : Serves resolver (nextPageIdx l.list) l.pages pages) {n : Nat} (inside : n ≤ l.list.length)
    (coming : n < (contents l (unbroken pages)).length) : ∃ l' pages', next resolver ⟨n - 1,none⟩ l = .ok ((true,⟨n,none⟩),l') ∧
      Advanced resolver l l' pages pages' ∧ n < l'.list.length := by
  by_cases loaded : n < l.list.length
  · refine ⟨l,pages,?_,advanced_refl serves,loaded⟩
    rw [next_loaded resolver (by dsimp only; omega)]
    simp
  · -- the next entry is the first of a page that is not empty
    obtain rfl : n = l.list.length := by omega
    have last : ((l.list.length : Int) - 1) + 1 = l.list.length := by omega
    generalize state : l.pages = pages₀ at serves
    cases serves with
    | nothing => simp [contents,unbroken,servedEntries] at coming
    | @page _ _ state' items pages answered onward =>
      subst state
      have some : items ≠ [] := by
        rintro rfl
        simp [contents,unbroken,servedEntries] at coming
      have added : 0 < items.length := List.length_pos_iff.mpr some
      have number := nextPageIdx_append l.list (nextPageIdx l.list) some
      refine ⟨{ l with pages := state', list := l.list ++ pageItems (nextPageIdx l.list) items },pages,?_,⟨?_,[items],rfl,?_,?_⟩,?_⟩
      · rw [next_fetched answered some last]
        simp
      · dsimp only
        rw [number]
        exact onward
      · exact List.forall_mem_singleton.mpr some
      · simp only [servedEntries,List.append_nil]
      · simp only [List.length_append,pageItems_length]
        omega

/-- A round of a search at an entry that is to come. -/
theorem forNext_round {l : PagedList ρ ContextTrack} {pages : List (List ContextTrack)}
    (serves : Serves resolver (nextPageIdx l.list) l.pages pages) {n : Nat} (inside : n ≤ l.list.length)
    {entry : PagedListItem ContextTrack} (coming : (contents l (unbroken pages))[n]? = some entry) (rounds calls : Nat) :
    ∃ l' pages', Advanced resolver l l' pages pages' ∧ n < l'.list.length ∧ l'.list[n]? = some entry ∧
      forNext resolver (seekVisit fun _ => test) (rounds + 1) calls ⟨n - 1,none⟩ l = (seekVisit (fun _ => test) calls entry.item).bind
        fun visited => match visited with
          | .done calls => .ok ((.left,calls,⟨n,none⟩),l')
          | .yield calls => forNext resolver (seekVisit fun _ => test) rounds calls ⟨n,none⟩ l' := by
  obtain ⟨l',pages',went,advanced,high⟩ := next_served serves inside (List.getElem?_eq_some_iff.mp coming).1
  have there : l'.list[n]? = some entry := by
    rw [← contents_loaded (unbroken pages') high,advanced.same]
    exact coming
  refine ⟨l',pages',advanced,high,there,?_⟩
  have got : PagedListIterator.get ⟨n,none⟩ l' = .ok entry := by
    rw [PagedListIterator.get,if_neg (by dsimp only; omega),entryAt,Int.toNat_natCast,there]
  rw [forNext,run_bind,went]
  simp only [ok_bind,if_true,run_bind,run_get,got,run_check,ok_map]
  cases seekVisit (fun _ => test) calls entry.item with
  | error f => rfl
  | ok visited => cases visited <;> rfl

/-- A search goes on past the entries that do not pass its test. -/
theorem forNext_passes {l : PagedList ρ ContextTrack} {pages : List (List ContextTrack)}
    (serves : Serves resolver (nextPageIdx l.list) l.pages pages) (n : Nat) (bound : n ≤ (contents l (unbroken pages)).length)
    (passed : ∀ entry ∈ (contents l (unbroken pages)).take n, test entry.item = .ok false) (rounds : Nat) :
    ∃ l' pages', Advanced resolver l l' pages pages' ∧ n ≤ l'.list.length ∧
      forNext resolver (seekVisit fun _ => test) (rounds + n) 0 iterStart l =
        forNext resolver (seekVisit fun _ => test) rounds n ⟨n - 1,none⟩ l' := by
  induction n generalizing rounds with
  | zero => exact ⟨l,pages,advanced_refl serves,Nat.zero_le _,rfl⟩
  | succ n ih =>
    have earlier : ∀ entry ∈ (contents l (unbroken pages)).take n, test entry.item = .ok false :=
      fun entry member => passed entry ((List.take_prefix_take_left (Nat.le_succ n)).subset member)
    obtain ⟨l',pages',advanced,inside,ran⟩ := ih (by omega) earlier (rounds + 1)
    obtain ⟨entry,coming⟩ : ∃ entry, (contents l (unbroken pages))[n]? = some entry := ⟨_,List.getElem?_eq_getElem bound⟩
    have tested : test entry.item = .ok false := by
      refine passed entry (List.mem_of_getElem? (i := n) ?_)
      rw [List.getElem?_take_of_lt (Nat.lt_succ_self n),coming]
    rw [← advanced.same] at coming
    obtain ⟨l'',pages'',onward,high,_,went⟩ := @forNext_round _ _ test _ _ advanced.served _ inside _ coming rounds n
    refine ⟨l'',pages'',advanced.trans onward,high,?_⟩
    rw [show rounds + (n + 1) = rounds + 1 + n by omega,ran,went]
    simp [seekVisit,tested]

/-! ### Where a search ends -/

/-- A search passes over all entries, or there is a first that it does not pass over. -/
theorem exists_first (test : ContextTrack → Except Fault Bool) (entries : List (PagedListItem ContextTrack)) :
    (∀ entry ∈ entries, test entry.item = .ok false) ∨ ∃ i entry, entries[i]? = some entry ∧ test entry.item ≠ .ok false ∧
      ∀ earlier ∈ entries.take i, test earlier.item = .ok false := by
  induction entries with
  | nil => exact .inl (by simp)
  | cons first rest ih =>
    by_cases passed : test first.item = .ok false
    · rcases ih with all | ⟨i,entry,there,stops,before⟩
      · exact .inl (List.forall_mem_cons.mpr ⟨passed,all⟩)
      · exact .inr ⟨i + 1,entry,there,stops,List.forall_mem_cons.mpr ⟨passed,before⟩⟩
    · exact .inr ⟨0,first,rfl,passed,by simp⟩

section
variable {tl : TrackList ρ} {pages : List (List ContextTrack)} (serves : Serves resolver (nextPageIdx tl.tracks.list) tl.tracks.pages pages)
  {i : Nat} {entry : PagedListItem ContextTrack} {fuel : Nat}
include serves

/-- The search is left at the first entry that passes. -/
theorem seek_served (there : (contents tl.tracks (unbroken pages))[i]? = some entry)
    (before : ∀ earlier ∈ (contents tl.tracks (unbroken pages)).take i, test earlier.item = .ok false)
    (passes : test entry.item = .ok true) (enough : i < fuel) : ∃ l pages', Advanced resolver tl.tracks l pages pages' ∧
      l.list[i]? = some entry ∧ l.pos = i ∧ seek resolver fuel (fun _ => test) tl = .ok (none,{ tl with tracks := l }) := by
  have bound := (List.getElem?_eq_some_iff.mp there).1
  obtain ⟨rounds,rfl⟩ : ∃ rounds, fuel = rounds + 1 + i := ⟨fuel - i - 1,by omega⟩
  obtain ⟨l,pages',advanced,inside,ran⟩ := forNext_passes serves i (by omega) before (rounds + 1)
  rw [← advanced.same] at there
  obtain ⟨l',pages'',onward,_,here,went⟩ := @forNext_round _ _ test _ _ advanced.served _ inside _ there rounds i
  have whole := advanced.trans onward
  refine ⟨{ l' with pos := i },pages'',⟨whole.served,whole.boundary⟩,here,rfl,?_⟩
  rw [went] at ran
  simp [seek,onTracks,ran,seekVisit,passes,move_eq]

/-- The search faults at the first entry that it does not pass over, when the test of that one does. -/
theorem seek_faults (there : (contents tl.tracks (unbroken pages))[i]? = some entry)
    (before : ∀ earlier ∈ (contents tl.tracks (unbroken pages)).take i, test earlier.item = .ok false) {f : Fault}
    (faults : test entry.item = .error f) (enough : i < fuel) : seek resolver fuel (fun _ => test) tl = .error f := by
  have bound := (List.getElem?_eq_some_iff.mp there).1
  obtain ⟨rounds,rfl⟩ : ∃ rounds, fuel = rounds + 1 + i := ⟨fuel - i - 1,by omega⟩
  obtain ⟨l,pages',advanced,inside,ran⟩ := forNext_passes serves i (by omega) before (rounds + 1)
  rw [← advanced.same] at there
  obtain ⟨_,_,_,_,_,went⟩ := @forNext_round _ _ test _ _ advanced.served _ inside _ there rounds i
  rw [went] at ran
  simp [seek,onTracks,ran,seekVisit,faults]

/-- The search that comes to an empty page fails. -/
theorem seek_broken (empty : [] ∈ pages) (passed : ∀ entry ∈ contents tl.tracks (unbroken pages), test entry.item = .ok false)
    (enough : (contents tl.tracks (unbroken pages)).length < fuel) :
    ∃ err tl', seek resolver fuel (fun _ => test) tl = .ok (some err,tl') := by
  obtain ⟨rounds,rfl⟩ : ∃ rounds, fuel = rounds + 1 + (contents tl.tracks (unbroken pages)).length :=
    ⟨fuel - (contents tl.tracks (unbroken pages)).length - 1,by omega⟩
  obtain ⟨l,pages',advanced,inside,ran⟩ := forNext_passes serves _ le_rfl
    (fun entry member => passed entry (List.mem_of_mem_take member)) (rounds + 1)
  have length := congrArg List.length advanced.same
  rw [contents,List.length_append] at length
  have left := advanced.broken empty
  have served := advanced.served
  -- of the pages that are left the first is the empty one
  cases pages' with
  | nil => simp at left
  | cons items rest =>
    have none : items = [] := by
      by_contra some
      have more : 0 < items.length := List.length_pos_iff.mpr some
      simp only [unbroken_cons some,servedEntries,List.length_append,pageItems_length] at length
      omega
    subst none
    have last : ((contents tl.tracks (unbroken pages)).length : Int) - 1 + 1 = l.list.length := by
      simp only [unbroken,List.isEmpty_nil,Bool.not_true,Bool.false_eq_true,not_false_eq_true,List.takeWhile_cons_of_neg,servedEntries,
        List.length_nil] at length ⊢
      omega
    generalize state : l.pages = state₀ at served
    cases served with
    | @page _ _ state' _ _ answered _ =>
      subst state
      have fetched : fetchNextPage resolver l = .ok (received l state' (.ok [])) := fetch_eq answered
      rw [forNext,run_bind,next_at_end resolver last,fetched] at ran
      simp only [received,ok_map,ok_bind,Bool.false_eq_true,if_false,run_pure] at ran
      simp only [seek,onTracks,run_bind,run_zoom,ran,ok_map,ok_bind]
      exact ⟨_,_,rfl⟩

/-- A search that succeeds, with an entry that passes in reach, is at the first entry that it does not pass over. -/
theorem seek_moved (there : (contents tl.tracks pages)[i]? = some entry) (passes : test entry.item = .ok true) (enough : i < fuel)
    {tl' : TrackList ρ} (ran : seek resolver fuel (fun _ => test) tl = .ok (none,tl')) : ∃ j stop, tl'.tracks.get = .ok stop ∧
      (contents tl.tracks (unbroken pages))[j]? = some stop ∧
      ∀ earlier ∈ (contents tl.tracks (unbroken pages)).take j, test earlier.item = .ok false := by
  rcases exists_first test (contents tl.tracks (unbroken pages)) with all | ⟨j,stop,found,stops,before⟩
  · -- then the entry that passes comes after an empty page, where the search has failed
    have beyond : (contents tl.tracks (unbroken pages)).length ≤ i := by
      by_contra inside
      have passed := all entry (List.mem_of_getElem? ((getElem?_unbroken pages (by omega)).trans there))
      rw [passes] at passed
      cases passed
    have empty : [] ∈ pages := by
      by_contra none
      rw [unbroken_of_nonempty fun items member absent => none (absent ▸ member)] at beyond
      have inside := (List.getElem?_eq_some_iff.mp there).1
      omega
    obtain ⟨err,_,failed⟩ := seek_broken serves empty all (show _ < fuel by omega)
    rw [failed] at ran
    cases ran
  · have inside := (List.getElem?_eq_some_iff.mp found).1
    have upTo : j ≤ i := by
      by_contra later
      have earlier : ((contents tl.tracks (unbroken pages)).take j)[i]? = some entry := by
        rw [List.getElem?_take_of_lt (by omega),getElem?_unbroken pages (by omega),there]
      have passed := before entry (List.mem_of_getElem? earlier)
      rw [passes] at passed
      cases passed
    cases tested : test stop.item with
    | error f =>
      rw [seek_faults serves found before tested (by omega)] at ran
      cases ran
    | ok result =>
      obtain rfl : result = true := by
        cases result with
        | true => rfl
        | false => exact absurd tested stops
      obtain ⟨l,_,_,here,set,went⟩ := seek_served serves found before tested (show j < fuel by omega)
      rw [went] at ran
      cases ran
      exact ⟨j,stop,get_at set here,found,before⟩

end

end Librespot.Tracks
