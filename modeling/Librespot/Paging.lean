import Librespot.Errors
import Librespot.Programs
import Librespot.Swaps

/-!
The list of tracks that is loaded page by page (`tracks/paged_list.go`), its
iterators, and the shuffle that a seed can undo. Pages come from a resolver with
a state of its own.
-/
namespace Librespot.Paging
open Librespot.Errors Librespot.Programs Librespot.Swaps

variable {ρ T σ : Type}

/-- `librespot.PageResolver`. -/
structure PageResolver (ρ T : Type) where
  page : Nat → Prog Fault ρ (Except GoError (List T))

/-- `golang.org/x/exp/rand`: a source is made from a seed, and `Intn(k)` is below `k`. -/
structure Rand where
  Source : Type
  newSource : UInt64 → Source
  intn : Source → Nat → Nat × Source
  intn_lt : ∀ source k, 0 < k → (intn source k).1 < k

structure PagedListItem (T : Type) where
  item : T
  pageIdx : Nat
  itemIdx : Nat
deriving DecidableEq, Repr

structure PagedList (ρ T : Type) where
  pages : ρ
  list : List (PagedListItem T)
  pos : Int
deriving DecidableEq, Repr

structure PagedListIterator where
  pos : Int
  err : Option GoError
deriving DecidableEq, Repr

def newPagedList (pages : ρ) : PagedList ρ T := ⟨pages,[],-1⟩

/-- The entries that a fetched page adds. -/
def pageItems (pageIdx : Nat) (items : List T) : List (PagedListItem T) :=
  items.zipIdx.map fun x => ⟨x.1,pageIdx,x.2⟩

/-- The page that `fetchNextPage` asks for. -/
def nextPageIdx (list : List (PagedListItem T)) : Nat :=
  match list.getLast? with
  | none => 0
  | some curr => curr.pageIdx + 1

def fetchNextPage (resolver : PageResolver ρ T) : Prog Fault (PagedList ρ T) (Nat × Option GoError) := do
  let pageIdx := nextPageIdx (← get).list
  match ← zoom PagedList.pages (fun pages l => { l with pages }) (resolver.page pageIdx) with
  | .error err => return (pageIdx,some err)
  | .ok [] => return (pageIdx,some (.text s!"loaded an empty page for {pageIdx}"))
  | .ok items =>
    modify fun l => { l with list := l.list ++ pageItems pageIdx items }
    return (pageIdx,none)

/-! ### Iterators -/

def prev (iter : PagedListIterator) : Except Fault (Bool × PagedListIterator) :=
  if iter.pos < 0 then .error (.panic s!"invalid paged list iterator position: {iter.pos}")
  else if iter.pos = 0 then .ok (false,⟨iter.pos,none⟩)
  else .ok (true,⟨iter.pos - 1,none⟩)

/-- What `next` makes of the error that a page fetch returned. -/
def fetchFailure (iter : PagedListIterator) (pageIdx : Nat) (err : GoError) : Option GoError :=
  if err.is .eof then none
  else some (.wrap s!"failed moving to next index {iter.pos + 1} (page {pageIdx})" err)

/-- The loop of `next`; a fetch that succeeds adds an entry, which bounds the rounds. -/
def nextRounds (resolver : PageResolver ρ T) (iter : PagedListIterator) :
    Nat → Prog Fault (PagedList ρ T) (Bool × PagedListIterator)
  | 0 => do
    if (← get).list.length ≤ iter.pos + 1 then throw .outOfFuel
    return (true,⟨iter.pos + 1,none⟩)
  | rounds + 1 => do
    if (← get).list.length ≤ iter.pos + 1 then
      match ← fetchNextPage resolver with
      | (_,none) => nextRounds resolver iter rounds
      | (pageIdx,some err) => return (false,⟨iter.pos,fetchFailure iter pageIdx err⟩)
    else return (true,⟨iter.pos + 1,none⟩)

def next (resolver : PageResolver ρ T) (iter : PagedListIterator) :
    Prog Fault (PagedList ρ T) (Bool × PagedListIterator) := do
  nextRounds resolver iter (iter.pos + 2 - (← get).list.length).toNat

/-- The entry at an index of the loaded list. -/
def entryAt (l : PagedList ρ T) (pos : Int) : Except Fault (PagedListItem T) :=
  match l.list[pos.toNat]? with
  | some entry => .ok entry
  | none => .error .indexOutOfRange

def PagedListIterator.get (iter : PagedListIterator) (l : PagedList ρ T) : Except Fault (PagedListItem T) :=
  if iter.pos < 0 then .error (.panic s!"invalid paged list iterator position: {iter.pos}")
  else entryAt l iter.pos

def iterHere (l : PagedList ρ T) : Except Fault PagedListIterator :=
  if l.pos < 0 then .error (.panic s!"invalid paged list position: {l.pos}") else .ok ⟨l.pos,none⟩

def iterStart : PagedListIterator := ⟨-1,none⟩

/-- How a loop over an iterator ended: its body left it, `next` or `prev`
    returned false, or the bound on its rounds was reached. -/
inductive Ending where
  | left
  | ended
  | bounded
deriving DecidableEq, Repr

/-- `for iter.next(ctx) { visit(iter.get().item) }`, for at most the given rounds. -/
def forNext (resolver : PageResolver ρ T) (visit : σ → T → Except Fault (ForInStep σ)) :
    Nat → σ → PagedListIterator → Prog Fault (PagedList ρ T) (Ending × σ × PagedListIterator)
  | 0, x, iter => return (.bounded,x,iter)
  | rounds + 1, x, iter => do
    let (more,iter) ← next resolver iter
    if more then
      let curr ← check (iter.get (← get))
      match ← check (visit x curr.item) with
      | .done x => return (.left,x,iter)
      | .yield x => forNext resolver visit rounds x iter
    else return (.ended,x,iter)

/-- `for iter.prev() { visit(iter.get().item) }`, for at most the given rounds. -/
def forPrev (visit : σ → T → Except Fault σ) (l : PagedList ρ T) :
    Nat → σ → PagedListIterator → Except Fault (σ × PagedListIterator)
  | 0, x, iter => .ok (x,iter)
  | rounds + 1, x, iter => do
    let (more,iter) ← prev iter
    if more then
      let curr ← iter.get l
      let x ← visit x curr.item
      forPrev visit l rounds x iter
    else return (x,iter)

/-! ### The list -/

def moveStart (resolver : PageResolver ρ T) : Prog Fault (PagedList ρ T) (Option GoError) := do
  if (← get).list.length = 0 then
    match ← fetchNextPage resolver with
    | (pageIdx,some err) =>
      if err.is .eof then return some (.text s!"failed moving to start: no more pages as of {pageIdx}")
      else return some (.wrap "failed moving to start" err)
    | (_,none) => pure ()
  modify fun l => { l with pos := 0 }
  return none

def move (iter : PagedListIterator) : Prog Fault (PagedList ρ T) Unit := do
  if iter.err.isSome then throw (.panic "cannot move to errored paged list iterator")
  modify fun l => { l with pos := iter.pos }

def PagedList.get (l : PagedList ρ T) : Except Fault (PagedListItem T) :=
  if l.pos < 0 then .error (.panic s!"invalid paged list position: {l.pos}") else entryAt l l.pos

/-- Exchanging two entries, the position following the entry it is at. -/
def exchangeEntries (i j : Nat) (l : PagedList ρ T) : PagedList ρ T :=
  { l with list := l.list.swap i j, pos := exchange i j l.pos }

def swap (i j : Int) (l : PagedList ρ T) : Except Fault (PagedList ρ T) :=
  if i < 0 ∨ l.list.length ≤ i ∨ j < 0 ∨ l.list.length ≤ j then
    .error (.panic s!"invalid swap indices (i: {i}, j: {j}, len: {l.list.length})")
  else .ok (exchangeEntries i.toNat j.toNat l)

/-- The loop of `shuffle`, from `i` down to 1. -/
def shuffleFrom (rnd : Rand) : Nat → rnd.Source → PagedList ρ T → PagedList ρ T
  | 0, _, l => l
  | i + 1, source, l =>
    let (j,source) := rnd.intn source (i + 2)
    shuffleFrom rnd i source (exchangeEntries (i + 1) j l)

def shuffle (rnd : Rand) (source : rnd.Source) (l : PagedList ρ T) : PagedList ρ T :=
  if l.list.length ≤ 1 then l else shuffleFrom rnd (l.list.length - 1) source l

/-- The draws of `unshuffle`: `Intn(n + 1)` down to `Intn(2)`. -/
def drawExchanges (rnd : Rand) : Nat → rnd.Source → List Nat
  | 0, _ => []
  | n + 1, source =>
    let (j,source) := rnd.intn source (n + 2)
    j :: drawExchanges rnd n source

def unshuffle (rnd : Rand) (source : rnd.Source) (l : PagedList ρ T) : PagedList ρ T :=
  if l.list.length ≤ 1 then l
  else
    let exchanges := drawExchanges rnd (l.list.length - 1) source
    (List.range' 1 (l.list.length - 1)).foldl
      (fun state i => exchangeEntries i (exchanges.getD (l.list.length - i - 1) 0) state) l

def clear (l : PagedList ρ T) : PagedList ρ T := { l with list := [], pos := -1 }

/-! ### Fetching a page -/

theorem pageItems_length (pageIdx : Nat) (items : List T) : (pageItems pageIdx items).length = items.length := by
  simp [pageItems]

theorem item_of_mem_pageItems {pageIdx : Nat} {items : List T} {entry : PagedListItem T}
    (member : entry ∈ pageItems pageIdx items) : entry.item ∈ items := by
  obtain ⟨x,inside,rfl⟩ := List.mem_map.mp member
  exact (List.mem_zipIdx inside).2.2 ▸ List.getElem_mem _

theorem exists_mem_pageItems (pageIdx : Nat) {items : List T} {item : T} (member : item ∈ items) :
    ∃ entry ∈ pageItems pageIdx items, entry.item = item := by
  obtain ⟨j,bound,rfl⟩ := List.getElem_of_mem member
  exact ⟨⟨items[j],pageIdx,j⟩,List.mem_map.mpr ⟨(items[j],j),by simp [List.mem_zipIdx_iff_getElem?],rfl⟩,rfl⟩

theorem nextPageIdx_append (list : List (PagedListItem T)) (k : Nat) {items : List T} (some : items ≠ []) :
    nextPageIdx (list ++ pageItems k items) = k + 1 := by
  obtain ⟨start,last,rfl⟩ := (List.eq_nil_or_concat items).resolve_left some
  have split : pageItems k (start ++ [last]) = pageItems k start ++ [⟨last,k,start.length⟩] := by
    simp [pageItems,List.zipIdx_append]
  rw [List.concat_eq_append,nextPageIdx,split,← List.append_assoc,List.getLast?_concat]

/-- What a fetch makes of the answer of the resolver. -/
def received (l : PagedList ρ T) (pages : ρ) : Except GoError (List T) → (Nat × Option GoError) × PagedList ρ T
  | .error err => ((nextPageIdx l.list,some err),{ l with pages })
  | .ok [] => ((nextPageIdx l.list,some (.text s!"loaded an empty page for {nextPageIdx l.list}")),{ l with pages })
  | .ok items => ((nextPageIdx l.list,none),{ l with pages, list := l.list ++ pageItems (nextPageIdx l.list) items })

theorem fetch_eq {resolver : PageResolver ρ T} {l : PagedList ρ T} {answer : Except GoError (List T)} {pages : ρ}
    (answered : resolver.page (nextPageIdx l.list) l.pages = .ok (answer,pages)) :
    fetchNextPage resolver l = .ok (received l pages answer) := by
  simp only [fetchNextPage,run_bind,run_get,run_zoom,ok_bind,answered,ok_map]
  rcases answer with err | items
  · rfl
  · cases items <;> rfl

theorem fetch_fault {resolver : PageResolver ρ T} {l : PagedList ρ T} {f : Fault}
    (faulted : resolver.page (nextPageIdx l.list) l.pages = .error f) : fetchNextPage resolver l = .error f := by
  simp only [fetchNextPage,run_bind,run_get,run_zoom,ok_bind,faulted,error_map,error_bind]

/-- The page that a fetch asks for answers with tracks, or the list stays as it is. -/
theorem fetch_cases {resolver : PageResolver ρ T} {l l' : PagedList ρ T} {pageIdx : Nat} {err : Option GoError}
    (run : fetchNextPage resolver l = .ok ((pageIdx,err),l')) :
    (∃ items, items ≠ [] ∧ resolver.page (nextPageIdx l.list) l.pages = .ok (.ok items,l'.pages) ∧ err = none ∧
      l' = { l with pages := l'.pages, list := l.list ++ pageItems (nextPageIdx l.list) items }) ∨
    (∃ e, err = some e ∧ l' = { l with pages := l'.pages }) := by
  cases answered : resolver.page (nextPageIdx l.list) l.pages with
  | error f => rw [fetch_fault answered] at run; cases run
  | ok pair =>
    obtain ⟨answer,pages⟩ := pair
    rw [fetch_eq answered] at run
    rcases answer with e | items
    · cases run; exact .inr ⟨e,rfl,rfl⟩
    · cases items with
      | nil => cases run; exact .inr ⟨_,rfl,rfl⟩
      | cons first rest => cases run; exact .inl ⟨_,by simp,rfl,rfl,rfl⟩

/-! ### Moving an iterator -/

theorem next_loaded (resolver : PageResolver ρ T) {l : PagedList ρ T} {iter : PagedListIterator}
    (inside : iter.pos + 1 < l.list.length) : next resolver iter l = .ok ((true,⟨iter.pos + 1,none⟩),l) := by
  have short : ¬ (l.list.length : Int) ≤ iter.pos + 1 := by omega
  simp only [next,run_bind,run_get,ok_bind]
  cases (iter.pos + 2 - l.list.length).toNat with
  | zero => simp [nextRounds,short]
  | succ rounds => simp [nextRounds,short]

/-- At the end of the loaded list, `next` fetches one page. -/
theorem next_at_end (resolver : PageResolver ρ T) {l : PagedList ρ T} {iter : PagedListIterator}
    (last : iter.pos + 1 = l.list.length) :
    next resolver iter l = (fetchNextPage resolver l).map fun x => match x.1.2 with
      | none => ((true,⟨iter.pos + 1,none⟩),x.2)
      | some err => ((false,⟨iter.pos,fetchFailure iter x.1.1 err⟩),x.2) := by
  have once : (iter.pos + 2 - l.list.length).toNat = 1 := by omega
  have reached : (l.list.length : Int) ≤ iter.pos + 1 := by omega
  simp only [next,nextRounds,run_bind,run_get,ok_bind,once,run_ite,reached,if_true]
  cases run : fetchNextPage resolver l with
  | error f => rfl
  | ok pair =>
    obtain ⟨⟨pageIdx,err⟩,l'⟩ := pair
    rcases fetch_cases run with ⟨items,nonempty,-,rfl,grown⟩ | ⟨e,rfl,-⟩
    · have added : 0 < items.length := List.length_pos_iff.mpr nonempty
      have enough : ¬ (l'.list.length : Int) ≤ iter.pos + 1 := by
        rw [grown,List.length_append,pageItems_length]
        omega
      simp [enough]
    · rfl

theorem move_eq {iter : PagedListIterator} (fine : iter.err = none) :
    (move iter : Prog Fault (PagedList ρ T) Unit) = modify fun l => { l with pos := iter.pos } := by
  simp only [move,fine,Option.isSome_none,Bool.false_eq_true,if_false]

/-! ### What fetching keeps -/

/-- A property of the loaded entries that a fetched page keeps. -/
def Kept (resolver : PageResolver ρ T) (P : List (PagedListItem T) → Prop) : Prop :=
  ∀ list pages pages' items, P list → items ≠ [] → resolver.page (nextPageIdx list) pages = .ok (.ok items,pages') →
    P (list ++ pageItems (nextPageIdx list) items)

/-- The resolver faults only as `E` says. -/
def PageFaults (resolver : PageResolver ρ T) (E : Fault → Prop) : Prop :=
  ∀ i pages f, resolver.page i pages = .error f → E f

/-- The resolver once answered the page after the list without tracks. -/
def Exhausted (resolver : PageResolver ρ T) (list : List (PagedListItem T)) : Prop :=
  ∃ pages pages' answer, resolver.page (nextPageIdx list) pages = .ok (answer,pages') ∧
    ∀ items, answer = .ok items → items = []

/-- A loop passes the loaded entries: it visits them all and asks for more. -/
def Passes (visit : σ → T → Except Fault (ForInStep σ)) : Nat → σ → List (PagedListItem T) → Prop
  | 0, _, _ => False
  | _ + 1, _, [] => True
  | rounds + 1, x, entry :: rest =>
    match visit x entry.item with
    | .ok (.yield x) => Passes visit rounds x rest
    | _ => False

instance decidablePasses (visit : σ → T → Except Fault (ForInStep σ)) :
    ∀ rounds x entries, Decidable (Passes visit rounds x entries)
  | 0, _, _ => isFalse id
  | _ + 1, _, [] => isTrue trivial
  | rounds + 1, x, entry :: rest =>
    match visited : visit x entry.item with
    | .ok (.yield x') =>
      have := decidablePasses visit rounds x' rest
      decidable_of_iff (Passes visit rounds x' rest) (by simp [Passes,visited])
    | .ok (.done _) => isFalse (by simp [Passes,visited])
    | .error _ => isFalse (by simp [Passes,visited])

/-- What loading more entries leaves of the list it started from. -/
structure Loaded (P : List (PagedListItem T) → Prop) (l l' : PagedList ρ T) : Prop where
  kept : P l'.list
  pos : l'.pos = l.pos
  start : l.list <+: l'.list

section Keeping
variable {resolver : PageResolver ρ T} {P : List (PagedListItem T) → Prop} {E : Fault → Prop}
  {visit : σ → T → Except Fault (ForInStep σ)}

theorem Loaded.trans {l l' l'' : PagedList ρ T} (first : Loaded P l l') (second : Loaded P l' l'') : Loaded P l l'' :=
  ⟨second.kept,second.pos.trans first.pos,first.start.trans second.start⟩

theorem fetch_meets (kept : Kept resolver P) (faults : PageFaults resolver E) {l : PagedList ρ T} (start : P l.list) :
    Meets (fetchNextPage resolver) l (fun x l' => Loaded P l l' ∧
      (x.2 = none → l.list.length < l'.list.length) ∧ (x.2 ≠ none → l'.list = l.list ∧ Exhausted resolver l'.list)) E := by
  unfold Meets
  cases answered : resolver.page (nextPageIdx l.list) l.pages with
  | error f => rw [fetch_fault answered]; exact faults _ _ _ answered
  | ok pair =>
    obtain ⟨answer,pages⟩ := pair
    rw [fetch_eq answered]
    have same : Loaded P l { l with pages } := ⟨start,rfl,List.prefix_rfl⟩
    rcases answer with err | items
    · exact ⟨same,by simp,fun _ => ⟨rfl,_,_,_,answered,by simp⟩⟩
    · cases items with
      | nil => exact ⟨same,by simp,fun _ => ⟨rfl,_,_,_,answered,by simp⟩⟩
      | cons first rest =>
        refine ⟨⟨kept _ _ _ _ start (by simp) answered,rfl,List.prefix_append ..⟩,fun _ => ?_,by simp⟩
        simp [pageItems_length]

theorem next_meets (faults : PageFaults resolver E) {l : PagedList ρ T} (start : P l.list)
    {iter : PagedListIterator} (inside : iter.pos < l.list.length)
    (kept : l.list.length ≤ iter.pos + 1 → Kept resolver P) :
    Meets (next resolver iter) l (fun x l' => Loaded P l l' ∧ (iter.pos + 1 < l.list.length → l' = l) ∧
      (x.1 = true → x.2 = ⟨iter.pos + 1,none⟩ ∧ iter.pos + 1 < l'.list.length) ∧
      (x.1 = false → x.2.pos = iter.pos ∧ Exhausted resolver l'.list ∧ l.list.length ≤ iter.pos + 1)) E := by
  by_cases loaded : iter.pos + 1 < l.list.length
  · unfold Meets
    rw [next_loaded resolver loaded]
    exact ⟨⟨start,rfl,List.prefix_rfl⟩,fun _ => rfl,fun _ => ⟨rfl,loaded⟩,by simp⟩
  · have last : iter.pos + 1 = l.list.length := by omega
    have fetched := fetch_meets (kept (by omega)) faults start
    unfold Meets at fetched ⊢
    rw [next_at_end resolver last]
    cases run : fetchNextPage resolver l with
    | error f => simpa [run] using fetched
    | ok pair =>
      obtain ⟨⟨pageIdx,err⟩,l'⟩ := pair
      simp only [run] at fetched
      obtain ⟨more,grown,same⟩ := fetched
      cases err with
      | none => exact ⟨more,by omega,fun _ => ⟨rfl,by have := grown rfl; dsimp only; omega⟩,by simp⟩
      | some err => exact ⟨more,by omega,by simp,fun _ => ⟨rfl,(same (by simp)).2,by omega⟩⟩

/-- The loaded entries after a position. -/
def after (pos : Int) (list : List (PagedListItem T)) : List (PagedListItem T) := list.drop (pos + 1).toNat

@[simp] theorem after_start (list : List (PagedListItem T)) : after iterStart.pos list = list := rfl

theorem entryAt_ok {l : PagedList ρ T} {pos : Int} (low : 0 ≤ pos) (high : pos < l.list.length) :
    ∃ entry ∈ l.list, entryAt l pos = .ok entry ∧ l.list[pos.toNat]? = some entry := by
  have inside : pos.toNat < l.list.length := by omega
  refine ⟨l.list[pos.toNat],List.getElem_mem inside,?_,List.getElem?_eq_getElem inside⟩
  rw [entryAt,List.getElem?_eq_getElem inside]

/-- The entry an iterator is at, which comes after the positions before it. -/
theorem iter_get_ok {l : PagedList ρ T} {pos : Int} (low : -1 ≤ pos) (high : pos + 1 < l.list.length)
    (err : Option GoError) : ∃ entry ∈ l.list, PagedListIterator.get ⟨pos + 1,err⟩ l = .ok entry ∧
      after pos l.list = entry :: after (pos + 1) l.list := by
  obtain ⟨entry,member,got,found⟩ := entryAt_ok (show 0 ≤ pos + 1 by omega) high
  refine ⟨entry,member,?_,?_⟩
  · rw [PagedListIterator.get,if_neg (by dsimp only; omega),got]
  · obtain ⟨inside,rfl⟩ := List.getElem?_eq_some_iff.mp found
    rw [after,after,List.drop_eq_getElem_cons inside,show (pos + 1 + 1).toNat = (pos + 1).toNat + 1 by omega]

/-- A loop over an iterator only loads entries, and only when it passes the
    loaded ones; the iterator stays inside. -/
theorem forNext_meets (faults : PageFaults resolver E)
    (visits : ∀ list, P list → ∀ entry ∈ list, ∀ x f, visit x entry.item = .error f → E f)
    (rounds : Nat) (x : σ) {l : PagedList ρ T} (start : P l.list) (iter : PagedListIterator) (low : -1 ≤ iter.pos)
    (inside : iter.pos < l.list.length) (kept : Passes visit rounds x (after iter.pos l.list) → Kept resolver P) :
    Meets (forNext resolver visit rounds x iter) l (fun y l' => Loaded P l l' ∧
      (y.1 = .left → 0 ≤ y.2.2.pos ∧ y.2.2.pos < l'.list.length ∧ y.2.2.err = none) ∧
      (y.1 = .ended → Exhausted resolver l'.list ∧ Passes visit rounds x (after iter.pos l.list))) E := by
  induction rounds generalizing x l iter with
  | zero => exact ⟨⟨start,rfl,List.prefix_rfl⟩,by simp,by simp⟩
  | succ rounds ih =>
    have passed : l.list.length ≤ iter.pos + 1 → Passes visit (rounds + 1) x (after iter.pos l.list) := by
      intro last
      rw [after,List.drop_eq_nil_of_le (by omega)]
      trivial
    have keptEnd : l.list.length ≤ iter.pos + 1 → Kept resolver P := fun last => kept (passed last)
    rw [forNext,meets_bind]
    refine meets_mono (next_meets faults start inside keptEnd) ?_ fun _ => id
    rintro ⟨more,iter'⟩ l' ⟨loaded,same,went,stopped⟩
    cases more with
    | false =>
      refine ⟨loaded,by simp,fun _ => ⟨(stopped rfl).2.1,passed (stopped rfl).2.2⟩⟩
    | true =>
      obtain ⟨rfl,high⟩ := went rfl
      obtain ⟨entry,member,got,split⟩ := iter_get_ok low high none
      simp only [if_true,meets_bind,meets_get,got,meets_check_ok]
      rw [meets_check]
      refine ⟨?_,fun f wrong => visits _ loaded.kept _ member _ _ wrong⟩
      rintro (x' | x') visited
      · exact ⟨loaded,fun _ => ⟨by dsimp only; omega,high,rfl⟩,by simp⟩
      · have onward : Passes visit rounds x' (after (iter.pos + 1) l'.list) →
            Passes visit (rounds + 1) x (after iter.pos l.list) := by
          intro passes
          by_cases last : l.list.length ≤ iter.pos + 1
          · exact passed last
          · rw [same (by omega)] at split passes
            rw [split]
            simpa only [Passes,visited] using passes
        refine meets_mono (ih x' loaded.kept _ (by dsimp only; omega) high (kept ∘ onward)) ?_ fun _ => id
        rintro y l'' ⟨later,left,ended⟩
        exact ⟨loaded.trans later,left,fun stop => ⟨(ended stop).1,onward (ended stop).2⟩⟩

theorem moveStart_meets (faults : PageFaults resolver E) {l : PagedList ρ T} (start : P l.list)
    (inside : l.pos < l.list.length) (kept : l.list = [] → Kept resolver P) :
    Meets (moveStart resolver) l (fun err l' => P l'.list ∧ l'.pos < l'.list.length ∧
      (err = none → l'.pos = 0) ∧ (err ≠ none → Loaded P l l')) E := by
  unfold moveStart
  by_cases empty : l.list = []
  · simp only [meets_bind,meets_get,empty,List.length_nil,if_true]
    refine meets_mono (fetch_meets (kept empty) faults start) ?_ fun _ => id
    rintro ⟨pageIdx,err⟩ l' ⟨loaded,grown,same⟩
    cases err with
    | none =>
      have longer := grown rfl
      exact ⟨loaded.kept,by dsimp only; omega,fun _ => rfl,by simp⟩
    | some err =>
      have unmoved : l'.pos < l'.list.length := by rw [loaded.pos,(same (by simp)).1]; exact inside
      by_cases eof : err.is .eof
      · simp only [eof,if_true]
        exact ⟨loaded.kept,unmoved,by simp,fun _ => loaded⟩
      · simp only [eof]
        exact ⟨loaded.kept,unmoved,by simp,fun _ => loaded⟩
  · have nonempty : l.list.length ≠ 0 := fun zero => empty (List.length_eq_zero_iff.mp zero)
    simp only [meets_bind,meets_get,nonempty,if_false]
    exact ⟨start,by dsimp only; omega,fun _ => rfl,by simp⟩

end Keeping

/-! ### Shuffling -/

/-- The exchanges that `shuffle` makes, in order. -/
def shuffleSwaps (rnd : Rand) : Nat → rnd.Source → List (Nat × Nat)
  | 0, _ => []
  | i + 1, source => (i + 1,(rnd.intn source (i + 2)).1) :: shuffleSwaps rnd i (rnd.intn source (i + 2)).2

/-- The list after exchanges, its position following the entry it is at. -/
def exchanged (swaps : List (Nat × Nat)) (l : PagedList ρ T) : PagedList ρ T :=
  { l with list := applySwaps swaps l.list, pos := trackSwaps swaps l.pos }

theorem exchanged_append (before after : List (Nat × Nat)) (l : PagedList ρ T) :
    exchanged (before ++ after) l = exchanged after (exchanged before l) := by
  simp only [exchanged,applySwaps_append,trackSwaps_append]

theorem within_shuffleSwaps (rnd : Rand) (n : Nat) (source : rnd.Source) : Within (n + 1) (shuffleSwaps rnd n source) := by
  induction n generalizing source with
  | zero => simp [Within,shuffleSwaps]
  | succ n ih =>
    intro p member
    rcases List.mem_cons.mp member with rfl | later
    · exact ⟨by omega,rnd.intn_lt source (n + 2) (by omega)⟩
    · have inside := ih _ p later
      omega

theorem shuffleFrom_eq (rnd : Rand) (n : Nat) (source : rnd.Source) (l : PagedList ρ T) :
    shuffleFrom rnd n source l = exchanged (shuffleSwaps rnd n source) l := by
  induction n generalizing source l with
  | zero => rfl
  | succ n ih => exact ih _ _

theorem shuffle_eq (rnd : Rand) (source : rnd.Source) (l : PagedList ρ T) :
    shuffle rnd source l = exchanged (shuffleSwaps rnd (l.list.length - 1) source) l := by
  unfold shuffle
  split_ifs with short
  · rw [Nat.sub_eq_zero_of_le short]; rfl
  · exact shuffleFrom_eq ..

/-- The draws of `unshuffle`, read from the last, are the exchanges of `shuffle`
    backwards. -/
theorem unshuffleSwaps_eq (rnd : Rand) (n : Nat) (source : rnd.Source) :
    (List.range' 1 n).map (fun i => (i,(drawExchanges rnd n source).getD (n - i) 0)) =
      (shuffleSwaps rnd n source).reverse := by
  induction n generalizing source with
  | zero => rfl
  | succ n ih =>
    rw [shuffleSwaps,List.reverse_cons,← ih,List.range'_1_concat,List.map_append]
    congr 1
    · refine List.map_congr_left ?_
      intro i member
      have bound := List.mem_range'_1.mp member
      rw [drawExchanges,show n + 1 - i = n - i + 1 by omega,List.getD_cons_succ]
    · simp [drawExchanges,Nat.add_comm]

theorem unshuffle_eq (rnd : Rand) (source : rnd.Source) (l : PagedList ρ T) :
    unshuffle rnd source l = exchanged (shuffleSwaps rnd (l.list.length - 1) source).reverse l := by
  unfold unshuffle
  split_ifs with short
  · rw [Nat.sub_eq_zero_of_le short]; rfl
  · rw [← unshuffleSwaps_eq]
    have folded : ∀ (indices : List Nat) (j : Nat → Nat) (state : PagedList ρ T),
        indices.foldl (fun state i => exchangeEntries i (j i) state) state =
          exchanged (indices.map fun i => (i,j i)) state := by
      intro indices j state
      induction indices generalizing state with
      | nil => rfl
      | cons i rest ih => exact ih _
    have indices : ∀ i, l.list.length - i - 1 = l.list.length - 1 - i := fun i => by omega
    simp only [folded,indices]

end Librespot.Paging
