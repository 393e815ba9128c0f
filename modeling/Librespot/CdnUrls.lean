import Librespot.Errors

/-!
The URLs that an audio file is fetched from (`httpChunkedReaderFromStorageResolve` in
`player/player.go`). They are tried in order; a host that failed is in quarantine for a while,
and only the last URL is tried all the same. Parsing a URL, the clock and what becomes of an
attempt are parameters.
-/
namespace Librespot.CdnUrls
open Librespot.Errors

/-- A parsed URL: its host, and its text for the request. -/
structure Url where
  host : String
  text : String
deriving DecidableEq

/-- What happens when the loop is at an entry: the time when the quarantine is looked up, how an
    attempt ends, and the time when a failure is noted. -/
structure Round (R : Type) where
  now : ℤ
  attempt : Except GoError R
  failedAt : ℤ

/-- `cdnQuarantine`: when a host failed. -/
abbrev Quarantine : Type := String → Option ℤ

/-- `CdnUrlQuarantineDuration`, fifteen minutes in nanoseconds. -/
def CdnUrlQuarantineDuration : ℤ := 15 * 60 * 1000000000

/-- An attempt for an entry. -/
structure Attempt where
  index : ℕ
  url : Url
deriving DecidableEq

/-- What is returned, the attempts that were made, and the quarantine that is left. -/
structure Resolved (R : Type) where
  result : Except GoError R
  attempts : List Attempt
  cdnQuarantine : Quarantine

/-- `StorageResolveResponse`. -/
inductive StorageResolve where
  | cdn (cdnurl : List String)
  | storage
  | restricted
  | other (name : String)

variable {R : Type}

/-- The host failed less than the duration of a quarantine ago. -/
def Active (cdnQuarantine : Quarantine) (host : String) (now : ℤ) : Prop :=
  ∃ lastFailed, cdnQuarantine host = some lastFailed ∧ now - lastFailed < CdnUrlQuarantineDuration

instance (cdnQuarantine : Quarantine) (host : String) (now : ℤ) : Decidable (Active cdnQuarantine host now) :=
  match found : cdnQuarantine host with
  | none => isFalse (by rintro ⟨_,held,_⟩; rw [found] at held; cases held)
  | some lastFailed =>
    if recent : now - lastFailed < CdnUrlQuarantineDuration then isTrue ⟨lastFailed,found,recent⟩
    else isFalse (by rintro ⟨_,held,recent'⟩; rw [found] at held; cases held; exact recent recent')

/-- The loop over the entries from an index on, with the last error. -/
def tryUrls (parse : String → Except GoError Url) (rounds : ℕ → Round R) :
    List String → ℕ → Option GoError → Quarantine → Resolved R
  | [], _, err, cdnQuarantine =>
    ⟨.error (match err with
      | none => .text "failed creating chunked reader for any cdn url: %!w(<nil>)"
      | some err => .wrap "failed creating chunked reader for any cdn url: " err),[],cdnQuarantine⟩
  | cdnurl :: rest, i, _, cdnQuarantine =>
    match parse cdnurl with
    | .error err => tryUrls parse rounds rest (i + 1) (some err) cdnQuarantine
    | .ok cdnUrl =>
      -- The last entry is not skipped.
      if rest ≠ [] ∧ Active cdnQuarantine cdnUrl.host (rounds i).now then tryUrls parse rounds rest (i + 1) none cdnQuarantine
      else match (rounds i).attempt with
        | .error err =>
          let next := tryUrls parse rounds rest (i + 1) (some err)
            (Function.update cdnQuarantine cdnUrl.host (some (rounds i).failedAt))
          { next with attempts := ⟨i,cdnUrl⟩ :: next.attempts }
        | .ok rawStream => ⟨.ok rawStream,[⟨i,cdnUrl⟩],Function.update cdnQuarantine cdnUrl.host none⟩

def httpChunkedReaderFromStorageResolve (parse : String → Except GoError Url) (rounds : ℕ → Round R) (cdnQuarantine : Quarantine)
    (storageResolve : StorageResolve) : Resolved R :=
  match storageResolve with
  | .storage => ⟨.error (.text "old storage not supported"),[],cdnQuarantine⟩
  | .restricted => ⟨.error (.text "storage is restricted"),[],cdnQuarantine⟩
  | .cdn cdnurl =>
    if cdnurl.length = 0 then ⟨.error (.text "no cdn urls"),[],cdnQuarantine⟩
    else tryUrls parse rounds cdnurl 0 none cdnQuarantine
  | .other name => ⟨.error (.text s!"unknown storage resolve result: {name}"),[],cdnQuarantine⟩

/-! ### What the attempts must be -/

/-- The attempt failed. -/
def Failed (rounds : ℕ → Round R) (attempt : Attempt) : Prop := ∃ err, (rounds attempt.index).attempt = .error err

/-- What an attempt leaves in the quarantine: when it failed, or nothing if it did not. -/
def mark (rounds : ℕ → Round R) (attempt : Attempt) : Option ℤ :=
  match (rounds attempt.index).attempt with
  | .error _ => some (rounds attempt.index).failedAt
  | .ok _ => none

/-- The quarantine after some attempts. -/
def quarantineAfter (rounds : ℕ → Round R) (cdnQuarantine : Quarantine) (attempts : List Attempt) : Quarantine :=
  attempts.foldl (fun cdnQuarantine attempt => Function.update cdnQuarantine attempt.url.host (mark rounds attempt)) cdnQuarantine

/-- The attempts before an index. -/
def earlier (attempts : List Attempt) (i : ℕ) : List Attempt := attempts.filter fun attempt => attempt.index < i

/-- In order, the well-formed entries whose host is not under quarantine when they are reached are
    tried until an attempt succeeds, and what is returned and the quarantine follow from the attempts. -/
structure Tries (parse : String → Except GoError Url) (rounds : ℕ → Round R) (cdnurl : List String) (start : ℕ) (cdnQuarantine : Quarantine)
    (resolved : Resolved R) : Prop where
  ordered : (resolved.attempts.map Attempt.index).Pairwise (· < ·)
  wellFormed : ∀ attempt ∈ resolved.attempts, start ≤ attempt.index ∧
    ∃ text, cdnurl[attempt.index - start]? = some text ∧ parse text = .ok attempt.url
  reached : ∀ i text url, cdnurl[i]? = some text → parse text = .ok url →
    (∀ attempt ∈ earlier resolved.attempts (start + i), Failed rounds attempt) →
    ¬ Active (quarantineAfter rounds cdnQuarantine (earlier resolved.attempts (start + i))) url.host (rounds (start + i)).now →
    ⟨start + i,url⟩ ∈ resolved.attempts
  stops : ∀ attempt ∈ resolved.attempts.dropLast, Failed rounds attempt
  fails : (∃ err, resolved.result = .error err) ↔ ∀ attempt ∈ resolved.attempts, Failed rounds attempt
  returns : ∀ rawStream, resolved.result = .ok rawStream →
    ∃ attempt ∈ resolved.attempts.getLast?, (rounds attempt.index).attempt = .ok rawStream
  quarantine : resolved.cdnQuarantine = quarantineAfter rounds cdnQuarantine resolved.attempts

/-- The last attempt for a host. -/
def lastAttempt (attempts : List Attempt) (host : String) : Option Attempt :=
  (attempts.filter fun attempt => attempt.url.host = host).getLast?

variable {parse : String → Except GoError Url} {rounds : ℕ → Round R} {cdnurl rest : List String} {start : ℕ} {cdnQuarantine : Quarantine}

theorem mark_iff (attempt : Attempt) : mark rounds attempt ≠ none ↔ Failed rounds attempt := by
  unfold mark Failed
  cases (rounds attempt.index).attempt <;> simp

theorem quarantineAfter_concat (attempts : List Attempt) (newest : Attempt) :
    quarantineAfter rounds cdnQuarantine (attempts ++ [newest]) =
      Function.update (quarantineAfter rounds cdnQuarantine attempts) newest.url.host (mark rounds newest) := by
  simp only [quarantineAfter,List.foldl_append,List.foldl_cons,List.foldl_nil]

/-- A host is in quarantine as its last attempt ended. -/
theorem quarantineAfter_last {attempts : List Attempt} {host : String} {attempt : Attempt} (last : lastAttempt attempts host = some attempt) :
    quarantineAfter rounds cdnQuarantine attempts host ≠ none ↔ Failed rounds attempt := by
  induction attempts using List.reverseRecOn with
  | nil => cases last
  | append_singleton attempts newest ih =>
    rw [quarantineAfter_concat]
    rw [lastAttempt,List.filter_append] at last
    by_cases here : newest.url.host = host
    · simp only [List.filter_cons,here,decide_true,if_true,List.filter_nil,List.getLast?_append,List.getLast?_singleton,
        Option.some_or,Option.some.injEq] at last
      subst last
      rw [here,Function.update_self]
      exact mark_iff newest
    · simp only [List.filter_cons,here,decide_false,Bool.false_eq_true,if_false,List.filter_nil,List.append_nil] at last
      rw [Function.update_of_ne (Ne.symm here)]
      exact ih last

/-- The quarantine of a host without an attempt stays as it is. -/
theorem quarantineAfter_other {attempts : List Attempt} {host : String} (other : ∀ attempt ∈ attempts, attempt.url.host ≠ host) :
    quarantineAfter rounds cdnQuarantine attempts host = cdnQuarantine host := by
  induction attempts using List.reverseRecOn with
  | nil => rfl
  | append_singleton attempts newest ih =>
    rw [quarantineAfter_concat,Function.update_of_ne (other newest (by simp)).symm]
    exact ih fun attempt member => other attempt (by simp [member])

/-! ### The loop -/

/-- Nothing is earlier than attempts from an index on. -/
theorem earlier_none {attempts : List Attempt} {i : ℕ} (later : ∀ attempt ∈ attempts, i ≤ attempt.index) : earlier attempts i = [] := by
  rw [earlier,List.filter_eq_nil_iff]
  intro attempt member
  have := later attempt member
  simp only [decide_eq_true_eq]
  omega

theorem tries_nil (err : GoError) : Tries parse rounds [] start cdnQuarantine ⟨.error err,[],cdnQuarantine⟩ := by
  refine ⟨List.Pairwise.nil,nofun,nofun,nofun,?_,nofun,rfl⟩
  exact ⟨fun _ => nofun,fun _ => ⟨err,rfl⟩⟩

/-- The entry after the first one at a place of the others. -/
theorem getElem?_later {first : String} {i : ℕ} (later : start + 1 ≤ i) : (first :: rest)[i - start]? = rest[i - (start + 1)]? := by
  have next : i - start = i - (start + 1) + 1 := by omega
  rw [next,List.getElem?_cons_succ]

/-- The first entry is malformed, or its host is under quarantine. -/
theorem tries_skip {first : String} {resolved : Resolved R}
    (skipped : ∀ url, parse first = .ok url → Active cdnQuarantine url.host (rounds start).now)
    (tries : Tries parse rounds rest (start + 1) cdnQuarantine resolved) : Tries parse rounds (first :: rest) start cdnQuarantine resolved := by
  obtain ⟨ordered,wellFormed,reached,stops,fails,returns,quarantine⟩ := tries
  refine ⟨ordered,?_,?_,stops,fails,returns,quarantine⟩
  · intro attempt member
    obtain ⟨later,there⟩ := wellFormed attempt member
    rw [getElem?_later later]
    exact ⟨by omega,there⟩
  · intro i text url there parsed failed free
    cases i with
    | zero =>
      have none : earlier resolved.attempts (start + 0) = [] := earlier_none fun attempt member => by have := (wellFormed attempt member).1; omega
      rw [none] at free
      cases there
      exact absurd (skipped url parsed) free
    | succ i =>
      have place : start + 1 + i = start + (i + 1) := by omega
      rw [← place] at failed free ⊢
      exact reached i text url there parsed failed free

/-- The attempt for the first entry failed. -/
theorem tries_fail {first : String} {url : Url} {err : GoError} {resolved : Resolved R} (parsed : parse first = .ok url)
    (failed : (rounds start).attempt = .error err)
    (tries : Tries parse rounds rest (start + 1) (Function.update cdnQuarantine url.host (some (rounds start).failedAt)) resolved) :
    Tries parse rounds (first :: rest) start cdnQuarantine { resolved with attempts := ⟨start,url⟩ :: resolved.attempts } := by
  obtain ⟨ordered,wellFormed,reached,stops,fails,returns,quarantine⟩ := tries
  have failed' : Failed rounds ⟨start,url⟩ := ⟨err,failed⟩
  have marked : mark rounds ⟨start,url⟩ = some (rounds start).failedAt := by rw [mark,failed]
  have after : ∀ attempts, quarantineAfter rounds cdnQuarantine (⟨start,url⟩ :: attempts) =
      quarantineAfter rounds (Function.update cdnQuarantine url.host (some (rounds start).failedAt)) attempts := by
    intro attempts
    rw [quarantineAfter,List.foldl_cons,marked]
    rfl
  refine ⟨?_,?_,?_,?_,?_,?_,?_⟩
  · rw [List.map_cons,List.pairwise_cons]
    refine ⟨?_,ordered⟩
    intro index member
    obtain ⟨attempt,listed,rfl⟩ := List.mem_map.mp member
    exact (wellFormed attempt listed).1
  · intro attempt member
    rcases List.mem_cons.mp member with rfl | member
    · exact ⟨le_rfl,first,by rw [Nat.sub_self]; rfl,parsed⟩
    · obtain ⟨later,there⟩ := wellFormed attempt member
      rw [getElem?_later later]
      exact ⟨by omega,there⟩
  · intro i text other there parsed' failed free
    cases i with
    | zero =>
      cases there
      rw [parsed] at parsed'
      cases parsed'
      exact List.mem_cons_self
    | succ i =>
      have place : start + (i + 1) = start + 1 + i := by omega
      have split : earlier (⟨start,url⟩ :: resolved.attempts) (start + (i + 1)) = ⟨start,url⟩ :: earlier resolved.attempts (start + 1 + i) := by
        rw [place,earlier,List.filter_cons_of_pos (by simp; omega),earlier]
      dsimp only at failed free
      rw [split] at failed free
      rw [after,place] at free
      rw [place]
      refine List.mem_cons_of_mem _ (reached i text other there parsed' ?_ free)
      exact fun attempt member => failed attempt (List.mem_cons_of_mem _ member)
  · intro attempt member
    cases attempts : resolved.attempts with
    | nil =>
      rw [attempts] at member
      cases member
    | cons next more =>
      rw [attempts] at member
      rcases List.mem_cons.mp member with rfl | member
      · exact failed'
      · exact stops attempt (by rw [attempts]; exact member)
  · rw [fails]
    simp only [List.mem_cons,forall_eq_or_imp]
    exact ⟨fun all => ⟨failed',all⟩,fun all => all.2⟩
  · intro rawStream returned
    obtain ⟨attempt,last,succeeded⟩ := returns rawStream returned
    refine ⟨attempt,?_,succeeded⟩
    rw [List.getLast?_cons,Option.mem_def.mp last]
    rfl
  · rw [after]
    exact quarantine

/-- The attempt for the first entry succeeded. -/
theorem tries_succeed {first : String} {url : Url} {rawStream : R} (parsed : parse first = .ok url)
    (succeeded : (rounds start).attempt = .ok rawStream) :
    Tries parse rounds (first :: rest) start cdnQuarantine ⟨.ok rawStream,[⟨start,url⟩],Function.update cdnQuarantine url.host none⟩ := by
  have success : ¬ Failed rounds ⟨start,url⟩ := by
    rintro ⟨err,failed⟩
    rw [succeeded] at failed
    cases failed
  have marked : mark rounds ⟨start,url⟩ = none := by rw [mark,succeeded]
  refine ⟨List.pairwise_singleton _ _,?_,?_,nofun,?_,?_,?_⟩
  · intro attempt member
    rw [List.mem_singleton.mp member]
    exact ⟨le_rfl,first,by rw [Nat.sub_self]; rfl,parsed⟩
  · intro i text other there parsed' failed _
    cases i with
    | zero =>
      cases there
      rw [parsed] at parsed'
      cases parsed'
      exact List.mem_cons_self
    | succ i =>
      -- Nothing is reached after a success.
      refine absurd (failed ⟨start,url⟩ ?_) success
      simp [earlier]
  · constructor
    · rintro ⟨err,returned⟩
      cases returned
    · exact fun all => absurd (all _ List.mem_cons_self) success
  · intro rawStream' returned
    cases returned
    exact ⟨_,rfl,succeeded⟩
  · rw [quarantineAfter,List.foldl_cons,marked]
    rfl

theorem tryUrls_tries (cdnurl : List String) (start : ℕ) (err : Option GoError) (cdnQuarantine : Quarantine) :
    Tries parse rounds cdnurl start cdnQuarantine (tryUrls parse rounds cdnurl start err cdnQuarantine) := by
  induction cdnurl generalizing start err cdnQuarantine with
  | nil => exact tries_nil _
  | cons first rest ih =>
    rw [tryUrls]
    split
    · next malformed =>
      refine tries_skip ?_ (ih _ _ _)
      intro url parsed
      rw [malformed] at parsed
      cases parsed
    · next url parsed =>
      split_ifs with skipped
      · refine tries_skip ?_ (ih _ _ _)
        intro url' parsed'
        rw [parsed] at parsed'
        cases parsed'
        exact skipped.2
      · split
        · next failed => exact tries_fail parsed failed (ih _ _ _)
        · next succeeded => exact tries_succeed parsed succeeded

/-! ### At least one attempt -/

/-- The last entry is well-formed, or some entry is, with a host that is not under quarantine. -/
def Triable (parse : String → Except GoError Url) (rounds : ℕ → Round R) (cdnurl : List String) (start : ℕ) (cdnQuarantine : Quarantine) : Prop :=
  (∃ text ∈ cdnurl.getLast?, ∃ url, parse text = .ok url) ∨
    ∃ (i : ℕ) (text : String) (url : Url), cdnurl[i]? = some text ∧ parse text = .ok url ∧
      ¬ Active cdnQuarantine url.host (rounds (start + i)).now

theorem triable_cons {first : String} : Triable parse rounds (first :: rest) start cdnQuarantine ↔
    (∃ url, parse first = .ok url ∧ (rest = [] ∨ ¬ Active cdnQuarantine url.host (rounds start).now)) ∨
      Triable parse rounds rest (start + 1) cdnQuarantine := by
  have place : ∀ i, start + (i + 1) = start + 1 + i := by intro i; omega
  constructor
  · rintro (⟨text,last,url,parsed⟩ | ⟨i,text,url,there,parsed,free⟩)
    · cases rest with
      | nil =>
        cases last
        exact .inl ⟨url,parsed,.inl rfl⟩
      | cons second more => exact .inr (.inl ⟨text,last,url,parsed⟩)
    · cases i with
      | zero =>
        cases there
        exact .inl ⟨url,parsed,.inr free⟩
      | succ i =>
        rw [place] at free
        exact .inr (.inr ⟨i,text,url,there,parsed,free⟩)
  · rintro (⟨url,parsed,rfl | free⟩ | ⟨text,last,url,parsed⟩ | ⟨i,text,url,there,parsed,free⟩)
    · exact .inl ⟨first,rfl,url,parsed⟩
    · exact .inr ⟨0,first,url,rfl,parsed,free⟩
    · refine .inl ⟨text,?_,url,parsed⟩
      rw [List.getLast?_cons,Option.mem_def.mp last]
      rfl
    · refine .inr ⟨i + 1,text,url,there,parsed,?_⟩
      rw [place]
      exact free

theorem tryUrls_attempts (cdnurl : List String) (start : ℕ) (err : Option GoError) (cdnQuarantine : Quarantine) :
    (tryUrls parse rounds cdnurl start err cdnQuarantine).attempts ≠ [] ↔ Triable parse rounds cdnurl start cdnQuarantine := by
  induction cdnurl generalizing start err cdnQuarantine with
  | nil => simp [tryUrls,Triable]
  | cons first rest ih =>
    rw [tryUrls,triable_cons]
    split
    · next malformed =>
      rw [ih]
      simp [malformed]
    · next url parsed =>
      split_ifs with skipped
      · rw [ih]
        simp [parsed,skipped]
      · have first' : ∃ url, parse first = .ok url ∧ (rest = [] ∨ ¬ Active cdnQuarantine url.host (rounds start).now) :=
          ⟨url,parsed,by tauto⟩
        split
        · exact ⟨fun _ => .inl first',fun _ => nofun⟩
        · exact ⟨fun _ => .inl first',fun _ => nofun⟩

/-- At least one URL is tried, the attempts are the right ones, and the quarantine of each host
    that was tried is that of its last attempt. -/
structure Resolves (parse : String → Except GoError Url) (rounds : ℕ → Round R) (cdnQuarantine : Quarantine) (cdnurl : List String) : Prop where
  attempted : (httpChunkedReaderFromStorageResolve parse rounds cdnQuarantine (.cdn cdnurl)).attempts ≠ []
  tries : Tries parse rounds cdnurl 0 cdnQuarantine (httpChunkedReaderFromStorageResolve parse rounds cdnQuarantine (.cdn cdnurl))
  hosts : ∀ host attempt,
    lastAttempt (httpChunkedReaderFromStorageResolve parse rounds cdnQuarantine (.cdn cdnurl)).attempts host = some attempt →
    ((httpChunkedReaderFromStorageResolve parse rounds cdnQuarantine (.cdn cdnurl)).cdnQuarantine host ≠ none ↔ Failed rounds attempt)

/-- The URLs are tried as they should be exactly when the last one is well-formed or a host of another is not under quarantine. -/
theorem resolves_iff (parse : String → Except GoError Url) (rounds : ℕ → Round R) (cdnQuarantine : Quarantine) (cdnurl : List String) :
    Resolves parse rounds cdnQuarantine cdnurl ↔ Triable parse rounds cdnurl 0 cdnQuarantine := by
  by_cases empty : cdnurl = []
  · subst empty
    constructor
    · exact fun resolves => absurd rfl resolves.attempted
    · rintro (⟨_,last,_⟩ | ⟨_,_,_,there,_⟩)
      · cases last
      · cases there
  · have loop : httpChunkedReaderFromStorageResolve parse rounds cdnQuarantine (.cdn cdnurl) = tryUrls parse rounds cdnurl 0 none cdnQuarantine := by
      rw [httpChunkedReaderFromStorageResolve,if_neg (by rw [List.length_eq_zero_iff]; exact empty)]
    have tries := @tryUrls_tries R parse rounds cdnurl 0 none cdnQuarantine
    rw [← tryUrls_attempts cdnurl 0 none cdnQuarantine]
    constructor
    · rintro ⟨attempted,_,_⟩
      rw [loop] at attempted
      exact attempted
    · intro attempted
      refine ⟨by rw [loop]; exact attempted,by rw [loop]; exact tries,?_⟩
      intro host attempt last
      rw [loop] at last ⊢
      rw [tries.quarantine]
      exact quarantineAfter_last last

/-- A URL of a host, and one that is no URL. -/
def parseTwo (text : String) : Except GoError Url :=
  if text = "https://a.example/file" then .ok ⟨"a.example",text⟩ else .error (.text "parse \"%zz\": invalid URL escape \"%zz\"")

/-- The host failed a minute ago and would be back; nothing is tried, as the last entry is malformed. -/
theorem malformed_last :
    (httpChunkedReaderFromStorageResolve parseTwo (fun _ => ⟨60000000000,.ok (),0⟩) (fun _ => some 0)
      (.cdn ["https://a.example/file","%zz"])).attempts = [] ∧
    ¬ Resolves parseTwo (fun _ => (⟨60000000000,.ok (),0⟩ : Round Unit)) (fun _ => some 0) ["https://a.example/file","%zz"] := by
  have none : (httpChunkedReaderFromStorageResolve parseTwo (fun _ => (⟨60000000000,.ok (),0⟩ : Round Unit)) (fun _ => some 0)
      (.cdn ["https://a.example/file","%zz"])).attempts = [] := by decide +kernel
  exact ⟨none,fun resolves => resolves.attempted none⟩

end Librespot.CdnUrls
