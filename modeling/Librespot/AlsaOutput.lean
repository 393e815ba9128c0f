import Librespot.Channels
import Librespot.Errors
import Librespot.Runs

/-!
The ALSA output (`output/driver-alsa.go`): its methods and the loops that it starts, each of which
does a section under the lock at a time. What the library returns is an input: its results, the
address of a handle that it opens and the samples of the reader. A handle is freed by
`snd_pcm_close` also where that returns an error, and an address is given to one open handle at a time.
-/
namespace Librespot.AlsaOutput
open Librespot.Errors Librespot.Runs Librespot.Channels
set_option linter.unusedSectionVars false

/-! ### Handles -/

/-- The address that a handle is known by. -/
abbrev Handle := ℕ

/-- A call of the library: `snd_pcm_open`, `snd_pcm_close`, or another one with the handle. -/
inductive Call where
  | open (handle : Handle)
  | use (handle : Handle)
  | close (handle : Handle)
deriving DecidableEq, Repr

/-- The handle is open after the calls, the last of which stands first. -/
def isOpen : List Call → Handle → Bool
  | [], _ => false
  | .open opened :: earlier, handle => opened = handle || isOpen earlier handle
  | .close closed :: earlier, handle => closed ≠ handle && isOpen earlier handle
  | .use _ :: earlier, handle => isOpen earlier handle

variable {F : Type} [Mul F]

/-- `alsaOutput`; `calls`, `read` and `taken` remember the calls of the library, the samples that were read, with the volume
    applied, and those that the device took. -/
structure Output (F : Type) where
  channels : ℕ
  sampleRate : ℤ
  pcmHandle : Option Handle
  externalVolume : Bool
  mixerEnabled : Bool
  volume : F
  closed : Bool
  err : Chan GoError
  calls : List Call
  read : List F
  taken : List F

/-- `newAlsaOutput`, where the mixer could be set up or not. -/
def newAlsaOutput (channels : ℕ) (sampleRate : ℤ) (externalVolume mixerEnabled : Bool) (initialVolume : F) : Output F where
  channels := channels
  sampleRate := sampleRate
  pcmHandle := none
  externalVolume := externalVolume
  mixerEnabled := mixerEnabled
  volume := initialVolume
  closed := false
  err := .make 2
  calls := []
  read := []
  taken := []

def Output.call (call : Call) (out : Output F) : Output F := { out with calls := call :: out.calls }

/-- `alsaError`, with the text of `snd_strerror`. -/
def alsaError (strerror : ℤ → String) (name : String) (code : ℤ) : GoError := .text s!"ALSA error at {name}: {strerror code}"

/-- The calls of `setupPcm` after `snd_pcm_open`, in order. -/
def setupCalls : List String :=
  ["snd_pcm_hw_params_any","snd_pcm_hw_params_set_access","snd_pcm_hw_params_set_format","snd_pcm_hw_params_set_channels",
    "snd_pcm_hw_params_set_rate_resample","snd_pcm_hw_params_set_rate_near","snd_pcm_hw_params_set_buffer_time_near",
    "snd_pcm_hw_params_get_buffer_size","snd_pcm_hw_params_set_period_size_near","snd_pcm_hw_params",
    "snd_pcm_hw_params_get_period_size","snd_pcm_hw_params_get_buffer_size","snd_pcm_sw_params_current",
    "snd_pcm_sw_params_set_start_threshold","snd_pcm_sw_params_set_avail_min","snd_pcm_sw_params"]

/-- What the library returns to `setupPcm`: the result of `snd_pcm_open` with the address, and that of each call after it. -/
structure Opening where
  code : ℤ
  handle : Handle
  results : ℕ → ℤ

/-- The first call of `setupPcm` that fails, with its result. -/
def Opening.failure (opening : Opening) : Option (String × ℤ) :=
  (setupCalls.zipIdx.find? fun (_,i) => opening.results i < 0).map fun (name,i) => (name,opening.results i)

/-- The handle is opened, and set up or not. -/
def Output.opened (handle : Handle) (out : Output F) : Output F :=
  ({ out with pcmHandle := some handle }.call (.open handle)).call (.use handle)

/-- `setupPcm`, with the handle of the loop that it starts. -/
def setupPcm (strerror : ℤ → String) (opening : Opening) (out : Output F) : Option GoError × Option Handle × Output F :=
  if opening.code < 0 then (some (alsaError strerror "snd_pcm_open" opening.code),none,out)
  else
    let out := out.opened opening.handle
    match opening.failure with
    | some (name,code) => (some (alsaError strerror name code),none,out)
    | none => (none,some opening.handle,out)

def pause (strerror : ℤ → String) (code : ℤ) (out : Output F) : Option GoError × Output F :=
  if out.closed then (none,out)
  else match out.pcmHandle with
    | none => (none,out)
    | some handle =>
      let out := out.call (.close handle)
      if code < 0 then (some (alsaError strerror "snd_pcm_close" code),out) else (none,{ out with pcmHandle := none })

def resume (strerror : ℤ → String) (opening : Opening) (out : Output F) : Option GoError × Option Handle × Output F :=
  if out.closed ∨ out.pcmHandle ≠ none then (none,none,out) else setupPcm strerror opening out

/-- `Drop`, with the results of `snd_pcm_drop` and `snd_pcm_prepare`. -/
def drop (strerror : ℤ → String) (dropCode prepareCode : ℤ) (out : Output F) : Option GoError × Output F :=
  if out.closed then (none,out)
  else match out.pcmHandle with
    | none => (none,out)
    | some handle =>
      let out := out.call (.use handle)
      if dropCode < 0 then (some (alsaError strerror "snd_pcm_drop" dropCode),out)
      else
        let out := out.call (.use handle)
        if prepareCode < 0 then (some (alsaError strerror "snd_pcm_prepare" prepareCode),out) else (none,out)

def delayMs (strerror : ℤ → String) (code frames : ℤ) (out : Output F) : Except GoError ℤ × Output F :=
  if out.closed then (.ok 0,out)
  else match out.pcmHandle with
    | none => (.ok 0,out)
    | some handle =>
      let out := out.call (.use handle)
      if code < 0 then (.error (alsaError strerror "snd_pcm_delay" code),out) else (.ok ((frames * 1000).tdiv out.sampleRate),out)

/-- `Close`, with the results of `snd_pcm_close` and `snd_mixer_close`. -/
def close (strerror : ℤ → String) (pcmCode mixerCode : ℤ) (out : Output F) : Option GoError × Output F :=
  if out.closed then (none,out)
  else
    let mixer (out : Output F) : Option GoError × Output F :=
      if out.mixerEnabled ∧ mixerCode < 0 then (some (alsaError strerror "snd_mixer_close" mixerCode),out)
      else (none,{ out with closed := true })
    match out.pcmHandle with
    | none => mixer out
    | some handle =>
      let out := out.call (.close handle)
      if pcmCode < 0 then (some (alsaError strerror "snd_pcm_close" pcmCode),out) else mixer { out with pcmHandle := none }

/-! ### The loop -/

/-- What a turn of the loop meets: the samples of the reader and its error, and the results of `snd_pcm_writei`,
    `snd_pcm_recover` and `snd_pcm_close`. -/
structure Turn (F : Type) where
  samples : List F
  readErr : Option GoError
  written : ℤ
  recovered : ℤ
  code : ℤ

/-- The write fails, and so does the recovery from it. -/
def Turn.Breaks (turn : Turn F) : Prop := 0 < turn.samples.length ∧ turn.written < 0 ∧ turn.recovered < 0

instance (turn : Turn F) : Decidable turn.Breaks := inferInstanceAs (Decidable (_ ∧ _ ∧ _))

/-- Where a turn leads. -/
inductive Outcome where
  | goesOn
  /-- the output is paused, and the loop returns -/
  | paused
  /-- the error of closing the handle is reported, and the lock released twice -/
  | unlocksTwice (err : GoError)
  /-- the error is reported and the output closed, and the loop returns -/
  | fails (err : GoError)
deriving DecidableEq

/-- The samples with the volume applied. -/
def Output.scaled (out : Output F) (samples : List F) : List F :=
  if !out.mixerEnabled && !out.externalVolume then samples.map (· * (out.volume * out.volume)) else samples

/-- What of `n` samples the device takes, which is given whole frames. -/
def accepted (channels n : ℕ) (written : ℤ) : ℕ := min written.toNat (n / channels) * channels

/-- The samples are read and written to the device. -/
def Output.play (out : Output F) (handle : Handle) (turn : Turn F) : Output F :=
  let samples := out.scaled turn.samples
  let out := { out with read := out.read ++ samples }
  if turn.samples.length = 0 then out
  else
    let out := { out with taken := out.taken ++ samples.take (accepted out.channels samples.length turn.written) }.call (.use handle)
    if turn.written < 0 then out.call (.use handle) else out

/-- The section of `outputLoop` that reads and writes, when the handle is still the one of the output. -/
def turn (strerror : ℤ → String) (handle : Handle) (around : Turn F) (out : Output F) : Outcome × Output F :=
  let out := out.play handle around
  if around.Breaks then (.fails (alsaError strerror "snd_pcm_recover" around.recovered),out)
  else match around.readErr with
    | none => (.goesOn,out)
    | some err =>
      if err.is .eof then
        let out := { out with pcmHandle := none }.call (.close handle)
        if around.code < 0 then (.unlocksTwice (alsaError strerror "snd_pcm_close" around.code),out) else (.paused,out)
      else (.fails err,out)

/-! ### The machine -/

/-- Where a loop stands: before its first section, asleep between its sections, or at the error that it reports. -/
inductive Stage where
  | idle
  | waiting (handle : Handle)
  | sleeping (handle : Handle)
  | reporting (err : GoError) (twice : Bool)
  | ended
deriving DecidableEq

/-- The handle that a loop goes on with. -/
def Stage.handle : Stage → Option Handle
  | .waiting handle | .sleeping handle => some handle
  | _ => none

/-- The output and its loops. A loop that waits to report holds the lock; `doomed` is set when a loop comes to release it
    twice, which ends the program or takes the lock from another section. -/
structure State (F : Type) where
  out : Output F
  loops : ℕ → Stage
  held : Option ℕ
  doomed : Bool

def start (channels : ℕ) (sampleRate : ℤ) (externalVolume mixerEnabled : Bool) (initialVolume : F) : State F :=
  ⟨newAlsaOutput channels sampleRate externalVolume mixerEnabled initialVolume,fun _ => .idle,none,false⟩

inductive Event (F : Type) where
  | resume (number : ℕ) (opening : Opening)
  | pause (code : ℤ)
  | drop (dropCode prepareCode : ℤ)
  | delayMs (code frames : ℤ)
  | close (pcmCode mixerCode : ℤ)
  | setVolume (vol : F)
  | wake (number : ℕ)
  | turn (number : ℕ) (around : Turn F)
  | report (number : ℕ)
  /-- an error is taken from `Error()` -/
  | receive

def State.setLoop (s : State F) (number : ℕ) (stage : Stage) : State F := { s with loops := Function.update s.loops number stage }

/-- The lock is free. -/
def State.Free (s : State F) : Prop := s.held = none ∧ s.doomed = false

instance (s : State F) : Decidable s.Free := inferInstanceAs (Decidable (_ ∧ _))

/-- `Resume` returns, having started a loop or not. -/
def State.resumed (s : State F) (number : ℕ) : Option Handle × Output F → State F
  | (none,out) => { s with out := out }
  | (some handle,out) => { s with out := out }.setLoop number (.waiting handle)

/-- An error is sent, which may have to wait for room; then the output is closed, or the lock released twice. -/
def State.report (s : State F) (number : ℕ) (err : GoError) (twice : Bool) : State F :=
  match s.out.err.send err with
  | .ok sent => { s with
      out := { s.out with err := sent, closed := s.out.closed || !twice }
      held := none
      doomed := twice }.setLoop number .ended
  | .error _ => { s with held := some number }.setLoop number (.reporting err twice)

/-- A loop does its turn. -/
def State.turned (strerror : ℤ → String) (s : State F) (number : ℕ) (handle : Handle) (around : Turn F) : State F :=
  match AlsaOutput.turn strerror handle around s.out with
  | (.goesOn,out) => { s with out := out }.setLoop number (.waiting handle)
  | (.paused,out) => { s with out := out }.setLoop number .ended
  | (.unlocksTwice err,out) => { s with out := out }.report number err true
  | (.fails err,out) => { s with out := out }.report number err false

def step (strerror : ℤ → String) (e : Event F) (s : State F) : Except Halt (State F) :=
  match e with
  | .resume number opening => only (s.Free ∧ s.loops number = .idle ∧ isOpen s.out.calls opening.handle = false)
      (.ok (s.resumed number (resume strerror opening s.out).2))
  | .pause code => only s.Free (.ok { s with out := (pause strerror code s.out).2 })
  | .drop dropCode prepareCode => only s.Free (.ok { s with out := (drop strerror dropCode prepareCode s.out).2 })
  | .delayMs code frames => only s.Free (.ok { s with out := (delayMs strerror code frames s.out).2 })
  | .close pcmCode mixerCode => only s.Free (.ok { s with out := (close strerror pcmCode mixerCode s.out).2 })
  -- The volume is set without the lock.
  | .setVolume vol => only (s.doomed = false) (.ok { s with out := { s.out with volume := vol } })
  | .wake number => match s.loops number with
    | .waiting handle => only s.Free
        (.ok (if s.out.pcmHandle = some handle then { s with out := s.out.call (.use handle) }.setLoop number (.sleeping handle)
          else s.setLoop number .ended))
    | _ => .error .elsewhere
  | .turn number around => match s.loops number with
    | .sleeping handle => only s.Free
        (.ok (if s.out.pcmHandle = some handle then s.turned strerror number handle around else s.setLoop number .ended))
    | _ => .error .elsewhere
  | .report number => match s.loops number with
    | .reporting err twice => only (¬ s.out.err.Full) (.ok (s.report number err twice))
    | _ => .error .elsewhere
  | .receive => do
    let (_,err) ← s.out.err.receive
    .ok { s with out := { s.out with err := err } }

/-! ### What the methods do -/

variable {strerror : ℤ → String} {out out' : Output F} {handle : Handle} {s s' : State F} {e : Event F}

theorem pause_cases (strerror : ℤ → String) (code : ℤ) (out : Output F) :
    ((pause strerror code out).2 = out ∧ (out.closed = true ∨ out.pcmHandle = none)) ∨
    ∃ handle, out.closed = false ∧ out.pcmHandle = some handle ∧
      (code < 0 ∧ (pause strerror code out).2 = out.call (.close handle) ∨
        0 ≤ code ∧ (pause strerror code out).2 = { out.call (.close handle) with pcmHandle := none }) := by
  unfold pause
  cases closed : out.closed with
  | true => exact .inl ⟨rfl,.inl rfl⟩
  | false => cases there : out.pcmHandle with
    | none => exact .inl ⟨rfl,.inr rfl⟩
    | some handle =>
      refine .inr ⟨handle,rfl,rfl,?_⟩
      by_cases fails : code < 0
      · exact .inl ⟨fails,by simp [fails]⟩
      · exact .inr ⟨Int.not_lt.mp fails,by simp [fails]⟩

theorem drop_cases (strerror : ℤ → String) (dropCode prepareCode : ℤ) (out : Output F) :
    (drop strerror dropCode prepareCode out).2 = out ∨
    ∃ handle, out.closed = false ∧ out.pcmHandle = some handle ∧
      ((drop strerror dropCode prepareCode out).2 = out.call (.use handle) ∨
        (drop strerror dropCode prepareCode out).2 = (out.call (.use handle)).call (.use handle)) := by
  unfold drop
  cases closed : out.closed with
  | true => exact .inl rfl
  | false => cases there : out.pcmHandle with
    | none => exact .inl rfl
    | some handle =>
      refine .inr ⟨handle,rfl,rfl,?_⟩
      by_cases fails : dropCode < 0
      · exact .inl (by simp [fails])
      · exact .inr (by by_cases fails' : prepareCode < 0 <;> simp [fails,fails'])

theorem delayMs_cases (strerror : ℤ → String) (code frames : ℤ) (out : Output F) :
    (delayMs strerror code frames out).2 = out ∨
    ∃ handle, out.closed = false ∧ out.pcmHandle = some handle ∧ (delayMs strerror code frames out).2 = out.call (.use handle) := by
  unfold delayMs
  cases closed : out.closed with
  | true => exact .inl rfl
  | false => cases there : out.pcmHandle with
    | none => exact .inl rfl
    | some handle => exact .inr ⟨handle,rfl,rfl,by by_cases fails : code < 0 <;> simp [fails]⟩

theorem close_cases (strerror : ℤ → String) (pcmCode mixerCode : ℤ) (out : Output F) :
    ((close strerror pcmCode mixerCode out).2 = out ∧ (out.closed = true ∨ out.pcmHandle = none)) ∨
    (out.closed = false ∧ out.pcmHandle = none ∧ (close strerror pcmCode mixerCode out).2 = { out with closed := true }) ∨
    ∃ handle, out.closed = false ∧ out.pcmHandle = some handle ∧
      (pcmCode < 0 ∧ (close strerror pcmCode mixerCode out).2 = out.call (.close handle) ∨
        0 ≤ pcmCode ∧ ((close strerror pcmCode mixerCode out).2 = { out.call (.close handle) with pcmHandle := none } ∨
          (close strerror pcmCode mixerCode out).2 = { out.call (.close handle) with pcmHandle := none, closed := true })) := by
  unfold close
  cases closed : out.closed with
  | true => exact .inl ⟨rfl,.inl rfl⟩
  | false =>
    by_cases mixer : out.mixerEnabled = true ∧ mixerCode < 0
    · cases there : out.pcmHandle with
      | none => exact .inl ⟨by simp [mixer.1,mixer.2],.inr rfl⟩
      | some handle =>
        refine .inr (.inr ⟨handle,rfl,rfl,?_⟩)
        by_cases fails : pcmCode < 0
        · exact .inl ⟨fails,by simp [fails]⟩
        · exact .inr ⟨Int.not_lt.mp fails,.inl (by simp [fails,Output.call,mixer.1,mixer.2])⟩
    · cases there : out.pcmHandle with
      | none => exact .inr (.inl ⟨rfl,rfl,by simp [mixer,there]⟩)
      | some handle =>
        refine .inr (.inr ⟨handle,rfl,rfl,?_⟩)
        by_cases fails : pcmCode < 0
        · exact .inl ⟨fails,by simp [fails]⟩
        · exact .inr ⟨Int.not_lt.mp fails,.inr (by simp [fails,Output.call,mixer])⟩

/-- `Resume` does nothing, or `snd_pcm_open` fails, or the handle is there, with a loop for it unless the rest of the
    setup fails. -/
theorem resume_cases (strerror : ℤ → String) (opening : Opening) (out : Output F) :
    ((resume strerror opening out).2 = (none,out) ∧ ((out.closed = true ∨ out.pcmHandle ≠ none) ∨ opening.code < 0)) ∨
    (out.closed = false ∧ out.pcmHandle = none ∧ 0 ≤ opening.code ∧ (resume strerror opening out).2 =
      (if opening.failure.isSome then none else some opening.handle,out.opened opening.handle)) := by
  unfold resume
  by_cases still : out.closed = true ∨ out.pcmHandle ≠ none
  · exact .inl ⟨by rw [if_pos still],.inl still⟩
  · rw [if_neg still,setupPcm]
    obtain ⟨opened,none⟩ := not_or.mp still
    by_cases fails : opening.code < 0
    · exact .inl ⟨by rw [if_pos fails],.inr fails⟩
    · refine .inr ⟨Bool.eq_false_iff.mpr opened,not_not.mp none,Int.not_lt.mp fails,?_⟩
      rw [if_neg fails]
      cases opening.failure <;> rfl

/-- Playing changes what was called, read and taken only. -/
theorem play_kept (out : Output F) (handle : Handle) (around : Turn F) :
    (out.play handle around).pcmHandle = out.pcmHandle ∧ (out.play handle around).closed = out.closed ∧
      (out.play handle around).err = out.err ∧
      ∃ uses, (out.play handle around).calls = List.replicate uses (.use handle) ++ out.calls := by
  unfold Output.play
  dsimp only
  split_ifs
  · exact ⟨rfl,rfl,rfl,0,rfl⟩
  · exact ⟨rfl,rfl,rfl,2,rfl⟩
  · exact ⟨rfl,rfl,rfl,1,rfl⟩

/-- The turn comes to the end of the reader. -/
def Turn.Ends (turn : Turn F) : Prop := ¬ turn.Breaks ∧ ∃ err, turn.readErr = some err ∧ err.is .eof = true

/-- The turn comes to an error, of the device or of the reader. -/
def Turn.Fails (turn : Turn F) : Prop := turn.Breaks ∨ ∃ err, turn.readErr = some err ∧ err.is .eof = false

theorem turn_cases (strerror : ℤ → String) (handle : Handle) (around : Turn F) (out : Output F) :
    (around.Fails ∧ ∃ err, turn strerror handle around out = (.fails err,out.play handle around)) ∨
    (around.Ends ∧ ∃ outcome, turn strerror handle around out =
        (outcome,{ out.play handle around with pcmHandle := none }.call (.close handle)) ∧
      (around.code < 0 ∧ (∃ err, outcome = .unlocksTwice err) ∨ 0 ≤ around.code ∧ outcome = .paused)) ∨
    (¬ around.Ends ∧ ¬ around.Fails ∧ turn strerror handle around out = (.goesOn,out.play handle around)) := by
  unfold turn
  by_cases breaks : around.Breaks
  · exact .inl ⟨.inl breaks,alsaError strerror "snd_pcm_recover" around.recovered,by simp only [if_pos breaks]⟩
  · cases reads : around.readErr with
    | none =>
      refine .inr (.inr ⟨?_,?_,by simp [breaks]⟩)
      · rintro ⟨_,err,there,_⟩
        rw [reads] at there
        cases there
      · rintro (broke | ⟨err,there,_⟩)
        · exact breaks broke
        · rw [reads] at there
          cases there
    | some err => cases ends : err.is .eof with
      | false => exact .inl ⟨.inr ⟨err,reads,ends⟩,err,by simp [breaks,ends]⟩
      | true =>
        refine .inr (.inl ⟨⟨breaks,err,reads,ends⟩,?_⟩)
        by_cases fails : around.code < 0
        · refine ⟨.unlocksTwice (alsaError strerror "snd_pcm_close" around.code),?_,.inl ⟨fails,_,rfl⟩⟩
          simp only [if_neg breaks,ends,if_true,if_pos fails]
        · exact ⟨_,by simp [breaks,ends,fails],.inr ⟨Int.not_lt.mp fails,rfl⟩⟩

theorem ends_not_fails {around : Turn F} (ends : around.Ends) : ¬ around.Fails := by
  obtain ⟨whole,err,reads,eof⟩ := ends
  rintro (breaks | ⟨err',reads',other⟩)
  · exact whole breaks
  · rw [reads] at reads'
    cases reads'
    rw [eof] at other
    cases other

theorem setLoop_self (s : State F) (number : ℕ) (stage : Stage) : (s.setLoop number stage).loops number = stage :=
  Function.update_self ..

theorem setLoop_other (s : State F) {number other : ℕ} (apart : other ≠ number) (stage : Stage) :
    (s.setLoop number stage).loops other = s.loops other := Function.update_of_ne apart ..

/-! ### What a step does -/

/-- Where `snd_pcm_close` is called, it returns no error. -/
def ClosesWell : Event F → State F → Prop
  | .pause code,s | .close code _,s => s.out.closed = false → s.out.pcmHandle ≠ none → 0 ≤ code
  | .turn number around,s => ∀ handle, s.loops number = .sleeping handle → s.out.pcmHandle = some handle → around.Ends → 0 ≤ around.code
  | _,_ => True

/-- What a method other than `Resume` does, when it does not come to an error of `snd_pcm_close`. -/
inductive Output.Method (out : Output F) : Output F → Prop where
  | set (vol : F) : out.Method { out with volume := vol }
  | shut (unset : out.pcmHandle = none) : out.Method { out with closed := true }
  | used (uses : ℕ) {handle : Handle} (opened : out.closed = false) (there : out.pcmHandle = some handle) :
    out.Method { out with calls := List.replicate uses (.use handle) ++ out.calls }
  | paused {handle : Handle} (opened : out.closed = false) (there : out.pcmHandle = some handle) (closed : Bool) :
    out.Method { out.call (.close handle) with pcmHandle := none, closed := closed }

theorem method_refl (out : Output F) : out.Method out := .set out.volume

/-- The steps, by what they find and what they do. -/
inductive Taken (s : State F) : Event F → State F → Prop where
  | method {e : Event F} {out : Output F} (well : ClosesWell e s) (resumes : ∀ number opening, e ≠ .resume number opening)
    (turns : ∀ number around, e ≠ .turn number around) (does : s.out.Method out) : Taken s e { s with out := out }
  | undone {e : Event F} {handle : Handle} (fails : ¬ ClosesWell e s) (turns : ∀ number around, e ≠ .turn number around)
    (opened : s.out.closed = false) (there : s.out.pcmHandle = some handle) : Taken s e { s with out := s.out.call (.close handle) }
  | resumed {number : ℕ} {opening : Opening} (still : (s.out.closed = true ∨ s.out.pcmHandle ≠ none) ∨ opening.code < 0) :
    Taken s (.resume number opening) s
  | half {number : ℕ} {opening : Opening} (free : s.Free) (opened : s.out.closed = false) (unset : s.out.pcmHandle = none)
    (well : 0 ≤ opening.code) (broken : opening.failure ≠ none) :
    Taken s (.resume number opening) { s with out := s.out.opened opening.handle }
  | started {number : ℕ} {opening : Opening} (free : s.Free) (idle : s.loops number = .idle) (opened : s.out.closed = false)
    (unset : s.out.pcmHandle = none) (well : 0 ≤ opening.code) (whole : opening.failure = none) :
    Taken s (.resume number opening) ({ s with out := s.out.opened opening.handle }.setLoop number (.waiting opening.handle))
  | slept {number : ℕ} {handle : Handle} (free : s.Free) (waits : s.loops number = .waiting handle)
    (there : s.out.pcmHandle = some handle) :
    Taken s (.wake number) ({ s with out := s.out.call (.use handle) }.setLoop number (.sleeping handle))
  | woke {number : ℕ} (free : s.Free) (other : s.out.pcmHandle ≠ (s.loops number).handle) : Taken s (.wake number) (s.setLoop number .ended)
  | turnedOff {number : ℕ} {around : Turn F} {handle : Handle} (free : s.Free) (sleeps : s.loops number = .sleeping handle)
    (other : s.out.pcmHandle ≠ some handle) : Taken s (.turn number around) (s.setLoop number .ended)
  | wentOn {number : ℕ} {around : Turn F} {handle : Handle} (free : s.Free) (sleeps : s.loops number = .sleeping handle)
    (there : s.out.pcmHandle = some handle) (ends : ¬ around.Ends) (fails : ¬ around.Fails) :
    Taken s (.turn number around) ({ s with out := s.out.play handle around }.setLoop number (.waiting handle))
  | failed {number : ℕ} {around : Turn F} {handle : Handle} (free : s.Free) (sleeps : s.loops number = .sleeping handle)
    (there : s.out.pcmHandle = some handle) (fails : around.Fails) (err : GoError) :
    Taken s (.turn number around) ({ s with out := s.out.play handle around }.report number err false)
  | paused {number : ℕ} {around : Turn F} {handle : Handle} (free : s.Free) (sleeps : s.loops number = .sleeping handle)
    (there : s.out.pcmHandle = some handle) (ends : around.Ends) (well : 0 ≤ around.code) :
    Taken s (.turn number around)
      ({ s with out := { s.out.play handle around with pcmHandle := none }.call (.close handle) }.setLoop number .ended)
  | unlocked {number : ℕ} {around : Turn F} {handle : Handle} (free : s.Free) (sleeps : s.loops number = .sleeping handle)
    (there : s.out.pcmHandle = some handle) (ends : around.Ends) (fails : around.code < 0) (err : GoError) :
    Taken s (.turn number around)
      ({ s with out := { s.out.play handle around with pcmHandle := none }.call (.close handle) }.report number err true)
  | reported {number : ℕ} {err : GoError} {twice : Bool} (reports : s.loops number = .reporting err twice) :
    Taken s (.report number) (s.report number err twice)
  | received {err : Chan GoError} (first : GoError) (buffer : s.out.err.buffer = first :: err.buffer) (cap : err.cap = s.out.err.cap)
    (closed : err.closed = s.out.err.closed) : Taken s .receive { s with out := { s.out with err := err } }
  | none (closed : s.out.err.closed = true) : Taken s .receive s

theorem pause_taken {code : ℤ} (taken : step strerror (.pause code) s = .ok s') : Taken s (.pause code) s' := by
  obtain ⟨_,done⟩ := only_ok taken
  cases done
  rcases pause_cases strerror code s.out with ⟨ran,still⟩ | ⟨handle,opened,there,⟨fails,ran⟩ | ⟨well,ran⟩⟩
  · rw [ran]
    refine .method ?_ (by rintro number opening ⟨⟩) (by rintro number around ⟨⟩) (method_refl s.out)
    intro opened has
    rcases still with closed | unset
    · rw [opened] at closed
      cases closed
    · exact absurd unset has
  · rw [ran]
    refine .undone ?_ (by rintro number around ⟨⟩) opened there
    intro well
    exact absurd (well opened (by simp [there])) (Int.not_le.mpr fails)
  · rw [ran]
    exact .method (fun _ _ => well) (by rintro number opening ⟨⟩) (by rintro number around ⟨⟩) (.paused opened there _)

theorem close_taken {pcmCode mixerCode : ℤ} (taken : step strerror (.close pcmCode mixerCode) s = .ok s') :
    Taken s (.close pcmCode mixerCode) s' := by
  obtain ⟨_,done⟩ := only_ok taken
  cases done
  rcases close_cases strerror pcmCode mixerCode s.out with
    ⟨ran,still⟩ | ⟨_,unset,ran⟩ | ⟨handle,opened,there,⟨fails,ran⟩ | ⟨well,ran | ran⟩⟩
  · rw [ran]
    refine .method ?_ (by rintro number opening ⟨⟩) (by rintro number around ⟨⟩) (method_refl s.out)
    intro opened has
    rcases still with closed | unset
    · rw [opened] at closed
      cases closed
    · exact absurd unset has
  · rw [ran]
    exact .method (fun _ has => absurd unset has) (by rintro number opening ⟨⟩) (by rintro number around ⟨⟩) (.shut unset)
  · rw [ran]
    refine .undone ?_ (by rintro number around ⟨⟩) opened there
    intro well
    exact absurd (well opened (by simp [there])) (Int.not_le.mpr fails)
  · rw [ran]
    exact .method (fun _ _ => well) (by rintro number opening ⟨⟩) (by rintro number around ⟨⟩) (.paused opened there _)
  · rw [ran]
    exact .method (fun _ _ => well) (by rintro number opening ⟨⟩) (by rintro number around ⟨⟩) (.paused opened there true)

theorem turn_taken {number : ℕ} {around : Turn F} (taken : step strerror (.turn number around) s = .ok s') :
    Taken s (.turn number around) s' := by
  simp only [step] at taken
  split at taken
  · next handle sleeps =>
    obtain ⟨free,done⟩ := only_ok taken
    cases done
    split_ifs with there
    · rw [State.turned]
      rcases turn_cases strerror handle around s.out with ⟨fails,err,ran⟩ | ⟨ends,outcome,ran,⟨fails,err,rfl⟩ | ⟨well,rfl⟩⟩ | ⟨ends,fails,ran⟩
      · rw [ran]
        exact .failed free sleeps there fails err
      · rw [ran]
        exact .unlocked free sleeps there ends fails err
      · rw [ran]
        exact .paused free sleeps there ends well
      · rw [ran]
        exact .wentOn free sleeps there ends fails
    · exact .turnedOff free sleeps there
  · cases taken

theorem step_taken (taken : step strerror e s = .ok s') : Taken s e s' := by
  cases e with
  | pause code => exact pause_taken taken
  | close pcmCode mixerCode => exact close_taken taken
  | turn number around => exact turn_taken taken
  | resume number opening =>
    obtain ⟨⟨free,idle,_⟩,done⟩ := only_ok taken
    cases done
    rcases resume_cases strerror opening s.out with ⟨ran,still⟩ | ⟨opened,unset,well,ran⟩
    · rw [ran]
      exact .resumed still
    · rw [ran]
      split_ifs with broken
      · exact .half free opened unset well (Option.isSome_iff_ne_none.mp broken)
      · exact .started free idle opened unset well (Option.not_isSome_iff_eq_none.mp broken)
  | drop dropCode prepareCode =>
    obtain ⟨_,done⟩ := only_ok taken
    cases done
    refine .method trivial (by rintro number opening ⟨⟩) (by rintro number around ⟨⟩) ?_
    rcases drop_cases strerror dropCode prepareCode s.out with ran | ⟨handle,opened,there,ran | ran⟩
    · rw [ran]
      exact method_refl s.out
    · rw [ran]
      exact .used 1 opened there
    · rw [ran]
      exact .used 2 opened there
  | delayMs code frames =>
    obtain ⟨_,done⟩ := only_ok taken
    cases done
    refine .method trivial (by rintro number opening ⟨⟩) (by rintro number around ⟨⟩) ?_
    rcases delayMs_cases strerror code frames s.out with ran | ⟨handle,opened,there,ran⟩
    · rw [ran]
      exact method_refl s.out
    · rw [ran]
      exact .used 1 opened there
  | setVolume vol =>
    obtain ⟨_,done⟩ := only_ok taken
    cases done
    exact .method trivial (by rintro number opening ⟨⟩) (by rintro number around ⟨⟩) (.set vol)
  | wake number =>
    simp only [step] at taken
    split at taken
    · next handle waits =>
      obtain ⟨free,done⟩ := only_ok taken
      cases done
      split_ifs with there
      · exact .slept free waits there
      · exact .woke free (by rw [waits]; exact there)
    · cases taken
  | report number =>
    simp only [step] at taken
    split at taken
    · next err twice reports =>
      obtain ⟨_,done⟩ := only_ok taken
      cases done
      exact .reported reports
    · cases taken
  | receive =>
    obtain ⟨⟨_,err⟩,received,done⟩ := bind_taken taken
    cases done
    rcases receive_ok received with ⟨first,_,buffer,cap,closed⟩ | ⟨_,_,closed,rfl⟩
    · exact .received first buffer cap closed
    · exact .none closed

/-! ### Handles are closed once -/

variable {channels : ℕ} {sampleRate : ℤ} {externalVolume mixerEnabled : Bool} {initialVolume : F} {events : List (Event F)}

/-- A handle is opened and played, and closed by `Pause` while the loop is asleep. -/
def pausedRun : List (Event ℤ) :=
  [.resume 0 ⟨0,1,fun _ => 0⟩,.wake 0,.turn 0 ⟨[3,4],none,1,0,0⟩,.wake 0,.pause 0,.turn 0 ⟨[],none,0,0,0⟩]

end Librespot.AlsaOutput
