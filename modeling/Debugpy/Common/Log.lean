import Debugpy.Lib.Dict
import Debugpy.Lib.Run
import Mathlib.Data.Finset.Union

/-!
# The log files

`common/log.py`: the files that are logged to by name, the levels of them all
together, and the objects that `to_file` returns. One handle is one call that
returned; two of them can be the same `LogFile`.
-/

namespace Debugpy.Log

abbrev Uid := Nat

def LEVELS : Finset String := {"debug", "info", "warning", "error"}

inductive Message where
  | alsoLoggingTo (filename : String)
  | versions
  | notLoggingTo (filename : String)
  | text (s : String)
  deriving DecidableEq, Repr

structure LogFile where
  filename : String := ""
  levels : Finset String := ∅
  closeFile : Bool := true
  /-- Whether `file` is closed, and what has been written to it. -/
  isFileClosed : Bool := false
  written : List (String × Message) := []
  deriving DecidableEq

structure State where
  objects : Uid → LogFile := fun _ => {}
  next : Uid := 0
  /-- `_files`. -/
  files : Dict String Uid := .empty
  /-- `_levels`. -/
  levels : Finset String := ∅
  logDir : Option String := none
  /-- What the calls of `to_file` have returned; `none` is a `NoLog`. -/
  handles : List (Option Uid) := []
  /-- The handles that have been closed, and those whose `close` raised. -/
  closed : List Nat := []
  raised : List Nat := []

-- ---------------------------------------------------------------------------
-- Writing
-- ---------------------------------------------------------------------------

def LogFile.write (level : String) (message : Message) (file : LogFile) : LogFile :=
  if level ∈ file.levels ∧ !file.isFileClosed then
    { file with written := file.written ++ [(level, message)] }
  else file

def writeFormat (level : String) (message : Message) (toFiles : List Uid) (st : State) : State :=
  if level ≠ "error" ∧ level ∉ st.levels then st
  else { st with objects := fun uid =>
    if uid ∈ toFiles then (st.objects uid).write level message else st.objects uid }

/-- `write_format` to all files. -/
def log (level : String) (message : Message) (st : State) : State :=
  writeFormat level message st.files.values st

-- ---------------------------------------------------------------------------
-- Files
-- ---------------------------------------------------------------------------

def updateLevels (st : State) : State :=
  { st with levels := st.files.values.toFinset.biUnion fun uid => (st.objects uid).levels }

def State.setObject (uid : Uid) (file : LogFile) (st : State) : State :=
  { st with objects := fun uid' => if uid' = uid then file else st.objects uid' }

/-- `LogFile.__init__`; the object is the next one. -/
def construct (filename : String) (levels : Finset String) (closeFile : Bool) (st : State) :
    State :=
  let st := log "info" (.alsoLoggingTo filename) st
  let uid := st.next
  let st := { st.setObject uid { filename, levels, closeFile } with
    next := uid + 1
    files := st.files.set filename uid }
  writeFormat "info" .versions [uid] (updateLevels st)

def setLevels (uid : Uid) (value : Option (Finset String)) (st : State) : State :=
  updateLevels (st.setObject uid { st.objects uid with levels := value.getD LEVELS })

def close (uid : Uid) (st : State) : Option State :=
  let file := st.objects uid
  if file.filename ∈ st.files.keys then
    let st := updateLevels { st with files := st.files.erase file.filename }
    let st := log "info" (.notLoggingTo file.filename) st
    if file.closeFile then some (st.setObject uid { st.objects uid with isFileClosed := true })
    else some st
  else none

/-- The arguments `filename` and `prefix`, of which one is given. -/
inductive Designation where
  | named (filename : String)
  | inLogDir (start : String)
  deriving DecidableEq, Repr

def resolve (pid : String) (st : State) : Designation → Option String
  | .named filename => some filename
  | .inLogDir start => st.logDir.map fun dir => dir ++ "/" ++ start ++ "-" ++ pid ++ ".log"

def State.returned (file : Option Uid) (st : State) : State :=
  { st with handles := st.handles ++ [file] }

def toFile (pid : String) (d : Designation) (levels : Finset String) (st : State) : State :=
  match resolve pid st d with
  | none => st.returned none
  | some filename => match st.files.get? filename with
    | some uid => (setLevels uid (some levels) st).returned (some uid)
    | none => (construct filename levels true st).returned (some st.next)

-- ---------------------------------------------------------------------------
-- Runs
-- ---------------------------------------------------------------------------

inductive Label where
  | toFile (d : Designation) (levels : Finset String)
  /-- `io.open` raises: nothing is returned. -/
  | toFileFails (d : Designation)
  /-- The assignment to `levels` of what handle `h` is. -/
  | assign (h : Nat) (value : Option (Finset String))
  | close (h : Nat)
  | write (level : String) (text : String)
  | setLogDir (dir : Option String)

def State.closedHandle (h : Nat) (raises : Bool) (st : State) : State :=
  { st with closed := h :: st.closed, raised := if raises then h :: st.raised else st.raised }

/-- A handle is closed once. -/
def step (pid : String) (st : State) : Label → Option State
  | .toFile d levels => some (toFile pid d levels st)
  | .toFileFails d => if (resolve pid st d).any (· ∉ st.files.keys) then some st else none
  | .assign h value => match st.handles[h]? with
    | some (some uid) => some (setLevels uid value st)
    | _ => none
  | .close h =>
    if h ∈ st.closed then none else
    match st.handles[h]? with
    | none => none
    | some none => some (st.closedHandle h false)
    | some (some uid) => match close uid st with
      | some st => some (st.closedHandle h false)
      | none => some (st.closedHandle h true)
  | .write level text => if level ∈ LEVELS then some (log level (.text text) st) else none
  | .setLogDir dir => some { st with logDir := dir }

/-- After the import: `"<stderr>"` is a log file, with levels from the environment. -/
def initial (stderrLevels : Finset String) : State := construct "<stderr>" stderrLevels false {}

-- ---------------------------------------------------------------------------
-- Levels
-- ---------------------------------------------------------------------------

/-- `_levels` is the union of the levels of the files. -/
def Combined (st : State) : Prop :=
  ∀ level, level ∈ st.levels ↔
    ∃ filename uid, st.files.get? filename = some uid ∧ level ∈ (st.objects uid).levels

theorem combined_updateLevels (st : State) : Combined (updateLevels st) := by
  intro level
  simp only [updateLevels, Finset.mem_biUnion, List.mem_toFinset, Dict.mem_values]
  constructor
  · rintro ⟨uid, ⟨filename, hget⟩, hlevel⟩
    exact ⟨filename, uid, hget, hlevel⟩
  · rintro ⟨filename, uid, hget, hlevel⟩
    exact ⟨uid, ⟨filename, hget⟩, hlevel⟩

@[simp] theorem levels_write (file : LogFile) : (file.write level message).levels = file.levels := by
  unfold LogFile.write
  split <;> rfl

@[simp] theorem filename_write (file : LogFile) :
    (file.write level message).filename = file.filename := by
  unfold LogFile.write
  split <;> rfl

theorem objects_writeFormat (st : State) (uid : Uid) :
    (writeFormat level message toFiles st).objects uid =
        (st.objects uid).write level message ∨
      (writeFormat level message toFiles st).objects uid = st.objects uid := by
  unfold writeFormat
  split
  · exact .inr rfl
  · dsimp only
    split
    · exact .inl rfl
    · exact .inr rfl

theorem Combined.writeFormat (h : Combined st) : Combined (writeFormat level message toFiles st) := by
  have hlevels : (Log.writeFormat level message toFiles st).levels = st.levels := by
    unfold Log.writeFormat
    split <;> rfl
  have hfiles : (Log.writeFormat level message toFiles st).files = st.files := by
    unfold Log.writeFormat
    split <;> rfl
  have hobject (uid : Uid) : ((Log.writeFormat level message toFiles st).objects uid).levels =
      (st.objects uid).levels := by
    rcases objects_writeFormat st uid with h | h
    · rw [h, levels_write]
    · rw [h]
  intro level'
  simp only [hlevels, hfiles, hobject]
  exact h level'

theorem combined_construct (st : State) : Combined (construct filename levels closeFile st) :=
  (combined_updateLevels _).writeFormat

theorem combined_setLevels (st : State) : Combined (setLevels uid value st) :=
  combined_updateLevels _

theorem Combined.returned (h : Combined st) : Combined (st.returned file) := h

theorem Combined.closedHandle (h : Combined st) : Combined (st.closedHandle k raises) := h

theorem Combined.setObject (h : Combined st) (hlevels : file.levels = (st.objects uid).levels) :
    Combined (st.setObject uid file) := by
  intro level
  refine (h level).trans (exists_congr fun filename => exists_congr fun uid' => ?_)
  refine and_congr_right fun _ => ?_
  dsimp only [State.setObject]
  split
  · next heq => rw [heq, hlevels]
  · rfl

theorem combined_close (h : close uid st = some st') : Combined st' := by
  simp only [close] at h
  have hlog : Combined (log "info" (.notLoggingTo (st.objects uid).filename)
      (updateLevels { st with files := st.files.erase (st.objects uid).filename })) :=
    (combined_updateLevels _).writeFormat
  split_ifs at h <;> cases h
  · exact hlog.setObject rfl
  · exact hlog

theorem combined_toFile (h : Combined st) : Combined (toFile pid d levels st) := by
  unfold toFile
  split
  · exact h
  · split
    · exact (combined_setLevels st).returned
    · exact (combined_construct st).returned

theorem combined_step (hc : Combined st) (h : step pid st l = some st') : Combined st' := by
  cases l with
  | toFile d levels =>
    cases h
    exact combined_toFile hc
  | toFileFails d =>
    simp only [step] at h
    split at h <;> cases h
    exact hc
  | assign k value =>
    simp only [step] at h
    split at h <;> cases h
    exact combined_setLevels st
  | close k =>
    simp only [step] at h
    split at h
    · cases h
    split at h
    · cases h
    · cases h
      exact hc.closedHandle
    · split at h
      · next hclose =>
        cases h
        exact (combined_close hclose).closedHandle
      · cases h
        exact hc.closedHandle
  | write level text =>
    simp only [step] at h
    split at h <;> cases h
    exact hc.writeFormat
  | setLogDir dir =>
    cases h
    exact hc

-- ---------------------------------------------------------------------------
-- The registry and the handles
-- ---------------------------------------------------------------------------

structure Core where
  files : Dict String Uid
  filename : Uid → String
  next : Uid
  handles : List (Option Uid)
  closed : List Nat
  raised : List Nat

def State.core (st : State) : Core where
  files := st.files
  filename uid := (st.objects uid).filename
  next := st.next
  handles := st.handles
  closed := st.closed
  raised := st.raised

namespace Core

def register (filename : String) (c : Core) : Core :=
  { c with
    files := c.files.set filename c.next
    filename := fun uid => if uid = c.next then filename else c.filename uid
    next := c.next + 1 }

def returned (file : Option Uid) (c : Core) : Core := { c with handles := c.handles ++ [file] }

def unregister (uid : Uid) (c : Core) : Core := { c with files := c.files.erase (c.filename uid) }

def closedHandle (h : Nat) (raises : Bool) (c : Core) : Core :=
  { c with closed := h :: c.closed, raised := if raises then h :: c.raised else c.raised }

end Core

@[simp] theorem core_writeFormat (st : State) :
    (writeFormat level message toFiles st).core = st.core := by
  have hobject (uid : Uid) : ((writeFormat level message toFiles st).objects uid).filename =
      (st.objects uid).filename := by
    rcases objects_writeFormat st uid with h | h
    · rw [h, filename_write]
    · rw [h]
  unfold State.core
  simp only [hobject]
  unfold writeFormat
  split <;> rfl

@[simp] theorem core_log (st : State) : (log level message st).core = st.core := core_writeFormat st

@[simp] theorem core_updateLevels (st : State) : (updateLevels st).core = st.core := rfl

@[simp] theorem core_returned (st : State) : (st.returned file).core = st.core.returned file := rfl

@[simp] theorem core_closedHandle (st : State) :
    (st.closedHandle h raises).core = st.core.closedHandle h raises := rfl

theorem core_setObject (st : State) (h : file.filename = (st.objects uid).filename) :
    (st.setObject uid file).core = st.core := by
  unfold State.core State.setObject
  congr 1
  funext uid'
  dsimp only
  split
  · next heq => rw [heq, h]
  · rfl

@[simp] theorem core_setLevels (st : State) : (setLevels uid value st).core = st.core :=
  core_setObject st rfl

theorem core_construct (st : State) :
    (construct filename levels closeFile st).core = st.core.register filename := by
  have hlog : (log "info" (.alsoLoggingTo filename) st).core = st.core := core_log st
  rw [construct, core_writeFormat, core_updateLevels, ← hlog]
  unfold State.core State.setObject Core.register
  congr 1
  funext uid
  dsimp only
  split <;> rfl

theorem core_close (h : close uid st = some st') :
    st.core.filename uid ∈ st.core.files.keys ∧ st'.core = st.core.unregister uid := by
  simp only [close] at h
  have hlog : (log "info" (.notLoggingTo (st.objects uid).filename)
      (updateLevels { st with files := st.files.erase (st.objects uid).filename })).core =
        st.core.unregister uid := by
    rw [core_log, core_updateLevels]
    rfl
  split_ifs at h with hmem hclose <;> cases h
  · refine ⟨hmem, (core_setObject _ ?_).trans hlog⟩
    rfl
  · exact ⟨hmem, hlog⟩

theorem close_eq_none : close uid st = none ↔ st.core.filename uid ∉ st.core.files.keys := by
  show close uid st = none ↔ (st.objects uid).filename ∉ st.files.keys
  simp only [close]
  split_ifs with hmem hclose <;> simp [hmem]

/-- What a step can do to the registry and the handles, `opens` being the
names it can open. -/
inductive Change (opens : String → Prop) (c : Core) : Core → Prop
  | quiet : Change opens c c
  | noLog : Change opens c (c.returned none)
  | reopened {filename uid} (hopens : opens filename) (hget : c.files.get? filename = some uid) :
      Change opens c (c.returned (some uid))
  | opened {filename} (hopens : opens filename) (hget : c.files.get? filename = none) :
      Change opens c ((c.register filename).returned (some c.next))
  | closedNoLog {h} (hhandle : c.handles[h]? = some none) : Change opens c (c.closedHandle h false)
  | closed {h uid} (hhandle : c.handles[h]? = some (some uid)) (hclosed : h ∉ c.closed)
      (hfile : c.filename uid ∈ c.files.keys) :
      Change opens c ((c.unregister uid).closedHandle h false)
  | raised {h uid} (hhandle : c.handles[h]? = some (some uid)) (hclosed : h ∉ c.closed)
      (hfile : c.filename uid ∉ c.files.keys) :
      Change opens c (c.closedHandle h true)

/-- The step calls `to_file` for this name. -/
def Opens (pid : String) (st : State) (l : Label) (filename : String) : Prop :=
  ∃ d levels, l = .toFile d levels ∧ resolve pid st d = some filename

theorem core_toFile (hd : resolve pid st d = some filename) :
    (∃ uid, st.core.files.get? filename = some uid ∧
      (toFile pid d levels st).core = st.core.returned (some uid)) ∨
    (st.core.files.get? filename = none ∧
      (toFile pid d levels st).core =
        (st.core.register filename).returned (some st.core.next)) := by
  rw [toFile, hd]
  cases hget : st.files.get? filename with
  | some uid =>
    refine .inl ⟨uid, hget, ?_⟩
    simp only [hget, core_returned, core_setLevels]
  | none =>
    refine .inr ⟨hget, ?_⟩
    simp only [hget, core_returned, core_construct]
    rfl

theorem change_toFile (st : State) : Change (Opens pid st (.toFile d levels)) st.core
    (toFile pid d levels st).core := by
  cases hd : resolve pid st d with
  | none =>
    rw [toFile, hd]
    exact .noLog
  | some filename =>
    have hopens : Opens pid st (.toFile d levels) filename := ⟨d, levels, rfl, hd⟩
    rcases core_toFile hd with ⟨uid, hget, hcore⟩ | ⟨hget, hcore⟩
    · exact hcore ▸ .reopened hopens hget
    · exact hcore ▸ .opened hopens hget

theorem change_step (h : step pid st l = some st') : Change (Opens pid st l) st.core st'.core := by
  cases l with
  | toFile d levels =>
    cases h
    exact change_toFile st
  | toFileFails d =>
    simp only [step] at h
    split at h <;> cases h
    exact .quiet
  | assign k value =>
    simp only [step] at h
    split at h <;> cases h
    rw [core_setLevels]
    exact .quiet
  | close k =>
    simp only [step] at h
    split at h
    · cases h
    next hclosed =>
    split at h
    · cases h
    · next hhandle =>
      cases h
      exact .closedNoLog hhandle
    · next uid hhandle =>
      split at h
      · next st₁ hclose =>
        cases h
        obtain ⟨hfile, hcore⟩ := core_close hclose
        rw [core_closedHandle, hcore]
        exact .closed hhandle hclosed hfile
      · next hclose =>
        cases h
        exact .raised hhandle hclosed (close_eq_none.mp hclose)
  | write level text =>
    simp only [step] at h
    split at h <;> cases h
    rw [core_log]
    exact .quiet
  | setLogDir dir =>
    cases h
    exact .quiet

-- ---------------------------------------------------------------------------
-- Runs that open no name twice
-- ---------------------------------------------------------------------------

namespace Core

variable {c c' : Core} {h h' : Nat} {uid : Uid} {filename filename' : String}
  {opens : String → Prop}

/-- Handle `h` is the object `uid`. -/
def IsFile (c : Core) (h : Nat) (uid : Uid) : Prop := c.handles[h]? = some (some uid)

/-- Handle `h` is a log file of this name that has not been closed. -/
def Unclosed (c : Core) (filename : String) (h : Nat) : Prop :=
  ∃ uid, c.IsFile h uid ∧ h ∉ c.closed ∧ c.filename uid = filename

instance : Decidable (c.Unclosed filename h) :=
  match hh : c.handles[h]? with
  | some (some uid) => decidable_of_iff (h ∉ c.closed ∧ c.filename uid = filename)
    ⟨fun hu => ⟨uid, hh, hu⟩, fun ⟨_, hf, hu⟩ => by cases hh.symm.trans hf; exact hu⟩
  | some none => isFalse fun ⟨_, hf, _⟩ => by cases hh.symm.trans hf
  | none => isFalse fun ⟨_, hf, _⟩ => by cases hh.symm.trans hf

/-- What holds in every state. -/
structure WellFormed (c : Core) : Prop where
  registered : ∀ filename uid, c.files.get? filename = some uid →
    c.filename uid = filename ∧ uid < c.next
  handle : ∀ h uid, c.IsFile h uid → uid < c.next
  closed : ∀ h ∈ c.closed, h < c.handles.length

/-- What holds as long as no name is opened that has an unclosed handle. -/
structure Tidy (c : Core) : Prop where
  noRaise : c.raised = []
  registered : ∀ h uid, c.IsFile h uid → h ∉ c.closed → c.files.get? (c.filename uid) = some uid
  single : ∀ filename h h', c.Unclosed filename h → c.Unclosed filename h' → h = h'
  ended : ∀ h uid, c.IsFile h uid → c.filename uid ∈ c.files.keys →
    ∃ h', c.Unclosed (c.filename uid) h'

theorem IsFile.lt (hf : c.IsFile h uid) : h < c.handles.length := by
  by_contra hge
  cases (List.getElem?_eq_none (Nat.le_of_not_lt hge)).symm.trans hf

theorem isFile_returned {file : Option Uid} : (c.returned file).IsFile h uid ↔
    c.IsFile h uid ∨ h = c.handles.length ∧ file = some uid := by
  unfold IsFile returned
  rw [List.getElem?_append]
  split
  · next hlt => simp [Nat.ne_of_lt hlt]
  · next hge =>
    have hnone : c.handles[h]? = none := List.getElem?_eq_none (Nat.le_of_not_lt hge)
    rw [hnone]
    rcases Nat.eq_or_lt_of_le (Nat.le_of_not_lt hge) with heq | hlt
    · simp [heq]
    · have hpast : [file][h - c.handles.length]? = none :=
        List.getElem?_eq_none (Nat.sub_pos_of_lt hlt)
      simp [Nat.ne_of_gt hlt, hpast]

theorem filename_register (hlt : uid < c.next) :
    (c.register filename).filename uid = c.filename uid := if_neg (Nat.ne_of_lt hlt)

theorem WellFormed.change (hw : WellFormed c) (hch : Change opens c c') : WellFormed c' := by
  cases hch with
  | quiet => exact hw
  | noLog =>
    refine ⟨hw.registered, fun h uid hf => ?_, fun h hc => ?_⟩
    · exact hw.handle h uid ((isFile_returned.mp hf).resolve_right (by simp))
    · simpa [returned] using Nat.lt_succ_of_lt (hw.closed h hc)
  | @reopened name uid _ hget =>
    refine ⟨hw.registered, fun h uid' hf => ?_, fun h hc => ?_⟩
    · rcases isFile_returned.mp hf with hf | ⟨-, heq⟩
      · exact hw.handle h uid' hf
      · cases heq
        exact (hw.registered name uid hget).2
    · simpa [returned] using Nat.lt_succ_of_lt (hw.closed h hc)
  | @opened name _ hget =>
    refine ⟨fun name' uid hget' => ?_, fun h uid hf => ?_, fun h hc => ?_⟩
    · have hset : (c.files.set name c.next).get? name' = some uid := hget'
      rw [Dict.get?_set] at hset
      split at hset
      · next heq =>
        cases hset
        exact ⟨(if_pos rfl).trans heq.symm, Nat.lt_succ_self _⟩
      · obtain ⟨hname, hlt⟩ := hw.registered name' uid hset
        exact ⟨(filename_register hlt).trans hname, Nat.lt_succ_of_lt hlt⟩
    · rcases isFile_returned.mp hf with hf | ⟨-, heq⟩
      · exact Nat.lt_succ_of_lt (hw.handle h uid hf)
      · cases heq
        exact Nat.lt_succ_self _
    · simpa [returned, register] using Nat.lt_succ_of_lt (hw.closed h hc)
  | closedNoLog hhandle =>
    refine ⟨hw.registered, hw.handle, fun h hc => ?_⟩
    rcases List.mem_cons.mp hc with rfl | hc
    · exact (List.getElem?_eq_some_iff.mp hhandle).1
    · exact hw.closed h hc
  | closed hhandle _ hfile =>
    refine ⟨fun name uid hget => hw.registered name uid ?_, hw.handle, fun h hc => ?_⟩
    · have herase : (c.files.erase _).get? name = some uid := hget
      rw [Dict.get?_erase] at herase
      split at herase
      · cases herase
      · exact herase
    · rcases List.mem_cons.mp hc with rfl | hc
      · exact IsFile.lt hhandle
      · exact hw.closed h hc
  | raised hhandle _ _ =>
    refine ⟨hw.registered, hw.handle, fun h hc => ?_⟩
    rcases List.mem_cons.mp hc with rfl | hc
    · exact IsFile.lt hhandle
    · exact hw.closed h hc

theorem WellFormed.last_not_closed (hw : WellFormed c) : c.handles.length ∉ c.closed :=
  fun hc => absurd (hw.closed _ hc) (Nat.lt_irrefl _)

theorem unclosed_returned (hw : WellFormed c) {file : Option Uid} :
    (c.returned file).Unclosed filename h ↔ c.Unclosed filename h ∨
      h = c.handles.length ∧ ∃ uid, file = some uid ∧ c.filename uid = filename := by
  constructor
  · rintro ⟨uid, hf, hclosed, hname⟩
    rcases isFile_returned.mp hf with hf | ⟨hh, hfile⟩
    · exact .inl ⟨uid, hf, hclosed, hname⟩
    · exact .inr ⟨hh, uid, hfile, hname⟩
  · rintro (⟨uid, hf, hclosed, hname⟩ | ⟨rfl, uid, hfile, hname⟩)
    · exact ⟨uid, isFile_returned.mpr (.inl hf), hclosed, hname⟩
    · exact ⟨uid, isFile_returned.mpr (.inr ⟨rfl, hfile⟩), hw.last_not_closed, hname⟩

theorem unclosed_closedHandle {raises : Bool} :
    (c.closedHandle h' raises).Unclosed filename h ↔ c.Unclosed filename h ∧ h ≠ h' := by
  constructor
  · rintro ⟨uid, hf, hclosed, hname⟩
    obtain ⟨hne, hclosed⟩ := not_or.mp (List.mem_cons.not.mp hclosed)
    exact ⟨⟨uid, hf, hclosed, hname⟩, hne⟩
  · rintro ⟨⟨uid, hf, hclosed, hname⟩, hne⟩
    exact ⟨uid, hf, fun hmem => (List.mem_cons.mp hmem).elim hne hclosed, hname⟩

theorem IsFile.unique (hf : c.IsFile h uid) (hf' : c.IsFile h uid') : uid = uid' :=
  Option.some.inj (Option.some.inj (hf.symm.trans hf'))

theorem mem_keys_unregister : filename ∈ (c.unregister uid).files.keys ↔
    filename ≠ c.filename uid ∧ filename ∈ c.files.keys := by
  simp only [unregister, Dict.mem_keys, Dict.get?_erase]
  by_cases h : filename = c.filename uid <;> simp [h]

theorem Tidy.noLog (ht : Tidy c) (hw : WellFormed c) : Tidy (c.returned none) := by
  have hfile {h uid} : (c.returned none).IsFile h uid ↔ c.IsFile h uid := by
    simp [isFile_returned]
  have hunclosed {filename h} : (c.returned none).Unclosed filename h ↔ c.Unclosed filename h := by
    simp [unclosed_returned hw]
  refine ⟨ht.noRaise, fun h uid hf => ht.registered h uid (hfile.mp hf), fun name h h' hh hh' => ?_,
    fun h uid hf hmem => ?_⟩
  · exact ht.single name h h' (hunclosed.mp hh) (hunclosed.mp hh')
  · obtain ⟨h', hh'⟩ := ht.ended h uid (hfile.mp hf) hmem
    exact ⟨h', hunclosed.mpr hh'⟩

/-- `c₁` is `c` with the object `uid` registered for a name. -/
structure Registers (filename : String) (uid : Uid) (c c₁ : Core) : Prop where
  handles : c₁.handles = c.handles
  closed : c₁.closed = c.closed
  raised : c₁.raised = c.raised
  names : ∀ h uid, c.IsFile h uid → c₁.filename uid = c.filename uid
  get : c₁.files.get? filename = some uid
  name : c₁.filename uid = filename
  others : ∀ other, other ≠ filename → c₁.files.get? other = c.files.get? other

theorem registers_self (hw : WellFormed c) (hget : c.files.get? filename = some uid) :
    Registers filename uid c c :=
  ⟨rfl, rfl, rfl, fun _ _ _ => rfl, hget, (hw.registered filename uid hget).1, fun _ _ => rfl⟩

theorem registers_register (hw : WellFormed c) (filename : String) :
    Registers filename c.next c (c.register filename) where
  handles := rfl
  closed := rfl
  raised := rfl
  names h uid hf := filename_register (hw.handle h uid hf)
  get := (Dict.get?_set ..).trans (if_pos rfl)
  name := if_pos rfl
  others _ hne := (Dict.get?_set ..).trans (if_neg hne)

theorem Registers.unclosed (hr : Registers filename uid c c₁) (hw : WellFormed c) :
    (c₁.returned (some uid)).Unclosed filename' h ↔
      c.Unclosed filename' h ∨ h = c.handles.length ∧ filename' = filename := by
  constructor
  · rintro ⟨uid', hf, hclosed, hname⟩
    rcases isFile_returned.mp hf with hf | ⟨hh, heq⟩
    · have hf' : c.IsFile h uid' := by rwa [IsFile, hr.handles] at hf
      exact .inl ⟨uid', hf', hr.closed ▸ hclosed, (hr.names h uid' hf').symm.trans hname⟩
    · cases heq
      exact .inr ⟨hr.handles ▸ hh, hname.symm.trans hr.name⟩
  · rintro (⟨uid', hf, hclosed, hname⟩ | ⟨rfl, rfl⟩)
    · refine ⟨uid', isFile_returned.mpr (.inl ?_), hr.closed.symm ▸ hclosed,
        (hr.names h uid' hf).trans hname⟩
      rwa [IsFile, hr.handles]
    · refine ⟨uid, isFile_returned.mpr (.inr ⟨by rw [hr.handles], rfl⟩), ?_, hr.name⟩
      exact hr.closed.symm ▸ hw.last_not_closed

theorem Tidy.returned (ht : Tidy c) (hw : WellFormed c) (hr : Registers filename uid c c₁)
    (hnone : ∀ h, ¬ c.Unclosed filename h) : Tidy (c₁.returned (some uid)) where
  noRaise := hr.raised.trans ht.noRaise
  registered h uid' hf hclosed := by
    rcases isFile_returned.mp hf with hf | ⟨-, heq⟩
    · have hf' : c.IsFile h uid' := by rwa [IsFile, hr.handles] at hf
      have hclosed' : h ∉ c.closed := hr.closed ▸ hclosed
      have hne : c.filename uid' ≠ filename := fun heq => hnone h ⟨uid', hf', hclosed', heq⟩
      show c₁.files.get? (c₁.filename uid') = some uid'
      rw [hr.names h uid' hf', hr.others _ hne]
      exact ht.registered h uid' hf' hclosed'
    · cases heq
      show c₁.files.get? (c₁.filename uid) = some uid
      rw [hr.name]
      exact hr.get
  single name h h' hh hh' := by
    rcases (hr.unclosed hw).mp hh with hh | ⟨rfl, rfl⟩ <;>
      rcases (hr.unclosed hw).mp hh' with hh' | ⟨rfl, hname⟩
    · exact ht.single name h h' hh hh'
    · exact absurd (hname ▸ hh) (hnone h)
    · exact absurd hh' (hnone h')
    · rfl
  ended h uid' hf hmem := by
    rcases isFile_returned.mp hf with hf | ⟨-, heq⟩
    · have hf' : c.IsFile h uid' := by rwa [IsFile, hr.handles] at hf
      replace hmem : c₁.filename uid' ∈ c₁.files.keys := hmem
      show ∃ h', (c₁.returned (some uid)).Unclosed (c₁.filename uid') h'
      rw [hr.names h uid' hf'] at hmem ⊢
      by_cases hname : c.filename uid' = filename
      · exact ⟨_, (hr.unclosed hw).mpr (.inr ⟨rfl, hname⟩)⟩
      · rw [Dict.mem_keys, hr.others _ hname, ← Dict.mem_keys] at hmem
        obtain ⟨h', hh'⟩ := ht.ended h uid' hf' hmem
        exact ⟨h', (hr.unclosed hw).mpr (.inl hh')⟩
    · cases heq
      exact ⟨_, (hr.unclosed hw).mpr (.inr ⟨rfl, hr.name⟩)⟩

theorem Tidy.closed (ht : Tidy c) (hf : c.IsFile h uid) (hclosed : h ∉ c.closed) :
    Tidy ((c.unregister uid).closedHandle h false) where
  noRaise := ht.noRaise
  registered h' uid' hf' hclosed' := by
    obtain ⟨hne, hclosed'⟩ := not_or.mp (List.mem_cons.not.mp hclosed')
    have hname : c.filename uid' ≠ c.filename uid := fun heq =>
      hne (ht.single _ _ _ ⟨uid', hf', hclosed', heq⟩ ⟨uid, hf, hclosed, rfl⟩)
    exact (Dict.get?_erase ..).trans ((if_neg hname).trans (ht.registered h' uid' hf' hclosed'))
  single name h' h'' hh' hh'' :=
    ht.single name h' h'' (unclosed_closedHandle.mp hh').1 (unclosed_closedHandle.mp hh'').1
  ended h' uid' hf' hmem := by
    obtain ⟨hname, hmem⟩ := mem_keys_unregister.mp hmem
    obtain ⟨h₁, hh₁⟩ := ht.ended h' uid' hf' hmem
    refine ⟨h₁, unclosed_closedHandle.mpr ⟨hh₁, ?_⟩⟩
    rintro rfl
    obtain ⟨uid₁, hf₁, -, hname₁⟩ := hh₁
    exact hname (hname₁.symm.trans (congrArg c.filename (hf₁.unique hf)))

theorem Tidy.closedNoLog (ht : Tidy c) (hhandle : c.handles[h]? = some none) :
    Tidy (c.closedHandle h false) where
  noRaise := ht.noRaise
  registered h' uid' hf' hclosed' :=
    ht.registered h' uid' hf' (not_or.mp (List.mem_cons.not.mp hclosed')).2
  single name h' h'' hh' hh'' :=
    ht.single name h' h'' (unclosed_closedHandle.mp hh').1 (unclosed_closedHandle.mp hh'').1
  ended h' uid' hf' hmem := by
    obtain ⟨h₁, hh₁⟩ := ht.ended h' uid' hf' hmem
    refine ⟨h₁, unclosed_closedHandle.mpr ⟨hh₁, ?_⟩⟩
    rintro rfl
    obtain ⟨uid₁, hf₁, -⟩ := hh₁
    cases hhandle.symm.trans hf₁

theorem Tidy.change (ht : Tidy c) (hw : WellFormed c) (hch : Change opens c c')
    (hnone : ∀ filename, opens filename → ∀ h, ¬ c.Unclosed filename h) : Tidy c' := by
  cases hch with
  | quiet => exact ht
  | noLog => exact ht.noLog hw
  | reopened hopens hget => exact ht.returned hw (registers_self hw hget) (hnone _ hopens)
  | opened hopens _ => exact ht.returned hw (registers_register hw _) (hnone _ hopens)
  | closedNoLog hhandle => exact ht.closedNoLog hhandle
  | closed hf hclosed _ => exact ht.closed hf hclosed
  | raised hf hclosed hfile =>
    exact absurd (Dict.mem_keys.mpr ⟨_, ht.registered _ _ hf hclosed⟩) hfile

def Doubled (c : Core) (filename : String) : Prop :=
  ∃ h, c.Unclosed filename h ∧
    (filename ∈ c.files.keys → ∃ h', h' ≠ h ∧ c.Unclosed filename h')

theorem Registers.doubled (hr : Registers filename uid c c₁) (hw : WellFormed c)
    (hunclosed : c.Unclosed filename h) : (c₁.returned (some uid)).Doubled filename := by
  refine ⟨h, (hr.unclosed hw).mpr (.inl hunclosed), fun _ => ⟨c.handles.length, ?_, ?_⟩⟩
  · obtain ⟨uid', hf, -⟩ := hunclosed
    exact Nat.ne_of_gt hf.lt
  · exact (hr.unclosed hw).mpr (.inr ⟨rfl, rfl⟩)

theorem Registers.keeps_doubled (hr : Registers filename' uid c c₁) (hw : WellFormed c)
    (hd : c.Doubled filename) : (c₁.returned (some uid)).Doubled filename := by
  obtain ⟨h, hh, hsecond⟩ := hd
  by_cases hname : filename = filename'
  · subst hname
    exact hr.doubled hw hh
  · refine ⟨h, (hr.unclosed hw).mpr (.inl hh), fun hmem => ?_⟩
    have hmem' : filename ∈ c.files.keys := by
      rw [Dict.mem_keys, ← hr.others _ hname, ← Dict.mem_keys]
      exact hmem
    obtain ⟨h', hne, hh'⟩ := hsecond hmem'
    exact ⟨h', hne, (hr.unclosed hw).mpr (.inl hh')⟩

/-- Once one name has a handle too many, only a `close` that raises makes up for it. -/
theorem Doubled.change (hd : c.Doubled filename) (hw : WellFormed c) (hch : Change opens c c') :
    c'.raised ≠ [] ∨ c'.Doubled filename := by
  obtain ⟨h, hh, hsecond⟩ := hd
  cases hch with
  | quiet => exact .inr ⟨h, hh, hsecond⟩
  | noLog =>
    refine .inr ⟨h, (unclosed_returned hw).mpr (.inl hh), fun hmem => ?_⟩
    obtain ⟨h', hne, hh'⟩ := hsecond hmem
    exact ⟨h', hne, (unclosed_returned hw).mpr (.inl hh')⟩
  | reopened _ hget => exact .inr ((registers_self hw hget).keeps_doubled hw ⟨h, hh, hsecond⟩)
  | opened _ _ => exact .inr ((registers_register hw _).keeps_doubled hw ⟨h, hh, hsecond⟩)
  | @closedNoLog k hhandle =>
    have hne {h} (hh : c.Unclosed filename h) : h ≠ k := by
      rintro rfl
      obtain ⟨uid, hf, -⟩ := hh
      cases hhandle.symm.trans hf
    refine .inr ⟨h, unclosed_closedHandle.mpr ⟨hh, hne hh⟩, fun hmem => ?_⟩
    obtain ⟨h', hne', hh'⟩ := hsecond hmem
    exact ⟨h', hne', unclosed_closedHandle.mpr ⟨hh', hne hh'⟩⟩
  | @closed k uid hf hclosed hfile =>
    refine .inr ?_
    by_cases hname : c.filename uid = filename
    · -- One of the two handles is left, and the name is not registered any more.
      obtain ⟨h', hne, hh'⟩ := hsecond (hname ▸ hfile)
      have hgone : filename ∉ (c.unregister uid).files.keys :=
        fun hmem => (mem_keys_unregister.mp hmem).1 hname.symm
      by_cases hk : h = k
      · exact ⟨h', unclosed_closedHandle.mpr ⟨hh', hk ▸ hne⟩, fun hmem => absurd hmem hgone⟩
      · exact ⟨h, unclosed_closedHandle.mpr ⟨hh, hk⟩, fun hmem => absurd hmem hgone⟩
    · have hne {h} (hh : c.Unclosed filename h) : h ≠ k := by
        rintro rfl
        obtain ⟨uid', hf', -, hname'⟩ := hh
        exact hname ((congrArg c.filename (IsFile.unique hf hf')).trans hname')
      refine ⟨h, unclosed_closedHandle.mpr ⟨hh, hne hh⟩, fun hmem => ?_⟩
      obtain ⟨h', hne', hh'⟩ := hsecond (mem_keys_unregister.mp hmem).2
      exact ⟨h', hne', unclosed_closedHandle.mpr ⟨hh', hne hh'⟩⟩
  | raised _ _ _ => exact .inl (List.cons_ne_nil _ _)

theorem raised_change (hch : Change opens c c') (hraised : c.raised ≠ []) : c'.raised ≠ [] := by
  cases hch <;> first | exact hraised | exact List.cons_ne_nil _ _

end Core

-- ---------------------------------------------------------------------------
-- Runs
-- ---------------------------------------------------------------------------

structure Inv (st : State) : Prop where
  combined : Combined st
  wellFormed : st.core.WellFormed

theorem Inv.step (hi : Inv st) (h : step pid st l = some st') : Inv st' :=
  ⟨combined_step hi.combined h, hi.wellFormed.change (change_step h)⟩

theorem core_initial (levels : Finset String) :
    (initial levels).core = ({} : State).core.register "<stderr>" := core_construct {}

theorem inv_initial (levels : Finset String) : Inv (initial levels) := by
  refine ⟨combined_construct {}, ?_⟩
  rw [core_initial]
  refine ⟨fun filename uid hget => ?_, fun h uid hf => ?_, fun h hc => ?_⟩
  · have hset : (Dict.empty.set "<stderr>" 0).get? filename = some uid := hget
    rw [Dict.get?_set] at hset
    split at hset
    · next heq =>
      cases hset
      exact ⟨heq.symm, Nat.zero_lt_one⟩
    · cases hset
  · cases hf
  · cases hc

theorem tidy_initial (levels : Finset String) : (initial levels).core.Tidy := by
  rw [core_initial]
  refine ⟨rfl, fun h uid hf => ?_, fun filename h h' hh => ?_, fun h uid hf => ?_⟩
  · cases hf
  · obtain ⟨uid, hf, -⟩ := hh
    cases hf
  · cases hf

/-- A call of `to_file` finds no unclosed handle for its name. -/
def Fresh (pid : String) (st : State) (l : Label) : Prop :=
  ∀ filename, Opens pid st l filename → ∀ h, ¬ st.core.Unclosed filename h

theorem forall_not_unclosed {c : Core} :
    (∀ h < c.handles.length, ¬ c.Unclosed filename h) ↔ ∀ h, ¬ c.Unclosed filename h := by
  refine ⟨fun hall h hh => ?_, fun hall h _ => hall h⟩
  obtain ⟨uid, hf, hrest⟩ := hh
  exact hall h hf.lt ⟨uid, hf, hrest⟩

instance : Decidable (Fresh pid st l) :=
  match l with
  | .toFile d levels => match hd : resolve pid st d with
    | none => isTrue fun _ ⟨_, _, heq, hd'⟩ => by cases heq; cases hd.symm.trans hd'
    | some filename => decidable_of_iff _
      (forall_not_unclosed.trans ⟨fun hall filename' ⟨_, _, heq, hd'⟩ => by
        cases heq; cases hd.symm.trans hd'; exact hall, fun hf => hf filename ⟨d, levels, rfl, hd⟩⟩)
  | .toFileFails _ | .assign .. | .close _ | .write .. | .setLogDir _ =>
    isTrue fun _ ⟨_, _, heq, _⟩ => by cases heq

/-- No `close` has raised, the levels are combined, and a name whose handles
have all been closed is not registered and its files are not written to. -/
structure Good (st : State) : Prop where
  noRaise : st.raised = []
  combined : Combined st
  ended : ∀ filename, (∃ h uid, st.core.IsFile h uid ∧ st.core.filename uid = filename) →
    (∀ h, ¬ st.core.Unclosed filename h) → filename ∉ st.files.keys ∧
      ∀ level message uid, (st.objects uid).filename = filename →
        (log level message st).objects uid = st.objects uid

theorem Core.Tidy.good (ht : st.core.Tidy) (hi : Inv st) : Good st := by
  refine ⟨ht.noRaise, hi.combined, fun filename hhandle hnone => ?_⟩
  obtain ⟨h, uid, hf, rfl⟩ := hhandle
  have hgone : st.core.filename uid ∉ st.core.files.keys := fun hmem => by
    obtain ⟨h', hh'⟩ := ht.ended h uid hf hmem
    exact hnone h' hh'
  refine ⟨hgone, fun level message uid' hname => ?_⟩
  -- Only what is registered is written to, each object under its own name.
  have hunregistered : uid' ∉ st.files.values := fun hmem => by
    obtain ⟨filename, hget⟩ := Dict.mem_values.mp hmem
    have hname' := (hi.wellFormed.registered filename uid' hget).1
    exact hgone (Dict.mem_keys.mpr ⟨uid', (hname'.symm.trans hname) ▸ hget⟩)
  unfold log writeFormat
  split
  · rfl
  · exact if_neg hunregistered

theorem tidy_run (hrun : Run.exec (step pid) (initial levels) labels = some st)
    (hfresh : Run.Meets (step pid) (Fresh pid) (initial levels) labels) : Good st := by
  obtain ⟨hi, ht⟩ := Run.exec_invariant (I := fun st => Inv st ∧ st.core.Tidy)
    (fun hinv hf h => ⟨hinv.1.step h, hinv.2.change hinv.1.wellFormed (change_step h) hf⟩)
    ⟨inv_initial levels, tidy_initial levels⟩ hfresh hrun
  exact ht.good hi

theorem doubled_run (hi : Inv st) (hd : st.raised ≠ [] ∨ ∃ filename, st.core.Doubled filename)
    (hrun : Run.exec (step pid) st labels = some st') :
    st'.raised ≠ [] ∨ ∃ filename, st'.core.Doubled filename := by
  refine (Run.exec_invariant (I := fun st =>
    Inv st ∧ (st.raised ≠ [] ∨ ∃ filename, st.core.Doubled filename)) ?_ ⟨hi, hd⟩
    Run.meets_true hrun).2
  rintro st l st' ⟨hi, hd⟩ - h
  refine ⟨hi.step h, ?_⟩
  rcases hd with hraised | ⟨filename, hd⟩
  · exact .inl (Core.raised_change (change_step h) hraised)
  · exact (hd.change hi.wellFormed (change_step h)).imp_right fun hd => ⟨filename, hd⟩

theorem doubled_step (hi : Inv st) (h : step pid st l = some st') (hnot : ¬ Fresh pid st l) :
    ∃ filename, st'.core.Doubled filename := by
  simp only [Fresh, not_forall, not_not] at hnot
  obtain ⟨filename, ⟨d, levels, rfl, hd⟩, k, hunclosed⟩ := hnot
  cases h
  refine ⟨filename, ?_⟩
  rcases core_toFile hd with ⟨uid, hget, hcore⟩ | ⟨-, hcore⟩
  · exact hcore ▸ (Core.registers_self hi.wellFormed hget).doubled hi.wellFormed hunclosed
  · exact hcore ▸ (Core.registers_register hi.wellFormed filename).doubled hi.wellFormed hunclosed

theorem meets_or_doubled (hi : Inv st) (hrun : Run.exec (step pid) st labels = some st') :
    Run.Meets (step pid) (Fresh pid) st labels ∨
      st'.raised ≠ [] ∨ ∃ filename, st'.core.Doubled filename := by
  induction labels generalizing st with
  | nil => exact .inl trivial
  | cons l labels ih =>
    obtain ⟨st₁, hstep, hrest⟩ := Run.exec_cons.mp hrun
    by_cases hfresh : Fresh pid st l
    · refine (ih (hi.step hstep) hrest).imp_left fun hmeets => ⟨hfresh, fun st₂ hstep₂ => ?_⟩
      obtain rfl := Option.some.inj (hstep.symm.trans hstep₂)
      exact hmeets
    · exact .inr (doubled_run (hi.step hstep) (.inr (doubled_step hi hstep hfresh)) hrest)

/-- Every handle has been closed. -/
def AllClosed (st : State) : Prop := ∀ filename h, ¬ st.core.Unclosed filename h

/-- What the run promises holds in every state that it passes through. -/
def Throughout (pid : String) (levels : Finset String) (labels : List Label) : Prop :=
  ∀ before after st, labels = before ++ after →
    Run.exec (step pid) (initial levels) before = some st → Good st

/-- The registry works as long as no name is opened that still has a handle;
where all handles are closed in the end, only then. -/
theorem throughout_iff (pid : String) (levels : Finset String) (labels : List Label) (st : State)
    (hrun : Run.exec (step pid) (initial levels) labels = some st) :
    (Run.Meets (step pid) (Fresh pid) (initial levels) labels → Throughout pid levels labels) ∧
      (AllClosed st → Throughout pid levels labels →
        Run.Meets (step pid) (Fresh pid) (initial levels) labels) := by
  constructor
  · rintro hmeets before after st' rfl hbefore
    exact tidy_run hbefore hmeets.append_left
  · intro hall hgood
    have hlast := hgood labels [] st (List.append_nil labels).symm hrun
    refine (meets_or_doubled (inv_initial levels) hrun).resolve_right ?_
    rintro (hraised | ⟨filename, h, hh, -⟩)
    · exact hraised hlast.noRaise
    · exact hall filename h hh

/-- A name is opened again after its handle has been closed. -/
def reopening : List Label :=
  [.toFile (.named "debugpy.log") LEVELS, .assign 0 (some {"error"}), .write "error" "failed",
    .close 0, .toFile (.named "debugpy.log") LEVELS, .setLogDir (some "/tmp"),
    .toFile (.inLogDir "debugpy.adapter") LEVELS, .close 1, .write "info" "late", .close 2]

theorem throughout_reopening : Throughout "7" {"warning", "error"} reopening := by
  obtain ⟨st, hrun⟩ : ∃ st, Run.exec (step "7") (initial {"warning", "error"}) reopening = some st :=
    ⟨_, rfl⟩
  exact (throughout_iff "7" _ reopening st hrun).1 (by decide +kernel)

/-- `with to_file(name):` within `with to_file(name):`. -/
def nested : List Label :=
  [.toFile (.named "debugpy.log") LEVELS, .toFile (.named "debugpy.log") LEVELS, .close 1, .close 0]

/-- The outer one raises `KeyError` at its end. -/
theorem nested_raises : ∃ st, Run.exec (step "7") (initial {"warning", "error"}) nested = some st ∧
    AllClosed st ∧ ¬ Throughout "7" {"warning", "error"} nested := by
  refine ⟨_, rfl, fun filename => forall_not_unclosed.mp fun h hlt => ?_, fun hgood => ?_⟩
  · rintro ⟨uid, -, hclosed, -⟩
    replace hlt : h < 2 := hlt
    replace hclosed : h ∉ [0, 1] := hclosed
    rw [List.mem_pair] at hclosed
    omega
  · cases (hgood nested [] _ rfl rfl).noRaise

end Debugpy.Log
