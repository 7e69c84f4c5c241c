import Debugpy.Lib.Dict
import Debugpy.Lib.Run
import Mathlib.Logic.Function.Basic

/-!
# Tracing a program

The threads of a program run, breakpoints are set and removed, and the client
resumes what has stopped. `World` is that much, with a decision on every event
of every frame, `Settings.look`: the second half of
`PyDBFrame.trace_dispatch`. `State` is what pydevd does. The interpreter
reports the events of a frame to its `f_trace` only, `ThreadTracer` and the
first half of `trace_dispatch` take that away wherever they see nothing to stop
for, and three caches remember where that was.

A thread handles an event at once, and none suspends or resumes another: there
is one thread, or `multi_threads_single_notification` and
`stepping_resumes_all_threads` are off and the suspend policy is `NONE`, so that
`set_suspend` does not come to `suspend_all_threads` nor
`internal_step_in_thread` to `resume_threads("*")`. Only a thread that waits is
in `STATE_SUSPEND` then, and it has no event to look at. Left out are pauses,
exception and function breakpoints, plugins, smart step into, and the frames of
generators and coroutines.
-/

namespace Debugpy.Pydevd.Tracing

/-- `LIB_FILE` and `PYDEV_FILE`. -/
inductive FileType where
  | lib
  | pydev
deriving DecidableEq, Repr

/-- A code object. Python compares two without their files: the keys of the
caches are equal if the functions have the same content. -/
structure Code where
  key : Nat
  file : String
  firstLine : Int
  /-- `dis.findlinestarts`. -/
  lines : List Int
deriving DecidableEq, Repr

structure Breakpoint where
  hasCondition : Bool := false
  isLogpoint : Bool := false
deriving DecidableEq, Repr

abbrev Breakpoints := Dict String (Dict Int Breakpoint)

structure Settings where
  codes : List Code
  fileType : Code → Option FileType := fun _ => none
  /-- `in_project_scope`, but for the files of pydevd. -/
  inProject : Code → Bool := fun _ => true
  /-- `FilesFiltering.exclude_by_filter`. -/
  excludes : Code → Option Bool := fun _ => none
  excludeFilters : Bool := false
  librariesFilter : Bool := false
  showReturnValues : Bool := false
  /-- The function of pydevd that runs the program. -/
  isDebugStart : Code → Bool := fun _ => false
  isTraceProperty : Code → Bool := fun _ => false

namespace Settings

variable (S : Settings)

def inProjectScope (c : Code) : Bool := S.fileType c != some .pydev && S.inProject c

def excludeByFilter (c : Code) : Option Bool :=
  if S.fileType c = some .pydev then some true else S.excludes c

def isFilesFilterEnabled : Bool := S.excludeFilters || S.librariesFilter

def applyFilesFilter (c : Code) (force : Bool) : Bool :=
  (if S.excludeFilters then S.excludeByFilter c else none).getD
    ((S.librariesFilter || force) && !S.inProjectScope c)

end Settings

-- ---------------------------------------------------------------------------
-- Threads
-- ---------------------------------------------------------------------------

inductive Event where
  | call (code : Code)
  | line (line : Int)
  | ret
  | exception
deriving DecidableEq, Repr

structure Frame where
  id : Nat
  code : Code
  line : Int
deriving DecidableEq, Repr

inductive StepKind where
  | stepInto
  | stepOver
  | stepReturn
deriving DecidableEq, Repr

structure StepCmd where
  kind : StepKind
  myCode : Bool := false
deriving DecidableEq, Repr

structure Info where
  suspended : Bool := false
  stepCmd : Option StepCmd := none
  stepStop : Option Nat := none
  originalStepCmd : Option StepCmd := none
  stepInInitialLocation : Option (Nat × Int) := none
deriving DecidableEq, Repr

inductive Reason where
  | setBreak
  | step (cmd : StepCmd)
deriving DecidableEq, Repr

/-- The frame that a thread is shown suspended in, and where. -/
structure Stop where
  frame : Nat
  line : Int
  reason : Reason
deriving DecidableEq, Repr

/-- `waiting` is a call of `do_wait_suspend`, for an event. -/
inductive Phase where
  | running
  | waiting (event : Event) (shown : Frame)
deriving DecidableEq, Repr

structure Thread where
  /-- The frame that runs, and its parents. -/
  stack : List Frame := []
  info : Info := {}
  phase : Phase := .running
  stops : List Stop := []
deriving DecidableEq, Repr

structure World where
  threads : Nat → Thread := fun _ => {}
  breakpoints : Breakpoints := .empty
  nextId : Nat := 0

def World.setThread (w : World) (t : Nat) (thread : Thread) : World :=
  { w with threads := Function.update w.threads t thread }

/-- What the interpreter does before it reports the event. -/
def World.start (S : Settings) (w : World) (t : Nat) (e : Event) : Option World :=
  let thread := w.threads t
  match thread.phase, e, thread.stack with
  | .waiting _ _, _, _ => none
  | .running, .call code, stack =>
    if code ∈ S.codes then
      some ({ w with nextId := w.nextId + 1 }.setThread t
        { thread with stack := { id := w.nextId, code, line := code.firstLine } :: stack })
    else none
  | .running, .line line, f :: stack =>
    if line ∈ f.code.lines then
      some (w.setThread t { thread with stack := { f with line } :: stack })
    else none
  | .running, .ret, _ :: _ => some w
  | .running, .exception, _ :: _ => some w
  | .running, _, [] => none

def World.finish (w : World) (t : Nat) (e : Event) : World :=
  let thread := w.threads t
  match thread.phase, e with
  | .running, .ret => w.setThread t { thread with stack := thread.stack.tail }
  | _, _ => w

-- ---------------------------------------------------------------------------
-- Where a thread stops
-- ---------------------------------------------------------------------------

/-- In the frame that a step was to stay in, a return makes it a step into. -/
def Info.onReturn (info : Info) (f : Frame) (e : Event) : Info :=
  match e, info.stepCmd with
  | .ret, some cmd =>
    if info.stepStop = some f.id ∧ cmd.kind ≠ .stepInto then
      { info with stepCmd := some { cmd with kind := .stepInto }, stepStop := none }
    else info
  | _, _ => info

def breakpointAt (breakpoints : Breakpoints) (c : Code) : Event → Option Breakpoint
  | .line line => (breakpoints.get? c.file).bind fun lines => lines.get? line
  | _ => none

def hasBreakpoint (breakpoints : Breakpoints) (c : Code) : Bool :=
  (breakpoints.get? c.file).any fun lines => lines.keys.any (· ∈ c.lines)

/-- `condition` is what the condition comes to. -/
def Breakpoint.stops (bp : Breakpoint) (condition : Bool) : Bool :=
  (!bp.hasCondition || condition) && !bp.isLogpoint

def Info.clear (info : Info) : Info :=
  { info with suspended := false, stepCmd := none, stepStop := none, originalStepCmd := none }

def Thread.suspend (thread : Thread) (shown : Frame) (e : Event) (reason : Reason) : Thread :=
  let info := thread.info
  { thread with
    info := { info with
      suspended := true
      stepCmd := some (info.stepCmd.getD { kind := .stepInto })
      stepStop := info.stepCmd.elim none fun _ => info.stepStop
      stepInInitialLocation := none }
    phase := .waiting e shown
    stops := thread.stops ++ [{ frame := shown.id, line := shown.line, reason }] }

namespace Settings

variable (S : Settings)

/-- Whether a step into may end here, in a frame or in the parent of one that
returns. -/
def shows (f : Frame) (force : Bool) : Bool :=
  !(force || S.isFilesFilterEnabled) || !S.applyFilesFilter f.code force

/-- Whether a step ends with the event. -/
def stepStops (info : Info) (f : Frame) (back : Option Frame) (e : Event) : Bool :=
  match info.stepCmd, e with
  | some ⟨.stepInto, force⟩, .line _ => S.shows f force
  | some ⟨.stepInto, force⟩, .ret => back.any fun b =>
    S.fileType b.code != some .pydev && S.shows b force &&
      !((force || S.isFilesFilterEnabled) && info.stepInInitialLocation == some (b.id, b.line))
  | some ⟨.stepOver, _⟩, .line _ => info.stepStop == some f.id
  | some ⟨.stepReturn, _⟩, .ret =>
    info.stepStop == some f.id && !back.any fun b => S.fileType b.code == some .pydev
  | _, _ => false

/-- The second half of `PyDBFrame.trace_dispatch`, up to the wait. -/
def look (breakpoints : Breakpoints) (condition : Bool) (f : Frame) (back : Option Frame) (e : Event)
    (thread : Thread) : Thread :=
  let step := thread.info
  let thread := { thread with info := step.onReturn f e }
  -- `original_step_cmd` is the reason, where there is one
  let reason := Reason.step (step.originalStepCmd.getD (step.stepCmd.getD { kind := .stepInto }))
  if (breakpointAt breakpoints f.code e).any (·.stops condition) then thread.suspend f e .setBreak
  else if S.stepStops step f back e then
    match e, back with
    | .ret, none => { thread with info := thread.info.clear }
    | .ret, some b =>
      if S.isDebugStart b.code then { thread with info := thread.info.clear }
      else if S.isTraceProperty b.code then thread
      else thread.suspend b e reason
    | _, _ => thread.suspend f e reason
  else thread

/-- Where a step return is to end: the frames of libraries are left with it. -/
def returnFrom (force : Bool) : Frame → List Frame → Frame × List Frame
  | f, [] => (f, [])
  | f, b :: parents =>
    if (force || S.isFilesFilterEnabled) && S.applyFilesFilter b.code force then returnFrom force b parents
    else (f, b :: parents)

/-- `internal_run_thread` or `internal_step_in_thread`, and what
`_do_wait_suspend` makes of it: the frames are those that are traced anew. -/
def resumed (cmd : Option StepCmd) (shown : Frame) (parents : List Frame) : Info × List Frame :=
  match cmd with
  | none => ({}, [])
  | some cmd =>
    let info : Info := { stepCmd := some cmd, originalStepCmd := some cmd }
    match cmd.kind with
    | .stepInto => ({ info with stepInInitialLocation := some (shown.id, shown.line) }, shown :: parents)
    | .stepOver => ({ info with stepStop := some shown.id }, shown :: parents)
    | .stepReturn =>
      let (f, back) := S.returnFrom cmd.myCode shown parents
      if back = [] then ({}, []) else ({ info with stepStop := some f.id }, f :: back)

end Settings

def parents (stack : List Frame) (f : Frame) : List Frame := (stack.dropWhile (·.id != f.id)).tail

/-- `condition` is what the condition of a breakpoint at the line comes to. -/
inductive Label where
  | event (t : Nat) (e : Event) (condition : Bool)
  | resume (t : Nat) (cmd : Option StepCmd)
  | addBreakpoint (file : String) (line : Int) (bp : Breakpoint)
  | removeBreakpoints (file : String)
deriving DecidableEq, Repr

def Breakpoints.add (bps : Breakpoints) (file : String) (line : Int) (bp : Breakpoint) : Breakpoints :=
  Dict.set bps file (((Dict.get? bps file).getD .empty).set line bp)

namespace World

def trace (S : Settings) (w : World) (t : Nat) (e : Event) (condition : Bool) : World :=
  match (w.threads t).stack with
  | [] => w
  | f :: stack =>
    if S.fileType f.code = none then
      w.setThread t (S.look w.breakpoints condition f stack.head? e (w.threads t))
    else w

def step (S : Settings) (w : World) : Label → Option World
  | .event t e condition => (w.start S t e).map fun w => (w.trace S t e condition).finish t e
  | .resume t cmd =>
    let thread := w.threads t
    match thread.phase with
    | .running => none
    | .waiting e shown =>
      let (info, _) := S.resumed cmd shown (parents thread.stack shown)
      some ((w.setThread t { thread with info, phase := .running }).finish t e)
  | .addBreakpoint file line bp => some { w with breakpoints := w.breakpoints.add file line bp }
  | .removeBreakpoints file => some { w with breakpoints := w.breakpoints.erase file }

end World

-- ---------------------------------------------------------------------------
-- What is traced
-- ---------------------------------------------------------------------------

/-- `frame.f_trace`: `PyDBFrame.trace_dispatch`, `PyDB.trace_dispatch`, which
comes to `ThreadTracer`, or `NO_FTRACE`, which removes itself. -/
inductive TraceFn where
  | none
  | noFtrace
  | frame
  | pydb
deriving DecidableEq, Repr

inductive Skip where
  | filtered
  | noBreakpoint
deriving DecidableEq, Repr

structure State where
  world : World := {}
  fTrace : Nat → Nat → TraceFn := fun _ _ => .none
  /-- `global_cache_skips`. -/
  skips : Dict Nat Skip := .empty
  /-- `global_cache_frame_skips`: whether a function has a breakpoint, and the
  lines that have none. -/
  frameSkips : Dict Nat Bool := .empty
  lineSkips : List (Nat × Int) := []

def State.setTrace (s : State) (t id : Nat) (fn : TraceFn) : State :=
  { s with fTrace := Function.update s.fTrace t (Function.update (s.fTrace t) id fn) }

/-- `pydev_step_cmd in (CMD_STEP_INTO, …, CMD_STEP_RETURN_MY_CODE)`. -/
def Info.looksBack (info : Info) : Bool := info.stepCmd.any fun cmd => cmd.kind ≠ .stepOver

def State.isCached (s : State) (info : Info) (f : Frame) (back : Option Frame) : Bool :=
  match s.skips.get? f.code.key, info.stepCmd with
  | none, _ => false
  | some _, none => true
  | some .noBreakpoint, some _ => false
  | some .filtered, some _ =>
    if info.looksBack then back.all fun b => s.skips.get? b.code.key == some .filtered else true

def State.noteLine (s : State) (c : Code) (e : Event) : State :=
  match e, breakpointAt s.world.breakpoints c e with
  | .line line, none => { s with lineSkips := (c.key, line) :: s.lineSkips }
  | _, _ => s

/-- What is left to do with an event: nothing, as the frame is not to be traced
or as the line is known, or the second half. -/
inductive Look where
  | skip
  | keep
  | further
deriving DecidableEq, Repr

namespace Settings

variable (S : Settings)

/-- `set_trace_for_frame_and_parents`. -/
def retrace (frames : List Frame) (fTrace : Nat → TraceFn) : Nat → TraceFn := fun id =>
  if frames.any fun f => f.id == id && S.fileType f.code == none then .pydb else fTrace id

/-- `can_skip`; `stop_frame` and `step_cmd` are from before the return is seen. -/
def canSkip (step info : Info) (f : Frame) (back : Option Frame) : Bool :=
  let skip := match step.stepCmd with
    | none => true
    | some ⟨.stepInto, false⟩ => false
    | some ⟨.stepInto, true⟩ =>
      S.applyFilesFilter f.code true && back.all fun b => S.applyFilesFilter b.code true
    | some _ => step.stepStop != some f.id
  skip && !(S.showReturnValues && info.stepCmd.any (·.kind = .stepOver) &&
    step.stepStop == back.map Frame.id)

/-- The first half of `PyDBFrame.trace_dispatch`. -/
def firstLook (s : State) (step info : Info) (f : Frame) (back : Option Frame) : Look × State :=
  let canSkip := S.canSkip step info f back
  match s.world.breakpoints.get? f.code.file with
  | none => (if canSkip then .skip else .further, s)
  | some lines =>
    if lines.keys = [] then (if canSkip then .skip else .further, s)
    else if canSkip && (f.code.key, f.line) ∈ s.lineSkips then (.keep, s)
    else match s.frameSkips.get? f.code.key with
      | some has => (if canSkip && !has then .skip else .further, s)
      | none =>
        let has := lines.keys.any (· ∈ f.code.lines)
        (if canSkip && !has then .skip else .further,
          { s with frameSkips := s.frameSkips.set f.code.key has })

/-- `PyDBFrame.trace_dispatch`, up to the wait, and whether it goes on tracing
the frame. -/
def traceDispatch (s : State) (t : Nat) (f : Frame) (back : Option Frame) (e : Event)
    (condition : Bool) : Bool × State :=
  let thread := s.world.threads t
  let info := thread.info.onReturn f e
  let (look, s) := if e = .exception then (.further, s) else S.firstLook s thread.info info f back
  match look with
  | .skip => (false, { s with world := s.world.setThread t { thread with info } })
  | .keep => (true, { s with world := s.world.setThread t { thread with info } })
  | .further =>
    let next := S.look s.world.breakpoints condition f back e thread
    (true, { s.noteLine f.code e with world := s.world.setThread t next })

/-- The call of `trace_dispatch` at the end of `ThreadTracer`. -/
def enter (s : State) (t : Nat) (f : Frame) (back : Option Frame) (e : Event) (condition : Bool) :
    Bool × State :=
  let (kept, s) := S.traceDispatch s t f back e condition
  match kept, e with
  | false, .call _ => (false, { s with skips := s.skips.set f.code.key .noBreakpoint })
  | _, _ => (kept, s)

def threadTracer (s : State) (t : Nat) (f : Frame) (back : Option Frame) (e : Event)
    (condition : Bool) : Bool × State :=
  let info := (s.world.threads t).info
  let filtered := { s with skips := s.skips.set f.code.key .filtered }
  if s.isCached info f back then (false, s)
  else if S.fileType f.code = some .pydev then (false, filtered)
  else if S.fileType f.code = some .lib ∧ S.inProjectScope f.code = false then (false, filtered)
  else if S.isFilesFilterEnabled && S.applyFilesFilter f.code false then
    match back with
    | some b =>
      if info.looksBack then
        if S.applyFilesFilter b.code false then
          (false, { filtered with skips := filtered.skips.set b.code.key .filtered })
        else S.enter filtered t f back e condition
      else (false, filtered)
    | none => (false, filtered)
  else S.enter s t f back e condition

end Settings

namespace State

/-- What a trace function returns is the next one. If it waits, it has not
returned yet. -/
def put (t : Nat) (f : Frame) (skipped : TraceFn) : Bool × State → State
  | (kept, s) => match (s.world.threads t).phase with
    | .running => s.setTrace t f.id (if kept then .frame else skipped)
    | .waiting _ _ => s

def trace (S : Settings) (s : State) (t : Nat) (e : Event) (condition : Bool) : State :=
  match (s.world.threads t).stack with
  | [] => s
  | f :: stack =>
    match e, s.fTrace t f.id with
    | .call _, _ => put t f .none (S.threadTracer s t f stack.head? e condition)
    | _, .none => s
    | _, .noFtrace => s.setTrace t f.id .none
    | _, .frame => put t f .noFtrace (S.traceDispatch s t f stack.head? e condition)
    | _, .pydb => put t f .noFtrace (S.threadTracer s t f stack.head? e condition)

def step (S : Settings) (s : State) : Label → Option State
  | .event t e condition => (s.world.start S t e).map fun world =>
    let s := { s with world }.trace S t e condition
    { s with world := s.world.finish t e }
  | .resume t cmd =>
    let thread := s.world.threads t
    match thread.phase with
    | .running => none
    | .waiting e shown =>
      let (info, frames) := S.resumed cmd shown (parents thread.stack shown)
      let fTrace := Function.update s.fTrace t (S.retrace frames (s.fTrace t))
      -- the handler returns `self.trace_dispatch`
      let s := thread.stack.head?.elim { s with fTrace } fun f => { s with fTrace }.setTrace t f.id .frame
      some { s with world := (s.world.setThread t { thread with info, phase := .running }).finish t e }
  | .addBreakpoint file line bp => some
    { world := { s.world with breakpoints := s.world.breakpoints.add file line bp }
      fTrace := fun t => S.retrace (s.world.threads t).stack (s.fTrace t)
      skips := .empty
      frameSkips := .empty
      lineSkips := [] }
  | .removeBreakpoints file => some
    { s with world := { s.world with breakpoints := s.world.breakpoints.erase file } }

end State

end Debugpy.Pydevd.Tracing
