import Debugpy.Adapter.Start

/-!
# The bodies of "launch" and "attach"

Validation of the arguments in the order of the source, and the stages of
`launchers.spawn_debuggee` and of `servers.wait_for_connection`.
-/

namespace Debugpy.Adapter

open Proc (raise exit block tryExcept)

def capability (key : String) : Code Bool := do
  match (← get).client.capabilities with
  | some items => return (Json.get? items key).any Json.truthy
  | none => raise (.attributeError "object has no attribute 'capabilities'")

def isKeyboardInterrupt : Property → Bool
  | some (.str s) => s == "KeyboardInterrupt"
  | _ => false

def forwardTerminate (onTerminate : Property) : Code Unit :=
  if Json.toBool onTerminate then
    modifyClient fun c => { c with forwardTerminateRequest := isKeyboardInterrupt onTerminate }
  else pure ()

def World.name (w : World) : String := "Session[" ++ toString w.id ++ "]"

-- ---------------------------------------------------------------------------
-- spawn_debuggee
-- ---------------------------------------------------------------------------

/-- The `finally` clause. -/
def closeLauncherListener : Code Unit := do
  modify fun w => { w with launcherListener := none }
  reportSockets

/-- After `wait_for_connection`. -/
def attachSpawned (r : Request) : Code Unit := do
  match (← get).findConnection none with
  | some c => attachToSession c
  | none => raise (← r.cantHandle "Timed out waiting for debuggee to spawn")

/-- After the wait for the `"process"` event. -/
def awaitConnection (s : Start) : Code Unit := do
  let w ← get
  if (w.launcher.bind (·.pid)).isNone then
    raise (← s.request.cantHandle "Timed out waiting for \"process\" event from launcher")
  else if w.noDebug then pure ()
  else if (w.findConnection none).isSome then attachSpawned s.request
  else suspend (.connection s)

def startLauncher (s : Start) : Code Unit := do
  let w ← get
  if w.launcher.isNone then
    raise (← s.request.cantHandle "Timed out waiting for launcher to connect")
  else do
    let _ ← tryExcept (w.env.launcherReply.get w.launcherName) fun
      | .messageHandling _ invalid reason _ =>
        some (propagateError invalid reason (.received s.request.id))
      | _ => none
    if (w.launcher.bind (·.pid)).isSome then awaitConnection s else suspend (.process s)

def requireCapability (key : String) : Code Unit := do
  if ← capability key then pure ()
  else raise (.messageHandling (← newUid) false
    ("Client does not have capability " ++ Json.repr key) none)

/-- The launcher is started, by the adapter or in a terminal of the client. -/
def spawnLauncher (r : Request) (console : String) : Code Unit := do
  let env := (← get).env
  if console = "internalConsole" then
    match env.spawn with
    | .ok () => pure ()
    | .error e => raise (← r.cantHandle ("Failed to spawn launcher: " ++ e.str))
  else do
    requireCapability "supportsRunInTerminalRequest"
    write (.request "runInTerminal" env.terminal)

def spawnDebuggee (s : Start) (console : String) (asSudo : Bool) : Code Unit := do
  let w ← get
  match w.env.listenLauncher with
  | .error e =>
    raise (← s.request.cantHandle
      (w.name ++ " couldn't create listener socket for launcher: " ++ e.str))
  | .ok address => do
    modify fun w => { w with launcherListener := some address }
    reportSockets
    Proc.tryFinally (do
        spawnLauncher s.request console
        if (← get).launcher.isSome then startLauncher s else suspend (.launcher s asSudo))
      closeLauncherListener

-- ---------------------------------------------------------------------------
-- launch
-- ---------------------------------------------------------------------------

def propertyOrDebugOption (s : Start) (property flag : String) : Code Bool := do
  let value ← s.request.call property optionalBool
  if s.debugOptions.contains flag then
    match value with
    | some (.bool false) => raise (← s.request.isntValid
        (Json.repr property ++ ":false and \"debugOptions\":[" ++ Json.repr flag ++
          "] are mutually exclusive"))
    | _ => return true
  else return Json.toBool value

/-- The properties `"python"` and `"pythonArgs"`. -/
def readPython (r : Request) : Code Request := do
  if r.has "python" && r.has "pythonPath" then
    raise (← r.isntValid "\"pythonPath\" is not valid if \"python\" is specified")
  else do
    let key := if !r.has "python" && r.has "pythonPath" then "pythonPath" else "python"
    let python ← r.call key (arrayOfStr true (.atLeast 0))
    let pythonArgs ← r.call "pythonArgs" (arrayOfStr false (.atLeast 0))
    let w ← get
    let python := if (strings python).isEmpty then [w.env.executable] else strings python
    let python := python ++ strings pythonArgs
    let r ← r.setArgument "pythonArgs" (.list (python.tail.map .str))
    let r ← r.setArgument "python" (.list (python.map .str))
    let _ ← r.call "debugLauncherPython" (Json.ofType [.cls .str] true)
    return r

/-- `if key in request`: the property is validated and names the process. -/
def readTarget (r : Request) (key : String) (validate : Validator) (name : Property → Json) :
    Code Request := do
  if r.has key then
    let value ← r.call key validate
    r.setArgument "processName" (name value)
  else return r

/-- The properties `"program"`, `"module"` and `"code"`. -/
def readTargets (r : Request) : Code Request := do
  let r ← readTarget r "program" isStr asJson
  let r ← readTarget r "module" isStr asJson
  let r ← readTarget r "code" (arrayOfStr true (.atLeast 1)) fun _ => .str "-c"
  match (["program", "module", "code"].filter r.has).length with
  | 0 => raise (← r.isntValid "either \"program\", \"module\", or \"code\" must be specified")
  | 1 => return r
  | _ => raise (← r.isntValid "\"program\", \"module\", and \"code\" are mutually exclusive")

def consoles : List String := ["internalConsole", "integratedTerminal", "externalTerminal"]

/-- The properties `"console"`, `"consoleTitle"` and `"args"`. -/
def readConsole (r : Request) : Code String := do
  let console ← r.call "console" (Json.enum consoles true)
  let _ ← r.call "consoleTitle" (Json.default (.str "Python Debug Console"))
  let args ← r.call "args" (arrayOfStr true .any)
  let isStr := match Json.get? r.items "args" with
    | some (.str _) => true
    | _ => false
  if !(strings args).isEmpty && isStr then
    if !(← capability "supportsArgsCanBeInterpretedByShell") then
      raise (← r.isntValid "Shell expansion in \"args\" is not supported by the client")
    else if asStr console = "internalConsole" then
      raise (← r.isntValid
        "Shell expansion in \"args\" is not available for \"console\":\"internalConsole\"")
    else return asStr console
  else return asStr console

/-- `servers.serve` in `try`; `"{0}"` is the session. -/
def serveLaunch (r : Request) : Code Unit :=
  tryExcept (do let _ ← serve) fun e => some do
    let w ← get
    raise (← r.cantHandle (w.name ++ " couldn't create listener socket for servers: " ++ e.str))

def launchRequest (s : Start) : Code Start := do
  let w ← get
  if w.id != 1 || !w.connections.isEmpty then
    raise (← s.request.cantHandle "\"attach\" expected")
  else do
    let r ← readPython s.request
    let r ← readTargets r
    let console ← readConsole r
    let _ ← r.call "cwd" optionalStr
    let s := { s with request := r }
    let asSudo ← propertyOrDebugOption s "sudo" "Sudo"
    if asSudo && w.env.isWindows then
      raise (← r.cantHandle "\"sudo\":true is not supported on Windows.")
    else do
      forwardTerminate (← r.call "onTerminate" optionalStr)
      let _ ← r.call "debugLauncherPath" (Json.default (.str w.env.launcherDir))
      let _ ← r.call "debugAdapterHost" (Json.default (.str w.env.localhost))
      serveLaunch r
      spawnDebuggee s console asSudo
      return s

-- ---------------------------------------------------------------------------
-- attach
-- ---------------------------------------------------------------------------

structure AttachArguments where
  host : Property
  port : Property
  listen : Property
  connect : Property
  pid : Property
  subPid : Property

def readAttach (r : Request) : Code AttachArguments := do
  let host ← r.call "host" optionalStr
  let port ← r.call "port" optionalInt
  let listen ← r.call "listen" optionalDict
  let connect ← r.call "connect" optionalDict
  let pid ← r.call "processId" (Json.ofType [.tuple [.int, .str]] true)
  let subPid ← r.call "subProcessId" optionalInt
  forwardTerminate (← r.call "onTerminate" optionalBool)
  return { host, port, listen, connect, pid, subPid }

def AttachArguments.conflict (a : AttachArguments) : Option String :=
  let address := a.host.isSome || a.port.isSome
  if address && a.listen.isSome then
    some "\"listen\" and \"host\"/\"port\" are mutually exclusive"
  else if address && a.connect.isSome then
    some "\"connect\" and \"host\"/\"port\" are mutually exclusive"
  else if a.listen.isSome && a.connect.isSome then
    some "\"listen\" and \"connect\" are mutually exclusive"
  else if a.listen.isSome && a.pid.isSome then
    some "\"listen\" and \"processId\" are mutually exclusive"
  else if a.listen.isSome && a.subPid.isSome then
    some "\"listen\" and \"subProcessId\" are mutually exclusive"
  else if a.pid.isSome && a.subPid.isSome then
    some "\"processId\" and \"subProcessId\" are mutually exclusive"
  else none

def listenForServer (r : Request) (listen : Property) : Code Address := do
  let w ← get
  match listen with
  | some listen =>
    if w.serverListener.isSome then
      raise (← r.isntValid "Multiple concurrent \"listen\" sessions are not supported")
    else do
      let _ ← callPayload r.isntValid listen "host" (Json.default (.str w.env.localhost))
      let _ ← callPayload r.isntValid listen "port" isInt
      modify fun w => { w with accessToken := none }
      let restart ← r.call "restart" .ok
      modifyClient fun c => { c with restartRequested := Json.toBool restart }
      serve
  | none => match w.serverListener with
    | some address => return address
    | none => serve

/-- `pid = int(pid)` in `try`. -/
def readPid (r : Request) (pid : Json) : Code Int := do
  match pid with
  | .str s => match PyInt.ofString s with
    | some pid => return pid
    | none => raise (← r.isntValid "\"processId\" must be parseable as int")
  | pid => return asInt (some pid)

def connName (w : World) (c : Nat) : String := "Server[pid=" ++ toString (w.conns c).pid ++ "]"

def attachConnection (s : Start) (timeout : Bool) (subPid : Property) (c : Option Nat) :
    Code Unit := do
  let r := s.request
  match c with
  | some c => tryExcept (attachToSession c) fun
    | .valueError _ => some do
      let w ← get
      let _ ← r.cantHandle (connName w c ++ " is already being debugged.")
    | _ => none
  | none =>
    if subPid.isSome then
      r.respond (.ok (.dict []))
      finalize none (.start s)
    else raise (← r.cantHandle (if timeout then "Timed out waiting for debug server to connect."
      else "There is no debug server connected to this adapter."))

/-- The process is injected with a debug server, if `"processId"` is given.
The result is `none` if that fails, else what process to wait for. -/
def injectServer (s : Start) (a : AttachArguments) : Code (Option (Option Int)) := do
  match a.pid with
  | none => return some (a.subPid.map fun p => asInt (some p))
  | some pid => do
    let pid ← readPid s.request pid
    let _ ← s.request.call "debugpyArgs" (arrayOfStr false .any)
    match (← get).env.inject with
    | .ok () => return some (some pid)
    | .error _ => do
      finalize none (.start s)
      return none

def attachRequest (s : Start) : Code Start := do
  let r := s.request
  if (← get).noDebug then raise (← r.isntValid "\"noDebug\" is not supported for \"attach\"")
  else do
    let a ← readAttach r
    match a.conflict with
    | some text => raise (← r.isntValid text)
    | none => do
      let (host, port) ← listenForServer r a.listen
      match ← injectServer s a with
      | none => return s
      | some pid => do
        sendEvent "debugpyWaitingForServer" (.dict [("host", .str host), ("port", .int port)])
        let w ← get
        match w.findConnection pid with
        | some c => attachConnection s a.listen.isNone a.subPid (some c)
        | none =>
          if a.subPid.isSome then attachConnection s false a.subPid none
          else suspend (.attach s pid a.listen.isNone a.subPid)
        return s

end Debugpy.Adapter
