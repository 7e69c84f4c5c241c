import Debugpy.Adapter.Session

/-!
# Starting a session

`"launch"` and `"attach"`: their common code, the validation of their
arguments, and the stages of `launchers.spawn_debuggee`. Each stage ends where
the handler waits, with what it is to go on with in `suspended`. The command
line of the launcher is left out, and so is what `request("cwd", …)` and the
like return where only that is made of it.
-/

namespace Debugpy.Adapter

open Proc (raise exit block tryExcept)

-- ---------------------------------------------------------------------------
-- Capabilities
-- ---------------------------------------------------------------------------

def Request.items (r : Request) : Items :=
  match r.arguments with
  | .dict d => d
  | _ => []

/-- `Capabilities.__init__`, for the payload of a message. -/
def parseCapabilities (isntValid : String → Code Exn) (payload : Items) :
    List (String × Validator) → Code Items
  | [] => pure []
  | (name, validate) :: properties => do
    match validate (Json.get? payload name) with
    | .ok (some value) => return (name, value) :: (← parseCapabilities isntValid payload properties)
    | .ok none => raise .assertionError
    | .error e => raise (← isntValid (Json.repr name ++ " " ++ e.str))

def flag (name : String) (value : Bool) : String × Validator := (name, Json.default (.bool value))

def Server.properties : List (String × Validator) :=
  ["supportsCompletionsRequest", "supportsConditionalBreakpoints",
    "supportsConfigurationDoneRequest", "supportsDataBreakpoints",
    "supportsDelayedStackTraceLoading", "supportsDisassembleRequest", "supportsEvaluateForHovers",
    "supportsExceptionInfoRequest", "supportsExceptionOptions", "supportsFunctionBreakpoints",
    "supportsGotoTargetsRequest", "supportsHitConditionalBreakpoints",
    "supportsLoadedSourcesRequest", "supportsLogPoints", "supportsModulesRequest",
    "supportsReadMemoryRequest", "supportsRestartFrame", "supportsRestartRequest",
    "supportsSetExpression", "supportsSetVariable", "supportsStepBack",
    "supportsStepInTargetsRequest"].map (flag · false) ++
  [flag "supportsTerminateRequest" true, flag "supportsTerminateThreadsRequest" false,
    flag "supportsValueFormattingOptions" false,
    ("exceptionBreakpointFilters", Json.default (.list [])),
    ("additionalModuleColumns", Json.default (.list [])),
    ("supportedChecksumAlgorithms", Json.default (.list []))]

-- ---------------------------------------------------------------------------
-- The server
-- ---------------------------------------------------------------------------

/-- `isnt_valid` of a response. -/
def responseError (reason : String) : Code Exn := do
  let response ← newUid
  return .messageHandling (← newUid) true reason (some (.made response))

def tokenMatches : Json → Option String → Bool
  | .str s, some token => s == token
  | .null, none => true
  | _, _ => false

def tokenJson (token : Option String) : Json := token.elim .null .str

def authenticate : Code Unit := do
  let w ← get
  if w.serverAccessToken.isNone && w.accessToken.isNone then pure ()
  else do
    let auth ← askServer "pydevdAuthorize"
      (.dict [("debugServerAccessToken", tokenJson w.serverAccessToken)]) w.env.authorizeReply
    match auth with
    | .dict d => match Json.get? d "clientAccessToken" with
      | some token =>
        if tokenMatches token w.accessToken then pure ()
        else raise (.runtimeError "Mismatched \"clientAccessToken\"; server not authorized.")
      | none => raise (← responseError "missing property 'clientAccessToken'")
    | _ => raise (.typeError "indices must be integers")

/-- The method `initialize` of `Server`. What it makes of the capabilities is never
read. -/
def initializeServer (request : Request) : Code Unit := do
  authenticate
  let w ← get
  match ← askServer request.command request.arguments w.env.initializeReply with
  | .dict payload => do
    let _ ← parseCapabilities responseError payload Server.properties
  | _ => raise (.attributeError "object has no attribute 'get'")

/-- `attach_to_session`, with the assertions of `Server.__init__`. -/
def attachToSession (c : Nat) : Code Unit := do
  let w ← get
  if (w.conns c).attached then raise (.valueError "")
  else if w.server.isSome || w.pid.isSome then raise .assertionError
  else set { setConn w c { w.conns c with attached := true } with
    server := some { connection := c }, pid := some (w.conns c).pid }

def World.findConnection (w : World) (pid : Option Int) : Option Nat :=
  w.connections.find? fun c => pid.all (· == (w.conns c).pid)

/-- The handler waits here. -/
def suspend (s : Suspended) : Code α := do
  modify fun w => { w with suspended := some s }
  block

-- ---------------------------------------------------------------------------
-- Common code
-- ---------------------------------------------------------------------------

def arrayOfStr (vectorize : Bool) (size : Json.Size) : Validator :=
  Json.array (.types (.cls .str)) vectorize size

def strings : Property → List String
  | some (.list xs) => xs.map fun x => asStr (some x)
  | _ => []

/-- The arguments for the server in a `"launch"` session, and whether they
are a copy of the request's. -/
def launchArguments (options : List String) (items : Items) : Bool × Items :=
  let isInternal := match Json.get? items "console" with
    | some (.str s) => s == "internalConsole"
    | _ => false
  let redirects := options.contains "RedirectOutput"
  let others := (options.filter (· != "RedirectOutput")).eraseDups
  let items := if redirects then Json.set items "debugOptions" (.list (others.map .str)) else items
  let redirected := (Json.get? items "redirectOutput").any Json.truthy
  let items := if redirected then Json.erase items "redirectOutput" else items
  (redirects || redirected,
    Json.set items "isOutputRedirected" (.bool (isInternal || redirects || redirected)))

/-- What the server is asked to start with, and the request with its own
arguments changed if they are not copied first. -/
def Start.serverArguments (s : Start) (isLaunch : Bool) : Json × Request :=
  match s.request.arguments with
  | .dict d =>
    if isLaunch then
      let (copied, items) := launchArguments s.debugOptions d
      (.dict items, if copied then s.request else { s.request with arguments := .dict items })
    else (.dict d, s.request)
  | arguments => (arguments, s.request)

/-- The start request is passed on to the server. The result is `none` if the
server disconnects instead of responding. -/
def startServer (s : Start) : Code (Option Request) := do
  let w ← get
  match w.client.initializeRequest with
  | none => raise .assertionError
  | some initializeRequest => do
    initializeServer initializeRequest
    modifyClient fun c => { c with initializeRequest := none }
    let (arguments, request) := s.serverArguments w.launcher.isSome
    tryExcept (do
        let _ ← askServer request.command arguments w.env.reply
        pure (some request)) fun
      | .noMoreMessages .. => some do
        request.respond (.ok (.dict []))
        finalize none (.responded request)
        pure none
      | .messageHandling _ invalid reason _ =>
        some (propagateError invalid reason (.received request.id))
      | _ => none

/-- The end of `_start_message_handler`'s `handle`. -/
def completeStart (request : Request) : Code Result := do
  if (← get).noDebug then
    modifyClient fun c => { c with startRequest := some request, hasStarted := true }
    request.respond (.ok (.dict []))
    propagateDeferredEvents
    return .none
  else
    sendEvent "initialized" (.dict [])
    modifyClient fun c => { c with startRequest := some request }
    return .noResponse

def afterStart (s : Start) : Code Result := do
  let w ← get
  if (w.responses s.request.id).isSome then return .none
  else if w.server.isSome then
    match ← startServer s with
    | none => return .none
    | some request => completeStart request
  else completeStart s.request

def startMessageHandler (f : Start → Code Start) (r : Request) : Code Result := do
  let w ← get
  if w.client.initializeRequest.isNone then
    raise (← r.isntValid "Session is not initialized yet")
  else if w.launcher.isSome || w.server.isSome then
    raise (← r.isntValid "Session is already started")
  else do
    modify fun w => { w with latestStart := some r.id }
    let noDebug ← r.call "noDebug" (Json.default (.bool false))
    modify fun w => { w with noDebug := asBool noDebug }
    let debugOptions ← r.call "debugOptions" (arrayOfStr false .any)
    let start ← f { request := r, debugOptions := strings debugOptions }
    afterStart start

end Debugpy.Adapter
