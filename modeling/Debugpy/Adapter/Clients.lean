import Debugpy.Adapter.Launch
import Mathlib.Data.List.Infix

/-!
# The request handlers of the client

All the handlers of `adapter/clients.py` except those that start a session,
and `Client.notify_of_subprocess`, whose first half holds the session's lock.
-/

namespace Debugpy.Adapter

open Proc (raise exit block tryExcept)

/-- `Request._handle` with a handler that is decorated. -/
def Request.run (r : Request) (f : Code Result) : Code Unit :=
  r.handle (messageHandler (.received r.id) r.cantHandle f)

def Refuses (r : Request) (p : Code Unit) (w : World) : Prop :=
  ∃ e, p.run w = (.ok (), (w.tick.sent (.response r (.error e))).respond r (.error e))

def Raises (p : Code α) (w : World) : Prop := ∃ e w', p.run w = (.error (.raised e), w')

section
variable {r : Request} {w w' : World} {f : Code Result}

theorem run_ok (h : f.run w = (.ok a, w')) : (r.run f).run w = (r.conclude a).run w' :=
  handle_ok (messageHandler_ok h)

theorem run_raises (h : f.run w = (.error (.raised e), w')) (he : passes e = true) :
    Raises (r.run f) w := by
  refine ⟨e, w', handle_raised (messageHandler_passes h he) ?_⟩
  simp only [passes, Bool.and_eq_true, Bool.not_eq_true'] at he
  exact he.2

theorem run_gone_mute (h : f.run w = (.error (.raised e), w')) (he : isGone e = true)
    (hm : Mute r w') : Raises (r.run f) w := by
  obtain ⟨reason, hrun⟩ := messageHandler_gone h he
  obtain ⟨e', w'', herr, hmh⟩ : ∃ e' w'', (r.error false reason).run w' = (.error (.raised e'), w'') ∧
      e'.isMessageHandling = false := error_mute hm
  refine ⟨e', w'', handle_raised (hrun.trans ?_) hmh⟩
  rw [Proc.run_bind, Request.cantHandle, herr]

theorem Fails.run (h : Fails f w) : Raises (r.run f) w := by
  obtain ⟨e, w', hf, he, hs⟩ := h
  exact run_gone_mute hf he (.inl hs)

theorem run_stopped (h : f.run w = (.error e, w')) (he : ∀ x, e ≠ .raised x) :
    (r.run f).run w = (.error e, w') := by
  cases e with
  | raised x => exact absurd rfl (he x)
  | exited | blocked =>
    rw [Request.run, Request.handle, Proc.run_bind, Proc.run_tryExcept, messageHandler,
      Proc.run_tryExcept, h]

theorem run_congr {f g : Code Result} (h : f.run w = g.run w') :
    (r.run f).run w = (r.run g).run w' := by
  simp only [Request.run, Request.handle, Proc.run_bind, Proc.run_tryExcept, messageHandler, h]

theorem run_returns {p : Code Unit} (h : p.run w = (a, w')) (ha : ∀ e, a ≠ .error (.raised e))
    (hr : (w'.responses r.id).isSome) :
    (r.run (p >>= fun _ => pure .none)).run w = (a, w') := by
  cases a with
  | ok a =>
    have hf : (p >>= fun _ => pure .none : Code Result).run w = (.ok .none, w') := by
      rw [Proc.run_bind, h]
      rfl
    rw [run_ok hf, conclude_none hr]
  | error e =>
    have hf : (p >>= fun _ => pure .none : Code Result).run w = (.error e, w') := by
      rw [Proc.run_bind, h]
    exact run_stopped hf fun x hx => ha x (hx ▸ rfl)

/-- An error response to a request that the adapter has made becomes one of
this request. -/
theorem run_made (h : f.run w =
      (.error (.raised (.messageHandling uid invalid reason (some (.made n)))), w')) :
    (r.run f).run w = (r.conclude (.error (w'.nextError r invalid reason))).run w'.tick := by
  refine handle_error ?_ (by simp [appliesTo])
  rw [messageHandler, Proc.run_tryExcept, h]
  rfl

theorem run_gone (h : f.run w = (.error (.raised e), w')) (he : isGone e = true)
    (hr : w'.responses r.id = none) (hs : w'.outlet.spent = false) :
    ∃ e, (r.run f).run w =
      (.ok (), (w'.tick.sent (.response r (.error e))).respond r (.error e)) := by
  obtain ⟨reason, hgone⟩ := messageHandler_gone h he
  let e := w'.nextError r false reason
  let w'' := (w'.tick.sent (.response r (.error e))).respond r (.error e)
  have hf : (messageHandler (.received r.id) r.cantHandle f).run w =
      (.error (.raised e), w'') := by
    rw [hgone, Request.cantHandle, Proc.run_bind, error_ok hr hs]
    rfl
  have hrun : (r.run f).run w = (r.conclude (.error e)).run w'' :=
    handle_error hf (by simp [appliesTo])
  exact ⟨e, hrun.trans (conclude_error (by simp [w'']))⟩

theorem run_invalid (h : f.run w = (do raise (← r.isntValid reason) : Code Result).run w)
    (hr : w.responses r.id = none) (hs : w.outlet.spent = false) : Refuses r (r.run f) w := by
  let e := w.nextError r true reason
  let w' := (w.tick.sent (.response r (.error e))).respond r (.error e)
  have hf : (messageHandler (.received r.id) r.cantHandle f).run w = (.error (.raised e), w') := by
    rw [messageHandler, Proc.run_tryExcept, h, Request.isntValid, Proc.run_bind, error_ok hr hs]
    simp [World.nextError, e, w']
  have hrun : (r.run f).run w = (r.conclude (.error e)).run w' :=
    handle_error hf (by simp [appliesTo])
  exact ⟨e, hrun.trans (conclude_error (by simp [w']))⟩

end

-- ---------------------------------------------------------------------------
-- initialize
-- ---------------------------------------------------------------------------

def Client.properties : List (String × Validator) :=
  ["supportsVariableType", "supportsVariablePaging", "supportsRunInTerminalRequest",
    "supportsMemoryReferences", "supportsArgsCanBeInterpretedByShell",
    "supportsStartDebuggingRequest"].map (flag · false)

def Client.expectationProperties : List (String × Validator) :=
  [("locale", Json.default (.str "en-US")), flag "linesStartAt1" true, flag "columnsStartAt1" true,
    ("pathFormat", Json.enum ["path"] true)]

def exceptionFilter (name label : String) (isDefault : Bool) (description : String) : Json :=
  .dict [("filter", .str name), ("label", .str label), ("default", .bool isDefault),
    ("description", .str description)]

def initializeBody : Json :=
  .dict <|
    ["supportsCompletionsRequest", "supportsConditionalBreakpoints",
      "supportsConfigurationDoneRequest", "supportsDebuggerProperties",
      "supportsDelayedStackTraceLoading", "supportsEvaluateForHovers",
      "supportsExceptionInfoRequest", "supportsExceptionOptions", "supportsFunctionBreakpoints",
      "supportsHitConditionalBreakpoints", "supportsLogPoints", "supportsModulesRequest",
      "supportsSetExpression", "supportsSetVariable", "supportsValueFormattingOptions",
      "supportsTerminateDebuggee", "supportsTerminateRequest", "supportsGotoTargetsRequest",
      "supportsClipboardContext"].map (·, .bool true) ++
    [("exceptionBreakpointFilters", .list [
        exceptionFilter "raised" "Raised Exceptions" false "Break whenever any exception is raised.",
        exceptionFilter "uncaught" "Uncaught Exceptions" true
          "Break when the process is exiting due to unhandled exception.",
        exceptionFilter "userUnhandled" "User Uncaught Exceptions" false
          "Break when exception escapes into library code."]),
      ("supportsStepInTargetsRequest", .bool true)]

/-- `initialize_request`. The validator of `"clientID"` is falsy, so any value
will do. -/
def initializeRequest (r : Request) : Code Result := do
  if (← get).client.initializeRequest.isSome then
    raise (← r.isntValid "Session is already initialized")
  else do
    let clientId ← r.call "clientID" .ok
    modifyClient fun c => { c with clientId := some clientId }
    let capabilities ← parseCapabilities r.isntValid r.items Client.properties
    modifyClient fun c => { c with capabilities := some capabilities }
    let expectations ← parseCapabilities r.isntValid r.items Client.expectationProperties
    modifyClient fun c => { c with expectations := some expectations }
    modifyClient fun c => { c with initializeRequest := some r }
    return .body initializeBody

-- ---------------------------------------------------------------------------
-- notify_of_subprocess
-- ---------------------------------------------------------------------------

/-- `key in value`, for a value that need not be a dict. -/
def contains (key : String) : Json → Except Exn Bool
  | .dict d => .ok (Json.get? d key).isSome
  | .list xs => .ok (xs.any fun | .str s => s == key | _ => false)
  | .str s => .ok (decide (key.toList <:+: s.toList))
  | _ => .error (.typeError "argument is not iterable")

/-- `value[key] = item`. -/
def setItem (value : Json) (key : String) (item : Json) : Except Exn Json :=
  match value with
  | .dict d => .ok (.dict (Json.set d key item))
  | _ => .error (.typeError "object does not support item assignment")

/-- `if key not in value: value[key] = item`. -/
def addItem (value : Json) (key : String) (item : Except Exn Json) : Except Exn Json := do
  if ← contains key value then return value else setItem value key (← item)

/-- `host or localhost`. -/
def connectHost (w : World) (items : Items) : Json :=
  ((Json.get? items "host").filter Json.truthy).getD (.str w.env.localhost)

def connectPort (w : World) (items : Items) : Except Exn Json :=
  match Json.get? items "port", w.clientListener with
  | none, some address | some .null, some address => .ok (.int address.2)
  | none, none | some .null, none => .error (.attributeError "no attribute 'getsockname'")
  | some port, _ => .ok port

def connectBody (w : World) (items : Items) : Except Exn Json := do
  let connect ← addItem ((Json.get? items "connect").getD (.dict [])) "host"
    (.ok (connectHost w items))
  addItem connect "port" (connectPort w items)

def assigned (value : Json) (key : String) (item : Except Exn Json) : Property :=
  match contains key value, item with
  | .ok false, .ok item => (setItem value key item).toOption
  | _, _ => none

/-- The value of `"connect"`, which is not copied, if it is assigned to. An
assignment stays if the next one raises. -/
def filledConnect (w : World) (items : Items) : Property := do
  let connect ← Json.get? items "connect"
  match addItem connect "host" (.ok (connectHost w items)) with
  | .error _ => none
  | .ok filled =>
    assigned filled "port" (connectPort w items) <|>
      assigned connect "host" (.ok (connectHost w items))

def subprocessItems (pid : Int) (items : Items) : Items :=
  let items := ["processId", "listen", "preLaunchTask", "postDebugTask", "request",
    "restart"].foldl Json.erase items
  let items := Json.set items "name" (.str ("Subprocess " ++ toString pid))
  let items := Json.set items "subProcessId" (.int pid)
  ["args", "processName", "pythonArgs"].foldl Json.erase items

/-- The configuration that the client is to attach to the subprocess with. -/
def subprocessBody (w : World) (c : Nat) (items : Items) : Except Exn Items := do
  let items := subprocessItems (w.conns c).pid items
  return Json.set (["host", "port"].foldl Json.erase items) "connect" (← connectBody w items)

def ofExcept : Except Exn α → Code α
  | .ok a => pure a
  | .error e => raise e

@[simps] def Client.know (client : Client) (c : Nat) : Client :=
  { client with knownSubprocesses := client.knownSubprocesses ++ [c] }

/-- The first half of `notify_of_subprocess`: the arguments of the start
request, unless it is to return at once. -/
def noticeSubprocess (c : Nat) : Code (Option Items) := do
  let w ← get
  match w.client.startRequest with
  | none => return none
  | some start =>
    if w.client.knownSubprocesses.contains c then return none
    else if ← ofExcept (contains "processId" start.arguments) then return none
    else do
      modifyClient fun client => client.know c
      return some start.items

def Client.shareConnect (client : Client) (connect : Property) : Client :=
  match client.startRequest, connect with
  | some start, some connect => match start.arguments with
    | .dict d =>
      if (Json.get? d "connect").isSome then
        let start := { start with arguments := .dict (Json.set d "connect" connect) }
        { client with startRequest := some start }
      else client
    | _ => client
  | _, _ => client

structure Request.Like (r r' : Request) : Prop where
  id : r'.id = r.id
  command : r'.command = r.command

theorem Request.Like.refl (r : Request) : r.Like r := ⟨rfl, rfl⟩

theorem shareConnect_keeps (c : Client) (connect : Property) :
    (c.shareConnect connect).deferredEvents = c.deferredEvents ∧
      (c.shareConnect connect).startRequest.map (·.id) = c.startRequest.map (·.id) ∧
      (c.shareConnect connect).isConnected = c.isConnected := by
  unfold Client.shareConnect
  split
  · next hs =>
    split
    · split
      · exact ⟨rfl, by simp [hs], rfl⟩
      · exact ⟨rfl, rfl, rfl⟩
    · exact ⟨rfl, rfl, rfl⟩
  · exact ⟨rfl, rfl, rfl⟩

theorem shareConnect_start (c : Client) (connect : Property) :
    ∃ start, c.shareConnect connect = { c with startRequest := start } ∧
      ∀ r' ∈ start, ∃ r ∈ c.startRequest, r.Like r' := by
  have hsame : ∃ start, c = { c with startRequest := start } ∧
      ∀ r' ∈ start, ∃ r ∈ c.startRequest, r.Like r' :=
    ⟨c.startRequest, rfl, fun r hr => ⟨r, hr, .refl r⟩⟩
  unfold Client.shareConnect
  split
  · next start _ hs =>
    split
    · split
      · refine ⟨some _, rfl, fun r' hr' => ⟨start, hs, ?_⟩⟩
        cases hr'
        exact ⟨rfl, rfl⟩
      · exact hsame
    · exact hsame
  · exact hsame

def reportSubprocess (c : Nat) (items : Items) : Code Unit := do
  let w ← get
  modifyClient fun client => client.shareConnect (filledConnect w items)
  let body ← ofExcept (subprocessBody w c items)
  if ← capability "supportsStartDebuggingRequest" then
    write (.request "startDebugging"
      (.dict [("request", .str "attach"), ("configuration", .dict body)]))
    let _ ← (w.env.clientReply c).get w.clientName
  else sendEvent "debugpyAttach" (.dict (Json.set body "request" (.str "attach")))

def notifyOfSubprocess (c : Nat) : Code Unit := do
  match ← noticeSubprocess c with
  | none => pure ()
  | some items => reportSubprocess c items

-- ---------------------------------------------------------------------------
-- configurationDone
-- ---------------------------------------------------------------------------

/-- `self.start_request`, where it is used. -/
def withStartRequest (f : Request → Code α) : Code α := do
  match (← get).client.startRequest with
  | some start => f start
  | none => raise (.attributeError "'NoneType' object has no attribute")

@[simps] def Client.begin (c : Client) : Client := { c with hasStarted := true }

/-- The `try` of `configurationDone_request`, without its handlers and
`finally`; the result is whether the handler has returned. -/
def answerConfigurationDone (r : Request) : Code Bool := do
  modifyClient Client.begin
  let result ← tryExcept (some <$> r.delegate) fun
    | .noMoreMessages .. => some do
      r.respond (.ok (.dict []))
      withStartRequest fun start => start.respond (.ok (.dict []))
      finalize none (.responded r)
      return none
    | _ => none
  match result with
  | none => return true
  | some body => do
    r.respond (.ok body)
    return false

/-- `self.start_request.cant_handle(str(exc))`. -/
def failStart (exc : Exn) : Code Unit :=
  withStartRequest fun start => match formatNoArgs exc.str.toList with
    | some reason => do let _ ← start.cantHandle (String.ofList reason)
    | none => raise .formatError

/-- The `finally` clause. -/
def settleStart : Code Unit :=
  withStartRequest fun start => do
    if ((← get).responses start.id).isNone then
      start.respond (.ok (.dict []))
      propagateDeferredEvents
    else pure ()

/-- Whether `configurationDone_request` is to report a connection. -/
def World.isChild (w : World) (c : Nat) : Bool :=
  !(w.conns c).attached && (w.conns c).ppid == w.pid

def notifyAll : List Nat → Code Unit
  | [] => pure ()
  | c :: cs => do
    let w ← get
    Proc.when (w.isChild c) (notifyOfSubprocess c)
    notifyAll cs

/-- The `try` statement of `configurationDone_request`. -/
def settleConfiguration (r : Request) : Code Bool :=
  Proc.tryFinally
    (tryExcept (answerConfigurationDone r) fun
      | .messageHandling uid invalid reason cause => some do
        failStart (.messageHandling uid invalid reason cause)
        return false
      | _ => none)
    settleStart

def configurationDoneRequest (r : Request) : Code Result := do
  let w ← get
  Proc.when (w.client.startRequest.isNone || w.client.hasStarted) do
    let _ ← r.cantHandle ("\"configurationDone\" is only allowed during handling of a \"launch\" " ++
      "or an \"attach\" request")
  if ← settleConfiguration r then return .none
  else do
    notifyAll (← get).connections
    return .none

-- ---------------------------------------------------------------------------
-- Other requests
-- ---------------------------------------------------------------------------

def genericRequest (r : Request) : Code Result := return .body (← r.delegate)

def clientEvent (e : Event) : Code Unit := do
  let w ← get
  if w.server.isNone then pure ()
  else match w.env.reply with
    | .lost => raise (.noMoreMessages w.serverName "")
    | .broken => raise (.jsonIOError w.serverName "")
    | _ => modify fun w => w.asked e.event e.body

def Reply.toBody (stream : String) : Reply → Code (Except Exn Json)
  | .success body => return .ok body
  | .failure invalid reason => do
    let request ← newUid
    return .error (.messageHandling (← newUid) invalid reason (some (.made request)))
  | .lost | .broken => return .error (.noMoreMessages stream "")

def evaluated (r : Request) (reply : Reply) : Code Unit := do
  r.respond (← reply.toBody (← get).serverName)

def evaluateRequest (r : Request) : Code Result := do
  let w ← get
  if w.server.isNone then raise (.componentNotAvailable "Server")
  else match w.env.reply with
    | .lost => raise (.noMoreMessages w.serverName "")
    | .broken => raise (.jsonIOError w.serverName "")
    | _ => do
      modify fun w => w.asked r.command r.arguments
      match w.env.early with
      | none => modify fun w => { w with evaluating := w.evaluating ++ [r] }
      | some reply => exitOnError (evaluated r reply)
      return .noResponse

def pauseRequest (r : Request) : Code Result := do
  let r ← r.setArgument "threadId" (.str "*")
  return .body (← r.delegate)

def continueRequest (r : Request) : Code Result := do
  let r ← r.setArgument "threadId" (.str "*")
  tryExcept (do return .body (← r.delegate)) fun
    | .noMoreMessages .. => some (pure (.body (.dict [("allThreadsContinued", .bool true)])))
    | _ => none

/-- An element of an iterable that `dict.update` takes, with a string as its
key. -/
def asPair : Json → Option (String × Json)
  | .list [.str key, value] => some (key, value)
  | .str s => match s.toList with
    | [key, value] => some (String.singleton key, .str (String.singleton value))
    | _ => none
  | _ => none

def update (items : Items) : Json → Except Exn Items
  | .dict d => .ok (d.foldl (fun items p => Json.set items p.1 p.2) items)
  | .list xs => match xs.mapM asPair with
    | some ps => .ok (ps.foldl (fun items p => Json.set items p.1 p.2) items)
    | none => .error (.typeError "cannot convert dictionary update sequence")
  | .str "" => .ok items
  | _ => .error (.typeError "object is not iterable")

def systemInfoRequest : Code Result := do
  let w ← get
  let result := [("debugpy", .dict [("version", .str w.env.version)])]
  if w.server.isNone then return .body (.dict result)
  else do
    let info ← tryExcept (some <$> askServer "pydevdSystemInfo" .null w.env.reply) fun _ =>
      some (pure none)
    match info with
    | none => return .body (.dict result)
    | some info => return .body (.dict (← ofExcept (update result info)))

def terminateRequest (r : Request) : Code Result := do
  modifyClient fun c => { c with restartRequested := false }
  if (← get).client.forwardTerminateRequest then return .body (← r.delegate)
  else do
    finalize (some true) (.terminate r)
    return .body (.dict [])

/-- `disconnect_request`, after `finalize`. Closing the connections to the
servers is left to the servers' own `Disconnect`s. -/
def afterDisconnect (r : Request) : Code Result := do
  r.respond (.ok (.dict []))
  Proc.when (← get).client.usingStdio stopServing
  modify fun w => { w with outlet := { left := some 0, loss := .closed } }
  return .none

def disconnectRequest (r : Request) : Code Result := do
  modifyClient fun c => { c with restartRequested := false }
  let terminateDebuggee ← r.call "terminateDebuggee" optionalBool
  finalize (terminateDebuggee.map fun b => asBool (some b)) (.disconnect r)
  afterDisconnect r

-- ---------------------------------------------------------------------------
-- All requests
-- ---------------------------------------------------------------------------

/-- `_get_handler_for`, of the client. Three attributes that are no handlers
have a name that ends in `_request`. -/
def clientHandler (r : Request) : Code Result :=
  match r.command with
  | "initialize" => initializeRequest r
  | "launch" => startMessageHandler launchRequest r
  | "attach" => startMessageHandler attachRequest r
  | "configurationDone" => configurationDoneRequest r
  | "evaluate" => evaluateRequest r
  | "pause" => pauseRequest r
  | "continue" => continueRequest r
  | "debugpySystemInfo" => systemInfoRequest
  | "terminate" => terminateRequest r
  | "disconnect" => disconnectRequest r
  | _ => genericRequest r

def isNoHandler (command : String) : Bool :=
  command == "start" || command == "_initialize" || command == "_forward_terminate"

def handleRequest (r : Request) : Code Unit :=
  if isNoHandler r.command then raise (.typeError "object is not callable")
  else r.run (clientHandler r)

end Debugpy.Adapter
