import Debugpy.Common.Json
import Debugpy.Lib.Proc
import Mathlib.Logic.Function.Basic

/-!
# Message channels and their parsers

The part of a `JsonMessageChannel` that its parser thread shares with the
other threads, and the three message parsers. Seqs are the keys of
`_sent_requests`; `requests` keeps the `OutgoingRequest` objects after they
leave that table, and `taken` the handlers after they leave the queue.
-/

namespace Debugpy

open Proc (raise exit tryExcept)

abbrev Items := List (String × Json)

structure Response where
  uid : Uid
  /-- `none` for a synthesized one. -/
  seq : Option Int
  requestSeq : Int
  command : String
  /-- An error stands for the exception object that is the body. -/
  body : Except Exn Json

def Response.success (r : Response) : Bool := r.body.isOk

/-- Callables registered with `on_response` are numbered. -/
structure OutgoingRequest where
  uid : Uid
  command : String
  response : Option Response := none
  responseHandlers : List Nat := []

/-- An entry of `_handler_queue`, the message with what is to be called. -/
inductive Handler where
  | event (seq : Int) (event : String) (body : Json)
  | request (seq : Int) (command : String) (arguments : Json)
  | responses (response : Response) (handlers : List Nat)
  | disconnect

structure Channel where
  name : String
  closed : Bool := false
  nextSeq : Int := 1
  nextUid : Uid := 0
  requests : Int → Option OutgoingRequest := fun _ => none
  sentRequests : List Int := []
  handlerQueue : List Handler := []
  taken : List Handler := []
  /-- What the parser thread logged with `log.error`. -/
  logged : List Exn := []

namespace Channel

def enqueued (c : Channel) : List Handler := c.taken ++ c.handlerQueue

def enqueueHandlers (h : Handler) (c : Channel) : Channel :=
  { c with handlerQueue := c.handlerQueue ++ [h] }

def putRequest (key : Int) (request : OutgoingRequest) (c : Channel) : Channel :=
  { c with requests := Function.update c.requests key (some request) }

/-- `request.response = response; request._enqueue_response_handlers()`. -/
def setResponse (key : Int) (response : Response) (c : Channel) : Channel :=
  match c.requests key with
  | none => c
  | some request =>
    (c.putRequest key { request with response := some response, responseHandlers := [] })
      |>.enqueueHandlers (.responses response request.responseHandlers)

-- ---------------------------------------------------------------------------
-- Other threads
-- ---------------------------------------------------------------------------

/-- What other threads do to the channel. -/
inductive Action where
  | sendRequest (command : String)
  /-- An event or a response is sent. -/
  | sendOther
  | onResponse (key : Int) (handler : Nat)
  /-- `_run_handlers` takes a snapshot of the queue. -/
  | takeBatch
  | close

/-- The request is in the table before its write, so also when that fails. -/
def sendRequest (command : String) (c : Channel) : Channel :=
  { c.putRequest c.nextSeq { uid := c.nextUid, command } with
    nextSeq := c.nextSeq + 1
    nextUid := c.nextUid + 1
    sentRequests := c.sentRequests ++ [c.nextSeq] }

def onResponse (key : Int) (handler : Nat) (c : Channel) : Channel :=
  match c.requests key with
  | none => c
  | some request =>
    let handlers := request.responseHandlers ++ [handler]
    match request.response with
    | none => c.putRequest key { request with responseHandlers := handlers }
    | some response =>
      (c.putRequest key { request with responseHandlers := [] })
        |>.enqueueHandlers (.responses response handlers)

def act (c : Channel) : Action → Channel
  | .sendRequest command => c.sendRequest command
  | .sendOther => { c with nextSeq := c.nextSeq + 1 }
  | .onResponse key handler => c.onResponse key handler
  | .takeBatch => { c with taken := c.enqueued, handlerQueue := [] }
  | .close => { c with closed := true }

end Channel

-- ---------------------------------------------------------------------------
-- Properties of a message
-- ---------------------------------------------------------------------------

/-- `MessageDict.__call__`. `invalid` is what `isnt_valid` of the message
that owns the dict comes to, given the key and the error text. -/
def MessageDict.call (invalid : String → String → Exn) (d : Items) (key : String)
    (validate : Validator) : Except Exn Property :=
  match validate (Json.get? d key) with
  | .ok value => .ok value
  | .error e => .error (if e.isTypeOrValueError then invalid key e.str else e)

def payload : Validator
  | none | some .null => .ok (some (.dict []))
  | some value => .ok (some value)

/-- `Message.isnt_valid("{0}{1}", …)` of the class itself, for a dict that no
message owns yet: the format string becomes `self`. -/
def unowned (_ _ : String) : Exn := .attributeError "'str' object has no attribute 'error'"

def field (d : Items) (key : String) (validate : Validator) : Proc Exn Channel Property :=
  match MessageDict.call unowned d key validate with
  | .ok value => pure value
  | .error e => raise e

def isInt : Validator := Json.ofType [.cls .int] false
def isStr : Validator := Json.ofType [.cls .str] false
def isBool : Validator := Json.ofType [.cls .bool] false

/-- A validated integer; `True` is one and equals `1`. -/
def asInt : Property → Int
  | some (.int n) => n
  | some (.bool b) => if b then 1 else 0
  | _ => 0

def asStr : Property → String
  | some (.str s) => s
  | _ => ""

def asBool : Property → Bool
  | some (.bool b) => b
  | _ => false

def asJson (value : Property) : Json := value.getD .null

def formatInt : Property → String
  | some (.bool b) => if b then "True" else "False"
  | value => toString (asInt value)

-- ---------------------------------------------------------------------------
-- Parsers
-- ---------------------------------------------------------------------------

/-- `Event._parse` and `Request._parse`, which differ in the names of the
properties and the message they make. -/
def parseNamed (nameKey payloadKey : String) (make : Int → String → Json → Handler) (d : Items) :
    Proc Exn Channel Unit := do
  let seq ← field d "seq" isInt
  let name ← field d nameKey isStr
  let body ← field d payloadKey payload
  modify (Channel.enqueueHandlers (make (asInt seq) (asStr name) (asJson body)))

def Event.parse : Items → Proc Exn Channel Unit := parseNamed "event" "body" .event

def Request.parse : Items → Proc Exn Channel Unit := parseNamed "command" "arguments" .request

def freshUid : Proc Exn Channel Uid := do
  let c ← get
  set { c with nextUid := c.nextUid + 1 }
  return c.nextUid

/-- The body of a failed response, from its `"message"`. -/
def errorBody (uid : Uid) (message : String) : Exn :=
  let pre := InvalidMessageError.PREFIX.toList
  if pre.isPrefixOf message.toList then
    .messageHandling uid true (String.ofList (message.toList.drop pre.length)) none
  else .messageHandling uid false message none

/-- `body.cause = request`; only message handling errors have their cause
read. -/
def withCause (cause : Uid) : Exn → Exn
  | .messageHandling uid invalid reason _ =>
    .messageHandling uid invalid reason (some (.made cause))
  | e => e

/-- The first part of `Response._parse`, up to the body: the request's seq,
the command and the response's seq and body. -/
def Response.parseFields (d : Items) (body : Option Exn) :
    Proc Exn Channel (Option Int × Property × String × Except Exn Json) := do
  let seq ← match body with
    | none => (fun seq => some (asInt seq)) <$> field d "seq" isInt
    | some _ => pure none
  let requestSeq ← field d "request_seq" isInt
  let command ← field d "command" isStr
  let success ← field d "success" isBool
  match body with
  | some exc => return (seq, requestSeq, asStr command, .error exc)
  | none =>
    if asBool success then
      return (seq, requestSeq, asStr command, .ok (asJson (← field d "body" payload)))
    else
      let message ← field d "message" isStr
      return (seq, requestSeq, asStr command, .error (errorBody (← freshUid) (asStr message)))

/-- The second part of `Response._parse`: the request that is answered, or a
synthetic one. -/
def Response.deliver (seq : Option Int) (requestSeq : Property) (command : String)
    (body : Except Exn Json) : Proc Exn Channel Unit := do
  let key := asInt requestSeq
  let c ← get
  if key ∈ c.sentRequests then
    set { c with sentRequests := c.sentRequests.erase key }
    let request := (c.requests key).elim 0 (·.uid)
    let uid ← freshUid
    modify (Channel.setResponse key
      { uid, seq, requestSeq := key, command, body := body.mapError (withCause request) })
  else
    let request ← freshUid
    let uid ← freshUid
    modify (Channel.enqueueHandlers (.responses
      { uid, seq, requestSeq := key, command, body := body.mapError (withCause request) } []))
    raise (.messageHandling (← freshUid) true
      ("request_seq=" ++ formatInt requestSeq ++ " does not match any known request") (some (.made uid)))

def Response.parse (d : Items) (body : Option Exn) : Proc Exn Channel Unit := do
  let (seq, requestSeq, command, body) ← Response.parseFields d body
  Response.deliver seq requestSeq command body

/-- The values of `"type"`. -/
inductive MessageType where
  | event
  | request
  | response
  deriving DecidableEq, Repr

def MessageType.name : MessageType → String
  | .event => "event"
  | .request => "request"
  | .response => "response"

def MessageType.names : List String := ["event", "request", "response"]

def MessageType.ofName (name : String) : MessageType :=
  if name = "event" then .event else if name = "request" then .request else .response

@[simp] theorem MessageType.ofName_name (t : MessageType) : ofName t.name = t := by
  cases t <;> rfl

def messageParser : MessageType → Items → Proc Exn Channel Unit
  | .event, d => Event.parse d
  | .request, d => Request.parse d
  | .response, d => Response.parse d none

def parseIncomingMessage (value : Json) : Proc Exn Channel Unit :=
  match value with
  | .dict d => do
    let type ← field d "type" (Json.enum MessageType.names false)
    let c ← get
    tryExcept (messageParser (.ofName (asStr type)) d) fun
      | .messageHandling uid true reason cause => some do
        modify fun c => { c with logged := c.logged ++ [.messageHandling uid true reason cause] }
      | .noMoreMessages stream _ => if stream = c.name then none else some exit
      | _ => some exit
  | _ => raise .assertionError

end Debugpy
