import Debugpy.Common.Channel
import Debugpy.Lib.Run
import Mathlib.Tactic.Simps.Basic

/-!
# The state of a debug session

What the handlers of a session read and write: the client, the launcher and
the server as components, the registry of server connections, and the
channels as far as their other ends go. `Env` is what the world outside the
adapter does during one step. The code between two releases of the session's
lock is one `Code`; `suspended` says how a handler goes on that waits.
-/

namespace Debugpy.Adapter

open Proc (raise exit block tryExcept)

/-- How a channel fails that takes no more writes: it is closed, or its
socket is broken. -/
inductive Loss where
  | closed
  | broken (text : String)
  deriving DecidableEq, Repr

/-- The client's channel, which takes `left` more writes, or any number. -/
structure Outlet where
  left : Option Nat := none
  loss : Loss := .closed
  deriving DecidableEq, Repr

structure Request where
  id : Uid
  command : String
  arguments : Json

structure Event where
  id : Uid
  event : String
  body : Json

/-- What is written to the client. `forwarded` are the events of the launcher
and the server, `event` the adapter's own. -/
inductive Sent where
  | response (request : Request) (body : Except Exn Json)
  | event (event : String) (body : Json)
  | forwarded (event : String) (body : Json)
  | request (command : String) (arguments : Json)

/-- What comes of a request that the adapter sends: `lost` if the channel
closes before there is a response, `broken` if the write fails. -/
inductive Reply where
  | success (body : Json)
  | failure (invalid : Bool) (reason : String)
  | lost
  | broken

abbrev Address := String × Int

/-- The world outside the adapter, during one step. -/
structure Env where
  /-- The server's reply to what the handler asks it. -/
  reply : Reply := .success (.dict [])
  authorizeReply : Reply := .success (.dict [])
  initializeReply : Reply := .success (.dict [])
  launcherReply : Reply := .success (.dict [])
  /-- The client's reply to `"startDebugging"` for a connection. -/
  clientReply : Nat → Reply := fun _ => .success (.dict [])
  /-- The response to a propagated `"evaluate"`, if that is handled before
  `Request._handle` of the client's request is done. -/
  early : Option Reply := none
  version : String := "1.8.0"
  localhost : String := "127.0.0.1"
  executable : String := "python"
  launcherDir : String := "launcher"
  isWindows : Bool := false
  serve : Except Exn Address := .ok ("127.0.0.1", 0)
  inject : Except Exn Unit := .ok ()
  listenLauncher : Except Exn Address := .ok ("127.0.0.1", 0)
  spawn : Except Exn Unit := .ok ()
  /-- The arguments of `"runInTerminal"`. -/
  terminal : Json := .dict []

structure Conn where
  pid : Int
  ppid : Option Int
  /-- `is_first_server`. -/
  isFirst : Bool := false
  processReplaced : Bool := false
  /-- `self.server is not None`. -/
  attached : Bool := false

structure Client where
  isConnected : Bool := true
  usingStdio : Bool := false
  /-- `None` at first, then the property, which can be missing. -/
  clientId : Option Property := none
  hasStarted : Bool := false
  startRequest : Option Request := none
  restartRequested : Bool := false
  initializeRequest : Option Request := none
  deferredEvents : Option (List Event) := some []
  forwardTerminateRequest : Bool := false
  knownSubprocesses : List Nat := []
  /-- Not an attribute before `"initialize"`; the same for `expectations`. -/
  capabilities : Option Items := none
  expectations : Option Items := none

structure Launcher where
  isConnected : Bool := true
  pid : Option Int := none
  exitCode : Option Int := none

structure Server where
  connection : Nat
  isConnected : Bool := true

structure Start where
  request : Request
  debugOptions : List String

inductive After where
  | nothing
  | disconnect (request : Request)
  | terminate (request : Request)
  /-- A handler that has responded returns. -/
  | responded (request : Request)
  | start (start : Start)

/-- Where a handler waits, having released the lock. For `connection` and
`attach` it has not. -/
inductive Suspended where
  | launcher (start : Start) (asSudo : Bool)
  | process (start : Start)
  | connection (start : Start)
  | attach (start : Start) (pid : Option Int) (timeout : Bool) (subPid : Property)
  | finalize (after : After)

structure World where
  /-- `session.id`. -/
  id : Nat := 1
  client : Client := {}
  launcher : Option Launcher := none
  server : Option Server := none
  noDebug : Bool := false
  pid : Option Int := none
  isFinalizing : Bool := false
  conns : Nat → Conn := fun _ => { pid := 0, ppid := none }
  /-- `servers._connections`. -/
  connections : List Nat := []
  clientListener : Option Address := none
  launcherListener : Option Address := none
  serverListener : Option Address := none
  /-- `adapter.access_token` and `servers.access_token`. -/
  accessToken : Option String := none
  serverAccessToken : Option String := none
  outlet : Outlet := {}
  toClient : List Sent := []
  toServer : List (String × Json) := []
  /-- `response` of the client's requests. -/
  responses : Uid → Option (Except Exn Json) := fun _ => none
  /-- The `"evaluate"` requests that the server has not responded to. -/
  evaluating : List Request := []
  suspended : Option Suspended := none
  nextUid : Uid := 0
  /-- How many messages there were to handle; they are numbered. -/
  received : Uid := 0
  env : Env := {}
  /-- The events the client is to get, and the start request acted on last. -/
  arrived : List Event := []
  latestStart : Option Uid := none
  exited : Bool := false

abbrev Code := Proc Exn World

@[simps] def World.withClient (w : World) (f : Client → Client) : World :=
  { w with client := f w.client }

def modifyClient (f : Client → Client) : Code Unit := modify fun w => w.withClient f

@[simps] def setConn (w : World) (c : Nat) (conn : Conn) : World :=
  { w with conns := Function.update w.conns c conn }

@[simps] def World.tick (w : World) : World := { w with nextUid := w.nextUid + 1 }

/-- A new object that Python compares with `is`. -/
def newUid : Code Uid := do
  let w ← get
  set w.tick
  return w.nextUid

-- ---------------------------------------------------------------------------
-- Writing to the client
-- ---------------------------------------------------------------------------

def Outlet.spent (o : Outlet) : Bool := o.left == some 0

def Outlet.after (o : Outlet) (n : Nat) : Outlet := { o with left := o.left.map (· - n) }

def Outlet.Takes (o : Outlet) (n : Nat) : Prop := ∀ k ∈ o.left, n ≤ k

instance (o : Outlet) (n : Nat) : Decidable (o.Takes n) :=
  inferInstanceAs (Decidable (∀ k ∈ o.left, n ≤ k))

def Loss.exn (stream : String) : Loss → Exn
  | .closed => .noMoreMessages stream ""
  | .broken text => .jsonIOError stream text

def World.clientName (w : World) : String := "Client[" ++ toString w.id ++ "]"
def World.serverName (w : World) : String := "Server[" ++ toString w.id ++ "]"
def World.launcherName (w : World) : String := "Launcher[" ++ toString w.id ++ "]"

@[simps] def World.sent (w : World) (m : Sent) : World :=
  { w with outlet := w.outlet.after 1, toClient := w.toClient ++ [m] }

def write (m : Sent) : Code Unit := do
  let w ← get
  if w.outlet.spent then raise (w.outlet.loss.exn w.clientName) else set (w.sent m)

def sendEvent (event : String) (body : Json) : Code Unit := write (.event event body)

/-- `except Exception: pass`. -/
def swallow (p : Code Unit) : Code Unit := tryExcept p fun _ => some (pure ())

def Sent.isResponseTo (id : Uid) : Sent → Bool
  | .response r _ => r.id == id
  | _ => false

def Sent.isOwn : Sent → Bool
  | .event .. | .request .. => true
  | _ => false

def World.answers (w : World) (r : Request) : Nat := w.toClient.countP (·.isResponseTo r.id)

@[simps] def World.respond (w : World) (r : Request) (body : Except Exn Json) : World :=
  { w with responses := Function.update w.responses r.id (some body) }

def Request.respond (r : Request) (body : Except Exn Json) : Code Unit := do
  let w ← get
  if (w.responses r.id).isSome then raise .assertionError
  else do
    write (.response r body)
    modify fun w => w.respond r body

@[simp] theorem Outlet.takes_zero (o : Outlet) : o.Takes 0 := fun _ _ => Nat.zero_le _

theorem Outlet.spent_eq_false {o : Outlet} : o.spent = false ↔ o.Takes 1 := by
  obtain ⟨left, loss⟩ := o
  cases left with
  | none => simp [Takes, spent]
  | some k =>
    simp only [spent, beq_eq_false_iff_ne, ne_eq, Option.some.injEq, Takes, Option.mem_def,
      forall_eq']
    omega

theorem Outlet.takes_after {o : Outlet} (h : o.Takes n) (m : Nat) :
    (o.after n).Takes m ↔ o.Takes (n + m) := by
  obtain ⟨left, loss⟩ := o
  cases left with
  | none => simp [Takes, after]
  | some k =>
    have hk : n ≤ k := h k rfl
    simp only [Takes, after, Option.map_some, Option.mem_def, Option.some.injEq, forall_eq']
    omega

@[simp] theorem Outlet.after_zero (o : Outlet) : o.after 0 = o := by
  obtain ⟨left, loss⟩ := o
  cases left <;> rfl

theorem Outlet.after_after (o : Outlet) (n m : Nat) : (o.after n).after m = o.after (n + m) := by
  obtain ⟨left, loss⟩ := o
  cases left <;> simp [after, Nat.sub_sub]

theorem Outlet.Takes.mono {o : Outlet} (h : o.Takes n) (hm : m ≤ n) : o.Takes m :=
  fun k hk => hm.trans (h k hk)

theorem Outlet.takes_succ {o : Outlet} :
    o.Takes (n + 1) ↔ o.spent = false ∧ (o.after 1).Takes n := by
  rw [spent_eq_false]
  constructor
  · intro h
    have h₁ : o.Takes 1 := h.mono (by omega)
    exact ⟨h₁, (takes_after h₁ n).mpr (by rwa [Nat.add_comm])⟩
  · rintro ⟨h₁, hn⟩
    rw [Nat.add_comm]
    exact (takes_after h₁ n).mp hn

theorem Outlet.spent_iff {o : Outlet} : o.spent = true ↔ ¬ o.Takes 1 := by
  rw [← spent_eq_false, Bool.not_eq_false]

@[simp] theorem answers_sent (w : World) (m : Sent) (r : Request) :
    (w.sent m).answers r = w.answers r + if m.isResponseTo r.id then 1 else 0 := by
  simp [World.answers, List.countP_append, List.countP_singleton]

@[simp] theorem answers_respond (w : World) (r r' : Request) :
    (w.respond r b).answers r' = w.answers r' := rfl
@[simp] theorem answers_tick (w : World) (r : Request) : w.tick.answers r = w.answers r := rfl
@[simp] theorem answers_withClient (w : World) (r : Request) :
    (w.withClient f).answers r = w.answers r := rfl

theorem run_modifyClient (f : Client → Client) (w : World) :
    (modifyClient f).run w = (.ok (), w.withClient f) := rfl

@[simp] theorem run_newUid (w : World) :
    newUid.run w = (.ok w.nextUid, w.tick) := rfl

theorem write_ok (h : w.outlet.spent = false) : (write m).run w = (.ok (), w.sent m) := by
  simp [write, Proc.run_bind, h]

theorem write_spent (h : w.outlet.spent = true) :
    (write m).run w = (.error (.raised (w.outlet.loss.exn w.clientName)), w) := by
  simp [write, Proc.run_bind, h]

theorem prompt_write : Proc.Prompt (write m) := by
  refine .bind .get fun w => ?_
  split
  · exact .raise
  · exact .set

theorem prompt_sendEvent : Proc.Prompt (sendEvent event body) := prompt_write

section
variable {r : Request}

theorem respond_ok (hr : w.responses r.id = none) (h : w.outlet.spent = false) :
    (r.respond b).run w = (.ok (), (w.sent (.response r b)).respond r b) := by
  simp [Request.respond, Proc.run_bind, hr, write_ok h]

theorem respond_spent (hr : w.responses r.id = none) (h : w.outlet.spent = true) :
    (r.respond b).run w = (.error (.raised (w.outlet.loss.exn w.clientName)), w) := by
  simp [Request.respond, Proc.run_bind, hr, write_spent h]

theorem respond_again (hr : (w.responses r.id).isSome) :
    (r.respond b).run w = (.error (.raised .assertionError), w) := by
  simp [Request.respond, Proc.run_bind, hr]

end

/-- A component is missing, or its channel does not work: what the decorator
makes `cant_handle` of. -/
def isGone : Exn → Bool
  | .componentNotAvailable _ | .noMoreMessages .. | .jsonIOError .. => true
  | _ => false

def Fails (p : Code α) (w : World) : Prop :=
  ∃ e w', p.run w = (.error (.raised e), w') ∧ isGone e = true ∧ w'.outlet.spent = true

theorem Fails.of_run {p : Code α} {q : Code α} (h : p.run w = q.run w') (hq : Fails q w') :
    Fails p w := by
  obtain ⟨e, w'', hrun, he⟩ := hq
  exact ⟨e, w'', h.trans hrun, he⟩

theorem Fails.bind {p : Code α} {f : α → Code β} (h : Fails p w) : Fails (p >>= f) w := by
  obtain ⟨e, w', hp, he⟩ := h
  exact ⟨e, w', by rw [Proc.run_bind, hp], he⟩

theorem Fails.after {p : Code α} {f : α → Code β} (hp : p.run w = (.ok a, w'))
    (h : Fails (f a) w') : Fails (p >>= f) w := by
  obtain ⟨e, w'', hf, he⟩ := h
  exact ⟨e, w'', by rw [Proc.run_bind, hp]; exact hf, he⟩

theorem Loss.isGone_exn (l : Loss) : isGone (l.exn stream) = true := by
  cases l <;> rfl

theorem write_fails (h : w.outlet.spent = true) : Fails (write m) w :=
  ⟨_, w, write_spent h, Loss.isGone_exn _, h⟩

theorem respond_fails {r : Request} (hr : w.responses r.id = none) (h : w.outlet.spent = true) :
    Fails (r.respond b) w :=
  ⟨_, w, respond_spent hr h, Loss.isGone_exn _, h⟩

-- ---------------------------------------------------------------------------
-- What does not concern the client's requests
-- ---------------------------------------------------------------------------

/-- Neither the client component nor a request is touched: what is written are
events and requests of the adapter's own, and the server is not configured. -/
structure Aside (w w' : World) : Prop where
  client : w'.client = w.client
  responses : w'.responses = w.responses
  arrived : w'.arrived = w.arrived
  latestStart : w'.latestStart = w.latestStart
  received : w'.received = w.received
  evaluating : w'.evaluating = w.evaluating
  launcher : w'.launcher.isSome = w.launcher.isSome
  spent : w.outlet.spent = true → w'.outlet.spent = true
  sent : ∃ ms, w'.toClient = w.toClient ++ ms ∧ ∀ m ∈ ms, m.isOwn = true
  asked : ∃ qs, w'.toServer = w.toServer ++ qs ∧ ∀ q ∈ qs, q.1 ≠ "configurationDone"

theorem Aside.refl (w : World) : Aside w w :=
  ⟨rfl, rfl, rfl, rfl, rfl, rfl, rfl, id, ⟨[], by simp⟩, ⟨[], by simp⟩⟩

theorem Aside.trans (h : Aside w w') (h' : Aside w' w'') : Aside w w'' := by
  obtain ⟨ms, hm, hown⟩ := h.sent
  obtain ⟨ms', hm', hown'⟩ := h'.sent
  obtain ⟨qs, hq, hask⟩ := h.asked
  obtain ⟨qs', hq', hask'⟩ := h'.asked
  refine ⟨h'.client.trans h.client, h'.responses.trans h.responses, h'.arrived.trans h.arrived,
    h'.latestStart.trans h.latestStart, h'.received.trans h.received,
    h'.evaluating.trans h.evaluating, h'.launcher.trans h.launcher, fun hs => h'.spent (h.spent hs),
    ⟨ms ++ ms', by rw [hm', hm, List.append_assoc], ?_⟩,
    ⟨qs ++ qs', by rw [hq', hq, List.append_assoc], ?_⟩⟩
  · intro m hmem
    rcases List.mem_append.mp hmem with hmem | hmem
    · exact hown m hmem
    · exact hown' m hmem
  · intro q hmem
    rcases List.mem_append.mp hmem with hmem | hmem
    · exact hask q hmem
    · exact hask' q hmem

def aside : Proc.Frame World := .simple Aside Aside.refl Aside.trans

theorem aside_run {p : Code α} (h : Proc.Keeps aside p) (w : World) : Aside w (p.run w).2 :=
  Proc.holds_simple.mp (h w)

theorem Outlet.spent_after {o : Outlet} (n : Nat) (h : o.spent = true) : (o.after n).spent = true := by
  obtain ⟨left, loss⟩ := o
  cases left with
  | none => cases h
  | some k =>
    simp only [spent, beq_iff_eq, Option.some.injEq] at h
    simp [after, spent, h]

theorem Aside.answers (h : Aside w w') (r : Request) : w'.answers r = w.answers r := by
  obtain ⟨ms, hm, hown⟩ := h.sent
  have hzero : ms.countP (·.isResponseTo r.id) = 0 := by
    rw [List.countP_eq_zero]
    intro m hmem
    have hown := hown m hmem
    cases m with
    | response | forwarded => cases hown
    | event | request => exact Bool.false_ne_true
  rw [World.answers, hm, List.countP_append, hzero]
  rfl

theorem aside_write (hm : m.isOwn = true) : Proc.Keeps aside (write m) := by
  intro w
  cases hs : w.outlet.spent with
  | true =>
    rw [write_spent hs]
    exact Aside.refl w
  | false =>
    rw [write_ok hs]
    exact { Aside.refl w with
      spent := Outlet.spent_after 1
      sent := ⟨[m], rfl, by simpa using hm⟩ }

theorem aside_sendEvent : Proc.Keeps aside (sendEvent event body) := aside_write rfl

-- ---------------------------------------------------------------------------
-- Failing to handle a message
-- ---------------------------------------------------------------------------

def Request.error (r : Request) (invalid : Bool) (reason : String) : Code Exn := do
  let exc := .messageHandling (← newUid) invalid reason (some (.received r.id))
  r.respond (.error exc)
  return exc

def Request.isntValid (r : Request) (reason : String) : Code Exn := r.error true reason
def Request.cantHandle (r : Request) (reason : String) : Code Exn := r.error false reason

def Event.error (e : Event) (invalid : Bool) (reason : String) : Code Exn :=
  return .messageHandling (← newUid) invalid reason (some (.received e.id))

/-- `exc.propagate(new_cause)`. -/
def propagateError (invalid : Bool) (reason : String) (cause : MessageId) : Code α := do
  raise (.messageHandling (← newUid) invalid reason (some cause))

/-- `format_string.format()`: a brace that is not doubled begins a field, for
which there is no argument, or is an error. -/
def formatNoArgs : List Char → Option (List Char)
  | '\x7b' :: '\x7b' :: cs => ('\x7b' :: ·) <$> formatNoArgs cs
  | '\x7d' :: '\x7d' :: cs => ('\x7d' :: ·) <$> formatNoArgs cs
  | '\x7b' :: _ | '\x7d' :: _ => none
  | c :: cs => (c :: ·) <$> formatNoArgs cs
  | [] => some []

/-- `Component.message_handler`, for a message and its `cant_handle`. -/
def messageHandler (message : MessageId) (cantHandle : String → Code Exn) (f : Code α) : Code α :=
  tryExcept f fun
    | .componentNotAvailable type => some do raise (← cantHandle (type ++ " is not available"))
    | .messageHandling uid invalid reason cause => some <|
      if cause = some message then raise (.messageHandling uid invalid reason cause)
      else propagateError invalid reason message
    | .noMoreMessages stream _ | .jsonIOError stream _ =>
      some do raise (← cantHandle (stream ++ " disconnected unexpectedly"))
    | _ => none

-- ---------------------------------------------------------------------------
-- Handling a message
-- ---------------------------------------------------------------------------

/-- What a request handler returns, or the error that it raised. -/
inductive Result where
  | none
  | noResponse
  | body (body : Json)
  | error (exc : Exn)

def appliesTo (cause : Option MessageId) (message : MessageId) : Bool :=
  cause == Option.none || cause == some message

/-- `self.respond(result)`, for which only `NoMoreMessages` is caught. -/
def Request.tryRespond (r : Request) (body : Except Exn Json) : Code Unit :=
  tryExcept (r.respond body) fun
    | .noMoreMessages .. => some (pure ())
    | _ => none

/-- What `Request._handle` does with the result, which is not responded with
twice. A returned body is never the one responded with. -/
def Request.conclude (r : Request) (result : Result) : Code Unit := do
  let w ← get
  match result, w.responses r.id with
  | .noResponse, .none => pure ()
  | .none, some _ => pure ()
  | .error exc, some (.error exc') => if exc = exc' then pure () else raise .assertionError
  | .error exc, .none => r.tryRespond (.error exc)
  | .body body, .none => r.tryRespond (.ok body)
  | _, _ => raise .assertionError

def Request.handle (r : Request) (handler : Code Result) : Code Unit := do
  let result ← tryExcept handler fun
    | .messageHandling uid invalid reason cause =>
      if appliesTo cause (.received r.id) then
        some (pure (.error (.messageHandling uid invalid reason cause)))
      else none
    | _ => none
  r.conclude result

/-- `Event._handle`; the modelled handlers of events return nothing. -/
def Event.handle (e : Event) (handler : Code Unit) : Code Unit :=
  tryExcept handler fun
    | .messageHandling _ _ _ cause => if appliesTo cause (.received e.id) then some (pure ()) else none
    | _ => none

-- ---------------------------------------------------------------------------
-- How a handler ends
-- ---------------------------------------------------------------------------

section
variable {r : Request} {w w' : World}

def Mute (r : Request) (w : World) : Prop := w.outlet.spent = true ∨ (w.responses r.id).isSome = true

theorem respond_mute (h : Mute r w) :
    ∃ e, (r.respond b).run w = (.error (.raised e), w) ∧ e.isMessageHandling = false := by
  rcases h' : w.responses r.id with _ | b'
  · have hs : w.outlet.spent = true := by simpa [Mute, h'] using h
    refine ⟨_, respond_spent h' hs, ?_⟩
    cases w.outlet.loss <;> rfl
  · exact ⟨_, respond_again (by simp [h']), rfl⟩

def World.nextError (w : World) (r : Request) (invalid : Bool) (reason : String) : Exn :=
  .messageHandling w.nextUid invalid reason (some (.received r.id))

theorem error_ok (hr : w.responses r.id = none) (h : w.outlet.spent = false) :
    (r.error invalid reason).run w =
      (.ok (w.nextError r invalid reason),
        (w.tick.sent (.response r (.error (w.nextError r invalid reason)))).respond r
          (.error (w.nextError r invalid reason))) := by
  have hrun := respond_ok (w := w.tick) (b := .error (w.nextError r invalid reason)) hr h
  simp only [World.nextError] at hrun ⊢
  simp [Request.error, Proc.run_bind, Proc.run_map, hrun]

theorem error_mute (h : Mute r w) :
    ∃ e w', (r.error invalid reason).run w = (.error (.raised e), w') ∧
      e.isMessageHandling = false := by
  obtain ⟨e, he, hm⟩ := respond_mute (w := w.tick) (b := .error (w.nextError r invalid reason)) h
  refine ⟨e, w.tick, ?_, hm⟩
  rw [World.nextError] at he
  simp [Request.error, Proc.run_bind, Proc.run_map, he]

theorem messageHandler_gone {f : Code α} (h : f.run w = (.error (.raised e), w'))
    (he : isGone e = true) :
    ∃ reason, (messageHandler m cantHandle f).run w =
      (cantHandle reason >>= fun e => raise e : Code α).run w' := by
  cases e with
  | componentNotAvailable type => exact ⟨_, by rw [messageHandler, Proc.run_tryExcept, h]⟩
  | noMoreMessages stream text | jsonIOError stream text =>
    exact ⟨_, by rw [messageHandler, Proc.run_tryExcept, h]⟩
  | _ => cases he

/-- An error that leaves the decorator as it is. -/
def passes (e : Exn) : Bool := !isGone e && !e.isMessageHandling

theorem messageHandler_passes {f : Code α} (h : f.run w = (.error (.raised e), w'))
    (he : passes e = true) : (messageHandler m cantHandle f).run w = (.error (.raised e), w') := by
  cases e with
  | componentNotAvailable | messageHandling | noMoreMessages | jsonIOError => cases he
  | _ => rw [messageHandler, Proc.run_tryExcept, h]

theorem messageHandler_ok {f : Code α} (h : f.run w = (.ok a, w')) :
    (messageHandler m cantHandle f).run w = (.ok a, w') := by
  rw [messageHandler, Proc.run_tryExcept, h]

theorem handle_ok (h : f.run w = (.ok a, w')) : (r.handle f).run w = (r.conclude a).run w' := by
  rw [Request.handle, Proc.run_bind, Proc.run_tryExcept, h]

theorem handle_raised (h : f.run w = (.error (.raised e), w')) (he : e.isMessageHandling = false) :
    (r.handle f).run w = (.error (.raised e), w') := by
  cases e with
  | messageHandling => cases he
  | _ => rw [Request.handle, Proc.run_bind, Proc.run_tryExcept, h]

theorem handle_error (h : f.run w = (.error (.raised (.messageHandling uid invalid reason cause)), w'))
    (hc : appliesTo cause (.received r.id) = true) :
    (r.handle f).run w =
      (r.conclude (.error (.messageHandling uid invalid reason cause))).run w' := by
  simp [Request.handle, Proc.run_bind, Proc.run_tryExcept, h, hc]

theorem conclude_none (h : (w.responses r.id).isSome = true) :
    (r.conclude .none).run w = (.ok (), w) := by
  obtain ⟨b, hb⟩ := Option.isSome_iff_exists.mp h
  simp [Request.conclude, Proc.run_bind, hb]

theorem conclude_error (h : w.responses r.id = some (.error e)) :
    (r.conclude (.error e)).run w = (.ok (), w) := by
  simp [Request.conclude, Proc.run_bind, h]

theorem conclude_error_ok (h : w.responses r.id = some (.ok b)) :
    (r.conclude (.error e)).run w = (.error (.raised .assertionError), w) := by
  simp [Request.conclude, Proc.run_bind, h]

theorem conclude_error_unanswered (h : w.responses r.id = none) :
    (r.conclude (.error e)).run w = (r.tryRespond (.error e)).run w := by
  simp [Request.conclude, Proc.run_bind, h]

theorem conclude_body (h : w.responses r.id = none) :
    (r.conclude (.body b)).run w = (r.tryRespond (.ok b)).run w := by
  simp [Request.conclude, Proc.run_bind, h]

theorem conclude_none_unanswered (h : w.responses r.id = none) :
    (r.conclude .none).run w = (.error (.raised .assertionError), w) := by
  simp [Request.conclude, Proc.run_bind, h]

theorem tryRespond_ok (hr : w.responses r.id = none) (h : w.outlet.spent = false) :
    (r.tryRespond b).run w = (.ok (), (w.sent (.response r b)).respond r b) := by
  rw [Request.tryRespond, Proc.run_tryExcept, respond_ok hr h]

theorem tryRespond_spent (hr : w.responses r.id = none) (h : w.outlet.spent = true) :
    (r.tryRespond b).run w = (.ok (), w) ∨ ∃ e, (r.tryRespond b).run w = (.error (.raised e), w) := by
  rw [Request.tryRespond, Proc.run_tryExcept, respond_spent hr h]
  cases w.outlet.loss with
  | closed => exact .inl rfl
  | broken text => exact .inr ⟨_, rfl⟩

theorem error_spent (hr : w.responses r.id = none) (h : w.outlet.spent = true) :
    (r.error invalid reason).run w =
      (.error (.raised (w.outlet.loss.exn w.clientName)), w.tick) := by
  have hrun := respond_spent (w := w.tick) (b := .error (w.nextError r invalid reason)) hr h
  rw [World.nextError] at hrun
  simp [Request.error, Proc.run_bind, Proc.run_map, hrun]
  rfl

end

-- ---------------------------------------------------------------------------
-- Properties
-- ---------------------------------------------------------------------------

/-- The text that `MessageDict.__call__` makes of a validator's exception. -/
def invalidText (key : String) (e : Exn) : String :=
  Json.repr key ++ (if e.str.startsWith "[" then e.str else " " ++ e.str)

/-- `message(key, validate)` for the payload of a message. -/
def callPayload (isntValid : String → Code Exn) (payload : Json) (key : String)
    (validate : Validator) : Code Property :=
  match payload with
  | .dict d => match validate (Json.get? d key) with
    | .ok value => pure value
    | .error e => if e.isTypeOrValueError then do raise (← isntValid (invalidText key e)) else raise e
  | _ => raise (.typeError "object is not callable")

def Request.call (r : Request) : String → Validator → Code Property :=
  callPayload r.isntValid r.arguments

def Event.call (e : Event) : String → Validator → Code Property :=
  callPayload (e.error true) e.body

/-- `key in request`. -/
def Request.has (r : Request) (key : String) : Bool :=
  match r.arguments with
  | .dict d => (Json.get? d key).isSome
  | _ => false

/-- `request.arguments[key] = value`. -/
def Request.setArgument (r : Request) (key : String) (value : Json) : Code Request :=
  match r.arguments with
  | .dict d => pure { r with arguments := .dict (Json.set d key value) }
  | _ => raise (.typeError "object does not support item assignment")

end Debugpy.Adapter
