import Debugpy.Adapter.World

/-!
# Finalization, and the events of the launcher and the server

`Session.finalize` in two parts, since it waits for the launcher to
disconnect in between; the event handlers of `Launcher` and `Server`; and the
client's list of deferred events. What the launcher is asked when a session
is finalized is left out, as nothing that comes of it is looked at.
-/

namespace Debugpy.Adapter

open Proc (raise exit block tryExcept)

-- ---------------------------------------------------------------------------
-- Sockets
-- ---------------------------------------------------------------------------

def World.launcherConnected (w : World) : Bool := w.launcher.any (·.isConnected)
def World.serverConnected (w : World) : Bool := w.server.any (·.isConnected)

/-- `self in _sessions`: `notify_changed` removes a session when its last
component has disconnected. -/
def World.registered (w : World) : Bool :=
  w.client.isConnected || w.launcherConnected || w.serverConnected

def socketEntry (isInternal : Bool) (address : Address) : Json :=
  .dict [("host", .str address.1), ("port", .int address.2), ("internal", .bool isInternal)]

def World.sockets (w : World) : List Json :=
  (w.clientListener.map (socketEntry false)).toList ++
    (w.launcherListener.map (socketEntry true)).toList ++
    (w.serverListener.map (socketEntry true)).toList

def reportSockets : Code Unit := do
  let w ← get
  Proc.when w.registered (sendEvent "debugpySockets" (.dict [("sockets", .list w.sockets)]))

def serve : Code Address := do
  match (← get).env.serve with
  | .ok address =>
    modify fun w => { w with serverListener := some address }
    reportSockets
    return address
  | .error e => raise e

def stopServing : Code Unit := do
  modify fun w => { w with serverListener := none }
  reportSockets

-- ---------------------------------------------------------------------------
-- The server's channel
-- ---------------------------------------------------------------------------

@[simps] def World.asked (w : World) (command : String) (arguments : Json) : World :=
  { w with toServer := w.toServer ++ [(command, arguments)] }

def Reply.get (stream : String) : Reply → Code Json
  | .success body => pure body
  | .failure invalid reason => do propagateError invalid reason (.made (← newUid))
  | .lost => raise (.noMoreMessages stream "")
  | .broken => raise (.jsonIOError stream "")

/-- `self.server.channel.request`. -/
def askServer (command : String) (arguments : Json) (reply : Reply) : Code Json := do
  let w ← get
  if w.server.isNone then raise (.componentNotAvailable "Server")
  else do
    modify fun w => w.asked command arguments
    reply.get w.serverName

theorem askServer_missing (h : w.server = none) :
    (askServer command arguments reply).run w =
      (.error (.raised (.componentNotAvailable "Server")), w) := by
  simp [askServer, Proc.run_bind, h]

theorem askServer_present (h : w.server.isSome) :
    (askServer command arguments reply).run w =
      (reply.get w.serverName).run (w.asked command arguments) := by
  obtain ⟨s, hs⟩ := Option.isSome_iff_exists.mp h
  simp [askServer, Proc.run_bind, hs]

def Request.delegate (r : Request) : Code Json := do
  tryExcept (askServer r.command r.arguments (← get).env.reply) fun
    | .messageHandling _ invalid reason _ => some (propagateError invalid reason (.received r.id))
    | _ => none

section
variable {r : Request}

theorem delegate_missing (h : w.server = none) :
    r.delegate.run w = (.error (.raised (.componentNotAvailable "Server")), w) := by
  simp [Request.delegate, Proc.run_bind, Proc.run_tryExcept, askServer_missing h]

theorem delegate_success (h : w.server.isSome) (hr : w.env.reply = .success body) :
    r.delegate.run w = (.ok body, w.asked r.command r.arguments) := by
  simp [Request.delegate, Proc.run_bind, Proc.run_tryExcept, askServer_present h, hr, Reply.get]

theorem delegate_lost (h : w.server.isSome) (hr : w.env.reply = .lost) :
    r.delegate.run w =
      (.error (.raised (.noMoreMessages w.serverName "")), w.asked r.command r.arguments) := by
  simp [Request.delegate, Proc.run_bind, Proc.run_tryExcept, askServer_present h, hr, Reply.get]

theorem delegate_broken (h : w.server.isSome) (hr : w.env.reply = .broken) :
    r.delegate.run w =
      (.error (.raised (.jsonIOError w.serverName "")), w.asked r.command r.arguments) := by
  simp [Request.delegate, Proc.run_bind, Proc.run_tryExcept, askServer_present h, hr, Reply.get]

theorem delegate_failure (h : w.server.isSome) (hr : w.env.reply = .failure invalid reason) :
    r.delegate.run w =
      (.error (.raised (.messageHandling (w.nextUid + 2) invalid reason (some (.received r.id)))),
        (w.asked r.command r.arguments).tick.tick.tick) := by
  simp [Request.delegate, Proc.run_bind, Proc.run_tryExcept, askServer_present h, hr, Reply.get,
    propagateError]

end

-- ---------------------------------------------------------------------------
-- Finalization
-- ---------------------------------------------------------------------------

/-- `try: … except Exception: os._exit(1)`. -/
def exitOnError (p : Code Unit) : Code Unit := tryExcept p fun _ => some exit

def World.detach (w : World) : World :=
  match w.server with
  | none => w
  | some s => { setConn w s.connection { w.conns s.connection with attached := false } with
      server := some { s with isConnected := false } }

/-- `Session._finalize`, up to the wait for the launcher to disconnect. -/
def beginFinalize (terminateDebuggee : Bool) : Code Unit := do
  let w ← get
  Proc.when (w.serverConnected && !(terminateDebuggee && w.launcherConnected)) <|
    modify fun w => w.asked "disconnect" (.dict [("terminateDebuggee", .bool terminateDebuggee)])
  modify World.detach

def World.processReplaced (w : World) : Bool :=
  w.server.any fun s => (w.conns s.connection).processReplaced

/-- Whether `_finalize` is to kill the remaining debuggees. -/
def World.killsDebuggees (w : World) : Bool :=
  w.client.startRequest.any (·.command == "launch") && !w.processReplaced

def World.terminatedBody (w : World) : Json :=
  .dict (if w.client.restartRequested then [("restart", .bool true)] else [])

/-- The rest of `Session._finalize`. -/
def endFinalize : Code Unit := do
  let w ← get
  Proc.when w.client.isConnected (swallow (sendEvent "terminated" w.terminatedBody))
  Proc.when w.killsDebuggees stopServing

def finalize (terminateDebuggee : Option Bool) (after : After) : Code Unit := do
  let w ← get
  if w.isFinalizing then pure ()
  else do
    modify fun w => { w with isFinalizing := true }
    exitOnError (beginFinalize (terminateDebuggee.getD w.launcher.isSome))
    if w.launcherConnected then
      modify fun w => { w with suspended := some (.finalize after) }
      block
    else exitOnError endFinalize

def Client.disconnect : Code Unit := do
  modifyClient fun c => { c with isConnected := false }
  finalize none .nothing

def Launcher.disconnect : Code Unit := do
  modify fun w => { w with launcher := w.launcher.map ({ · with isConnected := false }) }
  finalize none .nothing

/-- The `Disconnect` of the server's channel. Once the server is detached, it
is for the connection alone to handle. -/
def Server.disconnect : Code Unit := do
  match (← get).server with
  | none => pure ()
  | some s =>
    modify fun w => { w with connections := w.connections.filter (· != s.connection) }
    if s.isConnected then
      modify fun w => { w with server := some { s with isConnected := false } }
      finalize none .nothing
    else pure ()

-- ---------------------------------------------------------------------------
-- What finalization leaves alone
-- ---------------------------------------------------------------------------

theorem aside_swallow (h : Proc.Keeps aside p) : Proc.Keeps aside (swallow p) :=
  h.tryExcept fun _ _ hc => Option.some.inj hc ▸ .pure

theorem aside_exitOnError (h : Proc.Keeps aside p) : Proc.Keeps aside (exitOnError p) :=
  h.tryExcept fun _ _ hc => Option.some.inj hc ▸ .exit

theorem aside_reportSockets : Proc.Keeps aside reportSockets :=
  .bind .get fun _ => .when aside_sendEvent

theorem aside_stopServing : Proc.Keeps aside stopServing :=
  .bind (.modify fun w => { Aside.refl w with }) fun _ => aside_reportSockets

theorem aside_detach (w : World) : Aside w w.detach := by
  cases hs : w.server with
  | none => simpa [World.detach, hs] using Aside.refl w
  | some s =>
    have h : Aside w { setConn w s.connection { w.conns s.connection with attached := false } with
        server := some { s with isConnected := false } } := { Aside.refl w with }
    simpa only [World.detach, hs] using h

theorem aside_beginFinalize : Proc.Keeps aside (beginFinalize b) := by
  refine .bind .get fun w => .bind (.when (.modify fun w => ?_)) fun _ => .modify aside_detach
  exact { Aside.refl w with asked := ⟨[_], rfl, by simp⟩ }

theorem aside_endFinalize : Proc.Keeps aside endFinalize :=
  .bind .get fun _ => .bind (.when (aside_swallow aside_sendEvent)) fun _ => .when aside_stopServing

theorem aside_finalize : Proc.Keeps aside (finalize terminateDebuggee after) := by
  refine .bind .get fun w => ?_
  split
  · exact .pure
  · refine .bind (.modify fun w => { Aside.refl w with }) fun _ =>
      .bind (aside_exitOnError aside_beginFinalize) fun _ => ?_
    split
    · exact Proc.keeps_leave fun w => { Aside.refl w with }
    · exact aside_exitOnError aside_endFinalize

-- ---------------------------------------------------------------------------
-- How finalization ends
-- ---------------------------------------------------------------------------

theorem prompt_stopServing : Proc.Prompt stopServing :=
  .bind .modify fun _ => .bind .get fun _ => .when prompt_sendEvent

theorem prompt_endFinalize : Proc.Prompt endFinalize :=
  .bind .get fun _ => .bind
    (.when (.tryExcept prompt_sendEvent fun _ _ h => Option.some.inj h ▸ .pure)) fun _ =>
    .when prompt_stopServing

theorem beginFinalize_ok : ∃ w', (beginFinalize b).run w = (.ok (), w') := by
  simp [beginFinalize, Proc.run_bind, Proc.run_when_modify]

theorem exitOnError_stops (hp : Proc.Prompt p) (h : (exitOnError p).run w = (.error e, w')) :
    e = .exited := by
  rw [exitOnError, Proc.run_tryExcept] at h
  have hs := hp w
  cases hr : p.run w with
  | mk r w'' =>
    rw [hr] at h hs
    cases r with
    | ok a => cases h
    | error e' =>
      obtain ⟨x, rfl⟩ := hs e' rfl
      cases h
      rfl

/-- `finalize` raises nothing: if it does not return, the process has ended,
or it waits for the launcher. -/
theorem finalize_stops (h : (finalize terminateDebuggee after).run w = (.error e, w')) :
    e = .exited ∨ e = .blocked ∧ w'.suspended = some (.finalize after) := by
  rw [finalize, Proc.run_bind, Proc.run_get] at h
  dsimp only at h
  split at h
  · cases h
  · obtain ⟨w₁, hbegin⟩ := beginFinalize_ok (b := terminateDebuggee.getD w.launcher.isSome)
      (w := { w with isFinalizing := true })
    have hexit : (exitOnError (beginFinalize (terminateDebuggee.getD w.launcher.isSome))).run
        { w with isFinalizing := true } = (.ok (), w₁) := by
      rw [exitOnError, Proc.run_tryExcept, hbegin]
    rw [Proc.run_bind, Proc.run_modify] at h
    dsimp only at h
    rw [Proc.run_bind, hexit] at h
    dsimp only at h
    split at h
    · cases h
      exact .inr ⟨rfl, rfl⟩
    · exact .inl (exitOnError_stops prompt_endFinalize h)

-- ---------------------------------------------------------------------------
-- Deferred events
-- ---------------------------------------------------------------------------

@[simps] def World.arrives (w : World) (e : Event) : World :=
  { w with arrived := w.arrived ++ [e] }

def propagateAfterStart (e : Event) : Code Unit := do
  modify fun w => w.arrives e
  match (← get).client.deferredEvents with
  | some events => modifyClient fun c => { c with deferredEvents := some (events ++ [e]) }
  | none => write (.forwarded e.event e.body)

def forwardAll : List Event → Code Unit
  | [] => pure ()
  | e :: es => do
    write (.forwarded e.event e.body)
    forwardAll es

@[simps] def Client.flush (c : Client) : Client := { c with deferredEvents := none }

def propagateDeferredEvents : Code Unit := do
  match (← get).client.deferredEvents with
  | some events => do
    forwardAll events
    modifyClient Client.flush
  | none => raise (.typeError "'NoneType' object is not iterable")

@[simps] def World.forwarded (w : World) (es : List Event) : World :=
  { w with
    outlet := w.outlet.after es.length
    toClient := w.toClient ++ es.map fun e => .forwarded e.event e.body }

theorem forwarded_cons (w : World) (e : Event) (es : List Event) :
    (w.sent (.forwarded e.event e.body)).forwarded es = w.forwarded (e :: es) := by
  simp [World.forwarded, World.sent, Outlet.after_after, Nat.add_comm]

theorem forwardAll_ok (h : w.outlet.Takes es.length) :
    (forwardAll es).run w = (.ok (), w.forwarded es) := by
  induction es generalizing w with
  | nil =>
    simp [forwardAll, World.forwarded, Outlet.after_zero]
  | cons e es ih =>
    rw [List.length_cons, Outlet.takes_succ] at h
    rw [forwardAll, Proc.run_bind, write_ok h.1, ← forwarded_cons]
    exact ih h.2

theorem forwardAll_fails (h : ¬ w.outlet.Takes es.length) : Fails (forwardAll es) w := by
  induction es generalizing w with
  | nil => exact absurd (Outlet.takes_zero _) h
  | cons e es ih =>
    rw [List.length_cons, Outlet.takes_succ] at h
    cases hs : w.outlet.spent with
    | true => exact (write_fails hs).bind
    | false => exact .after (write_ok hs) (ih fun ht => h ⟨hs, ht⟩)

theorem propagateDeferredEvents_ok (hd : w.client.deferredEvents = some es)
    (h : w.outlet.Takes es.length) :
    propagateDeferredEvents.run w = (.ok (), (w.forwarded es).withClient Client.flush) := by
  simp [propagateDeferredEvents, Proc.run_bind, hd, forwardAll_ok h, run_modifyClient]

theorem propagateDeferredEvents_fails (hd : w.client.deferredEvents = some es)
    (h : ¬ w.outlet.Takes es.length) : Fails propagateDeferredEvents w := by
  have hrun : propagateDeferredEvents.run w =
      (forwardAll es >>= fun _ => modifyClient Client.flush : Code Unit).run w := by
    simp [propagateDeferredEvents, Proc.run_bind, hd]
  exact .of_run hrun (forwardAll_fails h).bind

-- ---------------------------------------------------------------------------
-- Events
-- ---------------------------------------------------------------------------

def optionalStr : Validator := Json.ofType [.cls .str] true
def optionalBool : Validator := Json.ofType [.cls .bool] true
def optionalInt : Validator := Json.ofType [.cls .int] true
def optionalDict : Validator := Json.ofType [.cls .dict] true

/-- `None` is encoded as `null`. -/
def Launcher.exitCodeJson (l : Launcher) : Json := l.exitCode.elim .null .int

def Launcher.handler (e : Event) : Code Unit :=
  match e.event with
  | "process" => do
    let pid ← e.call "systemProcessId" isInt
    modify fun w => { w with launcher := w.launcher.map ({ · with pid := some (asInt pid) }) }
    propagateAfterStart e
  | "output" => propagateAfterStart e
  | "exited" => do
    let code ← e.call "exitCode" isInt
    modify fun w => { w with launcher := w.launcher.map ({ · with exitCode := some (asInt code) }) }
  | "terminated" => do
    -- reported only now, past the list of deferred events
    let l := (← get).launcher.getD {}
    let exited : Event := { e with event := "exited", body := .dict [("exitCode", l.exitCodeJson)] }
    modify fun w => w.arrives exited
    swallow (write (.forwarded exited.event exited.body))
  | _ => raise (.attributeError "no handler for event")

def isVisualStudio : Option Property → Bool
  | some (some (.str s)) => s == "visualstudio" || s == "vsformac"
  | _ => false

def isProcessReplaced : Property → Bool
  | some (.str s) => s == "processReplaced"
  | _ => false

def World.replaceProcess (w : World) : World :=
  match w.server with
  | none => w
  | some s => setConn w s.connection { w.conns s.connection with processReplaced := true }

def Server.handler (e : Event) : Code Unit := do
  let w ← get
  match e.event with
  | "initialized" => pure ()
  | "process" => if w.launcher.isSome then pure () else propagateAfterStart e
  | "continued" => if isVisualStudio w.client.clientId then pure () else propagateAfterStart e
  | "exited" => do
    if isProcessReplaced (← e.call "pydevdReason" optionalStr) then modify World.replaceProcess
    else if w.launcher.isSome then pure ()
    else propagateAfterStart e
  | "terminated" => pure ()
  | _ => propagateAfterStart e

/-- `Event._handle` with a handler that is decorated. -/
def Event.run (e : Event) (f : Code Unit) : Code Unit :=
  e.handle (messageHandler (.received e.id) (e.error false) f)

end Debugpy.Adapter
