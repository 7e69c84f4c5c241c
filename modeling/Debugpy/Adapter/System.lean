import Debugpy.Adapter.Clients

/-!
# A session as a transition system

A step is what one thread does while it holds the session's lock: a handler,
up to where it waits and releases the lock, or the rest of it. Whatever else
happens in between is a step of its own, so that the runs are the orders in
which the threads can get the lock. Response handlers take no lock.
-/

namespace Debugpy.Adapter

open Proc (raise exit block tryExcept)

inductive Label where
  | request (command : String) (arguments : Json)
  | clientEvent (event : String) (body : Json)
  | clientDisconnect
  /-- The response handler of the n-th pending `"evaluate"`. -/
  | evaluated (n : Nat) (reply : Reply)
  | serverEvent (event : String) (body : Json)
  | serverDisconnect
  | launcherConnects
  | launcherEvent (event : String) (body : Json)
  | launcherDisconnect
  /-- The handler that waits goes on. -/
  | resume
  /-- The client's channel is to fail, after some more writes. -/
  | clientLost (writes : Nat) (loss : Loss)
  /-- `Connection.__init__` registers a connection. -/
  | register (c : Nat) (pid : Int) (ppid : Option Int)
  /-- `Connection.disconnect`, of a connection without a session. -/
  | deregister (c : Nat)

/-- A step and what the world does during it. -/
structure Turn where
  label : Label
  env : Env := {}

def World.runHandler (w : World) (p : Code Unit) : World :=
  match p.run w with
  | (.ok _, w') | (.error .blocked, w') => w'
  | (.error _, w') => { w' with exited := true }

def World.clientBusy (w : World) : Bool :=
  match w.suspended with
  | none | some (.finalize .nothing) => false
  | _ => true

/-- `wait_for_connection` does not release the session's lock. -/
def World.locked (w : World) : Bool :=
  match w.suspended with
  | some (.connection _) | some (.attach ..) => true
  | _ => false

def World.canResume (w : World) : Suspended → Bool
  | .launcher _ asSudo => !asSudo || w.launcher.isSome
  | .process _ | .connection _ => true
  | .attach _ pid timeout _ => timeout || (w.findConnection pid).isSome
  | .finalize _ => !w.launcherConnected

/-- The rest of a handler. In `configurationDone_request` the `finally` clause
finds the start request responded to. -/
def resume : Suspended → Code Unit
  | .launcher s _ => s.request.run do
    Proc.tryFinally (startLauncher s) closeLauncherListener
    afterStart s
  | .process s => s.request.run do
    Proc.tryFinally (awaitConnection s) closeLauncherListener
    afterStart s
  | .connection s => s.request.run do
    Proc.tryFinally (attachSpawned s.request) closeLauncherListener
    afterStart s
  | .attach s pid timeout subPid => s.request.run do
    attachConnection s timeout subPid ((← get).findConnection pid)
    afterStart s
  | .finalize .nothing => exitOnError endFinalize
  | .finalize (.disconnect r) => r.run do
    exitOnError endFinalize
    afterDisconnect r
  | .finalize (.terminate r) => r.run do
    exitOnError endFinalize
    return .body (.dict [])
  | .finalize (.responded r) => r.run do
    exitOnError endFinalize
    return .none
  | .finalize (.start s) => s.request.run do
    exitOnError endFinalize
    afterStart s

def World.lose (w : World) (writes : Nat) (loss : Loss) : World :=
  if w.outlet.left.isNone then { w with outlet := { left := some writes, loss } } else w

def World.deregister (w : World) (c : Nat) : World :=
  { w with connections := w.connections.filter (· != c) }

def World.register (w : World) (c : Nat) (pid : Int) (ppid : Option Int) : Option World :=
  if c ∈ w.connections ∨ w.connections.any fun c' =>
      (w.conns c').pid == pid && !(w.conns c').processReplaced then none
  else some { setConn w c { pid, ppid, isFirst := w.connections.isEmpty } with
    connections := w.connections ++ [c] }

def World.nextRequest (w : World) (command : String) (arguments : Json) : Request :=
  { id := w.received, command, arguments }

def World.nextEvent (w : World) (event : String) (body : Json) : Event :=
  { id := w.received, event, body }

def World.receive (w : World) : World := { w with received := w.received + 1 }

def dispatch (w : World) : Label → Option (Code Unit × World)
  | .request command arguments =>
    if w.clientBusy || !w.client.isConnected then none
    else some (handleRequest (w.nextRequest command arguments), w.receive)
  | .clientEvent event body =>
    if w.clientBusy || !w.client.isConnected then none
    else
      let e := w.nextEvent event body
      some (e.run (clientEvent e), w.receive)
  | .clientDisconnect =>
    if w.clientBusy || !w.client.isConnected then none else some (Client.disconnect, w)
  | .evaluated n reply => w.evaluating[n]?.map fun r =>
    (evaluated r reply, { w with evaluating := w.evaluating.eraseIdx n })
  | .serverEvent event body =>
    if w.locked || w.server.isNone then none
    else
      let e := w.nextEvent event body
      some (e.run (Server.handler e), w.receive)
  | .serverDisconnect =>
    if w.locked || !(w.server.any fun s => w.connections.contains s.connection) then none
    else some (Server.disconnect, w)
  | .launcherConnects =>
    if w.locked || w.launcherListener.isNone || w.launcher.isSome then none
    else some (modify fun w => { w with launcher := some {} }, w)
  | .launcherEvent event body =>
    if w.locked || !w.launcherConnected then none
    else
      let e := w.nextEvent event body
      some (e.run (Launcher.handler e), w.receive)
  | .launcherDisconnect =>
    if w.locked || !w.launcherConnected then none else some (Launcher.disconnect, w)
  | .resume => w.suspended.bind fun s =>
    if w.canResume s then some (resume s, { w with suspended := none }) else none
  | .clientLost writes loss => some (modify fun w => w.lose writes loss, w)
  | .register c pid ppid => (w.register c pid ppid).map fun w => (pure (), w)
  | .deregister c =>
    if (w.conns c).attached then none else some (modify fun w => w.deregister c, w)

/-- Where a session begins, with what `Client.__init__` has written to the
client. There can be listeners, and connections of other servers. -/
structure World.Fresh (w : World) : Prop where
  client : w.client = { usingStdio := w.client.usingStdio }
  launcher : w.launcher = none
  server : w.server = none
  noDebug : w.noDebug = false
  pid : w.pid = none
  isFinalizing : w.isFinalizing = false
  sent : ∀ m ∈ w.toClient, ∃ event body, m = .event event body ∧
    (event = "output" ∨ event = "debugpySockets")
  toServer : w.toServer = []
  responses : w.responses = fun _ => none
  evaluating : w.evaluating = []
  suspended : w.suspended = none
  arrived : w.arrived = []
  latestStart : w.latestStart = none
  exited : w.exited = false

theorem fresh_default : World.Fresh {} where
  client := rfl
  launcher := rfl
  server := rfl
  noDebug := rfl
  pid := rfl
  isFinalizing := rfl
  sent := by simp
  toServer := rfl
  responses := rfl
  evaluating := rfl
  suspended := rfl
  arrived := rfl
  latestStart := rfl
  exited := rfl

/-- A start request is left to be answered by a `"configurationDone"`. -/
def Awaiting (w : World) : Prop :=
  ∃ r, w.client.startRequest = some r ∧ w.responses r.id = none

instance : Decidable (Awaiting w) :=
  decidable_of_iff (∃ r ∈ w.client.startRequest, w.responses r.id = none) Iff.rfl

/-- One step. After `os._exit` there are none. -/
def step (w : World) (t : Turn) : Option World :=
  if w.exited then none
  else (dispatch { w with env := t.env } t.label).map fun p => p.2.runHandler p.1

end Debugpy.Adapter
