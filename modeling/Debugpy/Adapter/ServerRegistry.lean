import Debugpy.Lib.Run

/-!
# Attaching sessions to debug servers

The registry of server connections, `Connection.attach_to_session`, and the
two handlers of a channel's only `Disconnect`: `Connection.disconnect` and
`Server.disconnect`. Connections and sessions are numbered; a session has at
most one `Server` in its life, so that bears the number of its session. The
critical sections of `servers._lock` are steps, except for the attachment,
within which the handler thread of the channel can look up its handler. The
lock of a session is left out, so there are more runs here than in the code.
-/

namespace Debugpy.ServerRegistry

structure ConnId where
  id : Nat
  deriving DecidableEq, Repr

structure SessionId where
  id : Nat
  deriving DecidableEq, Repr

/-- What the handler thread of a connection's channel has done about the
`Disconnect`. `locked` says that `Connection.disconnect` holds the lock
around the rest. -/
inductive Phase where
  | pending
  /-- `Connection.disconnect` has been looked up. -/
  | connection
  /-- `Server.disconnect` has been looked up, or called. -/
  | server (s : SessionId) (locked : Bool)
  /-- It has removed the connection. -/
  | removed (s : SessionId) (locked : Bool)
  /-- It has cleared `is_connected` and goes to `finalize`. -/
  | marked (s : SessionId) (locked : Bool)
  | detaching (s : SessionId) (locked : Bool)
  | handled
  deriving DecidableEq, Repr

structure Conn where
  disconnected : Bool := false
  /-- `self.server`. -/
  server : Option SessionId := none
  /-- `self.channel.handlers`; `none` is the connection itself. -/
  handlers : Option SessionId := none
  phase : Phase := .pending

/-- The `Server` of a session: not there, with the handlers of its channel,
with its `connection` attribute, and assigned to `session.server`. -/
inductive Component where
  | missing
  | made
  | linked
  | present
  deriving DecidableEq, Repr

inductive Finalization where
  | no
  | byClient
  | byServer
  | done
  deriving DecidableEq, Repr

structure Session where
  /-- What `wait_for_connection` has returned for an attach request. -/
  found : Option ConnId := none
  server : Component := .missing
  /-- The connection of the server. -/
  conn : ConnId := ⟨0⟩
  /-- `server.is_connected`. -/
  isConnected : Bool := false
  finalization : Finalization := .no

inductive Lock where
  | free
  | attach (s : SessionId) (c : ConnId)
  | handler (c : ConnId)
  deriving DecidableEq, Repr

structure State where
  conns : ConnId → Conn := fun _ => {}
  sessions : SessionId → Session := fun _ => {}
  /-- `_connections`. -/
  connections : List ConnId := []
  lock : Lock := .free
  exited : Bool := false

namespace State

def setConn (c : ConnId) (conn : Conn) (st : State) : State :=
  { st with conns := fun c' => if c' = c then conn else st.conns c' }

def setSession (s : SessionId) (session : Session) (st : State) : State :=
  { st with sessions := fun s' => if s' = s then session else st.sessions s' }

def setPhase (c : ConnId) (phase : Phase) (st : State) : State :=
  st.setConn c { st.conns c with phase }

def exit (st : State) : State := { st with exited := true }

end State

def detachFromSession (s : SessionId) (st : State) : State :=
  let session := st.sessions s
  if session.server = .present then
    (st.setSession s { session with isConnected := false })
      |>.setConn session.conn { st.conns session.conn with server := none, handlers := none }
  else st

def endFinalization (s : SessionId) (st : State) : State :=
  st.setSession s { st.sessions s with finalization := .done }

/-- The handler of the `Disconnect` returns. -/
def finish (c : ConnId) (locked : Bool) (st : State) : State :=
  { st.setPhase c .handled with lock := if locked then .free else st.lock }

inductive Label where
  /-- The registration in `Connection.__init__`. -/
  | register (c : ConnId)
  /-- `wait_for_connection` finds the connection. -/
  | find (s : SessionId) (c : ConnId)
  /-- `attach_to_session`, as far as the creation of the `Server`. -/
  | beginAttach (s : SessionId)
  | switchHandlers (s : SessionId)
  | assignConnection (s : SessionId)
  | assignServer (s : SessionId)
  | endAttach (s : SessionId)
  /-- `_handle_disconnect` looks up the handler. -/
  | pick (c : ConnId)
  | connectionDisconnect (c : ConnId)
  /-- `Server.disconnect`, up to the removal. -/
  | serverDisconnect (c : ConnId)
  /-- `Component.disconnect` clears `is_connected`. -/
  | clearConnected (c : ConnId)
  | finalize (c : ConnId)
  | detach (c : ConnId)
  /-- The session is finalized for another reason than the `Disconnect`. -/
  | finalizeByClient (s : SessionId)
  | detachByClient (s : SessionId)
  deriving DecidableEq, Repr

/-- Whether the handler thread of `c` can take the lock. -/
def State.available (st : State) (c : ConnId) (locked : Bool) : Prop :=
  st.lock = if locked then .handler c else .free

instance : Decidable (State.available st c locked) := inferInstanceAs (Decidable (_ = _))

def step (st : State) (l : Label) : Option State :=
  if st.exited then none else
  match l with
  | .register c =>
    if st.lock = .free ∧ c ∉ st.connections ∧ !(st.conns c).disconnected then
      some { st with connections := st.connections ++ [c] }
    else none
  | .find s c =>
    if st.lock = .free ∧ c ∈ st.connections ∧ (st.sessions s).server = .missing then
      some (st.setSession s { st.sessions s with found := some c })
    else none
  | .beginAttach s => match (st.sessions s).found with
    | some c =>
      if st.lock = .free ∧ (st.sessions s).server = .missing then
        -- `raise ValueError`: the request fails, and may be repeated.
        if (st.conns c).server.isSome then
          some (st.setSession s { st.sessions s with found := none })
        else some { st.setSession s { st.sessions s with found := none, conn := c } with
          lock := .attach s c }
      else none
    | none => none
  | .switchHandlers s =>
    if st.lock = .attach s (st.sessions s).conn ∧ (st.sessions s).server = .missing then
      some ((st.setSession s { st.sessions s with server := .made, isConnected := true })
        |>.setConn (st.sessions s).conn
          { st.conns (st.sessions s).conn with handlers := some s })
    else none
  | .assignConnection s =>
    if st.lock = .attach s (st.sessions s).conn ∧ (st.sessions s).server = .made then
      some (st.setSession s { st.sessions s with server := .linked })
    else none
  | .assignServer s =>
    if st.lock = .attach s (st.sessions s).conn ∧ (st.sessions s).server = .linked then
      some (st.setSession s { st.sessions s with server := .present })
    else none
  | .endAttach s =>
    if st.lock = .attach s (st.sessions s).conn ∧ (st.sessions s).server = .present then
      some { st.setConn (st.sessions s).conn
        { st.conns (st.sessions s).conn with server := some s } with lock := .free }
    else none
  | .pick c => match (st.conns c).phase with
    | .pending => match (st.conns c).handlers with
      | none => some (st.setPhase c .connection)
      | some s => some (st.setPhase c (.server s false))
    | _ => none
  | .connectionDisconnect c => match (st.conns c).phase with
    | .connection =>
      if st.lock = .free then
        match (st.conns c).server with
        | some s => some
            { st.setConn c { st.conns c with disconnected := true, phase := .server s true } with
              lock := .handler c }
        | none => some
            { st.setConn c { st.conns c with disconnected := true, phase := .handled } with
              connections := st.connections.erase c }
      else none
    | _ => none
  | .serverDisconnect c => match (st.conns c).phase with
    | .server s locked =>
      -- `self.connection` of a `Server` that does not have it yet.
      if (st.sessions s).server = .made then some st.exit
      else if st.available c locked then
        if c ∈ st.connections then
          some { st.setPhase c (.removed s locked) with connections := st.connections.erase c }
        else some st.exit
      else none
    | _ => none
  | .clearConnected c => match (st.conns c).phase with
    | .removed s locked => some
        ((st.setSession s { st.sessions s with isConnected := false })
          |>.setPhase c (.marked s locked))
    | _ => none
  | .finalize c => match (st.conns c).phase with
    | .marked s locked =>
      if (st.sessions s).finalization = .no then
        some ((st.setSession s { st.sessions s with finalization := .byServer })
          |>.setPhase c (.detaching s locked))
      else some (finish c locked st)
    | _ => none
  | .detach c => match (st.conns c).phase with
    | .detaching s locked =>
      if st.available c locked then
        some (finish c locked (endFinalization s (detachFromSession s st)))
      else none
    | _ => none
  | .finalizeByClient s =>
    if (st.sessions s).finalization = .no then
      some (st.setSession s { st.sessions s with finalization := .byClient })
    else none
  | .detachByClient s =>
    if (st.sessions s).finalization = .byClient ∧ st.lock = .free then
      some (endFinalization s (detachFromSession s st))
    else none

/-- A session attached to a server whose `Disconnect` has been handled. -/
def Dead (st : State) (s : SessionId) : Prop :=
  (st.sessions s).server = .present ∧ (st.sessions s).isConnected ∧
    (st.conns (st.sessions s).conn).phase = .handled

/-- No server component has been told of the `Disconnect` yet. -/
def Phase.Open (p : Phase) : Prop := p = .pending ∨ p = .connection

/-- The condition on a step: an attachment that gets the lock and finds no
server finds the `Disconnect` of the channel not handled, nor dispatched to
the server of an earlier session. -/
def Live (st : State) : Label → Prop
  | .beginAttach s => ∀ c, (st.sessions s).found = some c → (st.conns c).server = none →
      (st.conns c).phase.Open
  | _ => True

instance (p : Phase) : Decidable p.Open := inferInstanceAs (Decidable (_ ∨ _))

instance (st : State) : (l : Label) → Decidable (Live st l)
  | .beginAttach s => match h : (st.sessions s).found with
    | none => isTrue fun c hc => by cases h.symm.trans hc
    | some c => decidable_of_iff ((st.conns c).server = none → (st.conns c).phase.Open)
        ⟨fun hl c' hc => by cases h.symm.trans hc; exact hl, fun hl => hl c h⟩
  | .register _ | .find .. | .switchHandlers _ | .assignConnection _ | .assignServer _
  | .endAttach _ | .pick _ | .connectionDisconnect _ | .serverDisconnect _ | .clearConnected _
  | .finalize _ | .detach _ | .finalizeByClient _ | .detachByClient _ => isTrue trivial

-- ---------------------------------------------------------------------------
-- The invariant
-- ---------------------------------------------------------------------------

def Phase.about : Phase → Option SessionId
  | .server s _ | .removed s _ | .marked s _ | .detaching s _ => some s
  | .pending | .connection | .handled => none

def Phase.locked : Phase → Bool
  | .server _ b | .removed _ b | .marked _ b | .detaching _ b => b
  | .pending | .connection | .handled => false

/-- A `Disconnect` in this phase is still going to clear the `is_connected` of
the server that has the handlers of the channel. -/
def Phase.willClear (s : SessionId) : Phase → Prop
  | .pending | .connection => True
  | .server s' _ | .removed s' _ => s' = s
  | .marked .. | .detaching .. | .handled => False

structure Inv (st : State) : Prop where
  /-- A connected server has the handlers of its channel. -/
  connected : ∀ s, (st.sessions s).isConnected →
    (st.conns (st.sessions s).conn).handlers = some s
  /-- So has one that finalization has not detached. -/
  undetached : ∀ s, (st.sessions s).server = .present → (st.sessions s).finalization ≠ .done →
    (st.conns (st.sessions s).conn).handlers = some s
  /-- Outside an attachment the two references to the server agree. -/
  agree : ∀ c, (∀ s, st.lock ≠ .attach s c) → (st.conns c).server = (st.conns c).handlers
  attaching : ∀ s c, st.lock = .attach s c → (st.conns c).server = none ∧ (st.sessions s).conn = c
  begun : ∀ s c, st.lock = .attach s c → (st.sessions s).server = .missing →
    (st.conns c).handlers = none ∧ (st.conns c).phase.Open
  switched : ∀ s c, st.lock = .attach s c → (st.sessions s).server ≠ .missing →
    (st.conns c).handlers = some s
  missing : ∀ s, (st.sessions s).server = .missing → (st.sessions s).isConnected = false
  handlers : ∀ s c, (st.conns c).handlers = some s →
    (st.sessions s).conn = c ∧ (st.sessions s).server ≠ .missing
  willClear : ∀ s, (st.sessions s).isConnected →
    (st.conns (st.sessions s).conn).phase.willClear s
  about : ∀ s c, (st.conns c).phase.about = some s →
    (st.sessions s).conn = c ∧ (st.sessions s).server ≠ .missing
  locked : ∀ c, (st.conns c).phase.locked → st.lock = .handler c
  detaching : ∀ s c b, (st.conns c).phase = .detaching s b →
    (st.sessions s).finalization = .byServer

attribute [grind] Phase.about Phase.locked Phase.willClear Phase.Open

section
variable {st st' : State} {s : SessionId} {c : ConnId}

theorem Inv.agree_of_free (hi : Inv st) (h : st.lock = .free) (c : ConnId) :
    (st.conns c).server = (st.conns c).handlers :=
  hi.agree c fun s hs => by cases h.symm.trans hs

theorem inv_register (hi : Inv st) (h : step st (.register c) = some st') : Inv st' := by
  simp only [step] at h
  split at h
  · cases h
  split at h <;> cases h
  exact { hi with }

theorem inv_find (hi : Inv st) (h : step st (.find s c) = some st') : Inv st' := by
  simp only [step] at h
  split at h
  · cases h
  split at h <;> cases h
  constructor <;> simp only [State.setSession] <;> grind [Inv]

/-- An attachment begins: the condition says that the `Disconnect` is open,
and a connection without a server has its own handlers. -/
theorem inv_beginAttach (hi : Inv st) (hl : Live st (.beginAttach s))
    (h : step st (.beginAttach s) = some st') : Inv st' := by
  simp only [step] at h
  split at h
  · cases h
  split at h
  swap
  · cases h
  rename_i c hfound
  split at h
  swap
  · cases h
  rename_i hfree
  obtain ⟨hlock, hserver⟩ := hfree
  have hagree := hi.agree_of_free hlock c
  split at h <;> cases h
  · constructor <;> simp only [State.setSession] <;> grind [Inv]
  · rename_i hnone
    have hnone : (st.conns c).server = none := by simpa using hnone
    have hopen := hl c hfound hnone
    have hown : (st.conns c).handlers = none := hagree ▸ hnone
    constructor <;> simp only [State.setSession] <;> grind [Inv]

theorem inv_switchHandlers (hi : Inv st) (h : step st (.switchHandlers s) = some st') : Inv st' := by
  simp only [step] at h
  split at h
  · cases h
  split at h <;> cases h
  rename_i hlock
  obtain ⟨hown, hopen⟩ := hi.begun s _ hlock.1 hlock.2
  constructor <;> simp only [State.setSession, State.setConn] <;> grind [Inv]

theorem inv_assignConnection (hi : Inv st) (h : step st (.assignConnection s) = some st') :
    Inv st' := by
  simp only [step] at h
  split at h
  · cases h
  split at h <;> cases h
  constructor <;> simp only [State.setSession] <;> grind [Inv]

theorem inv_assignServer (hi : Inv st) (h : step st (.assignServer s) = some st') : Inv st' := by
  simp only [step] at h
  split at h
  · cases h
  split at h <;> cases h
  constructor <;> simp only [State.setSession] <;> grind [Inv]

theorem inv_endAttach (hi : Inv st) (h : step st (.endAttach s) = some st') : Inv st' := by
  simp only [step] at h
  split at h
  · cases h
  split at h <;> cases h
  constructor <;> simp only [State.setConn] <;> grind [Inv]

theorem inv_pick (hi : Inv st) (h : step st (.pick c) = some st') : Inv st' := by
  simp only [step] at h
  split at h
  · cases h
  split at h
  swap
  · cases h
  split at h <;> cases h
  · constructor <;> simp only [State.setPhase, State.setConn] <;> grind [Inv]
  · constructor <;> simp only [State.setPhase, State.setConn] <;> grind [Inv]

theorem inv_connectionDisconnect (hi : Inv st) (h : step st (.connectionDisconnect c) = some st') :
    Inv st' := by
  simp only [step] at h
  split at h
  · cases h
  split at h
  swap
  · cases h
  split at h
  swap
  · cases h
  rename_i hlock
  have hagree := hi.agree_of_free hlock
  split at h <;> cases h
  · constructor <;> simp only [State.setConn] <;> grind [Inv]
  · constructor <;> simp only [State.setConn] <;> grind [Inv]

theorem inv_serverDisconnect (hi : Inv st) (h : step st (.serverDisconnect c) = some st') :
    Inv st' := by
  simp only [step] at h
  split at h
  · cases h
  split at h
  swap
  · cases h
  repeat' split at h
  all_goals cases h
  · exact { hi with }
  · constructor <;> simp only [State.setPhase, State.setConn] <;> grind [Inv]
  · exact { hi with }

theorem inv_clearConnected (hi : Inv st) (h : step st (.clearConnected c) = some st') : Inv st' := by
  simp only [step] at h
  split at h
  · cases h
  split at h <;> cases h
  constructor <;> simp only [State.setSession, State.setPhase, State.setConn] <;> grind [Inv]

theorem inv_finalize (hi : Inv st) (h : step st (.finalize c) = some st') : Inv st' := by
  simp only [step] at h
  split at h
  · cases h
  split at h
  swap
  · cases h
  split at h <;> cases h
  · constructor <;> simp only [State.setSession, State.setPhase, State.setConn] <;> grind [Inv]
  · constructor <;> simp only [finish, State.setPhase, State.setConn] <;> grind [Inv]

theorem inv_finalizeByClient (hi : Inv st) (h : step st (.finalizeByClient s) = some st') :
    Inv st' := by
  simp only [step] at h
  split at h
  · cases h
  split at h <;> cases h
  constructor <;> simp only [State.setSession] <;> grind [Inv]

theorem inv_detach (hi : Inv st) (h : step st (.detach c) = some st') : Inv st' := by
  simp only [step] at h
  split at h
  · cases h
  split at h
  swap
  · cases h
  rename_i s locked hphase
  split at h <;> cases h
  rename_i hlock
  have habout := (hi.about s c (by rw [hphase]; rfl)).1
  have hfin := hi.detaching s c locked hphase
  have hnone : ∀ s' c', st.lock ≠ .attach s' c' := by
    intro s' c' hs
    rw [State.available, hs] at hlock
    split at hlock <;> cases hlock
  by_cases hserver : (st.sessions s).server = .present
  · have hhandlers := hi.undetached s hserver (by rw [hfin]; nofun)
    simp only [detachFromSession, hserver, if_true]
    constructor <;>
      simp only [finish, endFinalization, State.setSession, State.setPhase, State.setConn] <;>
      grind [Inv, State.available]
  · simp only [detachFromSession, hserver, if_false]
    constructor <;>
      simp only [finish, endFinalization, State.setSession, State.setPhase, State.setConn] <;>
      grind [Inv, State.available]

theorem inv_detachByClient (hi : Inv st) (h : step st (.detachByClient s) = some st') : Inv st' := by
  simp only [step] at h
  split at h
  · cases h
  split at h <;> cases h
  rename_i hfin
  obtain ⟨hfin, hlock⟩ := hfin
  by_cases hserver : (st.sessions s).server = .present
  · have hhandlers := hi.undetached s hserver (by rw [hfin]; nofun)
    simp only [detachFromSession, hserver, if_true]
    constructor <;> simp only [endFinalization, State.setSession, State.setConn] <;> grind [Inv]
  · simp only [detachFromSession, hserver, if_false]
    constructor <;> simp only [endFinalization, State.setSession] <;> grind [Inv]

theorem inv_step (hi : Inv st) (hl : Live st l) (h : step st l = some st') : Inv st' := by
  cases l with
  | register c => exact inv_register hi h
  | find s c => exact inv_find hi h
  | beginAttach s => exact inv_beginAttach hi hl h
  | switchHandlers s => exact inv_switchHandlers hi h
  | assignConnection s => exact inv_assignConnection hi h
  | assignServer s => exact inv_assignServer hi h
  | endAttach s => exact inv_endAttach hi h
  | pick c => exact inv_pick hi h
  | connectionDisconnect c => exact inv_connectionDisconnect hi h
  | serverDisconnect c => exact inv_serverDisconnect hi h
  | clearConnected c => exact inv_clearConnected hi h
  | finalize c => exact inv_finalize hi h
  | detach c => exact inv_detach hi h
  | finalizeByClient s => exact inv_finalizeByClient hi h
  | detachByClient s => exact inv_detachByClient hi h

end

theorem inv_init : Inv {} := by
  constructor <;> simp [Phase.about, Phase.locked]

theorem Inv.not_dead (hi : Inv st) (s : SessionId) : ¬ Dead st s := by
  rintro ⟨-, hconn, hphase⟩
  have hclear := hi.willClear s hconn
  rw [hphase] at hclear
  exact hclear

/-- In every run in which no session is attached to a connection whose
`Disconnect` has been handled or has gone to an earlier server, no session has
a connected server whose `Disconnect` has been handled. -/
theorem not_dead_of_live (labels : List Label) (st : State) (hlive : Run.Meets step Live {} labels)
    (hrun : Run.exec step {} labels = some st) (s : SessionId) : ¬ Dead st s :=
  (Run.exec_invariant inv_step inv_init hlive hrun).not_dead s

/-- A session finds a connection and is attached to it. -/
def attachRun (s : SessionId) : List Label :=
  [.beginAttach s, .switchHandlers s, .assignConnection s, .assignServer s, .endAttach s]

/-- The server disconnects after a session is attached to it. -/
def orderlyRun : List Label :=
  .register ⟨1⟩ :: .find ⟨1⟩ ⟨1⟩ :: attachRun ⟨1⟩ ++
    [.pick ⟨1⟩, .serverDisconnect ⟨1⟩, .clearConnected ⟨1⟩, .finalize ⟨1⟩, .detach ⟨1⟩]

theorem not_dead_orderly : ∃ st, Run.exec step {} orderlyRun = some st ∧ ¬ Dead st ⟨1⟩ :=
  ⟨_, rfl, not_dead_of_live orderlyRun _ (by decide) rfl ⟨1⟩⟩

/-- The server disconnects between `wait_for_connection` and the attachment. -/
theorem exists_dead : ¬ ∀ labels st, Run.exec step {} labels = some st → ∀ s, ¬ Dead st s := by
  intro h
  refine h (.register ⟨1⟩ :: .find ⟨1⟩ ⟨1⟩ :: .pick ⟨1⟩ :: .connectionDisconnect ⟨1⟩ ::
    attachRun ⟨1⟩) _ rfl ⟨1⟩ ?_
  exact ⟨rfl, rfl, rfl⟩

end Debugpy.ServerRegistry
