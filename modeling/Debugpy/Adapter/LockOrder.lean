import Debugpy.Lib.Locks

/-!
# The order of the locks

The adapter's threads as programs over `servers._lock` and the locks of the
sessions. Kept in the store is what decides whether a server is told that its
connection is gone, and whether a session is finalized; where a branch depends
on anything else, both ways are possible, and a handler can raise wherever it
calls. `Handler` lists the threads: the handlers of the components, and
the threads that the adapter starts besides.
-/

namespace Debugpy.LockOrder

open Locks (Op withLock act andThen Balanced Above)
open RegularExpression (char star)

inductive Lock where
  | servers
  | session (s : Nat)
  deriving DecidableEq

structure Store where
  /-- `channel.handlers` of a connection: the `Server` of a session, or the
  connection itself. -/
  handlers : Nat → Option Nat := fun _ => none
  /-- `Connection.server`, by its session. -/
  server : Nat → Option Nat := fun _ => none
  /-- `Session.server`, by its connection. -/
  component : Nat → Option Nat := fun _ => none
  isFinalizing : Nat → Bool := fun _ => false

/-- The tests and the assignments. -/
inductive Action where
  | handledBy (c : Nat) (s : Option Nat)
  | handle (c : Nat) (s : Option Nat)
  | isAttached (c : Nat) (attached : Bool)
  /-- In `Connection.disconnect`, `self.server is not None`. -/
  | findsServer (c s : Nat)
  | setServer (c : Nat) (s : Option Nat)
  | hasServer (s : Nat) (c : Option Nat)
  | setComponent (s c : Nat)
  | isFinalizing (s : Nat) (finalizing : Bool)
  | beginFinalizing (s : Nat)
  deriving DecidableEq

def perform (a : Action) (m : Store) : Option Store :=
  match a with
  | .handledBy c s => if m.handlers c = s then some m else none
  | .handle c s => some { m with handlers := Function.update m.handlers c s }
  | .isAttached c attached => if (m.server c).isSome = attached then some m else none
  | .findsServer c s => if m.server c = some s then some m else none
  | .setServer c s => some { m with server := Function.update m.server c s }
  | .hasServer s c => if m.component s = c then some m else none
  | .setComponent s c => some { m with component := Function.update m.component s (some c) }
  | .isFinalizing s finalizing => if m.isFinalizing s = finalizing then some m else none
  | .beginFinalizing s => some { m with isFinalizing := Function.update m.isFinalizing s true }

abbrev Program := Locks.Program Lock Action

def opt (p : Program) : Program := 1 + p

-- ---------------------------------------------------------------------------
-- sessions.py, components.py and launchers.py
-- ---------------------------------------------------------------------------

/-- `Session.notify_changed`, which is what every assignment to an attribute of a
session or a component comes to. -/
def notifyChanged (s : Nat) : Program := withLock (.session s) 1

def changes (s : Nat) : Program := star (notifyChanged s)

def waitFor (s : Nat) : Program := withLock (.session s) (star (char (.wait (.session s))))

def initComponent (s : Nat) (channel : Program) : Program :=
  andThen (withLock (.session s) 1) (channel * changes s)

def terminateDebuggee (s : Nat) : Program := withLock (.session s) 1

def messageHandler (s : Nat) (f : Program) : Program := withLock (.session s) f

-- ---------------------------------------------------------------------------
-- servers.py
-- ---------------------------------------------------------------------------

def dontWaitForFirstConnection : Program := withLock .servers 1

def connections : Program := withLock .servers 1

def waitForConnection : Program := withLock .servers 1 * star (withLock .servers 1)

def initServer (s c : Nat) : Program :=
  withLock (.session s) <| opt <|
    act (.hasServer s none) * andThen (initComponent s (act (.handle c (some s))))
      (changes s * act (.setComponent s c) * notifyChanged s)

def attachToSession (s c : Nat) : Program :=
  withLock .servers <|
    act (.isAttached c true) +
    act (.isAttached c false) * andThen (initServer s c) (act (.setServer c (some s)))

def detachFromSession (s c : Nat) : Program :=
  withLock .servers (notifyChanged s * act (.handle c none) * act (.setServer c none))

-- ---------------------------------------------------------------------------
-- Finalization
-- ---------------------------------------------------------------------------

def waitForLauncher (s : Nat) : Program :=
  opt (waitFor s) * opt (terminateDebuggee s) * waitFor s

def finalizing (s c : Nat) : Program :=
  dontWaitForFirstConnection *
  (act (.hasServer s none) +
    act (.hasServer s (some c)) * opt (terminateDebuggee s) * detachFromSession s c) *
  opt (waitForLauncher s) * star connections

def finalize (s c : Nat) : Program :=
  act (.isFinalizing s true) +
  act (.isFinalizing s false) * act (.beginFinalizing s) * notifyChanged s * finalizing s c

def disconnectComponent (s c : Nat) : Program :=
  withLock (.session s) (notifyChanged s * finalize s c)

def disconnectServer (s c : Nat) : Program :=
  andThen (1 + waitForConnection + waitFor s)
    (andThen (withLock .servers 1) (disconnectComponent s c))

def disconnectConnection (s c : Nat) : Program :=
  withLock .servers (act (.isAttached c false) + act (.findsServer c s) * disconnectServer s c)

-- ---------------------------------------------------------------------------
-- clients.py and launchers.py
-- ---------------------------------------------------------------------------

def startMessageHandler (s c : Nat) (f : Program) : Program :=
  messageHandler s <| changes s * opt dontWaitForFirstConnection * changes s *
    andThen f (changes s * opt (finalize s c))

def spawnDebuggee (s c : Nat) : Program :=
  andThen (waitFor s) (andThen (waitFor s) (andThen waitForConnection (attachToSession s c)))

def launchRequest (s c : Nat) : Program :=
  andThen connections (changes s * opt (spawnDebuggee s c))

/-- `attach_request`; `c'` is the connection of the session's server, if it
has one. -/
def attachRequest (s c c' : Nat) : Program :=
  changes s * opt (finalize s c' + andThen waitForConnection (finalize s c' + attachToSession s c))

def notifyOfSubprocess (s : Nat) : Program := withLock (.session s) (opt (notifyChanged s))

def configurationDoneRequest (s c : Nat) : Program :=
  messageHandler s <|
    changes s * opt (finalize s c + connections * star (notifyOfSubprocess s))

def terminateRequest (s c : Nat) : Program :=
  messageHandler s (changes s * opt (finalize s c))

def disconnectRequest (s c : Nat) : Program :=
  messageHandler s (changes s * opt (andThen (finalize s c) (opt connections)))

-- ---------------------------------------------------------------------------
-- Threads
-- ---------------------------------------------------------------------------

/-- What a thread runs. `c` is the connection that is attached or that
disconnects, `c'` that of the session's server. -/
inductive Handler where
  | launch (s c c' : Nat)
  | attach (s c c' : Nat)
  | configurationDone (s c' : Nat)
  | terminate (s c' : Nat)
  | disconnect (s c' : Nat)
  /-- Any other message of a component. -/
  | message (s : Nat)
  /-- The client or the launcher has disconnected. -/
  | componentDisconnect (s c' : Nat)
  /-- The server has, and its channel is handled by the `Server`. -/
  | serverDisconnect (s c : Nat)
  /-- It is handled by the `Connection`. -/
  | connectionDisconnect (s c : Nat)
  | clientConnects (s : Nat)
  | launcherConnects (s : Nat)
  /-- `Connection.__init__`, which may notify a session. -/
  | connectionConnects (s : Nat)
  /-- The threads that `wait_for` and `wait_for_connection` start. -/
  | waitForTimeout (s : Nat)
  | waitForConnectionTimeout
  /-- `wait_until_disconnected`. -/
  | main

def Handler.program : Handler → Program
  | launch s c c' => startMessageHandler s c' (launchRequest s c)
  | attach s c c' => startMessageHandler s c' (attachRequest s c c')
  | configurationDone s c' => configurationDoneRequest s c'
  | terminate s c' => terminateRequest s c'
  | disconnect s c' => disconnectRequest s c'
  | message s => messageHandler s (changes s)
  | componentDisconnect s c' => disconnectComponent s c'
  | serverDisconnect s c => act (.handledBy c (some s)) * disconnectServer s c
  | connectionDisconnect s c => act (.handledBy c none) * disconnectConnection s c
  | clientConnects s => notifyChanged s * withLock (.session s) (initComponent s 1 * changes s)
  | launcherConnects s => withLock (.session s) (opt (initComponent s 1 * changes s))
  | connectionConnects s =>
    opt (withLock .servers 1) * opt (dontWaitForFirstConnection + notifyOfSubprocess s)
  | waitForTimeout s => notifyChanged s
  | waitForConnectionTimeout => withLock .servers 1
  | main => star (withLock .servers 1)

abbrev State := Locks.State Nat Lock Action Store
abbrev Label := Locks.Label Nat Lock Action Handler

def step : State → Label → Option State := Locks.step Handler.program perform

/-- No thread runs, and nothing is connected. -/
def initial : State := { store := {} }

-- ---------------------------------------------------------------------------
-- The order
-- ---------------------------------------------------------------------------

def rank : Lock → Nat
  | .session _ => 0
  | .servers => 1

/-- `Connection.disconnect` does not find a server. -/
def FindsNoServer : Action → Prop
  | .findsServer .. => False
  | _ => True

instance : DecidablePred FindsNoServer
  | .findsServer .. => inferInstanceAs (Decidable False)
  | .handledBy .. | .handle .. | .isAttached .. | .setServer .. | .hasServer .. | .setComponent ..
  | .isFinalizing .. | .beginFinalizing .. => inferInstanceAs (Decidable True)

/-- The only lock that is held is the session's, if any is. -/
def Only (s : Nat) (h : Lock → Nat) : Prop := ∀ l, l ≠ .session s → h l = 0

def Inside (s : Nat) (h : Lock → Nat) : Prop := 0 < h (.session s)

section
variable {s c c' : Nat} {h : Lock → Nat} {p : Program}

/-- A program that is balanced unless `Connection.disconnect` finds a server. -/
abbrev Keeps (h : Lock → Nat) (p : Program) : Prop := Balanced rank FindsNoServer h p

theorem Only.nothing : Only s fun _ => 0 := fun _ _ => rfl

theorem Only.lock (hs : Only s h) (n : Nat) : Only s (Function.update h (.session s) n) := by
  intro l hl
  rw [Function.update_of_ne hl]
  exact hs l hl

theorem Inside.lock : Inside s (Function.update h (.session s) (h (.session s) + 1)) := by
  simp [Inside]

theorem Inside.servers (hs : Inside s h) (n : Nat) : Inside s (Function.update h .servers n) := by
  simpa [Inside] using hs

theorem keeps_servers (hp : Keeps (Function.update h .servers (h .servers + 1)) p) :
    Keeps h (withLock .servers p) := by
  refine .withLock (fun h0 l hl => ?_) hp
  cases l with
  | servers => omega
  | session s => exact Nat.zero_lt_one

theorem keeps_session (hs : Inside s h ∨ Only s h)
    (hp : Keeps (Function.update h (.session s) (h (.session s) + 1)) p) :
    Keeps h (withLock (.session s) p) := by
  refine .withLock (fun h0 l hl => ?_) hp
  rcases hs with hs | hs
  · exact absurd hs (by simp [Inside, h0])
  · have hne : l ≠ .session s := by
      rintro rfl
      omega
    have hl0 := hs l hne
    omega

theorem keeps_notifyChanged (hs : Inside s h ∨ Only s h) : Keeps h (notifyChanged s) :=
  keeps_session hs .one

theorem keeps_changes (hs : Inside s h ∨ Only s h) : Keeps h (changes s) :=
  .star (keeps_notifyChanged hs)

theorem keeps_waitFor (hs : Only s h) : Keeps h (waitFor s) := by
  refine keeps_session (.inr hs) (.star (.wait Inside.lock ?_))
  intro l hl
  by_cases hne : l = .session s
  · simp [hne] at hl
  · simp [Function.update_of_ne hne, hs l hne] at hl

theorem keeps_lockServers : Keeps h (withLock .servers 1) := keeps_servers .one

theorem keeps_waitForConnection : Keeps h waitForConnection :=
  .mul keeps_lockServers (.star keeps_lockServers)

theorem keeps_initComponent (hs : Inside s h) (hp : Keeps h p) : Keeps h (initComponent s p) :=
  .andThen (keeps_session (.inl hs) .one) (.mul hp (keeps_changes (.inl hs)))

theorem keeps_initServer (hs : Inside s h) : Keeps h (initServer s c) := by
  refine keeps_session (.inl hs) (.opt (.mul .act (.andThen ?_ (.mul (.mul ?_ .act) ?_))))
  · exact keeps_initComponent Inside.lock .act
  · exact keeps_changes (.inl Inside.lock)
  · exact keeps_notifyChanged (.inl Inside.lock)

theorem keeps_attachToSession (hs : Inside s h) : Keeps h (attachToSession s c) :=
  keeps_servers (.add .act (.mul .act (.andThen (keeps_initServer (hs.servers _)) .act)))

theorem keeps_detachFromSession (hs : Inside s h) : Keeps h (detachFromSession s c) :=
  keeps_servers (.mul (.mul (keeps_notifyChanged (.inl (hs.servers _))) .act) .act)

theorem keeps_finalizing (hs : Inside s h) (ho : Only s h) : Keeps h (finalizing s c) := by
  refine .mul (.mul (.mul keeps_lockServers (.add .act ?_)) (.opt ?_)) (.star keeps_lockServers)
  · exact .mul (.mul .act (.opt (keeps_session (.inl hs) .one))) (keeps_detachFromSession hs)
  · exact .mul (.mul (.opt (keeps_waitFor ho)) (.opt (keeps_session (.inl hs) .one)))
      (keeps_waitFor ho)

theorem keeps_finalize (hs : Inside s h) (ho : Only s h) : Keeps h (finalize s c) :=
  .add .act (.mul (.mul (.mul .act .act) (keeps_notifyChanged (.inl hs))) (keeps_finalizing hs ho))

theorem keeps_disconnectComponent (ho : Only s h) : Keeps h (disconnectComponent s c) :=
  keeps_session (.inr ho)
    (.mul (keeps_notifyChanged (.inl Inside.lock)) (keeps_finalize Inside.lock (ho.lock _)))

theorem keeps_disconnectServer (ho : Only s h) : Keeps h (disconnectServer s c) :=
  .andThen (.add (.add .one keeps_waitForConnection) (keeps_waitFor ho))
    (.andThen keeps_lockServers (keeps_disconnectComponent ho))

/-- With a server found, the session's lock would be acquired while
`servers._lock` is held. -/
theorem keeps_disconnectConnection : Keeps h (disconnectConnection s c) :=
  keeps_servers (.add .act (.act_mul fun ha => ha.elim))

theorem keeps_messageHandler
    (hp : ∀ h, Inside s h → Only s h → Keeps h p) : Keeps (fun _ => 0) (messageHandler s p) :=
  keeps_session (.inr .nothing) (hp _ Inside.lock (Only.nothing.lock _))

theorem keeps_startMessageHandler (hp : ∀ h, Inside s h → Only s h → Keeps h p) :
    Keeps (fun _ => 0) (startMessageHandler s c p) := by
  refine keeps_messageHandler fun h hs ho => ?_
  have hchanges := keeps_changes (.inl hs)
  exact .mul (.mul (.mul hchanges (.opt keeps_lockServers)) hchanges)
    (.andThen (hp h hs ho) (.mul hchanges (.opt (keeps_finalize hs ho))))

theorem keeps_launchRequest (hs : Inside s h) (ho : Only s h) : Keeps h (launchRequest s c) := by
  have hspawn : Keeps h (spawnDebuggee s c) :=
    .andThen (keeps_waitFor ho) (.andThen (keeps_waitFor ho)
      (.andThen keeps_waitForConnection (keeps_attachToSession hs)))
  exact .andThen keeps_lockServers (.mul (keeps_changes (.inl hs)) (.opt hspawn))

theorem keeps_attachRequest (hs : Inside s h) (ho : Only s h) : Keeps h (attachRequest s c c') := by
  have hfinalize : Keeps h (finalize s c') := keeps_finalize hs ho
  exact .mul (keeps_changes (.inl hs)) (.opt (.add hfinalize
    (.andThen keeps_waitForConnection (.add hfinalize (keeps_attachToSession hs)))))

theorem keeps_notifyOfSubprocess (hs : Inside s h ∨ Only s h) : Keeps h (notifyOfSubprocess s) :=
  keeps_session hs (.opt (keeps_notifyChanged (.inl Inside.lock)))

theorem keeps_program (handler : Handler) : Keeps (fun _ => 0) handler.program := by
  cases handler with
  | launch s c c' => exact keeps_startMessageHandler fun _ => keeps_launchRequest
  | attach s c c' => exact keeps_startMessageHandler fun _ => keeps_attachRequest
  | configurationDone s c' =>
    refine keeps_messageHandler fun h hs ho => .mul (keeps_changes (.inl hs)) (.opt (.add ?_ ?_))
    · exact keeps_finalize hs ho
    · exact .mul keeps_lockServers (.star (keeps_notifyOfSubprocess (.inl hs)))
  | terminate s c' =>
    exact keeps_messageHandler fun h hs ho =>
      .mul (keeps_changes (.inl hs)) (.opt (keeps_finalize hs ho))
  | disconnect s c' =>
    exact keeps_messageHandler fun h hs ho => .mul (keeps_changes (.inl hs))
      (.opt (.andThen (keeps_finalize hs ho) (.opt keeps_lockServers)))
  | message s => exact keeps_messageHandler fun h hs _ => keeps_changes (.inl hs)
  | componentDisconnect s c' => exact keeps_disconnectComponent .nothing
  | serverDisconnect s c => exact .mul .act (keeps_disconnectServer .nothing)
  | connectionDisconnect s c => exact .mul .act keeps_disconnectConnection
  | clientConnects s =>
    exact .mul (keeps_notifyChanged (.inr .nothing)) (keeps_session (.inr .nothing)
      (.mul (keeps_initComponent Inside.lock .one) (keeps_changes (.inl Inside.lock))))
  | launcherConnects s =>
    exact keeps_session (.inr .nothing)
      (.opt (.mul (keeps_initComponent Inside.lock .one) (keeps_changes (.inl Inside.lock))))
  | connectionConnects s =>
    exact .mul (.opt keeps_lockServers)
      (.opt (.add keeps_lockServers (keeps_notifyOfSubprocess (.inr .nothing))))
  | waitForTimeout s => exact keeps_notifyChanged (.inr .nothing)
  | waitForConnectionTimeout => exact keeps_lockServers
  | main => exact .star keeps_lockServers

end

/-- No thread's `Connection.disconnect` finds, once it has the lock, that the
connection has become a session's. -/
def FindsNone (w : State) (i : Label) : Prop := Locks.Allows FindsNoServer w i

instance (w : State) (i : Label) : Decidable (FindsNone w i) :=
  inferInstanceAs (Decidable (Locks.Allows FindsNoServer w i))

/-- No threads ever wait for each other in a cycle, as long as no connection
is attached to a session while its `disconnect` waits for `servers._lock`. -/
theorem lock_order (is : List Label) (w : State) (hfinds : Run.Meets step FindsNone initial is)
    (h : Run.exec step initial is = some w) : ¬ w.Deadlock :=
  Locks.not_deadlock keeps_program hfinds h

-- ---------------------------------------------------------------------------
-- A server that disconnects while it is attached
-- ---------------------------------------------------------------------------

/-- `with self.session` around an assignment. -/
def lockSession (s : Nat) (ops : List (Op Lock Action)) : List (Op Lock Action) :=
  .acquire (.session s) :: ops ++ [.release (.session s)]

def lockServers (ops : List (Op Lock Action)) : List (Op Lock Action) :=
  .acquire .servers :: ops ++ [.release .servers]

def attaches : List (Op Lock Action) :=
  lockSession 1 <| lockServers [] ++ lockServers (
    .act (.isAttached 0 false) ::
    lockSession 1 (.act (.hasServer 1 none) :: lockSession 1 [] ++
      .act (.handle 0 (some 1)) :: .act (.setComponent 1 0) :: lockSession 1 []) ++
    [.act (.setServer 0 (some 1))])

/-- `Connection.disconnect` finds the server. -/
def isGone : List (Op Lock Action) :=
  .act (.handledBy 0 none) :: lockServers (
    .act (.findsServer 0 1) :: lockServers [] ++
    lockSession 1 (lockSession 1 [] ++ [.act (.isFinalizing 1 true)]))

def leaves : List (Op Lock Action) :=
  lockSession 1 <| lockSession 1 [] ++
    .act (.isFinalizing 1 false) :: .act (.beginFinalizing 1) :: lockSession 1 [] ++
    lockServers [] ++ .act (.hasServer 1 (some 0)) ::
    lockServers (lockSession 1 [] ++ [.act (.handle 0 none), .act (.setServer 0 none)])

/-- The thread that attaches the server has both locks, and another handler of
the session waits. -/
def waits : List Label :=
  [.start 0 (.attach 1 0 0) attaches, .start 1 (.message 1) (lockSession 1 [])] ++
    List.replicate 4 (.go 0)

theorem lock_order_waits : ∃ w, Run.exec step initial waits = some w ∧ w.blocker 1 = some 0 ∧
    ¬ w.Deadlock := by
  have h : (Run.exec step initial waits).map (·.blocker 1) = some (some 0) := by decide +kernel
  obtain ⟨w, hw, hb⟩ := Option.map_eq_some_iff.mp h
  exact ⟨w, hw, hb, lock_order waits w (by decide +kernel) hw⟩

/-- The session is finalized by the client's thread, which needs
`servers._lock`, while `Connection.disconnect` has that and needs the session's. -/
def entangled : List Label :=
  [.start 0 (.attach 1 0 0) attaches, .start 1 (.connectionDisconnect 1 0) isGone, .go 1] ++
    List.replicate attaches.length (.go 0) ++
    .start 0 (.componentDisconnect 1 0) leaves :: List.replicate 7 (.go 0) ++
    List.replicate 4 (.go 1)

theorem entangled_blocked : ∃ w, Run.exec step initial entangled = some w ∧
    w.blocker 0 = some 1 ∧ w.blocker 1 = some 0 := by
  have h : (Run.exec step initial entangled).map (fun w => (w.blocker 0, w.blocker 1)) =
      some (some 1, some 0) := by decide +kernel
  obtain ⟨w, hw, hb⟩ := Option.map_eq_some_iff.mp h
  exact ⟨w, hw, congrArg Prod.fst hb, congrArg Prod.snd hb⟩

theorem not_lock_order : ¬ ∀ (is : List Label) (w : State),
    Run.exec step initial is = some w → ¬ w.Deadlock := by
  intro h
  obtain ⟨w, hw, h₀, h₁⟩ := entangled_blocked
  exact h entangled w hw ⟨0, .tail (.single h₀) h₁⟩

end Debugpy.LockOrder
