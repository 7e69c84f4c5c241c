import Debugpy.Adapter.ServerRegistry
import Mathlib.Data.List.Nodup

/-!
# The list of server connections

`Connection.__init__` and the `exited` event around the registry: when a
connection enters `_connections`, when it leaves it, and which process IDs are
in it. The waiting of `Server.disconnect` for a replacement is the time until
its next step.
-/

namespace Debugpy.Connections

open ServerRegistry (ConnId SessionId Phase)

/-- How far `Connection.__init__` is. -/
inductive Constructor where
  | absent
  | started
  /-- `self.pid` is known. -/
  | identified
  | registered
  /-- It has returned or failed without a registration. -/
  | unregistered
  deriving DecidableEq, Repr

structure State where
  registry : ServerRegistry.State := {}
  constructor : ConnId → Constructor := fun _ => .absent
  pid : ConnId → Option Int := fun _ => none
  processReplaced : ConnId → Bool := fun _ => false
  /-- What has been appended to `_connections` so far, and removed from it. -/
  added : List ConnId := []
  removed : List ConnId := []

inductive Label where
  | accept (c : ConnId)
  /-- The response to `pydevdSystemInfo`. -/
  | identify (c : ConnId) (pid : Int)
  /-- The critical section of `__init__`. -/
  | register (c : ConnId)
  /-- An exception in `__init__` ahead of it. -/
  | fail (c : ConnId)
  /-- `exited`, with the reason that the process is replaced. -/
  | exitedEvent (c : ConnId)
  /-- Any step of the registry but the registration. -/
  | registry (l : ServerRegistry.Label)
  deriving DecidableEq, Repr

def State.setConstructor (c : ConnId) (constructor : Constructor) (st : State) : State :=
  { st with constructor := fun c' => if c' = c then constructor else st.constructor c' }

/-- `_connections` has the process ID already. -/
def State.clashes (st : State) (c : ConnId) : Bool :=
  st.registry.connections.any fun c' => st.pid c' == st.pid c && !st.processReplaced c'

def noteRemoved (c : ConnId) (connections connections' removed : List ConnId) : List ConnId :=
  if connections'.length < connections.length then c :: removed else removed

def registryStep (st : State) (l : ServerRegistry.Label) : Option State :=
  (ServerRegistry.step st.registry l).map fun registry => { st with
    registry
    removed := match l with
      | .connectionDisconnect c | .serverDisconnect c =>
        noteRemoved c st.registry.connections registry.connections st.removed
      | _ => st.removed }

def step (st : State) (l : Label) : Option State :=
  if st.registry.exited then none else
  match l with
  | .accept c => if st.constructor c = .absent then some (st.setConstructor c .started) else none
  | .identify c pid =>
    if st.constructor c = .started then
      some { st.setConstructor c .identified with
        pid := fun c' => if c' = c then some pid else st.pid c' }
    else none
  | .register c =>
    if st.constructor c = .identified ∧ st.registry.lock = .free then
      if (st.registry.conns c).disconnected then some (st.setConstructor c .unregistered)
      else if st.clashes c then some (st.setConstructor c .unregistered)
      else some { st.setConstructor c .registered with
        registry := { st.registry with connections := st.registry.connections ++ [c] }
        added := c :: st.added }
    else none
  | .fail c =>
    if st.constructor c = .started ∨ st.constructor c = .identified then
      some (st.setConstructor c .unregistered)
    else none
  -- The handler may have been looked up before the server was detached.
  | .exitedEvent c => if st.constructor c = .registered then
      some { st with processReplaced := fun c' => if c' = c then true else st.processReplaced c' }
    else none
  | .registry (.register _) => none
  | .registry (.pick c) =>
    if st.constructor c = .absent then none else registryStep st (.pick c)
  | .registry l => registryStep st l

-- ---------------------------------------------------------------------------
-- The invariant
-- ---------------------------------------------------------------------------

def Listed : Phase → Bool
  | .pending | .connection | .server .. => true
  | .removed .. | .marked .. | .detaching .. | .handled => false

attribute [grind] Listed noteRemoved

structure Inv (st : State) : Prop where
  nodup : st.registry.connections.Nodup
  mem : ∀ c, c ∈ st.registry.connections ↔ c ∈ st.added ∧ Listed (st.registry.conns c).phase
  found : ∀ s c, (st.registry.sessions s).found = some c → c ∈ st.added
  attaching : ∀ s c, st.registry.lock = .attach s c → c ∈ st.added
  handlers : ∀ s c, (st.registry.conns c).handlers = some s → c ∈ st.added
  server : ∀ s c, (st.registry.conns c).server = some s → c ∈ st.added
  about : ∀ s c, (st.registry.conns c).phase.about = some s → c ∈ st.added
  registered : ∀ c, c ∈ st.added ↔ st.constructor c = .registered
  disconnected : ∀ c, (st.registry.conns c).phase = .handled → c ∉ st.added →
    (st.registry.conns c).disconnected
  addedOnce : st.added.Nodup
  removedOnce : st.removed.Nodup
  removed : ∀ c, c ∈ st.removed ↔ c ∈ st.added ∧ ¬ Listed (st.registry.conns c).phase
  pid : ∀ c ∈ st.registry.connections, ∀ c' ∈ st.registry.connections, st.pid c = st.pid c' →
    st.processReplaced c = false → st.processReplaced c' = false → c = c'

section
variable {st st' : State} {s : SessionId} {c : ConnId}

theorem inv_accept (hi : Inv st) (h : step st (.accept c) = some st') : Inv st' := by
  simp only [step] at h
  split at h
  · cases h
  split at h <;> cases h
  constructor <;> simp only [State.setConstructor] <;> grind [Inv]

theorem inv_identify (hi : Inv st) (h : step st (.identify c n) = some st') : Inv st' := by
  simp only [step] at h
  split at h
  · cases h
  split at h <;> cases h
  constructor <;> simp only [State.setConstructor] <;> grind [Inv]

theorem inv_fail (hi : Inv st) (h : step st (.fail c) = some st') : Inv st' := by
  simp only [step] at h
  split at h
  · cases h
  split at h <;> cases h
  constructor <;> simp only [State.setConstructor] <;> grind [Inv]

theorem inv_exitedEvent (hi : Inv st) (h : step st (.exitedEvent c) = some st') : Inv st' := by
  simp only [step] at h
  split at h
  · cases h
  split at h <;> cases h
  constructor <;> grind [Inv]

theorem inv_register (hi : Inv st) (h : step st (.register c) = some st') : Inv st' := by
  simp only [step] at h
  split at h
  · cases h
  split at h
  · rename_i hc
    have hnew : c ∉ st.added := fun hmem => by
      have := (hi.registered c).mp hmem
      simp [hc.1] at this
    have hclosed : (st.registry.conns c).phase.about = none := by
      cases ha : (st.registry.conns c).phase.about with
      | none => rfl
      | some s => exact absurd (hi.about s c ha) hnew
    split at h
    · cases h
      constructor <;> simp only [State.setConstructor] <;> grind [Inv]
    · rename_i hdisc
      have hlisted : Listed (st.registry.conns c).phase = true := by
        have hhandled : (st.registry.conns c).phase ≠ .handled := fun hp =>
          hdisc (hi.disconnected c hp hnew)
        cases hp : (st.registry.conns c).phase <;> simp_all [Listed, ServerRegistry.Phase.about]
      split at h
      · cases h
        constructor <;> simp only [State.setConstructor] <;> grind [Inv]
      · rename_i hclash
        have hfree : ∀ c' ∈ st.registry.connections, st.pid c' = st.pid c →
            st.processReplaced c' = true := by
          intro c' hc' hpid
          simp only [State.clashes, List.any_eq_true, not_exists, not_and] at hclash
          have := hclash c' hc'
          simpa [hpid] using this
        cases h
        constructor <;> simp only [State.setConstructor] <;> grind [Inv]
  · cases h

theorem Inv.marked (hi : Inv st) (h : (st.registry.conns c).phase = .marked s locked) :
    c ∈ st.added := hi.about s c (by rw [h]; rfl)

theorem Inv.detaching (hi : Inv st) (h : (st.registry.conns c).phase = .detaching s locked) :
    c ∈ st.added := hi.about s c (by rw [h]; rfl)

theorem inv_find (hi : Inv st) (h : registryStep st (.find s c) = some st') : Inv st' := by
  obtain ⟨r, hr, rfl⟩ := Option.map_eq_some_iff.mp h
  simp only [ServerRegistry.step] at hr
  split at hr
  · cases hr
  split at hr <;> cases hr
  constructor <;> simp only [ServerRegistry.State.setSession] <;> grind [Inv]

theorem inv_beginAttach (hi : Inv st) (h : registryStep st (.beginAttach s) = some st') : Inv st' := by
  obtain ⟨r, hr, rfl⟩ := Option.map_eq_some_iff.mp h
  simp only [ServerRegistry.step] at hr
  repeat' split at hr
  all_goals cases hr
  all_goals constructor <;> simp only [ServerRegistry.State.setSession] <;> grind [Inv]

theorem inv_switchHandlers (hi : Inv st) (h : registryStep st (.switchHandlers s) = some st') :
    Inv st' := by
  obtain ⟨r, hr, rfl⟩ := Option.map_eq_some_iff.mp h
  simp only [ServerRegistry.step] at hr
  repeat' split at hr
  all_goals cases hr
  constructor <;> simp only [ServerRegistry.State.setSession, ServerRegistry.State.setConn] <;>
    grind [Inv]

theorem inv_connectionDisconnect (hi : Inv st)
    (h : registryStep st (.connectionDisconnect c) = some st') : Inv st' := by
  obtain ⟨r, hr, rfl⟩ := Option.map_eq_some_iff.mp h
  simp only [ServerRegistry.step] at hr
  repeat' split at hr
  all_goals cases hr
  · constructor <;> simp only [ServerRegistry.State.setConn] <;> grind [Inv]
  · have := hi.nodup
    constructor <;> simp only [ServerRegistry.State.setConn] <;> grind [Inv]

theorem inv_assignConnection (hi : Inv st) (h : registryStep st (.assignConnection s) = some st') :
    Inv st' := by
  obtain ⟨r, hr, rfl⟩ := Option.map_eq_some_iff.mp h
  simp only [ServerRegistry.step] at hr
  repeat' split at hr
  all_goals cases hr
  all_goals constructor <;> simp only [ServerRegistry.State.setSession] <;> grind [Inv]

theorem inv_assignServer (hi : Inv st) (h : registryStep st (.assignServer s) = some st') :
    Inv st' := by
  obtain ⟨r, hr, rfl⟩ := Option.map_eq_some_iff.mp h
  simp only [ServerRegistry.step] at hr
  repeat' split at hr
  all_goals cases hr
  all_goals constructor <;> simp only [ServerRegistry.State.setSession] <;> grind [Inv]

theorem inv_endAttach (hi : Inv st) (h : registryStep st (.endAttach s) = some st') :
    Inv st' := by
  obtain ⟨r, hr, rfl⟩ := Option.map_eq_some_iff.mp h
  simp only [ServerRegistry.step] at hr
  repeat' split at hr
  all_goals cases hr
  all_goals constructor <;> simp only [ServerRegistry.State.setConn] <;> grind [Inv]

theorem inv_pick (hi : Inv st) (h : registryStep st (.pick c) = some st') :
    Inv st' := by
  obtain ⟨r, hr, rfl⟩ := Option.map_eq_some_iff.mp h
  simp only [ServerRegistry.step] at hr
  repeat' split at hr
  all_goals cases hr
  all_goals constructor <;> simp only [ServerRegistry.State.setPhase, ServerRegistry.State.setConn] <;> grind [Inv]

theorem inv_serverDisconnect (hi : Inv st) (h : registryStep st (.serverDisconnect c) = some st') :
    Inv st' := by
  obtain ⟨r, hr, rfl⟩ := Option.map_eq_some_iff.mp h
  simp only [ServerRegistry.step] at hr
  repeat' split at hr
  all_goals cases hr
  all_goals constructor <;> simp only [ServerRegistry.State.setPhase, ServerRegistry.State.setConn, ServerRegistry.State.exit] <;> grind [Inv]

theorem inv_clearConnected (hi : Inv st) (h : registryStep st (.clearConnected c) = some st') :
    Inv st' := by
  obtain ⟨r, hr, rfl⟩ := Option.map_eq_some_iff.mp h
  simp only [ServerRegistry.step] at hr
  repeat' split at hr
  all_goals cases hr
  all_goals constructor <;> simp only [ServerRegistry.State.setPhase, ServerRegistry.State.setConn, ServerRegistry.State.setSession] <;> grind [Inv]

theorem inv_finalize (hi : Inv st) (h : registryStep st (.finalize c) = some st') :
    Inv st' := by
  obtain ⟨r, hr, rfl⟩ := Option.map_eq_some_iff.mp h
  simp only [ServerRegistry.step] at hr
  repeat' split at hr
  all_goals cases hr
  all_goals constructor <;> simp only [ServerRegistry.finish, ServerRegistry.State.setPhase, ServerRegistry.State.setConn, ServerRegistry.State.setSession] <;> grind [Inv, Inv.marked]

theorem inv_finalizeByClient (hi : Inv st) (h : registryStep st (.finalizeByClient s) = some st') :
    Inv st' := by
  obtain ⟨r, hr, rfl⟩ := Option.map_eq_some_iff.mp h
  simp only [ServerRegistry.step] at hr
  repeat' split at hr
  all_goals cases hr
  all_goals constructor <;> simp only [ServerRegistry.State.setSession] <;> grind [Inv]

theorem inv_detach (hi : Inv st) (h : registryStep st (.detach c) = some st') : Inv st' := by
  obtain ⟨r, hr, rfl⟩ := Option.map_eq_some_iff.mp h
  simp only [ServerRegistry.step, ServerRegistry.detachFromSession] at hr
  repeat' split at hr
  all_goals cases hr
  all_goals constructor <;> simp only [ServerRegistry.finish, ServerRegistry.endFinalization,
    ServerRegistry.State.setPhase, ServerRegistry.State.setConn, ServerRegistry.State.setSession] <;>
    grind [Inv, Inv.detaching]

theorem inv_detachByClient (hi : Inv st) (h : registryStep st (.detachByClient s) = some st') :
    Inv st' := by
  obtain ⟨r, hr, rfl⟩ := Option.map_eq_some_iff.mp h
  simp only [ServerRegistry.step, ServerRegistry.detachFromSession] at hr
  repeat' split at hr
  all_goals cases hr
  all_goals constructor <;> simp only [ServerRegistry.endFinalization,
    ServerRegistry.State.setConn, ServerRegistry.State.setSession] <;> grind [Inv]

theorem inv_registry (hi : Inv st) (h : step st (.registry l) = some st') : Inv st' := by
  simp only [step] at h
  split at h
  · cases h
  cases l with
  | register c => cases h
  | find s c => exact inv_find hi h
  | beginAttach s => exact inv_beginAttach hi h
  | switchHandlers s => exact inv_switchHandlers hi h
  | assignConnection s => exact inv_assignConnection hi h
  | assignServer s => exact inv_assignServer hi h
  | endAttach s => exact inv_endAttach hi h
  | pick c =>
    dsimp only at h
    split at h
    · cases h
    · exact inv_pick hi h
  | connectionDisconnect c => exact inv_connectionDisconnect hi h
  | serverDisconnect c => exact inv_serverDisconnect hi h
  | clearConnected c => exact inv_clearConnected hi h
  | finalize c => exact inv_finalize hi h
  | detach c => exact inv_detach hi h
  | finalizeByClient s => exact inv_finalizeByClient hi h
  | detachByClient s => exact inv_detachByClient hi h

theorem inv_step (hi : Inv st) (h : step st l = some st') : Inv st' := by
  cases l with
  | accept c => exact inv_accept hi h
  | identify c pid => exact inv_identify hi h
  | register c => exact inv_register hi h
  | fail c => exact inv_fail hi h
  | exitedEvent c => exact inv_exitedEvent hi h
  | registry l => exact inv_registry hi h

theorem inv_init : Inv {} := by
  constructor <;> simp [ServerRegistry.Phase.about]

-- ---------------------------------------------------------------------------
-- Too late to register
-- ---------------------------------------------------------------------------

theorem disconnected_registryStep {r r' : ServerRegistry.State}
    (hd : (r.conns c).disconnected = true) (h : ServerRegistry.step r l = some r') :
    (r'.conns c).disconnected = true := by
  cases l <;> simp only [ServerRegistry.step, ServerRegistry.detachFromSession] at h <;>
    repeat' split at h
  all_goals cases h
  all_goals simp only [ServerRegistry.State.setConn, ServerRegistry.State.setSession,
    ServerRegistry.State.setPhase, ServerRegistry.State.exit, ServerRegistry.finish,
    ServerRegistry.endFinalization]
  all_goals grind

/-- A connection that is told of its `Disconnect` too early is never added. -/
def Late (c : ConnId) (st : State) : Prop :=
  (st.registry.conns c).disconnected = true ∧ c ∉ st.added

theorem late_step (hl : Late c st) (h : step st l = some st') : Late c st' := by
  obtain ⟨hd, hadded⟩ := hl
  have hregistry {l : ServerRegistry.Label} (h : registryStep st l = some st') : Late c st' := by
    obtain ⟨r, hr, rfl⟩ := Option.map_eq_some_iff.mp h
    exact ⟨disconnected_registryStep hd hr, hadded⟩
  simp only [step] at h
  split at h
  · cases h
  cases l with
  | register c' =>
    dsimp only at h
    repeat' split at h
    all_goals cases h
    · exact ⟨hd, hadded⟩
    · exact ⟨hd, hadded⟩
    · refine ⟨hd, fun hmem => ?_⟩
      rcases List.mem_cons.mp hmem with rfl | hmem
      · contradiction
      · exact hadded hmem
  | registry l =>
    cases l with
    | register => cases h
    | pick =>
      dsimp only at h
      split at h
      · cases h
      · exact hregistry h
    | _ => exact hregistry h
  | _ =>
    dsimp only at h
    split at h <;> cases h
    exact ⟨hd, hadded⟩

end

-- ---------------------------------------------------------------------------
-- What holds of the list
-- ---------------------------------------------------------------------------

structure Consistent (st : State) : Prop where
  onePerPid : ∀ c ∈ st.registry.connections, ∀ c' ∈ st.registry.connections, st.pid c = st.pid c' →
    st.processReplaced c = false → st.processReplaced c' = false → c = c'
  addedOnce : ∀ c, st.added.count c ≤ 1
  removedOnce : ∀ c, st.removed.count c ≤ 1
  listed : ∀ c, st.registry.connections.count c + st.removed.count c = st.added.count c
  /-- Only the handling of its `Disconnect` removes a connection. -/
  removed : ∀ c ∈ st.removed, Listed (st.registry.conns c).phase = false
  handled : ∀ c, (st.registry.conns c).phase = .handled → st.removed.count c = st.added.count c
  /-- `_connections.remove` in `Server.disconnect` finds the connection. -/
  removable : ∀ c s locked, (st.registry.conns c).phase = .server s locked →
    c ∈ st.registry.connections
  empty : (∀ c, st.constructor c ≠ .absent → (st.registry.conns c).phase = .handled) →
    st.registry.connections = []

theorem count_eq_of_nodup {l : List ConnId} (h : l.Nodup) (c : ConnId) :
    l.count c = if c ∈ l then 1 else 0 := by
  split
  · next hc => exact List.count_eq_one_of_mem h hc
  · next hc => exact List.count_eq_zero_of_not_mem hc

theorem Inv.consistent {st : State} (hi : Inv st) : Consistent st where
  onePerPid := hi.pid
  addedOnce := List.nodup_iff_count_le_one.mp hi.addedOnce
  removedOnce := List.nodup_iff_count_le_one.mp hi.removedOnce
  listed c := by
    rw [count_eq_of_nodup hi.nodup, count_eq_of_nodup hi.removedOnce, count_eq_of_nodup hi.addedOnce]
    have hmem := hi.mem c
    have hremoved := hi.removed c
    grind
  removed c hc := by simpa using ((hi.removed c).mp hc).2
  handled c hp := by
    rw [count_eq_of_nodup hi.removedOnce, count_eq_of_nodup hi.addedOnce]
    have hremoved := hi.removed c
    grind
  removable c s locked hp := by
    refine (hi.mem c).mpr ⟨hi.about s c (by rw [hp]; rfl), by rw [hp]; rfl⟩
  empty h := by
    refine List.eq_nil_iff_forall_not_mem.mpr fun c hc => ?_
    obtain ⟨hadded, hlisted⟩ := (hi.mem c).mp hc
    have hctor : st.constructor c ≠ .absent := by
      rw [(hi.registered c).mp hadded]
      simp
    rw [h c hctor] at hlisted
    cases hlisted

/-- The list is consistent in every reachable state, and a connection whose
`Disconnect` has been handled without a registration is never added. -/
theorem connections_consistent (labels : List Label) (st : State)
    (hrun : Run.exec step {} labels = some st) :
    Consistent st ∧ ∀ c, (st.registry.conns c).phase = .handled → c ∉ st.added →
      ∀ more st', Run.exec step st more = some st' → c ∉ st'.added := by
  have hinv : Inv st := Run.exec_invariant (fun hi _ h => inv_step hi h) inv_init Run.meets_true hrun
  refine ⟨hinv.consistent, fun c hp hadded more st' hmore => ?_⟩
  have hlate : Late c st' := Run.exec_invariant (fun hl _ h => late_step hl h)
    ⟨hinv.disconnected c hp hadded, hadded⟩ Run.meets_true hmore
  exact hlate.2

/-- A connection is replaced by one with the same process ID, attached to a
session and disconnected. -/
def replacedRun : List Label :=
  [.accept ⟨1⟩, .identify ⟨1⟩ 42, .register ⟨1⟩, .registry (.find ⟨1⟩ ⟨1⟩)] ++
    (ServerRegistry.attachRun ⟨1⟩).map .registry ++
    [.exitedEvent ⟨1⟩, .registry (.pick ⟨1⟩), .accept ⟨2⟩, .identify ⟨2⟩ 42, .register ⟨2⟩,
      .registry (.serverDisconnect ⟨1⟩)]

theorem consistent_replacedRun : ∃ st, Run.exec step {} replacedRun = some st ∧
    st.registry.connections = [⟨2⟩] ∧ Consistent st :=
  ⟨_, rfl, rfl, (connections_consistent replacedRun _ rfl).1⟩

end Debugpy.Connections
