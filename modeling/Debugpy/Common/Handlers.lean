import Debugpy.Common.Channel
import Debugpy.Lib.Run

/-!
# Running handlers while the channel is closed

`_run_handlers` as a transition system, interleaved with the parser thread
and with any others that use the channel. The filter that is to keep events
and requests from running on a closed channel compares a bound method with a
function, so it never holds; and the flag is read once for a whole batch.
`nothing_after_close` is what is left of the rule: it holds in the runs where
a handler closes its channel only with no event or request behind it.
-/

namespace Debugpy.Handlers

/-- A Python callable as far as `==` goes: a method bound to an object is
never equal to the function that it binds. -/
inductive Callable where
  | function (name : String)
  | boundMethod (name : String)
  | closure (name : String)
  deriving DecidableEq, Repr

end Handlers

open Handlers in
/-- The second component of an entry of `_handler_queue`. -/
def Handler.callable : Handler → Callable
  | .event .. => .boundMethod "Event._handle"
  | .request .. => .boundMethod "Request._handle"
  | .responses .. => .closure "run_handlers"
  | .disconnect => .boundMethod "JsonMessageChannel._handle_disconnect"

/-- Whether it is an `Event` or a `Request` that is handled. -/
def Handler.isMessage : Handler → Bool
  | .event .. | .request .. => true
  | .responses .. | .disconnect => false

namespace Handlers

/-- `closed and handler in (Event._handle, Request._handle)`. -/
def skip (closed : Bool) (h : Handler) : Bool :=
  closed && (h.callable == .function "Event._handle" || h.callable == .function "Request._handle")

@[simp] theorem skip_eq_false : skip closed h = false := by
  cases h <;> simp [skip, Handler.callable]

inductive Thread where
  | absent
  | top
  /-- It has seen the channel closed and waits for the parser thread. -/
  | joining
  /-- It is about to take the lock again, with this value of `closed`. -/
  | ready (closed : Bool)
  | waiting
  | batch (closed : Bool) (rest : List Handler)
  | handling (closed : Bool) (h : Handler) (rest : List Handler)
  | exited

inductive Entry where
  | started (h : Handler)
  /-- A `close()` called by a handler of the channel has returned. -/
  | closed

structure State where
  closed : Bool := false
  queue : List Handler := []
  parserDone : Bool := false
  thread : Thread := .absent
  /-- All handlers ever enqueued. -/
  enqueued : List Handler := []
  log : List Entry := []

inductive Label where
  /-- The parser thread enqueues the handler of a message. -/
  | parse (h : Handler)
  /-- It cleans up after `NoMoreMessages`, with the dummy responses to the
  pending requests, and ends. -/
  | wrapUp (responses : List (Response × List Nat))
  /-- It ends by any other exception. -/
  | parserDies
  /-- `on_response` is called for a request that has its response. -/
  | onResponse (response : Response) (handlers : List Nat)
  /-- Something that is not a handler of this channel closes it. -/
  | closeByOther
  | readClosed
  | join
  | lock
  | wake
  | next
  | handlerCloses
  | handlerReturns
  | handlerRaises

/-- `_enqueue_handlers`; a waiting thread is woken in a step of its own. -/
def enqueue (s : State) (hs : List Handler) : State :=
  { s with
    queue := s.queue ++ hs
    enqueued := s.enqueued ++ hs
    thread := match s.thread with
      | .absent => if s.queue ++ hs = [] then .absent else .top
      | thread => thread }

def snapshot (s : State) (closed : Bool) : State :=
  if closed && s.queue.isEmpty then { s with thread := .absent }
  else { s with queue := [], thread := .batch closed s.queue }

def step (s : State) (l : Label) : Option State :=
  match l, s.thread with
  | _, .exited => none
  | .parse h, _ => if s.parserDone then none else some (enqueue s [h])
  | .wrapUp responses, _ =>
    if s.parserDone then none
    else some { enqueue s (responses.map (fun r => .responses r.1 r.2) ++ [.disconnect]) with
      closed := true, parserDone := true }
  | .parserDies, _ => if s.parserDone then none else some { s with parserDone := true }
  | .onResponse response handlers, _ => some (enqueue s [.responses response handlers])
  | .closeByOther, _ => some { s with closed := true }
  | .readClosed, .top => some { s with thread := if s.closed then .joining else .ready false }
  | .join, .joining => if s.parserDone then some { s with thread := .ready true } else none
  | .lock, .ready closed =>
    if !closed && s.queue.isEmpty then some { s with thread := .waiting }
    else some (snapshot s closed)
  | .wake, .waiting => some (snapshot s false)
  | .next, .batch _ [] => some { s with thread := .top }
  | .next, .batch closed (h :: rest) =>
    if skip closed h then some { s with thread := .batch closed rest }
    else some { s with thread := .handling closed h rest, log := s.log ++ [.started h] }
  | .handlerCloses, .handling .. => some { s with closed := true, log := s.log ++ [.closed] }
  | .handlerReturns, .handling closed _ rest => some { s with thread := .batch closed rest }
  | .handlerRaises, .handling .. => some { s with closed := true, thread := .exited }
  | _, _ => none

-- ---------------------------------------------------------------------------
-- The rule
-- ---------------------------------------------------------------------------

def State.pending (s : State) : List Handler :=
  (match s.thread with
    | .batch _ rest | .handling _ _ rest => rest
    | _ => []) ++ s.queue

/-- No event or request is started after a handler's `close()` returned. -/
def NothingAfterClose (s : State) : Prop :=
  s.log.Pairwise fun earlier later =>
    earlier = .closed → ∀ h, later = .started h → h.isMessage = false

/-- The handlers of responses and the final one still run: all that were
enqueued have been started or are pending, and the thread does not leave any
behind, unless the process ends. -/
structure RestRuns (s : State) : Prop where
  started : s.thread ≠ .exited →
    ∀ h ∈ s.enqueued, h.isMessage = false → .started h ∈ s.log ∨ h ∈ s.pending
  empty : s.thread = .absent → s.queue = []

/-- A handler of the channel has closed it. -/
def State.ClosedByHandler (s : State) : Prop := .closed ∈ s.log

/-- The condition on a step: a handler closes the channel with no event or
request behind it, and the parser enqueues none after that. -/
def Quiet (s : State) : Label → Prop
  | .handlerCloses => ∀ h ∈ s.pending, h.isMessage = false
  | .parse h => s.ClosedByHandler → h.isMessage = false
  | _ => True

-- ---------------------------------------------------------------------------
-- What a step does
-- ---------------------------------------------------------------------------

inductive Effect (s s' : State) : Label → Prop
  | enqueues (hs : List Handler) : s'.log = s.log → s'.pending = s.pending ++ hs →
      s'.enqueued = s.enqueued ++ hs → (∀ h ∈ hs, h.isMessage → l = .parse h) → Effect s s' l
  | starts (h : Handler) : s'.log = s.log ++ [.started h] → s.pending = h :: s'.pending →
      s'.enqueued = s.enqueued → Effect s s' .next
  | closes : s'.log = s.log ++ [.closed] → s'.pending = s.pending → s'.enqueued = s.enqueued →
      Effect s s' .handlerCloses
  | exits (rest : List Handler) : s'.log = s.log → s.pending = rest ++ s'.pending →
      s'.thread = .exited → Effect s s' .handlerRaises

theorem Effect.moves (hlog : s'.log = s.log) (hp : s'.pending = s.pending)
    (he : s'.enqueued = s.enqueued) : Effect s s' l :=
  .enqueues [] hlog (by simpa using hp) (by simpa using he) (by simp)

theorem pending_enqueue (s : State) (hs : List Handler) :
    (enqueue s hs).pending = s.pending ++ hs := by
  unfold enqueue State.pending
  cases s.thread with
  | absent => by_cases h : s.queue ++ hs = [] <;> simp [h]
  | _ => simp

theorem effect_enqueue (s : State) (hs : List Handler) (h : ∀ h ∈ hs, h.isMessage → l = .parse h) :
    Effect s (enqueue s hs) l :=
  .enqueues hs rfl (pending_enqueue s hs) rfl h

theorem effect_snapshot (hthread : (∃ closed, s.thread = .ready closed) ∨ s.thread = .waiting)
    (b : Bool) : Effect s (snapshot s b) l := by
  have hp : s.pending = s.queue := by
    rcases hthread with ⟨closed, h⟩ | h
    · simp [State.pending, h]
    · simp [State.pending, h]
  unfold snapshot
  split
  · rename_i hb
    simp only [Bool.and_eq_true, List.isEmpty_iff] at hb
    exact .moves rfl (by rw [hp]; rfl) rfl
  · exact .moves rfl (by rw [hp]; exact List.append_nil _) rfl

theorem step_effect (h : step s l = some s') : Effect s s' l := by
  unfold step at h
  split at h
  · cases h
  · -- parse
    split at h <;> cases h
    refine effect_enqueue _ _ fun h hmem _ => ?_
    rw [List.mem_singleton.mp hmem]
  · -- wrapUp
    split at h <;> cases h
    refine .enqueues _ rfl (pending_enqueue _ _) rfl fun h hmem hm => ?_
    rcases List.mem_append.mp hmem with hr | hd
    · obtain ⟨r, -, rfl⟩ := List.mem_map.mp hr
      cases hm
    · rw [List.mem_singleton.mp hd] at hm
      cases hm
  · -- parserDies
    split at h <;> cases h
    exact .moves rfl rfl rfl
  · -- onResponse
    cases h
    refine effect_enqueue _ _ fun h hmem hm => ?_
    rw [List.mem_singleton.mp hmem] at hm
    cases hm
  · cases h
    exact .moves rfl rfl rfl
  · -- readClosed
    rename_i hthread
    cases h
    refine .moves rfl ?_ rfl
    cases hc : s.closed <;> simp [State.pending, hthread]
  · -- join
    rename_i hthread
    split at h <;> cases h
    exact .moves rfl (by simp [State.pending, hthread]) rfl
  · -- lock
    rename_i hthread
    split at h
    · cases h
      exact .moves rfl (by simp [State.pending, hthread]) rfl
    · cases h
      exact effect_snapshot (.inl ⟨_, hthread⟩) _
  · rename_i hthread
    cases h
    exact effect_snapshot (.inr hthread) _
  · rename_i hthread
    cases h
    exact .moves rfl (by simp [State.pending, hthread]) rfl
  · -- next
    rename_i hthread
    simp only [skip_eq_false] at h
    cases h
    exact .starts _ rfl (by simp [State.pending, hthread]) rfl
  · rename_i hthread
    cases h
    exact .closes rfl (by simp [State.pending, hthread]) rfl
  · rename_i hthread
    cases h
    exact .moves rfl (by simp [State.pending, hthread]) rfl
  · rename_i hthread
    cases h
    exact .exits _ rfl (by simp [State.pending, hthread]; rfl) rfl
  · cases h

theorem enqueue_absent (h : (enqueue s hs).thread = .absent) : (enqueue s hs).queue = [] := by
  unfold enqueue at h ⊢
  cases hthread : s.thread with
  | absent =>
    simp only [hthread] at h
    split at h
    · assumption
    · cases h
  | _ => simp [hthread] at h

theorem snapshot_absent (h : (snapshot s closed).thread = .absent) :
    (snapshot s closed).queue = [] := by
  unfold snapshot at h ⊢
  split at h
  · rename_i hb
    simp only [hb, if_true]
    simp only [Bool.and_eq_true, List.isEmpty_iff] at hb
    exact hb.2
  · cases h

theorem step_absent (h : step s l = some s') (hs : s.thread = .absent → s.queue = [])
    (habs : s'.thread = .absent) : s'.queue = [] := by
  unfold step at h
  split at h
  · cases h
  · split at h <;> cases h
    exact enqueue_absent habs
  · split at h <;> cases h
    exact enqueue_absent (s := s) habs
  · split at h <;> cases h
    exact hs habs
  · cases h
    exact enqueue_absent habs
  · cases h
    exact hs habs
  · cases h
    cases hc : s.closed <;> simp [hc] at habs
  · split at h <;> cases h
    cases habs
  · split at h <;> cases h
    · cases habs
    · exact snapshot_absent habs
  · cases h
    exact snapshot_absent habs
  · cases h
    cases habs
  · simp only [skip_eq_false] at h
    cases h
    cases habs
  all_goals
    rename_i hthread
    cases h
  · simp [hthread] at habs
  · cases habs
  · cases habs

-- ---------------------------------------------------------------------------
-- Runs
-- ---------------------------------------------------------------------------

/-- Once a handler has closed the channel, nothing that is pending is an
event or a request. -/
structure Sealed (s : State) : Prop where
  log : NothingAfterClose s
  pending : s.ClosedByHandler → ∀ h ∈ s.pending, h.isMessage = false

theorem sealed_step (hs : Sealed s) (hq : Quiet s l) (h : step s l = some s') : Sealed s' := by
  cases step_effect h with
  | enqueues hs' hlog hp he hmsg =>
    refine ⟨by rw [NothingAfterClose, hlog]; exact hs.log, fun hc h hmem => ?_⟩
    rw [State.ClosedByHandler, hlog] at hc
    rw [hp] at hmem
    rcases List.mem_append.mp hmem with hold | hnew
    · exact hs.pending hc h hold
    · by_contra hm
      rw [hmsg h hnew (by simpa using hm)] at hq
      exact hm (hq hc)
  | starts started hlog hp he =>
    constructor
    · rw [NothingAfterClose, hlog, List.pairwise_append]
      refine ⟨hs.log, List.pairwise_singleton _ _, fun a ha b hb hclosed h' hb' => ?_⟩
      rw [List.mem_singleton.mp hb] at hb'
      cases hb'
      have hc : s.ClosedByHandler := by rwa [State.ClosedByHandler, ← hclosed]
      exact hs.pending hc started (by simp [hp])
    · intro hc h' hmem
      have hc' : s.ClosedByHandler := by simpa [State.ClosedByHandler, hlog] using hc
      exact hs.pending hc' h' (by simp [hp, hmem])
  | closes hlog hp he =>
    constructor
    · rw [NothingAfterClose, hlog, List.pairwise_append]
      refine ⟨hs.log, List.pairwise_singleton _ _, fun a ha b hb hclosed h' hb' => ?_⟩
      rw [List.mem_singleton.mp hb] at hb'
      cases hb'
    · intro _ h' hmem
      exact hq h' (hp ▸ hmem)
  | exits rest hlog hp hexit =>
    refine ⟨by rw [NothingAfterClose, hlog]; exact hs.log, fun hc h hmem => ?_⟩
    rw [State.ClosedByHandler, hlog] at hc
    exact hs.pending hc h (by simp [hp, hmem])

theorem restRuns_step (hr : RestRuns s) (h : step s l = some s') : RestRuns s' := by
  refine ⟨fun hexit h' hmem hm => ?_, step_absent h hr.empty⟩
  have hs : s.thread ≠ .exited := by
    intro hx
    simp [step, hx] at h
  cases step_effect h with
  | enqueues hs' hlog hp he hmsg =>
    rw [he] at hmem
    rw [hlog, hp]
    rcases List.mem_append.mp hmem with hold | hnew
    · exact (hr.started hs h' hold hm).imp_right (List.mem_append_left _)
    · exact .inr (List.mem_append_right _ hnew)
  | starts h'' hlog hp he =>
    rw [he] at hmem
    rw [hlog]
    rcases hr.started hs h' hmem hm with hlog' | hpend
    · exact .inl (List.mem_append_left _ hlog')
    · rw [hp] at hpend
      rcases List.mem_cons.mp hpend with rfl | hrest
      · exact .inl (by simp)
      · exact .inr hrest
  | closes hlog hp he =>
    rw [he] at hmem
    rw [hlog, hp]
    exact (hr.started hs h' hmem hm).imp_left (List.mem_append_left _)
  | exits rest hlog hp hx => exact absurd hx hexit

/-- In every run in which a handler closes the channel only with no event or
request behind it, none is started after that; and in these runs as in all
others the handlers of responses and of the disconnect still run. -/
theorem nothing_after_close (labels : List Label) (s : State)
    (hquiet : Run.Meets step Quiet {} labels) (hrun : Run.exec step {} labels = some s) :
    NothingAfterClose s ∧ RestRuns s := by
  have hinit : Sealed {} ∧ RestRuns {} :=
    ⟨⟨.nil, nofun⟩, ⟨nofun, fun _ => rfl⟩⟩
  have hkeep := Run.exec_invariant (I := fun s => Sealed s ∧ RestRuns s)
    (fun hI hq hstep => ⟨sealed_step hI.1 hq hstep, restRuns_step hI.2 hstep⟩) hinit hquiet hrun
  exact ⟨hkeep.1.log, hkeep.2⟩

/-- A request whose handler closes the channel, with a response behind it. -/
def closingRun (request : Handler) (response : Response) : List Label :=
  [.parse request, .onResponse response [], .readClosed, .lock, .next, .handlerCloses,
    .handlerReturns, .next]

def disconnectRequest : Handler := .request 1 "disconnect" (.dict [])

def anyResponse : Response :=
  { uid := 0, seq := some 2, requestSeq := 1, command := "threads", body := .ok .null }

theorem closingRun_quiet :
    Run.Meets step Quiet {} (closingRun disconnectRequest anyResponse) := by
  refine ⟨nofun, fun s h => ?_⟩
  cases h
  refine ⟨trivial, fun s h => ?_⟩
  cases h
  refine ⟨trivial, fun s h => ?_⟩
  cases h
  refine ⟨trivial, fun s h => ?_⟩
  cases h
  refine ⟨trivial, fun s h => ?_⟩
  cases h
  refine ⟨by simp [Quiet, State.pending, snapshot, enqueue, Handler.isMessage], fun s h => ?_⟩
  cases h
  refine ⟨trivial, fun s h => ?_⟩
  cases h
  exact ⟨trivial, fun s h => trivial⟩

theorem nothing_after_disconnect : ∃ s,
    Run.exec step {} (closingRun disconnectRequest anyResponse) = some s ∧
      NothingAfterClose s ∧ RestRuns s :=
  ⟨_, rfl, nothing_after_close _ _ closingRun_quiet rfl⟩

/-- Two events in one batch, the handler of the first closing the channel: the
second is started all the same. -/
theorem not_nothing_after_close :
    ¬ ∀ labels s, Run.exec step {} labels = some s → NothingAfterClose s ∧ RestRuns s := by
  intro h
  have hrun := (h [.parse (.event 1 "exited" (.dict [])), .parse (.event 2 "output" (.dict [])),
    .readClosed, .lock, .next, .handlerCloses, .handlerReturns, .next] _ rfl).1
  simp [NothingAfterClose, snapshot, enqueue, Handler.isMessage] at hrun

end Debugpy.Handlers
