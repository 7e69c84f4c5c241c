import Debugpy.Lib.Run
import Mathlib.Logic.Function.Basic

/-!
# Waiting for servers

`wait_for_connection` and `wait_until_disconnected`, which share the event
`_connections_changed`. Each clears it before it looks at the list, and a
thread that clears it between another's look and its `wait()` takes a change
away from it. `not_lost_of_attentive` says that nothing else can lose a
wake-up. The numbers stand for calls, each of which has its own timer.
-/

namespace Debugpy.Waiters

variable {κ : Type}

inductive Call (κ : Type) where
  | waitForConnection (predicate : κ → Bool) (timeout : Option Nat)
  | waitUntilDisconnected

/-- The thread of `wait_for_timeout`, if there is one. `timed_out` is true in
the last two; in `fired` the thread is still to set the event. -/
inductive Timer where
  | off
  | sleeping
  | fired
  | expired
  deriving DecidableEq, Repr

def Timer.timedOut : Timer → Bool
  | .fired | .expired => true
  | .off | .sleeping => false

/-- `wait_for_timeout.timed_out = timeout == 0`; no thread is started for 0. -/
def Timer.start : Option Nat → Timer
  | none => .off
  | some 0 => .expired
  | some _ => .sleeping

inductive Phase where
  | absent
  /-- It is about to take the lock. -/
  | examining
  /-- It is about to call `wait()`. -/
  | leaving
  /-- It is in `wait()`, which it has called with the event clear. -/
  | blocked
  /-- It is in `wait()`, and `set()` has been called. -/
  | notified
  | returned (connection : Bool)
  deriving DecidableEq, Repr

structure Thread (κ : Type) where
  call : Call κ := .waitUntilDisconnected
  phase : Phase := .absent
  timer : Timer := .off
  /-- The list has become empty since the thread looked at it. -/
  emptied : Bool := false

structure State (κ : Type) where
  /-- `_connections`. -/
  connections : List κ := []
  /-- `_connections_changed`. -/
  changed : Bool := false
  threads : Nat → Thread κ := fun _ => {}

inductive Label (κ : Type) where
  | call (t : Nat) (call : Call κ)
  /-- The critical section of a loop. -/
  | examine (t : Nat)
  | wait (t : Nat)
  /-- `wait()` returns. -/
  | wake (t : Nat)
  | timeout (t : Nat)
  /-- The timer sets the event. -/
  | expire (t : Nat)
  | register (c : κ)
  | remove (c : κ)
  | dontWaitForFirstConnection

def Thread.notify (thread : Thread κ) : Thread κ :=
  { thread with phase := if thread.phase = .blocked then .notified else thread.phase }

def State.set (s : State κ) : State κ :=
  { s with changed := true, threads := fun t => (s.threads t).notify }

def State.setThread (s : State κ) (t : Nat) (thread : Thread κ) : State κ :=
  { s with threads := Function.update s.threads t thread }

def State.remove [DecidableEq κ] (s : State κ) (c : κ) : State κ :=
  let connections := s.connections.erase c
  { s with
    connections
    threads := fun t => { s.threads t with
      emptied := (s.threads t).emptied || connections.isEmpty } }

/-- What a thread does in its critical section, after it has cleared the event. -/
def Thread.examine (thread : Thread κ) (connections : List κ) : Thread κ :=
  match thread.call with
  | .waitForConnection predicate _ =>
    if connections.any predicate then { thread with phase := .returned true }
    else if thread.timer.timedOut then { thread with phase := .returned false }
    else { thread with phase := .leaving }
  | .waitUntilDisconnected =>
    if connections.isEmpty then { thread with phase := .returned false }
    else { thread with phase := .leaving, emptied := false }

def Call.begin : Call κ → Thread κ
  | .waitForConnection predicate timeout =>
    { call := .waitForConnection predicate timeout, phase := .examining, timer := .start timeout }
  | .waitUntilDisconnected => { call := .waitUntilDisconnected, phase := .leaving }

def step [DecidableEq κ] (s : State κ) : Label κ → Option (State κ)
  | .call t call =>
    if (s.threads t).phase = .absent then some (s.setThread t call.begin) else none
  | .examine t =>
    if (s.threads t).phase = .examining then
      some { s.setThread t ((s.threads t).examine s.connections) with changed := false }
    else none
  | .wait t =>
    if (s.threads t).phase = .leaving then
      some (s.setThread t
        { s.threads t with phase := if s.changed then .examining else .blocked })
    else none
  | .wake t =>
    if (s.threads t).phase = .notified then
      some (s.setThread t { s.threads t with phase := .examining })
    else none
  | .timeout t =>
    if (s.threads t).timer = .sleeping then
      some (s.setThread t { s.threads t with timer := .fired })
    else none
  | .expire t =>
    if (s.threads t).timer = .fired then
      some (s.setThread t { s.threads t with timer := .expired }).set
    else none
  | .register c =>
    if c ∈ s.connections then none
    else some { s with connections := s.connections ++ [c] }.set
  | .remove c => if c ∈ s.connections then some (s.remove c).set else none
  | .dontWaitForFirstConnection => some s.set

-- ---------------------------------------------------------------------------
-- The rule
-- ---------------------------------------------------------------------------

/-- What the thread waits for has happened. -/
def Thread.Due (thread : Thread κ) (connections : List κ) : Prop :=
  match thread.call with
  | .waitForConnection predicate _ =>
    (∃ c ∈ connections, predicate c = true) ∨ thread.timer = .expired
  | .waitUntilDisconnected => thread.emptied = true

/-- A thread is blocked although what it waits for has happened. -/
def Lost (s : State κ) (t : Nat) : Prop :=
  (s.threads t).phase = .blocked ∧ s.changed = false ∧ (s.threads t).Due s.connections

/-- The condition on a step: no thread clears the event while another is about
to call `wait()` for something that has happened. -/
def Attentive (s : State κ) : Label κ → Prop
  | .examine t => ∀ u, u ≠ t → (s.threads u).phase = .leaving → ¬ (s.threads u).Due s.connections
  | _ => True

-- ---------------------------------------------------------------------------
-- The invariant
-- ---------------------------------------------------------------------------

/-- What is known of a thread, given the list and whether the event is set. -/
structure Awake (thread : Thread κ) (connections : List κ) (changed : Bool) : Prop where
  leaving : thread.phase = .leaving → thread.Due connections → changed = true
  blocked : thread.phase = .blocked → ¬ thread.Due connections

def Inv (s : State κ) : Prop := ∀ t, Awake (s.threads t) s.connections s.changed

theorem Awake.of_busy {thread : Thread κ} (hl : thread.phase ≠ .leaving)
    (hb : thread.phase ≠ .blocked) : Awake thread connections changed :=
  ⟨fun h => absurd h hl, fun h => absurd h hb⟩

theorem Awake.notify (thread : Thread κ) : Awake thread.notify connections true := by
  refine ⟨fun _ _ => rfl, fun h => ?_⟩
  unfold Thread.notify at h
  split at h
  · cases h
  · contradiction

theorem inv_set (s : State κ) : Inv s.set := fun t => Awake.notify (s.threads t)

theorem inv_setThread {s : State κ} (hi : Inv s) (h : Awake thread s.connections s.changed) :
    Inv (s.setThread t thread) := by
  intro u
  by_cases hu : u = t
  · subst hu
    simpa [State.setThread] using h
  · simpa [State.setThread, hu] using hi u

theorem Awake.examine (thread : Thread κ) (connections : List κ) :
    Awake (thread.examine connections) connections false := by
  unfold Thread.examine
  split
  · rename_i predicate timeout hcall
    split
    · exact .of_busy nofun nofun
    · rename_i hany
      split
      · exact .of_busy nofun nofun
      · rename_i htimer
        refine ⟨fun _ hdue => ?_, nofun⟩
        simp only [Thread.Due, hcall] at hdue
        rcases hdue with ⟨c, hmem, hc⟩ | hexp
        · exact absurd (List.any_eq_true.mpr ⟨c, hmem, hc⟩) hany
        · exact absurd (by rw [hexp]; rfl) htimer
  · rename_i hcall
    split
    · exact .of_busy nofun nofun
    · refine ⟨fun _ hdue => ?_, nofun⟩
      simp [Thread.Due, hcall] at hdue

theorem inv_examine {s : State κ} (hi : Inv s) (hq : Attentive s (.examine t)) :
    Inv { s.setThread t ((s.threads t).examine s.connections) with changed := false } := by
  intro u
  by_cases hu : u = t
  · subst hu
    simpa [State.setThread] using Awake.examine (s.threads u) s.connections
  · have hother : Awake (s.threads u) s.connections false :=
      ⟨fun hl hdue => absurd hdue (hq u hu hl), (hi u).blocked⟩
    simpa [State.setThread, hu] using hother

/-- A thread blocks only if the event is clear, and then there is nothing that
it has missed. -/
theorem Awake.wait {thread : Thread κ} (h : Awake thread connections changed)
    (hl : thread.phase = .leaving) :
    Awake { thread with phase := if changed then .examining else .blocked } connections changed := by
  cases changed with
  | true => exact .of_busy nofun nofun
  | false =>
    refine ⟨nofun, fun _ hdue => ?_⟩
    cases h.leaving hl hdue

theorem Awake.timeout {thread : Thread κ} (h : Awake thread connections changed) :
    Awake { thread with timer := .fired } connections changed := by
  have hdue : Thread.Due { thread with timer := .fired } connections → thread.Due connections := by
    unfold Thread.Due
    cases thread.call with
    | waitForConnection predicate timeout => exact fun hd => .inl (hd.resolve_right nofun)
    | waitUntilDisconnected => exact id
  exact ⟨fun hl hd => h.leaving hl (hdue hd), fun hb hd => h.blocked hb (hdue hd)⟩

theorem Awake.begin (call : Call κ) (connections : List κ) (changed : Bool) :
    Awake call.begin connections changed := by
  cases call with
  | waitForConnection predicate timeout => exact .of_busy nofun nofun
  | waitUntilDisconnected => exact ⟨fun _ hdue => (nomatch hdue), nofun⟩

theorem inv_step [DecidableEq κ] {s s' : State κ} (hi : Inv s) (hq : Attentive s l) (h : step s l = some s') :
    Inv s' := by
  cases l with
  | call t call =>
    simp only [step] at h
    split at h <;> cases h
    exact inv_setThread hi (.begin call _ _)
  | examine t =>
    simp only [step] at h
    split at h <;> cases h
    exact inv_examine hi hq
  | wait t =>
    simp only [step] at h
    split at h <;> cases h
    rename_i hl
    exact inv_setThread hi ((hi t).wait hl)
  | wake t =>
    simp only [step] at h
    split at h <;> cases h
    exact inv_setThread hi (.of_busy nofun nofun)
  | timeout t =>
    simp only [step] at h
    split at h <;> cases h
    exact inv_setThread hi (hi t).timeout
  | expire t =>
    simp only [step] at h
    split at h <;> cases h
    exact inv_set _
  | register c =>
    simp only [step] at h
    split at h <;> cases h
    exact inv_set _
  | remove c =>
    simp only [step] at h
    split at h <;> cases h
    exact inv_set _
  | dontWaitForFirstConnection =>
    cases h
    exact inv_set _

theorem inv_init : Inv ({} : State κ) := fun _ => .of_busy nofun nofun

/-- In every run in which no thread clears the event while another is about to
wait for something that has happened, no wake-up is lost. -/
theorem not_lost_of_attentive [DecidableEq κ] (labels : List (Label κ)) (s : State κ)
    (hq : Run.Meets step Attentive {} labels) (hrun : Run.exec step {} labels = some s) (t : Nat) :
    ¬ Lost s t := by
  have hinv : Inv s := Run.exec_invariant (fun hi hq h => inv_step hi hq h) inv_init hq hrun
  rintro ⟨hblocked, -, hdue⟩
  exact (hinv t).blocked hblocked hdue

/-- Two calls clear the event while the other is about to wait, for something
that has not happened, and are woken by the registration of a connection. -/
def wokenRun : List (Label Nat) :=
  [.call 0 (.waitForConnection (· == 7) none), .call 1 (.waitForConnection (· == 8) none),
    .examine 0, .examine 1, .wait 0, .wait 1, .register 7, .wake 1, .examine 1, .wake 0, .examine 0]

theorem attentive_wokenRun : Run.Meets step Attentive {} wokenRun := by
  refine ⟨trivial, fun s h => ?_⟩
  cases h
  refine ⟨trivial, fun s h => ?_⟩
  cases h
  refine ⟨fun u hu hl => ?_, fun s h => ?_⟩
  · by_cases h1 : u = 1 <;> simp_all [State.setThread, Call.begin]
  cases h
  refine ⟨fun u hu hl => ?_, fun s h => ?_⟩
  · -- the first thread has looked, and its connection is not there
    by_cases h0 : u = 0
    · subst h0
      rintro (⟨c, hc, -⟩ | hexpired)
      · cases hc
      · cases hexpired
    · simp [State.setThread, hu, h0] at hl
  cases h
  refine ⟨trivial, fun s h => ?_⟩
  cases h
  refine ⟨trivial, fun s h => ?_⟩
  cases h
  refine ⟨trivial, fun s h => ?_⟩
  cases h
  refine ⟨trivial, fun s h => ?_⟩
  cases h
  refine ⟨fun u hu hl => ?_, fun s h => ?_⟩
  · by_cases h0 : u = 0
    · subst h0
      cases hl
    · simp [State.setThread, State.set, Thread.notify, hu, h0] at hl
  cases h
  refine ⟨trivial, fun s h => ?_⟩
  cases h
  refine ⟨fun u hu hl => ?_, fun s h => trivial⟩
  -- the second has looked, and what is there is not for it
  by_cases h1 : u = 1
  · subst h1
    rintro (⟨c, hc, height⟩ | hexpired)
    · cases List.mem_singleton.mp hc
      cases height
    · cases hexpired
  · simp [State.setThread, State.set, Thread.notify, hu, h1] at hl

theorem not_lost_wokenRun : ∃ s, Run.exec step {} wokenRun = some s ∧
    (s.threads 0).phase = .returned true ∧ ¬ Lost s 0 ∧ ¬ Lost s 1 :=
  ⟨_, rfl, rfl, not_lost_of_attentive wokenRun _ attentive_wokenRun rfl 0,
    not_lost_of_attentive wokenRun _ attentive_wokenRun rfl 1⟩

/-- The main thread has looked at the list, and a client's thread clears the
event before it waits: it stays blocked, with the list empty. -/
theorem exists_lost :
    ¬ ∀ (labels : List (Label Nat)) (s : State Nat), Run.exec step {} labels = some s →
      ∀ t, ¬ Lost s t := by
  intro h
  refine h [.call 0 .waitUntilDisconnected, .register 7, .wait 0, .examine 0, .remove 7,
    .call 1 (.waitForConnection (fun _ => true) none), .examine 1, .wait 0] _ rfl 0 ?_
  exact ⟨rfl, rfl, rfl⟩

-- ---------------------------------------------------------------------------
-- The first server
-- ---------------------------------------------------------------------------

inductive Label.Signals : Label κ → Prop
  | register : Signals (.register c)
  | dontWaitForFirstConnection : Signals .dontWaitForFirstConnection
  | expire : Signals (.expire t)

/-- The thread waits for the first connection, and nothing has happened. -/
structure Quiet (t : Nat) (s : State κ) : Prop where
  connections : s.connections = []
  changed : s.changed = false
  call : (s.threads t).call = .waitUntilDisconnected
  waits : (s.threads t).phase = .leaving ∨ (s.threads t).phase = .blocked

theorem Quiet.not_absent {s : State κ} (h : Quiet t s) : (s.threads t).phase ≠ .absent := by
  rcases h.waits with hw | hw <;> simp [hw]

theorem Quiet.not_examining {s : State κ} (h : Quiet t s) : (s.threads t).phase ≠ .examining := by
  rcases h.waits with hw | hw <;> simp [hw]

theorem Quiet.setThread {s : State κ} (h : Quiet t s) (hu : u ≠ t) (thread : Thread κ) :
    Quiet t (s.setThread u thread) := by
  have hsame : (s.setThread u thread).threads t = s.threads t := by
    simp [State.setThread, Ne.symm hu]
  exact ⟨h.connections, h.changed, hsame ▸ h.call, hsame ▸ h.waits⟩

theorem quiet_step [DecidableEq κ] {s s' : State κ} (hi : Quiet t s) (hq : ¬ Label.Signals l)
    (h : step s l = some s') : Quiet t s' := by
  cases l with
  | call u call =>
    simp only [step] at h
    split at h <;> cases h
    rename_i hu
    exact hi.setThread (fun he => hi.not_absent (he ▸ hu)) _
  | examine u =>
    simp only [step] at h
    split at h <;> cases h
    rename_i hu
    have hset := hi.setThread (fun he => hi.not_examining (he ▸ hu))
      ((s.threads u).examine s.connections)
    exact ⟨hset.connections, rfl, hset.call, hset.waits⟩
  | wait u =>
    simp only [step] at h
    split at h <;> cases h
    by_cases hu : u = t
    · subst hu
      refine ⟨hi.connections, hi.changed, ?_, .inr ?_⟩
      · simpa [State.setThread] using hi.call
      · simp [State.setThread, hi.changed]
    · exact hi.setThread hu _
  | wake u =>
    simp only [step] at h
    split at h <;> cases h
    rename_i hu
    refine hi.setThread (fun he => ?_) _
    rcases hi.waits with hw | hw <;> simp [he, hw] at hu
  | timeout u =>
    simp only [step] at h
    split at h <;> cases h
    by_cases hu : u = t
    · subst hu
      refine ⟨hi.connections, hi.changed, ?_, ?_⟩
      · simpa [State.setThread] using hi.call
      · simpa [State.setThread] using hi.waits
    · exact hi.setThread hu _
  | expire u => exact absurd .expire hq
  | register c => exact absurd .register hq
  | remove c => simp [step, hi.connections] at h
  | dontWaitForFirstConnection => exact absurd .dontWaitForFirstConnection hq

theorem quiet_call [DecidableEq κ] {s s' : State κ} (hc : s.connections = []) (hs : s.changed = false)
    (h : step s (.call t .waitUntilDisconnected) = some s') : Quiet t s' := by
  simp only [step] at h
  split at h <;> cases h
  refine ⟨hc, hs, ?_, .inl ?_⟩
  · simp [State.setThread, Call.begin]
  · simp [State.setThread, Call.begin]

/-- A call that has begun stays the call it is. -/
def Begun (t : Nat) (call : Call κ) (s : State κ) : Prop :=
  (s.threads t).phase ≠ .absent ∧ (s.threads t).call = call

theorem Begun.setThread {s : State κ} (h : Begun t call s) {thread : Thread κ}
    (hthread : u = t → thread.phase ≠ .absent ∧ thread.call = call) :
    Begun t call (s.setThread u thread) := by
  by_cases hu : u = t
  · subst hu
    simpa [Begun, State.setThread] using hthread rfl
  · simpa [Begun, State.setThread, Ne.symm hu] using h

theorem Begun.set {s : State κ} (h : Begun t call s) : Begun t call s.set := by
  refine ⟨?_, h.2⟩
  simp only [State.set, Thread.notify]
  split
  · simp
  · exact h.1

theorem Thread.examine_begun (thread : Thread κ) (connections : List κ) :
    (thread.examine connections).phase ≠ .absent ∧
      (thread.examine connections).call = thread.call := by
  unfold Thread.examine
  cases thread.call with
  | waitForConnection predicate timeout =>
    dsimp only
    repeat' split
    all_goals exact ⟨by simp, rfl⟩
  | waitUntilDisconnected =>
    dsimp only
    split <;> exact ⟨by simp, rfl⟩

theorem begun_step [DecidableEq κ] {s s' : State κ} (hi : Begun t call s) (h : step s l = some s') :
    Begun t call s' := by
  cases l with
  | call u call =>
    simp only [step] at h
    split at h <;> cases h
    rename_i hu
    exact hi.setThread fun he => absurd (he ▸ hu) hi.1
  | examine u =>
    simp only [step] at h
    split at h <;> cases h
    have hset : Begun t call (s.setThread u ((s.threads u).examine s.connections)) := by
      refine hi.setThread fun he => ?_
      obtain ⟨hp, hc⟩ := (s.threads u).examine_begun s.connections
      exact ⟨hp, hc.trans (he ▸ hi.2)⟩
    exact hset
  | wait u =>
    simp only [step] at h
    split at h <;> cases h
    refine hi.setThread fun he => ⟨?_, he ▸ hi.2⟩
    split <;> simp
  | wake u =>
    simp only [step] at h
    split at h <;> cases h
    exact hi.setThread fun he => ⟨by simp, he ▸ hi.2⟩
  | timeout u =>
    simp only [step] at h
    split at h <;> cases h
    exact hi.setThread fun he => he ▸ hi
  | expire u =>
    simp only [step] at h
    split at h <;> cases h
    have hset : Begun t call (s.setThread u { s.threads u with timer := .expired }) :=
      hi.setThread fun he => he ▸ hi
    exact hset.set
  | register c =>
    simp only [step] at h
    split at h <;> cases h
    exact Begun.set hi
  | remove c =>
    simp only [step] at h
    split at h <;> cases h
    exact Begun.set hi
  | dontWaitForFirstConnection =>
    cases h
    exact hi.set

/-- The call returns with no connection left, and not before something happened. -/
theorem returned_of_signal [DecidableEq κ] {s₀ s₁ s₂ : State κ} (first after : List (Label κ))
    (hfirst : Run.exec step {} first = some s₀)
    (hrun : Run.exec step {} (first ++ .call t .waitUntilDisconnected :: after) = some s₁)
    (hexamine : step s₁ (.examine t) = some s₂)
    (hreturned : ∃ found, (s₂.threads t).phase = .returned found) :
    s₂.connections = [] ∧
      (s₀.connections ≠ [] ∨ (∃ c, .register c ∈ after) ∨
        .dontWaitForFirstConnection ∈ first ++ after ∨
        (s₀.connections = [] ∧ s₀.changed = true) ∨ ∃ u, .expire u ∈ after) := by
  rw [Run.exec_append, hfirst, Option.bind_some] at hrun
  obtain ⟨s, hcall, hafter⟩ := Run.exec_cons.mp hrun
  have hbegun : Begun t .waitUntilDisconnected s := by
    simp only [step] at hcall
    split at hcall <;> cases hcall
    simp [Begun, State.setThread, Call.begin]
  have hbegun₁ : Begun t .waitUntilDisconnected s₁ :=
    Run.exec_invariant (fun hi _ h => begun_step hi h) hbegun Run.meets_true hafter
  constructor
  · simp only [step] at hexamine
    split at hexamine <;> cases hexamine
    obtain ⟨found, hfound⟩ := hreturned
    simp only [State.setThread, Function.update_self, Thread.examine, hbegun₁.2] at hfound ⊢
    split at hfound
    · next he => exact List.isEmpty_iff.mp he
    · cases hfound
  · by_contra hno
    simp only [not_or, not_exists, List.mem_append, ne_eq, not_and, not_not] at hno
    obtain ⟨hconn, hreg, hdont, hchanged, hexp⟩ := hno
    have hq := quiet_call hconn (by simpa using hchanged hconn) hcall
    have hquiet : Quiet t s₁ := by
      refine Run.exec_invariant (fun hi hok h => quiet_step hi hok h) hq
        (Run.meets_of_forall fun l hl _ hs => ?_) hafter
      cases hs with
      | register => exact hreg _ hl
      | dontWaitForFirstConnection => exact hdont.2 hl
      | expire => exact hexp _ hl
    simp only [step] at hexamine
    split at hexamine
    · next hx => exact hquiet.not_examining hx
    · cases hexamine

/-- A connection is there at the call, and goes. -/
def servedRun : List (Label Nat) := [.wait 0, .examine 0, .remove 7, .wait 0]

theorem returned_servedRun : ∃ s₀ s₁ s₂ : State Nat, Run.exec step {} [.register 7] = some s₀ ∧
    Run.exec step {} ([.register 7] ++ .call 0 .waitUntilDisconnected :: servedRun) = some s₁ ∧
    step s₁ (.examine 0) = some s₂ ∧ s₂.connections = [] ∧
      (s₀.connections ≠ [] ∨ (∃ c, .register c ∈ servedRun) ∨
        .dontWaitForFirstConnection ∈ [.register 7] ++ servedRun ∨
        (s₀.connections = [] ∧ s₀.changed = true) ∨ ∃ u, .expire u ∈ servedRun) :=
  ⟨_, _, _, rfl, rfl, rfl, returned_of_signal (t := 0) [.register 7] servedRun rfl rfl rfl ⟨false, rfl⟩⟩

/-- The connection of `servedRun` was registered before the call. -/
theorem exists_returned_unregistered :
    ¬ ∀ (first after : List (Label Nat)) (s₀ s₁ s₂ : State Nat) (t : Nat),
      Run.exec step {} first = some s₀ →
      Run.exec step {} (first ++ .call t .waitUntilDisconnected :: after) = some s₁ →
      step s₁ (.examine t) = some s₂ → (∃ found, (s₂.threads t).phase = .returned found) →
      s₂.connections = [] ∧
        ((∃ c, .register c ∈ after) ∨ .dontWaitForFirstConnection ∈ first ++ after) := by
  intro h
  obtain ⟨-, hsignal⟩ := h [.register 7] servedRun _ _ _ 0 rfl rfl rfl ⟨false, rfl⟩
  rcases hsignal with ⟨c, hc⟩ | hdont
  · simp [servedRun] at hc
  · simp [servedRun] at hdont

end Debugpy.Waiters
