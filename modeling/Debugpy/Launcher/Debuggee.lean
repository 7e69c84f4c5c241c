import Debugpy.Launcher.Output
import Debugpy.Lib.Run
import Mathlib.Logic.Function.Basic

/-!
# The events of a debuggee

`spawn`, the two threads that capture output, and `wait_for_exit`, which send
on one channel. The channel can close at any point; from then on nothing is
written, which `spawn` does not survive and the other threads swallow. Each
send is one step, and so is everything that a thread does between two of them
on its own.
-/

namespace Debugpy.Debuggee

open Utf8 (Text)

inductive Category where
  | stdout
  | stderr
  deriving DecidableEq, Repr

def Category.name : Category → String
  | .stdout => "stdout"
  | .stderr => "stderr"

inductive Event where
  | process (name : String) (systemProcessId : Nat)
  | output (category : Category) (output : Text)
  | exited (exitCode : Int)
  | terminated
  deriving DecidableEq, Repr

/-- The thread of a `CaptureOutput`. -/
inductive Phase where
  | absent
  | reading
  /-- It has decoded `text`; `final` after the flush. -/
  | sending (text : Text) (final : Bool)
  | done
  deriving DecidableEq, Repr

structure Worker where
  phase : Phase := .absent
  capture : CaptureOutput

inductive Spawner where
  | starting
  /-- The process runs, and the "process" event is next. -/
  | sending
  /-- The streams that are still to be captured. -/
  | capturing (rest : List Category)
  | spawned
  | failed
  deriving DecidableEq, Repr

/-- How far `wait_for_exit` has got. -/
inductive Waiter where
  | absent
  | waiting
  /-- In `wait_for_remaining_output`, with the workers still to be joined. -/
  | joining (code : Int) (rest : List Category)
  | exiting (code : Int) (shouldWait : Bool)
  /-- In `_wait_for_user_input`. -/
  | prompting
  | terminating
  | ended
  deriving DecidableEq, Repr

/-- What a launch request has made of the call of `spawn`, and what the
system gives to it. -/
structure Launch where
  processName : String
  pid : Nat
  redirectOutput : Bool
  windows : Bool
  tee : Category → Option Tee
  predicates : List (Int → Bool)

structure State where
  /-- Whether the channel is open. -/
  channel : Bool := true
  /-- What has been written. -/
  events : List Event := []
  spawner : Spawner := .starting
  workers : Category → Worker
  /-- `CaptureOutput.instances`. -/
  instances : List Category := []
  waiter : Waiter := .absent
  returncode : Option Int := none
  /-- `wait_on_exit_predicates`. -/
  predicates : List (Int → Bool)

def Launch.capture (l : Launch) (c : Category) : CaptureOutput :=
  { category := c.name, stream := l.tee c }

def Launch.init (l : Launch) : State :=
  { workers := fun c => { capture := l.capture c }, predicates := l.predicates }

inductive Label where
  /-- The next part of `spawn`. -/
  | spawn
  /-- `spawn` raises an exception. -/
  | spawnFails
  /-- The process ends, by itself or killed. -/
  | exit (code : Int)
  /-- One turn of the loop of `_worker` up to its send; `none` is an exception
  of `os.read`. -/
  | read (c : Category) (chunk : Option Bytes)
  | send (c : Category)
  | wait
  | waitFails
  | join
  | checkPredicates
  | sendExited
  | userInput
  | userInputFails
  | sendTerminated
  /-- `terminate_request` or `disconnect`, which both clear the predicates. -/
  | terminate
  /-- The channel closes, or breaks. -/
  | close

def State.send (s : State) (event : Event) : State :=
  { s with events := if s.channel then s.events ++ [event] else s.events }

def State.setWorker (s : State) (c : Category) (worker : Worker) : State :=
  { s with workers := Function.update s.workers c worker }

def exitCode (windows : Bool) (code : Int) : Int :=
  if !windows ∧ code < 0 then code % 256 else code

def spawn (l : Launch) (s : State) : Option State :=
  match s.spawner with
  | .starting => some { s with spawner := .sending }
  | .sending =>
    if s.channel then
      some { s.send (.process l.processName l.pid) with
        spawner := .capturing (if l.redirectOutput then [.stdout, .stderr] else []) }
    else some { s with spawner := .failed }
  | .capturing (c :: rest) => some
      { s.setWorker c { phase := .reading, capture := l.capture c } with
        instances := s.instances ++ [c], spawner := .capturing rest }
  | .capturing [] => some { s with spawner := .spawned, waiter := .waiting }
  | .spawned | .failed => none

def Worker.decoded (worker : Worker) (s : Bytes) (final : Bool) : Worker :=
  let (text, capture) := worker.capture.decode s final
  { capture
    phase := if text = [] then (if final then .done else .reading) else .sending text final }

def Worker.read (worker : Worker) (chunk : Option Bytes) : Worker :=
  if worker.capture.fd then
    match chunk with
    | none => worker.decoded [] true
    | some [] => worker.decoded [] true
    | some s => { worker with
        capture := { worker.capture with reads := worker.capture.reads ++ [s] } }.decoded s false
  else worker.decoded [] true

def step (l : Launch) (s : State) : Label → Option State
  | .spawn => spawn l s
  | .spawnFails => match s.spawner with
    | .starting | .sending | .capturing _ => some { s with spawner := .failed }
    | .spawned | .failed => none
  | .exit code =>
    if s.spawner ≠ .starting ∧ s.returncode = none then some { s with returncode := some code }
    else none
  | .read c chunk =>
    if (s.workers c).phase = .reading then some (s.setWorker c ((s.workers c).read chunk)) else none
  | .send c => match (s.workers c).phase with
    | .sending text final => some
        ((s.send (.output c (replaceCRLF text))).setWorker c
          { phase := if final then .done else .reading
            capture := ((s.workers c).capture.send text).tee text })
    | _ => none
  | .wait => match s.waiter, s.returncode with
    | .waiting, some code => some
        { s with waiter := .joining (exitCode l.windows code) s.instances }
    | _, _ => none
  | .waitFails =>
    if s.waiter = .waiting then some { s with waiter := .joining (-1) s.instances } else none
  | .join => match s.waiter with
    | .joining code (c :: rest) =>
      if (s.workers c).phase = .done then some { s with waiter := .joining code rest } else none
    | _ => none
  | .checkPredicates => match s.waiter with
    | .joining code [] => some { s with waiter := .exiting code (s.predicates.any (· code)) }
    | _ => none
  | .sendExited => match s.waiter with
    | .exiting code shouldWait => some
        { s.send (.exited code) with waiter := if shouldWait then .prompting else .terminating }
    | _ => none
  | .userInput => if s.waiter = .prompting then some { s with waiter := .terminating } else none
  | .userInputFails => if s.waiter = .prompting then some { s with waiter := .ended } else none
  | .sendTerminated =>
    if s.waiter = .terminating then some { s.send .terminated with waiter := .ended } else none
  | .terminate => some { s with predicates := [] }
  | .close => some { s with channel := false }

-- ---------------------------------------------------------------------------
-- The order
-- ---------------------------------------------------------------------------

/-- The texts that the chunks of a stream make, the flush at their end
included. -/
def parts (decoder : Bytes) : List Bytes → List Text
  | [] => if Utf8.flush decoder = [] then [] else [replaceCRLF (Utf8.flush decoder)]
  | s :: reads =>
    let (decoder, text) := Utf8.decode decoder s
    if text = [] then parts decoder reads else replaceCRLF text :: parts decoder reads

def Event.text? (c : Category) : Event → Option Text
  | .output c' text => if c' = c then some text else none
  | _ => none

/-- The texts of the "output" events of a stream. -/
def State.texts (s : State) (c : Category) : List Text := s.events.filterMap (Event.text? c)

/-- The "process" event and "output" events, and `tail` after them. -/
def Written (l : Launch) (events tail : List Event) : Prop :=
  ∃ outputs, events = .process l.processName l.pid :: (outputs ++ tail) ∧
    ∀ e ∈ outputs, ∃ c text, e = .output c text

/-- Workers that have not been joined yet. -/
def State.unjoined (s : State) : List Category :=
  match s.waiter with
  | .absent | .waiting => s.instances
  | .joining _ rest => rest
  | .exiting .. | .prompting | .terminating | .ended => []

/-- What comes after the output, given how far `wait_for_exit` has got. -/
def Tail (channel : Bool) (tail : List Event) : Waiter → Prop
  | .absent | .waiting | .joining .. | .exiting .. => tail = []
  | .prompting | .terminating =>
    (∃ code, tail = [.exited code]) ∨ channel = false ∧ tail = []
  | .ended => ∃ code, tail <+: [.exited code, .terminated]

def Phase.Live (p : Phase) : Prop := p ≠ .absent ∧ p ≠ .done

structure Inv (l : Launch) (s : State) : Prop where
  unsent : s.spawner = .starting ∨ s.spawner = .sending → s.events = []
  sent : s.spawner = .spawned → s.events ≠ []
  capturing : ∀ rest, s.spawner = .capturing rest →
    s.events ≠ [] ∧ rest.Nodup ∧ ∀ c ∈ rest, (s.workers c).phase = .absent
  waiter : s.spawner ≠ .spawned → s.waiter = .absent
  silent : s.events = [] → s.waiter = .absent ∧ ∀ c, (s.workers c).phase = .absent
  order : s.events ≠ [] → ∃ tail, Written l s.events tail ∧ Tail s.channel tail s.waiter
  live : ∀ c, (s.workers c).phase.Live → c ∈ s.unjoined

section
variable {l : Launch} {s s' : State}

theorem Written.output (h : Written l events []) (c : Category) (text : Text) :
    Written l (events ++ [.output c text]) [] := by
  obtain ⟨outputs, rfl, houtputs⟩ := h
  refine ⟨outputs ++ [.output c text], by simp, fun e he => ?_⟩
  rcases List.mem_append.mp he with he | he
  · exact houtputs e he
  · exact ⟨c, text, List.mem_singleton.mp he⟩

theorem Written.append (h : Written l events tail) (event : Event) :
    Written l (events ++ [event]) (tail ++ [event]) := by
  obtain ⟨outputs, rfl, houtputs⟩ := h
  exact ⟨outputs, by simp, houtputs⟩

theorem Written.ne_nil (h : Written l events tail) : events ≠ [] := by
  obtain ⟨outputs, rfl, -⟩ := h
  simp

theorem tail_of_unjoined (h : Tail s.channel tail s.waiter) (hc : c ∈ s.unjoined) : tail = [] := by
  unfold State.unjoined at hc
  split at hc
  all_goals simp_all [Tail]

theorem inv_spawn (hi : Inv l s) (h : spawn l s = some s') : Inv l s' := by
  unfold spawn at h
  split at h
  · rename_i hs
    cases h
    have hnil := hi.unsent (.inl hs)
    exact ⟨fun _ => hnil, nofun, nofun, fun _ => (hi.silent hnil).1, hi.silent, hi.order, hi.live⟩
  · rename_i hs
    have hnil := hi.unsent (.inr hs)
    obtain ⟨hwaiter, habsent⟩ := hi.silent hnil
    split at h
    · rename_i hopen
      cases h
      have hevents : (s.send (.process l.processName l.pid)).events =
          [.process l.processName l.pid] := by
        simp [State.send, hopen, hnil]
      refine ⟨by simp, by simp, ?_, fun _ => hwaiter, ?_, ?_, hi.live⟩
      · intro rest hrest
        refine ⟨by simp [hevents], ?_, fun c _ => habsent c⟩
        cases hrest
        split <;> decide
      · intro hno
        simp [hevents] at hno
      · refine fun _ => ⟨[], ⟨[], hevents, by simp⟩, ?_⟩
        simp [State.send, hwaiter, Tail]
    · cases h
      exact ⟨by simp, by simp, by simp, fun _ => hwaiter, hi.silent, hi.order, hi.live⟩
  · rename_i c rest hs
    cases h
    obtain ⟨hne, hnodup, habsent⟩ := hi.capturing _ hs
    have hwaiter := hi.waiter (by simp [hs])
    refine ⟨by simp, by simp, ?_, fun _ => hwaiter, fun hno => absurd hno hne, hi.order, ?_⟩
    · intro rest' hrest
      cases hrest
      refine ⟨hne, hnodup.tail, fun c' hc' => ?_⟩
      have hcc : c' ≠ c := fun heq => (List.nodup_cons.mp hnodup).1 (heq ▸ hc')
      simpa [State.setWorker, hcc] using habsent c' (List.mem_cons_of_mem _ hc')
    · intro c' hlive
      have hunjoined : s.unjoined = s.instances := by simp [State.unjoined, hwaiter]
      simp only [State.unjoined, State.setWorker, hwaiter, List.mem_append, List.mem_singleton]
      by_cases hcc : c' = c
      · exact .inr hcc
      · exact .inl (hunjoined ▸ hi.live c' (by simpa [State.setWorker, hcc] using hlive))
  · rename_i hs
    cases h
    have hwaiter := hi.waiter (by simp [hs])
    obtain ⟨hne, -, -⟩ := hi.capturing _ hs
    refine ⟨by simp, fun _ => hne, by simp, by simp, fun hno => absurd hno hne, fun _ => ?_,
      fun c hlive => ?_⟩
    · obtain ⟨tail, hwritten, htail⟩ := hi.order hne
      rw [hwaiter] at htail
      exact ⟨tail, hwritten, htail⟩
    · have hmem := hi.live c hlive
      simpa [State.unjoined, hwaiter] using hmem
  · cases h
  · cases h

theorem inv_setWorker (hi : Inv l s) (hlive : (s.workers c).phase.Live) :
    Inv l (s.setWorker c worker) := by
  have hmem := hi.live c hlive
  have hphase : ∀ c', (s.workers c').phase = .absent →
      ((s.setWorker c worker).workers c').phase = .absent := by
    intro c' habsent
    have hcc : c' ≠ c := by
      rintro rfl
      exact hlive.1 habsent
    simpa [State.setWorker, hcc] using habsent
  refine ⟨hi.unsent, hi.sent, ?_, hi.waiter, ?_, hi.order, ?_⟩
  · intro rest hrest
    obtain ⟨hne, hnodup, habsent⟩ := hi.capturing rest hrest
    exact ⟨hne, hnodup, fun c' hc' => hphase c' (habsent c' hc')⟩
  · intro hnil
    obtain ⟨hwaiter, habsent⟩ := hi.silent hnil
    exact ⟨hwaiter, fun c' => hphase c' (habsent c')⟩
  · intro c' hlive'
    by_cases hcc : c' = c
    · exact hcc ▸ hmem
    · exact hi.live c' (by simpa [State.setWorker, hcc] using hlive')

/-- A worker sends: it has not been joined, so that nothing comes after the
output yet. -/
theorem inv_output (hi : Inv l s) (hlive : (s.workers c).phase.Live) (text : Text) :
    Inv l (s.send (.output c text)) := by
  have hne : s.events ≠ [] := fun hnil => hlive.1 ((hi.silent hnil).2 c)
  obtain ⟨tail, hwritten, htail⟩ := hi.order hne
  obtain rfl := tail_of_unjoined htail (hi.live c hlive)
  have hwritten' : Written l (s.send (.output c text)).events [] := by
    unfold State.send
    dsimp only
    split
    · exact hwritten.output c text
    · exact hwritten
  have hne' := hwritten'.ne_nil
  refine ⟨?_, fun _ => hne', ?_, hi.waiter, fun hnil => absurd hnil hne',
    fun _ => ⟨[], hwritten', htail⟩, hi.live⟩
  · exact fun hs => absurd (hi.unsent hs) hne
  · intro rest hrest
    obtain ⟨-, hnodup, habsent⟩ := hi.capturing rest hrest
    exact ⟨hne', hnodup, habsent⟩

theorem inv_waiter (hi : Inv l s) (hw : s.waiter ≠ .absent) {waiter : Waiter} {events : List Event}
    (horder : ∀ tail, Written l s.events tail → Tail s.channel tail s.waiter →
      ∃ tail', Written l events tail' ∧ Tail s.channel tail' waiter)
    (hlive : ∀ c ∈ s.unjoined, (s.workers c).phase = .done ∨
      c ∈ State.unjoined { s with waiter, events }) :
    Inv l { s with waiter, events } := by
  have hspawned : s.spawner = .spawned := by
    by_contra hs
    exact hw (hi.waiter hs)
  have hne : s.events ≠ [] := fun hnil => hw (hi.silent hnil).1
  obtain ⟨tail, hwritten, htail⟩ := hi.order hne
  obtain ⟨tail', hwritten', htail'⟩ := horder tail hwritten htail
  have hne' := hwritten'.ne_nil
  refine ⟨?_, fun _ => hne', ?_, fun hs => absurd hspawned hs, fun hnil => absurd hnil hne',
    fun _ => ⟨tail', hwritten', htail'⟩, ?_⟩
  · rintro (hs | hs) <;> exact absurd (hspawned.symm.trans hs) (by simp)
  · intro rest hs
    exact absurd (hspawned.symm.trans hs) (by simp)
  · intro c hc
    exact (hlive c (hi.live c hc)).resolve_left hc.2

theorem inv_send (hi : Inv l s) (hphase : (s.workers c).phase = .sending text final) :
    Inv l ((s.send (.output c (replaceCRLF text))).setWorker c worker) := by
  have hlive : (s.workers c).phase.Live := by simp [Phase.Live, hphase]
  exact inv_setWorker (inv_output hi hlive _) hlive

theorem tail_send (h : Written l s.events tail) (event : Event) :
    Written l (s.send event).events (if s.channel then tail ++ [event] else tail) := by
  unfold State.send
  dsimp only
  split
  · exact h.append event
  · exact h

theorem Tail.isPrefix (h : Tail channel tail waiter) :
    ∃ code, tail <+: [.exited code, .terminated] := by
  cases waiter with
  | prompting | terminating =>
    rcases h with ⟨code, rfl⟩ | ⟨-, rfl⟩
    · exact ⟨code, by simp⟩
    · exact ⟨0, List.nil_prefix⟩
  | ended => exact h
  | _ =>
    obtain rfl := h
    exact ⟨0, List.nil_prefix⟩

theorem Tail.close (h : Tail channel tail waiter) : Tail false tail waiter := by
  cases waiter with
  | prompting | terminating => exact h.imp_right fun hclosed => ⟨rfl, hclosed.2⟩
  | _ => exact h

theorem inv_step (hi : Inv l s) (h : step l s label = some s') : Inv l s' := by
  cases label with
  | spawn => exact inv_spawn hi h
  | spawnFails =>
    simp only [step] at h
    split at h
    all_goals cases h
    all_goals
      rename_i hs
      have hwaiter := hi.waiter (by simp [hs])
      exact ⟨by simp, by simp, by simp, fun _ => hwaiter, hi.silent, hi.order, hi.live⟩
  | exit code =>
    simp only [step] at h
    split at h <;> cases h
    exact { hi with }
  | read c chunk =>
    simp only [step] at h
    split at h <;> cases h
    rename_i hphase
    exact inv_setWorker hi (by simp [Phase.Live, hphase])
  | send c =>
    simp only [step] at h
    split at h <;> cases h
    rename_i hphase
    exact inv_send hi hphase
  | wait =>
    simp only [step] at h
    split at h <;> cases h
    rename_i hw _
    refine inv_waiter hi (by simp [hw]) (fun tail hwritten htail => ?_) fun c hc => .inr ?_
    · exact ⟨tail, hwritten, by simpa [Tail, hw] using htail⟩
    · simpa [State.unjoined, hw] using hc
  | waitFails =>
    simp only [step] at h
    split at h <;> cases h
    rename_i hw
    refine inv_waiter hi (by simp [hw]) (fun tail hwritten htail => ?_) fun c hc => .inr ?_
    · exact ⟨tail, hwritten, by simpa [Tail, hw] using htail⟩
    · simpa [State.unjoined, hw] using hc
  | join =>
    simp only [step] at h
    split at h
    swap
    · cases h
    split at h <;> cases h
    rename_i code c rest hw hdone
    refine inv_waiter hi (by simp [hw]) (fun tail hwritten htail => ?_) fun c' hc' => ?_
    · exact ⟨tail, hwritten, by simpa [Tail, hw] using htail⟩
    · simp only [State.unjoined, hw, List.mem_cons] at hc'
      rcases hc' with rfl | hc'
      · exact .inl hdone
      · exact .inr hc'
  | checkPredicates =>
    simp only [step] at h
    split at h <;> cases h
    rename_i code hw
    refine inv_waiter hi (by simp [hw]) (fun tail hwritten htail => ?_) fun c hc => ?_
    · exact ⟨tail, hwritten, by simpa [Tail, hw] using htail⟩
    · simp [State.unjoined, hw] at hc
  | sendExited =>
    simp only [step] at h
    split at h <;> cases h
    rename_i code shouldWait hw
    refine inv_waiter hi (by simp [hw]) (fun tail hwritten htail => ?_) fun c hc => ?_
    · obtain rfl : tail = [] := by simpa [Tail, hw] using htail
      refine ⟨_, tail_send hwritten (.exited code), ?_⟩
      have htail' : ∀ waiter, waiter = .prompting ∨ waiter = .terminating →
          Tail s.channel (if s.channel then [] ++ [.exited code] else []) waiter := by
        rintro waiter (rfl | rfl) <;> cases s.channel <;> simp [Tail]
      cases shouldWait
      · exact htail' _ (.inr rfl)
      · exact htail' _ (.inl rfl)
    · simp [State.unjoined, hw] at hc
  | userInput =>
    simp only [step] at h
    split at h <;> cases h
    rename_i hw
    refine inv_waiter hi (by simp [hw]) (fun tail hwritten htail => ?_) fun c hc => ?_
    · exact ⟨tail, hwritten, by simpa [Tail, hw] using htail⟩
    · simp [State.unjoined, hw] at hc
  | userInputFails =>
    simp only [step] at h
    split at h <;> cases h
    rename_i hw
    refine inv_waiter hi (by simp [hw]) (fun tail hwritten htail => ?_) fun c hc => ?_
    · exact ⟨tail, hwritten, htail.isPrefix⟩
    · simp [State.unjoined, hw] at hc
  | sendTerminated =>
    simp only [step] at h
    split at h <;> cases h
    rename_i hw
    refine inv_waiter hi (by simp [hw]) (fun tail hwritten htail => ?_) fun c hc => ?_
    · refine ⟨_, tail_send hwritten .terminated, ?_⟩
      rw [hw] at htail
      rcases htail with ⟨code, rfl⟩ | ⟨hclosed, rfl⟩
      · refine ⟨code, ?_⟩
        split <;> simp
      · exact ⟨0, by simp [hclosed]⟩
    · simp [State.unjoined, hw] at hc
  | terminate =>
    cases h
    exact { hi with }
  | close =>
    cases h
    refine ⟨hi.unsent, hi.sent, hi.capturing, hi.waiter, hi.silent, fun hne => ?_, hi.live⟩
    obtain ⟨tail, hwritten, htail⟩ := hi.order hne
    exact ⟨tail, hwritten, htail.close⟩

theorem inv_init (l : Launch) : Inv l l.init := by
  constructor <;> simp [Launch.init, Phase.Live]

end

-- ---------------------------------------------------------------------------
-- The parts of a stream
-- ---------------------------------------------------------------------------

/-- What a worker has sent are the parts of what it has read, but for the one
that it is sending. -/
def Worker.Progress (worker : Worker) : Prop :=
  let c := worker.capture
  match worker.phase with
  | .absent | .reading => ∀ rest, parts [] (c.reads ++ rest) = c.sent ++ parts c.decoder rest
  | .sending text false => ∀ rest,
    parts [] (c.reads ++ rest) = c.sent ++ replaceCRLF text :: parts c.decoder rest
  | .sending text true => parts [] c.reads = c.sent ++ [replaceCRLF text]
  | .done => parts [] c.reads = c.sent

theorem Worker.Progress.isPrefix {worker : Worker} (h : worker.Progress) :
    worker.capture.sent <+: parts [] worker.capture.reads := by
  unfold Worker.Progress at h
  dsimp only at h
  split at h
  · exact ⟨_, by rw [← h, List.append_nil]⟩
  · exact ⟨_, by rw [← h, List.append_nil]⟩
  · exact ⟨_, by rw [← h, List.append_nil]⟩
  · exact ⟨_, h.symm⟩
  · exact ⟨[], by rw [h, List.append_nil]⟩

theorem Worker.Progress.flush {worker : Worker} (h : worker.Progress)
    (hphase : worker.phase = .reading) : (worker.decoded [] true).Progress := by
  have hparts := h
  simp only [Worker.Progress, hphase] at hparts
  replace hparts := hparts []
  rw [List.append_nil, parts] at hparts
  by_cases ht : Utf8.flush worker.capture.decoder = []
  · simpa [Worker.decoded, Worker.Progress, CaptureOutput.decode, ht] using hparts
  · simpa [Worker.decoded, Worker.Progress, CaptureOutput.decode, ht] using hparts

theorem Worker.Progress.chunk {worker : Worker} (h : worker.Progress)
    (hphase : worker.phase = .reading) (s : Bytes) :
    Progress (Worker.decoded { worker with
      capture := { worker.capture with reads := worker.capture.reads ++ [s] } } s false) := by
  have hparts : ∀ rest, parts [] (worker.capture.reads ++ [s] ++ rest) =
      worker.capture.sent ++ parts worker.capture.decoder (s :: rest) := by
    simp only [Worker.Progress, hphase] at h
    intro rest
    rw [List.append_assoc, List.singleton_append]
    exact h (s :: rest)
  by_cases ht : (Utf8.decode worker.capture.decoder s).2 = []
  · simpa [Worker.decoded, Worker.Progress, CaptureOutput.decode, parts, ht] using hparts
  · simpa [Worker.decoded, Worker.Progress, CaptureOutput.decode, parts, ht] using hparts

theorem Worker.Progress.read {worker : Worker} (h : worker.Progress)
    (hphase : worker.phase = .reading) (chunk : Option Bytes) : (worker.read chunk).Progress := by
  unfold Worker.read
  split
  · split
    · exact h.flush hphase
    · exact h.flush hphase
    · exact h.chunk hphase _
  · exact h.flush hphase

theorem Worker.decoded_sent (worker : Worker) (s : Bytes) (final : Bool) :
    (worker.decoded s final).capture.sent = worker.capture.sent := by
  cases final <;> rfl

theorem Worker.decoded_ne_absent (worker : Worker) (s : Bytes) (final : Bool) :
    (worker.decoded s final).phase ≠ .absent := by
  unfold Worker.decoded
  dsimp only
  split
  · split <;> simp
  · simp

theorem Worker.read_sent (worker : Worker) (chunk : Option Bytes) :
    (worker.read chunk).capture.sent = worker.capture.sent := by
  unfold Worker.read
  split
  · split <;> exact Worker.decoded_sent _ _ _
  · exact Worker.decoded_sent _ _ _

theorem Worker.read_ne_absent (worker : Worker) (chunk : Option Bytes) :
    (worker.read chunk).phase ≠ .absent := by
  unfold Worker.read
  split
  · split <;> exact Worker.decoded_ne_absent _ _ _
  · exact Worker.decoded_ne_absent _ _ _

theorem Worker.Progress.send {worker : Worker} (h : worker.Progress)
    (hphase : worker.phase = .sending text final) :
    Progress { phase := if final then .done else .reading
               capture := (worker.capture.send text).tee text } := by
  cases final
  · simpa [Worker.Progress, hphase, CaptureOutput.send] using h
  · simpa [Worker.Progress, hphase, CaptureOutput.send] using h

/-- The "output" events of a stream are what its worker has sent, up to the
close of the channel. -/
structure Following (l : Launch) (s : State) (c : Category) : Prop where
  fresh : (s.workers c).phase = .absent → (s.workers c).capture = l.capture c
  progress : (s.workers c).Progress
  texts : s.texts c <+: (s.workers c).capture.sent
  all : s.channel = true → s.texts c = (s.workers c).capture.sent

section
variable {l : Launch} {s s' : State}

theorem Following.of_eq (h : Following l s c) (hw : s'.workers c = s.workers c)
    (ht : s'.texts c = s.texts c) (hc : s'.channel = true → s.channel = true) :
    Following l s' c := by
  constructor
  · rw [hw]
    exact h.fresh
  · rw [hw]
    exact h.progress
  · rw [hw, ht]
    exact h.texts
  · rw [hw, ht]
    exact fun hopen => h.all (hc hopen)

theorem texts_send (s : State) (h : Event.text? c event = none) :
    (s.send event).texts c = s.texts c := by
  unfold State.texts State.send
  dsimp only
  split
  · simp [h]
  · rfl

theorem texts_output (s : State) (c : Category) (text : Text) :
    (s.send (.output c text)).texts c =
      if s.channel then s.texts c ++ [text] else s.texts c := by
  unfold State.texts State.send
  dsimp only
  split
  · simp [Event.text?]
  · rfl

theorem following_spawn (hf : ∀ c, Following l s c) (h : spawn l s = some s') (hi : Inv l s)
    (c : Category) : Following l s' c := by
  unfold spawn at h
  split at h
  · cases h
    exact (hf c).of_eq rfl rfl id
  · split at h <;> cases h
    · exact (hf c).of_eq rfl (texts_send s rfl) id
    · exact (hf c).of_eq rfl rfl id
  · rename_i c' rest hs
    cases h
    by_cases hcc : c = c'
    · subst hcc
      -- The worker has sent nothing before it is there.
      have habsent := (hi.capturing _ hs).2.2 c List.mem_cons_self
      have hcapture := (hf c).fresh habsent
      have hnil : s.texts c = [] := by
        have htexts := (hf c).texts
        rw [hcapture] at htexts
        exact List.prefix_nil.mp htexts
      have htexts : ∀ instances spawner, State.texts { s.setWorker c
          { phase := .reading, capture := l.capture c } with instances, spawner } c = [] :=
        fun _ _ => hnil
      constructor
      · simp [State.setWorker]
      · simp only [State.setWorker, Function.update_self]
        exact fun _ => rfl
      · rw [htexts]
        exact List.nil_prefix
      · rw [htexts]
        simp [State.setWorker, Launch.capture]
    · exact (hf c).of_eq (by simp [State.setWorker, hcc]) rfl id
  · cases h
    exact (hf c).of_eq rfl rfl id
  · cases h
  · cases h

theorem following_send (hf : Following l s c) (hphase : (s.workers c).phase = .sending text final) :
    Following l ((s.send (.output c (replaceCRLF text))).setWorker c
      { phase := if final then .done else .reading
        capture := ((s.workers c).capture.send text).tee text }) c := by
  have htexts : ∀ worker, State.texts ((s.send (.output c (replaceCRLF text))).setWorker c worker) c
      = if s.channel then s.texts c ++ [replaceCRLF text] else s.texts c := fun worker =>
    texts_output s c (replaceCRLF text)
  constructor
  · simp only [State.setWorker, Function.update_self]
    cases final <;> simp
  · simp only [State.setWorker, Function.update_self]
    exact hf.progress.send hphase
  · rw [htexts]
    simp only [State.setWorker, Function.update_self, CaptureOutput.tee_sent, CaptureOutput.send]
    split
    · rename_i hopen
      have hall : s.texts c = (s.workers c).capture.sent := hf.all hopen
      exact hall ▸ List.prefix_rfl
    · exact hf.texts.trans (List.prefix_append _ _)
  · intro hopen
    replace hopen : s.channel = true := hopen
    rw [htexts, if_pos hopen, hf.all hopen]
    simp [State.setWorker, CaptureOutput.send]

theorem following_step (hf : ∀ c, Following l s c) (hi : Inv l s)
    (h : step l s label = some s') (c : Category) : Following l s' c := by
  cases label with
  | spawn => exact following_spawn hf h hi c
  | read c' chunk =>
    simp only [step] at h
    split at h <;> cases h
    rename_i hphase
    by_cases hcc : c = c'
    · subst hcc
      have hworker : (s.setWorker c ((s.workers c).read chunk)).workers c =
          (s.workers c).read chunk := by
        simp [State.setWorker]
      constructor
      · rw [hworker]
        exact fun habsent => absurd habsent (Worker.read_ne_absent _ _)
      · rw [hworker]
        exact (hf c).progress.read hphase chunk
      · rw [hworker, Worker.read_sent]
        exact (hf c).texts
      · rw [hworker, Worker.read_sent]
        exact (hf c).all
    · exact (hf c).of_eq (by simp [State.setWorker, hcc]) rfl id
  | send c' =>
    simp only [step] at h
    split at h <;> cases h
    rename_i text final hphase
    by_cases hcc : c = c'
    · subst hcc
      exact following_send (hf c) hphase
    · refine (hf c).of_eq (by simp [State.setWorker, hcc, State.send]) ?_ id
      exact texts_send s (by simp [Event.text?, Ne.symm hcc])
  | sendExited =>
    simp only [step] at h
    split at h <;> cases h
    exact (hf c).of_eq rfl (texts_send s rfl) id
  | sendTerminated =>
    simp only [step] at h
    split at h <;> cases h
    exact (hf c).of_eq rfl (texts_send s rfl) id
  | close =>
    cases h
    exact (hf c).of_eq rfl rfl nofun
  | terminate =>
    cases h
    exact (hf c).of_eq rfl rfl id
  | join =>
    simp only [step] at h
    split at h
    · split at h <;> cases h
      exact (hf c).of_eq rfl rfl id
    · cases h
  | spawnFails | exit | wait | waitFails | checkPredicates | userInput | userInputFails =>
    simp only [step] at h
    split at h <;> cases h
    all_goals exact (hf c).of_eq rfl rfl id

theorem following_init (l : Launch) (c : Category) : Following l l.init c :=
  ⟨fun _ => rfl, fun _ => rfl, List.nil_prefix, fun _ => rfl⟩

end

/-- However the threads interleave, whenever the process is killed and
wherever the channel closes, a debuggee that was spawned gets one "process"
event, then the parts of its streams, then "exited", then "terminated". -/
theorem events_inOrder (l : Launch) (labels : List Label) (s : State)
    (hrun : Run.exec (step l) l.init labels = some s) (hspawned : s.spawner = .spawned) :
    (∃ outputs tail code, s.events = .process l.processName l.pid :: (outputs ++ tail) ∧
      (∀ e ∈ outputs, ∃ c text, e = .output c text) ∧ tail <+: [.exited code, .terminated]) ∧
    ∀ c, s.texts c <+: parts [] (s.workers c).capture.reads := by
  have hinv : Inv l s ∧ ∀ c, Following l s c :=
    Run.exec_invariant (I := fun s => Inv l s ∧ ∀ c, Following l s c)
      (fun hI (_ : True) hs => ⟨inv_step hI.1 hs, following_step hI.2 hI.1 hs⟩)
      ⟨inv_init l, following_init l⟩ Run.meets_true hrun
  obtain ⟨hi, hf⟩ := hinv
  constructor
  · obtain ⟨tail, ⟨outputs, heq, houtputs⟩, htail⟩ := hi.order (hi.sent hspawned)
    obtain ⟨code, hcode⟩ := htail.isPrefix
    exact ⟨outputs, tail, code, heq, houtputs, hcode⟩
  · exact fun c => (hf c).texts.trans (hf c).progress.isPrefix

/-- A debuggee that prints "hi" and exits. -/
def printLaunch : Launch :=
  { processName := "python", pid := 1, redirectOutput := true, windows := false
    tee := fun _ => none, predicates := [] }

def printRun : List Label :=
  [.spawn, .spawn, .spawn, .spawn, .spawn, .read .stdout (some [104, 105]), .exit 0, .send .stdout,
    .read .stdout (some []), .read .stderr none, .wait, .join, .join, .checkPredicates,
    .sendExited, .sendTerminated]

theorem events_printRun : ∃ s, Run.exec (step printLaunch) printLaunch.init printRun = some s ∧
    s.events = [.process "python" 1, .output .stdout [104, 105], .exited 0, .terminated] ∧
    s.texts .stdout <+: parts [] (s.workers .stdout).capture.reads :=
  ⟨_, rfl, rfl, (events_inOrder printLaunch printRun _ rfl rfl).2 .stdout⟩

end Debugpy.Debuggee
