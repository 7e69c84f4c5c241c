import Debugpy.Common.EndOfFile
import Debugpy.Common.JsonText
import Debugpy.Common.RoundTrip
import Debugpy.Lib.Run

/-!
# The debug server's writer thread

`NetCommand` and `WriterThread` of pydevd. Any thread adds commands, and any
thread may set `_kill_received`; the writer takes them from its queue and
sends them one by one. In every run it sends what was put in the queue in that
order, each command whole, and the adapter reads just that. What is lost when
the writer is killed is what was put after it last found the queue empty.
-/

namespace Debugpy.Pydevd

open Fuel (Returns)
open Run (exec exec_nil exec_cons exec_append)

/-- The command of an instance; `_as_bytes` is missing if its `send` does
nothing. -/
structure NetCommand where
  id : Int := -1
  asDict : Option Json := none
  asBytes : Option Bytes := none

def CMD_EXIT : Int := 129

def NULL_NET_COMMAND : NetCommand := {}

def NULL_EXIT_COMMAND : NetCommand := { id := CMD_EXIT }

inductive Protocol where
  | quotedLine
  | http
  | json
  | httpJson
  deriving DecidableEq, Repr

/-- `NetCommand(cmd_id, seq, text, is_json=True)`, with `next_seq` before and
after. -/
def jsonCommand (nextSeq cmdId seq : Int) (text : List (String × Json)) :
    Option NetCommand × Int :=
  let (seq, nextSeq) := if seq = 0 then (nextSeq + 2, nextSeq + 2) else (seq, nextSeq)
  let asDict := Json.dict (Json.set (Json.set text "pydevd_cmd_id" (.int cmdId)) "seq" (.int seq))
  ((Json.dumps asDict).map fun text => {
    id := cmdId
    asDict := some asDict
    asBytes := some (utf8Encode (String.ofList text)) }, nextSeq)

/-- What `send` passes to `sendall`. -/
def NetCommand.wire (cmd : NetCommand) (protocol : Protocol) : Bytes :=
  match cmd.asBytes, protocol with
  | none, _ => []
  | some bytes, .http | some bytes, .httpJson => packet bytes
  | some bytes, .quotedLine | some bytes, .json => bytes

-- ---------------------------------------------------------------------------
-- The thread and the others
-- ---------------------------------------------------------------------------

inductive Phase where
  | get
  /-- `get` has raised `Empty`. -/
  | empty
  | sending (cmd : NetCommand)
  | killed
  | exited
  /-- `send`, or a listener before it, has raised for this command. -/
  | failed (cmd : NetCommand)

structure Writing where
  protocol : Protocol
  killReceived : Bool := false
  /-- The commands of threads in `add_command` that are about to put them. -/
  adding : List NetCommand := []
  queue : List NetCommand := []
  phase : Phase := .get
  out : Bytes := []
  /-- All that was put in the queue, and all that was sent. -/
  put : List NetCommand := []
  sent : List NetCommand := []

inductive Act where
  /-- `add_command` looks at `_kill_received`. -/
  | add (cmd : NetCommand)
  /-- One of the threads in `add_command` goes on. -/
  | put (n : Nat)
  | kill
  | get
  | timeout
  /-- The writer looks at `_kill_received`. -/
  | look
  | send
  /-- After so many bytes. -/
  | sendFails (n : Nat)

def act (s : Writing) : Act → Option Writing
  | .add cmd => some (if s.killReceived then s else { s with adding := s.adding ++ [cmd] })
  | .put n => s.adding[n]?.map fun cmd =>
    { s with adding := s.adding.eraseIdx n, queue := s.queue ++ [cmd], put := s.put ++ [cmd] }
  | .kill => some { s with killReceived := true }
  | .get => match s.phase, s.queue with
    | .get, cmd :: queue => some { s with phase := .sending cmd, queue }
    | _, _ => none
  | .timeout => match s.phase, s.queue with
    | .get, [] => some { s with phase := .empty }
    | _, _ => none
  | .look => match s.phase with
    | .empty => some { s with phase := if s.killReceived then .killed else .get }
    | _ => none
  | .send => match s.phase with
    | .sending cmd => some { s with
        phase := if cmd.id = CMD_EXIT then .exited else .get
        out := s.out ++ cmd.wire s.protocol
        sent := s.sent ++ [cmd] }
    | _ => none
  | .sendFails n => match s.phase with
    | .sending cmd => some { s with
        phase := .failed cmd
        out := s.out ++ (cmd.wire s.protocol).take n }
    | _ => none

/-- All that a step can do. -/
inductive Acts (s : Writing) : Act → Writing → Prop
  | refuse : s.killReceived = true → Acts s (.add cmd) s
  | add : s.killReceived = false → Acts s (.add cmd) { s with adding := s.adding ++ [cmd] }
  | put : s.adding[n]? = some cmd → Acts s (.put n)
      { s with adding := s.adding.eraseIdx n, queue := s.queue ++ [cmd], put := s.put ++ [cmd] }
  | kill : Acts s .kill { s with killReceived := true }
  | get : s.phase = .get → s.queue = cmd :: queue →
      Acts s .get { s with phase := .sending cmd, queue }
  | timeout : s.phase = .get → s.queue = [] → Acts s .timeout { s with phase := .empty }
  | giveUp : s.phase = .empty → s.killReceived = true → Acts s .look { s with phase := .killed }
  | goOn : s.phase = .empty → s.killReceived = false → Acts s .look { s with phase := .get }
  | send : s.phase = .sending cmd → cmd.id ≠ CMD_EXIT → Acts s .send
      { s with phase := .get, out := s.out ++ cmd.wire s.protocol, sent := s.sent ++ [cmd] }
  | exit : s.phase = .sending cmd → cmd.id = CMD_EXIT → Acts s .send
      { s with phase := .exited, out := s.out ++ cmd.wire s.protocol, sent := s.sent ++ [cmd] }
  | fail : s.phase = .sending cmd → Acts s (.sendFails n)
      { s with phase := .failed cmd, out := s.out ++ (cmd.wire s.protocol).take n }

theorem acts_of_act (h : act s a = some s') : Acts s a s' := by
  cases a with
  | add cmd =>
    simp only [act] at h
    split at h
    · next hkill =>
      cases h
      exact .refuse hkill
    · next hkill =>
      cases h
      exact .add (eq_false_of_ne_true hkill)
  | put n =>
    simp only [act, Option.map_eq_some_iff] at h
    obtain ⟨cmd, hcmd, rfl⟩ := h
    exact .put hcmd
  | kill =>
    cases h
    exact .kill
  | get =>
    simp only [act] at h
    split at h
    · next hphase hqueue =>
      cases h
      exact .get hphase hqueue
    · cases h
  | timeout =>
    simp only [act] at h
    split at h
    · next hphase hqueue =>
      cases h
      exact .timeout hphase hqueue
    · cases h
  | look =>
    simp only [act] at h
    split at h
    · next hphase =>
      cases h
      split
      · next hkill => exact .giveUp hphase hkill
      · next hkill => exact .goOn hphase (eq_false_of_ne_true hkill)
    · cases h
  | send =>
    simp only [act] at h
    split at h
    · next hphase =>
      cases h
      split
      · next hexit => exact .exit hphase hexit
      · next hexit => exact .send hphase hexit
    · cases h
  | sendFails n =>
    simp only [act] at h
    split at h
    · next hphase =>
      cases h
      exact .fail hphase
    · cases h

-- ---------------------------------------------------------------------------
-- What is sent
-- ---------------------------------------------------------------------------

def Phase.taken : Phase → List NetCommand
  | .sending cmd | .failed cmd => [cmd]
  | _ => []

/-- What was sent is what was put, in order and each command whole. -/
structure Conserved (s : Writing) : Prop where
  put : s.put = s.sent ++ s.phase.taken ++ s.queue
  out : ∃ part, s.out = (s.sent.flatMap fun cmd => cmd.wire s.protocol) ++ part ∧
    (part = [] ∨ ∃ cmd, s.phase = .failed cmd ∧ part <+: cmd.wire s.protocol)

theorem Conserved.whole (h : Conserved s) (hnot : ∀ cmd, s.phase ≠ .failed cmd) :
    s.out = s.sent.flatMap fun cmd => cmd.wire s.protocol := by
  obtain ⟨part, hout, rfl | ⟨cmd, hphase, -⟩⟩ := h.out
  · rw [hout, List.append_nil]
  · exact absurd hphase (hnot cmd)

theorem Conserved.of_whole (hput : s.put = s.sent ++ s.phase.taken ++ s.queue)
    (hout : s.out = s.sent.flatMap fun cmd => cmd.wire s.protocol) : Conserved s :=
  ⟨hput, [], by rw [hout, List.append_nil], .inl rfl⟩

theorem Conserved.next (h : Conserved s) (ha : act s a = some s') : Conserved s' := by
  cases acts_of_act ha with
  | refuse => exact h
  | add => exact ⟨h.put, h.out⟩
  | put =>
    refine ⟨?_, h.out⟩
    rw [h.put, List.append_assoc]
  | kill => exact ⟨h.put, h.out⟩
  | get hphase hqueue =>
    refine .of_whole ?_ (h.whole (by simp [hphase]))
    simp [h.put, hphase, hqueue, Phase.taken]
  | timeout hphase hqueue =>
    refine .of_whole ?_ (h.whole (by simp [hphase]))
    simp [h.put, hphase, Phase.taken]
  | giveUp hphase =>
    refine .of_whole ?_ (h.whole (by simp [hphase]))
    simp [h.put, hphase, Phase.taken]
  | goOn hphase =>
    refine .of_whole ?_ (h.whole (by simp [hphase]))
    simp [h.put, hphase, Phase.taken]
  | send hphase =>
    refine .of_whole ?_ ?_
    · simp [h.put, hphase, Phase.taken]
    · simp [h.whole (by simp [hphase])]
  | exit hphase =>
    refine .of_whole ?_ ?_
    · simp [h.put, hphase, Phase.taken]
    · simp [h.whole (by simp [hphase])]
  | @fail cmd n hphase =>
    refine ⟨?_, (cmd.wire s.protocol).take n, ?_, .inr ⟨cmd, rfl, List.take_prefix _ _⟩⟩
    · simp [h.put, hphase, Phase.taken]
    · simp [h.whole (by simp [hphase])]

theorem conserved_run (h : exec act { protocol } acts = some s) : Conserved s :=
  Run.exec_keeps Conserved (fun h ha => h.next ha) (.of_whole rfl rfl) h

-- ---------------------------------------------------------------------------
-- What is lost
-- ---------------------------------------------------------------------------

def Act.isPut : Act → Bool
  | .put _ => true
  | _ => false

structure Closed (s : Writing) : Prop where
  killReceived : s.killReceived = true
  adding : s.adding = []

theorem Closed.next (h : Closed s) (ha : act s a = some s') : Closed s' ∧ a.isPut = false := by
  cases acts_of_act ha with
  | put hcmd => simp [h.adding] at hcmd
  | add hkill => simp [h.killReceived] at hkill
  | kill => exact ⟨⟨rfl, h.adding⟩, rfl⟩
  | _ => exact ⟨⟨h.killReceived, h.adding⟩, rfl⟩

theorem Closed.countP_isPut (h : Closed s) (hrun : exec act s acts = some t) :
    acts.countP Act.isPut = 0 := by
  induction acts generalizing s with
  | nil => rfl
  | cons a acts ih =>
    obtain ⟨s', ha, ht⟩ := exec_cons.mp hrun
    obtain ⟨hclosed, hput⟩ := h.next ha
    rw [List.countP_cons_of_neg (by simp [hput]), ih hclosed ht]

/-- The writer in `mid` finds the queue empty, and has not looked at it since. -/
structure Emptied (mid s : Writing) (after : List Act) : Prop where
  phase : s.phase = .empty ∨ s.phase = .killed
  sent : s.sent = mid.put
  put : s.put = s.sent ++ s.queue
  queue : s.queue.length = after.countP Act.isPut

theorem Emptied.of_timeout (h : Conserved mid) (hphase : mid.phase = .get) (hqueue : mid.queue = []) :
    Emptied mid { mid with phase := .empty } [] := by
  have hput : mid.put = mid.sent := by simpa [hphase, hqueue, Phase.taken] using h.put
  exact ⟨.inl rfl, hput.symm, by simp [hput, hqueue], by simp [hqueue]⟩

theorem phase_of_act (ha : act s a = some s') (hphase : s'.phase = .empty ∨ s'.phase = .killed) :
    a = .timeout ∧ s.phase = .get ∧ s.queue = [] ∧ s' = { s with phase := .empty } ∨
      a ≠ .timeout ∧ (s.phase = .empty ∨ s.phase = .killed) := by
  cases acts_of_act ha with
  | timeout hget hqueue => exact .inl ⟨rfl, hget, hqueue, rfl⟩
  | giveUp hempty => exact .inr ⟨by simp, .inl hempty⟩
  | refuse | add | put | kill => exact .inr ⟨by simp, hphase⟩
  | get | goOn | send | exit | fail => simp at hphase

theorem Emptied.next (h : Emptied mid s after) (ha : act s a = some s')
    (hphase : s'.phase = .empty ∨ s'.phase = .killed) : Emptied mid s' (after ++ [a]) := by
  have hnot {a : Act} (hput : a.isPut = false) :
      s.queue.length = (after ++ [a]).countP Act.isPut := by
    rw [h.queue, List.countP_append, List.countP_singleton, hput]
    rfl
  have hget : s.phase ≠ .get := by rcases h.phase with h | h <;> simp [h]
  have hsending (cmd) : s.phase ≠ .sending cmd := by rcases h.phase with h | h <;> simp [h]
  cases acts_of_act ha with
  | refuse | add | kill | giveUp => exact ⟨hphase, h.sent, h.put, hnot rfl⟩
  | put =>
    refine ⟨hphase, h.sent, ?_, ?_⟩
    · rw [h.put, List.append_assoc]
    · rw [List.length_append, h.queue, List.countP_append]
      rfl
  | get hget' | timeout hget' => exact absurd hget' hget
  | send hsend | exit hsend | fail hsend => exact absurd hsend (hsending _)
  | goOn => simp at hphase

theorem emptied_run (h : exec act { protocol } acts = some s)
    (hphase : s.phase = .empty ∨ s.phase = .killed) :
    ∃ before after mid, acts = before ++ .timeout :: after ∧ .timeout ∉ after ∧
      exec act { protocol } before = some mid ∧
      exec act { mid with phase := .empty } after = some s ∧ Emptied mid s after := by
  induction acts using List.reverseRecOn generalizing s with
  | nil =>
    cases h
    simp at hphase
  | append_singleton acts a ih =>
    rw [exec_append, Option.bind_eq_some_iff] at h
    obtain ⟨u, hacts, ha⟩ := h
    obtain ⟨s', ha, hs⟩ := exec_cons.mp ha
    cases hs
    rcases phase_of_act ha hphase with ⟨rfl, hget, hqueue, rfl⟩ | ⟨hne, hphase'⟩
    · exact ⟨acts, [], u, rfl, by simp, hacts, rfl, .of_timeout (conserved_run hacts) hget hqueue⟩
    · obtain ⟨before, after, mid, rfl, hnot, hbefore, hafter, hemptied⟩ := ih hacts hphase'
      refine ⟨before, after ++ [a], mid, by simp, ?_, hbefore, ?_, hemptied.next ha hphase⟩
      · simpa [hnot] using hne.symm
      · rw [exec_append, hafter]
        exact exec_cons.mpr ⟨s, ha, rfl⟩

/-- What is sent when the writer is killed is all that was put before it last
found the queue empty. What is put after that is lost, and nothing is if it was
killed by then and no thread was left in `add_command`. -/
theorem sent_of_killed (protocol : Protocol) (acts : List Act) (s : Writing)
    (h : exec act { protocol } acts = some s) (hkilled : s.phase = .killed) :
    ∃ before after mid, acts = before ++ .timeout :: after ∧ .timeout ∉ after ∧
      exec act { protocol } before = some mid ∧ s.sent = mid.put ∧ s.put = s.sent ++ s.queue ∧
      s.queue.length = after.countP Act.isPut ∧
      (mid.killReceived = true → mid.adding = [] → s.queue = []) := by
  obtain ⟨before, after, mid, hacts, hnot, hbefore, hafter, hemptied⟩ := emptied_run h (.inr hkilled)
  refine ⟨before, after, mid, hacts, hnot, hbefore, hemptied.sent, hemptied.put, hemptied.queue,
    fun hkill hadding => List.length_eq_zero_iff.mp ?_⟩
  have hclosed : Closed { mid with phase := .empty } := ⟨hkill, hadding⟩
  rw [hemptied.queue, hclosed.countP_isPut hafter]

/-- A command that a thread puts after the writer has found the queue empty. -/
def lateOutput : List Act :=
  [.add { id := 1 }, .put 0, .add { id := 2 }, .get, .kill, .send, .timeout, .put 0, .look]

theorem sent_of_killed_lateOutput :
    ∃ s, exec act { protocol := .httpJson } lateOutput = some s ∧ s.queue.length = 1 ∧
      ∃ before after mid, lateOutput = before ++ .timeout :: after ∧ .timeout ∉ after ∧
        exec act { protocol := .httpJson } before = some mid ∧ s.sent = mid.put ∧
        s.put = s.sent ++ s.queue ∧ s.queue.length = after.countP Act.isPut ∧
        (mid.killReceived = true → mid.adding = [] → s.queue = []) :=
  ⟨_, rfl, rfl, sent_of_killed .httpJson lateOutput _ rfl rfl⟩

-- ---------------------------------------------------------------------------
-- That it ends
-- ---------------------------------------------------------------------------

def Phase.ended : Phase → Bool
  | .killed | .exited | .failed _ => true
  | _ => false

def Act.ofWriter : Act → Bool
  | .get | .timeout | .look | .send | .sendFails _ => true
  | _ => false

def Phase.weight : Phase → Nat
  | .get => 2
  | .empty => 1
  | .sending _ => 4
  | _ => 0

/-- How many steps the writer may still take once it is killed. -/
def Writing.left (s : Writing) : Nat := 3 * s.queue.length + s.phase.weight

theorem Closed.left_lt (h : Closed s) (ha : act s a = some s') (hwriter : a.ofWriter = true) :
    s'.left < s.left := by
  have hkill := h.killReceived
  cases acts_of_act ha with
  | refuse | add | put | kill => cases hwriter
  | get hphase hqueue =>
    simp [Writing.left, hphase, hqueue, Phase.weight]
    omega
  | timeout hphase | giveUp hphase | fail hphase => simp [Writing.left, hphase, Phase.weight]
  | send hphase | exit hphase => simp [Writing.left, hphase, Phase.weight]
  | goOn _ hgoOn => simp [hkill] at hgoOn

theorem exists_act_of_not_ended (h : s.phase.ended = false) :
    ∃ a s', a.ofWriter = true ∧ act s a = some s' := by
  cases hphase : s.phase with
  | get =>
    cases hqueue : s.queue with
    | nil => exact ⟨.timeout, _, rfl, by simp only [act, hphase, hqueue]; rfl⟩
    | cons cmd queue => exact ⟨.get, _, rfl, by simp only [act, hphase, hqueue]; rfl⟩
  | empty => exact ⟨.look, _, rfl, by simp only [act, hphase]; rfl⟩
  | sending cmd => exact ⟨.send, _, rfl, by simp only [act, hphase]; rfl⟩
  | killed | exited | failed => simp [hphase, Phase.ended] at h

theorem Closed.run (h : Closed s) (hrun : exec act s acts = some t)
    (hwriter : ∀ a ∈ acts, a.ofWriter = true) : Closed t ∧ acts.length + t.left ≤ s.left := by
  induction acts generalizing s with
  | nil =>
    cases hrun
    exact ⟨h, by simp⟩
  | cons a acts ih =>
    obtain ⟨s', ha, ht⟩ := exec_cons.mp hrun
    obtain ⟨hfirst, hrest⟩ := List.forall_mem_cons.mp hwriter
    obtain ⟨hclosed, hle⟩ := ih (h.next ha).1 ht hrest
    have hlt := h.left_lt ha hfirst
    exact ⟨hclosed, by simp only [List.length_cons]; omega⟩

theorem Closed.drained (h : Closed s) (ha : act s a = some s')
    (hqueue : s.phase = .empty ∨ s.phase = .killed → s.queue = [])
    (hphase : s'.phase = .empty ∨ s'.phase = .killed) : s'.queue = [] := by
  have hkill := h.killReceived
  have hadding := h.adding
  cases acts_of_act ha with
  | refuse | kill => exact hqueue hphase
  | add hadd => simp [hkill] at hadd
  | put hcmd => simp [hadding] at hcmd
  | timeout _ hnil => exact hnil
  | giveUp hempty => exact hqueue (.inl hempty)
  | get | goOn | send | exit | fail => simp at hphase

theorem Closed.drained_run (h : Closed s) (hrun : exec act s acts = some t)
    (hqueue : s.phase = .empty ∨ s.phase = .killed → s.queue = [])
    (hphase : t.phase = .empty ∨ t.phase = .killed) : t.queue = [] := by
  have hinv : Closed t ∧ (t.phase = .empty ∨ t.phase = .killed → t.queue = []) :=
    Run.exec_keeps (fun s => Closed s ∧ (s.phase = .empty ∨ s.phase = .killed → s.queue = []))
      (fun h ha => ⟨(h.1.next ha).1, h.1.drained ha h.2⟩) ⟨h, hqueue⟩ hrun
  exact hinv.2 hphase

/-- Once it is killed, and no thread is in `add_command`, the writer comes to
an end in so many steps of its own and nothing holds it up. If it had not yet
found the queue empty it has sent all that was put, unless a send failed or
there was a command to exit. -/
theorem ends_of_killReceived (protocol : Protocol) (acts steps : List Act) (s t : Writing)
    (h : exec act { protocol } acts = some s) (hkill : s.killReceived = true)
    (hadding : s.adding = []) (hsteps : exec act s steps = some t)
    (hwriter : ∀ a ∈ steps, a.ofWriter = true) :
    steps.length ≤ 3 * s.queue.length + 4 ∧
      (t.phase.ended = true ∨ ∃ a t', a.ofWriter = true ∧ act t a = some t') ∧
      (t.phase = .killed → s.phase ≠ .empty → s.phase ≠ .killed → t.sent = t.put) := by
  have hclosed : Closed s := ⟨hkill, hadding⟩
  obtain ⟨-, hle⟩ := hclosed.run hsteps hwriter
  refine ⟨?_, ?_, fun hkilled hempty hnot => ?_⟩
  · have hweight : s.phase.weight ≤ 4 := by cases s.phase <;> simp [Phase.weight]
    simp only [Writing.left] at hle
    omega
  · cases hended : t.phase.ended with
    | true => exact .inl rfl
    | false => exact .inr (exists_act_of_not_ended hended)
  · have hrun : exec act { protocol } (acts ++ steps) = some t := by
      rw [exec_append, h, Option.bind_some, hsteps]
    have hqueue : t.queue = [] :=
      hclosed.drained_run hsteps (fun hor => (hor.elim hempty hnot).elim) (.inr hkilled)
    simpa [hkilled, hqueue, Phase.taken] using (conserved_run hrun).put.symm

theorem ends_of_killReceived_two :
    ∃ s t, exec act { protocol := .json } [.add { id := 1 }, .put 0, .kill] = some s ∧
      exec act s [.get, .send, .timeout, .look] = some t ∧ t.phase = .killed ∧
      [Act.get, .send, .timeout, .look].length ≤ 3 * s.queue.length + 4 ∧
      (t.phase.ended = true ∨ ∃ a t', a.ofWriter = true ∧ act t a = some t') ∧
      (t.phase = .killed → s.phase ≠ .empty → s.phase ≠ .killed → t.sent = t.put) :=
  ⟨_, _, rfl, rfl, rfl, ends_of_killReceived .json [.add { id := 1 }, .put 0, .kill]
    [.get, .send, .timeout, .look] _ _ rfl rfl rfl rfl (by decide)⟩

-- ---------------------------------------------------------------------------
-- What the adapter reads
-- ---------------------------------------------------------------------------

/-- The command does nothing when sent, or it is the text of a dict of a size
that is accepted. -/
def NetCommand.Sendable (cmd : NetCommand) : Prop :=
  cmd = NULL_NET_COMMAND ∨ cmd = NULL_EXIT_COMMAND ∨
    ∃ nextSeq cmdId seq text nextSeq', Json.Distinct (.dict text) ∧
      jsonCommand nextSeq cmdId seq text = (some cmd, nextSeq') ∧
      ∀ bytes, cmd.asBytes = some bytes → bytes.length ≤ MAX_BODY_SIZE

theorem NetCommand.Sendable.null (h : NetCommand.Sendable cmd) (hnull : cmd.asDict = none) :
    cmd.asBytes = none := by
  rcases h with rfl | rfl | ⟨nextSeq, cmdId, seq, text, nextSeq', -, hcmd, -⟩
  · rfl
  · rfl
  · simp only [jsonCommand, Prod.mk.injEq, Option.map_eq_some_iff] at hcmd
    obtain ⟨⟨body, -, hcmd⟩, -⟩ := hcmd
    rw [← hcmd] at hnull
    cases hnull

theorem NetCommand.Sendable.body (h : NetCommand.Sendable cmd) (hdict : cmd.asDict = some value) :
    ∃ body, cmd.asBytes = some body ∧ body.length ≤ MAX_BODY_SIZE ∧
      decodeBody (fun text => Json.loads text.toList) body = .ok value := by
  rcases h with rfl | rfl | ⟨nextSeq, cmdId, seq, text, nextSeq', hdistinct, hcmd, hsize⟩
  · cases hdict
  · cases hdict
  · simp only [jsonCommand, Prod.mk.injEq, Option.map_eq_some_iff] at hcmd
    obtain ⟨⟨body, hdumps, rfl⟩, -⟩ := hcmd
    cases hdict
    have hloads := Json.loads_dumps hdumps
      (Json.distinct_set (Json.distinct_set hdistinct trivial) trivial)
    exact ⟨_, rfl, hsize _ rfl, by simp [decodeBody, hloads]⟩

theorem protocol_run (h : exec act s acts = some t) : t.protocol = s.protocol :=
  Run.exec_keeps (fun t => t.protocol = s.protocol)
    (fun h ha => by cases acts_of_act ha <;> exact h) rfl h

theorem put_of_added {P : NetCommand → Prop} (h : exec act { protocol } acts = some s)
    (hadd : ∀ cmd, Act.add cmd ∈ acts → P cmd) : ∀ cmd ∈ s.put, P cmd := by
  have hmeets : Run.Meets act (fun _ a => ∀ cmd, a = .add cmd → P cmd) { protocol } acts :=
    Run.meets_of_forall fun a ha _ cmd hcmd => hadd cmd (hcmd ▸ ha)
  have hinv : (∀ cmd ∈ s.adding, P cmd) ∧ ∀ cmd ∈ s.put, P cmd := by
    refine Run.exec_invariant (I := fun s => (∀ cmd ∈ s.adding, P cmd) ∧ ∀ cmd ∈ s.put, P cmd)
      (fun {s a s'} hs hok ha => ?_) (by simp) hmeets h
    obtain ⟨hadding, hput⟩ := hs
    cases acts_of_act ha with
    | @add cmd =>
      refine ⟨fun c hc => ?_, hput⟩
      rcases List.mem_append.mp hc with hc | hc
      · exact hadding c hc
      · exact List.mem_singleton.mp hc ▸ hok cmd rfl
    | @put n cmd hcmd =>
      refine ⟨fun c hc => hadding c (List.mem_of_mem_eraseIdx hc), fun c hc => ?_⟩
      rcases List.mem_append.mp hc with hc | hc
      · exact hput c hc
      · exact List.mem_singleton.mp hc ▸ hadding cmd (List.mem_of_getElem? hcmd)
    | _ => exact ⟨hadding, hput⟩
  exact hinv.2

section
variable {name : String} {protocol : Protocol}

theorem isCut_of_part {part body : Bytes} (h : part <+: packet body) (hne : part ≠ packet body)
    (hsize : body.length ≤ MAX_BODY_SIZE) : IsCut part := by
  obtain ⟨more, hmore⟩ := h
  have hpos : 0 < more.length := by
    refine List.length_pos_iff.mpr fun hnil => hne ?_
    rwa [hnil, List.append_nil] at hmore
  by_cases hheader : ∃ headers rest, IsHeader [] part headers rest
  swap
  · exact .inl hheader
  obtain ⟨headers, rest, hheader⟩ := hheader
  have hwhole : IsHeader [] (part ++ more) [partitionColon (headerLine body.length)] body := by
    simpa [hmore] using isHeader_packet body []
  obtain ⟨rfl, hrest⟩ := (hheader.append more).unique hwhole
  refine .inr ⟨_, rest, body.length, hheader, by rw [contentLength_headerLine, if_pos hsize], ?_⟩
  rw [← hrest, List.length_append]
  omega

theorem NetCommand.Sendable.wire (h : NetCommand.Sendable cmd)
    (hprotocol : protocol = .http ∨ protocol = .httpJson) :
    cmd.asDict = none ∧ cmd.wire protocol = [] ∨
      ∃ value body, cmd.asDict = some value ∧ cmd.wire protocol = packet body ∧
        body.length ≤ MAX_BODY_SIZE ∧
        decodeBody (fun text => Json.loads text.toList) body = .ok value := by
  cases hdict : cmd.asDict with
  | none => exact .inl ⟨rfl, by simp [NetCommand.wire, h.null hdict]⟩
  | some value =>
    obtain ⟨body, hbytes, hsize, hdecode⟩ := h.body hdict
    refine .inr ⟨value, body, rfl, ?_, hsize, hdecode⟩
    rcases hprotocol with rfl | rfl <;> simp [NetCommand.wire, hbytes]

theorem readJson_of_part (hprotocol : protocol = .http ∨ protocol = .httpJson)
    (h : NetCommand.Sendable cmd) {r : Reader} (hr : r.data <+: cmd.wire protocol)
    (hret : Returns (readJson (fun text => Json.loads text.toList) name r) out) :
    (∃ text, out.1 = .error (.noMoreMessages name text)) ∨
      ∃ value, cmd.asDict = some value ∧ out.1 = .ok value := by
  rcases h.wire hprotocol with ⟨-, hwire⟩ | ⟨value, body, hdict, hwire, hsize, hdecode⟩
  · rw [hwire] at hr
    obtain ⟨text, hnil⟩ := returns_readJson_nil (fun text => Json.loads text.toList) name
      (List.prefix_nil.mp hr)
    exact .inl ⟨text, by rw [hret.unique hnil]⟩
  · rw [hwire] at hr
    by_cases hwhole : r.data = packet body
    · have hpacket : IsPacket r.data body [] := by
        rw [hwhole, ← List.append_nil (packet body)]
        exact isPacket_packet hsize
      obtain ⟨r', hall, -⟩ := returns_readJson_packet (fun text => Json.loads text.toList) name hpacket
      exact .inr ⟨value, hdict, by rw [hret.unique hall, hdecode]⟩
    · exact .inl (readJson_of_isCut (isCut_of_part hr hwhole hsize) hret)

theorem returns_readMany_sent (name : String) (hprotocol : protocol = .http ∨ protocol = .httpJson)
    {cmds : List NetCommand} (h : ∀ cmd ∈ cmds, cmd.Sendable) {r : Reader} {part : Bytes}
    (hr : r.data = (cmds.flatMap fun cmd => cmd.wire protocol) ++ part) :
    ∃ r', Returns (readMany (fun text => Json.loads text.toList) name
      (cmds.filterMap NetCommand.asDict).length r) (.ok (cmds.filterMap NetCommand.asDict), r') ∧
      r'.data = part := by
  induction cmds generalizing r with
  | nil => exact ⟨r, Fuel.returns_pure.mpr rfl, hr⟩
  | cons cmd cmds ih =>
    obtain ⟨hcmd, hcmds⟩ := List.forall_mem_cons.mp h
    rw [List.flatMap_cons, List.append_assoc] at hr
    rcases hcmd.wire hprotocol with ⟨hdict, hwire⟩ | ⟨value, body, hdict, hwire, hsize, hdecode⟩
    · rw [hwire] at hr
      rw [List.filterMap_cons_none hdict]
      exact ih hcmds hr
    · rw [hwire] at hr
      obtain ⟨r₁, hret, hdata, -⟩ := returns_readJson_packet (fun text => Json.loads text.toList)
        name (hr ▸ isPacket_packet hsize)
      obtain ⟨r', hret', hpart⟩ := ih hcmds hdata
      rw [hdecode] at hret
      rw [List.filterMap_cons_some hdict]
      exact ⟨r', hret.bind_iff.mpr (hret'.bind_iff.mpr (Fuel.returns_pure.mpr rfl)), hpart⟩

end

/-- However the threads take their turns, the adapter reads the dicts of the
commands that were put, in that order and each one once, up to the one that
the writer has not sent; of one whose send failed it reads all or nothing. -/
theorem read_of_run (protocol : Protocol) (acts : List Act) (s : Writing) (name : String)
    (r : Reader) (hprotocol : protocol = .http ∨ protocol = .httpJson)
    (h : exec act { protocol } acts = some s)
    (hadd : ∀ cmd, Act.add cmd ∈ acts → cmd.Sendable) (hr : r.data = s.out) :
    s.put = s.sent ++ s.phase.taken ++ s.queue ∧
      ∃ r', Returns (readMany (fun text => Json.loads text.toList) name
          (s.sent.filterMap NetCommand.asDict).length r)
          (.ok (s.sent.filterMap NetCommand.asDict), r') ∧
        ∀ out, Returns (readJson (fun text => Json.loads text.toList) name r') out →
          (∃ text, out.1 = .error (.noMoreMessages name text)) ∨
            ∃ cmd value, s.phase = .failed cmd ∧ cmd.asDict = some value ∧ out.1 = .ok value := by
  have hconserved := conserved_run h
  have hput := put_of_added h hadd
  have hprotocol' : s.protocol = protocol := protocol_run h
  obtain ⟨part, hout, hpart⟩ := hconserved.out
  rw [hconserved.put] at hput
  rw [hout, hprotocol'] at hr
  obtain ⟨r', hret, hdata⟩ := returns_readMany_sent name hprotocol
    (fun cmd hcmd => hput cmd (by simp [hcmd])) hr
  refine ⟨hconserved.put, r', hret, fun out hread => ?_⟩
  rcases hpart with rfl | ⟨cmd, hfailed, hpart⟩
  · obtain ⟨text, hnil⟩ := returns_readJson_nil (fun text => Json.loads text.toList) name hdata
    exact .inl ⟨text, by rw [hread.unique hnil]⟩
  · rw [hprotocol', ← hdata] at hpart
    have hcmd : cmd.Sendable := hput cmd (by simp [hfailed, Phase.taken])
    rcases readJson_of_part hprotocol hcmd hpart hread with hnone | ⟨value, hdict, hvalue⟩
    · exact .inl hnone
    · exact .inr ⟨cmd, value, hfailed, hdict, hvalue⟩

def initializedText : List (String × Json) :=
  [("type", .str "event"), ("event", .str "initialized")]

def initializedDict : Json :=
  .dict (initializedText ++ [("pydevd_cmd_id", .int 103), ("seq", .int 2)])

def initializedCommand : NetCommand where
  id := 103
  asDict := some initializedDict
  asBytes := (Json.dumps initializedDict).map fun text => utf8Encode (String.ofList text)

theorem initializedCommand_sendable : initializedCommand.Sendable := by
  have hsmall (n : Int) (h : n.natAbs < 10 ^ 3) : n.natAbs < 10 ^ PyInt.maxStrDigits :=
    h.trans (Nat.pow_lt_pow_right (by decide) (by decide))
  obtain ⟨text, htext⟩ : ∃ text, Json.dumps initializedDict = some text := by
    simp only [initializedDict, initializedText, List.cons_append, List.nil_append, Json.dumps,
      Json.dumpsItems, hsmall 103 (by decide), hsmall 2 (by decide), if_true, Option.bind_some,
      Option.map_some]
    exact ⟨_, rfl⟩
  have hcommand : jsonCommand 0 103 0 initializedText = (some initializedCommand, 2) := by
    have hdict : Json.dict (Json.set (Json.set initializedText "pydevd_cmd_id" (.int 103)) "seq"
        (.int 2)) = initializedDict := rfl
    simp only [jsonCommand, if_true, Int.zero_add, hdict, htext, Option.map_some,
      initializedCommand]
  refine .inr (.inr ⟨0, 103, 0, initializedText, 2, ⟨by decide, trivial, trivial, trivial⟩,
    hcommand, fun bytes hbytes => ?_⟩)
  have hsize : ∀ bytes ∈ initializedCommand.asBytes, bytes.length ≤ MAX_BODY_SIZE := by
    decide +kernel
  exact hsize bytes hbytes

/-- The second send fails after 20 bytes. -/
def brokenRun : List Act :=
  [.add initializedCommand, .add NULL_NET_COMMAND, .put 1, .get, .put 0, .add initializedCommand,
    .send, .get, .put 0, .send, .get, .sendFails 20]

theorem read_of_run_broken : ∃ s, exec act { protocol := .httpJson } brokenRun = some s ∧
    s.put = s.sent ++ s.phase.taken ++ s.queue ∧
      ∃ r', Returns (readMany (fun text => Json.loads text.toList) "stdio"
          (s.sent.filterMap NetCommand.asDict).length { data := s.out, cuts := id, ending := .eof })
          (.ok (s.sent.filterMap NetCommand.asDict), r') ∧
        ∀ out, Returns (readJson (fun text => Json.loads text.toList) "stdio" r') out →
          (∃ text, out.1 = .error (.noMoreMessages "stdio" text)) ∨
            ∃ cmd value, s.phase = .failed cmd ∧ cmd.asDict = some value ∧ out.1 = .ok value := by
  have hadd (cmd) (h : Act.add cmd ∈ brokenRun) : cmd.Sendable := by
    simp only [brokenRun, List.mem_cons, reduceCtorEq, Act.add.injEq, List.not_mem_nil,
      false_or, or_false] at h
    rcases h with rfl | rfl | rfl
    · exact initializedCommand_sendable
    · exact .inl rfl
    · exact initializedCommand_sendable
  exact ⟨_, rfl, read_of_run .httpJson brokenRun _ "stdio" _ (.inr rfl) rfl hadd rfl⟩

end Debugpy.Pydevd
