import Debugpy.Common.Acceptance
import Debugpy.Common.Messages
import Debugpy.Common.Callbacks

/-!
# Sends that fail

`send_request` enters its request in the table before `write_json` is called
for it, and leaves it there when that raises. The handlers of the request are
then run for the response that the parser thread makes up when it ends.
`no_trace_iff` says that the table holds what was written, and that nothing is
run for a request that was not, as long as every message gets written.
-/

namespace Debugpy.FailedSends

open Fuel (Returns)
open RunHandlers (ThreadLabel Serial channelStep threadStep channelStep_matching
  threadStep_matching serial_thread serial_channel serial_close)

structure State where
  run : RunHandlers.State
  /-- The requests that were written, the responses that were read, and the
  end. -/
  exchanged : List Matching.Event := []
  /-- The requests whose `send_request` has raised an exception. -/
  raised : List Int := []

inductive Label where
  /-- A step of the thread that runs handlers. -/
  | handlers (t : Nat) (l : ThreadLabel)
  | channel (l : Matching.Label)
  /-- `close()` of another thread. -/
  | close
  /-- The request is entered in the table and `write_json` is called, which
  takes no more than `fuel` turns. -/
  | write (key : Int) (arguments : Json) (encode : Json → Option String) (writer : Writer)
      (fuel : Nat)

def State.channel (s : State) : Channel := s.run.matching.channel

/-- What `write_json` is called with. -/
def State.message (s : State) (key : Int) (arguments : Json) : Json :=
  .dict (numberedDict key (requestDict ((s.channel.requests key).elim "" (·.command)) arguments))

def newEvents (m m' : Matching.State) : List Matching.Event := m'.history.drop m.history.length

/-- The request whose `on_before_send` raises. -/
def abandoned : Matching.Label → List Int
  | .abandon key => [key]
  | _ => []

def step (s : State) : Label → Option State
  | .handlers t l => (threadStep s.run t l).map fun run => { s with run }
  | .channel (.insert _) => none
  | .channel l => (channelStep s.run l).map fun run =>
    { run
      exchanged := s.exchanged ++ newEvents s.run.matching run.matching
      raised := s.raised ++ abandoned l }
  | .close => some { s with run := s.run.close }
  | .write key arguments encode writer fuel => do
    let run ← channelStep s.run (.insert key)
    let written := writeJson encode s.channel.name s.channel.closed (s.message key arguments) writer
    let (result, _) ← written.run fuel
    return match result with
      | .ok () => { s with run, exchanged := s.exchanged ++ [.sent key] }
      | .error _ => { s with run, raised := s.raised ++ [key] }

-- ---------------------------------------------------------------------------
-- The rule
-- ---------------------------------------------------------------------------

structure NoTrace (s : State) : Prop where
  /-- The table holds what was written and not yet answered. -/
  table : ∀ key, key ∈ s.channel.sentRequests ↔ Matching.Outstanding s.exchanged key
  silent : ∀ key ∈ s.raised, ∀ callback, (key, callback) ∉ s.run.called

/-- The step leaves no trace of a request that was not sent, and if its
`send_request` raises in it, leaves the table as it is. -/
def LeavesNoTrace (s : State) (l : Label) : Prop :=
  ∀ s', step s l = some s' → NoTrace s' ∧
    (s'.raised ≠ s.raised → s'.channel.sentRequests = s.channel.sentRequests)

/-- The stream is open, the value is one that can be encoded, and the writer
takes all of it. -/
def Writable (encode : Json → Option String) (closed : Bool) (value : Json) (w : Writer) : Prop :=
  closed = false ∧ ∃ text, encode value = some text ∧
    ∃ n, Takes w.results w.calls (packet (utf8Encode text)).length n ∧ w.flushes n = none

/-- The condition on a step: what is to be written can be. -/
def Sendable (s : State) : Label → Prop
  | .write key arguments encode writer _ =>
    Writable encode s.channel.closed (s.message key arguments) writer
  | .handlers .. | .channel _ | .close => True

-- ---------------------------------------------------------------------------
-- The write
-- ---------------------------------------------------------------------------

theorem writes_iff (h : Returns (writeJson encode name closed value w) (result, w')) :
    result = .ok () ↔ Writable encode closed value w := by
  cases closed with
  | true =>
    simp only [writeJson, if_true, Fuel.returns_pure, Prod.mk.injEq] at h
    simp [← h.1, Writable]
  | false =>
    cases henc : encode value with
    | none =>
      simp only [writeJson, henc, Bool.false_eq_true, if_false, Fuel.returns_pure,
        Prod.mk.injEq] at h
      simp [← h.1, Writable, henc]
    | some text =>
      have hwrite : writeJson encode name false value w =
          Fuel.loop (writeTurn name (packet (utf8Encode text))) (0, w) := by simp [writeJson, henc]
      rw [hwrite] at h
      constructor
      · rintro rfl
        exact ⟨rfl, text, henc, (takes_of_returns h).2⟩
      · rintro ⟨-, text', henc', n, htakes, hflush⟩
        obtain rfl := Option.some.inj (henc.symm.trans henc')
        have hret : Returns (Fuel.loop (writeTurn name (packet (utf8Encode text))) (0, w)) _ :=
          returns_of_takes htakes
        simpa [Writer.flushed, hflush] using congrArg Prod.fst (h.unique hret)

-- ---------------------------------------------------------------------------
-- Calls that are over
-- ---------------------------------------------------------------------------

structure Gone (m : Matching.State) (key : Int) : Prop where
  drawn : key < m.channel.nextSeq
  ended : m.calls key = none
  unsent : .sent key ∉ m.history

section
variable {m m' : Matching.State} {key : Int}

theorem Gone.unanswered (hg : Gone m key) (hi : Matching.Inv m) : m.response? key = none := by
  cases hr : m.response? key with
  | none => rfl
  | some r =>
    obtain ⟨-, e, ha, -⟩ := hi.table.first key r hr
    exact absurd ha.sent hg.unsent

theorem gone_of_abandon (hi : Matching.Inv m) (h : Matching.step m (.abandon key) = some m') :
    Gone m' key := by
  simp only [Matching.step] at h
  split at h
  swap
  · cases h
  rename_i hcall
  cases h
  refine ⟨?_, by simp, (hi.numbers.made key hcall).2.2⟩
  by_contra hlt
  have hfresh := (hi.numbers.fresh key (not_lt.mp hlt)).1
  cases hcall.symm.trans hfresh

theorem Gone.of_same (hg : Gone m key) (hseq : m.channel.nextSeq ≤ m'.channel.nextSeq)
    (hcalls : m'.calls = m.calls) (hsent : .sent key ∈ m'.history → .sent key ∈ m.history) :
    Gone m' key :=
  ⟨hg.drawn.trans_le hseq, hcalls ▸ hg.ended, fun hs => hg.unsent (hsent hs)⟩

theorem Gone.step (hg : Gone m key) (hi : Matching.Inv m) {l : Matching.Label}
    (h : Matching.step m l = some m') : Gone m' key := by
  have hother : ∀ k call, m.calls k = some call → key ≠ k := by
    rintro k call hc rfl
    cases hc.symm.trans hg.ended
  cases l with
  | draw command =>
    cases h
    refine ⟨hg.drawn.trans (Int.lt_succ _), ?_, hg.unsent⟩
    simp [hg.drawn.ne, hg.ended]
  | make k =>
    simp only [Matching.step] at h
    split at h <;> cases h
    refine ⟨hg.drawn, ?_, hg.unsent⟩
    simp [hother k _ ‹_›, hg.ended]
  | insert k =>
    simp only [Matching.step] at h
    split at h <;> cases h
    have hk := hother k _ ‹_›
    exact ⟨hg.drawn, by simp [hk, hg.ended], by simp [hg.unsent, hk]⟩
  | abandon k =>
    simp only [Matching.step] at h
    split at h <;> cases h
    exact ⟨hg.drawn, by simp [hother k _ ‹_›, hg.ended], hg.unsent⟩
  | act a =>
    obtain ⟨ha, rfl⟩ := Matching.step_act h
    exact hg.of_same (Matching.act_same m.channel a ha).2.2 rfl fun hs => hs
  | receive value =>
    obtain ⟨-, ⟨handler, -, rfl⟩ | ⟨requestSeq, r, n, -, -, rfl⟩ | rfl⟩ := Matching.step_receive h
    · exact hg.of_same le_rfl rfl fun hs => hs
    · exact hg.of_same le_rfl rfl fun hs => by simpa using hs
    · exact hg.of_same le_rfl rfl fun hs => hs
  | settle =>
    obtain ⟨requestSeq, known, r, hset, hknown, hunknown⟩ := Matching.step_settle h
    cases known with
    | true =>
      cases hknown rfl
      exact hg.of_same (Matching.setResponse_same ..).2.1.ge rfl fun hs => hs
    | false =>
      obtain ⟨e, -, rfl⟩ := hunknown rfl (hi.table.settling _ _ _ hset).1
      exact hg.of_same le_rfl rfl fun hs => hs
  | noMoreMessages text =>
    obtain ⟨-, r, c', hclean, rfl⟩ := Matching.step_noMoreMessages h hi.table.nodup
    exact hg.of_same hclean.nextSeq.ge rfl fun hs => by simpa using hs
  | fail =>
    simp only [Matching.step] at h
    split at h <;> cases h
    exact hg.of_same le_rfl rfl fun hs => hs

theorem history_step {l : Matching.Label} (hi : Matching.Inv m) (h : Matching.step m l = some m') :
    m.history ++ newEvents m m' = m'.history := by
  refine List.prefix_iff_eq_append.mp ?_
  cases Matching.step_effect hi h with
  | same _ _ hhist | sets _ _ _ _ _ hhist | rejects _ _ _ _ _ _ _ hhist =>
    exact hhist ▸ List.prefix_rfl
  | inserts _ _ _ _ _ hhist | takes _ _ _ _ _ _ hhist | ends _ _ _ _ _ _ hhist =>
    rw [hhist]
    exact List.prefix_append ..

end

-- ---------------------------------------------------------------------------
-- Runs
-- ---------------------------------------------------------------------------

structure Inv (s : State) : Prop where
  serial : Serial s.run
  gone : ∀ key ∈ s.raised, Gone s.run.matching key
  exchanged : s.exchanged = s.run.matching.history

section
variable {s s' : State} {key : Int} {writer : Writer}

theorem Inv.noTrace (hi : Inv s) : NoTrace s := by
  refine ⟨fun key => ?_, fun key hmem callback hcalled => ?_⟩
  · rw [hi.exchanged]
    exact hi.serial.matching.table.table key
  · exact hi.serial.after hcalled ((hi.gone key hmem).unanswered hi.serial.matching)

theorem Inv.of_step (hi : Inv s) {l : Matching.Label} {m : Matching.State}
    (hm : Matching.step s.run.matching l = some m) (hmatching : s'.run.matching = m)
    (hserial : Serial s'.run) (hraised : s'.raised = s.raised)
    (hexchanged : s'.exchanged = s.exchanged ++ newEvents s.run.matching m) : Inv s' := by
  refine ⟨hserial, fun key hmem => ?_, ?_⟩
  · rw [hmatching]
    exact (hi.gone key (hraised ▸ hmem)).step hi.serial.matching hm
  · rw [hexchanged, hi.exchanged, history_step hi.serial.matching hm, hmatching]

theorem step_channel {l : Matching.Label} (h : step s (.channel l) = some s') :
    ∃ run, channelStep s.run l = some run ∧ s' =
      { run
        exchanged := s.exchanged ++ newEvents s.run.matching run.matching
        raised := s.raised ++ abandoned l } := by
  cases l with
  | insert key => cases h
  | _ =>
    simp only [step, Option.map_eq_some_iff] at h
    obtain ⟨run, hrun, rfl⟩ := h
    exact ⟨run, hrun, rfl⟩

theorem step_write (h : step s (.write key arguments encode writer fuel) = some s') :
    ∃ run, channelStep s.run (.insert key) = some run ∧
      (Writable encode s.channel.closed (s.message key arguments) writer ∧
          s' = { s with run, exchanged := s.exchanged ++ [.sent key] } ∨
        ¬ Writable encode s.channel.closed (s.message key arguments) writer ∧
          s' = { s with run, raised := s.raised ++ [key] }) := by
  simp only [step, Option.bind_eq_bind, Option.bind_eq_some_iff] at h
  obtain ⟨run, hrun, ⟨result, w'⟩, hwrite, h⟩ := h
  have hiff := writes_iff ⟨fuel, hwrite⟩
  refine ⟨run, hrun, ?_⟩
  cases result with
  | ok =>
    cases h
    exact .inl ⟨hiff.mp rfl, rfl⟩
  | error e =>
    cases h
    exact .inr ⟨fun hw => by simpa using hiff.mpr hw, rfl⟩

theorem insert_table {run : RunHandlers.State} (h : channelStep s.run (.insert key) = some run) :
    run.matching.channel.sentRequests = s.channel.sentRequests ++ [key] ∧
      newEvents s.run.matching run.matching = [.sent key] := by
  have hm := channelStep_matching h
  generalize run.matching = m at hm
  simp only [Matching.step] at hm
  split at hm <;> cases hm
  exact ⟨rfl, by simp [newEvents]⟩

theorem inv_handlers (hi : Inv s) {l : ThreadLabel} (h : step s (.handlers t l) = some s') :
    Inv s' := by
  simp only [step, Option.map_eq_some_iff] at h
  obtain ⟨run, hrun, rfl⟩ := h
  have hserial := serial_thread hi.serial hrun
  rcases (threadStep_matching hrun).2 with hsame | htake
  · exact ⟨hserial, hsame ▸ hi.gone, hsame ▸ hi.exchanged⟩
  · refine hi.of_step htake rfl hserial rfl ?_
    simp [← Option.some.inj htake, newEvents]

theorem inv_channel (hi : Inv s) {l : Matching.Label} (h : step s (.channel l) = some s') :
    Inv s' := by
  obtain ⟨run, hrun, rfl⟩ := step_channel h
  have hm := channelStep_matching hrun
  refine ⟨serial_channel hi.serial hrun, fun key hmem => ?_, ?_⟩
  · rcases List.mem_append.mp hmem with hmem | hmem
    · exact (hi.gone key hmem).step hi.serial.matching hm
    · cases l with
      | abandon k =>
        obtain rfl := List.mem_singleton.mp hmem
        exact gone_of_abandon hi.serial.matching hm
      | _ => cases hmem
  · dsimp only
    rw [hi.exchanged, history_step hi.serial.matching hm]

theorem inv_step {l : Label} (hi : Inv s) (hok : Sendable s l) (h : step s l = some s') : Inv s' := by
  cases l with
  | handlers t l => exact inv_handlers hi h
  | channel l => exact inv_channel hi h
  | close =>
    cases h
    have hm : Matching.step s.run.matching (.act .close) = some _ := rfl
    exact hi.of_step hm rfl (serial_close hi.serial) rfl (by simp [newEvents])
  | write key arguments encode writer fuel =>
    obtain ⟨run, hrun, ⟨-, rfl⟩ | ⟨hnot, -⟩⟩ := step_write h
    · refine hi.of_step (channelStep_matching hrun) rfl (serial_channel hi.serial hrun) rfl ?_
      rw [(insert_table hrun).2]
    · exact absurd hok hnot

theorem leavesNoTrace_step {l : Label} (hi : Inv s) (hok : Sendable s l) : LeavesNoTrace s l := by
  refine fun s' h => ⟨(inv_step hi hok h).noTrace, fun hraised => ?_⟩
  cases l with
  | handlers t l =>
    simp only [step, Option.map_eq_some_iff] at h
    obtain ⟨run, -, rfl⟩ := h
    exact absurd rfl hraised
  | channel l =>
    obtain ⟨run, hrun, rfl⟩ := step_channel h
    cases l with
    | abandon key =>
      have hm := channelStep_matching hrun
      change run.matching.channel.sentRequests = s.run.matching.channel.sentRequests
      generalize run.matching = m at hm
      simp only [Matching.step] at hm
      split at hm <;> cases hm
      rfl
    | _ => exact absurd (List.append_nil _) hraised
  | close =>
    cases h
    exact absurd rfl hraised
  | write key arguments encode writer fuel =>
    obtain ⟨run, -, ⟨-, rfl⟩ | ⟨hnot, -⟩⟩ := step_write h
    · exact absurd rfl hraised
    · exact absurd hok hnot

theorem sendable_of_leavesNoTrace {l : Label} (h : step s l = some s') (hl : LeavesNoTrace s l) :
    Sendable s l := by
  cases l with
  | handlers | channel | close => trivial
  | write key arguments encode writer fuel =>
    obtain ⟨run, hrun, ⟨hw, -⟩ | ⟨-, rfl⟩⟩ := step_write h
    · exact hw
    · have hsent := (hl _ h).2 (by simp)
      simp [State.channel, (insert_table hrun).1] at hsent

theorem inv_new (name : String) : Inv { run := { matching := { channel := { name } } } } where
  serial := RunHandlers.serial_new name
  gone := by simp
  exchanged := rfl

/-- In every run, nothing is left of a request that is not sent, and the table
is what was written and not yet answered, if and only if every message that is
to be written can be. -/
theorem no_trace_iff (name : String) (labels : List Label) (s : State)
    (hrun : Run.exec step { run := { matching := { channel := { name } } } } labels = some s) :
    Run.Meets step LeavesNoTrace { run := { matching := { channel := { name } } } } labels ↔
      Run.Meets step Sendable { run := { matching := { channel := { name } } } } labels := by
  constructor
  · exact fun h => h.of_enabled hrun sendable_of_leavesNoTrace
  · exact Run.Meets.of_invariant inv_step leavesNoTrace_step (inv_new name)

end

/-- From a request with a callback to the call of the callback, if there is
one; in between the parser thread comes to the end of the stream. -/
def untilCalled (send : Label) : List Label :=
  [.channel (.draw "threads"), .channel (.make 1), .channel (.act (.onResponse 1 7)), send,
    .channel (.noMoreMessages "No more messages"), .handlers 0 .readClosed, .handlers 0 .join,
    .handlers 0 .lock, .handlers 0 .next]

/-- `on_before_send` registers the callback and raises an exception. -/
theorem no_trace_abandoned :
    Run.Meets step LeavesNoTrace { run := { matching := { channel := { name := "server" } } } }
      (untilCalled (.channel (.abandon 1))) := by
  have hsome : (Run.exec step { run := { matching := { channel := { name := "server" } } } }
      (untilCalled (.channel (.abandon 1)))).isSome = true := by decide +kernel
  obtain ⟨s, hrun⟩ := Option.isSome_iff_exists.mp hsome
  refine (no_trace_iff _ _ _ hrun).mpr (Run.meets_of_forall fun l hl s => ?_)
  cases l with
  | write => simp [untilCalled] at hl
  | _ => trivial

/-- The stream has been closed by another thread. -/
def closedSend : List Label :=
  .close :: untilCalled (.write 1 .null encodePlain { output := [], results := fun _ => .nothing } 0) ++
    [.handlers 0 .call]

/-- The callback of the request that could not be written is called. -/
theorem leaves_trace :
    ¬ Run.Meets step LeavesNoTrace { run := { matching := { channel := { name := "server" } } } }
      closedSend := by
  have hcalled : (Run.exec step { run := { matching := { channel := { name := "server" } } } }
      closedSend).any (fun s => s.raised.contains 1 && s.run.called.contains (1, 7)) = true := by
    decide +kernel
  obtain ⟨s, hrun, hs⟩ := (Option.any_eq_true ..).mp hcalled
  simp only [Bool.and_eq_true, List.contains_iff_mem] at hs
  intro hmeets
  have htrace : NoTrace s := Run.exec_invariant (fun _ hok h => (hok _ h).1)
    (inv_new "server").noTrace hmeets hrun
  exact htrace.silent 1 hs.1 7 hs.2

end Debugpy.FailedSends
