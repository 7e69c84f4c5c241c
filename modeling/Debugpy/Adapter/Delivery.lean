import Debugpy.Adapter.Deferred

/-!
# Delivery

What the client is told of the launcher and the server, against the labels of
a run: which of their events the handlers pass on is said of the label and the
state before the step, and nothing else arrives. So a run is judged by what was
sent to the adapter and by what it wrote, not by what its steps record.
-/

namespace Debugpy.Delivery

open Adapter
open Deferred (Timely Succeeded Inv forwards arrivals passed isForwarded inv_of_timely)
open Proc (Keeps Frame)

-- ---------------------------------------------------------------------------
-- What the client is to be told
-- ---------------------------------------------------------------------------

/-- `event(key, validate)`, unless that raises. -/
def propertyOf (e : Event) (key : String) (validate : Validator) : Option Property :=
  match e.body with
  | .dict d => (validate (Json.get? d key)).toOption
  | _ => none

/-- The end of the debuggee is told of with the code that came before. -/
def ofLauncher (w : World) (e : Event) : List Event :=
  match e.event with
  | "process" => if (propertyOf e "systemProcessId" isInt).isSome then [e] else []
  | "output" => [e]
  | "terminated" =>
    [{ e with event := "exited", body := .dict [("exitCode", (w.launcher.getD {}).exitCodeJson)] }]
  | _ => []

def ofServer (w : World) (e : Event) : List Event :=
  match e.event with
  | "initialized" | "terminated" => []
  | "process" => if w.launcher.isSome then [] else [e]
  | "continued" => if isVisualStudio w.client.clientId then [] else [e]
  | "exited" => match propertyOf e "pydevdReason" optionalStr with
    | some reason => if isProcessReplaced reason || w.launcher.isSome then [] else [e]
    | none => []
  | _ => [e]

def tells (w : World) : Label → List Event
  | .launcherEvent event body => ofLauncher w (w.nextEvent event body)
  | .serverEvent event body => ofServer w (w.nextEvent event body)
  | _ => []

/-- In the order in which the events arrive. -/
def told : World → List Turn → List Sent := Run.outputs step fun w t => (tells w t.label).map passed

/-- No event is written ahead of the response to the start request; and once
that says success, as long as the client's channel takes what is written, what
has been written is `told`. -/
structure InOrder (told : List Sent) (w : World) : Prop where
  after : ∀ ms, ms <+: w.toClient → (∀ id ∈ w.latestStart, ∀ m ∈ ms, m.isResponseTo id = false) →
    ∀ m ∈ ms, isForwarded m = false
  all : w.outlet.spent = false → Succeeded w → forwards w = told

-- ---------------------------------------------------------------------------
-- Nothing else arrives
-- ---------------------------------------------------------------------------

def unheard : Frame World :=
  .simple (fun w w' => w'.arrived = w.arrived) (fun _ => rfl) fun h h' => h'.trans h

theorem serves_unheard : Serves unheard fun _ => True where
  other h := congrArg Core.arrived h
  event _ _ _ _ _ := rfl
  request _ _ _ := rfl
  asked _ _ _ _ := rfl
  share _ _ := rfl
  like _ _ := trivial
  answers _ _ _ _ _ _ _ := rfl
  answersStart _ _ _ _ _ := rfl
  suspends _ _ _ _ _ _ _ _ := rfl
  attach _ _ _ := rfl
  begins _ := rfl
  waits _ _ _ := rfl
  terminated _ _ := rfl
  initialized _ _ := rfl
  forwarded _ _ _ := rfl
  defers _ _ := rfl
  forgets _ := rfl
  start _ _ _ _ _ := rfl
  started _ := rfl
  latest _ _ _ := rfl
  noDebug _ _ := rfl
  evaluates _ _ _ := rfl
  closes _ := rfl
  loses w writes loss := by
    change (w.lose writes loss).arrived = w.arrived
    unfold World.lose
    split <;> rfl
  disconnects _ := rfl
  launcher _ _ := rfl
  server _ _ _ := rfl

-- ---------------------------------------------------------------------------
-- The events
-- ---------------------------------------------------------------------------

section
variable {w w' : World} {e : Event} {es : List Event}

/-- What arrives while the code runs, however it ends. -/
def Hears (p : Code α) (w : World) (es : List Event) : Prop := (p.run w).2.arrived = w.arrived ++ es

theorem arrived_of_keeps {p : Code α} (h : Keeps unheard p) (w : World) :
    (p.run w).2.arrived = w.arrived := by
  have hw := h w
  unfold Frame.holds at hw
  split at hw <;> exact hw

theorem hears_nothing {p : Code α} (h : Keeps unheard p) : Hears p w [] := by
  rw [Hears, List.append_nil]
  exact arrived_of_keeps h w

theorem hears_propagate : Hears (propagateAfterStart e) w [e] := by
  rw [Hears, propagateAfterStart, Proc.run_bind, Proc.run_modify]
  refine arrived_of_keeps (.bind .get fun w' => ?_) (w.arrives e)
  split
  · exact .modify fun w => serves_unheard.defers w _
  · exact keeps_write fun w => serves_unheard.forwarded w _ _

theorem Hears.bind_ok {p : Code α} {f : α → Code β} (h : p.run w = (.ok a, w'))
    (ha : w'.arrived = w.arrived) (hf : Hears (f a) w' es) : Hears (p >>= f) w es := by
  rw [Hears, Proc.run_bind, h]
  exact hf.trans (congrArg (· ++ es) ha)

theorem Hears.bind_error {p : Code α} {f : α → Code β} (h : p.run w = (.error stop, w'))
    (ha : w'.arrived = w.arrived) : Hears (p >>= f) w [] := by
  rw [Hears, Proc.run_bind, h, List.append_nil]
  exact ha

theorem call_some (h : propertyOf e key validate = some value) :
    (e.call key validate).run w = (.ok value, w) := by
  cases hb : e.body with
  | dict d =>
    cases hv : validate (Json.get? d key) with
    | error => simp [propertyOf, hb, hv, Except.toOption] at h
    | ok v =>
      simp only [propertyOf, hb, hv, Except.toOption, Option.some.injEq] at h
      simp [Event.call, callPayload, hb, hv, h]
  | _ => simp [propertyOf, hb] at h

theorem call_none (h : propertyOf e key validate = none) :
    ∃ stop w', (e.call key validate).run w = (.error stop, w') ∧ w'.arrived = w.arrived := by
  unfold Event.call callPayload
  cases hb : e.body with
  | dict d =>
    cases hv : validate (Json.get? d key) with
    | ok v => simp [propertyOf, hb, hv, Except.toOption] at h
    | error x =>
      simp only [hv]
      split
      · exact ⟨_, w.tick, rfl, rfl⟩
      · exact ⟨_, w, rfl, rfl⟩
  | _ => exact ⟨_, w, rfl, rfl⟩

theorem hears_launcher : Hears (Launcher.handler e) w (ofLauncher w e) := by
  have hset (f : Launcher → Launcher) : Keeps unheard
      (modify fun w : World => { w with launcher := w.launcher.map f } : Code Unit) :=
    .modify fun w => serves_unheard.launcher w _
  unfold Launcher.handler
  split
  · next h =>
    cases hread : propertyOf e "systemProcessId" isInt with
    | some pid =>
      simp only [ofLauncher, h, hread]
      exact .bind_ok (call_some hread) rfl (.bind_ok (Proc.run_modify ..) rfl hears_propagate)
    | none =>
      simp only [ofLauncher, h, hread]
      obtain ⟨stop, w', hrun, ha⟩ := call_none (w := w) hread
      exact .bind_error hrun ha
  · next h =>
    simp only [ofLauncher, h]
    exact hears_propagate
  · next h =>
    simp only [ofLauncher, h]
    exact hears_nothing (.bind (keeps_eventCall serves_unheard.toOrdinary) fun _ => hset _)
  · next h =>
    simp only [ofLauncher, h]
    refine .bind_ok (Proc.run_get w) rfl ?_
    rw [Hears, Proc.run_bind, Proc.run_modify]
    exact arrived_of_keeps (Keeps.tryExcept (keeps_write fun w => serves_unheard.forwarded w _ _)
      fun _ _ hc => Option.some.inj hc ▸ .pure) (w.arrives _)
  · next hp ho _ ht =>
    have hof : ofLauncher w e = [] := by
      unfold ofLauncher
      split <;> first | rfl | contradiction
    rw [hof]
    exact hears_nothing .raise

theorem hears_server : Hears (Server.handler e) w (ofServer w e) := by
  refine .bind_ok (Proc.run_get w) rfl ?_
  split
  · next h =>
    simp only [ofServer, h]
    exact hears_nothing .pure
  · next h =>
    simp only [ofServer, h]
    split
    · exact hears_nothing .pure
    · exact hears_propagate
  · next h =>
    simp only [ofServer, h]
    split
    · exact hears_nothing .pure
    · exact hears_propagate
  · next h =>
    cases hread : propertyOf e "pydevdReason" optionalStr with
    | none =>
      simp only [ofServer, h, hread]
      obtain ⟨stop, w', hrun, ha⟩ := call_none (w := w) hread
      exact .bind_error hrun ha
    | some reason =>
      simp only [ofServer, h, hread]
      refine .bind_ok (call_some hread) rfl ?_
      cases hreplaced : isProcessReplaced reason with
      | true =>
        refine hears_nothing (keeps_other serves_unheard.toOrdinary fun w => ?_)
        unfold World.replaceProcess
        split <;> rfl
      | false =>
        cases hl : w.launcher.isSome with
        | true => exact hears_nothing .pure
        | false => exact hears_propagate
  · next h =>
    simp only [ofServer, h]
    exact hears_nothing .pure
  · next hi hp hc he ht =>
    have hof : ofServer w e = [e] := by
      unfold ofServer
      split <;> first | rfl | contradiction
    rw [hof]
    exact hears_propagate

theorem Hears.eventRun {f : Code Unit} (h : Hears f w es) : Hears (e.run f) w es := by
  rw [Hears] at h ⊢
  cases hf : f.run w with
  | mk out w' =>
    rw [hf] at h
    let g : Code Unit := fun s => (out, s)
    have hrun : (e.run f).run w = (e.run g).run w' := by
      have hg : g.run w' = (out, w') := rfl
      simp only [Event.run, Event.handle, Proc.run_tryExcept, messageHandler, hf, hg]
    have hkeeps : Keeps unheard g := by
      intro s
      unfold Frame.holds
      split <;> rfl
    rw [hrun]
    exact (arrived_of_keeps (keeps_eventRun serves_unheard.toOrdinary hkeeps) w').trans h

theorem dispatch_same {label : Label} {p : Code Unit} (h : dispatch w label = some (p, w')) :
    w'.arrived = w.arrived := by
  cases label with
  | evaluated n reply =>
    obtain ⟨r, -, heq⟩ := Option.map_eq_some_iff.mp h
    cases heq
    rfl
  | resume =>
    obtain ⟨stage, -, hrun⟩ := Option.bind_eq_some_iff.mp h
    split at hrun <;> cases hrun
    rfl
  | clientLost =>
    cases h
    rfl
  | register c pid ppid =>
    obtain ⟨w₁, hreg, heq⟩ := Option.map_eq_some_iff.mp h
    cases heq
    unfold World.register at hreg
    split at hreg <;> cases hreg
    rfl
  | request | clientEvent | clientDisconnect | serverEvent | serverDisconnect | launcherConnects
  | launcherEvent | launcherDisconnect | deregister =>
    simp only [dispatch] at h
    split at h <;> cases h
    rfl

theorem dispatch_arrived {label : Label} {p : Code Unit} (h : dispatch w label = some (p, w')) :
    (p.run w').2.arrived = w.arrived ++ tells w label := by
  have hquiet (hserver : ∀ event body, label ≠ .serverEvent event body)
      (hlauncher : ∀ event body, label ≠ .launcherEvent event body) :
      (p.run w').2.arrived = w.arrived := by
    refine (arrived_of_keeps (serves_unheard.anyDispatch (fun _ _ => rfl) (fun _ _ _ => rfl)
      (fun _ _ _ => trivial) (fun _ _ _ _ _ _ _ => rfl) (fun _ _ _ _ _ => trivial)
      (fun event body hl => absurd hl (hserver event body))
      (fun event body hl => absurd hl (hlauncher event body)) h) w').trans (dispatch_same h)
  cases label with
  | serverEvent event body =>
    simp only [dispatch] at h
    split at h <;> cases h
    exact (hears_server (w := w.receive)).eventRun
  | launcherEvent event body =>
    simp only [dispatch] at h
    split at h <;> cases h
    exact (hears_launcher (w := w.receive)).eventRun
  | request | clientEvent | clientDisconnect | evaluated | serverDisconnect | launcherConnects
  | launcherDisconnect | resume | clientLost | register | deregister =>
    exact (hquiet (fun _ _ hl => by cases hl) fun _ _ hl => by cases hl).trans
      (List.append_nil _).symm

theorem step_arrived {t : Turn} (h : step w t = some w') : w'.arrived = w.arrived ++ tells w t.label := by
  unfold step at h
  split at h
  · cases h
  · obtain ⟨⟨p, w₁⟩, hd, rfl⟩ := Option.map_eq_some_iff.mp h
    have harrived := dispatch_arrived hd
    change (p.run w₁).2.arrived = w.arrived ++ tells w t.label at harrived
    dsimp only
    unfold World.runHandler
    split
    · next heq => simpa [heq] using harrived
    · next heq => simpa [heq] using harrived
    · next heq => simpa [heq] using harrived

theorem arrivals_eq_told {w₀ : World} {ts : List Turn} (h₀ : w₀.arrived = [])
    (h : Run.exec step w₀ ts = some w) : arrivals w = told w₀ ts := by
  have keep : ∀ {os w t w'}, arrivals w = os → True → step w t = some w' →
      arrivals w' = os ++ (tells w t.label).map passed := by
    rintro os w t w' rfl - hstep
    rw [arrivals, step_arrived hstep, List.map_append]
    rfl
  have hinit : arrivals w₀ = [] := by rw [arrivals, h₀]; rfl
  exact Run.exec_outputs (I := fun os w => arrivals w = os) keep hinit Run.meets_true h

end

/-- In every run whose steps meet the condition, the client is told in order. -/
theorem inOrder_of_timely (w₀ w : World) (ts : List Turn) (h₀ : w₀.Fresh)
    (h : Run.exec step w₀ ts = some w) (hok : Run.Meets step Timely w₀ ts) :
    InOrder (told w₀ ts) w := by
  obtain ⟨n, ℓ, ε, hi⟩ := inv_of_timely h₀ h hok
  have hdelivered := hi.delivered
  refine ⟨hdelivered.after, fun hs hsu => ?_⟩
  exact (hdelivered.all hs hsu).trans (arrivals_eq_told h₀.arrived h)

/-- A launch without debugging: two events come before the response, and the
debuggee ends after it. -/
def launched : List Turn :=
  [{ label := .request "initialize" (.dict []) },
    { label := .request "launch" (.dict [("program", .str "a.py"), ("noDebug", .bool true)]) },
    { label := .launcherConnects },
    { label := .launcherEvent "process" (.dict [("systemProcessId", .int 7)]) },
    { label := .launcherEvent "output" (.dict []) },
    { label := .resume },
    { label := .launcherEvent "exited" (.dict [("exitCode", .int 0)]) },
    { label := .launcherEvent "output" (.dict []) },
    { label := .launcherEvent "terminated" (.dict []) }]

theorem inOrder_launched : ∃ w, Run.exec step {} launched = some w ∧ Succeeded w ∧
    w.outlet.spent = false ∧ (told {} launched).length = 4 ∧ InOrder (told {} launched) w := by
  have hrun : (Run.exec step {} launched).map
      (fun w => decide (Succeeded w ∧ w.outlet.spent = false)) = some true := by decide +kernel
  have hok : Run.Meets step Timely {} launched := by decide +kernel
  obtain ⟨w, hw, hd⟩ := Option.map_eq_some_iff.mp hrun
  obtain ⟨hsu, hs⟩ := of_decide_eq_true hd
  exact ⟨w, hw, hsu, hs, by decide +kernel, inOrder_of_timely {} w launched fresh_default hw hok⟩

/-- The debuggee ends before the client is done with the configuration. -/
def endsEarly : List Turn :=
  [{ label := .request "initialize" (.dict []) },
    { label := .request "launch" (.dict [("program", .str "a.py")]) },
    { label := .launcherConnects },
    { label := .resume },
    { label := .launcherEvent "process" (.dict [("systemProcessId", .int 7)]) },
    { label := .resume },
    { label := .register 0 7 none },
    { label := .resume },
    { label := .serverEvent "output" (.dict []) },
    { label := .launcherEvent "exited" (.dict [("exitCode", .int 1)]) },
    { label := .launcherEvent "terminated" (.dict []) }]

/-- The server disconnects instead of responding to `"configurationDone"`. -/
def serverGoes : List Turn :=
  [{ label := .register 0 1 none },
    { label := .request "initialize" (.dict []) },
    { label := .request "attach" (.dict []) },
    { label := .serverEvent "output" (.dict []) },
    { label := .request "configurationDone" (.dict []), env := { reply := .lost } }]

/-- One is told of the end ahead of the response, and the other of nothing
after a response that says success. -/
theorem not_inOrder :
    (∃ w, Run.exec step {} endsEarly = some w ∧ ¬ InOrder (told {} endsEarly) w) ∧
      ∃ w, Run.exec step {} serverGoes = some w ∧ ¬ InOrder (told {} serverGoes) w := by
  constructor
  · have hrun : (Run.exec step {} endsEarly).map (fun w => decide
        ((∀ id ∈ w.latestStart, ∀ m ∈ w.toClient, m.isResponseTo id = false) ∧
          ∃ m ∈ w.toClient, isForwarded m = true)) = some true := by decide +kernel
    obtain ⟨w, hw, hd⟩ := Option.map_eq_some_iff.mp hrun
    obtain ⟨hno, m, hm, hforwarded⟩ := of_decide_eq_true hd
    refine ⟨w, hw, fun h => ?_⟩
    rw [h.after w.toClient (List.prefix_refl _) hno m hm] at hforwarded
    cases hforwarded
  · have hrun : (Run.exec step {} serverGoes).map (fun w => decide (Succeeded w ∧
        w.outlet.spent = false ∧ (forwards w).length = 0)) = some true := by decide +kernel
    have htold : (told {} serverGoes).length = 1 := by decide +kernel
    obtain ⟨w, hw, hd⟩ := Option.map_eq_some_iff.mp hrun
    obtain ⟨hsu, hs, hlen⟩ := of_decide_eq_true hd
    refine ⟨w, hw, fun h => ?_⟩
    rw [h.all hs hsu, htold] at hlen
    cases hlen

end Debugpy.Delivery
