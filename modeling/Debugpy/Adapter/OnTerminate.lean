import Debugpy.Adapter.Frames

/-!
# What `"onTerminate"` does to `"terminate"`

The handlers of `"launch"` and `"attach"` read the property with different
validators, and assign whether a `"terminate"` is to be forwarded only if it
has a value. Between the two requests there is any run of the session:
`Moves` says what a step does to the start request, to the handler that waits
and to what is assigned.
-/

namespace Debugpy.Adapter

open Proc (Keeps Frame Triple)

def Request.onTerminate (r : Request) : Property := Json.get? r.items "onTerminate"

def Forwards (t : Request) (w : World) : Prop :=
  ((handleRequest t).run w).2.toServer = w.toServer ++ [(t.command, t.arguments)]

/-- The session is finalized, and the debuggee is to be terminated. -/
def Ends (t : Request) (w : World) : Prop :=
  (handleRequest t).run w = (t.run do
    modifyClient fun c => { c with restartRequested := false }
    finalize (some true) (.terminate t)
    return .body (.dict [])).run w

/-- Every `"terminate"` does what the value of `"onTerminate"` says. -/
def Obeyed (value : Property) (w : World) : Prop :=
  ∀ t : Request, t.command = "terminate" →
    (Forwards t w ↔ value = some (.str "KeyboardInterrupt")) ∧
      (value ≠ some (.str "KeyboardInterrupt") → Ends t w)

def World.StartedBy (w : World) (id : Uid) : Prop := ∃ r ∈ w.client.startRequest, r.id = id

/-- In the run from `w` to `w'`, the start request that the first step
receives is accepted, with a server present. -/
def Accepted (w : World) (turns : List Turn) (w' : World) : Prop :=
  ∃ front last back v v', turns = front ++ last :: back ∧ Run.exec step w front = some v ∧
    step v last = some v' ∧ Run.exec step v' back = some w' ∧
    ¬ v.StartedBy w.received ∧ v'.StartedBy w.received ∧ v'.server.isSome

/-- The condition on a start request: it can say what it means, and nothing is
left of an earlier one if it says nothing. -/
def Told (w : World) (r : Request) : Prop :=
  (r.command = "attach" → r.onTerminate ≠ some (.str "KeyboardInterrupt")) ∧
    (Json.toBool r.onTerminate = true ∨ w.client.forwardTerminateRequest = false)

-- ---------------------------------------------------------------------------
-- What a step moves
-- ---------------------------------------------------------------------------

/-- The start request is as before or one of these requests, and so is the one
that a handler waits with. What is assigned stays the same, if it is `fixed`. -/
structure Moves (these : Uid → Prop) (fixed : Prop) (w w' : World) : Prop where
  received : w.received ≤ w'.received
  server : w.server.isSome → w'.server.isSome
  forward : fixed → w'.client.forwardTerminateRequest = w.client.forwardTerminateRequest
  start : ∀ id, w'.StartedBy id → these id ∨ w.StartedBy id
  waits : ∀ stage ∈ w'.suspended, (∀ r ∈ stage.request, these r.id) ∨ w.suspended = some stage

section
variable {these : Uid → Prop} {fixed : Prop} {w w' w'' : World} {r t : Request} {s : Start}

theorem Moves.refl (w : World) : Moves these fixed w w :=
  ⟨Nat.le_refl _, id, fun _ => rfl, fun _ => .inr, fun _ => .inr⟩

theorem Moves.trans (h : Moves these fixed w w') (h' : Moves these fixed w' w'') :
    Moves these fixed w w'' where
  received := h.received.trans h'.received
  server hs := h'.server (h.server hs)
  forward hf := (h'.forward hf).trans (h.forward hf)
  start id hid := (h'.start id hid).elim .inl (h.start id)
  waits stage hs := (h'.waits stage hs).elim .inl (h.waits stage)

theorem Moves.mono {these' : Uid → Prop} {fixed' : Prop} (h : Moves these fixed w w')
    (himp : ∀ id, these id → these' id) (hfixed : fixed' → fixed) : Moves these' fixed' w w' where
  received := h.received
  server := h.server
  forward hf := h.forward (hfixed hf)
  start id hid := (h.start id hid).imp (himp id) fun h => h
  waits stage hs := (h.waits stage hs).imp (fun h r hr => himp _ (h r hr)) fun h => h

def moves (these : Uid → Prop) (fixed : Prop) : Frame World :=
  .simple (Moves these fixed) Moves.refl Moves.trans

theorem moves_run {p : Code α} (h : Keeps (moves these fixed) p) (w : World) :
    Moves these fixed w (p.run w).2 := Proc.holds_simple.mp (h w)

theorem Moves.same (hreceived : w'.received = w.received) (hserver : w.server.isSome → w'.server.isSome)
    (hforward : fixed → w'.client.forwardTerminateRequest = w.client.forwardTerminateRequest)
    (hstart : w'.client.startRequest = w.client.startRequest) (hs : w'.suspended = w.suspended) :
    Moves these fixed w w' where
  received := hreceived.ge
  server := hserver
  forward := hforward
  start id hid := by
    rw [World.StartedBy, hstart] at hid
    exact .inr hid
  waits stage hst := .inr (hs ▸ hst)

theorem allows_moves (these : Uid → Prop) (fixed : Prop) :
    Allows (moves these fixed) fun r => these r.id where
  other {w w'} h := by
    have hclient : w'.client.core = w.client.core := congrArg Core.client h
    have hforward := congrArg Client.forwardTerminateRequest hclient
    have hstart := congrArg Client.startRequest hclient
    have hserver : w'.server.isSome = w.server.isSome := congrArg Core.server h
    exact .same (congrArg Core.received h) (fun hs => hserver.trans hs) (fun _ => hforward) hstart
      (congrArg Core.suspended h)
  event w _ _ _ _ := { Moves.refl w with }
  request w _ _ := { Moves.refl w with }
  asked w _ _ _ := { Moves.refl w with }
  attach w _ _ := { Moves.refl w with server := fun _ => rfl }
  share w connect := by
    obtain ⟨start, heq, hstart⟩ := shareConnect_start w.client connect
    rw [World.withClient, heq]
    refine { Moves.refl w with start := fun id hid => ?_ }
    obtain ⟨r', hr', rfl⟩ := hid
    obtain ⟨r, hr, hlike⟩ := hstart r' hr'
    exact .inr ⟨r, hr, hlike.id.symm⟩
  like h hlike := hlike.id ▸ h
  answers r _ w r' b _ _ := { Moves.refl w with }
  answersStart w _ _ _ _ := { Moves.refl w with }
  suspends r hr w stage s hs _ hlike := by
    refine { Moves.refl w with waits := fun stage' hs' => .inl fun r' hr' => ?_ }
    cases hs'
    have hreq : stage.request = some s.request := by
      cases stage <;> cases hs <;> rfl
    rw [hreq] at hr'
    cases hr'
    exact hlike.id ▸ hr
  begins w := { Moves.refl w with }
  waits w after h := by
    refine { Moves.refl w with waits := fun stage hs => .inl fun r hr => ?_ }
    cases hs
    exact h r hr
  terminated w _ := { Moves.refl w with }
  initialized w _ := { Moves.refl w with }
  forwarded w _ _ := { Moves.refl w with }
  arrives w _ := { Moves.refl w with }
  defers w _ := { Moves.refl w with }
  forgets w := { Moves.refl w with }
  start w r _ hr _ := by
    refine { Moves.refl w with start := fun id hid => ?_ }
    obtain ⟨r', hr', rfl⟩ := hid
    cases hr'
    exact .inl hr
  started w := { Moves.refl w with }
  latest w _ _ := { Moves.refl w with }
  noDebug w _ := { Moves.refl w with }
  evaluates w _ _ := { Moves.refl w with }
  outlet w _ := { Moves.refl w with }
  disconnects w := { Moves.refl w with }
  launcher w _ := { Moves.refl w with }
  server w _ h := { Moves.refl w with server := fun _ => h }

theorem ordinary_moves : Ordinary (moves these fixed) fun _ => True := (allows_moves _ _).toOrdinary

theorem answers_moves : Answers (moves these fixed) r := fun w _ _ _ _ => { Moves.refl w with }

theorem assigns_moves (h : ¬ fixed) : AssignsForward (moves these fixed) := fun _ _ =>
  ⟨Nat.le_refl _, id, fun hf => absurd hf h, fun _ => .inr, fun _ => .inr⟩

-- ---------------------------------------------------------------------------
-- Steps
-- ---------------------------------------------------------------------------

def handled (w : World) : Label → Uid → Prop
  | .request .. => fun id => id = w.received
  | .resume => fun id => ∃ stage ∈ w.suspended, ∃ r ∈ stage.request, r.id = id
  | _ => fun _ => False

def Label.starts : Label → Prop
  | .request command _ => IsStart command
  | _ => False

theorem dispatch_moves {label : Label} {p : Code Unit} (h : dispatch w label = some (p, w')) :
    Moves these fixed w w' := by
  have hreceive : Moves these fixed w w.receive := { Moves.refl w with received := Nat.le_succ _ }
  cases label with
  | request | clientEvent | serverEvent | launcherEvent =>
    simp only [dispatch] at h
    split at h <;> cases h
    exact hreceive
  | clientDisconnect | serverDisconnect | launcherConnects | launcherDisconnect | deregister =>
    simp only [dispatch] at h
    split at h <;> cases h
    exact .refl w
  | evaluated i reply =>
    obtain ⟨r, -, heq⟩ := Option.map_eq_some_iff.mp h
    cases heq
    exact { Moves.refl w with }
  | resume =>
    obtain ⟨stage, -, hrun⟩ := Option.bind_eq_some_iff.mp h
    split at hrun <;> cases hrun
    exact { Moves.refl w with waits := fun _ h => by cases h }
  | clientLost writes loss =>
    cases h
    exact .refl w
  | register c pid ppid =>
    obtain ⟨w₁, hreg, heq⟩ := Option.map_eq_some_iff.mp h
    cases heq
    unfold World.register at hreg
    split at hreg <;> cases hreg
    exact { Moves.refl w with }

theorem start_moves {f : Start → Code Start} (h : w.server.isSome) :
    Moves these fixed w ((startMessageHandler f r).run w).2 := by
  have hreject {reason : String} :
      Keeps (moves these fixed) (do Proc.raise (← r.isntValid reason) : Code Result) :=
    keeps_reject ordinary_moves answers_moves.rejects
  rw [startMessageHandler, Proc.run_bind, Proc.run_get]
  dsimp only
  split
  · exact moves_run hreject w
  · rw [if_pos (by simp [h])]
    exact moves_run hreject w

theorem run_moves {f : Code Result} (h : Moves these fixed w' (f.run w).2) :
    Moves these fixed w' ((r.run f).run w).2 := by
  have hF : Ordinary (moves these fixed) fun _ => True := ordinary_moves
  refine state_run hF answers_moves ?_ h
  rintro w₁ w₂ (h₂ | h₂) h₁ <;> exact h₁.trans h₂

/-- What is assigned can only change with a start request, before there is a
server. -/
theorem request_moves (hr : these r.id) :
    Moves these (w.server.isSome ∨ ¬ IsStart r.command) w ((handleRequest r).run w).2 := by
  have hF := allows_moves these (w.server.isSome ∨ ¬ IsStart r.command)
  by_cases hi : r.command = "initialize"
  · have hhandler : handleRequest r = r.run (initializeRequest r) := by
      simp [handleRequest, clientHandler, isNoHandler, hi]
    rw [hhandler]
    refine moves_run (keeps_run ordinary_moves answers_moves
      (keeps_initializeRequest ordinary_moves answers_moves.rejects fun w f hf => ?_)) w
    have hclient := hf w.client
    have hforward := congrArg Client.forwardTerminateRequest hclient
    have hstart := congrArg Client.startRequest hclient
    exact .same rfl id (fun _ => hforward) hstart rfl
  by_cases hs : IsStart r.command
  · by_cases hserver : w.server.isSome
    · have hhandler : ∃ f, handleRequest r = r.run (startMessageHandler f r) := by
        rcases hs with hs | hs
        · exact ⟨launchRequest, by simp [handleRequest, clientHandler, isNoHandler, hs]⟩
        · exact ⟨attachRequest, by simp [handleRequest, clientHandler, isNoHandler, hs]⟩
      obtain ⟨f, hhandler⟩ := hhandler
      rw [hhandler]
      exact run_moves (start_moves hserver)
    · exact moves_run (hF.handleRequest hr hi fun _ => assigns_moves (by simp [hserver, hs])) w
  · exact moves_run (hF.handleRequest hr hi fun h => absurd h hs) w

theorem runHandler_moves {p : Code Unit} : Moves these fixed (p.run w).2 (w.runHandler p) := by
  unfold World.runHandler
  split <;> next heq => rw [heq]; exact { Moves.refl _ with }

theorem step_moves {turn : Turn} (h : step w turn = some w') :
    Moves (handled w turn.label) (w.server.isSome ∨ ¬ turn.label.starts) w w' := by
  unfold step at h
  split at h
  · cases h
  obtain ⟨⟨p, w₁⟩, hd, rfl⟩ := Option.map_eq_some_iff.mp h
  refine .trans ?_ runHandler_moves
  have henv : Moves (handled w turn.label) (w.server.isSome ∨ ¬ turn.label.starts) w
      { w with env := turn.env } := { Moves.refl w with }
  have hbegin := henv.trans (dispatch_moves hd)
  cases hl : turn.label with
  | request command arguments =>
    rw [hl] at hd hbegin
    simp only [dispatch] at hd
    split at hd <;> cases hd
    let w₁ := { w with env := turn.env }.receive
    let r := w.nextRequest command arguments
    have hrun : Moves (fun id => id = w.received) (w₁.server.isSome ∨ ¬ IsStart r.command) w₁
        ((handleRequest r).run w₁).2 := request_moves rfl
    exact hbegin.trans hrun
  | _ =>
    rw [hl] at hd hbegin
    have hkeeps := (allows_moves (handled w turn.label) (w.server.isSome ∨ ¬ turn.label.starts)).dispatch
      (fun _ _ hlabel => by cases hlabel) (fun _ _ => answers_moves)
      (fun hlabel stage hs r hr => by rw [hl, hlabel]; exact ⟨stage, hs, r, hr, rfl⟩) hd
    rw [hl] at hkeeps
    exact hbegin.trans (moves_run hkeeps w₁)

-- ---------------------------------------------------------------------------
-- What a start request assigns
-- ---------------------------------------------------------------------------

def Request.forwards (r : Request) (before : Bool) : Bool :=
  if Json.toBool r.onTerminate then r.command == "launch" && isKeyboardInterrupt r.onTerminate
  else before

theorem optionalStr_ok (h : optionalStr value = .ok v) : v = value := by
  unfold optionalStr Json.ofType at h
  split at h
  · exact (Except.ok.inj h).symm
  · simp [Json.converter, Json.Class.isNumber] at h

theorem optionalBool_ok (h : optionalBool value = .ok v) :
    Json.toBool v = Json.toBool value ∧ isKeyboardInterrupt v = false := by
  unfold optionalBool Json.ofType at h
  split at h
  · next haccepts =>
    cases h
    refine ⟨rfl, ?_⟩
    match value with
    | some (.str s) => simp [Json.ClassInfo.accepts, Json.isInstance] at haccepts
    | none | some .null | some (.bool _) | some (.int _) | some (.float _) | some (.list _)
    | some (.dict _) => rfl
  · simp only [Json.converter, Json.Class.isNumber, Json.Class.convert, if_true, Option.any_some] at h
    split at h
    · next htrue =>
      cases h
      exact ⟨rfl, rfl⟩
    · simp at h

theorem call_valid : Proc.Yields (r.call key validate) fun v =>
    validate (Json.get? r.items key) = .ok v := by
  intro w v hv
  unfold Request.call callPayload at hv
  split at hv
  · next d hd =>
    have hitems : r.items = d := by simp [Request.items, hd]
    rw [hitems]
    split at hv
    · next hvalid =>
      cases hv
      exact hvalid
    · next e he =>
      split at hv
      · rw [Proc.run_bind] at hv
        split at hv <;> cases hv
      · cases hv
  · cases hv

theorem setArgument_onTerminate (h : key ≠ "onTerminate") :
    Proc.Yields (r.setArgument key value) fun r' => r'.onTerminate = r.onTerminate := by
  unfold Request.setArgument
  split
  · next d hd =>
    refine .pure ?_
    simp only [Request.onTerminate, Request.items, hd]
    exact Json.get?_set_ne d h.symm
  · exact .raise

theorem readPython_onTerminate :
    Proc.Yields (readPython r) fun r' => r'.onTerminate = r.onTerminate := by
  unfold readPython
  split
  · exact .bind (.any _) fun _ _ => .raise
  · exact .bind (.any _) fun _ _ => .bind (.any _) fun _ _ => .bind (.any _) fun _ _ =>
      .bind (setArgument_onTerminate (by decide)) fun r₁ h₁ =>
      .bind (setArgument_onTerminate (by decide)) fun r₂ h₂ =>
      .bind (.any _) fun _ _ => .pure (h₂.trans h₁)

theorem readTarget_onTerminate :
    Proc.Yields (readTarget r key validate name) fun r' => r'.onTerminate = r.onTerminate := by
  unfold readTarget
  split
  · exact .bind (.any _) fun _ _ => setArgument_onTerminate (by decide)
  · exact .pure rfl

theorem readTargets_onTerminate :
    Proc.Yields (readTargets r) fun r' => r'.onTerminate = r.onTerminate := by
  refine .bind readTarget_onTerminate fun r₁ h₁ => .bind readTarget_onTerminate fun r₂ h₂ =>
    .bind readTarget_onTerminate fun r₃ h₃ => ?_
  split
  · exact .bind (.any _) fun _ _ => .raise
  · exact .pure (h₃.trans (h₂.trans h₁))
  · exact .bind (.any _) fun _ _ => .raise

/-- Nothing has happened yet, or the start request has assigned what it is to. -/
def Reads (r : Request) (before w : World) : Prop :=
  Moves (fun _ => False) True before w ∨
    w.client.forwardTerminateRequest = r.forwards before.client.forwardTerminateRequest

theorem Reads.moves (h : Reads r w w') (hm : Moves (fun _ => False) True w' w'') : Reads r w w'' :=
  h.imp (fun h => h.trans hm) fun h => (hm.forward trivial).trans h

theorem Reads.after (h : Reads r w' w'') (hm : Moves (fun _ => False) True w w') : Reads r w w'' :=
  h.imp hm.trans fun h => h.trans (by rw [hm.forward trivial])

theorem still_triple {p : Code α} (h : Keeps (moves (fun _ => False) True) p)
    (hw : Moves (fun _ => False) True w w') :
    Triple p w' (fun _ => Moves (fun _ => False) True w) fun _ => Reads r w :=
  .mono (Proc.triple_state.mpr (hw.trans (moves_run h w'))) (fun _ _ h => h) fun _ _ => .inl

theorem assigned_triple {p : Code α} (h : Keeps (moves (fun _ => True) True) p)
    (hw : w.client.forwardTerminateRequest = b) :
    Triple p w (fun _ w' => w'.client.forwardTerminateRequest = b)
      fun _ w' => w'.client.forwardTerminateRequest = b :=
  Proc.triple_state.mpr (((moves_run h w).forward trivial).trans hw)

theorem run_forwardTerminate : (forwardTerminate v).run w = (.ok (), w.withClient fun c => { c with
    forwardTerminateRequest :=
      if Json.toBool v then isKeyboardInterrupt v else c.forwardTerminateRequest }) := by
  unfold forwardTerminate
  split <;> rfl

theorem reads_triple (hw : Moves (fun _ => False) True w w') (hr : t.onTerminate = r.onTerminate)
    (hvalid : ∀ v, validate r.onTerminate = .ok v → Json.toBool v = Json.toBool r.onTerminate ∧
      (Json.toBool v = true →
        isKeyboardInterrupt v = (r.command == "launch" && isKeyboardInterrupt r.onTerminate)))
    {f : Code α} (hf : Keeps (moves (fun _ => True) True) f) :
    Triple (do
      forwardTerminate (← t.call "onTerminate" validate)
      f) w'
      (fun _ w'' => w''.client.forwardTerminateRequest = r.forwards w.client.forwardTerminateRequest)
      fun _ => Reads r w := by
  refine .bind (.mono (.and (still_triple (keeps_call ordinary_moves answers_moves.rejects) hw)
    call_valid.triple) (fun _ _ h => h) fun _ _ h => h.1) fun v w₁ h => ?_
  obtain ⟨htrue, hkeyboard⟩ := hvalid v (hr ▸ h.2)
  refine .bind (.of_ok run_forwardTerminate ?_) fun _ w₂ hw₂ =>
    .mono (assigned_triple hf hw₂) (fun _ _ h => h) fun _ _ => .inr
  have hbefore := h.1.forward trivial
  simp only [World.withClient_client, Request.forwards, ← htrue, hbefore]
  split
  · next h => exact hkeyboard h
  · rfl

theorem error_triple {Q : α → World → Prop} (hw : Moves (fun _ => False) True w w') :
    Triple (do Proc.raise (← t.error invalid reason) : Code α) w' Q fun _ => Reads r w :=
  .bind (still_triple (keeps_error ordinary_moves answers_moves.rejects) hw) fun _ _ h =>
    .raise (.inl h)

theorem launchRequest_triple (hc : s.request.command = "launch")
    (hw : Moves (fun _ => False) True w w') :
    Triple (launchRequest s) w'
      (fun _ w'' =>
        w''.client.forwardTerminateRequest = s.request.forwards w.client.forwardTerminateRequest)
      fun _ => Reads s.request w := by
  have hF {these : Uid → Prop} : Ordinary (moves these True) fun _ => True := ordinary_moves
  have hr {these : Uid → Prop} {r : Request} : Rejects (moves these True) r := answers_moves.rejects
  refine .get_bind ?_
  split
  · exact error_triple hw
  refine .bind (.mono (.and (still_triple (keeps_readPython hF hr) hw) readPython_onTerminate.triple)
    (fun _ _ h => h) fun _ _ h => h.1) fun r₁ w₁ h₁ => ?_
  refine .bind (.mono (.and (still_triple (keeps_readTargets hF hr) h₁.1) readTargets_onTerminate.triple)
    (fun _ _ h => h) fun _ _ h => h.1) fun r₂ w₂ h₂ => ?_
  refine .bind (still_triple (keeps_readConsole hF hr) h₂.1) fun console w₃ h₃ => ?_
  refine .bind (still_triple (keeps_call hF hr) h₃) fun _ w₄ h₄ => ?_
  refine .bind (still_triple (keeps_propertyOrDebugOption hF hr) h₄) fun asSudo w₅ h₅ => ?_
  split
  · exact error_triple h₅
  refine reads_triple h₅ (h₂.2.trans h₁.2) (fun v hv => ?_) ?_
  · cases optionalStr_ok hv
    simp [hc]
  · have hsuspends : Suspends (moves (fun _ => True) True) r₂ := (allows_moves _ _).suspends r₂ trivial
    have hattach : Attaches (moves (fun _ => True) True) := (allows_moves _ _).attach
    exact .bind (keeps_call hF hr) fun _ => .bind (keeps_call hF hr) fun _ =>
      .bind (keeps_serveLaunch hF hr) fun _ => .bind (keeps_spawnDebuggee hF hr hsuspends hattach)
        fun _ => .pure

theorem attachRequest_triple (hc : s.request.command = "attach")
    (hw : Moves (fun _ => False) True w w') :
    Triple (attachRequest s) w'
      (fun _ w'' =>
        w''.client.forwardTerminateRequest = s.request.forwards w.client.forwardTerminateRequest)
      fun _ => Reads s.request w := by
  have hcall {r : Request} {key : String} {validate : Validator} :
      Keeps (moves (fun _ => False) True) (r.call key validate) :=
    keeps_call ordinary_moves answers_moves.rejects
  rw [attachRequest_eq]
  refine .get_bind ?_
  split
  · exact error_triple hw
  refine .bind (Q := fun _ w'' =>
    w''.client.forwardTerminateRequest = s.request.forwards w.client.forwardTerminateRequest) ?_
    fun a _ h => .mono (assigned_triple ((allows_moves _ _).attachRest trivial) h)
      (fun _ _ h => h) fun _ _ => .inr
  refine .bind (still_triple hcall hw) fun host w₁ h₁ => ?_
  refine .bind (still_triple hcall h₁) fun port w₂ h₂ => ?_
  refine .bind (still_triple hcall h₂) fun listen w₃ h₃ => ?_
  refine .bind (still_triple hcall h₃) fun connect w₄ h₄ => ?_
  refine .bind (still_triple hcall h₄) fun pid w₅ h₅ => ?_
  refine .bind (still_triple hcall h₅) fun subPid w₆ h₆ => ?_
  refine reads_triple h₆ rfl (fun v hv => ?_) .pure
  obtain ⟨htrue, hkeyboard⟩ := optionalBool_ok hv
  exact ⟨htrue, fun _ => by simp [hkeyboard, hc]⟩

theorem startMessageHandler_reads {f : Start → Code Start}
    (hf : ∀ {s w'}, s.request = r → Moves (fun _ => False) True w w' → Triple (f s) w'
      (fun _ w'' => w''.client.forwardTerminateRequest = r.forwards w.client.forwardTerminateRequest)
      fun _ => Reads r w) : Reads r w ((startMessageHandler f r).run w).2 := by
  have hcall {r : Request} {key : String} {validate : Validator} :
      Keeps (moves (fun _ => False) True) (r.call key validate) :=
    keeps_call ordinary_moves answers_moves.rejects
  refine Proc.triple_state.mp (.get_bind ?_)
  split
  · exact error_triple (.refl w)
  split
  · exact error_triple (.refl w)
  refine .modify_bind (.bind (still_triple hcall { Moves.refl w with }) fun noDebug w₁ h₁ => ?_)
  refine .modify_bind (.bind (still_triple hcall (h₁.trans { Moves.refl w₁ with }))
    fun debugOptions w₂ h₂ => ?_)
  refine .bind (hf rfl h₂) fun s _ h => ?_
  exact .mono (assigned_triple ((allows_moves _ _).afterStart trivial) h) (fun _ _ => .inr) fun _ _ => .inr

theorem handleRequest_reads (hs : IsStart r.command) : Reads r w ((handleRequest r).run w).2 := by
  have hF : Ordinary (moves (fun _ => False) True) fun _ => True := ordinary_moves
  have hrun {f : Code Result} (h : Reads r w (f.run w).2) : Reads r w ((r.run f).run w).2 := by
    refine state_run hF answers_moves ?_ h
    rintro w₁ w₂ (hm | hm) h <;> exact h.moves hm
  rcases hs with hs | hs
  · have hhandler : handleRequest r = r.run (startMessageHandler launchRequest r) := by
      simp [handleRequest, clientHandler, isNoHandler, hs]
    rw [hhandler]
    refine hrun (startMessageHandler_reads fun hr hm => ?_)
    subst hr
    exact launchRequest_triple hs hm
  · have hhandler : handleRequest r = r.run (startMessageHandler attachRequest r) := by
      simp [handleRequest, clientHandler, isNoHandler, hs]
    rw [hhandler]
    refine hrun (startMessageHandler_reads fun hr hm => ?_)
    subst hr
    exact attachRequest_triple hs hm

-- ---------------------------------------------------------------------------
-- Runs
-- ---------------------------------------------------------------------------

/-- The handler of this start request has assigned what it is to, if it
waits. -/
structure Prepared (n : Uid) (forward : Bool) (w : World) : Prop where
  received : n < w.received
  waits : ∀ stage ∈ w.suspended, ∀ r ∈ stage.request, r.id = n →
    w.client.forwardTerminateRequest = forward

theorem free_of_request {turn : Turn} (hl : turn.label = .request command arguments)
    (h : step w turn = some w') : ∀ stage ∈ w.suspended, stage.request = none := by
  intro stage hst
  unfold step at h
  split at h
  · cases h
  obtain ⟨⟨p, w₁⟩, hd, -⟩ := Option.map_eq_some_iff.mp h
  rw [hl] at hd
  simp only [dispatch] at hd
  split at hd
  · cases hd
  next hfree =>
  have hst : w.suspended = some stage := hst
  simp only [World.clientBusy, hst, Bool.or_eq_true, not_or] at hfree
  cases stage with
  | finalize after => cases after with
    | nothing => rfl
    | disconnect | terminate | responded | start => simp at hfree
  | launcher | process | connection | attach => simp at hfree

theorem Prepared.kept {turn : Turn} (hp : Prepared n b w) (h : step w turn = some w') :
    Prepared n b w' := by
  have hm := step_moves h
  refine ⟨Nat.lt_of_lt_of_le hp.received hm.received, fun stage hs r hr hid => ?_⟩
  cases hl : turn.label with
  | request command arguments =>
    rw [hl] at hm
    rcases hm.waits stage hs with hnew | hold
    · have hnew : r.id = w.received := hnew r hr
      exact absurd (hid.symm.trans hnew) (Nat.ne_of_lt hp.received)
    · rw [free_of_request hl h stage hold] at hr
      cases hr
  | _ =>
    rw [hl] at hm
    have hforward := hm.forward (.inr id)
    rw [hforward]
    rcases hm.waits stage hs with hnew | hold
    · first
        | exact (hnew r hr).elim
        | obtain ⟨stage', hs', r', hr', hid'⟩ := hnew r hr
          exact hp.waits stage' hs' r' hr' (hid'.trans hid)
    · exact hp.waits stage hold r hr hid

theorem Prepared.accepted {turn : Turn} (hp : Prepared n b w) (h : step w turn = some w')
    (hnot : ¬ w.StartedBy n) (hstarted : w'.StartedBy n) : w'.client.forwardTerminateRequest = b := by
  have hm := step_moves h
  have hthese := (hm.start n hstarted).resolve_right hnot
  cases hl : turn.label with
  | request command arguments =>
    rw [hl] at hthese
    exact absurd hthese (Nat.ne_of_lt hp.received)
  | resume =>
    rw [hl] at hthese hm
    obtain ⟨stage, hs, r, hr, hid⟩ := hthese
    exact (hm.forward (.inr fun h => h)).trans (hp.waits stage hs r hr hid)
  | _ =>
    rw [hl] at hthese
    exact hthese.elim

theorem received_reads {turn : Turn} (hl : turn.label = .request command arguments)
    (hs : IsStart command) (h : step w turn = some w') :
    w.received < w'.received ∧ Reads (w.nextRequest command arguments) w w' := by
  unfold step at h
  split at h
  · cases h
  obtain ⟨⟨p, w₁⟩, hd, rfl⟩ := Option.map_eq_some_iff.mp h
  rw [hl] at hd
  simp only [dispatch] at hd
  split at hd <;> cases hd
  have hbegin : Moves (fun _ => False) True w { w with env := turn.env }.receive :=
    { Moves.refl w with received := Nat.le_succ _ }
  let w₁ := { w with env := turn.env }.receive
  let r := w.nextRequest command arguments
  have hrun : Moves (fun id => id = w.received) (w₁.server.isSome ∨ ¬ IsStart r.command) w₁
      (w₁.runHandler (handleRequest r)) := .trans (request_moves rfl) runHandler_moves
  exact ⟨hrun.received, ((handleRequest_reads hs).moves runHandler_moves).after hbegin⟩

theorem forward_later {turns : List Turn} (hserver : w.server.isSome)
    (h : Run.exec step w turns = some w') :
    w'.server.isSome ∧ w'.client.forwardTerminateRequest = w.client.forwardTerminateRequest := by
  let I (v : World) : Prop := v.server.isSome ∧
    v.client.forwardTerminateRequest = w.client.forwardTerminateRequest
  have keep : ∀ {v t v'}, I v → True → step v t = some v' → I v' := by
    intro v t v' hi _ hstep
    have hm := step_moves hstep
    exact ⟨hm.server hi.1, (hm.forward (.inl hi.1)).trans hi.2⟩
  exact Run.exec_invariant (I := I) keep ⟨hserver, rfl⟩ Run.meets_true h

theorem accepted_forwards (hs : IsStart command) {turn : Turn}
    (hl : turn.label = .request command arguments) (h : Accepted w (turn :: turns) w') :
    w'.server.isSome ∧ w'.client.forwardTerminateRequest =
      (w.nextRequest command arguments).forwards w.client.forwardTerminateRequest := by
  let r := w.nextRequest command arguments
  obtain ⟨front, last, back, v, v', hturns, hfront, hlast, hback, hnot, hstarted, hserver⟩ := h
  suffices hv : v'.client.forwardTerminateRequest = r.forwards w.client.forwardTerminateRequest by
    obtain ⟨hserver', hforward⟩ := forward_later hserver hback
    exact ⟨hserver', hforward.trans hv⟩
  cases front with
  | nil =>
    cases hturns
    cases hfront
    rcases (received_reads hl hs hlast).2 with hm | hforward
    · exact absurd ((hm.start _ hstarted).resolve_left id) hnot
    · exact hforward
  | cons first front =>
    cases hturns
    obtain ⟨w₁, hfirst, hfront⟩ := Run.exec_cons.mp hfront
    have hprepared : Prepared w.received (r.forwards w.client.forwardTerminateRequest) w₁ := by
      obtain ⟨hreceived, hreads⟩ := received_reads hl hs hfirst
      refine ⟨hreceived, fun stage hst r hr _ => hreads.elim (fun hm => ?_) id⟩
      rcases hm.waits stage hst with hnone | hold
      · exact (hnone r hr).elim
      · rw [free_of_request hl hfirst stage hold] at hr
        cases hr
    have keep : ∀ {u t u'}, Prepared w.received (r.forwards w.client.forwardTerminateRequest) u →
        True → step u t = some u' → Prepared w.received (r.forwards w.client.forwardTerminateRequest) u' :=
      fun hp _ hstep => hp.kept hstep
    exact (Run.exec_invariant keep hprepared Run.meets_true hfront).accepted hlast hnot hstarted

-- ---------------------------------------------------------------------------
-- "terminate"
-- ---------------------------------------------------------------------------

def Asks (asks : String → Prop) (w w' : World) : Prop :=
  ∃ qs, w'.toServer = w.toServer ++ qs ∧ ∀ q ∈ qs, asks q.1

section
variable {asks : String → Prop}

theorem Asks.none (h : w'.toServer = w.toServer) : Asks asks w w' := ⟨[], by simp [h], by simp⟩

theorem Asks.trans (h : Asks asks w w') (h' : Asks asks w' w'') : Asks asks w w'' := by
  obtain ⟨qs, hq, hasks⟩ := h
  obtain ⟨qs', hq', hasks'⟩ := h'
  refine ⟨qs ++ qs', by rw [hq', hq, List.append_assoc], fun q hmem => ?_⟩
  rcases List.mem_append.mp hmem with hmem | hmem
  · exact hasks q hmem
  · exact hasks' q hmem

theorem Asks.eq (h : Asks (fun _ => False) w w') : w'.toServer = w.toServer := by
  obtain ⟨qs, hq, hno⟩ := h
  rw [hq, List.eq_nil_iff_forall_not_mem.mpr hno, List.append_nil]

def asking (asks : String → Prop) : Frame World := .simple (Asks asks) (fun _ => .none rfl) Asks.trans

theorem ordinary_asking : Ordinary (asking asks) asks where
  other h := .none (congrArg Core.toServer h)
  event _ _ _ _ _ := .none rfl
  request _ _ _ := .none rfl
  asked w command arguments h := ⟨[(command, arguments)], rfl, by simpa using h⟩
  share _ _ := .none rfl

theorem answers_asking : Answers (asking asks) r := fun _ _ _ _ _ => .none rfl

theorem finalizes_asking : Finalizes (asking asks) after :=
  ⟨fun _ => .none rfl, fun _ _ => .none rfl, fun _ => .none rfl⟩

theorem run_asks {f : Code Result} : ((r.run f).run w).2.toServer = (f.run w).2.toServer := by
  have hF : Ordinary (asking fun _ => False) fun _ => False := ordinary_asking
  refine state_run (P := fun v => v.toServer = (f.run w).2.toServer) hF answers_asking ?_ rfl
  rintro v v' (h | h) hv <;> exact (Asks.eq h).trans hv

theorem delegate_asks (h : w.server.isSome) :
    (r.delegate.run w).2.toServer = w.toServer ++ [(r.command, r.arguments)] := by
  cases hr : w.env.reply with
  | success body => rw [delegate_success h hr]; rfl
  | failure invalid reason => rw [delegate_failure h hr]; rfl
  | lost => rw [delegate_lost h hr]; rfl
  | broken => rw [delegate_broken h hr]; rfl

theorem handleRequest_terminate (h : t.command = "terminate") :
    handleRequest t = t.run (terminateRequest t) := by
  simp [handleRequest, clientHandler, isNoHandler, h]

theorem run_terminateRequest : (terminateRequest t).run w = (do
    if w.client.forwardTerminateRequest then return .body (← t.delegate)
    else do
      finalize (some true) (.terminate t)
      return .body (.dict []) : Code Result).run
        (w.withClient fun c => { c with restartRequested := false }) := by
  rw [terminateRequest, Proc.run_bind, run_modifyClient]
  rfl

theorem terminate_forwards (h : t.command = "terminate") (hserver : w.server.isSome)
    (hforward : w.client.forwardTerminateRequest = true) : Forwards t w := by
  let w₁ := w.withClient fun c => { c with restartRequested := false }
  have hdelegate : (t.delegate.run w₁).2.toServer = w.toServer ++ [(t.command, t.arguments)] :=
    delegate_asks (w := w₁) hserver
  rw [Forwards, handleRequest_terminate h, run_asks, run_terminateRequest, if_pos hforward,
    Proc.run_bind]
  split <;> next heq => rw [heq] at hdelegate; exact hdelegate

theorem terminate_ends (h : t.command = "terminate")
    (hforward : w.client.forwardTerminateRequest = false) : Ends t w := by
  rw [Ends, handleRequest_terminate h]
  refine run_congr ?_
  rw [run_terminateRequest, if_neg (by simp [hforward]), Proc.run_bind _ _ w, run_modifyClient]

theorem ends_not_forwards (h : t.command = "terminate") (he : Ends t w) : ¬ Forwards t w := by
  intro hf
  have hkeeps : Keeps (asking (· ≠ "terminate")) (do
      modifyClient fun c => { c with restartRequested := false }
      finalize (some true) (.terminate t)
      return .body (.dict []) : Code Result) :=
    .bind (keeps_modifyClient ordinary_asking fun _ => rfl) fun _ =>
      .bind (keeps_finalize ordinary_asking (by decide) finalizes_asking) fun _ => .pure
  obtain ⟨qs, hq, hno⟩ := (Proc.holds_simple.mp (hkeeps w) : Asks _ _ _)
  rw [Forwards, he, run_asks, hq, List.append_cancel_left_eq] at hf
  subst hf
  exact hno _ (List.mem_singleton_self _) h

theorem obeyed_iff_forward (hserver : w.server.isSome) : Obeyed value w ↔
    (w.client.forwardTerminateRequest = true ↔ value = some (.str "KeyboardInterrupt")) := by
  constructor
  · intro h
    let t : Request := { id := 0, command := "terminate", arguments := .null }
    obtain ⟨hiff, -⟩ := h t rfl
    rw [← hiff]
    constructor
    · exact terminate_forwards rfl hserver
    · intro hf
      cases hforward : w.client.forwardTerminateRequest with
      | true => rfl
      | false => exact absurd hf (ends_not_forwards rfl (terminate_ends rfl hforward))
  · intro h t ht
    cases hforward : w.client.forwardTerminateRequest with
    | true =>
      have hvalue := h.mp hforward
      exact ⟨⟨fun _ => hvalue, fun _ => terminate_forwards ht hserver hforward⟩,
        fun hno => absurd hvalue hno⟩
    | false =>
      have hends := terminate_ends ht hforward
      refine ⟨⟨fun hf => absurd hf (ends_not_forwards ht hends), fun hvalue => ?_⟩, fun _ => hends⟩
      rw [h.mpr hvalue] at hforward
      cases hforward

theorem isKeyboardInterrupt_iff :
    isKeyboardInterrupt value = true ↔ value = some (.str "KeyboardInterrupt") := by
  constructor
  · intro h
    unfold isKeyboardInterrupt at h
    split at h
    · rw [beq_iff_eq.mp h]
    · cases h
  · rintro rfl
    rfl

theorem forwards_iff (hs : IsStart r.command) : (r.forwards w.client.forwardTerminateRequest = true ↔
    r.onTerminate = some (.str "KeyboardInterrupt")) ↔ Told w r := by
  have htruthy (h : r.onTerminate = some (.str "KeyboardInterrupt")) : Json.toBool r.onTerminate = true := by
    rw [h]
    rfl
  unfold Request.forwards Told
  simp only [ne_eq, ← isKeyboardInterrupt_iff] at htruthy ⊢
  cases hbool : Json.toBool r.onTerminate with
  | false =>
    have hno : isKeyboardInterrupt r.onTerminate = false := by
      cases hk : isKeyboardInterrupt r.onTerminate with
      | false => rfl
      | true => simp [htruthy hk] at hbool
    simp [hno]
  | true => rcases hs with hc | hc <;> simp [hc]

end

/-- After a start request that is accepted with a server, every `"terminate"`
does what the value of `"onTerminate"` says if and only if the start request
can say so. -/
theorem obeyed_iff (w w' : World) (command : String) (arguments : Json) (env : Env) (turns : List Turn)
    (hs : IsStart command) (h : Accepted w (⟨.request command arguments, env⟩ :: turns) w') :
    Obeyed (w.nextRequest command arguments).onTerminate w' ↔
      Told w (w.nextRequest command arguments) := by
  obtain ⟨hserver, hforward⟩ := accepted_forwards hs rfl h
  rw [obeyed_iff_forward hserver, hforward]
  exact forwards_iff hs

def initialized : List Turn :=
  [{ label := .register 0 1 none }, { label := .request "initialize" (.dict []) }]

def attaches (onTerminate : Json) : Turn :=
  { label := .request "attach" (.dict [("onTerminate", onTerminate)]) }

theorem accepted_attaches (value : Json) (forward : Bool)
    (h : ((Run.exec step {} initialized).bind fun w =>
      (step w (attaches value)).map fun w' => (w.client.startRequest.isNone,
        w'.client.startRequest.map (·.id) == some w.received, w'.server.isSome,
        w'.client.forwardTerminateRequest)) = some (true, true, true, forward)) :
    ∃ w w', Run.exec step {} initialized = some w ∧ Accepted w [attaches value] w' ∧
      w'.server.isSome ∧ w'.client.forwardTerminateRequest = forward := by
  obtain ⟨w, hw, h⟩ := Option.bind_eq_some_iff.mp h
  obtain ⟨w', hw', h⟩ := Option.map_eq_some_iff.mp h
  simp only [Prod.mk.injEq, Option.isNone_iff_eq_none, beq_iff_eq] at h
  obtain ⟨hnone, hsome, hserver, hforward⟩ := h
  obtain ⟨r, hr, hid⟩ := Option.map_eq_some_iff.mp hsome
  refine ⟨w, w', hw, ⟨[], _, [], w, w', rfl, rfl, hw', rfl, ?_, ⟨r, hr, hid⟩, hserver⟩, hserver, hforward⟩
  rintro ⟨r', hr', -⟩
  rw [hnone] at hr'
  cases hr'

theorem obeyed_true : ∃ w w', Run.exec step {} initialized = some w ∧
    Accepted w [attaches (.bool true)] w' ∧ Obeyed (some (.bool true)) w' := by
  obtain ⟨w, w', hw, h, -⟩ := accepted_attaches (.bool true) false (by decide +kernel)
  have htold : Told w (w.nextRequest "attach" (.dict [("onTerminate", .bool true)])) :=
    ⟨fun _ hvalue => (by cases hvalue), .inl rfl⟩
  exact ⟨w, w', hw, h, (obeyed_iff w w' "attach" _ {} [] (.inr rfl) h).mpr htold⟩

/-- A string is made a Boolean of before it is compared with one. -/
theorem not_obeyed : ¬ ∀ (w₀ w w' : World) (before turns : List Turn) (command : String)
    (arguments : Json) (env : Env), w₀.Fresh → Run.exec step w₀ before = some w → IsStart command →
      Accepted w (⟨.request command arguments, env⟩ :: turns) w' →
      Obeyed (w.nextRequest command arguments).onTerminate w' := by
  intro h
  obtain ⟨w, w', hw, haccepted, hserver, hforward⟩ := accepted_attaches (.str "KeyboardInterrupt") false
    (by decide +kernel)
  have hobeyed := h {} w w' initialized [] "attach" _ {} fresh_default hw (.inr rfl) haccepted
  rw [obeyed_iff_forward hserver, hforward] at hobeyed
  cases hobeyed.mpr rfl

end

end Debugpy.Adapter
