import Debugpy.Adapter.System

/-!
# What most of the code leaves alone

Most handlers, and most of the code of the others, do only a few kinds of
things to what matters about a session. `Ordinary` lists them for a frame: a
frame that allows them is kept by that code, whatever comes of it. The
finalization of a session and the ends of the start handlers are not among it.
-/

namespace Debugpy.Adapter

open Proc (raise exit block tryExcept Keeps Frame)

structure Core where
  client : Client
  launcher : Option Bool
  server : Bool
  noDebug : Bool
  isFinalizing : Bool
  outlet : Outlet
  toClient : List Sent
  toServer : List (String × Json)
  responses : Uid → Option (Except Exn Json)
  evaluating : List Request
  suspended : Option Suspended
  received : Uid
  env : Env
  arrived : List Event
  latestStart : Option Uid
  exited : Bool

def Client.core (c : Client) : Client :=
  { c with
    usingStdio := false
    restartRequested := false
    knownSubprocesses := [] }

def World.core (w : World) : Core where
  client := w.client.core
  launcher := w.launcher.map (·.isConnected)
  server := w.server.isSome
  noDebug := w.noDebug
  isFinalizing := w.isFinalizing
  outlet := w.outlet
  toClient := w.toClient
  toServer := w.toServer
  responses := w.responses
  evaluating := w.evaluating
  suspended := w.suspended
  received := w.received
  env := w.env
  arrived := w.arrived
  latestStart := w.latestStart
  exited := w.exited

def World.attach (w : World) (c : Nat) : World :=
  { setConn w c { w.conns c with attached := true } with
    server := some { connection := c }, pid := some (w.conns c).pid }

structure Ordinary (F : Frame World) (asks : String → Prop) : Prop where
  other : ∀ {w w'}, w'.core = w.core → F.rel w w'
  event : ∀ w {event} body, event ≠ "terminated" → event ≠ "initialized" →
    F.rel w (w.sent (.event event body))
  request : ∀ w command arguments, F.rel w (w.sent (.request command arguments))
  asked : ∀ w {command} arguments, asks command → F.rel w (w.asked command arguments)
  share : ∀ w connect, F.rel w (w.withClient (·.shareConnect connect))

def Attaches (F : Frame World) : Prop := ∀ w c, w.server = none → F.rel w (w.attach c)

def Answers (F : Frame World) (r : Request) : Prop :=
  ∀ w r' b, r.Like r' → w.responses r'.id = none → F.rel w ((w.sent (.response r' b)).respond r' b)

def Rejects (F : Frame World) (r : Request) : Prop :=
  ∀ w r' e, r.Like r' → w.responses r'.id = none →
    F.rel w ((w.sent (.response r' (.error e))).respond r' (.error e))

def AnswersStart (F : Frame World) : Prop :=
  ∀ w start b, w.client.startRequest = some start → w.responses start.id = none →
    F.rel w ((w.sent (.response start b)).respond start b)

structure Finalizes (F : Frame World) (after : After) : Prop where
  begins : ∀ w, F.rel w { w with isFinalizing := true }
  terminated : ∀ w body, F.rel w (w.sent (.event "terminated" body))
  waits : ∀ w, F.left w { w with suspended := some (.finalize after) }

def Suspended.starts : Suspended → Option Start
  | .launcher s _ | .process s | .connection s | .attach s .. => some s
  | .finalize _ => none

def After.request : After → Option Request
  | .nothing => none
  | .disconnect r | .terminate r | .responded r => some r
  | .start s => some s.request

def Suspended.request : Suspended → Option Request
  | .launcher s _ | .process s | .connection s | .attach s .. => some s.request
  | .finalize after => after.request

/-- The subprocess that a handler waits to be attached to. -/
def Suspended.subPid : Suspended → Property
  | .attach _ _ _ subPid => subPid
  | _ => none

def Suspends (F : Frame World) (r : Request) : Prop :=
  ∀ w stage s, stage.starts = some s → stage.subPid = none → r.Like s.request →
    F.left w { w with suspended := some stage }

def AssignsForward (F : Frame World) : Prop :=
  ∀ w forward, F.rel w (w.withClient fun c => { c with forwardTerminateRequest := forward })

def IsStart (command : String) : Prop := command = "launch" ∨ command = "attach"

instance : DecidablePred IsStart := fun _ => inferInstanceAs (Decidable (_ ∨ _))

section
variable {F : Frame World} {asks : String → Prop} {r r' r'' : Request}

theorem Request.Like.trans (h : r.Like r') (h' : r'.Like r'') : r.Like r'' :=
  ⟨h'.id.trans h.id, h'.command.trans h.command⟩

theorem Answers.rejects (h : Answers F r) : Rejects F r := fun w r' e => h w r' (.error e)

theorem Answers.like (h : Answers F r) (hr : r.Like r') : Answers F r' :=
  fun w r'' b hr' => h w r'' b (hr.trans hr')

theorem Rejects.like (h : Rejects F r) (hr : r.Like r') : Rejects F r' :=
  fun w r'' e hr' => h w r'' e (hr.trans hr')

theorem keeps_ite {c : Prop} [Decidable c] {p q : Code α} (hp : c → Keeps F p) (hq : ¬ c → Keeps F q) :
    Keeps F (if c then p else q) := by
  split
  · next h => exact hp h
  · next h => exact hq h

theorem keeps_write (h : ∀ w, F.rel w (w.sent m)) : Keeps F (write m) := by
  intro w
  cases hs : w.outlet.spent with
  | true =>
    rw [write_spent hs]
    exact F.refl w
  | false =>
    rw [write_ok hs]
    exact h w

theorem holds_respond (h : w.responses r.id = none → F.rel w ((w.sent (.response r b)).respond r b)) :
    F.holds ((r.respond b).run w).1 w ((r.respond b).run w).2 := by
  cases hr : w.responses r.id with
  | some b' =>
    rw [respond_again (by simp [hr])]
    exact F.refl w
  | none =>
    cases hs : w.outlet.spent with
    | true =>
      rw [respond_spent hr hs]
      exact F.refl w
    | false =>
      rw [respond_ok hr hs]
      exact h hr

theorem keeps_respond (h : ∀ w, w.responses r.id = none → F.rel w ((w.sent (.response r b)).respond r b)) :
    Keeps F (r.respond b) := fun w => holds_respond (h w)

theorem keeps_tryRespond (hr : Answers F r) : Keeps F (r.tryRespond b) :=
  .tryExcept (keeps_respond fun w => hr w r b (.refl r)) fun e c hc => by
    cases e <;> cases hc
    exact .pure

theorem keeps_conclude (hr : Answers F r) : Keeps F (r.conclude result) := by
  refine .bind .get fun w => ?_
  split
  · exact .pure
  · exact .pure
  · exact keeps_ite (fun _ => .pure) fun _ => .raise
  · exact keeps_tryRespond hr
  · exact keeps_tryRespond hr
  · exact .raise

variable (hF : Ordinary F asks)
include hF

theorem keeps_newUid : Keeps F newUid :=
  fun w => (hF.other rfl : F.rel w w.tick)

theorem keeps_error (hr : Rejects F r) : Keeps F (r.error invalid reason) :=
  .bind (keeps_newUid hF) fun _ => .bind (keeps_respond fun w => hr w r _ (.refl r)) fun _ => .pure

theorem keeps_isntValid (hr : Rejects F r) : Keeps F (r.isntValid reason) := keeps_error hF hr
theorem keeps_cantHandle (hr : Rejects F r) : Keeps F (r.cantHandle reason) := keeps_error hF hr

theorem keeps_reject (hr : Rejects F r) :
    Keeps F (do raise (← r.isntValid reason) : Code α) :=
  .bind (keeps_isntValid hF hr) fun _ => .raise

theorem keeps_fail (hr : Rejects F r) :
    Keeps F (do raise (← r.cantHandle reason) : Code α) :=
  .bind (keeps_cantHandle hF hr) fun _ => .raise

theorem keeps_propagateError : Keeps F (propagateError invalid reason cause : Code α) :=
  .bind (keeps_newUid hF) fun _ => .raise

theorem keeps_messageHandler {cantHandle : String → Code Exn} {f : Code α}
    (hc : ∀ reason, Keeps F (cantHandle reason)) (hf : Keeps F f) :
    Keeps F (messageHandler m cantHandle f) := by
  refine hf.tryExcept fun e c h => ?_
  split at h <;> cases h
  · exact .bind (hc _) fun _ => .raise
  · exact keeps_ite (fun _ => .raise) fun _ => keeps_propagateError hF
  · exact .bind (hc _) fun _ => .raise
  · exact .bind (hc _) fun _ => .raise

theorem keeps_run (hr : Answers F r) {f : Code Result} (hf : Keeps F f) : Keeps F (r.run f) := by
  refine .bind ?_ fun _ => keeps_conclude hr
  refine (keeps_messageHandler hF (fun _ => keeps_cantHandle hF hr.rejects) hf).tryExcept fun e c h => ?_
  split at h
  · split at h <;> cases h
    exact .pure
  · cases h

omit hF in
theorem state_run_of {P : World → Prop} {f : Code Result}
    (hP : ∀ {w w'}, F.rel w w' ∨ F.left w w' → P w → P w')
    (hkeeps : ∀ g : Code Result, Keeps F g → (∀ s, (g.run s).1 = (f.run w).1) → Keeps F (r.run g))
    (h : P (f.run w).2) : P ((r.run f).run w).2 := by
  cases hf : f.run w with
  | mk out w' =>
    rw [hf] at h hkeeps
    by_cases hb : out = .error .blocked
    · subst hb
      rw [run_stopped hf fun x hx => by cases hx]
      exact h
    · let g : Code Result := fun s => (out, s)
      have hg : Keeps F g := by
        intro s
        change F.holds out s s
        unfold Proc.Frame.holds
        split
        · exact absurd rfl hb
        · exact F.refl s
      have hrun := hkeeps g hg (fun _ => rfl) w'
      rw [run_congr (g := g) hf]
      refine hP ?_ h
      unfold Proc.Frame.holds at hrun
      split at hrun
      · exact .inr hrun
      · exact .inl hrun

theorem state_run {P : World → Prop} {f : Code Result} (hr : Answers F r)
    (hP : ∀ {w w'}, F.rel w w' ∨ F.left w w' → P w → P w') (h : P (f.run w).2) :
    P ((r.run f).run w).2 :=
  state_run_of hP (fun _ hg _ => keeps_run hF hr hg) h

omit hF in
theorem keeps_concludeQuiet (hr : Rejects F r) (hno : ∀ b, result ≠ .body b) :
    Keeps F (r.conclude result) := by
  refine .bind .get fun w => ?_
  split
  · exact .pure
  · exact .pure
  · exact keeps_ite (fun _ => .pure) fun _ => .raise
  · next e _ =>
    refine .tryExcept (keeps_respond fun w => hr w r e (.refl r)) fun x c hc => ?_
    cases x <;> cases hc
    exact .pure
  · next b _ => exact absurd rfl (hno b)
  · exact .raise

omit hF in
theorem messageHandler_yields {cantHandle : String → Code Exn} {f : Code α} {Q : α → Prop}
    (h : Proc.Yields f Q) : Proc.Yields (messageHandler m cantHandle f) Q := by
  refine h.tryExcept fun e c hc => ?_
  split at hc <;> cases hc
  · exact .bind (.any _) fun _ _ => .raise
  · split
    · exact .raise
    · exact .bind (.any _) fun _ _ => .raise
  · exact .bind (.any _) fun _ _ => .raise
  · exact .bind (.any _) fun _ _ => .raise

theorem keeps_runQuiet (hr : Rejects F r) {f : Code Result} (hf : Keeps F f)
    (hno : Proc.Yields f fun result => ∀ b, result ≠ .body b) : Keeps F (r.run f) := by
  refine .bind_yields ?_ ?_ fun result h => keeps_concludeQuiet hr h
  · refine (keeps_messageHandler hF (fun _ => keeps_cantHandle hF hr) hf).tryExcept fun e c h => ?_
    split at h
    · split at h <;> cases h
      exact .pure
    · cases h
  · refine (messageHandler_yields hno).tryExcept fun e c h => ?_
    split at h
    · split at h <;> cases h
      exact .pure fun _ he => by cases he
    · cases h

theorem keeps_runRaise (hr : Rejects F r) (e : Exn) : Keeps F (r.run (Proc.raise e)) :=
  keeps_runQuiet hF hr .raise .raise

theorem state_runQuiet {P : World → Prop} {f : Code Result} (hr : Rejects F r)
    (hno : Proc.Yields f fun result => ∀ b, result ≠ .body b)
    (hP : ∀ {w w'}, F.rel w w' ∨ F.left w w' → P w → P w') (h : P (f.run w).2) :
    P ((r.run f).run w).2 :=
  state_run_of hP (fun _ hg ho => keeps_runQuiet hF hr hg fun s a ha => hno w a (ho s ▸ ha)) h

theorem keeps_eventRun {e : Event} {f : Code Unit} (hf : Keeps F f) : Keeps F (e.run f) := by
  have herror (reason : String) : Keeps F (e.error false reason) :=
    .bind (keeps_newUid hF) fun _ => .pure
  refine (keeps_messageHandler hF herror hf).tryExcept fun e c h => ?_
  split at h
  · split at h <;> cases h
    exact .pure
  · cases h

-- ---------------------------------------------------------------------------
-- Sockets and the server
-- ---------------------------------------------------------------------------

theorem keeps_other {f : World → World} (h : ∀ w, (f w).core = w.core) : Keeps F (modify f : Code Unit) :=
  .modify fun w => hF.other (h w)

theorem keeps_modifyClient {f : Client → Client} (h : ∀ c, (f c).core = c.core) :
    Keeps F (modifyClient f) := by
  refine keeps_other hF fun w => ?_
  simp only [World.core, World.withClient, h]

theorem keeps_sendEvent (ht : event ≠ "terminated") (hi : event ≠ "initialized") :
    Keeps F (sendEvent event body) :=
  keeps_write fun w => hF.event w body ht hi

theorem keeps_reportSockets : Keeps F reportSockets :=
  .bind .get fun _ => .when (keeps_sendEvent hF (by decide) (by decide))

theorem keeps_serve : Keeps F serve := by
  refine .bind .get fun w => ?_
  split
  · exact .bind (keeps_other hF fun _ => rfl) fun _ => .bind (keeps_reportSockets hF) fun _ => .pure
  · exact .raise

theorem keeps_stopServing : Keeps F stopServing :=
  .bind (keeps_other hF fun _ => rfl) fun _ => keeps_reportSockets hF

theorem keeps_closeLauncherListener : Keeps F closeLauncherListener :=
  .bind (keeps_other hF fun _ => rfl) fun _ => keeps_reportSockets hF

theorem keeps_get {stream : String} (reply : Reply) : Keeps F (reply.get stream) := by
  cases reply with
  | success => exact .pure
  | failure => exact .bind (keeps_newUid hF) fun _ => keeps_propagateError hF
  | lost | broken => exact .raise

theorem keeps_askServer (h : asks command) : Keeps F (askServer command arguments reply) :=
  .bind .get fun _ => keeps_ite (fun _ => .raise) fun _ =>
    .bind (.modify fun w => hF.asked w arguments h) fun _ => keeps_get hF reply

theorem keeps_delegate (h : asks r.command) : Keeps F r.delegate := by
  refine .bind .get fun w => (keeps_askServer hF h).tryExcept fun e c hc => ?_
  split at hc <;> cases hc
  exact keeps_propagateError hF

theorem keeps_responseError : Keeps F (responseError reason) :=
  .bind (keeps_newUid hF) fun _ => .bind (keeps_newUid hF) fun _ => .pure

omit hF in
theorem keeps_parseCapabilities {isntValid : String → Code Exn}
    (hi : ∀ reason, Keeps F (isntValid reason)) (payload : Items) (properties : List (String × Validator)) :
    Keeps F (parseCapabilities isntValid payload properties) := by
  induction properties with
  | nil => exact .pure
  | cons property properties ih =>
    rw [parseCapabilities]
    split
    · exact .bind ih fun _ => .pure
    · exact .raise
    · exact .bind (hi _) fun _ => .raise

theorem keeps_authenticate (h : asks "pydevdAuthorize") : Keeps F authenticate := by
  refine .bind .get fun w => keeps_ite (fun _ => .pure) fun _ =>
    .bind (keeps_askServer hF h) fun auth => ?_
  split
  · split
    · exact keeps_ite (fun _ => .pure) fun _ => .raise
    · exact .bind (keeps_responseError hF) fun _ => .raise
  · exact .raise

theorem keeps_initializeServer (h : asks "pydevdAuthorize") (hr : asks r.command) :
    Keeps F (initializeServer r) := by
  refine .bind (keeps_authenticate hF h) fun _ => .bind .get fun w =>
    .bind (keeps_askServer hF hr) fun payload => ?_
  split
  · exact .bind (keeps_parseCapabilities (fun _ => keeps_responseError hF) _ _) fun _ => .pure
  · exact .raise

omit hF in
theorem keeps_attachToSession (ha : Attaches F) : Keeps F (attachToSession c) := by
  intro w
  rw [attachToSession, Proc.run_bind, Proc.run_get]
  dsimp only
  split
  · exact F.refl w
  · split
    · exact F.refl w
    · next h =>
      have hs : w.server = none := by
        simp only [Bool.or_eq_true, not_or] at h
        simpa using h.1
      exact ha w c hs

-- ---------------------------------------------------------------------------
-- Properties of a request
-- ---------------------------------------------------------------------------

omit hF in
theorem keeps_callPayload {isntValid : String → Code Exn}
    (hi : ∀ reason, Keeps F (isntValid reason)) {value : Json} :
    Keeps F (callPayload isntValid value key validate) := by
  unfold callPayload
  split
  · split
    · exact .pure
    · exact keeps_ite (fun _ => .bind (hi _) fun _ => .raise) fun _ => .raise
  · exact .raise

theorem keeps_call (hr : Rejects F r) : Keeps F (r.call key validate) :=
  keeps_callPayload fun _ => keeps_isntValid hF hr

theorem keeps_eventCall {e : Event} : Keeps F (e.call key validate) :=
  keeps_callPayload fun _ => .bind (keeps_newUid hF) fun _ => .pure

omit hF in
theorem keeps_setArgument : Keeps F (r.setArgument key value) := by
  unfold Request.setArgument
  split
  · exact .pure
  · exact .raise

omit hF in
theorem setArgument_like : Proc.Yields (r.setArgument key value) r.Like := by
  unfold Request.setArgument
  split
  · exact .pure ⟨rfl, rfl⟩
  · exact .raise

omit hF in
theorem keeps_capability : Keeps F (capability key) := by
  refine .bind .get fun w => ?_
  split
  · exact .pure
  · exact .raise

omit hF in
theorem keeps_forwardTerminate (hforward : AssignsForward F) : Keeps F (forwardTerminate onTerminate) :=
  keeps_ite (fun _ => .modify fun w => hforward w _) fun _ => .pure

-- ---------------------------------------------------------------------------
-- launch
-- ---------------------------------------------------------------------------

theorem keeps_propertyOrDebugOption {s : Start} {flag : String} (hr : Rejects F s.request) :
    Keeps F (propertyOrDebugOption s property flag) := by
  refine .bind (keeps_call hF hr) fun value => keeps_ite (fun _ => ?_) fun _ => .pure
  split
  · exact keeps_reject hF hr
  · exact .pure

theorem keeps_readPython (hr : Rejects F r) : Keeps F (readPython r) := by
  refine keeps_ite (fun _ => keeps_reject hF hr) fun _ => .bind (keeps_call hF hr) fun _ =>
    .bind (keeps_call hF hr) fun _ => .bind .get fun w =>
    .bind_yields keeps_setArgument setArgument_like fun r₁ h₁ =>
    .bind_yields keeps_setArgument setArgument_like fun r₂ h₂ => ?_
  exact .bind (keeps_call hF (hr.like (h₁.trans h₂))) fun _ => .pure

omit hF in
theorem readPython_like : Proc.Yields (readPython r) r.Like := by
  unfold readPython
  split
  · exact .bind (.any _) fun _ _ => .raise
  · refine .bind (.any _) fun _ _ => .bind (.any _) fun _ _ => .bind (.any _) fun _ _ =>
      .bind setArgument_like fun r₁ h₁ => .bind setArgument_like fun r₂ h₂ =>
      .bind (.any _) fun _ _ => .pure (h₁.trans h₂)

theorem keeps_readTarget (hr : Rejects F r) : Keeps F (readTarget r key validate name) :=
  keeps_ite (fun _ => .bind (keeps_call hF hr) fun _ => keeps_setArgument) fun _ => .pure

omit hF in
theorem readTarget_like : Proc.Yields (readTarget r key validate name) r.Like := by
  unfold readTarget
  split
  · exact .bind (.any _) fun _ _ => setArgument_like
  · exact .pure (.refl r)

theorem keeps_readTargets (hr : Rejects F r) : Keeps F (readTargets r) := by
  refine .bind_yields (keeps_readTarget hF hr) readTarget_like fun r₁ h₁ =>
    .bind_yields (keeps_readTarget hF (hr.like h₁)) readTarget_like fun r₂ h₂ =>
    .bind_yields (keeps_readTarget hF (hr.like (h₁.trans h₂))) readTarget_like fun r₃ h₃ => ?_
  have hr₃ : Rejects F r₃ := hr.like ((h₁.trans h₂).trans h₃)
  split
  · exact keeps_reject hF hr₃
  · exact .pure
  · exact keeps_reject hF hr₃

omit hF in
theorem readTargets_like : Proc.Yields (readTargets r) r.Like := by
  refine .bind readTarget_like fun r₁ h₁ => .bind readTarget_like fun r₂ h₂ =>
    .bind readTarget_like fun r₃ h₃ => ?_
  split
  · exact .bind (.any _) fun _ _ => .raise
  · exact .pure ((h₁.trans h₂).trans h₃)
  · exact .bind (.any _) fun _ _ => .raise

theorem keeps_readConsole (hr : Rejects F r) : Keeps F (readConsole r) := by
  refine .bind (keeps_call hF hr) fun _ => .bind (keeps_call hF hr) fun _ =>
    .bind (keeps_call hF hr) fun _ => keeps_ite (fun _ => .bind keeps_capability fun _ => ?_) fun _ => .pure
  exact keeps_ite (fun _ => keeps_reject hF hr) fun _ =>
    keeps_ite (fun _ => keeps_reject hF hr) fun _ => .pure

theorem keeps_serveLaunch (hr : Rejects F r) : Keeps F (serveLaunch r) := by
  refine Keeps.tryExcept (.bind (keeps_serve hF) fun _ => .pure) fun e c hc => ?_
  cases hc
  exact .bind .get fun _ => keeps_fail hF hr

theorem keeps_requireCapability : Keeps F (requireCapability key) :=
  .bind keeps_capability fun _ => keeps_ite (fun _ => .pure) fun _ =>
    .bind (keeps_newUid hF) fun _ => .raise

theorem keeps_spawnLauncher (hr : Rejects F r) : Keeps F (spawnLauncher r console) := by
  refine .bind .get fun w => keeps_ite (fun _ => ?_) fun _ => ?_
  · split
    · exact .pure
    · exact keeps_fail hF hr
  · exact .bind (keeps_requireCapability hF) fun _ => keeps_write fun w => hF.request w _ _

theorem keeps_attachSpawned (hr : Rejects F r) (ha : Attaches F) : Keeps F (attachSpawned r) := by
  refine .bind .get fun w => ?_
  split
  · exact keeps_attachToSession ha
  · exact keeps_fail hF hr

variable {s : Start}

omit hF in
theorem keeps_suspend (hs : Suspends F s.request) {stage : Suspended} (h : stage.starts = some s)
    (hsub : stage.subPid = none) : Keeps F (suspend stage : Code α) :=
  Proc.keeps_leave fun w => hs w stage s h hsub (.refl s.request)

theorem keeps_awaitConnection (hr : Rejects F s.request) (hs : Suspends F s.request)
    (ha : Attaches F) : Keeps F (awaitConnection s) :=
  .bind .get fun _ => keeps_ite (fun _ => keeps_fail hF hr) fun _ =>
    keeps_ite (fun _ => .pure) fun _ =>
    keeps_ite (fun _ => keeps_attachSpawned hF hr ha) fun _ => keeps_suspend hs rfl rfl

theorem keeps_startLauncher (hr : Rejects F s.request) (hs : Suspends F s.request)
    (ha : Attaches F) : Keeps F (startLauncher s) := by
  refine .bind .get fun w => keeps_ite (fun _ => keeps_fail hF hr) fun _ => .bind ?_ fun _ =>
    keeps_ite (fun _ => keeps_awaitConnection hF hr hs ha) fun _ => keeps_suspend hs rfl rfl
  refine (keeps_get hF _).tryExcept fun e c hc => ?_
  split at hc <;> cases hc
  exact keeps_propagateError hF

theorem keeps_spawnDebuggee (hr : Rejects F s.request) (hs : Suspends F s.request)
    (ha : Attaches F) : Keeps F (spawnDebuggee s console asSudo) := by
  refine .bind .get fun w => ?_
  split
  · exact keeps_fail hF hr
  · refine .bind (keeps_other hF fun _ => rfl) fun _ => .bind (keeps_reportSockets hF) fun _ =>
      .tryFinally (.bind (keeps_spawnLauncher hF hr) fun _ => .bind .get fun _ => ?_)
        (keeps_closeLauncherListener hF)
    exact keeps_ite (fun _ => keeps_startLauncher hF hr hs ha) fun _ => keeps_suspend hs rfl rfl

omit hF in
theorem Suspends.like (hs : Suspends F r) (hr : r.Like r') : Suspends F r' :=
  fun w stage s hst hsub hlike => hs w stage s hst hsub (hr.trans hlike)

theorem keeps_launchRequest (hr : Rejects F s.request) (hs : Suspends F s.request)
    (ha : Attaches F) (hforward : AssignsForward F) : Keeps F (launchRequest s) := by
  refine .bind .get fun w => keeps_ite (fun _ => keeps_fail hF hr) fun _ =>
    .bind_yields (keeps_readPython hF hr) readPython_like fun r₁ h₁ =>
    .bind_yields (keeps_readTargets hF (hr.like h₁)) readTargets_like fun r₂ h₂ => ?_
  have hr₂ : Rejects F r₂ := hr.like (h₁.trans h₂)
  refine .bind (keeps_readConsole hF hr₂) fun _ => .bind (keeps_call hF hr₂) fun _ =>
    .bind (keeps_propertyOrDebugOption hF hr₂) fun _ =>
    keeps_ite (fun _ => keeps_fail hF hr₂) fun _ => .bind (keeps_call hF hr₂) fun _ =>
    .bind (keeps_forwardTerminate hforward) fun _ => .bind (keeps_call hF hr₂) fun _ =>
    .bind (keeps_call hF hr₂) fun _ => .bind (keeps_serveLaunch hF hr₂) fun _ => .bind ?_ fun _ => .pure
  exact keeps_spawnDebuggee hF hr₂ (hs.like (h₁.trans h₂)) ha

omit hF in
theorem launchRequest_like : Proc.Yields (launchRequest s) fun s' => s.request.Like s'.request := by
  refine .bind (.any _) fun w _ => ?_
  split
  · exact .bind (.any _) fun _ _ => .raise
  · refine .bind readPython_like fun r₁ h₁ => .bind readTargets_like fun r₂ h₂ =>
      .bind (.any _) fun _ _ => .bind (.any _) fun _ _ => .bind (.any _) fun _ _ => ?_
    split
    · exact .bind (.any _) fun _ _ => .raise
    · refine .bind (.any _) fun _ _ => .bind (.any _) fun _ _ => .bind (.any _) fun _ _ =>
        .bind (.any _) fun _ _ => .bind (.any _) fun _ _ => .bind (.any _) fun _ _ => ?_
      exact .pure (h₁.trans h₂)

-- ---------------------------------------------------------------------------
-- attach
-- ---------------------------------------------------------------------------

theorem keeps_readAttach (hr : Rejects F r) (hforward : AssignsForward F) : Keeps F (readAttach r) :=
  .bind (keeps_call hF hr) fun _ => .bind (keeps_call hF hr) fun _ =>
    .bind (keeps_call hF hr) fun _ => .bind (keeps_call hF hr) fun _ =>
    .bind (keeps_call hF hr) fun _ => .bind (keeps_call hF hr) fun _ =>
    .bind (keeps_call hF hr) fun _ => .bind (keeps_forwardTerminate hforward) fun _ => .pure

theorem keeps_listenForServer {listen : Property} (hr : Rejects F r) : Keeps F (listenForServer r listen) := by
  refine .bind .get fun w => ?_
  split
  · have hcall {value : Json} {key : String} {validate : Validator} :
        Keeps F (callPayload r.isntValid value key validate) :=
      keeps_callPayload fun _ => keeps_isntValid hF hr
    exact keeps_ite (fun _ => keeps_reject hF hr) fun _ => .bind hcall fun _ =>
      .bind hcall fun _ => .bind (keeps_other hF fun _ => rfl) fun _ =>
      .bind (keeps_call hF hr) fun _ => .bind (keeps_modifyClient hF fun _ => rfl) fun _ =>
      keeps_serve hF
  · split
    · exact .pure
    · exact keeps_serve hF

theorem keeps_readPid (hr : Rejects F r) : Keeps F (readPid r pid) := by
  unfold readPid
  split
  · split
    · exact .pure
    · exact keeps_reject hF hr
  · exact .pure

theorem keeps_attachConnection (hr : Rejects F s.request) (ha : Attaches F) {c : Nat} :
    Keeps F (attachConnection s timeout subPid (some c)) := by
  refine (keeps_attachToSession ha).tryExcept fun e clause hc => ?_
  split at hc <;> cases hc
  exact .bind .get fun _ => .bind (keeps_cantHandle hF hr) fun _ => .pure

/-- `attach_request`, once the properties are read. -/
def attachRest (s : Start) (a : AttachArguments) : Code Start := do
  match a.conflict with
  | some text => raise (← s.request.isntValid text)
  | none => do
    let (host, port) ← listenForServer s.request a.listen
    match ← injectServer s a with
    | none => return s
    | some pid => do
      sendEvent "debugpyWaitingForServer" (.dict [("host", .str host), ("port", .int port)])
      let w ← get
      match w.findConnection pid with
      | some c => attachConnection s a.listen.isNone a.subPid (some c)
      | none =>
        if a.subPid.isSome then attachConnection s false a.subPid none
        else suspend (.attach s pid a.listen.isNone a.subPid)
      return s

omit hF in
theorem attachRequest_eq : attachRequest s = (do
    if (← get).noDebug then
      raise (← s.request.isntValid "\"noDebug\" is not supported for \"attach\"")
    else do
      let a ← readAttach s.request
      attachRest s a) := rfl

theorem keeps_attachRest {a : AttachArguments} (hr : Rejects F s.request)
    (hs : Suspends F s.request) (ha : Attaches F) (hinject : Keeps F (injectServer s a))
    (hgone : ∀ timeout subPid, Keeps F (attachConnection s timeout subPid none)) :
    Keeps F (attachRest s a) := by
  unfold attachRest
  split
  · exact keeps_reject hF hr
  · refine .bind (keeps_listenForServer hF hr) fun address => .bind hinject fun pid => ?_
    split
    · exact .pure
    · refine .bind (keeps_sendEvent hF (by decide) (by decide)) fun _ => .bind .get fun w => ?_
      split
      · exact .bind (keeps_attachConnection hF hr ha) fun _ => .pure
      · split
        · exact .bind (hgone _ _) fun _ => .pure
        · next hsub =>
          have hsub : a.subPid = none := by simpa using hsub
          exact .bind (keeps_suspend hs rfl hsub) fun _ => .pure

theorem keeps_attachRequest (hr : Rejects F s.request) (hforward : AssignsForward F)
    (hrest : ∀ a, Keeps F (attachRest s a)) : Keeps F (attachRequest s) := by
  rw [attachRequest_eq]
  exact .bind .get fun w => keeps_ite (fun _ => keeps_reject hF hr) fun _ =>
    .bind (keeps_readAttach hF hr hforward) hrest

omit hF in
theorem attachRequest_same : Proc.Yields (attachRequest s) (· = s) := by
  refine .bind (.any _) fun w _ => ?_
  split
  · exact .bind (.any _) fun _ _ => .raise
  · refine .bind (.any _) fun a _ => ?_
    split
    · exact .bind (.any _) fun _ _ => .raise
    · refine .bind (.any _) fun _ _ => .bind (.any _) fun _ _ => ?_
      split
      · exact .pure rfl
      · refine .bind (.any _) fun _ _ => .bind (.any _) fun _ _ => ?_
        split
        · exact .bind (.any _) fun _ _ => .pure rfl
        · split
          · exact .bind (.any _) fun _ _ => .pure rfl
          · exact .bind (.any _) fun _ _ => .pure rfl

-- ---------------------------------------------------------------------------
-- Other requests
-- ---------------------------------------------------------------------------

omit hF in
theorem keeps_ofExcept {x : Except Exn α} : Keeps F (ofExcept x) := by
  cases x with
  | ok => exact .pure
  | error => exact .raise

theorem keeps_reportSubprocess : Keeps F (reportSubprocess c items) := by
  refine .bind .get fun w => .bind (.modify fun w => hF.share w _) fun _ =>
    .bind keeps_ofExcept fun body => .bind keeps_capability fun _ =>
    keeps_ite (fun _ => ?_) fun _ => keeps_sendEvent hF (by decide) (by decide)
  exact .bind (keeps_write fun w => hF.request w _ _) fun _ => .bind (keeps_get hF _) fun _ => .pure

theorem keeps_noticeSubprocess : Keeps F (noticeSubprocess c) := by
  refine .bind .get fun w => ?_
  split
  · exact .pure
  · exact keeps_ite (fun _ => .pure) fun _ => .bind keeps_ofExcept fun _ =>
      keeps_ite (fun _ => .pure) fun _ => .bind (keeps_modifyClient hF fun _ => rfl) fun _ => .pure

theorem keeps_notifyOfSubprocess : Keeps F (notifyOfSubprocess c) := by
  refine .bind (keeps_noticeSubprocess hF) fun items => ?_
  split
  · exact .pure
  · exact keeps_reportSubprocess hF

theorem keeps_notifyAll (cs : List Nat) : Keeps F (notifyAll cs) := by
  induction cs with
  | nil => exact .pure
  | cons c cs ih =>
    exact .bind .get fun _ => .bind (.when (keeps_notifyOfSubprocess hF)) fun _ => ih

theorem keeps_genericRequest (h : asks r.command) : Keeps F (genericRequest r) :=
  .bind (keeps_delegate hF h) fun _ => .pure

theorem keeps_clientEvent {e : Event} (h : asks e.event) : Keeps F (clientEvent e) := by
  refine .bind .get fun w => keeps_ite (fun _ => .pure) fun _ => ?_
  split
  · exact .raise
  · exact .raise
  · exact .modify fun w => hF.asked w _ h

theorem keeps_evaluated (hr : Answers F r) : Keeps F (evaluated r reply) := by
  refine .bind .get fun w => .bind ?_ fun body => keeps_respond fun w => hr w r body (.refl r)
  cases reply with
  | success => exact .pure
  | failure => exact .bind (keeps_newUid hF) fun _ => .bind (keeps_newUid hF) fun _ => .pure
  | lost | broken => exact .pure

theorem keeps_evaluateRequest (hr : Answers F r) (h : asks r.command)
    (hev : ∀ w, F.rel w { w with evaluating := w.evaluating ++ [r] }) :
    Keeps F (evaluateRequest r) := by
  refine .bind .get fun w => keeps_ite (fun _ => .raise) fun _ => ?_
  split
  · exact .raise
  · exact .raise
  · refine .bind (.modify fun w => hF.asked w _ h) fun _ => ?_
    split
    · exact .bind (.modify hev) fun _ => .pure
    · refine .bind (Keeps.tryExcept (keeps_evaluated hF hr) fun e c hc => ?_) fun _ => .pure
      cases hc
      exact .exit

theorem keeps_pauseRequest (h : asks r.command) : Keeps F (pauseRequest r) :=
  .bind_yields keeps_setArgument setArgument_like fun _ hr =>
    .bind (keeps_delegate hF (hr.command ▸ h)) fun _ => .pure

theorem keeps_continueRequest (h : asks r.command) : Keeps F (continueRequest r) := by
  refine .bind_yields keeps_setArgument setArgument_like fun r' hr =>
    Keeps.tryExcept (.bind (keeps_delegate hF (hr.command ▸ h)) fun _ => .pure) fun e c hc => ?_
  split at hc <;> cases hc
  exact .pure

theorem keeps_systemInfoRequest (h : asks "pydevdSystemInfo") : Keeps F systemInfoRequest := by
  refine .bind .get fun w => keeps_ite (fun _ => .pure) fun _ => .bind ?_ fun info => ?_
  · refine Keeps.tryExcept (.map (keeps_askServer hF h)) fun e c hc => ?_
    cases hc
    exact .pure
  · split
    · exact .pure
    · exact .bind keeps_ofExcept fun _ => .pure

theorem keeps_initializeRequest (hr : Rejects F r)
    (hi : ∀ w f, (∀ c : Client, { f c with
        clientId := c.clientId, capabilities := c.capabilities, expectations := c.expectations,
        initializeRequest := c.initializeRequest } = c) → F.rel w (w.withClient f)) :
    Keeps F (initializeRequest r) := by
  have hp (properties : List (String × Validator)) :
      Keeps F (parseCapabilities r.isntValid r.items properties) :=
    keeps_parseCapabilities (fun _ => keeps_isntValid hF hr) _ _
  exact .bind .get fun _ => keeps_ite (fun _ => keeps_reject hF hr) fun _ =>
    .bind (keeps_call hF hr) fun _ => .bind (.modify fun w => hi w _ fun _ => rfl) fun _ =>
    .bind (hp _) fun _ => .bind (.modify fun w => hi w _ fun _ => rfl) fun _ =>
    .bind (hp _) fun _ => .bind (.modify fun w => hi w _ fun _ => rfl) fun _ =>
    .bind (.modify fun w => hi w _ fun _ => rfl) fun _ => .pure

-- ---------------------------------------------------------------------------
-- configurationDone
-- ---------------------------------------------------------------------------

omit hF in
theorem keeps_withStartRequest {f : Request → Code α}
    (h : ∀ w start, w.client.startRequest = some start →
      F.holds ((f start).run w).1 w ((f start).run w).2) : Keeps F (withStartRequest f) := by
  intro w
  rw [withStartRequest, Proc.run_bind, Proc.run_get]
  dsimp only
  split
  · next start hs => exact h w start hs
  · exact F.refl w

theorem keeps_failStart (hs : AnswersStart F) {e : Exn} : Keeps F (failStart e) := by
  refine keeps_withStartRequest fun w start hstart => ?_
  split
  · have hrespond (b : Except Exn Json) : F.holds ((start.respond b).run w.tick).1 w.tick
        ((start.respond b).run w.tick).2 := holds_respond (hs w.tick start b hstart)
    refine Frame.holds.bind ?_ fun _ => .pure
    exact .after (hF.other rfl : F.rel w w.tick) (.bind (hrespond _) fun _ => .pure)
  · exact F.refl w

omit hF in
theorem keeps_settleStart (hs : AnswersStart F) (hd : Keeps F propagateDeferredEvents) :
    Keeps F settleStart := by
  refine keeps_withStartRequest fun w start hstart => ?_
  rw [Proc.run_bind, Proc.run_get]
  dsimp only
  split
  · exact .bind (holds_respond (hs w start _ hstart)) fun _ => hd
  · exact F.refl w

theorem keeps_settleConfiguration (hr : Answers F r) (h : asks r.command)
    (hbegin : ∀ w, F.rel w (w.withClient Client.begin))
    (hlost : Keeps F (do
      r.respond (.ok (.dict []))
      withStartRequest fun start => start.respond (.ok (.dict []))
      finalize none (.responded r)
      return none : Code (Option Json)))
    (hfail : ∀ e, Keeps F (failStart e)) (hsettle : Keeps F settleStart) :
    Keeps F (settleConfiguration r) := by
  have hanswer : Keeps F (answerConfigurationDone r) := by
    refine .bind (.modify hbegin) fun _ =>
      .bind ((Keeps.map (keeps_delegate hF h)).tryExcept fun e c hc => ?_) fun result => ?_
    · split at hc <;> cases hc
      exact hlost
    · split
      · exact .pure
      · exact .bind (keeps_respond fun w => hr w r _ (.refl r)) fun _ => .pure
  refine .tryFinally (hanswer.tryExcept fun e c hc => ?_) hsettle
  split at hc <;> cases hc
  exact .bind (hfail _) fun _ => .pure

theorem keeps_configure (hsettle : Keeps F (settleConfiguration r)) :
    Keeps F (do
      if ← settleConfiguration r then return .none
      else do
        notifyAll (← get).connections
        return .none : Code Result) :=
  .bind hsettle fun _ => keeps_ite (fun _ => .pure) fun _ =>
    .bind .get fun w => .bind (keeps_notifyAll hF w.connections) fun _ => .pure

theorem keeps_configurationDone (hr : Answers F r) (hsettle : Keeps F (settleConfiguration r)) :
    Keeps F (configurationDoneRequest r) :=
  .bind .get fun _ => .bind (.when (.bind (keeps_cantHandle hF hr.rejects) fun _ => .pure))
    fun _ => keeps_configure hF hsettle

-- ---------------------------------------------------------------------------
-- Events
-- ---------------------------------------------------------------------------

theorem keeps_serverHandler {e : Event}
    (hp : e.event ≠ "initialized" → e.event ≠ "terminated" → Keeps F (propagateAfterStart e)) :
    Keeps F (Server.handler e) := by
  refine .bind .get fun w => ?_
  split
  · exact .pure
  · next h => exact keeps_ite (fun _ => .pure) fun _ => hp (by simp [h]) (by simp [h])
  · next h => exact keeps_ite (fun _ => .pure) fun _ => hp (by simp [h]) (by simp [h])
  · next h =>
    refine .bind (keeps_eventCall hF) fun _ => keeps_ite (fun _ => ?_) fun _ =>
      keeps_ite (fun _ => .pure) fun _ => hp (by simp [h]) (by simp [h])
    refine keeps_other hF fun w => ?_
    unfold World.replaceProcess
    split <;> rfl
  · exact .pure
  · next hi _ _ _ ht => exact hp hi ht

theorem keeps_launcherHandler_of {e : Event}
    (hp : e.event = "process" ∨ e.event = "output" → Keeps F (propagateAfterStart e))
    (hexited : e.event = "terminated" → ∀ body, Keeps F (do
      modify fun w => w.arrives { e with event := "exited", body }
      swallow (write (.forwarded "exited" body)))) : Keeps F (Launcher.handler e) := by
  have hlauncher {f : Launcher → Launcher} (h : ∀ l, (f l).isConnected = l.isConnected) :
      Keeps F (modify fun w : World => { w with launcher := w.launcher.map f } : Code Unit) := by
    refine keeps_other hF fun w => ?_
    cases hl : w.launcher <;> simp [World.core, hl, h]
  unfold Launcher.handler
  split
  · next h => exact .bind (keeps_eventCall hF) fun _ => .bind (hlauncher fun _ => rfl) fun _ => hp (.inl h)
  · next h => exact hp (.inr h)
  · exact .bind (keeps_eventCall hF) fun _ => hlauncher fun _ => rfl
  · next h => exact .bind .get fun w => hexited h _
  · exact .raise

theorem keeps_launcherHandler {e : Event}
    (hp : e.event = "process" ∨ e.event = "output" → Keeps F (propagateAfterStart e))
    (hexited : ∀ w body, F.rel w (w.arrives { e with event := "exited", body }))
    (hforwarded : ∀ w body, F.rel w (w.sent (.forwarded "exited" body))) :
    Keeps F (Launcher.handler e) := by
  refine keeps_launcherHandler_of hF hp fun _ body => .bind (.modify fun w => hexited w body) fun _ =>
    Keeps.tryExcept (keeps_write fun w => hforwarded w _) fun e c hc => ?_
  cases hc
  exact .pure

-- ---------------------------------------------------------------------------
-- Finalization
-- ---------------------------------------------------------------------------

omit hF in
theorem keeps_exitOnError {p : Code Unit} (h : Keeps F p) : Keeps F (exitOnError p) :=
  h.tryExcept fun _ _ hc => Option.some.inj hc ▸ .exit

theorem keeps_endFinalize (ht : ∀ w body, F.rel w (w.sent (.event "terminated" body))) :
    Keeps F endFinalize := by
  have hsend (body : Json) : Keeps F (swallow (sendEvent "terminated" body)) :=
    Keeps.tryExcept (keeps_write fun w => ht w body) fun _ _ hc => Option.some.inj hc ▸ .pure
  exact .bind .get fun w => .bind (.when (hsend _)) fun _ => .when (keeps_stopServing hF)

theorem keeps_finalize {after : After} {terminateDebuggee : Option Bool} (h : asks "disconnect")
    (hf : Finalizes F after) : Keeps F (finalize terminateDebuggee after) := by
  have hdetach (w : World) : w.detach.core = w.core := by
    unfold World.detach
    split
    · rfl
    · next s hs => simp [World.core, setConn, hs]
  have hbegin (b : Bool) : Keeps F (beginFinalize b) :=
    .bind .get fun w => .bind (.when (.modify fun w => hF.asked w _ h)) fun _ => keeps_other hF hdetach
  refine .bind .get fun w => keeps_ite (fun _ => .pure) fun _ => .bind (.modify hf.begins) fun _ =>
    .bind (keeps_exitOnError (hbegin _)) fun _ => keeps_ite (fun _ => ?_) fun _ => ?_
  · exact Proc.keeps_leave hf.waits
  · exact keeps_exitOnError (keeps_endFinalize hF hf.terminated)

theorem keeps_attachGone (h : asks "disconnect") (hr : Answers F s.request)
    (hf : Finalizes F (.start s)) : Keeps F (attachConnection s timeout subPid none) :=
  keeps_ite (fun _ => .bind (keeps_respond fun w => hr w _ _ (.refl _)) fun _ =>
    keeps_finalize hF h hf) fun _ => keeps_fail hF hr.rejects

theorem keeps_injectServer {a : AttachArguments} (h : asks "disconnect") (hr : Rejects F s.request)
    (hf : Finalizes F (.start s)) : Keeps F (injectServer s a) := by
  unfold injectServer
  split
  · exact .pure
  · refine .bind (keeps_readPid hF hr) fun pid => .bind (keeps_call hF hr) fun _ =>
      .bind .get fun w => ?_
    split
    · exact .pure
    · exact .bind (keeps_finalize hF h hf) fun _ => .pure

theorem keeps_terminateRequest (h : ∀ command, asks command) (hf : Finalizes F (.terminate r)) :
    Keeps F (terminateRequest r) :=
  .bind (keeps_modifyClient hF fun _ => rfl) fun _ => .bind .get fun _ =>
    keeps_ite (fun _ => .bind (keeps_delegate hF (h _)) fun _ => .pure) fun _ =>
    .bind (keeps_finalize hF (h _) hf) fun _ => .pure

theorem keeps_afterDisconnect (hr : Answers F r)
    (hclose : ∀ w, F.rel w { w with outlet := { left := some 0, loss := .closed } }) :
    Keeps F (afterDisconnect r) :=
  .bind (keeps_respond fun w => hr w r _ (.refl r)) fun _ => .bind .get fun _ =>
    .bind (.when (keeps_stopServing hF)) fun _ => .bind (.modify hclose) fun _ => .pure

theorem keeps_disconnectRequest (h : asks "disconnect") (hr : Answers F r)
    (hf : Finalizes F (.disconnect r))
    (hclose : ∀ w, F.rel w { w with outlet := { left := some 0, loss := .closed } }) :
    Keeps F (disconnectRequest r) :=
  .bind (keeps_modifyClient hF fun _ => rfl) fun _ => .bind (keeps_call hF hr.rejects) fun _ =>
    .bind (keeps_finalize hF h hf) fun _ => keeps_afterDisconnect hF hr hclose

-- ---------------------------------------------------------------------------
-- The ends of the start handlers
-- ---------------------------------------------------------------------------

omit hF in
theorem serverArguments_like (isLaunch : Bool) : s.request.Like (s.serverArguments isLaunch).2 := by
  unfold Start.serverArguments
  split
  · split
    · dsimp only
      split
      · exact .refl _
      · exact ⟨rfl, rfl⟩
    · exact .refl _
  · exact .refl _

theorem keeps_startServer (h : ∀ command, asks command)
    (hforget : ∀ w, F.rel w (w.withClient fun c => { c with initializeRequest := none }))
    (hlost : ∀ request, s.request.Like request → Keeps F (do
      request.respond (.ok (.dict []))
      finalize none (.responded request)
      pure none : Code (Option Request))) : Keeps F (startServer s) := by
  refine .bind .get fun w => ?_
  split
  · exact .raise
  · refine .bind (keeps_initializeServer hF (h _) (h _)) fun _ => .bind (.modify hforget) fun _ =>
      Keeps.tryExcept (.bind (keeps_askServer hF (h _)) fun _ => .pure) fun e c hc => ?_
    split at hc <;> cases hc
    · exact hlost _ (serverArguments_like _)
    · exact keeps_propagateError hF

omit hF in
theorem startServer_like : Proc.Yields (startServer s) fun o => ∀ request ∈ o, s.request.Like request := by
  refine .bind (.any _) fun w _ => ?_
  split
  · exact .raise
  · refine .bind (.any _) fun _ _ => .bind (.any _) fun _ _ =>
      Proc.Yields.tryExcept (.bind (.any _) fun _ _ => .pure ?_) fun e c hc => ?_
    · rintro request ⟨⟩
      exact serverArguments_like _
    · split at hc <;> cases hc
      · exact .bind (.any _) fun _ _ => .bind (.any _) fun _ _ => .pure nofun
      · exact .bind (.any _) fun _ _ => .raise

omit hF in
theorem keeps_completeStart
    (hstarted : Keeps F (do
      modifyClient fun c => { c with startRequest := some r, hasStarted := true }
      r.respond (.ok (.dict []))
      propagateDeferredEvents))
    (hinitialized : ∀ w body, F.rel w (w.sent (.event "initialized" body)))
    (hstart : ∀ w, F.rel w (w.withClient fun c => { c with startRequest := some r })) :
    Keeps F (completeStart r) := by
  refine .bind .get fun w => keeps_ite (fun _ => ?_) fun _ => ?_
  · have hsplit : (do
        modifyClient fun c => { c with startRequest := some r, hasStarted := true }
        r.respond (.ok (.dict []))
        propagateDeferredEvents
        return .none : Code Result) = (do
          modifyClient fun c => { c with startRequest := some r, hasStarted := true }
          r.respond (.ok (.dict []))
          propagateDeferredEvents : Code Unit) >>= fun _ => pure .none := by
      simp only [bind_assoc]
    rw [hsplit]
    exact .bind hstarted fun _ => .pure
  · exact .bind (keeps_write fun w => hinitialized w _) fun _ => .bind (.modify hstart) fun _ => .pure

omit hF in
theorem keeps_afterStart (hserver : Keeps F (startServer s))
    (hcomplete : ∀ request, s.request.Like request → Keeps F (completeStart request)) :
    Keeps F (afterStart s) := by
  refine .bind .get fun w => keeps_ite (fun _ => .pure) fun _ => keeps_ite (fun _ => ?_) fun _ => ?_
  · refine .bind_yields hserver startServer_like fun o ho => ?_
    split
    · exact .pure
    · next request => exact hcomplete request (ho request rfl)
  · exact hcomplete _ (.refl _)

theorem keeps_startMessageHandler {f : Start → Code Start} (hr : Rejects F r)
    (hlatest : ∀ w, F.rel w { w with latestStart := some r.id })
    (hnoDebug : ∀ w noDebug, F.rel w { w with noDebug })
    (hf : ∀ s, s.request = r → Keeps F (f s))
    (hlike : ∀ s, Proc.Yields (f s) fun s' => s.request.Like s'.request)
    (hafter : ∀ s, r.Like s.request → Keeps F (afterStart s)) : Keeps F (startMessageHandler f r) := by
  refine .bind .get fun w => keeps_ite (fun _ => keeps_reject hF hr) fun _ =>
    keeps_ite (fun _ => keeps_reject hF hr) fun _ => .bind (.modify hlatest) fun _ =>
    .bind (keeps_call hF hr) fun _ => .bind (.modify fun w => hnoDebug w _) fun _ =>
    .bind (keeps_call hF hr) fun options => ?_
  exact .bind_yields (hf _ rfl) (hlike _) hafter

theorem keeps_resume {stage : Suspended} (hr : ∀ r ∈ stage.request, Answers F r)
    (hs : ∀ r ∈ stage.request, Suspends F r) (ha : Attaches F)
    (hterminated : ∀ w body, F.rel w (w.sent (.event "terminated" body)))
    (hclose : ∀ w, F.rel w { w with outlet := { left := some 0, loss := .closed } })
    (hgone : ∀ s timeout subPid, stage.request = some s.request →
      Keeps F (attachConnection s timeout subPid none))
    (hafter : ∀ s, stage.request = some s.request → Keeps F (afterStart s)) :
    Keeps F (resume stage) := by
  have hend : Keeps F (exitOnError endFinalize) := keeps_exitOnError (keeps_endFinalize hF hterminated)
  have hclosed : Keeps F closeLauncherListener := keeps_closeLauncherListener hF
  cases stage with
  | launcher s =>
    have hr := hr _ rfl
    exact keeps_run hF hr (.bind (.tryFinally (keeps_startLauncher hF hr.rejects (hs _ rfl) ha) hclosed)
      fun _ => hafter s rfl)
  | process s =>
    have hr := hr _ rfl
    exact keeps_run hF hr (.bind (.tryFinally (keeps_awaitConnection hF hr.rejects (hs _ rfl) ha) hclosed)
      fun _ => hafter s rfl)
  | connection s =>
    have hr := hr _ rfl
    exact keeps_run hF hr (.bind (.tryFinally (keeps_attachSpawned hF hr.rejects ha) hclosed)
      fun _ => hafter s rfl)
  | attach s pid timeout subPid =>
    have hr := hr _ rfl
    refine keeps_run hF hr (.bind .get fun w => .bind ?_ fun _ => hafter s rfl)
    cases w.findConnection pid with
    | none => exact hgone s timeout subPid rfl
    | some c => exact keeps_attachConnection hF hr.rejects ha
  | finalize after =>
    cases after with
    | nothing => exact hend
    | disconnect r =>
      exact keeps_run hF (hr r rfl) (.bind hend fun _ => keeps_afterDisconnect hF (hr r rfl) hclose)
    | terminate r => exact keeps_run hF (hr r rfl) (.bind hend fun _ => .pure)
    | responded r => exact keeps_run hF (hr r rfl) (.bind hend fun _ => .pure)
    | start s => exact keeps_run hF (hr _ rfl) (.bind hend fun _ => hafter s rfl)

end

-- ---------------------------------------------------------------------------
-- All of the code
-- ---------------------------------------------------------------------------

/-- The frame allows what the handlers of start requests of this kind do, and
to write the deferred events. -/
structure Starts (F : Frame World) (K : Request → Prop) : Prop extends Ordinary F fun _ => True where
  like : ∀ {r r'}, K r → r.Like r' → K r'
  answers : ∀ r, K r → Answers F r
  suspends : ∀ r, K r → Suspends F r
  attach : Attaches F
  begins : ∀ w, F.rel w { w with isFinalizing := true }
  waits : ∀ w s, K s.request → F.left w { w with suspended := some (.finalize (.start s)) }
  responded : ∀ w r, K r → F.left w { w with suspended := some (.finalize (.responded r)) }
  terminated : ∀ w body, F.rel w (w.sent (.event "terminated" body))
  initialized : ∀ w body, F.rel w (w.sent (.event "initialized" body))
  forgets : ∀ w, F.rel w (w.withClient fun c => { c with initializeRequest := none })
  start : ∀ w r hasStarted, K r → (w.client.hasStarted = true → hasStarted = true) →
    F.rel w (w.withClient fun c => { c with startRequest := some r, hasStarted })
  flushes : Keeps F propagateDeferredEvents

section
variable {F : Frame World} {K : Request → Prop} {r : Request} {s : Start} (hF : Starts F K)
include hF

theorem Starts.respond (hr : K r) : Keeps F (r.respond b) :=
  keeps_respond fun w => hF.answers r hr w r b (.refl r)

theorem Starts.finalizes (hs : K s.request) : Finalizes F (.start s) :=
  ⟨hF.begins, hF.terminated, fun w => hF.waits w s hs⟩

theorem Starts.afterStart (hs : K s.request) : Keeps F (afterStart s) := by
  refine keeps_afterStart (keeps_startServer hF.toOrdinary (fun _ => trivial) hF.forgets
    fun request h => ?_) fun request h => ?_
  · have hk : K request := hF.like hs h
    exact .bind (hF.respond hk) fun _ => .bind (keeps_finalize hF.toOrdinary trivial
      ⟨hF.begins, hF.terminated, fun w => hF.responded w request hk⟩) fun _ => .pure
  · have hk : K request := hF.like hs h
    refine keeps_completeStart ?_ hF.initialized fun w => ?_
    · exact .bind (.modify fun w => hF.start w request true hk fun _ => rfl) fun _ =>
        .bind (hF.respond hk) fun _ => hF.flushes
    · exact hF.start w request w.client.hasStarted hk id

theorem Starts.attachGone (hs : K s.request) : Keeps F (attachConnection s timeout subPid none) :=
  keeps_attachGone hF.toOrdinary trivial (hF.answers _ hs) (hF.finalizes hs)

theorem Starts.attachRest (hs : K s.request) : Keeps F (attachRest s a) :=
  keeps_attachRest hF.toOrdinary (hF.answers _ hs).rejects (hF.suspends _ hs) hF.attach
    (keeps_injectServer hF.toOrdinary trivial (hF.answers _ hs).rejects (hF.finalizes hs))
    fun _ _ => hF.attachGone hs

theorem Starts.settleConfiguration (hr : Answers F r) (hstart : AnswersStart F)
    (hbegin : ∀ w, F.rel w (w.withClient Client.begin))
    (hwait : ∀ w, F.left w { w with suspended := some (.finalize (.responded r)) }) :
    Keeps F (settleConfiguration r) := by
  refine keeps_settleConfiguration hF.toOrdinary hr trivial hbegin ?_
    (fun _ => keeps_failStart hF.toOrdinary hstart) (keeps_settleStart hstart hF.flushes)
  refine .bind (keeps_respond fun w => hr w r _ (.refl r)) fun _ =>
    .bind (keeps_withStartRequest fun w start h => ?_) fun _ =>
    .bind (keeps_finalize hF.toOrdinary trivial ⟨hF.begins, hF.terminated, hwait⟩) fun _ => .pure
  exact holds_respond (hstart w start _ h)

end

/-- The frame allows everything that the code does, with requests of this
kind, but for what `"initialize"` assigns and for an event that arrives. -/
structure Serves (F : Frame World) (K : Request → Prop) : Prop extends Ordinary F fun _ => True where
  like : ∀ {r r'}, K r → r.Like r' → K r'
  answers : ∀ r, K r → Answers F r
  answersStart : AnswersStart F
  suspends : ∀ r, K r → Suspends F r
  attach : Attaches F
  begins : ∀ w, F.rel w { w with isFinalizing := true }
  waits : ∀ w after, (∀ r ∈ After.request after, K r) →
    F.left w { w with suspended := some (.finalize after) }
  terminated : ∀ w body, F.rel w (w.sent (.event "terminated" body))
  initialized : ∀ w body, F.rel w (w.sent (.event "initialized" body))
  forwarded : ∀ w event body, F.rel w (w.sent (.forwarded event body))
  defers : ∀ w events, F.rel w (w.withClient fun c => { c with deferredEvents := events })
  forgets : ∀ w, F.rel w (w.withClient fun c => { c with initializeRequest := none })
  start : ∀ w r hasStarted, K r → (w.client.hasStarted = true → hasStarted = true) →
    F.rel w (w.withClient fun c => { c with startRequest := some r, hasStarted })
  started : ∀ w, F.rel w (w.withClient Client.begin)
  latest : ∀ w r, K r → F.rel w { w with latestStart := some r.id }
  noDebug : ∀ w noDebug, F.rel w { w with noDebug }
  evaluates : ∀ w r, K r → F.rel w { w with evaluating := w.evaluating ++ [r] }
  closes : ∀ w, F.rel w { w with outlet := { left := some 0, loss := .closed } }
  loses : ∀ w writes loss, F.rel w (w.lose writes loss)
  disconnects : ∀ w, F.rel w (w.withClient fun c => { c with isConnected := false })
  launcher : ∀ w launcher, F.rel w { w with launcher }
  server : ∀ w server, server.isSome = true → F.rel w { w with server }

section
variable {F : Frame World} {K : Request → Prop} {r : Request} (hF : Serves F K)
include hF

theorem Serves.finalizes {after : After} (h : ∀ r ∈ after.request, K r) : Finalizes F after :=
  ⟨hF.begins, hF.terminated, fun w => hF.waits w after h⟩

theorem Serves.propagateDeferredEvents : Keeps F propagateDeferredEvents := by
  have hall (es : List Event) : Keeps F (forwardAll es) := by
    induction es with
    | nil => exact .pure
    | cons e es ih => exact .bind (keeps_write fun w => hF.forwarded w _ _) fun _ => ih
  refine .bind .get fun w => ?_
  split
  · exact .bind (hall _) fun _ => .modify fun w => hF.defers w none
  · exact .raise

theorem Serves.starts : Starts F K where
  toOrdinary := hF.toOrdinary
  like := hF.like
  answers := hF.answers
  suspends := hF.suspends
  attach := hF.attach
  begins := hF.begins
  waits w _ hs := hF.waits w _ fun _ hr => Option.some.inj hr ▸ hs
  responded w _ hr := hF.waits w _ fun _ hr' => Option.some.inj hr' ▸ hr
  terminated := hF.terminated
  initialized := hF.initialized
  forgets := hF.forgets
  start := hF.start
  flushes := hF.propagateDeferredEvents

theorem Serves.afterStart {s : Start} (hs : K s.request) : Keeps F (afterStart s) :=
  hF.starts.afterStart hs

theorem Serves.attachGone {s : Start} (hs : K s.request) :
    Keeps F (attachConnection s timeout subPid none) := hF.starts.attachGone hs

theorem Serves.attachRest {s : Start} (hs : K s.request) : Keeps F (attachRest s a) :=
  hF.starts.attachRest hs

theorem Serves.settleConfiguration (hr : K r) : Keeps F (settleConfiguration r) :=
  hF.starts.settleConfiguration (hF.answers r hr) hF.answersStart hF.started
    fun w => hF.starts.responded w r hr

theorem Serves.clientHandler (hr : K r) (hi : r.command ≠ "initialize")
    (hforward : IsStart r.command → AssignsForward F) : Keeps F (clientHandler r) := by
  have hanswers := hF.answers r hr
  have hstart {f : Start → Code Start} (hf : ∀ s, s.request = r → Keeps F (f s))
      (hlike : ∀ s, Proc.Yields (f s) fun s' => s.request.Like s'.request) :
      Keeps F (startMessageHandler f r) :=
    keeps_startMessageHandler hF.toOrdinary hanswers.rejects (fun w => hF.latest w r hr) hF.noDebug hf
      hlike fun s hs => hF.afterStart (hF.like hr hs)
  unfold Adapter.clientHandler
  split
  · next h => exact absurd h hi
  · next h =>
    refine hstart (fun s hs => ?_) fun s => launchRequest_like
    subst hs
    exact keeps_launchRequest hF.toOrdinary hanswers.rejects (hF.suspends _ hr) hF.attach
      (hforward (.inl h))
  · next h =>
    refine hstart (fun s hs => ?_) fun s w s' hs' => ?_
    · subst hs
      exact keeps_attachRequest hF.toOrdinary hanswers.rejects (hforward (.inr h)) fun a =>
        hF.attachRest hr
    · rw [attachRequest_same w s' hs']
      exact .refl _
  · exact keeps_configurationDone hF.toOrdinary hanswers (hF.settleConfiguration hr)
  · exact keeps_evaluateRequest hF.toOrdinary hanswers trivial fun w => hF.evaluates w r hr
  · exact keeps_pauseRequest hF.toOrdinary trivial
  · exact keeps_continueRequest hF.toOrdinary trivial
  · exact keeps_systemInfoRequest hF.toOrdinary trivial
  · exact keeps_terminateRequest hF.toOrdinary (fun _ => trivial)
      (hF.finalizes fun r' hr' => Option.some.inj hr' ▸ hr)
  · exact keeps_disconnectRequest hF.toOrdinary trivial hanswers
      (hF.finalizes fun r' hr' => Option.some.inj hr' ▸ hr) hF.closes
  · exact keeps_genericRequest hF.toOrdinary trivial

theorem Serves.resume {stage : Suspended} (h : ∀ r ∈ stage.request, K r) : Keeps F (resume stage) :=
  keeps_resume hF.toOrdinary (fun r hr => hF.answers r (h r hr)) (fun r hr => hF.suspends r (h r hr))
    hF.attach hF.terminated (hF.closes) (fun _ _ _ hs => hF.attachGone (h _ hs))
    fun _ hs => hF.afterStart (h _ hs)

theorem Serves.handleRequest (hr : K r) (hi : r.command ≠ "initialize")
    (hforward : IsStart r.command → AssignsForward F) : Keeps F (handleRequest r) :=
  keeps_ite (fun _ => .raise) fun _ =>
    keeps_run hF.toOrdinary (hF.answers r hr) (hF.clientHandler hr hi hforward)

theorem Serves.finalize {terminateDebuggee : Option Bool} :
    Keeps F (finalize terminateDebuggee .nothing) :=
  keeps_finalize hF.toOrdinary trivial (hF.finalizes fun _ h => by cases h)

theorem Serves.serverDisconnect : Keeps F Server.disconnect := by
  refine .bind .get fun w => ?_
  split
  · exact .pure
  · next server hserver =>
    refine .bind (keeps_other hF.toOrdinary fun _ => rfl) fun _ => keeps_ite (fun _ => ?_) fun _ => .pure
    exact .bind (.modify fun w => hF.server w _ rfl) fun _ => hF.finalize

theorem Serves.dispatch {w w' : World} {label : Label} {p : Code Unit}
    (hrequest : ∀ command arguments, label = .request command arguments →
      command ≠ "initialize" ∧ K (w.nextRequest command arguments) ∧
        (IsStart command → AssignsForward F))
    (hevaluating : ∀ r ∈ w.evaluating, Answers F r)
    (hsuspended : label = .resume → ∀ stage ∈ w.suspended, ∀ r ∈ stage.request, K r)
    (hserver : ∀ event body, label = .serverEvent event body →
      Keeps F (Server.handler (w.nextEvent event body)))
    (hlauncher : ∀ event body, label = .launcherEvent event body →
      Keeps F (Launcher.handler (w.nextEvent event body)))
    (h : dispatch w label = some (p, w')) : Keeps F p := by
  have hO := hF.toOrdinary
  cases label with
  | request command arguments =>
    obtain ⟨hi, hr, hforward⟩ := hrequest command arguments rfl
    simp only [Adapter.dispatch] at h
    split at h <;> cases h
    exact hF.handleRequest hr hi hforward
  | clientEvent event body =>
    simp only [Adapter.dispatch] at h
    split at h <;> cases h
    exact keeps_eventRun hO (keeps_clientEvent hO trivial)
  | clientDisconnect =>
    simp only [Adapter.dispatch] at h
    split at h <;> cases h
    exact .bind (.modify hF.disconnects) fun _ => hF.finalize
  | evaluated n reply =>
    obtain ⟨r, hr, heq⟩ := Option.map_eq_some_iff.mp h
    cases heq
    exact keeps_evaluated hO (hevaluating r (List.mem_of_getElem? hr))
  | serverEvent event body =>
    simp only [Adapter.dispatch] at h
    split at h <;> cases h
    exact keeps_eventRun hO (hserver event body rfl)
  | serverDisconnect =>
    simp only [Adapter.dispatch] at h
    split at h <;> cases h
    exact hF.serverDisconnect
  | launcherConnects =>
    simp only [Adapter.dispatch] at h
    split at h <;> cases h
    exact .modify fun w => hF.launcher w _
  | launcherEvent event body =>
    simp only [Adapter.dispatch] at h
    split at h <;> cases h
    exact keeps_eventRun hO (hlauncher event body rfl)
  | launcherDisconnect =>
    simp only [Adapter.dispatch] at h
    split at h <;> cases h
    exact .bind (.modify fun w => hF.launcher w _) fun _ => hF.finalize
  | resume =>
    obtain ⟨stage, hstage, hrun⟩ := Option.bind_eq_some_iff.mp h
    split at hrun <;> cases hrun
    exact hF.resume (hsuspended rfl stage hstage)
  | clientLost writes loss =>
    cases h
    exact .modify fun w => hF.loses w writes loss
  | register c pid ppid =>
    obtain ⟨w₁, -, heq⟩ := Option.map_eq_some_iff.mp h
    cases heq
    exact .pure
  | deregister c =>
    simp only [Adapter.dispatch] at h
    split at h <;> cases h
    exact keeps_other hO fun _ => rfl

def AssignsInitialize (F : Frame World) : Prop :=
  ∀ w f, (∀ c : Client, { f c with
    clientId := c.clientId, capabilities := c.capabilities, expectations := c.expectations,
    initializeRequest := c.initializeRequest } = c) → F.rel w (w.withClient f)

theorem Serves.anyRequest (hr : K r) (hforward : AssignsForward F) (hinit : AssignsInitialize F) :
    Keeps F (Adapter.handleRequest r) := by
  by_cases hi : r.command = "initialize"
  · refine keeps_ite (fun _ => .raise) fun _ => keeps_run hF.toOrdinary (hF.answers r hr) ?_
    have hhandler : Adapter.clientHandler r = initializeRequest r := by simp [Adapter.clientHandler, hi]
    rw [hhandler]
    exact keeps_initializeRequest hF.toOrdinary (hF.answers r hr).rejects hinit
  · exact hF.handleRequest hr hi fun _ => hforward

theorem Serves.anyDispatch {w w' : World} {label : Label} {p : Code Unit}
    (hforward : AssignsForward F) (hinit : AssignsInitialize F)
    (hrequest : ∀ command arguments, label = .request command arguments →
      K (w.nextRequest command arguments))
    (hevaluating : ∀ r ∈ w.evaluating, Answers F r)
    (hsuspended : label = .resume → ∀ stage ∈ w.suspended, ∀ r ∈ stage.request, K r)
    (hserver : ∀ event body, label = .serverEvent event body →
      Keeps F (Server.handler (w.nextEvent event body)))
    (hlauncher : ∀ event body, label = .launcherEvent event body →
      Keeps F (Launcher.handler (w.nextEvent event body)))
    (h : Adapter.dispatch w label = some (p, w')) : Keeps F p := by
  by_cases hi : ∃ arguments, label = .request "initialize" arguments
  · obtain ⟨arguments, rfl⟩ := hi
    have hr : K (w.nextRequest "initialize" arguments) := hrequest _ _ rfl
    simp only [Adapter.dispatch] at h
    split at h <;> cases h
    exact hF.anyRequest hr hforward hinit
  · refine hF.dispatch (fun command arguments hlabel => ⟨?_, hrequest _ _ hlabel, fun _ => hforward⟩)
      hevaluating hsuspended hserver hlauncher h
    rintro rfl
    exact hi ⟨arguments, hlabel⟩

end

/-- It allows such an event too. -/
structure Permits (F : Frame World) (K : Request → Prop) : Prop extends Serves F K where
  arrives : ∀ w e, F.rel w (w.arrives e)

section
variable {F : Frame World} {K : Request → Prop} (hF : Permits F K)
include hF

theorem Permits.propagateAfterStart {e : Event} : Keeps F (propagateAfterStart e) := by
  refine .bind (.modify fun w => hF.arrives w e) fun _ => .bind .get fun w => ?_
  split
  · next events hd => exact .modify fun w => hF.defers w _
  · exact keeps_write fun w => hF.forwarded w _ _

theorem Permits.launcherHandler {e : Event} : Keeps F (Launcher.handler e) :=
  keeps_launcherHandler hF.toOrdinary (fun _ => hF.propagateAfterStart) (fun w _ => hF.arrives w _)
    fun w _ => hF.forwarded w _ _

theorem Permits.serverHandler {e : Event} : Keeps F (Server.handler e) :=
  keeps_serverHandler hF.toOrdinary fun _ _ => hF.propagateAfterStart

theorem Permits.dispatch {w w' : World} {label : Label} {p : Code Unit}
    (hrequest : ∀ command arguments, label = .request command arguments →
      command ≠ "initialize" ∧ K (w.nextRequest command arguments) ∧
        (IsStart command → AssignsForward F))
    (hevaluating : ∀ r ∈ w.evaluating, Answers F r)
    (hsuspended : label = .resume → ∀ stage ∈ w.suspended, ∀ r ∈ stage.request, K r)
    (h : dispatch w label = some (p, w')) : Keeps F p :=
  hF.toServes.dispatch hrequest hevaluating hsuspended (fun _ _ _ => hF.serverHandler)
    (fun _ _ _ => hF.launcherHandler) h

theorem Permits.anyDispatch {w w' : World} {label : Label} {p : Code Unit}
    (hforward : AssignsForward F) (hinit : AssignsInitialize F)
    (hrequest : ∀ command arguments, label = .request command arguments →
      K (w.nextRequest command arguments))
    (hevaluating : ∀ r ∈ w.evaluating, Answers F r)
    (hsuspended : label = .resume → ∀ stage ∈ w.suspended, ∀ r ∈ stage.request, K r)
    (h : Adapter.dispatch w label = some (p, w')) : Keeps F p :=
  hF.toServes.anyDispatch hforward hinit hrequest hevaluating hsuspended
    (fun _ _ _ => hF.serverHandler) (fun _ _ _ => hF.launcherHandler) h

end

theorem lose_of_outlet {F : Frame World} (h : ∀ w outlet, F.rel w { w with outlet }) (w : World)
    (writes : Nat) (loss : Loss) : F.rel w (w.lose writes loss) := by
  unfold World.lose
  split
  · exact h w _
  · exact F.refl w

/-- It even allows the client's channel to become any other. -/
structure Allows (F : Frame World) (K : Request → Prop) : Prop extends Permits F K where
  outlet : ∀ w outlet, F.rel w { w with outlet }
  closes w := outlet w _
  loses w writes loss := lose_of_outlet outlet w writes loss

end Debugpy.Adapter
