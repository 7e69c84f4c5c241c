import Debugpy.Adapter.Frames

/-!
# The order of the requests that start a session

`"initialize"`, `"launch"` or `"attach"`, `"configurationDone"`: which of
them are in order in a state, and what comes of those that are not. The
handler of `"configurationDone"` responds to one that is out of order, and
then handles it; `"initialize"` is accepted again once `_initialize_request`
has been cleared. `Orderly` rules these two out, and a client that cannot be
told that its request is refused.
-/

namespace Debugpy.Lifecycle

open Adapter
open Proc (Keeps Frame Triple)

-- ---------------------------------------------------------------------------
-- The order
-- ---------------------------------------------------------------------------

def isInitialized : Sent → Bool
  | .response r (.ok _) => r.command == "initialize"
  | _ => false

def initializations (w : World) : Nat := w.toClient.countP isInitialized

structure InOrder (w : World) (command : String) : Prop where
  first : command = "initialize" → initializations w = 0
  start : command = "launch" ∨ command = "attach" →
    0 < initializations w ∧ w.launcher.isNone ∧ w.server.isNone
  configures : command = "configurationDone" → Awaiting w ∧ w.client.hasStarted = false

instance : Decidable (InOrder w command) :=
  decidable_of_iff (_ ∧ _ ∧ _) ⟨fun ⟨h₁, h₂, h₃⟩ => InOrder.mk h₁ h₂ h₃, fun ⟨h₁, h₂, h₃⟩ => ⟨h₁, h₂, h₃⟩⟩

structure Refused (r : Request) (w w' : World) : Prop where
  answered : ∃ e, w'.toClient = w.toClient ++ [.response r (.error e)]
  client : w'.client = w.client
  toServer : w'.toServer = w.toServer
  latestStart : w'.latestStart = w.latestStart
  exited : w'.exited = false

/-- A request that is out of order is refused. -/
def Lawful (w : World) (t : Turn) : Prop :=
  ∀ command arguments, t.label = .request command arguments → ¬ InOrder w command →
    ∀ w', step w t = some w' → Refused (w.nextRequest command arguments) w w'

/-- A `"configurationDone"` that the handler acts on. -/
def LabelConfigures (w : World) : Label → Prop
  | .request command _ =>
    command = "configurationDone" ∧ w.client.startRequest.isSome ∧ w.client.hasStarted = false
  | _ => False

instance : ∀ label, Decidable (LabelConfigures w label)
  | .request .. => inferInstanceAs (Decidable (_ ∧ _ ∧ _))
  | .clientEvent .. | .clientDisconnect | .evaluated .. | .serverEvent .. | .serverDisconnect
  | .launcherConnects | .launcherEvent .. | .launcherDisconnect | .resume | .clientLost ..
  | .register .. | .deregister _ => .isFalse id

def Configures (w : World) (t : Turn) : Prop := LabelConfigures w t.label

instance (w : World) : DecidablePred (Configures w) :=
  fun t => inferInstanceAs (Decidable (LabelConfigures w t.label))

/-- A request that is refused, or an `"initialize"`, can be responded to;
`"initialize"` is not sent again once `_initialize_request` is cleared; and
`"configurationDone"` is in order. -/
structure RequestOrderly (w : World) (command : String) : Prop where
  told : command = "initialize" ∨ ¬ InOrder w command → w.outlet.spent = false
  again : command = "initialize" → InOrder w command ∨ w.client.initializeRequest.isSome
  configures : command = "configurationDone" → InOrder w command

instance : Decidable (RequestOrderly w command) :=
  decidable_of_iff (_ ∧ _ ∧ _)
    ⟨fun ⟨h₁, h₂, h₃⟩ => RequestOrderly.mk h₁ h₂ h₃, fun ⟨h₁, h₂, h₃⟩ => ⟨h₁, h₂, h₃⟩⟩

def LabelOrderly (w : World) : Label → Prop
  | .request command _ => RequestOrderly w command
  | _ => True

instance : ∀ label, Decidable (LabelOrderly w label)
  | .request command _ => inferInstanceAs (Decidable (RequestOrderly w command))
  | .clientEvent .. | .clientDisconnect | .evaluated .. | .serverEvent .. | .serverDisconnect
  | .launcherConnects | .launcherEvent .. | .launcherDisconnect | .resume | .clientLost ..
  | .register .. | .deregister _ => .isTrue trivial

/-- The condition on the steps. -/
def Orderly (w : World) (t : Turn) : Prop := LabelOrderly w t.label

instance (w : World) (t : Turn) : Decidable (Orderly w t) :=
  inferInstanceAs (Decidable (LabelOrderly w t.label))

-- ---------------------------------------------------------------------------
-- What all other code keeps
-- ---------------------------------------------------------------------------

/-- A request before the n-th, and not an `"initialize"`. -/
def Other (n : Uid) (r : Request) : Prop := r.id < n ∧ r.command ≠ "initialize"

structure Kept (n k : Nat) (begun : Bool) (w : World) : Prop where
  received : w.received = n
  unanswered : ∀ id, n ≤ id → w.responses id = none
  initializations : initializations w = k
  accepted : w.client.initializeRequest.isSome → k = 1
  begun : begun = true → w.client.hasStarted = true
  start : ∀ r ∈ w.client.startRequest, Other n r
  evaluating : ∀ r ∈ w.evaluating, Other n r
  suspended : ∀ stage ∈ w.suspended, ∀ r ∈ stage.request, Other n r

section
variable {n k : Nat} {begun : Bool} {r r' : Request} {w w' : World}

theorem Other.like (h : Other n r) (hr : r.Like r') : Other n r' :=
  ⟨hr.id ▸ h.1, hr.command ▸ h.2⟩

theorem initializations_sent (h : isInitialized m = false) :
    initializations (w.sent m) = initializations w := by
  simp [initializations, List.countP_append, h]

theorem Kept.sent (hk : Kept n k begun w) (h : isInitialized m = false) :
    Kept n k begun (w.sent m) :=
  { hk with initializations := (initializations_sent h).trans hk.initializations }

theorem Kept.respond (hk : Kept n k begun w) (hr : Other n r) :
    Kept n k begun ((w.sent (.response r b)).respond r b) := by
  have hm : isInitialized (.response r b) = false := by
    cases b with
    | ok => simpa [isInitialized] using hr.2
    | error => rfl
  refine { hk.sent hm with unanswered := fun id hid => ?_ }
  have hne : id ≠ r.id := fun h => Nat.not_lt.mpr hid (h ▸ hr.1)
  simpa [Function.update_of_ne hne] using hk.unanswered id hid

theorem Kept.of_core (hk : Kept n k begun w) (h : w'.core = w.core) : Kept n k begun w' := by
  have hclient : w'.client.core = w.client.core := congrArg Core.client h
  have hinit : w'.client.core.initializeRequest = w.client.core.initializeRequest := by rw [hclient]
  have hstarted : w'.client.core.hasStarted = w.client.core.hasStarted := by rw [hclient]
  have hstart : w'.client.core.startRequest = w.client.core.startRequest := by rw [hclient]
  change w'.client.initializeRequest = w.client.initializeRequest at hinit
  change w'.client.hasStarted = w.client.hasStarted at hstarted
  change w'.client.startRequest = w.client.startRequest at hstart
  have hreceived : w'.received = w.received := congrArg Core.received h
  have hsent : w'.toClient = w.toClient := congrArg Core.toClient h
  have hresponses : w'.responses = w.responses := congrArg Core.responses h
  have hevaluating : w'.evaluating = w.evaluating := congrArg Core.evaluating h
  have hsuspended : w'.suspended = w.suspended := congrArg Core.suspended h
  refine ⟨hreceived.trans hk.received, fun id hid => ?_, ?_, fun h => ?_, fun h => ?_, ?_, ?_, ?_⟩
  · rw [hresponses]
    exact hk.unanswered id hid
  · rw [Lifecycle.initializations, hsent]
    exact hk.initializations
  · rw [hinit] at h
    exact hk.accepted h
  · rw [hstarted]
    exact hk.begun h
  · rw [hstart]
    exact hk.start
  · rw [hevaluating]
    exact hk.evaluating
  · rw [hsuspended]
    exact hk.suspended

theorem Kept.share (hk : Kept n k begun w) (connect : Property) :
    Kept n k begun (w.withClient (·.shareConnect connect)) := by
  obtain ⟨start, heq, hstart⟩ := shareConnect_start w.client connect
  rw [World.withClient, heq]
  refine { hk with start := fun r hr => ?_ }
  obtain ⟨r', hr', hlike⟩ := hstart r hr
  exact (hk.start r' hr').like hlike

theorem allows_kept (n k : Nat) (begun : Bool) : Allows (.preserving (Kept n k begun)) (Other n) where
  other h hk := hk.of_core h
  event w _ _ _ _ hk := hk.sent rfl
  request w _ _ hk := hk.sent rfl
  asked w _ _ _ hk := { hk with }
  attach w _ _ hk := { hk with }
  share w connect hk := hk.share connect
  like := Other.like
  answers r hr w r' b hlike _ hk := hk.respond (hr.like hlike)
  answersStart w start b hs _ hk := hk.respond (hk.start start hs)
  suspends r hr w stage s hs _ hlike hk := by
    refine { hk with suspended := fun stage' hs' r' hr' => ?_ }
    cases hs'
    have hreq : stage.request = some s.request := by
      cases stage <;> cases hs <;> rfl
    rw [hreq] at hr'
    cases hr'
    exact hr.like hlike
  begins w hk := { hk with }
  waits w after h hk := by
    refine { hk with suspended := fun stage hs r hr => ?_ }
    cases hs
    exact h r hr
  terminated w _ hk := hk.sent rfl
  initialized w _ hk := hk.sent rfl
  forwarded w _ _ hk := hk.sent rfl
  arrives w _ hk := { hk with }
  defers w _ hk := { hk with }
  forgets w hk := { hk with accepted := fun h => by cases h }
  start w r hasStarted hr h hk := by
    refine { hk with begun := fun hb => h (hk.begun hb), start := fun r' hr' => ?_ }
    cases hr'
    exact hr
  started w hk := { hk with begun := fun _ => rfl }
  latest w _ _ hk := { hk with }
  noDebug w _ hk := { hk with }
  evaluates w r hr hk := by
    refine { hk with evaluating := fun r' hr' => ?_ }
    rcases List.mem_append.mp hr' with hr' | hr'
    · exact hk.evaluating r' hr'
    · rw [List.mem_singleton.mp hr']
      exact hr
  outlet w _ hk := { hk with }
  disconnects w hk := { hk with }
  launcher w _ hk := { hk with }
  server w _ _ hk := { hk with }

-- ---------------------------------------------------------------------------
-- Requests out of order
-- ---------------------------------------------------------------------------

theorem refused_of_refuses {p : Code Unit} (hx : w.exited = false) (h : Refuses r p w.receive) :
    Refused r w (w.receive.runHandler p) := by
  obtain ⟨e, h⟩ := h
  unfold World.runHandler
  rw [h]
  exact ⟨⟨e, rfl⟩, rfl, rfl, rfl, hx⟩

theorem initialize_again (h : w.client.initializeRequest.isSome)
    (hr : w.responses r.id = none) (hs : w.outlet.spent = false) :
    Refuses r (r.run (initializeRequest r)) w := by
  have hinvalid : (initializeRequest r).run w =
      (do Proc.raise (← r.isntValid "Session is already initialized") : Code Result).run w := by
    rw [initializeRequest, Proc.run_bind, Proc.run_get]
    dsimp only
    rw [if_pos h]
  exact run_invalid hinvalid hr hs

theorem start_refused {f : Start → Code Start}
    (h : w.client.initializeRequest.isSome → w.launcher.isSome ∨ w.server.isSome)
    (hr : w.responses r.id = none) (hs : w.outlet.spent = false) :
    Refuses r (r.run (startMessageHandler f r)) w := by
  cases hi : w.client.initializeRequest with
  | none =>
    have hinvalid : (startMessageHandler f r).run w =
        (do Proc.raise (← r.isntValid "Session is not initialized yet") : Code Result).run w := by
      rw [startMessageHandler, Proc.run_bind, Proc.run_get]
      dsimp only
      rw [hi, if_pos Option.isNone_none]
    exact run_invalid hinvalid hr hs
  | some request =>
    have hstarted : (w.launcher.isSome || w.server.isSome) = true := by
      simpa using h (by rw [hi]; rfl)
    have hinvalid : (startMessageHandler f r).run w =
        (do Proc.raise (← r.isntValid "Session is already started") : Code Result).run w := by
      rw [startMessageHandler, Proc.run_bind, Proc.run_get]
      dsimp only
      rw [hi, if_neg (by simp), if_pos hstarted]
    exact run_invalid hinvalid hr hs

-- ---------------------------------------------------------------------------
-- The first successful "initialize"
-- ---------------------------------------------------------------------------

theorem callPayload_triple {P : World → Prop} {isntValid : String → Code Exn} (h : P w)
    (hi : ∀ reason, Keeps (.preserving P) (isntValid reason)) {payload : Json} :
    Triple (callPayload isntValid payload key validate) w (fun _ w' => w = w') fun _ w' => P w' := by
  unfold callPayload
  split
  · split
    · exact .pure rfl
    · split
      · exact .bind (Proc.triple_state.mpr (Proc.keeps_preserving.mp (hi _) w h)) fun _ _ hw => .raise hw
      · exact .raise h
  · exact .raise h

theorem parseCapabilities_triple {P : World → Prop} {isntValid : String → Code Exn} (h : P w)
    (hi : ∀ reason, Keeps (.preserving P) (isntValid reason)) (payload : Items)
    (properties : List (String × Validator)) :
    Triple (parseCapabilities isntValid payload properties) w (fun _ w' => w = w') fun _ w' => P w' := by
  induction properties with
  | nil => exact .pure rfl
  | cons property properties ih =>
    rw [parseCapabilities]
    split
    · exact .bind ih fun _ _ hw => .pure hw
    · exact .raise h
    · exact .bind (Proc.triple_state.mpr (Proc.keeps_preserving.mp (hi _) w h)) fun _ _ hw => .raise hw

theorem rejects_kept (hr : r.id < n) : Rejects (.preserving (Kept n k begun)) r := by
  intro w r' e hlike _ hk
  refine { hk.sent rfl with unanswered := fun id hid => ?_ }
  have hne : id ≠ r'.id := fun h => Nat.not_lt.mpr hid (h ▸ hlike.id ▸ hr)
  simpa [Function.update_of_ne hne] using hk.unanswered id hid

structure Open (r : Request) (w : World) : Prop where
  unanswered : w.responses r.id = none
  outlet : w.outlet.spent = false

theorem initializeRequest_triple (hk : Kept n 0 begun w) (ho : Open r w) (hr : r.id < n) :
    Triple (initializeRequest r) w
      (fun result w' => ∃ body w₁, result = .body body ∧ Kept n 0 begun w₁ ∧ Open r w₁ ∧
        w' = w₁.withClient fun c => { c with initializeRequest := some r })
      fun _ w' => Kept n 0 begun w' := by
  have hinvalid (reason : String) : Keeps (.preserving (Kept n 0 begun)) (r.isntValid reason) :=
    keeps_isntValid (allows_kept n 0 begun).toOrdinary (rejects_kept hr)
  refine .get_bind ?_
  split
  · exact .bind (Proc.triple_state.mpr (Proc.keeps_preserving.mp (hinvalid _) w hk)) fun _ _ h => .raise h
  · refine .bind (callPayload_triple hk hinvalid) fun clientId _ h => ?_
    subst h
    let w₁ := w.withClient fun c => { c with clientId := some clientId }
    have hk₁ : Kept n 0 begun w₁ := { hk with }
    refine .modify_bind (.bind (parseCapabilities_triple hk₁ hinvalid _ _) fun capabilities _ h => ?_)
    subst h
    let w₂ := w₁.withClient fun c => { c with capabilities := some capabilities }
    have hk₂ : Kept n 0 begun w₂ := { hk₁ with }
    refine .modify_bind (.bind (parseCapabilities_triple hk₂ hinvalid _ _) fun expectations _ h => ?_)
    subst h
    let w₃ := w₂.withClient fun c => { c with expectations := some expectations }
    have hk₃ : Kept n 0 begun w₃ := { hk₂ with }
    exact .of_ok rfl ⟨initializeBody, w₃, rfl, hk₃, { ho with }, rfl⟩

theorem initialize_kept (hk : Kept n 0 begun w) (ho : Open r w) (hr : r.id < n)
    (hc : r.command = "initialize") :
    ∃ k ≤ 1, Kept n k begun ((r.run (initializeRequest r)).run w).2 := by
  have hspec := initializeRequest_triple hk ho hr
  unfold Triple at hspec
  cases hrun : (initializeRequest r).run w with
  | mk out w' =>
    rw [hrun] at hspec
    cases out with
    | ok result =>
      obtain ⟨body, w₁, rfl, hk₁, ho₁, rfl⟩ := hspec
      refine ⟨1, Nat.le_refl 1, ?_⟩
      have hopen : (w₁.withClient fun c => { c with initializeRequest := some r }).responses r.id = none :=
        ho₁.unanswered
      rw [run_ok hrun, conclude_body hopen, tryRespond_ok hopen ho₁.outlet]
      have hone : isInitialized (.response r (.ok body)) = true := by simp [isInitialized, hc]
      refine ⟨hk₁.received, fun id hid => ?_, ?_, fun _ => rfl, hk₁.begun, hk₁.start, hk₁.evaluating,
        hk₁.suspended⟩
      · have hne : id ≠ r.id := fun h => Nat.not_lt.mpr hid (h ▸ hr)
        simpa [Function.update_of_ne hne] using hk₁.unanswered id hid
      · have hzero : w₁.toClient.countP isInitialized = 0 := hk₁.initializations
        simp [initializations, hone, hzero]
    | error stop =>
      refine ⟨0, Nat.zero_le 1, ?_⟩
      cases stop with
      | raised e =>
        have hraise : (r.run (initializeRequest r)).run w = (r.run (Proc.raise e)).run w' := run_congr hrun
        rw [hraise]
        exact Proc.keeps_preserving.mp (keeps_runRaise (allows_kept n 0 begun).toOrdinary (rejects_kept hr) e) w' hspec
      | exited | blocked =>
        rw [run_stopped hrun (by simp)]
        exact hspec

theorem Other.mono (h : Other n r) (hn : n ≤ n') : Other n' r := ⟨Nat.lt_of_lt_of_le h.1 hn, h.2⟩

theorem Kept.receive (hk : Kept n k begun w) : Kept (n + 1) k begun w.receive where
  received := congrArg (· + 1) hk.received
  unanswered id hid := hk.unanswered id (Nat.le_of_succ_le hid)
  initializations := hk.initializations
  accepted := hk.accepted
  begun := hk.begun
  start r hr := (hk.start r hr).mono (Nat.le_succ n)
  evaluating r hr := (hk.evaluating r hr).mono (Nat.le_succ n)
  suspended stage hs r hr := (hk.suspended stage hs r hr).mono (Nat.le_succ n)

theorem dispatch_kept {label : Label} {p : Code Unit} (hk : Kept n k begun w)
    (h : dispatch w label = some (p, w')) :
    Kept w'.received k begun w' ∧ n ≤ w'.received := by
  have hle : n ≤ w.received := Nat.le_of_eq hk.received.symm
  have hsame : Kept w.received k begun w := hk.received.symm ▸ hk
  have hreceive : Kept w.receive.received k begun w.receive ∧ n ≤ w.receive.received :=
    ⟨hsame.receive, Nat.le_succ_of_le hle⟩
  cases label with
  | request command arguments =>
    simp only [dispatch] at h
    split at h <;> cases h
    exact hreceive
  | clientEvent event body =>
    simp only [dispatch] at h
    split at h <;> cases h
    exact hreceive
  | serverEvent event body =>
    simp only [dispatch] at h
    split at h <;> cases h
    exact hreceive
  | launcherEvent event body =>
    simp only [dispatch] at h
    split at h <;> cases h
    exact hreceive
  | evaluated i reply =>
    obtain ⟨r, -, heq⟩ := Option.map_eq_some_iff.mp h
    cases heq
    exact ⟨{ hsame with evaluating := fun r hr => hsame.evaluating r (List.mem_of_mem_eraseIdx hr) }, hle⟩
  | resume =>
    obtain ⟨stage, -, hrun⟩ := Option.bind_eq_some_iff.mp h
    split at hrun <;> cases hrun
    exact ⟨{ hsame with suspended := fun _ h => by cases h }, hle⟩
  | register c pid ppid =>
    obtain ⟨w₁, hreg, heq⟩ := Option.map_eq_some_iff.mp h
    cases heq
    unfold World.register at hreg
    split at hreg <;> cases hreg
    exact ⟨{ hsame with }, hle⟩
  | clientLost writes loss =>
    cases h
    exact ⟨hsame, hle⟩
  | clientDisconnect | serverDisconnect | launcherConnects | launcherDisconnect | deregister c =>
    simp only [dispatch] at h
    split at h <;> cases h
    exact ⟨hsame, hle⟩

-- ---------------------------------------------------------------------------
-- Steps and runs
-- ---------------------------------------------------------------------------

theorem Kept.runHandler {p : Code Unit} (h : Kept n k begun (p.run w).2) :
    Kept n k begun (w.runHandler p) := by
  unfold World.runHandler
  split
  · next heq => simpa [heq] using h
  · next heq => simpa [heq] using h
  · next heq =>
    rw [heq] at h
    exact { h with }

theorem Kept.open (hk : Kept n k begun w) (hs : w.outlet.spent = false) (command : String)
    (arguments : Json) : Open (w.nextRequest command arguments) w.receive :=
  ⟨hk.unanswered _ (Nat.le_of_eq hk.received.symm), hs⟩

theorem initialize_step (hk : Kept n k begun w) (hone : k ≤ 1)
    (hok : initializations w = 0 ∨ w.client.initializeRequest.isSome) (hs : w.outlet.spent = false)
    (arguments : Json) : ∃ k' ≤ 1, Kept (n + 1) k' begun
      ((handleRequest (w.nextRequest "initialize" arguments)).run w.receive).2 := by
  have hreceive := hk.receive
  have ho := hk.open hs "initialize" arguments
  have hid : (w.nextRequest "initialize" arguments).id < n + 1 := by
    rw [← hk.received]
    exact Nat.lt_succ_self _
  cases hi : w.client.initializeRequest with
  | some request =>
    obtain ⟨e, hrun⟩ := initialize_again (w := w.receive) (r := w.nextRequest "initialize" arguments)
      (by simp [World.receive, hi]) ho.unanswered ho.outlet
    refine ⟨k, hone, ?_⟩
    change Kept _ _ _ (((w.nextRequest "initialize" arguments).run (initializeRequest _)).run _).2
    rw [hrun]
    exact rejects_kept hid w.receive.tick _ e (.refl _) ho.unanswered (hreceive.of_core rfl)
  | none =>
    have hzero : k = 0 := by
      rw [hi] at hok
      simpa [hk.initializations] using hok
    subst hzero
    exact initialize_kept hreceive ho hid rfl

theorem step_kept {t : Turn} (hk : Kept n k begun w) (hone : k ≤ 1) (hok : Orderly w t)
    (h : step w t = some w') : ∃ n' k', k' ≤ 1 ∧ Kept n' k' begun w' := by
  unfold step at h
  split at h
  · cases h
  obtain ⟨⟨p, w₁⟩, hd, rfl⟩ := Option.map_eq_some_iff.mp h
  have henv : Kept n k begun { w with env := t.env } := { hk with }
  by_cases hinit : ∃ arguments, t.label = .request "initialize" arguments
  · obtain ⟨arguments, hlabel⟩ := hinit
    rw [Orderly, hlabel] at hok
    rw [hlabel] at hd
    simp only [dispatch] at hd
    split at hd <;> cases hd
    have hfirst : initializations w = 0 ∨ w.client.initializeRequest.isSome :=
      (hok.again rfl).imp (fun h => h.first rfl) id
    obtain ⟨k', hk', hkept⟩ := initialize_step henv hone hfirst (hok.told (.inl rfl)) arguments
    exact ⟨n + 1, k', hk', hkept.runHandler⟩
  · obtain ⟨hkept, hle⟩ := dispatch_kept henv hd
    have hkeeps : Keeps (.preserving (Kept w₁.received k begun)) p := by
      refine (allows_kept w₁.received k begun).dispatch (fun command arguments hlabel => ?_)
        (fun r hr => (allows_kept w₁.received k begun).answers r ((henv.evaluating r hr).mono hle))
        (fun _ stage hs r hr => (henv.suspended stage hs r hr).mono hle) hd
      have hne : command ≠ "initialize" := fun h => hinit ⟨arguments, h ▸ hlabel⟩
      rw [hlabel] at hd
      simp only [dispatch] at hd
      split at hd <;> cases hd
      exact ⟨hne, ⟨Nat.lt_succ_self _, hne⟩, fun _ w forward hk => { hk with }⟩
    exact ⟨w₁.received, k, hone, (Proc.keeps_preserving.mp hkeeps w₁ hkept).runHandler⟩

theorem step_request {t : Turn} (hl : t.label = .request command arguments) (h : step w t = some w') :
    w.exited = false ∧
      w' = ({ w with env := t.env }.receive).runHandler (handleRequest (w.nextRequest command arguments)) := by
  unfold step at h
  split at h
  · cases h
  next hx =>
  obtain ⟨⟨p, w₁⟩, hd, rfl⟩ := Option.map_eq_some_iff.mp h
  rw [hl] at hd
  simp only [dispatch] at hd
  split at hd <;> cases hd
  exact ⟨by simpa using hx, rfl⟩

theorem step_lawful {t : Turn} (hk : Kept n k begun w) (hok : Orderly w t) : Lawful w t := by
  intro command arguments hl hout w' h
  obtain ⟨hx, rfl⟩ := step_request hl h
  let w₁ := { w with env := t.env }.receive
  let r := w.nextRequest command arguments
  have hnone : w₁.responses r.id = none := hk.unanswered _ (Nat.le_of_eq hk.received.symm)
  suffices hrun : Refuses r (handleRequest r) w₁ by
    have hrefused := refused_of_refuses (w := { w with env := t.env }) hx hrun
    exact ⟨hrefused.answered, hrefused.client, hrefused.toServer, hrefused.latestStart, hrefused.exited⟩
  have hstart {f : Start → Code Start} (hs : w.outlet.spent = false)
      (hout : ¬ (0 < initializations w ∧ w.launcher.isNone ∧ w.server.isNone)) :
      Refuses r (r.run (startMessageHandler f r)) w₁ := by
    refine start_refused (fun hi => ?_) hnone hs
    have hpos : 0 < initializations w := by
      rw [hk.initializations, hk.accepted hi]
      exact Nat.one_pos
    by_contra hno
    obtain ⟨hlauncher, hserver⟩ := not_or.mp hno
    exact hout ⟨hpos, by simpa [w₁, World.receive] using hlauncher,
      by simpa [w₁, World.receive] using hserver⟩
  rw [Orderly, hl] at hok
  have hspent : w.outlet.spent = false := hok.told (.inr hout)
  by_cases hi : command = "initialize"
  · subst hi
    exact initialize_again ((hok.again rfl).resolve_left hout) hnone hspent
  by_cases hs : command = "launch" ∨ command = "attach"
  · have hno : ¬ (0 < initializations w ∧ w.launcher.isNone ∧ w.server.isNone) := by
      refine fun h => hout ⟨fun h => absurd h hi, fun _ => h, fun h => ?_⟩
      rcases hs with rfl | rfl <;> exact absurd h (by decide)
    rcases hs with rfl | rfl
    · exact hstart hspent hno
    · exact hstart hspent hno
  by_cases hc : command = "configurationDone"
  · exact absurd (hok.configures hc) hout
  · exact absurd ⟨fun h => absurd h hi, fun h => absurd h hs, fun h => absurd h hc⟩ hout

/-- `has_started` is set first, so that the handler does the same where it is
set already. -/
theorem configurationDone_run (h : ¬ (w.client.startRequest.isNone || w.client.hasStarted) = true) :
    (configurationDoneRequest r).run w = (do
      if ← settleConfiguration r then return .none
      else do
        notifyAll (← get).connections
        return .none : Code Result).run (w.withClient Client.begin) := by
  have hsettle : (settleConfiguration r).run w = (settleConfiguration r).run (w.withClient Client.begin) :=
    rfl
  rw [configurationDoneRequest, Proc.run_bind, Proc.run_get]
  dsimp only
  rw [eq_false_of_ne_true h, Proc.run_bind]
  change Proc.run _ w = _
  rw [Proc.run_bind, hsettle, Proc.run_bind]

theorem configuration_begins {t : Turn} (hk : Kept n k begun w) (hc : Configures w t)
    (h : step w t = some w') : Kept (n + 1) k true w' := by
  cases hl : t.label with
  | request command arguments =>
    rw [Configures, hl] at hc
    obtain ⟨rfl, hstart, hstarted⟩ := hc
    obtain ⟨-, rfl⟩ := step_request hl h
    let w₁ := { w with env := t.env }.receive
    let r := w.nextRequest "configurationDone" arguments
    have hbegun : Kept (n + 1) k true (w₁.withClient Client.begin) :=
      { hk.receive with begun := fun _ => rfl }
    have hguard : ¬ (w₁.client.startRequest.isNone || w₁.client.hasStarted) = true := by
      obtain ⟨start, hstart⟩ := Option.isSome_iff_exists.mp hstart
      simp [w₁, World.receive, hstart, hstarted]
    have hr : Other (n + 1) r :=
      ⟨hk.received ▸ Nat.lt_succ_self _, (by decide : "configurationDone" ≠ "initialize")⟩
    have hF := allows_kept (n + 1) k true
    have hkeeps := keeps_run hF.toOrdinary (hF.answers r hr)
      (keeps_configure hF.toOrdinary (hF.settleConfiguration hr))
    refine Kept.runHandler ?_
    change Kept _ _ _ ((r.run (configurationDoneRequest r)).run w₁).2
    rw [run_congr (configurationDone_run hguard)]
    exact Proc.keeps_preserving.mp hkeeps _ hbegun
  | _ =>
    rw [Configures, hl] at hc
    exact hc.elim

theorem not_begun {t : Turn} (hc : Configures w t) : w.client.hasStarted ≠ true := by
  cases hl : t.label with
  | request =>
    rw [Configures, hl] at hc
    simp [hc.2.2]
  | _ =>
    rw [Configures, hl] at hc
    exact hc.elim

theorem kept_fresh (h : w.Fresh) : Kept w.received 0 false w where
  received := rfl
  unanswered := by simp [h.responses]
  initializations := by
    rw [initializations, List.countP_eq_zero]
    intro m hm
    obtain ⟨event, body, rfl, -⟩ := h.sent m hm
    exact Bool.false_ne_true
  accepted hi := by
    rw [h.client] at hi
    cases hi
  begun := by simp
  start r hr := by
    rw [h.client] at hr
    cases hr
  evaluating := by simp [h.evaluating]
  suspended := by simp [h.suspended]

end

/-- In a run that is orderly every request that is out of order is refused,
`"initialize"` is answered successfully at most once, and at most one
`"configurationDone"` is acted on. -/
theorem refused_of_orderly (w₀ w : World) (ts : List Turn) (h₀ : w₀.Fresh)
    (h : Run.exec step w₀ ts = some w) (hok : Run.Meets step Orderly w₀ ts) :
    Run.Meets step Lawful w₀ ts ∧ initializations w ≤ 1 ∧ Run.count step Configures w₀ ts ≤ 1 := by
  let I (begun : Bool) (w : World) : Prop := ∃ n k, k ≤ 1 ∧ Kept n k begun w
  have keep {begun : Bool} : ∀ {w t w'}, I begun w → Orderly w t → step w t = some w' → I begun w' := by
    rintro w t w' ⟨n, k, hone, hk⟩ hok h
    exact step_kept hk hone hok h
  have hI : I false w₀ := ⟨_, 0, Nat.zero_le 1, kept_fresh h₀⟩
  have hnot : ∀ w t, Configures w t → ¬ I true w := by
    rintro w t hc ⟨n, k, -, hk⟩
    exact absurd (hk.begun rfl) (not_begun hc)
  have hbegins : ∀ {w t w'}, I false w → Orderly w t → Configures w t → step w t = some w' → I true w' := by
    rintro w t w' ⟨n, k, hone, hk⟩ - hc h
    exact ⟨n + 1, k, hone, configuration_begins hk hc h⟩
  refine ⟨hok.of_invariant keep ?_ hI, ?_, Run.count_le_one keep hnot keep hbegins hI hok⟩
  · rintro w t ⟨n, k, -, hk⟩ hok
    exact step_lawful hk hok
  · obtain ⟨n, k, hone, hk⟩ := Run.exec_invariant keep hI hok h
    rw [hk.initializations]
    exact hone

/-- `"attach"` comes too early, and `"initialize"` twice. -/
def orderly : List Turn :=
  [{ label := .register 0 1 none },
    { label := .request "attach" (.dict []) },
    { label := .request "initialize" (.dict []) },
    { label := .request "initialize" (.dict []) },
    { label := .request "attach" (.dict []) },
    { label := .request "launch" (.dict []) },
    { label := .request "configurationDone" (.dict []) }]

theorem refused_orderlyRun : ∃ w, Run.exec step {} orderly = some w ∧
    Run.Meets step Orderly {} orderly ∧ Run.Meets step Lawful {} orderly ∧ initializations w = 1 ∧
      Run.count step Configures {} orderly = 1 := by
  have hrun : (Run.exec step {} orderly).map initializations = some 1 := by decide +kernel
  have hok : Run.Meets step Orderly {} orderly := by decide +kernel
  have hcount : Run.count step Configures {} orderly = 1 := by decide +kernel
  obtain ⟨w, hw, hone⟩ := Option.map_eq_some_iff.mp hrun
  exact ⟨w, hw, hok, (refused_of_orderly {} w orderly fresh_default hw hok).1, hone, hcount⟩

/-- `"configurationDone"` without a start request ends the process. -/
def unstarted : List Turn :=
  [{ label := .request "initialize" (.dict []) },
    { label := .request "configurationDone" (.dict []) }]

/-- `"initialize"` is accepted again once the session has started. -/
def reinitialized : List Turn :=
  [{ label := .register 0 1 none },
    { label := .request "initialize" (.dict []) },
    { label := .request "attach" (.dict []) },
    { label := .request "initialize" (.dict []) }]

theorem unstarted_exits : ∃ w, Run.exec step {} unstarted = some w ∧ w.exited = true ∧
    ¬ Run.Meets step Lawful {} unstarted := by
  have hrun : (Run.exec step {} unstarted).map (·.exited) = some true := by decide +kernel
  have hfirst : (step {} { label := .request "initialize" (.dict []) }).map
      (fun w => decide (InOrder w "configurationDone")) = some false := by decide +kernel
  obtain ⟨w, hw, hx⟩ := Option.map_eq_some_iff.mp hrun
  refine ⟨w, hw, hx, fun hlawful => ?_⟩
  obtain ⟨w₁, h₁, hrest⟩ := Run.exec_cons.mp hw
  obtain ⟨w₂, h₂, hnil⟩ := Run.exec_cons.mp hrest
  cases hnil
  have hout : ¬ InOrder w₁ "configurationDone" := by
    rw [h₁] at hfirst
    simpa using hfirst
  have hrefused := (hlawful.2 w₁ h₁).1 "configurationDone" (.dict []) rfl hout w h₂
  exact absurd hx (by simp [hrefused.exited])

theorem not_refused : (¬ ∀ (w₀ w : World) (ts : List Turn), w₀.Fresh →
      Run.exec step w₀ ts = some w →
      Run.Meets step Lawful w₀ ts ∧ initializations w ≤ 1 ∧ Run.count step Configures w₀ ts ≤ 1) ∧
    ∃ w, Run.exec step {} reinitialized = some w ∧ initializations w = 2 := by
  constructor
  · intro h
    obtain ⟨w, hw, -, hno⟩ := unstarted_exits
    exact hno (h {} w unstarted fresh_default hw).1
  · exact Option.map_eq_some_iff.mp (by decide +kernel)

end Debugpy.Lifecycle
