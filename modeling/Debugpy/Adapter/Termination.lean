import Debugpy.Adapter.Frames

/-!
# The end of a session is announced once, and last

What the client is told when a session is finalized, over the runs of the
session. `"terminated"` is sent at most once in every run. That no
`"initialized"` follows it, and no start request is left to wait for a
`"configurationDone"`, needs the start handlers not to run on in a session
that is being finalized, and the session not to be finalized while a start
request is pending; `Timely` is this condition on the steps.
-/

namespace Debugpy.Termination

open Adapter
open Proc (Keeps Frame Triple tryExcept)

-- ---------------------------------------------------------------------------
-- What the client is told
-- ---------------------------------------------------------------------------

def isNamed (name : String) : Sent → Bool
  | .event event _ | .forwarded event _ => event == name
  | _ => false

def terminations (w : World) : Nat := w.toClient.countP (isNamed "terminated")

/-- No `"initialized"` follows a `"terminated"`. -/
def Last (w : World) : Prop :=
  w.toClient.Pairwise fun m m' => isNamed "terminated" m = true → isNamed "initialized" m' = false

structure Announced (w : World) : Prop where
  once : terminations w ≤ 1
  last : Last w
  settled : 0 < terminations w → ¬ Awaiting w

-- ---------------------------------------------------------------------------
-- Calm steps
-- ---------------------------------------------------------------------------

def IsPlain (event : String) : Prop := event ≠ "terminated" ∧ event ≠ "initialized"

def Named (w : World) : Prop := ∀ es ∈ w.client.deferredEvents, ∀ e ∈ es, IsPlain e.event

def Plain (m : Sent) : Prop := isNamed "terminated" m = false ∧ isNamed "initialized" m = false

/-- Neither event is sent, nothing is finalized, and the start request is the
same. -/
structure Calm (w w' : World) : Prop where
  named : Named w'
  sent : ∃ ms, w'.toClient = w.toClient ++ ms ∧ ∀ m ∈ ms, Plain m
  isFinalizing : w'.isFinalizing = w.isFinalizing
  suspended : w'.suspended = w.suspended
  start : w'.client.startRequest.map (·.id) = w.client.startRequest.map (·.id)
  responses : ∀ id, (w.responses id).isSome → (w'.responses id).isSome
  isConnected : w'.client.isConnected = w.client.isConnected
  launcher : w'.launcherConnected = w.launcherConnected
  server : w.server.isSome → w'.server.isSome
  spent : w.outlet.spent = true → w'.outlet.spent = true
  noDebug : w'.noDebug = w.noDebug
  env : w'.env = w.env

theorem Calm.refl (h : Named w) : Calm w w :=
  ⟨h, ⟨[], by simp⟩, rfl, rfl, rfl, fun _ => id, rfl, rfl, id, id, rfl, rfl⟩

theorem Calm.trans (h : Calm w w') (h' : Calm w' w'') : Calm w w'' := by
  obtain ⟨ms, hm, hp⟩ := h.sent
  obtain ⟨ms', hm', hp'⟩ := h'.sent
  refine ⟨h'.named, ⟨ms ++ ms', by rw [hm', hm, List.append_assoc], ?_⟩,
    h'.isFinalizing.trans h.isFinalizing, h'.suspended.trans h.suspended, h'.start.trans h.start,
    fun id hid => h'.responses id (h.responses id hid), h'.isConnected.trans h.isConnected,
    h'.launcher.trans h.launcher, fun hs => h'.server (h.server hs), fun hs => h'.spent (h.spent hs),
    h'.noDebug.trans h.noDebug, h'.env.trans h.env⟩
  intro m hmem
  rcases List.mem_append.mp hmem with hmem | hmem
  · exact hp m hmem
  · exact hp' m hmem

def Waits (r : Request) (w w' : World) : Prop :=
  ∃ w₁ stage s, Calm w w₁ ∧ stage.starts = some s ∧ r.Like s.request ∧
    w' = { w₁ with suspended := some stage }

def calm : Frame World where
  rel w w' := Named w → Calm w w'
  refl _ := Calm.refl
  trans h h' hn := (h hn).trans (h' (h hn).named)
  left _ _ := False
  left_trans _ h' := h'

def starting (r : Request) : Frame World where
  rel := calm.rel
  refl := calm.refl
  trans := calm.trans
  left w w' := Named w → Waits r w w'
  left_trans h h' hn := by
    obtain ⟨w₁, stage, s, hcalm, hs⟩ := h' (h hn).named
    exact ⟨w₁, stage, s, (h hn).trans hcalm, hs⟩

theorem calm_of_core (h : w'.core = w.core) (hn : Named w) : Calm w w' := by
  have hclient : w'.client.core = w.client.core := congrArg Core.client h
  have hd := congrArg Client.deferredEvents hclient
  have hstart := congrArg Client.startRequest hclient
  have hconnected := congrArg Client.isConnected hclient
  have hsent : w'.toClient = w.toClient := congrArg Core.toClient h
  have hresponses : w'.responses = w.responses := congrArg Core.responses h
  have hlauncher : w'.launcher.map (·.isConnected) = w.launcher.map (·.isConnected) :=
    congrArg Core.launcher h
  have hserver : w'.server.isSome = w.server.isSome := congrArg Core.server h
  have houtlet : w'.outlet = w.outlet := congrArg Core.outlet h
  refine ⟨fun es he => hn es (hd ▸ he), ⟨[], by simpa using hsent, by simp⟩,
    congrArg Core.isFinalizing h, congrArg Core.suspended h, congrArg (Option.map (·.id)) hstart,
    fun id hid => by rwa [hresponses], hconnected, ?_, fun hs => by rwa [hserver],
    fun hs => by rwa [houtlet], congrArg Core.noDebug h, congrArg Core.env h⟩
  have hany (l : Option Launcher) : l.any (·.isConnected) = (l.map (·.isConnected)).any id := by
    cases l <;> rfl
  rw [World.launcherConnected, World.launcherConnected, hany, hany, hlauncher]

theorem calm_sent (hm : Plain m) (hn : Named w) : Calm w (w.sent m) :=
  { Calm.refl hn with
    sent := ⟨[m], rfl, by simpa using hm⟩
    spent := Outlet.spent_after 1 }

theorem calm_respond (hn : Named w) (r : Request) (b : Except Exn Json) : Calm w (w.respond r b) := by
  refine { Calm.refl hn with responses := fun id hid => ?_ }
  by_cases hr : id = r.id
  · simp [hr]
  · simpa [Function.update_of_ne hr] using hid

theorem calm_withClient {f : Client → Client} (hn : Named w)
    (hd : (f w.client).deferredEvents = w.client.deferredEvents)
    (hs : (f w.client).startRequest.map (·.id) = w.client.startRequest.map (·.id))
    (hc : (f w.client).isConnected = w.client.isConnected) : Calm w (w.withClient f) :=
  { Calm.refl hn with
    named := fun es he => hn es (by rwa [← hd])
    start := hs
    isConnected := hc }

section
variable {F : Frame World} (hF : ∀ {w w'}, (Named w → Calm w w') → F.rel w w')
include hF

theorem ordinary_of_calm : Ordinary F fun _ => True where
  other h := hF (calm_of_core h)
  event w event body ht hi := hF (calm_sent (by simp [Plain, isNamed, ht, hi]))
  request w _ _ := hF (calm_sent ⟨rfl, rfl⟩)
  asked w _ _ _ := hF fun hn => { Calm.refl hn with }
  share w connect := hF fun hn => by
    obtain ⟨hd, hs, hc⟩ := shareConnect_keeps w.client connect
    exact calm_withClient hn hd hs hc

theorem attaches_of_calm : Attaches F :=
  fun _ _ _ => hF fun hn => { Calm.refl hn with server := fun _ => rfl }

theorem answers_of_calm (r : Request) : Answers F r := by
  refine fun w r' b _ _ => hF fun hn => ?_
  have hsent : Calm w (w.sent (.response r' b)) := calm_sent ⟨rfl, rfl⟩ hn
  exact hsent.trans (calm_respond hsent.named r' b)

end

theorem assignsForward_of_calm (hF : ∀ {w w'}, (Named w → Calm w w') → F.rel w w') :
    AssignsForward F := fun _ _ => hF fun hn => { Calm.refl hn with }

theorem ordinary_calm : Ordinary calm fun _ => True := ordinary_of_calm id
theorem answers_calm (r : Request) : Answers calm r := answers_of_calm id r
theorem ordinary_starting (r : Request) : Ordinary (starting r) fun _ => True := ordinary_of_calm id
theorem answers_starting (r r' : Request) : Answers (starting r) r' := answers_of_calm id r'

theorem suspends_starting (r : Request) : Suspends (starting r) r :=
  fun w stage s hs _ hr hn => ⟨w, stage, s, .refl hn, hs, hr, rfl⟩

-- ---------------------------------------------------------------------------
-- The invariants
-- ---------------------------------------------------------------------------

structure Once (w : World) : Prop where
  named : Named w
  fresh : w.isFinalizing = false → terminations w = 0
  once : terminations w ≤ 1
  waiting : ∀ after, w.suspended = some (.finalize after) →
    w.isFinalizing = true ∧ terminations w = 0

/-- No start request is left, or the client cannot be told anything more. -/
def Quiet (w : World) : Prop := Awaiting w → w.outlet.spent = true

structure Settled (w : World) : Prop where
  last : Last w
  settled : 0 < terminations w → ¬ Awaiting w
  started : Awaiting w → w.server.isSome ∨ w.outlet.spent = true
  starting : ∀ stage s, w.suspended = some stage → stage.starts = some s → Quiet w
  responded : ∀ s, w.suspended = some (.finalize (.start s)) → (w.responses s.request.id).isSome

/-- The second invariant needs a condition on the steps. -/
def Sound (c : Prop) (w : World) : Prop := Once w ∧ (c → Settled w)

section
variable {c : Prop} {r : Request} {w w' : World}

theorem Calm.terminations_eq (h : Calm w w') : terminations w' = terminations w := by
  obtain ⟨ms, hm, hp⟩ := h.sent
  have hzero : ms.countP (isNamed "terminated") = 0 := by
    rw [List.countP_eq_zero]
    intro m hmem
    simp [(hp m hmem).1]
  rw [terminations, hm, List.countP_append, hzero]
  rfl

theorem Calm.awaiting (h : Calm w w') (ha : Awaiting w') : Awaiting w := by
  obtain ⟨r', hr', hnone⟩ := ha
  have hstart := h.start
  rw [hr'] at hstart
  obtain ⟨r, hr, hid⟩ := Option.map_eq_some_iff.mp hstart.symm
  refine ⟨r, hr, ?_⟩
  rw [hid]
  cases hw : w.responses r'.id with
  | none => rfl
  | some b =>
    have hsome := h.responses r'.id (by rw [hw]; rfl)
    rw [hnone] at hsome
    cases hsome

theorem Calm.quiet (h : Calm w w') (hq : Quiet w) : Quiet w' :=
  fun ha => h.spent (hq (h.awaiting ha))

theorem Calm.last (h : Calm w w') (hl : Last w) : Last w' := by
  obtain ⟨ms, hm, hp⟩ := h.sent
  rw [Last, hm, List.pairwise_append]
  refine ⟨hl, ?_, fun m _ m' hm' _ => (hp m' hm').2⟩
  refine List.pairwise_of_forall_mem_list fun m hmem m' _ ht => ?_
  rw [(hp m hmem).1] at ht
  cases ht

theorem Calm.once (h : Calm w w') (ho : Once w) : Once w' := by
  refine ⟨h.named, fun hf => ?_, ?_, fun after hs => ?_⟩
  · rw [h.terminations_eq]
    exact ho.fresh (h.isFinalizing ▸ hf)
  · rw [h.terminations_eq]
    exact ho.once
  · rw [h.isFinalizing, h.terminations_eq]
    exact ho.waiting after (h.suspended ▸ hs)

theorem Calm.settled (h : Calm w w') (hs : Settled w) : Settled w' where
  last := h.last hs.last
  settled ht ha := hs.settled (h.terminations_eq ▸ ht) (h.awaiting ha)
  started ha := (hs.started (h.awaiting ha)).imp h.server h.spent
  starting stage s hst hs' := h.quiet (hs.starting stage s (h.suspended ▸ hst) hs')
  responded s hst := h.responses _ (hs.responded s (h.suspended ▸ hst))

theorem Calm.sound (h : Calm w w') (hs : Sound c w) : Sound c w' :=
  ⟨h.once hs.1, fun hc => h.settled (hs.2 hc)⟩

theorem Waits.sound (h : Waits r w w') (hs : Sound c w) (hq : c → Quiet w) : Sound c w' := by
  obtain ⟨w₁, stage, s, hcalm, hstage, -, rfl⟩ := h
  have ho := hcalm.once hs.1
  have hne (after : After) : stage ≠ .finalize after := by
    rintro rfl
    cases hstage
  refine ⟨⟨ho.named, ho.fresh, ho.once, fun after ha => absurd (Option.some.inj ha) (hne after)⟩,
    fun hc => ?_⟩
  have hset := hcalm.settled (hs.2 hc)
  exact ⟨hset.last, hset.settled, hset.started, fun _ _ _ _ => hcalm.quiet (hq hc),
    fun s ha => absurd (Option.some.inj ha) (hne _)⟩

theorem last_of_none (h : terminations w = 0) : Last w := by
  have hnone : ∀ m ∈ w.toClient, ¬ isNamed "terminated" m = true := List.countP_eq_zero.mp h
  exact List.pairwise_of_forall_mem_list fun m hm _ _ ht => absurd ht (hnone m hm)

-- ---------------------------------------------------------------------------
-- Finalization
-- ---------------------------------------------------------------------------

/-- The session is not finalized now, or no start request is left. -/
def Harmless (w : World) : Prop :=
  w.isFinalizing = true ∨ w.client.isConnected = false ∨ w.launcherConnected = true ∨ Quiet w

theorem exitOnError_state (p : Code Unit) (w : World) :
    ((exitOnError p).run w).2 = (p.run w).2 := by
  rw [exitOnError, Proc.run_tryExcept]
  cases p.run w with
  | mk out w' =>
    cases out with
    | ok => rfl
    | error e => cases e <;> rfl

theorem endFinalize_run (w : World) : ∃ w₁,
    (w₁ = w ∨ w.client.isConnected = true ∧ w.outlet.spent = false ∧
      w₁ = w.sent (.event "terminated" w.terminatedBody)) ∧
    endFinalize.run w = (Proc.when w.killsDebuggees stopServing).run w₁ := by
  rw [endFinalize, Proc.run_bind, Proc.run_get]
  dsimp only
  rw [Proc.run_bind]
  cases hc : w.client.isConnected with
  | false => exact ⟨w, .inl rfl, rfl⟩
  | true =>
    have hwhen : (Proc.when true (swallow (sendEvent "terminated" w.terminatedBody)) : Code Unit) =
        swallow (sendEvent "terminated" w.terminatedBody) := rfl
    rw [hwhen, swallow, Proc.run_tryExcept, sendEvent]
    cases hs : w.outlet.spent with
    | true =>
      rw [write_spent hs]
      exact ⟨w, .inl rfl, rfl⟩
    | false =>
      rw [write_ok hs]
      exact ⟨_, .inr ⟨rfl, rfl, rfl⟩, rfl⟩

theorem sound_terminated (hs : Sound c w) (hf : w.isFinalizing = true) (ht : terminations w = 0)
    (hsus : ∀ after, w.suspended ≠ some (.finalize after)) (hw : w.outlet.spent = false)
    (hq : c → Quiet w) : Sound c (w.sent (.event "terminated" body)) := by
  have hone : terminations (w.sent (.event "terminated" body)) = 1 := by
    rw [terminations, World.sent_toClient, List.countP_append]
    exact congrArg (· + 1) ht
  refine ⟨⟨hs.1.named, fun hf' => ?_, hone.le, fun after ha => absurd ha (hsus after)⟩, fun hc => ?_⟩
  · rw [World.sent_isFinalizing, hf] at hf'
    cases hf'
  · have hset := hs.2 hc
    have hnot : ¬ Awaiting w := fun ha => by
      have hspent := hq hc ha
      rw [hw] at hspent
      cases hspent
    refine ⟨?_, fun _ => hnot, fun ha => absurd ha hnot, fun _ _ _ _ ha => absurd ha hnot,
      hset.responded⟩
    rw [Last, World.sent_toClient, List.pairwise_append]
    refine ⟨hset.last, by simp, fun m _ m' hm' _ => ?_⟩
    rw [List.mem_singleton.mp hm']
    rfl

theorem endFinalize_sound (hs : Sound c w) (hf : w.isFinalizing = true) (ht : terminations w = 0)
    (hsus : ∀ after, w.suspended ≠ some (.finalize after))
    (hq : c → w.client.isConnected = false ∨ Quiet w) : Sound c (endFinalize.run w).2 := by
  obtain ⟨w₁, hw₁, hrun⟩ := endFinalize_run w
  have hsound : Sound c w₁ := by
    rcases hw₁ with rfl | ⟨hconnected, hspent, rfl⟩
    · exact hs
    · refine sound_terminated hs hf ht hsus hspent fun hc => (hq hc).resolve_left fun hd => ?_
      rw [hconnected] at hd
      cases hd
  have hkeeps : Keeps calm (Proc.when w.killsDebuggees stopServing) :=
    .when (keeps_stopServing ordinary_calm)
  have hcalm := (Proc.Prompt.when prompt_stopServing).keeps hkeeps w₁ hsound.1.named
  rw [hrun]
  exact hcalm.sound hsound

theorem calm_beginFinalize (hn : Named w) (hrun : (beginFinalize b).run w = (.ok (), w')) :
    Calm w w' := by
  have hdetach (w : World) (hn : Named w) : Calm w w.detach := by
    unfold World.detach
    split
    · exact .refl hn
    · next s hs => exact { Calm.refl hn with server := fun _ => rfl }
  have hkeeps : Keeps calm (beginFinalize b) :=
    .bind .get fun _ => .bind (.when (.modify fun w hn => { Calm.refl hn with })) fun _ =>
      .modify hdetach
  exact hkeeps.of_ok hrun hn

/-- Finalization, from wherever it is harmless. If the handler of a start
request is to go on, that has been responded to. -/
theorem finalize_sound (hs : Sound c w) (hh : c → Harmless w)
    (ha : c → ∀ s, after = .start s → (w.responses s.request.id).isSome) :
    Sound c ((finalize terminateDebuggee after).run w).2 := by
  rw [finalize, Proc.run_bind, Proc.run_get]
  dsimp only
  split
  · exact hs
  · next hf =>
    have hf : w.isFinalizing = false := by simpa using hf
    let w₁ : World := { w with isFinalizing := true }
    obtain ⟨w₂, hbegin⟩ := beginFinalize_ok (b := terminateDebuggee.getD w.launcher.isSome) (w := w₁)
    have hexit : (exitOnError (beginFinalize (terminateDebuggee.getD w.launcher.isSome))).run w₁ =
        (.ok (), w₂) := by
      rw [exitOnError, Proc.run_tryExcept, hbegin]
    have hsus (after : After) : w.suspended ≠ some (.finalize after) := fun hsus => by
      rw [(hs.1.waiting after hsus).1] at hf
      cases hf
    have hs₁ : Sound c w₁ :=
      ⟨⟨hs.1.named, fun h => Bool.noConfusion h, hs.1.once, fun after h => absurd h (hsus after)⟩,
        fun hc => { hs.2 hc with }⟩
    have hcalm : Calm w₁ w₂ := calm_beginFinalize hs.1.named hbegin
    have hs₂ : Sound c w₂ := hcalm.sound hs₁
    have ht₂ : terminations w₂ = 0 := hcalm.terminations_eq.trans (hs.1.fresh hf)
    have hf₂ : w₂.isFinalizing = true := hcalm.isFinalizing
    rw [Proc.run_bind, Proc.run_modify]
    dsimp only
    rw [Proc.run_bind, hexit]
    dsimp only
    split
    · refine ⟨⟨hs₂.1.named, hs₂.1.fresh, hs₂.1.once, fun _ _ => ⟨hf₂, ht₂⟩⟩, fun hc => ?_⟩
      have hset := hs₂.2 hc
      refine ⟨hset.last, hset.settled, hset.started, fun stage s hstage hstarts => ?_, fun s hstage => ?_⟩
      · cases hstage
        cases hstarts
      · cases hstage
        exact hcalm.responses _ (ha hc s rfl)
    · next hl =>
      rw [exitOnError_state]
      refine endFinalize_sound hs₂ hf₂ ht₂ (fun after h => hsus after (hcalm.suspended ▸ h)) fun hc => ?_
      rcases hh hc with hh | hh | hh | hh
      · rw [hh] at hf
        cases hf
      · exact .inl (hcalm.isConnected.trans hh)
      · exact absurd hh hl
      · exact .inr (hcalm.quiet hh)

-- ---------------------------------------------------------------------------
-- Handlers that are calm
-- ---------------------------------------------------------------------------

theorem calm_rel (h : calm.holds outcome w w') (hn : Named w) : Calm w w' := by
  unfold Frame.holds at h
  split at h
  · exact h.elim
  · exact h hn

theorem calm_keeps {p : Code α} (h : Keeps calm p) (hn : Named w) : Calm w (p.run w).2 :=
  calm_rel (h w) hn

theorem keeps_sound {p : Code α} (h : Keeps calm p) (hs : Sound c w) : Sound c (p.run w).2 :=
  (calm_keeps h hs.1.named).sound hs

theorem run_sound {f : Code Result} (h : Sound c (f.run w).2) : Sound c ((r.run f).run w).2 :=
  state_run ordinary_calm (answers_calm r)
    (fun hcalm hs => (hcalm.resolve_right id hs.1.named).sound hs) h

theorem plain_forwarded {e : Event} (he : IsPlain e.event) : Plain (.forwarded e.event e.body) :=
  ⟨beq_eq_false_iff_ne.mpr he.1, beq_eq_false_iff_ne.mpr he.2⟩

theorem keeps_propagateAfterStart {e : Event} (he : IsPlain e.event) :
    Keeps calm (propagateAfterStart e) := by
  refine .bind (.modify fun w hn => { Calm.refl hn with }) fun _ w => ?_
  rw [Proc.run_bind, Proc.run_get]
  dsimp only
  cases hd : w.client.deferredEvents with
  | none => exact (keeps_write fun w => calm_sent (plain_forwarded he)) w
  | some events =>
    refine fun hn => { Calm.refl hn with named := fun es hes e' he' => ?_ }
    cases hes
    rcases List.mem_append.mp he' with he' | he'
    · exact hn events hd e' he'
    · rwa [List.mem_singleton.mp he']

theorem keeps_forwardAll (es : List Event) (h : ∀ e ∈ es, IsPlain e.event) :
    Keeps calm (forwardAll es) := by
  induction es with
  | nil => exact .pure
  | cons e es ih =>
    exact .bind (keeps_write fun w => calm_sent (plain_forwarded (h e (by simp)))) fun _ =>
      ih fun e he => h e (by simp [he])

theorem prompt_propagateDeferredEvents : Proc.Prompt propagateDeferredEvents := by
  have hall (es : List Event) : Proc.Prompt (forwardAll es) := by
    induction es with
    | nil => exact .pure
    | cons e es ih => exact .bind prompt_write fun _ => ih
  refine .bind .get fun w => ?_
  split
  · exact .bind (hall _) fun _ => .modify
  · exact .raise

theorem keeps_propagateDeferredEvents : Keeps calm propagateDeferredEvents := by
  intro w
  by_cases hn : Named w
  · rw [propagateDeferredEvents, Proc.run_bind, Proc.run_get]
    dsimp only
    split
    · next events hd =>
      have hflush : Keeps calm (modifyClient Client.flush) :=
        .modify fun w hn => { Calm.refl hn with named := fun _ hes => by cases hes }
      exact Keeps.bind (keeps_forwardAll events (hn events hd)) (fun _ => hflush) w
    · exact Keeps.raise (F := calm) w
  · unfold Frame.holds
    split
    · next hb =>
      obtain ⟨e, he⟩ := prompt_propagateDeferredEvents w _ hb
      cases he
    · exact fun h => absurd h hn

theorem keeps_clientHandler (hstart : r.command ≠ "launch" ∧ r.command ≠ "attach")
    (hconf : r.command ≠ "configurationDone")
    (hend : r.command ≠ "terminate" ∧ r.command ≠ "disconnect") : Keeps calm (clientHandler r) := by
  have hF := ordinary_calm
  have hr := answers_calm r
  unfold clientHandler
  split
  · refine keeps_initializeRequest hF hr.rejects fun w f hf hn => ?_
    have h := hf w.client
    have hd := congrArg Client.deferredEvents h
    have hs := congrArg (fun c => c.startRequest.map (·.id)) h
    have hc := congrArg Client.isConnected h
    exact calm_withClient hn hd hs hc
  · next h => exact absurd h hstart.1
  · next h => exact absurd h hstart.2
  · next h => exact absurd h hconf
  · exact keeps_evaluateRequest hF hr trivial fun w hn => { Calm.refl hn with }
  · exact keeps_pauseRequest hF trivial
  · exact keeps_continueRequest hF trivial
  · exact keeps_systemInfoRequest hF trivial
  · next h => exact absurd h hend.1
  · next h => exact absurd h hend.2
  · exact keeps_genericRequest hF trivial

theorem keeps_serverEvent (e : Event) : Keeps calm (e.run (Server.handler e)) :=
  keeps_eventRun ordinary_calm (keeps_serverHandler ordinary_calm fun hi ht =>
    keeps_propagateAfterStart ⟨ht, hi⟩)

theorem keeps_launcherEvent (e : Event) : Keeps calm (e.run (Launcher.handler e)) := by
  refine keeps_eventRun ordinary_calm (keeps_launcherHandler ordinary_calm (fun h => ?_)
    (fun w body hn => { Calm.refl hn with }) fun w body => calm_sent ⟨rfl, rfl⟩)
  refine keeps_propagateAfterStart ?_
  rcases h with h | h <;> rw [h] <;> exact ⟨by decide, by decide⟩

-- ---------------------------------------------------------------------------
-- Handlers that end the session
-- ---------------------------------------------------------------------------

theorem calm_triple {p : Code α} (h : Keeps calm p) (hn : Named w) :
    Triple p w (fun _ w' => Calm w w') (fun _ w' => Calm w w') :=
  Proc.triple_state.mpr (calm_keeps h hn)

theorem Calm.harmless (h : Calm w w') (hh : Harmless w) : Harmless w' := by
  rcases hh with hh | hh | hh | hh
  · exact .inl (h.isFinalizing.trans hh)
  · exact .inr (.inl (h.isConnected.trans hh))
  · exact .inr (.inr (.inl (h.launcher.trans hh)))
  · exact .inr (.inr (.inr (h.quiet hh)))

theorem not_awaiting (hs : w.client.startRequest = some r) (hr : (w.responses r.id).isSome) :
    ¬ Awaiting w := by
  rintro ⟨r', hr', hnone⟩
  rw [hs] at hr'
  cases hr'
  rw [hnone] at hr
  cases hr

theorem keeps_respond_calm (b : Except Exn Json) : Keeps calm (r.respond b) :=
  keeps_respond fun w => answers_calm r w r b (.refl r)

/-- The server disconnects before it responds to `"configurationDone"`. -/
theorem lost_sound (hs : Sound c w) : Sound c (Proc.run (do
    r.respond (.ok (.dict []))
    withStartRequest fun start => start.respond (.ok (.dict []))
    finalize none (.responded r)
    return none : Code (Option Json)) w).2 := by
  refine Proc.triple_state.mp (.bind (.mono (calm_triple (keeps_respond_calm _) hs.1.named)
    (fun _ _ h => h.sound hs) fun _ _ h => h.sound hs) fun _ w₁ hs₁ => ?_)
  refine .bind (Q := fun _ w₂ => Sound c w₂ ∧ Quiet w₂) ?_ fun _ w₂ hs₂ =>
    .bind (Proc.triple_state.mpr (finalize_sound hs₂.1 (fun _ => .inr (.inr (.inr hs₂.2))) fun _ _ => nofun))
      fun _ _ h => h
  have hcalm : Keeps calm (withStartRequest fun start => start.respond (.ok (.dict []))) :=
    keeps_withStartRequest fun w _ _ => keeps_respond_calm _ w
  cases hstart : w₁.client.startRequest with
  | none =>
    have hrun : (withStartRequest fun start => start.respond (.ok (.dict []))).run w₁ =
        (.error (.raised (.attributeError "'NoneType' object has no attribute")), w₁) := by
      simp [withStartRequest, Proc.run_bind, hstart]
    exact .of_error hrun hs₁
  | some start =>
    have hrun : (withStartRequest fun start => start.respond (.ok (.dict []))).run w₁ =
        (start.respond (.ok (.dict []))).run w₁ := by
      simp [withStartRequest, Proc.run_bind, hstart]
    cases hr : w₁.responses start.id with
    | some b => exact .of_error (hrun.trans (respond_again (by simp [hr]))) hs₁
    | none =>
      cases hsp : w₁.outlet.spent with
      | true => exact .of_error (hrun.trans (respond_spent hr hsp)) hs₁
      | false =>
        have hok := hrun.trans (respond_ok hr hsp)
        refine .of_ok hok ⟨(hcalm.of_ok hok hs₁.1.named).sound hs₁, ?_⟩
        exact fun ha => absurd ha (not_awaiting (r := start) hstart (by simp))

theorem configurationDone_sound (hs : Sound c w) : Sound c ((configurationDoneRequest r).run w).2 := by
  have hF : ∀ {w w'}, (Named w → Calm w w') → (Frame.preserving (Sound c)).rel w w' :=
    fun h hs => (h hs.1.named).sound hs
  have hstart : AnswersStart (.preserving (Sound c)) :=
    fun w start b _ => answers_of_calm hF start w start b (.refl start)
  have hsettle : Keeps (.preserving (Sound c)) (settleConfiguration r) :=
    keeps_settleConfiguration (ordinary_of_calm hF) (answers_of_calm hF r) trivial
      (fun w => hF fun hn => calm_withClient hn rfl rfl rfl)
      (Proc.keeps_preserving.mpr fun _ => lost_sound) (fun _ => keeps_failStart (ordinary_of_calm hF) hstart)
      (keeps_settleStart hstart (Proc.keeps_preserving.mpr fun _ => keeps_sound keeps_propagateDeferredEvents))
  have hkeeps : Keeps (.preserving (Sound c)) (configurationDoneRequest r) :=
    keeps_configurationDone (ordinary_of_calm hF) (answers_of_calm hF r) hsettle
  exact Proc.keeps_preserving.mp hkeeps w hs

theorem terminate_sound (hs : Sound c w)
    (hh : c → w.client.forwardTerminateRequest = true ∨ Harmless w) :
    Sound c ((terminateRequest r).run w).2 := by
  let w₁ := w.withClient fun c => { c with restartRequested := false }
  have hcalm : Calm w w₁ := calm_of_core rfl hs.1.named
  have hs₁ : Sound c w₁ := hcalm.sound hs
  rw [terminateRequest, Proc.run_bind, run_modifyClient]
  dsimp only
  rw [Proc.run_bind, Proc.run_get]
  dsimp only
  split
  · exact keeps_sound (.bind (keeps_delegate ordinary_calm trivial) fun _ => .pure) hs₁
  · next hf =>
    refine Proc.triple_state.mp (.bind (Proc.triple_state.mpr (finalize_sound hs₁ (fun hc => ?_) fun _ _ => nofun))
      fun _ _ h => h)
    exact hcalm.harmless ((hh hc).resolve_left hf)

theorem keeps_afterDisconnect : Keeps calm (afterDisconnect r) := by
  refine .bind (keeps_respond_calm _) fun _ => .bind .get fun w =>
    .bind (.when (keeps_stopServing ordinary_calm)) fun _ => .bind (.modify fun w hn => ?_) fun _ => .pure
  exact { Calm.refl hn with spent := fun _ => rfl }

theorem disconnect_sound (hs : Sound c w) (hh : c → Harmless w) :
    Sound c ((disconnectRequest r).run w).2 := by
  have hbegin : Keeps calm (do
      modifyClient fun c => { c with restartRequested := false }
      r.call "terminateDebuggee" optionalBool : Code Property) :=
    .bind (keeps_modifyClient ordinary_calm fun _ => rfl) fun _ =>
      keeps_call ordinary_calm (answers_calm r).rejects
  have hsplit : disconnectRequest r = (do
      let terminateDebuggee ← (do
        modifyClient fun c => { c with restartRequested := false }
        r.call "terminateDebuggee" optionalBool : Code Property)
      finalize (terminateDebuggee.map fun b => asBool (some b)) (.disconnect r)
      afterDisconnect r : Code Result) := by
    simp only [disconnectRequest, bind_assoc]
  rw [hsplit]
  refine Proc.triple_state.mp (.bind (.mono (calm_triple hbegin hs.1.named) (fun _ _ h => h)
    fun _ _ h => h.sound hs) fun _ w₁ hcalm => ?_)
  refine .bind (Proc.triple_state.mpr (finalize_sound (hcalm.sound hs) (fun hc => hcalm.harmless (hh hc))
    fun _ _ => nofun)) fun _ w₂ hs₂ => ?_
  exact Proc.triple_state.mpr (keeps_sound keeps_afterDisconnect hs₂)

-- ---------------------------------------------------------------------------
-- The end of the start handlers
-- ---------------------------------------------------------------------------

structure Open (w : World) : Prop where
  isFinalizing : w.isFinalizing = false
  quiet : Quiet w
  idle : ∀ stage, w.suspended = some stage → stage.starts = none

def Served (w : World) : Prop := w.server.isSome ∨ w.noDebug = true

structure Ready (w : World) : Prop extends Open w where
  served : Served w

theorem Calm.open (h : Calm w w') (hr : Open w) : Open w' where
  isFinalizing := h.isFinalizing.trans hr.isFinalizing
  quiet := h.quiet hr.quiet
  idle stage hs := hr.idle stage (h.suspended ▸ hs)

theorem Calm.ready (h : Calm w w') (hr : Ready w) : Ready w' :=
  ⟨h.open hr.toOpen, hr.served.imp h.server h.noDebug.trans⟩

theorem sound_started (ho : Once w) (hf : c → w.isFinalizing = false)
    (hidle : c → ∀ stage, w.suspended = some stage → stage.starts = none)
    (hresponded : c → ∀ s, w.suspended = some (.finalize (.start s)) →
      (w.responses s.request.id).isSome)
    (hopen : c → Awaiting w → w.server.isSome ∨ w.outlet.spent = true) : Sound c w := by
  refine ⟨ho, fun hc => ?_⟩
  have ht : terminations w = 0 := ho.fresh (hf hc)
  refine ⟨last_of_none ht, fun h => absurd h (by omega), hopen hc, fun stage s hst hs => ?_,
    hresponded hc⟩
  rw [hidle hc stage hst] at hs
  cases hs

theorem respond_started (hs : Sound c w) (hr : c → Ready w) :
    let w₁ := w.withClient fun client => { client with startRequest := some r, hasStarted := true }
    Sound c ((r.respond b).run w₁).2 := by
  intro w₁
  have ho₁ : Once w₁ := ⟨hs.1.named, hs.1.fresh, hs.1.once, hs.1.waiting⟩
  have hstart : w₁.client.startRequest = some r := rfl
  have hdone (hopen : Awaiting w₁ → w₁.server.isSome ∨ w₁.outlet.spent = true) : Sound c w₁ :=
    sound_started ho₁ (fun hc => (hr hc).isFinalizing) (fun hc => (hr hc).idle)
      (fun hc => (hs.2 hc).responded) fun _ => hopen
  cases hw : w₁.responses r.id with
  | some b =>
    rw [respond_again (by simp [hw])]
    exact hdone fun ha => absurd ha (not_awaiting hstart (by simp [hw]))
  | none =>
    cases hsp : w₁.outlet.spent with
    | true =>
      rw [respond_spent hw hsp]
      exact hdone fun _ => .inr hsp
    | false =>
      have hok := respond_ok (b := b) hw hsp
      have hcalm := calm_keeps (keeps_respond_calm (r := r) b) ho₁.named
      rw [hok] at hcalm ⊢
      refine sound_started (hcalm.once ho₁) (fun hc => hcalm.isFinalizing.trans (hr hc).isFinalizing)
        (fun hc stage hst => (hr hc).idle stage (hcalm.suspended ▸ hst))
        (fun hc s hst => hcalm.responses _ ((hs.2 hc).responded s (hcalm.suspended ▸ hst)))
        fun _ ha => absurd ha (not_awaiting (r := r) hstart (by simp))

theorem initialized_started (hs : Sound c w) (hr : c → Ready w) (hserver : c → w.server.isSome) :
    Sound c ((w.sent (.event "initialized" body)).withClient fun client =>
      { client with startRequest := some r }) := by
  have hcount : terminations (w.sent (.event "initialized" body)) = terminations w := by
    rw [terminations, World.sent_toClient, List.countP_append]
    rfl
  refine sound_started ⟨hs.1.named, fun hf => hcount.trans (hs.1.fresh hf), hcount.le.trans hs.1.once,
    fun after ha => ?_⟩ (fun hc => (hr hc).isFinalizing) (fun hc => (hr hc).idle)
    (fun hc => (hs.2 hc).responded) fun hc _ => .inl (hserver hc)
  obtain ⟨hf, ht⟩ := hs.1.waiting after ha
  exact ⟨hf, hcount.trans ht⟩

theorem completeStart_sound (hs : Sound c w) (hr : c → Ready w) :
    Sound c ((completeStart r).run w).2 := by
  rw [completeStart, Proc.run_bind, Proc.run_get]
  dsimp only
  split
  · rw [Proc.run_bind, run_modifyClient]
    dsimp only
    refine Proc.triple_state.mp (.bind (Proc.triple_state.mpr (respond_started hs hr)) fun _ w₂ hs₂ => ?_)
    exact Proc.triple_state.mpr (keeps_sound (.bind keeps_propagateDeferredEvents fun _ => .pure) hs₂)
  · next hd =>
    rw [Proc.run_bind]
    cases hsp : w.outlet.spent with
    | true =>
      rw [sendEvent, write_spent hsp]
      exact hs
    | false =>
      rw [sendEvent, write_ok hsp]
      exact initialized_started hs hr fun hc => (hr hc).served.resolve_right hd

theorem startServer_spec {s : Start} (hs : Sound c w) (hr : c → Ready w) :
    Triple (startServer s) w (fun o w' => Sound c w' ∧ (o.isSome → c → Ready w'))
      (fun _ w' => Sound c w') := by
  have hF := ordinary_calm
  refine .get_bind ?_
  split
  · exact .raise hs
  · refine .bind (.mono (calm_triple (keeps_initializeServer hF trivial trivial) hs.1.named)
      (fun _ _ h => h) fun _ _ h => h.sound hs) fun _ w₁ h₁ => ?_
    have hforget : Keeps calm (modifyClient fun client => { client with initializeRequest := none }) :=
      .modify fun w hn => calm_withClient hn rfl rfl rfl
    refine .bind (.mono (calm_triple hforget h₁.named) (fun _ _ h => h₁.trans h)
      fun _ _ h => (h₁.trans h).sound hs) fun _ w₂ h₂ => ?_
    refine .tryExcept (F := fun _ w' => Calm w w') ?_ (fun e w₃ h₃ => ?_) (fun _ h => h.sound hs)
      fun _ h => h.sound hs
    · have hask {command : String} {arguments : Json} {reply : Reply} {request : Request} :
          Keeps calm (do
            let _ ← askServer command arguments reply
            pure (some request) : Code (Option Request)) :=
        .bind (keeps_askServer hF trivial) fun _ => .pure
      exact .mono (calm_triple hask h₂.named)
        (fun _ _ h => ⟨(h₂.trans h).sound hs, fun _ hc => (h₂.trans h).ready (hr hc)⟩)
        fun _ _ h => h₂.trans h
    · have hs₃ := h₃.sound hs
      split
      · next clause hclause =>
        split at hclause <;> cases hclause
        · refine .bind (.mono (calm_triple (keeps_respond_calm _) hs₃.1.named) (fun _ _ h => h)
            fun _ _ h => h.sound hs₃) fun _ w₄ h₄ => ?_
          refine .bind (Proc.triple_state.mpr (finalize_sound (h₄.sound hs₃) (fun hc => ?_)
            fun _ _ => nofun)) fun _ _ hs₅ => .pure ⟨hs₅, nofun⟩
          exact .inr (.inr (.inr ((h₃.trans h₄).quiet (hr hc).quiet)))
        · exact .mono (calm_triple (keeps_propagateError hF) hs₃.1.named)
            (fun _ _ h => ⟨h.sound hs₃, fun _ hc => (h₃.trans h).ready (hr hc)⟩)
            fun _ _ h => h.sound hs₃
      · exact hs₃

/-- Before the common end: the request has been responded to, or the session
can go on. -/
def Tail (c : Prop) (r : Request) (w : World) : Prop :=
  Sound c w ∧ (c → (w.responses r.id).isSome ∨ Ready w)

theorem afterStart_sound {s : Start} (ht : Tail c s.request w) : Sound c ((afterStart s).run w).2 := by
  rw [afterStart, Proc.run_bind, Proc.run_get]
  dsimp only
  split
  · exact ht.1
  · next hresp =>
    have hr (hc : c) : Ready w := (ht.2 hc).resolve_left hresp
    split
    · refine Proc.triple_state.mp (.bind (startServer_spec ht.1 hr) fun o w₁ h₁ => ?_)
      cases o with
      | none => exact h₁.1
      | some request => exact Proc.triple_state.mpr (completeStart_sound h₁.1 (h₁.2 rfl))
    · exact completeStart_sound ht.1 hr

-- ---------------------------------------------------------------------------
-- launch
-- ---------------------------------------------------------------------------

theorem ordinary_served : Ordinary (.preserving Served) fun _ => True where
  other {w w'} h hs := by
    have hserver : w'.server.isSome = w.server.isSome := congrArg Core.server h
    have hd : w'.noDebug = w.noDebug := congrArg Core.noDebug h
    rwa [Served, hserver, hd]
  event _ _ _ _ _ hs := hs
  request _ _ _ hs := hs
  asked _ _ _ _ hs := hs
  share _ _ hs := hs

def Lands (p : Code α) : Prop := ∀ w, Triple p w (fun _ w' => Served w') fun _ _ => True

theorem Lands.raise : Lands (Proc.raise e : Code α) := fun _ => trivial

theorem Lands.bind {p : Code α} {f : α → Code β} (hf : ∀ a, Lands (f a)) : Lands (p >>= f) :=
  fun _ => .bind .any fun a w' _ => hf a w'

theorem Lands.ite {b : Prop} [Decidable b] {p q : Code α} (hp : b → Lands p) (hq : ¬ b → Lands q) :
    Lands (if b then p else q) := by
  split
  · next h => exact hp h
  · next h => exact hq h

theorem served_triple {p : Code α} (h : Keeps (.preserving Served) p) (hs : Served w) :
    Triple p w (fun _ w' => Served w') fun _ w' => Served w' :=
  Proc.triple_state.mpr (Proc.keeps_preserving.mp h w hs)

theorem Lands.tryFinally {p : Code α} {last : Code Unit} (hp : Lands p)
    (hl : Keeps (.preserving Served) last) : Lands (Proc.tryFinally p last) := fun w =>
  .tryFinally (hp w) (fun _ _ hs => .mono (served_triple hl hs) (fun _ _ h => h) fun _ _ _ => trivial)
    (fun _ _ _ => .any) (fun _ _ => trivial) fun _ _ => trivial

theorem lands_fail : Lands (do Proc.raise (← r.cantHandle reason) : Code α) := .bind fun _ => .raise

theorem lands_attachToSession : Lands (attachToSession n) := by
  intro w
  rw [attachToSession]
  refine .get_bind ?_
  split
  · trivial
  · split
    · trivial
    · exact .inl rfl

theorem lands_attachSpawned : Lands (attachSpawned r) := by
  intro w
  refine .get_bind ?_
  split
  · exact lands_attachToSession w
  · exact lands_fail w

section
variable {s : Start}

theorem lands_awaitConnection : Lands (awaitConnection s) := by
  intro w
  refine .get_bind ?_
  split
  · exact lands_fail w
  · split
    · next hd => exact .inr hd
    · split
      · exact lands_attachSpawned w
      · trivial

theorem lands_startLauncher : Lands (startLauncher s) := by
  intro w
  refine .get_bind ?_
  split
  · exact lands_fail w
  · refine Lands.bind (fun _ => ?_) w
    exact .ite (fun _ => lands_awaitConnection) fun _ _ => trivial

theorem lands_spawnDebuggee : Lands (spawnDebuggee s console asSudo) := by
  intro w
  refine .get_bind ?_
  split
  · exact lands_fail w
  · refine Lands.bind (fun _ => .bind fun _ => .tryFinally (.bind fun _ => .bind fun _ => ?_)
      (keeps_closeLauncherListener ordinary_served)) w
    exact .ite (fun _ => lands_startLauncher) fun _ _ => trivial

theorem lands_launchRequest : Lands (launchRequest s) := by
  refine .bind fun _ => .ite (fun _ => lands_fail) fun _ => .bind fun _ => .bind fun _ =>
    .bind fun _ => .bind fun _ => .bind fun _ => .ite (fun _ => lands_fail) fun _ =>
    .bind fun _ => .bind fun _ => .bind fun _ => .bind fun _ => .bind fun _ w => ?_
  exact .bind (lands_spawnDebuggee w) fun _ _ hs => .pure hs

theorem awaitConnection_stops (h : (w.launcher.bind (·.pid)).isNone) :
    Triple (awaitConnection s) w (fun _ _ => False) fun _ _ => True := by
  refine .get_bind ?_
  rw [if_pos h]
  exact .bind .any fun _ _ _ => trivial

theorem startLauncher_stops (h : (w.launcher.bind (·.pid)).isNone) :
    Triple (startLauncher s) w (fun _ _ => False) fun _ _ => True := by
  refine .get_bind ?_
  split
  · exact .bind .any fun _ _ _ => trivial
  · refine .bind .any fun _ _ _ => ?_
    rw [if_neg (by simpa using h)]
    trivial

end

-- ---------------------------------------------------------------------------
-- attach
-- ---------------------------------------------------------------------------

theorem starting_triple {p : Code α} (h : Keeps (starting r) p) (hs : Sound c w) (hq : c → Quiet w) :
    Triple p w (fun _ w' => Calm w w') (fun _ w' => Sound c w') := by
  have hk := h w
  unfold Triple
  cases hp : p.run w with
  | mk out w' =>
    rw [hp] at hk
    cases out with
    | ok a => exact hk hs.1.named
    | error e =>
      cases e with
      | blocked => exact Waits.sound (hk hs.1.named) hs hq
      | raised e => exact Calm.sound (hk hs.1.named) hs
      | exited => exact Calm.sound (hk hs.1.named) hs

theorem Open.tail {s : Start} (ho : c → Open w) (hs : Sound c w) (h : Calm w w')
    (hd : c → (w'.responses s.request.id).isSome ∨ Served w') : Tail c s.request w' :=
  ⟨h.sound hs, fun hc => (hd hc).imp id fun hd => ⟨h.open (ho hc), hd⟩⟩

theorem launchRequest_spec {s : Start} (hs : Sound c w) (ho : c → Open w) :
    Triple (launchRequest s) w (fun s' w' => Tail c s'.request w') (fun _ w' => Sound c w') := by
  have hkeeps : Keeps (starting s.request) (launchRequest s) :=
    keeps_launchRequest (ordinary_starting _) (answers_starting _ _).rejects (suspends_starting _)
      (attaches_of_calm id) (assignsForward_of_calm id)
  refine .mono (.and (starting_triple hkeeps hs fun hc => (ho hc).quiet) (lands_launchRequest w))
    (fun s' w' h => ?_) fun _ _ h => h.1
  exact Open.tail ho hs h.1 fun _ => .inr h.2

theorem respond_responds : Triple (r.respond b) w (fun _ w' => (w'.responses r.id).isSome)
    fun _ _ => True := by
  cases hr : w.responses r.id with
  | some b' => exact .of_error (respond_again (by simp [hr])) trivial
  | none =>
    cases hs : w.outlet.spent with
    | true => exact .of_error (respond_spent hr hs) trivial
    | false => exact .of_ok (respond_ok hr hs) (by simp)

theorem cantHandle_responds : Triple (r.cantHandle reason) w (fun _ w' => (w'.responses r.id).isSome)
    fun _ _ => True :=
  .bind .any fun _ _ _ => .bind respond_responds fun _ _ h => h

theorem attachConnection_spec {s : Start} (hs : Sound c w) (ho : c → Open w) :
    Triple (attachConnection s timeout subPid n) w (fun _ w' => Tail c s.request w')
      (fun _ w' => Sound c w') := by
  cases n with
  | some n =>
    have hkeeps : Keeps calm (attachConnection s timeout subPid (some n)) :=
      keeps_attachConnection ordinary_calm (answers_calm _).rejects (attaches_of_calm id)
    have hdone : Triple (attachConnection s timeout subPid (some n)) w
        (fun _ w' => (w'.responses s.request.id).isSome ∨ Served w') fun _ _ => True := by
      refine .tryExcept (F := fun _ _ => True) (.mono (lands_attachToSession w) (fun _ _ h => .inr h)
        fun _ _ h => h) (fun e w' _ => ?_) (fun _ _ => trivial) fun _ _ => trivial
      split
      · next clause hclause =>
        split at hclause <;> cases hclause
        exact .get_bind (.bind cantHandle_responds fun _ _ h => .pure (.inl h))
      · trivial
    refine .mono (.and (calm_triple hkeeps hs.1.named) hdone) (fun _ w' h => ?_)
      fun _ _ h => h.1.sound hs
    exact Open.tail ho hs h.1 fun _ => h.2
  | none =>
    rw [attachConnection]
    split
    · -- the request is responded to before the session is finalized
      refine .bind (.mono (.and (calm_triple (keeps_respond_calm _) hs.1.named) respond_responds)
        (fun _ _ h => h) fun _ _ h => h.1.sound hs) fun _ w₁ h => ?_
      have hsound : Sound c ((finalize none (.start s)).run w₁).2 :=
        finalize_sound (h.1.sound hs) (fun hc => .inr (.inr (.inr (h.1.quiet (ho hc).quiet))))
          fun _ s' hs' => by cases hs'; exact h.2
      have haside : Aside w₁ ((finalize none (.start s)).run w₁).2 := aside_run aside_finalize w₁
      refine .mono (.and (Proc.triple_state.mpr hsound) (Proc.triple_state (P := Aside w₁).mpr haside))
        (fun _ w₂ h₂ => ⟨h₂.1, fun _ => .inl ?_⟩) fun _ _ h₂ => h₂.1
      rw [h₂.2.responses]
      exact h.2
    · exact .bind (.mono (calm_triple (keeps_cantHandle ordinary_calm (answers_calm _).rejects) hs.1.named)
        (fun _ _ h => h.sound hs) fun _ _ h => h.sound hs) fun _ _ h => .raise h

theorem call_has : Proc.Yields (r.call key (Json.ofType types true)) fun v => v.isSome → r.has key := by
  intro w v hv hsome
  unfold Request.call callPayload at hv
  unfold Request.has
  split at hv
  · next d hd =>
    cases hk : Json.get? d key with
    | some value => rfl
    | none =>
      rw [hk] at hv
      cases hv
      cases hsome
  · cases hv

theorem readAttach_pid : Proc.Yields (readAttach r) fun a => a.pid.isSome → r.has "processId" :=
  .bind (.any _) fun _ _ => .bind (.any _) fun _ _ => .bind (.any _) fun _ _ =>
    .bind (.any _) fun _ _ => .bind call_has fun _ h => .bind (.any _) fun _ _ =>
    .bind (.any _) fun _ _ => .bind (.any _) fun _ _ => .pure h

theorem reject_sound (hs : Sound c w) :
    Triple (do Proc.raise (← r.isntValid reason) : Code α) w Q (fun _ w' => Sound c w') :=
  .bind (.mono (calm_triple (keeps_isntValid ordinary_calm (answers_calm r).rejects) hs.1.named)
    (fun _ _ h => h.sound hs) fun _ _ h => h.sound hs) fun _ _ h => .raise h

theorem keeps_calm_call : Keeps calm (r.call key validate) :=
  keeps_call ordinary_calm (answers_calm r).rejects

/-- If the debug server is not injected, the session is finalized, but the
request is not responded to. -/
theorem injectServer_spec {s : Start} {a : AttachArguments} (hs : Sound c w) (ho : c → Open w)
    (hi : c → a.pid.isSome → w.env.inject = .ok ()) :
    Triple (injectServer s a) w (fun pid w' => Sound c w' ∧ (c → pid.isSome ∧ Open w'))
      (fun _ w' => Sound c w') := by
  unfold injectServer
  split
  · exact .pure ⟨hs, fun hc => ⟨rfl, ho hc⟩⟩
  · next pid hpid =>
    have hread : Keeps calm (readPid s.request pid) :=
      keeps_readPid ordinary_calm (answers_calm _).rejects
    refine .bind (.mono (calm_triple hread hs.1.named) (fun _ _ h => h) fun _ _ h => h.sound hs)
      fun n w₁ h₁ => ?_
    refine .bind (.mono (calm_triple keeps_calm_call h₁.named) (fun _ _ h => h₁.trans h)
      fun _ _ h => (h₁.trans h).sound hs) fun _ w₂ h₂ => .get_bind ?_
    have hs₂ : Sound c w₂ := h₂.sound hs
    split
    · exact .pure ⟨hs₂, fun hc => ⟨rfl, h₂.open (ho hc)⟩⟩
    · next e he =>
      have hno (hc : c) : False := by
        have hok := hi hc (by rw [hpid]; rfl)
        rw [h₂.env, hok] at he
        cases he
      exact .bind (Proc.triple_state.mpr (finalize_sound hs₂ (fun hc => (hno hc).elim)
        fun hc => (hno hc).elim)) fun _ _ h => .pure ⟨h, fun hc => (hno hc).elim⟩

theorem attachRequest_spec {s : Start} (hs : Sound c w) (ho : c → Open w)
    (hi : c → s.request.has "processId" → w.env.inject = .ok ()) :
    Triple (attachRequest s) w (fun s' w' => Tail c s'.request w') (fun _ w' => Sound c w') := by
  have hF := ordinary_calm
  have hr : Rejects calm s.request := (answers_calm _).rejects
  refine .get_bind ?_
  split
  · exact reject_sound hs
  have hread : Keeps calm (readAttach s.request) := keeps_readAttach hF hr (assignsForward_of_calm id)
  refine .bind (.mono (.and (calm_triple hread hs.1.named) readAttach_pid.triple)
    (fun _ _ h => h) fun _ _ h => h.1.sound hs) fun a w₁ h₁ => ?_
  split
  · exact reject_sound (h₁.1.sound hs)
  refine .bind (.mono (calm_triple (keeps_listenForServer hF hr) h₁.1.named) (fun _ _ h => h₁.1.trans h)
    fun _ _ h => (h₁.1.trans h).sound hs) fun (host, port) w₂ h₂ => ?_
  have hs₂ : Sound c w₂ := h₂.sound hs
  refine .bind (injectServer_spec hs₂ (fun hc => h₂.open (ho hc)) fun hc hpid => ?_)
    fun pid w₃ h₃ => ?_
  · rw [h₂.env]
    exact hi hc (h₁.2 hpid)
  cases pid with
  | none => exact .pure ⟨h₃.1, fun hc => absurd (h₃.2 hc).1 (by simp)⟩
  | some pid =>
    have ho₃ (hc : c) : Open w₃ := (h₃.2 hc).2
    refine .bind (.mono (calm_triple (keeps_sendEvent hF (by decide) (by decide)) h₃.1.1.named)
      (fun _ _ h => h) fun _ _ h => h.sound h₃.1) fun _ w₄ h₄ => .get_bind ?_
    have hs₄ : Sound c w₄ := h₄.sound h₃.1
    have ho₄ (hc : c) : Open w₄ := h₄.open (ho₃ hc)
    split
    · exact .bind (attachConnection_spec hs₄ ho₄) fun _ _ h => .pure h
    · split
      · exact .bind (attachConnection_spec hs₄ ho₄) fun _ _ h => .pure h
      · next hsub =>
        have hsub : a.subPid = none := by simpa using hsub
        have hkeeps : Keeps (starting s.request) (suspend (.attach s pid a.listen.isNone a.subPid) : Code Unit) :=
          keeps_suspend (suspends_starting _) rfl hsub
        refine .bind (Q := fun _ _ => False) ?_ fun _ _ h => h.elim
        exact (starting_triple hkeeps hs₄ fun hc => (ho₄ hc).quiet : Triple _ _ _ _)

-- ---------------------------------------------------------------------------
-- The start handlers
-- ---------------------------------------------------------------------------

/-- What the invariants look at. -/
structure Same (w w' : World) : Prop where
  deferred : w'.client.deferredEvents = w.client.deferredEvents
  start : w'.client.startRequest = w.client.startRequest
  toClient : w'.toClient = w.toClient
  responses : w'.responses = w.responses
  outlet : w'.outlet = w.outlet
  isFinalizing : w'.isFinalizing = w.isFinalizing
  suspended : w'.suspended = w.suspended
  server : w'.server.isSome = w.server.isSome

theorem Same.awaiting (h : Same w w') : Awaiting w' ↔ Awaiting w := by
  rw [Awaiting, Awaiting, h.start, h.responses]

theorem Same.quiet (h : Same w w') (hq : Quiet w) : Quiet w' := by
  rw [Quiet, h.awaiting, h.outlet]
  exact hq

theorem Same.sound (h : Same w w') (hs : Sound c w) : Sound c w' := by
  have ht : terminations w' = terminations w := by rw [terminations, h.toClient, terminations]
  refine ⟨⟨fun es he => hs.1.named es (h.deferred ▸ he), fun hf => ?_, ht.le.trans hs.1.once,
    fun after ha => ?_⟩, fun hc => ⟨?_, fun hpos => ?_, fun ha => ?_, fun stage s hst hss => ?_,
    fun s hst => ?_⟩⟩
  · exact ht.trans (hs.1.fresh (h.isFinalizing ▸ hf))
  · rw [h.isFinalizing, ht]
    exact hs.1.waiting after (h.suspended ▸ ha)
  · rw [Last, h.toClient]
    exact (hs.2 hc).last
  · rw [h.awaiting]
    exact (hs.2 hc).settled (ht ▸ hpos)
  · rw [h.server, h.outlet]
    exact (hs.2 hc).started (h.awaiting.mp ha)
  · exact h.quiet ((hs.2 hc).starting stage s (h.suspended ▸ hst) hss)
  · rw [h.responses]
    exact (hs.2 hc).responded s (h.suspended ▸ hst)

theorem Same.open (h : Same w w') (ho : Open w) : Open w' where
  isFinalizing := h.isFinalizing.trans ho.isFinalizing
  quiet := h.quiet ho.quiet
  idle stage hst := ho.idle stage (h.suspended ▸ hst)

def Acts (w : World) : Prop :=
  w.client.initializeRequest.isSome ∧ w.launcher = none ∧ w.server = none

theorem startMessageHandler_sound {f : Start → Code Start} (hs : Sound c w)
    (ho : c → Acts w → Open w)
    (hf : ∀ {s w'}, s.request = r → w'.env = w.env → Acts w → Sound c w' → (c → Open w') →
      Triple (f s) w' (fun s' w'' => Tail c s'.request w'') (fun _ w'' => Sound c w'')) :
    Sound c ((startMessageHandler f r).run w).2 := by
  refine Proc.triple_state.mp (.get_bind ?_)
  split
  · exact reject_sound hs
  next hinit =>
  split
  · exact reject_sound hs
  next hnone =>
  have hacts : Acts w := by
    refine ⟨by simpa [Option.isSome_iff_ne_none] using hinit, ?_⟩
    simpa using hnone
  have hlatest : Keeps calm (modify fun w => { w with latestStart := some r.id } : Code Unit) :=
    .modify fun w hn => { Calm.refl hn with }
  refine .bind (.mono (calm_triple hlatest hs.1.named) (fun _ _ h => h) fun _ _ h => h.sound hs)
    fun _ w₁ h₁ => ?_
  refine .bind (.mono (calm_triple keeps_calm_call h₁.named) (fun _ _ h => h₁.trans h)
    fun _ _ h => (h₁.trans h).sound hs) fun noDebug w₂ h₂ => ?_
  let w₃ : World := { w₂ with noDebug := asBool noDebug }
  have hsame : Same w₂ w₃ := ⟨rfl, rfl, rfl, rfl, rfl, rfl, rfl, rfl⟩
  refine .bind (Q := fun _ w' => w' = w₃) rfl fun _ w' hw' => ?_
  subst hw'
  have hs₃ : Sound c w₃ := hsame.sound (h₂.sound hs)
  refine .bind (.mono (calm_triple keeps_calm_call hs₃.1.named) (fun _ _ h => h)
    fun _ _ h => h.sound hs₃) fun debugOptions w₄ h₄ => ?_
  have hstart := hf (s := { request := r, debugOptions := strings debugOptions }) rfl
    (h₄.env.trans h₂.env) hacts (h₄.sound hs₃) fun hc => h₄.open (hsame.open (h₂.open (ho hc hacts)))
  exact .bind hstart fun s' w₅ h₅ => Proc.triple_state.mpr (afterStart_sound h₅)

-- ---------------------------------------------------------------------------
-- The condition
-- ---------------------------------------------------------------------------

/-- A start request that is acted on finds a session that is not being
finalized, and injects the debug server if it is to. The session is not ended
while a start request is left. -/
structure RequestTimely (w : World) (r : Request) : Prop where
  start : r.command = "launch" ∨ r.command = "attach" → Acts w → w.isFinalizing = false
  inject : r.command = "attach" → Acts w → r.has "processId" → w.env.inject.isOk = true
  terminate : r.command = "terminate" → w.client.forwardTerminateRequest = true ∨ Harmless w
  disconnect : r.command = "disconnect" → Harmless w

/-- A start handler that waited goes on only if it fails, or the session is
not being finalized. -/
def ResumeTimely (w : World) : Suspended → Prop
  | .launcher .. | .process _ => w.isFinalizing = false ∨ (w.launcher.bind (·.pid)).isNone
  | .connection _ | .attach .. => w.isFinalizing = false
  | .finalize _ => w.client.isConnected = false ∨ Quiet w

def LabelTimely (w : World) : Label → Prop
  | .request command arguments => RequestTimely w (w.nextRequest command arguments)
  | .serverDisconnect => w.serverConnected = true → Harmless w
  | .launcherDisconnect => w.isFinalizing = true ∨ w.client.isConnected = false ∨ Quiet w
  | .resume => ∀ stage ∈ w.suspended, ResumeTimely w stage
  | _ => True

/-- The condition on a step. -/
def Timely (w : World) (t : Turn) : Prop := LabelTimely { w with env := t.env } t.label

instance : Decidable (Last w) := inferInstanceAs (Decidable (List.Pairwise _ w.toClient))
instance : Decidable (Quiet w) := inferInstanceAs (Decidable (Awaiting w → w.outlet.spent = true))
instance : Decidable (Harmless w) := inferInstanceAs (Decidable (_ ∨ _ ∨ _ ∨ Quiet w))
instance : Decidable (Acts w) := inferInstanceAs (Decidable (_ ∧ _ ∧ _))

instance : Decidable (RequestTimely w r) :=
  decidable_of_iff (_ ∧ _ ∧ _ ∧ _) ⟨fun ⟨h₁, h₂, h₃, h₄⟩ => RequestTimely.mk h₁ h₂ h₃ h₄,
    fun ⟨h₁, h₂, h₃, h₄⟩ => ⟨h₁, h₂, h₃, h₄⟩⟩

instance : ∀ stage, Decidable (ResumeTimely w stage)
  | .launcher .. | .process _ =>
    inferInstanceAs (Decidable (w.isFinalizing = false ∨ (w.launcher.bind (·.pid)).isNone = true))
  | .connection _ | .attach .. => inferInstanceAs (Decidable (w.isFinalizing = false))
  | .finalize _ => inferInstanceAs (Decidable (w.client.isConnected = false ∨ Quiet w))

instance : ∀ label, Decidable (LabelTimely w label)
  | .request command arguments =>
    inferInstanceAs (Decidable (RequestTimely w (w.nextRequest command arguments)))
  | .serverDisconnect => inferInstanceAs (Decidable (w.serverConnected = true → Harmless w))
  | .launcherDisconnect =>
    inferInstanceAs (Decidable (w.isFinalizing = true ∨ w.client.isConnected = false ∨ Quiet w))
  | .resume => inferInstanceAs (Decidable (∀ stage ∈ w.suspended, ResumeTimely w stage))
  | .clientEvent .. | .clientDisconnect | .evaluated .. | .serverEvent .. | .launcherConnects
  | .launcherEvent .. | .clientLost .. | .register .. | .deregister _ => inferInstanceAs (Decidable True)

instance (w : World) (t : Turn) : Decidable (Timely w t) :=
  inferInstanceAs (Decidable (LabelTimely { w with env := t.env } t.label))


-- ---------------------------------------------------------------------------
-- Requests
-- ---------------------------------------------------------------------------

theorem acts_open (hs : Sound c w) (hc : c) (hidle : ∀ stage, w.suspended = some stage → stage.starts = none)
    (hf : w.isFinalizing = false) (h : Acts w) : Open w := by
  refine ⟨hf, fun ha => ?_, hidle⟩
  have hopen := (hs.2 hc).started ha
  rw [h.2.2] at hopen
  exact hopen.resolve_left (by simp)

theorem clientHandler_sound (hs : Sound c w)
    (hidle : ∀ stage, w.suspended = some stage → stage.starts = none) (ht : c → RequestTimely w r) :
    Sound c ((clientHandler r).run w).2 := by
  have hopen (hr : r.command = "launch" ∨ r.command = "attach") (hc : c) (h : Acts w) : Open w :=
    acts_open hs hc hidle ((ht hc).start hr h) h
  by_cases hlaunch : r.command = "launch"
  · have hrun : clientHandler r = startMessageHandler launchRequest r := by
      simp only [clientHandler, hlaunch]
    rw [hrun]
    exact startMessageHandler_sound hs (hopen (.inl hlaunch)) fun _ _ _ hs' ho => launchRequest_spec hs' ho
  by_cases hattach : r.command = "attach"
  · have hrun : clientHandler r = startMessageHandler attachRequest r := by
      simp only [clientHandler, hattach]
    rw [hrun]
    refine startMessageHandler_sound hs (hopen (.inr hattach)) fun {s w'} hr henv hacts hs' ho =>
      attachRequest_spec hs' ho fun hc hpid => ?_
    have hok := (ht hc).inject hattach hacts (hr ▸ hpid)
    rw [henv]
    cases hin : w.env.inject with
    | ok u => rfl
    | error e =>
      rw [hin] at hok
      cases hok
  by_cases hconf : r.command = "configurationDone"
  · have hrun : clientHandler r = configurationDoneRequest r := by simp only [clientHandler, hconf]
    rw [hrun]
    exact configurationDone_sound hs
  by_cases hterm : r.command = "terminate"
  · have hrun : clientHandler r = terminateRequest r := by simp only [clientHandler, hterm]
    rw [hrun]
    exact terminate_sound hs fun hc => (ht hc).terminate hterm
  by_cases hdisc : r.command = "disconnect"
  · have hrun : clientHandler r = disconnectRequest r := by simp only [clientHandler, hdisc]
    rw [hrun]
    exact disconnect_sound hs fun hc => (ht hc).disconnect hdisc
  exact keeps_sound (keeps_clientHandler ⟨hlaunch, hattach⟩ hconf ⟨hterm, hdisc⟩) hs

theorem handleRequest_sound (hs : Sound c w)
    (hidle : ∀ stage, w.suspended = some stage → stage.starts = none) (ht : c → RequestTimely w r) :
    Sound c ((handleRequest r).run w).2 := by
  unfold handleRequest
  split
  · exact hs
  · exact run_sound (clientHandler_sound hs hidle ht)

-- ---------------------------------------------------------------------------
-- The rest of a handler
-- ---------------------------------------------------------------------------

section
variable {s : Start}

theorem tail_sound {p : Code Unit}
    (h : Triple p w (fun _ w' => Tail c s.request w') fun _ w' => Sound c w') :
    Sound c ((s.request.run do
      p
      afterStart s).run w).2 :=
  run_sound (Proc.triple_state.mp (.bind h fun _ _ ht => Proc.triple_state.mpr (afterStart_sound ht)))

theorem stage_sound {p : Code Unit} (hk : Keeps (starting s.request) p) (hl : Lands p)
    (hs : Sound c w) (hq : c → Quiet w) (hidle : w.suspended = none)
    (hok : c → w.isFinalizing = false ∨ Triple p w (fun _ _ => False) fun _ _ => True) :
    Sound c ((s.request.run do
      Proc.tryFinally p closeLauncherListener
      afterStart s).run w).2 := by
  refine tail_sound ?_
  have hclose : Keeps (starting s.request) closeLauncherListener :=
    keeps_closeLauncherListener (ordinary_starting _)
  have hland := hl.tryFinally (keeps_closeLauncherListener ordinary_served) w
  refine .mono (.and (starting_triple (hk.tryFinally hclose) hs hq) (.and hland (?_ : Triple _ w
    (fun _ _ => c → w.isFinalizing = false) fun _ _ => True))) (fun _ w' h => ?_) fun _ _ h => h.1
  · by_cases hc : c
    · rcases hok hc with hf | hstop
      · exact .mono .any (fun _ _ _ _ => hf) fun _ _ h => h
      · exact .tryFinally hstop (fun _ _ h => h.elim) (fun _ _ _ => .any) (fun _ _ => trivial)
          fun _ _ => trivial
    · exact .mono .any (fun _ _ _ hc' => absurd hc' hc) fun _ _ h => h
  · refine Open.tail (fun hc => ⟨h.2.2 hc, hq hc, fun stage hst => ?_⟩) hs h.1 fun _ => .inr h.2.1
    rw [hidle] at hst
    cases hst

end

theorem resume_finalize_sound {rest : Code Result} (hs : Sound c w) (hf : w.isFinalizing = true)
    (ht : terminations w = 0) (hidle : w.suspended = none)
    (hq : c → w.client.isConnected = false ∨ Quiet w)
    (hrest : ∀ w', w'.responses = w.responses → Sound c w' → Sound c (rest.run w').2) :
    Sound c ((r.run do
      exitOnError endFinalize
      rest).run w).2 := by
  have hend : Sound c ((exitOnError endFinalize).run w).2 := by
    rw [exitOnError_state]
    refine endFinalize_sound hs hf ht (fun after h => ?_) hq
    rw [hidle] at h
    cases h
  have haside := aside_run (aside_exitOnError aside_endFinalize) w
  refine run_sound (Proc.triple_state.mp (.bind (.mono (.and (Proc.triple_state.mpr hend)
    (Proc.triple_state (P := Aside w).mpr haside)) (fun _ _ h => h) fun _ _ h => h.1) fun _ w' h => ?_))
  exact Proc.triple_state.mpr (hrest w' h.2.responses h.1)

theorem resume_sound {stage : Suspended} (hs : Sound c w) (hstage : w.suspended = some stage)
    (ht : c → ResumeTimely w stage) :
    Sound c ((resume stage).run { w with suspended := none }).2 := by
  let w₁ : World := { w with suspended := none }
  have hs₁ : Sound c w₁ := by
    refine ⟨⟨hs.1.named, hs.1.fresh, hs.1.once, nofun⟩, fun hc => ?_⟩
    exact ⟨(hs.2 hc).last, (hs.2 hc).settled, (hs.2 hc).started, nofun, nofun⟩
  have hq {s : Start} (hst : stage.starts = some s) (hc : c) : Quiet w₁ :=
    (hs.2 hc).starting stage s hstage hst
  cases stage with
  | launcher s asSudo =>
    refine stage_sound (keeps_startLauncher (ordinary_starting _) (answers_starting _ _).rejects
      (suspends_starting _) (attaches_of_calm id)) lands_startLauncher hs₁ (hq rfl) rfl fun hc => ?_
    exact (ht hc).imp id startLauncher_stops
  | process s =>
    refine stage_sound (keeps_awaitConnection (ordinary_starting _) (answers_starting _ _).rejects
      (suspends_starting _) (attaches_of_calm id)) lands_awaitConnection hs₁ (hq rfl) rfl fun hc => ?_
    exact (ht hc).imp id awaitConnection_stops
  | connection s =>
    exact stage_sound (keeps_attachSpawned (ordinary_starting _) (answers_starting _ _).rejects
      (attaches_of_calm id)) lands_attachSpawned hs₁ (hq rfl) rfl fun hc => .inl (ht hc)
  | attach s pid timeout subPid =>
    have ho (hc : c) : Open w₁ := ⟨ht hc, hq rfl hc, nofun⟩
    refine run_sound (Proc.triple_state.mp (.get_bind (.bind (attachConnection_spec hs₁ ho) ?_)))
    exact fun _ _ h => Proc.triple_state.mpr (afterStart_sound h)
  | finalize after =>
    obtain ⟨hf, hzero⟩ := hs.1.waiting after hstage
    have hrest {r : Request} {rest : Code Result}
        (h : ∀ w', w'.responses = w₁.responses → Sound c w' → Sound c (rest.run w').2) :
        Sound c ((r.run do
          exitOnError endFinalize
          rest).run w₁).2 :=
      resume_finalize_sound hs₁ hf hzero rfl ht h
    cases after with
    | nothing =>
      change Sound c ((exitOnError endFinalize).run w₁).2
      rw [exitOnError_state]
      exact endFinalize_sound hs₁ hf hzero nofun ht
    | disconnect r => exact hrest fun _ _ h => keeps_sound keeps_afterDisconnect h
    | terminate r => exact hrest fun _ _ h => h
    | responded r => exact hrest fun _ _ h => h
    | start s =>
      refine hrest fun w' hresp h => afterStart_sound ⟨h, fun hc => .inl ?_⟩
      rw [hresp]
      exact (hs.2 hc).responded s hstage

-- ---------------------------------------------------------------------------
-- Disconnects
-- ---------------------------------------------------------------------------

theorem clientDisconnect_sound (hs : Sound c w) : Sound c (Client.disconnect.run w).2 := by
  have hsame : Same w (w.withClient fun c => { c with isConnected := false }) :=
    ⟨rfl, rfl, rfl, rfl, rfl, rfl, rfl, rfl⟩
  exact finalize_sound (hsame.sound hs) (fun _ => .inr (.inl rfl)) fun _ _ => nofun

theorem launcherDisconnect_sound (hs : Sound c w)
    (ht : c → w.isFinalizing = true ∨ w.client.isConnected = false ∨ Quiet w) :
    Sound c (Launcher.disconnect.run w).2 := by
  let w₁ : World := { w with launcher := w.launcher.map ({ · with isConnected := false }) }
  have hsame : Same w w₁ := ⟨rfl, rfl, rfl, rfl, rfl, rfl, rfl, rfl⟩
  have hrun : Launcher.disconnect.run w = (finalize none .nothing).run w₁ := by
    rw [Launcher.disconnect, Proc.run_bind, Proc.run_modify]
  rw [hrun]
  refine finalize_sound (hsame.sound hs) (fun hc => ?_) fun _ _ => nofun
  rcases ht hc with h | h | h
  · exact .inl h
  · exact .inr (.inl h)
  · exact .inr (.inr (.inr (hsame.quiet h)))

theorem serverDisconnect_sound (hs : Sound c w) (ht : c → w.serverConnected = true → Harmless w) :
    Sound c (Server.disconnect.run w).2 := by
  rw [Server.disconnect, Proc.run_bind, Proc.run_get]
  dsimp only
  cases hserver : w.server with
  | none => exact hs
  | some server =>
    let w₁ : World := { w with connections := w.connections.filter (· != server.connection) }
    have hsame : Same w w₁ := ⟨rfl, rfl, rfl, rfl, rfl, rfl, rfl, rfl⟩
    dsimp only
    rw [Proc.run_bind, Proc.run_modify]
    dsimp only
    split
    · next hconn =>
      let w₂ : World := { w₁ with server := some { server with isConnected := false } }
      have hsame₂ : Same w w₂ := ⟨rfl, rfl, rfl, rfl, rfl, rfl, rfl, by simp [w₂, hserver]⟩
      refine finalize_sound (w := w₂) (hsame₂.sound hs) (fun hc => ?_) fun _ _ => nofun
      exact (ht hc (by simp [World.serverConnected, hserver, hconn])).imp id
        (.imp id (.imp id hsame₂.quiet))
    · exact hsame.sound hs

-- ---------------------------------------------------------------------------
-- Steps and runs
-- ---------------------------------------------------------------------------

theorem runHandler_sound {p : Code Unit} (h : Sound c (p.run w).2) : Sound c (w.runHandler p) := by
  unfold World.runHandler
  split
  · next heq => simpa [heq] using h
  · next heq => simpa [heq] using h
  · next w' _ heq =>
    rw [heq] at h
    have hsame : Same w' { w' with exited := true } := ⟨rfl, rfl, rfl, rfl, rfl, rfl, rfl, rfl⟩
    exact hsame.sound h

theorem idle_of_free (h : ¬ (w.clientBusy || !w.client.isConnected) = true) :
    ∀ stage, w.suspended = some stage → stage.starts = none := by
  intro stage hst
  simp only [World.clientBusy, hst] at h
  cases stage with
  | finalize => rfl
  | launcher | process | connection | attach => simp at h

theorem dispatch_sound {w w' : World} {label : Label} {p : Code Unit} (hs : Sound c w)
    (ht : c → LabelTimely w label) (h : dispatch w label = some (p, w')) : Sound c (p.run w').2 := by
  have hF := ordinary_calm
  have hreceive : Sound c w.receive :=
    (⟨rfl, rfl, rfl, rfl, rfl, rfl, rfl, rfl⟩ : Same w w.receive).sound hs
  cases label with
  | request command arguments =>
    simp only [dispatch] at h
    split at h
    · cases h
    next hfree =>
    cases h
    refine handleRequest_sound hreceive (idle_of_free hfree) fun hc => ?_
    obtain ⟨hstart, hinject, hterminate, hdisconnect⟩ := ht hc
    exact ⟨hstart, hinject, hterminate, hdisconnect⟩
  | clientEvent event body =>
    simp only [dispatch] at h
    split at h
    · cases h
    · cases h
      exact keeps_sound (keeps_eventRun hF (keeps_clientEvent hF trivial)) hreceive
  | clientDisconnect =>
    simp only [dispatch] at h
    split at h
    · cases h
    · cases h
      exact clientDisconnect_sound hs
  | evaluated n reply =>
    obtain ⟨r, -, heq⟩ := Option.map_eq_some_iff.mp h
    cases heq
    have hsame : Same w { w with evaluating := w.evaluating.eraseIdx n } :=
      ⟨rfl, rfl, rfl, rfl, rfl, rfl, rfl, rfl⟩
    exact keeps_sound (keeps_evaluated hF (answers_calm r)) (hsame.sound hs)
  | serverEvent event body =>
    simp only [dispatch] at h
    split at h
    · cases h
    · cases h
      exact keeps_sound (keeps_serverEvent _) hreceive
  | serverDisconnect =>
    simp only [dispatch] at h
    split at h
    · cases h
    · cases h
      exact serverDisconnect_sound hs ht
  | launcherConnects =>
    simp only [dispatch] at h
    split at h
    · cases h
    · cases h
      have hsame : Same w { w with launcher := some {} } := ⟨rfl, rfl, rfl, rfl, rfl, rfl, rfl, rfl⟩
      exact hsame.sound hs
  | launcherEvent event body =>
    simp only [dispatch] at h
    split at h
    · cases h
    · cases h
      exact keeps_sound (keeps_launcherEvent _) hreceive
  | launcherDisconnect =>
    simp only [dispatch] at h
    split at h
    · cases h
    · cases h
      exact launcherDisconnect_sound hs ht
  | resume =>
    obtain ⟨stage, hstage, hrun⟩ := Option.bind_eq_some_iff.mp h
    split at hrun
    · cases hrun
      exact resume_sound hs hstage fun hc => ht hc stage hstage
    · cases hrun
  | clientLost writes loss =>
    cases h
    have hlose : Calm w (w.lose writes loss) := by
      unfold World.lose
      split
      · next hleft =>
        refine { Calm.refl hs.1.named with spent := fun hspent => ?_ }
        rw [Option.isNone_iff_eq_none] at hleft
        simp [Outlet.spent, hleft] at hspent
      · exact .refl hs.1.named
    exact hlose.sound hs
  | register connection pid ppid =>
    obtain ⟨w₁, hreg, heq⟩ := Option.map_eq_some_iff.mp h
    cases heq
    unfold World.register at hreg
    split at hreg
    · cases hreg
    · cases hreg
      have hsame : Same w { setConn w connection { pid, ppid, isFirst := w.connections.isEmpty } with
          connections := w.connections ++ [connection] } := ⟨rfl, rfl, rfl, rfl, rfl, rfl, rfl, rfl⟩
      exact hsame.sound hs
  | deregister connection =>
    simp only [dispatch] at h
    split at h
    · cases h
    · cases h
      have hsame : Same w (w.deregister connection) := ⟨rfl, rfl, rfl, rfl, rfl, rfl, rfl, rfl⟩
      exact hsame.sound hs

theorem step_sound {t : Turn} (hs : Sound c w) (ht : c → Timely w t) (h : step w t = some w') :
    Sound c w' := by
  unfold step at h
  split at h
  · cases h
  · obtain ⟨⟨p, w₁⟩, hd, rfl⟩ := Option.map_eq_some_iff.mp h
    have hsame : Same w { w with env := t.env } := ⟨rfl, rfl, rfl, rfl, rfl, rfl, rfl, rfl⟩
    exact runHandler_sound (dispatch_sound (hsame.sound hs) ht hd)

theorem sound_fresh (h : w.Fresh) : Sound c w := by
  have hzero : terminations w = 0 := by
    rw [terminations, List.countP_eq_zero]
    intro m hm
    obtain ⟨event, body, rfl, rfl | rfl⟩ := h.sent m hm
    · simp [isNamed]
    · simp [isNamed]
  have hnot : ¬ Awaiting w := by
    rintro ⟨r, hr, -⟩
    rw [h.client] at hr
    cases hr
  have hsus (stage : Suspended) : w.suspended ≠ some stage := by simp [h.suspended]
  refine ⟨⟨fun es hes e he => ?_, fun _ => hzero, by omega, fun after ha => absurd ha (hsus _)⟩,
    fun _ => ⟨last_of_none hzero, fun _ => hnot, fun ha => absurd ha hnot,
      fun stage _ hst _ => absurd hst (hsus stage), fun s hst => absurd hst (hsus _)⟩⟩
  rw [h.client] at hes
  cases hes
  cases he

end

/-- In every run of a session `"terminated"` is sent at most once. If the
steps meet the condition, it is the last of the session's events. -/
theorem terminates_once_last (w₀ w : World) (ts : List Turn) (h₀ : w₀.Fresh)
    (h : Run.exec step w₀ ts = some w) :
    terminations w ≤ 1 ∧ (Run.Meets step Timely w₀ ts → Announced w) := by
  constructor
  · have hs : Sound False w :=
      Run.exec_invariant (I := Sound False)
        (fun hs (_ : True) hstep => step_sound hs False.elim hstep) (sound_fresh h₀) Run.meets_true h
    exact hs.1.once
  · intro hok
    have hs : Sound True w :=
      Run.exec_invariant (I := Sound True) (fun hs ht hstep => step_sound hs (fun _ => ht) hstep)
        (sound_fresh h₀) hok h
    exact ⟨hs.1.once, (hs.2 trivial).last, (hs.2 trivial).settled⟩

/-- A session that is attached to, configured and ended. -/
def session : List Turn :=
  [{ label := .register 0 1 none },
    { label := .request "initialize" (.dict []) },
    { label := .request "attach" (.dict []) },
    { label := .request "configurationDone" (.dict []) },
    { label := .request "terminate" (.dict []) },
    { label := .serverDisconnect },
    { label := .request "disconnect" (.dict []) }]

theorem terminates_session : ∃ w, Run.exec step {} session = some w ∧ terminations w = 1 ∧
    Run.Meets step Timely {} session ∧ Announced w := by
  have hrun : (Run.exec step {} session).map terminations = some 1 := by decide +kernel
  have hok : Run.Meets step Timely {} session := by decide +kernel
  obtain ⟨w, hw, hone⟩ := Option.map_eq_some_iff.mp hrun
  exact ⟨w, hw, hone, hok, (terminates_once_last {} w session fresh_default hw).2 hok⟩

/-- The debug server cannot be injected. -/
def uninjected : List Turn :=
  [{ label := .request "initialize" (.dict []) },
    { label := .request "attach" (.dict [("processId", .int 7)])
      env := { inject := .error (.valueError "") } }]

theorem uninjected_announced : ∃ w, Run.exec step {} uninjected = some w ∧ ¬ Last w ∧ Awaiting w := by
  have h : (Run.exec step {} uninjected).map (fun w => decide (¬ Last w ∧ Awaiting w)) = some true := by
    decide +kernel
  obtain ⟨w, hw, hd⟩ := Option.map_eq_some_iff.mp h
  exact ⟨w, hw, of_decide_eq_true hd⟩

theorem not_announced : ¬ ∀ (w₀ w : World) (ts : List Turn), w₀.Fresh →
    Run.exec step w₀ ts = some w → Announced w := by
  intro h
  obtain ⟨w, hw, hlast, -⟩ := uninjected_announced
  exact hlast (h {} w uninjected fresh_default hw).last

end Debugpy.Termination
