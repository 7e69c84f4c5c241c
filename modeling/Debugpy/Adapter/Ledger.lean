import Debugpy.Adapter.Frames

/-!
# Requests and responses

Over a whole run of a session: every response that is written belongs to one
request that was received, no request gets two, and none is forgotten. What is
left unanswered is a start request, an `"evaluate"` that the server has yet to
respond to, or a request whose handler waits for the launcher.
-/

namespace Debugpy.Ledger

open Adapter
open Proc (Keeps Frame Yields)

def receives (w : World) : Label → List Request
  | .request command arguments => [w.nextRequest command arguments]
  | _ => []

def requests : World → List Turn → List Request := Run.outputs step fun w t => receives w t.label

def bodyFor (id : Uid) : Sent → Option (Except Exn Json)
  | .response r b => if r.id = id then some b else none
  | _ => none

def written (w : World) (id : Uid) : List (Except Exn Json) := w.toClient.filterMap (bodyFor id)

def Received (rs : List Request) (r : Request) : Prop := ∃ r₀ ∈ rs, r₀.Like r

/-- The request that the handler has yet to conclude, which is no start
request that goes on. -/
def toConclude : After → Option Request
  | .disconnect r | .terminate r | .responded r => some r
  | .nothing | .start _ => none

def Evaluating (w : World) (id : Uid) : Prop := ∃ r ∈ w.evaluating, r.id = id

def Held (w : World) (id : Uid) : Prop :=
  ∃ after, w.suspended = some (.finalize after) ∧ ∃ r ∈ toConclude after, r.id = id

/-- What a session owes its client. -/
structure Balanced (rs : List Request) (w : World) : Prop where
  distinct : (rs.map Request.id).Nodup
  answered : ∀ r b, .response r b ∈ w.toClient → Received rs r
  once : ∀ id, (written w id).length ≤ 1
  settled : w.exited = false → w.outlet.spent = false → ∀ r ∈ rs, ¬ IsStart r.command →
    (∃ b, written w r.id = [b]) ∨ Evaluating w r.id ∨ Held w r.id

-- ---------------------------------------------------------------------------
-- Nothing but responses to requests
-- ---------------------------------------------------------------------------

/-- The part of the invariant that holds inside a step. -/
structure Sound (rs : List Request) (w : World) : Prop where
  old : ∀ r ∈ rs, r.id < w.received
  distinct : (rs.map Request.id).Nodup
  answered : ∀ r b, .response r b ∈ w.toClient → Received rs r
  recorded : ∀ id, written w id = (w.responses id).toList
  start : ∀ r ∈ w.client.startRequest, Received rs r
  evaluating : ∀ r ∈ w.evaluating, Received rs r
  suspended : ∀ stage ∈ w.suspended, ∀ r ∈ stage.request, Received rs r

variable {rs : List Request} {w w' : World} {r r' : Request}

theorem Received.like (h : Received rs r) (hr : r.Like r') : Received rs r' := by
  obtain ⟨r₀, hmem, hlike⟩ := h
  exact ⟨r₀, hmem, hlike.trans hr⟩

theorem Received.mono (h : Received rs r) (hrs : ∀ r ∈ rs, r ∈ rs') : Received rs' r := by
  obtain ⟨r₀, hmem, hlike⟩ := h
  exact ⟨r₀, hrs r₀ hmem, hlike⟩

theorem Sound.same (hi : Sound rs w) (hreceived : w'.received = w.received)
    (hclient : w'.toClient = w.toClient) (hresponses : w'.responses = w.responses)
    (hstart : ∀ r' ∈ w'.client.startRequest, Received rs r')
    (hevaluating : w'.evaluating = w.evaluating) (hsuspended : w'.suspended = w.suspended) :
    Sound rs w' where
  old := hreceived ▸ hi.old
  distinct := hi.distinct
  answered := hclient ▸ hi.answered
  recorded id := by rw [written, hclient, hresponses]; exact hi.recorded id
  start := hstart
  evaluating := hevaluating ▸ hi.evaluating
  suspended := hsuspended ▸ hi.suspended

theorem written_sent (hm : ∀ r b, m ≠ .response r b) (id : Uid) :
    written (w.sent m) id = written w id := by
  have hbody : bodyFor id m = none := by
    cases m with
    | response r b => exact absurd rfl (hm r b)
    | event | forwarded | request => rfl
  simp [written, List.filterMap_append, hbody]

theorem Sound.sent (hi : Sound rs w) (hm : ∀ r b, m ≠ .response r b) : Sound rs (w.sent m) := {
  hi with
  answered := fun r b hmem => by
    rcases List.mem_append.mp hmem with hmem | hmem
    · exact hi.answered r b hmem
    · exact absurd (List.mem_singleton.mp hmem).symm (hm r b)
  recorded := fun id => (written_sent hm id).trans (hi.recorded id) }

theorem Sound.respond (hi : Sound rs w) (hr : Received rs r) (hnone : w.responses r.id = none) :
    Sound rs ((w.sent (.response r b)).respond r b) := {
  hi with
  answered := fun r' b' hmem => by
    rcases List.mem_append.mp hmem with hmem | hmem
    · exact hi.answered r' b' hmem
    · cases List.mem_singleton.mp hmem
      exact hr
  recorded := fun id => by
    have hold := hi.recorded id
    by_cases hid : id = r.id
    · subst hid
      rw [written] at hold
      simp [written, List.filterMap_append, hold, hnone, bodyFor]
    · rw [written] at hold
      simp [written, List.filterMap_append, hold, bodyFor, Ne.symm hid, hid] }

theorem Sound.suspend {stage : Suspended} (hi : Sound rs w) (h : ∀ r ∈ stage.request, Received rs r) :
    Sound rs { w with suspended := some stage } := {
  hi with
  suspended := fun stage' hs => by
    cases hs
    exact h }

theorem sound_core (hi : Sound rs w) (h : w'.core = w.core) : Sound rs w' := by
  have hc : w'.client.core = w.client.core := congrArg Core.client h
  have hstart : w'.client.startRequest = w.client.startRequest := by
    simpa [Client.core] using congrArg Client.startRequest hc
  exact hi.same (congrArg Core.received h) (congrArg Core.toClient h) (congrArg Core.responses h)
    (hstart ▸ hi.start) (congrArg Core.evaluating h) (congrArg Core.suspended h)

theorem Sound.share (hi : Sound rs w) (connect : Property) :
    Sound rs (w.withClient (·.shareConnect connect)) := by
  obtain ⟨start, heq, hlike⟩ := shareConnect_start w.client connect
  refine hi.same rfl rfl rfl (fun r' hr' => ?_) rfl rfl
  change r' ∈ (w.client.shareConnect connect).startRequest at hr'
  rw [heq] at hr'
  obtain ⟨r, hr, hlike⟩ := hlike r' hr'
  exact (hi.start r hr).like hlike

theorem allows_sound (rs : List Request) :
    Allows (.preserving (Sound rs)) (Received rs) where
  other h hi := sound_core hi h
  event _ _ _ _ _ hi := hi.sent nofun
  request _ _ _ hi := hi.sent nofun
  asked _ _ _ _ hi := hi.same rfl rfl rfl hi.start rfl rfl
  attach _ _ _ hi := hi.same rfl rfl rfl hi.start rfl rfl
  share _ connect hi := hi.share connect
  like := Received.like
  answers _ hr _ _ _ hlike hnone hi := hi.respond (hr.like hlike) hnone
  answersStart _ _ _ hstart hnone hi := hi.respond (hi.start _ hstart) hnone
  suspends r hr w stage s hs _ hlike hi := hi.suspend fun r' hr' => by
    cases stage <;> cases hs <;> cases hr' <;> exact hr.like hlike
  begins _ hi := hi.same rfl rfl rfl hi.start rfl rfl
  waits _ _ h hi := hi.suspend h
  terminated _ _ hi := hi.sent nofun
  initialized _ _ hi := hi.sent nofun
  forwarded _ _ _ hi := hi.sent nofun
  arrives _ _ hi := hi.same rfl rfl rfl hi.start rfl rfl
  defers _ _ hi := hi.same rfl rfl rfl hi.start rfl rfl
  forgets _ hi := hi.same rfl rfl rfl hi.start rfl rfl
  start _ _ _ hr _ hi := hi.same rfl rfl rfl (fun _ h => Option.some.inj h ▸ hr) rfl rfl
  started _ hi := hi.same rfl rfl rfl hi.start rfl rfl
  latest _ _ _ hi := hi.same rfl rfl rfl hi.start rfl rfl
  noDebug _ _ hi := hi.same rfl rfl rfl hi.start rfl rfl
  evaluates _ r hr hi := {
    hi with
    evaluating := fun r' hr' => by
      rcases List.mem_append.mp hr' with hr' | hr'
      · exact hi.evaluating r' hr'
      · exact List.mem_singleton.mp hr' ▸ hr }
  outlet _ _ hi := hi.same rfl rfl rfl hi.start rfl rfl
  disconnects _ hi := hi.same rfl rfl rfl hi.start rfl rfl
  launcher _ _ hi := hi.same rfl rfl rfl hi.start rfl rfl
  server _ _ _ hi := hi.same rfl rfl rfl hi.start rfl rfl

-- ---------------------------------------------------------------------------
-- No request forgotten
-- ---------------------------------------------------------------------------

def Done (w : World) (id : Uid) : Prop := w.outlet.spent = true ∨ (w.responses id).isSome = true

/-- What no code undoes. -/
structure Onward (w w' : World) : Prop where
  done : ∀ id, Done w id → Done w' id
  evaluating : ∀ r ∈ w.evaluating, r ∈ w'.evaluating
  finalizing : w.isFinalizing = true → w'.isFinalizing = true

theorem Onward.refl (w : World) : Onward w w := ⟨fun _ => id, fun _ => id, id⟩

theorem Onward.trans (h : Onward w w') (h' : Onward w' w'') : Onward w w'' :=
  ⟨fun id hd => h'.done id (h.done id hd), fun r hr => h'.evaluating r (h.evaluating r hr),
    fun hf => h'.finalizing (h.finalizing hf)⟩

/-- Code that does not wait itself leaves alone what handler waits. -/
def onward : Frame World where
  rel w w' := Onward w w' ∧ w'.suspended = w.suspended
  refl w := ⟨.refl w, rfl⟩
  trans h h' := ⟨h.1.trans h'.1, h'.2.trans h.2⟩
  left := Onward
  left_trans h h' := h.1.trans h'

/-- The code waits, if it does, in such a state. -/
def waiting (P : World → Prop) : Frame World where
  rel _ _ := True
  refl _ := trivial
  trans _ _ := trivial
  left _ w' := P w'
  left_trans _ h := h

theorem Onward.same (ho : w.outlet.spent = true → w'.outlet.spent = true)
    (hr : w'.responses = w.responses) (he : ∀ r ∈ w.evaluating, r ∈ w'.evaluating)
    (hf : w.isFinalizing = true → w'.isFinalizing = true) : Onward w w' where
  done id hd := hd.imp ho fun h => by rwa [hr]
  evaluating := he
  finalizing := hf

theorem onward_sent (w : World) (m : Sent) : Onward w (w.sent m) :=
  .same (Outlet.spent_after 1) rfl (fun _ => id) id

theorem onward_respond (w : World) (r : Request) (b : Except Exn Json) :
    Onward w ((w.sent (.response r b)).respond r b) where
  done id hd := by
    refine hd.imp (Outlet.spent_after 1) fun h => ?_
    by_cases hid : id = r.id
    · simp [hid]
    · simpa [hid] using h
  evaluating _ := id
  finalizing := id

theorem onward_core (h : w'.core = w.core) : Onward w w' ∧ w'.suspended = w.suspended := by
  have ho : w'.outlet = w.outlet := congrArg Core.outlet h
  have he : w'.evaluating = w.evaluating := congrArg Core.evaluating h
  have hf : w'.isFinalizing = w.isFinalizing := congrArg Core.isFinalizing h
  exact ⟨.same (by rw [ho]; exact id) (congrArg Core.responses h) (by rw [he]; exact fun _ => id)
    (by rw [hf]; exact id), congrArg Core.suspended h⟩

theorem onward_client (w : World) (f : Client → Client) : onward.rel w (w.withClient f) :=
  ⟨.same id rfl (fun _ => id) id, rfl⟩

theorem permits_onward : Permits onward fun _ => True where
  other h := onward_core h
  event w _ _ _ _ := ⟨onward_sent w _, rfl⟩
  request w _ _ := ⟨onward_sent w _, rfl⟩
  asked _ _ _ _ := ⟨.same id rfl (fun _ => id) id, rfl⟩
  attach _ _ _ := ⟨.same id rfl (fun _ => id) id, rfl⟩
  share w _ := onward_client w _
  like _ _ := trivial
  answers _ _ w r' b _ _ := ⟨onward_respond w r' b, rfl⟩
  answersStart w start b _ _ := ⟨onward_respond w start b, rfl⟩
  suspends _ _ _ _ _ _ _ _ := .same id rfl (fun _ => id) id
  begins _ := ⟨.same id rfl (fun _ => id) fun _ => rfl, rfl⟩
  waits _ _ _ := .same id rfl (fun _ => id) id
  terminated w _ := ⟨onward_sent w _, rfl⟩
  initialized w _ := ⟨onward_sent w _, rfl⟩
  forwarded w _ _ := ⟨onward_sent w _, rfl⟩
  arrives _ _ := ⟨.same id rfl (fun _ => id) id, rfl⟩
  defers w _ := onward_client w _
  forgets w := onward_client w _
  start w _ _ _ _ := onward_client w _
  started w := onward_client w _
  latest _ _ _ := ⟨.same id rfl (fun _ => id) id, rfl⟩
  noDebug _ _ := ⟨.same id rfl (fun _ => id) id, rfl⟩
  evaluates _ _ _ := ⟨.same id rfl (fun _ hr => List.mem_append_left _ hr) id, rfl⟩
  closes _ := ⟨.same (fun _ => rfl) rfl (fun _ => id) id, rfl⟩
  loses w writes loss := by
    unfold World.lose
    split
    · next h =>
      have hnone : w.outlet.left = none := Option.isNone_iff_eq_none.mp h
      exact ⟨.same (fun hs => by simp [Outlet.spent, hnone] at hs) rfl (fun _ => id) id, rfl⟩
    · exact onward.refl w
  disconnects w := onward_client w _
  launcher _ _ := ⟨.same id rfl (fun _ => id) id, rfl⟩
  server _ _ _ := ⟨.same id rfl (fun _ => id) id, rfl⟩

theorem ordinary_waiting (P : World → Prop) : Ordinary (waiting P) fun _ => True :=
  ⟨fun _ => trivial, fun _ _ _ _ _ => trivial, fun _ _ _ => trivial, fun _ _ _ _ => trivial,
    fun _ _ => trivial⟩

theorem answers_waiting (P : World → Prop) (r : Request) : Answers (waiting P) r :=
  fun _ _ _ _ _ => trivial

theorem waits_blocked {P : World → Prop} {p : Code α} (h : Keeps (waiting P) p)
    (hrun : p.run w = (.error .blocked, w')) : P w' := by
  have hs := h w
  rw [hrun] at hs
  exact hs

theorem keeps_waiting {P : World → Prop} {p : Code α}
    (h : ∀ w w', p.run w = (.error .blocked, w') → P w') : Keeps (waiting P) p := by
  intro w
  unfold Frame.holds
  split
  · next hb => exact h w _ (Prod.ext hb rfl)
  · trivial

theorem finalize_blocked (h : (finalize terminateDebuggee after).run w = (.error .blocked, w')) :
    w.isFinalizing = false ∧ w'.isFinalizing = true ∧ w'.suspended = some (.finalize after) := by
  have hbegin (b : Bool) (w : World) : ∃ w₁, (exitOnError (beginFinalize b)).run w = (.ok (), w₁) ∧
      w₁.isFinalizing = w.isFinalizing := by
    have hdetach (w : World) : w.detach.isFinalizing = w.isFinalizing := by
      unfold World.detach
      split <;> rfl
    rw [exitOnError, Proc.run_tryExcept]
    simp only [beginFinalize, Proc.run_bind, Proc.run_get, Proc.run_when_modify, Proc.run_modify]
    refine ⟨_, rfl, (hdetach _).trans ?_⟩
    split <;> rfl
  rw [finalize, Proc.run_bind, Proc.run_get] at h
  dsimp only at h
  split at h
  · cases h
  · next hnot =>
    obtain ⟨w₁, hrun, hfin⟩ := hbegin (terminateDebuggee.getD w.launcher.isSome)
      { w with isFinalizing := true }
    rw [Proc.run_bind, Proc.run_modify] at h
    dsimp only at h
    rw [Proc.run_bind, hrun] at h
    dsimp only at h
    split at h
    · cases h
      exact ⟨by simpa using hnot, hfin, rfl⟩
    · cases exitOnError_stops prompt_endFinalize h

def HeldBy (r : Request) (w : World) : Prop :=
  w.isFinalizing = true ∧ ∃ after, w.suspended = some (.finalize after) ∧ toConclude after = some r

theorem keeps_finalize_held {after : After} (h : toConclude after = some r) :
    Keeps (waiting (HeldBy r)) (finalize terminateDebuggee after) :=
  keeps_waiting fun _ _ hrun =>
    ⟨(finalize_blocked hrun).2.1, after, (finalize_blocked hrun).2.2, h⟩

theorem waiting_propagateAfterStart (P : World → Prop) (e : Event) :
    Keeps (waiting P) (propagateAfterStart e) := by
  refine .bind (.modify fun _ => trivial) fun _ => .bind .get fun w => ?_
  split
  · exact .modify fun _ => trivial
  · exact keeps_write fun _ => trivial

theorem waiting_deferredEvents (P : World → Prop) : Keeps (waiting P) propagateDeferredEvents := by
  have hall (es : List Event) : Keeps (waiting P) (forwardAll es) := by
    induction es with
    | nil => exact .pure
    | cons e es ih => exact .bind (keeps_write fun _ => trivial) fun _ => ih
  refine .bind .get fun w => ?_
  split
  · exact .bind (hall _) fun _ => .modify fun _ => trivial
  · exact .raise

theorem clientHandler_held (hs : ¬ IsStart r.command) : Keeps (waiting (HeldBy r)) (clientHandler r) := by
  have hO : Ordinary (waiting (HeldBy r)) fun _ => True := ordinary_waiting _
  have hanswers : Answers (waiting (HeldBy r)) r := answers_waiting _ r
  unfold clientHandler
  split
  · exact keeps_initializeRequest hO hanswers.rejects fun _ _ _ => trivial
  · next h => exact absurd (.inl h) hs
  · next h => exact absurd (.inr h) hs
  · have hstart : AnswersStart (waiting (HeldBy r)) := fun _ _ _ _ _ => trivial
    refine keeps_configurationDone hO hanswers (keeps_settleConfiguration hO hanswers trivial
      (fun _ => trivial) ?_ (fun _ => keeps_failStart hO hstart)
      (keeps_settleStart hstart (waiting_deferredEvents _)))
    refine .bind (keeps_respond fun _ _ => trivial) fun _ =>
      .bind (keeps_withStartRequest fun w start h => ?_) fun _ =>
      .bind (keeps_finalize_held rfl) fun _ => .pure
    exact holds_respond fun _ => trivial
  · exact keeps_evaluateRequest hO hanswers trivial fun _ => trivial
  · exact keeps_pauseRequest hO trivial
  · exact keeps_continueRequest hO trivial
  · exact keeps_systemInfoRequest hO trivial
  · exact .bind (keeps_modifyClient hO fun _ => rfl) fun _ => .bind .get fun _ =>
      keeps_ite (fun _ => .bind (keeps_delegate hO trivial) fun _ => .pure) fun _ =>
      .bind (keeps_finalize_held rfl) fun _ => .pure
  · exact .bind (keeps_modifyClient hO fun _ => rfl) fun _ =>
      .bind (keeps_call hO hanswers.rejects) fun _ => .bind (keeps_finalize_held rfl) fun _ =>
      keeps_afterDisconnect hO hanswers fun _ => trivial
  · exact keeps_genericRequest hO trivial

-- ---------------------------------------------------------------------------
-- How a handler concludes
-- ---------------------------------------------------------------------------

theorem tryRespond_done (hr : w.responses r.id = none) :
    Proc.Triple (r.tryRespond b) w (fun _ w' => Done w' r.id) fun _ _ => True := by
  cases hs : w.outlet.spent with
  | false => exact .of_ok (tryRespond_ok hr hs) (.inr (by simp))
  | true =>
    rcases tryRespond_spent hr hs with h | ⟨e, h⟩
    · exact .of_ok h (.inl hs)
    · exact .of_error h trivial

theorem conclude_done {P : World → Prop} (h : result = .noResponse → P w) :
    Proc.Triple (r.conclude result) w (fun _ w' => P w' ∨ Done w' r.id) fun _ _ => True := by
  refine .get_bind ?_
  split
  · exact .pure (.inl (h rfl))
  · next hb => exact .pure (.inr (.inr (by simp [hb])))
  · next hb =>
    split
    · exact .pure (.inr (.inr (by simp [hb])))
    · exact .raise trivial
  · next hb => exact (tryRespond_done hb).mono (fun _ _ => .inr) fun _ _ h => h
  · next hb => exact (tryRespond_done hb).mono (fun _ _ => .inr) fun _ _ h => h
  · exact .raise trivial

theorem run_concludes {P : World → Prop} {f : Code Result}
    (hf : Proc.Triple f w (fun result w' => result = .noResponse → P w') fun _ _ => True) :
    Proc.Triple (r.run f) w (fun _ w' => P w' ∨ Done w' r.id) fun _ _ => True := by
  have hhandler : Proc.Triple (messageHandler (.received r.id) r.cantHandle f) w
      (fun result w' => result = .noResponse → P w') fun _ _ => True := by
    refine hf.tryExcept (fun e w' _ => ?_) (fun _ _ => trivial) fun _ _ => trivial
    split
    · next c hc =>
      split at hc <;> cases hc
      · exact .bind .any fun _ _ _ => .raise trivial
      · split
        · exact .raise trivial
        · exact .bind .any fun _ _ _ => .raise trivial
      · exact .bind .any fun _ _ _ => .raise trivial
      · exact .bind .any fun _ _ _ => .raise trivial
    · trivial
  refine .bind (hhandler.tryExcept (fun e w' _ => ?_) (fun _ _ => trivial) fun _ _ => trivial)
    fun _ _ => conclude_done
  split
  · next c hc =>
    split at hc
    · split at hc <;> cases hc
      exact .pure fun h => by cases h
    · cases hc
  · trivial

theorem clientHandler_responds (hs : ¬ IsStart r.command) (he : r.command ≠ "evaluate") :
    Yields (clientHandler r) (· ≠ .noResponse) := by
  unfold clientHandler
  split
  · refine .bind (.any _) fun _ _ => ?_
    split
    · exact .bind (.any _) fun _ _ => .raise
    · exact .bind (.any _) fun _ _ => .bind (.any _) fun _ _ => .bind (.any _) fun _ _ =>
        .bind (.any _) fun _ _ => .bind (.any _) fun _ _ => .bind (.any _) fun _ _ =>
        .bind (.any _) fun _ _ => .pure fun h => by cases h
  · next h => exact absurd (.inl h) hs
  · next h => exact absurd (.inr h) hs
  · refine .bind (.any _) fun _ _ => .bind (.any _) fun _ _ => .bind (.any _) fun b _ => ?_
    split
    · exact .pure fun h => by cases h
    · exact .bind (.any _) fun _ _ => .bind (.any _) fun _ _ => .pure fun h => by cases h
  · next h => exact absurd h he
  · exact .bind (.any _) fun _ _ => .bind (.any _) fun _ _ => .pure fun h => by cases h
  · refine .bind (.any _) fun _ _ => .tryExcept (.bind (.any _) fun _ _ => .pure fun h => by cases h)
      fun e c hc => ?_
    split at hc <;> cases hc
    exact .pure fun h => by cases h
  · refine .bind (.any _) fun _ _ => ?_
    split
    · exact .pure fun h => by cases h
    · refine .bind (.any _) fun info _ => ?_
      split
      · exact .pure fun h => by cases h
      · exact .bind (.any _) fun _ _ => .pure fun h => by cases h
  · refine .bind (.any _) fun _ _ => .bind (.any _) fun _ _ => ?_
    split
    · exact .bind (.any _) fun _ _ => .pure fun h => by cases h
    · exact .bind (.any _) fun _ _ => .pure fun h => by cases h
  · exact .bind (.any _) fun _ _ => .bind (.any _) fun _ _ => .bind (.any _) fun _ _ =>
      .bind (.any _) fun _ _ => .bind (.any _) fun _ _ => .bind (.any _) fun _ _ =>
      .bind (.any _) fun _ _ => .pure fun h => by cases h
  · exact .bind (.any _) fun _ _ => .pure fun h => by cases h

theorem evaluated_done :
    Proc.Triple (evaluated r reply) w (fun _ w' => Done w' r.id) fun e _ => e ≠ .blocked := by
  refine .get_bind (.bind (Q := fun _ _ => True) ?_ fun body w' _ => ?_)
  · cases reply with
    | success | lost | broken => exact .pure trivial
    | failure =>
      exact .bind (Q := fun _ _ => True) (.of_ok (run_newUid _) trivial) fun _ _ _ =>
        .bind (Q := fun _ _ => True) (.of_ok (run_newUid _) trivial) fun _ _ _ => .pure trivial
  · cases hr : w'.responses r.id with
    | some b => exact .of_error (respond_again (by simp [hr])) nofun
    | none =>
      cases hs : w'.outlet.spent with
      | true => exact .of_error (respond_spent hr hs) nofun
      | false => exact .of_ok (respond_ok hr hs) (.inr (by simp))

theorem evaluateRequest_kept : Proc.Triple (evaluateRequest r) w
    (fun result w' => result = .noResponse → Evaluating w' r.id ∨ Done w' r.id) fun _ _ => True := by
  refine .get_bind ?_
  split
  · exact .raise trivial
  split
  · exact .raise trivial
  · exact .raise trivial
  · refine .modify_bind ?_
    split
    · exact .modify_bind (.pure fun _ => .inl ⟨r, by simp, rfl⟩)
    · next reply _ =>
      refine .bind (evaluated_done.tryExcept (fun _ _ _ => ?_) (fun _ _ => trivial) fun _ _ => trivial)
        fun _ _ hd => .pure fun _ => .inr hd
      exact .of_error (Proc.run_exit _) trivial

theorem handleRequest_settles (hs : ¬ IsStart r.command) :
    Proc.Triple (handleRequest r) w
      (fun _ w' => (Evaluating w' r.id ∨ Done w' r.id) ∨ Done w' r.id) fun _ _ => True := by
  unfold handleRequest
  split
  · exact .raise trivial
  · refine run_concludes ?_
    by_cases he : r.command = "evaluate"
    · have hhandler : clientHandler r = evaluateRequest r := by simp [clientHandler, he]
      rw [hhandler]
      exact evaluateRequest_kept
    · exact (clientHandler_responds hs he).triple.mono (fun _ _ hne heq => absurd heq hne)
        fun _ _ h => h

theorem handleRequest_held (hs : ¬ IsStart r.command) : Keeps (waiting (HeldBy r)) (handleRequest r) :=
  keeps_ite (fun _ => .raise) fun _ =>
    keeps_run (ordinary_waiting _) (answers_waiting _ r) (clientHandler_held hs)

theorem resume_settles {after : After} (h : toConclude after = some r) :
    Proc.Triple (resume (.finalize after)) w (fun _ w' => Done w' r.id) fun e _ => e ≠ .blocked := by
  have hO : Ordinary (waiting fun _ => False) fun _ => True := ordinary_waiting _
  have hend : Keeps (waiting fun _ => False) (exitOnError endFinalize) :=
    keeps_exitOnError (keeps_endFinalize hO fun _ _ => trivial)
  have hrun {f : Code Result} (hf : Keeps (waiting fun _ => False) f)
      (hyields : Yields f (· ≠ .noResponse)) :
      Proc.Triple (r.run f) w (fun _ w' => Done w' r.id) fun e _ => e ≠ .blocked := by
    have hdone : Proc.Triple (r.run f) w (fun _ w' => False ∨ Done w' r.id) fun _ _ => True :=
      run_concludes (hyields.triple.mono (fun _ _ hne heq => absurd heq hne) fun _ _ h => h)
    have hkeeps := keeps_run hO (answers_waiting _ r) hf
    unfold Proc.Triple at hdone ⊢
    split at hdone
    · exact hdone.resolve_left id
    · next heq =>
      rintro rfl
      exact waits_blocked hkeeps heq
  cases after with
  | nothing | start => cases h
  | disconnect r' =>
    cases h
    exact hrun (.bind hend fun _ => keeps_afterDisconnect hO (answers_waiting _ r) fun _ => trivial)
      (.bind (.any _) fun _ _ => .bind (.any _) fun _ _ => .bind (.any _) fun _ _ =>
        .bind (.any _) fun _ _ => .bind (.any _) fun _ _ => .pure fun h => by cases h)
  | terminate r' =>
    cases h
    exact hrun (.bind hend fun _ => .pure) (.bind (.any _) fun _ _ => .pure fun h => by cases h)
  | responded r' =>
    cases h
    exact hrun (.bind hend fun _ => .pure) (.bind (.any _) fun _ _ => .pure fun h => by cases h)

-- ---------------------------------------------------------------------------
-- Steps and runs
-- ---------------------------------------------------------------------------

def Accounted (w : World) (id : Uid) : Prop :=
  Done w id ∨ Evaluating w id ∨ w.isFinalizing = true ∧ Held w id

structure Inv (rs : List Request) (w : World) : Prop extends Sound rs w where
  accounted : w.exited = false → ∀ r ∈ rs, ¬ IsStart r.command → Accounted w r.id

/-- The client's handler that waits, if any, does not wait in `finalize`. -/
def Loose (w : World) : Prop := ∀ id, ¬ Held w id

variable {n : Uid}

theorem Onward.evaluates (h : Onward w w') (he : Evaluating w n) : Evaluating w' n := by
  obtain ⟨r, hr, hid⟩ := he
  exact ⟨r, h.evaluating r hr, hid⟩

theorem Onward.accounted (h : Onward w w') (hs : w'.suspended = w.suspended) (ha : Accounted w n) :
    Accounted w' n := by
  refine ha.imp (h.done n) (.imp h.evaluates ?_)
  rintro ⟨hf, after, hafter, hr⟩
  exact ⟨h.finalizing hf, after, hs.trans hafter, hr⟩

theorem Onward.accounted_loose (h : Onward w w') (hno : w.isFinalizing = true → ¬ Held w n)
    (ha : Accounted w n) : Accounted w' n :=
  ha.imp (h.done n) fun ha => .inl <| h.evaluates <| ha.resolve_right fun hheld => hno hheld.1 hheld.2

theorem HeldBy.accounted (h : HeldBy r w) : Accounted w r.id := by
  obtain ⟨hf, after, hafter, hr⟩ := h
  exact .inr (.inr ⟨hf, after, hafter, r, hr, rfl⟩)

theorem loose_of_free (h : w.clientBusy = false) : Loose w := by
  rintro id ⟨after, hs, r, hr, -⟩
  cases after with
  | nothing | start => cases hr
  | disconnect | terminate | responded => simp [World.clientBusy, hs] at h

theorem launcherDisconnect_blocked (h : Launcher.disconnect.run w = (.error .blocked, w')) :
    w.isFinalizing = false := by
  rw [Launcher.disconnect, Proc.run_bind, Proc.run_modify] at h
  exact (finalize_blocked h).1

theorem serverDisconnect_blocked (h : Server.disconnect.run w = (.error .blocked, w')) :
    w.isFinalizing = false := by
  rw [Server.disconnect, Proc.run_bind, Proc.run_get] at h
  dsimp only at h
  split at h
  · cases h
  · rw [Proc.run_bind, Proc.run_modify] at h
    dsimp only at h
    split at h
    · rw [Proc.run_bind, Proc.run_modify] at h
      exact (finalize_blocked h).1
    · cases h

def Leaves (p : Code Unit) (w w' : World) : Prop :=
  p.run w = (.ok (), w') ∨ p.run w = (.error .blocked, w')

theorem runHandler_cases (p : Code Unit) (w : World) :
    Leaves p w (w.runHandler p) ∨ ∃ w', (p.run w).2 = w' ∧ w.runHandler p = { w' with exited := true } := by
  unfold World.runHandler
  split
  · next h => exact .inl (.inl h)
  · next h => exact .inl (.inr h)
  · next h => exact .inr ⟨_, by rw [h], rfl⟩

theorem Leaves.moves {p : Code Unit} (h : Leaves p w w') (hk : Keeps onward p) : Onward w w' := by
  have hs := hk w
  rcases h with h | h
  · rw [h] at hs
    exact hs.1
  · rw [h] at hs
    exact hs

theorem Leaves.accounted {p : Code Unit} (h : Leaves p w w') (hk : Keeps onward p)
    (hno : Keeps (waiting fun _ => False) p) (ha : Accounted w n) : Accounted w' n := by
  have hs := hk w
  rcases h with h | h
  · rw [h] at hs
    exact hs.1.accounted hs.2 ha
  · exact (waits_blocked hno h).elim

theorem eraseIdx_evaluating {k : Nat} (hk : w.evaluating[k]? = some r) (he : Evaluating w n) :
    r.id = n ∨ Evaluating { w with evaluating := w.evaluating.eraseIdx k } n := by
  obtain ⟨r', hr', hid⟩ := he
  obtain ⟨i, hi⟩ := List.mem_iff_getElem?.mp hr'
  by_cases hin : i = k
  · subst hin
    exact .inl (Option.some.inj (hk.symm.trans hi) ▸ hid)
  · exact .inr ⟨r', List.mem_eraseIdx_iff_getElem?.mpr ⟨i, hin, hi⟩, hid⟩

theorem permits_anyDispatch {label : Label} {p : Code Unit} (h : dispatch w label = some (p, w')) :
    Keeps onward p :=
  permits_onward.anyDispatch (fun w _ => onward_client w _) (fun w f _ => onward_client w f)
    (fun _ _ _ => trivial) (fun r _ => permits_onward.answers r trivial) (fun _ _ _ _ _ => trivial) h

/-- What a step does for the requests received before it. -/
theorem dispatch_accounted {label : Label} {p : Code Unit} (h : dispatch w label = some (p, w₁))
    (hl : Leaves p w₁ w') (ha : Accounted w n) : Accounted w' n := by
  have hk : Keeps onward p := permits_anyDispatch h
  have hO : Ordinary (waiting fun _ => False) fun _ => True := ordinary_waiting _
  have hfree {w₀ : World} (hbusy : ¬ (w₀.clientBusy || !w₀.client.isConnected) = true) :
      ∀ n, ¬ Held w₀ n := by
    simp only [Bool.or_eq_true, not_or, Bool.not_eq_true] at hbusy
    exact loose_of_free hbusy.1
  cases label with
  | request command arguments =>
    simp only [dispatch] at h
    split at h
    · cases h
    next hbusy =>
    cases h
    exact (hl.moves hk).accounted_loose (fun _ => hfree hbusy n) ha
  | clientDisconnect =>
    simp only [dispatch] at h
    split at h
    · cases h
    next hbusy =>
    cases h
    exact (hl.moves hk).accounted_loose (fun _ => hfree hbusy n) ha
  | clientEvent event body =>
    simp only [dispatch] at h
    split at h <;> cases h
    exact hl.accounted hk (keeps_eventRun hO (keeps_clientEvent hO trivial)) ha
  | evaluated k reply =>
    obtain ⟨r, hr, heq⟩ := Option.map_eq_some_iff.mp h
    cases heq
    have hdone : Proc.Triple (evaluated r reply) { w with evaluating := w.evaluating.eraseIdx k }
        (fun _ w' => Done w' r.id) fun e _ => e ≠ .blocked := evaluated_done
    have hno : Keeps (waiting fun _ => False) (evaluated r reply) :=
      keeps_evaluated hO (answers_waiting _ r)
    rcases hl with hrun | hrun
    · unfold Proc.Triple at hdone
      rw [hrun] at hdone
      have hs := hk { w with evaluating := w.evaluating.eraseIdx k }
      rw [hrun] at hs
      rcases ha with ha | ha | ha
      · exact .inl (hs.1.done n ha)
      · rcases eraseIdx_evaluating hr ha with rfl | ha
        · exact .inl hdone
        · exact .inr (.inl (hs.1.evaluates ha))
      · exact hs.1.accounted hs.2 (.inr (.inr ha))
    · exact (waits_blocked hno hrun).elim
  | serverEvent event body =>
    simp only [dispatch] at h
    split at h <;> cases h
    refine hl.accounted hk (keeps_eventRun hO (keeps_serverHandler hO fun _ _ => ?_)) ha
    exact waiting_propagateAfterStart _ _
  | serverDisconnect =>
    simp only [dispatch] at h
    split at h <;> cases h
    rcases hl with hrun | hrun
    · have hs := hk w
      rw [hrun] at hs
      exact hs.1.accounted hs.2 ha
    · refine (Leaves.moves (.inr hrun) hk).accounted_loose (fun hf => ?_) ha
      simp [serverDisconnect_blocked hrun] at hf
  | launcherConnects =>
    simp only [dispatch] at h
    split at h <;> cases h
    exact hl.accounted hk (.modify fun _ => trivial) ha
  | launcherEvent event body =>
    simp only [dispatch] at h
    split at h <;> cases h
    refine hl.accounted hk (keeps_eventRun hO (keeps_launcherHandler hO (fun _ => ?_)
      (fun _ _ => trivial) fun _ _ => trivial)) ha
    exact waiting_propagateAfterStart _ _
  | launcherDisconnect =>
    simp only [dispatch] at h
    split at h <;> cases h
    rcases hl with hrun | hrun
    · have hs := hk w
      rw [hrun] at hs
      exact hs.1.accounted hs.2 ha
    · refine (Leaves.moves (.inr hrun) hk).accounted_loose (fun hf => ?_) ha
      simp [launcherDisconnect_blocked hrun] at hf
  | resume =>
    obtain ⟨stage, hstage, hrun⟩ := Option.bind_eq_some_iff.mp h
    split at hrun <;> cases hrun
    have hmoves : Onward { w with suspended := none } w' := hl.moves hk
    rcases ha with ha | ha | ⟨-, after, hafter, r, hr, rfl⟩
    · exact .inl (hmoves.done n ha)
    · exact .inr (.inl (hmoves.evaluates ha))
    · cases hstage.symm.trans hafter
      have hsettles : Proc.Triple (resume (.finalize after)) { w with suspended := none }
          (fun _ w' => Done w' r.id) fun e _ => e ≠ .blocked := resume_settles hr
      unfold Proc.Triple at hsettles
      rcases hl with hrun | hrun
      · rw [hrun] at hsettles
        exact .inl hsettles
      · rw [hrun] at hsettles
        exact absurd rfl hsettles
  | clientLost writes loss =>
    cases h
    exact hl.accounted hk (.modify fun _ => trivial) ha
  | register c pid ppid =>
    obtain ⟨w₁, hreg, heq⟩ := Option.map_eq_some_iff.mp h
    cases heq
    unfold World.register at hreg
    split at hreg <;> cases hreg
    exact hl.accounted hk .pure ha
  | deregister c =>
    simp only [dispatch] at h
    split at h <;> cases h
    exact hl.accounted hk (.modify fun _ => trivial) ha

theorem Sound.mono (hi : Sound rs w) (hrs : ∀ r ∈ rs, r ∈ rs') (hold : ∀ r ∈ rs', r.id < w.received)
    (hdistinct : (rs'.map Request.id).Nodup) : Sound rs' w where
  old := hold
  distinct := hdistinct
  answered r b h := (hi.answered r b h).mono hrs
  recorded := hi.recorded
  start r h := (hi.start r h).mono hrs
  evaluating r h := (hi.evaluating r h).mono hrs
  suspended stage h r hr := (hi.suspended stage h r hr).mono hrs

/-- Messages are numbered, so that a new request is not one of the old. -/
theorem Sound.receive (hi : Sound rs w) (command : String) (arguments : Json) :
    Sound (rs ++ [w.nextRequest command arguments]) w.receive := by
  have hnext : Sound rs w.receive := { hi with old := fun r hr => Nat.lt_succ_of_lt (hi.old r hr) }
  refine hnext.mono (fun r hr => List.mem_append_left _ hr) (fun r hr => ?_) ?_
  · rcases List.mem_append.mp hr with hr | hr
    · exact hnext.old r hr
    · rw [List.mem_singleton.mp hr]
      exact Nat.lt_succ_self w.received
  · rw [List.map_append, List.nodup_append]
    refine ⟨hi.distinct, by simp, fun a ha b hb hab => ?_⟩
    obtain ⟨r, hr, rfl⟩ := List.mem_map.mp ha
    have hlt : r.id < w.received := hi.old r hr
    rw [hab, List.mem_singleton.mp hb] at hlt
    exact Nat.lt_irrefl _ hlt

theorem dispatch_sound {label : Label} {p : Code Unit} (hi : Sound rs w)
    (h : dispatch w label = some (p, w₁)) : Sound (rs ++ receives w label) (p.run w₁).2 := by
  have hF := allows_sound (rs ++ receives w label)
  have hforward : AssignsForward (.preserving (Sound (rs ++ receives w label))) :=
    fun w _ hi => hi.same rfl rfl rfl hi.start rfl rfl
  have hinit : AssignsInitialize (.preserving (Sound (rs ++ receives w label))) := by
    intro w f hf hi
    have hstart : (f w.client).startRequest = w.client.startRequest := by
      simpa using congrArg Client.startRequest (hf w.client)
    exact hi.same rfl rfl rfl (hstart ▸ hi.start) rfl rfl
  have hbefore : ∀ r, Received rs r → Received (rs ++ receives w label) r :=
    fun r hr => hr.mono fun r hr => List.mem_append_left _ hr
  have hk : Keeps (.preserving (Sound (rs ++ receives w label))) p := by
    refine hF.anyDispatch hforward hinit (fun command arguments hlabel => ?_)
      (fun r hr => hF.answers r (hbefore r (hi.evaluating r hr)))
      (fun _ stage hs r hr => hbefore r (hi.suspended stage hs r hr)) h
    subst hlabel
    exact ⟨_, List.mem_append_right _ (List.mem_singleton_self _), .refl _⟩
  refine Proc.keeps_preserving.mp hk w₁ ?_
  have hkeep (hi' : Sound rs w₁) (hno : receives w label = []) :
      Sound (rs ++ receives w label) w₁ := by rwa [hno, List.append_nil]
  cases label with
  | request command arguments =>
    simp only [dispatch] at h
    split at h <;> cases h
    exact hi.receive command arguments
  | clientEvent | serverEvent | launcherEvent =>
    simp only [dispatch] at h
    split at h <;> cases h
    exact hkeep { hi with old := fun r hr => Nat.lt_succ_of_lt (hi.old r hr) } rfl
  | clientDisconnect | serverDisconnect | launcherConnects | launcherDisconnect | deregister =>
    simp only [dispatch] at h
    split at h <;> cases h
    exact hkeep hi rfl
  | clientLost =>
    cases h
    exact hkeep hi rfl
  | evaluated =>
    obtain ⟨r, hr, heq⟩ := Option.map_eq_some_iff.mp h
    cases heq
    exact hkeep { hi with evaluating := fun r hr => hi.evaluating r (List.mem_of_mem_eraseIdx hr) } rfl
  | resume =>
    obtain ⟨stage, hstage, hrun⟩ := Option.bind_eq_some_iff.mp h
    split at hrun <;> cases hrun
    exact hkeep { hi with suspended := fun _ hs => by cases hs } rfl
  | register c pid ppid =>
    obtain ⟨w₁, hreg, heq⟩ := Option.map_eq_some_iff.mp h
    cases heq
    unfold World.register at hreg
    split at hreg <;> cases hreg
    exact hkeep (hi.same rfl rfl rfl hi.start rfl rfl) rfl

theorem dispatch_new {label : Label} {p : Code Unit} (h : dispatch w label = some (p, w₁))
    (hl : Leaves p w₁ w') (hr : r ∈ receives w label) (hs : ¬ IsStart r.command) :
    Accounted w' r.id := by
  cases label with
  | request command arguments =>
    cases List.mem_singleton.mp hr
    simp only [dispatch] at h
    split at h <;> cases h
    have hsettles : Proc.Triple (handleRequest (w.nextRequest command arguments)) w.receive _ _ :=
      handleRequest_settles hs
    unfold Proc.Triple at hsettles
    rcases hl with hrun | hrun
    · rw [hrun] at hsettles
      rcases hsettles with (he | hd) | hd
      · exact .inr (.inl he)
      · exact .inl hd
      · exact .inl hd
    · exact HeldBy.accounted (waits_blocked (handleRequest_held hs) hrun)
  | _ => cases hr

theorem step_inv {t : Turn} (hi : Inv rs w) (h : step w t = some w') :
    Inv (rs ++ receives w t.label) w' := by
  unfold step at h
  split at h
  · cases h
  next hexited =>
  obtain ⟨⟨p, w₁⟩, hd, rfl⟩ := Option.map_eq_some_iff.mp h
  have henv : Inv rs { w with env := t.env } := { hi with accounted := hi.accounted }
  have hreceives : receives w t.label = receives { w with env := t.env } t.label := by
    unfold receives
    split <;> rfl
  have hsound : Sound (rs ++ receives w t.label) (p.run w₁).2 := by
    rw [hreceives]
    exact dispatch_sound henv.toSound hd
  rcases runHandler_cases p w₁ with hl | ⟨w', hw', hexit⟩
  · have hstate : (p.run w₁).2 = w₁.runHandler p := by rcases hl with hrun | hrun <;> rw [hrun]
    refine { hstate ▸ hsound with accounted := fun _ r hr hs => ?_ }
    rcases List.mem_append.mp hr with hr | hr
    · exact dispatch_accounted hd hl (henv.accounted (by simpa using hexited) r hr hs)
    · exact dispatch_new hd hl (hreceives ▸ hr) hs
  · rw [hexit]
    rw [hw'] at hsound
    exact { hsound.same rfl rfl rfl hsound.start rfl rfl with accounted := fun h => by cases h }

theorem inv_fresh (h : w.Fresh) : Inv [] w := by
  have hno : ∀ m ∈ w.toClient, ∀ id, bodyFor id m = none := by
    intro m hm id
    obtain ⟨event, body, rfl, -⟩ := h.sent m hm
    rfl
  refine {
    old := by simp
    distinct := List.nodup_nil
    answered := fun r b hm => ?_
    recorded := fun id => ?_
    start := fun r hr => ?_
    evaluating := by simp [h.evaluating]
    suspended := by simp [h.suspended]
    accounted := by simp }
  · obtain ⟨event, body, hm, -⟩ := h.sent _ hm
    cases hm
  · rw [written, h.responses, List.filterMap_eq_nil_iff.mpr fun m hm => hno m hm id]
    rfl
  · rw [h.client] at hr
    cases hr

theorem Inv.balanced (hi : Inv rs w) : Balanced rs w where
  distinct := hi.distinct
  answered := hi.answered
  once id := by
    rw [hi.recorded id]
    cases w.responses id <;> simp
  settled hexited hspent r hr hs := by
    refine (hi.accounted hexited r hr hs).imp (fun hd => ?_) (.imp (fun he => he) And.right)
    have hsome : (w.responses r.id).isSome = true := hd.resolve_left (by simp [hspent])
    obtain ⟨b, hb⟩ := Option.isSome_iff_exists.mp hsome
    exact ⟨b, by rw [hi.recorded, hb]; rfl⟩

/-- In every run each response belongs to one request that was received, each
request gets one at most, and only what waits for something gets none. -/
theorem balanced_of_run (w₀ w : World) (ts : List Turn) (h₀ : w₀.Fresh)
    (h : Run.exec step w₀ ts = some w) : Balanced (requests w₀ ts) w := by
  have hok : Run.Meets step (fun _ _ => True) w₀ ts := Run.meets_true
  have hi : Inv ([] ++ requests w₀ ts) w :=
    Run.exec_outputs (fun hi _ hs => step_inv hi hs) (inv_fresh h₀) hok h
  exact hi.balanced

/-- One request is answered at once, one when the server has responded, and
one waits for the launcher. -/
def busy : List Turn :=
  [{ label := .register 0 1 none },
    { label := .request "initialize" (.dict []) },
    { label := .request "attach" (.dict []) },
    { label := .request "evaluate" (.dict []) },
    { label := .request "evaluate" (.dict []) },
    { label := .request "threads" (.dict []) },
    { label := .evaluated 1 (.success (.dict [])) },
    { label := .request "disconnect" (.dict []) }]

theorem balanced_busy : ∃ w, Run.exec step {} busy = some w ∧
    (requests {} busy).length = 6 ∧ Balanced (requests {} busy) w := by
  have hrun : (Run.exec step {} busy).isSome = true := by decide +kernel
  obtain ⟨w, hw⟩ := Option.isSome_iff_exists.mp hrun
  exact ⟨w, hw, by decide +kernel, balanced_of_run {} w busy fresh_default hw⟩

end Debugpy.Ledger
