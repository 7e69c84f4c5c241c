import Debugpy.Adapter.Clients
import Debugpy.Common.Messages

/-!
# One response to a request

`Request._handle` with any handler that keeps to the documented contract, and
with what other threads do before it looks at the result and after. A handler
that returns `NO_RESPONSE` leaves the response to one of them. `responds_iff`
says that there is one response, unless that one is sent before
`Request._handle` has checked that there is none.
-/

namespace Debugpy.Responding

open Adapter (World Request Result Code Sent)
open Proc (tryExcept)

def decorate (decorated : Bool) (r : Request) (handler : Code Result) : Code Result :=
  if decorated then Adapter.messageHandler (.received r.id) r.cantHandle handler else handler

/-- The first `try` of `Request._handle`. -/
def resultOf (r : Request) (handler : Code Result) : Code Result :=
  tryExcept handler fun
    | .messageHandling uid invalid reason cause =>
      if Adapter.appliesTo cause (.received r.id) then
        some (pure (.error (.messageHandling uid invalid reason cause)))
      else none
    | _ => none

/-- `Request._handle`, with what others do before it looks at the result, and
when it is done. -/
def process (decorated : Bool) (r : Request) (handler : Code Result) (before after : Code Unit) :
    Code Unit := do
  let result ← resultOf r (decorate decorated r handler)
  before
  r.conclude result
  after

theorem process_pure (decorated : Bool) (r : Request) (handler : Code Result) :
    process decorated r handler (pure ()) (pure ()) = r.handle (decorate decorated r handler) := by
  simp only [process, pure_bind, bind_pure_unit]
  rfl

def written (w : World) (r : Request) (seq : Int) : List Items :=
  w.toClient.filterMap fun
    | .response r' body => if r'.id = r.id then some (responseDict seq r'.command body) else none
    | _ => none

-- ---------------------------------------------------------------------------
-- The contract
-- ---------------------------------------------------------------------------

def Open (w : World) : Prop := w.outlet.left = none

structure Unanswered (r : Request) (seq : Int) (w : World) : Prop where
  isOpen : Open w
  response : w.responses r.id = none
  written : written w r seq = []

structure Answered (r : Request) (seq : Int) (body : Except Exn Json) (w : World) : Prop where
  isOpen : Open w
  response : w.responses r.id = some body
  written : written w r seq = [responseDict seq r.command body]

def Leaves (r : Request) (seq : Int) (p : Code Unit) : Prop :=
  ∀ w, Open w → ∃ w', p.run w = (.ok (), w') ∧ Open w' ∧ w'.responses r.id = w.responses r.id ∧
    written w' r seq = written w r seq

def Responds (r : Request) (seq : Int) (body : Except Exn Json) (p : Code Unit) : Prop :=
  ∀ w, Unanswered r seq w → ∃ w', p.run w = (.ok (), w') ∧ Answered r seq body w'

/-- What a handler does that responds, or has `Request._handle` respond, and
what the response says: the body, or the text of the error. -/
inductive Outcome (decorated : Bool) (r : Request) (seq : Int) :
    Except (Stop Exn) Result → World → Except String Json → Prop
  | body (body : Json) : Unanswered r seq w → Outcome decorated r seq (.ok (.body body)) w (.ok body)
  | error (e : Exn) : e.isMessageHandling = true → Unanswered r seq w →
      Outcome decorated r seq (.ok (.error e)) w (.error e.str)
  | errorSent (e : Exn) : e.isMessageHandling = true → Answered r seq (.error e) w →
      Outcome decorated r seq (.ok (.error e)) w (.error e.str)
  /-- It applies to the request. -/
  | raises (uid : Uid) (invalid : Bool) (reason : String) (cause : Option MessageId) :
      cause = none ∨ cause = some (.received r.id) → Unanswered r seq w →
      Outcome decorated r seq (.error (.raised (.messageHandling uid invalid reason cause))) w
        (.error (Exn.str (.messageHandling uid invalid reason cause)))
  /-- `isnt_valid` and `cant_handle` have responded. -/
  | raisesSent (uid : Uid) (invalid : Bool) (reason : String) :
      Answered r seq (.error (.messageHandling uid invalid reason (some (.received r.id)))) w →
      Outcome decorated r seq
        (.error (.raised (.messageHandling uid invalid reason (some (.received r.id))))) w
        (.error (Exn.str (.messageHandling uid invalid reason (some (.received r.id)))))
  | responded (body : Json) : Answered r seq (.ok body) w →
      Outcome decorated r seq (.ok .none) w (.ok body)
  | respondedError (e : Exn) : Answered r seq (.error e) w →
      Outcome decorated r seq (.ok .none) w (.error e.str)
  | notAvailable (type : String) : decorated = true → Unanswered r seq w →
      Outcome decorated r seq (.error (.raised (.componentNotAvailable type))) w
        (.error (type ++ " is not available"))
  | disconnected (e : Exn) (stream text : String) : decorated = true →
      e = .jsonIOError stream text ∨ e = .noMoreMessages stream text → Unanswered r seq w →
      Outcome decorated r seq (.error (.raised e)) w (.error (stream ++ " disconnected unexpectedly"))
  | other (uid : Uid) (invalid : Bool) (reason : String) (cause : MessageId) : decorated = true →
      cause ≠ .received r.id → Unanswered r seq w →
      Outcome decorated r seq (.error (.raised (.messageHandling uid invalid reason (some cause)))) w
        (.error (Exn.str (.messageHandling uid invalid reason (some cause))))

/-- The text of the error that a response is made of, or its body. -/
def said : Except Exn Json → Except String Json
  | .ok body => .ok body
  | .error e => .error e.str

/-- The documented contract. With `NO_RESPONSE` another thread responds, `early`
if that is before the result has been looked at. -/
inductive Follows (decorated : Bool) (r : Request) (seq : Int) (handler : Code Result)
    (before after : Code Unit) (w : World) : (early : Bool) → Except String Json → Prop
  | handler : handler.run w = (out, w') → Outcome decorated r seq out w' owed →
      Leaves r seq before → Leaves r seq after →
      Follows decorated r seq handler before after w false owed
  | late (body : Except Exn Json) : handler.run w = (.ok .noResponse, w') → Unanswered r seq w' →
      Leaves r seq before → Responds r seq body after →
      Follows decorated r seq handler before after w false (said body)
  | early (body : Except Exn Json) : handler.run w = (.ok .noResponse, w') → Unanswered r seq w' →
      Responds r seq body before → Leaves r seq after →
      Follows decorated r seq handler before after w true (said body)

/-- The request has one response, which says this, and nothing has failed. -/
def RespondsOnce (p : Code Unit) (r : Request) (seq : Int) (w : World) (owed : Except String Json) :
    Prop :=
  ∃ w' d, p.run w = (.ok (), w') ∧ written w' r seq = [d] ∧
    Json.get? d "request_seq" = some (.int seq) ∧ Json.get? d "command" = some (.str r.command) ∧
    match owed with
    | .ok body => Json.get? d "success" = some (.bool true) ∧
        (body.isNoneOrEmpty = false → Json.get? d "body" = some body)
    | .error text => Json.get? d "success" = some (.bool false) ∧
        Json.get? d "message" = some (.str text)

-- ---------------------------------------------------------------------------
-- What the steps do
-- ---------------------------------------------------------------------------

section
variable {r : Request} {seq : Int} {w w' : World} {decorated : Bool} {handler : Code Result}

theorem Open.takes (h : Open w) : w.outlet.spent = false := by
  have ho : w.outlet.left = none := h
  simp [Adapter.Outlet.spent, ho]

theorem Unanswered.tick (h : Unanswered r seq w) : Unanswered r seq w.tick :=
  ⟨h.isOpen, h.response, h.written⟩

theorem Unanswered.respond (h : Unanswered r seq w) (body : Except Exn Json) :
    Answered r seq body ((w.sent (.response r body)).respond r body) := by
  refine ⟨?_, ?_, ?_⟩
  · have ho := h.isOpen
    simp only [Open, Adapter.World.respond_outlet, Adapter.World.sent_outlet, Adapter.Outlet.after]
      at ho ⊢
    rw [ho]
    rfl
  · simp
  · have hw := h.written
    unfold Responding.written at hw ⊢
    rw [Adapter.World.respond_toClient, Adapter.World.sent_toClient, List.filterMap_append, hw]
    simp

theorem responds_respond (body : Except Exn Json) : Responds r seq body (r.respond body) :=
  fun _ h => ⟨_, Adapter.respond_ok h.response h.isOpen.takes, h.respond body⟩

theorem Leaves.unanswered (h : Leaves r seq p) (hw : Unanswered r seq w) :
    ∃ w', p.run w = (.ok (), w') ∧ Unanswered r seq w' := by
  obtain ⟨w', hrun, ho, hresp, hwritten⟩ := h w hw.isOpen
  exact ⟨w', hrun, ho, hresp.trans hw.response, hwritten.trans hw.written⟩

theorem Leaves.answered (h : Leaves r seq p) (hw : Answered r seq body w) :
    ∃ w', p.run w = (.ok (), w') ∧ Answered r seq body w' := by
  obtain ⟨w', hrun, ho, hresp, hwritten⟩ := h w hw.isOpen
  exact ⟨w', hrun, ho, hresp.trans hw.response, hwritten.trans hw.written⟩

inductive Ready (r : Request) (seq : Int) (w : World) : Result → Except String Json → Prop
  | body (body : Json) : Unanswered r seq w → Ready r seq w (.body body) (.ok body)
  | error (e : Exn) : Unanswered r seq w → Ready r seq w (.error e) (.error e.str)
  | responded (body : Except Exn Json) : Answered r seq body w → Ready r seq w .none (said body)
  | failed (e : Exn) : Answered r seq (.error e) w → Ready r seq w (.error e) (.error e.str)

theorem Ready.leaves (h : Ready r seq w result owed) (hp : Leaves r seq p) :
    ∃ w', p.run w = (.ok (), w') ∧ Ready r seq w' result owed := by
  cases h with
  | body body hw =>
    obtain ⟨w', hrun, hw'⟩ := hp.unanswered hw
    exact ⟨w', hrun, .body body hw'⟩
  | error e hw =>
    obtain ⟨w', hrun, hw'⟩ := hp.unanswered hw
    exact ⟨w', hrun, .error e hw'⟩
  | responded body hw =>
    obtain ⟨w', hrun, hw'⟩ := hp.answered hw
    exact ⟨w', hrun, .responded body hw'⟩
  | failed e hw =>
    obtain ⟨w', hrun, hw'⟩ := hp.answered hw
    exact ⟨w', hrun, .failed e hw'⟩

theorem Ready.conclude (h : Ready r seq w result owed) :
    ∃ w' body, (r.conclude result).run w = (.ok (), w') ∧ Answered r seq body w' ∧ said body = owed := by
  cases h with
  | body body hw =>
    refine ⟨_, .ok body, ?_, hw.respond _, rfl⟩
    rw [← Adapter.tryRespond_ok hw.response hw.isOpen.takes]
    simp [Adapter.Request.conclude, Proc.run_bind, hw.response]
  | error e hw =>
    refine ⟨_, .error e, ?_, hw.respond _, rfl⟩
    rw [Adapter.conclude_error_unanswered hw.response,
      Adapter.tryRespond_ok hw.response hw.isOpen.takes]
  | responded body hw =>
    exact ⟨w, body, Adapter.conclude_none (by simp [hw.response]), hw, rfl⟩
  | failed e hw => exact ⟨w, .error e, Adapter.conclude_error hw.response, hw, rfl⟩

theorem Answered.once (h : Answered r seq body w') (hrun : p.run w = (.ok (), w')) :
    RespondsOnce p r seq w (said body) := by
  refine ⟨w', _, hrun, h.written, ?_⟩
  cases body with
  | error e => exact ⟨rfl, rfl, rfl, rfl⟩
  | ok body =>
    refine ⟨rfl, rfl, ?_, fun hne => ?_⟩
    · cases hbody : body.isNoneOrEmpty <;> simp [responseDict, hbody, Json.get?]
    · simp [responseDict, hne, Json.get?]

theorem resultOf_error (h : (decorate decorated r handler).run w =
      (.error (.raised (.messageHandling uid invalid reason cause)), w'))
    (hc : Adapter.appliesTo cause (.received r.id) = true) :
    (resultOf r (decorate decorated r handler)).run w =
      (.ok (.error (.messageHandling uid invalid reason cause)), w') := by
  rw [resultOf, Proc.run_tryExcept, h]
  simp [hc]

theorem resultOf_ok (h : (decorate decorated r handler).run w = (.ok result, w')) :
    (resultOf r (decorate decorated r handler)).run w = (.ok result, w') := by
  rw [resultOf, Proc.run_tryExcept, h]

theorem decorate_ok (h : handler.run w = (.ok result, w')) :
    (decorate decorated r handler).run w = (.ok result, w') := by
  cases decorated with
  | true => exact Adapter.messageHandler_ok h
  | false => exact h

theorem decorate_own (h : handler.run w =
      (.error (.raised (.messageHandling uid invalid reason (some (.received r.id)))), w')) :
    (decorate decorated r handler).run w =
      (.error (.raised (.messageHandling uid invalid reason (some (.received r.id)))), w') := by
  cases decorated with
  | true =>
    rw [decorate, if_pos rfl, Adapter.messageHandler, Proc.run_tryExcept, h]
    simp
  | false => exact h

theorem decorate_other (h : handler.run w =
      (.error (.raised (.messageHandling uid invalid reason cause)), w'))
    (hc : cause ≠ some (.received r.id)) :
    (decorate true r handler).run w = (.error (.raised (w'.nextError r invalid reason)), w'.tick) := by
  rw [decorate, if_pos rfl, Adapter.messageHandler, Proc.run_tryExcept, h]
  simp [hc, Adapter.propagateError, Proc.run_bind, Adapter.World.nextError]

/-- The decorator fails the request that cannot be handled. -/
theorem decorate_cantHandle (hw : Unanswered r seq w')
    (h : (decorate decorated r handler).run w =
      (r.cantHandle reason >>= fun e => Proc.raise e : Code Result).run w') :
    ∃ result w'', (resultOf r (decorate decorated r handler)).run w = (.ok result, w'') ∧
      Ready r seq w'' result (.error reason) := by
  have hrun : (decorate decorated r handler).run w = (.error (.raised (w'.nextError r false reason)),
      (w'.tick.sent (.response r (.error (w'.nextError r false reason)))).respond r
        (.error (w'.nextError r false reason))) := by
    rw [h, Proc.run_bind, Adapter.Request.cantHandle, Adapter.error_ok hw.response hw.isOpen.takes]
    rfl
  exact ⟨_, _, resultOf_error hrun (by simp [Adapter.appliesTo]), .failed _ (hw.tick.respond _)⟩

theorem Ready.propagated (uid : Uid) (invalid : Bool) (reason : String) (cause : Option MessageId)
    (hw : Unanswered r seq w) :
    Ready r seq w.tick (.error (w.nextError r invalid reason))
      (.error (Exn.str (.messageHandling uid invalid reason cause))) := by
  have hstr : (w.nextError r invalid reason).str =
      Exn.str (.messageHandling uid invalid reason cause) := by
    cases invalid <;> rfl
  rw [← hstr]
  exact .error _ hw.tick

theorem Outcome.result (h : Outcome decorated r seq out w' owed) (hrun : handler.run w = (out, w')) :
    ∃ result w'', (resultOf r (decorate decorated r handler)).run w = (.ok result, w'') ∧
      Ready r seq w'' result owed := by
  cases h with
  | body body hw => exact ⟨_, _, resultOf_ok (decorate_ok hrun), .body body hw⟩
  | error e he hw => exact ⟨_, _, resultOf_ok (decorate_ok hrun), .error e hw⟩
  | errorSent e he hw => exact ⟨_, _, resultOf_ok (decorate_ok hrun), .failed e hw⟩
  | raises uid invalid reason cause hc hw =>
    rcases hc with rfl | rfl
    · cases decorated with
      | false =>
        have hplain : (decorate false r handler).run w = _ := hrun
        exact ⟨_, _, resultOf_error hplain rfl, .error _ hw⟩
      | true =>
        exact ⟨_, _, resultOf_error (decorate_other hrun nofun) (by simp [Adapter.appliesTo]),
          .propagated uid invalid reason none hw⟩
    · exact ⟨_, _, resultOf_error (decorate_own hrun) (by simp [Adapter.appliesTo]), .error _ hw⟩
  | raisesSent uid invalid reason hw =>
    exact ⟨_, _, resultOf_error (decorate_own hrun) (by simp [Adapter.appliesTo]), .failed _ hw⟩
  | responded body hw => exact ⟨_, _, resultOf_ok (decorate_ok hrun), .responded _ hw⟩
  | respondedError e hw => exact ⟨_, _, resultOf_ok (decorate_ok hrun), .responded _ hw⟩
  | notAvailable type hd hw =>
    subst hd
    refine decorate_cantHandle hw ?_
    rw [decorate, if_pos rfl, Adapter.messageHandler, Proc.run_tryExcept, hrun]
  | disconnected e stream text hd he hw =>
    subst hd
    refine decorate_cantHandle hw ?_
    rcases he with rfl | rfl <;>
      rw [decorate, if_pos rfl, Adapter.messageHandler, Proc.run_tryExcept, hrun]
  | other uid invalid reason cause hd hc hw =>
    subst hd
    exact ⟨_, _, resultOf_error (decorate_other hrun (by simpa using hc))
      (by simp [Adapter.appliesTo]), .propagated uid invalid reason _ hw⟩

-- ---------------------------------------------------------------------------
-- The whole of it
-- ---------------------------------------------------------------------------

theorem process_run {before after : Code Unit}
    (h : (resultOf r (decorate decorated r handler)).run w = (.ok result, w₁))
    (hb : before.run w₁ = (.ok (), w₂)) :
    (process decorated r handler before after).run w =
      (r.conclude result >>= fun _ => after : Code Unit).run w₂ := by
  rw [process, Proc.run_bind, h]
  dsimp only
  rw [Proc.run_bind, hb]

theorem conclude_noResponse (hw : Unanswered r seq w) :
    (r.conclude .noResponse).run w = (.ok (), w) := by
  simp [Adapter.Request.conclude, Proc.run_bind, hw.response]

theorem conclude_noResponse_answered (hw : Answered r seq body w) :
    (r.conclude .noResponse).run w = (.error (.raised .assertionError), w) := by
  simp [Adapter.Request.conclude, Proc.run_bind, hw.response]

theorem Follows.once {before after : Code Unit}
    (h : Follows decorated r seq handler before after w false owed) :
    RespondsOnce (process decorated r handler before after) r seq w owed := by
  cases h with
  | handler hrun hout hb ha =>
    obtain ⟨result, w₁, hres, hready⟩ := hout.result hrun
    obtain ⟨w₂, hbefore, hready⟩ := hready.leaves hb
    obtain ⟨w₃, body, hconc, hanswered, rfl⟩ := hready.conclude
    obtain ⟨w₄, hafter, hanswered⟩ := ha.answered hanswered
    refine hanswered.once ?_
    rw [process_run hres hbefore, Proc.run_bind, hconc]
    exact hafter
  | late body hrun hw hb ha =>
    obtain ⟨w₂, hbefore, hw⟩ := hb.unanswered hw
    obtain ⟨w₃, hafter, hanswered⟩ := ha w₂ hw
    refine hanswered.once ?_
    rw [process_run (resultOf_ok (decorate_ok hrun)) hbefore, Proc.run_bind, conclude_noResponse hw]
    exact hafter

theorem Follows.asserts {before after : Code Unit}
    (h : Follows decorated r seq handler before after w true owed) :
    ∃ w', (process decorated r handler before after).run w =
      (.error (.raised .assertionError), w') := by
  cases h with
  | early body hrun hw hb ha =>
    obtain ⟨w₂, hbefore, hanswered⟩ := hb _ hw
    refine ⟨w₂, ?_⟩
    rw [process_run (resultOf_ok (decorate_ok hrun)) hbefore, Proc.run_bind,
      conclude_noResponse_answered hanswered]

end

/-- `Request._handle` completes with one response, which is the one that is
owed, if and only if a deferred one is not sent before it has looked. -/
theorem responds_iff (decorated : Bool) (r : Request) (seq : Int) (handler : Code Result)
    (before after : Code Unit) (w : World) (early : Bool) (owed : Except String Json)
    (h : Follows decorated r seq handler before after w early owed) :
    RespondsOnce (process decorated r handler before after) r seq w owed ↔ early = false := by
  cases early with
  | false => exact ⟨fun _ => rfl, fun _ => h.once⟩
  | true =>
    refine ⟨fun ⟨w', d, hrun, _⟩ => ?_, nofun⟩
    obtain ⟨w'', hasserts⟩ := h.asserts
    rw [hasserts] at hrun
    cases hrun

-- ---------------------------------------------------------------------------
-- Handlers
-- ---------------------------------------------------------------------------

def threads : Request := { id := 0, command := "threads", arguments := .dict [] }

theorem unanswered_threads : Unanswered threads 1 {} := ⟨rfl, rfl, rfl⟩

theorem leaves_nothing (r : Request) (seq : Int) : Leaves r seq (pure ()) :=
  fun w hw => ⟨w, rfl, hw, rfl, rfl⟩

/-- The server disconnects while the request is delegated. -/
theorem responds_threads :
    RespondsOnce (process true threads (Proc.raise (.noMoreMessages "Server[1]" "")) (pure ()) (pure ()))
      threads 1 {} (.error "Server[1] disconnected unexpectedly") :=
  (responds_iff true threads 1 (Proc.raise (.noMoreMessages "Server[1]" "")) (pure ()) (pure ()) {} false
    (.error "Server[1] disconnected unexpectedly")
    (.handler rfl (.disconnected _ "Server[1]" "" rfl (.inr rfl) unanswered_threads)
      (leaves_nothing _ _) (leaves_nothing _ _))).mpr rfl

/-- The response handler of an `"evaluate"` responds at once, on the thread of
the server's channel. -/
theorem not_respondsOnce : ¬ ∀ (decorated : Bool) (r : Request) (seq : Int) (handler : Code Result)
    (before after : Code Unit) (w : World) (early : Bool) (owed : Except String Json),
    Follows decorated r seq handler before after w early owed →
    RespondsOnce (process decorated r handler before after) r seq w owed := by
  intro h
  have hfollows : Follows true threads 1 (pure .noResponse) (threads.respond (.ok (.dict [])))
      (pure ()) {} true (.ok (.dict [])) :=
    .early (.ok (.dict [])) rfl unanswered_threads (responds_respond _) (leaves_nothing _ _)
  obtain ⟨w', d, hrun, -⟩ := h _ _ _ _ _ _ _ _ _ hfollows
  obtain ⟨w'', hasserts⟩ := hfollows.asserts
  rw [hasserts] at hrun
  cases hrun

end Debugpy.Responding
