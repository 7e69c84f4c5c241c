import Debugpy.Common.MessageLoop
import Debugpy.Lib.History
import Debugpy.Lib.Run

/-!
# Requests and their responses

`send_request` of any threads, interleaved with the parser thread that takes
requests out of the table and sets their responses in two critical sections.
A step is one critical section, or less: what `on_before_send` does comes
between the making of a request and its entry in the table. `matching` is the
result: the response of a request is the first that closes it in the history
of the channel.
-/

namespace Debugpy

open Proc (raise run_bind)

/-- `Response._parse` of an incoming message up to its second critical
section, with the `"request_seq"` and whether it is that of a known request. -/
def Response.take (d : Items) : Proc Exn Channel (Property × Bool × Response) := do
  let (seq, requestSeq, command, body) ← Response.parseFields d none
  let key := asInt requestSeq
  let c ← get
  if key ∈ c.sentRequests then
    set { c with sentRequests := c.sentRequests.erase key }
    let request := (c.requests key).elim 0 (·.uid)
    let uid ← freshUid
    return (requestSeq, true,
      { uid, seq, requestSeq := key, command, body := body.mapError (withCause request) })
  else
    let request ← freshUid
    let uid ← freshUid
    return (requestSeq, false,
      { uid, seq, requestSeq := key, command, body := body.mapError (withCause request) })

/-- The second critical section, and what follows it. -/
def Response.settle (requestSeq : Property) (known : Bool) (response : Response) :
    Proc Exn Channel Unit :=
  if known then modify (Channel.setResponse response.requestSeq response)
  else do
    modify (Channel.enqueueHandlers (.responses response []))
    raise (.messageHandling (← freshUid) true
      ("request_seq=" ++ formatInt requestSeq ++ " does not match any known request")
      (some (.made response.uid)))

/-- `_message_parsers`, with the second critical section of the last cut off. -/
def receiveMessage : MessageType → Items → Proc Exn Channel (Option (Property × Bool × Response))
  | .event, d => (fun _ => none) <$> Event.parse d
  | .request, d => (fun _ => none) <$> Request.parse d
  | .response, d => some <$> Response.take d

/-- `_parse_incoming_message`, for a response only up to there. -/
def receive (value : Json) : Proc Exn Channel (Option (Property × Bool × Response)) :=
  match value with
  | .dict d => do
    let type ← field d "type" (Json.enum MessageType.names false)
    receiveMessage (.ofName (asStr type)) d
  | _ => raise .assertionError

theorem parse_eq (d : Items) : Response.parse d none =
    (Response.take d >>= fun (requestSeq, known, response) =>
      Response.settle requestSeq known response) := by
  refine Proc.ext fun c => ?_
  simp only [Response.parse, Response.take, run_bind]
  cases hrun : (Response.parseFields d none).run c with
  | mk out c' =>
    cases out with
    | error e => rfl
    | ok fields =>
      obtain ⟨seq, requestSeq, command, body⟩ := fields
      by_cases hk : asInt requestSeq ∈ c'.sentRequests
      · simp [Response.deliver, Response.settle, run_bind, Proc.run_map, hk, freshUid]
      · simp [Response.deliver, Response.settle, run_bind, Proc.run_map, hk, freshUid]

theorem messageParser_eq (type : MessageType) (d : Items) : messageParser type d =
    (receiveMessage type d >>= fun taken => match taken with
      | none => pure ()
      | some (requestSeq, known, response) => Response.settle requestSeq known response) := by
  cases type with
  | event | request => simp [messageParser, receiveMessage]
  | response =>
    simp only [messageParser, receiveMessage, parse_eq]
    simp

namespace Matching

inductive Call where
  | numbered (command : String)
  /-- `on_before_send` is called with the request. -/
  | made

inductive Parser where
  | reading
  | settling (requestSeq : Property) (known : Bool) (response : Response)
  /-- It has cleaned up after `NoMoreMessages`. -/
  | ended
  /-- Its thread, or the process, has ended otherwise. -/
  | died

inductive Event where
  /-- The request is entered in the table. -/
  | sent (key : Int)
  /-- A well-formed response is read. -/
  | received (response : Response)
  | ended (exc : Exn)

structure State where
  channel : Channel
  calls : Int → Option Call := fun _ => none
  parser : Parser := .reading
  history : List Event := []

inductive Label where
  /-- `next(self._seq_iter)`. -/
  | draw (command : String)
  | make (key : Int)
  | insert (key : Int)
  /-- `on_before_send` raises an exception. -/
  | abandon (key : Int)
  /-- Another call, of any thread. -/
  | act (a : Channel.Action)
  | receive (value : Json)
  | settle
  | noMoreMessages (text : String)
  /-- `read_json` raises anything else. -/
  | fail

def step (s : State) : Label → Option State
  | .draw command => some
      { s with
        channel := { s.channel with nextSeq := s.channel.nextSeq + 1 }
        calls := Function.update s.calls s.channel.nextSeq (some (.numbered command)) }
  | .make key => match s.calls key with
    | some (.numbered command) => some
        { s with
          channel := { s.channel.putRequest key { uid := s.channel.nextUid, command } with
            nextUid := s.channel.nextUid + 1 }
          calls := Function.update s.calls key (some .made) }
    | _ => none
  | .insert key => match s.calls key with
    | some .made => some
        { s with
          channel := { s.channel with sentRequests := s.channel.sentRequests ++ [key] }
          calls := Function.update s.calls key none
          history := s.history ++ [.sent key] }
    | _ => none
  | .abandon key => match s.calls key with
    | some .made => some { s with calls := Function.update s.calls key none }
    | _ => none
  | .act (.sendRequest _) => none
  | .act a => some { s with channel := s.channel.act a }
  | .receive value => match s.parser with
    | .reading => match (Debugpy.receive value).run s.channel with
      | (.ok none, c) => some { s with channel := c }
      | (.ok (some (requestSeq, known, response)), c) => some
          { s with
            channel := c
            parser := .settling requestSeq known response
            history := s.history ++ [.received response] }
      | (.error _, c) => some { s with channel := c, parser := .died }
    | _ => none
  | .settle => match s.parser with
    | .settling requestSeq known response =>
      match (Response.settle requestSeq known response).run s.channel with
      | (.ok (), c) => some { s with channel := c, parser := .reading }
      | (.error (.raised e), c) =>
        if e.isInvalidMessage then some
          { s with channel := { c with logged := c.logged ++ [e] }, parser := .reading }
        else some { s with channel := c, parser := .died }
      | (.error _, c) => some { s with channel := c, parser := .died }
    | _ => none
  | .noMoreMessages text => match s.parser with
    | .reading =>
      match (wrapUp (.noMoreMessages s.channel.name text)).run s.channel with
      | (.ok (), c) => some
          { s with
            channel := c
            parser := .ended
            history := s.history ++ [.ended (.noMoreMessages s.channel.name text)] }
      | (.error _, c) => some { s with channel := c, parser := .died }
    | _ => none
  | .fail => match s.parser with
    | .reading => some { s with parser := .died }
    | _ => none

-- ---------------------------------------------------------------------------
-- The rule
-- ---------------------------------------------------------------------------

def Event.Sends (key : Int) : Event → Prop
  | .sent k => k = key
  | .received _ | .ended _ => False

def Event.Answers (key : Int) : Event → Prop
  | .sent _ => False
  | .received response => response.requestSeq = key
  | .ended _ => True

def Outstanding (h : List Event) (key : Int) : Prop :=
  History.Open (Event.Sends key) (Event.Answers key) h

/-- The first event to answer the request while it is outstanding. -/
def AnsweredBy (h : List Event) (key : Int) (e : Event) : Prop :=
  History.Closes (Event.Sends key) (Event.Answers key) h e

/-- What an event sets the response to: to the one received, or to one that is
made for the exception. -/
def Event.Sets (r : Response) : Event → Prop
  | .sent _ => False
  | .received response => r = response
  | .ended exc => r.seq = none ∧ r.body = .error exc

def State.response? (s : State) (key : Int) : Option Response :=
  (s.channel.requests key).bind (·.response)

def IsUnknown (r : Response) (e : Exn) : Prop :=
  ∃ uid requestSeq, asInt requestSeq = r.requestSeq ∧ e = .messageHandling uid true
    ("request_seq=" ++ formatInt requestSeq ++ " does not match any known request")
    (some (.made r.uid))

def Parser.Settled : Parser → Prop
  | .settling .. => False
  | .reading | .ended | .died => True

/-- A step of the parser thread for a response that answers no outstanding
request. -/
def Rejects (s : State) (label : Label) : Prop :=
  match label, s.parser with
  | .receive value, .reading =>
    ∃ requestSeq r c, (Debugpy.receive value).run s.channel = (.ok (some (requestSeq, false, r)), c)
  | .settle, .settling _ known _ => known = false
  | _, _ => False

/-- What happens at a step, told from its label and the channel before it. -/
def events (s : State) : Label → List Event
  | .insert key => [.sent key]
  | .receive value => match (Debugpy.receive value).run s.channel with
    | (.ok (some (_, _, response)), _) => [.received response]
    | _ => []
  | .noMoreMessages text => [.ended (.noMoreMessages s.channel.name text)]
  | .draw _ | .make _ | .abandon _ | .act _ | .settle | .fail => []

/-- The state agrees with what has happened, and the parser thread goes on in
the same way. -/
structure Matched (h : List Event) (s : State) : Prop where
  /-- A response is only set to a request that has none. -/
  once : ∀ requestSeq r, s.parser = .settling requestSeq true r → s.response? r.requestSeq = none
  atEnd : s.channel.sentRequests.Nodup ∧ ∀ key ∈ s.channel.sentRequests, s.response? key = none
  table : ∀ key, key ∈ s.channel.sentRequests ↔ Outstanding h key
  first : ∀ key r, s.response? key = some r → ∃ e, AnsweredBy h key e ∧ e.Sets r
  all : s.parser.Settled → ∀ key e, AnsweredBy h key e → ∃ r, s.response? key = some r ∧ e.Sets r
  rejected : s.parser.Settled → ∀ pre r post, h = pre ++ .received r :: post →
    ¬ Outstanding pre r.requestSeq → ∃ e ∈ s.channel.logged, IsUnknown r e
  /-- A well-formed response is read, and it is known at once whether its
  `"request_seq"` is outstanding. -/
  read : s.parser = .reading → ∀ d, HasType d .response → WellTyped .response d →
    ∃ requestSeq known r s', isInt (Json.get? d "request_seq") = .ok requestSeq ∧
      asInt requestSeq = r.requestSeq ∧ (known = true ↔ Outstanding h r.requestSeq) ∧
      step s (.receive (.dict d)) = some s' ∧ events s (.receive (.dict d)) = [.received r] ∧
      s'.parser = .settling requestSeq known r
  set : ∀ requestSeq r, s.parser = .settling requestSeq true r → ∃ s', step s .settle = some s' ∧
    s'.response? r.requestSeq = some r ∧ s'.parser = .reading
  refused : ∀ requestSeq r, s.parser = .settling requestSeq false r → ∃ s' e,
    step s .settle = some s' ∧ IsUnknown r e ∧ s'.channel.logged = s.channel.logged ++ [e] ∧
      s'.parser = .reading
  /-- The end of the stream answers all that is outstanding. -/
  ended : s.parser = .reading → ∀ text, ∃ s', step s (.noMoreMessages text) = some s' ∧
    s'.channel.sentRequests = [] ∧ ∀ key, Outstanding h key → ∃ r, s'.response? key = some r ∧
      Event.Sets r (.ended (.noMoreMessages s.channel.name text))
  others : ∀ label s', step s label = some s' → Rejects s label →
    s'.channel.requests = s.channel.requests ∧ s'.channel.sentRequests = s.channel.sentRequests

-- ---------------------------------------------------------------------------
-- What a step does to the channel
-- ---------------------------------------------------------------------------

theorem take_run (h : WellTyped .response d) (c : Channel) : ∃ requestSeq r n,
    isInt (Json.get? d "request_seq") = .ok requestSeq ∧ asInt requestSeq = r.requestSeq ∧
      (Response.take d).run c = (.ok (requestSeq, decide (r.requestSeq ∈ c.sentRequests), r),
        { c with sentRequests := c.sentRequests.erase r.requestSeq, nextUid := n }) := by
  obtain ⟨⟨seq, req, cmd, body⟩, n, hreq, hrun⟩ := parseFields_run h.1 h.2 c
  by_cases hk : asInt req ∈ c.sentRequests
  · let request := (c.requests (asInt req)).elim 0 (·.uid)
    refine ⟨req, ⟨n, seq, asInt req, cmd, body.mapError (withCause request)⟩, n + 1, hreq, rfl, ?_⟩
    simp [Response.take, run_bind, Proc.run_map, hrun, hk, freshUid, request]
  · refine ⟨req, ⟨n + 1, seq, asInt req, cmd, body.mapError (withCause n)⟩, n + 2, hreq, rfl, ?_⟩
    simp [Response.take, run_bind, Proc.run_map, hrun, hk, freshUid, List.erase_of_not_mem hk]

theorem parseNamed_enqueues (nameKey payloadKey : String) (make : Int → String → Json → Handler)
    (d : Items) (c : Channel) :
    (∃ n name body, (parseNamed nameKey payloadKey make d).run c =
        (.ok (), c.enqueueHandlers (make n name body))) ∨ Dies (parseNamed nameKey payloadKey make d) c := by
  by_cases h : Accepts d "seq" isInt ∧ Accepts d nameKey isStr
  · obtain ⟨⟨seq, hseq⟩, ⟨name, hname⟩⟩ := h
    obtain ⟨body, hbody⟩ := payload_ok (Json.get? d payloadKey)
    refine .inl ⟨asInt seq, asStr name, asJson body, ?_⟩
    simp [parseNamed, run_bind, field_ok hseq, field_ok hname, field_ok hbody]
  · exact .inr (parseNamed_dies h c)

def IsMessage (h : Handler) : Prop := ∃ n name body, h = .event n name body ∨ h = .request n name body

inductive Receives (c : Channel) :
    Except (Stop Exn) (Option (Property × Bool × Response)) × Channel → Prop
  | message (h : Handler) : IsMessage h → Receives c (.ok none, c.enqueueHandlers h)
  | response (requestSeq : Property) (r : Response) (n : Uid) : asInt requestSeq = r.requestSeq →
      Receives c (.ok (some (requestSeq, decide (r.requestSeq ∈ c.sentRequests), r)),
        { c with sentRequests := c.sentRequests.erase r.requestSeq, nextUid := n })
  | fatal (e : Exn) : e.Fatal → Receives c (.error (.raised e), c)

theorem Receives.of_dies {value : Json} (h : Dies (receive value) c) :
    Receives c ((receive value).run c) := by
  obtain ⟨e, hrun, he⟩ := h
  rw [hrun]
  exact .fatal e he

theorem Dies.map {p : Proc Exn Channel α} {f : α → β} (h : Dies p c) : Dies (f <$> p) c := by
  obtain ⟨e, hrun, he⟩ := h
  exact ⟨e, by rw [Proc.run_map, hrun], he⟩

theorem receiveMessage_run (type : MessageType) (d : Items) (c : Channel) :
    Receives c ((receiveMessage type d).run c) ∨ Dies (receiveMessage type d) c := by
  cases type with
  | event =>
    rcases parseNamed_enqueues "event" "body" .event d c with ⟨n, name, body, hp⟩ | hd
    · have hrun : (receiveMessage .event d).run c =
          (.ok none, c.enqueueHandlers (.event n name body)) := by
        simp only [receiveMessage, Event.parse, Proc.run_map, hp]
      rw [hrun]
      exact .inl (.message _ ⟨n, name, body, .inl rfl⟩)
    · exact .inr (Dies.map hd)
  | request =>
    rcases parseNamed_enqueues "command" "arguments" .request d c with ⟨n, name, body, hp⟩ | hd
    · have hrun : (receiveMessage .request d).run c =
          (.ok none, c.enqueueHandlers (.request n name body)) := by
        simp only [receiveMessage, Request.parse, Proc.run_map, hp]
      rw [hrun]
      exact .inl (.message _ ⟨n, name, body, .inr rfl⟩)
    · exact .inr (Dies.map hd)
  | response =>
    by_cases hw : WellTyped .response d
    · obtain ⟨requestSeq, r, n, -, hseq, htake⟩ := take_run hw c
      rw [receiveMessage, Proc.run_map, htake]
      exact .inl (.response requestSeq r n hseq)
    · exact .inr (Dies.map (.bind (parseFields_dies hw c)))

theorem receive_run (value : Json) (c : Channel) : Receives c ((receive value).run c) := by
  cases value with
  | dict d =>
    rcases enum_names (Json.get? d "type") with ⟨type, ht⟩ | ⟨text, herr⟩
    · have hrun : (receive (.dict d)).run c = (receiveMessage type d).run c := by
        simp only [receive, run_bind, field_type ht c, asStr, MessageType.ofName_name]
      rcases receiveMessage_run type d c with hr | hd
      · rwa [hrun]
      · obtain ⟨e, he, hf⟩ := hd
        rw [hrun, he]
        exact .fatal e hf
    · exact .of_dies (.bind (field_error_dies herr rfl c))
  | _ => exact .of_dies ⟨.assertionError, rfl, rfl, rfl⟩

theorem settle_known (requestSeq : Property) (r : Response) (c : Channel) :
    (Response.settle requestSeq true r).run c = (.ok (), c.setResponse r.requestSeq r) := rfl

theorem settle_unknown (h : asInt requestSeq = r.requestSeq) (c : Channel) :
    ∃ e, IsUnknown r e ∧ e.isInvalidMessage = true ∧ (Response.settle requestSeq false r).run c =
      (.error (.raised e), { c.enqueueHandlers (.responses r []) with nextUid := c.nextUid + 1 }) :=
  ⟨_, ⟨c.nextUid, requestSeq, h, rfl⟩, rfl, rfl⟩

theorem setResponse_requests (c : Channel) (key k : Int) (r : Response) :
    (c.setResponse key r).requests k = if k = key then
      (c.requests key).map fun request => { request with response := some r, responseHandlers := [] }
      else c.requests k := by
  unfold Channel.setResponse
  cases hreq : c.requests key with
  | none =>
    by_cases hk : k = key
    · rw [if_pos hk, hk]
      exact hreq
    · rw [if_neg hk]
  | some request => simp [Channel.enqueueHandlers, Channel.putRequest, Function.update_apply]

/-- All pending requests have been answered with a response made for the
exception. -/
structure CleanedUp (exc : Exn) (keys : List Int) (r : Int → Response) (c c' : Channel) : Prop where
  name : c'.name = c.name
  nextSeq : c'.nextSeq = c.nextSeq
  logged : c'.logged = c.logged
  taken : c'.taken = c.taken
  sent : c'.sentRequests = []
  made : ∀ key, (r key).requestSeq = key ∧ (r key).seq = none ∧ (r key).body = .error exc
  requests : ∀ key, c'.requests key = if key ∈ keys then
    (c.requests key).map fun request => { request with response := some (r key), responseHandlers := [] }
    else c.requests key
  queue : c'.handlerQueue = c.handlerQueue ++ keys.filterMap fun key =>
    (c.requests key).map fun request => .responses (r key) request.responseHandlers

theorem setResponse_queue (c : Channel) (key : Int) (r : Response) :
    (c.setResponse key r).handlerQueue = c.handlerQueue ++
      ((c.requests key).map fun request => Handler.responses r request.responseHandlers).toList := by
  unfold Channel.setResponse
  cases hreq : c.requests key <;> simp [Channel.enqueueHandlers, Channel.putRequest]

theorem setResponse_same (c : Channel) (key : Int) (r : Response) :
    (c.setResponse key r).name = c.name ∧ (c.setResponse key r).nextSeq = c.nextSeq ∧
      (c.setResponse key r).logged = c.logged ∧ (c.setResponse key r).taken = c.taken := by
  unfold Channel.setResponse
  split <;> exact ⟨rfl, rfl, rfl, rfl⟩

theorem answerAll_cleanedUp (exc : Exn) (hexc : ∀ uid, withCause uid exc = exc) (keys : List Int)
    (c : Channel) (hsent : c.sentRequests = keys) (hnodup : keys.Nodup) :
    ∃ r c', (answerAll exc keys).run c = (.ok (), c') ∧ CleanedUp exc keys r c c' := by
  induction keys generalizing c with
  | nil =>
    refine ⟨fun key => ⟨0, none, key, "", .error exc⟩, c, rfl, rfl, rfl, rfl, rfl, hsent,
      fun key => ⟨rfl, rfl, rfl⟩, fun key => by simp, by simp⟩
  | cons key keys ih =>
    have hmem : key ∈ c.sentRequests := by simp [hsent]
    have hparse (command message : String) :
        (Response.parse (dummyResponse key command message) (some exc)).run c = _ :=
      parse_dummyResponse hmem
    obtain ⟨hnot, hnodup⟩ := List.nodup_cons.mp hnodup
    let r₀ := madeResponse exc key ((c.requests key).elim "" (·.command)) c
    let c₀ : Channel := { c with
      sentRequests := c.sentRequests.erase key, nextUid := c.nextUid + 1 }
    have hreq := setResponse_requests c₀ key
    have hqueue := setResponse_queue c₀ key r₀
    obtain ⟨hname, hseq, hlog, htaken⟩ := setResponse_same c₀ key r₀
    have hsent' : (c₀.setResponse key r₀).sentRequests = keys := by
      rw [sentRequests_setResponse]
      simp [c₀, hsent]
    obtain ⟨r, c', hrun, h⟩ := ih (c₀.setResponse key r₀) hsent' hnodup
    have hne : ∀ k ∈ keys, k ≠ key := by
      rintro k hk rfl
      exact hnot hk
    have hold : ∀ k ∈ keys, Function.update r key r₀ k = r k := fun k hk =>
      Function.update_of_ne (hne k hk) _ _
    refine ⟨Function.update r key r₀, c', ?_, h.name.trans hname, h.nextSeq.trans hseq,
      h.logged.trans hlog, h.taken.trans htaken, h.sent, fun k => ?_, fun k => ?_, ?_⟩
    · simp only [answerAll, run_bind, Proc.run_get, hparse]
      exact hrun
    · by_cases hk : k = key
      · subst hk
        rw [Function.update_self]
        exact ⟨rfl, rfl, by simp only [r₀, madeResponse, hexc]⟩
      · rw [Function.update_of_ne hk]
        exact h.made k
    · rw [h.requests, hreq]
      by_cases hk : k = key
      · subst hk
        simp [hnot, c₀]
      · by_cases hmem' : k ∈ keys <;> simp [hk, hmem', c₀]
    · rw [h.queue, hqueue, List.append_assoc]
      congr 1
      have htail : keys.filterMap (fun k => ((c₀.setResponse key r₀).requests k).map fun request =>
          Handler.responses (r k) request.responseHandlers) =
          keys.filterMap fun k => (c.requests k).map fun request =>
            .responses (Function.update r key r₀ k) request.responseHandlers := by
        refine List.filterMap_congr fun k hk => ?_
        rw [hold k hk, hreq, if_neg (hne k hk)]
      rw [htail, List.filterMap_cons, Function.update_self]
      cases c.requests key <;> simp

theorem wrapUp_cleanedUp (c : Channel) (text : String) (hnodup : c.sentRequests.Nodup) :
    ∃ r c', CleanedUp (.noMoreMessages c.name text) c.sentRequests r c c' ∧
      (wrapUp (.noMoreMessages c.name text)).run c =
        (.ok (), { c'.enqueueHandlers .disconnect with closed := true }) := by
  obtain ⟨r, c', hrun, h⟩ := answerAll_cleanedUp (.noMoreMessages c.name text) (fun _ => rfl)
    c.sentRequests c rfl hnodup
  exact ⟨r, c', h, by simp [wrapUp, run_bind, hrun, h.sent]⟩

-- ---------------------------------------------------------------------------
-- The numbers of requests
-- ---------------------------------------------------------------------------

structure Numbers (s : State) : Prop where
  fresh : ∀ key, s.channel.nextSeq ≤ key →
    s.calls key = none ∧ (s.channel.requests key).isSome = false
  numbered : ∀ key command, s.calls key = some (.numbered command) →
    (s.channel.requests key).isSome = false
  made : ∀ key, s.calls key = some .made →
    (s.channel.requests key).isSome ∧ s.response? key = none ∧ .sent key ∉ s.history
  sent : ∀ key, .sent key ∈ s.history → (s.channel.requests key).isSome

section
variable {s s' : State} {key : Int} {r : Response} {h : List Event}

theorem Numbers.of_same (hn : Numbers s) (hseq : s.channel.nextSeq ≤ s'.channel.nextSeq)
    (hcalls : s'.calls = s.calls)
    (hmade : ∀ key, (s'.channel.requests key).isSome = (s.channel.requests key).isSome)
    (hsent : ∀ key, .sent key ∈ s'.history ↔ .sent key ∈ s.history)
    (hresp : ∀ key, .sent key ∉ s.history → s'.response? key = s.response? key) : Numbers s' := by
  refine ⟨fun key hle => ?_, fun key command hc => ?_, fun key hc => ?_, fun key hs => ?_⟩
  · rw [hcalls, hmade]
    exact hn.fresh key (hseq.trans hle)
  · rw [hmade]
    exact hn.numbered key command (hcalls ▸ hc)
  · obtain ⟨hm, hr, hs⟩ := hn.made key (hcalls ▸ hc)
    rw [hmade, hsent, hresp key hs]
    exact ⟨hm, hr, hs⟩
  · rw [hmade]
    exact hn.sent key ((hsent key).mp hs)

theorem numbers_draw (hn : Numbers s) (command : String) (h : step s (.draw command) = some s') :
    Numbers s' := by
  cases h
  refine ⟨fun key hle => ?_, fun key command' hc => ?_, fun key hc => ?_, hn.sent⟩
  · have hlt : s.channel.nextSeq < key := Int.lt_of_add_one_le hle
    dsimp only
    rw [Function.update_of_ne hlt.ne']
    exact hn.fresh key hlt.le
  · by_cases hk : key = s.channel.nextSeq
    · exact (hn.fresh key hk.ge).2
    · dsimp only at hc
      rw [Function.update_of_ne hk] at hc
      exact hn.numbered key command' hc
  · have hk : key ≠ s.channel.nextSeq := by
      rintro rfl
      simp [Function.update_self] at hc
    dsimp only at hc
    rw [Function.update_of_ne hk] at hc
    exact hn.made key hc

theorem numbers_make (hn : Numbers s) (h : step s (.make key) = some s') : Numbers s' := by
  simp only [step] at h
  split at h
  swap
  · cases h
  rename_i command hcall
  cases h
  have hnone := hn.numbered key command hcall
  have hother : ∀ k, k ≠ key → Function.update s.channel.requests key
      (some { uid := s.channel.nextUid, command }) k = s.channel.requests k := fun k hk =>
    Function.update_of_ne hk _ _
  refine ⟨fun k hle => ?_, fun k command' hc => ?_, fun k hc => ?_, fun k hs => ?_⟩
  · obtain ⟨hc, hr⟩ := hn.fresh k hle
    have hk : k ≠ key := by
      rintro rfl
      cases hcall.symm.trans hc
    dsimp only [Channel.putRequest]
    rw [Function.update_of_ne hk, hother k hk]
    exact ⟨hc, hr⟩
  · have hk : k ≠ key := by
      rintro rfl
      simp [Function.update_self] at hc
    dsimp only [Channel.putRequest] at hc ⊢
    rw [Function.update_of_ne hk] at hc
    rw [hother k hk]
    exact hn.numbered k command' hc
  · by_cases hk : k = key
    · subst hk
      simp only [Channel.putRequest, State.response?, Function.update_self]
      refine ⟨rfl, rfl, fun hs => ?_⟩
      rw [hn.sent k hs] at hnone
      cases hnone
    · dsimp only [Channel.putRequest, State.response?] at hc ⊢
      rw [Function.update_of_ne hk] at hc
      rw [hother k hk]
      exact hn.made k hc
  · have hk : k ≠ key := by
      rintro rfl
      rw [hn.sent k hs] at hnone
      cases hnone
    dsimp only [Channel.putRequest]
    rw [hother k hk]
    exact hn.sent k hs

theorem numbers_over (hn : Numbers s) (hcall : s.calls key = some .made)
    (hchannel : s'.channel.nextSeq = s.channel.nextSeq ∧ s'.channel.requests = s.channel.requests)
    (hcalls : s'.calls = Function.update s.calls key none)
    (hsent : ∀ k, .sent k ∈ s'.history → .sent k ∈ s.history ∨ k = key) : Numbers s' := by
  obtain ⟨hseq, hreq⟩ := hchannel
  have hold : ∀ k call, s'.calls k = some call → k ≠ key ∧ s.calls k = some call := by
    intro k call hc
    rw [hcalls] at hc
    have hk : k ≠ key := by
      rintro rfl
      rw [Function.update_self] at hc
      cases hc
    rw [Function.update_of_ne hk] at hc
    exact ⟨hk, hc⟩
  refine ⟨fun k hle => ?_, fun k command hc => ?_, fun k hc => ?_, fun k hs => ?_⟩
  · obtain ⟨hc, hr⟩ := hn.fresh k (hseq ▸ hle)
    rw [hreq, hcalls]
    refine ⟨?_, hr⟩
    by_cases hk : k = key
    · rw [hk, Function.update_self]
    · rw [Function.update_of_ne hk]
      exact hc
  · rw [hreq]
    exact hn.numbered k command (hold k _ hc).2
  · obtain ⟨hk, hc⟩ := hold k _ hc
    obtain ⟨hm, hr, hs⟩ := hn.made k hc
    rw [State.response?, hreq]
    exact ⟨hm, hr, fun hs' => (hsent k hs').elim hs hk⟩
  · rw [hreq]
    rcases hsent k hs with hs | rfl
    · exact hn.sent k hs
    · exact (hn.made k hcall).1

-- ---------------------------------------------------------------------------
-- The table of requests
-- ---------------------------------------------------------------------------

theorem Outstanding.sent (ho : Outstanding h key) : .sent key ∈ h := by
  obtain ⟨pre, e, mid, rfl, hs, -⟩ := ho
  cases e with
  | sent k =>
    cases hs
    simp
  | received | ended => cases hs

theorem AnsweredBy.sent (ha : AnsweredBy h key e) : .sent key ∈ h := by
  obtain ⟨pre, post, rfl, ho, -⟩ := ha
  exact List.mem_append_left _ (Outstanding.sent ho)

/-- What the parser thread has read is in the history, and in the response of
its request as soon as it has settled. -/
structure Table (s : State) : Prop where
  nodup : s.channel.sentRequests.Nodup
  table : ∀ key, key ∈ s.channel.sentRequests ↔ Outstanding s.history key
  pending : ∀ key ∈ s.channel.sentRequests, s.response? key = none
  first : ∀ key r, s.response? key = some r →
    r.requestSeq = key ∧ ∃ e, AnsweredBy s.history key e ∧ e.Sets r
  all : ∀ key e, AnsweredBy s.history key e → (∃ r, s.response? key = some r ∧ e.Sets r) ∨
    ∃ requestSeq r, s.parser = .settling requestSeq true r ∧ r.requestSeq = key ∧ e.Sets r
  settling : ∀ requestSeq known r, s.parser = .settling requestSeq known r →
    asInt requestSeq = r.requestSeq ∧ (known = true → s.response? r.requestSeq = none ∧
      r.requestSeq ∉ s.channel.sentRequests ∧ AnsweredBy s.history r.requestSeq (.received r))
  rejected : ∀ pre r post, s.history = pre ++ .received r :: post →
    ¬ Outstanding pre r.requestSeq → (∃ e ∈ s.channel.logged, IsUnknown r e) ∨
      ∃ requestSeq, s.parser = .settling requestSeq false r

structure Inv (s : State) : Prop where
  numbers : Numbers s
  table : Table s

/-- What a step does to the table, the responses, the history and the log. -/
inductive Effect (s s' : State) : Prop
  | same : (∀ key, s'.response? key = s.response? key) →
      s'.channel.sentRequests = s.channel.sentRequests → s'.history = s.history →
      s'.channel.logged = s.channel.logged →
      (s'.parser = s.parser ∨ s.parser = .reading ∧ s'.parser = .died) → Effect s s'
  | inserts (key : Int) : .sent key ∉ s.history → s.response? key = none →
      (∀ key, s'.response? key = s.response? key) →
      s'.channel.sentRequests = s.channel.sentRequests ++ [key] →
      s'.history = s.history ++ [.sent key] → s'.channel.logged = s.channel.logged →
      s'.parser = s.parser → Effect s s'
  | takes (requestSeq : Property) (r : Response) : s.parser = .reading →
      asInt requestSeq = r.requestSeq → (∀ key, s'.response? key = s.response? key) →
      s'.channel.sentRequests = s.channel.sentRequests.erase r.requestSeq →
      s'.history = s.history ++ [.received r] → s'.channel.logged = s.channel.logged →
      s'.parser = .settling requestSeq (decide (r.requestSeq ∈ s.channel.sentRequests)) r →
      Effect s s'
  | sets (requestSeq : Property) (r : Response) : s.parser = .settling requestSeq true r →
      (∀ key, s'.response? key = if key = r.requestSeq then some r else s.response? key) →
      s'.channel.sentRequests = s.channel.sentRequests → s'.history = s.history →
      s'.channel.logged = s.channel.logged → s'.parser = .reading → Effect s s'
  | rejects (requestSeq : Property) (r : Response) (e : Exn) :
      s.parser = .settling requestSeq false r → IsUnknown r e →
      (∀ key, s'.response? key = s.response? key) →
      s'.channel.sentRequests = s.channel.sentRequests → s'.history = s.history →
      s'.channel.logged = s.channel.logged ++ [e] → s'.parser = .reading → Effect s s'
  | ends (exc : Exn) (r : Int → Response) : s.parser = .reading →
      (∀ key, (r key).requestSeq = key ∧ Event.Sets (r key) (.ended exc)) →
      (∀ key, s'.response? key =
        if key ∈ s.channel.sentRequests then some (r key) else s.response? key) →
      s'.channel.sentRequests = [] → s'.history = s.history ++ [.ended exc] →
      s'.channel.logged = s.channel.logged → s'.parser = .ended → Effect s s'

theorem outstanding_append : Outstanding (h ++ [e]) key ↔
    e.Sends key ∨ Outstanding h key ∧ ¬ e.Answers key := History.open_append

theorem answeredBy_append : AnsweredBy (h ++ [e']) key e ↔
    AnsweredBy h key e ∨ e = e' ∧ Outstanding h key ∧ e.Answers key := History.closes_append

theorem table_same (ht : Table s) (hresp : ∀ key, s'.response? key = s.response? key)
    (hsent : s'.channel.sentRequests = s.channel.sentRequests) (hhist : s'.history = s.history)
    (hlog : s'.channel.logged = s.channel.logged)
    (hp : s'.parser = s.parser ∨ s.parser = .reading ∧ s'.parser = .died) : Table s' := by
  have hsettling : ∀ requestSeq known r, s'.parser = .settling requestSeq known r ↔
      s.parser = .settling requestSeq known r := by
    intro requestSeq known r
    rcases hp with hp | ⟨hp, hp'⟩
    · rw [hp]
    · simp [hp, hp']
  refine ⟨?_, ?_, ?_, ?_, ?_, ?_, ?_⟩
  all_goals simp only [hsent, hhist, hlog, hresp, hsettling]
  · exact ht.nodup
  · exact ht.table
  · exact ht.pending
  · exact ht.first
  · exact ht.all
  · exact ht.settling
  · exact ht.rejected

theorem table_insert (ht : Table s) (hnew : .sent key ∉ s.history) (hnone : s.response? key = none)
    (hresp : ∀ key, s'.response? key = s.response? key)
    (hsent : s'.channel.sentRequests = s.channel.sentRequests ++ [key])
    (hhist : s'.history = s.history ++ [.sent key])
    (hlog : s'.channel.logged = s.channel.logged) (hp : s'.parser = s.parser) : Table s' := by
  have hout : key ∉ s.channel.sentRequests := fun hmem =>
    hnew ((ht.table key).mp hmem).sent
  have hans : ∀ k e, AnsweredBy s'.history k e ↔ AnsweredBy s.history k e := by
    intro k e
    rw [hhist, answeredBy_append]
    refine or_iff_left ?_
    rintro ⟨rfl, -, h⟩
    cases h
  refine ⟨?_, fun k => ?_, fun k hk => ?_, ?_, ?_, fun requestSeq known r hset => ?_,
    fun pre r post hsplit ho => ?_⟩
  · rw [hsent]
    exact List.nodup_append.mpr ⟨ht.nodup, by simp, by
      rintro a ha b hb rfl
      exact hout (List.mem_singleton.mp hb ▸ ha)⟩
  · rw [hsent, hhist, outstanding_append, List.mem_append, List.mem_singleton, ht.table]
    constructor
    · rintro (ho | rfl)
      · exact .inr ⟨ho, fun h => h⟩
      · exact .inl rfl
    · rintro (heq | ⟨ho, -⟩)
      · exact .inr (Eq.symm heq)
      · exact .inl ho
  · rw [hresp]
    rw [hsent] at hk
    rcases List.mem_append.mp hk with hk | hk
    · exact ht.pending k hk
    · rwa [List.mem_singleton.mp hk]
  · simp only [hresp, hans]
    exact ht.first
  · simp only [hresp, hans, hp]
    exact ht.all
  · obtain ⟨hseq, hknown⟩ := ht.settling requestSeq known r (hp ▸ hset)
    refine ⟨hseq, fun hk => ?_⟩
    obtain ⟨hr, hmem, ha⟩ := hknown hk
    rw [hresp, hsent, hans]
    refine ⟨hr, fun hmem' => ?_, ha⟩
    rcases List.mem_append.mp hmem' with hmem' | hmem'
    · exact hmem hmem'
    · exact hnew (List.mem_singleton.mp hmem' ▸ ha.sent)
  · rw [hhist] at hsplit
    rw [hlog, hp]
    rcases History.split_last hsplit with ⟨-, heq, -⟩ | ⟨post', -, hsplit'⟩
    · cases heq
    · exact ht.rejected pre r post' hsplit' ho

theorem table_take (ht : Table s) (hread : s.parser = .reading) (hseq : asInt requestSeq = r.requestSeq)
    (hresp : ∀ key, s'.response? key = s.response? key)
    (hsent : s'.channel.sentRequests = s.channel.sentRequests.erase r.requestSeq)
    (hhist : s'.history = s.history ++ [.received r])
    (hlog : s'.channel.logged = s.channel.logged)
    (hp : s'.parser = .settling requestSeq (decide (r.requestSeq ∈ s.channel.sentRequests)) r) :
    Table s' := by
  refine ⟨?_, fun k => ?_, fun k hk => ?_, fun k r' hr => ?_, fun k e ha => ?_,
    fun requestSeq' known r' hset => ?_, fun pre r' post hsplit ho => ?_⟩
  · rw [hsent]
    exact ht.nodup.erase _
  · rw [hsent, hhist, outstanding_append, ht.nodup.mem_erase_iff, ht.table]
    constructor
    · rintro ⟨hne, ho⟩
      exact .inr ⟨ho, fun heq => hne (Eq.symm heq)⟩
    · rintro (h | ⟨ho, hne⟩)
      · cases h
      · exact ⟨fun heq => hne (Eq.symm heq), ho⟩
  · rw [hresp]
    rw [hsent] at hk
    exact ht.pending k (List.mem_of_mem_erase hk)
  · rw [hresp] at hr
    obtain ⟨heq, e, ha, hs⟩ := ht.first k r' hr
    rw [hhist]
    exact ⟨heq, e, answeredBy_append.mpr (.inl ha), hs⟩
  · rw [hhist, answeredBy_append] at ha
    rcases ha with ha | ⟨rfl, ho, heq⟩
    · rcases ht.all k e ha with ⟨r', hr, hs⟩ | ⟨requestSeq', r', hset, -⟩
      · exact .inl ⟨r', by rwa [hresp], hs⟩
      · rw [hread] at hset
        cases hset
    · have heq' : r.requestSeq = k := heq
      have hmem : r.requestSeq ∈ s.channel.sentRequests := (ht.table _).mpr (heq' ▸ ho)
      exact .inr ⟨requestSeq, r, by rw [hp, decide_eq_true hmem], heq', rfl⟩
  · rw [hp] at hset
    cases hset
    refine ⟨hseq, fun hknown => ?_⟩
    have hmem := of_decide_eq_true hknown
    rw [hresp, hsent, hhist]
    exact ⟨ht.pending _ hmem, fun h => (ht.nodup.mem_erase_iff.mp h).1 rfl,
      answeredBy_append.mpr (.inr ⟨rfl, (ht.table _).mp hmem, rfl⟩)⟩
  · rw [hhist] at hsplit
    rcases History.split_last hsplit with ⟨rfl, heq, -⟩ | ⟨post', -, hsplit'⟩
    · cases heq
      refine .inr ⟨requestSeq, ?_⟩
      rw [hp, decide_eq_false fun hmem => ho ((ht.table _).mp hmem)]
    · rcases ht.rejected pre r' post' hsplit' ho with hl | ⟨requestSeq', hset⟩
      · rw [hlog]
        exact .inl hl
      · rw [hread] at hset
        cases hset

theorem table_set (ht : Table s) (hset : s.parser = .settling requestSeq true r)
    (hresp : ∀ key, s'.response? key = if key = r.requestSeq then some r else s.response? key)
    (hsent : s'.channel.sentRequests = s.channel.sentRequests) (hhist : s'.history = s.history)
    (hlog : s'.channel.logged = s.channel.logged) (hp : s'.parser = .reading) : Table s' := by
  obtain ⟨-, hknown⟩ := ht.settling _ _ _ hset
  obtain ⟨hnone, hout, hanswered⟩ := hknown rfl
  refine ⟨hsent ▸ ht.nodup, ?_, fun k hk => ?_, fun k r' hr => ?_, fun k e ha => ?_,
    fun requestSeq' known r' hset' => ?_, fun pre r' post hsplit ho => ?_⟩
  · rw [hsent, hhist]
    exact ht.table
  · rw [hsent] at hk
    rw [hresp, if_neg]
    · exact ht.pending k hk
    · rintro rfl
      exact hout hk
  · rw [hhist]
    rw [hresp] at hr
    split at hr
    · rename_i heq
      cases hr
      exact ⟨heq.symm, .received r, heq ▸ hanswered, rfl⟩
    · exact ht.first k r' hr
  · rw [hhist] at ha
    refine .inl ?_
    rcases ht.all k e ha with ⟨r', hr, hs⟩ | ⟨requestSeq', r', hset', heq, hs⟩
    · refine ⟨r', ?_, hs⟩
      rw [hresp, if_neg]
      · exact hr
      · rintro rfl
        cases hnone.symm.trans hr
    · cases hset.symm.trans hset'
      exact ⟨r, by rw [hresp, if_pos heq.symm], hs⟩
  · rw [hp] at hset'
    cases hset'
  · rw [hhist] at hsplit
    rw [hlog]
    rcases ht.rejected pre r' post hsplit ho with hl | ⟨requestSeq', hset'⟩
    · exact .inl hl
    · cases hset.symm.trans hset'

theorem table_reject (ht : Table s) (hset : s.parser = .settling requestSeq false r)
    (he : IsUnknown r e) (hresp : ∀ key, s'.response? key = s.response? key)
    (hsent : s'.channel.sentRequests = s.channel.sentRequests) (hhist : s'.history = s.history)
    (hlog : s'.channel.logged = s.channel.logged ++ [e]) (hp : s'.parser = .reading) : Table s' := by
  refine ⟨hsent ▸ ht.nodup, ?_, ?_, ?_, fun k e' ha => ?_,
    fun requestSeq' known r' hset' => ?_, fun pre r' post hsplit ho => ?_⟩
  · rw [hsent, hhist]
    exact ht.table
  · simp only [hsent, hresp]
    exact ht.pending
  · simp only [hhist, hresp]
    exact ht.first
  · rw [hhist] at ha
    rcases ht.all k e' ha with ⟨r', hr, hs⟩ | ⟨requestSeq', r', hset', -⟩
    · exact .inl ⟨r', by rwa [hresp], hs⟩
    · cases hset.symm.trans hset'
  · rw [hp] at hset'
    cases hset'
  · rw [hhist] at hsplit
    rw [hlog]
    refine .inl ?_
    rcases ht.rejected pre r' post hsplit ho with ⟨e', hmem, he'⟩ | ⟨requestSeq', hset'⟩
    · exact ⟨e', List.mem_append_left _ hmem, he'⟩
    · cases hset.symm.trans hset'
      exact ⟨e, by simp, he⟩

theorem table_end (ht : Table s) (hread : s.parser = .reading)
    {r : Int → Response} (hmade : ∀ key, (r key).requestSeq = key ∧ Event.Sets (r key) (.ended exc))
    (hresp : ∀ key, s'.response? key =
      if key ∈ s.channel.sentRequests then some (r key) else s.response? key)
    (hsent : s'.channel.sentRequests = []) (hhist : s'.history = s.history ++ [.ended exc])
    (hlog : s'.channel.logged = s.channel.logged) (hp : s'.parser = .ended) : Table s' := by
  refine ⟨by simp [hsent], fun k => ?_, by simp [hsent], fun k r' hr => ?_, fun k e ha => ?_,
    fun requestSeq known r' hset => ?_, fun pre r' post hsplit ho => ?_⟩
  · rw [hsent, hhist, outstanding_append]
    refine iff_of_false List.not_mem_nil ?_
    rintro (h | ⟨-, h⟩)
    · cases h
    · exact h trivial
  · rw [hhist]
    rw [hresp] at hr
    split at hr
    · rename_i hmem
      cases hr
      exact ⟨(hmade k).1, _, answeredBy_append.mpr (.inr ⟨rfl, (ht.table k).mp hmem, trivial⟩),
        (hmade k).2⟩
    · obtain ⟨heq, e, ha, hs⟩ := ht.first k r' hr
      exact ⟨heq, e, answeredBy_append.mpr (.inl ha), hs⟩
  · refine .inl ?_
    rw [hhist, answeredBy_append] at ha
    rcases ha with ha | ⟨rfl, ho, -⟩
    · rcases ht.all k e ha with ⟨r', hr, hs⟩ | ⟨requestSeq, r', hset, -⟩
      · refine ⟨r', ?_, hs⟩
        rw [hresp, if_neg]
        · exact hr
        · intro hmem
          cases (ht.pending k hmem).symm.trans hr
      · rw [hread] at hset
        cases hset
    · exact ⟨r k, by rw [hresp, if_pos ((ht.table k).mpr ho)], (hmade k).2⟩
  · rw [hp] at hset
    cases hset
  · rw [hhist] at hsplit
    rw [hlog]
    rcases History.split_last hsplit with ⟨-, heq, -⟩ | ⟨post', -, hsplit'⟩
    · cases heq
    · rcases ht.rejected pre r' post' hsplit' ho with hl | ⟨requestSeq, hset⟩
      · exact .inl hl
      · rw [hread] at hset
        cases hset

theorem table_effect (ht : Table s) (he : Effect s s') : Table s' := by
  cases he with
  | same hresp hsent hhist hlog hp => exact table_same ht hresp hsent hhist hlog hp
  | inserts key hnew hnone hresp hsent hhist hlog hp =>
    exact table_insert ht hnew hnone hresp hsent hhist hlog hp
  | takes requestSeq r hread hseq hresp hsent hhist hlog hp =>
    exact table_take ht hread hseq hresp hsent hhist hlog hp
  | sets requestSeq r hset hresp hsent hhist hlog hp =>
    exact table_set ht hset hresp hsent hhist hlog hp
  | rejects requestSeq r e hset hunknown hresp hsent hhist hlog hp =>
    exact table_reject ht hset hunknown hresp hsent hhist hlog hp
  | ends exc r hread hmade hresp hsent hhist hlog hp =>
    exact table_end ht hread hmade hresp hsent hhist hlog hp

theorem kept_effect (ht : Table s) (he : Effect s s') (hr : s.response? key = some r) :
    s'.response? key = some r := by
  cases he with
  | same hresp => rwa [hresp]
  | inserts _ _ _ hresp => rwa [hresp]
  | takes _ _ _ _ hresp => rwa [hresp]
  | rejects _ _ _ _ _ hresp => rwa [hresp]
  | sets requestSeq r' hset hresp =>
    obtain ⟨-, hknown⟩ := ht.settling _ _ _ hset
    rw [hresp, if_neg]
    · exact hr
    · rintro rfl
      cases (hknown rfl).1.symm.trans hr
  | ends exc r' _ _ hresp =>
    rw [hresp, if_neg]
    · exact hr
    · intro hmem
      cases (ht.pending key hmem).symm.trans hr

-- ---------------------------------------------------------------------------
-- Steps
-- ---------------------------------------------------------------------------

theorem response?_act (c : Channel) (a : Channel.Action) (ha : ∀ command, a ≠ .sendRequest command)
    (key : Int) : ((c.act a).requests key).bind (·.response) = (c.requests key).bind (·.response) ∧
      ((c.act a).requests key).isSome = (c.requests key).isSome := by
  cases a with
  | sendRequest command => exact absurd rfl (ha command)
  | sendOther | takeBatch | close => exact ⟨rfl, rfl⟩
  | onResponse k handler =>
    simp only [Channel.act, Channel.onResponse]
    split
    · exact ⟨rfl, rfl⟩
    · rename_i request hreq
      by_cases hk : key = k
      · subst hk
        split <;> rename_i hr <;>
          simp [Channel.putRequest, Channel.enqueueHandlers, hreq, hr]
      · split <;> simp [Channel.putRequest, Channel.enqueueHandlers, hk]

theorem act_same (c : Channel) (a : Channel.Action) (ha : ∀ command, a ≠ .sendRequest command) :
    (c.act a).sentRequests = c.sentRequests ∧ (c.act a).logged = c.logged ∧
      c.nextSeq ≤ (c.act a).nextSeq := by
  cases a with
  | sendRequest command => exact absurd rfl (ha command)
  | sendOther => exact ⟨rfl, rfl, Int.le_add_one le_rfl⟩
  | takeBatch | close => exact ⟨rfl, rfl, le_rfl⟩
  | onResponse k handler =>
    simp only [Channel.act, Channel.onResponse]
    split
    · exact ⟨rfl, rfl, le_rfl⟩
    · split <;> exact ⟨rfl, rfl, le_rfl⟩

theorem step_act (h : step s (.act a) = some s') :
    (∀ command, a ≠ .sendRequest command) ∧ s' = { s with channel := s.channel.act a } := by
  cases a <;> cases h <;> exact ⟨nofun, rfl⟩

theorem response?_setResponse {s : State} (hm : (s.channel.requests r.requestSeq).isSome) (key : Int) :
    ((s.channel.setResponse r.requestSeq r).requests key).bind (·.response) =
      if key = r.requestSeq then some r else s.response? key := by
  obtain ⟨request, hreq⟩ := Option.isSome_iff_exists.mp hm
  rw [setResponse_requests]
  split
  · rw [hreq]
    rfl
  · rfl

theorem isSome_setResponse (c : Channel) (k : Int) (r : Response) (key : Int) :
    ((c.setResponse k r).requests key).isSome = (c.requests key).isSome := by
  rw [setResponse_requests]
  split
  · rename_i heq
    rw [heq, Option.isSome_map]
  · rfl

theorem step_receive (h : step s (.receive value) = some s') : s.parser = .reading ∧
    ((∃ handler, IsMessage handler ∧
        s' = { s with channel := s.channel.enqueueHandlers handler }) ∨
      (∃ requestSeq r n, asInt requestSeq = r.requestSeq ∧
        (Debugpy.receive value).run s.channel =
          (.ok (some (requestSeq, decide (r.requestSeq ∈ s.channel.sentRequests), r)), s'.channel) ∧
        s' = { s with
          channel := { s.channel with
            sentRequests := s.channel.sentRequests.erase r.requestSeq, nextUid := n }
          parser := .settling requestSeq (decide (r.requestSeq ∈ s.channel.sentRequests)) r
          history := s.history ++ [.received r] }) ∨
      s' = { s with parser := .died }) := by
  simp only [step] at h
  split at h
  swap
  · cases h
  rename_i hread
  refine ⟨hread, ?_⟩
  have hrun := receive_run value s.channel
  generalize (Debugpy.receive value).run s.channel = out at h hrun
  cases hrun with
  | message handler hmessage =>
    cases h
    exact .inl ⟨handler, hmessage, rfl⟩
  | response requestSeq r n hseq =>
    cases h
    exact .inr (.inl ⟨requestSeq, r, n, hseq, rfl, rfl⟩)
  | fatal e =>
    cases h
    exact .inr (.inr rfl)

theorem step_settle (h : step s (.settle) = some s') : ∃ requestSeq known r,
    s.parser = .settling requestSeq known r ∧
      (known = true → s' = { s with
        channel := s.channel.setResponse r.requestSeq r, parser := .reading }) ∧
      (known = false → asInt requestSeq = r.requestSeq → ∃ e, IsUnknown r e ∧ s' = { s with
        channel := { s.channel.enqueueHandlers (.responses r []) with
          nextUid := s.channel.nextUid + 1, logged := s.channel.logged ++ [e] }
        parser := .reading }) := by
  simp only [step] at h
  split at h
  swap
  · cases h
  rename_i requestSeq known r hset
  refine ⟨requestSeq, known, r, hset, fun hk => ?_, fun hk hseq => ?_⟩
  · subst hk
    rw [settle_known] at h
    cases h
    rfl
  · subst hk
    obtain ⟨e, he, hinvalid, hrun⟩ := settle_unknown hseq s.channel
    rw [hrun] at h
    simp only [hinvalid, if_true] at h
    cases h
    exact ⟨e, he, rfl⟩

theorem step_noMoreMessages (h : step s (.noMoreMessages text) = some s')
    (hnodup : s.channel.sentRequests.Nodup) : s.parser = .reading ∧ ∃ r c',
      CleanedUp (.noMoreMessages s.channel.name text) s.channel.sentRequests r s.channel c' ∧
        s' = { s with
          channel := { c'.enqueueHandlers .disconnect with closed := true }
          parser := .ended
          history := s.history ++ [.ended (.noMoreMessages s.channel.name text)] } := by
  simp only [step] at h
  split at h
  swap
  · cases h
  rename_i hread
  obtain ⟨r, c', hclean, hrun⟩ := wrapUp_cleanedUp s.channel text hnodup
  rw [hrun] at h
  cases h
  exact ⟨hread, r, c', hclean, rfl⟩

theorem step_effect {label : Label} (hi : Inv s) (h : step s label = some s') : Effect s s' := by
  obtain ⟨hn, ht⟩ := hi
  cases label with
  | draw command =>
    cases h
    exact .same (fun _ => rfl) rfl rfl rfl (.inl rfl)
  | make key =>
    simp only [step] at h
    split at h
    swap
    · cases h
    rename_i command hcall
    cases h
    refine .same (fun k => ?_) rfl rfl rfl (.inl rfl)
    have hnone : s.channel.requests key = none := by
      simpa using hn.numbered key command hcall
    by_cases hk : k = key
    · subst hk
      simp [State.response?, Channel.putRequest, hnone]
    · simp [State.response?, Channel.putRequest, hk]
  | insert key =>
    simp only [step] at h
    split at h
    swap
    · cases h
    rename_i hcall
    cases h
    obtain ⟨-, hnone, hnew⟩ := hn.made key hcall
    exact .inserts key hnew hnone (fun _ => rfl) rfl rfl rfl rfl
  | abandon key =>
    simp only [step] at h
    split at h <;> cases h
    exact .same (fun _ => rfl) rfl rfl rfl (.inl rfl)
  | act a =>
    obtain ⟨ha, rfl⟩ := step_act h
    obtain ⟨hsent, hlog, -⟩ := act_same s.channel a ha
    exact .same (fun key => (response?_act s.channel a ha key).1) hsent rfl hlog (.inl rfl)
  | receive value =>
    obtain ⟨hread, ⟨handler, -, rfl⟩ | ⟨requestSeq, r, n, hseq, -, rfl⟩ | rfl⟩ := step_receive h
    · exact .same (fun _ => rfl) rfl rfl rfl (.inl rfl)
    · exact .takes requestSeq r hread hseq (fun _ => rfl) rfl rfl rfl rfl
    · exact .same (fun _ => rfl) rfl rfl rfl (.inr ⟨hread, rfl⟩)
  | settle =>
    obtain ⟨requestSeq, known, r, hset, hknown, hunknown⟩ := step_settle h
    obtain ⟨hseq, hans⟩ := ht.settling _ _ _ hset
    cases known with
    | true =>
      obtain ⟨-, -, hanswered⟩ := hans rfl
      cases hknown rfl
      obtain ⟨-, -, hlog, -⟩ := setResponse_same s.channel r.requestSeq r
      exact .sets requestSeq r hset (response?_setResponse (hn.sent _ hanswered.sent))
        (sentRequests_setResponse _ _ _) rfl hlog rfl
    | false =>
      obtain ⟨e, he, rfl⟩ := hunknown rfl hseq
      exact .rejects requestSeq r e hset he (fun _ => rfl) rfl rfl rfl rfl
  | noMoreMessages text =>
    obtain ⟨hread, r, c', hclean, rfl⟩ := step_noMoreMessages h ht.nodup
    refine .ends _ r hread (fun key => ?_) (fun key => ?_) hclean.sent rfl hclean.logged rfl
    · obtain ⟨hkey, hseq, hbody⟩ := hclean.made key
      exact ⟨hkey, hseq, hbody⟩
    · change (c'.requests key).bind (·.response) = _
      rw [hclean.requests]
      split
      · rename_i hmem
        obtain ⟨request, hsome⟩ :=
          Option.isSome_iff_exists.mp (hn.sent key ((ht.table key).mp hmem).sent)
        simp [hsome]
      · rfl
  | fail =>
    simp only [step] at h
    split at h <;> cases h
    exact .same (fun _ => rfl) rfl rfl rfl (.inr ⟨‹_›, rfl⟩)

theorem inv_step {label : Label} (hi : Inv s) (h : step s label = some s') : Inv s' := by
  refine ⟨?_, table_effect hi.table (step_effect hi h)⟩
  obtain ⟨hn, ht⟩ := hi
  cases label with
  | draw command => exact numbers_draw hn command h
  | make key => exact numbers_make hn h
  | insert key =>
    simp only [step] at h
    split at h <;> cases h
    refine numbers_over hn ‹_› ⟨rfl, rfl⟩ rfl fun k hk => ?_
    rcases List.mem_append.mp hk with hk | hk
    · exact .inl hk
    · cases List.mem_singleton.mp hk
      exact .inr rfl
  | abandon key =>
    simp only [step] at h
    split at h <;> cases h
    exact numbers_over hn ‹_› ⟨rfl, rfl⟩ rfl fun k hk => .inl hk
  | act a =>
    obtain ⟨ha, rfl⟩ := step_act h
    obtain ⟨-, -, hseq⟩ := act_same s.channel a ha
    exact hn.of_same hseq rfl (fun key => (response?_act s.channel a ha key).2) (fun _ => .rfl)
      fun key _ => (response?_act s.channel a ha key).1
  | receive value =>
    obtain ⟨-, ⟨handler, -, rfl⟩ | ⟨requestSeq, r, n, -, -, rfl⟩ | rfl⟩ := step_receive h
    · exact hn.of_same le_rfl rfl (fun _ => rfl) (fun _ => .rfl) fun _ _ => rfl
    · exact hn.of_same le_rfl rfl (fun _ => rfl) (fun _ => by simp) fun _ _ => rfl
    · exact hn.of_same le_rfl rfl (fun _ => rfl) (fun _ => .rfl) fun _ _ => rfl
  | settle =>
    obtain ⟨requestSeq, known, r, hset, hknown, hunknown⟩ := step_settle h
    obtain ⟨hseq, hans⟩ := ht.settling _ _ _ hset
    cases known with
    | true =>
      obtain ⟨-, -, hanswered⟩ := hans rfl
      cases hknown rfl
      obtain ⟨-, hnext, -⟩ := setResponse_same s.channel r.requestSeq r
      refine hn.of_same hnext.ge rfl (fun key => isSome_setResponse ..) (fun _ => .rfl)
        fun key hnot => ?_
      refine (response?_setResponse (hn.sent _ hanswered.sent) key).trans (if_neg ?_)
      rintro rfl
      exact hnot hanswered.sent
    | false =>
      obtain ⟨e, he, rfl⟩ := hunknown rfl hseq
      exact hn.of_same le_rfl rfl (fun _ => rfl) (fun _ => .rfl) fun _ _ => rfl
  | noMoreMessages text =>
    obtain ⟨hread, r, c', hclean, rfl⟩ := step_noMoreMessages h ht.nodup
    refine hn.of_same hclean.nextSeq.ge rfl (fun key => ?_) (fun _ => by simp) fun key hnot => ?_
    · have hreq := hclean.requests key
      dsimp only [Channel.enqueueHandlers]
      rw [hreq]
      split
      · exact Option.isSome_map
      · rfl
    · change (c'.requests key).bind (·.response) = _
      rw [hclean.requests, if_neg]
      · rfl
      · exact fun hmem => hnot ((ht.table key).mp hmem).sent
  | fail =>
    simp only [step] at h
    split at h <;> cases h
    exact hn.of_same le_rfl rfl (fun _ => rfl) (fun _ => .rfl) fun _ _ => rfl

theorem inv_new (name : String) : Inv { channel := { name } } := by
  have hnone : ∀ key e, ¬ AnsweredBy [] key e := fun key e => History.not_closes_nil
  refine ⟨⟨fun _ _ => ⟨rfl, rfl⟩, fun _ _ h => (nomatch h), fun _ h => (nomatch h),
    fun _ h => (nomatch h)⟩, ?_⟩
  exact ⟨.nil, fun key => iff_of_false List.not_mem_nil History.not_open_nil,
    fun _ h => (nomatch h), fun _ _ h => (nomatch h), fun key e h => absurd h (hnone key e),
    fun _ _ _ h => (nomatch h), fun pre r post h => by simp at h⟩

theorem others_unchanged {label : Label} (hi : Inv s) (h : step s label = some s')
    (hr : Rejects s label) : s'.channel.requests = s.channel.requests ∧
      s'.channel.sentRequests = s.channel.sentRequests := by
  unfold Rejects at hr
  split at hr
  · obtain ⟨requestSeq, r, c, hrun⟩ := hr
    obtain ⟨-, ⟨handler, -, rfl⟩ | ⟨requestSeq', r', n, -, hrun', rfl⟩ | rfl⟩ := step_receive h
    · exact ⟨rfl, rfl⟩
    · have heq := congrArg Prod.fst (hrun.symm.trans hrun')
      have hout : r'.requestSeq ∉ s.channel.sentRequests := by
        simp only [Except.ok.injEq, Option.some.injEq, Prod.mk.injEq] at heq
        exact of_decide_eq_false heq.2.1.symm
      exact ⟨rfl, List.erase_of_not_mem hout⟩
    · exact ⟨rfl, rfl⟩
  · obtain ⟨requestSeq, known, r, hset, -, hunknown⟩ := step_settle h
    rename_i heq
    cases heq.symm.trans hset
    subst hr
    obtain ⟨e, -, rfl⟩ := hunknown rfl (hi.table.settling _ _ _ hset).1
    exact ⟨rfl, rfl⟩
  · exact hr.elim

theorem step_history {label : Label} (hnodup : s.channel.sentRequests.Nodup)
    (h : step s label = some s') : s'.history = s.history ++ events s label := by
  cases label with
  | draw command =>
    cases h
    exact (List.append_nil _).symm
  | make key | insert key | abandon key | fail =>
    simp only [step] at h
    split at h
    all_goals
      cases h
      try simp only [events, List.append_nil]
  | act a =>
    obtain ⟨-, rfl⟩ := step_act h
    exact (List.append_nil _).symm
  | receive value =>
    simp only [step] at h
    split at h
    swap
    · cases h
    split at h
    all_goals
      rename_i hrun
      cases h
      simp only [events, hrun, List.append_nil]
  | settle =>
    simp only [step] at h
    split at h
    swap
    · cases h
    split at h
    · cases h
      exact (List.append_nil _).symm
    · split at h <;> cases h <;> exact (List.append_nil _).symm
    · cases h
      exact (List.append_nil _).symm
  | noMoreMessages text =>
    obtain ⟨-, r, c', -, rfl⟩ := step_noMoreMessages h hnodup
    rfl

theorem read_receive (hread : s.parser = .reading) (ht : HasType d .response)
    (hw : WellTyped .response d) : ∃ requestSeq r s',
      isInt (Json.get? d "request_seq") = .ok requestSeq ∧ asInt requestSeq = r.requestSeq ∧
        step s (.receive (.dict d)) = some s' ∧ events s (.receive (.dict d)) = [.received r] ∧
        s'.parser = .settling requestSeq (decide (r.requestSeq ∈ s.channel.sentRequests)) r := by
  obtain ⟨requestSeq, r, n, hreq, hseq, htake⟩ := take_run hw s.channel
  have hrun : (Debugpy.receive (.dict d)).run s.channel =
      (.ok (some (requestSeq, decide (r.requestSeq ∈ s.channel.sentRequests), r)),
        { s.channel with sentRequests := s.channel.sentRequests.erase r.requestSeq, nextUid := n }) := by
    simp only [Debugpy.receive, run_bind, field_type ht, asStr, MessageType.ofName_name,
      receiveMessage, Proc.run_map, htake]
  refine ⟨requestSeq, r, { s with
    channel := { s.channel with
      sentRequests := s.channel.sentRequests.erase r.requestSeq, nextUid := n }
    parser := .settling requestSeq (decide (r.requestSeq ∈ s.channel.sentRequests)) r
    history := s.history ++ [.received r] }, hreq, hseq, ?_, ?_, rfl⟩
  · simp only [step, hread, hrun]
  · simp only [events, hrun]

theorem set_settle (hi : Inv s) (hset : s.parser = .settling requestSeq true r) :
    ∃ s', step s .settle = some s' ∧ s'.response? r.requestSeq = some r ∧ s'.parser = .reading := by
  obtain ⟨-, -, hanswered⟩ := (hi.table.settling _ _ _ hset).2 rfl
  refine ⟨{ s with channel := s.channel.setResponse r.requestSeq r, parser := .reading }, ?_, ?_, rfl⟩
  · simp only [step, hset, settle_known]
  · exact (response?_setResponse (hi.numbers.sent _ hanswered.sent) _).trans (if_pos rfl)

theorem refused_settle (hi : Inv s) (hset : s.parser = .settling requestSeq false r) :
    ∃ s' e, step s .settle = some s' ∧ IsUnknown r e ∧
      s'.channel.logged = s.channel.logged ++ [e] ∧ s'.parser = .reading := by
  obtain ⟨e, he, hinvalid, hrun⟩ := settle_unknown (hi.table.settling _ _ _ hset).1 s.channel
  refine ⟨{ s with
    channel := { s.channel.enqueueHandlers (.responses r []) with
      nextUid := s.channel.nextUid + 1, logged := s.channel.logged ++ [e] }
    parser := .reading }, e, ?_, he, rfl, rfl⟩
  simp only [step, hset, hrun, hinvalid, if_true]
  rfl

theorem ended_noMoreMessages (hi : Inv s) (hread : s.parser = .reading) (text : String) :
    ∃ s', step s (.noMoreMessages text) = some s' ∧ s'.channel.sentRequests = [] ∧
      ∀ key ∈ s.channel.sentRequests, ∃ r, s'.response? key = some r ∧
        Event.Sets r (.ended (.noMoreMessages s.channel.name text)) := by
  obtain ⟨r, c', hclean, hrun⟩ := wrapUp_cleanedUp s.channel text hi.table.nodup
  refine ⟨{ s with
    channel := { c'.enqueueHandlers .disconnect with closed := true }
    parser := .ended
    history := s.history ++ [.ended (.noMoreMessages s.channel.name text)] }, ?_, hclean.sent,
    fun key hmem => ?_⟩
  · simp only [step, hread, hrun]
  · obtain ⟨request, hreq⟩ :=
      Option.isSome_iff_exists.mp (hi.numbers.sent key ((hi.table.table key).mp hmem).sent)
    obtain ⟨-, hseq, hbody⟩ := hclean.made key
    refine ⟨r key, ?_, hseq, hbody⟩
    change (c'.requests key).bind (·.response) = _
    rw [hclean.requests, if_pos hmem, hreq]
    rfl

theorem matched_of_inv (hi : Inv s) : Matched s.history s := by
  have ht := hi.table
  constructor
  case once => exact fun requestSeq r hset => ((ht.settling _ _ _ hset).2 rfl).1
  case atEnd => exact ⟨ht.nodup, ht.pending⟩
  case table => exact ht.table
  case first => exact fun key r hr => (ht.first key r hr).2
  case all =>
    intro hsettled key e ha
    rcases ht.all key e ha with hr | ⟨requestSeq, r, hset, -⟩
    · exact hr
    · rw [hset] at hsettled
      cases hsettled
  case rejected =>
    intro hsettled pre r post hsplit ho
    rcases ht.rejected pre r post hsplit ho with hl | ⟨requestSeq, hset⟩
    · exact hl
    · rw [hset] at hsettled
      cases hsettled
  case read =>
    intro hread d htype hw
    obtain ⟨requestSeq, r, s', hreq, hseq, hstep, hevents, hp⟩ := read_receive hread htype hw
    exact ⟨requestSeq, _, r, s', hreq, hseq, decide_eq_true_iff.trans (ht.table _), hstep, hevents, hp⟩
  case set => exact fun requestSeq r hset => set_settle hi hset
  case refused => exact fun requestSeq r hset => refused_settle hi hset
  case ended =>
    intro hread text
    obtain ⟨s', hstep, hsent, hall⟩ := ended_noMoreMessages hi hread text
    exact ⟨s', hstep, hsent, fun key ho => hall key ((ht.table key).mpr ho)⟩
  case others => exact fun label s' h hr => others_unchanged hi h hr

/-- In every run, each request has at most one response, the first that
closes it; a response that closes none is rejected. -/
theorem matching (name : String) (labels : List Label) (s : State)
    (hrun : Run.exec step { channel := { name } } labels = some s) :
    Matched (Run.outputs step events { channel := { name } } labels) s ∧
      ∀ more t, Run.exec step s more = some t →
        ∀ key r, s.response? key = some r → t.response? key = some r := by
  -- The history of the state and what the labels tell grow together.
  have hi : Inv s ∧ s.history = [] ++ Run.outputs step events { channel := { name } } labels :=
    Run.exec_outputs (I := fun h s => Inv s ∧ s.history = h)
      (fun hI _ hs => ⟨inv_step hI.1 hs, by rw [step_history hI.1.table.nodup hs, hI.2]⟩)
      ⟨inv_new name, rfl⟩ Run.meets_true hrun
  rw [List.nil_append] at hi
  obtain ⟨hi, hhist⟩ := hi
  refine ⟨hhist ▸ matched_of_inv hi, fun more t hmore key r hr => ?_⟩
  have hkeep : Inv t ∧ t.response? key = some r := Run.exec_invariant
    (I := fun s => Inv s ∧ s.response? key = some r)
    (fun hI _ hs => ⟨inv_step hI.1 hs, kept_effect hI.1.table (step_effect hI.1 hs) hI.2⟩)
    ⟨hi, hr⟩ Run.meets_true hmore
  exact hkeep.2

end

/-- The response to the first request. -/
def threadsResponse : Json :=
  .dict [("seq", .int 1), ("type", .str "response"), ("request_seq", .int 1),
    ("command", .str "threads"), ("success", .bool true)]

/-- Two responses to one request; the second comes to nothing. -/
def answeredTwice : List Label :=
  [.draw "threads", .make 1, .insert 1, .receive threadsResponse, .act (.onResponse 1 7), .settle,
    .receive threadsResponse, .settle]

/-- What the two are read as. -/
def threadsAnswer (uid : Uid) : Response :=
  { uid, seq := some 1, requestSeq := 1, command := "threads", body := .ok (.dict []) }

theorem matched_twice : ∃ s e,
    Run.exec step { channel := { name := "server" } } answeredTwice = some s ∧
      Matched [.sent 1, .received (threadsAnswer 1), .received (threadsAnswer 3)] s ∧
      s.response? 1 = some (threadsAnswer 1) ∧ IsUnknown (threadsAnswer 3) e ∧
      s.channel.logged = [e] := by
  have hend : ∃ s e, Run.exec step { channel := { name := "server" } } answeredTwice = some s ∧
      s.response? 1 = some (threadsAnswer 1) ∧ IsUnknown (threadsAnswer 3) e ∧
      s.channel.logged = [e] := ⟨_, _, rfl, rfl, ⟨4, some (.int 1), rfl, rfl⟩, rfl⟩
  have hout : Run.outputs step events { channel := { name := "server" } } answeredTwice =
      [.sent 1, .received (threadsAnswer 1), .received (threadsAnswer 3)] := rfl
  obtain ⟨s, e, hrun, hresp, he, hlogged⟩ := hend
  have hmatched := (matching "server" answeredTwice s hrun).1
  rw [hout] at hmatched
  exact ⟨s, e, hrun, hmatched, hresp, he, hlogged⟩

end Matching

end Debugpy
