import Debugpy.Adapter.Clients
import Debugpy.Common.Decoder
import Debugpy.Common.Malformed

/-!
# Requests that are delegated

A chain of sessions, each of which handles a request by delegating it to the
next, up to the far end. A party takes a request as it is written, and gives
the response as it is written. `relayed` says that neither the request nor
what comes of it changes on the way, by induction on the sessions.
-/

namespace Debugpy.Relay

open Adapter (World Reply Sent genericRequest)

inductive Outcome where
  | success (body : Property)
  | failure (message : String)

def responseOf (seq requestSeq : Int) (command : String) : Outcome → Items
  | .success body =>
    [("seq", .int seq), ("type", .str "response"), ("request_seq", .int requestSeq),
      ("success", .bool true), ("command", .str command)] ++ (body.map ("body", ·)).toList
  | .failure message =>
    [("seq", .int seq), ("type", .str "response"), ("request_seq", .int requestSeq),
      ("success", .bool false), ("command", .str command), ("message", .str message)]

abbrev Peer := Items → Option Items

/-- `Request._parse` of what is written: the seq, the command and the
arguments. -/
def readRequest (d : Items) : Option (Int × String × Json) :=
  match ((Request.parse (decodedDict d)).run { name := "" }).2.handlerQueue with
  | [.request seq command arguments] => some (seq, command, arguments)
  | _ => none

/-- `Response._parse`: the body that the request gets. -/
def readResponse (c : Channel) (key : Int) (d : Items) : Option (Except Exn Json) :=
  match (Response.parse (decodedDict d) none).run c with
  | (.ok (), c') => ((c'.requests key).bind (·.response)).map (·.body)
  | _ => none

/-- `send_request`, and the response to it. -/
def ask (c : Channel) (peer : Peer) (command : String) (arguments : Json) :
    Option (Except Exn Json) := do
  let d ← peer (numberedDict c.nextSeq (requestDict command arguments))
  readResponse (c.sendRequest command) c.nextSeq d

def farEnd (seq : Int) (far : String → Json → Outcome) : Peer := fun d => do
  let (requestSeq, command, arguments) ← readRequest d
  return responseOf seq requestSeq command (far command arguments)

/-- A session that can delegate a request and respond to it. -/
structure Party where
  world : World
  /-- The channel to the next party. -/
  channel : Channel
  /-- The request, and the seq of the response to it. -/
  id : Uid
  seq : Int
  /-- Whether the handler is wrapped by `message_handler`. -/
  decorated : Bool
  server : world.server.isSome
  takes : world.outlet.spent = false
  fresh : world.responses id = none

example : Nonempty Party :=
  ⟨{ world := { server := some { connection := 0 } }
     channel := { name := "Server[1]" }
     id := 0
     seq := 1
     decorated := true
     server := rfl
     takes := rfl
     fresh := rfl }⟩

/-- What `wait_for_response` comes to. -/
def replyOf : Except Exn Json → Reply
  | .ok body => .success body
  | .error (.messageHandling _ invalid reason _) => .failure invalid reason
  | .error _ => .lost

def Party.handle (p : Party) (r : Adapter.Request) (reply : Reply) : World :=
  let w := { p.world with env := { p.world.env with reply } }
  (if p.decorated then (r.run (genericRequest r)).run w
    else (r.handle (genericRequest r)).run w).2

def relay (p : Party) (peer : Peer) : Peer := fun d => do
  let (requestSeq, command, arguments) ← readRequest d
  let r : Adapter.Request := { id := p.id, command, arguments }
  let (command', arguments') ← ((genericRequest r).run p.world).2.toServer.getLast?
  let result ← ask p.channel peer command' arguments'
  match (p.handle r (replyOf result)).toClient.getLast? with
  | some (.response r body) =>
    some (numberedDict p.seq (responseDict requestSeq r.command body))
  | _ => none

def chain (far : Peer) (parties : List Party) : Peer := parties.foldr relay far

-- ---------------------------------------------------------------------------
-- The rule
-- ---------------------------------------------------------------------------

/-- A payload, which counts as `{}` if it is missing or null. -/
def orEmpty : Property → Json
  | none | some .null => .dict []
  | some value => value

/-- What the originator reads, of the response and as its body, is what came
of the request at the far end. -/
def Carries (d : Items) (result : Except Exn Json) : Outcome → Prop
  | .success body => Json.get? d "success" = some (.bool true) ∧
      ∃ body', result = .ok body' ∧ Json.Same (orEmpty body) body'
  | .failure message => Json.get? d "success" = some (.bool false) ∧
      Json.get? d "message" = some (.str message) ∧
      ∃ e, result = .error e ∧ e.isMessageHandling = true ∧ e.str = message ∧
        (e.isInvalidMessage = true ↔ InvalidMessageError.PREFIX.toList <+: message.toList)

-- ---------------------------------------------------------------------------
-- What is read
-- ---------------------------------------------------------------------------

theorem payload_decoded (value : Property) :
    payload (value.map decoded) = .ok (some (decoded (orEmpty value))) := by
  cases value with
  | none => rfl
  | some v => cases v <;> rfl

theorem isNoneOrEmpty_iff (v : Json) : v.isNoneOrEmpty = true ↔ v = .null ∨ v = .dict [] := by
  cases v with
  | dict d => cases d <;> simp [Json.isNoneOrEmpty]
  | _ => simp [Json.isNoneOrEmpty]

theorem orEmpty_requestDict (command : String) (arguments : Json) :
    orEmpty (Json.get? (requestDict command arguments) "arguments") = orEmpty (some arguments) := by
  unfold requestDict
  by_cases h : arguments.isNoneOrEmpty
  · rcases (isNoneOrEmpty_iff arguments).mp h with rfl | rfl <;> rfl
  · simp [h, Json.get?, orEmpty]

theorem readRequest_written (seq : Int) (command : String) (arguments : Json) :
    readRequest (numberedDict seq (requestDict command arguments)) =
      some (seq, command, decoded (orEmpty (some arguments))) := by
  have hseq : isInt (Json.get? (decodedDict (numberedDict seq (requestDict command arguments))) "seq")
      = .ok (some (.int seq)) := by
    rw [get?_decodedDict, get?_numberedDict_seq]
    rfl
  have hcommand : isStr (Json.get? (decodedDict (numberedDict seq (requestDict command arguments)))
      "command") = .ok (some (.str command)) := by
    rw [get?_decodedDict, get?_numberedDict_ne _ _ (by decide)]
    rfl
  have harguments : payload (Json.get? (decodedDict (numberedDict seq
      (requestDict command arguments))) "arguments") =
      .ok (some (decoded (orEmpty (some arguments)))) := by
    rw [get?_decodedDict, get?_numberedDict_ne _ _ (by decide), payload_decoded, orEmpty_requestDict]
  have hrun : (Request.parse (decodedDict (numberedDict seq (requestDict command arguments)))).run
      { name := "" } = (.ok (), Channel.enqueueHandlers
        (.request seq command (decoded (orEmpty (some arguments)))) { name := "" }) := by
    simp [Request.parse, parseNamed, Proc.run_bind, field_ok hseq, field_ok hcommand,
      field_ok harguments, asInt, asStr, asJson]
  rw [readRequest, hrun]
  rfl

structure Answers (key : Int) (outcome : Outcome) (d : Items) : Prop where
  seq : ∃ n, Json.get? d "seq" = some (.int n)
  requestSeq : Json.get? d "request_seq" = some (.int key)
  command : ∃ command, Json.get? d "command" = some (.str command)
  outcome : match outcome with
    | .success body => Json.get? d "success" = some (.bool true) ∧
        Json.Same (orEmpty body) (orEmpty (Json.get? d "body"))
    | .failure message => Json.get? d "success" = some (.bool false) ∧
        Json.get? d "message" = some (.str message)

theorem answers_responseOf (seq key : Int) (command : String) (outcome : Outcome) :
    Answers key outcome (responseOf seq key command outcome) := by
  cases outcome with
  | success body =>
    refine ⟨⟨seq, rfl⟩, rfl, ⟨command, rfl⟩, rfl, ?_⟩
    have hbody : Json.get? (responseOf seq key command (.success body)) "body" = body := by
      cases body <;> rfl
    rw [hbody]
    exact Json.same_refl _
  | failure message => exact ⟨⟨seq, rfl⟩, rfl, ⟨command, rfl⟩, rfl, rfl⟩

theorem errorBody_str (uid : Uid) (message : String) :
    ∃ invalid reason, errorBody uid message = .messageHandling uid invalid reason none ∧
      (errorBody uid message).str = message ∧
      (invalid = true ↔ InvalidMessageError.PREFIX.toList <+: message.toList) := by
  unfold errorBody
  dsimp only
  split
  · rename_i hpre
    have hpre' := List.isPrefixOf_iff_prefix.mp hpre
    refine ⟨true, _, rfl, ?_, by simp [hpre']⟩
    obtain ⟨rest, hrest⟩ := hpre'
    rw [← hrest, List.drop_left, Exn.str]
    refine String.toList_inj.mp ?_
    rw [String.toList_append, String.toList_ofList, hrest]
  · rename_i hpre
    refine ⟨false, _, rfl, rfl, ?_⟩
    rw [← List.isPrefixOf_iff_prefix]
    simp [hpre]

theorem readResponse_parsed (hk : key ∈ c.sentRequests) (hreq : (c.requests key).isSome)
    (h : (Response.parseFields (decodedDict d) none).run c =
      (.ok (seq, some (.int key), command, body), { c with nextUid := n })) :
    ∃ u, readResponse c key d = some (body.mapError (withCause u)) := by
  obtain ⟨request, hrequest⟩ := Option.isSome_iff_exists.mp hreq
  have hmem : asInt (some (.int key)) ∈ ({ c with nextUid := n } : Channel).sentRequests := hk
  refine ⟨request.uid, ?_⟩
  rw [readResponse, Response.parse, Proc.run_bind, h]
  dsimp only
  rw [deliver_known hmem]
  simp [Channel.setResponse, Channel.enqueueHandlers, Channel.putRequest, asInt, hrequest]

theorem readResponse_answers {c : Channel} (h : Answers c.nextSeq outcome d) (command : String) :
    ∃ result, readResponse (c.sendRequest command) c.nextSeq d = some result ∧
      Carries (decodedDict d) result outcome := by
  obtain ⟨n, hn⟩ := h.seq
  obtain ⟨command', hcommand⟩ := h.command
  have hk : c.nextSeq ∈ (c.sendRequest command).sentRequests := by simp [Channel.sendRequest]
  have hreq : ((c.sendRequest command).requests c.nextSeq).isSome := by
    simp [Channel.sendRequest, Channel.putRequest]
  have hseq : isInt (Json.get? (decodedDict d) "seq") = .ok (some (.int n)) := by
    rw [get?_decodedDict, hn]
    rfl
  have hrequestSeq : isInt (Json.get? (decodedDict d) "request_seq") =
      .ok (some (.int c.nextSeq)) := by
    rw [get?_decodedDict, h.requestSeq]
    rfl
  have hcmd : isStr (Json.get? (decodedDict d) "command") = .ok (some (.str command')) := by
    rw [get?_decodedDict, hcommand]
    rfl
  have houtcome := h.outcome
  cases outcome with
  | success body =>
    obtain ⟨hsuccess, hbody⟩ := houtcome
    have hsucc : isBool (Json.get? (decodedDict d) "success") = .ok (some (.bool true)) := by
      rw [get?_decodedDict, hsuccess]
      rfl
    have hpayload : payload (Json.get? (decodedDict d) "body") =
        .ok (some (decoded (orEmpty (Json.get? d "body")))) := by
      rw [get?_decodedDict, payload_decoded]
    have hfields : (Response.parseFields (decodedDict d) none).run (c.sendRequest command) =
        (.ok (some n, some (.int c.nextSeq), command', .ok (decoded (orEmpty (Json.get? d "body")))),
          c.sendRequest command) := by
      simp [Response.parseFields, Proc.run_bind, Proc.run_map, field_ok hseq, field_ok hrequestSeq,
        field_ok hcmd, field_ok hsucc, field_ok hpayload, asInt, asStr, asBool, asJson]
    obtain ⟨u, hread⟩ := readResponse_parsed (n := (c.sendRequest command).nextUid) hk hreq hfields
    refine ⟨_, hread, ?_, _, rfl, hbody.trans (Json.same_decoded _)⟩
    rw [get?_decodedDict, hsuccess]
    rfl
  | failure message =>
    obtain ⟨hsuccess, hmessage⟩ := houtcome
    have hsucc : isBool (Json.get? (decodedDict d) "success") = .ok (some (.bool false)) := by
      rw [get?_decodedDict, hsuccess]
      rfl
    have hmsg : isStr (Json.get? (decodedDict d) "message") = .ok (some (.str message)) := by
      rw [get?_decodedDict, hmessage]
      rfl
    let uid := (c.sendRequest command).nextUid
    have hfields : (Response.parseFields (decodedDict d) none).run (c.sendRequest command) =
        (.ok (some n, some (.int c.nextSeq), command', .error (errorBody uid message)),
          { c.sendRequest command with nextUid := uid + 1 }) := by
      simp [Response.parseFields, Proc.run_bind, Proc.run_map, field_ok hseq, field_ok hrequestSeq,
        field_ok hcmd, field_ok hsucc, field_ok hmsg, asInt, asStr, asBool, freshUid, uid]
    obtain ⟨u, hread⟩ := readResponse_parsed hk hreq hfields
    obtain ⟨invalid, reason, heq, hstr, hinvalid⟩ := errorBody_str uid message
    rw [heq] at hread hstr
    refine ⟨_, hread, ?_, ?_, _, rfl, rfl, ?_, hinvalid⟩
    · rw [get?_decodedDict, hsuccess]
      rfl
    · rw [get?_decodedDict, hmessage]
      rfl
    · rw [← hstr]
      cases invalid <;> rfl

-- ---------------------------------------------------------------------------
-- A party
-- ---------------------------------------------------------------------------

section
variable {p : Party} {r : Adapter.Request}

theorem generic_asked (p : Party) (r : Adapter.Request) :
    ((genericRequest r).run p.world).2.toServer.getLast? = some (r.command, r.arguments) := by
  have hbind : ∀ out w, r.delegate.run p.world = (out, w) →
      ((genericRequest r).run p.world).2.toServer = w.toServer := by
    intro out w h
    rw [genericRequest, Proc.run_bind, h]
    cases out <;> rfl
  cases hreply : p.world.env.reply with
  | success body => rw [hbind _ _ (Adapter.delegate_success p.server hreply)]; simp
  | failure invalid reason => rw [hbind _ _ (Adapter.delegate_failure p.server hreply)]; simp
  | lost => rw [hbind _ _ (Adapter.delegate_lost p.server hreply)]; simp
  | broken => rw [hbind _ _ (Adapter.delegate_broken p.server hreply)]; simp

theorem handle_success (hr : r.id = p.id) (body : Json) :
    (p.handle r (.success body)).toClient.getLast? = some (.response r (.ok body)) := by
  have hfresh : p.world.responses r.id = none := hr ▸ p.fresh
  let w : World := { p.world with env := { p.world.env with reply := .success body } }
  have hrun : (genericRequest r).run w = (.ok (.body body), w.asked r.command r.arguments) := by
    rw [genericRequest, Proc.run_bind, Adapter.delegate_success (w := w) p.server rfl]
    rfl
  have hconclude : (r.conclude (.body body)).run (w.asked r.command r.arguments) =
      (r.tryRespond (.ok body)).run (w.asked r.command r.arguments) := by
    simp [Adapter.Request.conclude, Proc.run_bind, w, hfresh]
  have hrespond := Adapter.tryRespond_ok (w := w.asked r.command r.arguments) (r := r)
    (b := .ok body) hfresh p.takes
  have hhandle : p.handle r (.success body) = (((w.asked r.command r.arguments).sent
      (.response r (.ok body))).respond r (.ok body)) := by
    unfold Party.handle
    dsimp only
    split
    · rw [Adapter.run_ok hrun, hconclude, hrespond]
    · rw [Adapter.handle_ok hrun, hconclude, hrespond]
  rw [hhandle]
  simp

/-- The error applies to the request, so that neither the decorator nor
`Request._handle` makes anything else of it. -/
theorem handle_failure (hr : r.id = p.id) (invalid : Bool) (reason : String) :
    ∃ uid cause, (p.handle r (.failure invalid reason)).toClient.getLast? =
      some (.response r (.error (.messageHandling uid invalid reason cause))) := by
  have hfresh : p.world.responses r.id = none := hr ▸ p.fresh
  let w : World := { p.world with env := { p.world.env with reply := .failure invalid reason } }
  let w' : World := (w.asked r.command r.arguments).tick.tick.tick
  let e : Exn := .messageHandling (w.nextUid + 2) invalid reason (some (.received r.id))
  have hrun : (genericRequest r).run w = (.error (.raised e), w') := by
    rw [genericRequest, Proc.run_bind, Adapter.delegate_failure (w := w) p.server rfl]
  have hdecorated : (Adapter.messageHandler (.received r.id) r.cantHandle (genericRequest r)).run w =
      (.error (.raised e), w') := by
    simp only [Adapter.messageHandler, Proc.run_tryExcept, hrun, e, if_true]
    rfl
  have hconclude : (r.conclude (.error e)).run w' = (r.tryRespond (.error e)).run w' :=
    Adapter.conclude_error_unanswered hfresh
  have hrespond := Adapter.tryRespond_ok (w := w') (r := r) (b := .error e) hfresh p.takes
  have hcause : Adapter.appliesTo (some (.received r.id)) (.received r.id) = true := by
    simp [Adapter.appliesTo]
  have hhandle : p.handle r (.failure invalid reason) =
      ((w'.sent (.response r (.error e))).respond r (.error e)) := by
    unfold Party.handle
    dsimp only
    split
    · rw [Adapter.Request.run, Adapter.handle_error hdecorated hcause, hconclude, hrespond]
    · rw [Adapter.handle_error hrun hcause, hconclude, hrespond]
  refine ⟨w.nextUid + 2, some (.received r.id), ?_⟩
  rw [hhandle]
  simp [e]

end

-- ---------------------------------------------------------------------------
-- The chain
-- ---------------------------------------------------------------------------

/-- For some arguments that equal the given ones, and anything that the far
end makes of them, the peer's response to the request is that. -/
def Faithful (peer : (String → Json → Outcome) → Peer) : Prop :=
  ∀ key command arguments, ∃ received, Json.Same (orEmpty (some arguments)) received ∧
    ∀ far, ∃ d, peer far (numberedDict key (requestDict command arguments)) = some d ∧
      Answers key (far command received) d

theorem faithful_farEnd (seq : Int) : Faithful (farEnd seq) := by
  intro key command arguments
  refine ⟨_, Json.same_decoded _, fun far => ⟨_, ?_, answers_responseOf seq key command _⟩⟩
  rw [farEnd, readRequest_written]
  rfl

theorem orEmpty_ne_null (v : Property) : orEmpty v ≠ .null := by
  cases v with
  | none => exact nofun
  | some v => cases v <;> exact nofun

theorem orEmpty_some (h : v ≠ .null) : orEmpty (some v) = v := by
  cases v with
  | null => exact absurd rfl h
  | _ => rfl

theorem ne_null_of_same (h : Json.Same v w) (hv : v ≠ .null) : w ≠ .null := by
  rintro rfl
  obtain ⟨R, halike⟩ := h.alike
  cases halike
  exact hv rfl

theorem answers_success (seq key : Int) (command : String) (h : Json.Same (orEmpty body) body') :
    Answers key (.success body) (numberedDict seq (responseDict key command (.ok body'))) := by
  have hne : body' ≠ .null := ne_null_of_same h (orEmpty_ne_null body)
  have hget : ∀ k, k ≠ "seq" → Json.get? (numberedDict seq (responseDict key command (.ok body'))) k =
      Json.get? (responseDict key command (.ok body')) k := fun k => get?_numberedDict_ne seq _
  have hbody : orEmpty (Json.get? (responseDict key command (.ok body')) "body") = body' := by
    unfold responseDict
    by_cases hempty : body'.isNoneOrEmpty
    · rcases (isNoneOrEmpty_iff body').mp hempty with rfl | rfl
      · exact absurd rfl hne
      · rfl
    · simp [hempty, Json.get?, orEmpty_some hne]
  refine ⟨⟨seq, get?_numberedDict_seq seq _⟩, ?_, ⟨command, ?_⟩, ?_, ?_⟩
  · rw [hget _ (by decide)]
    rfl
  · rw [hget _ (by decide)]
    rfl
  · rw [hget _ (by decide)]
    rfl
  · rw [hget _ (by decide), hbody]
    exact h

theorem answers_failure (seq key : Int) (command : String) (e : Exn) :
    Answers key (.failure e.str) (numberedDict seq (responseDict key command (.error e))) := by
  have hget : ∀ k, k ≠ "seq" → Json.get? (numberedDict seq (responseDict key command (.error e))) k =
      Json.get? (responseDict key command (.error e)) k := fun k => get?_numberedDict_ne seq _
  refine ⟨⟨seq, get?_numberedDict_seq seq _⟩, ?_, ⟨command, ?_⟩, ?_, ?_⟩
  all_goals
    rw [hget _ (by decide)]
    rfl

theorem Faithful.relay {peer : (String → Json → Outcome) → Peer} (h : Faithful peer) (p : Party) :
    Faithful fun far => relay p (peer far) := by
  intro key command arguments
  have hsame : Json.Same (orEmpty (some arguments)) (decoded (orEmpty (some arguments))) :=
    Json.same_decoded _
  have hne := ne_null_of_same hsame (orEmpty_ne_null _)
  generalize hread : decoded (orEmpty (some arguments)) = arguments' at hsame hne
  obtain ⟨received, hreceived, hpeer⟩ := h p.channel.nextSeq command arguments'
  rw [orEmpty_some hne] at hreceived
  refine ⟨received, hsame.trans hreceived, fun far => ?_⟩
  obtain ⟨d, hd, hanswers⟩ := hpeer far
  obtain ⟨result, hresult, hcarries⟩ := readResponse_answers hanswers command
  let r : Adapter.Request := { id := p.id, command, arguments := arguments' }
  have hask : ask p.channel (peer far) command arguments' = some result := by
    rw [ask, hd]
    exact hresult
  have hrelay : ∀ body, (p.handle r (replyOf result)).toClient.getLast? = some (.response r body) →
      Relay.relay p (peer far) (numberedDict key (requestDict command arguments)) =
        some (numberedDict p.seq (responseDict key command body)) := by
    intro body hbody
    simp only [Relay.relay, readRequest_written, hread, Option.bind_eq_bind, Option.bind_some,
      generic_asked, hask]
    rw [hbody]
  cases houtcome : far command received with
  | success body =>
    rw [houtcome] at hcarries
    obtain ⟨-, body', rfl, hbody⟩ := hcarries
    exact ⟨_, hrelay _ (handle_success rfl body'), answers_success p.seq key command hbody⟩
  | failure message =>
    rw [houtcome] at hcarries
    obtain ⟨-, -, e, rfl, hmh, hstr, -⟩ := hcarries
    cases e with
    | messageHandling uid invalid reason cause =>
      obtain ⟨uid', cause', hlast⟩ := handle_failure (p := p) (r := r) rfl invalid reason
      refine ⟨_, hrelay _ hlast, ?_⟩
      have hanswer := answers_failure p.seq key command (.messageHandling uid' invalid reason cause')
      have hstr' : Exn.str (.messageHandling uid' invalid reason cause') = message := by
        rw [← hstr]
        cases invalid <;> rfl
      rwa [hstr'] at hanswer
    | _ => cases hmh

theorem faithful_chain (seq : Int) (parties : List Party) :
    Faithful fun far => chain (farEnd seq far) parties := by
  induction parties with
  | nil => exact faithful_farEnd seq
  | cons p parties ih => exact ih.relay p

/-- Over any number of hops, the far end gets the command and the arguments
of the request, and the originator what came of it there. -/
theorem relayed (c : Channel) (parties : List Party) (seq : Int) (command : String)
    (arguments : Json) : ∃ received, Json.Same (orEmpty (some arguments)) received ∧
      ∀ far, ∃ d result,
        chain (farEnd seq far) parties (numberedDict c.nextSeq (requestDict command arguments)) =
          some d ∧
        readResponse (c.sendRequest command) c.nextSeq d = some result ∧
        Carries (decodedDict d) result (far command received) := by
  obtain ⟨received, hsame, hfar⟩ := faithful_chain seq parties c.nextSeq command arguments
  refine ⟨received, hsame, fun far => ?_⟩
  obtain ⟨d, hd, hanswers⟩ := hfar far
  obtain ⟨result, hresult, hcarries⟩ := readResponse_answers hanswers command
  exact ⟨d, result, hd, hresult, hcarries⟩

end Debugpy.Relay
