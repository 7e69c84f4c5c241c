import Debugpy.Common.Channel

/-!
# Messages with missing or ill-typed properties

No message owns the dict that a parser reads its properties from. A property
that its validator rejects therefore cannot become an `InvalidMessageError`:
`Message.isnt_valid` is called on the class, and what it raises ends the
process. `WellTyped` says that every property that is read is accepted;
`survives_iff_wellTyped` says that these messages, and no others, leave the
message loop running.
-/

namespace Debugpy

open Proc (raise exit tryExcept run_bind run_map)

-- ---------------------------------------------------------------------------
-- What validators accept
-- ---------------------------------------------------------------------------

def Accepts (d : Items) (key : String) (validate : Validator) : Prop :=
  ∃ value, validate (Json.get? d key) = .ok value

/-- What `int()` and the validators of single properties raise. -/
def Exn.isConversion : Exn → Bool
  | .typeError _ | .valueError _ | .overflowError _ => true
  | _ => false

theorem toInt_error (h : Json.toInt value = .error e) : e.isConversion := by
  unfold Json.toInt at h
  repeat' split at h
  all_goals cases h <;> rfl

theorem toFloat_error (h : Json.toFloat value = .error e) : e.isConversion := by
  unfold Json.toFloat at h
  repeat' split at h
  all_goals cases h <;> rfl

theorem map_error {x : Except ε α} {f : α → β} (h : f <$> x = .error e) : x = .error e := by
  cases x <;> simp_all

theorem convert_error {c : Json.Class} (h : c.convert value = .error e) : e.isConversion := by
  cases c with
  | bool => cases h
  | float => exact toFloat_error (map_error h)
  | _ => exact toInt_error (map_error h)

theorem converter_error (h : Json.converter value cs = .error e) : e.isConversion := by
  induction cs with
  | nil => cases h
  | cons c cs ih =>
    cases c with
    | tuple =>
      cases h
      rfl
    | cls c =>
      rw [Json.converter] at h
      split at h
      · split at h
        · cases h
        · exact ih h
        · rename_i e' _ hc
          cases h
          exact convert_error hc
      · exact ih h

theorem ofType_error {b : Bool} (h : Json.ofType cs b value = .error e) : e.isConversion := by
  unfold Json.ofType at h
  split at h
  · cases h
  · split at h
    · rename_i hc
      cases h
      exact converter_error hc
    · repeat' split at h
      all_goals
        cases h
        try rfl

theorem payload_ok (value : Property) : ∃ value', payload value = .ok value' := by
  unfold payload
  split <;> exact ⟨_, rfl⟩

theorem accepts_cls {c : Json.Class} : Accepts d key (Json.ofType [.cls c] false) ↔
    Json.isInstance (Json.get? d key) c ∨
      ∃ v, c.isNumber ∧ c.convert (Json.get? d key) = .ok v ∧ v.truthy := by
  unfold Accepts Json.ofType
  generalize Json.get? d key = value
  by_cases hi : Json.isInstance value c
  · simp [Json.ClassInfo.accepts, hi]
  · have hno : (false && value.isNone || [Json.ClassInfo.cls c].any (·.accepts value)) = false := by
      simpa [Json.ClassInfo.accepts] using hi
    rw [hno]
    cases hn : c.isNumber with
    | false =>
      simp only [Json.converter, hn]
      simp [hi]
      split <;> simp
    | true =>
      cases hv : c.convert value with
      | ok v =>
        simp only [Json.converter, hn, hv, if_true]
        cases ht : v.truthy <;> simp [hi, ht]
        split <;> simp
      | error e =>
        cases e with
        | valueError text =>
          simp only [Json.converter, hn, hv, if_true]
          simp [hi]
          split <;> simp
        | _ =>
          simp only [Json.converter, hn, hv, if_true]
          simp [hi]

/-- A property is accepted as a string exactly if it is one. -/
theorem accepts_isStr : Accepts d key isStr ↔ ∃ s, Json.get? d key = some (.str s) := by
  rw [isStr, accepts_cls]
  cases Json.get? d key with
  | none => simp [Json.isInstance, Json.Class.isNumber]
  | some v => cases v <;> simp [Json.isInstance, Json.Class.isNumber]

/-- A property is accepted as a Boolean exactly if it is one or counts as
true. -/
theorem accepts_isBool : Accepts d key isBool ↔
    ∃ v, Json.get? d key = some v ∧ (v.truthy ∨ ∃ b, v = .bool b) := by
  rw [isBool, accepts_cls]
  cases Json.get? d key with
  | none => simp [Json.isInstance, Json.Class.isNumber, Json.Class.convert, Json.toBool, Json.truthy]
  | some v =>
    cases v <;> simp [Json.isInstance, Json.Class.isNumber, Json.Class.convert, Json.toBool, Json.truthy]

/-- A property is accepted as an integer exactly if it is one, or a Boolean,
or `int()` makes a number other than zero of it. -/
theorem accepts_isInt : Accepts d key isInt ↔
    ∃ v, Json.get? d key = some v ∧
      ((∃ n, v = .int n) ∨ (∃ b, v = .bool b) ∨ ∃ n, Json.toInt (some v) = .ok n ∧ n ≠ 0) := by
  rw [isInt, accepts_cls]
  cases Json.get? d key with
  | none => simp [Json.isInstance, Json.Class.isNumber, Json.Class.convert, Json.toInt]
  | some v =>
    have hconv : (∃ w, Json.Class.int.convert (some v) = .ok w ∧ w.truthy) ↔
        ∃ n, Json.toInt (some v) = .ok n ∧ n ≠ 0 := by
      cases h : Json.toInt (some v) <;> simp [Json.Class.convert, h, Json.truthy]
    have hinst : Json.isInstance (some v) .int ↔ (∃ n, v = .int n) ∨ ∃ b, v = .bool b := by
      cases v <;> simp [Json.isInstance]
    simp only [show Json.Class.int.isNumber = true from rfl, true_and, hconv, hinst, or_assoc,
      Option.some.injEq, exists_eq_left']

-- ---------------------------------------------------------------------------
-- Well-typed messages
-- ---------------------------------------------------------------------------

/-- The properties of a response besides its seq. Only a failed one has its
`"message"` read. -/
structure ResponseTyped (d : Items) : Prop where
  requestSeq : Accepts d "request_seq" isInt
  command : Accepts d "command" isStr
  success : Accepts d "success" isBool
  message : Json.get? d "success" = some (.bool false) → Accepts d "message" isStr

/-- The validators of `Event._parse`, `Request._parse` and `Response._parse`
accept every property that they are given. -/
def WellTyped (type : MessageType) (d : Items) : Prop :=
  Accepts d "seq" isInt ∧ match type with
    | .event => Accepts d "event" isStr
    | .request => Accepts d "command" isStr
    | .response => ResponseTyped d

def HasType (d : Items) (type : MessageType) : Prop := Json.get? d "type" = some (.str type.name)

/-- An exception that only the last clause of `_parse_incoming_message`
catches. -/
def Exn.Fatal (e : Exn) : Prop := e.isInvalidMessage = false ∧ e.isNoMoreMessages = false

/-- `p` raises something fatal and changes nothing. -/
def Dies (p : Proc Exn Channel α) (c : Channel) : Prop :=
  ∃ e, p.run c = (.error (.raised e), c) ∧ e.Fatal

theorem Dies.bind (h : Dies p c) : Dies (p >>= f) c := by
  obtain ⟨e, hrun, he⟩ := h
  exact ⟨e, by rw [run_bind, hrun], he⟩

theorem Dies.bind_of_ok (hp : p.run c = (.ok a, c)) (h : Dies (f a) c) : Dies (p >>= f) c := by
  obtain ⟨e, hrun, he⟩ := h
  exact ⟨e, by rw [run_bind, hp]; exact hrun, he⟩

theorem field_ok (h : validate (Json.get? d key) = .ok value) (c : Channel) :
    (field d key validate).run c = (.ok value, c) := by
  simp [field, MessageDict.call, h]

theorem field_error_dies (hv : validate (Json.get? d key) = .error e) (he : e.isConversion)
    (c : Channel) : Dies (field d key validate) c := by
  refine ⟨if e.isTypeOrValueError then unowned key e.str else e, ?_, ?_⟩
  · simp [field, MessageDict.call, hv]
  · cases e <;> simp [Exn.isConversion] at he <;>
      simp [Exn.isTypeOrValueError, unowned, Exn.Fatal, Exn.isInvalidMessage, Exn.isNoMoreMessages]

theorem field_dies (h : ¬ Accepts d key (Json.ofType cs b)) (c : Channel) :
    Dies (field d key (Json.ofType cs b)) c := by
  cases hv : Json.ofType cs b (Json.get? d key) with
  | ok value => exact absurd ⟨value, hv⟩ h
  | error e => exact field_error_dies hv (ofType_error hv) c

-- ---------------------------------------------------------------------------
-- The parsers
-- ---------------------------------------------------------------------------

/-- Every request without a response is in the table of pending requests. -/
def Channel.Tracked (c : Channel) : Prop :=
  ∀ key request, c.requests key = some request → request.response.isSome ∨ key ∈ c.sentRequests

structure Parsed (c c' : Channel) : Prop where
  name : c'.name = c.name
  tracked : c.Tracked → c'.Tracked
  grows : ∃ hs, Handler.disconnect ∉ hs ∧ c'.enqueued = c.enqueued ++ hs

@[simp] theorem enqueued_enqueueHandlers (c : Channel) (h : Handler) :
    (c.enqueueHandlers h).enqueued = c.enqueued ++ [h] := by
  simp [Channel.enqueueHandlers, Channel.enqueued]

theorem parsed_enqueueHandlers (h : handler ≠ .disconnect) : Parsed c (c.enqueueHandlers handler) :=
  ⟨rfl, id, [handler], by simpa using h.symm, by simp⟩

theorem Parsed.trans (h : Parsed c c') (h' : Parsed c' c'') : Parsed c c'' := by
  obtain ⟨hs, hno, hgrow⟩ := h.grows
  obtain ⟨hs', hno', hgrow'⟩ := h'.grows
  refine ⟨h'.name.trans h.name, h'.tracked ∘ h.tracked, hs ++ hs', by simp [hno, hno'], ?_⟩
  rw [hgrow', hgrow, List.append_assoc]

theorem parsed_uid (c : Channel) (n : Uid) : Parsed c { c with nextUid := n } :=
  ⟨rfl, id, [], by simp, by simp [Channel.enqueued]⟩

theorem parsed_setResponse (c : Channel) (key : Int) (n : Uid) (response : Response) :
    Parsed c (Channel.setResponse key response
      { c with sentRequests := c.sentRequests.erase key, nextUid := n }) := by
  cases hreq : c.requests key with
  | none =>
    simp only [Channel.setResponse, hreq]
    refine ⟨rfl, fun ht k request hk => ?_, [], by simp, by simp [Channel.enqueued]⟩
    refine (ht k request hk).imp_right (List.mem_erase_of_ne ?_).mpr
    rintro rfl
    cases hreq.symm.trans hk
  | some request =>
    simp only [Channel.setResponse, hreq]
    refine ⟨rfl, fun ht k request' hk => ?_, [.responses response request.responseHandlers], by simp,
      by simp [Channel.enqueued, Channel.enqueueHandlers, Channel.putRequest]⟩
    simp only [Channel.enqueueHandlers, Channel.putRequest, Function.update_apply] at hk
    split at hk
    · cases hk
      exact .inl rfl
    · rename_i hne
      exact (ht k request' hk).imp_right (List.mem_erase_of_ne hne).mpr

theorem parseNamed_run (payloadKey : String) (hmake : ∀ n s v, make n s v ≠ .disconnect) (hseq : Accepts d "seq" isInt)
    (hname : Accepts d nameKey isStr) (c : Channel) :
    ∃ c', (parseNamed nameKey payloadKey make d).run c = (.ok (), c') ∧ Parsed c c' := by
  obtain ⟨seq, hseq⟩ := hseq
  obtain ⟨name, hname⟩ := hname
  obtain ⟨body, hbody⟩ := payload_ok (Json.get? d payloadKey)
  refine ⟨_, ?_, parsed_enqueueHandlers (hmake (asInt seq) (asStr name) (asJson body))⟩
  simp [parseNamed, run_bind, field_ok hseq, field_ok hname, field_ok hbody]

theorem parseNamed_dies (h : ¬ (Accepts d "seq" isInt ∧ Accepts d nameKey isStr)) (c : Channel) :
    Dies (parseNamed nameKey payloadKey make d) c := by
  by_cases hseq : Accepts d "seq" isInt
  · obtain ⟨seq, hs⟩ := hseq
    have hname : ¬ Accepts d nameKey isStr := fun hn => h ⟨⟨seq, hs⟩, hn⟩
    exact .bind_of_ok (field_ok hs c) (.bind (field_dies hname c))
  · exact .bind (field_dies hseq c)

/-- `False` is the only success value that is accepted and counts as a
failure. -/
theorem asBool_false (h : isBool value = .ok value') (hf : asBool value' = false) :
    value = some (.bool false) := by
  unfold isBool Json.ofType at h
  split at h
  · rename_i hi
    cases h
    cases value with
    | none => simp [Json.ClassInfo.accepts, Json.isInstance] at hi
    | some v => cases v <;> simp_all [Json.ClassInfo.accepts, Json.isInstance, asBool]
  · cases hc : Json.toBool value <;>
      simp [Json.converter, Json.Class.isNumber, Json.Class.convert, hc, Json.truthy] at h
    · split at h <;> cases h
    · subst h
      cases hf

theorem parseFields_run (hseq : Accepts d "seq" isInt) (h : ResponseTyped d) (c : Channel) :
    ∃ out n, isInt (Json.get? d "request_seq") = .ok out.2.1 ∧
      (Response.parseFields d none).run c = (.ok out, { c with nextUid := n }) := by
  obtain ⟨seq, hseq⟩ := hseq
  obtain ⟨⟨req, hreq⟩, ⟨cmd, hcmd⟩, ⟨succ, hsucc⟩, hmsg⟩ := h
  cases hb : asBool succ with
  | true =>
    obtain ⟨body, hbody⟩ := payload_ok (Json.get? d "body")
    have hrun : (Response.parseFields d none).run c =
        (.ok (some (asInt seq), req, asStr cmd, .ok (asJson body)), c) := by
      simp [Response.parseFields, run_bind, run_map, field_ok hseq, field_ok hreq, field_ok hcmd,
        field_ok hsucc, field_ok hbody, hb]
    exact ⟨_, c.nextUid, hreq, hrun⟩
  | false =>
    obtain ⟨msg, hmsg⟩ := hmsg (asBool_false hsucc hb)
    have hrun : (Response.parseFields d none).run c =
        (.ok (some (asInt seq), req, asStr cmd, .error (errorBody c.nextUid (asStr msg))),
          { c with nextUid := c.nextUid + 1 }) := by
      simp [Response.parseFields, run_bind, run_map, field_ok hseq, field_ok hreq, field_ok hcmd,
        field_ok hsucc, field_ok hmsg, hb, freshUid]
    exact ⟨_, _, hreq, hrun⟩

theorem parseFields_dies (h : ¬ (Accepts d "seq" isInt ∧ ResponseTyped d)) (c : Channel) :
    Dies (Response.parseFields d none) c := by
  unfold Response.parseFields
  by_cases hseq : Accepts d "seq" isInt
  swap
  · refine .bind ?_
    obtain ⟨e, hrun, he⟩ : Dies (field d "seq" isInt) c := field_dies hseq c
    exact ⟨e, by simp only [run_map, hrun], he⟩
  obtain ⟨seq, hs⟩ := hseq
  have hs' := field_ok hs c
  refine .bind_of_ok (a := some (asInt seq)) (by simp [run_map, hs']) ?_
  by_cases hreq : Accepts d "request_seq" isInt
  swap
  · exact .bind (field_dies hreq c)
  obtain ⟨req, hr⟩ := hreq
  refine .bind_of_ok (field_ok hr c) ?_
  by_cases hcmd : Accepts d "command" isStr
  swap
  · exact .bind (field_dies hcmd c)
  obtain ⟨cmd, hc⟩ := hcmd
  refine .bind_of_ok (field_ok hc c) ?_
  by_cases hsucc : Accepts d "success" isBool
  swap
  · exact .bind (field_dies hsucc c)
  obtain ⟨succ, hu⟩ := hsucc
  refine .bind_of_ok (field_ok hu c) ?_
  -- Only the message of a failed response is left to be rejected.
  have hmsg : Json.get? d "success" = some (.bool false) ∧ ¬ Accepts d "message" isStr := by
    by_contra hno
    refine h ⟨⟨seq, hs⟩, ⟨req, hr⟩, ⟨cmd, hc⟩, ⟨succ, hu⟩, fun hf => ?_⟩
    by_contra hm
    exact hno ⟨hf, hm⟩
  have hf : asBool succ = false := by
    rw [hmsg.1] at hu
    cases hu
    rfl
  simp only [hf]
  exact .bind (field_dies hmsg.2 c)

theorem deliver_known (h : asInt req ∈ c.sentRequests) :
    (Response.deliver seq req command body).run c =
      (.ok (), Channel.setResponse (asInt req)
        { uid := c.nextUid, seq, requestSeq := asInt req, command,
          body := body.mapError (withCause ((c.requests (asInt req)).elim 0 (·.uid))) }
        { c with sentRequests := c.sentRequests.erase (asInt req), nextUid := c.nextUid + 1 }) := by
  simp [Response.deliver, run_bind, h, freshUid]

theorem deliver_unknown (h : asInt req ∉ c.sentRequests) :
    (Response.deliver seq req command body).run c =
      (.error (.raised (.messageHandling (c.nextUid + 2) true
        ("request_seq=" ++ formatInt req ++ " does not match any known request")
        (some (.made (c.nextUid + 1))))),
        Channel.enqueueHandlers (.responses
          { uid := c.nextUid + 1, seq, requestSeq := asInt req, command,
            body := body.mapError (withCause c.nextUid) } [])
          { c with nextUid := c.nextUid + 3 }) := by
  simp [Response.deliver, run_bind, h, freshUid, Channel.enqueueHandlers]

/-- A response that is read through changes the channel as `Parsed` says, and
at worst it answers no known request. -/
theorem response_run (hseq : Accepts d "seq" isInt) (h : ResponseTyped d) (c : Channel) :
    ∃ res c', (Response.parse d none).run c = (res, c') ∧ Parsed c c' ∧
      (res = .ok () ∨ ∃ uid reason cause,
        res = .error (.raised (.messageHandling uid true reason cause))) := by
  obtain ⟨⟨seq, req, cmd, body⟩, n, -, hrun⟩ := parseFields_run hseq h c
  have hparse : (Response.parse d none).run c =
      (Response.deliver seq req cmd body).run { c with nextUid := n } := by
    simp [Response.parse, run_bind, hrun]
  rw [hparse]
  by_cases hk : asInt req ∈ c.sentRequests
  · have hk' : asInt req ∈ ({ c with nextUid := n } : Channel).sentRequests := hk
    rw [deliver_known hk']
    exact ⟨_, _, rfl, parsed_setResponse c (asInt req) (n + 1) _, .inl rfl⟩
  · have hk' : asInt req ∉ ({ c with nextUid := n } : Channel).sentRequests := hk
    rw [deliver_unknown hk']
    exact ⟨_, _, rfl, (parsed_uid c (n + 3)).trans (parsed_enqueueHandlers nofun),
      .inr ⟨_, _, _, rfl⟩⟩

theorem messageParser_run (h : WellTyped type d) (c : Channel) :
    ∃ res c', (messageParser type d).run c = (res, c') ∧ Parsed c c' ∧
      (res = .ok () ∨ ∃ uid reason cause,
        res = .error (.raised (.messageHandling uid true reason cause))) := by
  obtain ⟨hseq, h⟩ := h
  cases type with
  | event =>
    have hmake : ∀ n s v, Handler.event n s v ≠ .disconnect := nofun
    obtain ⟨c', hrun, hp⟩ := parseNamed_run "body" hmake hseq h c
    exact ⟨_, c', hrun, hp, .inl rfl⟩
  | request =>
    have hmake : ∀ n s v, Handler.request n s v ≠ .disconnect := nofun
    obtain ⟨c', hrun, hp⟩ := parseNamed_run "arguments" hmake hseq h c
    exact ⟨_, c', hrun, hp, .inl rfl⟩
  | response => exact response_run hseq h c

theorem messageParser_dies (h : ¬ WellTyped type d) (c : Channel) : Dies (messageParser type d) c := by
  cases type with
  | event => exact parseNamed_dies h c
  | request => exact parseNamed_dies h c
  | response => exact .bind (parseFields_dies h c)

-- ---------------------------------------------------------------------------
-- The message loop's view
-- ---------------------------------------------------------------------------

theorem field_type (h : HasType d type) (c : Channel) :
    (field d "type" (Json.enum MessageType.names false)).run c = (.ok (some (.str type.name)), c) := by
  refine field_ok ?_ c
  rw [h]
  cases type <;> rfl

theorem enum_names (value : Property) :
    (∃ type : MessageType, value = some (.str type.name)) ∨
      ∃ text, Json.enum MessageType.names false value = .error (.valueError text) := by
  cases value with
  | none => exact .inr ⟨_, rfl⟩
  | some v =>
    cases v with
    | str s =>
      by_cases hs : s ∈ MessageType.names
      · simp only [MessageType.names, List.mem_cons, List.not_mem_nil, or_false] at hs
        rcases hs with rfl | rfl | rfl
        · exact .inl ⟨.event, rfl⟩
        · exact .inl ⟨.request, rfl⟩
        · exact .inl ⟨.response, rfl⟩
      · refine .inr ⟨"must be one of: " ++ Json.listRepr MessageType.names, ?_⟩
        simp only [Json.enum, hs, if_false]
    | _ => exact .inr ⟨_, rfl⟩

theorem parseIncomingMessage_dies (h : ∀ type d, value = .dict d → ¬ HasType d type) (c : Channel) :
    Dies (parseIncomingMessage value) c := by
  cases value with
  | dict d =>
    rcases enum_names (Json.get? d "type") with ⟨type, ht⟩ | ⟨text, herr⟩
    · exact absurd ht (h type d rfl)
    · exact .bind (field_error_dies herr rfl c)
  | _ => exact ⟨.assertionError, rfl, rfl, rfl⟩

theorem parsed_log (c : Channel) (es : List Exn) : Parsed c { c with logged := es } :=
  ⟨rfl, id, [], by simp, by simp [Channel.enqueued]⟩

theorem parseIncomingMessage_run (ht : HasType d type) (h : WellTyped type d) (c : Channel) :
    ∃ c', (parseIncomingMessage (.dict d)).run c = (.ok (), c') ∧ Parsed c c' := by
  obtain ⟨res, c', hrun, hp, hres⟩ := messageParser_run h c
  rcases hres with rfl | ⟨uid, reason, cause, rfl⟩
  · exact ⟨c', by simp [parseIncomingMessage, run_bind, field_type ht, asStr, Proc.run_tryExcept, hrun], hp⟩
  · refine ⟨_, ?_, hp.trans (parsed_log c' (c'.logged ++ [.messageHandling uid true reason cause]))⟩
    simp [parseIncomingMessage, run_bind, field_type ht, asStr, Proc.run_tryExcept, hrun]

theorem parseIncomingMessage_exits (ht : HasType d type) (h : ¬ WellTyped type d) (c : Channel) :
    (parseIncomingMessage (.dict d)).run c = (.error .exited, c) := by
  obtain ⟨e, hrun, hi, hn⟩ := messageParser_dies h c
  simp only [parseIncomingMessage, run_bind, field_type ht, asStr, MessageType.ofName_name,
    Proc.run_get, Proc.run_tryExcept, hrun]
  cases e with
  | messageHandling uid invalid reason cause =>
    cases hi
    rfl
  | noMoreMessages => cases hn
  | _ => rfl

/-- The pending requests, their responses and the queue are as they were. -/
def SameTables (c c' : Channel) : Prop :=
  c'.sentRequests = c.sentRequests ∧ c'.requests = c.requests ∧ c'.handlerQueue = c.handlerQueue

/-- The loop goes on after the message, and a message that is rejected for a
missing or ill-typed property leaves no trace in the tables. -/
def Survives (type : MessageType) (d : Items) (c : Channel) : Prop :=
  ∃ c', (parseIncomingMessage (.dict d)).run c = (.ok (), c') ∧
    (¬ WellTyped type d → SameTables c c')

/-- A message of a known type is survived exactly if it is well typed. -/
theorem survives_iff_wellTyped (type : MessageType) (d : Items) (c : Channel)
    (ht : HasType d type) : Survives type d c ↔ WellTyped type d := by
  constructor
  · rintro ⟨c', hrun, -⟩
    by_contra h
    rw [parseIncomingMessage_exits ht h c] at hrun
    cases hrun
  · intro h
    obtain ⟨c', hrun, -⟩ := parseIncomingMessage_run ht h c
    exact ⟨c', hrun, fun hno => absurd h hno⟩

theorem survives_thread_event :
    Survives .event [("seq", .int 5), ("type", .str "event"), ("event", .str "thread")]
      { name := "client" } :=
  (survives_iff_wellTyped .event [("seq", .int 5), ("type", .str "event"), ("event", .str "thread")]
    { name := "client" } rfl).mpr ⟨⟨_, rfl⟩, ⟨_, rfl⟩⟩

/-- An event without a `"seq"` ends the process. -/
theorem not_survives_missing_seq :
    ¬ ∀ type d c, HasType d type → Survives type d c := by
  intro h
  obtain ⟨c', hrun, -⟩ := h .event [("type", .str "event"), ("event", .str "thread")]
    { name := "client" } rfl
  have hdies : ((parseIncomingMessage (.dict [("type", .str "event"), ("event", .str "thread")])).run
      { name := "client" }).1 = .error .exited := rfl
  rw [hrun] at hdies
  cases hdies

end Debugpy
