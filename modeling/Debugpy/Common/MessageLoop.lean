import Debugpy.Common.Framing
import Debugpy.Common.Malformed

/-!
# The end of the message loop

`_parse_incoming_messages` over any bytes, while other threads use the
channel. Only `NoMoreMessages` is followed by the clean-up that answers the
pending requests, enqueues the `Disconnect` and closes the channel. `Clean`
is the grammar of the byte strings for which nothing else can end the loop;
`wrapsUp_iff_clean` says that the loop always cleans up exactly for these.
-/

namespace Debugpy

open Fuel
open Proc (raise run_bind run_map)

-- ---------------------------------------------------------------------------
-- The loop
-- ---------------------------------------------------------------------------

def dummyResponse (key : Int) (command message : String) : Items :=
  [("seq", .int (-1)), ("request_seq", .int key), ("command", .str command),
    ("success", .bool false), ("message", .str message)]

/-- `for request in sent_requests`. -/
def answerAll (exc : Exn) : List Int → Proc Exn Channel Unit
  | [] => pure ()
  | key :: keys => do
    let c ← get
    let command := (c.requests key).elim "" (·.command)
    Response.parse (dummyResponse key command exc.str) (some exc)
    answerAll exc keys

/-- The `except NoMoreMessages` clause of `_parse_incoming_messages`. -/
def wrapUp (exc : Exn) : Proc Exn Channel Unit := do
  let c ← get
  answerAll exc c.sentRequests
  let c ← get
  if c.sentRequests ≠ [] then raise .assertionError
  modify fun c => { c.enqueueHandlers .disconnect with closed := true }

def leave (e : Exn) : Proc Exn Channel Unit := if e.isNoMoreMessages then wrapUp e else raise e

/-- One turn of the loop of `_parse_incoming_messages`. `others i` is what
other threads do before the `i`-th message has been read. -/
def parserTurn (decode : String → Option Json) (others : Nat → List Channel.Action) :
    Nat × Reader × Channel →
      Comp ((Nat × Reader × Channel) ⊕ (Except (Stop Exn) Unit × Channel))
  | (i, r, c) => do
    let c := (others i).foldl Channel.act c
    match ← readJson decode c.name r with
    | (.error e, _) => pure (.inr ((leave e).run c))
    | (.ok value, r) => match (parseIncomingMessage value).run c with
      | (.ok (), c) => pure (.inl (i + 1, r, c))
      | (.error (.raised e), c) => pure (.inr ((leave e).run c))
      | (.error stop, c) => pure (.inr (.error stop, c))

def parseIncomingMessages (decode : String → Option Json) (name : String)
    (others : Nat → List Channel.Action) (r : Reader) : Comp (Except (Stop Exn) Unit × Channel) :=
  loop (parserTurn decode others) (0, r, { name })

-- ---------------------------------------------------------------------------
-- The clean-up
-- ---------------------------------------------------------------------------

/-- No request is left outstanding, and the `Disconnect` is the last handler
of all and the only one of its kind. -/
structure WoundUp (c : Channel) : Prop where
  answered : ∀ key request, c.requests key = some request → request.response.isSome
  sent : c.sentRequests = []
  disconnect : ∃ hs, c.enqueued = hs ++ [.disconnect] ∧ Handler.disconnect ∉ hs
  closed : c.closed = true

structure Running (c : Channel) : Prop where
  tracked : c.Tracked
  noDisconnect : Handler.disconnect ∉ c.enqueued

theorem Running.parsed (h : Running c) (hp : Parsed c c') : Running c' := by
  obtain ⟨hs, hno, hgrow⟩ := hp.grows
  exact ⟨hp.tracked h.tracked, by simp [hgrow, h.noDisconnect, hno]⟩

theorem running_sendRequest (h : Running c) : Running (c.sendRequest command) := by
  refine ⟨fun key request hk => ?_, h.noDisconnect⟩
  simp only [Channel.sendRequest, Channel.putRequest, Function.update_apply] at hk
  split at hk
  · rename_i heq
    exact .inr (by simp [Channel.sendRequest, heq])
  · exact (h.tracked key request hk).imp_right fun hmem => List.mem_append_left _ hmem

theorem tracked_putRequest {c : Channel} {request request' : OutgoingRequest} (h : c.Tracked) (hreq : c.requests key = some request)
    (hresp : request'.response = request.response) :
    (c.putRequest key request').Tracked := by
  intro k r hk
  simp only [Channel.putRequest, Function.update_apply] at hk
  split at hk
  · rename_i heq
    cases hk
    subst heq
    exact hresp ▸ h k request hreq
  · exact h k r hk

theorem running_onResponse (h : Running c) : Running (c.onResponse key handler) := by
  unfold Channel.onResponse
  split
  · exact h
  · rename_i request hreq
    dsimp only
    split
    · exact ⟨tracked_putRequest h.tracked hreq rfl, h.noDisconnect⟩
    · refine ⟨tracked_putRequest h.tracked hreq rfl, ?_⟩
      rw [enqueued_enqueueHandlers]
      exact fun hmem => (List.mem_append.mp hmem).elim h.noDisconnect (by simp)

/-- What other threads do never enqueues a `Disconnect`, nor does it lose a
pending request. -/
theorem running_act (h : Running c) (a : Channel.Action) : Running (c.act a) := by
  cases a with
  | sendRequest command => exact running_sendRequest h
  | sendOther => exact ⟨h.tracked, h.noDisconnect⟩
  | onResponse key handler => exact running_onResponse h
  | takeBatch => exact ⟨h.tracked, by simpa [Channel.act, Channel.enqueued] using h.noDisconnect⟩
  | close => exact ⟨h.tracked, h.noDisconnect⟩

theorem running_acts (h : Running c) (as : List Channel.Action) : Running (as.foldl Channel.act c) := by
  induction as generalizing c with
  | nil => exact h
  | cons a as ih => exact ih (running_act h a)

def madeResponse (exc : Exn) (key : Int) (command : String) (c : Channel) : Response :=
  { uid := c.nextUid
    seq := none
    requestSeq := key
    command
    body := .error (withCause ((c.requests key).elim 0 (·.uid)) exc) }

theorem parse_dummyResponse (h : key ∈ c.sentRequests) :
    (Response.parse (dummyResponse key command message) (some exc)).run c =
      (.ok (), Channel.setResponse key (madeResponse exc key command c)
        { c with sentRequests := c.sentRequests.erase key, nextUid := c.nextUid + 1 }) := by
  have hfields : (Response.parseFields (dummyResponse key command message) (some exc)).run c =
      (.ok (none, some (.int key), command, .error exc), c) := by
    have hreq : isInt (Json.get? (dummyResponse key command message) "request_seq") =
        .ok (some (.int key)) := rfl
    have hcmd : isStr (Json.get? (dummyResponse key command message) "command") =
        .ok (some (.str command)) := rfl
    have hsucc : isBool (Json.get? (dummyResponse key command message) "success") =
        .ok (some (.bool false)) := rfl
    simp [Response.parseFields, run_bind, run_map, field_ok hreq, field_ok hcmd, field_ok hsucc, asStr]
  have hmem : asInt (some (.int key)) ∈ c.sentRequests := h
  have hparse : (Response.parse (dummyResponse key command message) (some exc)).run c =
      (Response.deliver none (some (.int key)) command (.error exc)).run c := by
    rw [Response.parse, run_bind, hfields]
  exact hparse.trans (deliver_known hmem)

theorem sentRequests_setResponse (key : Int) (response : Response) (c : Channel) :
    (c.setResponse key response).sentRequests = c.sentRequests := by
  unfold Channel.setResponse
  split <;> rfl

theorem answerAll_run (exc : Exn) (c : Channel) (keys : List Int) (h : c.sentRequests = keys) :
    ∃ c', (answerAll exc keys).run c = (.ok (), c') ∧ Parsed c c' ∧ c'.sentRequests = [] := by
  induction keys generalizing c with
  | nil => exact ⟨c, rfl, parsed_uid c c.nextUid, h⟩
  | cons key keys ih =>
    have hmem : key ∈ c.sentRequests := by simp [h]
    have hparse (command message : String) :
        (Response.parse (dummyResponse key command message) (some exc)).run c = _ :=
      parse_dummyResponse hmem
    have hp := parsed_setResponse c key (c.nextUid + 1)
      (madeResponse exc key ((c.requests key).elim "" (·.command)) c)
    have hsent : (Channel.setResponse key (madeResponse exc key
        ((c.requests key).elim "" (·.command)) c) { c with
        sentRequests := c.sentRequests.erase key, nextUid := c.nextUid + 1 }).sentRequests = keys := by
      rw [sentRequests_setResponse]
      simp [h]
    obtain ⟨c', hrun, hp', hsent'⟩ := ih _ hsent
    refine ⟨c', ?_, hp.trans hp', hsent'⟩
    simp [answerAll, run_bind, hparse, hrun]

theorem wrapUp_run (h : Running c) (exc : Exn) :
    ∃ c', (wrapUp exc).run c = (.ok (), c') ∧ WoundUp c' := by
  obtain ⟨c', hrun, hp, hsent⟩ := answerAll_run exc c c.sentRequests rfl
  have hr := h.parsed hp
  refine ⟨{ c'.enqueueHandlers .disconnect with closed := true }, ?_, ?_, hsent, ?_, rfl⟩
  · simp [wrapUp, run_bind, hrun, hsent]
  · intro key request hk
    simpa [hsent] using hr.tracked key request hk
  · exact ⟨c'.enqueued, enqueued_enqueueHandlers c' .disconnect, hr.noDisconnect⟩

-- ---------------------------------------------------------------------------
-- Clean byte strings
-- ---------------------------------------------------------------------------

def IsMessage (decode : String → Option Json) (body : Bytes) (type : MessageType) (d : Items) : Prop :=
  decodeBody decode body = .ok (.dict d) ∧ HasType d type

/-- Byte strings that the loop reads without an error other than the end of
the stream: whole messages of known types, up to the end of the stream or a
message that is not well typed, where the process ends. -/
inductive Clean (decode : String → Option Json) : Bytes → Prop
  | cut : IsCut bs → Clean decode bs
  | fatal : IsPacket bs body rest → IsMessage decode body type d → ¬ WellTyped type d →
      Clean decode bs
  | next : IsPacket bs body rest → IsMessage decode body type d → WellTyped type d →
      Clean decode rest → Clean decode bs

/-- However the loop returns, the process ends or the channel is wound up. -/
def WrapsUp (decode : String → Option Json) (name : String) (others : Nat → List Channel.Action)
    (r : Reader) : Prop :=
  ∀ out, Returns (parseIncomingMessages decode name others r) out →
    out.1 = .error .exited ∨ WoundUp out.2

variable {decode : String → Option Json} {others : Nat → List Channel.Action} {r : Reader}

theorem parserTurn_message (hread : Returns (readJson decode ((others i).foldl Channel.act c).name r)
      (.ok (.dict d), r')) (ht : HasType d type) (h : Running c) :
    (WellTyped type d → ∃ c', Running c' ∧
      Returns (parserTurn decode others (i, r, c)) (.inl (i + 1, r', c'))) ∧
    (¬ WellTyped type d → ∃ c', 
      Returns (parserTurn decode others (i, r, c)) (.inr (.error .exited, c'))) := by
  have hr := running_acts h (others i)
  constructor
  · intro hw
    obtain ⟨c', hrun, hp⟩ := parseIncomingMessage_run ht hw ((others i).foldl Channel.act c)
    refine ⟨c', hr.parsed hp, hread.bind_iff.mpr ?_⟩
    simp [hrun]
  · intro hw
    refine ⟨(others i).foldl Channel.act c, hread.bind_iff.mpr ?_⟩
    simp [parseIncomingMessage_exits ht hw]

theorem parserTurn_cut (h : IsCut r.data) (hc : Running c)
    (hret : Returns (parserTurn decode others (i, r, c)) out) : ∃ c', out = .inr (.ok (), c') ∧ WoundUp c' := by
  obtain ⟨⟨x, r'⟩, hread, hrest⟩ := returns_bind.mp hret
  obtain ⟨text, rfl⟩ := readJson_of_isCut h hread
  simp only [returns_pure, leave, Exn.isNoMoreMessages] at hrest
  obtain ⟨c', hrun, hw⟩ := wrapUp_run (running_acts hc (others i)) (.noMoreMessages
    ((others i).foldl Channel.act c).name text)
  refine ⟨c', ?_, hw⟩
  rw [← hrest]
  simp [hrun]

theorem Clean.wrapsUp (h : Clean decode bs) (hr : r.data = bs) (hc : Running c)
    (hret : Returns (loop (parserTurn decode others) (i, r, c)) out) :
    out.1 = .error .exited ∨ WoundUp out.2 := by
  induction h generalizing i r c with
  | cut hcut =>
    rcases returns_loop.mp hret with hturn | ⟨s, hturn, -⟩
    · obtain ⟨c', heq, hw⟩ := parserTurn_cut (hr ▸ hcut) hc hturn
      cases heq
      exact .inr hw
    · obtain ⟨c', heq, -⟩ := parserTurn_cut (hr ▸ hcut) hc hturn
      cases heq
  | fatal hp hm hw =>
    obtain ⟨r', hread, -⟩ := returns_readJson_packet decode ((others i).foldl Channel.act c).name (hr ▸ hp)
    rw [hm.1] at hread
    obtain ⟨c', hturn⟩ := (parserTurn_message hread hm.2 hc).2 hw
    cases (loop_exit hturn).unique hret
    exact .inl rfl
  | next hp hm hw _ ih =>
    obtain ⟨r', hread, hdata, -⟩ := returns_readJson_packet decode ((others i).foldl Channel.act c).name (hr ▸ hp)
    rw [hm.1] at hread
    obtain ⟨c', hrun, hturn⟩ := (parserTurn_message hread hm.2 hc).1 hw
    exact ih hdata hrun ((loop_next_iff hturn).mp hret)

/-- The loop leaves with an exception that nothing follows, so the channel is
not wound up. -/
def LeavesOpen (decode : String → Option Json) (others : Nat → List Channel.Action) (i : Nat)
    (r : Reader) (c : Channel) : Prop :=
  ∃ e c', Returns (loop (parserTurn decode others) (i, r, c)) (.error (.raised e), c') ∧ ¬ WoundUp c'

theorem Running.not_woundUp (h : Running c) : ¬ WoundUp c := by
  intro hw
  obtain ⟨hs, heq, -⟩ := hw.disconnect
  exact h.noDisconnect (by simp [heq])

theorem leavesOpen_of_read (others : Nat → List Channel.Action) (hc : Running c) (hn : e.isNoMoreMessages = false)
    (hread : Returns (readJson decode ((others i).foldl Channel.act c).name r) (.error e, r')) :
    LeavesOpen decode others i r c := by
  refine ⟨e, _, loop_exit (hread.bind_iff.mpr ?_), (running_acts hc (others i)).not_woundUp⟩
  simp [leave, hn]

theorem leavesOpen_of_parse (hc : Running c)
    (hread : Returns (readJson decode ((others i).foldl Channel.act c).name r) (.ok value, r'))
    (hd : Dies (parseIncomingMessage value) ((others i).foldl Channel.act c)) :
    LeavesOpen decode others i r c := by
  obtain ⟨e, hrun, -, hn⟩ := hd
  refine ⟨e, _, loop_exit (hread.bind_iff.mpr ?_), (running_acts hc (others i)).not_woundUp⟩
  simp [hrun, leave, hn]

theorem decodeBody_error (h : decodeBody decode body = .error e) : e.isNoMoreMessages = false := by
  unfold decodeBody at h
  split at h
  · cases h
    rfl
  · split at h <;> cases h
    rfl

/-- All other bytes make the loop leave the channel as it is, by induction on
their number. -/
theorem leavesOpen_of_not_clean (h : ¬ Clean decode r.data) (hc : Running c) :
    LeavesOpen decode others i r c := by
  induction hn : r.data.length using Nat.strong_induction_on generalizing i r c with
  | _ n ih =>
    rcases isCut_or_bad_or_packet r.data with hcut | hbad | ⟨body, rest, hp⟩
    · exact absurd (.cut hcut) h
    · obtain ⟨text, r', hread⟩ := returns_readJson_badLength decode
        ((others i).foldl Channel.act c).name hbad
      exact leavesOpen_of_read others hc rfl hread
    obtain ⟨r', hread, hdata, -⟩ :=
      returns_readJson_packet decode ((others i).foldl Channel.act c).name hp
    cases hv : decodeBody decode body with
    | error e => exact leavesOpen_of_read others hc (decodeBody_error hv) (hv ▸ hread)
    | ok value =>
      rw [hv] at hread
      by_cases hm : ∃ type d, value = .dict d ∧ HasType d type
      swap
      · refine leavesOpen_of_parse hc hread (parseIncomingMessage_dies (fun type d hd ht => ?_) _)
        exact hm ⟨type, d, hd, ht⟩
      obtain ⟨type, d, rfl, ht⟩ := hm
      by_cases hw : WellTyped type d
      · obtain ⟨c', hrun, hturn⟩ := (parserTurn_message hread ht hc).1 hw
        have hrest : ¬ Clean decode r'.data := fun hcl => h (.next hp ⟨hv, ht⟩ hw (hdata ▸ hcl))
        have hlt : r'.data.length < n := by
          rw [hdata, ← hn]
          exact hp.length_lt
        obtain ⟨e, c'', hret, hopen⟩ := ih _ hlt hrest hrun rfl
        exact ⟨e, c'', loop_next hturn hret, hopen⟩
      · exact absurd (.fatal hp ⟨hv, ht⟩ hw) h

theorem running_new (name : String) : Running { name } :=
  ⟨nofun, by simp [Channel.enqueued]⟩

/-- The loop winds up its channel whenever it ends short of the process, for
these bytes, however they arrive and whatever other threads do meanwhile,
exactly if they are clean. -/
theorem wrapsUp_iff_clean (decode : String → Option Json) (name : String)
    (others : Nat → List Channel.Action) (r : Reader) :
    WrapsUp decode name others r ↔ Clean decode r.data := by
  constructor
  · intro h
    by_contra hno
    obtain ⟨e, c', hret, hopen⟩ := leavesOpen_of_not_clean (i := 0) hno (running_new name)
    rcases h _ hret with hexit | hw
    · cases hexit
    · exact hopen hw
  · exact fun h out hret => h.wrapsUp rfl (running_new name) hret

/-- A packet without a `Content-Length` while a request is pending. -/
theorem not_wrapsUp_missing_length :
    ¬ ∀ decode name others r, WrapsUp decode name others r := by
  intro h
  have hbad : HasBadLength CRLF := ⟨[], [], .blank ⟨rfl, by decide⟩, rfl⟩
  obtain ⟨text, r', hread⟩ := returns_readJson_badLength (fun _ => none) "server"
    (r := { data := CRLF, cuts := fun _ => 0, ending := .eof }) hbad
  obtain ⟨e, c', hret, hopen⟩ := leavesOpen_of_read (i := 0)
    (fun _ => [.sendRequest "threads"]) (running_new "server") rfl hread
  rcases h _ _ _ _ _ hret with hexit | hw
  · cases hexit
  · exact hopen hw

end Debugpy
