import Debugpy.Adapter.Configuration
import Mathlib.Data.List.Nodup

/-!
# Reporting subprocesses

`notify_of_subprocess` is called by the threads that accept connections and by
the client's handler of `"configurationDone"`. That a connection is new to the
client is one critical section of the session's lock with its being noted; the
report is made without the lock. What else the lock excludes is left out, so
there are more runs here than in the code.
-/

namespace Debugpy.Adapter

open Proc (raise)

-- ---------------------------------------------------------------------------
-- What a call does
-- ---------------------------------------------------------------------------

/-- What the client is sent, with `"startDebugging"` or without. -/
def reportOf (startDebugging : Bool) (body : Items) : Sent :=
  if startDebugging then
    .request "startDebugging" (.dict [("request", .str "attach"), ("configuration", .dict body)])
  else .event "debugpyAttach" (.dict (Json.set body "request" (.str "attach")))

def Sent.isReport : Sent → Bool
  | .event name _ => name == "debugpyAttach"
  | .request command _ => command == "startDebugging"
  | _ => false

@[simp] theorem isReport_reportOf : (reportOf b body).isReport = true := by
  cases b <;> rfl

structure New (w : World) (c : Nat) (request : Request) : Prop where
  start : w.client.startRequest = some request
  unknown : c ∉ w.client.knownSubprocesses
  byPort : contains "processId" request.arguments = .ok false

theorem run_notice_new (h : New w c request) :
    (noticeSubprocess c).run w = (.ok (some request.items), w.withClient (·.know c)) := by
  simp [noticeSubprocess, Proc.run_bind, Proc.run_map, h.start, h.unknown, h.byPort, ofExcept,
    run_modifyClient]

theorem run_notice_old (h : ∀ request, ¬ New w c request) :
    ∃ a, (noticeSubprocess c).run w = (a, w) ∧ ∀ items, a ≠ .ok (some items) := by
  cases hs : w.client.startRequest with
  | none => exact ⟨.ok none, by simp [noticeSubprocess, Proc.run_bind, hs], by simp⟩
  | some request =>
    by_cases hk : c ∈ w.client.knownSubprocesses
    · exact ⟨.ok none, by simp [noticeSubprocess, Proc.run_bind, hs, hk], by simp⟩
    · cases hp : contains "processId" request.arguments with
      | error e =>
        exact ⟨.error (.raised e), by simp [noticeSubprocess, Proc.run_bind, hs, hk, hp, ofExcept],
          by simp⟩
      | ok b =>
        cases b with
        | false => exact absurd ⟨hs, hk, hp⟩ (h request)
        | true =>
          exact ⟨.ok none, by simp [noticeSubprocess, Proc.run_bind, hs, hk, hp, ofExcept], by simp⟩

structure Sends (w : World) (c : Nat) (items : Items) (startDebugging : Bool) (body : Items) :
    Prop where
  body : subprocessBody w c items = .ok body
  capability : w.client.capabilities.map
    (fun caps => (Json.get? caps "supportsStartDebuggingRequest").any Json.truthy) =
      some startDebugging
  outlet : w.outlet.spent = false

theorem run_reply_get (reply : Reply) (stream : String) (w : World) :
    ∃ a n, (reply.get stream).run w = (a, { w with nextUid := n }) := by
  cases reply with
  | success body => exact ⟨_, w.nextUid, rfl⟩
  | failure invalid reason => exact ⟨_, w.nextUid + 2, rfl⟩
  | lost | broken => exact ⟨_, w.nextUid, rfl⟩

def World.filled (w : World) (items : Items) : World :=
  w.withClient (·.shareConnect (filledConnect w items))

theorem filled_client (w : World) (items : Items) :
    ∃ start, (w.filled items).client = { w.client with startRequest := start } := by
  obtain ⟨start, h, -⟩ := shareConnect_start w.client (filledConnect w items)
  exact ⟨start, h⟩

theorem run_capability_filled (w : World) (items : Items) :
    (capability "supportsStartDebuggingRequest").run (w.filled items) =
      (match w.client.capabilities.map
          (fun caps => (Json.get? caps "supportsStartDebuggingRequest").any Json.truthy) with
        | some b => .ok b
        | none => .error (.raised (.attributeError "object has no attribute 'capabilities'")),
        w.filled items) := by
  obtain ⟨start, hclient⟩ := filled_client w items
  cases hc : w.client.capabilities <;> simp [capability, Proc.run_bind, hclient, hc]

theorem run_report_sends (h : Sends w c items b body) :
    ∃ a n, (reportSubprocess c items).run w =
      (a, { (w.filled items).sent (reportOf b body) with nextUid := n }) := by
  have hcap := run_capability_filled w items
  rw [h.capability] at hcap
  have hwrite : (write (reportOf b body)).run (w.filled items) =
      (.ok (), (w.filled items).sent (reportOf b body)) := write_ok h.outlet
  have hrun : (reportSubprocess c items).run w = (do
      if b then
        write (reportOf true body)
        let _ ← (w.env.clientReply c).get w.clientName
      else write (reportOf false body) : Code Unit).run (w.filled items) := by
    simp only [reportSubprocess, Proc.run_bind, Proc.run_get, run_modifyClient, h.body, ofExcept,
      Proc.run_pure]
    rw [show (w.withClient fun client => client.shareConnect (filledConnect w items)) =
      w.filled items from rfl, hcap]
    rfl
  rw [hrun]
  cases b with
  | true =>
    obtain ⟨a, n, hget⟩ := run_reply_get (w.env.clientReply c) w.clientName
      ((w.filled items).sent (reportOf true body))
    simp only [if_true, Proc.run_bind, hwrite, hget]
    cases a with
    | ok => exact ⟨_, n, rfl⟩
    | error => exact ⟨_, n, rfl⟩
  | false => exact ⟨_, _, hwrite⟩

theorem run_report_fails (h : ∀ b body, ¬ Sends w c items b body) :
    ∃ e, (reportSubprocess c items).run w = (.error (.raised e), w.filled items) := by
  have hcap := run_capability_filled w items
  simp only [reportSubprocess, Proc.run_bind, Proc.run_get, run_modifyClient]
  rw [show (w.withClient fun client => client.shareConnect (filledConnect w items)) =
    w.filled items from rfl]
  cases hb : subprocessBody w c items with
  | error e => exact ⟨e, rfl⟩
  | ok body =>
    simp only [ofExcept, Proc.run_pure, hcap]
    cases hc : w.client.capabilities.map
        fun caps => (Json.get? caps "supportsStartDebuggingRequest").any Json.truthy with
    | none => exact ⟨_, rfl⟩
    | some b =>
      have hspent : (w.filled items).outlet.spent = true := by
        cases hs : w.outlet.spent with
        | true => exact hs
        | false => exact absurd ⟨hb, hc, hs⟩ (h b body)
      cases b with
      | true => 
        simp only [if_true, Proc.run_bind]
        rw [write_spent hspent]
        exact ⟨_, rfl⟩
      | false =>
        simp only [Bool.false_eq_true, if_false, sendEvent]
        rw [write_spent hspent]
        exact ⟨_, rfl⟩

-- ---------------------------------------------------------------------------
-- The threads
-- ---------------------------------------------------------------------------

namespace Subprocesses

inductive Thread where
  /-- `Connection.__init__`. -/
  | accept (c : Nat)
  /-- `configurationDone_request`. -/
  | handler
  deriving DecidableEq, Repr

inductive Call where
  | none
  | entered (c : Nat)
  /-- Past the critical section. -/
  | reporting (c : Nat) (items : Items)

def Call.isNone : Call → Bool
  | .none => true
  | _ => false

def Call.reports : Call → Option Nat
  | .reporting c _ => some c
  | _ => Option.none

/-- `todo` is what the handler's loop has not looked at. `reported` are the
reports that were written, with the connections they are about; process IDs
do not tell these apart. -/
structure State where
  world : World
  /-- The connections that have not looked for their parent's session. -/
  registered : List Nat := []
  calls : Thread → Call := fun _ => .none
  todo : List Nat := []
  reported : List (Nat × Sent) := []

inductive Label where
  | register (c : Nat) (pid : Int) (ppid : Option Int)
  /-- `sessions.get`; `other` if that finds another session. -/
  | lookUp (c : Nat) (other : Bool)
  /-- The handler calls `servers.connections()`. -/
  | connections
  /-- It examines the next one. -/
  | examine
  | notice (t : Thread)
  | report (t : Thread)
  /-- The other handlers change anything but `known_subprocesses`, and write
  these messages. -/
  | elsewhere (w : World) (ms : List Sent)

/-- This session is the one of the parent process, and if it is the one of the
process itself, it expects a replacement. -/
def expects (w : World) (c : Nat) : Bool :=
  ((w.conns c).ppid == w.pid || some (w.conns c).pid == w.pid) &&
    (some (w.conns c).pid != w.pid ||
      w.server.any fun server => (w.conns server.connection).processReplaced)

def State.setCall (s : State) (t : Thread) (call : Call) : State :=
  { s with calls := Function.update s.calls t call }

/-- The call returns, or raises, which ends the loop. -/
def State.endCall (s : State) (t : Thread) (raised : Bool) : State :=
  { s.setCall t .none with todo := if raised && t = .handler then [] else s.todo }

def isError : Except ε α → Bool
  | .ok _ => false
  | .error _ => true

def step (s : State) : Label → Option State
  | .register c pid ppid => (s.world.register c pid ppid).map fun world =>
    { s with world, registered := c :: s.registered }
  | .lookUp c other =>
    if s.registered.contains c && (s.calls (.accept c)).isNone then
      let s' := { s with registered := s.registered.erase c }
      some (if expects s.world c && !other then s'.setCall (.accept c) (.entered c) else s')
    else none
  | .connections =>
    if (s.calls .handler).isNone then some { s with todo := s.world.connections } else none
  | .examine => match s.todo with
    | c :: todo =>
      if (s.calls .handler).isNone then
        let s' := { s with todo }
        some (if s.world.isChild c then s'.setCall .handler (.entered c) else s')
      else none
    | [] => none
  | .notice t => match s.calls t with
    | .entered c => match (noticeSubprocess c).run s.world with
      | (.ok (some items), world) => some ({ s with world }.setCall t (.reporting c items))
      | (a, world) => some ({ s with world }.endCall t (isError a))
    | _ => none
  | .report t => match s.calls t with
    | .reporting c items =>
      let (a, world) := (reportSubprocess c items).run s.world
      let ms := world.toClient.drop s.world.toClient.length
      let s' := { s with world, reported := s.reported ++ ms.map (c, ·) }
      some (s'.endCall t (isError a))
    | _ => none
  | .elsewhere w ms =>
    if ms.any Sent.isReport then none
    else
      let client := { w.client with
        knownSubprocesses := s.world.client.knownSubprocesses }
      some { s with world := { w with client, toClient := s.world.toClient ++ ms } }

/-- A connection is reported by the one thread that has found it unknown, and
has become known with that. -/
structure Inv (s : State) : Prop where
  pending : ∀ t c, (s.calls t).reports = some c →
    c ∈ s.world.client.knownSubprocesses ∧ c ∉ s.reported.map Prod.fst
  one : ∀ t t' c, (s.calls t).reports = some c → (s.calls t').reports = some c → t = t'
  known : ∀ c ∈ s.reported.map Prod.fst, c ∈ s.world.client.knownSubprocesses
  nodup : (s.reported.map Prod.fst).Nodup
  complete : s.reported.map Prod.snd = s.world.toClient.filter Sent.isReport

section
variable {s s' : State} {t : Thread} {c : Nat}

theorem Inv.quiet (hi : Inv s)
    (hk : s'.world.client.knownSubprocesses = s.world.client.knownSubprocesses)
    (hr : s'.reported = s.reported)
    (hsent : s'.world.toClient.filter Sent.isReport = s.world.toClient.filter Sent.isReport)
    (hc : ∀ t c, (s'.calls t).reports = some c → (s.calls t).reports = some c) : Inv s' where
  pending t c h := by
    rw [hk, hr]
    exact hi.pending t c (hc t c h)
  one t t' c h h' := hi.one t t' c (hc t c h) (hc t' c h')
  known := by
    rw [hk, hr]
    exact hi.known
  nodup := hr ▸ hi.nodup
  complete := by rw [hr, hsent, hi.complete]

theorem setCall_reports (h : ((s.setCall t call).calls t').reports = some c)
    (hcall : call.reports = none) : (s.calls t').reports = some c := by
  by_cases ht : t' = t
  · subst ht
    simp [State.setCall, hcall] at h
  · simpa [State.setCall, ht] using h

theorem inv_setCall (hi : Inv s) (hcall : call.reports = none) : Inv (s.setCall t call) :=
  hi.quiet rfl rfl rfl fun _ _ h => setCall_reports h hcall

theorem inv_endCall (hi : Inv s) (raised : Bool) : Inv (s.endCall t raised) := by
  have hnone : Call.none.reports = none := rfl
  exact hi.quiet rfl rfl rfl fun _ _ h => setCall_reports h hnone

theorem inv_register (hi : Inv s) (h : step s (.register c pid ppid) = some s') : Inv s' := by
  simp only [step, World.register, Option.map_eq_some_iff] at h
  obtain ⟨w, hw, rfl⟩ := h
  split at hw <;> cases hw
  exact hi.quiet rfl rfl rfl fun _ _ h => h

theorem inv_lookUp (hi : Inv s) (h : step s (.lookUp c other) = some s') : Inv s' := by
  have hi' : Inv { s with registered := s.registered.erase c } :=
    hi.quiet rfl rfl rfl fun _ _ h => h
  simp only [step] at h
  split at h <;> cases h
  split
  · exact inv_setCall hi' rfl
  · exact hi'

theorem inv_examine (hi : Inv s) (h : step s .examine = some s') : Inv s' := by
  have hi' (todo : List Nat) : Inv { s with todo } := hi.quiet rfl rfl rfl fun _ _ h => h
  simp only [step] at h
  split at h
  · split at h <;> cases h
    split
    · exact inv_setCall (hi' _) rfl
    · exact hi' _
  · cases h

theorem inv_notice (hi : Inv s) (h : step s (.notice t) = some s') : Inv s' := by
  simp only [step] at h
  split at h
  · rename_i c hcall
    by_cases hnew : ∃ request, New s.world c request
    · obtain ⟨request, hnew⟩ := hnew
      rw [run_notice_new hnew] at h
      cases h
      have hreports (t' : Thread) (c' : Nat)
          (h : (({ s with world := s.world.withClient (·.know c) }.setCall t
            (.reporting c request.items)).calls t').reports = some c') :
          t' = t ∧ c' = c ∨ t' ≠ t ∧ (s.calls t').reports = some c' := by
        by_cases ht : t' = t
        · subst ht
          exact .inl ⟨rfl, by simpa [State.setCall, Call.reports, eq_comm] using h⟩
        · exact .inr ⟨ht, by simpa [State.setCall, ht] using h⟩
      constructor
      · intro t' c' h
        rcases hreports t' c' h with ⟨-, rfl⟩ | ⟨-, h⟩
        · exact ⟨List.mem_append_right _ List.mem_cons_self, fun hr => hnew.unknown (hi.known _ hr)⟩
        · obtain ⟨hk, hr⟩ := hi.pending t' c' h
          exact ⟨List.mem_append_left _ hk, hr⟩
      · intro t₁ t₂ c' h₁ h₂
        rcases hreports t₁ c' h₁ with ⟨ht₁, hc₁⟩ | ⟨-, hold₁⟩ <;>
          rcases hreports t₂ c' h₂ with ⟨ht₂, hc₂⟩ | ⟨-, hold₂⟩
        · exact ht₁.trans ht₂.symm
        · exact absurd (hi.pending t₂ c' hold₂).1 (hc₁ ▸ hnew.unknown)
        · exact absurd (hi.pending t₁ c' hold₁).1 (hc₂ ▸ hnew.unknown)
        · exact hi.one t₁ t₂ c' hold₁ hold₂
      · exact fun c' hr => List.mem_append_left _ (hi.known c' hr)
      · exact hi.nodup
      · exact hi.complete
    · obtain ⟨a, hrun, hnone⟩ := run_notice_old fun request h => hnew ⟨request, h⟩
      rw [hrun] at h
      have hs' : s' = s.endCall t (isError a) := by
        rcases a with e | _ | items
        · exact (Option.some.inj h).symm
        · exact (Option.some.inj h).symm
        · exact absurd rfl (hnone items)
      rw [hs']
      exact inv_endCall hi _
  · cases h

theorem inv_report (hi : Inv s) (h : step s (.report t) = some s') : Inv s' := by
  simp only [step] at h
  split at h
  · rename_i c items hcall
    obtain ⟨start, hclient⟩ := filled_client s.world items
    have hknown : (s.world.filled items).client.knownSubprocesses =
        s.world.client.knownSubprocesses := by rw [hclient]
    by_cases hsends : ∃ b body, Sends s.world c items b body
    · obtain ⟨b, body, hsends⟩ := hsends
      obtain ⟨a, n, hrun⟩ := run_report_sends hsends
      rw [hrun] at h
      obtain ⟨hk, hr⟩ := hi.pending t c (by rw [hcall]; rfl)
      have hsent : (s.world.filled items).toClient = s.world.toClient := rfl
      simp only [World.sent_toClient, hsent, List.drop_left, List.map_cons, List.map_nil,
        Option.some.injEq] at h
      subst h
      have hreports (t' : Thread) (c' : Nat) (h : (Function.update s.calls t .none t').reports =
          some c') : t' ≠ t ∧ (s.calls t').reports = some c' := by
        by_cases ht : t' = t
        · subst ht
          simp [Call.reports] at h
        · exact ⟨ht, by simpa [ht] using h⟩
      constructor
      · intro t' c' h
        obtain ⟨ht, h⟩ := hreports t' c' h
        obtain ⟨hk', hr'⟩ := hi.pending t' c' h
        refine ⟨hknown ▸ hk', ?_⟩
        have hne : c' ≠ c := fun hc => ht (hi.one t' t c' h (by rw [hcall, hc]; rfl))
        simp only [State.endCall, State.setCall, List.map_append, List.mem_append, not_or]
        exact ⟨hr', by simpa using hne⟩
      · intro t₁ t₂ c' h₁ h₂
        exact hi.one t₁ t₂ c' (hreports t₁ c' h₁).2 (hreports t₂ c' h₂).2
      · intro c' hr'
        simp only [State.endCall, State.setCall, List.map_append, List.mem_append] at hr'
        rcases hr' with hr' | hr'
        · exact hknown ▸ hi.known c' hr'
        · have hc : c' = c := by simpa using hr'
          exact hknown ▸ hc ▸ hk
      · simp only [State.endCall, State.setCall, List.map_append]
        exact List.Nodup.append hi.nodup (by simp) (by simpa using hr)
      · simp only [State.endCall, State.setCall, List.map_append, hi.complete,
          List.filter_append]
        simp
    · obtain ⟨e, hrun⟩ := run_report_fails fun b body h => hsends ⟨b, body, h⟩
      rw [hrun] at h
      have hi' : Inv { s with world := s.world.filled items } :=
        hi.quiet hknown rfl rfl fun _ _ h => h
      have hs' : s' = { s with world := s.world.filled items }.endCall t true := by
        rw [← Option.some.inj h]
        simp [World.filled, isError]
      rw [hs']
      exact inv_endCall hi' true
  · cases h

theorem inv_elsewhere (hi : Inv s) (h : step s (.elsewhere w ms) = some s') : Inv s' := by
  simp only [step] at h
  split at h <;> cases h
  rename_i hms
  have hnone : ms.filter Sent.isReport = [] := by
    rw [List.filter_eq_nil_iff]
    intro m hm hr
    exact hms (List.any_eq_true.mpr ⟨m, hm, hr⟩)
  refine hi.quiet rfl rfl ?_ fun _ _ h => h
  rw [List.filter_append, hnone, List.append_nil]

theorem inv_step (hi : Inv s) (h : step s l = some s') : Inv s' := by
  cases l with
  | register => exact inv_register hi h
  | lookUp => exact inv_lookUp hi h
  | connections =>
    simp only [step] at h
    split at h <;> cases h
    exact hi.quiet rfl rfl rfl fun _ _ h => h
  | examine => exact inv_examine hi h
  | notice => exact inv_notice hi h
  | report => exact inv_report hi h
  | elsewhere => exact inv_elsewhere hi h

end

-- ---------------------------------------------------------------------------
-- A thread on its own
-- ---------------------------------------------------------------------------

theorem call_runs {s : State} (hcall : s.calls t = .entered c) :
    ∃ ls s', Run.exec step s ls = some s' ∧
      s'.world = ((notifyOfSubprocess c).run s.world).2 ∧ (s'.calls t).isNone = true ∧
      s'.todo = if isError ((notifyOfSubprocess c).run s.world).1 && t = .handler then []
        else s.todo := by
  cases hrun : (noticeSubprocess c).run s.world with
  | mk a w =>
    rcases a with e | _ | items
    · have hnotify : (notifyOfSubprocess c).run s.world = (.error e, w) := by
        rw [notifyOfSubprocess, Proc.run_bind, hrun]
      rw [hnotify]
      refine ⟨[.notice t], { s with world := w }.endCall t true, ?_, rfl, ?_, rfl⟩
      · simp [Run.exec, step, hcall, hrun, isError]
      · simp [State.endCall, State.setCall, Call.isNone]
    · have hnotify : (notifyOfSubprocess c).run s.world = (.ok (), w) := by
        rw [notifyOfSubprocess, Proc.run_bind, hrun]
        rfl
      rw [hnotify]
      refine ⟨[.notice t], { s with world := w }.endCall t false, ?_, rfl, ?_, rfl⟩
      · simp [Run.exec, step, hcall, hrun, isError]
      · simp [State.endCall, State.setCall, Call.isNone]
    · have hnotify : (notifyOfSubprocess c).run s.world = (reportSubprocess c items).run w := by
        rw [notifyOfSubprocess, Proc.run_bind, hrun]
      rw [hnotify]
      cases hreport : (reportSubprocess c items).run w with
      | mk a w' =>
        let ms := w'.toClient.drop w.toClient.length
        refine ⟨[.notice t, .report t], State.endCall { s with
          world := w'
          calls := Function.update s.calls t (.reporting c items)
          reported := s.reported ++ ms.map (c, ·) } t (isError a), ?_, rfl, ?_, rfl⟩
        · simp [Run.exec, step, hcall, hrun, hreport, State.setCall, ms]
        · simp [State.endCall, State.setCall, Call.isNone]

theorem loop_runs {s : State} (hcall : (s.calls .handler).isNone = true) (htodo : s.todo = cs) :
    ∃ ls s', Run.exec step s ls = some s' ∧ s'.world = ((notifyAll cs).run s.world).2 := by
  induction cs generalizing s with
  | nil => exact ⟨[], s, rfl, rfl⟩
  | cons c cs ih =>
    cases hchild : s.world.isChild c with
    | false =>
      let s' := { s with todo := cs }
      obtain ⟨ls, s'', hexec, hworld⟩ := ih (s := s') hcall rfl
      refine ⟨.examine :: ls, s'', ?_, ?_⟩
      · simp [Run.exec, step, htodo, hcall, hchild, hexec, s']
      · rw [hworld, notifyAll, Proc.run_bind]
        simp [hchild, Proc.when, s']
    | true =>
      let s' := { s with todo := cs }.setCall .handler (.entered c)
      have hexamine : step s .examine = some s' := by simp [step, htodo, hcall, hchild, s']
      obtain ⟨ls, s₁, hexec, hworld, hnone, htodo₁⟩ :=
        call_runs (s := s') (t := .handler) (c := c) (by simp [s', State.setCall])
      have hall : (notifyAll (c :: cs)).run s.world =
          (notifyOfSubprocess c >>= fun _ => notifyAll cs).run s.world := by
        simp [notifyAll, Proc.run_bind, hchild, Proc.when]
      rw [hall, Proc.run_bind]
      have hsame : s'.world = s.world := rfl
      rw [hsame] at hworld htodo₁
      cases hrun : (notifyOfSubprocess c).run s.world with
      | mk a w =>
        rw [hrun] at hworld htodo₁
        cases a with
        | error e =>
          exact ⟨.examine :: ls, s₁, by simp [Run.exec, hexamine, hexec], hworld⟩
        | ok u =>
          obtain ⟨ls', s₂, hexec', hworld'⟩ := ih (s := s₁) hnone (by simpa [isError, s', State.setCall] using htodo₁)
          refine ⟨.examine :: (ls ++ ls'), s₂, ?_, ?_⟩
          · simp [Run.exec, hexamine, Run.exec_append, hexec, hexec']
          · rw [hworld', hworld]

-- ---------------------------------------------------------------------------
-- Every order
-- ---------------------------------------------------------------------------

/-- In every order of the threads: each of the reports that the client is sent
is about a connection of its own. -/
theorem reported_once {w : World} (hw : w.Fresh) (h : Run.exec step { world := w } ls = some s) :
    s.reported.map Prod.snd = s.world.toClient.filter Sent.isReport ∧
      ∀ c, (s.reported.filter (·.1 == c)).length ≤ 1 := by
  have hstart : Inv { world := w } := by
    have hnone : w.toClient.filter Sent.isReport = [] := by
      rw [List.filter_eq_nil_iff]
      intro m hm
      obtain ⟨event, body, rfl, rfl | rfl⟩ := hw.sent m hm <;> simp [Sent.isReport]
    refine ⟨?_, ?_, ?_, List.nodup_nil, hnone.symm⟩
    · intro t c h
      cases h
    · intro t t' c h
      cases h
    · intro c hr
      cases hr
  have keep : ∀ {s i s'}, Inv s → True → step s i = some s' → Inv s' := fun hi _ h => inv_step hi h
  have hi : Inv s := Run.exec_invariant keep hstart Run.meets_true h
  refine ⟨hi.complete, fun c => ?_⟩
  have hcount := List.nodup_iff_count_le_one.mp hi.nodup c
  rwa [List.count, List.countP_map, List.countP_eq_length_filter] at hcount

/-- A subprocess of the debuggee that connects before `"configurationDone"`
looks at the connections. -/
theorem reported_once_twice_found :
    let start : Request := { id := 0, command := "attach", arguments := .dict [] }
    let client : Client := { startRequest := some start, capabilities := some [] }
    let world : World := { pid := some 1, client, clientListener := some ("127.0.0.1", 5678) }
    let ls : List Label := [.elsewhere world [], .register 7 2 (some 1), .lookUp 7 false,
      .connections, .examine, .notice .handler, .notice (.accept 7), .report .handler]
    ∃ s, Run.exec step { world := {} } ls = some s ∧ s.reported.length = 1 ∧
      ∀ c, (s.reported.filter (·.1 == c)).length ≤ 1 := by
  intro start client world ls
  have hlen : (Run.exec step { world := {} } ls).map (·.reported.length) = some 1 := by
    decide +kernel
  obtain ⟨s, hs, hone⟩ := Option.map_eq_some_iff.mp hlen
  exact ⟨s, hs, hone, (reported_once fresh_default hs).2⟩

end Subprocesses

end Debugpy.Adapter
