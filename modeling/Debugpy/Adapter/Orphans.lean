import Debugpy.Adapter.Subprocesses

/-!
# Orphaned subprocesses

`Connection.__init__` from the registration on. It looks for the session of
the parent process, has that one tell its client, and unblocks a process that
nobody is told of. A handler of the session is one step, under the session's
lock; of the rest of `__init__` only the critical section of
`notify_of_subprocess` takes that.
-/

namespace Debugpy.Adapter.Orphans

/-- How far `__init__` is. -/
inductive Phase where
  | absent
  | registered
  /-- In `notify_of_subprocess`, ahead of the critical section. -/
  | notifying
  | reporting (items : Items)
  /-- With these requests to make. -/
  | unblocking (requests : List (String × Option Json))
  | returned
  /-- The parent's session is another one. -/
  | elsewhere

def Phase.isAbsent : Phase → Bool
  | .absent => true
  | _ => false

def Phase.isReturned : Phase → Bool
  | .returned => true
  | _ => false

structure Init where
  phase : Phase := .absent
  isFirst : Bool := false
  /-- The requests that the process has responded to. -/
  answered : List (String × Option Json) := []
  /-- The channel of the connection is closed. -/
  closed : Bool := false

/-- `reported` are the reports that were written, with the connections they
are about. -/
structure State where
  world : World := {}
  inits : Nat → Init := fun _ => {}
  reported : List (Nat × Sent) := []

/-- What `sessions.get` returns for the parent process, or the process. -/
inductive Found where
  | none
  | session
  | another
  deriving DecidableEq, Repr

inductive Label where
  /-- Any step of the session but the registration. -/
  | session (t : Turn)
  | register (c : Nat) (pid : Int) (ppid : Option Int)
  | lookUp (c : Nat) (found : Found)
  | notice (c : Nat)
  | report (c : Nat) (env : Env)
  /-- The next of the requests. -/
  | unblock (c : Nat) (reply : Reply)
  /-- The channel is closed elsewhere. -/
  | close (c : Nat)

def unblockRequests (pid : Int) : List (String × Option Json) :=
  [("initialize", some (.dict [("adapterID", .str "debugpy")])),
    ("attach", some (.dict [("subProcessId", .int pid)])),
    ("configurationDone", none), ("disconnect", none)]

def Init.return (i : Init) : Init := { i with phase := .returned }

def Init.orphan (i : Init) (pid : Int) : Init :=
  { i with phase := if i.isFirst then .returned else .unblocking (unblockRequests pid) }

def Init.answer (i : Init) (q : String × Option Json) (qs : List (String × Option Json)) : Init :=
  { i with answered := i.answered ++ [q], phase := if qs.isEmpty then .returned else .unblocking qs }

def State.setInit (s : State) (c : Nat) (i : Init) : State :=
  { s with inits := Function.update s.inits c i }

def isParent (w : World) (c : Nat) : Bool :=
  (w.conns c).ppid == w.pid || some (w.conns c).pid == w.pid

/-- The reports of one handler. Each call of `notify_of_subprocess` notes its
connection before it writes the report, and if it cannot, it is the last. -/
def newReports (w w' : World) : List (Nat × Sent) :=
  (w'.client.knownSubprocesses.drop w.client.knownSubprocesses.length).zip
    ((w'.toClient.drop w.toClient.length).filter Sent.isReport)

def isRegistration : Adapter.Label → Bool
  | .register .. => true
  | _ => false

def step (s : State) (l : Label) : Option State :=
  if s.world.exited then none else
  match l with
  | .session t =>
    if isRegistration t.label then none
    else (Adapter.step s.world t).map fun world =>
      { s with world, reported := s.reported ++ newReports s.world world }
  | .register c pid ppid =>
    if (s.inits c).phase.isAbsent then (s.world.register c pid ppid).map fun world =>
      { s with world }.setInit c { phase := .registered, isFirst := s.world.connections.isEmpty }
    else none
  | .lookUp c found => match (s.inits c).phase, found with
    | .registered, .none => some (s.setInit c ((s.inits c).orphan (s.world.conns c).pid))
    | .registered, .another => some (s.setInit c { s.inits c with phase := .elsewhere })
    | .registered, .session =>
      if isParent s.world c then
        some (s.setInit c (if Subprocesses.expects s.world c then
          { s.inits c with phase := .notifying } else { s.inits c with closed := true }.return))
      else none
    | _, _ => none
  | .notice c => match (s.inits c).phase with
    | .notifying =>
      if s.world.locked then none
      else some (match (noticeSubprocess c).run s.world with
        | (.ok none, world) => { s with world }.setInit c (s.inits c).return
        | (.ok (some items), world) =>
          { s with world }.setInit c { s.inits c with phase := .reporting items }
        | (.error _, world) => { s with world }.setInit c ((s.inits c).orphan (s.world.conns c).pid))
    | _ => none
  | .report c env => match (s.inits c).phase with
    | .reporting items =>
      let (a, world) := (reportSubprocess c items).run { s.world with env }
      let ms := world.toClient.drop s.world.toClient.length
      some ({ s with world, reported := s.reported ++ ms.map (c, ·) }.setInit c
        (if Subprocesses.isError a then (s.inits c).orphan (s.world.conns c).pid
        else (s.inits c).return))
    | _ => none
  | .unblock c reply => match (s.inits c).phase with
    | .unblocking (q :: qs) => some (s.setInit c (if reply.isSuccess && !(s.inits c).closed then
        (s.inits c).answer q qs else { s.inits c with closed := true }.return))
    | _ => none
  | .close c => some (s.setInit c { s.inits c with closed := true })

def Reported (s : State) (c : Nat) : Prop := c ∈ s.reported.map Prod.fst

instance : Decidable (Reported s c) := inferInstanceAs (Decidable (_ ∈ _))

/-- `"configurationDone"` has not been handled, and its loop is going to report
the connection. -/
structure Awaited (w : World) (c : Nat) : Prop where
  unhandled : w.client.hasStarted = false
  registered : c ∈ w.connections
  isChild : w.isChild c = true
  isNew : ∃ request, New w c request

def sequence : List String := ["initialize", "attach", "configurationDone", "disconnect"]

def Init.Unblocked (i : Init) : Prop := i.answered.map Prod.fst = sequence

instance (i : Init) : Decidable i.Unblocked := inferInstanceAs (Decidable (_ = _))

structure Stranded (s : State) (c : Nat) : Prop where
  returned : (s.inits c).phase.isReturned = true
  subsequent : (s.inits c).isFirst = false
  unreported : ¬ Reported s c
  unawaited : ¬ Awaited s.world c
  blocked : ¬ (s.inits c).Unblocked
  opened : (s.inits c).closed = false

/-- The critical section of `notify_of_subprocess` returns at once. -/
def Ignores (w : World) (c : Nat) : Prop :=
  w.client.startRequest = none ∨ c ∈ w.client.knownSubprocesses ∨
    ∃ request ∈ w.client.startRequest, contains "processId" request.arguments = .ok true

instance (a : Except Exn Bool) : Decidable (a = .ok true) :=
  match a with
  | .ok true => isTrue rfl
  | .ok false | .error _ => isFalse nofun

instance : Decidable (Ignores w c) := inferInstanceAs (Decidable (_ ∨ _ ∨ _))

/-- The condition on a step: that the critical section does not return at
once, unless the client has been told of the connection already. -/
def Heard (s : State) : Label → Prop
  | .notice c => Ignores s.world c →
      Reported s c ∨ (s.inits c).isFirst = true ∨ (s.inits c).closed = true
  | .session _ | .register .. | .lookUp .. | .report .. | .unblock .. | .close _ => True

instance : (l : Label) → Decidable (Heard s l)
  | .notice _ => inferInstanceAs (Decidable (_ → _))
  | .session _ | .register .. | .lookUp .. | .report .. | .unblock .. | .close _ => isTrue trivial

-- ---------------------------------------------------------------------------
-- The reports of a handler
-- ---------------------------------------------------------------------------

def IsReportOf (c : Nat) (m : Sent) : Prop :=
  ∃ w items b body, Sends w c items b body ∧ m = reportOf b body

/-- What `notify_of_subprocess` has noted and written. Every report has its
connection, in the same place. -/
structure Tells (w w' : World) (cs : List Nat) (ms : List Sent) : Prop where
  noted : w'.client.knownSubprocesses = w.client.knownSubprocesses ++ cs
  sent : w'.toClient = w.toClient ++ ms
  about : ∀ p ∈ cs.zip ms, IsReportOf p.1 p.2
  reports : ∀ m ∈ ms, m.isReport = true

theorem Tells.refl (w : World) : Tells w w [] [] := by
  constructor <;> simp

theorem Tells.trans (h : Tells w w' cs ms) (hlen : cs.length = ms.length)
    (h' : Tells w' w'' cs' ms') : Tells w w'' (cs ++ cs') (ms ++ ms') where
  noted := by rw [h'.noted, h.noted, List.append_assoc]
  sent := by rw [h'.sent, h.sent, List.append_assoc]
  about p hp := by
    rw [List.zip_append hlen, List.mem_append] at hp
    exact hp.elim (h.about p) (h'.about p)
  reports m hm := (List.mem_append.mp hm).elim (h.reports m) (h'.reports m)

theorem Tells.newReports_eq (h : Tells w w' cs ms) : newReports w w' = cs.zip ms := by
  rw [newReports, h.noted, h.sent, List.drop_left, List.drop_left,
    List.filter_eq_self.mpr h.reports]

theorem tells_notify (w : World) (c : Nat) : ∃ cs ms,
    Tells w ((notifyOfSubprocess c).run w).2 cs ms ∧ (cs.length = ms.length ∨
      ∃ e, ((notifyOfSubprocess c).run w).1 = .error e) := by
  by_cases hnew : ∃ request, New w c request
  · obtain ⟨request, hnew⟩ := hnew
    have hrun : (notifyOfSubprocess c).run w =
        (reportSubprocess c request.items).run (w.withClient (·.know c)) := by
      rw [notifyOfSubprocess, Proc.run_bind, run_notice_new hnew]
    obtain ⟨start, hclient⟩ := filled_client (w.withClient (·.know c)) request.items
    rw [hrun]
    by_cases hsends : ∃ b body, Sends (w.withClient (·.know c)) c request.items b body
    · obtain ⟨b, body, hsends⟩ := hsends
      obtain ⟨a, n, hreport⟩ := run_report_sends hsends
      rw [hreport]
      refine ⟨[c], [reportOf b body], ⟨?_, rfl, ?_, ?_⟩, .inl rfl⟩
      · simp [hclient]
      · simpa using ⟨_, _, _, _, hsends, rfl⟩
      · simp
    · obtain ⟨e, hreport⟩ := run_report_fails fun b body hs => hsends ⟨b, body, hs⟩
      rw [hreport]
      refine ⟨[c], [], ⟨?_, ?_, ?_, ?_⟩, .inr ⟨_, rfl⟩⟩
      · simp [hclient]
      · simp [World.filled]
      · simp
      · simp
  · obtain ⟨a, hrun, hnone⟩ := run_notice_old fun request h => hnew ⟨request, h⟩
    refine ⟨[], [], ?_, .inl rfl⟩
    have hsame : ((notifyOfSubprocess c).run w).2 = w := by
      rw [notifyOfSubprocess, Proc.run_bind, hrun]
      rcases a with e | _ | items
      · rfl
      · rfl
      · exact absurd rfl (hnone items)
    rw [hsame]
    exact .refl w

theorem tells_notifyAll (cs : List Nat) (w : World) : ∃ noted ms,
    Tells w ((notifyAll cs).run w).2 noted ms := by
  induction cs generalizing w with
  | nil => exact ⟨[], [], .refl w⟩
  | cons c cs ih =>
    cases hc : w.isChild c with
    | false =>
      rw [notifyAll_other hc]
      exact ih w
    | true =>
      rw [notifyAll_child hc, Proc.run_bind]
      obtain ⟨noted, ms, h, hor⟩ := tells_notify w c
      cases hrun : (notifyOfSubprocess c).run w with
      | mk a w' =>
        rw [hrun] at h hor
        cases a with
        | error e => exact ⟨noted, ms, h⟩
        | ok u =>
          obtain ⟨noted', ms', h'⟩ := ih w'
          have hlen := hor.resolve_right (by simp)
          exact ⟨_, _, h.trans hlen h'⟩

/-- The reports that a handler is taken to have made are made about the
connections that they are put down to. -/
theorem newReports_notifyAll (cs : List Nat) (w : World) :
    ∀ p ∈ newReports w ((notifyAll cs).run w).2, IsReportOf p.1 p.2 := by
  obtain ⟨noted, ms, h⟩ := tells_notifyAll cs w
  rw [h.newReports_eq]
  exact h.about

-- ---------------------------------------------------------------------------
-- The sequence of requests
-- ---------------------------------------------------------------------------

def Phase.left : Phase → List String
  | .unblocking requests => requests.map Prod.fst
  | .absent | .registered | .notifying | .reporting _ | .returned | .elsewhere => sequence

/-- Until `__init__` returns, what was responded to is followed by what is
left. -/
def Init.Progress (i : Init) : Prop :=
  i.phase.isReturned = false → i.answered.map Prod.fst ++ i.phase.left = sequence

theorem progress_return (i : Init) : i.return.Progress := nofun

theorem Init.Progress.unanswered {i : Init} (h : i.Progress) (hp : i.phase.isReturned = false)
    (hleft : i.phase.left = sequence) : i.answered = [] := by
  have hnil := h hp
  rw [hleft, List.append_left_eq_self, List.map_eq_nil_iff] at hnil
  exact hnil

theorem progress_orphan {i : Init} (h : i.answered = []) (pid : Int) : (i.orphan pid).Progress := by
  intro _
  cases hf : i.isFirst <;> simp [Init.orphan, h, hf, Phase.left, unblockRequests, sequence]

theorem Init.Progress.answer {i : Init} (h : i.Progress) (hp : i.phase = .unblocking (q :: qs)) :
    (i.answer q qs).Progress := by
  intro _
  have hi := h (by rw [hp]; rfl)
  rw [hp] at hi
  cases qs with
  | nil => simp_all [Init.answer, Phase.isReturned]
  | cons q' qs => simpa [Init.answer, Phase.left] using hi

theorem Init.Progress.unblocked {i : Init} (h : i.Progress) (hp : i.phase = .unblocking (q :: qs))
    (hr : (i.answer q qs).phase.isReturned = true) : (i.answer q qs).Unblocked := by
  have hi := h (by rw [hp]; rfl)
  rw [hp] at hi
  cases qs with
  | nil => simpa [Init.answer, Init.Unblocked, Phase.left, sequence] using hi
  | cons q' qs => simp [Init.answer, Phase.isReturned] at hr

-- ---------------------------------------------------------------------------
-- What a step does
-- ---------------------------------------------------------------------------

/-- `__init__` has not got to the requests. -/
def Phase.IsEarly (p : Phase) : Prop := p.isReturned = false ∧ p.left = sequence

/-- What a step makes of a connection. -/
inductive Moves (s : State) (l : Label) (s' : State) (c : Nat) : Prop where
  | stays (h : s'.inits c = s.inits c)
  | begins (b : Bool) (h : s'.inits c = { phase := .registered, isFirst := b })
  | goesOn (p : Phase) (hp : (s.inits c).phase.IsEarly) (hp' : p.IsEarly)
      (h : s'.inits c = { s.inits c with phase := p })
  | orphaned (pid : Int) (hp : (s.inits c).phase.IsEarly) (h : s'.inits c = (s.inits c).orphan pid)
  | ignored (hl : l = .notice c) (hp : (s.inits c).phase.IsEarly) (hw : Ignores s.world c)
      (h : s'.inits c = (s.inits c).return)
  | reported (hr : Reported s' c) (h : s'.inits c = (s.inits c).return)
  | answered (q : String × Option Json) (qs : List (String × Option Json))
      (hp : (s.inits c).phase = .unblocking (q :: qs)) (h : s'.inits c = (s.inits c).answer q qs)
  | closed (h : s'.inits c = { s.inits c with closed := true })
  | refused (h : s'.inits c = { s.inits c with closed := true }.return)

@[simp] theorem setInit_reported (s : State) (c : Nat) (i : Init) :
    (s.setInit c i).reported = s.reported := rfl

theorem moves_of_update (hs : s'.inits = Function.update s.inits c i)
    (h : s'.inits c = i → Moves s l s' c) (c' : Nat) : Moves s l s' c' := by
  by_cases hc : c' = c
  · subst hc
    exact h (by rw [hs, Function.update_self])
  · exact .stays (by rw [hs, Function.update_of_ne hc])

theorem run_notice_ignores (h : Ignores w c) : (noticeSubprocess c).run w = (.ok none, w) := by
  cases hs : w.client.startRequest with
  | none => simp [noticeSubprocess, Proc.run_bind, hs]
  | some request =>
    by_cases hk : c ∈ w.client.knownSubprocesses
    · simp [noticeSubprocess, Proc.run_bind, hs, hk]
    · obtain ⟨request', hr, hp⟩ := (h.resolve_left (by simp [hs])).resolve_left hk
      obtain rfl : request = request' := Option.some.inj (hs.symm.trans hr)
      simp [noticeSubprocess, Proc.run_bind, hs, hk, hp, ofExcept]

theorem run_notice (h : ¬ Ignores w c) :
    (∃ items w', (noticeSubprocess c).run w = (.ok (some items), w')) ∨
      ∃ e w', (noticeSubprocess c).run w = (.error e, w') := by
  obtain ⟨hs, hk, hp⟩ := not_or.mp h |>.imp_right not_or.mp
  obtain ⟨request, hs⟩ := Option.ne_none_iff_exists'.mp hs
  cases hc : contains "processId" request.arguments with
  | error e => exact .inr ⟨.raised e, w, by simp [noticeSubprocess, Proc.run_bind, hs, hk, hc, ofExcept]⟩
  | ok b =>
    cases b with
    | true => exact absurd ⟨request, hs, hc⟩ hp
    | false => exact .inl ⟨_, _, run_notice_new ⟨hs, hk, hc⟩⟩

theorem run_report (h : Subprocesses.isError ((reportSubprocess c items).run w).1 = false) :
    w.toClient.length < ((reportSubprocess c items).run w).2.toClient.length := by
  by_cases hsends : ∃ b body, Sends w c items b body
  · obtain ⟨b, body, hsends⟩ := hsends
    obtain ⟨a, n, hrun⟩ := run_report_sends hsends
    rw [hrun]
    simp [World.filled]
  · obtain ⟨e, hrun⟩ := run_report_fails fun b body hs => hsends ⟨b, body, hs⟩
    rw [hrun] at h
    cases h

theorem moves_lookUp (h : step s (.lookUp c found) = some s') (c' : Nat) :
    Moves s (.lookUp c found) s' c' := by
  simp only [step] at h
  split at h
  · cases h
  have hearly (hp : (s.inits c).phase = .registered) : (s.inits c).phase.IsEarly := by
    rw [hp]
    exact ⟨rfl, rfl⟩
  split at h
  · rename_i hp
    cases h
    exact moves_of_update rfl (.orphaned _ (hearly hp)) c'
  · rename_i hp
    cases h
    exact moves_of_update rfl (.goesOn .elsewhere (hearly hp) ⟨rfl, rfl⟩) c'
  · rename_i hp
    split at h <;> cases h
    split
    · exact moves_of_update rfl (.goesOn .notifying (hearly hp) ⟨rfl, rfl⟩) c'
    · exact moves_of_update rfl .refused c'
  · cases h

theorem moves_notice (h : step s (.notice c) = some s') (c' : Nat) :
    Moves s (.notice c) s' c' := by
  simp only [step] at h
  split at h
  · cases h
  split at h
  · rename_i hp
    have hearly : (s.inits c).phase.IsEarly := by
      rw [hp]
      exact ⟨rfl, rfl⟩
    split at h <;> cases h
    by_cases hw : Ignores s.world c
    · rw [run_notice_ignores hw]
      exact moves_of_update rfl (.ignored rfl hearly hw) c'
    · rcases run_notice hw with ⟨items, w, hrun⟩ | ⟨e, w, hrun⟩
      · rw [hrun]
        exact moves_of_update rfl (.goesOn (.reporting items) hearly ⟨rfl, rfl⟩) c'
      · rw [hrun]
        exact moves_of_update rfl (.orphaned _ hearly) c'
  · cases h

theorem moves_report (h : step s (.report c env) = some s') (c' : Nat) :
    Moves s (.report c env) s' c' := by
  simp only [step] at h
  split at h
  · cases h
  split at h
  · rename_i items hp
    cases hrun : (reportSubprocess c items).run { s.world with env } with
    | mk a w =>
      rw [hrun] at h
      cases ha : Subprocesses.isError a with
      | true =>
        simp only [ha, if_true] at h
        cases h
        refine moves_of_update rfl (.orphaned _ ?_) c'
        rw [hp]
        exact ⟨rfl, rfl⟩
      | false =>
        simp only [ha, Bool.false_eq_true, if_false] at h
        cases h
        refine moves_of_update rfl (.reported ?_) c'
        -- what a call writes before it returns is the report
        have hreturned : Subprocesses.isError ((reportSubprocess c items).run { s.world with env }).1 = false := by
          rw [hrun]
          exact ha
        have hlt := run_report hreturned
        rw [hrun] at hlt
        have hne := List.drop_eq_nil_iff.not.mpr (Nat.not_le.mpr hlt)
        obtain ⟨m, hm⟩ := List.exists_mem_of_ne_nil _ hne
        simp only [Reported, setInit_reported, List.map_append, List.map_map, List.mem_append]
        exact .inr (List.mem_map.mpr ⟨m, hm, rfl⟩)
  · cases h

theorem moves (h : step s l = some s') (c' : Nat) : Moves s l s' c' := by
  cases l with
  | lookUp c found => exact moves_lookUp h c'
  | notice c => exact moves_notice h c'
  | report c env => exact moves_report h c'
  | session t =>
    simp only [step] at h
    split at h
    · cases h
    split at h
    · cases h
    obtain ⟨w, -, rfl⟩ := Option.map_eq_some_iff.mp h
    exact .stays rfl
  | register c pid ppid =>
    simp only [step] at h
    split at h
    · cases h
    split at h
    · obtain ⟨w, -, rfl⟩ := Option.map_eq_some_iff.mp h
      exact moves_of_update rfl (.begins _) c'
    · cases h
  | unblock c reply =>
    simp only [step] at h
    split at h
    · cases h
    split at h
    · rename_i q qs hp
      cases h
      split
      · exact moves_of_update rfl (.answered q qs hp) c'
      · exact moves_of_update rfl .refused c'
    · cases h
  | close c =>
    simp only [step] at h
    split at h <;> cases h
    exact moves_of_update rfl .closed c'

theorem reported_step (h : step s l = some s') (hr : Reported s c) : Reported s' c := by
  have hgrows : ∃ ps, s'.reported = s.reported ++ ps := by
    cases l with
    | session t =>
      simp only [step] at h
      split at h
      · cases h
      split at h
      · cases h
      obtain ⟨w, -, rfl⟩ := Option.map_eq_some_iff.mp h
      exact ⟨_, rfl⟩
    | register c' pid ppid =>
      simp only [step] at h
      split at h
      · cases h
      split at h
      · obtain ⟨w, -, rfl⟩ := Option.map_eq_some_iff.mp h
        exact ⟨[], (List.append_nil _).symm⟩
      · cases h
    | report c' env =>
      simp only [step] at h
      split at h
      · cases h
      split at h <;> cases h
      exact ⟨_, rfl⟩
    | lookUp c' found | notice c' | unblock c' reply | close c' =>
      refine ⟨[], ?_⟩
      simp only [step] at h
      repeat' split at h
      all_goals cases h
      all_goals simp
  obtain ⟨ps, hps⟩ := hgrows
  rw [Reported, hps, List.map_append]
  exact List.mem_append_left _ hr

-- ---------------------------------------------------------------------------
-- Runs
-- ---------------------------------------------------------------------------

theorem progress_step (hi : ∀ c, (s.inits c).Progress) (h : step s l = some s') (c : Nat) :
    (s'.inits c).Progress := by
  cases moves h c with
  | stays h => exact h ▸ hi c
  | begins b h =>
    rw [h]
    exact fun _ => rfl
  | goesOn p hp hp' h =>
    rw [h]
    have hnil := (hi c).unanswered hp.1 hp.2
    intro _
    simp [hnil, hp'.2]
  | orphaned pid hp h => exact h ▸ progress_orphan ((hi c).unanswered hp.1 hp.2) pid
  | ignored hl hp hw h => exact h ▸ progress_return _
  | reported hr h => exact h ▸ progress_return _
  | answered q qs hp h => exact h ▸ (hi c).answer hp
  | closed h =>
    rw [h]
    exact hi c
  | refused h => exact h ▸ progress_return _

/-- When `__init__` has returned, somebody cares for the process. -/
def Settled (s : State) (c : Nat) : Prop :=
  (s.inits c).phase.isReturned = true → Reported s c ∨ (s.inits c).isFirst = true ∨
    (s.inits c).closed = true ∨ (s.inits c).Unblocked

theorem settled_step (hp : ∀ c, (s.inits c).Progress) (hi : ∀ c, Settled s c) (hh : Heard s l)
    (h : step s l = some s') (c : Nat) : Settled s' c := by
  intro hr
  cases moves h c with
  | stays h =>
    rw [h] at hr ⊢
    exact (hi c hr).imp_left (reported_step ‹_›)
  | begins b h =>
    rw [h] at hr
    cases hr
  | goesOn p hp hp' h =>
    rw [h] at hr
    exact absurd hr (by simp [hp'.1])
  | orphaned pid hp h =>
    rw [h] at hr ⊢
    cases hf : (s.inits c).isFirst with
    | true => exact .inr (.inl hf)
    | false => simp [Init.orphan, hf, Phase.isReturned] at hr
  | ignored hl hp hw hs =>
    subst hl
    rw [hs]
    rcases hh hw with hr | hf | hc
    · exact .inl (reported_step h hr)
    · exact .inr (.inl hf)
    · exact .inr (.inr (.inl hc))
  | reported hr h => exact .inl hr
  | answered q qs hq h =>
    rw [h] at hr ⊢
    exact .inr (.inr (.inr ((hp c).unblocked hq hr)))
  | closed h =>
    rw [h]
    exact .inr (.inr (.inl rfl))
  | refused h =>
    rw [h]
    exact .inr (.inr (.inl rfl))

theorem progress_start (w : World) (c : Nat) : (({ world := w } : State).inits c).Progress :=
  fun _ => rfl

theorem progress_run (hrun : Run.exec step { world := w } ls = some s) :
    ∀ c, (s.inits c).Progress := by
  have keep : ∀ {s l s'}, (∀ c, (s.inits c).Progress) → True → step s l = some s' →
      ∀ c, (s'.inits c).Progress := fun hi _ h => progress_step hi h
  exact Run.exec_invariant keep (progress_start w) Run.meets_true hrun

theorem not_new_of_ignores (h : Ignores w c) (request : Request) : ¬ New w c request := by
  intro hnew
  rcases h with hs | hk | ⟨request', hr, hp⟩
  · exact absurd hs (by simp [hnew.start])
  · exact hnew.unknown hk
  · obtain rfl : request = request' := Option.some.inj (hnew.start.symm.trans hr)
    exact absurd hp (by simp [hnew.byPort])

/-- A connection is stranded where the critical section returns at once and
the client has not been told of it. -/
theorem stranded_of_ignored (hi : ∀ c, (s.inits c).Progress) (hh : ¬ Heard s l)
    (h : step s l = some s') : ∃ c, Stranded s' c := by
  cases l with
  | notice c =>
    obtain ⟨hw, hnot⟩ := Classical.not_imp.mp hh
    obtain ⟨hr, hf, hc⟩ := not_or.mp hnot |>.imp_right not_or.mp
    simp only [step, run_notice_ignores hw] at h
    split at h
    · cases h
    split at h
    · rename_i hp
      have hnil := (hi c).unanswered (by rw [hp]; rfl) (by rw [hp]; rfl)
      split at h
      · cases h
      have hs : s'.inits c = (s.inits c).return := by
        rw [← Option.some.inj h]
        exact Function.update_self ..
      have hreported : s'.reported = s.reported := by rw [← Option.some.inj h]; rfl
      have hworld : s'.world = s.world := by rw [← Option.some.inj h]; rfl
      refine ⟨c, by rw [hs]; rfl, ?_, ?_, fun ha => ?_, ?_, ?_⟩
      · rw [hs]
        exact Bool.eq_false_of_not_eq_true hf
      · rwa [Reported, hreported]
      · obtain ⟨request, hnew⟩ := ha.isNew
        exact not_new_of_ignores hw request (hworld ▸ hnew)
      · rw [hs, Init.Unblocked, Init.return, hnil]
        exact nofun
      · rw [hs]
        exact Bool.eq_false_of_not_eq_true hc
    · cases h
  | _ => exact absurd trivial hh

/-- No subprocess is stranded as long as the critical section returns at once
about those only that the client has been told of. -/
theorem stranded_iff (w : World) (ls : List Label) (s : State)
    (hrun : Run.exec step { world := w } ls = some s) :
    (∀ before after st, ls = before ++ after → Run.exec step { world := w } before = some st →
      ∀ c, ¬ Stranded st c) ↔ Run.Meets step Heard { world := w } ls := by
  constructor
  · intro hnone
    rw [Run.meets_iff hrun]
    rintro before l after st rfl hbefore
    by_contra hh
    rw [Run.exec_append, hbefore] at hrun
    obtain ⟨st', hstep, -⟩ := Run.exec_cons.mp hrun
    obtain ⟨c, hc⟩ := stranded_of_ignored (progress_run hbefore) hh hstep
    refine hnone (before ++ [l]) after st' (by simp) ?_ c hc
    rw [Run.exec_append, hbefore]
    exact Run.exec_cons.mpr ⟨st', hstep, rfl⟩
  · rintro hmeets before after st rfl hbefore c hc
    have keep : ∀ {s l s'}, ((∀ c, (s.inits c).Progress) ∧ ∀ c, Settled s c) → Heard s l →
        step s l = some s' → (∀ c, (s'.inits c).Progress) ∧ ∀ c, Settled s' c :=
      fun hi hh h => ⟨progress_step hi.1 h, settled_step hi.1 hi.2 hh h⟩
    have hsettled := Run.exec_invariant keep ⟨progress_start w, fun _ => nofun⟩ hmeets.append_left
      hbefore
    rcases hsettled.2 c hc.returned with hr | hf | hcl | hb
    · exact hc.unreported hr
    · exact absurd hf (by simp [hc.subsequent])
    · exact absurd hcl (by simp [hc.opened])
    · exact hc.blocked hb

/-- A session is attached to process 1 with these arguments, and configured,
when process 2 connects that process 1 has started. -/
def subprocess (arguments : Items) : List Label :=
  [.register 0 1 none, .lookUp 0 .none, .session { label := .request "initialize" (.dict []) },
    .session { label := .request "attach" (.dict arguments) },
    .session { label := .request "configurationDone" (.dict []) },
    .register 7 2 (some 1), .lookUp 7 .session, .notice 7]

def connected : Items :=
  [("connect", .dict [("host", .str "127.0.0.1"), ("port", .int 5678)])]

/-- The client is told of the process. -/
theorem stranded_iff_connected : ∃ s,
    Run.exec step { world := {} } (subprocess connected ++ [.report 7 {}]) = some s ∧
      ∀ before after st, subprocess connected ++ [.report 7 {}] = before ++ after →
        Run.exec step { world := {} } before = some st → ∀ c, ¬ Stranded st c := by
  have hrun : (Run.exec step { world := {} } (subprocess connected ++ [.report 7 {}])).isSome := by
    decide +kernel
  obtain ⟨s, hs⟩ := Option.isSome_iff_exists.mp hrun
  exact ⟨s, hs, (stranded_iff {} _ s hs).mpr (by decide +kernel)⟩

/-- The parent process was attached to by `"processId"`. -/
theorem subprocess_stranded : ¬ ∀ (ls : List Label) (s : State) (c : Nat),
    Run.exec step { world := {} } ls = some s → ¬ Stranded s c := by
  intro h
  let facts (s : State) : List Bool := [(s.inits 7).phase.isReturned, (s.inits 7).isFirst,
    (s.inits 7).closed, s.world.client.hasStarted, s.reported.isEmpty, (s.inits 7).answered.isEmpty]
  have hfacts : (Run.exec step { world := {} } (subprocess [("processId", .int 1)])).map facts =
      some [true, false, false, true, true, true] := by decide +kernel
  obtain ⟨s, hs, hf⟩ := Option.map_eq_some_iff.mp hfacts
  simp only [facts, List.cons.injEq, List.isEmpty_iff] at hf
  obtain ⟨hreturned, hfirst, hclosed, hstarted, hreported, hanswered, -⟩ := hf
  refine h _ s 7 hs ⟨hreturned, hfirst, ?_, fun ha => ?_, ?_, hclosed⟩
  · rw [Reported, hreported]
    exact List.not_mem_nil
  · exact absurd ha.unhandled (by simp [hstarted])
  · rw [Init.Unblocked, hanswered]
    exact nofun

end Debugpy.Adapter.Orphans
