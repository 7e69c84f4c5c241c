import Debugpy.Pydevd.Skipping

/-!
# Where a thread stops

A frame that is not traced has no breakpoint and is nowhere that the step of
its thread may end. So whatever pydevd leaves out, each thread stops where it
stops if every event is looked at: at the breakpoints, and where its step ends.
-/

namespace Debugpy.Pydevd.Tracing

variable {S : Settings} {s s' : State} {w w' : World} {bps : Breakpoints} {info step : Info}
variable {thread : Thread} {f g b : Frame} {back : Option Frame} {stack : List Frame} {e : Event}
variable {t : Nat} {condition : Bool} {c c' : Code}

-- ---------------------------------------------------------------------------
-- Frames that are not traced
-- ---------------------------------------------------------------------------

variable {fTrace fTrace' : Nat → TraceFn}

/-- The interpreter reports the events of the frame. -/
def TraceFn.Live (fn : TraceFn) : Prop := fn = .frame ∨ fn = .pydb

/-- The step is over, or turns into another one, with the frame. -/
def Info.Targets (info : Info) (f : Frame) : Prop :=
  info.stepStop = some f.id ∧ ∃ cmd, info.stepCmd = some cmd ∧ cmd.kind ≠ .stepInto

/-- A frame that is not traced is no place to stop in, and the frame that a
step is to stay in is traced with all of its parents. -/
structure FrameOk (S : Settings) (bps : Breakpoints) (info : Info) (fTrace : Nat → TraceFn) (f : Frame)
    (parents : List Frame) : Prop where
  code : f.code ∈ S.codes
  untraced : S.fileType f.code ≠ none → ¬ (fTrace f.id).Live
  quiet : S.fileType f.code = none → ¬ (fTrace f.id).Live →
    Quiet S info f parents.head? ∧ hasBreakpoint bps f.code = false
  target : S.fileType f.code = none → info.Targets f →
    (fTrace f.id).Live ∧ ∀ g ∈ parents, S.fileType g.code = none → (fTrace g.id).Live
  admitted : S.fileType f.code = none → Admitted S info f parents.head?

def StackOk (S : Settings) (bps : Breakpoints) (info : Info) (fTrace : Nat → TraceFn) :
    List Frame → Prop
  | [] => True
  | f :: stack => FrameOk S bps info fTrace f stack ∧ StackOk S bps info fTrace stack

theorem StackOk.code (h : StackOk S bps info fTrace stack) : ∀ f ∈ stack, f.code ∈ S.codes := by
  induction stack with
  | nil => exact fun f hf => by cases hf
  | cons f stack ih => exact List.forall_mem_cons.mpr ⟨h.1.code, ih h.2⟩

theorem StackOk.congr (h : StackOk S bps info fTrace stack)
    (heq : ∀ f ∈ stack, fTrace' f.id = fTrace f.id) : StackOk S bps info fTrace' stack := by
  induction stack with
  | nil => trivial
  | cons f stack ih =>
    obtain ⟨hf, hstack⟩ := List.forall_mem_cons.mp heq
    refine ⟨⟨h.1.code, hf ▸ h.1.untraced, hf ▸ h.1.quiet, fun htype htarget => ?_, h.1.admitted⟩,
      ih h.2 hstack⟩
    obtain ⟨hlive, hparents⟩ := h.1.target htype htarget
    exact ⟨hf ▸ hlive, fun g hg hgtype => hstack g hg ▸ hparents g hg hgtype⟩

theorem not_targets_of_none (hnone : info.stepCmd = none) : ¬ info.Targets f := by
  rintro ⟨-, cmd, hcmd, -⟩
  cases hcmd.symm.trans hnone

theorem StackOk.idle (h : StackOk S bps step fTrace stack) (hnone : info.stepCmd = none) :
    StackOk S bps info fTrace stack := by
  induction stack with
  | nil => trivial
  | cons f stack ih =>
    refine ⟨⟨h.1.code, h.1.untraced, fun htype hnot => ⟨?_, (h.1.quiet htype hnot).2⟩,
      fun _ htarget => absurd htarget (not_targets_of_none hnone), fun _ _ => ?_⟩, ih h.2⟩
    · simp [Quiet, hnone]
    · simp [hnone]

theorem StackOk.live (h : StackOk S bps step fTrace stack)
    (hlive : ∀ f ∈ stack, S.fileType f.code = none → (fTrace f.id).Live)
    (hadmitted : ∀ above f parents, stack = above ++ f :: parents → Admitted S info f parents.head?) :
    StackOk S bps info fTrace stack := by
  induction stack with
  | nil => trivial
  | cons f stack ih =>
    obtain ⟨hf, hstack⟩ := List.forall_mem_cons.mp hlive
    refine ⟨⟨h.1.code, h.1.untraced, fun htype hnot => absurd (hf htype) hnot,
      fun htype _ => ⟨hf htype, hstack⟩, fun _ => hadmitted [] f stack rfl⟩, ih h.2 hstack ?_⟩
    intro above g parents heq
    exact hadmitted (f :: above) g parents (by rw [heq, List.cons_append])

theorem admitted_stepInto (hinto : ∀ cmd, info.stepCmd = some cmd → cmd.kind = .stepInto) :
    Admitted S info f back := by
  intro _
  split
  · next hcmd => cases hinto _ hcmd
  · next hcmd => cases hinto _ hcmd
  · trivial

/-- The event is looked at or need not be, and the frame is traced afterwards
or need not be. -/
structure Reported (S : Settings) (s : State) (t : Nat) (f : Frame) (back : Option Frame) (world : World)
    (s' : State) : Prop where
  world : s'.world = world
  caches : Caches S s'
  others : ∀ t', t' ≠ t → s'.fTrace t' = s.fTrace t'
  frames : ∀ id, id ≠ f.id → s'.fTrace t id = s.fTrace t id
  waits : (s'.world.threads t).phase ≠ .running → s'.fTrace t = s.fTrace t
  untraced : S.fileType f.code ≠ none → ¬ (s'.fTrace t f.id).Live
  quiet : (s'.world.threads t).phase = .running → S.fileType f.code = none →
    ¬ (s'.fTrace t f.id).Live →
    Quiet S (s.world.threads t).info f back ∧ hasBreakpoint s.world.breakpoints f.code = false

theorem setTrace_self (s : State) (t id : Nat) (fn : TraceFn) : (s.setTrace t id fn).fTrace t id = fn := by
  simp [State.setTrace]

theorem setTrace_thread (s : State) (id : Nat) (fn : TraceFn) {t' : Nat} (h : t' ≠ t) :
    (s.setTrace t id fn).fTrace t' = s.fTrace t' := by
  simp [State.setTrace, Function.update_of_ne h]

theorem setTrace_frame (s : State) (t : Nat) (fn : TraceFn) {id id' : Nat} (h : id' ≠ id) :
    (s.setTrace t id fn).fTrace t id' = s.fTrace t id' := by
  simp [State.setTrace, Function.update_of_ne h]

theorem Caches.setTrace (h : Caches S s) (t id : Nat) (fn : TraceFn) : Caches S (s.setTrace t id fn) :=
  h.of_same rfl rfl rfl rfl

theorem Handles.put {r : Bool × State} (h : Handles S s t f back e condition r)
    (htype : S.fileType f.code = none) {skipped : TraceFn} :
    Reported S s t f back
      (s.world.setThread t (S.look s.world.breakpoints condition f back e (s.world.threads t)))
      (State.put t f skipped r) := by
  obtain ⟨kept, s'⟩ := r
  unfold State.put
  dsimp only
  have hfTrace : s'.fTrace = s.fTrace := h.fTrace
  cases hphase : (s'.world.threads t).phase with
  | waiting event shown =>
    exact ⟨h.world, h.caches, fun t' _ => by rw [hfTrace], fun id _ => by rw [hfTrace],
      fun _ => by rw [hfTrace], fun hne => absurd htype hne,
      fun hrunning => by cases hphase.symm.trans hrunning⟩
  | running =>
    refine ⟨h.world, h.caches.setTrace _ _ _, fun t' ht => ?_, fun id hid => ?_,
      fun hwaits => absurd hphase hwaits, fun hne => absurd htype hne, fun _ _ hnot => ?_⟩
    · rw [setTrace_thread s' f.id _ ht, hfTrace]
    · rw [setTrace_frame s' t _ hid, hfTrace]
    · cases kept with
      | false => exact h.skipped rfl
      | true => exact absurd (.inl (setTrace_self s' t f.id _)) hnot

theorem look_frame_of_quiet (hline : OnLine f e) (hquiet : Quiet S (s.world.threads t).info f back)
    (hbp : hasBreakpoint s.world.breakpoints f.code = false) :
    s.world.setThread t (S.look s.world.breakpoints condition f back e (s.world.threads t)) = s.world := by
  rw [look_of_quiet hquiet (breakpointAt_of_hasBreakpoint hbp fun line he => (hline line he).1),
    World.setThread_self]

theorem reported_call (hS : S.Proper) (hs : Caches S s) (hf : f.code ∈ S.codes)
    (hback : ∀ b ∈ back, b.code ∈ S.codes) (hrunning : (s.world.threads t).phase = .running)
    (hfresh : (s.world.threads t).info.stepStop ≠ some f.id) :
    Reported S s t f back
      (if S.fileType f.code = none then s.world.setThread t
        (S.look s.world.breakpoints condition f back (.call c) (s.world.threads t)) else s.world)
      (State.put t f .none (S.threadTracer s t f back (.call c) condition)) := by
  split
  · next htype =>
    exact (threadTracer_handles hS hs hf hback (fun line he => by cases he) htype
      fun hstop => absurd hstop hfresh).put htype
  · next htype =>
    have huntraced : ∃ s', S.threadTracer s t f back (.call c) condition = (false, s') ∧ s'.world = s.world ∧
        s'.fTrace = s.fTrace ∧ Caches S s' :=
      threadTracer_untraced hS hs hf htype
    obtain ⟨s', heq, hworld, hfTrace, hcaches⟩ := huntraced
    have hphase : (s'.world.threads t).phase = .running := by rw [hworld, hrunning]
    simp only [heq, State.put, hphase]
    refine ⟨hworld, hcaches.setTrace _ _ _, fun t' ht => ?_, fun id hid => ?_,
      fun hwaits => absurd hphase hwaits, fun _ hlive => ?_, fun _ hnone => absurd hnone htype⟩
    · rw [setTrace_thread s' f.id _ ht, hfTrace]
    · rw [setTrace_frame s' t _ hid, hfTrace]
    · rcases hlive with hlive | hlive <;> cases (setTrace_self s' t f.id _).symm.trans hlive

theorem trace_cases (hstack : (s.world.threads t).stack = f :: stack) (hcall : ∀ c, e ≠ .call c)
    (condition : Bool) :
    s.fTrace t f.id = .none ∧ s.trace S t e condition = s ∨
    s.fTrace t f.id = .noFtrace ∧ s.trace S t e condition = s.setTrace t f.id .none ∨
    s.fTrace t f.id = .frame ∧ s.trace S t e condition =
      State.put t f .noFtrace (S.traceDispatch s t f stack.head? e condition) ∨
    s.fTrace t f.id = .pydb ∧ s.trace S t e condition =
      State.put t f .noFtrace (S.threadTracer s t f stack.head? e condition) := by
  unfold State.trace
  simp only [hstack]
  cases e with
  | call c => exact absurd rfl (hcall c)
  | _ => cases s.fTrace t f.id <;> simp

theorem reported_event (hS : S.Proper) (hs : Caches S s)
    (hok : FrameOk S s.world.breakpoints (s.world.threads t).info (s.fTrace t) f stack)
    (hback : ∀ b ∈ stack, b.code ∈ S.codes) (hline : OnLine f e) (hcall : ∀ c, e ≠ .call c)
    (hstack : (s.world.threads t).stack = f :: stack) (hrunning : (s.world.threads t).phase = .running) :
    Reported S s t f stack.head? (s.world.trace S t e condition) (s.trace S t e condition) := by
  have hworld : s.world.trace S t e condition =
      if S.fileType f.code = none then s.world.setThread t
        (S.look s.world.breakpoints condition f stack.head? e (s.world.threads t)) else s.world := by
    unfold World.trace
    rw [hstack]
  have huntraced (hnot : ¬ (s.fTrace t f.id).Live) : s.world = s.world.trace S t e condition := by
    rw [hworld]
    split
    · next htype =>
      obtain ⟨hquiet, hbp⟩ := hok.quiet htype hnot
      exact (look_frame_of_quiet hline hquiet hbp).symm
    · rfl
  have htyped (hlive : (s.fTrace t f.id).Live) : S.fileType f.code = none := by
    cases htype : S.fileType f.code with
    | none => rfl
    | some type => exact absurd hlive (hok.untraced (by simp [htype]))
  rcases trace_cases (S := S) hstack hcall condition with
    ⟨hfn, htrace⟩ | ⟨hfn, htrace⟩ | ⟨hfn, htrace⟩ | ⟨hfn, htrace⟩
  all_goals rw [htrace]
  · have hnot : ¬ (s.fTrace t f.id).Live := by simp [hfn, TraceFn.Live]
    exact ⟨huntraced hnot, hs, fun _ _ => rfl, fun _ _ => rfl, fun _ => rfl, hok.untraced,
      fun _ htype _ => hok.quiet htype hnot⟩
  · have hnot : ¬ (s.fTrace t f.id).Live := by simp [hfn, TraceFn.Live]
    refine ⟨huntraced hnot, hs.setTrace _ _ _, fun _ ht => setTrace_thread s f.id _ ht,
      fun _ hid => setTrace_frame s t _ hid, fun hwaits => absurd hrunning hwaits, fun _ hlive => ?_,
      fun _ htype _ => hok.quiet htype hnot⟩
    rcases hlive with hlive | hlive <;> cases (setTrace_self s t f.id _).symm.trans hlive
  · have htype := htyped (.inl hfn)
    rw [hworld, if_pos htype]
    exact (traceDispatch_handles hS hs hok.code hline).put htype
  · have htype := htyped (.inr hfn)
    rw [hworld, if_pos htype]
    have hhead : ∀ b ∈ stack.head?, b.code ∈ S.codes := fun b hb => hback b (List.mem_of_mem_head? hb)
    exact (threadTracer_handles hS hs hok.code hhead hline htype (hok.admitted htype)).put htype

-- ---------------------------------------------------------------------------
-- What becomes of a thread
-- ---------------------------------------------------------------------------

theorem stepStops_cases (h : S.stepStops info f back e = true) (hadmitted : Admitted S info f back) :
    (∃ line, e = .line line) ∧ S.excluded f.code = false ∨
      e = .ret ∧ ∀ b ∈ back, S.excluded b.code = false := by
  obtain ⟨suspended, cmd, stepStop, original, location⟩ := info
  cases cmd with
  | none => cases h
  | some cmd =>
    obtain ⟨kind, force⟩ := cmd
    cases kind with
    | stepInto =>
      cases e with
      | line line => exact .inl ⟨⟨line, rfl⟩, Settings.not_excluded_of_shows h⟩
      | ret =>
        refine .inr ⟨rfl, fun b hb => ?_⟩
        simp only [Settings.stepStops, Option.mem_def.mp hb, Option.any_some, Bool.and_eq_true] at h
        exact Settings.not_excluded_of_shows h.1.2
      | _ => cases h
    | stepOver =>
      cases e with
      | line line => exact .inl ⟨⟨line, rfl⟩, hadmitted (beq_iff_eq.mp h)⟩
      | _ => cases h
    | stepReturn =>
      cases e with
      | ret =>
        obtain ⟨b, hb, hnot⟩ := hadmitted (beq_iff_eq.mp (Bool.and_eq_true_iff.mp h).1)
        exact .inr ⟨rfl, fun b' hb' => Option.some.inj (hb.symm.trans hb') ▸ hnot⟩
      | _ => cases h

/-- What a look at an event does to a thread that runs: it goes on, its step
is over or a step into with the frame, or it waits. -/
inductive Looked (S : Settings) (f : Frame) (back : Option Frame) (e : Event) (thread : Thread) :
    Thread → Prop
  | goesOn : Looked S f back e thread thread
  | leaves (info : Info) : e = .ret →
      (∀ cmd, info.stepCmd = some cmd → cmd.kind = .stepInto ∧ thread.info.Targets f) →
      (∀ id, info.stepStop = some id → thread.info.stepStop = some id) →
      (∀ cmd, thread.info.stepCmd = some cmd → cmd.kind ≠ .stepInto → thread.info.Targets f) →
      Looked S f back e thread { thread with info }
  | waits (info : Info) (shown : Frame) (reason : Reason) :
      (∀ id, info.stepStop = some id → thread.info.stepStop = some id) → S.excluded shown.code = false →
      (e ≠ .ret ∧ shown = f ∨ e = .ret ∧ back = some shown) →
      (reason = .setBreak ∨ S.stepStops thread.info f back e = true ∧
        ∀ cmd, thread.info.originalStepCmd = some cmd → reason = .step cmd) →
      Looked S f back e thread { thread with
        info
        phase := .waiting e shown
        stops := thread.stops ++ [{ frame := shown.id, line := shown.line, reason }] }

theorem Info.onReturn_cases (info : Info) (f : Frame) (e : Event) : info.onReturn f e = info ∨
    e = .ret ∧ info.Targets f ∧ (info.onReturn f e).stepStop = none ∧
      ∀ cmd, (info.onReturn f e).stepCmd = some cmd → cmd.kind = .stepInto := by
  unfold Info.onReturn
  split
  · next cmd hcmd =>
    split
    · next htarget =>
      exact .inr ⟨rfl, ⟨htarget.1, cmd, hcmd, htarget.2⟩, rfl, fun cmd' hcmd' => by cases hcmd'; rfl⟩
    · exact .inl rfl
  · exact .inl rfl

theorem Info.onReturn_stepStop (info : Info) (f : Frame) (e : Event) {id : Nat}
    (h : (info.onReturn f e).stepStop = some id) : info.stepStop = some id := by
  rcases info.onReturn_cases f e with heq | ⟨-, -, hnone, -⟩
  · rwa [heq] at h
  · cases h.symm.trans hnone

/-- Only in the frame that it is to stay in does a step other than a step into
end with a return. -/
theorem targets_of_stepStops {cmd : StepCmd} (h : S.stepStops info f back .ret = true)
    (hcmd : info.stepCmd = some cmd) (hkind : cmd.kind ≠ .stepInto) : info.Targets f := by
  obtain ⟨kind, force⟩ := cmd
  cases kind with
  | stepInto => exact absurd rfl hkind
  | stepOver => simp [Settings.stepStops, hcmd] at h
  | stepReturn =>
    simp only [Settings.stepStops, hcmd, Bool.and_eq_true, beq_iff_eq] at h
    exact ⟨h.1, _, hcmd, hkind⟩

theorem look_looked (hadmitted : Admitted S thread.info f back)
    (hbp : breakpointAt bps f.code e ≠ none → S.excluded f.code = false) :
    Looked S f back e thread (S.look bps condition f back e thread) := by
  have hstop (id : Nat) (hid : (thread.info.onReturn f e).stepStop = some id) :
      thread.info.stepStop = some id :=
    Info.onReturn_stepStop thread.info f e hid
  have hwaits (shown : Frame) (reason : Reason) (hshown : S.excluded shown.code = false)
      (hwhere : e ≠ .ret ∧ shown = f ∨ e = .ret ∧ back = some shown)
      (hreason : reason = .setBreak ∨ S.stepStops thread.info f back e = true ∧
        ∀ cmd, thread.info.originalStepCmd = some cmd → reason = .step cmd) :
      Looked S f back e thread
        ({ thread with info := thread.info.onReturn f e }.suspend shown e reason) := by
    refine .waits _ shown reason (fun id hid => hstop id ?_) hshown hwhere hreason
    dsimp only at hid
    cases hcmd : (thread.info.onReturn f e).stepCmd with
    | none => simp [hcmd] at hid
    | some cmd => simpa [hcmd] using hid
  have hclear (he : e = .ret) (hends : S.stepStops thread.info f back e = true) :
      Looked S f back e thread { thread with info := (thread.info.onReturn f e).clear } :=
    .leaves _ he (fun cmd hcmd => by cases hcmd) (fun id hid => by cases hid)
      fun cmd hcmd hkind => targets_of_stepStops (he ▸ hends) hcmd hkind
  have hleaves : Looked S f back e thread { thread with info := thread.info.onReturn f e } := by
    rcases thread.info.onReturn_cases f e with heq | ⟨he, htarget, -, hinto⟩
    · rw [heq]
      exact .goesOn
    · exact .leaves _ he (fun cmd hcmd => ⟨hinto cmd hcmd, htarget⟩) hstop fun _ _ _ => htarget
  unfold Settings.look
  dsimp only
  split
  · next hany =>
    have hline : ∃ line, e = .line line := by
      cases e with
      | line line => exact ⟨line, rfl⟩
      | _ => cases hany
    obtain ⟨line, rfl⟩ := hline
    have hnot : breakpointAt bps f.code (.line line) ≠ none := by
      intro hnone
      simp [hnone] at hany
    exact hwaits f _ (hbp hnot) (.inl ⟨by simp, rfl⟩) (.inl rfl)
  split
  · next hends =>
    have horiginal : ∀ cmd, thread.info.originalStepCmd = some cmd → Reason.step
        (thread.info.originalStepCmd.getD (thread.info.stepCmd.getD { kind := .stepInto })) = .step cmd :=
      fun cmd hcmd => by rw [hcmd, Option.getD_some]
    rcases stepStops_cases hends hadmitted with ⟨⟨line, rfl⟩, hnot⟩ | ⟨rfl, hback⟩
    · exact hwaits f _ hnot (.inl ⟨by simp, rfl⟩) (.inr ⟨hends, horiginal⟩)
    · cases back with
      | none => exact hclear rfl hends
      | some b =>
        dsimp only
        split
        · exact hclear rfl hends
        split
        · exact hleaves
        · exact hwaits b _ (hback b rfl) (.inr ⟨rfl, rfl⟩) (.inr ⟨hends, horiginal⟩)
  · exact hleaves

-- ---------------------------------------------------------------------------
-- Every state
-- ---------------------------------------------------------------------------

/-- What the thread is to stop at, while it runs. -/
def Thread.active (thread : Thread) : Info :=
  match thread.phase with
  | .running => thread.info
  | .waiting _ _ => {}

/-- Where a thread waits: in the frame of the event, or for the parent of the
frame that returns. -/
inductive Waits (S : Settings) : Event → Frame → List Frame → Prop
  | here {event : Event} {shown : Frame} {parents : List Frame} : event ≠ .ret →
      S.fileType shown.code = none → S.excluded shown.code = false → Waits S event shown (shown :: parents)
  | back {left shown : Frame} {parents : List Frame} : S.fileType left.code = none →
      S.excluded shown.code = false → Waits S .ret shown (left :: shown :: parents)

structure ThreadOk (S : Settings) (bps : Breakpoints) (nextId : Nat) (fTrace : Nat → TraceFn)
    (thread : Thread) : Prop where
  stack : StackOk S bps thread.active fTrace thread.stack
  ids : (thread.stack.map Frame.id).Nodup
  below : ∀ f ∈ thread.stack, f.id < nextId
  stop : ∀ id, thread.info.stepStop = some id → id < nextId
  waiting : ∀ e shown, thread.phase = .waiting e shown → Waits S e shown thread.stack

structure Inv (S : Settings) (s : State) : Prop where
  caches : Caches S s
  threads : ∀ t, ThreadOk S s.world.breakpoints s.world.nextId (s.fTrace t) (s.world.threads t)

theorem ThreadOk.mono {nextId nextId' : Nat} (h : ThreadOk S bps nextId fTrace thread)
    (hle : nextId ≤ nextId') : ThreadOk S bps nextId' fTrace thread :=
  ⟨h.stack, h.ids, fun f hf => Nat.lt_of_lt_of_le (h.below f hf) hle,
    fun id hid => Nat.lt_of_lt_of_le (h.stop id hid) hle, h.waiting⟩

theorem ThreadOk.running {nextId : Nat} (h : ThreadOk S bps nextId fTrace thread)
    (hrunning : thread.phase = .running) : StackOk S bps thread.info fTrace thread.stack := by
  have hstack := h.stack
  rwa [Thread.active, hrunning] at hstack

theorem ThreadOk.of_running {nextId : Nat} (hrunning : thread.phase = .running)
    (hstack : StackOk S bps thread.info fTrace thread.stack) (hids : (thread.stack.map Frame.id).Nodup)
    (hbelow : ∀ f ∈ thread.stack, f.id < nextId)
    (hstop : ∀ id, thread.info.stepStop = some id → id < nextId) :
    ThreadOk S bps nextId fTrace thread where
  stack := by rwa [Thread.active, hrunning]
  ids := hids
  below := hbelow
  stop := hstop
  waiting e shown hwaiting := by cases hrunning.symm.trans hwaiting

theorem inv_initial (S : Settings) : Inv S {} where
  caches := {
    excluded := fun _ _ _ => rfl
    filtered := fun c _ h => by simp at h
    noBreakpoint := fun c _ h => by simp at h
    frames := fun c _ h => by simp at h
    lines := fun c _ line h => by simp at h }
  threads _ :=
    ⟨trivial, .nil, (fun f hf => by cases hf), (fun id hid => by cases hid), fun e shown h => by cases h⟩

@[simp] theorem setThread_threads (w : World) (t : Nat) (thread : Thread) :
    (w.setThread t thread).threads t = thread := by
  simp [World.setThread]

theorem setThread_others (w : World) (thread : Thread) {t' : Nat} (h : t' ≠ t) :
    (w.setThread t thread).threads t' = w.threads t' := by
  simp [World.setThread, Function.update_of_ne h]

@[simp] theorem setThread_breakpoints (w : World) (t : Nat) (thread : Thread) :
    (w.setThread t thread).breakpoints = w.breakpoints := rfl

@[simp] theorem setThread_nextId (w : World) (t : Nat) (thread : Thread) :
    (w.setThread t thread).nextId = w.nextId := rfl

@[simp] theorem finish_breakpoints (w : World) (t : Nat) (e : Event) :
    (w.finish t e).breakpoints = w.breakpoints := by
  unfold World.finish
  dsimp only
  split <;> rfl

@[simp] theorem finish_nextId (w : World) (t : Nat) (e : Event) : (w.finish t e).nextId = w.nextId := by
  unfold World.finish
  dsimp only
  split <;> rfl

theorem finish_others (w : World) (e : Event) {t' : Nat} (h : t' ≠ t) :
    (w.finish t e).threads t' = w.threads t' := by
  unfold World.finish
  dsimp only
  split
  · exact setThread_others w _ h
  · rfl

theorem finish_waiting {shown : Frame} {e' : Event} (h : (w.threads t).phase = .waiting e' shown) (e : Event) :
    w.finish t e = w := by
  simp [World.finish, h]

theorem finish_ret (h : (w.threads t).phase = .running) :
    (w.finish t .ret).threads t = { w.threads t with stack := (w.threads t).stack.tail } := by
  simp [World.finish, h]

theorem finish_of_ne (he : e ≠ .ret) (w : World) (t : Nat) : w.finish t e = w := by
  unfold World.finish
  dsimp only
  split
  · exact absurd rfl he
  · rfl

theorem finish_thread (h : (w.threads t).phase = .running) (e : Event) :
    (w.finish t e).threads t = { w.threads t with
      stack := if e = .ret then (w.threads t).stack.tail else (w.threads t).stack } := by
  by_cases he : e = .ret
  · subst he
    rw [finish_ret h, if_pos rfl]
  · rw [finish_of_ne he, if_neg he]

theorem start_cases {world : World} (h : w.start S t e = some world) : (w.threads t).phase = .running ∧
    ((∃ code, e = .call code ∧ code ∈ S.codes ∧ world = { w with nextId := w.nextId + 1 }.setThread t
        { w.threads t with
          stack := { id := w.nextId, code, line := code.firstLine } :: (w.threads t).stack }) ∨
      (∀ c, e ≠ .call c) ∧ ∃ f stack line, (w.threads t).stack = f :: stack ∧
        (∀ l, e = .line l → l ∈ f.code.lines ∧ line = l) ∧
        world = w.setThread t { w.threads t with stack := { f with line } :: stack }) := by
  have hsame {f : Frame} {stack : List Frame} (heq : (w.threads t).stack = f :: stack) :
      w = w.setThread t { w.threads t with stack := { f with line := f.line } :: stack } := by
    rw [← heq]
    exact (World.setThread_self w t).symm
  unfold World.start at h
  dsimp only at h
  split at h
  · cases h
  · next code hrunning =>
    split at h
    · next hcode =>
      cases h
      exact ⟨hrunning, .inl ⟨code, rfl, hcode, rfl⟩⟩
    · cases h
  · next line f stack hrunning heq =>
    split at h
    · next hline =>
      cases h
      refine ⟨hrunning, .inr ⟨fun c he => (by cases he), f, stack, line, heq, fun l he => ?_, rfl⟩⟩
      cases he
      exact ⟨hline, rfl⟩
    · cases h
  · next f stack hrunning heq =>
    cases h
    exact ⟨hrunning, .inr ⟨fun c he => (by cases he), f, stack, f.line, heq, fun l he => (by cases he),
      hsame heq⟩⟩
  · next f stack hrunning heq =>
    cases h
    exact ⟨hrunning, .inr ⟨fun c he => (by cases he), f, stack, f.line, heq, fun l he => (by cases he),
      hsame heq⟩⟩
  · cases h

structure Started (S : Settings) (s : State) (t : Nat) (e : Event) (world : World) (f : Frame)
    (stack : List Frame) : Prop where
  running : (s.world.threads t).phase = .running
  thread : world.threads t = { s.world.threads t with stack := f :: stack }
  others : ∀ t', t' ≠ t → world.threads t' = s.world.threads t'
  breakpoints : world.breakpoints = s.world.breakpoints
  nextId : s.world.nextId ≤ world.nextId
  line : OnLine f e
  parents : StackOk S s.world.breakpoints (s.world.threads t).info (s.fTrace t) stack
  top : (∃ c, e = .call c) ∧ f.code ∈ S.codes ∧ (s.world.threads t).info.stepStop ≠ some f.id ∨
    (∀ c, e ≠ .call c) ∧ FrameOk S s.world.breakpoints (s.world.threads t).info (s.fTrace t) f stack
  ids : ((f :: stack).map Frame.id).Nodup
  below : ∀ g ∈ f :: stack, g.id < world.nextId
  old : ∀ g ∈ f :: stack, g.id < s.world.nextId → g.id ∈ (s.world.threads t).stack.map Frame.id

theorem start_started {world : World} (hi : Inv S s) (h : s.world.start S t e = some world) :
    ∃ f stack, Started S s t e world f stack := by
  obtain ⟨hrunning, ⟨code, rfl, hcode, rfl⟩ | ⟨hcall, f, stack, line, heq, hline, rfl⟩⟩ := start_cases h
  all_goals
    have ht := hi.threads t
    have hok := ht.running hrunning
    have hids := ht.ids
    have hbelow := ht.below
  · refine ⟨_, (s.world.threads t).stack, hrunning, setThread_threads _ _ _,
      fun t' ht' => setThread_others _ _ ht', rfl, Nat.le_succ _, fun line he => (by cases he), hok,
      .inl ⟨⟨code, rfl⟩, hcode, fun hstop => ?_⟩, ?_, ?_, ?_⟩
    · exact absurd (ht.stop _ hstop) (Nat.lt_irrefl _)
    · refine List.nodup_cons.mpr ⟨fun hmem => ?_, hids⟩
      obtain ⟨f, hf, hid⟩ := List.mem_map.mp hmem
      exact absurd (hid ▸ hbelow f hf) (Nat.lt_irrefl _)
    · exact List.forall_mem_cons.mpr ⟨Nat.lt_succ_self _, fun f hf => Nat.lt_succ_of_lt (hbelow f hf)⟩
    · exact List.forall_mem_cons.mpr
        ⟨fun hlt => absurd hlt (Nat.lt_irrefl _), fun g hg _ => List.mem_map_of_mem hg⟩
  · rw [heq] at hok hids hbelow
    refine ⟨{ f with line }, stack, hrunning, setThread_threads _ _ _,
      fun t' ht' => setThread_others _ _ ht', rfl, Nat.le_refl _, hline, hok.2, .inr ⟨hcall, ?_⟩, hids, ?_, ?_⟩
    · exact ⟨hok.1.code, hok.1.untraced, hok.1.quiet, hok.1.target, hok.1.admitted⟩
    · exact List.forall_mem_cons.mpr (List.forall_mem_cons.mp hbelow)
    · rw [heq]
      exact List.forall_mem_cons.mpr ⟨fun _ => List.mem_cons_self, fun g hg _ =>
        List.mem_cons_of_mem _ (List.mem_map_of_mem hg)⟩

theorem Quiet.not_targets (h : Quiet S info f back) : ¬ info.Targets f := by
  rintro ⟨hstop, cmd, hcmd, hkind⟩
  obtain ⟨kind, force⟩ := cmd
  simp only [Quiet, hcmd] at h
  cases kind with
  | stepInto => exact hkind rfl
  | stepOver => exact h hstop
  | stepReturn => exact h hstop

namespace Started

variable {world : World}

theorem parents_ok (hst : Started S s t e world f stack)
    (hr : Reported S { s with world } t f stack.head? w s') :
    StackOk S world.breakpoints (s.world.threads t).info (s'.fTrace t) stack := by
  rw [hst.breakpoints]
  refine hst.parents.congr fun g hg => hr.frames g.id fun heq => ?_
  exact (List.nodup_cons.mp hst.ids).1 (heq ▸ List.mem_map_of_mem hg)

theorem goesOn (hst : Started S s t e world f stack)
    (hr : Reported S { s with world } t f stack.head? w s')
    (hrunning : (s'.world.threads t).phase = .running) :
    StackOk S world.breakpoints (s.world.threads t).info (s'.fTrace t) (f :: stack) := by
  have hinfo : (world.threads t).info = (s.world.threads t).info := by rw [hst.thread]
  have hquiet := hr.quiet hrunning
  dsimp only at hquiet
  rw [hinfo] at hquiet
  have hparents := hst.parents_ok hr
  refine ⟨?_, hparents⟩
  rcases hst.top with ⟨-, hcode, hfresh⟩ | ⟨-, hok⟩
  · exact ⟨hcode, hr.untraced, fun htype hnot => hquiet htype hnot,
      fun _ htarget => absurd htarget.1 hfresh, fun _ hstop => absurd hstop hfresh⟩
  · refine ⟨hok.code, hr.untraced, fun htype hnot => hquiet htype hnot,
      fun htype htarget => ⟨?_, fun g hg hgtype => ?_⟩,
      hok.admitted⟩
    · by_contra hnot
      exact (hquiet htype hnot).1.not_targets htarget
    · have hne : g.id ≠ f.id := fun heq =>
        (List.nodup_cons.mp hst.ids).1 (heq ▸ List.mem_map_of_mem hg)
      rw [hr.frames g.id hne]
      exact (hok.target htype htarget).2 g hg hgtype

theorem leaves (hst : Started S s t e world f stack)
    (hr : Reported S { s with world } t f stack.head? w s') (hcall : ∀ c, e ≠ .call c)
    (htype : S.fileType f.code = none)
    (hinto : ∀ cmd, info.stepCmd = some cmd → cmd.kind = .stepInto ∧ (s.world.threads t).info.Targets f) :
    StackOk S world.breakpoints info (s'.fTrace t) stack := by
  have hparents := hst.parents_ok hr
  rcases hst.top with ⟨⟨c, he⟩, -⟩ | ⟨-, hok⟩
  · exact absurd he (hcall c)
  cases hcmd : info.stepCmd with
  | none => exact hparents.idle hcmd
  | some cmd =>
    have hlive := (hok.target htype (hinto cmd hcmd).2).2
    refine hparents.live (fun g hg hgtype => ?_) fun _ _ _ _ =>
      admitted_stepInto fun cmd hcmd => (hinto cmd hcmd).1
    have hne : g.id ≠ f.id := fun heq => (List.nodup_cons.mp hst.ids).1 (heq ▸ List.mem_map_of_mem hg)
    rw [hr.frames g.id hne]
    exact hlive g hg hgtype

theorem waits (hst : Started S s t e world f stack)
    (hr : Reported S { s with world } t f stack.head? w s') (hcall : ∀ c, e ≠ .call c)
    (hwaits : (s'.world.threads t).phase ≠ .running) :
    StackOk S world.breakpoints {} (s'.fTrace t) (f :: stack) := by
  rcases hst.top with ⟨⟨c, he⟩, -⟩ | ⟨-, hok⟩
  · exact absurd he (hcall c)
  have hstack : StackOk S s.world.breakpoints (s.world.threads t).info (s.fTrace t) (f :: stack) :=
    ⟨hok, hst.parents⟩
  rw [hr.waits hwaits, hst.breakpoints]
  exact hstack.idle rfl

theorem threadOk (hst : Started S s t e world f stack)
    (hr : Reported S { s with world } t f stack.head? w s')
    (htype : w.threads t ≠ world.threads t → (∀ c, e ≠ .call c) ∧ S.fileType f.code = none)
    (hlooked : Looked S f stack.head? e (world.threads t) (w.threads t))
    (hstop : ∀ id, (s.world.threads t).info.stepStop = some id → id < s.world.nextId) :
    ThreadOk S world.breakpoints world.nextId (s'.fTrace t) ((w.finish t e).threads t) := by
  have hlt (info : Info) (hinfo : ∀ id, info.stepStop = some id → (world.threads t).info.stepStop = some id) :
      ∀ id, info.stepStop = some id → id < world.nextId := fun id hid => by
    have hold := hinfo id hid
    rw [hst.thread] at hold
    exact Nat.lt_of_lt_of_le (hstop id hold) hst.nextId
  have hphase : (world.threads t).phase = .running := by rw [hst.thread]; exact hst.running
  have hstackEq : (world.threads t).stack = f :: stack := by rw [hst.thread]
  have hinfo : (world.threads t).info = (s.world.threads t).info := by rw [hst.thread]
  have hnext : s'.world.threads t = w.threads t := by rw [hr.world]
  -- it runs, with some frames left
  have hrest {info : Info} {rest : List Frame} (hsuffix : rest <:+ f :: stack)
      (hok : StackOk S world.breakpoints info (s'.fTrace t) rest)
      (hinfo : ∀ id, info.stepStop = some id → (world.threads t).info.stepStop = some id) :
      ThreadOk S world.breakpoints world.nextId (s'.fTrace t) { world.threads t with info, stack := rest } :=
    .of_running hphase hok (hst.ids.sublist (hsuffix.sublist.map Frame.id))
      (fun g hg => hst.below g (hsuffix.subset hg)) (hlt info hinfo)
  generalize hthread : w.threads t = next at hlooked htype hnext
  cases hlooked with
  | goesOn =>
    have hrunning : (w.threads t).phase = .running := by rw [hthread, hphase]
    have hok := hst.goesOn hr (by rw [hnext, hphase])
    rw [← hinfo] at hok
    rw [finish_thread hrunning, hthread, hstackEq, List.tail_cons]
    split
    · exact hrest (List.suffix_cons f stack) hok.2 fun id hid => hid
    · exact hrest (List.suffix_refl _) hok fun id hid => hid
  | leaves info he hinto hstop' _ =>
    subst he
    have hrunning : (w.threads t).phase = .running := by rw [hthread]; exact hphase
    have hok : StackOk S world.breakpoints info (s'.fTrace t) stack := by
      by_cases hsame : ({ world.threads t with info } : Thread) = world.threads t
      · have hsameInfo : info = (s.world.threads t).info := (congrArg Thread.info hsame).trans hinfo
        rw [hsameInfo]
        exact (hst.goesOn hr (by rw [hnext]; exact hphase)).2
      · obtain ⟨hcall, hfile⟩ := htype hsame
        exact hst.leaves hr hcall hfile fun cmd hcmd => hinfo ▸ hinto cmd hcmd
    rw [finish_ret hrunning, hthread]
    dsimp only
    rw [hstackEq, List.tail_cons]
    exact hrest (List.suffix_cons f stack) hok hstop'
  | waits info shown reason hstop' hshown hwhere _ =>
    have hne : ({ world.threads t with
        info
        phase := .waiting e shown
        stops := (world.threads t).stops ++ [{ frame := shown.id, line := shown.line, reason }] } : Thread) ≠
        world.threads t := by
      intro heq
      have hwaits := congrArg Thread.phase heq
      rw [hphase] at hwaits
      cases hwaits
    obtain ⟨hcall, hfile⟩ := htype hne
    have hwaiting : (w.threads t).phase = .waiting e shown := by rw [hthread]
    rw [finish_waiting hwaiting, hthread]
    have hstack := hst.waits hr hcall (by rw [hnext]; exact fun h => by cases h)
    refine ⟨by rwa [hstackEq], by rw [hstackEq]; exact hst.ids, by rw [hstackEq]; exact hst.below,
      hlt _ hstop', ?_⟩
    intro e' shown' heq
    cases heq
    rw [hstackEq]
    rcases hwhere with ⟨he, rfl⟩ | ⟨rfl, hback⟩
    · exact .here he hfile hshown
    · obtain ⟨parents, rfl⟩ := List.head?_eq_some_iff.mp hback
      exact .back hfile hshown

end Started

theorem trace_others (w : World) (e : Event) (condition : Bool) {t' : Nat} (h : t' ≠ t) :
    (w.trace S t e condition).threads t' = w.threads t' := by
  unfold World.trace
  split
  · rfl
  · split
    · exact setThread_others _ _ h
    · rfl

theorem trace_breakpoints (w : World) (t : Nat) (e : Event) (condition : Bool) :
    (w.trace S t e condition).breakpoints = w.breakpoints ∧ (w.trace S t e condition).nextId = w.nextId := by
  unfold World.trace
  split
  · exact ⟨rfl, rfl⟩
  · split
    · exact ⟨rfl, rfl⟩
    · exact ⟨rfl, rfl⟩

structure Traced (S : Settings) (s : State) (t : Nat) (e : Event) (condition : Bool) (world : World)
    (f : Frame) (stack : List Frame) (s' : State) : Prop where
  started : Started S s t e world f stack
  reported : Reported S { s with world } t f stack.head? (world.trace S t e condition) s'
  look : world.trace S t e condition = if S.fileType f.code = none then world.setThread t
    (S.look world.breakpoints condition f stack.head? e (world.threads t)) else world
  changed : (world.trace S t e condition).threads t ≠ world.threads t →
    (∀ c, e ≠ .call c) ∧ S.fileType f.code = none
  looked : Looked S f stack.head? e (world.threads t) ((world.trace S t e condition).threads t)

theorem event_traced (hS : S.Proper) (hi : Inv S s) {world : World} (hstart : s.world.start S t e = some world)
    (condition : Bool) :
    ∃ f stack, Traced S s t e condition world f stack (State.trace S { s with world } t e condition) := by
  obtain ⟨f, stack, hst⟩ := start_started hi hstart
  have hcaches : Caches S { s with world } := hi.caches.of_same hst.breakpoints rfl rfl rfl
  have hstack : (world.threads t).stack = f :: stack := by rw [hst.thread]
  have hphase : (world.threads t).phase = .running := by rw [hst.thread]; exact hst.running
  have hinfo : (world.threads t).info = (s.world.threads t).info := by rw [hst.thread]
  have hcodes := hst.parents.code
  have hlook : world.trace S t e condition =
      if S.fileType f.code = none then world.setThread t
        (S.look world.breakpoints condition f stack.head? e (world.threads t)) else world := by
    unfold World.trace
    rw [hstack]
  have hsame (hne : (world.trace S t e condition).threads t ≠ world.threads t) :
      (∀ c, e ≠ .call c) ∧ S.fileType f.code = none := by
    refine ⟨fun c he => hne ?_, ?_⟩
    · rw [hlook, look_of_silent (.inl ⟨c, he⟩), World.setThread_self, ite_self]
    · by_contra htype
      exact hne (by rw [hlook, if_neg htype])
  refine ⟨f, stack, hst, ?_, hlook, hsame, ?_⟩
  · rcases hst.top with ⟨⟨c, rfl⟩, hcode, hfresh⟩ | ⟨hcall, hok⟩
    · rw [hlook]
      unfold State.trace
      simp only [hstack]
      exact reported_call hS hcaches hcode (fun b hb => hcodes b (List.mem_of_mem_head? hb)) hphase
        (by rwa [hinfo])
    · rw [← hst.breakpoints, ← hinfo] at hok
      exact reported_event hS hcaches hok hcodes hst.line hcall hstack hphase
  · by_cases hne : (world.trace S t e condition).threads t = world.threads t
    · rw [hne]
      exact .goesOn
    · obtain ⟨hcall, htype⟩ := hsame hne
      rcases hst.top with ⟨⟨c, he⟩, -⟩ | ⟨-, hok⟩
      · exact absurd he (hcall c)
      rw [hlook, if_pos htype, setThread_threads]
      refine look_looked (hinfo ▸ hok.admitted htype) fun hbp => ?_
      cases hexcluded : S.excluded f.code with
      | false => rfl
      | true =>
        have hnone := hcaches.excluded f.code hok.code hexcluded
        exact absurd (breakpointAt_of_hasBreakpoint hnone fun line he => (hst.line line he).1) hbp

theorem event_inv (hS : S.Proper) (hi : Inv S s) (h : s.step S (.event t e condition) = some s') :
    s.world.step S (.event t e condition) = some s'.world ∧ Inv S s' := by
  obtain ⟨world, hstart, rfl⟩ := Option.map_eq_some_iff.mp h
  obtain ⟨f, stack, hst, hr, hlook, hchanged, hlooked⟩ := event_traced hS hi hstart condition
  obtain ⟨hbps, hnextId⟩ := trace_breakpoints (S := S) world t e condition
  refine ⟨?_, hr.caches.of_same (finish_breakpoints _ _ _) rfl rfl rfl, fun t' => ?_⟩
  · dsimp only
    rw [World.step, hstart, Option.map_some, hr.world]
  · dsimp only
    rw [hr.world, finish_breakpoints, finish_nextId, hbps, hnextId]
    by_cases ht : t' = t
    · subst ht
      exact hst.threadOk hr hchanged hlooked (hi.threads t').stop
    · have hold := (hi.threads t').mono hst.nextId
      rw [hst.breakpoints, hr.others t' ht, finish_others _ _ ht, trace_others _ _ _ ht, hst.others t' ht]
      exact hold

-- ---------------------------------------------------------------------------
-- What else happens
-- ---------------------------------------------------------------------------

theorem live_retrace (hg : g ∈ stack) (htype : S.fileType g.code = none) (fTrace : Nat → TraceFn) :
    (S.retrace stack fTrace g.id).Live := by
  have hany : stack.any (fun f => f.id == g.id && S.fileType f.code == none) = true :=
    List.any_eq_true.mpr ⟨g, hg, by simp [htype]⟩
  unfold Settings.retrace
  rw [if_pos hany]
  exact .inr rfl

theorem retrace_cases (S : Settings) (frames : List Frame) (fTrace : Nat → TraceFn) (id : Nat) :
    S.retrace frames fTrace id = fTrace id ∨
      S.retrace frames fTrace id = .pydb ∧ ∃ f ∈ frames, f.id = id ∧ S.fileType f.code = none := by
  unfold Settings.retrace
  split
  · next hany =>
    obtain ⟨f, hf, hcond⟩ := List.any_eq_true.mp hany
    obtain ⟨hid, htype⟩ := Bool.and_eq_true_iff.mp hcond
    exact .inr ⟨rfl, f, hf, beq_iff_eq.mp hid, by simpa using htype⟩
  · exact .inl rfl

theorem ne_of_mem (h : ((f :: stack).map Frame.id).Nodup) (hg : g ∈ stack) : g.id ≠ f.id := fun heq =>
  (List.nodup_cons.mp h).1 (heq ▸ List.mem_map_of_mem hg)

theorem StackOk.retrace (h : StackOk S bps info fTrace stack) (hids : (stack.map Frame.id).Nodup)
    (bps' : Breakpoints) : StackOk S bps' info (S.retrace stack fTrace) stack := by
  have hall : ∀ rest, rest ⊆ stack → StackOk S bps info fTrace rest →
      StackOk S bps' info (S.retrace stack fTrace) rest := by
    intro rest hrest hok
    induction rest with
    | nil => trivial
    | cons f rest ih =>
      obtain ⟨hf, hsub⟩ := List.cons_subset.mp hrest
      refine ⟨⟨hok.1.code, fun htype hlive => ?_, fun htype hnot => absurd (live_retrace hf htype _) hnot,
        fun htype _ => ⟨live_retrace hf htype _, fun g hg hgtype => live_retrace (hsub hg) hgtype _⟩,
        hok.1.admitted⟩, ih hsub hok.2⟩
      rcases retrace_cases S stack fTrace f.id with hsame | ⟨-, g, hg, hid, hgtype⟩
      · exact hok.1.untraced htype (hsame ▸ hlive)
      · exact htype (List.inj_on_of_nodup_map hids hg hf hid ▸ hgtype)
  exact hall stack (List.Subset.refl _) h

theorem breakpointAt_erase (h : breakpointAt bps c e = none) (file : String) :
    breakpointAt (bps.erase file) c e = none := by
  cases e with
  | line line =>
    simp only [breakpointAt, Dict.get?_erase]
    split
    · rfl
    · exact h
  | _ => rfl

theorem hasBreakpoint_erase (h : hasBreakpoint bps c = false) (file : String) :
    hasBreakpoint (bps.erase file) c = false := by
  simp only [hasBreakpoint, Dict.get?_erase]
  split
  · rfl
  · exact h

theorem StackOk.erase (h : StackOk S bps info fTrace stack) (file : String) :
    StackOk S (bps.erase file) info fTrace stack := by
  induction stack with
  | nil => trivial
  | cons f stack ih =>
    refine ⟨⟨h.1.code, h.1.untraced, fun htype hnot => ?_, h.1.target, h.1.admitted⟩, ih h.2⟩
    obtain ⟨hquiet, hbp⟩ := h.1.quiet htype hnot
    exact ⟨hquiet, hasBreakpoint_erase hbp file⟩

theorem remove_inv (hi : Inv S s) {file : String} (h : s.step S (.removeBreakpoints file) = some s') :
    s.world.step S (.removeBreakpoints file) = some s'.world ∧ Inv S s' := by
  cases h
  refine ⟨rfl, ⟨fun c hc hexcluded => hasBreakpoint_erase (hi.caches.excluded c hc hexcluded) file,
    hi.caches.filtered, fun c hc hget => hasBreakpoint_erase (hi.caches.noBreakpoint c hc hget) file,
    fun c hc hget => hasBreakpoint_erase (hi.caches.frames c hc hget) file,
    fun c hc line hmem => breakpointAt_erase (hi.caches.lines c hc line hmem) file⟩, fun t => ?_⟩
  have ht := hi.threads t
  exact ⟨ht.stack.erase file, ht.ids, ht.below, ht.stop, ht.waiting⟩

theorem hasBreakpoint_add (h : hasBreakpoint bps c = false) {file : String} {line : Int}
    (hne : c.file = file → line ∉ c.lines) (bp : Breakpoint) :
    hasBreakpoint (bps.add file line bp) c = false := by
  simp only [hasBreakpoint, Breakpoints.add, Dict.get?_set] at h ⊢
  split
  · next hfile =>
    rw [Option.any_some, List.any_eq_false]
    intro line' hmem
    obtain ⟨bp', hget⟩ := Dict.mem_keys.mp hmem
    rw [Dict.get?_set] at hget
    split at hget
    · next heq => simpa [heq] using hne hfile
    · rw [← hfile] at hget
      cases hlines : bps.get? c.file with
      | none => simp [hlines] at hget
      | some lines =>
        simp only [hlines, Option.any_some, List.any_eq_false, Option.getD_some] at h hget
        exact h line' (Dict.mem_keys.mpr ⟨bp', hget⟩)
  · exact h

theorem add_inv (hi : Inv S s) {file : String} {line : Int} {bp : Breakpoint}
    (hallow : S.Allows (.addBreakpoint file line bp)) (h : s.step S (.addBreakpoint file line bp) = some s') :
    s.world.step S (.addBreakpoint file line bp) = some s'.world ∧ Inv S s' := by
  cases h
  refine ⟨rfl, ⟨fun c hc hexcluded => ?_, fun c _ hget => by simp at hget, fun c _ hget => by simp at hget,
    fun c _ hget => by simp at hget, fun c _ line hmem => by cases hmem⟩, fun t => ?_⟩
  · refine hasBreakpoint_add (hi.caches.excluded c hc hexcluded) (fun hfile hline => ?_) bp
    simp [hallow c hc hfile hline] at hexcluded
  · have ht := hi.threads t
    exact ⟨ht.stack.retrace ht.ids _, ht.ids, ht.below, ht.stop, ht.waiting⟩

theorem parents_here (f : Frame) (stack : List Frame) : parents (f :: stack) f = stack := by
  simp [parents]

theorem parents_back (hne : g.id ≠ f.id) : parents (g :: f :: stack) f = stack := by
  simp [parents, hne]

variable {force : Bool} {cmd : StepCmd}

theorem returnFrom_suffix (S : Settings) (force : Bool) (f : Frame) (stack : List Frame) :
    (S.returnFrom force f stack).1 :: (S.returnFrom force f stack).2 <:+ f :: stack := by
  induction stack generalizing f with
  | nil => exact List.suffix_refl _
  | cons b stack ih =>
    unfold Settings.returnFrom
    split
    · exact (ih b).trans (List.suffix_cons f _)
    · exact List.suffix_refl _

theorem retrace_of_not_mem {frames : List Frame} (h : ∀ g ∈ frames, g.id ≠ f.id) (fTrace : Nat → TraceFn) :
    S.retrace frames fTrace f.id = fTrace f.id := by
  rcases retrace_cases S frames fTrace f.id with hsame | ⟨-, g, hg, hid, -⟩
  · exact hsame
  · exact absurd hid (h g hg)

theorem StackOk.returnFrom (h : StackOk S bps {} fTrace (f :: stack))
    (hids : ((f :: stack).map Frame.id).Nodup) (hkind : cmd.kind = .stepReturn)
    (hback : (S.returnFrom force f stack).2 ≠ []) :
    StackOk S bps
      { stepCmd := some cmd, originalStepCmd := some cmd, stepStop := some (S.returnFrom force f stack).1.id }
      (S.retrace ((S.returnFrom force f stack).1 :: (S.returnFrom force f stack).2) fTrace) (f :: stack) := by
  obtain ⟨kind, myCode⟩ := cmd
  cases hkind
  induction stack generalizing f with
  | nil => exact absurd rfl hback
  | cons b stack ih =>
    obtain ⟨hnotin, hids'⟩ := List.nodup_cons.mp hids
    have hne : ∀ g ∈ b :: stack, g.id ≠ f.id := fun g hg heq =>
      hnotin (heq ▸ List.mem_map_of_mem hg)
    unfold Settings.returnFrom at hback ⊢
    split
    · next hexcluded =>
      rw [if_pos hexcluded] at hback
      have hsuffix := returnFrom_suffix S force b stack
      have hstop := hne _ (hsuffix.subset List.mem_cons_self)
      have hsame := retrace_of_not_mem (S := S) (fun g hg => hne g (hsuffix.subset hg)) fTrace
      refine ⟨⟨h.1.code, hsame ▸ h.1.untraced, fun htype hnot => ⟨?_, (h.1.quiet htype (hsame ▸ hnot)).2⟩,
        fun _ htarget => ?_, fun _ hstop' => ?_⟩, ih h.2 hids' hback⟩
      · exact fun heq => hstop (Option.some.inj heq)
      · exact absurd (Option.some.inj htarget.1) hstop
      · exact absurd (Option.some.inj hstop') hstop
    · next hshown =>
      have hshows : S.shows b force = true := by
        unfold Settings.shows
        rwa [← Bool.not_and, Bool.not_eq_true', ← Bool.not_eq_true]
      have hb := Settings.not_excluded_of_shows hshows
      refine (h.retrace hids bps).live (fun g hg htype => live_retrace hg htype _) ?_
      intro above g parents heq hstop
      have hid : f.id = g.id := Option.some.inj hstop
      cases above with
      | nil =>
        obtain ⟨rfl, rfl⟩ := List.cons.inj heq
        exact ⟨b, rfl, hb⟩
      | cons a above =>
        obtain ⟨rfl, hrest⟩ := List.cons.inj heq
        have hg : g ∈ b :: stack := hrest ▸ List.mem_append_right above List.mem_cons_self
        exact absurd hid.symm (hne g hg)

theorem resumed_stop {cmd : Option StepCmd} {id : Nat}
    (h : (S.resumed cmd f stack).1.stepStop = some id) : ∃ g ∈ f :: stack, g.id = id := by
  unfold Settings.resumed at h
  cases cmd with
  | none => cases h
  | some cmd =>
    dsimp only at h
    split at h
    · cases h
    · cases h
      exact ⟨f, List.mem_cons_self, rfl⟩
    · split at h
      · cases h
      · cases h
        exact ⟨_, (returnFrom_suffix S cmd.myCode f stack).subset List.mem_cons_self, rfl⟩

theorem StackOk.resumed (h : StackOk S bps {} fTrace (f :: stack))
    (hids : ((f :: stack).map Frame.id).Nodup) (hshown : S.excluded f.code = false) (cmd : Option StepCmd) :
    StackOk S bps (S.resumed cmd f stack).1 (S.retrace (S.resumed cmd f stack).2 fTrace) (f :: stack) := by
  have hnone : S.retrace [] fTrace = fTrace := funext fun id => by simp [Settings.retrace]
  have hall : StackOk S bps {} (S.retrace (f :: stack) fTrace) (f :: stack) := h.retrace hids bps
  have hlive : ∀ g ∈ f :: stack, S.fileType g.code = none → (S.retrace (f :: stack) fTrace g.id).Live :=
    fun g hg htype => live_retrace hg htype _
  unfold Settings.resumed
  cases cmd with
  | none =>
    rw [hnone]
    exact h
  | some cmd =>
    obtain ⟨kind, force⟩ := cmd
    cases kind with
    | stepInto =>
      refine hall.live hlive fun _ _ _ _ => admitted_stepInto fun cmd hcmd => ?_
      cases hcmd
      rfl
    | stepOver =>
      refine hall.live hlive fun above g parents heq hstop => ?_
      have hg : g ∈ f :: stack := heq ▸ List.mem_append_right above List.mem_cons_self
      rwa [← List.inj_on_of_nodup_map hids List.mem_cons_self hg (Option.some.inj hstop)]
    | stepReturn =>
      dsimp only
      split
      · rw [hnone]
        exact h
      · next hback => exact h.returnFrom hids rfl hback

theorem StackOk.update (h : StackOk S bps info fTrace (f :: stack)) (hids : ((f :: stack).map Frame.id).Nodup)
    (htype : S.fileType f.code = none) :
    StackOk S bps info (Function.update fTrace f.id .frame) (f :: stack) := by
  have hself : (Function.update fTrace f.id .frame f.id).Live := .inl (Function.update_self _ _ _)
  have hother : ∀ g ∈ stack, Function.update fTrace f.id .frame g.id = fTrace g.id := fun g hg =>
    Function.update_of_ne (ne_of_mem hids hg) _ _
  refine ⟨⟨h.1.code, fun hne => absurd htype hne, fun _ hnot => absurd hself hnot,
    fun _ htarget => ⟨hself, ?_⟩, h.1.admitted⟩, h.2.congr hother⟩
  intro g hg hgtype
  exact hother g hg ▸ (h.1.target htype htarget).2 g hg hgtype

theorem ThreadOk.resumed {nextId : Nat} {shown : Frame} (h : ThreadOk S bps nextId fTrace thread)
    (hphase : thread.phase = .waiting e shown) (cmd : Option StepCmd) {info : Info} {frames : List Frame}
    (hresumed : S.resumed cmd shown (parents thread.stack shown) = (info, frames)) :
    ∃ top rest, thread.stack = top :: rest ∧
      ThreadOk S bps nextId (Function.update (S.retrace frames fTrace) top.id .frame)
        { thread with info, phase := .running, stack := if e = .ret then rest else top :: rest } := by
  have hactive : thread.active = {} := by rw [Thread.active, hphase]
  have hwaits := h.waiting e shown hphase
  obtain ⟨hstack, hids, hbelow, -, -⟩ := h
  rw [hactive] at hstack
  generalize thread.stack = stack at hstack hids hbelow hresumed hwaits
  have hlt {stack : List Frame} (hbelow : ∀ g ∈ shown :: stack, g.id < nextId)
      (heq : S.resumed cmd shown stack = (info, frames)) : ∀ id, info.stepStop = some id → id < nextId := by
    intro id hid
    have hstop : (S.resumed cmd shown stack).1.stepStop = some id := by rw [heq, hid]
    obtain ⟨g, hg, rfl⟩ := resumed_stop hstop
    exact hbelow g hg
  cases hwaits with
  | @here _ _ parents he htype hshown =>
    rw [parents_here] at hresumed
    have hok := hstack.resumed hids hshown cmd
    rw [hresumed] at hok
    refine ⟨shown, parents, rfl, ?_⟩
    rw [if_neg he]
    exact .of_running rfl (hok.update hids htype) hids hbelow (hlt hbelow hresumed)
  | @back left _ parents htype hshown =>
    obtain ⟨hnotin, hids'⟩ := List.nodup_cons.mp hids
    have hne : ∀ g ∈ shown :: parents, g.id ≠ left.id := fun g hg => ne_of_mem hids hg
    rw [parents_back (hne shown List.mem_cons_self).symm] at hresumed
    have hok := hstack.2.resumed hids' hshown cmd
    rw [hresumed] at hok
    have hbelow' := (List.forall_mem_cons.mp hbelow).2
    refine ⟨left, shown :: parents, rfl, ?_⟩
    rw [if_pos rfl]
    exact .of_running rfl (hok.congr fun g hg => Function.update_of_ne (hne g hg) _ _) hids' hbelow'
      (hlt hbelow' hresumed)

theorem resume_inv {cmd : Option StepCmd} (hi : Inv S s) (h : s.step S (.resume t cmd) = some s') :
    s.world.step S (.resume t cmd) = some s'.world ∧ Inv S s' := by
  unfold State.step at h
  unfold World.step
  dsimp only at h ⊢
  split at h
  · cases h
  next e shown hphase =>
  generalize hresumed : S.resumed cmd shown (parents (s.world.threads t).stack shown) = r at h
  obtain ⟨info, frames⟩ := r
  obtain ⟨top, rest, hstack, hok⟩ := (hi.threads t).resumed hphase cmd hresumed
  rw [hstack] at h
  cases h
  refine ⟨by rw [hstack]; rfl, hi.caches.of_same (by simp [State.setTrace]) rfl rfl rfl, fun t' => ?_⟩
  simp only [List.head?_cons, Option.elim_some, State.setTrace, finish_breakpoints, finish_nextId,
    setThread_breakpoints, setThread_nextId]
  by_cases heq : t' = t
  · subst heq
    rw [finish_thread (by rw [setThread_threads]), setThread_threads, Function.update_self, Function.update_self]
    exact hok
  · rw [finish_others _ _ heq, setThread_others _ _ heq, Function.update_of_ne heq, Function.update_of_ne heq]
    exact hi.threads t'


-- ---------------------------------------------------------------------------
-- Runs
-- ---------------------------------------------------------------------------

theorem step_inv {l : Label} (hS : S.Proper) (hi : Inv S s) (hallow : S.Allows l) (h : s.step S l = some s') :
    s.world.step S l = some s'.world ∧ Inv S s' := by
  cases l with
  | event t e condition => exact event_inv hS hi h
  | resume t cmd => exact resume_inv hi h
  | addBreakpoint file line bp => exact add_inv hi hallow h
  | removeBreakpoints file => exact remove_inv hi h

theorem step_world {l : Label} (hS : S.Proper) (hi : Inv S s) (hallow : S.Allows l) :
    (s.step S l).map State.world = s.world.step S l := by
  cases h : s.step S l with
  | some s' => exact (step_inv hS hi hallow h).1.symm
  | none =>
    cases l with
    | event t e condition =>
      have hstart := Option.map_eq_none_iff.mp h
      simp [World.step, hstart]
    | resume t cmd =>
      unfold State.step at h
      dsimp only at h
      split at h
      · next hrunning => simp [World.step, hrunning]
      · cases h
    | _ => cases h

variable {ls : List Label}

theorem inv_of_run (hS : S.Proper) (hls : ∀ l ∈ ls, S.Allows l) (hi : Inv S s)
    (h : Run.exec (State.step S) s ls = some s') : Inv S s' := by
  have hok : Run.Meets (State.step S) (fun _ l => S.Allows l) s ls :=
    Run.meets_of_forall fun l hl _ => hls l hl
  exact Run.exec_invariant (fun hi hallow hs => (step_inv hS hi hallow hs).2) hi hok h

/-- Whatever is not traced and whatever is cached, the threads do what they
would do if every event was looked at. -/
theorem world_of_run (hS : S.Proper) (hls : ∀ l ∈ ls, S.Allows l) :
    (Run.exec (State.step S) {} ls).map State.world = Run.exec (World.step S) {} ls := by
  have hok : Run.Meets (State.step S) (fun _ l => S.Allows l) {} ls :=
    Run.meets_of_forall fun l hl _ => hls l hl
  exact Run.exec_map (fun hi hallow hs => (step_inv hS hi hallow hs).2) (step_world hS) (inv_initial S) hok

def script : Code := { key := 0, file := "main.py", firstLine := 1, lines := [1, 2, 3] }

def helper : Code := { key := 1, file := "main.py", firstLine := 10, lines := [10, 11] }

def library : Code := { key := 2, file := "lib.py", firstLine := 1, lines := [1] }

/-- Only `main.py` is to be debugged. -/
def sample : Settings where
  codes := [script, helper, library]
  inProject c := c.file == "main.py"
  librariesFilter := true

theorem sample_proper : sample.Proper := ⟨by decide, by decide⟩

/-- There is a breakpoint at the second line, which calls a function. -/
def opening : List Label :=
  [.addBreakpoint "main.py" 2 {}, .event 0 (.call script) false, .event 0 (.line 1) false]

/-- That calls one of the library. -/
def calls : List Label :=
  [.event 0 (.call helper) false, .event 0 (.line 10) false, .event 0 (.call library) false,
   .event 0 (.line 1) false, .event 0 .ret false, .event 0 (.line 11) false]

/-- The thread is resumed with a step over. -/
def session : List Label :=
  opening ++ .event 0 (.line 2) false :: .resume 0 (some ⟨.stepOver, false⟩) ::
    (calls ++ [.event 0 .ret false, .event 0 (.line 3) false])

theorem world_of_run_session :
    (Run.exec (State.step sample) {} session).map State.world = Run.exec (World.step sample) {} session ∧
    (Run.exec (World.step sample) {} session).map (fun w => (w.threads 0).stops) =
      some [⟨0, 2, .setBreak⟩, ⟨0, 3, .step ⟨.stepOver, false⟩⟩] :=
  ⟨world_of_run sample_proper (by decide), by decide +kernel⟩

theorem step_thread {l : Label} (hS : S.Proper) (hi : Inv S s) (hallow : S.Allows l) (h : s.step S l = some s')
    (hnot : ∀ cmd, l ≠ .resume t cmd) :
    s.world.nextId ≤ s'.world.nextId ∧ (s'.world.threads t = s.world.threads t ∨
      ∃ e condition world f stack s₁, l = .event t e condition ∧ Traced S s t e condition world f stack s₁ ∧
        s'.world.threads t = ((world.trace S t e condition).finish t e).threads t) := by
  cases l with
  | event t' e condition =>
    obtain ⟨world, hstart, rfl⟩ := Option.map_eq_some_iff.mp h
    obtain ⟨f, stack, htraced⟩ := event_traced hS hi hstart condition
    obtain ⟨-, hnextId⟩ := trace_breakpoints (S := S) world t' e condition
    have hworld := htraced.reported.world
    refine ⟨?_, ?_⟩
    · dsimp only
      rw [hworld, finish_nextId, hnextId]
      exact htraced.started.nextId
    · dsimp only
      rw [hworld]
      by_cases ht : t = t'
      · subst ht
        exact .inr ⟨e, condition, world, f, stack, _, rfl, htraced, rfl⟩
      · rw [finish_others _ _ ht, trace_others _ _ _ ht, htraced.started.others t ht]
        exact .inl rfl
  | resume t' cmd =>
    have hworld := (resume_inv hi h).1
    have ht : t ≠ t' := fun heq => hnot cmd (heq ▸ rfl)
    unfold World.step at hworld
    dsimp only at hworld
    split at hworld
    · cases hworld
    · rw [← Option.some.inj hworld, finish_nextId, finish_others _ _ ht, setThread_others _ _ ht]
      exact ⟨Nat.le_refl _, .inl rfl⟩
  | addBreakpoint file line bp =>
    cases h
    exact ⟨Nat.le_refl _, .inl rfl⟩
  | removeBreakpoints file =>
    cases h
    exact ⟨Nat.le_refl _, .inl rfl⟩

/-- Where a step ends while the frame that it is to stay in is on the stack. -/
def EndsIn (kind : StepKind) (id : Nat) : List Frame → Nat → Prop
  | [], _ => False
  | f :: parents, shown => f.id = id ∧ match kind with
    | .stepInto => False
    | .stepOver => shown = id
    | .stepReturn => ∃ b ∈ parents.head?, shown = b.id

/-- The thread is stepped and has not stopped, or has stopped once, at a
breakpoint or where the step ends. -/
def Stepped (cmd : StepCmd) (id : Nat) (stops : List Stop) (thread : Thread) : Prop :=
  thread.phase = .running ∧ thread.stops = stops ∧
      thread.info = { stepCmd := some cmd, originalStepCmd := some cmd, stepStop := some id } ∨
    thread.phase ≠ .running ∧ ∃ stop, thread.stops = stops ++ [stop] ∧
      (stop.reason = .setBreak ∨ stop.reason = .step cmd ∧ EndsIn cmd.kind id thread.stack stop.frame)

/-- As long as it is in the frame. -/
def Within (cmd : StepCmd) (id : Nat) (stops : List Stop) (w : World) (t : Nat) : Prop :=
  id < w.nextId ∧ (id ∈ (w.threads t).stack.map Frame.id → Stepped cmd id stops (w.threads t))

theorem endsIn_of_stepStops {cmd : StepCmd} {id : Nat} (hkind : cmd.kind ≠ .stepInto) {shown : Frame}
    (h : S.stepStops { stepCmd := some cmd, originalStepCmd := some cmd, stepStop := some id } f stack.head? e = true)
    (hshown : e ≠ .ret ∧ shown = f ∨ e = .ret ∧ stack.head? = some shown) :
    EndsIn cmd.kind id (f :: stack) shown.id := by
  obtain ⟨kind, force⟩ := cmd
  cases kind with
  | stepInto => exact absurd rfl hkind
  | stepOver =>
    cases e with
    | line line =>
      have hid : f.id = id := (Option.some.inj (beq_iff_eq.mp h)).symm
      rcases hshown with ⟨-, rfl⟩ | ⟨he, -⟩
      · exact ⟨hid, hid⟩
      · cases he
    | _ => cases h
  | stepReturn =>
    cases e with
    | ret =>
      have hid := (Option.some.inj (beq_iff_eq.mp (Bool.and_eq_true_iff.mp h).1)).symm
      rcases hshown with ⟨hne, -⟩ | ⟨-, hback⟩
      · exact absurd rfl hne
      · exact ⟨hid, shown, hback, rfl⟩
    | _ => cases h

theorem Within.event {cmd : StepCmd} {id : Nat} {stops : List Stop} {world : World} {s₁ : State}
    (hkind : cmd.kind ≠ .stepInto) (h : Within cmd id stops s.world t)
    (htraced : Traced S s t e condition world f stack s₁)
    (hthread : s'.world.threads t = ((world.trace S t e condition).finish t e).threads t)
    (hin : id ∈ (s'.world.threads t).stack.map Frame.id) : Stepped cmd id stops (s'.world.threads t) := by
  obtain ⟨hst, -, hlook, -, hlooked⟩ := htraced
  generalize hnext : world.trace S t e condition = next at hthread hlooked
  have hphase : (world.threads t).phase = .running := by rw [hst.thread]; exact hst.running
  have hstack : (world.threads t).stack = f :: stack := by rw [hst.thread]
  -- the thread before it is looked at
  have hbefore (hid : id ∈ (f :: stack).map Frame.id) : (world.threads t).stops = stops ∧
      (world.threads t).info = { stepCmd := some cmd, originalStepCmd := some cmd, stepStop := some id } := by
    obtain ⟨g, hg, rfl⟩ := List.mem_map.mp hid
    rw [hst.thread]
    rcases h.2 (hst.old g hg h.1) with ⟨-, hsame⟩ | ⟨hwaits, -⟩
    · exact hsame
    · exact absurd hst.running hwaits
  generalize hnext' : next.threads t = thread at hlooked
  cases hlooked with
  | goesOn =>
    have hrunning : (next.threads t).phase = .running := by rw [hnext', hphase]
    rw [finish_thread hrunning, hnext', hstack] at hthread
    rw [hthread] at hin ⊢
    have hid : id ∈ (f :: stack).map Frame.id := by
      dsimp only at hin
      split at hin
      · exact List.mem_cons_of_mem _ hin
      · exact hin
    exact .inl ⟨hphase, hbefore hid⟩
  | leaves info he _ _ htarget =>
    subst he
    have hrunning : (next.threads t).phase = .running := by rw [hnext']; exact hphase
    rw [finish_ret hrunning, hnext'] at hthread
    rw [hthread, hstack] at hin
    have hinfo := (hbefore (List.mem_cons_of_mem _ hin)).2
    have hid : f.id = id := by
      have hstop := (htarget cmd (by rw [hinfo]) hkind).1
      rw [hinfo] at hstop
      exact (Option.some.inj hstop).symm
    exact absurd (hid ▸ hin) (List.nodup_cons.mp hst.ids).1
  | waits info shown reason _ _ hshown hreason =>
    have hwaiting : (next.threads t).phase = .waiting e shown := by rw [hnext']
    rw [finish_waiting hwaiting, hnext'] at hthread
    rw [hthread] at hin ⊢
    rw [hstack] at hin
    obtain ⟨hstops, hinfo⟩ := hbefore hin
    refine .inr ⟨(fun hrunning => by cases hrunning), _, congrArg (· ++ _) hstops, ?_⟩
    refine hreason.imp (fun h => h) fun ⟨hends, horiginal⟩ => ⟨horiginal cmd (by rw [hinfo]), ?_⟩
    rw [hstack]
    exact endsIn_of_stepStops hkind (hinfo ▸ hends) hshown

theorem Within.keep {cmd : StepCmd} {id : Nat} {stops : List Stop} {l : Label} (hS : S.Proper) (hi : Inv S s)
    (hallow : S.Allows l) (hkind : cmd.kind ≠ .stepInto) (h : Within cmd id stops s.world t)
    (hstep : s.step S l = some s') (hnot : ∀ cmd, l ≠ .resume t cmd) : Within cmd id stops s'.world t := by
  obtain ⟨hnextId, hthread⟩ := step_thread hS hi hallow hstep hnot
  refine ⟨Nat.lt_of_lt_of_le h.1 hnextId, fun hin => ?_⟩
  rcases hthread with hsame | ⟨e, condition, world, f, stack, s₁, -, htraced, hthread⟩
  · rw [hsame] at hin ⊢
    exact h.2 hin
  · exact h.event hkind htraced hthread hin

theorem resume_thread {cmd : Option StepCmd} {shown : Frame} (hi : Inv S s)
    (hphase : (s.world.threads t).phase = .waiting e shown) (h : s.step S (.resume t cmd) = some s') :
    s'.world.nextId = s.world.nextId ∧ (s'.world.threads t).phase = .running ∧
      (s'.world.threads t).stops = (s.world.threads t).stops ∧
      (s'.world.threads t).info = (S.resumed cmd shown (parents (s.world.threads t).stack shown)).1 := by
  have hworld := (resume_inv hi h).1
  unfold World.step at hworld
  simp only [hphase] at hworld
  rw [← Option.some.inj hworld, finish_nextId, finish_thread (by rw [setThread_threads]), setThread_threads]
  exact ⟨rfl, rfl, rfl, rfl⟩

theorem within_of_run {cmd : StepCmd} (id : Nat) {s₁ s₂ : State} {shown : Frame} {ls ls' : List Label}
    (hS : S.Proper) (hls : ∀ l ∈ ls ++ ls', S.Allows l) (hrun : Run.exec (State.step S) {} ls = some s)
    (hphase : (s.world.threads t).phase = .waiting e shown)
    (hresume : s.step S (.resume t (some cmd)) = some s₁)
    (hthen : Run.exec (State.step S) s₁ ls' = some s₂) (hnot : ∀ l ∈ ls', ∀ cmd, l ≠ .resume t cmd)
    (hkind : cmd.kind ≠ .stepInto)
    (hinfo : (S.resumed (some cmd) shown (parents (s.world.threads t).stack shown)).1 =
      { stepCmd := some cmd, originalStepCmd := some cmd, stepStop := some id }) :
    Inv S s₂ ∧ Within cmd id (s.world.threads t).stops s₂.world t := by
  have hi := inv_of_run hS (fun l hl => hls l (List.mem_append_left _ hl)) (inv_initial S) hrun
  have hi₁ := (resume_inv hi hresume).2
  obtain ⟨hnextId, hrunning, hstops, hinfo₁⟩ := resume_thread hi hphase hresume
  have hbelow : id < s₁.world.nextId := (hi₁.threads t).stop id (by rw [hinfo₁, hinfo])
  have hok : Run.Meets (State.step S) (fun _ l => S.Allows l ∧ ∀ cmd, l ≠ .resume t cmd) s₁ ls' :=
    Run.meets_of_forall fun l hl _ => ⟨hls l (List.mem_append_right _ hl), hnot l hl⟩
  exact Run.exec_invariant (I := fun s' => Inv S s' ∧ Within cmd id (s.world.threads t).stops s'.world t)
    (fun hI hl hs => ⟨(step_inv hS hI.1 hl.1 hs).2, hI.2.keep hS hI.1 hl.1 hkind hs hl.2⟩)
    ⟨hi₁, hbelow, fun _ => .inl ⟨hrunning, hstops, hinfo₁.trans hinfo⟩⟩ hok hthen

theorem start_thread {world : World} (h : w.start S t e = some world)
    (hstack : (w.threads t).stack = f :: stack) (hcall : ∀ c, e ≠ .call c) :
    ∃ g : Frame, g.id = f.id ∧ g.code = f.code ∧ (∀ line, e = .line line → g.line = line) ∧
      world.threads t = { w.threads t with stack := g :: stack } ∧ world.breakpoints = w.breakpoints := by
  obtain ⟨-, ⟨code, rfl, -, -⟩ | ⟨-, g, parents, line, heq, hline, rfl⟩⟩ := start_cases h
  · exact absurd rfl (hcall code)
  · obtain ⟨rfl, rfl⟩ := List.cons.inj (hstack.symm.trans heq)
    exact ⟨{ f with line }, rfl, rfl, fun l he => (hline l he).2, setThread_threads _ _ _, rfl⟩

theorem event_thread (h : w.step S (.event t e condition) = some w') (hstack : (w.threads t).stack = f :: stack)
    (hcall : ∀ c, e ≠ .call c) :
    ∃ g : Frame, g.id = f.id ∧ g.code = f.code ∧ (∀ line, e = .line line → g.line = line) ∧
      ∀ next, next = (if S.fileType f.code = none then
          S.look w.breakpoints condition g stack.head? e { w.threads t with stack := g :: stack }
        else w.threads t) →
        (w'.threads t).phase = next.phase ∧ (w'.threads t).stops = next.stops := by
  obtain ⟨world, hstart, rfl⟩ := Option.map_eq_some_iff.mp h
  obtain ⟨g, hid, hcode, hline, hthread, hbps⟩ := start_thread hstart hstack hcall
  refine ⟨g, hid, hcode, hline, fun next hnext => ?_⟩
  have hfinish (w : World) : ((w.finish t e).threads t).phase = (w.threads t).phase ∧
      ((w.finish t e).threads t).stops = (w.threads t).stops := by
    cases hphase : (w.threads t).phase with
    | running => simp [finish_thread hphase, hphase]
    | waiting e' shown => simp [finish_waiting hphase, hphase]
  unfold World.trace
  simp only [hcode, hfinish, hthread, hbps, hnext]
  split
  · rw [setThread_threads]
    exact ⟨rfl, rfl⟩
  · rw [hthread]
    exact ⟨rfl, rfl⟩

theorem look_of_stepStops (h : S.stepStops thread.info f back e = true)
    (hback : e = .ret → ∃ b, back = some b ∧ S.isDebugStart b.code = false ∧
      S.isTraceProperty b.code = false) :
    (S.look bps condition f back e thread).phase ≠ .running := by
  have hsuspend (thread : Thread) (shown : Frame) (reason : Reason) :
      (thread.suspend shown e reason).phase ≠ .running := fun hrunning => by cases hrunning
  unfold Settings.look
  dsimp only
  rw [if_pos h]
  split
  · exact hsuspend _ _ _
  cases e with
  | ret =>
    obtain ⟨b, rfl, hdebug, htrace⟩ := hback rfl
    dsimp only
    rw [hdebug, htrace, if_neg (by simp), if_neg (by simp)]
    exact hsuspend _ _ _
  | _ => exact hsuspend _ _ _

theorem look_setBreak (bps : Breakpoints) (condition : Bool) (f : Frame) (back : Option Frame) (e : Event)
    (thread : Thread) : (S.look bps condition f back e thread).stops =
        thread.stops ++ [{ frame := f.id, line := f.line, reason := .setBreak }] ↔
      (breakpointAt bps f.code e).any (·.stops condition) = true := by
  unfold Settings.look
  dsimp only
  split
  · next hany => exact ⟨fun _ => hany, fun _ => rfl⟩
  · next hnot =>
    refine ⟨fun hstops => ?_, fun hany => absurd hany hnot⟩
    split at hstops
    · split at hstops
      · simp at hstops
      · split at hstops
        · simp at hstops
        split at hstops
        · simp at hstops
        · simp [Thread.suspend] at hstops
      · simp [Thread.suspend] at hstops
    · simp at hstops

/-- A thread stops for a breakpoint if and only if it is at a line of a traced
file that has one. -/
theorem setBreak_iff {line : Int} (hS : S.Proper) (hls : ∀ l ∈ ls, S.Allows l)
    (hrun : Run.exec (State.step S) {} ls = some s) (h : s.step S (.event t (.line line) condition) = some s')
    (hstack : (s.world.threads t).stack = f :: stack) :
    (s'.world.threads t).stops =
        (s.world.threads t).stops ++ [{ frame := f.id, line, reason := .setBreak }] ↔
      S.fileType f.code = none ∧
        (breakpointAt s.world.breakpoints f.code (.line line)).any (·.stops condition) = true := by
  have hi := inv_of_run hS hls (inv_initial S) hrun
  have hworld := (event_inv hS hi h).1
  obtain ⟨g, hid, hcode, hline, hnext⟩ := event_thread hworld hstack fun c he => by cases he
  have hlook := look_setBreak (S := S) s.world.breakpoints condition g stack.head? (.line line)
    { s.world.threads t with stack := g :: stack }
  rw [hid, hline line rfl, hcode] at hlook
  rw [(hnext _ rfl).2]
  split
  · next htype => exact hlook.trans ⟨fun hany => ⟨htype, hany⟩, And.right⟩
  · next htype =>
    refine ⟨fun hstops => ?_, fun hany => absurd hany.1 htype⟩
    simp at hstops

theorem setBreak_iff_opening : ∃ s s', Run.exec (State.step sample) {} opening = some s ∧
    s.step sample (.event 0 (.line 2) false) = some s' ∧
    (s'.world.threads 0).stops = (s.world.threads 0).stops ++ [⟨0, 2, .setBreak⟩] := by
  have hview : (Run.exec (State.step sample) {} opening).map (fun s =>
      ((s.world.threads 0).stack, (breakpointAt s.world.breakpoints script (.line 2)).any (·.stops false),
        (s.step sample (.event 0 (.line 2) false)).isSome)) = some ([⟨0, script, 1⟩], true, true) := by
    decide +kernel
  obtain ⟨s, hrun, hs⟩ := Option.map_eq_some_iff.mp hview
  obtain ⟨hstack, hrest⟩ := Prod.mk.inj hs
  obtain ⟨hbp, hsome⟩ := Prod.mk.inj hrest
  obtain ⟨s', hstep⟩ := Option.isSome_iff_exists.mp hsome
  exact ⟨s, s', hrun, hstep, (setBreak_iff sample_proper (by decide) hrun hstep hstack).mpr ⟨rfl, hbp⟩⟩

/-- A thread is shown only in frames that the files filter does not exclude. -/
theorem shown_not_excluded {shown : Frame} (hS : S.Proper) (hls : ∀ l ∈ ls, S.Allows l)
    (hrun : Run.exec (State.step S) {} ls = some s) (hphase : (s.world.threads t).phase = .waiting e shown) :
    S.excluded shown.code = false := by
  have hi := inv_of_run hS hls (inv_initial S) hrun
  have hwaits := (hi.threads t).waiting e shown hphase
  generalize (s.world.threads t).stack = stack at hwaits
  cases hwaits with
  | here _ _ hshown => exact hshown
  | back _ hshown => exact hshown

theorem shown_not_excluded_session : ∃ s e shown, Run.exec (State.step sample) {} session = some s ∧
    (s.world.threads 0).phase = .waiting e shown ∧ sample.excluded shown.code = false := by
  have hview : (Run.exec (State.step sample) {} session).map (fun s => (s.world.threads 0).phase) =
      some (.waiting (.line 3) ⟨0, script, 3⟩) := by
    decide +kernel
  obtain ⟨s, hrun, hphase⟩ := Option.map_eq_some_iff.mp hview
  exact ⟨s, _, _, hrun, hphase, shown_not_excluded sample_proper (by decide) hrun hphase⟩

variable {ls' : List Label} {s₁ s₂ : State} {shown : Frame} {myCode : Bool}

/-- As long as it is in the frame that it was shown in, a thread that steps
over stops at a breakpoint or at the next line of that frame. -/
theorem stepOver_stays (hS : S.Proper) (hls : ∀ l ∈ ls ++ ls', S.Allows l)
    (hrun : Run.exec (State.step S) {} ls = some s) (hphase : (s.world.threads t).phase = .waiting e shown)
    (hresume : s.step S (.resume t (some ⟨.stepOver, myCode⟩)) = some s₁)
    (hthen : Run.exec (State.step S) s₁ ls' = some s₂) (hnot : ∀ l ∈ ls', ∀ cmd, l ≠ .resume t cmd)
    (hstack : (s₂.world.threads t).stack = f :: stack) (hin : shown.id ∈ (f :: stack).map Frame.id) :
    (s₂.world.threads t).phase = .running ∧ (s₂.world.threads t).stops = (s.world.threads t).stops ∧
        (f.id = shown.id → S.fileType f.code = none → ∀ line condition s',
          s₂.step S (.event t (.line line) condition) = some s' → (s'.world.threads t).phase ≠ .running) ∨
      (s₂.world.threads t).phase ≠ .running ∧ ∃ stop,
        (s₂.world.threads t).stops = (s.world.threads t).stops ++ [stop] ∧
        (stop.reason = .setBreak ∨
          stop.reason = .step ⟨.stepOver, myCode⟩ ∧ f.id = shown.id ∧ stop.frame = shown.id) := by
  obtain ⟨hi, hwithin⟩ := within_of_run shown.id hS hls hrun hphase hresume hthen hnot
    (fun hkind => by cases hkind) rfl
  rcases hwithin.2 (by rwa [hstack]) with ⟨hrunning, hstops, hinfo⟩ | ⟨hwaits, stop, hstops, hreason⟩
  · refine .inl ⟨hrunning, hstops, fun hid htype line condition s' h => ?_⟩
    obtain ⟨g, hgid, -, -, hnext⟩ := event_thread (event_inv hS hi h).1 hstack fun c he => by cases he
    rw [(hnext _ rfl).1, if_pos htype]
    refine look_of_stepStops ?_ fun he => by cases he
    simp [Settings.stepStops, hinfo, hgid, hid]
  · rw [hstack] at hreason
    exact .inr ⟨hwaits, stop, hstops, hreason⟩

theorem stepOver_stays_calls : ∃ s s₁ s₂,
    Run.exec (State.step sample) {} (opening ++ [.event 0 (.line 2) false]) = some s ∧
    s.step sample (.resume 0 (some ⟨.stepOver, false⟩)) = some s₁ ∧
    Run.exec (State.step sample) s₁ calls = some s₂ ∧
    (s₂.world.threads 0).phase = .running ∧ (s₂.world.threads 0).stops = (s.world.threads 0).stops := by
  have hview : ((Run.exec (State.step sample) {} (opening ++ [.event 0 (.line 2) false])).bind fun s =>
      (s.step sample (.resume 0 (some ⟨.stepOver, false⟩))).bind fun s₁ =>
      (Run.exec (State.step sample) s₁ calls).map fun s₂ =>
        ((s.world.threads 0).phase, (s₂.world.threads 0).phase, (s₂.world.threads 0).stack)) =
      some (.waiting (.line 2) ⟨0, script, 2⟩, .running, [⟨1, helper, 11⟩, ⟨0, script, 2⟩]) := by
    decide +kernel
  obtain ⟨s, hrun, h⟩ := Option.bind_eq_some_iff.mp hview
  obtain ⟨s₁, hresume, h⟩ := Option.bind_eq_some_iff.mp h
  obtain ⟨s₂, hthen, h⟩ := Option.map_eq_some_iff.mp h
  obtain ⟨hphase, h⟩ := Prod.mk.inj h
  obtain ⟨hrunning, hstack⟩ := Prod.mk.inj h
  refine ⟨s, s₁, s₂, hrun, hresume, hthen, ?_⟩
  rcases stepOver_stays sample_proper (by decide) hrun hphase hresume hthen (by simp [calls]) hstack
      (by decide) with
    h | ⟨hwaits, -⟩
  · exact ⟨h.1, h.2.1⟩
  · exact absurd hrunning hwaits

/-- A step return is from a frame `g`, the frame shown or a parent of it. As
long as the thread is in that, it stops at a breakpoint or when `g` returns, in
the frame that `g` returns to. -/
theorem stepReturn_stays {parents' : List Frame} (hS : S.Proper) (hls : ∀ l ∈ ls ++ ls', S.Allows l)
    (hrun : Run.exec (State.step S) {} ls = some s) (hphase : (s.world.threads t).phase = .waiting e shown)
    (hreturn : S.returnFrom myCode shown (parents (s.world.threads t).stack shown) = (g, b :: parents'))
    (hresume : s.step S (.resume t (some ⟨.stepReturn, myCode⟩)) = some s₁)
    (hthen : Run.exec (State.step S) s₁ ls' = some s₂) (hnot : ∀ l ∈ ls', ∀ cmd, l ≠ .resume t cmd)
    (hstack : (s₂.world.threads t).stack = f :: stack) (hin : g.id ∈ (f :: stack).map Frame.id) :
    (s₂.world.threads t).phase = .running ∧ (s₂.world.threads t).stops = (s.world.threads t).stops ∧
        (f.id = g.id → S.fileType f.code = none → ∀ b ∈ stack.head?, S.fileType b.code ≠ some .pydev →
          S.isDebugStart b.code = false → S.isTraceProperty b.code = false → ∀ condition s',
          s₂.step S (.event t .ret condition) = some s' → (s'.world.threads t).phase ≠ .running) ∨
      (s₂.world.threads t).phase ≠ .running ∧ ∃ stop,
        (s₂.world.threads t).stops = (s.world.threads t).stops ++ [stop] ∧
        (stop.reason = .setBreak ∨
          stop.reason = .step ⟨.stepReturn, myCode⟩ ∧ f.id = g.id ∧ ∃ b ∈ stack.head?, stop.frame = b.id) := by
  have hinfo : (S.resumed (some ⟨.stepReturn, myCode⟩) shown (parents (s.world.threads t).stack shown)).1 =
      { stepCmd := some ⟨.stepReturn, myCode⟩, originalStepCmd := some ⟨.stepReturn, myCode⟩,
        stepStop := some g.id } := by
    simp [Settings.resumed, hreturn]
  obtain ⟨hi, hwithin⟩ := within_of_run g.id hS hls hrun hphase hresume hthen hnot
    (fun hkind => by cases hkind) hinfo
  rcases hwithin.2 (by rwa [hstack]) with ⟨hrunning, hstops, hinfo⟩ | ⟨hwaits, stop, hstops, hreason⟩
  · refine .inl ⟨hrunning, hstops, fun hid htype b hb hfile hdebug htrace condition s' h => ?_⟩
    obtain ⟨top, hgid, -, -, hnext⟩ := event_thread (event_inv hS hi h).1 hstack fun c he => by cases he
    rw [(hnext _ rfl).1, if_pos htype]
    refine look_of_stepStops ?_ fun _ => ⟨b, hb, hdebug, htrace⟩
    simp [Settings.stepStops, hinfo, hgid, hid, Option.mem_def.mp hb, hfile]
  · rw [hstack] at hreason
    exact .inr ⟨hwaits, stop, hstops, hreason⟩

/-- The breakpoint is in the function that the second line calls. -/
def inside : List Label :=
  [.addBreakpoint "main.py" 10 {}, .event 0 (.call script) false, .event 0 (.line 1) false,
   .event 0 (.line 2) false, .event 0 (.call helper) false, .event 0 (.line 10) false]

/-- The library calls back. -/
def callsBack : List Label :=
  [.event 0 (.call library) false, .event 0 (.line 1) false, .event 0 (.call helper) false,
   .event 0 (.line 11) false, .event 0 .ret false, .event 0 .ret false, .event 0 (.line 11) false]

theorem stepReturn_stays_callsBack : ∃ s s₁ s₂,
    Run.exec (State.step sample) {} inside = some s ∧
    s.step sample (.resume 0 (some ⟨.stepReturn, false⟩)) = some s₁ ∧
    Run.exec (State.step sample) s₁ callsBack = some s₂ ∧
    (s₂.world.threads 0).phase = .running ∧ (s₂.world.threads 0).stops = (s.world.threads 0).stops := by
  have hview : ((Run.exec (State.step sample) {} inside).bind fun s =>
      (s.step sample (.resume 0 (some ⟨.stepReturn, false⟩))).bind fun s₁ =>
      (Run.exec (State.step sample) s₁ callsBack).map fun s₂ =>
        ((s.world.threads 0).phase, (s.world.threads 0).stack,
          (s₂.world.threads 0).phase, (s₂.world.threads 0).stack)) =
      some (.waiting (.line 10) ⟨1, helper, 10⟩, [⟨1, helper, 10⟩, ⟨0, script, 2⟩],
        .running, [⟨1, helper, 11⟩, ⟨0, script, 2⟩]) := by
    decide +kernel
  obtain ⟨s, hrun, h⟩ := Option.bind_eq_some_iff.mp hview
  obtain ⟨s₁, hresume, h⟩ := Option.bind_eq_some_iff.mp h
  obtain ⟨s₂, hthen, h⟩ := Option.map_eq_some_iff.mp h
  obtain ⟨hphase, h⟩ := Prod.mk.inj h
  obtain ⟨hstack, h⟩ := Prod.mk.inj h
  obtain ⟨hrunning, hstack₂⟩ := Prod.mk.inj h
  have hreturn : sample.returnFrom false ⟨1, helper, 10⟩ (parents (s.world.threads 0).stack ⟨1, helper, 10⟩) =
      (⟨1, helper, 10⟩, [⟨0, script, 2⟩]) := by
    rw [hstack]
    decide
  refine ⟨s, s₁, s₂, hrun, hresume, hthen, ?_⟩
  rcases stepReturn_stays sample_proper (by decide) hrun hphase hreturn hresume hthen (by simp [callsBack])
      hstack₂ (by decide) with h | ⟨hwaits, -⟩
  · exact ⟨h.1, h.2.1⟩
  · exact absurd hrunning hwaits

end Debugpy.Pydevd.Tracing
