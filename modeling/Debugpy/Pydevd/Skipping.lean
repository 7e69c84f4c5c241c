import Debugpy.Pydevd.Tracing
import Mathlib.Data.List.Nodup

/-!
# What the trace functions skip

`ThreadTracer` and the first half of `trace_dispatch` give up a frame, or pass
over a line, only if there is no breakpoint and the step of the thread may not
end there. The caches hold nothing else. So a trace function does with the
thread what a look at every event does, as long as no other thread suspends it.
-/

namespace Debugpy.Pydevd.Tracing

variable {S : Settings} {s s' : State} {w w' : World} {bps : Breakpoints} {info step : Info}
variable {thread : Thread} {f g b : Frame} {back : Option Frame} {stack : List Frame} {e : Event}
variable {t : Nat} {condition : Bool} {c c' : Code}

-- ---------------------------------------------------------------------------
-- Filters
-- ---------------------------------------------------------------------------

/-- The files filter leaves it out of stepping. -/
def Settings.excluded (S : Settings) (c : Code) : Bool :=
  S.isFilesFilterEnabled && S.applyFilesFilter c false

/-- No two code objects are equal, and the library files that are never traced
are out of the project and excluded. -/
structure Settings.Proper (S : Settings) : Prop where
  distinct : (S.codes.map Code.key).Nodup
  library : ∀ c ∈ S.codes, S.fileType c = some .lib →
    S.inProject c = false ∧ (S.isFilesFilterEnabled = true → S.excluded c = true)

/-- Breakpoints are not set in excluded files. -/
def Settings.Allows (S : Settings) : Label → Prop
  | .addBreakpoint file line _ =>
    ∀ c ∈ S.codes, c.file = file → line ∈ c.lines → S.excluded c = false
  | _ => True

instance (l : Label) : Decidable (S.Allows l) :=
  match l with
  | .addBreakpoint file line _ => inferInstanceAs
    (Decidable (∀ c ∈ S.codes, c.file = file → line ∈ c.lines → S.excluded c = false))
  | .event _ _ _ => isTrue trivial
  | .resume _ _ => isTrue trivial
  | .removeBreakpoints _ => isTrue trivial

theorem Settings.applyFilesFilter_force (h : S.applyFilesFilter c false = true) (force : Bool) :
    S.applyFilesFilter c force = true := by
  unfold Settings.applyFilesFilter at h ⊢
  generalize (if S.excludeFilters = true then S.excludeByFilter c else none) = rule at h ⊢
  cases rule with
  | some excluded => exact h
  | none =>
    simp only [Option.getD_none, Bool.or_false, Bool.and_eq_true] at h ⊢
    exact ⟨by simp [h.1], h.2⟩

theorem Settings.shows_of_excluded (h : S.excluded f.code = true) (force : Bool) :
    S.shows f force = false := by
  obtain ⟨henabled, hfilter⟩ := Bool.and_eq_true_iff.mp h
  simp [Settings.shows, henabled, Settings.applyFilesFilter_force hfilter]

theorem Settings.not_excluded_of_shows {force : Bool} (h : S.shows f force = true) :
    S.excluded f.code = false := by
  cases hexcluded : S.excluded f.code with
  | false => rfl
  | true => simp [Settings.shows_of_excluded hexcluded] at h

theorem Settings.Proper.excluded (hS : S.Proper) (hc : c ∈ S.codes)
    (htype : S.fileType c ≠ none) (henabled : S.isFilesFilterEnabled = true) : S.excluded c = true := by
  cases hfile : S.fileType c with
  | none => exact absurd hfile htype
  | some type =>
    cases type with
    | lib => exact (hS.library c hc hfile).2 henabled
    | pydev =>
      have hfilter : S.applyFilesFilter c false = true := by
        unfold Settings.applyFilesFilter Settings.excludeByFilter Settings.inProjectScope
        cases hrules : S.excludeFilters with
        | true => simp [hfile]
        | false =>
          have hlibraries : S.librariesFilter = true := by
            simpa [Settings.isFilesFilterEnabled, hrules] using henabled
          simp [hfile, hlibraries]
      simp [Settings.excluded, henabled, hfilter]

theorem Settings.Proper.code_unique (hS : S.Proper) (hc : c ∈ S.codes) (hc' : c' ∈ S.codes)
    (hkey : c.key = c'.key) : c = c' :=
  List.inj_on_of_nodup_map hS.distinct hc hc' hkey

-- ---------------------------------------------------------------------------
-- Nothing to stop for
-- ---------------------------------------------------------------------------

/-- The step of the thread ends neither in the frame nor with its return. -/
def Quiet (S : Settings) (info : Info) (f : Frame) (back : Option Frame) : Prop :=
  match info.stepCmd with
  | none => True
  | some ⟨.stepInto, force⟩ => S.shows f force = false ∧ ∀ b ∈ back, S.shows b force = false
  | some _ => info.stepStop ≠ some f.id

theorem Quiet.onReturn (h : Quiet S info f back) (e : Event) : info.onReturn f e = info := by
  obtain ⟨suspended, cmd, stepStop, original, location⟩ := info
  cases e with
  | ret =>
    cases cmd with
    | none => rfl
    | some cmd =>
      obtain ⟨kind, force⟩ := cmd
      cases kind with
      | stepInto => simp [Info.onReturn]
      | stepOver => exact if_neg fun hstop => h hstop.1
      | stepReturn => exact if_neg fun hstop => h hstop.1
  | _ => rfl

theorem Quiet.stepStops (h : Quiet S info f back) (e : Event) :
    S.stepStops info f back e = false := by
  obtain ⟨suspended, cmd, stepStop, original, location⟩ := info
  cases cmd with
  | none => rfl
  | some cmd =>
    obtain ⟨kind, force⟩ := cmd
    cases kind with
    | stepInto =>
      cases e with
      | line line => exact h.1
      | ret =>
        cases back with
        | none => rfl
        | some b => simp [Settings.stepStops, h.2 b rfl]
      | _ => rfl
    | stepOver =>
      cases e with
      | line line => exact beq_false_of_ne h
      | _ => rfl
    | stepReturn =>
      cases e with
      | ret => simp [Settings.stepStops, beq_false_of_ne h]
      | _ => rfl

theorem look_of_quiet (h : Quiet S thread.info f back) (hbp : breakpointAt bps f.code e = none) :
    S.look bps condition f back e thread = thread := by
  simp [Settings.look, hbp, h.stepStops, h.onReturn]

theorem look_of_silent (h : (∃ c, e = .call c) ∨ e = .exception) :
    S.look bps condition f back e thread = thread := by
  obtain ⟨c, rfl⟩ | rfl := h
  all_goals
    cases hcmd : thread.info.stepCmd <;>
      simp [Settings.look, breakpointAt, Settings.stepStops, Info.onReturn, hcmd]

theorem breakpointAt_of_hasBreakpoint (h : hasBreakpoint bps c = false)
    (hline : ∀ line, e = .line line → line ∈ c.lines) : breakpointAt bps c e = none := by
  cases e with
  | line line =>
    cases hfile : bps.get? c.file with
    | none => simp [breakpointAt, hfile]
    | some lines =>
      cases hbp : lines.get? line with
      | none => simp [breakpointAt, hfile, hbp]
      | some bp =>
        have hkey : line ∈ lines.keys := Dict.mem_keys.mpr ⟨bp, hbp⟩
        simp only [hasBreakpoint, hfile, Option.any_some, List.any_eq_false] at h
        exact absurd (hline line rfl) (by simpa using h line hkey)
  | _ => rfl

-- ---------------------------------------------------------------------------
-- The caches
-- ---------------------------------------------------------------------------

/-- What is cached is so, and no excluded function has a breakpoint. -/
structure Caches (S : Settings) (s : State) : Prop where
  excluded : ∀ c ∈ S.codes, S.excluded c = true → hasBreakpoint s.world.breakpoints c = false
  filtered : ∀ c ∈ S.codes, s.skips.get? c.key = some .filtered →
    S.fileType c ≠ none ∨ S.excluded c = true
  noBreakpoint : ∀ c ∈ S.codes, s.skips.get? c.key = some .noBreakpoint →
    hasBreakpoint s.world.breakpoints c = false
  frames : ∀ c ∈ S.codes, s.frameSkips.get? c.key = some false →
    hasBreakpoint s.world.breakpoints c = false
  lines : ∀ c ∈ S.codes, ∀ line, (c.key, line) ∈ s.lineSkips →
    breakpointAt s.world.breakpoints c (.line line) = none

theorem Caches.of_same (h : Caches S s) (hbps : s'.world.breakpoints = s.world.breakpoints)
    (hskips : s'.skips = s.skips) (hframes : s'.frameSkips = s.frameSkips)
    (hlines : s'.lineSkips = s.lineSkips) : Caches S s' where
  excluded := hbps ▸ h.excluded
  filtered := hskips ▸ h.filtered
  noBreakpoint := by rw [hskips, hbps]; exact h.noBreakpoint
  frames := by rw [hframes, hbps]; exact h.frames
  lines := by rw [hlines, hbps]; exact h.lines

theorem Caches.setSkip (hS : S.Proper) (h : Caches S s) (hc : c ∈ S.codes) (skip : Skip)
    (hskip : match skip with
      | .filtered => S.fileType c ≠ none ∨ S.excluded c = true
      | .noBreakpoint => hasBreakpoint s.world.breakpoints c = false) :
    Caches S { s with skips := s.skips.set c.key skip } where
  excluded := h.excluded
  filtered c' hc' hget := by
    rw [Dict.get?_set] at hget
    split at hget
    · next hkey =>
      cases hget
      exact hS.code_unique hc' hc hkey ▸ hskip
    · exact h.filtered c' hc' hget
  noBreakpoint c' hc' hget := by
    rw [Dict.get?_set] at hget
    split at hget
    · next hkey =>
      cases hget
      exact hS.code_unique hc' hc hkey ▸ hskip
    · exact h.noBreakpoint c' hc' hget
  frames := h.frames
  lines := h.lines

theorem Caches.setFrame (hS : S.Proper) (h : Caches S s) (hc : c ∈ S.codes) {has : Bool}
    (hhas : has = hasBreakpoint s.world.breakpoints c) :
    Caches S { s with frameSkips := s.frameSkips.set c.key has } where
  excluded := h.excluded
  filtered := h.filtered
  noBreakpoint := h.noBreakpoint
  frames c' hc' hget := by
    rw [Dict.get?_set] at hget
    split at hget
    · next hkey =>
      cases hget
      exact hS.code_unique hc' hc hkey ▸ hhas.symm
    · exact h.frames c' hc' hget
  lines := h.lines

theorem Caches.setLine (hS : S.Proper) (h : Caches S s) (hc : c ∈ S.codes) {line : Int}
    (hline : breakpointAt s.world.breakpoints c (.line line) = none) :
    Caches S { s with lineSkips := (c.key, line) :: s.lineSkips } where
  excluded := h.excluded
  filtered := h.filtered
  noBreakpoint := h.noBreakpoint
  frames := h.frames
  lines c' hc' line' hmem := by
    rcases List.mem_cons.mp hmem with heq | hold
    · obtain ⟨hkey, rfl⟩ := Prod.mk.inj heq
      exact hS.code_unique hc' hc hkey ▸ hline
    · exact h.lines c' hc' line' hold

-- ---------------------------------------------------------------------------
-- The trace functions
-- ---------------------------------------------------------------------------

theorem quiet_of_canSkip (h : S.canSkip step info f back = true) : Quiet S step f back := by
  obtain ⟨suspended, cmd, stepStop, original, location⟩ := step
  have hskip := (Bool.and_eq_true_iff.mp h).1
  cases cmd with
  | none => trivial
  | some cmd =>
    obtain ⟨kind, force⟩ := cmd
    cases kind with
    | stepInto =>
      cases force with
      | false => cases hskip
      | true =>
        obtain ⟨hf, hback⟩ := Bool.and_eq_true_iff.mp hskip
        refine ⟨by simp [Settings.shows, hf], fun b hb => ?_⟩
        simp only [Option.mem_def.mp hb, Option.all_some] at hback
        simp [Settings.shows, hback]
    | stepOver => simpa [Quiet] using hskip
    | stepReturn => simpa [Quiet] using hskip

/-- The first half skips what has no breakpoint and passes over lines that
have none, and only remembers which functions have some. -/
structure FirstLook (S : Settings) (s : State) (step : Info) (f : Frame) (back : Option Frame) (look : Look)
    (s' : State) : Prop where
  caches : Caches S s'
  world : s'.world = s.world
  fTrace : s'.fTrace = s.fTrace
  skip : look = .skip → Quiet S step f back ∧ hasBreakpoint s.world.breakpoints f.code = false
  keep : look = .keep → Quiet S step f back ∧
    breakpointAt s.world.breakpoints f.code (.line f.line) = none

theorem FirstLook.of_canSkip {canSkip : Bool} (hs : Caches S s') (hworld : s'.world = s.world)
    (hfTrace : s'.fTrace = s.fTrace)
    (h : canSkip = true → Quiet S step f back ∧ hasBreakpoint s.world.breakpoints f.code = false) :
    FirstLook S s step f back (if canSkip then .skip else .further) s' where
  caches := hs
  world := hworld
  fTrace := hfTrace
  skip heq := by
    split at heq
    · next hcan => exact h hcan
    · cases heq
  keep heq := by split at heq <;> cases heq

theorem firstLook_spec (hS : S.Proper) (hs : Caches S s) (hf : f.code ∈ S.codes) :
    FirstLook S s step f back (S.firstLook s step info f back).1 (S.firstLook s step info f back).2 := by
  have hquiet : S.canSkip step info f back = true → Quiet S step f back := quiet_of_canSkip
  unfold Settings.firstLook
  generalize S.canSkip step info f back = canSkip at hquiet
  dsimp only
  cases hfile : s.world.breakpoints.get? f.code.file with
  | none => exact .of_canSkip hs rfl rfl fun hcan => ⟨hquiet hcan, by simp [hasBreakpoint, hfile]⟩
  | some lines =>
    have hbp : hasBreakpoint s.world.breakpoints f.code = lines.keys.any (· ∈ f.code.lines) := by
      simp [hasBreakpoint, hfile]
    dsimp only
    split
    · next hempty => exact .of_canSkip hs rfl rfl fun hcan => ⟨hquiet hcan, by simp [hbp, hempty]⟩
    split
    · next hcached =>
      obtain ⟨hcan, hmem⟩ := Bool.and_eq_true_iff.mp hcached
      have hnone := hs.lines f.code hf f.line (by simpa using hmem)
      exact ⟨hs, rfl, rfl, (fun heq => by cases heq), fun _ => ⟨hquiet hcan, hnone⟩⟩
    cases hhas : s.frameSkips.get? f.code.key with
    | some has =>
      refine .of_canSkip hs rfl rfl fun hskip => ?_
      obtain ⟨hcan, hnot⟩ := Bool.and_eq_true_iff.mp hskip
      have hfalse : has = false := by simpa using hnot
      exact ⟨hquiet hcan, hs.frames f.code hf (hfalse ▸ hhas)⟩
    | none =>
      refine .of_canSkip (hs.setFrame hS hf hbp.symm) rfl rfl fun hskip => ?_
      obtain ⟨hcan, hnot⟩ := Bool.and_eq_true_iff.mp hskip
      exact ⟨hquiet hcan, by simpa [hbp] using hnot⟩

/-- The line that an event is for is a line of the function. -/
def OnLine (f : Frame) (e : Event) : Prop := ∀ line, e = .line line → line ∈ f.code.lines ∧ f.line = line

/-- A trace function does with the thread what a look at the event does, and
gives up only frames that have no breakpoint and are not to be stopped in. -/
structure Handles (S : Settings) (s : State) (t : Nat) (f : Frame) (back : Option Frame) (e : Event)
    (condition : Bool) (r : Bool × State) : Prop where
  world : r.2.world = s.world.setThread t
    (S.look s.world.breakpoints condition f back e (s.world.threads t))
  fTrace : r.2.fTrace = s.fTrace
  caches : Caches S r.2
  skipped : r.1 = false →
    Quiet S (s.world.threads t).info f back ∧ hasBreakpoint s.world.breakpoints f.code = false

theorem World.setThread_self (w : World) (t : Nat) : w.setThread t (w.threads t) = w := by
  simp [World.setThread]

theorem Handles.of_quiet (hs : Caches S s') (hworld : s'.world = s.world) (hfTrace : s'.fTrace = s.fTrace)
    (hquiet : Quiet S (s.world.threads t).info f back)
    (hbp : hasBreakpoint s.world.breakpoints f.code = false) (hline : OnLine f e) {kept : Bool} :
    Handles S s t f back e condition (kept, s') where
  world := by
    rw [look_of_quiet hquiet (breakpointAt_of_hasBreakpoint hbp fun line he => (hline line he).1),
      World.setThread_self]
    exact hworld
  fTrace := hfTrace
  caches := hs
  skipped _ := ⟨hquiet, hbp⟩

theorem Caches.noteLine (hS : S.Proper) (hs : Caches S s) (hc : c ∈ S.codes) (e : Event) :
    Caches S (s.noteLine c e) ∧ (s.noteLine c e).world = s.world ∧ (s.noteLine c e).fTrace = s.fTrace := by
  unfold State.noteLine
  split
  · next line hnone => exact ⟨hs.setLine hS hc hnone, rfl, rfl⟩
  · exact ⟨hs, rfl, rfl⟩

theorem traceDispatch_handles (hS : S.Proper) (hs : Caches S s) (hf : f.code ∈ S.codes)
    (hline : OnLine f e) : Handles S s t f back e condition (S.traceDispatch s t f back e condition) := by
  have hfurther {s' : State} (hs' : Caches S s') (hworld : s'.world = s.world)
      (hfTrace : s'.fTrace = s.fTrace) :
      Handles S s t f back e condition (true, { s'.noteLine f.code e with
        world := s'.world.setThread t
          (S.look s'.world.breakpoints condition f back e (s.world.threads t)) }) := by
    obtain ⟨hnote, hnoteWorld, hnoteTrace⟩ := hs'.noteLine hS hf e
    refine ⟨by rw [hworld], hnoteTrace.trans hfTrace, ?_, fun heq => by cases heq⟩
    exact hnote.of_same (by rw [hnoteWorld]; rfl) rfl rfl rfl
  unfold Settings.traceDispatch
  dsimp only
  by_cases he : e = .exception
  · rw [if_pos he]
    exact hfurther hs rfl rfl
  rw [if_neg he]
  have hfirst : FirstLook S s (s.world.threads t).info f back
      (S.firstLook s (s.world.threads t).info ((s.world.threads t).info.onReturn f e) f back).1
      (S.firstLook s (s.world.threads t).info ((s.world.threads t).info.onReturn f e) f back).2 :=
    firstLook_spec hS hs hf
  generalize S.firstLook s (s.world.threads t).info ((s.world.threads t).info.onReturn f e) f back = r
    at hfirst ⊢
  obtain ⟨look, s'⟩ := r
  obtain ⟨hs', hworld, hfTrace, hskip, hkeep⟩ := hfirst
  dsimp only at hs' hworld hfTrace hskip hkeep ⊢
  have hsame (hquiet : Quiet S (s.world.threads t).info f back) : s'.world.setThread t
      { s.world.threads t with info := (s.world.threads t).info.onReturn f e } = s.world := by
    rw [hquiet.onReturn, hworld]
    exact World.setThread_self _ _
  cases look with
  | skip =>
    obtain ⟨hquiet, hbp⟩ := hskip rfl
    rw [hsame hquiet]
    have hcaches : Caches S { s' with world := s.world } := hs'.of_same (by rw [hworld]) rfl rfl rfl
    exact .of_quiet (s := s) hcaches rfl hfTrace hquiet hbp hline
  | keep =>
    obtain ⟨hquiet, hbp⟩ := hkeep rfl
    refine ⟨?_, hfTrace, hs'.of_same rfl rfl rfl rfl, fun heq => by cases heq⟩
    have hnone : breakpointAt s.world.breakpoints f.code e = none := by
      cases e with
      | line line => exact (hline line rfl).2 ▸ hbp
      | _ => rfl
    rw [look_of_quiet hquiet hnone, World.setThread_self]
    exact hsame hquiet
  | further => exact hfurther hs' hworld hfTrace

theorem enter_handles (hS : S.Proper) (hs : Caches S s) (hf : f.code ∈ S.codes) (hline : OnLine f e) :
    Handles S s t f back e condition (S.enter s t f back e condition) := by
  have hdispatch : Handles S s t f back e condition (S.traceDispatch s t f back e condition) :=
    traceDispatch_handles hS hs hf hline
  unfold Settings.enter
  generalize S.traceDispatch s t f back e condition = r at hdispatch
  obtain ⟨kept, s'⟩ := r
  dsimp only
  split
  · obtain ⟨hquiet, hbp⟩ := hdispatch.skipped rfl
    refine ⟨hdispatch.world, hdispatch.fTrace, hdispatch.caches.setSkip hS hf .noBreakpoint ?_,
      fun _ => ⟨hquiet, hbp⟩⟩
    rwa [hdispatch.world]
  · exact hdispatch

/-- The frame that a step is to stay in is not excluded, or is left for one
that is not. -/
def Admitted (S : Settings) (info : Info) (f : Frame) (back : Option Frame) : Prop :=
  info.stepStop = some f.id → match info.stepCmd with
    | some ⟨.stepOver, _⟩ => S.excluded f.code = false
    | some ⟨.stepReturn, _⟩ => ∃ b ∈ back, S.excluded b.code = false
    | _ => True

theorem quiet_of_excluded (hf : S.excluded f.code = true)
    (hback : info.looksBack = true → ∀ b ∈ back, S.excluded b.code = true)
    (hadmitted : Admitted S info f back) : Quiet S info f back := by
  obtain ⟨suspended, cmd, stepStop, original, location⟩ := info
  cases cmd with
  | none => trivial
  | some cmd =>
    obtain ⟨kind, force⟩ := cmd
    cases kind with
    | stepInto =>
      exact ⟨Settings.shows_of_excluded hf force,
        fun b hb => Settings.shows_of_excluded (hback rfl b hb) force⟩
    | stepOver =>
      intro hstop
      have hnot : S.excluded f.code = false := hadmitted hstop
      simp [hf] at hnot
    | stepReturn =>
      intro hstop
      obtain ⟨b, hb, hnot⟩ := hadmitted hstop
      simp [hback rfl b hb] at hnot

theorem quiet_of_isCached (hS : S.Proper) (hs : Caches S s) (hf : f.code ∈ S.codes)
    (hback : ∀ b ∈ back, b.code ∈ S.codes) (htype : S.fileType f.code = none)
    (hadmitted : Admitted S info f back) (h : s.isCached info f back = true) :
    Quiet S info f back ∧ hasBreakpoint s.world.breakpoints f.code = false := by
  unfold State.isCached at h
  cases hskip : s.skips.get? f.code.key with
  | none => simp [hskip] at h
  | some skip =>
    have hbp : hasBreakpoint s.world.breakpoints f.code = false := by
      cases skip with
      | filtered =>
        exact hs.excluded f.code hf ((hs.filtered f.code hf hskip).resolve_left fun hne => hne htype)
      | noBreakpoint => exact hs.noBreakpoint f.code hf hskip
    refine ⟨?_, hbp⟩
    cases hcmd : info.stepCmd with
    | none => simp [Quiet, hcmd]
    | some cmd =>
      cases skip with
      | noBreakpoint => simp [hskip, hcmd] at h
      | filtered =>
        have hexcluded := (hs.filtered f.code hf hskip).resolve_left fun hne => hne htype
        refine quiet_of_excluded hexcluded (fun hlooks b hb => ?_) hadmitted
        simp only [hskip, hcmd, hlooks, if_true, Option.mem_def.mp hb, Option.all_some,
          beq_iff_eq] at h
        exact (hs.filtered b.code (hback b hb) h).elim
          (fun hne => hS.excluded (hback b hb) hne (Bool.and_eq_true_iff.mp hexcluded).1) id

theorem threadTracer_handles (hS : S.Proper) (hs : Caches S s) (hf : f.code ∈ S.codes)
    (hback : ∀ b ∈ back, b.code ∈ S.codes) (hline : OnLine f e) (htype : S.fileType f.code = none)
    (hadmitted : Admitted S (s.world.threads t).info f back) :
    Handles S s t f back e condition (S.threadTracer s t f back e condition) := by
  unfold Settings.threadTracer
  dsimp only
  split
  · next hcached =>
    obtain ⟨hquiet, hbp⟩ := quiet_of_isCached hS hs hf hback htype hadmitted hcached
    exact .of_quiet hs rfl rfl hquiet hbp hline
  rw [if_neg (by simp [htype]), if_neg (by simp [htype])]
  split
  · next hexcluded =>
    have hexcluded : S.excluded f.code = true := hexcluded
    have hbp := hs.excluded f.code hf hexcluded
    have hfiltered := hs.setSkip hS hf .filtered (.inr hexcluded)
    cases back with
    | none =>
      have hquiet : Quiet S (s.world.threads t).info f none :=
        quiet_of_excluded hexcluded (fun _ b hb => by cases hb) hadmitted
      exact .of_quiet (s := s) hfiltered rfl rfl hquiet hbp hline
    | some b =>
      dsimp only
      split
      · next hlooks =>
        split
        · next hfilter =>
          have henabled := (Bool.and_eq_true_iff.mp hexcluded).1
          have hb : S.excluded b.code = true := by simp [Settings.excluded, henabled, hfilter]
          have hquiet : Quiet S (s.world.threads t).info f (some b) :=
            quiet_of_excluded hexcluded (fun _ b' hb' => Option.some.inj hb' ▸ hb) hadmitted
          exact .of_quiet (s := s) (hfiltered.setSkip hS (hback b rfl) .filtered (.inr hb)) rfl rfl hquiet hbp
            hline
        · have henter : Handles S { s with skips := s.skips.set f.code.key .filtered } t f (some b) e
              condition (S.enter _ t f (some b) e condition) :=
            enter_handles hS hfiltered hf hline
          exact ⟨henter.world, henter.fTrace, henter.caches, henter.skipped⟩
      · next hnot =>
        have hquiet : Quiet S (s.world.threads t).info f (some b) :=
          quiet_of_excluded hexcluded (fun hlooks => absurd hlooks hnot) hadmitted
        exact .of_quiet (s := s) hfiltered rfl rfl hquiet hbp hline
  · exact enter_handles hS hs hf hline

theorem threadTracer_untraced (hS : S.Proper) (hs : Caches S s) (hf : f.code ∈ S.codes)
    (htype : S.fileType f.code ≠ none) :
    ∃ s', S.threadTracer s t f back e condition = (false, s') ∧ s'.world = s.world ∧
      s'.fTrace = s.fTrace ∧ Caches S s' := by
  have hfiltered := hs.setSkip hS hf .filtered (.inl htype)
  unfold Settings.threadTracer
  dsimp only
  split
  · exact ⟨s, rfl, rfl, rfl, hs⟩
  cases hfile : S.fileType f.code with
  | none => exact absurd hfile htype
  | some type =>
    cases type with
    | lib =>
      have hscope : S.inProjectScope f.code = false := by
        simp [Settings.inProjectScope, (hS.library _ hf hfile).1]
      rw [if_neg (by simp), if_pos ⟨rfl, hscope⟩]
      exact ⟨_, rfl, rfl, rfl, hfiltered⟩
    | pydev =>
      rw [if_pos rfl]
      exact ⟨_, rfl, rfl, rfl, hfiltered⟩

end Debugpy.Pydevd.Tracing
