import Debugpy.Lib.Run

/-!
# Sessions that have ended

`sessions.py`: a session leaves `_sessions` when `notify_changed` finds none of
its components connected, and `wait_until_ended` returns when `_sessions` is
empty. `notify_changed` reads the components one after the other, without a
lock that would keep them from changing. The lock of a session, which some of
its callers hold, is left out, so there are more runs here than in the code.
-/

namespace Debugpy.Sessions

structure SessionId where
  id : Nat
  deriving DecidableEq, Repr

inductive Kind where
  | client
  | launcher
  | server
  deriving DecidableEq, Repr

/-- `session.client`, `session.launcher` or `session.server`. -/
inductive Component where
  | missing
  | connected
  | disconnected
  deriving DecidableEq, Repr

/-- How far a call of `notify_changed` is. -/
inductive Check where
  | idle
  /-- It is reading `self.client, self.launcher, self.server`; `present` are
  the components it has got. -/
  | attributes (s : SessionId) (present rest : List Kind)
  /-- It is reading `is_connected` of these. -/
  | connections (s : SessionId) (rest : List Kind)
  /-- None was connected; it is about to take `_lock`. -/
  | ended (s : SessionId)
  deriving DecidableEq, Repr

/-- `wait_until_ended`. -/
inductive Main where
  | examining
  | waiting
  | returned
  deriving DecidableEq, Repr

structure State where
  components : SessionId → Kind → Component := fun _ _ => .missing
  /-- `register` has been called. -/
  registered : SessionId → Bool := fun _ => false
  /-- `_sessions`. -/
  sessions : List SessionId := []
  /-- `_sessions_changed`. -/
  changed : Bool := false
  checks : Nat → Check := fun _ => .idle
  main : Main := .examining

inductive Label where
  /-- The component is assigned to the session at the end of its `__init__`. -/
  | construct (s : SessionId) (k : Kind)
  | register (s : SessionId)
  /-- `self.is_connected = False`. -/
  | disconnect (s : SessionId) (k : Kind)
  /-- The thread calls `notify_changed`. -/
  | notify (t : Nat) (s : SessionId)
  /-- Its next read. -/
  | read (t : Nat)
  /-- Its critical section. -/
  | remove (t : Nat)
  /-- The critical section of `wait_until_ended`. -/
  | examine
  | wake
  deriving DecidableEq, Repr

namespace State

def setComponent (s : SessionId) (k : Kind) (component : Component) (st : State) : State :=
  { st with components := fun s' k' =>
      if s' = s ∧ k' = k then component else st.components s' k' }

def setCheck (t : Nat) (check : Check) (st : State) : State :=
  { st with checks := fun t' => if t' = t then check else st.checks t' }

end State

def readNext (st : State) : Check → Option Check
  | .attributes s present (k :: rest) =>
    some (.attributes s (if st.components s k = .missing then present else present ++ [k]) rest)
  | .attributes s present [] => some (.connections s present)
  | .connections s (k :: rest) =>
    some (if st.components s k = .connected then .idle else .connections s rest)
  | .connections s [] => some (.ended s)
  | .idle | .ended _ => none

def step (st : State) : Label → Option State
  | .construct s k =>
    if st.components s k = .missing then some (st.setComponent s k .connected) else none
  -- `Client.__init__` registers the session once it has assigned itself.
  | .register s =>
    if st.components s .client = .connected ∧ st.registered s = false then
      some { st with
        registered := fun s' => if s' = s then true else st.registered s'
        sessions := s :: st.sessions
        changed := true }
    else none
  | .disconnect s k =>
    if st.components s k = .connected then some (st.setComponent s k .disconnected) else none
  -- What is called ahead of the registration is so by the thread that registers.
  | .notify t s =>
    if st.checks t = .idle ∧ st.registered s = true then
      some (st.setCheck t (.attributes s [] [.client, .launcher, .server]))
    else none
  | .read t => (readNext st (st.checks t)).map fun check => st.setCheck t check
  | .remove t => match st.checks t with
    | .ended s =>
      if s ∈ st.sessions then
        some { st.setCheck t .idle with sessions := st.sessions.erase s, changed := true }
      else some (st.setCheck t .idle)
    | _ => none
  | .examine =>
    if st.main = .examining then
      if st.sessions = [] then some { st with main := .returned }
      else some { st with main := .waiting, changed := false }
    else none
  | .wake => if st.main = .waiting ∧ st.changed = true then some { st with main := .examining } else none

-- ---------------------------------------------------------------------------
-- The rule
-- ---------------------------------------------------------------------------

/-- The check has found that this component is not there, or not connected. -/
def Check.Passed (s : SessionId) (k : Kind) : Check → Prop
  | .idle => False
  | .attributes s' present rest => s' = s ∧ k ∉ present ∧ k ∉ rest
  | .connections s' rest => s' = s ∧ k ∉ rest
  | .ended s' => s' = s

def Check.session : Check → Option SessionId
  | .idle => none
  | .attributes s _ _ | .connections s _ | .ended s => some s

/-- A component of a registered session is connected. -/
def State.InUse (st : State) (s : SessionId) : Prop :=
  st.registered s = true ∧ ∃ k, st.components s k = .connected

/-- The condition on a step: a component is assigned to a session that is
registered only while that is in `_sessions`, and no check of the session has
passed by the missing component. -/
def Orderly (st : State) : Label → Prop
  | .construct s k => st.registered s = true →
      s ∈ st.sessions ∧ ∀ t, ¬ (st.checks t).Passed s k
  | _ => True

-- ---------------------------------------------------------------------------
-- The invariant
-- ---------------------------------------------------------------------------

structure Inv (st : State) : Prop where
  inUse : ∀ s, st.InUse s → s ∈ st.sessions
  passed : ∀ t s k, (st.checks t).Passed s k → st.components s k ≠ .connected
  checking : ∀ t s, (st.checks t).session = some s → st.registered s = true
  nodup : st.sessions.Nodup
  sessions : ∀ s ∈ st.sessions, st.registered s = true

theorem Check.Passed.session_eq {check : Check} (h : check.Passed s k) : check.session = some s := by
  cases check with
  | idle => exact h.elim
  | attributes => exact congrArg some h.1
  | connections => exact congrArg some h.1
  | ended => exact congrArg some h

theorem passed_readNext {st : State} (h : readNext st check = some check') (hp : check'.Passed s k) :
    check.Passed s k ∨ st.components s k ≠ .connected := by
  cases check with
  | idle => cases h
  | ended => cases h
  | attributes s' present rest =>
    cases rest with
    | nil =>
      cases h
      exact .inl ⟨hp.1, hp.2, List.not_mem_nil⟩
    | cons k' rest =>
      cases h
      obtain ⟨rfl, hpresent, hrest⟩ := hp
      by_cases hk : k = k'
      · subst hk
        right
        by_cases hm : st.components s' k = .missing
        · simp [hm]
        · simp [hm] at hpresent
      · left
        refine ⟨rfl, fun hmem => hpresent ?_, by simp [hk, hrest]⟩
        split
        · exact hmem
        · exact List.mem_append_left _ hmem
  | connections s' rest =>
    cases rest with
    | nil =>
      cases h
      exact .inl ⟨hp, List.not_mem_nil⟩
    | cons k' rest =>
      cases h
      by_cases hc : st.components s' k' = .connected
      · simp only [hc, if_true] at hp
        exact hp.elim
      · simp only [hc, if_false] at hp
        obtain ⟨rfl, hrest⟩ := hp
        by_cases hk : k = k'
        · subst hk
          exact .inr hc
        · exact .inl ⟨rfl, by simp [hk, hrest]⟩

theorem session_readNext {st : State} (h : readNext st check = some check')
    (hs : check'.session = some s) : check.session = some s := by
  cases check with
  | idle => cases h
  | ended => cases h
  | attributes s' present rest => cases rest <;> cases h <;> exact hs
  | connections s' rest =>
    cases rest with
    | nil =>
      cases h
      exact hs
    | cons k' rest =>
      cases h
      split at hs
      · cases hs
      · exact hs

section
variable {st st' : State}

theorem inv_construct (hi : Inv st) (hq : Orderly st (.construct s k))
    (h : step st (.construct s k) = some st') : Inv st' := by
  simp only [step] at h
  split at h <;> cases h
  refine ⟨fun s' hs' => ?_, fun t s' k' hp => ?_, hi.checking, hi.nodup, hi.sessions⟩
  · obtain ⟨hreg, k', hk'⟩ := hs'
    by_cases hs : s' = s
    · subst hs
      exact (hq hreg).1
    · exact hi.inUse s' ⟨hreg, k', by simpa [State.setComponent, hs] using hk'⟩
  · by_cases hs : s' = s ∧ k' = k
    · obtain ⟨rfl, rfl⟩ := hs
      exact absurd hp ((hq (hi.checking t s' hp.session_eq)).2 t)
    · have := hi.passed t s' k' hp
      simpa [State.setComponent, hs] using this

theorem inv_register (hi : Inv st) (h : step st (.register s) = some st') : Inv st' := by
  simp only [step] at h
  split at h <;> cases h
  rename_i hc
  have hnew : s ∉ st.sessions := fun hmem => by simp [hi.sessions s hmem] at hc
  refine ⟨fun s' hs' => ?_, hi.passed, fun t s' ht => ?_, List.nodup_cons.mpr ⟨hnew, hi.nodup⟩,
    fun s' hs' => ?_⟩
  · by_cases hs : s' = s
    · exact hs ▸ List.mem_cons_self
    · obtain ⟨hreg, hk⟩ := hs'
      exact List.mem_cons_of_mem _ (hi.inUse s' ⟨by simpa [hs] using hreg, hk⟩)
  · simp [hi.checking t s' ht]
  · rcases List.mem_cons.mp hs' with rfl | hs'
    · simp
    · simp [hi.sessions s' hs']

theorem inv_disconnect (hi : Inv st) (h : step st (.disconnect s k) = some st') : Inv st' := by
  simp only [step] at h
  split at h <;> cases h
  refine ⟨fun s' hs' => ?_, fun t s' k' hp => ?_, hi.checking, hi.nodup, hi.sessions⟩
  · obtain ⟨hreg, k', hk'⟩ := hs'
    refine hi.inUse s' ⟨hreg, k', ?_⟩
    by_cases hs : s' = s ∧ k' = k
    · simp [State.setComponent, hs] at hk'
    · simpa [State.setComponent, hs] using hk'
  · by_cases hs : s' = s ∧ k' = k
    · simp [State.setComponent, hs]
    · have := hi.passed t s' k' hp
      simpa [State.setComponent, hs] using this

theorem inv_setCheck (hi : Inv st) (hp : ∀ s k, check.Passed s k → st.components s k ≠ .connected)
    (hc : ∀ s, check.session = some s → st.registered s = true) : Inv (st.setCheck t check) := by
  refine ⟨hi.inUse, fun t' s k hp' => ?_, fun t' s hs => ?_, hi.nodup, hi.sessions⟩
  · by_cases ht : t' = t
    · exact hp s k (by simpa [State.setCheck, ht] using hp')
    · exact hi.passed t' s k (by simpa [State.setCheck, ht] using hp')
  · by_cases ht : t' = t
    · exact hc s (by simpa [State.setCheck, ht] using hs)
    · exact hi.checking t' s (by simpa [State.setCheck, ht] using hs)

theorem inv_notify (hi : Inv st) (h : step st (.notify t s) = some st') : Inv st' := by
  simp only [step] at h
  split at h <;> cases h
  rename_i hc
  refine inv_setCheck hi (fun s' k hp => ?_) (fun s' hs' => ?_)
  · exact absurd hp.2.2 (by cases k <;> simp)
  · cases hs'
    exact hc.2

theorem inv_read (hi : Inv st) (h : step st (.read t) = some st') : Inv st' := by
  obtain ⟨check, hr, rfl⟩ := Option.map_eq_some_iff.mp h
  refine inv_setCheck hi (fun s k hp => ?_) (fun s hs => ?_)
  · rcases passed_readNext hr hp with hp' | hne
    · exact hi.passed t s k hp'
    · exact hne
  · exact hi.checking t s (session_readNext hr hs)

theorem inv_remove (hi : Inv st) (h : step st (.remove t) = some st') : Inv st' := by
  simp only [step] at h
  split at h
  · rename_i s hs
    have hidle : Inv (st.setCheck t .idle) := inv_setCheck hi (fun _ _ hp => hp.elim)
      (fun _ hs => by cases hs)
    have hnone (k : Kind) : st.components s k ≠ .connected := hi.passed t s k (hs ▸ rfl)
    split at h <;> cases h
    · refine ⟨fun s' hs' => ?_, hidle.passed, hidle.checking, hi.nodup.erase s, fun s' hs' => ?_⟩
      · have hne : s' ≠ s := by
          rintro rfl
          obtain ⟨-, k, hk⟩ := hs'
          exact hnone k hk
        exact (List.mem_erase_of_ne hne).mpr (hi.inUse s' hs')
      · exact hi.sessions s' (List.mem_of_mem_erase hs')
    · exact hidle
  · cases h

theorem inv_step (hi : Inv st) (hq : Orderly st l) (h : step st l = some st') : Inv st' := by
  cases l with
  | construct s k => exact inv_construct hi hq h
  | register s => exact inv_register hi h
  | disconnect s k => exact inv_disconnect hi h
  | notify t s => exact inv_notify hi h
  | read t => exact inv_read hi h
  | remove t => exact inv_remove hi h
  | examine =>
    simp only [step] at h
    split at h
    · split at h <;> cases h <;> exact ⟨hi.inUse, hi.passed, hi.checking, hi.nodup, hi.sessions⟩
    · cases h
  | wake =>
    simp only [step] at h
    split at h <;> cases h
    exact ⟨hi.inUse, hi.passed, hi.checking, hi.nodup, hi.sessions⟩

end

theorem inv_init : Inv {} := by
  refine ⟨fun s hs => ?_, fun t s k hp => hp.elim, fun t s hs => ?_, List.nodup_nil, by simp⟩
  · cases hs.1
  · cases hs

/-- In every run in which components are assigned only to sessions that have
not ended, and not behind the back of a check, a session in use is in
`_sessions`, and `wait_until_ended` does not return as long as there is one. -/
theorem inUse_of_orderly (labels : List Label) (st : State)
    (hq : Run.Meets step Orderly {} labels) (hrun : Run.exec step {} labels = some st) :
    (∀ s, st.InUse s → s ∈ st.sessions) ∧
      ∀ st', step st .examine = some st' → st'.main = .returned → ∀ s, ¬ st'.InUse s := by
  have hinv : Inv st := Run.exec_invariant inv_step inv_init hq hrun
  refine ⟨hinv.inUse, fun st' hstep hreturned s hs => ?_⟩
  simp only [step] at hstep
  split at hstep
  · split at hstep
    · next hempty =>
      cases hstep
      have hmem := hinv.inUse s hs
      rw [hempty] at hmem
      cases hmem
    · cases hstep
      cases hreturned
  · cases hstep

/-- The launcher of a session connects while its client is there, and another
session ends; the check of the first one finds the launcher. -/
def launchRun : List Label :=
  [.construct ⟨1⟩ .client, .register ⟨1⟩, .construct ⟨2⟩ .client, .register ⟨2⟩,
    .disconnect ⟨2⟩ .client, .construct ⟨1⟩ .launcher, .disconnect ⟨1⟩ .client, .notify 0 ⟨2⟩,
    .notify 1 ⟨1⟩] ++ List.replicate 6 (.read 0) ++ List.replicate 6 (.read 1) ++ [.remove 0]

theorem orderly_launchRun : Run.Meets step Orderly {} launchRun := by
  refine ⟨fun hreg => absurd hreg Bool.false_ne_true, fun s h => ?_⟩
  cases h
  refine ⟨trivial, fun s h => ?_⟩
  cases h
  refine ⟨fun hreg => absurd hreg (by decide), fun s h => ?_⟩
  cases h
  refine ⟨trivial, fun s h => ?_⟩
  cases h
  refine ⟨trivial, fun s h => ?_⟩
  cases h
  refine ⟨fun _ => ⟨by decide, fun t hp => hp⟩, fun s h => ?_⟩
  cases h
  refine Run.meets_of_forall fun l hl s => ?_
  have hl : ∀ s k, l ≠ .construct s k := by
    rintro s k rfl
    simp [List.replicate] at hl
  cases l with
  | construct s k => exact absurd rfl (hl s k)
  | _ => trivial

theorem inUse_launchRun : ∃ st, Run.exec step {} launchRun = some st ∧ st.InUse ⟨1⟩ ∧
    st.checks 1 = .idle ∧ st.sessions = [⟨1⟩] ∧ ∀ s, st.InUse s → s ∈ st.sessions :=
  ⟨_, rfl, ⟨rfl, .launcher, rfl⟩, rfl, rfl, (inUse_of_orderly launchRun _ orderly_launchRun rfl).1⟩

/-- The client has gone, the session has ended, and then its launcher connects. -/
def lateRun : List Label :=
  [.construct ⟨1⟩ .client, .register ⟨1⟩, .disconnect ⟨1⟩ .client, .notify 0 ⟨1⟩] ++
    List.replicate 6 (.read 0) ++ [.remove 0, .construct ⟨1⟩ .launcher]

theorem exists_ended_inUse :
    ¬ ∀ (labels : List Label) (st : State), Run.exec step {} labels = some st →
      (∀ s, st.InUse s → s ∈ st.sessions) ∧
        ∀ st', step st .examine = some st' → st'.main = .returned → ∀ s, ¬ st'.InUse s := by
  intro h
  obtain ⟨hmem, -⟩ := h lateRun _ rfl
  have hended := hmem ⟨1⟩ ⟨rfl, .launcher, rfl⟩
  cases hended

end Debugpy.Sessions
