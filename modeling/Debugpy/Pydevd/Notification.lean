import Debugpy.Lib.Run

/-!
# One notification for all threads

`AbstractSingleNotificationBehavior` and its subclass. When all threads stop
and run together the client is told once of each, whichever thread comes first.
The threads call `on_thread_suspend` and `on_thread_resume` in any order, others
ask for a pause, and timeouts fire at any time later. What the client was told
last of a thread that is suspended is true in every state of a run, and a stop
is not passed over in silence.
-/

namespace Debugpy.Pydevd

open Run (exec exec_nil exec_cons exec_append)

def CMD_THREAD_SUSPEND : Int := 105

/-- What is given to the writer. -/
inductive Notice where
  | suspend (time : Int) (threadId : String) (stopReason : Int)
  | resume (threadId : String)
  /-- What a callback sends. -/
  | resumed (callback : Nat)
  deriving DecidableEq, Repr

structure Behavior where
  nextRequestTime : Int := 1
  lastSuspendNotificationTime : Int := -1
  lastResumeNotificationTime : Int := -1
  suspendTimeRequest : Int := 0
  /-- The keys of `_suspended_thread_id_to_thread`. -/
  suspended : List String := []
  pauseRequested : Bool := false
  /-- The handles given to `call_on_timeout`, each with its time. -/
  timeouts : List Int := []
  callbacks : List Nat := []
  sent : List Notice := []
  deriving DecidableEq, Repr

def Behavior.incrementSuspendTime (b : Behavior) : Behavior :=
  { b with suspendTimeRequest := b.nextRequestTime, nextRequestTime := b.nextRequestTime + 1 }

def Behavior.onPause (b : Behavior) : Behavior :=
  { b with pauseRequested := true, timeouts := b.timeouts ++ [b.suspendTimeRequest] }

/-- `send_suspend_notification`, with the time that is noted before. -/
def Behavior.sendSuspend (b : Behavior) (time : Int) (threadId : String) (stopReason : Int) :
    Behavior :=
  { b with
    lastSuspendNotificationTime := time
    sent := b.sent ++ [.suspend time threadId stopReason] }

/-- `send_resume_notification`, with the time that is noted before. -/
def Behavior.sendResume (b : Behavior) (threadId : String) : Behavior :=
  { b with
    lastResumeNotificationTime := b.lastSuspendNotificationTime
    sent := b.sent ++ .resume threadId :: b.callbacks.map .resumed
    callbacks := [] }

def Behavior.notifyAfterTimeout (b : Behavior) (time : Int) : Behavior :=
  match b.suspended with
  | [] => b
  | threadId :: _ =>
    if time > b.lastSuspendNotificationTime then b.sendSuspend time threadId CMD_THREAD_SUSPEND
    else b

def Behavior.onThreadSuspend (b : Behavior) (threadId : String) (stopReason : Int) : Behavior :=
  let pauseRequested := b.pauseRequested
  let b := { b with
    pauseRequested := false
    suspended := if threadId ∈ b.suspended then b.suspended else b.suspended ++ [threadId] }
  if stopReason ≠ CMD_THREAD_SUSPEND ∨ pauseRequested then
    if b.suspendTimeRequest > b.lastSuspendNotificationTime then
      b.sendSuspend b.suspendTimeRequest threadId stopReason
    else b
  else b

/-- `pop` raises for a thread that is not there. -/
def Behavior.onThreadResume (b : Behavior) (threadId : String) : Behavior :=
  if threadId ∈ b.suspended then
    let b := { b with suspended := b.suspended.erase threadId }
    if b.lastResumeNotificationTime < b.lastSuspendNotificationTime then b.sendResume threadId
    else b
  else b

inductive Call where
  | incrementSuspendTime
  | onPause
  | timeout (n : Nat)
  | onThreadSuspend (threadId : String) (stopReason : Int)
  | onThreadResume (threadId : String)
  | addOnResumedCallback (callback : Nat)
  deriving DecidableEq, Repr

/-- Each call is made under the lock. -/
def call (b : Behavior) : Call → Option Behavior
  | .incrementSuspendTime => some b.incrementSuspendTime
  | .onPause => some b.onPause
  | .timeout n => b.timeouts[n]?.map fun time =>
    { b with timeouts := b.timeouts.eraseIdx n }.notifyAfterTimeout time
  | .onThreadSuspend threadId stopReason => some (b.onThreadSuspend threadId stopReason)
  | .onThreadResume threadId => some (b.onThreadResume threadId)
  | .addOnResumedCallback callback => some { b with callbacks := b.callbacks ++ [callback] }

-- ---------------------------------------------------------------------------
-- What a call can do
-- ---------------------------------------------------------------------------

def Call.callback? : Call → Option Nat
  | .addOnResumedCallback callback => some callback
  | _ => none

inductive Puts (b : Behavior) (c : Call) (b' : Behavior) : Prop
  /-- Nothing, and who is notified stays. -/
  | nothing : b'.sent = b.sent → b'.callbacks = b.callbacks ++ c.callback?.toList →
      b'.lastSuspendNotificationTime = b.lastSuspendNotificationTime →
      b'.lastResumeNotificationTime = b.lastResumeNotificationTime →
      (b.lastResumeNotificationTime < b.lastSuspendNotificationTime → b.suspended ⊆ b'.suspended) →
      Puts b c b'
  | suspend : b.lastSuspendNotificationTime < time → time ≤ b.suspendTimeRequest →
      threadId ∈ b'.suspended → b'.sent = b.sent ++ [.suspend time threadId stopReason] →
      b'.callbacks = b.callbacks ++ c.callback?.toList → b'.lastSuspendNotificationTime = time →
      b'.lastResumeNotificationTime = b.lastResumeNotificationTime → Puts b c b'
  | resume : b.lastResumeNotificationTime < b.lastSuspendNotificationTime →
      b'.sent = b.sent ++ .resume threadId :: b.callbacks.map .resumed →
      b'.callbacks = c.callback?.toList →
      b'.lastSuspendNotificationTime = b.lastSuspendNotificationTime →
      b'.lastResumeNotificationTime = b.lastSuspendNotificationTime → Puts b c b'

structure Ordered (b : Behavior) : Prop where
  resume : b.lastResumeNotificationTime ≤ b.lastSuspendNotificationTime
  suspend : b.lastSuspendNotificationTime ≤ b.suspendTimeRequest
  request : b.suspendTimeRequest < b.nextRequestTime
  timeouts : ∀ time ∈ b.timeouts, time ≤ b.suspendTimeRequest

theorem puts_notifyAfterTimeout (htime : time ≤ b.suspendTimeRequest) :
    Puts b (.timeout n) (b.notifyAfterTimeout time) := by
  unfold Behavior.notifyAfterTimeout
  split
  · exact .nothing rfl (by simp [Call.callback?]) rfl rfl fun _ => List.Subset.refl _
  · next threadId rest hsuspended =>
    split
    · next hlt =>
      refine .suspend hlt htime ?_ rfl (by simp [Behavior.sendSuspend, Call.callback?]) rfl rfl
      simp [Behavior.sendSuspend, hsuspended]
    · exact .nothing rfl (by simp [Call.callback?]) rfl rfl fun _ => List.Subset.refl _

theorem puts_onThreadSuspend :
    Puts b (.onThreadSuspend threadId stopReason) (b.onThreadSuspend threadId stopReason) := by
  have hmem : threadId ∈ if threadId ∈ b.suspended then b.suspended else b.suspended ++ [threadId] := by
    split <;> simp_all
  have hsub : b.suspended ⊆
      if threadId ∈ b.suspended then b.suspended else b.suspended ++ [threadId] := by
    split <;> simp
  have hcallbacks : b.callbacks = b.callbacks ++
      (Call.onThreadSuspend threadId stopReason).callback?.toList := (List.append_nil _).symm
  unfold Behavior.onThreadSuspend
  dsimp only
  split
  · split
    · next hlt => exact .suspend hlt (Int.le_refl _) hmem rfl hcallbacks rfl rfl
    · exact .nothing rfl hcallbacks rfl rfl fun _ => hsub
  · exact .nothing rfl hcallbacks rfl rfl fun _ => hsub

theorem puts_onThreadResume : Puts b (.onThreadResume threadId) (b.onThreadResume threadId) := by
  have hcallbacks : b.callbacks = b.callbacks ++
      (Call.onThreadResume threadId).callback?.toList := (List.append_nil _).symm
  unfold Behavior.onThreadResume
  split
  · dsimp only
    split
    · next hlt => exact .resume hlt rfl rfl rfl rfl
    · next hlt => exact .nothing rfl hcallbacks rfl rfl fun h => absurd h hlt
  · exact .nothing rfl hcallbacks rfl rfl fun _ => List.Subset.refl _

theorem puts_of_call (ho : Ordered b) (h : call b c = some b') : Puts b c b' := by
  cases c with
  | incrementSuspendTime | onPause =>
    cases h
    exact .nothing rfl (List.append_nil _).symm rfl rfl fun _ => List.Subset.refl _
  | addOnResumedCallback callback =>
    cases h
    exact .nothing rfl rfl rfl rfl fun _ => List.Subset.refl _
  | timeout n =>
    obtain ⟨time, hn, rfl⟩ := Option.map_eq_some_iff.mp h
    have htime := ho.timeouts time (List.mem_of_getElem? hn)
    cases puts_notifyAfterTimeout (b := { b with timeouts := b.timeouts.eraseIdx n }) (n := n) htime with
    | nothing h₁ h₂ h₃ h₄ h₅ => exact .nothing h₁ h₂ h₃ h₄ h₅
    | suspend h₁ h₂ h₃ h₄ h₅ h₆ h₇ => exact .suspend h₁ h₂ h₃ h₄ h₅ h₆ h₇
    | resume h₁ h₂ h₃ h₄ h₅ => exact .resume h₁ h₂ h₃ h₄ h₅
  | onThreadSuspend threadId stopReason =>
    cases h
    exact puts_onThreadSuspend
  | onThreadResume threadId =>
    cases h
    exact puts_onThreadResume

theorem request_of_call (h : call b c = some b') :
    (b'.suspendTimeRequest = b.suspendTimeRequest ∧ b'.nextRequestTime = b.nextRequestTime ∨
      b'.suspendTimeRequest = b.nextRequestTime ∧ b'.nextRequestTime = b.nextRequestTime + 1) ∧
      ∀ time ∈ b'.timeouts, time ∈ b.timeouts ∨ time = b.suspendTimeRequest := by
  cases c with
  | incrementSuspendTime =>
    cases h
    exact ⟨.inr ⟨rfl, rfl⟩, fun _ => .inl⟩
  | onPause =>
    cases h
    exact ⟨.inl ⟨rfl, rfl⟩, fun time htime => by simpa [Behavior.onPause] using htime⟩
  | timeout n =>
    obtain ⟨time, -, rfl⟩ := Option.map_eq_some_iff.mp h
    unfold Behavior.notifyAfterTimeout
    split
    · exact ⟨.inl ⟨rfl, rfl⟩, fun _ hmem => .inl (List.mem_of_mem_eraseIdx hmem)⟩
    · split <;> exact ⟨.inl ⟨rfl, rfl⟩, fun _ hmem => .inl (List.mem_of_mem_eraseIdx hmem)⟩
  | onThreadSuspend threadId stopReason =>
    cases h
    unfold Behavior.onThreadSuspend
    dsimp only
    split
    · split <;> exact ⟨.inl ⟨rfl, rfl⟩, fun _ => .inl⟩
    · exact ⟨.inl ⟨rfl, rfl⟩, fun _ => .inl⟩
  | onThreadResume threadId =>
    cases h
    unfold Behavior.onThreadResume
    split
    · dsimp only
      split <;> exact ⟨.inl ⟨rfl, rfl⟩, fun _ => .inl⟩
    · exact ⟨.inl ⟨rfl, rfl⟩, fun _ => .inl⟩
  | addOnResumedCallback callback =>
    cases h
    exact ⟨.inl ⟨rfl, rfl⟩, fun _ => .inl⟩

theorem Ordered.next (ho : Ordered b) (h : call b c = some b') : Ordered b' := by
  obtain ⟨hrequest, htimeouts⟩ := request_of_call h
  have hup : b.suspendTimeRequest ≤ b'.suspendTimeRequest ∧
      b'.suspendTimeRequest < b'.nextRequestTime := by
    have := ho.request
    omega
  have htimes : ∀ time ∈ b'.timeouts, time ≤ b'.suspendTimeRequest := by
    intro time hmem
    rcases htimeouts time hmem with hold | rfl
    · exact Int.le_trans (ho.timeouts time hold) hup.1
    · exact hup.1
  have hresume := ho.resume
  have hsuspend := ho.suspend
  cases puts_of_call ho h with
  | nothing _ _ hs hr => exact ⟨by omega, by omega, hup.2, htimes⟩
  | suspend hlt hle _ _ _ hs hr => exact ⟨by omega, by omega, hup.2, htimes⟩
  | resume _ _ _ hs hr => exact ⟨by omega, by omega, hup.2, htimes⟩

-- ---------------------------------------------------------------------------
-- What the client was told
-- ---------------------------------------------------------------------------

def Notice.time? : Notice → Option Int
  | .suspend time _ _ => some time
  | _ => none

def Notice.isResumed : Notice → Bool
  | .resumed _ => true
  | _ => false

/-- The notifications among what was sent. -/
def Behavior.notices (b : Behavior) : List Notice := b.sent.filter (! ·.isResumed)

/-- The client's picture of the threads. -/
structure Told (b : Behavior) : Prop where
  ordered : Ordered b
  /-- A thread that it takes for suspended is. -/
  suspended : ∀ {before time threadId stopReason},
    b.notices = before ++ [.suspend time threadId stopReason] → threadId ∈ b.suspended
  /-- Each resume notification is for the suspend notification right before. -/
  resume : ∀ {before threadId after}, b.notices = before ++ .resume threadId :: after →
    ∃ first time threadId stopReason, before = first ++ [.suspend time threadId stopReason]
  last : b.lastResumeNotificationTime < b.lastSuspendNotificationTime ↔
    ∃ before time threadId stopReason, b.notices = before ++ [.suspend time threadId stopReason]
  /-- No suspension is notified twice. -/
  times : (b.sent.filterMap Notice.time?).Pairwise (· < ·)
  bound : ∀ time ∈ b.sent.filterMap Notice.time?, time ≤ b.lastSuspendNotificationTime

theorem told_start : Told {} where
  ordered := ⟨by decide, by decide, by decide, by decide⟩
  suspended h := by simp [Behavior.notices] at h
  resume h := by simp [Behavior.notices] at h
  last := by simp [Behavior.notices]
  times := .nil
  bound := by simp

theorem split_concat {l before after : List Notice} (h : l ++ [x] = before ++ y :: after) :
    before = l ∧ y = x ∧ after = [] ∨ ∃ after', after = after' ++ [x] ∧ l = before ++ y :: after' := by
  rcases List.eq_nil_or_concat after with rfl | ⟨after', z, rfl⟩
  · obtain ⟨rfl, hx⟩ := List.append_inj' h rfl
    exact .inl ⟨rfl, (List.singleton_inj.mp hx).symm, rfl⟩
  · rw [List.concat_eq_append, ← List.cons_append, ← List.append_assoc] at h
    obtain ⟨rfl, hx⟩ := List.append_inj' h rfl
    exact .inr ⟨after', by rw [List.concat_eq_append, hx], rfl⟩

theorem Told.next (ht : Told b) (h : call b c = some b') : Told b' := by
  have ho := ht.ordered.next h
  cases puts_of_call ht.ordered h with
  | nothing hsent _ hs hr hsub =>
    have hnotices : b'.notices = b.notices := by rw [Behavior.notices, hsent, Behavior.notices]
    refine ⟨ho, fun hlast => ?_, fun hresume => ht.resume (hnotices ▸ hresume), ?_, ?_, ?_⟩
    · rw [hnotices] at hlast
      exact hsub (ht.last.mpr ⟨_, _, _, _, hlast⟩) (ht.suspended hlast)
    · rw [hs, hr, hnotices]
      exact ht.last
    · rw [hsent]
      exact ht.times
    · rw [hsent, hs]
      exact ht.bound
  | @suspend time threadId stopReason hlt hle hmem hsent _ hs hr =>
    have hnotices : b'.notices = b.notices ++ [.suspend time threadId stopReason] := by
      rw [Behavior.notices, hsent, List.filter_append]
      rfl
    have htimes : b'.sent.filterMap Notice.time? = b.sent.filterMap Notice.time? ++ [time] := by
      rw [hsent, List.filterMap_append]
      rfl
    refine ⟨ho, fun hlast => ?_, fun hresume => ?_, ?_, ?_, ?_⟩
    · obtain ⟨-, hx⟩ := List.append_inj' (hnotices.symm.trans hlast) rfl
      cases hx
      exact hmem
    · rcases split_concat (hnotices.symm.trans hresume) with ⟨-, hx, -⟩ | ⟨after', -, hold⟩
      · cases hx
      · exact ht.resume hold
    · have := ht.ordered.resume
      exact ⟨fun _ => ⟨_, _, _, _, hnotices⟩, fun _ => by omega⟩
    · rw [htimes, List.pairwise_append]
      refine ⟨ht.times, List.pairwise_singleton _ _, fun t hmem t' ht' => ?_⟩
      rw [List.mem_singleton.mp ht']
      exact Int.lt_of_le_of_lt (ht.bound t hmem) hlt
    · intro t hmem
      rw [htimes] at hmem
      rcases List.mem_append.mp hmem with hold | hnew
      · have := ht.bound t hold
        omega
      · exact List.mem_singleton.mp hnew ▸ Int.le_of_eq hs.symm
  | @resume threadId hlt hsent hcallbacks hs hr =>
    have hnone (callbacks : List Nat) : (callbacks.map Notice.resumed).filter (! ·.isResumed) = [] ∧
        (callbacks.map Notice.resumed).filterMap Notice.time? = [] := by
      simp [List.filter_eq_nil_iff, Notice.isResumed, List.filterMap_eq_nil_iff, Notice.time?]
    have hnotices : b'.notices = b.notices ++ [.resume threadId] := by
      rw [Behavior.notices, hsent, List.filter_append, List.filter_cons_of_pos rfl, (hnone _).1]
      rfl
    have htimes : b'.sent.filterMap Notice.time? = b.sent.filterMap Notice.time? := by
      rw [hsent, List.filterMap_append, List.filterMap_cons_none rfl, (hnone _).2, List.append_nil]
    refine ⟨ho, fun hlast => ?_, fun hresume => ?_, ?_, ?_, ?_⟩
    · obtain ⟨-, hx⟩ := List.append_inj' (hnotices.symm.trans hlast) rfl
      cases hx
    · rcases split_concat (hnotices.symm.trans hresume) with ⟨rfl, -, -⟩ | ⟨after', -, hold⟩
      · exact ht.last.mp hlt
      · exact ht.resume hold
    · refine ⟨fun _ => by omega, ?_⟩
      rintro ⟨before, time, threadId, stopReason, hlast⟩
      obtain ⟨-, hx⟩ := List.append_inj' (hnotices.symm.trans hlast) rfl
      cases hx
    · rw [htimes]
      exact ht.times
    · rw [htimes, hs]
      exact ht.bound

theorem told_run (h : exec call {} calls = some b) : Told b :=
  Run.exec_keeps Told (fun ht h => ht.next h) told_start h

-- ---------------------------------------------------------------------------
-- Callbacks
-- ---------------------------------------------------------------------------

def Notice.callback? : Notice → Option Nat
  | .resumed callback => some callback
  | _ => none

theorem callbacks_call (ho : Ordered b) (h : call b c = some b') :
    b'.sent.filterMap Notice.callback? ++ b'.callbacks =
      b.sent.filterMap Notice.callback? ++ b.callbacks ++ c.callback?.toList := by
  cases puts_of_call ho h with
  | nothing hsent hcallbacks => rw [hsent, hcallbacks, List.append_assoc]
  | suspend _ _ _ hsent hcallbacks =>
    rw [hsent, hcallbacks, List.filterMap_append, List.append_assoc, List.append_assoc]
    rfl
  | resume _ hsent hcallbacks =>
    have hall (callbacks : List Nat) :
        (callbacks.map Notice.resumed).filterMap Notice.callback? = callbacks := by
      rw [List.filterMap_map]
      exact List.filterMap_some
    rw [hsent, hcallbacks, List.filterMap_append, List.filterMap_cons_none rfl, hall]

theorem callbacks_run (ho : Ordered b) (h : exec call b calls = some b') :
    b'.sent.filterMap Notice.callback? ++ b'.callbacks =
      b.sent.filterMap Notice.callback? ++ b.callbacks ++ calls.filterMap Call.callback? := by
  induction calls generalizing b with
  | nil =>
    cases h
    exact (List.append_nil _).symm
  | cons c calls ih =>
    obtain ⟨b₁, hc, hcalls⟩ := exec_cons.mp h
    rw [ih (ho.next hc) hcalls, callbacks_call ho hc, List.append_assoc]
    cases hcall : c.callback? <;> simp [hcall]

/-- Callbacks are called right after a resume notification. -/
def InBlocks (b : Behavior) : Prop :=
  ∀ before callback after, b.sent = before ++ .resumed callback :: after →
    ∃ first threadId, ∃ called : List Nat, before = first ++ .resume threadId :: called.map .resumed

theorem InBlocks.next (hb : InBlocks b) (ho : Ordered b) (h : call b c = some b') : InBlocks b' := by
  intro before callback after hsplit
  cases puts_of_call ho h with
  | nothing hsent => exact hb before callback after (hsent ▸ hsplit)
  | suspend _ _ _ hsent =>
    rcases split_concat (hsent.symm.trans hsplit) with ⟨-, hx, -⟩ | ⟨after', -, hold⟩
    · cases hx
    · exact hb before callback after' hold
  | resume _ hsent =>
    rcases List.append_eq_append_iff.mp (hsent.symm.trans hsplit) with
      ⟨block, rfl, hblock⟩ | ⟨block, hold, hblock⟩
    · cases block with
      | nil => cases hblock
      | cons x block =>
        obtain ⟨rfl, hcalled⟩ := List.cons.inj hblock
        obtain ⟨called, rest, -, rfl, -⟩ := List.map_eq_append_iff.mp hcalled
        exact ⟨b.sent, _, called, rfl⟩
    · cases block with
      | nil => cases hblock
      | cons x block =>
        obtain ⟨rfl, -⟩ := List.cons.inj hblock
        exact hb before callback block hold

/-- In every state of a run, however the threads take their turns: a thread
that the client takes for suspended is, each resume notification is for the
suspend notification before it, no suspension is notified twice, and each
callback is called once, in the order in which they were added and right after
a resume notification, but for those that wait for the next one. -/
theorem told_of_run (calls : List Call) (b : Behavior) (h : exec call {} calls = some b) :
    (∀ before time threadId stopReason,
      b.notices = before ++ [.suspend time threadId stopReason] → threadId ∈ b.suspended) ∧
    (∀ before threadId after, b.notices = before ++ .resume threadId :: after →
      ∃ first time threadId stopReason, before = first ++ [.suspend time threadId stopReason]) ∧
    (b.sent.filterMap Notice.time?).Pairwise (· < ·) ∧
    b.sent.filterMap Notice.callback? ++ b.callbacks = calls.filterMap Call.callback? ∧
    InBlocks b := by
  have htold := told_run h
  have hblocks : Ordered b ∧ InBlocks b :=
    Run.exec_keeps (fun b => Ordered b ∧ InBlocks b)
      (fun hI hc => ⟨hI.1.next hc, hI.2.next hI.1 hc⟩)
      ⟨told_start.ordered, fun before _ _ hsplit => by simp at hsplit⟩ h
  exact ⟨fun _ _ _ _ => htold.suspended, fun _ _ _ => htold.resume, htold.times,
    callbacks_run told_start.ordered h, hblocks.2⟩

/-- Two threads stop, the client continues, and both go on. -/
def stopAndContinue : List Call :=
  [.incrementSuspendTime, .onThreadSuspend "1" 111, .onThreadSuspend "2" CMD_THREAD_SUSPEND,
    .addOnResumedCallback 0, .onThreadResume "2", .incrementSuspendTime, .onPause, .timeout 0]

theorem told_of_run_stopAndContinue : ∃ b, exec call {} stopAndContinue = some b ∧
    (∀ before time threadId stopReason,
      b.notices = before ++ [.suspend time threadId stopReason] → threadId ∈ b.suspended) ∧
    (∀ before threadId after, b.notices = before ++ .resume threadId :: after →
      ∃ first time threadId stopReason, before = first ++ [.suspend time threadId stopReason]) ∧
    (b.sent.filterMap Notice.time?).Pairwise (· < ·) ∧
    b.sent.filterMap Notice.callback? ++ b.callbacks = stopAndContinue.filterMap Call.callback? ∧
    InBlocks b :=
  ⟨_, rfl, told_of_run stopAndContinue _ rfl⟩

-- ---------------------------------------------------------------------------
-- What is told of a stop
-- ---------------------------------------------------------------------------

def Since (b b' : Behavior) : Prop :=
  ∃ since, b'.sent = b.sent ++ since ∧ ∃ time threadId stopReason, .suspend time threadId stopReason ∈ since

theorem since_call (ho : Ordered b) (h : call b c = some b') :
    b.sent <+: b'.sent ∧ (Since b b' ∨
      b'.lastSuspendNotificationTime = b.lastSuspendNotificationTime) := by
  cases puts_of_call ho h with
  | nothing hsent _ hs => exact ⟨hsent ▸ List.prefix_rfl, .inr hs⟩
  | suspend _ _ _ hsent =>
    exact ⟨⟨_, hsent.symm⟩, .inl ⟨_, hsent, _, _, _, List.mem_singleton_self _⟩⟩
  | resume _ hsent _ hs => exact ⟨⟨_, hsent.symm⟩, .inr hs⟩

theorem since_run (ho : Ordered b) (h : exec call b calls = some b') :
    b.sent <+: b'.sent ∧ b.suspendTimeRequest ≤ b'.suspendTimeRequest ∧ (Since b b' ∨
      b'.lastSuspendNotificationTime = b.lastSuspendNotificationTime) := by
  induction calls generalizing b with
  | nil =>
    cases h
    exact ⟨List.prefix_rfl, Int.le_refl _, .inr rfl⟩
  | cons c calls ih =>
    obtain ⟨b₁, hc, hcalls⟩ := exec_cons.mp h
    have hrequest : b.suspendTimeRequest ≤ b₁.suspendTimeRequest := by
      have := ho.request
      have := (request_of_call hc).1
      omega
    obtain ⟨hstarts, hsince⟩ := since_call ho hc
    obtain ⟨hstarts', hrequest', hsince'⟩ := ih (ho.next hc) hcalls
    refine ⟨hstarts.trans hstarts', Int.le_trans hrequest hrequest', ?_⟩
    obtain ⟨rest, hrest⟩ := hstarts
    obtain ⟨rest', hrest'⟩ := hstarts'
    rcases hsince with ⟨since, hsent, time, threadId, stopReason, hmem⟩ | hs
    · refine .inl ⟨since ++ rest', ?_, time, threadId, stopReason, List.mem_append_left _ hmem⟩
      rw [← hrest', hsent, List.append_assoc]
    · rcases hsince' with ⟨since, hsent, time, threadId, stopReason, hmem⟩ | hs'
      · refine .inl ⟨rest ++ since, ?_, time, threadId, stopReason, List.mem_append_right _ hmem⟩
        rw [hsent, ← hrest, List.append_assoc]
      · exact .inr (hs'.trans hs)

/-- What a thread that stops for good reason, or the timeout of a pause, has
the client told of. -/
def Stops (b b' : Behavior) : Call → Prop
  | .onThreadSuspend _ stopReason => stopReason ≠ CMD_THREAD_SUSPEND ∨ b'.pauseRequested = true
  | .timeout n => b'.suspended ≠ [] ∧ ∃ time, b'.timeouts[n]? = some time ∧ b.suspendTimeRequest < time
  | _ => False

theorem lt_of_stops (hc : Stops b b' c) (h : call b' c = some b'')
    (hlt : b.suspendTimeRequest < b'.suspendTimeRequest) :
    b.suspendTimeRequest < b''.lastSuspendNotificationTime := by
  cases c with
  | onThreadSuspend threadId stopReason =>
    cases h
    unfold Behavior.onThreadSuspend
    dsimp only
    have hcond : stopReason ≠ CMD_THREAD_SUSPEND ∨ b'.pauseRequested = true := hc
    rw [if_pos hcond]
    split
    · exact hlt
    · dsimp only
      omega
  | timeout n =>
    obtain ⟨hne, time, htime, hlt'⟩ := hc
    simp only [call, htime, Option.map_some, Option.some.injEq] at h
    subst h
    unfold Behavior.notifyAfterTimeout
    split
    · next hnil => exact absurd hnil hne
    · split
      · exact hlt'
      · dsimp only at *
        omega
  | _ => cases hc

/-- A thread that stops at a breakpoint or for a pause, and a pause whose
timeout fires while some thread is suspended, are not passed over in silence:
since the time was incremented for it, the client was told that a thread is
suspended. -/
theorem since_of_stops (before between : List Call) (c : Call) (b b' b'' : Behavior)
    (h : exec call {} before = some b)
    (hbetween : exec call b (.incrementSuspendTime :: between) = some b')
    (hc : Stops b b' c) (h' : call b' c = some b'') : Since b b'' := by
  have ho : Ordered b := (told_run h).ordered
  obtain ⟨b₁, hfirst, hrest⟩ := exec_cons.mp hbetween
  have ho₁ : Ordered b₁ := ho.next hfirst
  have hrequest : b₁.suspendTimeRequest = b.nextRequestTime := by
    cases hfirst
    rfl
  obtain ⟨-, hle, -⟩ := since_run ho₁ hrest
  have hlt := lt_of_stops hc h' (by have := ho.request; omega)
  have hall : exec call b (.incrementSuspendTime :: between ++ [c]) = some b'' := by
    rw [exec_append, hbetween]
    exact exec_cons.mpr ⟨b'', h', rfl⟩
  obtain ⟨-, -, hsince | hs⟩ := since_run ho hall
  · exact hsince
  · have := ho.suspend
    omega

theorem since_of_stops_pause : ∃ b b' b'', exec call {} [.onThreadSuspend "1" CMD_THREAD_SUSPEND] = some b ∧
    exec call b [.incrementSuspendTime, .onPause] = some b' ∧ call b' (.timeout 0) = some b'' ∧
    Since b b'' :=
  ⟨_, _, _, rfl, rfl, rfl, since_of_stops [.onThreadSuspend "1" CMD_THREAD_SUSPEND] [.onPause]
    (.timeout 0) _ _ _ rfl rfl ⟨by decide, 1, rfl, by decide⟩ rfl⟩

end Debugpy.Pydevd
