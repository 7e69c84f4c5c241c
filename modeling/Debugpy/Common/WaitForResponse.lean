import Debugpy.Common.Callbacks

/-!
# Response handlers and waiters

The parser thread sets a response, enqueues the callbacks registered for it
and wakes the threads in `wait_for_response` in one critical section; the
callbacks are called later, by the handler thread. A waiter returns after them,
as `handlers_first_of_inTime` says, if the handler thread is through with what
was enqueued for the response by the time the waiter finds it; else it can
return ahead of them.
-/

namespace Debugpy.WaitForResponse

open RunHandlers

/-- A thread in `wait_for_response`. -/
inductive Waiter where
  | absent
  | blocked (key : Int) (notified : Bool)
  /-- It has found the response, and released the lock. -/
  | leaving (key : Int)

structure State where
  run : RunHandlers.State
  waiters : Nat → Waiter := fun _ => .absent
  /-- The callbacks that were registered while there was no response. -/
  early : List (Int × Nat) := []

inductive Label where
  /-- A step of the thread that runs handlers. -/
  | handlers (t : Nat) (l : ThreadLabel)
  | channel (l : Matching.Label)
  | close
  | wait (w : Nat) (key : Int)
  | wake (w : Nat)
  /-- `wait_for_response` returns, or raises the body of the response. -/
  | leave (w : Nat)

def State.response? (s : State) (key : Int) : Option Response := s.run.matching.response? key

/-- The test of the loop. -/
def State.check (s : State) (key : Int) : Waiter :=
  if (s.response? key).isSome then .leaving key else .blocked key false

def State.setWaiter (s : State) (w : Nat) (waiter : Waiter) : State :=
  { s with waiters := Function.update s.waiters w waiter }

def Waiter.notify : Waiter → Waiter
  | .blocked key _ => .blocked key true
  | waiter => waiter

/-- The callbacks that were registered ahead of the response. -/
def State.inTime (s : State) (new : List (Int × Nat)) : List (Int × Nat) :=
  new.filter fun x => (s.response? x.1).isNone

def step (s : State) : Label → Option State
  | .handlers t l => (threadStep s.run t l).map fun run => { s with run }
  | .channel l => do
    let new ← registers s.run.matching l
    let run ← channelStep s.run l
    return {
      run
      waiters w := if run.queue.length = s.run.queue.length then s.waiters w
        else (s.waiters w).notify
      early := s.early ++ s.inTime new }
  | .close => some { s with run := s.run.close }
  | .wait w key => match s.waiters w with
    | .absent =>
      if (s.run.matching.channel.requests key).isSome then some (s.setWaiter w (s.check key))
      else none
    | _ => none
  | .wake w => match s.waiters w with
    | .blocked key true => some (s.setWaiter w (s.check key))
    | _ => none
  | .leave w => match s.waiters w with
    | .leaving _ => some (s.setWaiter w .absent)
    | _ => none

-- ---------------------------------------------------------------------------
-- The rule
-- ---------------------------------------------------------------------------

/-- Whoever returns does so after the callbacks that were registered before
the response was set. -/
def HandlersFirst (s : State) : Label → Prop
  | .leave w => match s.waiters w with
    | .leaving key => of key s.early <+: of key s.run.called
    | .absent | .blocked .. => True
  | _ => True

/-- The handlers that have callbacks of a request. -/
def entries (key : Int) (hs : List Handler) : List Handler :=
  hs.filter fun h => keyOf h == key && !(callbacksOf h).isEmpty

/-- The handler thread is through with the first handler of the request. -/
def Through (s : RunHandlers.State) (key : Int) : Prop :=
  match entries key s.started with
  | [] => False
  | [_] => s.active.callbacks key = []
  | _ :: _ :: _ => True

/-- There is nothing to wait for but the response. -/
def Ready (s : State) (key : Int) : Prop := of key s.early = [] ∨ Through s.run key

/-- The condition on a step: a thread that finds the response when it enters
`wait_for_response` or is woken finds it `Ready`. -/
def InTime (s : State) : Label → Prop
  | .wait _ key => (s.response? key).isSome → Ready s key
  | .wake w => match s.waiters w with
    | .blocked key _ => (s.response? key).isSome → Ready s key
    | .absent | .leaving _ => True
  | .handlers .. | .channel _ | .close | .leave _ => True

/-- The thread tests for the response. -/
def Checks (w : Nat) : Label → Prop
  | .wait w' _ | .wake w' => w' = w
  | .handlers .. | .channel _ | .close | .leave _ => False

instance HandlersFirst.decidable : ∀ s l, Decidable (HandlersFirst s l)
  | s, .leave w => match h : s.waiters w with
    | .leaving key => decidable_of_iff (of key s.early <+: of key s.run.called)
      (by simp only [HandlersFirst, h])
    | .absent | .blocked .. => isTrue (by simp only [HandlersFirst, h])
  | _, .handlers .. | _, .channel _ | _, .close | _, .wait .. | _, .wake _ => isTrue trivial

instance Through.decidable (s : RunHandlers.State) (key : Int) : Decidable (Through s key) :=
  match h : entries key s.started with
  | [] => isFalse (by simp [Through, h])
  | [_] => decidable_of_iff (s.active.callbacks key = []) (by simp [Through, h])
  | _ :: _ :: _ => isTrue (by simp [Through, h])

instance Ready.decidable (s : State) (key : Int) : Decidable (Ready s key) :=
  inferInstanceAs (Decidable (_ ∨ _))

instance InTime.decidable : ∀ s l, Decidable (InTime s l)
  | s, .wait _ key => inferInstanceAs (Decidable ((s.response? key).isSome → Ready s key))
  | s, .wake w => match h : s.waiters w with
    | .blocked key _ => decidable_of_iff ((s.response? key).isSome → Ready s key)
      (by simp only [InTime, h])
    | .absent | .leaving _ => isTrue (by simp only [InTime, h])
  | _, .handlers .. | _, .channel _ | _, .close | _, .leave _ => isTrue trivial

-- ---------------------------------------------------------------------------
-- The handlers of a request
-- ---------------------------------------------------------------------------

section
variable {m m' : Matching.State} {key : Int} {hs : List Handler}

theorem entries_append (hs hs' : List Handler) :
    entries key (hs ++ hs') = entries key hs ++ entries key hs' := List.filter_append ..

theorem mem_entries {h : Handler} : h ∈ entries key hs ↔
    h ∈ hs ∧ keyOf h = key ∧ callbacksOf h ≠ [] := by
  simp [entries]

theorem callbacksIn_eq (hs : List Handler) :
    callbacksIn key hs = (entries key hs).flatMap callbacksOf := by
  induction hs with
  | nil => rfl
  | cons h hs ih =>
    by_cases hkey : keyOf h = key <;> by_cases hnil : callbacksOf h = [] <;>
      simp_all [entries]

theorem queue_length_step {l : Matching.Label} (hl : ∀ text, l ≠ .noMoreMessages text)
    (hi : Matching.Inv m) (h : Matching.step m l = some m') :
    m'.channel.handlerQueue.length ≤ m.channel.handlerQueue.length + 1 := by
  cases l with
  | draw command =>
    cases h
    exact Nat.le_succ _
  | make key | insert key | abandon key | fail =>
    simp only [Matching.step] at h
    split at h <;> cases h
    exact Nat.le_succ _
  | act a =>
    obtain ⟨ha, rfl⟩ := Matching.step_act h
    cases a with
    | sendRequest command => exact absurd rfl (ha command)
    | sendOther | close => exact Nat.le_succ _
    | takeBatch => exact Nat.zero_le _
    | onResponse key callback =>
      simp only [Channel.act, Channel.onResponse]
      split
      · exact Nat.le_succ _
      · split <;> simp [Channel.putRequest, Channel.enqueueHandlers]
  | receive value =>
    obtain ⟨-, ⟨handler, -, rfl⟩ | ⟨requestSeq, r, n, -, -, rfl⟩ | rfl⟩ := Matching.step_receive h
    · simp [Channel.enqueueHandlers]
    · exact Nat.le_succ _
    · exact Nat.le_succ _
  | settle =>
    obtain ⟨requestSeq, known, r, hset, hknown, hunknown⟩ := Matching.step_settle h
    cases known with
    | true =>
      cases hknown rfl
      simp only [Matching.setResponse_queue, List.length_append]
      cases m.channel.requests r.requestSeq <;> simp
    | false =>
      obtain ⟨e, -, rfl⟩ := hunknown rfl (hi.table.settling _ _ _ hset).1
      simp [Channel.enqueueHandlers]
  | noMoreMessages text => exact absurd rfl (hl text)

theorem entries_cleanUp (f : Int → Option Handler) (hf : ∀ k h, f k = some h → keyOf h = k)
    (keys : List Int) (hnodup : keys.Nodup) :
    (entries key (keys.filterMap f)).length ≤ if key ∈ keys then 1 else 0 := by
  induction keys with
  | nil => exact Nat.le_refl 0
  | cons k keys ih =>
    obtain ⟨hnot, hnodup⟩ := List.nodup_cons.mp hnodup
    have ih := ih hnodup
    have hcons : (k :: keys).filterMap f = (f k).toList ++ keys.filterMap f := by
      cases hk : f k <;> simp [hk]
    rw [hcons, entries_append, List.length_append]
    have hone : (entries key (f k).toList).length ≤ 1 :=
      (List.length_filter_le ..).trans (by cases f k <;> simp)
    by_cases hk : key = k
    · subst hk
      rw [if_neg hnot] at ih
      simpa using Nat.add_le_add hone ih
    · have hnil : entries key (f k).toList = [] := by
        refine List.eq_nil_iff_forall_not_mem.mpr fun h hmem => ?_
        obtain ⟨hin, hkey, -⟩ := mem_entries.mp hmem
        exact hk (hkey ▸ hf k h (by simpa using hin))
      simpa [hnil, hk] using ih

theorem entries_step {l : Matching.Label} (hi : Matching.Inv m) (h : Matching.step m l = some m')
    (hq : m'.channel.handlerQueue = m.channel.handlerQueue ++ hs) :
    (entries key hs).length ≤ 1 := by
  by_cases hl : ∀ text, l ≠ .noMoreMessages text
  · have hle := queue_length_step hl hi h
    rw [hq, List.length_append] at hle
    exact (List.length_filter_le ..).trans (Nat.le_of_add_le_add_left hle)
  · simp only [ne_eq, not_forall, not_not] at hl
    obtain ⟨text, rfl⟩ := hl
    obtain ⟨-, r, c', hclean, rfl⟩ := Matching.step_noMoreMessages h hi.table.nodup
    simp only [Channel.enqueueHandlers, hclean.queue, List.append_assoc,
      List.append_cancel_left_eq] at hq
    rw [← hq, entries_append, List.length_append]
    let f (k : Int) : Option Handler := (m.channel.requests k).map fun request =>
      .responses (r k) request.responseHandlers
    have hf : ∀ k h, f k = some h → keyOf h = k := by
      intro k h hk
      obtain ⟨request, -, rfl⟩ := Option.map_eq_some_iff.mp hk
      exact (hclean.made k).1
    have hle : (entries key (m.channel.sentRequests.filterMap f)).length ≤
        if key ∈ m.channel.sentRequests then 1 else 0 := entries_cleanUp f hf _ hi.table.nodup
    have hlast : (entries key [.disconnect]).length = 0 := by simp [entries, callbacksOf]
    rw [hlast]
    exact hle.trans (by split <;> simp)

end

-- ---------------------------------------------------------------------------
-- Invariant
-- ---------------------------------------------------------------------------

/-- Early callbacks wait for the response, and are then with the first handler
of their request. -/
structure Inv (s : State) : Prop where
  serial : Serial s.run
  answered : ∀ key, s.response? key ≠ none → waiting s.run.matching key = []
  unanswered : ∀ key, s.response? key = none → waiting s.run.matching key = of key s.early
  first : ∀ key, s.response? key ≠ none → of key s.early ≠ [] →
    ∃ h hs, entries key s.run.matching.channel.enqueued = h :: hs ∧ callbacksOf h = of key s.early
  leaving : ∀ w key, s.waiters w = .leaving key → s.response? key ≠ none

section
variable {s s' : State} {key : Int}

theorem of_inTime (s : State) (new : List (Int × Nat)) (key : Int) :
    of key (s.inTime new) = if s.response? key = none then of key new else [] := by
  induction new with
  | nil => simp [State.inTime]
  | cons x new ih =>
    have hcons : s.inTime (x :: new) =
        (if s.response? x.1 = none then [x] else []) ++ s.inTime new := by
      by_cases hx : s.response? x.1 = none <;> simp [State.inTime, hx]
    rw [hcons, of_append, ih, show of key (x :: new) = of key [x] ++ of key new from
      of_append key [x] new]
    by_cases hkey : x.1 = key
    · subst hkey
      by_cases hx : s.response? x.1 = none <;> simp [hx]
    · have hx : of key [x] = [] := by simp [of, hkey]
      by_cases hx' : s.response? x.1 = none <;> simp [hx', hx]

theorem Inv.entries_nil (hi : Inv s) (h : s.response? key = none) :
    entries key s.run.matching.channel.enqueued = [] := by
  refine List.eq_nil_iff_forall_not_mem.mpr fun handler hmem => ?_
  obtain ⟨hmem, hkey, hne⟩ := mem_entries.mp hmem
  exact hi.serial.answered handler hmem hne (hkey ▸ h)

theorem inv_channel (hi : Inv s) {l : Matching.Label} (h : step s (.channel l) = some s') :
    Inv s' := by
  simp only [step, Option.bind_eq_bind, Option.bind_eq_some_iff] at h
  obtain ⟨new, hnew, run, hrun, h⟩ := h
  cases h
  have hm := channelStep_matching hrun
  have hkept : ∀ key, s.response? key ≠ none → run.matching.response? key ≠ none :=
    fun key => answered_step hi.serial.matching hm
  obtain ⟨hs, hg⟩ := step_grows hi.serial.matching hnew hm
  have hone : ∀ key, (entries key hs).length ≤ 1 := fun key =>
    entries_step hi.serial.matching hm hg.queue
  have henqueued : run.matching.channel.enqueued = s.run.matching.channel.enqueued ++ hs := by
    rw [Channel.enqueued, hg.taken, hg.queue, Channel.enqueued, List.append_assoc]
  have hanswered := hg.idle hi.answered
  refine ⟨serial_channel hi.serial hrun, hanswered, fun key hnone => ?_, fun key hsome hne => ?_,
    fun w key hw => ?_⟩
  · have hnone' : s.response? key = none := by
      by_contra hne
      exact hkept key hne hnone
    have hnil : callbacksIn key hs = [] := by
      rw [callbacksIn_eq]
      refine List.flatMap_eq_nil_iff.mpr fun handler hmem => ?_
      obtain ⟨hmem, hkey, hne⟩ := mem_entries.mp hmem
      exact absurd (hkey ▸ hnone) (hg.answered handler hmem hne)
    have hmoved := hg.moved key
    rw [hnil, List.nil_append, hi.unanswered key hnone'] at hmoved
    simp [hmoved, of_inTime, hnone']
  · dsimp only at hne ⊢
    rw [of_append, of_inTime] at hne ⊢
    rw [henqueued, entries_append]
    by_cases hnone : s.response? key = none
    · rw [if_pos hnone] at hne ⊢
      have hmoved := hg.moved key
      rw [hanswered key hsome, List.append_nil, hi.unanswered key hnone, callbacksIn_eq] at hmoved
      rw [hi.entries_nil hnone, List.nil_append]
      have hone := hone key
      generalize entries key hs = handlers at hmoved hone
      cases handlers with
      | nil => exact absurd hmoved.symm hne
      | cons h rest =>
        obtain rfl : rest = [] := List.eq_nil_of_length_eq_zero (Nat.le_zero.mp (Nat.le_of_succ_le_succ hone))
        exact ⟨h, [], rfl, by simpa using hmoved⟩
    · rw [if_neg hnone, List.append_nil] at hne ⊢
      obtain ⟨h, rest, hfirst, hcallbacks⟩ := hi.first key hnone hne
      exact ⟨h, rest ++ entries key hs, by rw [hfirst, List.cons_append], hcallbacks⟩
  · dsimp only at hw
    refine hkept key (hi.leaving w key ?_)
    split at hw
    · exact hw
    · cases hwaiter : s.waiters w <;> simp_all [Waiter.notify]

theorem Inv.of_same (hi : Inv s) (hserial : Serial s'.run)
    (hresp : ∀ key, s'.response? key = s.response? key)
    (hwaiting : ∀ key, waiting s'.run.matching key = waiting s.run.matching key)
    (henqueued : s'.run.matching.channel.enqueued = s.run.matching.channel.enqueued)
    (hearly : s'.early = s.early)
    (hleaving : ∀ w key, s'.waiters w = .leaving key → s.response? key ≠ none) : Inv s' := by
  refine ⟨hserial, ?_, ?_, ?_, ?_⟩
  all_goals simp only [hresp, hwaiting, henqueued, hearly]
  · exact hi.answered
  · exact hi.unanswered
  · exact hi.first
  · exact hleaving

theorem inv_handlers (hi : Inv s) {l : ThreadLabel} (h : step s (.handlers t l) = some s') :
    Inv s' := by
  simp only [step, Option.map_eq_some_iff] at h
  obtain ⟨run, hrun, rfl⟩ := h
  have hserial := serial_thread hi.serial hrun
  rcases (threadStep_matching hrun).2 with hsame | htake
  · refine hi.of_same hserial (fun key => ?_) (fun key => ?_) ?_ rfl hi.leaving
    · simp only [State.response?, hsame]
    · simp only [hsame]
    · simp only [hsame]
  · have htake := Option.some.inj htake
    refine hi.of_same hserial (fun key => ?_) (fun key => ?_) ?_ rfl hi.leaving
    · simp only [State.response?, ← htake]
      rfl
    · simp only [← htake]
      rfl
    · simp [← htake, Channel.act, Channel.enqueued]

theorem check_leaving {key' : Int} (h : s.check key = .leaving key') :
    s.response? key' ≠ none := by
  unfold State.check at h
  split at h <;> cases h
  exact Option.isSome_iff_ne_none.mp ‹_›

theorem Inv.setWaiter (hi : Inv s) (w : Nat) {waiter : Waiter}
    (h : ∀ key, waiter = .leaving key → s.response? key ≠ none) : Inv (s.setWaiter w waiter) := by
  refine hi.of_same hi.serial (fun _ => rfl) (fun _ => rfl) rfl rfl fun w' key hw => ?_
  by_cases heq : w' = w
  · subst heq
    exact h key (by simpa [State.setWaiter] using hw)
  · exact hi.leaving w' key (by simpa [State.setWaiter, heq] using hw)

theorem inv_step {l : Label} (hi : Inv s) (h : step s l = some s') : Inv s' := by
  cases l with
  | handlers t l => exact inv_handlers hi h
  | channel l => exact inv_channel hi h
  | close =>
    cases h
    exact hi.of_same (serial_close hi.serial) (fun _ => rfl) (fun _ => rfl) rfl rfl hi.leaving
  | wait w key =>
    simp only [step] at h
    split at h
    · split at h <;> cases h
      exact hi.setWaiter w fun _ => check_leaving
    · cases h
  | wake w =>
    simp only [step] at h
    split at h <;> cases h
    exact hi.setWaiter w fun _ => check_leaving
  | leave w =>
    simp only [step] at h
    split at h <;> cases h
    exact hi.setWaiter w nofun

theorem inv_new (name : String) : Inv { run := { matching := { channel := { name } } } } where
  serial := serial_new name
  answered := fun _ _ => rfl
  unanswered := fun _ _ => rfl
  first := fun _ h => absurd rfl h
  leaving := nofun

-- ---------------------------------------------------------------------------
-- Through with the first
-- ---------------------------------------------------------------------------

theorem called_of_more {run : RunHandlers.State} (hcalls : Calls run run.active)
    (hstarted : entries key run.started = h :: h' :: more) :
    callbacksOf h <+: of key run.called := by
  have hpre : ∀ pre, entries key pre ≠ [] → entries key pre <+: entries key run.started →
      callbacksOf h <+: callbacksIn key pre := by
    intro pre hne hle
    rw [hstarted] at hle
    obtain ⟨h₀, pre', hpre⟩ := List.exists_cons_of_ne_nil hne
    rw [hpre] at hle
    obtain ⟨rfl, -⟩ := List.cons_prefix_cons.mp hle
    rw [callbacksIn_eq, hpre]
    exact List.prefix_append ..
  have hall : callbacksOf h <+: callbacksIn key run.started :=
    hpre run.started (by simp [hstarted]) List.prefix_rfl
  cases hactive : run.active with
  | handling closed handler callbacks rest =>
    rw [hactive] at hcalls
    obtain ⟨pre, done, hsplit, -, hcalled⟩ := hcalls
    rw [hcalled]
    refine (hpre pre (fun hnil => ?_) ?_).trans (List.prefix_append ..)
    · have hone : (entries key [handler]).length ≤ 1 := List.length_filter_le ..
      rw [hsplit, entries_append, hnil, List.nil_append] at hstarted
      simp [hstarted] at hone
    · rw [hsplit, entries_append]
      exact List.prefix_append ..
  | _ =>
    rw [hactive] at hcalls
    rwa [hcalls key]

theorem first_iff_through {run : RunHandlers.State} {early : List Nat} (hs : Serial run)
    (hne : early ≠ []) (hfirst : entries key run.matching.channel.enqueued = h :: hs')
    (hcallbacks : callbacksOf h = early) : early <+: of key run.called ↔ Through run key := by
  have hcalled := hs.calls.called_append key
  rw [callbacksIn_eq] at hcalled
  rw [hs.enqueued_eq, entries_append] at hfirst
  unfold Through
  match hstarted : entries key run.started with
  | [] =>
    rw [hstarted] at hcalled
    have hnil := (List.append_eq_nil_iff.mp hcalled).1
    simp [hnil, hne]
  | [h'] =>
    rw [hstarted] at hcalled hfirst
    obtain ⟨rfl, -⟩ := List.cons.inj hfirst
    simp only [List.flatMap_cons, List.flatMap_nil, List.append_nil, hcallbacks] at hcalled
    constructor
    · intro hpre
      have hlen := hpre.length_le
      rw [← hcalled, List.length_append] at hlen
      exact List.eq_nil_of_length_eq_zero (by omega)
    · intro (hnil : run.active.callbacks key = [])
      rw [hnil, List.append_nil] at hcalled
      exact hcalled ▸ List.prefix_rfl
  | h' :: h'' :: more =>
    rw [hstarted] at hfirst
    obtain ⟨rfl, -⟩ := List.cons.inj hfirst
    exact iff_of_true (hcallbacks ▸ called_of_more hs.calls hstarted) trivial

theorem called_iff_ready (hi : Inv s) (hresp : s.response? key ≠ none) :
    of key s.early <+: of key s.run.called ↔ Ready s key := by
  unfold Ready
  by_cases hnil : of key s.early = []
  · simp [hnil]
  · obtain ⟨h, hs, hfirst, hcallbacks⟩ := hi.first key hresp hnil
    simp [hnil, first_iff_through hi.serial hnil hfirst hcallbacks]

-- ---------------------------------------------------------------------------
-- From the test to the return
-- ---------------------------------------------------------------------------

/-- The waiters that have found their response do not outrun its callbacks. -/
def Caught (s : State) : Prop :=
  ∀ w key, s.waiters w = .leaving key → of key s.early <+: of key s.run.called

theorem of_mono {xs ys : List (Int × Nat)} (h : xs <+: ys) : of key xs <+: of key ys := by
  obtain ⟨rest, rfl⟩ := h
  rw [of_append]
  exact List.prefix_append ..

theorem threadStep_called {run run' : RunHandlers.State} {l : ThreadLabel}
    (h : threadStep run t l = some run') : run.called <+: run'.called := by
  have hsnapshot : ∀ closed, run.called <+: (snapshot run t closed).called := by
    intro closed
    unfold snapshot
    split <;> exact List.prefix_rfl
  unfold threadStep at h
  split at h
  · cases h
    exact List.prefix_rfl
  · split at h <;> cases h
    exact List.prefix_rfl
  · split at h <;> cases h
    · exact List.prefix_rfl
    · exact hsnapshot _
  · cases h
    exact hsnapshot false
  · cases h
    exact List.prefix_rfl
  · split at h <;> cases h <;> exact List.prefix_rfl
  · cases h
    exact List.prefix_append ..
  · cases h
    exact List.prefix_rfl
  · cases h

theorem channelStep_called {run run' : RunHandlers.State} {l : Matching.Label}
    (h : channelStep run l = some run') : run'.called = run.called := by
  obtain ⟨new, m, -, -, rfl⟩ := channelStep_eq h
  split
  · rfl
  · exact (notifyAll_same _).2.2.1

theorem Caught.setWaiter (hc : Caught s) (w : Nat) {waiter : Waiter}
    (h : ∀ key, waiter = .leaving key → of key s.early <+: of key s.run.called) :
    Caught (s.setWaiter w waiter) := by
  intro w' key hw
  by_cases heq : w' = w
  · subst heq
    exact h key (by simpa [State.setWaiter] using hw)
  · exact hc w' key (by simpa [State.setWaiter, heq] using hw)

theorem Caught.check (hi : Inv s) (hc : Caught s) (w : Nat)
    (hok : (s.response? key).isSome → Ready s key) : Caught (s.setWaiter w (s.check key)) := by
  refine hc.setWaiter w fun key' h => ?_
  have hresp := check_leaving h
  unfold State.check at h
  split at h <;> cases h
  exact (called_iff_ready hi hresp).mpr (hok ‹_›)

theorem caught_step {l : Label} (hi : Inv s) (hc : Caught s) (hok : InTime s l)
    (h : step s l = some s') : Caught s' := by
  cases l with
  | handlers t l =>
    simp only [step, Option.map_eq_some_iff] at h
    obtain ⟨run, hrun, rfl⟩ := h
    exact fun w key hw => (hc w key hw).trans (of_mono (threadStep_called hrun))
  | channel l =>
    simp only [step, Option.bind_eq_bind, Option.bind_eq_some_iff] at h
    obtain ⟨new, -, run, hrun, h⟩ := h
    cases h
    intro w key hw
    have hleaving : s.waiters w = .leaving key := by
      dsimp only at hw
      split at hw
      · exact hw
      · cases hwaiter : s.waiters w <;> simp_all [Waiter.notify]
    -- The response is set, so that no more callbacks are in time.
    dsimp only
    rw [of_append, of_inTime, if_neg (hi.leaving w key hleaving), List.append_nil,
      channelStep_called hrun]
    exact hc w key hleaving
  | close =>
    cases h
    exact hc
  | wait w key =>
    simp only [step] at h
    split at h
    · split at h <;> cases h
      exact hc.check hi w hok
    · cases h
  | wake w =>
    simp only [step] at h
    split at h <;> cases h
    rename_i hw
    refine hc.check hi w ?_
    simpa only [InTime, hw] using hok
  | leave w =>
    simp only [step] at h
    split at h <;> cases h
    exact hc.setWaiter w nofun

theorem handlersFirst_of_caught (hc : Caught s) (l : Label) : HandlersFirst s l := by
  cases l with
  | leave w =>
    simp only [HandlersFirst]
    cases hw : s.waiters w with
    | leaving key => exact hc w key hw
    | absent | blocked => trivial
  | _ => trivial

theorem check_early (hi : Inv s) (hresp : (s.response? key).isSome) (hnot : ¬ Ready s key)
    (w : Nat) : (step (s.setWaiter w (s.check key)) (.leave w)).isSome ∧
      ¬ HandlersFirst (s.setWaiter w (s.check key)) (.leave w) := by
  have hw : (s.setWaiter w (s.check key)).waiters w = .leaving key := by
    simp [State.setWaiter, State.check, hresp]
  refine ⟨by simp [step, hw], fun hfirst => hnot ?_⟩
  simp only [HandlersFirst, hw] at hfirst
  exact (called_iff_ready hi (Option.isSome_iff_ne_none.mp hresp)).mp hfirst

theorem returns_early {l : Label} (hi : Inv s) (hl : Checks w l) (h : step s l = some s')
    (hnot : ¬ InTime s l) : (step s' (.leave w)).isSome ∧ ¬ HandlersFirst s' (.leave w) := by
  cases l with
  | wait w' key =>
    obtain rfl : w' = w := hl
    simp only [InTime, Classical.not_imp] at hnot
    simp only [step] at h
    split at h
    · split at h <;> cases h
      exact check_early hi hnot.1 hnot.2 w'
    · cases h
  | wake w' =>
    obtain rfl : w' = w := hl
    simp only [step] at h
    split at h <;> cases h
    rename_i hw
    simp only [InTime, hw, Classical.not_imp] at hnot
    exact check_early hi hnot.1 hnot.2 w'
  | _ => exact hl.elim

/-- In every run in which each thread that finds its response finds the
handler thread through with what was registered before it, each thread
returns after these callbacks. After a test that comes too early, the thread
can return ahead of them. -/
theorem handlers_first_of_inTime (name : String) (labels : List Label) :
    (Run.Meets step InTime { run := { matching := { channel := { name } } } } labels →
      Run.Meets step HandlersFirst { run := { matching := { channel := { name } } } } labels) ∧
    ∀ s, Run.exec step { run := { matching := { channel := { name } } } } labels = some s →
      ∀ w l s', Checks w l → step s l = some s' → ¬ InTime s l →
        (step s' (.leave w)).isSome ∧ ¬ HandlersFirst s' (.leave w) := by
  constructor
  · exact fun h => h.of_invariant (I := fun s => Inv s ∧ Caught s)
      (fun hI hok hs => ⟨inv_step hI.1 hs, caught_step hI.1 hI.2 hok hs⟩)
      (fun hI _ => handlersFirst_of_caught hI.2 _) ⟨inv_new name, nofun⟩
  · intro s hrun w l s' hl h hnot
    have hi : Inv s := Run.exec_keeps Inv (fun hi hs => inv_step hi hs) (inv_new name) hrun
    exact returns_early hi hl h hnot

end

/-- A handler is registered, and a thread waits when the response is read. -/
def waitThreads : List Label :=
  [.channel (.draw "threads"), .channel (.make 1), .channel (.insert 1),
    .channel (.act (.onResponse 1 7)), .wait 0 1, .channel (.receive Matching.threadsResponse),
    .channel .settle]

/-- The waiter is woken when the handler thread has called the handler. -/
def handlerFirst : List Label :=
  waitThreads ++ [.handlers 0 .readClosed, .handlers 0 .lock, .handlers 0 .next, .handlers 0 .call,
    .wake 0, .leave 0]

theorem handlers_first_handlerFirst : ∃ s,
    Run.exec step { run := { matching := { channel := { name := "server" } } } } handlerFirst =
      some s ∧ s.early = [(1, 7)] ∧ Run.Meets step HandlersFirst
        { run := { matching := { channel := { name := "server" } } } } handlerFirst := by
  have hend : ((Run.exec step { run := { matching := { channel := { name := "server" } } } }
      handlerFirst).map (·.early)) = some [(1, 7)] := by decide +kernel
  obtain ⟨s, hrun, hearly⟩ := Option.map_eq_some_iff.mp hend
  exact ⟨s, hrun, hearly, (handlers_first_of_inTime "server" handlerFirst).1 (by decide +kernel)⟩

/-- The waiter is faster than the handler thread. -/
theorem not_handlers_first : ¬ Run.Meets step HandlersFirst
    { run := { matching := { channel := { name := "server" } } } }
    (waitThreads ++ [.wake 0, .leave 0]) := by
  decide +kernel

end Debugpy.WaitForResponse
