import Debugpy.Common.RunHandlers

/-!
# What the handler thread has called

The handler thread over a channel that any thread may close. It runs what was
enqueued in order and calls the callbacks of each handler in order, so that
what it has called is given by what it has started and by what it has in hand.
-/

namespace Debugpy.RunHandlers

/-- A thread has called the callbacks of all handlers that were started, but
for those it has still to call of the last one. -/
def Calls (s : State) : Thread → Prop
  | .handling _ h callbacks _ => ∃ pre done, s.started = pre ++ [h] ∧
      callbacksOf h = done ++ callbacks ∧
      ∀ key, of key s.called = callbacksIn key pre ++ if keyOf h = key then done else []
  | .absent | .top | .joining | .ready _ | .waiting _ | .batch .. =>
    ∀ key, of key s.called = callbacksIn key s.started

structure Serial (s : State) : Prop where
  matching : Matching.Inv s.matching
  one : ∀ t, s.threads t ≠ .absent → s.handlerThread = some t
  order : s.started ++ s.active.rest = s.matching.channel.taken
  answered : ∀ h ∈ s.matching.channel.enqueued, callbacksOf h ≠ [] →
    s.matching.response? (keyOf h) ≠ none
  calls : Calls s s.active

def State.close (s : State) : State :=
  { s with matching := { s.matching with channel := s.matching.channel.act .close } }

section
variable {s s' : State} {m m' : Matching.State} {t : Nat} {key : Int}

theorem answered_step {l : Matching.Label} (hi : Matching.Inv m) (h : Matching.step m l = some m')
    (hr : m.response? key ≠ none) : m'.response? key ≠ none := by
  obtain ⟨r, hr⟩ := Option.ne_none_iff_exists'.mp hr
  simp [Matching.kept_effect hi.table (Matching.step_effect hi h) hr]

theorem Serial.active_eq (hs : Serial s) (h : s.threads t ≠ .absent) :
    s.handlerThread = some t ∧ s.active = s.threads t := by
  have ht := hs.one t h
  exact ⟨ht, by simp [State.active, ht]⟩

theorem mem_callbacksIn {hs : List Handler} {callback : Nat} : callback ∈ callbacksIn key hs ↔
    ∃ h ∈ hs, keyOf h = key ∧ callback ∈ callbacksOf h := by
  simp only [callbacksIn, List.mem_flatMap]
  refine exists_congr fun h => and_congr_right fun _ => ?_
  split <;> simp_all

theorem mem_of {xs : List (Int × Nat)} {callback : Nat} :
    callback ∈ of key xs ↔ (key, callback) ∈ xs := by
  simp only [of, List.mem_filterMap, Option.ite_none_right_eq_some, Option.some.injEq]
  constructor
  · rintro ⟨⟨k, callback⟩, hmem, rfl, rfl⟩
    exact hmem
  · exact fun hmem => ⟨_, hmem, rfl, rfl⟩

theorem Calls.called_append {thread : Thread} (h : Calls s thread) (key : Int) :
    of key s.called ++ thread.callbacks key = callbacksIn key s.started := by
  cases thread with
  | handling closed handler callbacks rest =>
    obtain ⟨pre, done, hstarted, hdone, hcalled⟩ := h
    by_cases hkey : keyOf handler = key <;> simp [hcalled, hstarted, Thread.callbacks, hkey, hdone]
  | _ => simpa [Thread.callbacks] using h key

theorem Serial.enqueued_eq (hs : Serial s) :
    s.matching.channel.enqueued = s.started ++ (s.active.rest ++ s.queue) := by
  rw [Channel.enqueued, ← hs.order, List.append_assoc]
  rfl

theorem Serial.after (hs : Serial s) {callback : Nat} (h : (key, callback) ∈ s.called) :
    s.matching.response? key ≠ none := by
  have hin : callback ∈ callbacksIn key s.started := by
    rw [← hs.calls.called_append key]
    exact List.mem_append_left _ (mem_of.mpr h)
  obtain ⟨handler, hmem, rfl, hcallback⟩ := mem_callbacksIn.mp hin
  refine hs.answered handler ?_ (List.ne_nil_of_mem hcallback)
  rw [hs.enqueued_eq]
  exact List.mem_append_left _ hmem

-- ---------------------------------------------------------------------------
-- Steps
-- ---------------------------------------------------------------------------

theorem channelStep_eq {l : Matching.Label} (h : channelStep s l = some s') :
    ∃ new m, registers s.matching l = some new ∧ Matching.step s.matching l = some m ∧
      s' = if m.channel.handlerQueue.length = s.queue.length then
        { s with matching := m, registered := s.registered ++ new }
      else notifyAll { s with matching := m, registered := s.registered ++ new } := by
  simp only [channelStep, Option.bind_eq_bind, Option.bind_eq_some_iff] at h
  obtain ⟨new, hnew, m, hm, h⟩ := h
  exact ⟨new, m, hnew, hm, (Option.some.inj h).symm⟩

theorem notifyAll_same (s : State) : (notifyAll s).matching = s.matching ∧
    (notifyAll s).started = s.started ∧ (notifyAll s).called = s.called ∧
      (notifyAll s).registered = s.registered := by
  unfold notifyAll
  dsimp only
  split <;> exact ⟨rfl, rfl, rfl, rfl⟩

theorem channelStep_matching {l : Matching.Label} (h : channelStep s l = some s') :
    Matching.step s.matching l = some s'.matching := by
  obtain ⟨new, m, -, hm, rfl⟩ := channelStep_eq h
  split
  · exact hm
  · rwa [(notifyAll_same _).1]

theorem Calls.notify {thread : Thread} (h : Calls s thread) : Calls s thread.notify := by
  cases thread <;> exact h

theorem serial_notifyAll (hs : Serial s) : Serial (notifyAll s) := by
  by_cases hspawn : s.queue ≠ [] ∧ s.handlerThread = none
  · have hactive : s.active = .absent := by simp [State.active, hspawn.2]
    have horder := hs.order
    have hcalls := hs.calls
    rw [hactive] at horder hcalls
    unfold notifyAll
    dsimp only
    rw [if_pos hspawn]
    have htop : State.active
        { s with
          threads := Function.update (fun t => (s.threads t).notify) s.nextThread .top
          handlerThread := some s.nextThread
          nextThread := s.nextThread + 1 } = .top := by simp [State.active]
    refine ⟨hs.matching, fun t h => ?_, ?_, hs.answered, ?_⟩
    · by_cases heq : t = s.nextThread
      · rw [heq]
      · simp only [Function.update_of_ne heq, ne_eq, Thread.notify_absent] at h
        cases (hs.one t h).symm.trans hspawn.2
    · rw [htop]
      exact horder
    · rw [htop]
      exact hcalls
  · unfold notifyAll
    dsimp only
    rw [if_neg hspawn]
    have hactive : State.active { s with threads := fun t => (s.threads t).notify } =
        s.active.notify := by
      unfold State.active
      cases s.handlerThread <;> rfl
    refine ⟨hs.matching, fun t h => hs.one t ((Thread.notify_absent _).not.mp h), ?_,
      hs.answered, ?_⟩
    · rw [hactive, Thread.notify_same _ |>.1]
      exact hs.order
    · rw [hactive]
      exact hs.calls.notify

theorem serial_channel (hs : Serial s) {l : Matching.Label} (h : channelStep s l = some s') :
    Serial s' := by
  obtain ⟨new, m, hnew, hm, rfl⟩ := channelStep_eq h
  obtain ⟨handlers, hg⟩ := step_grows hs.matching hnew hm
  have hserial : Serial { s with matching := m, registered := s.registered ++ new } := by
    refine ⟨Matching.inv_step hs.matching hm, hs.one, hs.order.trans hg.taken.symm,
      fun h hmem hne => ?_, hs.calls⟩
    have hmem : h ∈ s.matching.channel.enqueued ++ handlers := by
      rwa [Channel.enqueued, List.append_assoc, ← hg.queue, ← hg.taken]
    rcases List.mem_append.mp hmem with hmem | hmem
    · exact answered_step hs.matching hm (hs.answered h hmem hne)
    · exact hg.answered h hmem hne
  split
  · exact hserial
  · exact serial_notifyAll hserial

theorem serial_close (hs : Serial s) : Serial s.close := by
  have hm : Matching.step s.matching (.act .close) = some _ := rfl
  exact ⟨Matching.inv_step hs.matching hm, hs.one, hs.order, hs.answered, hs.calls⟩

theorem serial_set (hs : Serial s) (h : s.threads t ≠ .absent) (thread : Thread)
    (hthreads : s'.threads = Function.update s.threads t thread)
    (hsame : s'.handlerThread = s.handlerThread ∧ s'.matching = s.matching)
    (horder : s'.started ++ thread.rest = s.started ++ (s.threads t).rest)
    (hcalls : Calls s' thread) : Serial s' := by
  obtain ⟨hhandler, hmatching⟩ := hsame
  obtain ⟨ht, hactive⟩ := hs.active_eq h
  have hactive' : s'.active = thread := by simp [State.active, hhandler, ht, hthreads]
  refine ⟨hmatching ▸ hs.matching, fun t' h' => ?_, ?_, hmatching ▸ hs.answered, ?_⟩
  · rw [hhandler]
    rw [hthreads] at h'
    by_cases heq : t' = t
    · rw [heq, ht]
    · rw [Function.update_of_ne heq] at h'
      exact hs.one t' h'
  · rw [hactive', horder, ← hactive, hmatching]
    exact hs.order
  · rw [hactive']
    exact hcalls

theorem serial_snapshot (hs : Serial s) (h : s.threads t ≠ .absent) (hrest : (s.threads t).rest = [])
    (hcalls : ∀ key, of key s.called = callbacksIn key s.started) (closed : Bool) :
    Serial (snapshot s t closed) := by
  obtain ⟨ht, hactive⟩ := hs.active_eq h
  have horder : s.started = s.matching.channel.taken := by
    simpa [hactive, hrest] using hs.order
  have hone : ∀ t', t' ≠ t → s.threads t' = .absent := by
    intro t' hne
    by_contra h'
    exact hne (Option.some.inj ((hs.one t' h').symm.trans ht))
  unfold snapshot
  split
  · refine ⟨hs.matching, fun t' h' => ?_, ?_, hs.answered, hcalls⟩
    · by_cases heq : t' = t
      · simp [State.setThread, heq] at h'
      · simp [State.setThread, heq, hone t' heq] at h'
    · simpa [State.active, State.setThread, Thread.rest] using horder
  · have hstep : Matching.step s.matching (.act .takeBatch) = some _ := rfl
    have hbatch : State.active { s.setThread t (.batch closed s.queue) with
        matching := { s.matching with channel := s.matching.channel.act .takeBatch } } =
        .batch closed s.queue := by simp [State.active, State.setThread, ht]
    refine ⟨Matching.inv_step hs.matching hstep, fun t' h' => ?_, ?_, ?_, ?_⟩
    · by_cases heq : t' = t
      · rw [heq]
        exact ht
      · simp [State.setThread, heq, hone t' heq] at h'
    · rw [hbatch]
      exact congrArg (· ++ s.queue) horder
    · exact fun h hmem => hs.answered h (by simpa [Channel.act, Channel.enqueued] using hmem)
    · rw [hbatch]
      exact hcalls

theorem serial_thread (hs : Serial s) {l : ThreadLabel} (h : threadStep s t l = some s') :
    Serial s' := by
  have hcalls : ∀ {thread}, s.threads t = thread → thread ≠ .absent → Calls s thread :=
    fun hthread hne => hthread ▸ (hs.active_eq (hthread ▸ hne)).2 ▸ hs.calls
  unfold threadStep at h
  split at h
  · rename_i hthread
    cases h
    refine serial_set hs (by simp [hthread]) _ rfl ⟨rfl, rfl⟩ ?_ ?_
    · split <;> simp [hthread, State.setThread, Thread.rest]
    · split <;> exact hcalls hthread (by simp)
  · rename_i hthread
    split at h <;> cases h
    exact serial_set hs (by simp [hthread]) (.ready true) rfl ⟨rfl, rfl⟩
      (by simp [hthread, State.setThread, Thread.rest]) (hcalls hthread (by simp))
  · rename_i closed hthread
    split at h <;> cases h
    · exact serial_set hs (by simp [hthread]) (.waiting false) rfl ⟨rfl, rfl⟩
        (by simp [hthread, State.setThread, Thread.rest]) (hcalls hthread (by simp))
    · exact serial_snapshot hs (by simp [hthread]) (by simp [hthread, Thread.rest])
        (hcalls hthread (by simp)) closed
  · rename_i hthread
    cases h
    exact serial_snapshot hs (by simp [hthread]) (by simp [hthread, Thread.rest])
      (hcalls hthread (by simp)) false
  · rename_i closed hthread
    cases h
    exact serial_set hs (by simp [hthread]) .top rfl ⟨rfl, rfl⟩
      (by simp [hthread, State.setThread, Thread.rest]) (hcalls hthread (by simp))
  · rename_i closed handler rest hthread
    simp only [Handlers.skip_eq_false] at h
    cases h
    refine serial_set hs (by simp [hthread]) (.handling closed handler (callbacksOf handler) rest) rfl
      ⟨rfl, rfl⟩ (by simp [hthread, Thread.rest]) ?_
    exact ⟨s.started, [], rfl, rfl, fun key => by
      simpa [State.setThread] using hcalls hthread (by simp) key⟩
  · rename_i closed handler callback callbacks rest hthread
    cases h
    refine serial_set hs (by simp [hthread]) (.handling closed handler callbacks rest) rfl
      ⟨rfl, rfl⟩ (by simp [hthread, State.setThread, Thread.rest]) ?_
    obtain ⟨pre, done, hstarted, hdone, hcalled⟩ := hcalls hthread (by simp)
    refine ⟨pre, done ++ [callback], hstarted, by simp [hdone], fun key => ?_⟩
    by_cases hkey : keyOf handler = key <;> simp [hcalled, of_single, hkey]
  · rename_i closed handler rest hthread
    cases h
    refine serial_set hs (by simp [hthread]) (.batch closed rest) rfl ⟨rfl, rfl⟩
      (by simp [hthread, State.setThread, Thread.rest]) fun key => ?_
    simpa [State.setThread, Thread.callbacks] using (hcalls hthread (by simp)).called_append key
  · cases h

theorem threadStep_matching {l : ThreadLabel} (h : threadStep s t l = some s') :
    s'.registered = s.registered ∧ (s'.matching = s.matching ∨
      Matching.step s.matching (.act .takeBatch) = some s'.matching) := by
  have hsnapshot : ∀ closed, (snapshot s t closed).registered = s.registered ∧
      ((snapshot s t closed).matching = s.matching ∨
        Matching.step s.matching (.act .takeBatch) = some (snapshot s t closed).matching) := by
    intro closed
    unfold snapshot
    split
    · exact ⟨rfl, .inl rfl⟩
    · exact ⟨rfl, .inr rfl⟩
  unfold threadStep at h
  split at h
  · cases h
    exact ⟨rfl, .inl rfl⟩
  · split at h <;> cases h
    exact ⟨rfl, .inl rfl⟩
  · split at h <;> cases h
    · exact ⟨rfl, .inl rfl⟩
    · exact hsnapshot _
  · cases h
    exact hsnapshot false
  · cases h
    exact ⟨rfl, .inl rfl⟩
  · split at h <;> cases h <;> exact ⟨rfl, .inl rfl⟩
  · cases h
    exact ⟨rfl, .inl rfl⟩
  · cases h
    exact ⟨rfl, .inl rfl⟩
  · cases h

theorem serial_new (name : String) : Serial { matching := { channel := { name } } } where
  matching := Matching.inv_new name
  one := by simp
  order := rfl
  answered := by simp [Channel.enqueued]
  calls := fun _ => rfl

end

end Debugpy.RunHandlers
