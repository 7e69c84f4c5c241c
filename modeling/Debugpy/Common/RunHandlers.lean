import Debugpy.Common.Handlers
import Debugpy.Common.Matching

/-!
# The handler thread

`_run_handlers` and the calls that start it, over the senders and the parser
thread of a channel that nothing but its parser closes, and whose handlers
raise nothing that ends the process. A thread is started
by whoever enqueues while there is none, and ends with the queue empty on a
closed channel. `runs_handlers` says that the handlers run in the order in
which they were enqueued, one at a time, and that the thread gets through
them; and that the callbacks of a request are called in the order in which
they were registered.
-/

namespace Debugpy.RunHandlers

open Handlers (skip)

inductive Thread where
  /-- Not started yet, or over. -/
  | absent
  | top
  | joining
  /-- It is about to take the lock again, with this value of `closed`. -/
  | ready (closed : Bool)
  | waiting (notified : Bool)
  | batch (closed : Bool) (rest : List Handler)
  /-- In a handler; `callbacks` are those it has still to call. -/
  | handling (closed : Bool) (h : Handler) (callbacks : List Nat) (rest : List Handler)

structure State where
  matching : Matching.State
  /-- `_handler_thread`. -/
  handlerThread : Option Nat := none
  nextThread : Nat := 0
  threads : Nat → Thread := fun _ => .absent
  /-- The handlers that have been started. -/
  started : List Handler := []
  /-- The callbacks that `on_response` was given, and those called, with the
  number of their request. -/
  registered : List (Int × Nat) := []
  called : List (Int × Nat) := []

inductive ThreadLabel where
  | readClosed
  | join
  | lock
  | wake
  | next
  | call
  | handlerReturns

inductive Label where
  /-- A step of anyone else, the parser thread included. -/
  | channel (l : Matching.Label)
  | thread (t : Nat) (l : ThreadLabel)

def State.queue (s : State) : List Handler := s.matching.channel.handlerQueue

/-- What a handler has to call: `run_handlers` is a closure over a snapshot of
the callbacks. -/
def callbacksOf : Handler → List Nat
  | .responses _ handlers => handlers
  | .event .. | .request .. | .disconnect => []

def keyOf : Handler → Int
  | .responses response _ => response.requestSeq
  | .event .. | .request .. | .disconnect => 0

def Thread.notify : Thread → Thread
  | .waiting _ => .waiting true
  | thread => thread

def notifyAll (s : State) : State :=
  let threads t := (s.threads t).notify
  if s.queue ≠ [] ∧ s.handlerThread = none then
    { s with
      threads := Function.update threads s.nextThread .top
      handlerThread := some s.nextThread
      nextThread := s.nextThread + 1 }
  else { s with threads }

/-- The callback that a step gives to `on_response`, a method of a request
that has been made. -/
def registers (m : Matching.State) : Matching.Label → Option (List (Int × Nat))
  | .act (.onResponse key handler) =>
    if (m.channel.requests key).isSome then some [(key, handler)] else none
  | .act .takeBatch | .act .close => none
  | _ => some []

/-- Whatever else happens to the channel; a call of `_enqueue_handlers` adds
to the queue. -/
def channelStep (s : State) (l : Matching.Label) : Option State := do
  let new ← registers s.matching l
  let m ← Matching.step s.matching l
  let s' := { s with matching := m, registered := s.registered ++ new }
  return if m.channel.handlerQueue.length = s.queue.length then s' else notifyAll s'

def State.setThread (s : State) (t : Nat) (thread : Thread) : State :=
  { s with threads := Function.update s.threads t thread }

def snapshot (s : State) (t : Nat) (closed : Bool) : State :=
  if closed && s.queue.isEmpty then { s.setThread t .absent with handlerThread := none }
  else { s.setThread t (.batch closed s.queue) with
    matching := { s.matching with channel := s.matching.channel.act .takeBatch } }

def State.parserDone (s : State) : Bool :=
  match s.matching.parser with
  | .ended | .died => true
  | .reading | .settling .. => false

def threadStep (s : State) (t : Nat) (l : ThreadLabel) : Option State :=
  match l, s.threads t with
  | .readClosed, .top => some
      (s.setThread t (if s.matching.channel.closed then .joining else .ready false))
  | .join, .joining => if s.parserDone then some (s.setThread t (.ready true)) else none
  | .lock, .ready closed =>
    if !closed && s.queue.isEmpty then some (s.setThread t (.waiting false))
    else some (snapshot s t closed)
  | .wake, .waiting true => some (snapshot s t false)
  | .next, .batch _ [] => some (s.setThread t .top)
  | .next, .batch closed (h :: rest) =>
    if skip closed h then some (s.setThread t (.batch closed rest))
    else some { s.setThread t (.handling closed h (callbacksOf h) rest) with
      started := s.started ++ [h] }
  | .call, .handling closed h (callback :: callbacks) rest => some
      { s.setThread t (.handling closed h callbacks rest) with
        called := s.called ++ [(keyOf h, callback)] }
  | .handlerReturns, .handling closed _ [] rest => some (s.setThread t (.batch closed rest))
  | _, _ => none

def step (s : State) : Label → Option State
  | .channel l => channelStep s l
  | .thread t l => threadStep s t l

-- ---------------------------------------------------------------------------
-- The rule
-- ---------------------------------------------------------------------------

/-- What a thread has still to run of its snapshot. -/
def Thread.rest : Thread → List Handler
  | .batch _ rest | .handling _ _ _ rest => rest
  | _ => []

/-- What a thread has still to call for a request, of the handler it is in. -/
def Thread.callbacks : Thread → Int → List Nat
  | .handling _ h callbacks _, key => if keyOf h = key then callbacks else []
  | _, _ => []

/-- The callbacks of one request. -/
def of (key : Int) (xs : List (Int × Nat)) : List Nat :=
  xs.filterMap fun x => if x.1 = key then some x.2 else none

def State.CanStep (s : State) : Prop := ∃ t l s', threadStep s t l = some s'

def cost : List Handler → Nat
  | [] => 0
  | h :: hs => (callbacksOf h).length + 2 + cost hs

/-- How many steps it takes from the snapshot on, until it waits or ends. -/
def queueCost (queue : List Handler) : Nat := if queue = [] then 0 else cost queue + 4

def Thread.steps (queue : List Handler) : Thread → Nat
  | .absent | .waiting false => 0
  | .top => queueCost queue + 3
  | .joining => queueCost queue + 2
  | .ready _ => queueCost queue + 1
  | .waiting true => cost queue + 5
  | .batch _ rest => cost rest + 4 + queueCost queue
  | .handling _ _ callbacks rest => callbacks.length + 1 + (cost rest + 4 + queueCost queue)

def State.steps (s : State) : Nat :=
  s.handlerThread.elim 0 fun t => (s.threads t).steps s.queue

structure RunsHandlers (s : State) : Prop where
  one : ∀ t t', s.threads t ≠ .absent → s.threads t' ≠ .absent → t = t'
  /-- In order, and each one once. -/
  order : ∃ rest, s.started ++ rest = s.matching.channel.enqueued ∧ (¬ s.CanStep → rest = [])
  /-- In order, each one once, and only after the response has been set. -/
  callbacks : ∀ key, ∃ rest, of key s.called ++ rest = of key s.registered ∧
    (¬ s.CanStep → s.matching.response? key ≠ none → rest = [])
  after : ∀ key callback, (key, callback) ∈ s.called → s.matching.response? key ≠ none
  /-- On its own the thread gets to where it waits or ends. -/
  bounded : ∀ labels t, (∀ l ∈ labels, ∃ n l', l = .thread n l') →
    Run.exec step s labels = some t → labels.length ≤ s.steps

-- ---------------------------------------------------------------------------
-- What a step does to the queue and the callbacks
-- ---------------------------------------------------------------------------

/-- The callbacks of a request that wait for its response. -/
def waiting (m : Matching.State) (key : Int) : List Nat :=
  (m.channel.requests key).elim [] (·.responseHandlers)

/-- The callbacks of a request that these handlers will call. -/
def callbacksIn (key : Int) (hs : List Handler) : List Nat :=
  hs.flatMap fun h => if keyOf h = key then callbacksOf h else []

@[simp] theorem callbacksIn_nil (key : Int) : callbacksIn key [] = [] := rfl

@[simp] theorem callbacksIn_cons (key : Int) (h : Handler) (hs : List Handler) :
    callbacksIn key (h :: hs) = (if keyOf h = key then callbacksOf h else []) ++ callbacksIn key hs :=
  rfl

@[simp] theorem callbacksIn_append (key : Int) (hs hs' : List Handler) :
    callbacksIn key (hs ++ hs') = callbacksIn key hs ++ callbacksIn key hs' := List.flatMap_append

@[simp] theorem of_nil (key : Int) : of key [] = [] := rfl

@[simp] theorem of_append (key : Int) (xs ys : List (Int × Nat)) :
    of key (xs ++ ys) = of key xs ++ of key ys := List.filterMap_append

theorem of_single (key k : Int) (callback : Nat) :
    of key [(k, callback)] = if k = key then [callback] else [] := by
  by_cases h : k = key <;> simp [of, h]

/-- `new` is what the step registers, and `hs` what it enqueues. -/
structure Grows (m m' : Matching.State) (new : List (Int × Nat)) (hs : List Handler) : Prop where
  taken : m'.channel.taken = m.channel.taken
  queue : m'.channel.handlerQueue = m.channel.handlerQueue ++ hs
  moved : ∀ key, callbacksIn key hs ++ waiting m' key = waiting m key ++ of key new
  answered : ∀ h ∈ hs, callbacksOf h ≠ [] → m'.response? (keyOf h) ≠ none
  /-- Callbacks wait for a response that is not there yet. -/
  idle : (∀ key, m.response? key ≠ none → waiting m key = []) →
    ∀ key, m'.response? key ≠ none → waiting m' key = []
  closed : m'.channel.closed = true → m.channel.closed = true ∨ m'.parser = .ended
  parser : m.parser = .ended ∨ m.parser = .died → m'.parser = m.parser

section
variable {m m' : Matching.State} {key : Int} {r : Response}

theorem Grows.of_same {hs : List Handler} (hreq : m'.channel.requests = m.channel.requests)
    (htaken : m'.channel.taken = m.channel.taken)
    (hqueue : m'.channel.handlerQueue = m.channel.handlerQueue ++ hs)
    (hhs : ∀ h ∈ hs, callbacksOf h = []) (hclosed : m'.channel.closed = m.channel.closed)
    (hparser : m.parser = .ended ∨ m.parser = .died → m'.parser = m.parser) :
    Grows m m' [] hs := by
  have hin : ∀ key, callbacksIn key hs = [] := by
    intro key
    refine List.flatMap_eq_nil_iff.mpr fun h hmem => ?_
    simp [hhs h hmem]
  refine ⟨htaken, hqueue, fun key => ?_, fun h hmem hne => absurd (hhs h hmem) hne, ?_, ?_, hparser⟩
  · rw [hin, waiting, waiting, hreq]
    simp
  · simp only [Matching.State.response?, waiting, hreq]
    exact fun h => h
  · rw [hclosed]
    exact .inl

theorem keyOf_responses (r : Response) (hs : List Nat) : keyOf (.responses r hs) = r.requestSeq := rfl

theorem grows_onResponse (hi : Matching.Inv m) (hmade : (m.channel.requests key).isSome)
    (h : Matching.step m (.act (.onResponse key callback)) = some m') :
    ∃ hs, Grows m m' [(key, callback)] hs := by
  obtain ⟨request, hreq⟩ := Option.isSome_iff_exists.mp hmade
  obtain ⟨-, rfl⟩ := Matching.step_act h
  have hclosed : (m.channel.act (.onResponse key callback)).closed = m.channel.closed := by
    simp only [Channel.act, Channel.onResponse, hreq]
    split <;> rfl
  have hwait : waiting m key = request.responseHandlers := by rw [waiting, hreq]; rfl
  cases hresp : request.response with
  | none =>
    have hchannel : m.channel.act (.onResponse key callback) = m.channel.putRequest key
        { request with responseHandlers := request.responseHandlers ++ [callback] } := by
      simp only [Channel.act, Channel.onResponse, hreq, hresp]
    refine ⟨[], by rw [hchannel]; rfl, by rw [hchannel]; simp [Channel.putRequest],
      fun k => ?_, by simp, fun hidle k hk => ?_, fun hc => .inl (hclosed ▸ hc), fun _ => rfl⟩
    · rw [hchannel, of_single]
      by_cases hk : key = k
      · subst hk
        simp [waiting, Channel.putRequest, hreq]
      · simp [waiting, Channel.putRequest, hk, Ne.symm hk]
    · rw [hchannel] at hk ⊢
      by_cases heq : k = key
      · subst heq
        simp [Matching.State.response?, Channel.putRequest, hresp] at hk
      · simp only [Matching.State.response?, waiting, Channel.putRequest,
          Function.update_of_ne heq] at hk ⊢
        exact hidle k hk
  | some r =>
    have hr : m.response? key = some r := by simp [Matching.State.response?, hreq, hresp]
    have hkey : r.requestSeq = key := (hi.table.first key r hr).1
    have hchannel : m.channel.act (.onResponse key callback) =
        (m.channel.putRequest key { request with responseHandlers := [] }).enqueueHandlers
          (.responses r (request.responseHandlers ++ [callback])) := by
      simp only [Channel.act, Channel.onResponse, hreq, hresp]
    have hkept : ∀ k, Matching.State.response? { m with
        channel := m.channel.act (.onResponse key callback) } k = m.response? k :=
      fun k => (Matching.response?_act m.channel (.onResponse key callback) (by simp) k).1
    refine ⟨[.responses r (request.responseHandlers ++ [callback])], by rw [hchannel]; rfl,
      by rw [hchannel]; rfl, fun k => ?_, fun h hmem hne => ?_, fun hidle k hk => ?_,
      fun hc => .inl (hclosed ▸ hc), fun _ => rfl⟩
    · rw [hchannel, of_single]
      by_cases hk : key = k
      · subst hk
        simp [waiting, Channel.enqueueHandlers, Channel.putRequest, hreq, keyOf, callbacksOf, hkey]
      · simp [waiting, Channel.enqueueHandlers, Channel.putRequest, keyOf, hkey, hk, Ne.symm hk]
    · rw [List.mem_singleton.mp hmem, keyOf_responses, hkey, hkept, hr]
      exact Option.some_ne_none r
    · rw [hkept] at hk
      rw [hchannel]
      by_cases heq : k = key
      · subst heq
        simp [waiting, Channel.enqueueHandlers, Channel.putRequest]
      · simp only [waiting, Channel.enqueueHandlers, Channel.putRequest,
          Function.update_of_ne heq]
        exact hidle k hk

theorem callbacksIn_made (keys : List Int) (hnodup : keys.Nodup) (r : Int → Response)
    (hmade : ∀ key, (r key).requestSeq = key) (m : Matching.State) (key : Int) :
    callbacksIn key (keys.filterMap fun k => (m.channel.requests k).map fun request =>
      Handler.responses (r k) request.responseHandlers) =
      if key ∈ keys then waiting m key else [] := by
  induction keys with
  | nil => rfl
  | cons k keys ih =>
    obtain ⟨hnot, hnodup⟩ := List.nodup_cons.mp hnodup
    have hhead : callbacksIn key ((m.channel.requests k).map fun request =>
        Handler.responses (r k) request.responseHandlers).toList =
        if k = key then waiting m key else [] := by
      cases hreq : m.channel.requests k with
      | none =>
        by_cases hk : k = key
        · subst hk
          simp [waiting, hreq]
        · simp [hk]
      | some request =>
        by_cases hk : k = key
        · subst hk
          simp [waiting, hreq, keyOf, hmade, callbacksOf]
        · simp [keyOf, hmade, hk]
    have hcons : ∀ f : Int → Option Handler,
        (k :: keys).filterMap f = (f k).toList ++ keys.filterMap f := by
      intro f
      rw [List.filterMap_cons]
      cases f k <;> rfl
    rw [hcons, callbacksIn_append, hhead, ih hnodup]
    by_cases hk : k = key
    · subst hk
      simp [hnot]
    · simp [hk, Ne.symm hk]

theorem grows_noMoreMessages (hi : Matching.Inv m)
    (h : Matching.step m (.noMoreMessages text) = some m') : ∃ hs, Grows m m' [] hs := by
  obtain ⟨hread, r, c', hclean, rfl⟩ := Matching.step_noMoreMessages h hi.table.nodup
  have hresp : ∀ key ∈ m.channel.sentRequests, Option.bind (c'.requests key) (·.response) =
      some (r key) := by
    intro key hmem
    obtain ⟨request, hreq⟩ :=
      Option.isSome_iff_exists.mp (hi.numbers.sent key ((hi.table.table key).mp hmem).sent)
    rw [hclean.requests, if_pos hmem, hreq]
    rfl
  have hwait : ∀ key, (c'.requests key).elim [] (·.responseHandlers) =
      if key ∈ m.channel.sentRequests then [] else waiting m key := by
    intro key
    rw [hclean.requests]
    by_cases hmem : key ∈ m.channel.sentRequests
    · cases m.channel.requests key <;> simp [hmem]
    · simp [hmem, waiting]
  refine ⟨(m.channel.sentRequests.filterMap fun k => (m.channel.requests k).map fun request =>
    Handler.responses (r k) request.responseHandlers) ++ [.disconnect], hclean.taken,
    by simp [Channel.enqueueHandlers, hclean.queue], fun key => ?_, fun h' hmem hne => ?_,
    fun hidle key hk => ?_, fun _ => .inr rfl, fun hparser => ?_⟩
  · refine (congrArg (callbacksIn key _ ++ ·) (hwait key)).trans ?_
    rw [callbacksIn_append, callbacksIn_made _ hi.table.nodup r (fun k => (hclean.made k).1)]
    by_cases hmem : key ∈ m.channel.sentRequests <;> simp [hmem, callbacksOf]
  · rcases List.mem_append.mp hmem with hmem | hmem
    · obtain ⟨k, hk, hsome⟩ := List.mem_filterMap.mp hmem
      obtain ⟨request, -, rfl⟩ := Option.map_eq_some_iff.mp hsome
      rw [keyOf_responses, (hclean.made k).1]
      exact fun hnone => by cases (hresp k hk).symm.trans hnone
    · rw [List.mem_singleton.mp hmem] at hne
      exact absurd rfl hne
  · refine (hwait key).trans ?_
    by_cases hmem : key ∈ m.channel.sentRequests
    · rw [if_pos hmem]
    · rw [if_neg hmem]
      refine hidle key fun hnone => hk ?_
      have heq : Option.bind (c'.requests key) (·.response) = m.response? key := by
        rw [hclean.requests, if_neg hmem]
        rfl
      exact heq.trans hnone
  · rw [hread] at hparser
    rcases hparser with h | h <;> cases h

theorem grows_settle (hi : Matching.Inv m) (h : Matching.step m .settle = some m') :
    ∃ hs, Grows m m' [] hs := by
  obtain ⟨requestSeq, known, r, hset, hknown, hunknown⟩ := Matching.step_settle h
  obtain ⟨hseq, hans⟩ := hi.table.settling _ _ _ hset
  have hparser : m.parser = .ended ∨ m.parser = .died → m'.parser = m.parser := by
    rw [hset]
    rintro (h | h) <;> cases h
  cases known with
  | false =>
    obtain ⟨e, -, rfl⟩ := hunknown rfl hseq
    exact ⟨[.responses r []], .of_same rfl rfl rfl (by simp [callbacksOf]) rfl hparser⟩
  | true =>
    obtain ⟨-, -, hanswered⟩ := hans rfl
    obtain ⟨request, hreq⟩ := Option.isSome_iff_exists.mp (hi.numbers.sent _ hanswered.sent)
    cases hknown rfl
    have hresp := Matching.response?_setResponse (hi.numbers.sent _ hanswered.sent)
    have hwait : ∀ key, ((m.channel.setResponse r.requestSeq r).requests key).elim []
        (·.responseHandlers) = if key = r.requestSeq then [] else waiting m key := by
      intro key
      rw [Matching.setResponse_requests]
      by_cases hk : key = r.requestSeq <;> simp [hk, hreq, waiting]
    refine ⟨[.responses r request.responseHandlers],
      (Matching.setResponse_same _ _ _).2.2.2, ?_, fun key => ?_, fun h' hmem _ => ?_,
      fun hidle key hk => (hwait key).trans ?_, fun hc => .inl ?_, hparser⟩
    · refine (Matching.setResponse_queue _ _ _).trans ?_
      rw [hreq]
      rfl
    · refine (congrArg (callbacksIn key _ ++ ·) (hwait key)).trans ?_
      by_cases hk : key = r.requestSeq
      · simp [hk, keyOf, callbacksOf, waiting, hreq]
      · simp [hk, keyOf, Ne.symm hk]
    · rw [List.mem_singleton.mp hmem, keyOf_responses]
      intro hnone
      have hsome := (hresp r.requestSeq).symm.trans hnone
      rw [if_pos rfl] at hsome
      cases hsome
    · by_cases heq : key = r.requestSeq
      · rw [if_pos heq]
      · rw [if_neg heq]
        refine hidle key fun hnone => hk ((hresp key).trans ?_)
        rw [if_neg heq]
        exact hnone
    · have hsame : (m.channel.setResponse r.requestSeq r).closed = m.channel.closed := by
        simp only [Channel.setResponse, hreq]
        rfl
      exact hsame ▸ hc

theorem step_grows {l : Matching.Label} (hi : Matching.Inv m) (hnew : registers m l = some new)
    (h : Matching.step m l = some m') : ∃ hs, Grows m m' new hs := by
  cases l with
  | draw command =>
    cases hnew
    cases h
    exact ⟨[], .of_same rfl rfl (List.append_nil _).symm (by simp) rfl fun _ => rfl⟩
  | make key =>
    cases hnew
    simp only [Matching.step] at h
    split at h
    swap
    · cases h
    rename_i command hcall
    cases h
    have hnone : m.channel.requests key = none := by
      simpa using hi.numbers.numbered key command hcall
    refine ⟨[], rfl, (List.append_nil _).symm, fun k => ?_, by simp, fun hidle k hk => ?_, .inl,
      fun _ => rfl⟩
    · by_cases hk : k = key
      · subst hk
        simp [waiting, Channel.putRequest, hnone]
      · simp [waiting, Channel.putRequest, hk]
    · by_cases heq : k = key
      · subst heq
        simp [waiting, Channel.putRequest]
      · simp only [Matching.State.response?, waiting, Channel.putRequest,
          Function.update_of_ne heq] at hk ⊢
        exact hidle k hk
  | insert key | abandon key =>
    cases hnew
    simp only [Matching.step] at h
    split at h <;> cases h
    exact ⟨[], .of_same rfl rfl (List.append_nil _).symm (by simp) rfl fun _ => rfl⟩
  | act a =>
    cases a with
    | sendRequest command => cases h
    | sendOther =>
      cases hnew
      cases h
      exact ⟨[], .of_same rfl rfl (List.append_nil _).symm (by simp) rfl fun _ => rfl⟩
    | onResponse key callback =>
      simp only [registers] at hnew
      split at hnew
      · rename_i hmade
        cases hnew
        exact grows_onResponse hi hmade h
      · cases hnew
    | takeBatch | close => cases hnew
  | receive value =>
    cases hnew
    obtain ⟨hread, hcases⟩ := Matching.step_receive h
    have hparser : m.parser = .ended ∨ m.parser = .died → m'.parser = m.parser := by
      rw [hread]
      rintro (h | h) <;> cases h
    obtain ⟨handler, ⟨n, name, body, hmessage⟩, rfl⟩ | ⟨requestSeq, r, n, -, -, rfl⟩ | rfl := hcases
    · refine ⟨[handler], .of_same rfl rfl rfl (fun h hmem => ?_) rfl hparser⟩
      rw [List.mem_singleton.mp hmem]
      rcases hmessage with rfl | rfl <;> rfl
    · exact ⟨[], .of_same rfl rfl (List.append_nil _).symm (by simp) rfl hparser⟩
    · exact ⟨[], .of_same rfl rfl (List.append_nil _).symm (by simp) rfl hparser⟩
  | settle =>
    cases hnew
    exact grows_settle hi h
  | noMoreMessages text =>
    cases hnew
    exact grows_noMoreMessages hi h
  | fail =>
    cases hnew
    simp only [Matching.step] at h
    split at h
    swap
    · cases h
    rename_i hread
    cases h
    refine ⟨[], .of_same rfl rfl (List.append_nil _).symm (by simp) rfl fun hparser => ?_⟩
    rw [hread] at hparser
    rcases hparser with h | h <;> cases h

end

-- ---------------------------------------------------------------------------
-- Invariants
-- ---------------------------------------------------------------------------

/-- What has been started and called, given what the thread has still to run
and to call. -/
structure Delivered (s : State) (rest : List Handler) (todo : Int → List Nat) : Prop where
  matching : Matching.Inv s.matching
  closed : s.matching.channel.closed = true → s.matching.parser = .ended
  order : s.started ++ rest = s.matching.channel.taken
  callbacks : ∀ key, of key s.called ++ todo key ++ callbacksIn key (rest ++ s.queue) ++
    waiting s.matching key = of key s.registered
  idle : ∀ key, s.matching.response? key ≠ none → waiting s.matching key = []
  answered : ∀ h ∈ rest ++ s.queue, callbacksOf h ≠ [] → s.matching.response? (keyOf h) ≠ none
  calling : ∀ key, todo key ≠ [] → s.matching.response? key ≠ none
  after : ∀ key callback, (key, callback) ∈ s.called → s.matching.response? key ≠ none

def State.active (s : State) : Thread := s.handlerThread.elim .absent s.threads

/-- `_handler_thread` is the only thread, and does not sleep over a handler. -/
structure Attentive (s : State) : Prop where
  one : ∀ t, s.threads t ≠ .absent → s.handlerThread = some t
  alive : ∀ t, s.handlerThread = some t → s.threads t ≠ .absent
  absent : s.handlerThread = none → s.queue = []
  notified : s.active = .waiting false → s.queue = []
  joining : s.active = .joining → s.parserDone = true

structure Inv (s : State) : Prop where
  delivered : Delivered s s.active.rest s.active.callbacks
  attentive : Attentive s

section
variable {s s' : State} {rest : List Handler} {todo : Int → List Nat} {t : Nat}

theorem delivered_channel {l : Matching.Label} (hd : Delivered s rest todo)
    (hnew : registers s.matching l = some new) (h : Matching.step s.matching l = some m) :
    Delivered { s with matching := m, registered := s.registered ++ new } rest todo := by
  obtain ⟨hs, hg⟩ := step_grows hd.matching hnew h
  have heffect := Matching.step_effect hd.matching h
  have hkept : ∀ key, s.matching.response? key ≠ none → m.response? key ≠ none := by
    intro key hne hnone
    obtain ⟨r, hr⟩ := Option.ne_none_iff_exists'.mp hne
    cases (Matching.kept_effect hd.matching.table heffect hr).symm.trans hnone
  have hqueue : State.queue { s with matching := m, registered := s.registered ++ new } =
      s.queue ++ hs := hg.queue
  refine ⟨Matching.inv_step hd.matching h, fun hc => ?_, ?_, fun key => ?_, hg.idle hd.idle,
    fun h' hmem hne => ?_, fun key hne => hkept key (hd.calling key hne),
    fun key callback hmem => hkept key (hd.after key callback hmem)⟩
  · rcases hg.closed hc with hc | hended
    · have hended := hd.closed hc
      exact (hg.parser (.inl hended)).trans hended
    · exact hended
  · exact hd.order.trans hg.taken.symm
  · rw [hqueue, of_append, ← hd.callbacks key]
    simp only [callbacksIn_append, List.append_assoc]
    rw [hg.moved key]
  · rw [hqueue, ← List.append_assoc] at hmem
    rcases List.mem_append.mp hmem with hmem | hmem
    · exact hkept _ (hd.answered h' hmem hne)
    · exact hg.answered h' hmem hne

theorem Delivered.advance {rest' : List Handler} {todo' : Int → List Nat}
    (hd : Delivered s rest todo)
    (hmatching : s'.matching = s.matching) (hreg : s'.registered = s.registered)
    (horder : s'.started ++ rest' = s.started ++ rest)
    (hcallbacks : ∀ key, of key s'.called ++ todo' key ++ callbacksIn key rest' =
      of key s.called ++ todo key ++ callbacksIn key rest)
    (hrest : ∀ h ∈ rest', h ∈ rest)
    (hcalling : ∀ key, todo' key ≠ [] → s.matching.response? key ≠ none)
    (hcalled : ∀ key callback, (key, callback) ∈ s'.called → s.matching.response? key ≠ none) :
    Delivered s' rest' todo' := by
  have hqueue : s'.queue = s.queue := by rw [State.queue, hmatching, State.queue]
  refine ⟨hmatching ▸ hd.matching, ?_, ?_, fun key => ?_, ?_, fun h hmem => ?_, ?_, ?_⟩
  · rw [hmatching]
    exact hd.closed
  · rw [hmatching, horder]
    exact hd.order
  · rw [hmatching, hqueue, hreg, ← hd.callbacks key, callbacksIn_append, callbacksIn_append,
      ← List.append_assoc, ← List.append_assoc, hcallbacks]
  · rw [hmatching]
    exact hd.idle
  · rw [hmatching]
    rw [hqueue] at hmem
    exact hd.answered h ((List.mem_append.mp hmem).elim
      (fun hr => List.mem_append_left _ (hrest h hr)) (List.mem_append_right _))
  · rw [hmatching]
    exact hcalling
  · rw [hmatching]
    exact hcalled

theorem delivered_takeBatch (hd : Delivered s [] fun _ => [])
    (hmatching : s'.matching = { s.matching with channel := s.matching.channel.act .takeBatch })
    (hstarted : s'.started = s.started) (hcalled : s'.called = s.called)
    (hreg : s'.registered = s.registered) : Delivered s' s.queue fun _ => [] := by
  have hqueue : s'.queue = [] := by rw [State.queue, hmatching]; rfl
  have hresp : ∀ key, s'.matching.response? key = s.matching.response? key := by
    intro key
    rw [hmatching]
    rfl
  have hwait : ∀ key, waiting s'.matching key = waiting s.matching key := by
    intro key
    rw [hmatching]
    rfl
  have hstep : Matching.step s.matching (.act .takeBatch) = some s'.matching := by
    rw [hmatching]
    rfl
  refine ⟨Matching.inv_step hd.matching hstep, ?_, ?_, fun key => ?_, fun key hk => ?_,
    fun h hmem => ?_, fun key hne => absurd rfl hne, fun key callback hmem => ?_⟩
  · rw [hmatching]
    exact hd.closed
  · rw [hmatching, hstarted]
    have horder := hd.order
    rw [List.append_nil] at horder
    rw [horder]
    rfl
  · rw [hqueue, hcalled, hwait, hreg, ← hd.callbacks key]
    simp
  · rw [hwait]
    exact hd.idle key (hresp key ▸ hk)
  · rw [hresp]
    rw [hqueue, List.append_nil] at hmem
    exact hd.answered h hmem
  · rw [hresp]
    exact hd.after key callback (hcalled ▸ hmem)

theorem active_eq (ha : Attentive s) (h : s.threads t ≠ .absent) :
    s.handlerThread = some t ∧ s.active = s.threads t := by
  have ht := ha.one t h
  exact ⟨ht, by rw [State.active, ht]; rfl⟩

theorem Attentive.set (ha : Attentive s) (h : s.threads t ≠ .absent) (s' : State) (thread : Thread)
    (hthreads : s'.threads = Function.update s.threads t thread)
    (hhandler : s'.handlerThread = s.handlerThread) (hthread : thread ≠ .absent)
    (hnotified : thread = .waiting false → s'.queue = [])
    (hjoining : thread = .joining → s'.parserDone = true) :
    Attentive s' ∧ s'.active = thread := by
  have ht := ha.one t h
  have hactive : s'.active = thread := by
    rw [State.active, hhandler, ht, hthreads]
    exact Function.update_self ..
  refine ⟨⟨fun t' h' => ?_, fun t' h' => ?_, fun h' => ?_, ?_, ?_⟩, hactive⟩
  · rw [hthreads] at h'
    by_cases heq : t' = t
    · rw [heq, hhandler, ht]
    · rw [Function.update_of_ne heq] at h'
      rw [hhandler]
      exact ha.one t' h'
  · rw [hhandler, ht] at h'
    cases h'
    rw [hthreads, Function.update_self]
    exact hthread
  · rw [hhandler, ht] at h'
    cases h'
  · rw [hactive]
    exact hnotified
  · rw [hactive]
    exact hjoining

theorem Thread.notify_absent (thread : Thread) : thread.notify = .absent ↔ thread = .absent := by
  cases thread <;> simp [Thread.notify]

theorem Thread.notify_joining (thread : Thread) : thread.notify = .joining ↔ thread = .joining := by
  cases thread <;> simp [Thread.notify]

theorem Thread.notify_waiting (thread : Thread) : thread.notify ≠ .waiting false := by
  cases thread <;> simp [Thread.notify]

theorem Thread.notify_same (thread : Thread) :
    thread.notify.rest = thread.rest ∧ thread.notify.callbacks = thread.callbacks := by
  cases thread <;> exact ⟨rfl, rfl⟩

theorem inv_notifyAll (hd : Delivered s s.active.rest s.active.callbacks)
    (hone : ∀ t, s.threads t ≠ .absent → s.handlerThread = some t)
    (halive : ∀ t, s.handlerThread = some t → s.threads t ≠ .absent)
    (hjoining : s.active = .joining → s.parserDone = true) : Inv (notifyAll s) := by
  unfold notifyAll
  by_cases hspawn : s.queue ≠ [] ∧ s.handlerThread = none
  · dsimp only
    rw [if_pos hspawn]
    have hactive : s.active = .absent := by rw [State.active, hspawn.2]; rfl
    rw [hactive] at hd
    have hnone : ∀ t, s.threads t = .absent := by
      intro t
      by_contra h
      cases (hone t h).symm.trans hspawn.2
    have htop : State.active
        { s with
          threads := Function.update (fun t => (s.threads t).notify) s.nextThread .top
          handlerThread := some s.nextThread
          nextThread := s.nextThread + 1 } = .top := by
      simp only [State.active, Option.elim_some, Function.update_self]
    refine ⟨?_, fun t h => ?_, fun t h => ?_, fun h => (nomatch h), fun h => ?_, fun h => ?_⟩
    · rw [htop]
      exact ⟨hd.matching, hd.closed, hd.order, hd.callbacks, hd.idle, hd.answered, hd.calling,
        hd.after⟩
    · by_cases heq : t = s.nextThread
      · rw [heq]
      · dsimp only at h
        rw [Function.update_of_ne heq, hnone t] at h
        exact absurd rfl h
    · cases h
      dsimp only
      rw [Function.update_self]
      exact nofun
    · rw [htop] at h
      cases h
    · rw [htop] at h
      cases h
  · dsimp only
    rw [if_neg hspawn]
    have hactive : State.active { s with threads := fun t => (s.threads t).notify } =
        s.active.notify := by
      unfold State.active
      cases s.handlerThread <;> rfl
    obtain ⟨hrest, hcallbacks⟩ := s.active.notify_same
    refine ⟨?_, fun t h => ?_, fun t h => ?_, fun h => ?_, fun h => ?_, fun h => ?_⟩
    · rw [hactive, hrest, hcallbacks]
      exact ⟨hd.matching, hd.closed, hd.order, hd.callbacks, hd.idle, hd.answered, hd.calling,
        hd.after⟩
    · exact hone t fun habs => h ((Thread.notify_absent _).mpr habs)
    · exact fun habs => halive t h ((Thread.notify_absent _).mp habs)
    · by_contra hne
      exact hspawn ⟨hne, h⟩
    · exact absurd (hactive.symm.trans h) (Thread.notify_waiting _)
    · exact hjoining ((Thread.notify_joining _).mp (hactive.symm.trans h))

theorem inv_channel {l : Matching.Label} (hi : Inv s) (h : channelStep s l = some s') : Inv s' := by
  obtain ⟨hd, ha⟩ := hi
  simp only [channelStep, Option.bind_eq_bind, Option.bind_eq_some_iff] at h
  obtain ⟨new, hnew, m, hm, h⟩ := h
  have hd' := delivered_channel hd hnew hm
  obtain ⟨hs, hg⟩ := step_grows hd.matching hnew hm
  have hdone : s.parserDone = true → State.parserDone
      { s with matching := m, registered := s.registered ++ new } = true := by
    intro hdone
    have hparser : s.matching.parser = .ended ∨ s.matching.parser = .died := by
      unfold State.parserDone at hdone
      split at hdone
      · exact .inl ‹_›
      · exact .inr ‹_›
      · cases hdone
      · cases hdone
    unfold State.parserDone at hdone ⊢
    dsimp only
    rw [hg.parser hparser]
    exact hdone
  split at h
  · rename_i hlength
    cases h
    have hempty : hs = [] := by
      have hlen := congrArg List.length hg.queue
      rw [List.length_append] at hlen
      have hq : s.queue.length = s.matching.channel.handlerQueue.length := rfl
      exact List.eq_nil_of_length_eq_zero (by omega)
    have hqueue : m.channel.handlerQueue = s.queue := by
      rw [hg.queue, hempty, List.append_nil]
      rfl
    exact ⟨hd', ha.one, ha.alive, fun h => hqueue.trans (ha.absent h),
      fun h => hqueue.trans (ha.notified h), fun h => hdone (ha.joining h)⟩
  · cases h
    exact inv_notifyAll hd' ha.one ha.alive fun h => hdone (ha.joining h)

theorem inv_snapshot (hi : Inv s) (ht : s.threads t ≠ .absent) (hrest : s.active.rest = [])
    (htodo : s.active.callbacks = fun _ => []) (closed : Bool) : Inv (snapshot s t closed) := by
  obtain ⟨hd, ha⟩ := hi
  obtain ⟨hthread, hactive⟩ := active_eq ha ht
  rw [hrest, htodo] at hd
  unfold snapshot
  split
  · rename_i hend
    simp only [Bool.and_eq_true, List.isEmpty_iff] at hend
    refine ⟨⟨hd.matching, hd.closed, hd.order, hd.callbacks, hd.idle, hd.answered, hd.calling,
      hd.after⟩, fun t' h => ?_, fun t' h => (nomatch h), fun _ => hend.2, fun h => (nomatch h),
      fun h => (nomatch h)⟩
    by_cases heq : t' = t
    · subst heq
      dsimp only [State.setThread] at h
      rw [Function.update_self] at h
      exact absurd rfl h
    · dsimp only [State.setThread] at h
      rw [Function.update_of_ne heq] at h
      cases hthread.symm.trans (ha.one t' h)
      exact absurd rfl heq
  · obtain ⟨hattentive, hbatch⟩ := ha.set ht
      { s.setThread t (.batch closed s.queue) with
        matching := { s.matching with channel := s.matching.channel.act .takeBatch } }
      (.batch closed s.queue) rfl rfl nofun nofun nofun
    refine ⟨?_, hattentive⟩
    rw [hbatch]
    exact delivered_takeBatch hd rfl rfl rfl rfl

theorem inv_set (hi : Inv s) (hthread : s.threads t = thread) (hne : thread ≠ .absent)
    (s' : State) (thread' : Thread) (hthreads : s'.threads = Function.update s.threads t thread')
    (hsame : s'.handlerThread = s.handlerThread ∧ s'.matching = s.matching ∧
      s'.registered = s.registered) (hne' : thread' ≠ .absent)
    (hnotified : thread' = .waiting false → s.queue = [])
    (hjoining : thread' = .joining → s.parserDone = true)
    (horder : s'.started ++ thread'.rest = s.started ++ thread.rest)
    (hcallbacks : ∀ key, of key s'.called ++ thread'.callbacks key ++ callbacksIn key thread'.rest =
      of key s.called ++ thread.callbacks key ++ callbacksIn key thread.rest)
    (hrest : ∀ h ∈ thread'.rest, h ∈ thread.rest)
    (hcalling : ∀ key, thread'.callbacks key ≠ [] → s.matching.response? key ≠ none)
    (hcalled : ∀ key callback, (key, callback) ∈ s'.called → s.matching.response? key ≠ none) :
    Inv s' := by
  obtain ⟨hhandler, hmatching, hreg⟩ := hsame
  obtain ⟨hd, ha⟩ := hi
  have hactive := (active_eq ha (hthread ▸ hne)).2
  rw [hactive, hthread] at hd
  obtain ⟨hattentive, hactive'⟩ := ha.set (hthread ▸ hne) s' thread' hthreads hhandler hne'
    (fun h => by rw [State.queue, hmatching]; exact hnotified h)
    (fun h => by rw [State.parserDone, hmatching]; exact hjoining h)
  refine ⟨?_, hattentive⟩
  rw [hactive']
  exact hd.advance hmatching hreg horder hcallbacks hrest hcalling hcalled

theorem inv_move (hi : Inv s) (hthread : s.threads t = thread) (hne : thread ≠ .absent)
    (thread' : Thread) (hne' : thread' ≠ .absent)
    (hnotified : thread' = .waiting false → s.queue = [])
    (hjoining : thread' = .joining → s.parserDone = true) (hrest : thread'.rest = thread.rest)
    (htodo : ∀ key, thread.callbacks key = [] ∧ thread'.callbacks key = []) :
    Inv (s.setThread t thread') := by
  refine inv_set hi hthread hne _ thread' rfl ⟨rfl, rfl, rfl⟩ hne' hnotified hjoining ?_
    (fun key => ?_) (fun h hmem => hrest ▸ hmem) (fun key hne => absurd (htodo key).2 hne)
    hi.delivered.after
  · rw [hrest]
    rfl
  · rw [hrest, (htodo key).1, (htodo key).2]
    rfl

theorem inv_thread (hi : Inv s) {l : ThreadLabel} (h : threadStep s t l = some s') : Inv s' := by
  have hactive : ∀ {thread}, s.threads t = thread → thread ≠ .absent → s.active = thread :=
    fun hthread hne => hthread ▸ (active_eq hi.attentive (hthread ▸ hne)).2
  unfold threadStep at h
  split at h
  · rename_i hthread
    cases h
    by_cases hc : s.matching.channel.closed = true
    · rw [if_pos hc]
      have hended := hi.delivered.closed hc
      exact inv_move hi hthread nofun .joining nofun nofun
        (fun _ => by simp [State.parserDone, hended]) rfl fun key => ⟨rfl, rfl⟩
    · rw [if_neg hc]
      exact inv_move hi hthread nofun (.ready false) nofun nofun nofun rfl fun key => ⟨rfl, rfl⟩
  · rename_i hthread
    split at h <;> cases h
    exact inv_move hi hthread nofun (.ready true) nofun nofun nofun rfl fun key => ⟨rfl, rfl⟩
  · rename_i closed hthread
    split at h
    · rename_i hempty
      cases h
      simp only [Bool.and_eq_true, List.isEmpty_iff] at hempty
      exact inv_move hi hthread nofun (.waiting false) nofun (fun _ => hempty.2) nofun rfl
        fun key => ⟨rfl, rfl⟩
    · cases h
      have hact := hactive hthread nofun
      exact inv_snapshot hi (by rw [hthread]; exact nofun) (by rw [hact]; rfl)
        (by rw [hact]; rfl) closed
  · rename_i hthread
    cases h
    have hact := hactive hthread nofun
    exact inv_snapshot hi (by rw [hthread]; exact nofun) (by rw [hact]; rfl)
      (by rw [hact]; rfl) false
  · rename_i hthread
    cases h
    exact inv_move hi hthread nofun .top nofun nofun nofun rfl fun key => ⟨rfl, rfl⟩
  · rename_i closed handler rest hthread
    simp only [Handlers.skip_eq_false] at h
    cases h
    have hd := hi.delivered
    rw [hactive hthread nofun] at hd
    refine inv_set hi hthread nofun _ (.handling closed handler (callbacksOf handler) rest) rfl
      ⟨rfl, rfl, rfl⟩ nofun nofun nofun ?_ (fun key => ?_) (fun h hmem => List.mem_cons_of_mem _ hmem)
      (fun key hne => ?_) hd.after
    · simp [Thread.rest]
    · simp [Thread.rest, Thread.callbacks, State.setThread]
    · have hkey : keyOf handler = key := by
        by_contra hkey
        simp [Thread.callbacks, hkey] at hne
      rw [← hkey]
      refine hd.answered handler (by simp [Thread.rest]) fun hnil => ?_
      simp [Thread.callbacks, hnil] at hne
  · rename_i closed handler callback callbacks rest hthread
    cases h
    have hd := hi.delivered
    rw [hactive hthread nofun] at hd
    have hset : s.matching.response? (keyOf handler) ≠ none :=
      hd.calling (keyOf handler) (by simp [Thread.callbacks])
    refine inv_set hi hthread nofun _ (.handling closed handler callbacks rest) rfl
      ⟨rfl, rfl, rfl⟩ nofun nofun nofun rfl (fun key => ?_) (fun h hmem => hmem) (fun key hne => ?_)
      fun key cb hmem => ?_
    · by_cases hkey : keyOf handler = key
      · simp [Thread.rest, Thread.callbacks, of_single, hkey]
      · simp [Thread.rest, Thread.callbacks, of_single, hkey]
    · have hkey : keyOf handler = key := by
        by_contra hkey
        simp [Thread.callbacks, hkey] at hne
      exact hkey ▸ hset
    · rcases List.mem_append.mp hmem with hmem | hmem
      · exact hd.after key cb hmem
      · cases List.mem_singleton.mp hmem
        exact hset
  · rename_i closed handler rest hthread
    cases h
    exact inv_move hi hthread nofun (.batch closed rest) nofun nofun nofun rfl
      fun key => ⟨by simp [Thread.callbacks], rfl⟩
  · cases h

theorem inv_step {l : Label} (hi : Inv s) (h : step s l = some s') : Inv s' := by
  cases l with
  | channel l => exact inv_channel hi h
  | thread t l => exact inv_thread hi h

theorem inv_new (name : String) : Inv { matching := { channel := { name } } } := by
  refine ⟨⟨Matching.inv_new name, fun h => (nomatch h), rfl, fun _ => rfl, fun _ _ => rfl,
    fun _ h => (nomatch h), fun _ h => absurd rfl h, fun _ _ h => (nomatch h)⟩, ?_⟩
  exact ⟨fun _ h => absurd rfl h, fun _ h => (nomatch h), fun _ => rfl, fun _ => rfl,
    fun h => (nomatch h)⟩

-- ---------------------------------------------------------------------------
-- Progress
-- ---------------------------------------------------------------------------

/-- A thread that cannot go on has nothing left to do. -/
theorem done_of_stuck (hi : Inv s) (hstuck : ¬ s.CanStep) :
    s.active.rest = [] ∧ s.queue = [] ∧ ∀ key, s.active.callbacks key = [] := by
  have ha := hi.attentive
  cases ht : s.handlerThread with
  | none =>
    have hactive : s.active = .absent := by rw [State.active, ht]; rfl
    rw [hactive]
    exact ⟨rfl, ha.absent ht, fun _ => rfl⟩
  | some t =>
    have hactive : s.active = s.threads t := by rw [State.active, ht]; rfl
    have hno : ∀ l, threadStep s t l = none := by
      intro l
      cases hl : threadStep s t l with
      | none => rfl
      | some s' => exact absurd ⟨t, l, s', hl⟩ hstuck
    cases hthread : s.threads t with
    | absent => exact absurd hthread (ha.alive t ht)
    | top =>
      have h := hno .readClosed
      simp [threadStep, hthread] at h
    | joining =>
      have h := hno .join
      simp [threadStep, hthread, ha.joining (hactive.trans hthread)] at h
    | ready closed =>
      have h := hno .lock
      simp only [threadStep, hthread] at h
      split at h <;> cases h
    | waiting notified =>
      cases notified with
      | true =>
        have h := hno .wake
        simp [threadStep, hthread] at h
      | false =>
        rw [hactive, hthread]
        exact ⟨rfl, ha.notified (hactive.trans hthread), fun _ => rfl⟩
    | batch closed rest =>
      have h := hno .next
      cases rest <;> simp [threadStep, hthread] at h
    | handling closed h callbacks rest =>
      cases callbacks with
      | nil =>
        have h := hno .handlerReturns
        simp [threadStep, hthread] at h
      | cons callback callbacks =>
        have h := hno .call
        simp [threadStep, hthread] at h

theorem steps_eq (ht : s.handlerThread = some t) (hthread : s.threads t = thread) :
    s.steps = thread.steps s.queue := by
  rw [State.steps, ht, Option.elim_some, hthread]

theorem steps_setThread (ht : s.handlerThread = some t) (thread : Thread) :
    (s.setThread t thread).steps = thread.steps s.queue :=
  steps_eq (s := s.setThread t thread) ht (Function.update_self ..)

theorem steps_snapshot (ht : s.handlerThread = some t) (closed : Bool) :
    (snapshot s t closed).steps ≤ if closed && s.queue.isEmpty then 0 else cost s.queue + 4 := by
  unfold snapshot
  split
  · exact Nat.le_refl 0
  · have hbatch := steps_eq (s := { s.setThread t (.batch closed s.queue) with
      matching := { s.matching with channel := s.matching.channel.act .takeBatch } }) ht
      (Function.update_self ..)
    exact hbatch.le

theorem steps_lt (hi : Inv s) {l : ThreadLabel} (h : threadStep s t l = some s') :
    s'.steps < s.steps := by
  have hbefore : ∀ {thread}, s.threads t = thread → thread ≠ .absent →
      s.handlerThread = some t ∧ s.steps = thread.steps s.queue := by
    intro thread hthread hne
    have ht := hi.attentive.one t (hthread ▸ hne)
    exact ⟨ht, steps_eq ht hthread⟩
  unfold threadStep at h
  split at h
  · rename_i hthread
    cases h
    obtain ⟨ht, hsteps⟩ := hbefore hthread nofun
    rw [steps_setThread ht, hsteps]
    split
    · exact Nat.lt_succ_self _
    · simp only [Thread.steps]
      omega
  · rename_i hthread
    split at h <;> cases h
    obtain ⟨ht, hsteps⟩ := hbefore hthread nofun
    rw [steps_setThread ht, hsteps]
    exact Nat.lt_succ_self _
  · rename_i closed hthread
    obtain ⟨ht, hsteps⟩ := hbefore hthread nofun
    split at h
    · cases h
      rw [steps_setThread ht, hsteps]
      exact Nat.succ_pos _
    · rename_i hne
      cases h
      refine (steps_snapshot ht closed).trans_lt ?_
      rw [hsteps]
      simp only [Thread.steps, queueCost]
      cases hq : s.queue <;> cases closed <;> simp [hq] at hne ⊢
  · rename_i hthread
    cases h
    obtain ⟨ht, hsteps⟩ := hbefore hthread nofun
    refine (steps_snapshot ht false).trans_lt ?_
    rw [hsteps]
    exact Nat.lt_succ_self _
  · rename_i hthread
    cases h
    obtain ⟨ht, hsteps⟩ := hbefore hthread nofun
    rw [steps_setThread ht, hsteps]
    simp only [Thread.steps, cost]
    omega
  · rename_i closed handler rest hthread
    simp only [Handlers.skip_eq_false] at h
    cases h
    obtain ⟨ht, hsteps⟩ := hbefore hthread nofun
    have hafter : State.steps _ = _ := steps_setThread ht (.handling closed handler (callbacksOf handler) rest)
    rw [hsteps]
    refine hafter.trans_lt ?_
    simp only [Thread.steps, cost]
    omega
  · rename_i closed handler callback callbacks rest hthread
    cases h
    obtain ⟨ht, hsteps⟩ := hbefore hthread nofun
    have hafter : State.steps _ = _ := steps_setThread ht (.handling closed handler callbacks rest)
    rw [hsteps]
    refine hafter.trans_lt ?_
    simp only [Thread.steps, List.length_cons]
    omega
  · rename_i closed handler rest hthread
    cases h
    obtain ⟨ht, hsteps⟩ := hbefore hthread nofun
    rw [steps_setThread ht, hsteps]
    simp only [Thread.steps, List.length_nil]
    omega
  · cases h

theorem steps_bounded (hi : Inv s) (labels : List Label)
    (hthread : ∀ l ∈ labels, ∃ n l', l = .thread n l') (h : Run.exec step s labels = some u) :
    labels.length ≤ s.steps := by
  induction labels generalizing s with
  | nil => exact Nat.zero_le _
  | cons l labels ih =>
    obtain ⟨s', hs, hrest⟩ := Run.exec_cons.mp h
    obtain ⟨n, l', rfl⟩ := hthread l List.mem_cons_self
    have hlt := steps_lt hi hs
    have hle := ih (inv_step hi hs) (fun l hl => hthread l (List.mem_cons_of_mem _ hl)) hrest
    exact hle.trans_lt hlt

theorem runsHandlers_of_inv (hi : Inv s) : RunsHandlers s := by
  obtain ⟨hd, ha⟩ := hi
  refine ⟨fun t t' h h' => ?_, ⟨s.active.rest ++ s.queue, ?_, fun hstuck => ?_⟩, fun key =>
    ⟨s.active.callbacks key ++ callbacksIn key (s.active.rest ++ s.queue) ++ waiting s.matching key,
      ?_, fun hstuck hresp => ?_⟩, hd.after, fun labels t hthread h => steps_bounded ⟨hd, ha⟩ labels hthread h⟩
  · exact Option.some.inj ((ha.one t h).symm.trans (ha.one t' h'))
  · rw [← List.append_assoc, hd.order]
    rfl
  · obtain ⟨hrest, hqueue, -⟩ := done_of_stuck ⟨hd, ha⟩ hstuck
    rw [hrest, hqueue]
    rfl
  · rw [← hd.callbacks key, List.append_assoc, List.append_assoc, List.append_assoc]
  · obtain ⟨hrest, hqueue, htodo⟩ := done_of_stuck ⟨hd, ha⟩ hstuck
    rw [hrest, hqueue, htodo, hd.idle key hresp]
    rfl

/-- In every run, every handler is run once, in order and by one thread, and
the callbacks of every request are called once, in order and after its
response has been set. -/
theorem runs_handlers (name : String) (labels : List Label) (s : State)
    (hrun : Run.exec step { matching := { channel := { name } } } labels = some s) :
    RunsHandlers s :=
  runsHandlers_of_inv (Run.exec_invariant (fun hi _ hs => inv_step hi hs) (inv_new name)
    Run.meets_true hrun)

end

/-- One callback before the response and one after the thread has ended. -/
def twoCallbacks : List Label :=
  [.channel (.draw "threads"), .channel (.make 1), .channel (.insert 1),
    .channel (.act (.onResponse 1 7)), .channel (.receive Matching.threadsResponse), .channel .settle,
    .thread 0 .readClosed, .thread 0 .lock, .thread 0 .next, .thread 0 .call,
    .thread 0 .handlerReturns, .thread 0 .next, .channel (.noMoreMessages "end"),
    .thread 0 .readClosed, .thread 0 .join, .thread 0 .lock, .thread 0 .next,
    .thread 0 .handlerReturns, .thread 0 .next, .thread 0 .readClosed, .thread 0 .join,
    .thread 0 .lock, .channel (.act (.onResponse 1 8)), .thread 1 .readClosed]

theorem runs_twoCallbacks : ∃ s,
    Run.exec step { matching := { channel := { name := "server" } } } twoCallbacks = some s ∧
      RunsHandlers s := by
  have hsome : (Run.exec step { matching := { channel := { name := "server" } } }
      twoCallbacks).isSome = true := by decide +kernel
  obtain ⟨s, hrun⟩ := Option.isSome_iff_exists.mp hsome
  exact ⟨s, hrun, runs_handlers _ _ _ hrun⟩

end Debugpy.RunHandlers
