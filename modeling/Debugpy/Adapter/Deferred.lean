import Debugpy.Adapter.Frames

/-!
# Deferred events

What the launcher and the server have the client told is kept in a list until
the start request has been responded to with success, and is then written
before anything that arrives later. Once there is a launcher or a server, the
list is there exactly until that response, and in every state what has been
written and what is in the list make up what has arrived.
-/

namespace Debugpy.Deferred

open Adapter
open Proc (Keeps Frame Triple)

-- ---------------------------------------------------------------------------
-- The events and the start request
-- ---------------------------------------------------------------------------

def isForwarded : Sent → Bool
  | .forwarded .. => true
  | _ => false

def passed (e : Event) : Sent := .forwarded e.event e.body

def forwards (w : World) : List Sent := w.toClient.filter isForwarded
def arrivals (w : World) : List Sent := w.arrived.map passed
def pending (w : World) : List Event := w.client.deferredEvents.getD []

def Answered (w : World) : Prop := ∃ id ∈ w.latestStart, (w.responses id).isSome = true

def isSuccess : Option (Except Exn Json) → Bool
  | some (.ok _) => true
  | _ => false

def isFailure : Option (Except Exn Json) → Bool
  | some (.error _) => true
  | _ => false

def Succeeded (w : World) : Prop := ∃ id ∈ w.latestStart, isSuccess (w.responses id) = true
def Failed (w : World) : Prop := ∃ id ∈ w.latestStart, isFailure (w.responses id) = true

instance : Decidable (Answered w) := inferInstanceAs (Decidable (∃ id ∈ w.latestStart, _))
instance : Decidable (Succeeded w) := inferInstanceAs (Decidable (∃ id ∈ w.latestStart, _))

def Alone (w : World) : Prop := w.launcher = none ∧ w.server = none

instance : Decidable (Alone w) :=
  decidable_of_iff (w.launcher.isNone = true ∧ w.server.isNone = true) (by simp [Alone])

/-- No event is written ahead of the response to the start request. As long as
the client's channel takes what is written: what has been written and what is in
the list are what has arrived, in order, unless the response is a failure; the
list is there exactly until a success, once anybody is there to send events; and
after a success all has been written. -/
structure Delivered (w : World) : Prop where
  after : ∀ ms, ms <+: w.toClient → (∀ id ∈ w.latestStart, ∀ m ∈ ms, m.isResponseTo id = false) →
    ∀ m ∈ ms, isForwarded m = false
  kept : w.outlet.spent = false → ¬ Failed w → forwards w ++ (pending w).map passed = arrivals w
  listed : w.outlet.spent = false → ¬ Alone w → (w.client.deferredEvents = none ↔ Succeeded w)
  all : w.outlet.spent = false → Succeeded w → forwards w = arrivals w

-- ---------------------------------------------------------------------------
-- The condition
-- ---------------------------------------------------------------------------

def isLost : Reply → Bool
  | .lost => true
  | _ => false

/-- The handler may pass a start request on to the server when it goes on. -/
def PassesOn : Suspended → Prop
  | .launcher .. | .process _ | .connection _ | .attach .. | .finalize (.start _) => True
  | .finalize _ => False

/-- The client sends no start request after one that the adapter has accepted,
in a session with neither launcher nor server; the server responds to the start
request and to `"configurationDone"`; no launcher connects after the success;
and the debuggee does not end before the response. -/
def LabelTimely (w : World) : Label → Prop
  | .request command _ => (IsStart command → Alone w → w.client.startRequest.isNone = true) ∧
      (IsStart command ∨ command = "configurationDone" → isLost w.env.reply = false)
  | .resume => ∀ stage ∈ w.suspended, PassesOn stage → isLost w.env.reply = false
  | .launcherConnects => ¬ Succeeded w
  | .launcherEvent event _ => event = "terminated" → Answered w
  | _ => True

/-- The condition on a step, as long as the client's channel works. -/
def Timely (w : World) (t : Turn) : Prop :=
  w.outlet.spent = false → LabelTimely { w with env := t.env } t.label

-- ---------------------------------------------------------------------------
-- The invariant
-- ---------------------------------------------------------------------------

/-- The request of a handler that waits: that of a start handler is the one
acted on last, and the others are none. -/
def Waits (n : Uid) (ℓ : Option Uid) : Suspended → Prop
  | .launcher s _ | .process s | .connection s | .finalize (.start s) => some s.request.id = ℓ
  | .attach s _ _ subPid => some s.request.id = ℓ ∧ subPid = none
  | .finalize (.disconnect r) | .finalize (.terminate r) => r.id < n ∧ some r.id ≠ ℓ
  | .finalize (.responded r) => r.id < n
  | .finalize .nothing => True

/-- `n` messages were received, and the start request acted on last is `ℓ`. -/
structure Base (n : Uid) (ℓ : Option Uid) (ε : Env) (w : World) : Prop where
  received : w.received = n
  env : w.env = ε
  latest : w.latestStart = ℓ
  old : ∀ id ∈ ℓ, id < n
  fresh : ∀ id, n ≤ id → w.responses id = none
  start : ∀ start ∈ w.client.startRequest, start.id < n
  evaluating : ∀ r ∈ w.evaluating, r.id < n ∧ some r.id ≠ ℓ
  suspended : ∀ stage ∈ w.suspended, Waits n ℓ stage
  after : ∀ ms, ms <+: w.toClient → (∀ id ∈ ℓ, ∀ m ∈ ms, m.isResponseTo id = false) →
    ∀ m ∈ ms, isForwarded m = false
  told : Answered w → ∃ id ∈ ℓ, ∃ m ∈ w.toClient, m.isResponseTo id = true

/-- The list while the client's channel works, but for the moment between a
success and the list being written. -/
structure Stays (w : World) : Prop where
  content : ¬ Failed w → forwards w ++ (pending w).map passed = arrivals w
  written : w.client.deferredEvents = none →
    Succeeded w ∧ w.client.startRequest.isSome = true
  start : ∀ start ∈ w.client.startRequest, some start.id = w.latestStart
  waiting : ∀ stage ∈ w.suspended, stage.starts.isSome = true → ¬ Succeeded w

structure Part (n : Uid) (ℓ : Option Uid) (ε : Env) (w : World) : Prop extends Base n ℓ ε w where
  stays : w.outlet.spent = false → Stays w
  idle : Alone w → w.arrived = [] ∧ forwards w = [] ∧ pending w = []

structure Inv (n : Uid) (ℓ : Option Uid) (ε : Env) (w : World) : Prop extends Part n ℓ ε w where
  closed : w.outlet.spent = false → Succeeded w → Alone w ∨ w.client.deferredEvents = none

/-- What most code leaves as it is, of what decides about the list. -/
structure Steady (w w' : World) : Prop where
  latest : w'.latestStart = w.latestStart
  responses : w'.responses = w.responses
  start : w'.client.startRequest.map (·.id) = w.client.startRequest.map (·.id)
  deferred : w'.client.deferredEvents = w.client.deferredEvents
  spent : w.outlet.spent = true → w'.outlet.spent = true
  launcher : w'.launcher = none ↔ w.launcher = none
  server : w'.server = none ↔ w.server = none
  suspended : w'.suspended = w.suspended

/-- All that the invariant is about is as it was. -/
structure Same (w w' : World) : Prop extends Steady w w' where
  received : w'.received = w.received
  env : w'.env = w.env
  evaluating : w'.evaluating = w.evaluating
  toClient : w'.toClient = w.toClient
  arrived : w'.arrived = w.arrived
  outlet : w'.outlet = w.outlet

/-- Most code does not lose it. -/
def Carried (P : World → Prop) : Prop := ∀ {w w'}, Steady w w' → P w → P w'

/-- Requests that are responded to do not lose it either. -/
def CarriedOver (P : World → Prop) : Prop := ∀ {w : World} {r b}, P w → P (w.respond r b)

section
variable {n : Uid} {ℓ : Option Uid} {ε : Env} {r r' : Request} {w w' : World}

-- ---------------------------------------------------------------------------
-- What is not about the events
-- ---------------------------------------------------------------------------

theorem Steady.refl (w : World) : Steady w w := ⟨rfl, rfl, rfl, rfl, id, .rfl, .rfl, rfl⟩

theorem Same.refl (w : World) : Same w w := ⟨.refl w, rfl, rfl, rfl, rfl, rfl, rfl⟩

theorem Steady.pending (h : Steady w w') : pending w' = pending w :=
  congrArg (Option.getD · []) h.deferred

theorem Steady.answered (h : Steady w w') : Answered w' ↔ Answered w := by
  simp only [Answered, h.latest, h.responses]

theorem Steady.succeeded (h : Steady w w') : Succeeded w' ↔ Succeeded w := by
  simp only [Succeeded, h.latest, h.responses]

theorem Steady.failed (h : Steady w w') : Failed w' ↔ Failed w := by
  simp only [Failed, h.latest, h.responses]

theorem Steady.alone (h : Steady w w') : Alone w' ↔ Alone w := and_congr h.launcher h.server

theorem Steady.unspent (h : Steady w w') (hs : w'.outlet.spent = false) : w.outlet.spent = false := by
  by_contra hne
  rw [h.spent (eq_true_of_ne_false hne)] at hs
  cases hs

theorem Steady.mem_start (h : Steady w w') {start' : Request} (hs : start' ∈ w'.client.startRequest) :
    ∃ start ∈ w.client.startRequest, start.id = start'.id := by
  have hmap : w'.client.startRequest.map (·.id) = some start'.id := by
    rw [hs]
    rfl
  rw [h.start] at hmap
  exact Option.map_eq_some_iff.mp hmap

theorem Steady.isSome_start (h : Steady w w') :
    w'.client.startRequest.isSome = w.client.startRequest.isSome := by
  have hmap := congrArg Option.isSome h.start
  simpa using hmap

theorem steady_sent (w : World) (m : Sent) : Steady w (w.sent m) :=
  { Steady.refl w with spent := Outlet.spent_after 1 }

theorem Same.forwards (h : Same w w') : forwards w' = forwards w :=
  congrArg (List.filter isForwarded) h.toClient

theorem Base.same (hi : Base n ℓ ε w) (h : Same w w') : Base n ℓ ε w' where
  received := h.received.trans hi.received
  env := h.env.trans hi.env
  latest := h.latest.trans hi.latest
  old := hi.old
  fresh := h.responses ▸ hi.fresh
  start start' hs := by
    obtain ⟨start, hs, hid⟩ := h.mem_start hs
    exact hid ▸ hi.start start hs
  evaluating := h.evaluating ▸ hi.evaluating
  suspended := h.suspended ▸ hi.suspended
  after := h.toClient ▸ hi.after
  told ha := h.toClient ▸ hi.told (h.answered.mp ha)

theorem Stays.same (hi : Stays w) (h : Same w w') : Stays w' where
  content hf := by
    rw [h.forwards, h.pending, arrivals, h.arrived]
    exact hi.content (h.failed.not.mp hf)
  written hd := by
    rw [h.succeeded, h.isSome_start]
    exact hi.written (h.deferred ▸ hd)
  start start' hs := by
    obtain ⟨start, hs, hid⟩ := h.mem_start hs
    rw [h.latest, ← hid]
    exact hi.start start hs
  waiting stage hst hstarts := h.succeeded.not.mpr (hi.waiting stage (h.suspended ▸ hst) hstarts)

theorem Inv.same (hi : Inv n ℓ ε w) (h : Same w w') : Inv n ℓ ε w' where
  toBase := hi.toBase.same h
  stays hs := (hi.stays (h.outlet ▸ hs)).same h
  idle ha := by
    rw [h.arrived, h.forwards, h.pending]
    exact hi.idle (h.alone.mp ha)
  closed hs hsu := by
    rw [h.alone, h.deferred]
    exact hi.closed (h.outlet ▸ hs) (h.succeeded.mp hsu)

theorem same_of_core (h : w'.core = w.core) : Same w w' := by
  have hclient : w'.client.core = w.client.core := congrArg Core.client h
  have hstart : w'.client.core.startRequest = w.client.core.startRequest := by rw [hclient]
  have hdeferred : w'.client.core.deferredEvents = w.client.core.deferredEvents := by rw [hclient]
  have hlauncher : w'.launcher.map (·.isConnected) = w.launcher.map (·.isConnected) :=
    congrArg Core.launcher h
  have hserver : w'.server.isSome = w.server.isSome := congrArg Core.server h
  have houtlet : w'.outlet = w.outlet := congrArg Core.outlet h
  refine ⟨⟨congrArg Core.latestStart h, congrArg Core.responses h, congrArg (Option.map (·.id)) hstart,
    hdeferred, fun hs => houtlet ▸ hs, ?_, ?_, congrArg Core.suspended h⟩, congrArg Core.received h,
    congrArg Core.env h, congrArg Core.evaluating h, congrArg Core.toClient h,
    congrArg Core.arrived h, houtlet⟩
  · rw [← Option.map_eq_none_iff (f := (·.isConnected)), hlauncher, Option.map_eq_none_iff]
  · rw [← Option.isSome_eq_false_iff.trans Option.isNone_iff_eq_none, hserver,
      Option.isSome_eq_false_iff, Option.isNone_iff_eq_none]

theorem same_share (w : World) (connect : Property) :
    Same w (w.withClient (·.shareConnect connect)) := by
  obtain ⟨hdeferred, hstart, -⟩ := shareConnect_keeps w.client connect
  exact { Same.refl w with start := hstart, deferred := hdeferred }

theorem answered_iff : Answered w ↔ Succeeded w ∨ Failed w := by
  constructor
  · rintro ⟨id, hid, hsome⟩
    obtain ⟨b, hb⟩ := Option.isSome_iff_exists.mp hsome
    cases b with
    | ok => exact .inl ⟨id, hid, by simp [hb, isSuccess]⟩
    | error => exact .inr ⟨id, hid, by simp [hb, isFailure]⟩
  · rintro (⟨id, hid, h⟩ | ⟨id, hid, h⟩)
    · refine ⟨id, hid, ?_⟩
      cases hb : w.responses id with
      | none => simp [hb, isSuccess] at h
      | some => rfl
    · refine ⟨id, hid, ?_⟩
      cases hb : w.responses id with
      | none => simp [hb, isFailure] at h
      | some => rfl

theorem Succeeded.answered (h : Succeeded w) : Answered w := answered_iff.mpr (.inl h)

theorem Succeeded.not_failed (h : Succeeded w) : ¬ Failed w := by
  rintro ⟨id, hid, hfail⟩
  obtain ⟨id', hid', hok⟩ := h
  cases hid.symm.trans hid'
  cases hb : w.responses id with
  | none => simp [hb, isFailure] at hfail
  | some b => cases b <;> simp [hb, isFailure, isSuccess] at hfail hok

-- ---------------------------------------------------------------------------
-- Writing to the client
-- ---------------------------------------------------------------------------

theorem forwards_sent (h : isForwarded m = false) : forwards (w.sent m) = forwards w := by
  simp [forwards, h]

theorem Base.write (hb : Base n ℓ ε w) (hm : isForwarded m = true → Answered w) :
    Base n ℓ ε (w.sent m) := by
  refine { hb with after := fun ms hpre hno => ?_, told := fun ha => ?_ }
  · rcases List.prefix_concat_iff.mp hpre with rfl | hpre
    · intro x hx
      have hold : ∀ id ∈ ℓ, ∀ x ∈ w.toClient, x.isResponseTo id = false :=
        fun id hid x hx => hno id hid x (List.mem_append_left _ hx)
      rcases List.mem_append.mp hx with hx | hx
      · exact hb.after w.toClient (List.prefix_refl _) hold x hx
      · rw [List.mem_singleton.mp hx]
        by_contra hfor
        obtain ⟨id, hid, x, hx, hresp⟩ := hb.told (hm (eq_true_of_ne_false hfor))
        rw [hold id hid x hx] at hresp
        cases hresp
    · exact hb.after ms hpre hno
  · obtain ⟨id, hid, x, hx, hresp⟩ := hb.told ha
    exact ⟨id, hid, x, List.mem_append_left _ hx, hresp⟩

theorem Stays.sent (hs : Stays w) (hm : isForwarded m = false) : Stays (w.sent m) :=
  { hs with content := fun hf => by rw [forwards_sent hm]; exact hs.content hf }

theorem Part.sent (hi : Part n ℓ ε w) (hm : isForwarded m = false) : Part n ℓ ε (w.sent m) where
  toBase := hi.write fun h => by simp [hm] at h
  stays hs := (hi.stays ((steady_sent w m).unspent hs)).sent hm
  idle ha := by
    rw [forwards_sent hm]
    exact hi.idle ha

theorem Inv.sent (hi : Inv n ℓ ε w) (hm : isForwarded m = false) : Inv n ℓ ε (w.sent m) where
  toPart := hi.toPart.sent hm
  closed hs := hi.closed ((steady_sent w m).unspent hs)

theorem Base.respond (hb : Base n ℓ ε w) (hr : r.id < n) :
    Base n ℓ ε ((w.sent (.response r b)).respond r b) := by
  have hb' : Base n ℓ ε (w.sent (.response r b)) := hb.write fun h => by cases h
  refine { hb' with fresh := fun id hid => ?_, told := fun ha => ?_ }
  · have hne : id ≠ r.id := fun h => Nat.not_lt.mpr hid (h ▸ hr)
    simpa [Function.update_of_ne hne] using hb.fresh id hid
  · obtain ⟨id, hid, hsome⟩ := ha
    by_cases hr : id = r.id
    · refine ⟨id, hb.latest ▸ hid, .response r b, by simp, ?_⟩
      simp [Sent.isResponseTo, hr]
    · have hold : (w.responses id).isSome = true := by simpa [Function.update_of_ne hr] using hsome
      obtain ⟨id, hid, x, hx, hresp⟩ := hb.told ⟨id, hid, hold⟩
      exact ⟨id, hid, x, List.mem_append_left _ hx, hresp⟩

theorem failed_respond (hnone : w.responses r.id = none) (hf : Failed w) : Failed (w.respond r b) := by
  obtain ⟨id, hid, hfail⟩ := hf
  have hne : id ≠ r.id := fun h => by
    rw [h, hnone] at hfail
    cases hfail
  exact ⟨id, hid, by simpa [Function.update_of_ne hne] using hfail⟩

theorem succeeded_respond (hnone : w.responses r.id = none) (hs : Succeeded w) :
    Succeeded (w.respond r b) := by
  obtain ⟨id, hid, hok⟩ := hs
  have hne : id ≠ r.id := fun h => by
    rw [h, hnone] at hok
    cases hok
  exact ⟨id, hid, by simpa [Function.update_of_ne hne] using hok⟩

/-- A success is an old one, or this is the response. -/
theorem Succeeded.of_respond (h : Succeeded (w.respond r b)) :
    Succeeded w ∨ some r.id = w.latestStart ∧ ∃ body, b = .ok body := by
  obtain ⟨id, hid, hok⟩ := h
  by_cases hne : id = r.id
  · subst hne
    cases b with
    | ok body => exact .inr ⟨hid.symm, body, rfl⟩
    | error e => simp [isSuccess] at hok
  · exact .inl ⟨id, hid, by simpa [Function.update_of_ne hne] using hok⟩

/-- No start handler waits. -/
def Resting (w : World) : Prop := ∀ stage ∈ w.suspended, stage.starts = none

theorem Stays.respond (hs : Stays w) (hnone : w.responses r.id = none)
    (hrest : ∀ body, b = .ok body → some r.id = w.latestStart → Resting w) : Stays (w.respond r b) where
  content hf := hs.content fun h => hf (failed_respond hnone h)
  written hd := ⟨succeeded_respond hnone (hs.written hd).1, (hs.written hd).2⟩
  start := hs.start
  waiting stage hst hstarts hsu := by
    rcases hsu.of_respond with hsu | ⟨hlatest, body, hb⟩
    · exact hs.waiting stage hst hstarts hsu
    · rw [hrest body hb hlatest stage hst] at hstarts
      cases hstarts

theorem Part.respond (hi : Part n ℓ ε w) (hr : r.id < n) (hnone : w.responses r.id = none)
    (hrest : w.outlet.spent = false → ∀ body, b = .ok body → some r.id = ℓ → Resting w) :
    Part n ℓ ε ((w.sent (.response r b)).respond r b) where
  toBase := hi.toBase.respond hr
  stays hs := by
    have hspent := (steady_sent w (.response r b)).unspent hs
    refine ((hi.stays hspent).sent rfl).respond hnone fun body hb hlatest => ?_
    exact hrest hspent body hb (hi.latest ▸ hlatest)
  idle := (hi.sent rfl).idle

/-- A success needs the list to be written next, unless there is nothing in it
and nobody to add to it. -/
theorem Inv.respond (hi : Inv n ℓ ε w) (hr : r.id < n) (hnone : w.responses r.id = none)
    (hb : w.outlet.spent = false → ∀ body, b = .ok body → some r.id = ℓ → Resting w ∧ Alone w) :
    Inv n ℓ ε ((w.sent (.response r b)).respond r b) where
  toPart := hi.toPart.respond hr hnone fun hs body hok hℓ => (hb hs body hok hℓ).1
  closed hs hsu := by
    have hspent : w.outlet.spent = false := (steady_sent w (.response r b)).unspent hs
    rcases Succeeded.of_respond (w := w.sent (.response r b)) hsu with hsu | ⟨hlatest, body, hok⟩
    · exact hi.closed hspent hsu
    · exact .inl (hb hspent body hok (hi.latest ▸ hlatest)).2

theorem Inv.suspend {stage : Suspended} (hi : Inv n ℓ ε w) (h : Waits n ℓ stage)
    (hno : w.outlet.spent = false → stage.starts.isSome = true → ¬ Succeeded w) :
    Inv n ℓ ε { w with suspended := some stage } :=
  { hi with
    suspended := fun _ hs => Option.some.inj hs ▸ h
    stays := fun hs =>
      { hi.stays hs with waiting := fun _ hst => Option.some.inj hst ▸ hno hs } }

theorem Inv.spend (hi : Inv n ℓ ε w) {outlet : Outlet} (ho : outlet.spent = true) :
    Inv n ℓ ε { w with outlet } :=
  { hi with
    stays := fun hs => by simp [ho] at hs
    closed := fun hs => by simp [ho] at hs }

-- ---------------------------------------------------------------------------
-- Writing the deferred events
-- ---------------------------------------------------------------------------

theorem forwards_forwarded (es : List Event) :
    forwards (w.forwarded es) = forwards w ++ es.map passed := by
  have hall : (es.map passed).filter isForwarded = es.map passed := by
    rw [List.filter_eq_self]
    intro m hm
    obtain ⟨e, -, rfl⟩ := List.mem_map.mp hm
    rfl
  change (w.toClient ++ es.map passed).filter isForwarded = _
  rw [List.filter_append, hall]
  rfl

theorem keeps_propagateDeferredEvents (l : Option Launcher) (s : Option Server) :
    Keeps (.preserving fun w => Base n ℓ ε w ∧ Answered w ∧ w.launcher = l ∧ w.server = s)
      propagateDeferredEvents := by
  have hall (es : List Event) :
      Keeps (.preserving fun w => Base n ℓ ε w ∧ Answered w ∧ w.launcher = l ∧ w.server = s)
        (forwardAll es) := by
    induction es with
    | nil => exact .pure
    | cons e es ih =>
      exact .bind (keeps_write fun w ⟨hb, ha, hl, hs⟩ => ⟨hb.write fun _ => ha, ha, hl, hs⟩) fun _ => ih
  refine .bind .get fun w => ?_
  split
  · exact .bind (hall _) fun _ => .modify fun w ⟨hb, ha, hl, hs⟩ => ⟨{ hb with }, ha, hl, hs⟩
  · exact .raise

/-- After the success all that is in the list is written, unless the client's
channel fails. -/
theorem Part.flush (hi : Part n ℓ ε w) (hsu : Succeeded w)
    (hstart : w.client.startRequest.isSome = true) : Inv n ℓ ε (propagateDeferredEvents.run w).2 := by
  obtain ⟨hb, -, hl, hs⟩ := Proc.keeps_preserving.mp
    (keeps_propagateDeferredEvents w.launcher w.server) w ⟨hi.toBase, hsu.answered, rfl, rfl⟩
  cases hd : w.client.deferredEvents with
  | none =>
    have hrun : (propagateDeferredEvents.run w).2 = w := by
      simp [propagateDeferredEvents, Proc.run_bind, hd]
    rw [hrun]
    exact { hi with closed := fun _ _ => .inr hd }
  | some es =>
    have hpending : pending w = es := by simp [pending, hd]
    by_cases ht : w.outlet.Takes es.length
    · rw [propagateDeferredEvents_ok hd ht] at hb ⊢
      refine { toBase := hb, stays := fun hsp => ?_, idle := fun ha => ?_, closed := fun _ _ => .inr rfl }
      · have hspent : w.outlet.spent = false := by
          by_contra hne
          have hafter := Outlet.spent_after es.length (eq_true_of_ne_false hne)
          exact absurd hsp (by simpa using hafter)
        have hstays := hi.stays hspent
        refine {
          content := fun hf => ?_
          written := fun _ => ⟨hsu, hstart⟩
          start := hstays.start
          waiting := hstays.waiting }
        change forwards (w.forwarded es) ++ [] = arrivals w
        rw [forwards_forwarded, List.append_nil, ← hpending]
        exact hstays.content hf
      · obtain ⟨harrived, hforwards, hnil⟩ := hi.idle ha
        refine ⟨harrived, ?_, rfl⟩
        change forwards (w.forwarded es) = []
        rw [forwards_forwarded, hforwards, ← hpending, hnil]
        rfl
    · obtain ⟨e, w', hrun, -, hspent⟩ := propagateDeferredEvents_fails hd ht
      rw [hrun] at hb hl hs ⊢
      refine { toBase := hb, stays := fun h => ?_, idle := fun ha => ?_, closed := fun h => ?_ }
      · simp [hspent] at h
      · have hnil := (hi.idle ⟨hl ▸ ha.1, hs ▸ ha.2⟩).2.2
        rw [hpending] at hnil
        exact absurd (hnil ▸ Outlet.takes_zero _) ht
      · simp [hspent] at h

/-- The start request is told of its success: the list is written next. -/
theorem respond_start (hi : Inv n ℓ ε w) (hr : r.id < n) (hℓ : w.outlet.spent = false → some r.id = ℓ)
    (hrest : Resting w) (hstart : w.client.startRequest.isSome = true) {body : Json} :
    Inv n ℓ ε ((do
      r.respond (.ok body)
      propagateDeferredEvents : Code Unit).run w).2 := by
  rw [Proc.run_bind]
  cases hnone : w.responses r.id with
  | some b' =>
    rw [respond_again (by simp [hnone])]
    exact hi
  | none =>
    cases hs : w.outlet.spent with
    | true =>
      rw [respond_spent hnone hs]
      exact hi
    | false =>
      rw [respond_ok hnone hs]
      refine (hi.toPart.respond hr hnone fun _ _ _ _ => hrest).flush ?_ hstart
      exact ⟨r.id, hi.latest.trans (hℓ hs).symm, by simp [isSuccess]⟩

-- ---------------------------------------------------------------------------
-- The frames
-- ---------------------------------------------------------------------------

/-- `P` may be lost where a handler waits. -/
def holding (n : Uid) (ℓ : Option Uid) (ε : Env) (P : World → Prop) : Frame World :=
  .leaving (fun w => Inv n ℓ ε w ∧ P w) (Inv n ℓ ε)

variable {P : World → Prop}

theorem Inv.leaves {p : Code α} (hi : Inv n ℓ ε w) (hw : P w) (h : Keeps (holding n ℓ ε P) p) :
    Triple p w (fun _ w' => Inv n ℓ ε w' ∧ P w') fun _ w' => Inv n ℓ ε w' :=
  .mono (h.leaves And.left ⟨hi, hw⟩) (fun _ _ h => h) fun _ _ h => h.1

theorem Inv.kept {p : Code α} (hi : Inv n ℓ ε w) (hw : P w) (h : Keeps (holding n ℓ ε P) p) :
    Inv n ℓ ε (p.run w).2 :=
  Proc.triple_state.mp (.mono (hi.leaves hw h) (fun _ _ h => h.1) fun _ _ h => h)

/-- The invariant is kept, and no handler waits but one that stops here. -/
abbrev Rests (n : Uid) (ℓ : Option Uid) (ε : Env) (p : Code α) (w : World) : Prop :=
  Triple p w (fun _ w' => Inv n ℓ ε w' ∧ Resting w') fun _ w' => Inv n ℓ ε w'

theorem Inv.rests {p : Code α} (hi : Inv n ℓ ε w) (hw : P w) (hP : ∀ {w}, P w → Resting w)
    (h : Keeps (holding n ℓ ε P) p) : Rests n ℓ ε p w :=
  .mono (hi.leaves hw h) (fun _ _ h => ⟨h.1, hP h.2⟩) fun _ _ h => h

def Spent (w : World) : Prop := w.outlet.spent = true

theorem Spent.elim {p : Prop} (h : Spent w) (hs : w.outlet.spent = false) : p := by
  rw [Spent, hs] at h
  cases h

/-- The start request is not responded to with success, and no handler waits. -/
def Unanswered (w : World) : Prop := Resting w ∧ ¬ Succeeded w

def Early (w : World) : Prop := Unanswered w ∧ Alone w

theorem Unanswered.resting (h : Unanswered w) : Resting w := h.1
theorem Early.resting (h : Early w) : Resting w := h.1.1

theorem carried_true : Carried fun _ => True := fun _ _ => trivial
theorem carried_spent : Carried Spent := Steady.spent
theorem carried_resting : Carried Resting := fun h hw => by rwa [Resting, h.suspended]

theorem carried_unanswered : Carried Unanswered :=
  fun h hw => ⟨carried_resting h hw.1, h.succeeded.not.mpr hw.2⟩

theorem carried_early : Carried Early :=
  fun h hw => ⟨carried_unanswered h hw.1, h.alone.mpr hw.2⟩

theorem ordinary_holding (hP : Carried P) : Ordinary (holding n ℓ ε P) fun _ => True where
  other h hi :=
    have hsame := same_of_core h
    ⟨hi.1.same hsame, hP hsame.toSteady hi.2⟩
  event w _ _ _ _ hi := ⟨hi.1.sent rfl, hP (steady_sent w _) hi.2⟩
  request w _ _ hi := ⟨hi.1.sent rfl, hP (steady_sent w _) hi.2⟩
  asked w _ _ _ hi := ⟨hi.1.same { Same.refl w with }, hP { Steady.refl w with } hi.2⟩
  share w connect hi := ⟨hi.1.same (same_share w connect), hP (same_share w connect).toSteady hi.2⟩

theorem attaches_holding (hP : ∀ {w c}, P w → P (w.attach c))
    (hno : ∀ {w}, P w → w.outlet.spent = false → ¬ Succeeded w) : Attaches (holding n ℓ ε P) := by
  rintro w c - ⟨hi, hw⟩
  refine ⟨{ hi with
    stays := fun hs => { hi.stays hs with }
    idle := fun ha => by cases ha.2
    closed := fun hs hsu => absurd hsu (hno (w := w) hw hs) }, hP hw⟩

theorem rejects_holding (hP : Carried P) (ho : ∀ {w : World} {r e}, P w → P (w.respond r (.error e)))
    (hr : r.id < n) : Rejects (holding n ℓ ε P) r := by
  intro w r' e hlike hnone hi
  refine ⟨hi.1.respond (hlike.id ▸ hr) hnone fun _ _ h => ?_, ho (hP (steady_sent w _) hi.2)⟩
  cases h

theorem answers_holding (hP : Carried P) (ho : CarriedOver P) (hr : r.id < n)
    (hc : some r.id = ℓ → ∀ w, P w → Spent w) : Answers (holding n ℓ ε P) r := by
  intro w r' b hlike hnone hi
  refine ⟨hi.1.respond (hlike.id ▸ hr) hnone fun hs _ _ h => ?_, ho (hP (steady_sent w _) hi.2)⟩
  exact (hc (hlike.id ▸ h) w hi.2).elim hs

theorem finalizes_holding (after : After) (hP : Carried P) (ha : Waits n ℓ (.finalize after)) :
    Finalizes (holding n ℓ ε P) after where
  begins w hi := ⟨hi.1.same { Same.refl w with }, hP { Steady.refl w with } hi.2⟩
  terminated w _ hi := ⟨hi.1.sent rfl, hP (steady_sent w _) hi.2⟩
  waits w hi := hi.1.suspend ha fun _ h => by cases h

theorem suspends_holding (hr : some r.id = ℓ)
    (hno : ∀ {w}, P w → w.outlet.spent = false → ¬ Succeeded w) : Suspends (holding n ℓ ε P) r := by
  intro w stage s hs hsub hlike hi
  refine hi.1.suspend ?_ fun hspent _ => hno hi.2 hspent
  have hs' : some s.request.id = ℓ := by rw [hlike.id, hr]
  cases stage with
  | attach => cases hs; exact ⟨hs', hsub⟩
  | launcher | process | connection => cases hs; exact hs'
  | finalize => cases hs

/-- What most code assigns to the client. -/
theorem client_holding (hP : Carried P) {f : Client → Client}
    (hstart : (f w.client).startRequest.map (·.id) = w.client.startRequest.map (·.id))
    (hdeferred : (f w.client).deferredEvents = w.client.deferredEvents) :
    (holding n ℓ ε P).rel w (w.withClient f) := fun hi =>
  ⟨hi.1.same { Same.refl w with start := hstart, deferred := hdeferred },
    hP { Steady.refl w with start := hstart, deferred := hdeferred } hi.2⟩

theorem assignsForward_holding (hP : Carried P) : AssignsForward (holding n ℓ ε P) :=
  fun _ _ => client_holding hP rfl rfl

theorem noDebug_holding (hP : Carried P) (w : World) (noDebug : Bool) :
    (holding n ℓ ε P).rel w { w with noDebug } :=
  fun hi => ⟨hi.1.same { Same.refl w with }, hP { Steady.refl w with } hi.2⟩

def Started (n : Uid) (ℓ : Option Uid) (r : Request) : Prop := r.id < n ∧ some r.id = ℓ

theorem Started.like (h : Started n ℓ r) (hr : r.Like r') : Started n ℓ r' := by
  rw [Started, hr.id]
  exact h

theorem Inv.assignStart (hi : Inv n ℓ ε w) (hr : Started n ℓ r) (hasStarted : Bool) :
    Inv n ℓ ε (w.withClient fun c => { c with startRequest := some r, hasStarted }) :=
  { hi with
    start := fun _ h => Option.some.inj h ▸ hr.1
    stays := fun hs =>
      { hi.stays hs with
        written := fun hd => ⟨((hi.stays hs).written hd).1, rfl⟩
        start := fun _ h => Option.some.inj h ▸ hr.2.trans hi.latest.symm } }

/-- Nothing is written to the client any more. -/
theorem starts_spent : Starts (holding n ℓ ε Spent) (Started n ℓ) where
  toOrdinary := ordinary_holding carried_spent
  like := Started.like
  answers _ hr := answers_holding carried_spent id hr.1 fun _ _ => id
  suspends _ hr := suspends_holding hr.2 Spent.elim
  attach := attaches_holding id Spent.elim
  begins := (finalizes_holding .nothing carried_spent trivial).begins
  waits w s hs := (finalizes_holding (.start s) carried_spent hs.2).waits w
  responded w r hr := (finalizes_holding (.responded r) carried_spent hr.1).waits w
  terminated := (finalizes_holding .nothing carried_spent trivial).terminated
  initialized w _ hi := ⟨hi.1.sent rfl, carried_spent (steady_sent w _) hi.2⟩
  forgets _ := client_holding carried_spent rfl rfl
  start _ _ hasStarted hr _ hi := ⟨hi.1.assignStart hr hasStarted, hi.2⟩
  flushes := by
    refine Proc.keeps_leaving And.left fun w hi => ?_
    have hno {p : Prop} : w.outlet.spent = false → p := hi.2.elim
    cases hd : w.client.deferredEvents with
    | none =>
      have hrun : (propagateDeferredEvents.run w).2 = w := by
        simp [propagateDeferredEvents, Proc.run_bind, hd]
      rwa [hrun]
    | some es =>
      cases es with
      | nil =>
        have hsame : w.forwarded [] = w := by simp [World.forwarded]
        have hrun := propagateDeferredEvents_ok hd (Outlet.takes_zero _)
        rw [hsame] at hrun
        rw [hrun]
        exact ⟨{ hi.1 with
          stays := hno
          idle := fun ha => ⟨(hi.1.idle ha).1, (hi.1.idle ha).2.1, rfl⟩
          closed := hno }, hi.2⟩
      | cons e es =>
        have hrun : (propagateDeferredEvents.run w).2 = w := by
          simp [propagateDeferredEvents, Proc.run_bind, hd, forwardAll, write_spent hi.2]
        rwa [hrun]

theorem keeps_otherRequest (hr : r.id < n) (hl : some r.id ≠ ℓ) (hs : ¬ IsStart r.command)
    (hc : r.command ≠ "configurationDone") :
    Keeps (holding n ℓ ε fun _ => True) (clientHandler r) := by
  have hO : Ordinary (holding n ℓ ε fun _ => True) fun _ => True := ordinary_holding carried_true
  have hanswers : Answers (holding n ℓ ε fun _ => True) r :=
    answers_holding carried_true (fun _ => trivial) hr fun h => absurd h hl
  unfold Adapter.clientHandler
  split
  · refine keeps_initializeRequest hO hanswers.rejects fun w f hf => client_holding carried_true ?_ ?_
    · have hstart : (f w.client).startRequest = w.client.startRequest := by
        simpa using congrArg Client.startRequest (hf w.client)
      rw [hstart]
    · simpa using congrArg Client.deferredEvents (hf w.client)
  · next h => exact absurd (.inl h) hs
  · next h => exact absurd (.inr h) hs
  · next h => exact absurd h hc
  · refine keeps_evaluateRequest hO hanswers trivial fun w hi => ⟨?_, trivial⟩
    refine { hi.1 with evaluating := fun r' hr' => ?_, stays := fun hs => { hi.1.stays hs with } }
    rcases List.mem_append.mp hr' with hr' | hr'
    · exact hi.1.evaluating r' hr'
    · rw [List.mem_singleton.mp hr']
      exact ⟨hr, hl⟩
  · exact keeps_pauseRequest hO trivial
  · exact keeps_continueRequest hO trivial
  · exact keeps_systemInfoRequest hO trivial
  · exact keeps_terminateRequest hO (fun _ => trivial) (finalizes_holding _ carried_true ⟨hr, hl⟩)
  · exact keeps_disconnectRequest hO trivial hanswers (finalizes_holding _ carried_true ⟨hr, hl⟩)
      fun w hi => ⟨hi.1.spend rfl, trivial⟩
  · exact keeps_genericRequest hO trivial

-- ---------------------------------------------------------------------------
-- Events
-- ---------------------------------------------------------------------------

/-- A component that sends events is there, and the start request is responded
to where that matters. -/
structure Ready (exits : Prop) (w : World) : Prop where
  present : ¬ Alone w
  answered : w.outlet.spent = false → exits → Answered w

variable {exits : Prop}

theorem carried_ready : Carried (Ready exits) := fun h hr => {
  present := h.alone.not.mpr hr.present
  answered := fun hs he => h.answered.mpr (hr.answered (h.unspent hs) he) }

/-- What is written past the list is the last of it: the list is empty if the
response says success. -/
theorem Inv.flushed (hi : Inv n ℓ ε w) (hs : w.outlet.spent = false) (hsu : Succeeded w) :
    pending w = [] := by
  rcases hi.closed hs hsu with ha | hd
  · exact (hi.idle ha).2.2
  · simp [pending, hd]

theorem Inv.forward (hi : Inv n ℓ ε w) (hpresent : ¬ Alone w) (ha : w.outlet.spent = false → Answered w)
    (hpending : w.outlet.spent = false → ¬ Failed w → pending w = []) {e : Event} :
    Inv n ℓ ε ((write (passed e)).run (w.arrives e)).2 := by
  have hidle {p : Prop} (h : Alone w) : p := absurd h hpresent
  cases hs : w.outlet.spent with
  | true =>
    rw [write_spent (w := w.arrives e) hs]
    have hno {p : Prop} : w.outlet.spent = false → p := Spent.elim hs
    exact { hi with stays := hno, idle := hidle, closed := hno }
  | false =>
    rw [write_ok (w := w.arrives e) hs]
    have hbase : Base n ℓ ε (w.arrives e) := { hi.toBase with }
    have hstays := hi.stays hs
    refine {
      toBase := hbase.write fun _ => ha hs
      stays := fun _ => { hstays with content := fun hf => ?_ }
      idle := hidle
      closed := fun _ => hi.closed hs }
    have hnil := hpending hs hf
    have hcontent := hstays.content hf
    rw [hnil, List.map_nil, List.append_nil] at hcontent
    change (w.toClient ++ [passed e]).filter isForwarded ++ (pending w).map passed =
      (w.arrived ++ [e]).map passed
    rw [hnil, List.filter_append, List.map_append]
    exact (List.append_nil _).trans (congrArg (· ++ [passed e]) hcontent)

theorem Inv.defer (hi : Inv n ℓ ε w) (hpresent : ¬ Alone w) {e : Event} {es : List Event}
    (hd : w.client.deferredEvents = some es) :
    Inv n ℓ ε ((w.arrives e).withClient fun c => { c with deferredEvents := some (es ++ [e]) }) := by
  have hpending : pending w = es := by simp [pending, hd]
  refine { hi with
    stays := fun hs => { hi.stays hs with content := fun hf => ?_, written := fun h => by cases h }
    idle := fun h => absurd h hpresent
    closed := fun hs hsu => ?_ }
  · change forwards w ++ (es ++ [e]).map passed = (w.arrived ++ [e]).map passed
    rw [List.map_append, List.map_append, ← List.append_assoc, ← hpending]
    exact congrArg (· ++ [passed e]) ((hi.stays hs).content hf)
  · rcases hi.closed hs hsu with ha | hnone
    · exact absurd ha hpresent
    · rw [hd] at hnone
      cases hnone

theorem Ready.write (h : Ready exits w) : Ready exits ((write m).run w).2 :=
  Proc.keeps_preserving.mp (keeps_write fun w h => carried_ready (steady_sent w m) h) w h

theorem keeps_propagateAfterStart (e : Event) :
    Keeps (holding n ℓ ε (Ready exits)) (propagateAfterStart e) := by
  refine Proc.keeps_leaving And.left fun w ⟨hi, hr⟩ => ?_
  cases hlist : w.client.deferredEvents with
  | some es =>
    have hrun : ((propagateAfterStart e).run w).2 =
        (w.arrives e).withClient fun c => { c with deferredEvents := some (es ++ [e]) } := by
      simp [propagateAfterStart, Proc.run_bind, hlist, run_modifyClient]
    rw [hrun]
    exact ⟨hi.defer hr.present hlist, hr.present, hr.answered⟩
  | none =>
    have hrun : (propagateAfterStart e).run w = (write (passed e)).run (w.arrives e) := by
      simp [propagateAfterStart, Proc.run_bind, hlist, passed]
    have hready : Ready exits (w.arrives e) := ⟨hr.present, hr.answered⟩
    rw [hrun]
    refine ⟨hi.forward hr.present (fun hs => ?_) fun _ _ => by simp [pending, hlist], hready.write⟩
    exact ((hi.stays hs).written hlist).1.answered

theorem keeps_exited (he : exits) (e : Event) : Keeps (holding n ℓ ε (Ready exits)) (do
    modify fun w => w.arrives e
    swallow (write (passed e)) : Code Unit) := by
  refine Proc.keeps_leaving And.left fun w ⟨hi, hr⟩ => ?_
  have hrun : ((do
      modify fun w => w.arrives e
      swallow (write (passed e)) : Code Unit).run w).2 = ((write (passed e)).run (w.arrives e)).2 := by
    rw [Proc.run_bind, Proc.run_modify]
    dsimp only
    rw [swallow, Proc.run_tryExcept]
    cases hs : w.outlet.spent with
    | true => rw [write_spent (w := w.arrives e) hs]; rfl
    | false => rw [write_ok (w := w.arrives e) hs]
  have hready : Ready exits (w.arrives e) := ⟨hr.present, hr.answered⟩
  rw [hrun]
  refine ⟨hi.forward hr.present (hr.answered · he) fun hs hf => ?_, hready.write⟩
  exact hi.flushed hs ((answered_iff.mp (hr.answered hs he)).resolve_right hf)

theorem keeps_launcherEvent (e : Event) :
    Keeps (holding n ℓ ε (Ready (e.event = "terminated"))) (e.run (Launcher.handler e)) :=
  have hO : Ordinary (holding n ℓ ε (Ready (e.event = "terminated"))) fun _ => True :=
    ordinary_holding carried_ready
  keeps_eventRun hO <| keeps_launcherHandler_of hO (fun _ => keeps_propagateAfterStart e)
    fun h _ => keeps_exited h _

theorem keeps_serverEvent (e : Event) :
    Keeps (holding n ℓ ε (Ready False)) (e.run (Server.handler e)) :=
  have hO : Ordinary (holding n ℓ ε (Ready False)) fun _ => True := ordinary_holding carried_ready
  keeps_eventRun hO <| keeps_serverHandler hO fun _ _ => keeps_propagateAfterStart e

-- ---------------------------------------------------------------------------
-- configurationDone
-- ---------------------------------------------------------------------------

structure Apart (n : Uid) (ℓ : Option Uid) (r : Request) : Prop where
  id : r.id < n
  latest : some r.id ≠ ℓ

theorem Apart.answers (hr : Apart n ℓ r) (hP : Carried P) (ho : CarriedOver P) :
    Answers (holding n ℓ ε P) r :=
  answers_holding hP ho hr.id fun h => absurd h hr.latest

theorem Inv.started (hi : Inv n ℓ ε w) {start : Request} (hs : w.client.startRequest = some start)
    (hspent : w.outlet.spent = false) : some start.id = ℓ :=
  ((hi.stays hspent).start start hs).trans hi.latest

theorem settleConfiguration_spent (hr : Apart n ℓ r) :
    Keeps (holding n ℓ ε Spent) (settleConfiguration r) := by
  refine starts_spent.settleConfiguration (hr.answers carried_spent id)
    (fun w start b hstart hnone hi => ?_) (fun _ => client_holding carried_spent rfl rfl)
    (finalizes_holding (.responded r) carried_spent hr.id).waits
  exact ⟨hi.1.respond (hi.1.start start hstart) hnone hi.2.elim,
    (steady_sent w (.response start b)).spent hi.2⟩

def isNoMore : Exn → Bool
  | .noMoreMessages .. => true
  | _ => false

theorem delegate_notLost (h : isLost w.env.reply = false) :
    Triple r.delegate w (fun _ _ => True) fun stop _ => ∀ e, stop = .raised e → isNoMore e = false := by
  cases hs : w.server with
  | none =>
    refine .of_error (delegate_missing hs) fun e he => ?_
    cases he
    rfl
  | some server =>
    have hsome : w.server.isSome = true := by rw [hs]; rfl
    cases hr : w.env.reply with
    | success body => exact .of_ok (delegate_success hsome hr) trivial
    | failure invalid reason =>
      refine .of_error (delegate_failure hsome hr) fun e he => ?_
      cases he
      rfl
    | lost =>
      rw [hr] at h
      cases h
    | broken =>
      refine .of_error (delegate_broken hsome hr) fun e he => ?_
      cases he
      rfl

/-- The server responds, or it cannot be asked. -/
theorem answerConfigurationDone_triple (hr : Apart n ℓ r) (hi : Inv n ℓ ε w) (hw : Resting w)
    (hl : isLost w.env.reply = false) :
    Triple (answerConfigurationDone r) w (fun _ w' => Inv n ℓ ε w' ∧ Resting w')
      fun e w' => Inv n ℓ ε w' ∧ (e ≠ .blocked → Resting w') := by
  have hO : Ordinary (holding n ℓ ε Resting) fun _ => True := ordinary_holding carried_resting
  have hanswers : Answers (holding n ℓ ε Resting) r := hr.answers carried_resting id
  obtain ⟨hi₁, hw₁⟩ : Inv n ℓ ε (w.withClient Client.begin) ∧ Resting (w.withClient Client.begin) :=
    client_holding carried_resting rfl rfl ⟨hi, hw⟩
  have hdelegate : Triple r.delegate (w.withClient Client.begin)
      (fun _ w' => Inv n ℓ ε w' ∧ Resting w') fun e w' => Inv n ℓ ε w' ∧ (e ≠ .blocked → Resting w') :=
    .mono ((keeps_delegate hO trivial).leaves And.left ⟨hi₁, hw₁⟩) (fun _ _ h => h)
      fun _ _ h => ⟨h.1, fun hne => (h.2 hne).2⟩
  refine .modify_bind (.bind (Q := fun _ w' => Inv n ℓ ε w' ∧ Resting w') ?_ fun result w' h => ?_)
  · have hmap : Triple (some <$> r.delegate) (w.withClient Client.begin)
        (fun _ w' => Inv n ℓ ε w' ∧ Resting w') fun stop w' =>
          (Inv n ℓ ε w' ∧ (stop ≠ .blocked → Resting w')) ∧
            ∀ e, stop = .raised e → isNoMore e = false :=
      .map (.mono (.and hdelegate (delegate_notLost (w := w.withClient Client.begin) hl))
        (fun _ _ h => h.1) fun _ _ h => h)
    refine .tryExcept hmap (fun e w' h => ?_) (fun _ h => h.1) fun _ h => h.1
    cases e with
    | noMoreMessages =>
      have hno := h.2 _ rfl
      cases hno
    | _ => exact h.1
  · cases result with
    | none => exact .pure h
    | some body =>
      refine .mono (Keeps.leaves (.bind (keeps_respond fun w => hanswers w r _ (.refl r)) fun _ => .pure)
        And.left h) (fun _ _ h => h) fun _ _ h => ⟨h.1, fun hne => (h.2 hne).2⟩

theorem rejects_resting (hr : r.id < n) : Rejects (holding n ℓ ε Resting) r :=
  rejects_holding carried_resting id hr

theorem failStart_keeps : Keeps (holding n ℓ ε Resting) (failStart e) := by
  have hO : Ordinary (holding n ℓ ε Resting) fun _ => True := ordinary_holding carried_resting
  refine keeps_withStartRequest fun w start hstart => Frame.leaving_holds fun hi => ?_
  have hr : Rejects (holding n ℓ ε Resting) start := rejects_resting (hi.1.start start hstart)
  split
  · exact (Keeps.bind (keeps_cantHandle hO hr) fun _ => .pure) w
  · exact (holding n ℓ ε Resting).refl w

theorem settleStart_inv (hi : Inv n ℓ ε w) (hw : Resting w) : Inv n ℓ ε (settleStart.run w).2 := by
  rw [settleStart, withStartRequest, Proc.run_bind, Proc.run_get]
  dsimp only
  split
  · next start hstart =>
    rw [Proc.run_bind, Proc.run_get]
    dsimp only
    split
    · exact respond_start hi (hi.start start hstart) (hi.started hstart) hw (by rw [hstart]; rfl)
    · exact hi
  · exact hi

theorem settleConfiguration_inv (hr : Apart n ℓ r) (hi : Inv n ℓ ε w) (hw : Resting w)
    (hl : isLost w.env.reply = false) : Inv n ℓ ε ((settleConfiguration r).run w).2 := by
  refine Proc.triple_state.mp (.tryFinally (P := fun _ w' => Inv n ℓ ε w' ∧ Resting w')
    (F := fun e w' => Inv n ℓ ε w' ∧ (e ≠ .blocked → Resting w')) (.tryExcept
    (answerConfigurationDone_triple hr hi hw hl) (fun e w' h => ?_) (fun _ h => h) fun _ h => h)
    (fun _ w' h => Proc.triple_state.mpr (settleStart_inv h.1 h.2))
    (fun _ w' h => Proc.triple_state.mpr (settleStart_inv h.1 (h.2 fun h => by cases h))) (fun _ h => h.1)
    fun _ h => h.1)
  cases e with
  | messageHandling =>
    refine .mono (Keeps.leaves (.bind failStart_keeps fun _ => .pure) And.left ⟨h.1, h.2 fun h => by cases h⟩)
      (fun _ _ h => h) fun _ _ h => ⟨h.1, fun hne => (h.2 hne).2⟩
  | _ => exact h

theorem keeps_notify (hP : Carried P) (p : Bool) : Keeps (holding n ℓ ε P) (do
    if p then return .none
    else do
      notifyAll (← get).connections
      return .none : Code Result) :=
  keeps_ite (fun _ => .pure) fun _ =>
    .bind .get fun _ => .bind (keeps_notifyAll (ordinary_holding hP) _) fun _ => .pure

theorem Inv.of_rel (h : (holding n ℓ ε fun _ => True).rel w w' ∨ (holding n ℓ ε fun _ => True).left w w')
    (hi : Inv n ℓ ε w) : Inv n ℓ ε w' :=
  h.elim (fun h => (h ⟨hi, trivial⟩).1) fun h => h ⟨hi, trivial⟩

theorem configurationDone_inv (hr : Apart n ℓ r) (hi : Inv n ℓ ε w) (hw : Resting w)
    (hl : w.outlet.spent = false → isLost w.env.reply = false) :
    Inv n ℓ ε ((r.run (configurationDoneRequest r)).run w).2 := by
  cases hs : w.outlet.spent with
  | true =>
    have hO : Ordinary (holding n ℓ ε Spent) fun _ => True := ordinary_holding carried_spent
    have hanswers : Answers (holding n ℓ ε Spent) r := hr.answers carried_spent id
    exact hi.kept hs (keeps_run hO hanswers
      (keeps_configurationDone hO hanswers (settleConfiguration_spent hr)))
  | false =>
    have hO : Ordinary (holding n ℓ ε Resting) fun _ => True := ordinary_holding carried_resting
    have hanswers : Answers (holding n ℓ ε fun _ => True) r := hr.answers carried_true fun _ => trivial
    refine state_run (ordinary_holding carried_true) hanswers Inv.of_rel (Proc.triple_state.mp (.get_bind ?_))
    -- the request is failed first if it comes too early or too late
    have hfail : Keeps (holding n ℓ ε Resting)
        (Proc.when (w.client.startRequest.isNone || w.client.hasStarted) do
          let _ ← r.cantHandle ("\"configurationDone\" is only allowed during handling of a \"launch\" " ++
            "or an \"attach\" request")) :=
      .when (.bind (keeps_cantHandle hO (rejects_resting hr.id)) fun _ => .pure)
    refine .bind (hi.leaves hw hfail) fun _ w' h => ?_
    have henv : w'.env = w.env := h.1.env.trans hi.env.symm
    have hsettle := settleConfiguration_inv hr h.1 h.2 (henv ▸ hl hs)
    refine .bind (Proc.triple_state.mpr hsettle) fun done w'' h => ?_
    exact Proc.triple_state.mpr (h.kept trivial (keeps_notify carried_true done))

-- ---------------------------------------------------------------------------
-- The ends of the start handlers
-- ---------------------------------------------------------------------------

theorem askServer_throws {reply : Reply} (h : isLost reply = false) :
    Proc.Throws (askServer command arguments reply) fun e => isNoMore e = false := by
  refine .bind .get fun w => ?_
  split
  · exact .raise rfl
  · refine .bind .modify fun _ => ?_
    cases reply with
    | success => exact .pure
    | failure =>
      exact .bind (.bind .get fun _ => .bind (fun _ _ h => nomatch h) fun _ => .pure) fun _ =>
        .bind (.bind .get fun _ => .bind (fun _ _ h => nomatch h) fun _ => .pure) fun _ => .raise rfl
    | lost => cases h
    | broken => exact .raise rfl

theorem keeps_startServer_notLost {s : Start} (hP : Carried P) (hl : isLost ε.reply = false) :
    Keeps (holding n ℓ ε P) (startServer s) := by
  have hO : Ordinary (holding n ℓ ε P) fun _ => True := ordinary_holding hP
  intro w
  refine Frame.leaving_holds fun hi => ?_
  rw [startServer, Proc.run_bind, Proc.run_get]
  dsimp only
  rw [hi.1.env]
  split
  · exact (holding n ℓ ε P).refl w
  · next request _ =>
    refine Keeps.bind (keeps_initializeServer hO trivial trivial) (fun _ =>
      .bind (.modify fun w => client_holding hP rfl rfl) fun _ => ?_) w
    refine Keeps.tryExcept_throws (.bind (keeps_askServer hO trivial) fun _ => .pure)
      (.bind (askServer_throws hl) fun _ => .pure) fun e c he hc => ?_
    split at hc <;> cases hc
    · cases he
    · exact keeps_propagateError hO

theorem completeStart_inv (hr : Started n ℓ r) (hi : Inv n ℓ ε w) (hw : Resting w) :
    Inv n ℓ ε ((completeStart r).run w).2 := by
  refine Proc.triple_state.mp (.get_bind ?_)
  split
  · have hstart : Inv n ℓ ε ((do
        r.respond (.ok (.dict []))
        propagateDeferredEvents : Code Unit).run
          (w.withClient fun c => { c with startRequest := some r, hasStarted := true })).2 :=
      respond_start (hi.assignStart hr true) hr.1 (fun _ => hr.2) hw rfl
    refine .modify_bind ?_
    rw [← bind_assoc]
    exact .bind (Proc.triple_state.mpr hstart) fun _ _ h => .pure h
  · have hsend : Keeps (holding n ℓ ε fun _ => True) (sendEvent "initialized" (.dict [])) :=
      keeps_write fun w hi => ⟨hi.1.sent rfl, trivial⟩
    refine .bind (hi.leaves trivial hsend) fun _ w' h => ?_
    exact .modify_bind (.pure (h.1.assignStart hr w'.client.hasStarted))

theorem afterStart_quiet {s : Start} :
    Proc.Yields (afterStart s) fun result => ∀ b, result ≠ .body b := by
  have hcomplete (request : Request) :
      Proc.Yields (completeStart request) fun result => ∀ b, result ≠ .body b := by
    refine .bind (.any _) fun w _ => ?_
    split
    · exact .bind (.any _) fun _ _ => .bind (.any _) fun _ _ => .bind (.any _) fun _ _ => .pure nofun
    · exact .bind (.any _) fun _ _ => .bind (.any _) fun _ _ => .pure nofun
  refine .bind (.any _) fun w _ => ?_
  split
  · exact .pure nofun
  · split
    · refine .bind (.any _) fun request _ => ?_
      split
      · exact .pure nofun
      · exact hcomplete _
    · exact hcomplete _

theorem afterStart_inv {s : Start} (hs : Started n ℓ s.request) (hi : Inv n ℓ ε w) (hw : Resting w)
    (hl : isLost ε.reply = false) : Inv n ℓ ε ((afterStart s).run w).2 := by
  refine Proc.triple_state.mp (.get_bind ?_)
  split
  · exact .pure hi
  · split
    · have hserver := (hi.leaves hw (keeps_startServer_notLost (s := s) carried_resting hl)).and
        startServer_like.triple
      refine .bind (.mono hserver (fun _ _ h => h) fun _ _ h => h.1) fun o w' h => ?_
      split
      · exact .pure h.1.1
      · next request =>
        exact Proc.triple_state.mpr (completeStart_inv (hs.like (h.2 request rfl)) h.1.1 h.1.2)
    · exact Proc.triple_state.mpr (completeStart_inv hs hi hw)

-- ---------------------------------------------------------------------------
-- attach
-- ---------------------------------------------------------------------------

variable {s : Start}

theorem suspends_unanswered (hr : some r.id = ℓ) : Suspends (holding n ℓ ε Unanswered) r :=
  suspends_holding hr fun hw _ => hw.2

theorem attaches_unanswered : Attaches (holding n ℓ ε Unanswered) :=
  attaches_holding id fun hw _ => hw.2

theorem not_succeeded_error {e : Exn} (h : ¬ Succeeded w) : ¬ Succeeded (w.respond r (.error e)) := by
  intro hsu
  rcases hsu.of_respond with hsu | ⟨-, body, hb⟩
  · exact h hsu
  · cases hb

theorem rejects_unanswered (hr : r.id < n) : Rejects (holding n ℓ ε Unanswered) r :=
  rejects_holding carried_unanswered (fun hw => ⟨hw.1, not_succeeded_error hw.2⟩) hr

theorem rejects_early (hr : r.id < n) : Rejects (holding n ℓ ε Early) r :=
  rejects_holding carried_early (fun hw => ⟨⟨hw.1.1, not_succeeded_error hw.1.2⟩, hw.2⟩) hr

/-- The process is gone, and nobody is left to send events. -/
theorem attachGone_rests (hs : Started n ℓ s.request) (hi : Inv n ℓ ε w) (hw : Early w) :
    Rests n ℓ ε (attachConnection s timeout subPid none) w := by
  unfold attachConnection
  dsimp only
  split
  · have hrespond : Rests n ℓ ε (s.request.respond (.ok (.dict []))) w := by
      cases hnone : w.responses s.request.id with
      | some b => exact .of_error (respond_again (by simp [hnone])) hi
      | none =>
        cases hspent : w.outlet.spent with
        | true => exact .of_error (respond_spent hnone hspent) hi
        | false =>
          exact .of_ok (respond_ok hnone hspent)
            ⟨hi.respond hs.1 hnone fun _ _ _ _ => ⟨hw.resting, hw.2⟩, hw.resting⟩
    refine .bind hrespond fun _ w' h => h.1.leaves h.2 ?_
    exact keeps_finalize (ordinary_holding carried_resting) trivial
      (finalizes_holding (.start s) carried_resting hs.2)
  · exact hi.rests hw Early.resting (keeps_fail (ordinary_holding carried_early) (rejects_early hs.1))

theorem attachRest_rests {a : AttachArguments} (hs : Started n ℓ s.request) (hi : Inv n ℓ ε w)
    (hw : Early w) : Rests n ℓ ε (attachRest s a) w := by
  have hO : Ordinary (holding n ℓ ε Early) fun _ => True := ordinary_holding carried_early
  have hr : Rejects (holding n ℓ ε Early) s.request := rejects_early hs.1
  unfold attachRest
  split
  · exact hi.rests hw Early.resting (keeps_reject hO hr)
  · have hinject : Keeps (holding n ℓ ε Early) (injectServer s a) :=
      keeps_injectServer hO trivial hr (finalizes_holding (.start s) carried_early hs.2)
    refine .bind (hi.leaves hw (keeps_listenForServer hO hr)) fun address w₁ h₁ =>
      .bind (h₁.1.leaves h₁.2 hinject) fun pid w₂ h₂ => ?_
    split
    · exact .pure ⟨h₂.1, h₂.2.resting⟩
    · refine .bind (h₂.1.leaves h₂.2 (keeps_sendEvent hO (by decide) (by decide))) fun _ w₃ h₃ =>
        .get_bind ?_
      split
      · exact .bind (h₃.1.rests h₃.2.1 Unanswered.resting (keeps_attachConnection
          (ordinary_holding carried_unanswered) (rejects_unanswered hs.1) attaches_unanswered))
          fun _ _ h => .pure h
      · split
        · exact .bind (attachGone_rests hs h₃.1 h₃.2) fun _ _ h => .pure h
        · next hsub =>
          have hsub : a.subPid = none := by simpa using hsub
          exact .bind (h₃.1.rests h₃.2.1 Unanswered.resting
            (keeps_suspend (suspends_unanswered hs.2) rfl hsub)) fun _ _ h => .pure h

theorem attachRequest_rests (hs : Started n ℓ s.request) (hi : Inv n ℓ ε w) (hw : Early w) :
    Rests n ℓ ε (attachRequest s) w := by
  have hO : Ordinary (holding n ℓ ε Early) fun _ => True := ordinary_holding carried_early
  have hr : Rejects (holding n ℓ ε Early) s.request := rejects_early hs.1
  rw [attachRequest_eq]
  refine .get_bind ?_
  split
  · exact hi.rests hw Early.resting (keeps_reject hO hr)
  · exact .bind (hi.leaves hw (keeps_readAttach hO hr (assignsForward_holding carried_early)))
      fun _ _ h => attachRest_rests hs h.1 h.2

-- ---------------------------------------------------------------------------
-- Start handlers that go on
-- ---------------------------------------------------------------------------

theorem stage_inv (hs : Started n ℓ s.request) (hl : isLost ε.reply = false) {p : Code Unit}
    (hp : Rests n ℓ ε p w) :
    Inv n ℓ ε ((s.request.run (do
      p
      afterStart s)).run w).2 := by
  have hr : Rejects (holding n ℓ ε fun _ => True) s.request :=
    rejects_holding carried_true (fun _ => trivial) hs.1
  refine state_runQuiet (ordinary_holding carried_true) hr (.bind (.any _) fun _ _ => afterStart_quiet)
    Inv.of_rel (Proc.triple_state.mp (.bind hp fun _ w' h => ?_))
  exact Proc.triple_state.mpr (afterStart_inv hs h.1 h.2 hl)

theorem keeps_end (hP : Carried P) : Keeps (holding n ℓ ε P) (exitOnError endFinalize) :=
  keeps_exitOnError
    (keeps_endFinalize (ordinary_holding hP) (finalizes_holding .nothing hP trivial).terminated)

section
variable {stage : Suspended}

theorem Waits.started (h : Waits n ℓ stage) (hold : ∀ id ∈ ℓ, id < n) (hst : PassesOn stage) :
    ∀ r ∈ stage.request, Started n ℓ r := by
  have hstarted {s : Start} (h : some s.request.id = ℓ) : Started n ℓ s.request := ⟨hold _ h.symm, h⟩
  intro r hr
  cases stage with
  | launcher | process | connection => cases hr; exact hstarted h
  | attach => cases hr; exact hstarted h.1
  | finalize after =>
    cases after with
    | start s => cases hr; exact hstarted h
    | nothing | disconnect | terminate | responded => cases hst

theorem keeps_resumeSpent (hr : ∀ r ∈ stage.request, Started n ℓ r) :
    Keeps (holding n ℓ ε Spent) (resume stage) := by
  have hS : Starts (holding n ℓ ε Spent) (Started n ℓ) := starts_spent
  exact keeps_resume hS.toOrdinary (fun r h => hS.answers r (hr r h))
    (fun r h => hS.suspends r (hr r h)) hS.attach hS.terminated
    (fun w hi => ⟨hi.1.spend rfl, rfl⟩) (fun _ _ _ h => hS.attachGone (hr _ h))
    fun _ h => hS.afterStart (hr _ h)

theorem keeps_resumeOther (h : Waits n ℓ stage) (hst : ¬ PassesOn stage) :
    Keeps (holding n ℓ ε fun _ => True) (resume stage) := by
  have hO : Ordinary (holding n ℓ ε fun _ => True) fun _ => True := ordinary_holding carried_true
  have hend : Keeps (holding n ℓ ε fun _ => True) (exitOnError endFinalize) := keeps_end carried_true
  have hanswers {r : Request} (h : r.id < n ∧ some r.id ≠ ℓ) :
      Answers (holding n ℓ ε fun _ => True) r :=
    answers_holding carried_true (fun _ => trivial) h.1 fun hℓ => absurd hℓ h.2
  cases stage with
  | launcher | process | connection | attach => exact absurd trivial hst
  | finalize after =>
    cases after with
    | nothing => exact hend
    | disconnect r =>
      exact keeps_run hO (hanswers h) (.bind hend fun _ =>
        keeps_afterDisconnect hO (hanswers h) fun w hi => ⟨hi.1.spend rfl, trivial⟩)
    | terminate r => exact keeps_run hO (hanswers h) (.bind hend fun _ => .pure)
    | responded r =>
      exact keeps_runQuiet hO (rejects_holding carried_true (fun _ => trivial) h)
        (.bind hend fun _ => .pure) (.bind (.any _) fun _ _ => .pure nofun)
    | start s => exact absurd trivial hst

theorem resumeStart_inv (hi : Inv n ℓ ε w) (hw : Resting w) (h : Waits n ℓ stage)
    (hst : PassesOn stage) (hno : stage.starts.isSome = true → ¬ Succeeded w)
    (hl : isLost ε.reply = false) : Inv n ℓ ε ((resume stage).run w).2 := by
  have hU : Ordinary (holding n ℓ ε Unanswered) fun _ => True := ordinary_holding carried_unanswered
  have hclose : Keeps (holding n ℓ ε Unanswered) closeLauncherListener := keeps_closeLauncherListener hU
  have hk := h.started hi.old hst
  have hgoes {s : Start} {p : Code Unit} (hstarts : stage.starts.isSome = true)
      (hs : s.request ∈ stage.request) (hp : Keeps (holding n ℓ ε Unanswered) p) :
      Inv n ℓ ε ((s.request.run (do
        p
        afterStart s)).run w).2 :=
    stage_inv (hk _ hs) hl (hi.rests ⟨hw, hno hstarts⟩ Unanswered.resting hp)
  have hr {s : Start} (hs : s.request ∈ stage.request) : Rejects (holding n ℓ ε Unanswered) s.request :=
    rejects_unanswered (hk _ hs).1
  have hsuspends {s : Start} (hs : s.request ∈ stage.request) :
      Suspends (holding n ℓ ε Unanswered) s.request := suspends_unanswered (hk _ hs).2
  cases stage with
  | launcher s asSudo =>
    exact hgoes rfl rfl (.tryFinally
      (keeps_startLauncher hU (hr rfl) (hsuspends rfl) attaches_unanswered) hclose)
  | process s =>
    exact hgoes rfl rfl (.tryFinally
      (keeps_awaitConnection hU (hr rfl) (hsuspends rfl) attaches_unanswered) hclose)
  | connection s =>
    exact hgoes rfl rfl (.tryFinally (keeps_attachSpawned hU (hr rfl) attaches_unanswered) hclose)
  | attach s pid timeout subPid =>
    obtain ⟨-, rfl⟩ := h
    have hassoc : resume (.attach s pid timeout none) = s.request.run (do
        (do attachConnection s timeout none ((← get).findConnection pid) : Code Unit)
        afterStart s) := by
      simp only [resume, bind_assoc]
    rw [hassoc]
    refine hgoes rfl rfl (.bind .get fun w => ?_)
    cases w.findConnection pid with
    | none => exact keeps_ite (fun h => by cases h) fun _ => keeps_fail hU (hr rfl)
    | some c => exact keeps_attachConnection hU (hr rfl) attaches_unanswered
  | finalize after =>
    cases after with
    | start s => exact stage_inv (hk _ rfl) hl (hi.leaves hw (keeps_end carried_resting))
    | nothing | disconnect | terminate | responded => cases hst

theorem resume_inv (hi : Inv n ℓ ε w) (hstage : w.suspended = some stage)
    (hok : w.outlet.spent = false → PassesOn stage → isLost w.env.reply = false) :
    Inv n ℓ ε ((resume stage).run { w with suspended := none }).2 := by
  have hwaits : Waits n ℓ stage := hi.suspended stage hstage
  have hi₁ : Inv n ℓ ε { w with suspended := none } :=
    { hi with
      suspended := fun _ hst => by cases hst
      stays := fun hs => { hi.stays hs with waiting := fun _ hst => by cases hst } }
  by_cases hst : PassesOn stage
  · cases hspent : w.outlet.spent with
    | true => exact hi₁.kept hspent (keeps_resumeSpent (hwaits.started hi.old hst))
    | false =>
      have hw₁ : Resting { w with suspended := none } := fun _ hst => by cases hst
      exact resumeStart_inv hi₁ hw₁ hwaits hst ((hi.stays hspent).waiting stage hstage)
        (hi.env ▸ hok hspent hst)
  · exact hi₁.kept trivial (keeps_resumeOther hwaits hst)

end

-- ---------------------------------------------------------------------------
-- Requests
-- ---------------------------------------------------------------------------

theorem Waits.mono {stage : Suspended} (h : Waits n ℓ stage) : Waits (n + 1) ℓ stage := by
  cases stage with
  | launcher | process | connection | attach => exact h
  | finalize after =>
    cases after with
    | nothing => trivial
    | start => exact h
    | disconnect | terminate => exact ⟨Nat.lt_succ_of_lt h.1, h.2⟩
    | responded => exact Nat.lt_succ_of_lt h

theorem Inv.receive (hi : Inv n ℓ ε w) : Inv (n + 1) ℓ ε w.receive :=
  { hi with
    received := congrArg (· + 1) hi.received
    old := fun id hid => Nat.lt_succ_of_lt (hi.old id hid)
    fresh := fun id hid => hi.fresh id (Nat.le_of_succ_le hid)
    start := fun start hs => Nat.lt_succ_of_lt (hi.start start hs)
    evaluating := fun r hr => ⟨Nat.lt_succ_of_lt (hi.evaluating r hr).1, (hi.evaluating r hr).2⟩
    suspended := fun stage hs => (hi.suspended stage hs).mono
    stays := fun hs => { hi.stays hs with } }

def Free (w : World) : Prop := ∀ stage ∈ w.suspended, stage = .finalize .nothing

theorem Free.resting (h : Free w) : Resting w := fun stage hst => by rw [h stage hst]; rfl

/-- The start request that is let through finds the list as it was at first. -/
theorem Inv.accept (hi : Inv n ℓ ε w) (hfree : Free w) (ha : Alone w)
    (hstart : w.outlet.spent = false → w.client.startRequest.isNone = true) :
    Inv (n + 1) (some n) ε { w.receive with latestStart := some n } ∧
      Early { w.receive with latestStart := some n } := by
  obtain ⟨harrived, hforwards, hpending⟩ := hi.idle ha
  have hnone : w.responses n = none := hi.fresh n le_rfl
  have hno : ¬ Answered { w.receive with latestStart := some n } := by
    rintro ⟨id, hid, hsome⟩
    cases hid
    rw [show ({ w.receive with latestStart := some n } : World).responses = w.responses from rfl,
      hnone] at hsome
    cases hsome
  have hfails : ¬ Succeeded { w.receive with latestStart := some n } := fun h => hno h.answered
  refine ⟨{
    received := congrArg (· + 1) hi.received
    env := hi.env
    latest := rfl
    old := fun id hid => Option.some.inj hid ▸ Nat.lt_succ_self n
    fresh := fun id hid => hi.fresh id (Nat.le_of_succ_le hid)
    start := fun start hs => Nat.lt_succ_of_lt (hi.start start hs)
    evaluating := fun r hr => ⟨Nat.lt_succ_of_lt (hi.evaluating r hr).1, fun h => ?_⟩
    suspended := fun stage hst => ?_
    after := fun ms hpre _ m hm => ?_
    told := fun ha => absurd ha hno
    stays := fun hs => ?_
    idle := fun _ => ⟨harrived, hforwards, hpending⟩
    closed := fun _ h => absurd h hfails }, ⟨hfree.resting, hfails⟩, ha⟩
  · exact absurd (Option.some.inj h ▸ (hi.evaluating r hr).1) (Nat.lt_irrefl _)
  · rw [hfree stage hst]
    trivial
  · by_contra hne
    have hmem : m ∈ forwards w := List.mem_filter.mpr ⟨hpre.subset hm, eq_true_of_ne_false hne⟩
    rw [hforwards] at hmem
    cases hmem
  · have hstart : w.client.startRequest = none := Option.isNone_iff_eq_none.mp (hstart hs)
    refine {
      content := fun _ => ?_
      written := fun hd => ?_
      start := fun start h => ?_
      waiting := fun _ _ _ => hfails }
    · change forwards w ++ (pending w).map passed = w.arrived.map passed
      rw [hforwards, hpending, harrived]
      rfl
    · have hsome := ((hi.stays hs).written hd).2
      rw [hstart] at hsome
      cases hsome
    · change w.client.startRequest = some start at h
      rw [hstart] at h
      cases h

theorem startMessageHandler_inv {f : Start → Code Start} (hi : Inv n ℓ ε w) (hfree : Free w)
    (hid : r.id = n) (hok : w.outlet.spent = false →
      (Alone w → w.client.startRequest.isNone = true) ∧ isLost w.env.reply = false)
    (hspent : ∀ s, s.request = r → Keeps (holding (n + 1) (some n) ε Spent) (f s))
    (hf : ∀ s w, s.request = r → Inv (n + 1) (some n) ε w → Early w → Rests (n + 1) (some n) ε (f s) w)
    (hlike : ∀ s, Proc.Yields (f s) fun s' => s.request.Like s'.request) :
    ∃ ℓ', Inv (n + 1) ℓ' ε ((r.run (startMessageHandler f r)).run w.receive).2 := by
  have hlt : r.id < n + 1 := hid ▸ Nat.lt_succ_self _
  have hO : Ordinary (holding (n + 1) ℓ ε fun _ => True) fun _ => True := ordinary_holding carried_true
  have hr : Rejects (holding (n + 1) ℓ ε fun _ => True) r :=
    rejects_holding carried_true (fun _ => trivial) hlt
  have hreject (reason : String)
      (h : (startMessageHandler f r).run w.receive =
        (do Proc.raise (← r.isntValid reason) : Code Result).run w.receive) :
      ∃ ℓ', Inv (n + 1) ℓ' ε ((r.run (startMessageHandler f r)).run w.receive).2 := by
    rw [run_congr h]
    exact ⟨ℓ, hi.receive.kept trivial (keeps_runQuiet hO hr (keeps_reject hO hr)
      (.bind (.any _) fun _ _ => .raise))⟩
  by_cases hinit : w.receive.client.initializeRequest.isNone = true
  · refine hreject "Session is not initialized yet" ?_
    rw [startMessageHandler, Proc.run_bind, Proc.run_get]
    exact congrArg (fun p : Code Result => p.run w.receive) (if_pos hinit)
  by_cases hstarted : (w.receive.launcher.isSome || w.receive.server.isSome) = true
  · refine hreject "Session is already started" ?_
    rw [startMessageHandler, Proc.run_bind, Proc.run_get]
    dsimp only
    rw [if_neg hinit]
    exact congrArg (fun p : Code Result => p.run w.receive) (if_pos hstarted)
  have halone : Alone w := by simpa [World.receive, Alone] using hstarted
  have hk : Started (n + 1) (some n) r := ⟨hlt, congrArg some hid⟩
  obtain ⟨hi₁, hw₁⟩ := hi.accept hfree halone fun hs => (hok hs).1 halone
  refine ⟨some n, ?_⟩
  have hrun : (startMessageHandler f r).run w.receive = (do
      let noDebug ← r.call "noDebug" (Json.default (.bool false))
      modify fun w => { w with noDebug := asBool noDebug }
      let debugOptions ← r.call "debugOptions" (arrayOfStr false .any)
      let start ← f { request := r, debugOptions := strings debugOptions }
      afterStart start : Code Result).run { w.receive with latestStart := some n } := by
    rw [startMessageHandler, Proc.run_bind, Proc.run_get]
    dsimp only
    rw [if_neg hinit, if_neg hstarted, Proc.run_bind, Proc.run_modify, hid]
  rw [run_congr hrun]
  cases hs : w.outlet.spent with
  | true =>
    have hS : Starts (holding (n + 1) (some n) ε Spent) (Started (n + 1) (some n)) := starts_spent
    refine hi₁.kept hs (keeps_run hS.toOrdinary (hS.answers r hk) ?_)
    exact .bind (keeps_call hS.toOrdinary (hS.answers r hk).rejects) fun _ =>
      .bind (.modify fun w => noDebug_holding carried_spent w _) fun _ =>
      .bind (keeps_call hS.toOrdinary (hS.answers r hk).rejects) fun _ =>
      .bind_yields (hspent _ rfl) (hlike _) fun s hs => hS.afterStart (hk.like hs)
  | false =>
    have hE : Ordinary (holding (n + 1) (some n) ε Early) fun _ => True := ordinary_holding carried_early
    have hrejects : Rejects (holding (n + 1) (some n) ε fun _ => True) r :=
      rejects_holding carried_true (fun _ => trivial) hlt
    have hl : isLost ε.reply = false := hi.env ▸ (hok hs).2
    have hcall {key : String} {validate : Validator} :
        Keeps (holding (n + 1) (some n) ε Early) (r.call key validate) := keeps_call hE (rejects_early hlt)
    refine state_runQuiet (ordinary_holding carried_true) hrejects (.bind (.any _) fun _ _ =>
      .bind (.any _) fun _ _ => .bind (.any _) fun _ _ => .bind (.any _) fun _ _ => afterStart_quiet)
      Inv.of_rel (Proc.triple_state.mp ?_)
    refine .bind (hi₁.leaves hw₁ hcall) fun noDebug w₂ h₂ => .modify_bind ?_
    have h₃ := noDebug_holding carried_early w₂ (asBool noDebug) h₂
    refine .bind (h₃.1.leaves h₃.2 hcall) fun options w₄ h₄ => ?_
    refine .bind (.mono (.and (hf _ w₄ rfl h₄.1 h₄.2) (hlike _).triple) (fun _ _ h => h) fun _ _ h => h.1)
      fun s w₅ h₅ => ?_
    exact Proc.triple_state.mpr (afterStart_inv (hk.like h₅.2) h₅.1.1 h₅.1.2 hl)

theorem handleRequest_inv (hi : Inv n ℓ ε w) (hfree : Free w) (hid : r.id = n)
    (hstart : w.outlet.spent = false → IsStart r.command → Alone w →
      w.client.startRequest.isNone = true)
    (hl : w.outlet.spent = false → IsStart r.command ∨ r.command = "configurationDone" →
      isLost w.env.reply = false) :
    ∃ ℓ', Inv (n + 1) ℓ' ε ((handleRequest r).run w.receive).2 := by
  have hne : some r.id ≠ ℓ := fun h => absurd (hi.old _ h.symm) (hid ▸ Nat.lt_irrefl _)
  have hlt : r.id < n + 1 := hid ▸ Nat.lt_succ_self _
  have hS : Starts (holding (n + 1) (some n) ε Spent) (Started (n + 1) (some n)) := starts_spent
  have hk : Started (n + 1) (some n) r := ⟨hlt, congrArg some hid⟩
  have hok (h : IsStart r.command) (hs : w.outlet.spent = false) :
      (Alone w → w.client.startRequest.isNone = true) ∧ isLost w.env.reply = false :=
    ⟨hstart hs h, hl hs (.inl h)⟩
  unfold handleRequest
  split
  · exact ⟨ℓ, hi.receive⟩
  · by_cases hlaunch : r.command = "launch"
    · have hhandler : clientHandler r = startMessageHandler launchRequest r := by
        simp [clientHandler, hlaunch]
      rw [hhandler]
      refine startMessageHandler_inv hi hfree hid (hok (.inl hlaunch)) (fun s hs => ?_)
        (fun s w hs hi hw => ?_) fun s => launchRequest_like
      · subst hs
        exact keeps_launchRequest hS.toOrdinary (hS.answers _ hk).rejects (hS.suspends _ hk) hS.attach
          (assignsForward_holding carried_spent)
      · subst hs
        exact hi.rests hw.1 Unanswered.resting (keeps_launchRequest (ordinary_holding carried_unanswered)
          (rejects_unanswered hlt) (suspends_unanswered hk.2) attaches_unanswered
          (assignsForward_holding carried_unanswered))
    by_cases hattach : r.command = "attach"
    · have hhandler : clientHandler r = startMessageHandler attachRequest r := by
        simp [clientHandler, hattach]
      rw [hhandler]
      refine startMessageHandler_inv hi hfree hid (hok (.inr hattach)) (fun s hs => ?_)
        (fun s w hs hi hw => ?_) fun s w s' hs' => ?_
      · subst hs
        exact keeps_attachRequest hS.toOrdinary (hS.answers _ hk).rejects
          (assignsForward_holding carried_spent) fun a => hS.attachRest hk
      · subst hs
        exact attachRequest_rests hk hi hw
      · rw [attachRequest_same w s' hs']
        exact .refl _
    by_cases hconfig : r.command = "configurationDone"
    · have hhandler : clientHandler r = configurationDoneRequest r := by
        simp [clientHandler, hconfig]
      rw [hhandler]
      exact ⟨ℓ, configurationDone_inv ⟨hlt, hne⟩ hi.receive hfree.resting fun hs => hl hs (.inr hconfig)⟩
    · have hO : Ordinary (holding (n + 1) ℓ ε fun _ => True) fun _ => True := ordinary_holding carried_true
      have hanswers : Answers (holding (n + 1) ℓ ε fun _ => True) r :=
        answers_holding carried_true (fun _ => trivial) hlt fun h => absurd h hne
      exact ⟨ℓ, hi.receive.kept trivial (keeps_run hO hanswers
        (keeps_otherRequest hlt hne (not_or.mpr ⟨hlaunch, hattach⟩) hconfig))⟩

-- ---------------------------------------------------------------------------
-- Steps and runs
-- ---------------------------------------------------------------------------

theorem keeps_finalizeNothing {terminateDebuggee : Option Bool} :
    Keeps (holding n ℓ ε fun _ => True) (finalize terminateDebuggee .nothing) :=
  keeps_finalize (ordinary_holding carried_true) trivial (finalizes_holding _ carried_true trivial)

theorem carried_present : Carried fun w => ¬ Alone w := fun h hw => h.alone.not.mpr hw

theorem keeps_serverDisconnect : Keeps (holding n ℓ ε fun w => ¬ Alone w) Server.disconnect := by
  have hO : Ordinary (holding n ℓ ε fun w => ¬ Alone w) fun _ => True := ordinary_holding carried_present
  refine .bind .get fun w => ?_
  split
  · exact .pure
  · refine .bind (keeps_other hO fun _ => rfl) fun _ => keeps_ite (fun _ => ?_) fun _ => .pure
    refine .bind (.modify fun w ⟨hi, hw⟩ => ⟨{ hi with
      stays := fun hs => { hi.stays hs with }
      idle := fun ha => by cases ha.2
      closed := fun hs hsu => .inr ((hi.closed hs hsu).resolve_left hw) }, fun ha => by cases ha.2⟩)
      fun _ => ?_
    exact keeps_finalize hO trivial (finalizes_holding _ carried_present trivial)

theorem dispatch_inv {label : Label} {p : Code Unit} (hi : Inv n ℓ ε w)
    (hok : w.outlet.spent = false → LabelTimely w label) (h : dispatch w label = some (p, w')) :
    ∃ n' ℓ', Inv n' ℓ' ε (p.run w').2 := by
  have hO : Ordinary (holding n ℓ ε fun _ => True) fun _ => True := ordinary_holding carried_true
  have hfree (hbusy : ¬ (w.clientBusy || !w.client.isConnected) = true) : Free w := by
    intro stage hst
    have hst : w.suspended = some stage := hst
    simp only [World.clientBusy, hst] at hbusy
    cases stage with
    | finalize after => cases after <;> simp_all
    | launcher | process | connection | attach => simp at hbusy
  cases label with
  | request command arguments =>
    simp only [dispatch] at h
    split at h
    · cases h
    next hbusy =>
    cases h
    exact ⟨n + 1, handleRequest_inv (r := w.nextRequest command arguments) hi (hfree hbusy)
      hi.received (fun hs => (hok hs).1) fun hs => (hok hs).2⟩
  | clientEvent event body =>
    simp only [dispatch] at h
    split at h <;> cases h
    exact ⟨n + 1, ℓ, hi.receive.kept trivial (keeps_eventRun (ordinary_holding carried_true)
      (keeps_clientEvent (ordinary_holding carried_true) trivial))⟩
  | clientDisconnect =>
    simp only [dispatch] at h
    split at h <;> cases h
    exact ⟨n, ℓ, hi.kept trivial (.bind (.modify fun w => client_holding carried_true rfl rfl)
      fun _ => keeps_finalizeNothing)⟩
  | evaluated i reply =>
    obtain ⟨r, hr, heq⟩ := Option.map_eq_some_iff.mp h
    cases heq
    obtain ⟨hlt, hne⟩ := hi.evaluating r (List.mem_of_getElem? hr)
    have hi' : Inv n ℓ ε { w with evaluating := w.evaluating.eraseIdx i } :=
      { hi with
        evaluating := fun r hr => hi.evaluating r (List.mem_of_mem_eraseIdx hr)
        stays := fun hs => { hi.stays hs with } }
    exact ⟨n, ℓ, hi'.kept trivial (keeps_evaluated hO
      (answers_holding carried_true (fun _ => trivial) hlt fun h => absurd h hne))⟩
  | serverEvent event body =>
    simp only [dispatch] at h
    split at h
    · cases h
    next hlocked =>
    cases h
    have hready : Ready False w.receive := {
      present := fun ha => hlocked (by
        have hs : w.server = none := ha.2
        simp [hs])
      answered := fun _ => False.elim }
    exact ⟨n + 1, ℓ, hi.receive.kept hready (keeps_serverEvent (w.nextEvent event body))⟩
  | serverDisconnect =>
    simp only [dispatch] at h
    split at h
    · cases h
    next hlocked =>
    cases h
    have hpresent : ¬ Alone w := fun ha => hlocked (by simp [ha.2])
    exact ⟨n, ℓ, hi.kept hpresent keeps_serverDisconnect⟩
  | launcherConnects =>
    simp only [dispatch] at h
    split at h <;> cases h
    refine ⟨n, ℓ, ?_⟩
    exact { hi with
      stays := fun hs => { hi.stays hs with }
      idle := fun ha => by cases ha.1
      closed := fun hs hsu => absurd hsu (hok hs) }
  | launcherEvent event body =>
    simp only [dispatch] at h
    split at h
    · cases h
    next hlocked =>
    cases h
    have hready : Ready (event = "terminated") w.receive := {
      present := fun ha => hlocked (by
        have hl : w.launcher = none := ha.1
        simp [World.launcherConnected, hl])
      answered := hok }
    exact ⟨n + 1, ℓ, hi.receive.kept hready (keeps_launcherEvent (w.nextEvent event body))⟩
  | launcherDisconnect =>
    simp only [dispatch] at h
    split at h <;> cases h
    refine ⟨n, ℓ, hi.kept trivial (.bind (.modify fun w hi => ⟨hi.1.same ?_, trivial⟩) fun _ =>
      keeps_finalizeNothing)⟩
    exact { Same.refl w with launcher := Option.map_eq_none_iff }
  | resume =>
    obtain ⟨stage, hstage, hrun⟩ := Option.bind_eq_some_iff.mp h
    split at hrun <;> cases hrun
    exact ⟨n, ℓ, resume_inv hi hstage fun hs => hok hs stage hstage⟩
  | clientLost writes loss =>
    cases h
    refine ⟨n, ℓ, ?_⟩
    change Inv n ℓ ε (w.lose writes loss)
    unfold World.lose
    split
    · next hleft =>
      have hspent : w.outlet.spent = false := by
        rw [Option.isNone_iff_eq_none] at hleft
        simp [Outlet.spent, hleft]
      exact { hi with
        stays := fun _ => { hi.stays hspent with }
        closed := fun _ => hi.closed hspent }
    · exact hi
  | register c pid ppid =>
    obtain ⟨w₁, hreg, heq⟩ := Option.map_eq_some_iff.mp h
    cases heq
    unfold World.register at hreg
    split at hreg <;> cases hreg
    exact ⟨n, ℓ, hi.same { Same.refl w with }⟩
  | deregister c =>
    simp only [dispatch] at h
    split at h <;> cases h
    exact ⟨n, ℓ, hi.same { Same.refl w with }⟩

theorem Inv.runHandler {p : Code Unit} (h : Inv n ℓ ε (p.run w).2) : Inv n ℓ ε (w.runHandler p) := by
  unfold World.runHandler
  split
  · next heq => simpa [heq] using h
  · next heq => simpa [heq] using h
  · next w' _ heq =>
    rw [heq] at h
    exact h.same { Same.refl w' with }

theorem step_inv {t : Turn} (hi : Inv n ℓ ε w) (hok : Timely w t) (h : step w t = some w') :
    ∃ n' ℓ', Inv n' ℓ' t.env w' := by
  unfold step at h
  split at h
  · cases h
  · obtain ⟨⟨p, w₁⟩, hd, rfl⟩ := Option.map_eq_some_iff.mp h
    have henv : Inv n ℓ t.env { w with env := t.env } :=
      { hi with
        env := rfl
        stays := fun hs => { hi.stays hs with } }
    obtain ⟨n', ℓ', hi'⟩ := dispatch_inv henv hok hd
    exact ⟨n', ℓ', hi'.runHandler⟩

theorem inv_fresh (h : w.Fresh) : Inv w.received none w.env w := by
  have hforwards : ∀ m ∈ w.toClient, isForwarded m = false := by
    intro m hm
    obtain ⟨event, body, rfl, -⟩ := h.sent m hm
    rfl
  have hnil : forwards w = [] := by
    rw [forwards, List.filter_eq_nil_iff]
    exact fun m hm => by simp [hforwards m hm]
  have hpending : pending w = [] := by
    rw [pending, h.client]
    rfl
  have hno : ¬ Answered w := by
    rintro ⟨id, hid, -⟩
    rw [h.latestStart] at hid
    cases hid
  refine {
    received := rfl
    env := rfl
    latest := h.latestStart
    old := nofun
    fresh := by simp [h.responses]
    start := fun start hs => ?_
    evaluating := by simp [h.evaluating]
    suspended := by simp [h.suspended]
    after := fun ms hpre _ m hm => hforwards m (hpre.subset hm)
    told := fun ha => absurd ha hno
    stays := fun _ => {
      content := fun _ => by rw [hnil, hpending, arrivals, h.arrived]; rfl
      written := fun hd => ?_
      start := fun start hs => ?_
      waiting := by simp [h.suspended] }
    idle := fun _ => ⟨h.arrived, hnil, hpending⟩
    closed := fun _ hsu => absurd hsu.answered hno }
  · rw [h.client] at hs
    cases hs
  · rw [h.client] at hd
    cases hd
  · rw [h.client] at hs
    cases hs

theorem Inv.delivered (hi : Inv n ℓ ε w) : Delivered w where
  after ms hpre hno := hi.after ms hpre (hi.latest ▸ hno)
  kept hs := (hi.stays hs).content
  listed hs ha := by
    refine ⟨fun hd => ((hi.stays hs).written hd).1, fun hsu => ?_⟩
    exact (hi.closed hs hsu).resolve_left ha
  all hs hsu := by
    have hcontent := (hi.stays hs).content hsu.not_failed
    rw [hi.flushed hs hsu] at hcontent
    simpa using hcontent

end

theorem inv_of_timely {w₀ w : World} {ts : List Turn} (h₀ : w₀.Fresh)
    (h : Run.exec step w₀ ts = some w) (hok : Run.Meets step Timely w₀ ts) : ∃ n ℓ ε, Inv n ℓ ε w := by
  have keep : ∀ {w t w'}, (∃ n ℓ ε, Inv n ℓ ε w) → Timely w t → step w t = some w' →
      ∃ n ℓ ε, Inv n ℓ ε w' := by
    rintro w t w' ⟨n, ℓ, ε, hi⟩ hok h
    obtain ⟨n', ℓ', hi'⟩ := step_inv hi hok h
    exact ⟨n', ℓ', _, hi'⟩
  exact Run.exec_invariant (I := fun w => ∃ n ℓ ε, Inv n ℓ ε w) keep ⟨_, _, _, inv_fresh h₀⟩ hok h

/-- In every run whose steps meet the condition, the list of deferred events is
kept and delivered. -/
theorem delivered_of_timely (w₀ w : World) (ts : List Turn) (h₀ : w₀.Fresh)
    (h : Run.exec step w₀ ts = some w) (hok : Run.Meets step Timely w₀ ts) : Delivered w := by
  obtain ⟨n, ℓ, ε, hi⟩ := inv_of_timely h₀ h hok
  exact hi.delivered

instance : DecidablePred PassesOn
  | .launcher .. | .process _ | .connection _ | .attach .. | .finalize (.start _) => .isTrue trivial
  | .finalize .nothing | .finalize (.disconnect _) | .finalize (.terminate _)
  | .finalize (.responded _) => .isFalse id

instance : ∀ label, Decidable (LabelTimely w label)
  | .request command _ => inferInstanceAs (Decidable ((IsStart command → Alone w → _ = true) ∧
      (IsStart command ∨ _ → _ = false)))
  | .resume => inferInstanceAs (Decidable (∀ stage ∈ w.suspended, PassesOn stage → _ = false))
  | .launcherConnects => inferInstanceAs (Decidable (¬ Succeeded w))
  | .launcherEvent .. => inferInstanceAs (Decidable (_ → Answered w))
  | .clientEvent .. | .clientDisconnect | .evaluated .. | .serverEvent .. | .serverDisconnect
  | .launcherDisconnect | .clientLost .. | .register .. | .deregister _ => .isTrue trivial

instance (w : World) (t : Turn) : Decidable (Timely w t) :=
  inferInstanceAs (Decidable (_ → LabelTimely _ _))

/-- Two events arrive before the start request is responded to, and one after. -/
def timely : List Turn :=
  [{ label := .register 0 1 none },
    { label := .request "initialize" (.dict []) },
    { label := .request "attach" (.dict []) },
    { label := .serverEvent "process" (.dict []) },
    { label := .serverEvent "output" (.dict []) },
    { label := .request "configurationDone" (.dict []) },
    { label := .serverEvent "stopped" (.dict []) }]

theorem delivered_timely : ∃ w, Run.exec step {} timely = some w ∧ Succeeded w ∧
    (forwards w).length = 3 ∧ Delivered w := by
  have hrun : (Run.exec step {} timely).map
      (fun w => decide (Succeeded w ∧ (forwards w).length = 3)) = some true := by decide +kernel
  have hok : Run.Meets step Timely {} timely := by decide +kernel
  obtain ⟨w, hw, hd⟩ := Option.map_eq_some_iff.mp hrun
  obtain ⟨hsu, hlen⟩ := of_decide_eq_true hd
  exact ⟨w, hw, hsu, hlen, delivered_of_timely {} w timely fresh_default hw hok⟩

end Debugpy.Deferred
