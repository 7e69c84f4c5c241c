import Debugpy.Adapter.System

/-!
# configurationDone settles two requests

`settles_iff_answerable`: the handling of `"configurationDone"` responds once
to it and once to the start request, and lets nothing escape, if and only if
the client's channel takes the writes and the server does not fail the
request. If the server does, the handler answers the start request alone and
`Request._handle` asserts in vain, unless the client refuses to attach to a
subprocess, and its refusal becomes the response.
-/

namespace Debugpy.Adapter

open Proc (raise exit block tryExcept)

@[simp] theorem answers_asked (w : World) (r : Request) :
    (w.asked command arguments).answers r = w.answers r := rfl

-- ---------------------------------------------------------------------------
-- The subprocesses to report
-- ---------------------------------------------------------------------------

theorem addItem_contains (h : addItem value key item = .ok v) : contains key v = .ok true := by
  unfold addItem at h
  cases hc : contains key value with
  | error e => simp [hc, bind, Except.bind] at h
  | ok b =>
    cases b with
    | true =>
      simp [hc, bind, Except.bind, pure, Except.pure] at h
      exact h ▸ hc
    | false =>
      cases item with
      | error e => simp [hc, bind, Except.bind] at h
      | ok x =>
        cases value <;> simp [hc, bind, Except.bind, setItem] at h
        simp [← h, contains, Json.get?_set_self]

theorem addItem_keeps (hk : contains k value = .ok true) (h : addItem value key item = .ok v) :
    contains k v = .ok true := by
  unfold addItem at h
  cases hc : contains key value with
  | error e => simp [hc, bind, Except.bind] at h
  | ok b =>
    cases b with
    | true =>
      simp [hc, bind, Except.bind, pure, Except.pure] at h
      exact h ▸ hk
    | false =>
      cases item with
      | error e => simp [hc, bind, Except.bind] at h
      | ok x =>
        cases value <;> simp [hc, bind, Except.bind, setItem] at h
        subst h
        by_cases hkk : k = key
        · simp [contains, hkk, Json.get?_set_self]
        · simpa [contains, Json.get?_set_ne _ hkk] using hk

theorem addItem_present (h : contains key value = .ok true) : addItem value key item = .ok value := by
  simp [addItem, h, bind, Except.bind, pure, Except.pure]

theorem connectBody_shared (h : connectBody w d = .ok v) :
    connectBody w (Json.set d "connect" v) = .ok v := by
  unfold connectBody at h ⊢
  simp only [bind, Except.bind] at h ⊢
  split at h
  · cases h
  · rename_i connect hhost
    have hh : contains "host" v = .ok true := addItem_keeps (addItem_contains hhost) h
    have hp : contains "port" v = .ok true := addItem_contains h
    simp only [Json.get?_set_self, Option.getD_some, addItem_present hh, addItem_present hp]

theorem assigned_eq_some (h : assigned value key item = some v) :
    contains key value = .ok false ∧ addItem value key item = .ok v := by
  unfold assigned at h
  split at h
  · rename_i x hc
    cases hs : setItem value key x with
    | error e => simp [hs, Except.toOption] at h
    | ok v' =>
      simp only [hs, Except.toOption, Option.some.injEq] at h
      subst h
      exact ⟨hc, by simp [addItem, hc, hs, bind, Except.bind]⟩
  · cases h

theorem eq_of_assigned_eq_none (h : assigned value key item = none)
    (hv : addItem value key item = .ok v) : v = value := by
  unfold addItem at hv
  cases hc : contains key value with
  | error e => simp [hc, bind, Except.bind] at hv
  | ok b =>
    cases b with
    | true => simpa [hc, bind, Except.bind, pure, Except.pure, eq_comm] using hv
    | false =>
      cases item with
      | error e => simp [hc, bind, Except.bind] at hv
      | ok x =>
        have hset : setItem value key x = .ok v := by simpa [hc, bind, Except.bind] using hv
        simp [assigned, hc, hset, Except.toOption] at h

theorem filledConnect_some (h : connectBody w d = .ok v) (hf : filledConnect w d = some filled) :
    ∃ connect, Json.get? d "connect" = some connect ∧ filled = v := by
  cases hc : Json.get? d "connect" with
  | none => simp [filledConnect, hc] at hf
  | some connect =>
    refine ⟨connect, rfl, ?_⟩
    simp only [connectBody, hc, Option.getD_some, bind, Except.bind] at h
    split at h
    · cases h
    · rename_i connect' hhost
      simp only [filledConnect, hc, hhost, bind, Option.bind, Option.orElse_eq_some] at hf
      rcases hf with hf | ⟨hport, hf⟩
      · have hadd := (assigned_eq_some hf).2
        rw [h] at hadd
        exact (Except.ok.inj hadd).symm
      · have hadd := (assigned_eq_some hf).2
        rw [hhost] at hadd
        exact (Except.ok.inj hadd).symm.trans (eq_of_assigned_eq_none hport h).symm

def toReport (isChild : Nat → Bool) : List Nat → List Nat → List Nat
  | _, [] => []
  | known, c :: cs =>
    if isChild c && !known.contains c then c :: toReport isChild (known ++ [c]) cs
    else toReport isChild known cs

def reports (refuses : Nat → Bool) : List Nat → Nat × Bool
  | [] => (0, true)
  | c :: cs => if refuses c then (1, false) else ((reports refuses cs).1 + 1, (reports refuses cs).2)

def supportsStartDebugging (capabilities : Items) : Bool :=
  (Json.get? capabilities "supportsStartDebuggingRequest").any Json.truthy

def Reply.isSuccess : Reply → Bool
  | .success _ => true
  | _ => false

def World.refuses (w : World) (capabilities : Items) (c : Nat) : Bool :=
  supportsStartDebugging capabilities && !(w.env.clientReply c).isSuccess

/-- Subprocesses can be reported, with the arguments `d` of the start request. -/
structure Noticing (w : World) (d caps : Items) : Prop where
  start : ∃ start, w.client.startRequest = some start ∧ start.arguments = .dict d
  notByPid : Json.get? d "processId" = none
  connect : ∃ v, connectBody w d = .ok v
  capabilities : w.client.capabilities = some caps

structure Noted (w w' : World) (n : Nat) : Prop where
  responses : w'.responses = w.responses
  answers : ∀ r, w'.answers r = w.answers r
  takes : ∀ m, w'.outlet.Takes m ↔ w.outlet.Takes (n + m)
  world : w'.conns = w.conns ∧ w'.pid = w.pid ∧ w'.env = w.env

theorem Noted.trans (h : Noted w w' n) (h' : Noted w' w'' m) : Noted w w'' (n + m) where
  responses := h'.responses.trans h.responses
  answers r := (h'.answers r).trans (h.answers r)
  takes k := by rw [h'.takes, h.takes, Nat.add_assoc]
  world := ⟨h'.world.1.trans h.world.1, h'.world.2.1.trans h.world.2.1,
    h'.world.2.2.trans h.world.2.2⟩

def Foreign (e : Exn) : Prop :=
  isGone e = true ∨ ∃ uid invalid reason n, e = .messageHandling uid invalid reason (some (.made n))

theorem Noticing.share (h : Noticing w d caps) :
    ∃ d', Noticing (w.withClient (·.shareConnect (filledConnect w d))) d' caps := by
  obtain ⟨start, hs, ha⟩ := h.start
  obtain ⟨v, hv⟩ := h.connect
  cases hf : filledConnect w d with
  | none => exact ⟨d, ⟨⟨start, by simp [Client.shareConnect, hs, ha]⟩, h.notByPid, ⟨v, hv⟩,
      by simp [Client.shareConnect, h.capabilities]⟩⟩
  | some filled =>
    obtain ⟨connect, hc, rfl⟩ := filledConnect_some hv hf
    refine ⟨Json.set d "connect" filled,
      ⟨⟨{ start with arguments := _ }, ?_, rfl⟩, ?_, ⟨filled, connectBody_shared hv⟩, ?_⟩⟩
    · simp [Client.shareConnect, hs, ha, hc]
    · rw [Json.get?_set_ne _ (by decide)]
      exact h.notByPid
    · simp [Client.shareConnect, hs, ha, hc, h.capabilities]

theorem connectBody_congr (h : ∀ key ∈ ["host", "port", "connect"], Json.get? d' key = Json.get? d key) :
    connectBody w d' = connectBody w d := by
  simp [connectBody, connectHost, connectPort, h]

@[simp] theorem connectBody_subprocessItems (w : World) (pid : Int) (d : Items) :
    connectBody w (subprocessItems pid d) = connectBody w d := by
  apply connectBody_congr
  intro key hkey
  simp only [List.mem_cons, List.not_mem_nil, or_false] at hkey
  rcases hkey with rfl | rfl | rfl <;>
    simp [subprocessItems, Json.get?_erase_ne, Json.get?_set_ne]

theorem subprocessBody_ok (c : Nat) (h : connectBody w d = .ok v) :
    ∃ body, subprocessBody w c d = .ok body :=
  ⟨_, by simp [subprocessBody, h, bind, Except.bind, pure, Except.pure]; rfl⟩

theorem run_capability (key : String) (h : w.client.capabilities = some caps) :
    (capability key).run w = (.ok ((Json.get? caps key).any Json.truthy), w) := by
  simp [capability, Proc.run_bind, h]

theorem run_capability_missing (key : String) (h : w.client.capabilities = none) :
    (capability key).run w =
      (.error (.raised (.attributeError "object has no attribute 'capabilities'")), w) := by
  simp [capability, Proc.run_bind, h]

theorem reply_get_refused {reply : Reply} (stream : String) (h : reply.isSuccess = false) (w : World) :
    ∃ e w', (reply.get stream).run w = (.error (.raised e), w') ∧ Foreign e ∧
      Noted w w' 0 := by
  have hn : Noted w w 0 := ⟨rfl, fun _ => rfl, fun m => by rw [Nat.zero_add], rfl, rfl, rfl⟩
  cases reply with
  | success => cases h
  | failure invalid reason =>
    refine ⟨_, w.tick.tick, rfl, .inr ⟨_, _, _, _, rfl⟩, ⟨rfl, fun _ => rfl, ?_, rfl, rfl, rfl⟩⟩
    intro m
    rw [Nat.zero_add]
    exact Iff.rfl
  | lost | broken => exact ⟨_, w, rfl, .inl rfl, hn⟩

theorem Noted.refl (w : World) : Noted w w 0 :=
  ⟨rfl, fun _ => rfl, fun m => by rw [Nat.zero_add], rfl, rfl, rfl⟩

theorem Noted.write (h : w.outlet.spent = false) (hm : ∀ id, m.isResponseTo id = false) :
    Noted w ((w.withClient f).sent m) 1 where
  responses := rfl
  answers r := by simp [hm]
  takes k := Outlet.takes_after (Outlet.spent_eq_false.mp h) k
  world := ⟨rfl, rfl, rfl⟩

theorem reportSubprocess_run (c : Nat) (h : Noticing w d caps) :
    ∃ w' d' m, (∃ f, w' = w.withClient f) ∧ w'.client.knownSubprocesses = w.client.knownSubprocesses ∧
      Noticing w' d' caps ∧ (∀ id, m.isResponseTo id = false) ∧
      (reportSubprocess c d).run w = (if supportsStartDebugging caps then
        (write m >>= fun _ => do let _ ← (w.env.clientReply c).get w.clientName)
        else write m : Code Unit).run w' := by
  obtain ⟨v, hv⟩ := h.connect
  obtain ⟨body, hbody⟩ := subprocessBody_ok c hv
  obtain ⟨d', hd'⟩ := h.share
  let w' := w.withClient (·.shareConnect (filledConnect w d))
  have hknown : w'.client.knownSubprocesses = w.client.knownSubprocesses := by
    obtain ⟨start, hshare, -⟩ := shareConnect_start w.client (filledConnect w d)
    simp only [w', World.withClient_client, hshare]
  have hrun : (reportSubprocess c d).run w = (do
      if (Json.get? caps "supportsStartDebuggingRequest").any Json.truthy then
        write (.request "startDebugging"
          (.dict [("request", .str "attach"), ("configuration", .dict body)]))
        let _ ← (w.env.clientReply c).get w.clientName
      else sendEvent "debugpyAttach" (.dict (Json.set body "request" (.str "attach"))) :
        Code Unit).run w' := by
    simp [reportSubprocess, Proc.run_bind, hbody, ofExcept, run_modifyClient,
      run_capability (w := w') _ hd'.capabilities, w']
  by_cases hs : supportsStartDebugging caps
  · refine ⟨w', d', .request "startDebugging"
      (.dict [("request", .str "attach"), ("configuration", .dict body)]),
      ⟨_, rfl⟩, hknown, hd', fun _ => rfl, ?_⟩
    rw [hrun]
    simp only [supportsStartDebugging] at hs
    simp only [hs, supportsStartDebugging, ↓reduceIte]
  · refine ⟨w', d', .event "debugpyAttach" (.dict (Json.set body "request" (.str "attach"))),
      ⟨_, rfl⟩, hknown, hd', fun _ => rfl, ?_⟩
    rw [hrun]
    simp only [supportsStartDebugging] at hs
    simp only [hs, supportsStartDebugging, Bool.false_eq_true, ↓reduceIte]
    rfl

theorem reportSubprocess_spec (c : Nat) (h : Noticing w d caps) :
    (w.outlet.spent = true → Fails (reportSubprocess c d) w) ∧
    (w.outlet.spent = false →
      if w.refuses caps c then
        ∃ e w', (reportSubprocess c d).run w = (.error (.raised e), w') ∧ Foreign e ∧ Noted w w' 1
      else ∃ w' d', (reportSubprocess c d).run w = (.ok (), w') ∧ Noted w w' 1 ∧
        Noticing w' d' caps ∧ w'.client.knownSubprocesses = w.client.knownSubprocesses) := by
  obtain ⟨w₁, d', m, ⟨f, rfl⟩, hknown, hd', hm, hrun⟩ := reportSubprocess_run c h
  constructor
  · intro hs
    have hfail : Fails (write m) (w.withClient f) := write_fails hs
    refine .of_run hrun ?_
    split
    · exact hfail.bind
    · exact hfail
  · intro hs
    have hw : (write m).run (w.withClient f) = (.ok (), (w.withClient f).sent m) := write_ok hs
    have hn : Noted w ((w.withClient f).sent m) 1 := .write hs hm
    have hd'' : Noticing ((w.withClient f).sent m) d' caps :=
      ⟨hd'.start, hd'.notByPid, hd'.connect, hd'.capabilities⟩
    split
    · rename_i href
      simp only [World.refuses, Bool.and_eq_true, Bool.not_eq_true'] at href
      obtain ⟨e, w', hget, hforeign, hn'⟩ := reply_get_refused w.clientName href.2
        ((w.withClient f).sent m)
      refine ⟨e, w', ?_, hforeign, hn.trans hn'⟩
      rw [hrun]
      simp [href.1, Proc.run_bind, hw, hget, Proc.run_map]
    · rename_i href
      refine ⟨_, d', ?_, hn, hd'', hknown⟩
      rw [hrun]
      split
      · rename_i hsup
        cases hr : w.env.clientReply c with
        | success body => simp [hw, Reply.get]
        | _ => simp [World.refuses, hsup, hr, Reply.isSuccess] at href
      · exact hw

theorem noticeSubprocess_known (h : w.client.startRequest = some start)
    (hk : c ∈ w.client.knownSubprocesses) : (noticeSubprocess c).run w = (.ok none, w) := by
  simp [noticeSubprocess, Proc.run_bind, h, hk]

theorem noticeSubprocess_new (hs : w.client.startRequest = some start)
    (ha : start.arguments = .dict d) (hp : Json.get? d "processId" = none)
    (hk : c ∉ w.client.knownSubprocesses) :
    (noticeSubprocess c).run w = (.ok (some d), w.withClient (·.know c)) := by
  simp [noticeSubprocess, Proc.run_bind, Proc.run_map, hs, hk, ha, contains, hp, ofExcept,
    run_modifyClient, Request.items]

theorem Noticing.know (h : Noticing w d caps) (c : Nat) :
    Noticing (w.withClient (·.know c)) d caps :=
  ⟨h.start, h.notByPid, h.connect, h.capabilities⟩

theorem notifyOfSubprocess_new (hs : w.client.startRequest = some start)
    (ha : start.arguments = .dict d) (hp : Json.get? d "processId" = none)
    (hk : c ∉ w.client.knownSubprocesses) :
    (notifyOfSubprocess c).run w = (reportSubprocess c d).run (w.withClient (·.know c)) := by
  rw [notifyOfSubprocess, Proc.run_bind, noticeSubprocess_new hs ha hp hk]

theorem notifyOfSubprocess_known (h : w.client.startRequest = some start)
    (hk : c ∈ w.client.knownSubprocesses) : (notifyOfSubprocess c).run w = (.ok (), w) := by
  rw [notifyOfSubprocess, Proc.run_bind, noticeSubprocess_known h hk]
  rfl

theorem notifyAll_child (h : w.isChild c = true) :
    (notifyAll (c :: cs)).run w = (notifyOfSubprocess c >>= fun _ => notifyAll cs).run w := by
  simp [notifyAll, Proc.run_bind, Proc.when, h]

theorem notifyAll_other (h : w.isChild c = false) :
    (notifyAll (c :: cs)).run w = (notifyAll cs).run w := by
  simp [notifyAll, Proc.run_bind, Proc.when, h]

theorem notifyAll_skip (hs : w.client.startRequest = some start)
    (h : w.isChild c = true → c ∈ w.client.knownSubprocesses) :
    (notifyAll (c :: cs)).run w = (notifyAll cs).run w := by
  cases hc : w.isChild c with
  | false => exact notifyAll_other hc
  | true => rw [notifyAll_child hc, Proc.run_bind, notifyOfSubprocess_known hs (h hc)]

theorem Noted.same (h : Noted w w' n) (caps : Items) :
    w'.isChild = w.isChild ∧ w'.refuses caps = w.refuses caps := by
  have hchild : w'.isChild = w.isChild := by
    funext c
    simp only [World.isChild, h.world.1, h.world.2.1]
  have hrefuses : w'.refuses caps = w.refuses caps := by
    funext c
    simp only [World.refuses, h.world.2.2]
  exact ⟨hchild, hrefuses⟩

/-- The judgement of the loop: it takes as many writes as `p` says, and a
refusal ends it. -/
structure Loops (p : Nat × Bool) (f : Code Unit) (w : World) : Prop where
  fails : ¬ w.outlet.Takes p.1 → Fails f w
  done : w.outlet.Takes p.1 → p.2 = true → ∃ w', f.run w = (.ok (), w') ∧ Noted w w' p.1
  refused : w.outlet.Takes p.1 → p.2 = false →
    ∃ e w', f.run w = (.error (.raised e), w') ∧ Foreign e ∧ Noted w w' p.1

/-- A report and the rest of the loop, which is judged after each of the
states that the report can lead to. -/
theorem loops_child (h : Noticing w d caps) (hchild : w.isChild c = true)
    (hk : c ∉ w.client.knownSubprocesses)
    (ih : ∀ w' d', Noticing w' d' caps → Noted w w' 1 →
      w'.client.knownSubprocesses = w.client.knownSubprocesses ++ [c] →
      Loops p (notifyAll cs) w') :
    Loops (if w.refuses caps c then (1, false) else (p.1 + 1, p.2)) (notifyAll (c :: cs)) w := by
  obtain ⟨hspent, hopen⟩ := reportSubprocess_spec c (h.know c)
  have hrun : (notifyAll (c :: cs)).run w =
      (reportSubprocess c d >>= fun _ => notifyAll cs).run (w.withClient (·.know c)) := by
    obtain ⟨start, hs, ha⟩ := h.start
    rw [notifyAll_child hchild, Proc.run_bind, Proc.run_bind,
      notifyOfSubprocess_new hs ha h.notByPid hk]
  have hn : Noted w (w.withClient (·.know c)) 0 :=
    ⟨rfl, fun _ => rfl, fun m => by rw [Nat.zero_add]; rfl, rfl, rfl, rfl⟩
  have hfails : w.outlet.spent = true → Fails (notifyAll (c :: cs)) w := by
    intro hs
    exact .of_run hrun (hspent hs).bind
  cases hr : w.refuses caps c with
  | true =>
    refine ⟨fun ht => hfails (Outlet.spent_iff.mpr ht), fun _ h => (nomatch h), fun ht _ => ?_⟩
    have hrefused := hopen (Outlet.takes_succ.mp ht).1
    rw [show (w.withClient (·.know c)).refuses caps c = true from hr, if_pos rfl] at hrefused
    obtain ⟨e, w', hreport, hforeign, hn'⟩ := hrefused
    refine ⟨e, w', ?_, hforeign, by simpa using hn.trans hn'⟩
    rw [hrun, Proc.run_bind, hreport]
  | false =>
    rw [if_neg Bool.false_ne_true]
    cases hs : w.outlet.spent with
    | true =>
      have hnot : ¬ w.outlet.Takes (p.1 + 1) := by simp [Outlet.takes_succ, hs]
      exact ⟨fun _ => hfails hs, fun ht => absurd ht hnot, fun ht => absurd ht hnot⟩
    | false =>
      have hreported := hopen hs
      rw [show (w.withClient (·.know c)).refuses caps c = false from hr,
        if_neg Bool.false_ne_true] at hreported
      obtain ⟨w', d', hreport, hn', hd', hknown⟩ := hreported
      have hn₁ : Noted w w' 1 := by simpa using hn.trans hn'
      have hrest := ih w' d' hd' hn₁ hknown
      have hrun' : (notifyAll (c :: cs)).run w = (notifyAll cs).run w' := by
        rw [hrun, Proc.run_bind, hreport]
      have htakes : w.outlet.Takes (p.1 + 1) ↔ w'.outlet.Takes p.1 := by
        rw [Nat.add_comm, hn₁.takes]
      constructor
      · intro ht
        exact .of_run hrun' (hrest.fails (mt htakes.mpr ht))
      · intro ht hp
        obtain ⟨w'', hok, hn''⟩ := hrest.done (htakes.mp ht) hp
        exact ⟨w'', hrun'.trans hok, by simpa [Nat.add_comm] using hn₁.trans hn''⟩
      · intro ht hp
        obtain ⟨e, w'', herr, hforeign, hn''⟩ := hrest.refused (htakes.mp ht) hp
        exact ⟨e, w'', hrun'.trans herr, hforeign, by simpa [Nat.add_comm] using hn₁.trans hn''⟩

/-- The loop, by induction on the connections. -/
theorem notifyAll_spec (h : Noticing w d caps) (cs : List Nat) :
    Loops (reports (w.refuses caps) (toReport w.isChild w.client.knownSubprocesses cs))
      (notifyAll cs) w := by
  induction cs generalizing w d with
  | nil =>
    exact ⟨fun hn => absurd (Outlet.takes_zero _) hn, fun _ _ => ⟨w, rfl, .refl w⟩,
      fun _ h => (nomatch h)⟩
  | cons c cs ih =>
    obtain ⟨start, hstart, -⟩ := h.start
    by_cases hnew : w.isChild c = true ∧ c ∉ w.client.knownSubprocesses
    · obtain ⟨hchild, hk⟩ := hnew
      have hreport : toReport w.isChild w.client.knownSubprocesses (c :: cs) =
          c :: toReport w.isChild (w.client.knownSubprocesses ++ [c]) cs := by
        simp [toReport, hchild, hk]
      rw [hreport]
      refine loops_child h hchild hk fun w' d' hd' hn hknown => ?_
      have hrest := ih hd'
      rwa [hknown, (hn.same caps).1, (hn.same caps).2] at hrest
    · have hskip : w.isChild c = true → c ∈ w.client.knownSubprocesses := by
        intro hc
        simpa [hc] using hnew
      have hreport : toReport w.isChild w.client.knownSubprocesses (c :: cs) =
          toReport w.isChild w.client.knownSubprocesses cs := by
        cases hc : w.isChild c with
        | false => simp [toReport, hc]
        | true => simp [toReport, hskip hc]
      have hrest := ih h
      have hrun : (notifyAll (c :: cs)).run w = (notifyAll cs).run w := notifyAll_skip hstart hskip
      rw [hreport]
      exact ⟨fun ht => .of_run hrun (hrest.fails ht),
        fun ht hp => by simpa only [hrun] using hrest.done ht hp,
        fun ht hp => by simpa only [hrun] using hrest.refused ht hp⟩

-- ---------------------------------------------------------------------------
-- The loop, with the arguments of any start request
-- ---------------------------------------------------------------------------

/-- What the loop comes to: `none` if the arguments of the start request
cannot be made into a configuration. -/
def World.notices (w : World) (d : Items) : Option (Nat × Bool) :=
  let cs := toReport w.isChild w.client.knownSubprocesses w.connections
  if (Json.get? d "processId").isSome || cs.isEmpty then some (0, true)
  else match connectBody w d, w.client.capabilities with
    | .ok _, some caps => some (reports (w.refuses caps) cs)
    | _, _ => none

theorem notifyAll_quiet
    (h : ∀ c ∈ cs, w.isChild c = true → (notifyOfSubprocess c).run w = (.ok (), w)) :
    (notifyAll cs).run w = (.ok (), w) := by
  induction cs with
  | nil => rfl
  | cons c cs ih =>
    have ih := ih fun c' hc' => h c' (List.mem_cons_of_mem _ hc')
    cases hc : w.isChild c with
    | false => exact (notifyAll_other hc).trans ih
    | true =>
      rw [notifyAll_child hc, Proc.run_bind, h c List.mem_cons_self hc]
      exact ih

theorem notifyOfSubprocess_byPid (hs : w.client.startRequest = some start)
    (ha : start.arguments = .dict d) (hp : (Json.get? d "processId").isSome) (c : Nat) :
    (notifyOfSubprocess c).run w = (.ok (), w) := by
  have hnotice : (noticeSubprocess c).run w = (.ok none, w) := by
    by_cases hk : c ∈ w.client.knownSubprocesses
    · exact noticeSubprocess_known hs hk
    · simp [noticeSubprocess, Proc.run_bind, hs, hk, ha, contains, hp, ofExcept]
  rw [notifyOfSubprocess, Proc.run_bind, hnotice]
  rfl

theorem toReport_nil (h : toReport isChild known cs = []) :
    ∀ c ∈ cs, isChild c = true → c ∈ known := by
  induction cs with
  | nil => simp
  | cons c cs ih =>
    unfold toReport at h
    split at h
    · cases h
    · rename_i hc
      intro c' hmem hchild
      rcases List.mem_cons.mp hmem with rfl | hmem
      · simpa [hchild] using hc
      · exact ih h c' hmem hchild

theorem addItem_error (h : addItem value key item = .error e) :
    passes e = true ∨ item = .error e := by
  have hset : ∀ x, setItem value key x = .error e → passes e = true := by
    intro x hx
    cases value <;> cases hx <;> rfl
  unfold addItem at h
  cases hc : contains key value with
  | error e' =>
    left
    simp only [hc, bind, Except.bind, Except.error.injEq] at h
    subst h
    cases value <;> cases hc <;> rfl
  | ok b =>
    cases b with
    | true => simp [hc, bind, Except.bind, pure, Except.pure] at h
    | false =>
      cases item with
      | error e' =>
        right
        simpa [hc, bind, Except.bind] using h
      | ok x =>
        left
        exact hset x (by simpa [hc, bind, Except.bind] using h)

theorem connectBody_error (h : connectBody w d = .error e) : passes e = true := by
  unfold connectBody at h
  simp only [bind, Except.bind] at h
  split at h
  · rename_i e' hhost
    cases h
    exact (addItem_error hhost).resolve_right nofun
  · rcases addItem_error h with hp | hitem
    · exact hp
    · unfold connectPort at hitem
      split at hitem <;> cases hitem <;> rfl

theorem reportSubprocess_impossible (c : Nat) (hc : ∀ v caps,
    ¬ (connectBody w d = .ok v ∧ w.client.capabilities = some caps)) :
    ∃ e w', (reportSubprocess c d).run w = (.error (.raised e), w') ∧ passes e = true ∧
      w'.responses = w.responses := by
  let w' := w.withClient fun client => client.shareConnect (filledConnect w d)
  cases hb : connectBody w d with
  | error e =>
    have hbody : subprocessBody w c d = .error e := by
      simp [subprocessBody, hb, bind, Except.bind]
    exact ⟨e, w', by simp [reportSubprocess, Proc.run_bind, run_modifyClient, hbody, ofExcept, w'],
      connectBody_error hb, rfl⟩
  | ok v =>
    obtain ⟨body, hbody⟩ := subprocessBody_ok c hb
    cases hcaps : w.client.capabilities with
    | some caps => exact absurd ⟨hb, hcaps⟩ (hc v caps)
    | none =>
      have hw' : w'.client.capabilities = none := by
        obtain ⟨start, hshare, -⟩ := shareConnect_start w.client (filledConnect w d)
        simp only [w', World.withClient_client, hshare]
        exact hcaps
      refine ⟨.attributeError "object has no attribute 'capabilities'", w', ?_, rfl, rfl⟩
      have hcap := run_capability_missing "supportsStartDebuggingRequest" hw'
      simp only [reportSubprocess, Proc.run_bind, Proc.run_get, hbody, ofExcept, Proc.run_pure,
        run_modifyClient]
      rw [hcap]

theorem notifyAll_impossible (hs : w.client.startRequest = some start)
    (ha : start.arguments = .dict d) (hp : Json.get? d "processId" = none)
    (hc : ∀ v caps, ¬ (connectBody w d = .ok v ∧ w.client.capabilities = some caps))
    (hne : toReport w.isChild w.client.knownSubprocesses cs ≠ []) :
    ∃ e w', (notifyAll cs).run w = (.error (.raised e), w') ∧ passes e = true ∧
      w'.responses = w.responses := by
  induction cs with
  | nil => exact absurd rfl hne
  | cons c cs ih =>
    by_cases hnew : w.isChild c = true ∧ c ∉ w.client.knownSubprocesses
    · obtain ⟨e, w', hrun, he, hr⟩ :=
        reportSubprocess_impossible (w := w.withClient (·.know c)) c (d := d) hc
      refine ⟨e, w', ?_, he, hr⟩
      rw [notifyAll_child hnew.1, Proc.run_bind, notifyOfSubprocess_new hs ha hp hnew.2, hrun]
    · have hskip : w.isChild c = true → c ∈ w.client.knownSubprocesses := by
        intro hc
        simpa [hc] using hnew
      have hreport : toReport w.isChild w.client.knownSubprocesses (c :: cs) =
          toReport w.isChild w.client.knownSubprocesses cs := by
        cases hc : w.isChild c with
        | false => simp [toReport, hc]
        | true => simp [toReport, hskip hc]
      rw [notifyAll_skip hs hskip]
      exact ih (hreport ▸ hne)

section
variable {w : World} {start : Request} {d : Items} {p : Nat × Bool}
  (hs : w.client.startRequest = some start) (ha : start.arguments = .dict d)
include hs ha

theorem loops_of_notices (h : w.notices d = some p) : Loops p (notifyAll w.connections) w := by
  have hquiet (hq : (notifyAll w.connections).run w = (.ok (), w)) :
      Loops (0, true) (notifyAll w.connections) w :=
    ⟨fun ht => absurd (Outlet.takes_zero _) ht, fun _ _ => ⟨w, hq, .refl w⟩,
      fun _ h => (nomatch h)⟩
  unfold World.notices at h
  simp only [Bool.or_eq_true, List.isEmpty_iff] at h
  split at h
  · rename_i hor
    cases h
    refine hquiet (notifyAll_quiet fun c hmem hchild => ?_)
    rcases hor with hp | hnil
    · exact notifyOfSubprocess_byPid hs ha hp c
    · exact notifyOfSubprocess_known hs (toReport_nil hnil c hmem hchild)
  · rename_i hor
    simp only [not_or, Option.not_isSome_iff_eq_none] at hor
    split at h
    · rename_i v caps hv hcaps
      cases h
      exact notifyAll_spec ⟨⟨start, hs, ha⟩, hor.1, ⟨v, hv⟩, hcaps⟩ w.connections
    · cases h

theorem impossible_of_notices (h : w.notices d = none) :
    ∃ e w', (notifyAll w.connections).run w = (.error (.raised e), w') ∧ passes e = true ∧
      w'.responses = w.responses := by
  unfold World.notices at h
  simp only [Bool.or_eq_true, List.isEmpty_iff] at h
  split at h
  · cases h
  · rename_i hor
    simp only [not_or, Option.not_isSome_iff_eq_none] at hor
    split at h
    · cases h
    · rename_i hno
      refine notifyAll_impossible hs ha hor.1 ?_ hor.2
      rintro v caps ⟨hv, hcaps⟩
      exact hno v caps hv hcaps

end

-- ---------------------------------------------------------------------------
-- The try statement
-- ---------------------------------------------------------------------------

/-- A start request is pending, with the arguments `d` and the events `es`
deferred, and the request `r` is to be handled. -/
structure Pending (w : World) (r start : Request) (d : Items) (es : List Event) : Prop where
  command : r.command = "configurationDone"
  startRequest : w.client.startRequest = some start
  arguments : start.arguments = .dict d
  notStarted : w.client.hasStarted = false
  unanswered : w.responses start.id = none
  fresh : w.responses r.id = none
  distinct : r.id ≠ start.id
  deferred : w.client.deferredEvents = some es

def World.answered (w : World) (r : Request) (b : Except Exn Json) : World :=
  (w.sent (.response r b)).respond r b

/-- After `settleStart` has responded and the events have gone out. -/
def World.settled (w : World) (start : Request) (es : List Event) : World :=
  ((w.answered start (.ok (.dict []))).forwarded es).withClient Client.flush

theorem settleStart_run (hs : w.client.startRequest = some start)
    (hu : w.responses start.id = none) :
    settleStart.run w =
      (start.respond (.ok (.dict [])) >>= fun _ => propagateDeferredEvents).run w := by
  simp [settleStart, withStartRequest, Proc.run_bind, hs, hu]

theorem settleStart_done (hs : w.client.startRequest = some start)
    (hu : (w.responses start.id).isSome) : settleStart.run w = (.ok (), w) := by
  have hn : w.responses start.id ≠ none := Option.isSome_iff_ne_none.mp hu
  simp [settleStart, withStartRequest, Proc.run_bind, hs, hn]

theorem settleStart_ok (hs : w.client.startRequest = some start)
    (hu : w.responses start.id = none) (hd : w.client.deferredEvents = some es)
    (h : w.outlet.Takes (es.length + 1)) :
    settleStart.run w = (.ok (), w.settled start es) := by
  rw [Outlet.takes_succ] at h
  rw [settleStart_run hs hu, Proc.run_bind, respond_ok hu h.1]
  exact propagateDeferredEvents_ok hd h.2

theorem settleStart_fails (hs : w.client.startRequest = some start)
    (hu : w.responses start.id = none) (hd : w.client.deferredEvents = some es)
    (h : ¬ w.outlet.Takes (es.length + 1)) : Fails settleStart w := by
  refine .of_run (settleStart_run hs hu) ?_
  cases hsp : w.outlet.spent with
  | true => exact (respond_fails hu hsp).bind
  | false =>
    rw [Outlet.takes_succ] at h
    exact .after (respond_ok hu hsp) (propagateDeferredEvents_fails hd fun ht => h ⟨hsp, ht⟩)

section
variable {r : Request}

theorem settleConfiguration_ok (h : (answerConfigurationDone r).run w = (.ok b, w')) :
    (settleConfiguration r).run w = (settleStart >>= fun _ => pure b : Code Bool).run w' := by
  rw [settleConfiguration, Proc.run_tryFinally, Proc.run_tryExcept, h]

theorem settleConfiguration_raised
    (h : (answerConfigurationDone r).run w = (.error (.raised e), w'))
    (he : e.isMessageHandling = false) :
    (settleConfiguration r).run w = (settleStart >>= fun _ => raise e : Code Bool).run w' := by
  rw [settleConfiguration, Proc.run_tryFinally, Proc.run_tryExcept, h]
  cases e with
  | messageHandling => cases he
  | _ => rfl

theorem settleConfiguration_stopped (h : (answerConfigurationDone r).run w = (.error e, w'))
    (he : ∀ exc, e ≠ .raised exc) : (settleConfiguration r).run w = (.error e, w') := by
  rw [settleConfiguration, Proc.run_tryFinally, Proc.run_tryExcept, h]
  cases e with
  | raised exc => exact absurd rfl (he exc)
  | _ => rfl

theorem settleConfiguration_failed
    (h : (answerConfigurationDone r).run w =
      (.error (.raised (.messageHandling uid invalid reason cause)), w')) :
    (settleConfiguration r).run w = (Proc.tryFinally
      (failStart (.messageHandling uid invalid reason cause) >>= fun _ => pure false)
      settleStart).run w' := by
  rw [settleConfiguration, Proc.run_tryFinally, Proc.run_tryExcept, h]
  rfl

theorem configurationDone_run (h : Pending w r start d es) :
    (configurationDoneRequest r).run w = (settleConfiguration r >>= fun returned =>
      if returned then pure .none
      else get >>= fun w => notifyAll w.connections >>= fun _ => pure .none :
        Code Result).run w := by
  have hguard : (w.client.startRequest.isNone || w.client.hasStarted) = false := by
    rw [h.startRequest, h.notStarted]
    rfl
  rw [configurationDoneRequest, Proc.run_bind, Proc.run_get]
  simp only [hguard, Proc.when, Bool.false_eq_true, ↓reduceIte]
  rw [Proc.run_bind, Proc.run_pure]

end

-- ---------------------------------------------------------------------------
-- The outcomes
-- ---------------------------------------------------------------------------

/-- The handling of `r` responds once to it and once to `start`, and raises
nothing. Where it waits for the launcher to disconnect, what is left to do is
to return, from whatever state. -/
structure Settles (w : World) (r start : Request) : Prop where
  quiet : ¬ Raises (handleRequest r) w
  once : ((handleRequest r).run w).2.answers r = w.answers r + 1
  onceStart : ((handleRequest r).run w).2.answers start = w.answers start + 1
  waits : ((handleRequest r).run w).1 = .error .blocked →
    ((handleRequest r).run w).2.suspended = some (.finalize (.responded r)) ∧
    (((handleRequest r).run w).2.responses r.id).isSome ∧
    ∀ w', (w'.responses r.id).isSome → ¬ Raises (resume (.finalize (.responded r))) w' ∧
      ∀ q, ((resume (.finalize (.responded r))).run w').2.answers q = w'.answers q

theorem Settles.of_ok {start : Request} (h : (handleRequest r).run w = (.ok (), w'))
    (hr : w'.answers r = w.answers r + 1) (hs : w'.answers start = w.answers start + 1) :
    Settles w r start := by
  refine ⟨?_, by rw [h]; exact hr, by rw [h]; exact hs, fun hb => ?_⟩
  · rintro ⟨e, w'', hraised⟩
    rw [h] at hraised
    cases hraised
  · rw [h] at hb
    cases hb

/-- The client's channel takes the responses, the deferred events and the
reports, and the server does not fail the request, or if it does, the client
refuses a report. -/
def Answerable (w : World) (d : Items) (es : List Event) : Prop :=
  match w.server, w.env.reply with
  | none, _ | some _, .broken => w.outlet.Takes (es.length + 2)
  | some _, .lost => w.outlet.Takes 2
  | some _, .success _ => ∃ n, w.notices d = some (n, true) ∧ w.outlet.Takes (es.length + 2 + n)
  | some _, .failure invalid reason =>
    (formatNoArgs (Exn.messageHandling 0 invalid reason none).str.toList).isSome ∧
      ∃ n, w.notices d = some (n, false) ∧ w.outlet.Takes (n + 2)

section
variable {w : World} {r start : Request} {d : Items} {es : List Event}

@[simp] theorem answers_answered (w : World) (q q' : Request) :
    (w.answered q b).answers q' = w.answers q' + if q.id = q'.id then 1 else 0 := by
  simp [World.answered, Sent.isResponseTo]

@[simp] theorem answers_forwarded (w : World) (q : Request) :
    (w.forwarded es).answers q = w.answers q := by
  have hzero : (es.map fun e => Sent.forwarded e.event e.body).countP
      (·.isResponseTo q.id) = 0 := by
    simp [List.countP_eq_zero, Sent.isResponseTo]
  rw [World.answers, World.forwarded_toClient, List.countP_append, hzero]
  rfl

@[simp] theorem answers_settled (w : World) (start q : Request) :
    (w.settled start es).answers q = w.answers q + if start.id = q.id then 1 else 0 := by
  simp [World.settled]

theorem answered_responses_ne {q q' : Request} (h : q.id ≠ q'.id) :
    (w.answered q b).responses q'.id = w.responses q'.id := by
  simp [World.answered, Function.update_of_ne h.symm]

theorem answered_responses_self : (w.answered q b).responses q.id = some b := by
  simp [World.answered]

theorem handleRequest_configurationDone (h : r.command = "configurationDone") :
    handleRequest r = r.run (configurationDoneRequest r) := by
  simp [handleRequest, clientHandler, isNoHandler, h]

theorem settles_of_raises (hcmd : r.command = "configurationDone")
    (h : Raises (r.run (configurationDoneRequest r)) w) (hc : ¬ c) : Settles w r start ↔ c :=
  iff_of_false (fun hs => hs.quiet (handleRequest_configurationDone hcmd ▸ h)) hc

theorem settles_gone (h : Pending w r start d es)
    (hanswer : (answerConfigurationDone r).run w = (.error (.raised e), w')) (he : isGone e = true)
    (hclient : w'.client = w.client.begin) (hresponses : w'.responses = w.responses)
    (houtlet : w'.outlet = w.outlet) (htoClient : w'.toClient = w.toClient) :
    Settles w r start ↔ w.outlet.Takes (es.length + 2) := by
  have hmh : e.isMessageHandling = false := by
    cases e <;> first | rfl | cases he
  have hs : w'.client.startRequest = some start := by rw [hclient]; exact h.startRequest
  have hd : w'.client.deferredEvents = some es := by rw [hclient]; exact h.deferred
  have hu : w'.responses start.id = none := by rw [hresponses]; exact h.unanswered
  have hrun : (configurationDoneRequest r).run w =
      (settleStart >>= fun _ => raise e : Code Result).run w' := by
    rw [configurationDone_run h, Proc.run_bind, settleConfiguration_raised hanswer hmh,
      Proc.run_bind, Proc.run_bind]
    cases settleStart.run w' with
    | mk a w'' => cases a <;> rfl
  rw [show es.length + 2 = es.length + 1 + 1 from rfl]
  by_cases ht : w.outlet.Takes (es.length + 1)
  · have hsettle : settleStart.run w' = (.ok (), w'.settled start es) :=
      settleStart_ok hs hu hd (houtlet ▸ ht)
    have hraised : (configurationDoneRequest r).run w =
        (.error (.raised e), w'.settled start es) := by
      rw [hrun, Proc.run_bind, hsettle]
      rfl
    have hr : (w'.settled start es).responses r.id = none := by
      have : (w'.answered start (.ok (.dict []))).responses r.id = w'.responses r.id :=
        answered_responses_ne h.distinct.symm
      exact this.trans (by rw [hresponses]; exact h.fresh)
    have hout : (w'.settled start es).outlet = w.outlet.after (es.length + 1) := by
      simp [World.settled, World.answered, houtlet, Outlet.after_after, Nat.add_comm]
    cases hsp : (w'.settled start es).outlet.spent with
    | true =>
      have hnot : ¬ w.outlet.Takes (es.length + 1 + 1) := by
        rw [← Outlet.takes_after ht, ← hout]
        exact Outlet.spent_iff.mp hsp
      exact settles_of_raises h.command (run_gone_mute hraised he (.inl hsp)) hnot
    | false =>
      have htakes : w.outlet.Takes (es.length + 1 + 1) := by
        rw [← Outlet.takes_after ht, ← hout]
        exact Outlet.spent_eq_false.mp hsp
      refine iff_of_true ?_ htakes
      obtain ⟨e', hok⟩ := run_gone hraised he hr hsp
      rw [← handleRequest_configurationDone h.command] at hok
      have hsame : ∀ q, w'.answers q = w.answers q := fun q => by rw [World.answers, htoClient]; rfl
      refine .of_ok hok ?_ ?_
      · simp [Sent.isResponseTo, hsame, h.distinct.symm]
      · simp [Sent.isResponseTo, hsame, h.distinct]
  · have hfails : Fails (configurationDoneRequest r) w :=
      .of_run hrun (settleStart_fails hs hu hd (houtlet ▸ ht)).bind
    exact settles_of_raises h.command hfails.run fun hn => ht (hn.mono (Nat.le_succ _))

theorem answer_run (hs : w.server.isSome) (hr : w.env.reply = .success body) :
    (answerConfigurationDone r).run w = (r.respond (.ok body) >>= fun _ => pure false).run
      ((w.withClient Client.begin).asked r.command r.arguments) := by
  have hrun := delegate_success (w := w.withClient Client.begin) (r := r) hs hr
  simp [answerConfigurationDone, Proc.run_bind, Proc.run_tryExcept, Proc.run_map, run_modifyClient,
    hrun]

/-- The handler goes on to the reports if the `try` statement has not returned. -/
theorem configurationDone_reports (h : Pending w r start d es)
    (hs : (settleConfiguration r).run w = (.ok false, v)) :
    (configurationDoneRequest r).run w =
      (notifyAll v.connections >>= fun _ => pure .none : Code Result).run v := by
  rw [configurationDone_run h, Proc.run_bind, hs]
  rfl

theorem not_takes_of_spent {o : Outlet} (h : o.spent = true) (n : Nat) : ¬ o.Takes (n + 1) :=
  fun hn => Outlet.spent_iff.mp h (hn.mono (Nat.le_add_left ..))

/-- A response cannot be written, and no more can the one to the start request. -/
theorem raises_of_broken (h : Pending w r start d es)
    (hans : (answerConfigurationDone r).run w =
      (.error (.raised (v.outlet.loss.exn v.clientName)), v))
    (hv : v.client = w.client.begin) (hu : v.responses start.id = none)
    (hsp : v.outlet.spent = true) : Raises (r.run (configurationDoneRequest r)) w := by
  have hmh : (v.outlet.loss.exn v.clientName).isMessageHandling = false := by
    cases v.outlet.loss <;> rfl
  have hdeferred : v.client.deferredEvents = some es := by rw [hv]; exact h.deferred
  have hstart : Fails settleStart v :=
    settleStart_fails (by rw [hv]; exact h.startRequest) hu hdeferred (not_takes_of_spent hsp _)
  exact Fails.run (.of_run (configurationDone_run h)
    (.bind (.of_run (settleConfiguration_raised hans hmh) hstart.bind)))

theorem settles_reports (h : Pending w r start d es)
    (hrun : (configurationDoneRequest r).run w =
      (notifyAll v.connections >>= fun _ => pure .none : Code Result).run v)
    (hs : v.client.startRequest = w.client.startRequest) (hn : v.notices d = w.notices d)
    (hr : v.responses r.id = some (.ok b))
    (hanswers : v.answers r = w.answers r + 1 ∧ v.answers start = w.answers start + 1) :
    Settles w r start ↔ ∃ n, w.notices d = some (n, true) ∧ v.outlet.Takes n := by
  have hs : v.client.startRequest = some start := hs.trans h.startRequest
  rw [← hn]
  cases hnot : v.notices d with
  | none =>
    obtain ⟨e, w', hloop, he, -⟩ := impossible_of_notices hs h.arguments hnot
    have hraised : (configurationDoneRequest r).run w = (.error (.raised e), w') := by
      rw [hrun, Proc.run_bind, hloop]
    exact settles_of_raises h.command (run_raises hraised he) (by simp)
  | some p =>
    obtain ⟨n, all⟩ := p
    have hloops := loops_of_notices hs h.arguments hnot
    by_cases ht : v.outlet.Takes n
    · cases all with
      | true =>
        obtain ⟨w', hloop, hnoted⟩ := hloops.done ht rfl
        have hok : (configurationDoneRequest r).run w = (.ok .none, w') := by
          rw [hrun, Proc.run_bind, hloop]
          rfl
        have hdone : (handleRequest r).run w = (.ok (), w') := by
          rw [handleRequest_configurationDone h.command, run_ok hok, conclude_none]
          rw [hnoted.responses, hr]
          rfl
        refine iff_of_true (.of_ok hdone ?_ ?_) ⟨n, rfl, ht⟩
        · rw [hnoted.answers, hanswers.1]
        · rw [hnoted.answers, hanswers.2]
      | false =>
        obtain ⟨e, w', hloop, hforeign, hnoted⟩ := hloops.refused ht rfl
        have hraised : (configurationDoneRequest r).run w = (.error (.raised e), w') := by
          rw [hrun, Proc.run_bind, hloop]
        have hr' : w'.responses r.id = some (.ok b) := by rw [hnoted.responses, hr]
        refine settles_of_raises h.command ?_ (by simp)
        rcases hforeign with he | ⟨uid, invalid, reason, m, rfl⟩
        · exact run_gone_mute hraised he (.inr (by simp [hr']))
        · exact ⟨_, _, (run_made hraised).trans (conclude_error_ok hr')⟩
    · refine settles_of_raises h.command (Fails.run (.of_run hrun (hloops.fails ht).bind)) ?_
      rintro ⟨m, hm, htm⟩
      cases hm
      exact ht htm

theorem settles_success (h : Pending w r start d es) (hsv : w.server.isSome)
    (hr : w.env.reply = .success body) : Settles w r start ↔
      ∃ n, w.notices d = some (n, true) ∧ w.outlet.Takes (es.length + 2 + n) := by
  let w₁ := (w.withClient Client.begin).asked r.command r.arguments
  have hr₁ : w₁.responses r.id = none := h.fresh
  have hu₁ : w₁.responses start.id = none := h.unanswered
  cases hsp : w₁.outlet.spent with
  | true =>
    have hans : (answerConfigurationDone r).run w =
        (.error (.raised (w₁.outlet.loss.exn w₁.clientName)), w₁) := by
      rw [answer_run hsv hr, Proc.run_bind, respond_spent hr₁ hsp]
    refine settles_of_raises h.command (raises_of_broken h hans rfl hu₁ hsp) ?_
    rintro ⟨n, -, hn⟩
    exact not_takes_of_spent hsp 0 (hn.mono (by omega))
  | false =>
    let w₂ := w₁.answered r (.ok body)
    have hu₂ : w₂.responses start.id = none := (answered_responses_ne h.distinct).trans hu₁
    have hans : (answerConfigurationDone r).run w = (.ok false, w₂) := by
      rw [answer_run hsv hr, Proc.run_bind, respond_ok hr₁ hsp]
      rfl
    have htakes : w.outlet.Takes (es.length + 2) ↔ w₂.outlet.Takes (es.length + 1) :=
      Outlet.takes_succ.trans (and_iff_right hsp)
    by_cases ht : w.outlet.Takes (es.length + 2)
    · let w₃ := w₂.settled start es
      have hstart : settleStart.run w₂ = (.ok (), w₃) :=
        settleStart_ok (w := w₂) h.startRequest hu₂ h.deferred (htakes.mp ht)
      have hrun : (configurationDoneRequest r).run w =
          (notifyAll w₃.connections >>= fun _ => pure .none : Code Result).run w₃ := by
        refine configurationDone_reports h ?_
        rw [settleConfiguration_ok hans, Proc.run_bind, hstart]
        rfl
      have hr₃ : w₃.responses r.id = some (.ok body) :=
        (answered_responses_ne h.distinct.symm).trans answered_responses_self
      have hout : w₃.outlet = w.outlet.after (es.length + 2) := by
        simp [w₃, w₂, w₁, World.settled, World.answered, Outlet.after_after, Nat.add_comm]
      have hanswers : w₃.answers r = w.answers r + 1 ∧ w₃.answers start = w.answers start + 1 := by
        simp [w₃, w₂, w₁, h.distinct, h.distinct.symm]
      have hsettles := settles_reports h hrun rfl rfl hr₃ hanswers
      rw [hout] at hsettles
      simpa only [Outlet.takes_after ht] using hsettles
    · have hfails : Fails (configurationDoneRequest r) w :=
        .of_run (configurationDone_run h) (.bind (.of_run (settleConfiguration_ok hans)
          (settleStart_fails (w := w₂) h.startRequest hu₂ h.deferred (mt htakes.mpr ht)).bind))
      refine settles_of_raises h.command hfails.run ?_
      rintro ⟨n, -, hn⟩
      exact ht (hn.mono (Nat.le_add_right ..))

theorem answer_lost (hs : w.server.isSome) (hr : w.env.reply = .lost) :
    (answerConfigurationDone r).run w = (do
      r.respond (.ok (.dict []))
      withStartRequest fun start => start.respond (.ok (.dict []))
      finalize none (.responded r)
      return true : Code Bool).run ((w.withClient Client.begin).asked r.command r.arguments) := by
  have hrun := delegate_lost (w := w.withClient Client.begin) (r := r) hs hr
  rw [answerConfigurationDone, Proc.run_bind, run_modifyClient]
  dsimp only
  rw [Proc.run_bind, Proc.run_tryExcept, Proc.run_map, hrun]
  dsimp only
  rw [← Proc.run_bind]
  simp only [bind_assoc, pure_bind]

theorem withStartRequest_run {f : Request → Code α} (h : w.client.startRequest = some start) :
    (withStartRequest f).run w = (f start).run w := by
  simp [withStartRequest, Proc.run_bind, h]

theorem resume_responded (h : (w.responses r.id).isSome) :
    ¬ Raises (resume (.finalize (.responded r))) w ∧
      ∀ q, ((resume (.finalize (.responded r))).run w).2.answers q = w.answers q := by
  have hkeeps := aside_run (aside_exitOnError aside_endFinalize) w
  cases hend : (exitOnError endFinalize).run w with
  | mk a w' =>
    rw [hend] at hkeeps
    have ha : ∀ e, a ≠ .error (.raised e) := by
      rintro e rfl
      cases exitOnError_stops prompt_endFinalize hend
    have hrun : (resume (.finalize (.responded r))).run w = (a, w') :=
      run_returns hend ha (by rwa [hkeeps.responses])
    refine ⟨?_, fun q => by rw [hrun]; exact hkeeps.answers q⟩
    rintro ⟨e, w'', hraised⟩
    rw [hrun, Prod.mk.injEq] at hraised
    exact ha e hraised.1

/-- The server disconnects before it answers. -/
theorem settles_lost (h : Pending w r start d es) (hsv : w.server.isSome)
    (hr : w.env.reply = .lost) : Settles w r start ↔ w.outlet.Takes 2 := by
  let w₁ := (w.withClient Client.begin).asked r.command r.arguments
  have hr₁ : w₁.responses r.id = none := h.fresh
  have hu₁ : w₁.responses start.id = none := h.unanswered
  by_cases ht : w.outlet.Takes 2
  · let w₂ := w₁.answered r (.ok (.dict []))
    let w₃ := w₂.answered start (.ok (.dict []))
    have hu₂ : w₂.responses start.id = none := (answered_responses_ne h.distinct).trans hu₁
    have hrespond : (r.respond (.ok (.dict []))).run w₁ = (.ok (), w₂) :=
      respond_ok hr₁ (Outlet.takes_succ.mp ht).1
    have hstart : (withStartRequest fun start => start.respond (.ok (.dict []))).run w₂ =
        (.ok (), w₃) :=
      (withStartRequest_run (w := w₂) h.startRequest).trans
        (respond_ok hu₂ (Outlet.spent_eq_false.mpr (Outlet.takes_succ.mp ht).2))
    have hr₃ : (w₃.responses r.id).isSome := by
      rw [answered_responses_ne h.distinct.symm, answered_responses_self]
      rfl
    have hu₃ : (w₃.responses start.id).isSome := by
      rw [answered_responses_self]
      rfl
    have hanswers : w₃.answers r = w.answers r + 1 ∧ w₃.answers start = w.answers start + 1 := by
      simp [w₃, w₂, w₁, h.distinct, h.distinct.symm]
    have hkeeps : Aside w₃ ((finalize none (.responded r)).run w₃).2 := aside_run aside_finalize w₃
    cases hfin : (finalize none (.responded r)).run w₃ with
    | mk a w₄ =>
      rw [hfin] at hkeeps
      have ha : ∀ e, a ≠ .error (.raised e) := by
        rintro e rfl
        rcases finalize_stops hfin with hx | ⟨hx, -⟩ <;> cases hx
      have hrun : (configurationDoneRequest r).run w =
          (finalize none (.responded r) >>= fun _ => pure .none : Code Result).run w₃ := by
        have hans : (answerConfigurationDone r).run w =
            (finalize none (.responded r) >>= fun _ => pure true : Code Bool).run w₃ := by
          rw [answer_lost hsv hr, Proc.run_bind, hrespond]
          dsimp only
          rw [Proc.run_bind, hstart]
        rw [configurationDone_run h, Proc.run_bind, Proc.run_bind, hfin]
        cases a with
        | ok a =>
          have hok : (answerConfigurationDone r).run w = (.ok true, w₄) := by
            rw [hans, Proc.run_bind, hfin]
            rfl
          have hu₄ : (w₄.responses start.id).isSome := by rwa [hkeeps.responses]
          have hs₄ : w₄.client.startRequest = some start := by
            rw [hkeeps.client]
            exact h.startRequest
          rw [settleConfiguration_ok hok, Proc.run_bind, settleStart_done hs₄ hu₄]
          rfl
        | error e =>
          have hstop : (answerConfigurationDone r).run w = (.error e, w₄) := by
            rw [hans, Proc.run_bind, hfin]
          rw [settleConfiguration_stopped hstop fun x hx => ha x (hx ▸ rfl)]
      have hdone : (handleRequest r).run w = (a, w₄) := by
        rw [handleRequest_configurationDone h.command, run_congr hrun]
        exact run_returns hfin ha (by rwa [hkeeps.responses])
      refine iff_of_true ⟨?_, ?_, ?_, fun hb => ?_⟩ ht
      · rintro ⟨e, w', hraised⟩
        rw [hdone, Prod.mk.injEq] at hraised
        exact ha e hraised.1
      · rw [hdone, hkeeps.answers, hanswers.1]
      · rw [hdone, hkeeps.answers, hanswers.2]
      · rw [hdone] at hb ⊢
        obtain rfl : a = .error .blocked := hb
        rcases finalize_stops hfin with hx | ⟨-, hs⟩
        · cases hx
        · exact ⟨hs, by rwa [hkeeps.responses], fun w' => resume_responded⟩
  · refine settles_of_raises h.command ?_ ht
    cases hsp : w₁.outlet.spent with
    | true =>
      refine raises_of_broken (v := w₁) h ?_ rfl hu₁ hsp
      rw [answer_lost hsv hr, Proc.run_bind, respond_spent hr₁ hsp]
    | false =>
      let w₂ := w₁.answered r (.ok (.dict []))
      have hu₂ : w₂.responses start.id = none := (answered_responses_ne h.distinct).trans hu₁
      have hsp₂ : w₂.outlet.spent = true :=
        Outlet.spent_iff.mpr fun hn => ht (Outlet.takes_succ.mpr ⟨hsp, hn⟩)
      have hrespond : (r.respond (.ok (.dict []))).run w₁ = (.ok (), w₂) := respond_ok hr₁ hsp
      refine raises_of_broken (v := w₂) h ?_ rfl hu₂ hsp₂
      rw [answer_lost hsv hr, Proc.run_bind, hrespond]
      dsimp only
      rw [Proc.run_bind, withStartRequest_run (w := w₂) h.startRequest, respond_spent hu₂ hsp₂]

theorem answer_failure (hs : w.server.isSome) (hr : w.env.reply = .failure invalid reason) :
    (answerConfigurationDone r).run w =
      (.error (.raised (.messageHandling (w.nextUid + 2) invalid reason (some (.received r.id)))),
        ((w.withClient Client.begin).asked r.command r.arguments).tick.tick.tick) := by
  have hrun := delegate_failure (w := w.withClient Client.begin) (r := r) hs hr
  simp [answerConfigurationDone, Proc.run_bind, Proc.run_tryExcept, Proc.run_map, run_modifyClient,
    hrun]

theorem failStart_run (hs : w.client.startRequest = some start) (e : Exn) :
    (failStart e).run w = (match formatNoArgs e.str.toList with
      | some reason => do let _ ← start.cantHandle (String.ofList reason)
      | none => raise .formatError : Code Unit).run w :=
  withStartRequest_run hs

theorem settles_refused (h : Pending w r start d es)
    (hrun : (configurationDoneRequest r).run w =
      (notifyAll v.connections >>= fun _ => pure .none : Code Result).run v)
    (hs : v.client.startRequest = w.client.startRequest) (hn : v.notices d = w.notices d)
    (hr : v.responses r.id = none)
    (hanswers : v.answers r = w.answers r ∧ v.answers start = w.answers start + 1) :
    Settles w r start ↔ ∃ n, w.notices d = some (n, false) ∧ v.outlet.Takes (n + 1) := by
  have hs : v.client.startRequest = some start := hs.trans h.startRequest
  rw [← hn]
  cases hnot : v.notices d with
  | none =>
    obtain ⟨e, w', hloop, he, -⟩ := impossible_of_notices hs h.arguments hnot
    have hraised : (configurationDoneRequest r).run w = (.error (.raised e), w') := by
      rw [hrun, Proc.run_bind, hloop]
    exact settles_of_raises h.command (run_raises hraised he) (by simp)
  | some p =>
    obtain ⟨n, all⟩ := p
    have hloops := loops_of_notices hs h.arguments hnot
    by_cases ht : v.outlet.Takes n
    · cases all with
      | true =>
        obtain ⟨w', hloop, hnoted⟩ := hloops.done ht rfl
        have hok : (configurationDoneRequest r).run w = (.ok .none, w') := by
          rw [hrun, Proc.run_bind, hloop]
          rfl
        have hr' : w'.responses r.id = none := by rw [hnoted.responses, hr]
        exact settles_of_raises h.command
          ⟨_, _, (run_ok hok).trans (conclude_none_unanswered hr')⟩ (by simp)
      | false =>
        obtain ⟨e, w', hloop, hforeign, hnoted⟩ := hloops.refused ht rfl
        have hraised : (configurationDoneRequest r).run w = (.error (.raised e), w') := by
          rw [hrun, Proc.run_bind, hloop]
        have hr' : w'.responses r.id = none := by rw [hnoted.responses, hr]
        have hiff : (∃ m, some (n, false) = some (m, false) ∧ v.outlet.Takes (m + 1)) ↔
            w'.outlet.Takes 1 := by
          rw [hnoted.takes]
          constructor
          · rintro ⟨m, hm, htm⟩
            cases hm
            exact htm
          · exact fun htn => ⟨n, rfl, htn⟩
        rw [hiff]
        cases hsp : w'.outlet.spent with
        | true =>
          have hnot : ¬ w'.outlet.Takes 1 := Outlet.spent_iff.mp hsp
          rcases hforeign with he | ⟨uid, invalid, reason, m, rfl⟩
          · exact settles_of_raises h.command (run_gone_mute hraised he (.inl hsp)) hnot
          · have hconclude := (run_made (r := r) hraised).trans (conclude_error_unanswered hr')
            rcases tryRespond_spent (w := w'.tick)
              (b := .error (w'.nextError r invalid reason)) hr' hsp with hok | ⟨e, herr⟩
            · refine iff_of_false (fun hsettles => ?_) hnot
              have honce := hsettles.once
              rw [handleRequest_configurationDone h.command, hconclude, hok, answers_tick,
                hnoted.answers, hanswers.1] at honce
              omega
            · exact settles_of_raises h.command ⟨e, _, hconclude.trans herr⟩ hnot
        | false =>
          refine iff_of_true ?_ (Outlet.spent_eq_false.mp hsp)
          have hdone : ∃ (e : Exn) (w'' : World), (∀ q, w''.answers q = w'.answers q) ∧ (handleRequest r).run w =
              (.ok (), w''.answered r (.error e)) := by
            rw [handleRequest_configurationDone h.command]
            rcases hforeign with he | ⟨uid, invalid, reason, m, rfl⟩
            · obtain ⟨e', hok⟩ := run_gone hraised he hr' hsp
              exact ⟨e', w'.tick, fun _ => rfl, hok⟩
            · exact ⟨_, w'.tick, fun _ => rfl, (run_made hraised).trans
                ((conclude_error_unanswered (w := w'.tick) hr').trans (tryRespond_ok (w := w'.tick) hr' hsp))⟩
          obtain ⟨e, w'', hsame, hok⟩ := hdone
          refine .of_ok hok ?_ ?_
          · simp [hsame, hnoted.answers, hanswers.1]
          · simp [hsame, hnoted.answers, hanswers.2, h.distinct]
    · refine settles_of_raises h.command (Fails.run (.of_run hrun (hloops.fails ht).bind)) ?_
      rintro ⟨m, hm, htm⟩
      cases hm
      exact ht (htm.mono (Nat.le_succ _))

theorem settles_failure (h : Pending w r start d es) (hsv : w.server.isSome)
    (hr : w.env.reply = .failure invalid reason) : Settles w r start ↔
      (formatNoArgs (Exn.messageHandling 0 invalid reason none).str.toList).isSome ∧
        ∃ n, w.notices d = some (n, false) ∧ w.outlet.Takes (n + 2) := by
  let w₁ := ((w.withClient Client.begin).asked r.command r.arguments).tick.tick.tick
  let e := Exn.messageHandling (w.nextUid + 2) invalid reason (some (.received r.id))
  have hr₁ : w₁.responses r.id = none := h.fresh
  have hu₁ : w₁.responses start.id = none := h.unanswered
  have hrun := settleConfiguration_failed (answer_failure (r := r) hsv hr)
  have htext : e.str = (Exn.messageHandling 0 invalid reason none).str := by
    cases invalid <;> rfl
  have hfail := failStart_run (w := w₁) h.startRequest e
  rw [htext] at hfail
  -- what is raised in place of the error, the `finally` clause either fails or lets it escape
  have hescape : ∀ x v, (failStart e).run w₁ = (.error (.raised x), v) → v.client = w₁.client →
      v.responses start.id = none → (passes x = true ∨ v.outlet.spent = true) →
      Raises (r.run (configurationDoneRequest r)) w := by
    intro x v hx hv hu hor
    have hsettle : (settleConfiguration r).run w =
        (settleStart >>= fun _ => raise x : Code Bool).run v := by
      rw [hrun, Proc.run_tryFinally, Proc.run_bind, hx]
    have hstartRequest : v.client.startRequest = some start := by rw [hv]; exact h.startRequest
    have hdeferred : v.client.deferredEvents = some es := by rw [hv]; exact h.deferred
    by_cases ht : v.outlet.Takes (es.length + 1)
    · have hpasses : passes x = true := hor.resolve_right fun hsp => not_takes_of_spent hsp _ ht
      have hstart := settleStart_ok hstartRequest hu hdeferred ht
      have hraised : (configurationDoneRequest r).run w =
          (.error (.raised x), v.settled start es) := by
        rw [configurationDone_run h, Proc.run_bind, hsettle, Proc.run_bind, hstart]
        rfl
      exact run_raises hraised hpasses
    · have hstart := settleStart_fails hstartRequest hu hdeferred ht
      exact Fails.run (.of_run (configurationDone_run h) (.bind (.of_run hsettle hstart.bind)))
  cases hf : formatNoArgs (Exn.messageHandling 0 invalid reason none).str.toList with
  | none =>
    rw [hf] at hfail
    exact settles_of_raises h.command (hescape _ _ hfail rfl hu₁ (.inl rfl)) (by simp)
  | some text =>
    rw [hf] at hfail
    dsimp only at hfail
    cases hsp : w₁.outlet.spent with
    | true =>
      rw [Proc.run_bind, Request.cantHandle, error_spent hu₁ hsp] at hfail
      refine settles_of_raises h.command (hescape _ _ hfail rfl hu₁ (.inr hsp)) ?_
      rintro ⟨-, n, -, hn⟩
      exact not_takes_of_spent hsp 0 (hn.mono (by omega))
    | false =>
      let failed := w₁.nextError start false (String.ofList text)
      let w₂ := w₁.tick.answered start (.error failed)
      rw [Proc.run_bind, Request.cantHandle, error_ok hu₁ hsp] at hfail
      have hstart : settleStart.run w₂ = (.ok (), w₂) :=
        settleStart_done (w := w₂) h.startRequest (by rw [answered_responses_self]; rfl)
      have hcaught : (failStart e >>= fun _ => pure false : Code Bool).run w₁ = (.ok false, w₂) := by
        rw [Proc.run_bind, hfail]
        rfl
      have hsettle : (settleConfiguration r).run w = (.ok false, w₂) := by
        rw [hrun, Proc.run_tryFinally, hcaught]
        dsimp only
        rw [Proc.run_bind, hstart]
        rfl
      have hr₂ : w₂.responses r.id = none := (answered_responses_ne h.distinct.symm).trans hr₁
      have hanswers : w₂.answers r = w.answers r ∧ w₂.answers start = w.answers start + 1 := by
        simp [w₂, w₁, h.distinct.symm]
      have hsettles := settles_refused h (configurationDone_reports h hsettle) rfl rfl hr₂ hanswers
      rw [hsettles, Option.isSome_some]
      have htakes : ∀ n, w₂.outlet.Takes (n + 1) ↔ w.outlet.Takes (n + 2) := fun n =>
        (Outlet.takes_succ.trans (and_iff_right hsp)).symm
      simp only [htakes, true_and]

/-- `"configurationDone"` settles both requests exactly if `Answerable`. -/
theorem settles_iff_answerable (h : Pending w r start d es) :
    Settles w r start ↔ Answerable w d es := by
  unfold Answerable
  cases hsv : w.server with
  | none =>
    have hans : (answerConfigurationDone r).run w =
        (.error (.raised (.componentNotAvailable "Server")), w.withClient Client.begin) := by
      have hrun := delegate_missing (w := w.withClient Client.begin) (r := r) hsv
      simp [answerConfigurationDone, Proc.run_bind, Proc.run_tryExcept, Proc.run_map,
        run_modifyClient, hrun]
    exact settles_gone h hans rfl rfl rfl rfl rfl
  | some s =>
    have hs : w.server.isSome := by simp [hsv]
    cases hr : w.env.reply with
    | success body => exact settles_success h hs hr
    | failure invalid reason => exact settles_failure h hs hr
    | lost => exact settles_lost h hs hr
    | broken =>
      have hans : (answerConfigurationDone r).run w =
          (.error (.raised (.jsonIOError w.serverName "")),
            (w.withClient Client.begin).asked r.command r.arguments) := by
        have hrun := delegate_broken (w := w.withClient Client.begin) (r := r) hs hr
        simp [answerConfigurationDone, Proc.run_bind, Proc.run_tryExcept, Proc.run_map,
          run_modifyClient, hrun]
        rfl
      exact settles_gone h hans rfl rfl rfl rfl rfl

end

def attachPending : Request := { id := 1, command := "attach", arguments := .dict [] }

def configured : Request := { id := 2, command := "configurationDone", arguments := .null }

def attaching (reply : Reply) : World where
  client := { startRequest := some attachPending, capabilities := some [], expectations := some [] }
  server := some { connection := 0 }
  pid := some 7
  received := 3
  env := { reply }

theorem settles_iff_answerable_attaching : Settles (attaching (.success .null)) configured
    attachPending ↔ Answerable (attaching (.success .null)) [] [] :=
  settles_iff_answerable ⟨rfl, rfl, rfl, rfl, rfl, rfl, by decide, rfl⟩

theorem not_settles_failure :
    Pending (attaching (.failure false "")) configured attachPending [] [] ∧
      ¬ Settles (attaching (.failure false "")) configured attachPending := by
  refine ⟨⟨rfl, rfl, rfl, rfl, rfl, rfl, by decide, rfl⟩, fun h => ?_⟩
  exact h.quiet ⟨.assertionError, _, rfl⟩

end Debugpy.Adapter
