import Debugpy.Adapter.Subprocesses

/-!
# The start request and the configurations of subprocesses

A configuration begins as a copy of the arguments of the start request. The
copy is shallow, so that the host and the port go into the start request if
they are put into an object that the user has given as `"connect"`. Whether a
call does that, and whether what it sends is a configuration at all, can be
told from the state before it.
-/

namespace Debugpy.Adapter

open Proc (raise)

def parentKeys : List String :=
  ["processId", "listen", "preLaunchTask", "postDebugTask", "restart", "args", "processName",
    "pythonArgs", "host", "port"]

structure IsConfiguration (pid : Int) (body : Items) : Prop where
  subProcessId : Json.get? body "subProcessId" = some (.int pid)
  connect : ∃ connect, Json.get? body "connect" = some (.dict connect) ∧
    (Json.get? connect "host").isSome ∧ (Json.get? connect "port").isSome
  parent : ∀ key ∈ parentKeys, Json.get? body key = none

def Sent.configuration? : Sent → Option Items
  | .event _ (.dict body) => some body
  | .request _ (.dict arguments) => match Json.get? arguments "configuration" with
    | some (.dict body) => some body
    | _ => none
  | _ => none

def configurationOf (localhost : String) (listener : Option Address) (pid : Int) (arguments : Items) :
    Except Exn Items :=
  let conns := fun _ => { pid, ppid := none }
  subprocessBody { env := { localhost }, clientListener := listener, conns } 0 arguments

theorem subprocessBody_eq (w : World) (c : Nat) (arguments : Items) :
    subprocessBody w c arguments =
      configurationOf w.env.localhost w.clientListener (w.conns c).pid arguments := rfl

/-- A call leaves the arguments of the start request as they are, and what it
sends is a configuration made of the original ones. -/
structure Undisturbed (original : Items) (w : World) (c : Nat) : Prop where
  arguments : let w' := ((notifyOfSubprocess c).run w).2
    w'.client.startRequest.map (·.arguments) = w.client.startRequest.map (·.arguments)
  sent : let w' := ((notifyOfSubprocess c).run w).2
    ∀ m ∈ w'.toClient.drop w.toClient.length, ∃ b body config, m = reportOf b body ∧
      configurationOf w.env.localhost w.clientListener (w.conns c).pid original = .ok body ∧
      m.configuration? = some config ∧ IsConfiguration (w.conns c).pid config

/-- The condition on a call that reports: `"connect"` is missing or complete,
or there is nothing to be sent. -/
def Harmless (w : World) (c : Nat) : Prop :=
  ∀ request, New w c request → match Json.get? request.items "connect" with
    | none => True
    | some (.dict connect) => (Json.get? connect "host").isSome ∧
        ((Json.get? connect "port").isSome ∨ ∃ e, connectPort w request.items = .error e)
    | some connect => ¬ (contains "host" connect = .ok true ∧ contains "port" connect = .ok true) ∨
        w.client.capabilities = none ∨ w.outlet.spent = true

-- ---------------------------------------------------------------------------
-- The body
-- ---------------------------------------------------------------------------

theorem get?_foldl_erase (keys : List String) (d : Items) :
    Json.get? (keys.foldl Json.erase d) key = if key ∈ keys then none else Json.get? d key := by
  induction keys generalizing d with
  | nil => rfl
  | cons k keys ih =>
    rw [List.foldl_cons, ih]
    by_cases hk : key = k
    · simp [hk, Json.get?_erase_self]
    · simp [hk, Json.get?_erase_ne]

theorem subprocessBody_eq_ok (h : subprocessBody w c d = .ok body) :
    ∃ v, connectBody w d = .ok v ∧
      body = Json.set (["host", "port"].foldl Json.erase (subprocessItems (w.conns c).pid d))
        "connect" v := by
  simp only [subprocessBody, connectBody_subprocessItems, bind, Except.bind] at h
  cases hv : connectBody w d with
  | error e => simp [hv] at h
  | ok v =>
    simp only [hv, pure, Except.pure, Except.ok.injEq] at h
    exact ⟨v, rfl, h.symm⟩

theorem connectBody_contains (h : connectBody w d = .ok v) (hkey : key ∈ ["host", "port"]) :
    contains key v = .ok true := by
  simp only [connectBody, bind, Except.bind] at h
  split at h
  · cases h
  · rename_i connect hhost
    simp only [List.mem_cons, List.not_mem_nil, or_false] at hkey
    rcases hkey with rfl | rfl
    · exact addItem_keeps (addItem_contains hhost) h
    · exact addItem_contains h

theorem isConfiguration_body (h : subprocessBody w c d = .ok body) (hv : connectBody w d = .ok v) :
    IsConfiguration (w.conns c).pid body ↔ ∃ connect, v = .dict connect := by
  obtain ⟨v', hv', rfl⟩ := subprocessBody_eq_ok h
  cases hv.symm.trans hv'
  constructor
  · rintro ⟨-, ⟨connect, hconnect, -⟩, -⟩
    rw [Json.get?_set_self] at hconnect
    exact ⟨connect, Option.some.inj hconnect⟩
  · rintro ⟨connect, rfl⟩
    have hport : contains "port" (.dict connect) = .ok true := connectBody_contains hv (by simp)
    have hhost : contains "host" (.dict connect) = .ok true := connectBody_contains hv (by simp)
    refine ⟨?_, ⟨connect, Json.get?_set_self _, ?_, ?_⟩, ?_⟩
    · rw [Json.get?_set_ne _ (by decide), get?_foldl_erase, if_neg (by decide), subprocessItems,
        get?_foldl_erase, if_neg (by decide), Json.get?_set_self]
    · simpa [contains] using hhost
    · simpa [contains] using hport
    · intro key hkey
      have hne : key ≠ "connect" ∧ key ≠ "name" ∧ key ≠ "subProcessId" := by
        refine ⟨?_, ?_, ?_⟩ <;> rintro rfl <;> exact absurd hkey (by decide)
      rw [Json.get?_set_ne _ hne.1, get?_foldl_erase]
      split
      · rfl
      · rename_i hhostport
        rw [subprocessItems, get?_foldl_erase]
        split
        · rfl
        · rename_i hargs
          rw [Json.get?_set_ne _ hne.2.2, Json.get?_set_ne _ hne.2.1, get?_foldl_erase, if_pos]
          have hrest : key ∈ ["processId", "listen", "preLaunchTask", "postDebugTask", "restart"] := by
            have hkey : key ∈ ["processId", "listen", "preLaunchTask", "postDebugTask", "restart"] ++
              (["args", "processName", "pythonArgs"] ++ ["host", "port"]) := hkey
            rcases List.mem_append.mp hkey with h | h
            · exact h
            · exact ((List.mem_append.mp h).elim hargs hhostport).elim
          exact (by decide : ["processId", "listen", "preLaunchTask", "postDebugTask", "restart"] ⊆
            ["processId", "listen", "preLaunchTask", "postDebugTask", "request", "restart"]) hrest

theorem isConfiguration_set_request (v : Json) :
    IsConfiguration pid (Json.set body "request" v) ↔ IsConfiguration pid body := by
  have hparent : ∀ key ∈ parentKeys, key ≠ "request" := by decide
  constructor
  · rintro ⟨hpid, ⟨connect, hconnect, hkeys⟩, hnone⟩
    rw [Json.get?_set_ne _ (by decide)] at hpid hconnect
    refine ⟨hpid, ⟨connect, hconnect, hkeys⟩, fun key hkey => ?_⟩
    rw [← Json.get?_set_ne _ (hparent key hkey)]
    exact hnone key hkey
  · rintro ⟨hpid, ⟨connect, hconnect, hkeys⟩, hnone⟩
    refine ⟨?_, ⟨connect, ?_, hkeys⟩, fun key hkey => ?_⟩
    · rwa [Json.get?_set_ne _ (by decide)]
    · rwa [Json.get?_set_ne _ (by decide)]
    · rw [Json.get?_set_ne _ (hparent key hkey)]
      exact hnone key hkey

theorem configuration?_reportOf (b : Bool) (body : Items) :
    ∃ config, (reportOf b body).configuration? = some config ∧
      ∀ pid, IsConfiguration pid config ↔ IsConfiguration pid body := by
  cases b with
  | true => exact ⟨body, rfl, fun _ => Iff.rfl⟩
  | false => exact ⟨_, rfl, fun _ => isConfiguration_set_request _⟩

-- ---------------------------------------------------------------------------
-- One call
-- ---------------------------------------------------------------------------

theorem assigned_dict : assigned (.dict d) key item =
    if (Json.get? d key).isSome then none else item.toOption.map fun x => .dict (Json.set d key x) := by
  have hcontains : contains key (.dict d) = .ok (Json.get? d key).isSome := rfl
  unfold assigned
  rw [hcontains]
  cases (Json.get? d key).isSome <;> cases item <;> rfl

theorem assigned_other (h : ∀ d, v ≠ .dict d) : assigned v key item = none := by
  cases v with
  | dict d => exact absurd rfl (h d)
  | _ =>
    unfold assigned setItem
    split <;> rfl

theorem filledConnect_eq_none : filledConnect w items = none ↔
    ∀ connect, Json.get? items "connect" = some (.dict connect) →
      (Json.get? connect "host").isSome ∧
        ((Json.get? connect "port").isSome ∨ ∃ e, connectPort w items = .error e) := by
  cases hc : Json.get? items "connect" with
  | none => simp [filledConnect, hc]
  | some v =>
    by_cases hv : ∃ d, v = .dict d
    · obtain ⟨d, rfl⟩ := hv
      simp only [filledConnect, hc, bind, Option.bind, Option.some.injEq, Json.dict.injEq,
        forall_eq']
      cases hhost : (Json.get? d "host").isSome with
      | false =>
        have hadd : addItem (.dict d) "host" (.ok (connectHost w items)) =
            .ok (.dict (Json.set d "host" (connectHost w items))) := by
          simp [addItem, contains, hhost, setItem, bind, Except.bind]
        simp [hadd, assigned_dict, hhost, Except.toOption]
      | true =>
        have hadd : addItem (.dict d) "host" (.ok (connectHost w items)) = .ok (.dict d) :=
          addItem_present (by simp [contains, hhost])
        simp only [hadd, assigned_dict, hhost, if_true, true_and]
        cases hport : (Json.get? d "port").isSome with
        | true => simp
        | false => cases hp : connectPort w items <;> simp [Except.toOption]
    · have hno : ∀ d, v ≠ .dict d := fun d h => hv ⟨d, h⟩
      have hnone : filledConnect w items = none := by
        simp only [filledConnect, hc, bind, Option.bind]
        split
        · rfl
        · rename_i filled hadd
          have hsame : filled = v := eq_of_assigned_eq_none (assigned_other hno) hadd
          rw [hsame, assigned_other hno, assigned_other hno]
          rfl
      simp [hnone, hno]

theorem filledConnect_ne (h : filledConnect w items = some filled) :
    ∃ connect, Json.get? items "connect" = some connect ∧ filled ≠ connect := by
  cases hc : Json.get? items "connect" with
  | none => simp [filledConnect, hc] at h
  | some connect =>
    refine ⟨connect, rfl, ?_⟩
    simp only [filledConnect, hc, bind, Option.bind] at h
    split at h
    · cases h
    · rename_i hosted hhost
      rintro rfl
      simp only [Option.orElse_eq_some] at h
      rcases h with h | ⟨-, h⟩
      · obtain ⟨hno, hadd⟩ := assigned_eq_some h
        have hyes := addItem_keeps (addItem_contains hadd) hhost
        cases hno.symm.trans hyes
      · obtain ⟨hno, hadd⟩ := assigned_eq_some h
        cases hno.symm.trans (addItem_contains hadd)

theorem filled_arguments (h : w.client.startRequest = some request) :
    (w.filled request.items).client.startRequest.map (·.arguments) =
        w.client.startRequest.map (·.arguments) ↔ filledConnect w request.items = none := by
  cases hf : filledConnect w request.items with
  | none =>
    have hsame : (w.filled request.items).client.startRequest = w.client.startRequest := by
      simp [World.filled, hf, Client.shareConnect]
    simp [hsame]
  | some filled =>
    simp only [reduceCtorEq, iff_false]
    intro hsame
    obtain ⟨connect, hc, hne⟩ := filledConnect_ne hf
    cases ha : request.arguments with
    | dict d =>
      have hitems : request.items = d := by simp [Request.items, ha]
      rw [hitems] at hc hf
      simp only [World.filled, hitems, hf, World.withClient_client, Client.shareConnect, h, ha, hc,
        Option.isSome_some, if_true, Option.map_some, Option.some.injEq, Json.dict.injEq] at hsame
      have hget := congrArg (Json.get? · "connect") hsame
      simp only [Json.get?_set_self, hc, Option.some.injEq] at hget
      exact hne hget
    | _ => simp [Request.items, ha, Json.get?] at hc

theorem run_notify_new (h : New w c request) : (notifyOfSubprocess c).run w =
    (reportSubprocess c request.items).run (w.withClient (·.know c)) := by
  rw [notifyOfSubprocess, Proc.run_bind, run_notice_new h]

theorem undisturbed_sends (hn : New w c request)
    (h : Sends (w.withClient (·.know c)) c request.items b body) :
    Undisturbed request.items w c ↔
      filledConnect w request.items = none ∧ IsConfiguration (w.conns c).pid body := by
  obtain ⟨a, n, hrun⟩ := run_report_sends h
  have hnotify := run_notify_new hn
  rw [hrun] at hnotify
  have harguments := filled_arguments (w := w.withClient (·.know c)) hn.start
  obtain ⟨config, hconfig, hiff⟩ := configuration?_reportOf b body
  have hsent : ∀ ms : List Sent, (w.toClient ++ ms).drop w.toClient.length = ms := by simp
  constructor
  · rintro ⟨hargs, hms⟩
    simp only [hnotify] at hargs hms
    refine ⟨harguments.mp hargs, ?_⟩
    obtain ⟨b', body', config', hm, -, hconfig', hgood⟩ := hms (reportOf b body) (by
      simp only [World.sent_toClient, World.filled, World.withClient_toClient, hsent]
      exact List.mem_cons_self)
    cases hconfig.symm.trans hconfig'
    exact (hiff _).mp hgood
  · rintro ⟨hf, hgood⟩
    refine ⟨?_, ?_⟩
    · simp only [hnotify]
      exact harguments.mpr hf
    · simp only [hnotify, World.sent_toClient, World.filled, World.withClient_toClient, hsent,
        List.mem_singleton, forall_eq]
      exact ⟨b, body, config, rfl, h.body, hconfig, (hiff _).mpr hgood⟩

theorem undisturbed_fails (hn : New w c request)
    (h : ∀ b body, ¬ Sends (w.withClient (·.know c)) c request.items b body) :
    Undisturbed request.items w c ↔ filledConnect w request.items = none := by
  obtain ⟨e, hrun⟩ := run_report_fails h
  have hnotify := run_notify_new hn
  rw [hrun] at hnotify
  have harguments := filled_arguments (w := w.withClient (·.know c)) hn.start
  constructor
  · rintro ⟨hargs, -⟩
    simp only [hnotify] at hargs
    exact harguments.mp hargs
  · intro hf
    refine ⟨?_, ?_⟩
    · simp only [hnotify]
      exact harguments.mpr hf
    · simp [hnotify, World.filled]

theorem undisturbed_old (h : ∀ request, ¬ New w c request) : Undisturbed original w c := by
  obtain ⟨a, hrun, hnone⟩ := run_notice_old h
  have hsame : ((notifyOfSubprocess c).run w).2 = w := by
    rw [notifyOfSubprocess, Proc.run_bind, hrun]
    rcases a with e | _ | items
    · rfl
    · rfl
    · exact absurd rfl (hnone items)
  refine ⟨?_, ?_⟩
  · simp only [hsame]
  · simp [hsame]

theorem sends_iff : (∃ b body, Sends w c items b body) ↔
    (∃ v, connectBody w items = .ok v) ∧ w.client.capabilities ≠ none ∧ w.outlet.spent = false := by
  constructor
  · rintro ⟨b, body, hbody, hcap, hs⟩
    obtain ⟨v, hv, -⟩ := subprocessBody_eq_ok hbody
    refine ⟨⟨v, hv⟩, ?_, hs⟩
    intro hnone
    simp [hnone] at hcap
  · rintro ⟨⟨v, hv⟩, hcaps, hs⟩
    obtain ⟨body, hbody⟩ := subprocessBody_ok c hv
    cases hc : w.client.capabilities with
    | none => exact absurd hc hcaps
    | some caps => exact ⟨_, body, hbody, by rw [hc]; rfl, hs⟩

theorem connectBody_other (hc : Json.get? items "connect" = some connect)
    (hno : ∀ d, connect ≠ .dict d) : connectBody w items = .ok v ↔
      v = connect ∧ contains "host" connect = .ok true ∧ contains "port" connect = .ok true := by
  constructor
  · intro hv
    have hsame : v = connect := by
      simp only [connectBody, hc, Option.getD_some, bind, Except.bind] at hv
      split at hv
      · cases hv
      · rename_i hosted hhost
        have hsame : hosted = connect := eq_of_assigned_eq_none (assigned_other hno) hhost
        exact (eq_of_assigned_eq_none (hsame ▸ assigned_other hno) hv).trans hsame
    exact ⟨hsame, hsame ▸ connectBody_contains hv (by simp), hsame ▸ connectBody_contains hv (by simp)⟩
  · rintro ⟨rfl, hhost, hport⟩
    simp [connectBody, hc, addItem_present hhost, addItem_present hport, bind, Except.bind]

theorem connectBody_dict (hc : ∀ connect, Json.get? items "connect" = some connect →
    ∃ d, connect = .dict d) (hv : connectBody w items = .ok v) : ∃ d, v = .dict d := by
  have hadd : ∀ {d key item v}, addItem (.dict d) key item = .ok v → ∃ d, v = .dict d := by
    intro d key item v hadd
    by_cases hk : (Json.get? d key).isSome
    · rw [addItem_present (by simp [contains, hk])] at hadd
      exact ⟨d, (Except.ok.inj hadd).symm⟩
    · cases item with
      | error e => simp [addItem, contains, hk, bind, Except.bind] at hadd
      | ok x =>
        simp only [addItem, contains, hk, setItem, bind, Except.bind, Bool.false_eq_true, if_false,
          Except.ok.injEq] at hadd
        exact ⟨_, hadd.symm⟩
  have hstart : ∃ d, (Json.get? items "connect").getD (.dict []) = .dict d := by
    cases h : Json.get? items "connect" with
    | none => exact ⟨[], rfl⟩
    | some connect => exact hc connect h
  obtain ⟨d, hd⟩ := hstart
  simp only [connectBody, hd, bind, Except.bind] at hv
  split at hv
  · cases hv
  · rename_i hosted hhost
    obtain ⟨d', rfl⟩ := hadd hhost
    exact hadd hv

/-- With an object or nothing as `"connect"`, a configuration is one. -/
theorem undisturbed_dict (hn : New w c request)
    (hc : ∀ connect, Json.get? request.items "connect" = some connect → ∃ d, connect = .dict d) :
    Undisturbed request.items w c ↔ filledConnect w request.items = none := by
  by_cases h : ∃ b body, Sends (w.withClient (·.know c)) c request.items b body
  · obtain ⟨b, body, h⟩ := h
    obtain ⟨v, hv, -⟩ := subprocessBody_eq_ok h.body
    rw [undisturbed_sends hn h, and_iff_left]
    exact (isConfiguration_body h.body hv).mpr (connectBody_dict hc hv)
  · exact undisturbed_fails hn fun b body hs => h ⟨b, body, hs⟩

theorem undisturbed_other (hn : New w c request)
    (hc : Json.get? request.items "connect" = some connect) (hno : ∀ d, connect ≠ .dict d) :
    Undisturbed request.items w c ↔
      ¬ (contains "host" connect = .ok true ∧ contains "port" connect = .ok true) ∨
        w.client.capabilities = none ∨ w.outlet.spent = true := by
  have hf : filledConnect w request.items = none :=
    filledConnect_eq_none.mpr fun d hd => absurd (Option.some.inj (hc.symm.trans hd)) (hno d)
  have hsends : (∃ b body, Sends (w.withClient (·.know c)) c request.items b body) ↔
      (∃ v, connectBody (w.withClient (·.know c)) request.items = .ok v) ∧
        w.client.capabilities ≠ none ∧ w.outlet.spent = false := sends_iff
  have hbody : (∃ v, connectBody (w.withClient (·.know c)) request.items = .ok v) ↔
      contains "host" connect = .ok true ∧ contains "port" connect = .ok true := by
    constructor
    · rintro ⟨v, hv⟩
      exact ((connectBody_other hc hno).mp hv).2
    · intro h
      exact ⟨connect, (connectBody_other hc hno).mpr ⟨rfl, h⟩⟩
  rw [hbody] at hsends
  by_cases h : ∃ b body, Sends (w.withClient (·.know c)) c request.items b body
  · obtain ⟨hboth, hcaps, hspent⟩ := hsends.mp h
    obtain ⟨b, body, h⟩ := h
    obtain ⟨v, hv, -⟩ := subprocessBody_eq_ok h.body
    have hbad : ¬ IsConfiguration (w.conns c).pid body := fun hgood => by
      obtain ⟨d, hd⟩ := (isConfiguration_body h.body hv).mp hgood
      exact hno d (((connectBody_other hc hno).mp hv).1.symm.trans hd)
    rw [undisturbed_sends hn h]
    constructor
    · rintro ⟨-, hgood⟩
      exact absurd hgood hbad
    · rintro (hno | hno | hno)
      · exact absurd hboth hno
      · exact absurd hno hcaps
      · exact absurd hno (by simpa using hspent)
  · rw [undisturbed_fails hn fun b body hs => h ⟨b, body, hs⟩]
    refine ⟨fun _ => ?_, fun _ => hf⟩
    by_contra hcon
    simp only [not_or, not_not, Bool.not_eq_true] at hcon
    exact h (hsends.mpr ⟨hcon.1, hcon.2.1, hcon.2.2⟩)

theorem undisturbed_iff_harmless
    (horiginal : ∀ request, w.client.startRequest = some request → request.items = original) :
    Undisturbed original w c ↔ Harmless w c := by
  by_cases hn : ∃ request, New w c request
  · obtain ⟨request, hn⟩ := hn
    cases horiginal request hn.start
    have hharmless : Harmless w c ↔ match Json.get? request.items "connect" with
        | none => True
        | some (.dict connect) => (Json.get? connect "host").isSome ∧
            ((Json.get? connect "port").isSome ∨ ∃ e, connectPort w request.items = .error e)
        | some connect =>
          ¬ (contains "host" connect = .ok true ∧ contains "port" connect = .ok true) ∨
            w.client.capabilities = none ∨ w.outlet.spent = true := by
      constructor
      · exact fun h => h request hn
      · intro h request' hn'
        cases Option.some.inj (hn'.start.symm.trans hn.start)
        exact h
    rw [hharmless]
    cases hc : Json.get? request.items "connect" with
    | none =>
      rw [undisturbed_dict hn (by simp [hc]), filledConnect_eq_none]
      simp [hc]
    | some connect =>
      cases connect with
      | dict d =>
        rw [undisturbed_dict hn (by simp [hc]), filledConnect_eq_none]
        simp [hc]
      | _ => exact undisturbed_other hn hc (by simp)
  · have hold : ∀ request, ¬ New w c request := fun request h => hn ⟨request, h⟩
    exact ⟨fun _ request h => absurd h (hold request), fun _ => undisturbed_old hold⟩

-- ---------------------------------------------------------------------------
-- Any number of calls
-- ---------------------------------------------------------------------------

/-- Between two calls anything may change but the start request and what is
known. -/
def World.between (w v : World) : World :=
  v.withClient fun client => { client with
    startRequest := w.client.startRequest
    knownSubprocesses := w.client.knownSubprocesses }

def call (w : World) (next : World × Nat) : Option World :=
  some ((notifyOfSubprocess next.2).run (w.between next.1)).2

def World.originalItems (w : World) : Items := (w.client.startRequest.map Request.items).getD []

/-- The start request's arguments stay as they are over all calls, and every
configuration is made of them, if and only if each call is harmless. -/
theorem undisturbed_iff (w : World) (calls : List (World × Nat)) :
    Run.Meets call (fun w' next => Undisturbed w.originalItems (w'.between next.1) next.2) w calls ↔
      Run.Meets call (fun w' next => Harmless (w'.between next.1) next.2) w calls := by
  let I (w' : World) : Prop :=
    w'.client.startRequest.map (·.arguments) = w.client.startRequest.map (·.arguments)
  have horiginal : ∀ {w' : World}, I w' → ∀ v request,
      (w'.between v).client.startRequest = some request → request.items = w.originalItems := by
    intro w' hi v request hs
    have hs : w'.client.startRequest = some request := hs
    simp only [I, hs, Option.map_some] at hi
    obtain ⟨start, hstart, ha⟩ := Option.map_eq_some_iff.mp hi.symm
    simp [World.originalItems, hstart, Request.items, ha]
  have hkeep : ∀ {w' : World} {next : World × Nat} {w'' : World}, I w' →
      Undisturbed w.originalItems (w'.between next.1) next.2 → call w' next = some w'' → I w'' := by
    intro w' next w'' hi hu hcall
    cases hcall
    exact hu.arguments.trans hi
  constructor
  · intro h
    exact h.of_invariant hkeep
      (fun hi hu => (undisturbed_iff_harmless (horiginal hi _)).mp hu) rfl
  · intro h
    exact h.of_invariant
      (fun hi hharm => hkeep hi ((undisturbed_iff_harmless (horiginal hi _)).mpr hharm))
      (fun hi hharm => (undisturbed_iff_harmless (horiginal hi _)).mpr hharm) rfl

/-- The user has given a port to connect to, and no host. -/
theorem not_undisturbed :
    let arguments := .dict [("connect", .dict [("port", .int 5678)])]
    let start : Request := { id := 0, command := "attach", arguments }
    let client : Client := { startRequest := some start, capabilities := some [] }
    let w : World := { pid := some 1, client, conns := fun _ => { pid := 2, ppid := some 1 } }
    ¬ Run.Meets call (fun w' next => Undisturbed w.originalItems (w'.between next.1) next.2) w
      [(w, 7)] := by
  intro arguments start client w h
  -- Whether `"connect"` has a host.
  let host (arguments : Option Json) : Option (Option Bool) :=
    (arguments.bind fun arguments => Json.get? (Request.items ⟨0, "", arguments⟩) "connect").map
      fun connect => (contains "host" connect).toOption
  have hsame := congrArg host h.1.arguments
  exact absurd hsame (by decide +kernel)

end Debugpy.Adapter
