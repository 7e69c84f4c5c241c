import Debugpy.Common.Json
import Debugpy.Server.Sentence

/-!
# Starting to debug

With the same options, `start_debugging` does it in the process of the command
line and `attach_pid_injected.attach` in another one, from what `attach_to_pid`
sends there. The adapter is taken to start and to answer.
-/

namespace Debugpy.Cli

-- ---------------------------------------------------------------------------
-- The debugged process
-- ---------------------------------------------------------------------------

/-- The arguments of `pydevd.settrace`; those of `listen` also go to the adapter. -/
inductive Started where
  | listenAt (address : String × Int)
  | connectTo (address : String × Int) (clientAccessToken : Option String) (ppid : Int)
  deriving DecidableEq, Repr

/-- What `debugpy.server.api` keeps and what it has told pydevd. -/
structure Process where
  config : Config := {}
  loggingEnsured : Bool := false
  logDir : Option String := none
  listenCalled : Bool := false
  qtSupport : Option String := none
  patchMultiprocessing : Option Bool := none
  started : Option Started := none
  deriving DecidableEq, Repr

def ensureLogging (p : Process) : Process := { p with loggingEnsured := true }

def logTo (path : String) (p : Process) : Except Exn Process :=
  if p.loggingEnsured then throw (.runtimeError "logging has already begun")
  else return { p with logDir := some path }

def qtValidValues : List String := ["auto", "none", "pyside", "pyside2", "pyqt4", "pyqt5"]

def configure (properties : Config) (p : Process) : Except Exn Process :=
  let p := ensureLogging p
  if properties.qt ∈ qtValidValues then return { p with config := properties }
  else throw (.valueError
    "'qt' must be one of: ['auto', 'none', 'pyside', 'pyside2', 'pyqt4', 'pyqt5']")

def startsDebugging (func : String × Int → Process → Except Exn Process) (address : String × Int)
    (p : Process) : Except Exn Process :=
  if 0 ≤ address.2 ∧ address.2 < 65536 then
    let p := ensureLogging p
    let p := if p.config.qt = "none" then p else { p with qtSupport := some p.config.qt }
    func address { p with patchMultiprocessing := some p.config.subProcess }
  else throw (.valueError "invalid port number")

def listenAt : String × Int → Process → Except Exn Process :=
  startsDebugging fun address p =>
    if p.listenCalled then
      throw (.runtimeError "debugpy.listen() has already been called on this process")
    else return { p with started := some (.listenAt address), listenCalled := true }

def connectTo (address : String × Int) (accessToken : Option String)
    (parentSessionPid : Option Int) : Process → Except Exn Process :=
  startsDebugging (fun address p =>
    return { p with started := some (.connectTo address accessToken (parentSessionPid.getD 0)) })
    address

-- ---------------------------------------------------------------------------
-- The two ways
-- ---------------------------------------------------------------------------

/-- `debuggingRunning` if `DEBUGPY_RUNNING` is `"true"`. -/
def startDebugging (o : Options) (debugpyRunning : Bool) (p : Process) : Except Exn Process := do
  let p ← configure o.config p
  if debugpyRunning then return p
  else match o.mode, o.address with
    | some .listen, some address => listenAt address p
    | some .connect, some address => connectTo address o.adapterAccessToken o.parentSessionPid p
    | _, _ => throw .assertionError

/-- What `main` and one of `run_file`, `run_module` and `run_code` do up to the target. -/
def runTarget (o : Options) (debugpyRunning : Bool) (p : Process) : Except Exn Process := do
  let p ← match o.logTo with
    | some path => logTo path p
    | none => pure p
  startDebugging o debugpyRunning (ensureLogging p)

def modeText : Mode → String
  | .listen => "listen"
  | .connect => "connect"

def optional (make : α → Json) : Option α → Json
  | some a => make a
  | none => .null

/-- The dict that `attach_to_pid` sends. -/
def setup (o : Options) : List (String × Json) :=
  [("mode", optional (fun m => .str (modeText m)) o.mode),
    ("address", optional (fun a => .list [.str a.1, .int a.2]) o.address),
    ("wait_for_client", .bool o.waitForClient),
    ("log_to", optional .str o.logTo),
    ("adapter_access_token", optional .str o.adapterAccessToken)]

/-- `host, port = address`. -/
def unpack : Property → Except Exn (String × Int)
  | some (.list [.str host, .int port]) => .ok (host, port)
  | _ => throw (.valueError "expected port or (host, port)")

def optionalText : Property → Option String
  | some (.str s) => some s
  | _ => none

def attach (setup : List (String × Json)) (p : Process) : Except Exn Process := do
  let p ← match optionalText (Json.get? setup "log_to") with
    | some path => logTo path p
    | none => pure p
  let mode := optionalText (Json.get? setup "mode")
  if mode = some "listen" then listenAt (← unpack (Json.get? setup "address")) p
  else if mode = some "connect" then
    connectTo (← unpack (Json.get? setup "address"))
      (optionalText (Json.get? setup "adapter_access_token")) none p
  else throw .assertionError

-- ---------------------------------------------------------------------------
-- What is applied
-- ---------------------------------------------------------------------------

structure Applied where
  config : Config
  qtSupport : Option String
  patchMultiprocessing : Option Bool
  started : Option Started
  deriving DecidableEq, Repr

def Process.applied (p : Process) : Applied :=
  ⟨p.config, p.qtSupport, p.patchMultiprocessing, p.started⟩

theorem parseArgs_checked (h : parseArgs rt argv extraArgv = .ok (o, argv')) :
    checkOptions o = .ok () := by
  obtain ⟨⟨seen, o₁, rest⟩, -, h⟩ := bind_ok.mp h
  obtain ⟨o₂, -, h⟩ := bind_ok.mp h
  obtain ⟨_, hcheck, h⟩ := bind_ok.mp h
  cases h
  exact hcheck

theorem parseArgs_port (h : parseArgs rt argv extraArgv = .ok (o, argv')) :
    ∀ address, o.address = some address → 0 ≤ address.2 ∧ address.2 < 65536 := by
  refine parseArgs_preserves
    (fun o => ∀ address, o.address = some address → 0 ≤ address.2 ∧ address.2 < 65536) ?_ h (by simp)
  intro words s o hs ho address ha
  cases hs with
  | listenAt _ hr =>
    cases ha
    exact hr.2
  | connectTo _ hr =>
    cases ha
    exact hr.2
  | _ => exact ho address ha

/-- What accepted options have `listen` or `connect` called with. -/
def startedBy (mode : Mode) (address : String × Int) (accessToken : Option String)
    (parentSessionPid : Option Int) : Started :=
  match mode with
  | .listen => .listenAt address
  | .connect => .connectTo address accessToken (parentSessionPid.getD 0)

theorem attach_setup (hm : o.mode = some mode) (ha : o.address = some address)
    (hport : 0 ≤ address.2 ∧ address.2 < 65536) :
    Process.applied <$> attach (setup o) {} =
      .ok ⟨{}, none, some true, some (startedBy mode address o.adapterAccessToken none)⟩ := by
  have hlog : optionalText (Json.get? (setup o) "log_to") = o.logTo := by
    cases h : o.logTo <;> simp [setup, Json.get?, optional, optionalText, h]
  have hmode : optionalText (Json.get? (setup o) "mode") = some (modeText mode) := by
    simp [setup, Json.get?, optional, optionalText, hm]
  have haddress : unpack (Json.get? (setup o) "address") = .ok address := by
    simp [setup, Json.get?, optional, unpack, ha]
  have htoken : optionalText (Json.get? (setup o) "adapter_access_token") = o.adapterAccessToken := by
    cases h : o.adapterAccessToken <;> simp [setup, Json.get?, optional, optionalText, h]
  rw [attach, hlog, hmode, haddress, htoken]
  cases mode <;> cases o.logTo <;> simp [bind, Except.bind, pure, Except.pure, logTo, modeText,
    listenAt, connectTo, startsDebugging, hport, ensureLogging, Process.applied, startedBy]

theorem runTarget_applied (hm : o.mode = some mode) (ha : o.address = some address)
    (hport : 0 ≤ address.2 ∧ address.2 < 65536) (hq : o.config.qt ∈ qtValidValues) :
    Process.applied <$> runTarget o running {} =
      .ok (if running then ⟨o.config, none, none, none⟩
        else ⟨o.config, if o.config.qt = "none" then none else some o.config.qt,
          some o.config.subProcess,
          some (startedBy mode address o.adapterAccessToken o.parentSessionPid)⟩) := by
  have hconfigure (p : Process) : configure o.config p =
      .ok { ensureLogging p with config := o.config } := if_pos hq
  cases running <;> cases mode <;> cases hl : o.logTo <;> by_cases hnone : o.config.qt = "none" <;>
    simp [runTarget, startDebugging, hconfigure, hm, ha, hl, hnone, bind, Except.bind, pure,
      Except.pure, logTo, listenAt, connectTo, startsDebugging, hport, ensureLogging, Process.applied, startedBy]

theorem runTarget_unconfigured (hq : o.config.qt ∉ qtValidValues) :
    ∃ e, runTarget o running {} = .error e := by
  have hconfigure (p : Process) : ∃ e, configure o.config p = .error e := ⟨_, if_neg hq⟩
  cases hl : o.logTo with
  | none =>
    obtain ⟨e, he⟩ := hconfigure (ensureLogging {})
    refine ⟨e, ?_⟩
    simp [runTarget, startDebugging, hl, he, bind, Except.bind, pure, Except.pure]
  | some path =>
    obtain ⟨e, he⟩ := hconfigure (ensureLogging { logDir := some path })
    refine ⟨e, ?_⟩
    simp [runTarget, startDebugging, hl, he, bind, Except.bind, pure, Except.pure, logTo]

/-- Attaching applies what running does when there is nothing that it leaves
out, and it never turns subprocess debugging off. -/
theorem attach_applied_iff (h : parseArgs rt argv extraArgv = .ok (o, argv')) (running : Bool) :
    (Process.applied <$> attach (setup o) {} = Process.applied <$> runTarget o running {} ↔
      running = false ∧ o.config = {} ∧ o.parentSessionPid.getD 0 = 0) ∧
    ∀ p, attach (setup o) {} = .ok p → p.config.subProcess = true := by
  obtain ⟨-, hmode, -, hparent, -, -, haddress⟩ := checkOptions_ok.mp (parseArgs_checked h)
  obtain ⟨mode, hm⟩ := Option.ne_none_iff_exists'.mp hmode
  obtain ⟨address, ha⟩ := Option.ne_none_iff_exists'.mp haddress
  have hport := parseArgs_port h address ha
  have hattach := attach_setup hm ha hport
  constructor
  · rw [hattach]
    by_cases hq : o.config.qt ∈ qtValidValues
    · rw [runTarget_applied hm ha hport hq]
      have hlisten : mode = .listen → o.parentSessionPid.getD 0 = 0 := by
        rintro rfl
        cases hp : o.parentSessionPid with
        | none => rfl
        | some n => simp [hp, hm] at hparent
      cases running with
      | true => simp
      | false =>
        simp only [Bool.false_eq_true, if_false, Except.ok.injEq, Applied.mk.injEq, true_and]
        constructor
        · rintro ⟨hc, -, -, hs⟩
          refine ⟨hc.symm, ?_⟩
          cases mode with
          | listen => exact hlisten rfl
          | connect => simpa [startedBy] using hs.symm
        · rintro ⟨hc, hpid⟩
          rw [hc]
          refine ⟨rfl, rfl, rfl, ?_⟩
          cases mode with
          | listen => rfl
          | connect => simp [startedBy, hpid]
    · obtain ⟨e, he⟩ : ∃ e, runTarget o running {} = .error e := runTarget_unconfigured hq
      rw [he]
      constructor
      · intro heq
        cases heq
      · rintro ⟨-, hc, -⟩
        rw [hc] at hq
        exact absurd (by decide) hq
  · intro p hp
    rw [hp] at hattach
    have hconfig := congrArg Applied.config (Except.ok.inj hattach)
    exact congrArg Config.subProcess hconfig

def pidTarget : Given := ⟨["--pid", "12345"], .target .pid (.pid 12345)⟩

/-- `-m debugpy --listen 5678 --pid 12345`, with `middle` ahead of the target. -/
def listenPid (middle : List String) : List String :=
  ["debugpy", "--listen", "5678"] ++ middle ++ ["--pid", "12345"]

def listenGiven : Given := ⟨["--listen", "5678"], .address .listen ("127.0.0.1", 5678)⟩

theorem sets_listenGiven : Sets OrNewline ipv4 listenGiven.words listenGiven.setting :=
  .listenAt (.inl rfl) ⟨by decide +kernel, by decide, by decide⟩

theorem sets_pidTarget : Sets OrNewline ipv4 pidTarget.words pidTarget.setting :=
  .pid (.inl rfl) (by decide +kernel) (by decide)

theorem parseArgs_listenPid (rest : List String) :
    parseArgs ipv4 (listenPid [] ++ rest) none =
      .ok (settle [listenGiven, pidTarget] {}, "debugpy" :: rest) := by
  refine parseArgs_iff_reading.mpr ⟨[listenGiven], pidTarget, rest, ⟨rfl, ?_, ⟨sets_pidTarget, rfl⟩,
    by simp⟩, by decide, rfl, rfl, rfl⟩
  exact List.forall_mem_singleton.mpr ⟨sets_listenGiven, rfl⟩

theorem attach_applied_listenPid :
    Process.applied <$> attach (setup (settle [listenGiven, pidTarget] {})) {} =
      Process.applied <$> runTarget (settle [listenGiven, pidTarget] {}) false {} :=
  (attach_applied_iff (parseArgs_listenPid []) false).1.mpr ⟨rfl, rfl, rfl⟩

def noSubProcess : Given := ⟨["--configure-subProcess", "False"], .subProcess false⟩

theorem parseArgs_noSubProcess :
    parseArgs ipv4 (listenPid ["--configure-subProcess", "False"]) none =
      .ok (settle [listenGiven, noSubProcess, pidTarget] {}, ["debugpy"]) := by
  refine parseArgs_iff_reading.mpr ⟨[listenGiven, noSubProcess], pidTarget, [],
    ⟨rfl, ?_, ⟨sets_pidTarget, rfl⟩, by decide⟩, by decide, rfl, rfl, rfl⟩
  refine List.forall_mem_cons.mpr ⟨⟨sets_listenGiven, rfl⟩, ?_⟩
  exact List.forall_mem_singleton.mpr ⟨.noSubProcess (by decide), rfl⟩

/-- `--configure-subProcess False` is lost on the way when it is ahead of
`--pid`, and not read at all when it comes after, where the README has it. -/
theorem attach_loses_subProcess :
    (¬ ∀ o argv', parseArgs ipv4 (listenPid ["--configure-subProcess", "False"]) none =
        .ok (o, argv') → o.targetKind = some .pid →
      Process.applied <$> attach (setup o) {} = Process.applied <$> runTarget o false {}) ∧
    ∃ o p, parseArgs ipv4 (listenPid [] ++ ["--configure-subProcess", "False"]) none =
        .ok (o, ["debugpy", "--configure-subProcess", "False"]) ∧
      attach (setup o) {} = .ok p ∧ p.config.subProcess = true := by
  constructor
  · intro h
    have heq := h _ _ parseArgs_noSubProcess rfl
    rw [attach_setup rfl rfl (by decide), runTarget_applied rfl rfl (by decide) (by decide)] at heq
    have hconfig := congrArg Applied.config (Except.ok.inj heq)
    cases hconfig
  · exact ⟨_, _, parseArgs_listenPid _, rfl, rfl⟩

end Debugpy.Cli
