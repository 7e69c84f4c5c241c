import Debugpy.Adapter.Launchers
import Debugpy.Launcher.Handlers
import Debugpy.Server.Cli

/-!
# The arguments of the launcher

`main` of the launcher: `sys.argv` is split at the first `"--"`, and what is
ahead of it starts with the address of the adapter. `cli.set_address` reads
the same format; where the two agree is `agree_iff`.
-/

namespace Debugpy.Launcher

open Cli (Runtime rpartition)

inductive MainError where
  /-- `sys.argv.index("--")` raises `ValueError`. -/
  | noSeparator
  /-- `launcher_argv[0]` raises `IndexError`. -/
  | noAddress
  /-- `int(port)` raises `ValueError`. -/
  | badPort
  deriving DecidableEq, Repr

/-- The host and the port; `host.strip("[]")` is evaluated, but its result not used. -/
def readAdapter (localhost : String) (adapter : String) : Option (String × Int) :=
  match rpartition adapter with
  | some (host, port) => (PyInt.ofString port).map fun n => (host, n)
  | none => (PyInt.ofString adapter).map fun n => (localhost, n)

/-- What `launcher.connect` is called with, and `sys.argv` from then on. -/
structure Connection where
  host : String
  port : Int
  argv : List String
  deriving DecidableEq, Repr

/-- `main`, up to the call of `launcher.connect`. -/
def main (localhost : String) (argv : List String) : Except MainError Connection :=
  match argv.idxOf? "--" with
  | none => .error .noSeparator
  | some sep =>
    match (argv.take sep).drop 1 with
    | [] => .error .noAddress
    | adapter :: _ => match readAdapter localhost adapter with
      | none => .error .badPort
      | some (host, port) => .ok ⟨host, port, argv.take 1 ++ argv.drop (sep + 1)⟩

-- ---------------------------------------------------------------------------
-- Two readers of addresses
-- ---------------------------------------------------------------------------

/-- What `set_address` stores for the value, when it is the first address. -/
def cliAddress (rt : Runtime) (mode : Cli.Mode) (value : String) : Option (String × Int) :=
  match Cli.setAddress rt mode "" [value] {} with
  | .ok (options, _) => options.address
  | .error _ => none

def InRange (port : Int) : Prop := 0 ≤ port ∧ port < 65536

instance : DecidablePred InRange := fun _ => inferInstanceAs (Decidable (_ ∧ _))

/-- Both reject the value, or both accept it with the same host and port. -/
def Agree (rt : Runtime) (mode : Cli.Mode) (value : String) : Prop :=
  (readAdapter rt.localhost value = none ∧ cliAddress rt mode value = none) ∨
    ∃ host port, readAdapter rt.localhost value = some (host, port) ∧
      cliAddress rt mode value = some (host, port) ∧ InRange port

/-- The part of the value that both take for the port. -/
def portText (value : String) : String :=
  match rpartition value with
  | some (_, port) => port
  | none => value

def IsBracket (c : Char) : Prop := c = '[' ∨ c = ']'

/-- The host neither begins nor ends with a bracket. -/
def Unbracketed (host : String) : Prop :=
  (∀ c, host.toList.head? = some c → ¬ IsBracket c) ∧
    ∀ c, host.toList.getLast? = some c → ¬ IsBracket c

theorem dropWhile_eq_self {p : Char → Bool} {cs : List Char} :
    cs.dropWhile p = cs ↔ ∀ c, cs.head? = some c → ¬ p c := by
  cases cs with
  | nil => simp
  | cons c cs =>
    rw [List.dropWhile_eq_self_iff]
    simp

theorem rdropWhile_eq_self {p : Char → Bool} {cs : List Char} :
    cs.rdropWhile p = cs ↔ ∀ c, cs.getLast? = some c → ¬ p c := by
  rw [List.rdropWhile_eq_self_iff]
  constructor
  · intro h c hc
    have hne : cs ≠ [] := by
      rintro rfl
      cases hc
    rw [List.getLast?_eq_some_getLast hne] at hc
    exact Option.some.inj hc ▸ h hne
  · intro h hne
    exact h _ (List.getLast?_eq_some_getLast hne)

theorem stripBrackets_eq_self {host : String} :
    Cli.stripBrackets host = host ↔ Unbracketed host := by
  have hbracket (c : Char) : (c == '[' || c == ']') = true ↔ IsBracket c := by simp [IsBracket]
  simp only [Cli.stripBrackets, ← String.toList_inj, String.toList_ofList, Unbracketed, ← hbracket]
  rw [← dropWhile_eq_self, ← rdropWhile_eq_self]
  generalize host.toList = cs
  constructor
  · intro h
    have hleft : (cs.dropWhile fun c => c == '[' || c == ']') = cs := by
      refine (List.dropWhile_suffix _).eq_of_length_le ?_
      conv_lhs => rw [← h]
      exact List.IsPrefix.length_le (List.rdropWhile_prefix _ _)
    exact ⟨hleft, by rwa [hleft] at h⟩
  · rintro ⟨hleft, hright⟩
    rw [hleft, hright]

theorem setAddress_ok (rt : Runtime) (mode : Cli.Mode) (arg value : String) (it : List String)
    (h : o.address = none) : Cli.setAddress rt mode arg (value :: it) o =
      if InRange (Cli.readAddress rt value).2 then
        .ok ({ o with mode := some mode, address := some (Cli.readAddress rt value) },
          ⟨it, Nat.le_succ it.length⟩)
      else .error (.exception "invalid port number") := by
  simp only [Cli.setAddress, h, Option.isSome_none, Bool.false_eq_true, ↓reduceIte]
  rfl

theorem cliAddress_eq (rt : Runtime) (mode : Cli.Mode) (value : String) :
    cliAddress rt mode value =
      if InRange (Cli.readAddress rt value).2 then some (Cli.readAddress rt value) else none := by
  rw [cliAddress, setAddress_ok rt mode "" value [] rfl]
  by_cases hrange : InRange (Cli.readAddress rt value).2
  · rw [if_pos hrange, if_pos hrange]
  · rw [if_neg hrange, if_neg hrange]

/-- The launcher and the command line agree on what is no port for both, and on
a port in range of a host without brackets; the launcher takes every integer and
every host. -/
theorem agree_iff (rt : Runtime) (mode : Cli.Mode) (value : String) :
    Agree rt mode value ↔ ∀ port, PyInt.ofString (portText value) = some port →
      InRange port ∧ ∀ host text, rpartition value = some (host, text) → Unbracketed host := by
  rw [Agree, cliAddress_eq, readAdapter, Cli.readAddress, portText]
  have hbad : ¬ InRange (-1) := by decide
  cases hsplit : rpartition value with
  | none =>
    cases hport : PyInt.ofString value with
    | none => simp [hbad]
    | some port => by_cases hrange : InRange port <;> simp [hrange]
  | some parts =>
    obtain ⟨host, text⟩ := parts
    cases hport : PyInt.ofString text with
    | none => simp [hport, hbad]
    | some port =>
      by_cases hrange : InRange port
      · simp [hport, hrange, ← stripBrackets_eq_self, eq_comm]
      · simp [hport, hrange]

/-- `[::1]:5678`: the launcher keeps the brackets. -/
theorem not_agree_brackets : ¬ Agree ⟨"127.0.0.1", id, id⟩ .connect "[::1]:5678" := by
  rw [agree_iff]
  intro h
  have hunbracketed := (h 5678 (by decide +kernel)).2 "[::1]" "5678" (by decide +kernel)
  exact hunbracketed.1 '[' (by decide) (.inl rfl)

-- ---------------------------------------------------------------------------
-- What the adapter writes
-- ---------------------------------------------------------------------------

theorem rpartition_append {host port : String} (h : ':' ∉ port.toList) :
    rpartition (host ++ ":" ++ port) = some (host, port) := by
  have hlist : (host ++ ":" ++ port).toList.reverse =
      port.toList.reverse ++ ':' :: host.toList.reverse := by simp
  have hall : ∀ c ∈ port.toList.reverse, (c != ':') = true := by
    intro c hc
    rw [List.mem_reverse] at hc
    simp only [bne_iff_ne]
    rintro rfl
    exact h hc
  rw [rpartition, if_pos (by simp), hlist, List.dropWhile_append_of_pos hall,
    List.takeWhile_append_of_pos hall, List.dropWhile_cons_of_neg (by simp),
    List.takeWhile_cons_of_neg (by simp)]
  simp

theorem rpartition_none {value : String} (h : ':' ∉ value.toList) : rpartition value = none :=
  if_neg h

theorem portText_spec (h : InRange port) : PyInt.ofString (toString port) = some port ∧
    ':' ∉ (toString port).toList ∧ toString port ≠ "--" := by
  obtain ⟨hge, hlt⟩ := h
  obtain ⟨n, rfl⟩ := Int.eq_ofNat_of_zero_le hge
  have hdigit : ∀ c ∈ (toString n).toList, c.isDigit = true := fun c hc =>
    Nat.isDigit_of_mem_toDigits (by decide) (by decide) (Nat.toList_repr ▸ hc)
  have htext : toString (n : Int) = toString n := rfl
  rw [htext]
  refine ⟨?_, fun hc => absurd (hdigit _ hc) (by decide), fun heq => ?_⟩
  · rw [PyInt.ofString_toString, if_pos (PyInt.lt_of_port (by omega))]
  · rw [heq] at hdigit
    exact absurd (hdigit '-' (by decide)) (by decide)

theorem readAdapter_launcherAddress (hport : InRange port) :
    readAdapter localhost (Launchers.launcherAddress localhost host port) = some (host, port) := by
  obtain ⟨hread, hcolon, -⟩ := portText_spec hport
  unfold Launchers.launcherAddress
  split
  · next heq => rw [readAdapter, rpartition_none hcolon, hread, heq, Option.map_some]
  · rw [readAdapter, rpartition_append hcolon]
    simp only [hread, Option.map_some]

theorem launcherAddress_ne (hport : InRange port) :
    Launchers.launcherAddress localhost host port ≠ "--" := by
  unfold Launchers.launcherAddress
  split
  · exact (portText_spec hport).2.2
  · intro heq
    have hmem : ':' ∈ (host ++ ":" ++ toString port).toList := by simp
    rw [heq] at hmem
    exact absurd hmem (by decide)

/-- The process that a command line starts finds `sys.argv`: the interpreter
that it begins with runs the script, with what follows for its arguments. -/
def Runs (sysArgv : List String → List String) (start : List String) (path script : String) :
    Prop :=
  script ≠ "--" ∧ ∀ rest, sysArgv (start ++ path :: rest) = script :: rest

theorem main_commandLine {sysArgv : List String → List String}
    (hruns : Runs sysArgv (Launchers.interpreter elevated python) path script)
    (hport : InRange port) :
    main localhost (sysArgv
      (Launchers.commandLine localhost elevated python path host port args)) =
        .ok ⟨host, port, script :: args⟩ := by
  have hline : Launchers.commandLine localhost elevated python path host port args =
      Launchers.interpreter elevated python ++ path ::
        (Launchers.launcherAddress localhost host port :: "--" :: args) := by
    simp [Launchers.commandLine]
  have hsep : (script :: Launchers.launcherAddress localhost host port :: "--" :: args).idxOf? "--" =
      some 2 := by
    simp [List.idxOf?_cons, hruns.1, launcherAddress_ne hport]
  rw [hline, hruns.2, main, hsep]
  simp [readAdapter_launcherAddress hport]

-- ---------------------------------------------------------------------------
-- What the launcher writes
-- ---------------------------------------------------------------------------

theorem setAddress_connect (rt : Runtime) (hhost : Unbracketed host) (hport : InRange port)
    (ho : o.address = none) (it : List String) :
    Cli.setAddress rt .connect "--connect" ((host ++ ":" ++ toString port) :: it) o =
      .ok ({ o with mode := some .connect, address := some (host, port) },
        ⟨it, Nat.le_succ it.length⟩) := by
  obtain ⟨hread, hcolon, -⟩ := portText_spec hport
  have haddress : Cli.readAddress rt (host ++ ":" ++ toString port) = (host, port) := by
    rw [Cli.readAddress, rpartition_append hcolon]
    simp only [stripBrackets_eq_self.mpr hhost, hread, Option.getD_some]
  rw [setAddress_ok rt .connect "--connect" _ it ho, haddress, if_pos hport]

theorem request_port {arguments : Items} (hget : Json.get? arguments "port" = some (.int n))
    (h : request arguments "port" isInt = .ok value) : value = some (.int n) := by
  have hvalid := request_ok h
  rw [hget] at hvalid
  cases hvalid
  rfl

theorem debugpyArguments_connect {arguments : Items}
    (hget : Json.get? arguments "port" = some (.int n))
    (h : debugpyArguments host arguments = .ok words) :
    NoDebug arguments ∧ words = [] ∨ ∃ after,
      words = (if host.frozenModules then ["-X", "frozen_modules=off"] else []) ++
        [host.debugpyDir, "--connect", host.adapterHost ++ ":" ++ toString n] ++ after := by
  obtain ⟨noDebug, hnoDebug, h⟩ := bind_ok.mp h
  split at h
  · next htrue =>
    cases h
    exact .inl ⟨⟨noDebug, hnoDebug, htrue⟩, rfl⟩
  · obtain ⟨port, hport, h⟩ := bind_ok.mp h
    obtain rfl := request_port hget hport
    obtain ⟨subProcess, -, h⟩ := bind_ok.mp h
    obtain ⟨qtMode, -, h⟩ := bind_ok.mp h
    obtain ⟨token, -, h⟩ := bind_ok.mp h
    obtain ⟨debugpyArgs, -, h⟩ := bind_ok.mp h
    cases h
    exact .inr ⟨_, by simp only [List.append_assoc]; rfl⟩

theorem launchRequest_cmdline {arguments : Items}
    (h : launchRequest host arguments = .ok spawn) :
    ∃ python words, debugpyArguments host arguments = .ok words ∧
      spawn.cmdline = python ++ words ++ host.argv := by
  obtain ⟨debugOptions, -, h⟩ := bind_ok.mp h
  obtain ⟨python, -, h⟩ := bind_ok.mp h
  obtain ⟨words, hwords, h⟩ := bind_ok.mp h
  obtain ⟨processName, -, h⟩ := bind_ok.mp h
  obtain ⟨env, -, h⟩ := bind_ok.mp h
  obtain ⟨console, -, h⟩ := bind_ok.mp h
  obtain ⟨redirect, -, h⟩ := bind_ok.mp h
  obtain ⟨onNormal, -, h⟩ := bind_ok.mp h
  obtain ⟨onAbnormal, -, h⟩ := bind_ok.mp h
  cases h
  exact ⟨_, words, hwords, rfl⟩

theorem get?_spawnArguments_port (server : Int × Json) (arguments : Items) :
    Json.get? (spawnArguments false server arguments) "port" = some (.int server.1) := by
  rw [spawnArguments, if_neg (by decide), Json.get?_set_ne _ (by decide), Json.get?_set_self]

/-- The launcher gets its arguments and its address as the adapter has them,
and hands both on: the command line of the debuggee ends with the arguments,
and its `--connect` is read as the same host with the port of the servers. -/
theorem launch_roundTrip (rt : Runtime) (sysArgv : List String → List String) (elevated : Bool)
    (python : List String) (path script : String)
    (hruns : Runs sysArgv (Launchers.interpreter elevated python) path script)
    (adapterHost : String) (hhost : '[' ∉ adapterHost.toList ∧ ']' ∉ adapterHost.toList)
    (port : Int) (hport : InRange port) (args : List String) :
    main rt.localhost (sysArgv
        (Launchers.commandLine rt.localhost elevated python path adapterHost port args)) =
      .ok ⟨adapterHost, port, script :: args⟩ ∧
    ∀ host : Host, host.adapterHost = adapterHost → host.argv = args →
      ∀ server : Int × Json, InRange server.1 → ∀ arguments,
        (Launches host (spawnArguments false server arguments) →
          ∃ spawn, launchRequest host (spawnArguments false server arguments) = .ok spawn) ∧
        ∀ spawn, launchRequest host (spawnArguments false server arguments) = .ok spawn →
          ∃ before words, spawn.cmdline = before ++ words ++ args ∧
            (NoDebug (spawnArguments false server arguments) ∧ words = [] ∨
            ∃ flags value after, words = flags ++ [host.debugpyDir, "--connect", value] ++ after ∧
              ∀ o it, o.address = none → Cli.setAddress rt .connect "--connect" (value :: it) o =
                .ok ({ o with mode := some .connect, address := some (adapterHost, server.1) },
                  ⟨it, Nat.le_succ it.length⟩)) := by
  refine ⟨main_commandLine hruns hport, ?_⟩
  rintro host rfl rfl server hserver arguments
  refine ⟨launchRequest_of_launches, fun spawn hspawn => ?_⟩
  obtain ⟨before, words, hwords, hcmdline⟩ := launchRequest_cmdline hspawn
  refine ⟨before, words, hcmdline, ?_⟩
  refine (debugpyArguments_connect (get?_spawnArguments_port server arguments) hwords).imp_right ?_
  rintro ⟨after, rfl⟩
  refine ⟨_, _, after, rfl, fun o it ho => setAddress_connect rt ⟨?_, ?_⟩ hserver ho it⟩
  · rintro c hc (rfl | rfl)
    · exact hhost.1 (List.mem_of_mem_head? hc)
    · exact hhost.2 (List.mem_of_mem_head? hc)
  · rintro c hc (rfl | rfl)
    · exact hhost.1 (List.mem_of_mem_getLast? hc)
    · exact hhost.2 (List.mem_of_mem_getLast? hc)

/-- Arguments that look like the launcher's own. -/
def switches : List String := ["-m", "--", "5679", "--"]

/-- The launcher of an adapter that listens at an IPv6 address. -/
def ipv6Host : Host := { linuxHost with adapterHost := "::1", argv := switches }

def debugArguments : Items :=
  spawnArguments false (5679, .str "token") (programArguments [("program", .str "a.py")])

theorem launches_debugArguments : Launches ipv6Host debugArguments := by
  have hflags : flags debugArguments = [] := rfl
  have hflag : ∀ flagName, flagName ∉ flags debugArguments := fun flagName h => by
    rw [hflags] at h
    cases h
  constructor
  case debug =>
    intro _ p hp
    simp only [debugProperties, List.mem_cons, List.not_mem_nil, or_false] at hp
    rcases hp with rfl | rfl | rfl | rfl | rfl <;> exact ⟨_, rfl⟩
  case unique =>
    intro hwindows
    cases hwindows
  case redirect => exact ⟨⟨_, rfl⟩, fun h => absurd h (hflag _)⟩
  case onNormal | onAbnormal =>
    refine ⟨⟨⟨_, rfl⟩, fun h => absurd h (hflag _)⟩, ?_⟩
    rintro (h | h)
    · exact absurd h (hflag _)
    · cases h
  all_goals exact ⟨_, rfl⟩

/-- Both addresses are read as they were meant. -/
theorem launch_roundTrip_ipv6 :
    main "127.0.0.1" ((Launchers.commandLine "127.0.0.1" true ["python3"] "/debugpy/launcher" "::1"
      5678 switches).drop 3) = .ok ⟨"::1", 5678, "/debugpy/launcher" :: switches⟩ ∧
    ∃ spawn before flags value after, launchRequest ipv6Host debugArguments = .ok spawn ∧
      spawn.cmdline = before ++ (flags ++ ["/debugpy", "--connect", value] ++ after) ++ switches ∧
      ∀ o it, o.address = none →
        Cli.setAddress ⟨"127.0.0.1", id, id⟩ .connect "--connect" (value :: it) o =
          .ok ({ o with mode := some .connect, address := some ("::1", 5679) },
            ⟨it, Nat.le_succ it.length⟩) := by
  obtain ⟨hmain, hlaunch⟩ := launch_roundTrip ⟨"127.0.0.1", id, id⟩ (List.drop 3) true ["python3"]
    "/debugpy/launcher" "/debugpy/launcher" ⟨by decide, fun _ => rfl⟩ "::1" (by decide) 5678
    (by decide) switches
  obtain ⟨hsucceeds, hspawn⟩ := hlaunch ipv6Host rfl rfl (5679, .str "token") (by decide)
    (programArguments [("program", .str "a.py")])
  obtain ⟨spawn, hspawned⟩ := hsucceeds launches_debugArguments
  obtain ⟨before, words, hcmdline, hnoDebug | hdebug⟩ := hspawn spawn hspawned
  · obtain ⟨⟨value, hvalue, htrue⟩, -⟩ := hnoDebug
    cases hvalue
    cases htrue
  · obtain ⟨flags, value, after, rfl, hread⟩ := hdebug
    exact ⟨hmain, spawn, before, flags, value, after, hspawned, hcmdline, hread⟩

end Debugpy.Launcher
