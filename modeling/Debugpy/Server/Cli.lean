import Debugpy.Common.Exn
import Debugpy.Common.PyInt

/-!
# The command line

`cli.parse_args`: one loop over the arguments in `sys.argv`, and again over
those in the environment, with the table of switches and their actions. An
action may take values from the same arguments that the loop goes over; what
it leaves is never more than it was given, which is why the loop ends.
-/

namespace Debugpy.Cli

inductive Mode where
  | listen
  | connect
  deriving DecidableEq, Repr

inductive TargetKind where
  | file
  | module
  | code
  | pid
  deriving DecidableEq, Repr

inductive Target where
  | text (s : String)
  | pid (n : Int)
  deriving DecidableEq, Repr

structure Config where
  qt : String := "none"
  subProcess : Bool := true
  deriving DecidableEq, Repr

structure Options where
  mode : Option Mode := none
  address : Option (String × Int) := none
  logTo : Option String := none
  logToStderr : Bool := false
  target : Option Target := none
  targetKind : Option TargetKind := none
  waitForClient : Bool := false
  adapterAccessToken : Option String := none
  config : Config := {}
  parentSessionPid : Option Int := none
  disableSysRemoteExec : Bool := false
  deriving DecidableEq, Repr

/-- What the parser takes from the interpreter. -/
structure Runtime where
  /-- `sockets.get_default_localhost()`. -/
  localhost : String
  repr : String → String
  /-- The text of the `ValueError` of `int(s)`. -/
  intError : String → String

inductive Failure where
  | systemExit
  | valueError (text : String)
  | assertionError
  deriving DecidableEq, Repr

inductive ActionError where
  | stopIteration
  | systemExit
  | exception (text : String)
  deriving DecidableEq, Repr

-- ---------------------------------------------------------------------------
-- Actions
-- ---------------------------------------------------------------------------

abbrev Iter (it : List String) := { rest : List String // rest.length ≤ it.length }

def next : (it : List String) → Except ActionError (String × Iter it)
  | [] => .error .stopIteration
  | value :: rest => .ok (value, ⟨rest, Nat.le_succ rest.length⟩)

abbrev Action := String → (it : List String) → Options → Except ActionError (Options × Iter it)

def Iter.all (it : List String) : Iter it := ⟨it, Nat.le_refl it.length⟩

def exitAction : Action := fun _ _ _ => .error .systemExit

def setArg (parser : String → Except ActionError α) (store : α → Options → Options) : Action :=
  fun _ it options => do
    let (value, rest) ← next it
    let value ← parser value
    return (store value options, rest)

def setConst (store : Options → Options) : Action := fun _ it options =>
  .ok (store options, Iter.all it)

/-- `int(s)`. -/
def parseInt (rt : Runtime) (s : String) : Except ActionError Int :=
  match PyInt.ofString s with
  | some n => .ok n
  | none => .error (.exception (rt.intError s))

/-- `in_range(int, 0, None)`. -/
def parsePid (rt : Runtime) (s : String) : Except ActionError Int := do
  let n ← parseInt rt s
  if n < 0 then throw (.exception "must be >= 0") else return n

/-- `s.rpartition(":")`, unless there is no separator. -/
def rpartition (s : String) : Option (String × String) :=
  let cs := s.toList
  if ':' ∈ cs then
    some (String.ofList (cs.reverse.dropWhile (· != ':')).tail.reverse,
      String.ofList (cs.reverse.takeWhile (· != ':')).reverse)
  else none

/-- `host.strip("[]")`. -/
def stripBrackets (host : String) : String :=
  let isBracket (c : Char) := c == '[' || c == ']'
  String.ofList ((host.toList.dropWhile isBracket).rdropWhile isBracket)

/-- The host and the port, `-1` if that is no integer. -/
def readAddress (rt : Runtime) (value : String) : String × Int :=
  match rpartition value with
  | some (host, port) => (stripBrackets host, (PyInt.ofString port).getD (-1))
  | none => (rt.localhost, (PyInt.ofString value).getD (-1))

def setAddress (rt : Runtime) (mode : Mode) : Action := fun _ it options => do
  if options.address.isSome then
    throw (.exception "--listen and --connect are mutually exclusive")
  else
    let (value, rest) ← next it
    let (host, port) := readAddress rt value
    if 0 ≤ port ∧ port < 65536 then
      return ({ options with mode := some mode, address := some (host, port) }, rest)
    else throw (.exception "invalid port number")

/-- `value.lower()`, as far as it can make `"true"` or `"false"`. -/
def lower (value : String) : String := String.ofList (value.toList.map Char.toLower)

def setConfig (rt : Runtime) : Action := fun arg it options => do
  let name := String.ofList (arg.toList.drop "--configure-".length)
  let (value, rest) ← next it
  if name = "qt" then
    return ({ options with config := { options.config with qt := value } }, rest)
  else if name = "subProcess" then
    if lower value = "true" then
      return ({ options with config := { options.config with subProcess := true } }, rest)
    else if lower value = "false" then
      return ({ options with config := { options.config with subProcess := false } }, rest)
    else throw (.exception "'subProcess' must be a bool")
  else throw (.exception ("unknown property " ++ rt.repr name))

def setTarget (kind : TargetKind) (parser : String → Except ActionError Target)
    (positional : Bool) : Action := fun arg it options => do
  let (value, rest) ← if positional then .ok (arg, Iter.all it) else next it
  let target ← parser value
  return ({ options with targetKind := some kind, target := some target }, rest)

-- ---------------------------------------------------------------------------
-- Switches
-- ---------------------------------------------------------------------------

inductive Pattern where
  /-- Any of these. -/
  | names (ns : List String)
  /-- `--configure-.+`. -/
  | configure

/-- The pattern matches the whole of `s`. -/
def Pattern.full (p : Pattern) (s : String) : Bool :=
  match p with
  | .names ns => ns.contains s
  | .configure => "--configure-".toList.isPrefixOf s.toList &&
      (s.toList.drop "--configure-".length != []) &&
      !(s.toList.drop "--configure-".length).contains '\n'

/-- `s` without the newline at its end, if there is one. -/
def chop (s : String) : Option String :=
  if s.toList.getLast? = some '\n' then some (String.ofList s.toList.dropLast) else none

/-- `re.match("^(" + pattern + ")$", s)`: `$` also matches ahead of a newline
at the end. -/
def Pattern.matches (p : Pattern) (s : String) : Bool := p.full s || (chop s).any p.full

structure Switch where
  pattern : Pattern
  placeholder : Option String
  action : Action

def text (s : String) : Except ActionError Target := .ok (.text s)

/-- `int(x) if x else None`. -/
def parseParentPid (rt : Runtime) (s : String) : Except ActionError (Option Int) :=
  if s = "" then .ok none else some <$> parseInt rt s

def switches (rt : Runtime) : List Switch :=
  [⟨.names ["-?", "-h", "--help"], none, exitAction⟩,
    ⟨.names ["-V", "--version"], none, exitAction⟩,
    ⟨.names ["--log-to"], some "<path>",
      setArg .ok fun path o => { o with logTo := some path }⟩,
    ⟨.names ["--log-to-stderr"], none, setConst fun o => { o with logToStderr := true }⟩,
    ⟨.names ["--listen"], some "<address>", setAddress rt .listen⟩,
    ⟨.names ["--connect"], some "<address>", setAddress rt .connect⟩,
    ⟨.names ["--wait-for-client"], none, setConst fun o => { o with waitForClient := true }⟩,
    ⟨.configure, some "<value>", setConfig rt⟩,
    ⟨.names ["--parent-session-pid"], some "<pid>",
      setArg (parseParentPid rt) fun pid o => { o with parentSessionPid := pid }⟩,
    ⟨.names ["--adapter-access-token"], some "<token>",
      setArg .ok fun token o => { o with adapterAccessToken := some token }⟩,
    ⟨.names ["--disable-sys-remote-exec"], none,
      setConst fun o => { o with disableSysRemoteExec := true }⟩,
    ⟨.names [""], some "<filename>", setTarget .file text true⟩,
    ⟨.names ["-m"], some "<module>", setTarget .module text false⟩,
    ⟨.names ["-c"], some "<code>", setTarget .code text false⟩,
    ⟨.names ["--pid"], some "<pid>", setTarget .pid (fun s => .pid <$> parsePid rt s) false⟩]

def lookup (rt : Runtime) (switch : String) : Option Switch :=
  (switches rt).find? (·.pattern.matches switch)

def switchOf (arg : String) : String := if "-".toList.isPrefixOf arg.toList then arg else ""

def Switch.perform (s : Switch) (switch arg : String) (it : List String) (options : Options) :
    Except Failure (Options × Iter it) :=
  match s.action arg it options with
  | .ok result => .ok result
  | .error .systemExit => .error .systemExit
  | .error .stopIteration => match s.placeholder with
    | some placeholder => .error (.valueError (switch ++ ": missing " ++ placeholder))
    | none => .error .assertionError
  | .error (.exception text) =>
    .error (.valueError ("invalid " ++ switch ++ " " ++ s.placeholder.getD "None" ++ ": " ++ text))

-- ---------------------------------------------------------------------------
-- The loop
-- ---------------------------------------------------------------------------

structure Seen where
  fromCommandLine : List String := []
  fromEnvironment : List String := []

def Seen.add (seen : Seen) (isFromEnvironment : Bool) (switch : String) : Seen :=
  if isFromEnvironment then { seen with fromEnvironment := switch :: seen.fromEnvironment }
  else { seen with fromCommandLine := switch :: seen.fromCommandLine }

def parseArgsHelper (rt : Runtime) (isFromEnvironment : Bool) :
    List String → Seen → Options → Except Failure (Seen × Options × List String)
  | [], seen, options => .ok (seen, options, [])
  | arg :: it, seen, options =>
    let switch := switchOf arg
    match lookup rt switch with
    | none => .error (.valueError ("unrecognized switch " ++ switch))
    | some s =>
      if !isFromEnvironment ∧ switch ∈ seen.fromCommandLine then
        .error (.valueError ("duplicate switch on command line: " ++ switch))
      else if isFromEnvironment ∧ switch ∈ seen.fromEnvironment then
        .error (.valueError ("duplicate switch from environment: " ++ switch))
      else if isFromEnvironment ∧ switch ∈ seen.fromCommandLine then
        parseArgsHelper rt isFromEnvironment it seen options
      else
        let seen := seen.add isFromEnvironment switch
        match s.perform switch arg it options with
        | .error e => .error e
        | .ok (options, rest) =>
          if !isFromEnvironment ∧ options.target.isSome then .ok (seen, options, rest.1)
          else parseArgsHelper rt isFromEnvironment rest.1 seen options
termination_by args => args.length
decreasing_by
  · exact Nat.lt_succ_self it.length
  · exact Nat.lt_succ_of_le rest.2

def isSpace (c : Char) : Bool :=
  let n := c.toNat
  n = 32 || (9 ≤ n && n ≤ 13) || (28 ≤ n && n ≤ 31) || PyInt.isWideSpace n

def split (args : String) : List String :=
  ((args.toList.splitOnP isSpace).filter (· != [])).map String.ofList

/-- The checks of `parse_args`, with its assertions. -/
def checkOptions (o : Options) : Except Failure Unit :=
  if o.target = none ∨ o.target = some (.text "") then
    .error (.valueError
      "missing target: <filename> | -m <module> | -c <code> | --pid <pid>")
  else if o.mode = none then .error (.valueError "either --listen or --connect is required")
  else if o.adapterAccessToken.isSome ∧ o.mode ≠ some .connect then
    .error (.valueError "--adapter-access-token requires --connect")
  else if o.parentSessionPid.isSome ∧ o.mode ≠ some .connect then
    .error (.valueError "--parent-session-pid requires --connect")
  else if o.targetKind = some .pid ∧ o.waitForClient then
    .error (.valueError "--pid does not support --wait-for-client")
  else if o.targetKind = none ∨ o.address = none then .error .assertionError
  else .ok ()

def parseArgsFromEnvironment (rt : Runtime) (extraArgv : Option String)
    (seenFromCommandLine : List String) (options : Options) : Except Failure Options := do
  match extraArgv with
  | none => return options
  | some args =>
    if args = "" then return options
    else
      let (_, options, _) ← parseArgsHelper rt true (split args)
        { fromCommandLine := seenFromCommandLine } options
      return options

/-- `parse_args`, with what it leaves of `sys.argv`. -/
def parseArgs (rt : Runtime) (argv : List String) (extraArgv : Option String) :
    Except Failure (Options × List String) := do
  let (seen, options, rest) ← parseArgsHelper rt false argv.tail {} {}
  let options ← parseArgsFromEnvironment rt extraArgv seen.fromCommandLine options
  checkOptions options
  return (options, argv.take 1 ++ rest)

end Debugpy.Cli
