import Debugpy.Adapter.Launch
import Debugpy.Common.Malformed

/-!
# The launch request of the launcher

`launch_request`, up to the call of `debuggee.spawn`, and who redirects the
output. The adapter and the launcher make that decision each from the same
arguments: `isOutputRedirected_iff_spawn` says where they agree.
-/

namespace Debugpy.Launcher

open Adapter (arrayOfStr consoles launchArguments optionalBool optionalStr strings)

/-- What the launcher finds where it runs. -/
structure Host where
  windows : Bool
  /-- `str.upper`. -/
  upper : String → String
  /-- `sys.version_info[:2] >= (3, 11)`. -/
  frozenModules : Bool
  debugpyDir : String
  adapterHost : String
  /-- `sys.argv[1:]`. -/
  argv : List String
  executable : String
  environ : Items

structure Spawn where
  processName : String
  cmdline : List String
  env : Items
  redirectOutput : Bool
  predicates : List (Int → Bool)

def isntValid (reason : String) : Exn := .messageHandling 0 true reason none

def request (arguments : Items) (key : String) (validate : Validator) : Except Exn Property :=
  MessageDict.call
    (fun key text => isntValid (Json.repr key ++ if text.startsWith "[" then text else " " ++ text))
    arguments key validate

/-- The result is `none` if the property was not set either way. -/
def propertyOrDebugOption (arguments : Items) (debugOptions : List String)
    (propName flagName : String) : Except Exn (Option Bool) := do
  let value := (← request arguments propName optionalBool).map fun v => asBool (some v)
  if flagName ∈ debugOptions then
    if value = some false then
      throw (isntValid (Json.repr propName ++ ":false and \"debugOptions\":[" ++
        Json.repr flagName ++ "] are mutually exclusive"))
    else return some true
  else return value

def qtModes : List String := ["none", "auto", "pyside", "pyside2", "pyqt4", "pyqt5"]

def debugpyArguments (h : Host) (arguments : Items) : Except Exn (List String) := do
  if asBool (← request arguments "noDebug" (Json.default (.bool false))) then return []
  else do
    let port ← request arguments "port" isInt
    let subProcess ← request arguments "subProcess" (Json.default (.bool true))
    let qtMode ← request arguments "qt" (Json.enum qtModes true)
    let adapterAccessToken ← request arguments "adapterAccessToken" optionalStr
    let debugpyArgs ← request arguments "debugpyArgs" (arrayOfStr false .any)
    return (if h.frozenModules then ["-X", "frozen_modules=off"] else []) ++
      [h.debugpyDir, "--connect", h.adapterHost ++ ":" ++ formatInt port] ++
      (if asBool subProcess then [] else ["--configure-subProcess", "False"]) ++
      ["--configure-qt", asStr qtMode] ++
      (if adapterAccessToken.isSome then ["--adapter-access-token", asStr adapterAccessToken]
        else []) ++
      strings debugpyArgs

def sameValue : Json → Json → Bool
  | .str s, .str t => s == t
  | .null, .null => true
  | _, _ => false

/-- One turn of the loop over `env_changes` on Windows. -/
def addChange (h : Host) (changes : Items) (p : String × Json) : Except Exn Items :=
  let key := h.upper p.1
  match Json.get? changes key with
  | some value =>
    if sameValue value p.2 then .ok changes
    else throw (isntValid ("Found duplicate in \"env\": " ++ key ++ "."))
  | none => .ok (Json.set changes key p.2)

def update (env changes : Items) : Items :=
  changes.foldl (fun env p => Json.set env p.1 p.2) env

def environment (h : Host) (arguments : Items) : Except Exn Items := do
  let changes ← match ← request arguments "env"
      (Json.object (.types (.tuple [.str, .noneType]))) with
    | some (.dict changes) => pure changes
    | _ => pure []
  let changes ← if h.windows then changes.foldlM (addChange h) [] else pure changes
  let env := if h.windows then update [] (h.environ.map fun p => (h.upper p.1, p.2)) else h.environ
  let env := if (Json.get? env "DEBUGPY_TEST").isSome then Json.erase env "COV_CORE_SOURCE" else env
  let env := (update env changes).filter fun p => !sameValue p.2 .null
  let gevent ← request arguments "gevent" .ok
  return if Json.toBool gevent then Json.set env "GEVENT_SUPPORT" (.str "True") else env

def waitOnExit (arguments : Items) (debugOptions : List String) (console : String)
    (propName flagName : String) (predicate : Int → Bool) : Except Exn (List (Int → Bool)) := do
  if (← propertyOrDebugOption arguments debugOptions propName flagName) = some true then
    if console = "internalConsole" then
      throw (isntValid ("\"" ++ propName ++
        "\" is not supported for \"console\":\"internalConsole\""))
    else return [predicate]
  else return []

def launchRequest (h : Host) (arguments : Items) : Except Exn Spawn := do
  let debugOptions := strings (← request arguments "debugOptions" (arrayOfStr false .any))
  let python := strings (← request arguments "python" (arrayOfStr false (.atLeast 1)))
  let debugpyArgs ← debugpyArguments h arguments
  let processName ← request arguments "processName" (Json.default (.str h.executable))
  let env ← environment h arguments
  let console := asStr (← request arguments "console" (Json.enum consoles true))
  let redirect ← propertyOrDebugOption arguments debugOptions "redirectOutput" "RedirectOutput"
  let redirectOutput := redirect.getD (console == "internalConsole")
  let env := if redirectOutput then
      Json.set (Json.set env "PYTHONUNBUFFERED" (.str "1")) "PYTHONIOENCODING" (.str "utf-8")
    else env
  let onNormal ← waitOnExit arguments debugOptions console "waitOnNormalExit" "WaitOnNormalExit"
    (· == 0)
  let onAbnormal ← waitOnExit arguments debugOptions console "waitOnAbnormalExit"
    "WaitOnAbnormalExit" (· != 0)
  return {
    processName := asStr processName
    cmdline := python ++ debugpyArgs ++ h.argv
    env, redirectOutput
    predicates := onNormal ++ onAbnormal }

/-- The arguments that `spawn_debuggee` of the adapter sends on; `server` is
the port of the listener for servers and the adapter's access token. -/
def spawnArguments (noDebug : Bool) (server : Int × Json) (arguments : Items) : Items :=
  if noDebug then arguments
  else Json.set (Json.set arguments "port" (.int server.1)) "adapterAccessToken" server.2

-- ---------------------------------------------------------------------------
-- What the validators accept
-- ---------------------------------------------------------------------------

theorem request_ok (h : request arguments key validate = .ok value) :
    validate (Json.get? arguments key) = .ok value := by
  unfold request MessageDict.call at h
  split at h
  · next heq => exact heq.trans h
  · cases h

theorem ofType_str (h : Json.ofType [.cls .str] false (some x) = .ok value) : value = some x := by
  unfold Json.ofType at h
  split at h
  · cases h
    rfl
  · simp [Json.converter, Json.Class.isNumber] at h

theorem validateItems_str (h : Json.validateItems (Json.Validate.types (.cls .str)).replace i xs = .ok ys) :
    ys = xs := by
  induction xs generalizing i ys with
  | nil =>
    cases h
    rfl
  | cons x xs ih =>
    rw [Json.validateItems] at h
    split at h
    · rename_i y hy
      obtain ⟨zs, hzs, rfl⟩ := map_ok.mp h
      obtain ⟨value, hvalue, rfl⟩ := map_ok.mp hy
      rw [ofType_str hvalue, ih hzs]
      rfl
    · cases h

theorem strings_of_array (h : arrayOfStr false .any property = .ok value) :
    strings value = strings property := by
  obtain ⟨ys, hys, rfl⟩ := map_ok.mp h
  unfold Json.arrayOf at hys
  match property with
  | none =>
    cases hys
    rfl
  | some (.list xs) =>
    simp only [Json.arrayValue, Json.Size.error] at hys
    rw [validateItems_str hys]
  | some .null | some (.bool _) | some (.int _) | some (.float _) | some (.str _)
  | some (.dict _) => cases hys

/-- A property that is a truth value, if it is there. What is true need not be
`true`, but what is false is `false`. -/
theorem optionalBool_ok (h : optionalBool property = .ok value) :
    value.map (fun v => asBool (some v)) = property.map Json.truthy ∧
      (property.map Json.truthy = some false → property = some (.bool false)) := by
  have hother : ∀ x : Json, (∀ b, x ≠ .bool b) → optionalBool (some x) = .ok value →
      value = some (.bool true) ∧ x.truthy = true := by
    intro x hx hok
    have hno : Json.isInstance (some x) .bool = false := by
      cases x with
      | bool b => exact absurd rfl (hx b)
      | _ => rfl
    have hbool : (Json.bool x.truthy).truthy = x.truthy := rfl
    simp only [optionalBool, Json.ofType, Json.ClassInfo.accepts, Json.converter,
      Json.Class.isNumber, Json.Class.convert, Json.toBool, List.any_cons, List.any_nil, hno,
      Option.isNone_some, Bool.and_false, Bool.or_self, Bool.false_eq_true, if_false, if_true,
      Option.elim_some, Option.any_some, hbool] at hok
    split at hok
    · rename_i htrue
      cases hok
      exact ⟨by rw [htrue], htrue⟩
    · cases hok
  cases property with
  | none =>
    cases h
    exact ⟨rfl, fun hb => by cases hb⟩
  | some x =>
    cases x with
    | bool b =>
      cases h
      exact ⟨rfl, fun hb => by cases hb; rfl⟩
    | _ =>
      obtain ⟨rfl, htrue⟩ := hother _ (by simp) h
      simp [asBool, htrue]

theorem console_ok (h : Json.enum consoles true property = .ok value) :
    asStr value = asStr (property.or (some (.str "internalConsole"))) := by
  unfold Json.enum consoles at h
  match property with
  | none =>
    cases h
    rfl
  | some (.str s) =>
    simp only at h
    split at h
    · cases h
      rfl
    · cases h
  | some .null | some (.bool _) | some (.int _) | some (.float _) | some (.list _)
  | some (.dict _) => cases h

theorem propertyOrDebugOption_ok (h : propertyOrDebugOption arguments options propName flagName =
    .ok value) :
    ∃ property, optionalBool (Json.get? arguments propName) = .ok property ∧
      if flagName ∈ options then
        value = some true ∧ property.map (fun v => asBool (some v)) ≠ some false
      else value = property.map fun v => asBool (some v) := by
  obtain ⟨property, hproperty, h⟩ := bind_ok.mp h
  refine ⟨property, request_ok hproperty, ?_⟩
  dsimp only at h
  split at h
  · rename_i hflag
    rw [if_pos hflag]
    split at h
    · cases h
    · rename_i hne
      cases h
      exact ⟨rfl, hne⟩
  · rename_i hflag
    rw [if_neg hflag]
    cases h
    rfl

theorem launchRequest_ok (h : launchRequest host arguments = .ok spawn) :
    ∃ options console redirect,
      arrayOfStr false .any (Json.get? arguments "debugOptions") = .ok options ∧
      Json.enum consoles true (Json.get? arguments "console") = .ok console ∧
      propertyOrDebugOption arguments (strings options) "redirectOutput" "RedirectOutput" =
        .ok redirect ∧
      spawn.redirectOutput = redirect.getD (asStr console == "internalConsole") := by
  unfold launchRequest at h
  obtain ⟨options, hoptions, h⟩ := bind_ok.mp h
  obtain ⟨python, -, h⟩ := bind_ok.mp h
  obtain ⟨debugpyArgs, -, h⟩ := bind_ok.mp h
  obtain ⟨processName, -, h⟩ := bind_ok.mp h
  obtain ⟨env, -, h⟩ := bind_ok.mp h
  obtain ⟨console, hconsole, h⟩ := bind_ok.mp h
  obtain ⟨redirect, hredirect, h⟩ := bind_ok.mp h
  obtain ⟨onNormal, -, h⟩ := bind_ok.mp h
  obtain ⟨onAbnormal, -, h⟩ := bind_ok.mp h
  cases h
  exact ⟨options, console, redirect, request_ok hoptions, request_ok hconsole, hredirect, rfl⟩

-- ---------------------------------------------------------------------------
-- What the launcher accepts
-- ---------------------------------------------------------------------------

def NoDebug (arguments : Items) : Prop :=
  ∃ value, request arguments "noDebug" (Json.default (.bool false)) = .ok value ∧
    asBool value = true

/-- What is read unless `NoDebug`. -/
def debugProperties : List (String × Validator) :=
  [("port", isInt), ("subProcess", Json.default (.bool true)), ("qt", Json.enum qtModes true),
    ("adapterAccessToken", optionalStr), ("debugpyArgs", arrayOfStr false .any)]

def flags (arguments : Items) : List String := strings (Json.get? arguments "debugOptions")

def Wanted (arguments : Items) (propName flagName : String) : Prop :=
  flagName ∈ flags arguments ∨ (Json.get? arguments propName).any Json.truthy

structure Consistent (arguments : Items) (propName flagName : String) : Prop where
  property : Accepts arguments propName optionalBool
  flag : flagName ∈ flags arguments → Json.get? arguments propName ≠ some (.bool false)

structure CanWait (arguments : Items) (propName flagName : String) : Prop
    extends Consistent arguments propName flagName where
  console : Wanted arguments propName flagName →
    (Json.get? arguments "console").or (some (.str "internalConsole")) ≠
      some (.str "internalConsole")

def envChanges : Validator := Json.object (.types (.tuple [.str, .noneType]))

structure Launches (h : Host) (arguments : Items) : Prop where
  debugOptions : Accepts arguments "debugOptions" (arrayOfStr false .any)
  python : Accepts arguments "python" (arrayOfStr false (.atLeast 1))
  noDebug : Accepts arguments "noDebug" (Json.default (.bool false))
  debug : ¬ NoDebug arguments → ∀ p ∈ debugProperties, Accepts arguments p.1 p.2
  processName : Accepts arguments "processName" (Json.default (.str h.executable))
  env : Accepts arguments "env" envChanges
  /-- No variable is changed in two ways. -/
  unique : h.windows = true → ∀ changes,
    envChanges (Json.get? arguments "env") = .ok (some (.dict changes)) →
    ∀ p ∈ changes, ∀ q ∈ changes, h.upper p.1 = h.upper q.1 → sameValue p.2 q.2 = true
  console : Accepts arguments "console" (Json.enum consoles true)
  redirect : Consistent arguments "redirectOutput" "RedirectOutput"
  onNormal : CanWait arguments "waitOnNormalExit" "WaitOnNormalExit"
  onAbnormal : CanWait arguments "waitOnAbnormalExit" "WaitOnAbnormalExit"

theorem request_of_accepts (h : Accepts arguments key validate) :
    ∃ value, request arguments key validate = .ok value := by
  obtain ⟨value, hvalue⟩ := h
  exact ⟨value, by simp only [request, MessageDict.call, hvalue]⟩

theorem debugpyArguments_of_accepts (hnoDebug : Accepts arguments "noDebug" (Json.default (.bool false)))
    (hdebug : ¬ NoDebug arguments → ∀ p ∈ debugProperties, Accepts arguments p.1 p.2) :
    ∃ words, debugpyArguments h arguments = .ok words := by
  obtain ⟨noDebug, hvalue⟩ := request_of_accepts hnoDebug
  by_cases htrue : asBool noDebug = true
  · exact ⟨[], bind_ok.mpr ⟨_, hvalue, if_pos htrue⟩⟩
  · have hdebug := hdebug fun ⟨value, hok, ht⟩ => htrue (Except.ok.inj (hvalue.symm.trans hok) ▸ ht)
    simp only [debugProperties, List.forall_mem_cons] at hdebug
    obtain ⟨hport, hsub, hqt, htoken, hargs, -⟩ := hdebug
    obtain ⟨port, hport⟩ := request_of_accepts hport
    obtain ⟨subProcess, hsub⟩ := request_of_accepts hsub
    obtain ⟨qt, hqt⟩ := request_of_accepts hqt
    obtain ⟨token, htoken⟩ := request_of_accepts htoken
    obtain ⟨args, hargs⟩ := request_of_accepts hargs
    refine exists_bind_ok hvalue ?_
    rw [if_neg htrue]
    exact exists_bind_ok hport (exists_bind_ok hsub (exists_bind_ok hqt
      (exists_bind_ok htoken (exists_bind_ok hargs ⟨_, rfl⟩))))

theorem addChange_foldlM {changes todo acc : Items} (hsub : ∀ p ∈ todo, p ∈ changes)
    (hsame : ∀ p ∈ changes, ∀ q ∈ changes, h.upper p.1 = h.upper q.1 → sameValue p.2 q.2 = true)
    (hacc : ∀ key value, Json.get? acc key = some value →
      ∃ p ∈ changes, h.upper p.1 = key ∧ p.2 = value) :
    ∃ out, todo.foldlM (addChange h) acc = .ok out := by
  induction todo generalizing acc with
  | nil => exact ⟨acc, rfl⟩
  | cons q todo ih =>
    obtain ⟨hq, hsub⟩ := List.forall_mem_cons.mp hsub
    rw [List.foldlM_cons]
    cases hget : Json.get? acc (h.upper q.1) with
    | some value =>
      obtain ⟨p, hp, hupper, rfl⟩ := hacc _ _ hget
      have hstep : addChange h acc q = .ok acc := by
        simp only [addChange, hget, hsame p hp q hq hupper, if_true]
      obtain ⟨out, hout⟩ := ih hsub hacc
      exact ⟨out, bind_ok.mpr ⟨acc, hstep, hout⟩⟩
    | none =>
      have hstep : addChange h acc q = .ok (Json.set acc (h.upper q.1) q.2) := by
        simp only [addChange, hget]
      have hacc' : ∀ key value, Json.get? (Json.set acc (h.upper q.1) q.2) key = some value →
          ∃ p ∈ changes, h.upper p.1 = key ∧ p.2 = value := by
        intro key value hkey
        by_cases heq : key = h.upper q.1
        · rw [heq, Json.get?_set_self] at hkey
          exact ⟨q, hq, heq.symm, Option.some.inj hkey⟩
        · rw [Json.get?_set_ne _ heq] at hkey
          exact hacc key value hkey
      obtain ⟨out, hout⟩ := ih hsub hacc'
      exact ⟨out, bind_ok.mpr ⟨_, hstep, hout⟩⟩

theorem environment_of_accepts (henv : Accepts arguments "env" envChanges)
    (hunique : h.windows = true → ∀ changes,
      envChanges (Json.get? arguments "env") = .ok (some (.dict changes)) →
      ∀ p ∈ changes, ∀ q ∈ changes, h.upper p.1 = h.upper q.1 → sameValue p.2 q.2 = true) :
    ∃ env, environment h arguments = .ok env := by
  obtain ⟨value, hvalue⟩ := request_of_accepts henv
  obtain ⟨gevent, hgevent⟩ : ∃ value, request arguments "gevent" .ok = .ok value := ⟨_, rfl⟩
  -- Whatever the changes are, they are put into upper case on Windows.
  have hupper : ∀ (changes : Items) (rest : Items → Except Exn Items),
      (h.windows = true → ∀ p ∈ changes, ∀ q ∈ changes, h.upper p.1 = h.upper q.1 →
        sameValue p.2 q.2 = true) → (∀ changes, ∃ env, rest changes = .ok env) →
      ∃ env, (if h.windows then changes.foldlM (addChange h) [] >>= rest
        else pure changes >>= rest) = .ok env := by
    intro changes rest hsame hrest
    split
    · obtain ⟨out, hout⟩ : ∃ out, changes.foldlM (addChange h) [] = .ok out :=
        addChange_foldlM (fun p hp => hp) (hsame ‹_›) fun key value hkey => by cases hkey
      exact exists_bind_ok hout (hrest out)
    · exact exists_bind_ok rfl (hrest changes)
  have hnil : h.windows = true → ∀ p ∈ ([] : Items), ∀ q ∈ ([] : Items),
      h.upper p.1 = h.upper q.1 → sameValue p.2 q.2 = true :=
    fun _ p hp => absurd hp List.not_mem_nil
  refine exists_bind_ok hvalue ?_
  cases value with
  | none =>
    exact exists_bind_ok rfl (hupper [] _ hnil fun changes => exists_bind_ok hgevent ⟨_, rfl⟩)
  | some v =>
    cases v with
    | dict changes =>
      exact exists_bind_ok rfl (hupper changes _ (fun hw => hunique hw changes (request_ok hvalue))
        fun changes => exists_bind_ok hgevent ⟨_, rfl⟩)
    | _ => exact exists_bind_ok rfl (hupper [] _ hnil fun changes => exists_bind_ok hgevent ⟨_, rfl⟩)

theorem propertyOrDebugOption_of_consistent (h : Consistent arguments propName flagName) :
    ∃ value, propertyOrDebugOption arguments (flags arguments) propName flagName = .ok value ∧
      (value = some true → Wanted arguments propName flagName) := by
  obtain ⟨property, hproperty⟩ := request_of_accepts h.property
  obtain ⟨htruthy, hfalse⟩ := optionalBool_ok (request_ok hproperty)
  by_cases hflag : flagName ∈ flags arguments
  · refine ⟨some true, bind_ok.mpr ⟨property, hproperty, (if_pos hflag).trans (if_neg ?_)⟩,
      fun _ => .inl hflag⟩
    rw [htruthy]
    exact fun hf => h.flag hflag (hfalse hf)
  · refine ⟨_, bind_ok.mpr ⟨property, hproperty, if_neg hflag⟩, fun hvalue => .inr ?_⟩
    rw [htruthy] at hvalue
    obtain ⟨v, hv, ht⟩ := Option.map_eq_some_iff.mp hvalue
    rw [hv]
    exact ht

theorem waitOnExit_of_canWait (h : CanWait arguments propName flagName)
    (hconsole : Json.enum consoles true (Json.get? arguments "console") = .ok console)
    (predicate : Int → Bool) : ∃ predicates, waitOnExit arguments (flags arguments) (asStr console)
      propName flagName predicate = .ok predicates := by
  obtain ⟨value, hvalue, hwanted⟩ := propertyOrDebugOption_of_consistent h.toConsistent
  by_cases htrue : value = some true
  · have hne := h.console (hwanted htrue)
    refine ⟨[predicate], bind_ok.mpr ⟨value, hvalue, (if_pos htrue).trans (if_neg fun heq => ?_)⟩⟩
    rw [console_ok hconsole] at heq
    -- The console is one of the strings, so that its text tells which.
    cases hget : Json.get? arguments "console" with
    | none =>
      rw [hget] at hne
      exact hne rfl
    | some v =>
      rw [hget] at hne heq hconsole
      cases v with
      | str text =>
        have htext : text = "internalConsole" := heq
        exact hne (by rw [htext]; rfl)
      | _ => cases hconsole
  · exact ⟨[], bind_ok.mpr ⟨value, hvalue, if_neg htrue⟩⟩

theorem launchRequest_of_launches (h : Launches host arguments) :
    ∃ spawn, launchRequest host arguments = .ok spawn := by
  obtain ⟨options, hoptions⟩ := request_of_accepts h.debugOptions
  have hflags : strings options = flags arguments := strings_of_array (request_ok hoptions)
  obtain ⟨python, hpython⟩ := request_of_accepts h.python
  obtain ⟨words, hwords⟩ := debugpyArguments_of_accepts (h := host) h.noDebug h.debug
  obtain ⟨processName, hname⟩ := request_of_accepts h.processName
  obtain ⟨env, henv⟩ := environment_of_accepts h.env h.unique
  obtain ⟨console, hconsole⟩ := request_of_accepts h.console
  obtain ⟨redirect, hredirect, -⟩ := propertyOrDebugOption_of_consistent h.redirect
  obtain ⟨onNormal, honNormal⟩ := waitOnExit_of_canWait h.onNormal (request_ok hconsole) (· == 0)
  obtain ⟨onAbnormal, honAbnormal⟩ :=
    waitOnExit_of_canWait h.onAbnormal (request_ok hconsole) (· != 0)
  rw [← hflags] at hredirect honNormal honAbnormal
  exact exists_bind_ok hoptions (exists_bind_ok hpython (exists_bind_ok hwords
    (exists_bind_ok hname (exists_bind_ok henv (exists_bind_ok hconsole (exists_bind_ok hredirect
      (exists_bind_ok honNormal (exists_bind_ok honAbnormal ⟨_, rfl⟩))))))))

theorem get?_spawnArguments (h : key ≠ "port") (h' : key ≠ "adapterAccessToken") :
    Json.get? (spawnArguments noDebug server arguments) key = Json.get? arguments key := by
  unfold spawnArguments
  split
  · rfl
  · rw [Json.get?_set_ne _ h', Json.get?_set_ne _ h]

-- ---------------------------------------------------------------------------
-- Who redirects
-- ---------------------------------------------------------------------------

def isInternalConsole : Property → Bool
  | some (.str s) => s == "internalConsole"
  | _ => false

/-- The arguments ask the server to redirect the output. -/
def AsksRedirection (arguments : Items) : Prop :=
  (Json.get? arguments "redirectOutput").any Json.truthy ∨
    "RedirectOutput" ∈ strings (Json.get? arguments "debugOptions")

/-- Where the two decisions differ: redirection that is turned off for the
internal console, and the internal console by default. -/
def Differs (arguments : Items) (options : List String) : Prop :=
  (isInternalConsole (Json.get? arguments "console") ∧
      Json.get? arguments "redirectOutput" = some (.bool false)) ∨
    (Json.get? arguments "console" = none ∧ Json.get? arguments "redirectOutput" = none ∧
      "RedirectOutput" ∉ options)

def redirects (options : List String) (arguments : Items) : Bool :=
  isInternalConsole (Json.get? arguments "console") || options.contains "RedirectOutput" ||
    (Json.get? arguments "redirectOutput").any Json.truthy

/-- The arguments without the flag, which is all that the adapter changes in
them before it looks at `"redirectOutput"`. -/
def withoutFlag (options : List String) (d : Items) : Items :=
  if options.contains "RedirectOutput" then
    Json.set d "debugOptions"
      (.list (((options.filter (· != "RedirectOutput")).eraseDups).map .str))
  else d

theorem get?_withoutFlag (h : key ≠ "debugOptions") :
    Json.get? (withoutFlag options d) key = Json.get? d key := by
  unfold withoutFlag
  split
  · exact Json.get?_set_ne d h
  · rfl

theorem strings_map_str (xs : List String) : strings (some (.list (xs.map .str))) = xs := by
  simp [strings, asStr, Function.comp_def]

theorem not_mem_withoutFlag (hoptions : strings (Json.get? d "debugOptions") = options) :
    "RedirectOutput" ∉ strings (Json.get? (withoutFlag options d) "debugOptions") := by
  unfold withoutFlag
  split
  · rw [Json.get?_set_self, strings_map_str, List.mem_eraseDups]
    simp
  · rename_i hno
    rw [hoptions]
    simpa using hno

theorem launchArguments_eq (options : List String) (d : Items) :
    (launchArguments options d).2 =
      Json.set
        (if (Json.get? d "redirectOutput").any Json.truthy then
          Json.erase (withoutFlag options d) "redirectOutput" else withoutFlag options d)
        "isOutputRedirected" (.bool (redirects options d)) := by
  have hget : Json.get? (withoutFlag options d) "redirectOutput" = Json.get? d "redirectOutput" :=
    get?_withoutFlag (by decide)
  unfold redirects
  rw [← hget]
  rfl

theorem launchArguments_isOutputRedirected (options : List String) (d : Items) :
    Json.get? (launchArguments options d).2 "isOutputRedirected" =
      some (.bool (redirects options d)) := by
  rw [launchArguments_eq, Json.get?_set_self]

theorem not_asksRedirection_launchArguments
    (hoptions : strings (Json.get? d "debugOptions") = options) :
    ¬ AsksRedirection (launchArguments options d).2 := by
  have hflag := not_mem_withoutFlag hoptions
  rw [launchArguments_eq, AsksRedirection, Json.get?_set_ne _ (by decide),
    Json.get?_set_ne _ (by decide)]
  split
  · rw [Json.get?_erase_self, Json.get?_erase_ne _ (by decide)]
    simpa using hflag
  · rename_i hno
    rw [get?_withoutFlag (by decide)]
    simpa using ⟨by simpa using hno, hflag⟩

theorem spawn_redirectOutput (h : launchRequest host arguments = .ok spawn)
    (hoptions : strings (Json.get? arguments "debugOptions") = options) :
    (spawn.redirectOutput = true ↔ redirects options arguments = true) ↔
      ¬ Differs arguments options := by
  obtain ⟨value, console, redirect, hvalue, hconsole, hredirect, hspawn⟩ := launchRequest_ok h
  obtain ⟨property, hproperty, hflag⟩ := propertyOrDebugOption_ok hredirect
  obtain ⟨htruthy, hfalse⟩ := optionalBool_ok hproperty
  rw [strings_of_array hvalue, hoptions, htruthy] at hflag
  rw [hspawn, console_ok hconsole, redirects, Differs]
  by_cases hmem : "RedirectOutput" ∈ options
  · -- The flag decides, and the property does not deny it.
    rw [if_pos hmem] at hflag
    obtain ⟨rfl, hne⟩ := hflag
    have hno : Json.get? arguments "redirectOutput" ≠ some (.bool false) := by
      intro heq
      rw [heq] at hne
      exact hne rfl
    simp [hmem, hno]
  · rw [if_neg hmem] at hflag
    subst hflag
    cases hr : Json.get? arguments "redirectOutput" with
    | none =>
      -- The console decides; only a missing one is told apart.
      cases hc : Json.get? arguments "console" with
      | none => simp [hmem, isInternalConsole, asStr]
      | some x =>
        have heq : (asStr (some x) == "internalConsole") = isInternalConsole (some x) := by
          cases x <;> rfl
        simp [hmem, heq]
    | some x =>
      cases ht : x.truthy with
      | true =>
        have hne : x ≠ .bool false := by
          rintro rfl
          cases ht
        simp [hmem, ht, hne]
      | false =>
        rw [hr] at hfalse
        obtain rfl : x = .bool false := by simpa using hfalse (by simp [ht])
        simp [hmem, Json.truthy]

@[simp] theorem redirects_spawnArguments (options : List String) (arguments : Items) :
    redirects options (spawnArguments noDebug server arguments) = redirects options arguments := by
  unfold redirects
  rw [get?_spawnArguments (by decide) (by decide), get?_spawnArguments (by decide) (by decide)]

@[simp] theorem differs_spawnArguments (options : List String) (arguments : Items) :
    Differs (spawnArguments noDebug server arguments) options ↔ Differs arguments options := by
  unfold Differs
  rw [get?_spawnArguments (by decide) (by decide), get?_spawnArguments (by decide) (by decide)]

/-- The adapter has read the flags of a start request. -/
def ReadsOptions (s : Adapter.Start) : Prop :=
  ∃ d value, s.request.arguments = .dict d ∧
    arrayOfStr false .any (Json.get? d "debugOptions") = .ok value ∧
    s.debugOptions = strings value

/-- For a launch request that both accept, what the adapter tells the server
is what the launcher does, but for the arguments that `Differs` lists; and the
server is never asked for redirection when it is told that the output is
redirected. -/
theorem isOutputRedirected_iff_spawn (s : Adapter.Start) (d : Items) (hd : s.request.arguments = .dict d)
    (hs : ReadsOptions s) (host : Host) (noDebug : Bool) (server : Int × Json) (spawn : Spawn)
    (h : launchRequest host (spawnArguments noDebug server d) = .ok spawn) :
    ∃ sent, (s.serverArguments true).1 = .dict sent ∧
      ((Json.get? sent "isOutputRedirected" = some (.bool true) ↔ spawn.redirectOutput = true) ↔
        ¬ Differs d s.debugOptions) ∧
      (Json.get? sent "isOutputRedirected" = some (.bool true) → ¬ AsksRedirection sent) := by
  obtain ⟨d', value, hd', hvalue, hoptions⟩ := hs
  cases hd.symm.trans hd'
  rw [strings_of_array hvalue] at hoptions
  refine ⟨(launchArguments s.debugOptions d).2, by simp [Adapter.Start.serverArguments, hd], ?_, ?_⟩
  · have hread :
        strings (Json.get? (spawnArguments noDebug server d) "debugOptions") = s.debugOptions := by
      rw [get?_spawnArguments (by decide) (by decide)]
      exact hoptions.symm
    have hiff := spawn_redirectOutput h hread
    rw [redirects_spawnArguments, differs_spawnArguments] at hiff
    rw [launchArguments_isOutputRedirected, ← hiff]
    simp only [Option.some.injEq, Json.bool.injEq]
    exact ⟨Iff.symm, Iff.symm⟩
  · exact fun _ => not_asksRedirection_launchArguments hoptions.symm

def linuxHost : Host :=
  { windows := false, upper := id, frozenModules := true, debugpyDir := "/debugpy"
    adapterHost := "127.0.0.1", argv := ["a.py"], executable := "python", environ := [] }

def startOf (d : Items) : Adapter.Start :=
  { request := { id := 1, command := "launch", arguments := .dict d }, debugOptions := [] }

/-- A client that has a terminal. -/
def terminalClient : Adapter.World :=
  { client := { capabilities := some [("supportsRunInTerminalRequest", .bool true)] } }

/-- The start request with which the adapter waits for the launcher, when it
has accepted the arguments. -/
def acceptedLaunch (d : Items) : Option Adapter.Start :=
  match ((Adapter.launchRequest (startOf d)).run terminalClient).2.suspended with
  | some (.launcher start _) => some start
  | _ => none

/-- What the adapter makes of the arguments of a program that is debugged. -/
def programArguments (d : Items) : Items :=
  d ++ [("pythonArgs", .list []), ("python", .list [.str "python"]), ("processName", .str "a.py")]

def terminalArguments : Items :=
  [("program", .str "a.py"), ("console", .str "integratedTerminal")]

theorem isOutputRedirected_terminal : ∃ spawn sent,
    acceptedLaunch terminalArguments = some (startOf (programArguments terminalArguments)) ∧
      launchRequest linuxHost (spawnArguments false (5678, .str "token")
        (programArguments terminalArguments)) = .ok spawn ∧
      ((Json.get? sent "isOutputRedirected" = some (.bool true) ↔ spawn.redirectOutput = true) ↔
        ¬ Differs (programArguments terminalArguments) []) := by
  obtain ⟨sent, -, hiff, -⟩ := isOutputRedirected_iff_spawn
    (startOf (programArguments terminalArguments)) (programArguments terminalArguments) rfl
    ⟨_, _, rfl, rfl, rfl⟩ linuxHost false (5678, .str "token") _ rfl
  exact ⟨_, sent, rfl, rfl, hiff⟩

/-- Without `"console"` the launcher takes the internal one, and the adapter
none. -/
theorem not_isOutputRedirected_default : ∃ spawn,
    acceptedLaunch [("program", .str "a.py")] =
        some (startOf (programArguments [("program", .str "a.py")])) ∧
      launchRequest linuxHost (spawnArguments false (5678, .str "token")
        (programArguments [("program", .str "a.py")])) = .ok spawn ∧
      spawn.redirectOutput = true ∧
      ∃ sent, ((startOf (programArguments [("program", .str "a.py")])).serverArguments true).1 =
        .dict sent ∧ Json.get? sent "isOutputRedirected" = some (.bool false) :=
  ⟨_, rfl, rfl, rfl, _, rfl, rfl⟩

end Debugpy.Launcher
