import Debugpy.Common.JsonText
import Debugpy.Common.Stream
import Debugpy.Lib.Literal
import Debugpy.Lib.Utf8
import Debugpy.Server.Attach

/-!
# The injected code

`attach_to_pid` writes a line of Python that another process runs. What is in
the line is read back by the statements it is made of, one definition for each
of them; any other text is not run here at all.
-/

namespace Debugpy.Injection

-- ---------------------------------------------------------------------------
-- The code
-- ---------------------------------------------------------------------------

def encode (s : String) : List Nat := (utf8Encode s).map UInt8.toNat

/-- `setup`, with any text where the options have one of a few. -/
structure Setup where
  mode : Option String
  address : Option (String × Int)
  waitForClient : Bool
  logTo : Option String
  adapterAccessToken : Option String
  deriving DecidableEq, Repr

/-- JSON has a list where the address is a tuple. -/
def Setup.items (s : Setup) : List (String × Json) :=
  [("mode", Cli.optional .str s.mode),
    ("address", Cli.optional (fun a => .list [.str a.1, .int a.2]) s.address),
    ("wait_for_client", .bool s.waitForClient),
    ("log_to", Cli.optional .str s.logTo),
    ("adapter_access_token", Cli.optional .str s.adapterAccessToken)]

def Setup.ofOptions (o : Cli.Options) : Setup :=
  ⟨o.mode.map Cli.modeText, o.address, o.waitForClient, o.logTo, o.adapterAccessToken⟩

theorem items_ofOptions : (Setup.ofOptions o).items = Cli.setup o := by
  cases h : o.mode <;> simp [Setup.ofOptions, Setup.items, Cli.setup, Cli.optional, h]

/-- The template up to `script_dir`. -/
def templateHead : String :=
  "\nimport codecs;\nimport json;\nimport sys;\n\n" ++
  "decode = lambda s: codecs.utf_8_decode(bytearray(s))[0] if s is not None else None;\n\n" ++
  "script_dir = decode("

def templateMiddle : String := ");\nsetup = json.loads(decode("

/-- The template from behind `setup`. -/
def templateTail : String :=
  "));\n\nsys.path.insert(0, script_dir);\nimport attach_pid_injected;\ndel sys.path[0];\n\n" ++
  "attach_pid_injected.attach(setup);\n"

/-- `replace("\\r", "").replace("\\n", "")`. -/
def oneLine (s : String) : List Char := (s.toList.filter (· ≠ '\r')).filter (· ≠ '\n')

/-- `python_code`, unless `json.dumps` raises. -/
def pythonCode (scriptDir : String) (setup : Setup) : Option (List Char) :=
  (Json.dumps (.dict setup.items)).map fun text =>
    oneLine templateHead ++ Literal.listText (encode scriptDir) ++ oneLine templateMiddle ++
      Literal.listText (encode (String.ofList text)) ++ oneLine templateTail

def remoteScript (pythonCode : List Char) (tmpFilePath : String) : Bytes :=
  utf8Encode (String.ofList pythonCode) ++
    utf8Encode ("import os;os.remove(\"" ++ tmpFilePath ++ "\");")

def forbidden : List Char := ['"', '\'', '\r', '\n']

inductive Injected where
  /-- `sys.remote_exec` with the file of this path and these contents. -/
  | remoteExec (path : String) (contents : Bytes)
  | runPythonCode (code : List Char)
  deriving DecidableEq, Repr

/-- What `attach_to_pid` does with the code; `tmpFilePath` is none when a step
of the first way raises. -/
def inject (disableSysRemoteExec hasRemoteExec : Bool) (tmpFilePath : Option String)
    (code : List Char) : Except Exn Injected :=
  let pydevd := if code.any (· ∈ forbidden) then .error .assertionError
    else .ok (.runPythonCode code)
  if !disableSysRemoteExec && hasRemoteExec then
    match tmpFilePath with
    | some path => .ok (.remoteExec path (remoteScript code path))
    | none => pydevd
  else pydevd

-- ---------------------------------------------------------------------------
-- Its statements
-- ---------------------------------------------------------------------------

inductive Stmt where
  | importing (module : String)
  | defineDecode
  | setScriptDir (bytes : List Nat)
  | setSetup (bytes : List Nat)
  | insertScriptDir
  | deleteFirst
  | attach
  | remove (path : String)
  deriving DecidableEq, Repr

def isName (c : Char) : Bool := c.isAlphanum || c = '_'

open Scan (Scanner)

variable {named : List Char → Option Char}

/-- A statement by the text it starts with, and how the rest of it is read. -/
def forms (named : List Char → Option Char) : List (String × Scanner Stmt) :=
  [("import ", fun l =>
      if l.takeWhile isName = [] then none
      else some (.importing (String.ofList (l.takeWhile isName)), l.dropWhile isName)),
    ("decode = lambda s: codecs.utf_8_decode(bytearray(s))[0] if s is not None else None",
      fun l => some (.defineDecode, l)),
    ("script_dir = decode(", fun l => (Literal.readList l).bind fun x =>
      (x.2.dropPrefix? ")".toList).map fun l => (.setScriptDir x.1, l)),
    ("setup = json.loads(decode(", fun l => (Literal.readList l).bind fun x =>
      (x.2.dropPrefix? "))".toList).map fun l => (.setSetup x.1, l)),
    ("sys.path.insert(0, script_dir)", fun l => some (.insertScriptDir, l)),
    ("del sys.path[0]", fun l => some (.deleteFirst, l)),
    ("attach_pid_injected.attach(setup)", fun l => some (.attach, l)),
    ("os.remove(", fun l => (Literal.readString named l).bind fun x =>
      (x.2.dropPrefix? ")".toList).map fun l => (.remove (String.ofList x.1), l))]

def readStmt (named : List Char → Option Char) : Scanner Stmt := Scan.oneOf (forms named)

/-- Statements with a `;` after each, which the last one may lack. -/
def readProgram (named : List Char → Option Char) : Nat → List Char → Option (List Stmt)
  | 0, _ => none
  | _ + 1, [] => some []
  | n + 1, l => (readStmt named l).bind fun x =>
    match x.2 with
    | [] => some [x.1]
    | ';' :: l => (readProgram named n l).map (x.1 :: ·)
    | _ => none

-- ---------------------------------------------------------------------------
-- What it does
-- ---------------------------------------------------------------------------

def bytearray (ns : List Nat) : Option Bytes :=
  ns.mapM fun n => if n < 256 then some n.toUInt8 else none

/-- `codecs.utf_8_decode(bs)[0]`: a character that is cut off at the end is left out. -/
def utf8DecodeStart (bs : Bytes) : Option String :=
  (utf8Decode bs).or <| [1, 2, 3].findSome? fun k =>
    if Utf8.classify ((bs.drop (bs.length - k)).map UInt8.toNat) = .incomplete then
      utf8Decode (bs.take (bs.length - k))
    else none

def decode (ns : List Nat) : Option String := (bytearray ns).bind utf8DecodeStart

/-- What the statements work on; `foundIn` is the directory that is searched
first for `attach_pid_injected`. -/
structure Interpreter where
  modules : List String := []
  decodes : Bool := false
  scriptDir : Option String := none
  setup : Option Json := none
  path : List String
  foundIn : Option String := none
  attached : List Json := []
  removed : List String := []

/-- One statement; none if it raises. -/
def exec (st : Interpreter) : Stmt → Option Interpreter
  | .importing m => some { st with
      modules := m :: st.modules
      foundIn := if m = "attach_pid_injected" then st.path.head? else st.foundIn }
  | .defineDecode => some { st with decodes := true }
  | .setScriptDir bytes =>
    if st.decodes ∧ "codecs" ∈ st.modules then
      (decode bytes).map fun s => { st with scriptDir := some s }
    else none
  | .setSetup bytes =>
    if st.decodes ∧ "codecs" ∈ st.modules ∧ "json" ∈ st.modules then
      ((decode bytes).bind fun s => Json.loads s.toList).map fun v => { st with setup := some v }
    else none
  | .insertScriptDir =>
    if "sys" ∈ st.modules then st.scriptDir.map fun d => { st with path := d :: st.path } else none
  | .deleteFirst => match st.path with
    | [] => none
    | _ :: path => if "sys" ∈ st.modules then some { st with path } else none
  | .attach =>
    if "attach_pid_injected" ∈ st.modules then
      st.setup.map fun v => { st with attached := st.attached ++ [v] }
    else none
  | .remove path =>
    if "os" ∈ st.modules then some { st with removed := st.removed ++ [path] } else none

def run (named : List Char → Option Char) (path : List String) (code : List Char) :
    Option Interpreter :=
  (readProgram named (code.length + 1) code).bind fun stmts =>
    stmts.foldlM exec { path }

def runFile (named : List Char → Option Char) (path : List String) (contents : Bytes) :
    Option Interpreter :=
  (utf8Decode contents).bind fun s => run named path s.toList

-- ---------------------------------------------------------------------------
-- The statements are read back
-- ---------------------------------------------------------------------------

/-- How the code spells a statement. -/
def Stmt.text : Stmt → List Char
  | .importing m => "import ".toList ++ m.toList
  | .defineDecode =>
    "decode = lambda s: codecs.utf_8_decode(bytearray(s))[0] if s is not None else None".toList
  | .setScriptDir bytes => "script_dir = decode(".toList ++ Literal.listText bytes ++ ")".toList
  | .setSetup bytes => "setup = json.loads(decode(".toList ++ Literal.listText bytes ++ "))".toList
  | .insertScriptDir => "sys.path.insert(0, script_dir)".toList
  | .deleteFirst => "del sys.path[0]".toList
  | .attach => "attach_pid_injected.attach(setup)".toList
  | .remove path => "os.remove(\"".toList ++ path.toList ++ "\")".toList

def Readable (named : List Char → Option Char) (s : Stmt) : Prop :=
  ∀ rest, readStmt named (s.text ++ ';' :: rest) = some (s, ';' :: rest)

theorem forms_clash : ((forms named).map Prod.fst).Pairwise Scan.Clash := by
  have hkeywords : ["import ",
      "decode = lambda s: codecs.utf_8_decode(bytearray(s))[0] if s is not None else None",
      "script_dir = decode(", "setup = json.loads(decode(", "sys.path.insert(0, script_dir)",
      "del sys.path[0]", "attach_pid_injected.attach(setup)", "os.remove("].Pairwise Scan.Clash := by
    decide +kernel
  exact hkeywords

theorem readStmt_form (hmem : (w, f) ∈ forms named) : readStmt named (w.toList ++ l) = f l :=
  Scan.oneOf_eq forms_clash hmem

theorem readable_importing (hname : m.toList.all isName = true) (hne : m.toList ≠ []) :
    Readable named (.importing m) := by
  intro rest
  have hm : ∀ c ∈ m.toList, isName c := List.all_eq_true.mp hname
  have htake : (m.toList ++ ';' :: rest).takeWhile isName = m.toList := by
    rw [List.takeWhile_append_of_pos hm]
    simp [isName]
  have hdrop : (m.toList ++ ';' :: rest).dropWhile isName = ';' :: rest := by
    rw [List.dropWhile_append_of_pos hm]
    simp [isName]
  change readStmt named (("import ".toList ++ m.toList) ++ ';' :: rest) = _
  rw [List.append_assoc]
  refine (readStmt_form (.head _)).trans ?_
  simp only [htake, hdrop, if_neg hne, String.ofList_toList]

theorem readable_setScriptDir : Readable named (.setScriptDir bytes) := by
  intro rest
  change readStmt named
    (("script_dir = decode(".toList ++ Literal.listText bytes ++ ")".toList) ++ ';' :: rest) = _
  rw [List.append_assoc, List.append_assoc]
  refine (readStmt_form (.tail _ (.tail _ (.head _)))).trans ?_
  rw [Literal.readList_listText, Option.bind_some, List.dropPrefix?_append_of_beq _ (by simp)]
  rfl

theorem readable_setSetup : Readable named (.setSetup bytes) := by
  intro rest
  change readStmt named
    (("setup = json.loads(decode(".toList ++ Literal.listText bytes ++ "))".toList) ++ ';' :: rest) = _
  rw [List.append_assoc, List.append_assoc]
  refine (readStmt_form (.tail _ (.tail _ (.tail _ (.head _))))).trans ?_
  rw [Literal.readList_listText, Option.bind_some, List.dropPrefix?_append_of_beq _ (by simp)]
  rfl

theorem readable_defineDecode : Readable named .defineDecode := fun _ =>
  readStmt_form (.tail _ (.head _))

theorem readable_insertScriptDir : Readable named .insertScriptDir := fun _ =>
  readStmt_form (.tail _ (.tail _ (.tail _ (.tail _ (.head _)))))

theorem readable_deleteFirst : Readable named .deleteFirst := fun _ =>
  readStmt_form (.tail _ (.tail _ (.tail _ (.tail _ (.tail _ (.head _))))))

theorem readable_attach : Readable named .attach := fun _ =>
  readStmt_form (.tail _ (.tail _ (.tail _ (.tail _ (.tail _ (.tail _ (.head _)))))))

def program (stmts : List Stmt) : List Char := stmts.flatMap fun s => s.text ++ [';']

theorem program_append : program (stmts ++ stmts') = program stmts ++ program stmts' :=
  List.flatMap_append

theorem length_program : stmts.length ≤ (program stmts).length := by
  induction stmts with
  | nil => simp
  | cons s stmts ih =>
    simp only [program, List.flatMap_cons, List.length_append, List.length_cons] at ih ⊢
    omega

theorem readProgram_cons (h : readStmt named l = some (s, ';' :: l')) (hl : l ≠ []) :
    readProgram named (n + 1) l = (readProgram named n l').map (s :: ·) := by
  rw [readProgram, h]
  · rfl
  · exact hl

theorem readProgram_first (h : readProgram named n l = some stmts) (hl : l ≠ []) :
    ∃ s l' rest, readStmt named l = some (s, l') ∧ stmts = s :: rest := by
  rcases n with _ | n
  · cases h
  rw [readProgram] at h
  · obtain ⟨⟨s, l'⟩, hread, h⟩ := Option.bind_eq_some_iff.mp h
    refine ⟨s, l', ?_⟩
    simp only at h
    split at h
    · cases h
      exact ⟨_, hread, rfl⟩
    · obtain ⟨rest, -, rfl⟩ := Option.map_eq_some_iff.mp h
      exact ⟨rest, hread, rfl⟩
    · cases h
  · exact hl

theorem readProgram_append (h : ∀ s ∈ stmts, Readable named s) :
    readProgram named (stmts.length + n) (program stmts ++ l) =
      (readProgram named n l).map (stmts ++ ·) := by
  induction stmts with
  | nil => simp [program]
  | cons s stmts ih =>
    obtain ⟨hs, hstmts⟩ := List.forall_mem_cons.mp h
    have htext : program (s :: stmts) ++ l = s.text ++ ';' :: (program stmts ++ l) := by
      simp [program]
    rw [htext, List.length_cons, Nat.add_right_comm, readProgram_cons (hs _) (by simp),
      ih hstmts, Option.map_map]
    rfl

/-- The statements of the code; `text` is the JSON of the setup. -/
def statements (scriptDir text : String) : List Stmt :=
  [.importing "codecs", .importing "json", .importing "sys", .defineDecode,
    .setScriptDir (encode scriptDir), .setSetup (encode text), .insertScriptDir,
    .importing "attach_pid_injected", .deleteFirst, .attach]

theorem readable_statements : ∀ s ∈ statements scriptDir text, Readable named s := by
  simp only [statements, List.forall_mem_cons]
  refine ⟨?_, ?_, ?_, readable_defineDecode, readable_setScriptDir, readable_setSetup,
    readable_insertScriptDir, ?_, readable_deleteFirst, readable_attach, by simp⟩
  all_goals exact readable_importing (by decide) (by decide)

theorem oneLine_templateHead : oneLine templateHead =
    program [.importing "codecs", .importing "json", .importing "sys", .defineDecode] ++
      "script_dir = decode(".toList := by
  decide +kernel

theorem oneLine_templateMiddle :
    oneLine templateMiddle = ")".toList ++ [';'] ++ "setup = json.loads(decode(".toList := by
  decide +kernel

theorem oneLine_templateTail : oneLine templateTail = "))".toList ++ [';'] ++
    program [.insertScriptDir, .importing "attach_pid_injected", .deleteFirst, .attach] := by
  decide +kernel

theorem template_allowed : ∀ t ∈ [templateHead, templateMiddle, templateTail],
    ∀ c ∈ oneLine t, c ∉ forbidden := by
  have hhead : (oneLine templateHead).all (· ∉ forbidden) = true := by decide +kernel
  have hmiddle : (oneLine templateMiddle).all (· ∉ forbidden) = true := by decide +kernel
  have htail : (oneLine templateTail).all (· ∉ forbidden) = true := by decide +kernel
  simp only [List.all_eq_true, decide_eq_true_eq] at hhead hmiddle htail
  simp only [List.forall_mem_cons]
  exact ⟨hhead, hmiddle, htail, by simp⟩

theorem pythonCode_eq : pythonCode scriptDir setup =
    (Json.dumps (.dict setup.items)).map fun text =>
      program (statements scriptDir (String.ofList text)) := by
  have hdir : program [.setScriptDir (encode scriptDir)] =
      "script_dir = decode(".toList ++ Literal.listText (encode scriptDir) ++ ")".toList ++ [';'] :=
    List.flatMap_singleton _ _
  have hsetup (text : List Char) : program [.setSetup (encode (String.ofList text))] =
      "setup = json.loads(decode(".toList ++ Literal.listText (encode (String.ofList text)) ++
        "))".toList ++ [';'] :=
    List.flatMap_singleton _ _
  have hsplit (text : List Char) : statements scriptDir (String.ofList text) =
      [Stmt.importing "codecs", .importing "json", .importing "sys", .defineDecode] ++
        ([Stmt.setScriptDir (encode scriptDir)] ++ ([Stmt.setSetup (encode (String.ofList text))] ++
          [Stmt.insertScriptDir, .importing "attach_pid_injected", .deleteFirst, .attach])) := rfl
  simp only [pythonCode, oneLine_templateHead, oneLine_templateMiddle, oneLine_templateTail, hsplit,
    program_append, hdir, hsetup, List.append_assoc]

-- ---------------------------------------------------------------------------
-- What the code does
-- ---------------------------------------------------------------------------

theorem bytearray_encode (s : String) : bytearray (encode s) = some (utf8Encode s) := by
  unfold bytearray encode
  induction utf8Encode s with
  | nil => rfl
  | cons b bs ih =>
    rw [List.map_cons, List.mapM_cons, if_pos b.toNat_lt, ih]
    simp

theorem decode_encode (s : String) : decode (encode s) = some s := by
  simp [decode, bytearray_encode, utf8DecodeStart]

theorem distinct_items (s : Setup) : Json.Distinct (.dict s.items) := by
  have hoptional {α : Type} (f : α → Json) (o : Option α) (h : ∀ a, Json.Distinct (f a)) :
      Json.Distinct (Cli.optional f o) := by
    cases o with
    | none => trivial
    | some a => exact h a
  have hkeys : ["mode", "address", "wait_for_client", "log_to", "adapter_access_token"].Nodup := by
    decide
  refine ⟨hkeys, hoptional _ _ fun _ => trivial, hoptional _ _ fun _ => ?_, trivial,
    hoptional _ _ fun _ => trivial, hoptional _ _ fun _ => trivial, trivial⟩
  exact ⟨trivial, trivial, trivial⟩

/-- The port is an integer that `str` writes. -/
def Writable (s : Setup) : Prop :=
  ∀ address ∈ s.address, address.2.natAbs < 10 ^ PyInt.maxStrDigits

theorem dumps_items (hs : Writable s) : ∃ text, Json.dumps (.dict s.items) = some text := by
  have htext (o : Option String) : ∃ text, Json.dumps (Cli.optional .str o) = some text := by
    cases o with
    | none => exact ⟨_, rfl⟩
    | some t => exact ⟨_, rfl⟩
  obtain ⟨mode, hmode⟩ := htext s.mode
  obtain ⟨logTo, hlog⟩ := htext s.logTo
  obtain ⟨token, htoken⟩ := htext s.adapterAccessToken
  obtain ⟨address, haddress⟩ : ∃ text, Json.dumps
      (Cli.optional (fun a => .list [.str a.1, .int a.2]) s.address) = some text := by
    cases ha : s.address with
    | none => exact ⟨_, rfl⟩
    | some a => simp [Cli.optional, Json.dumps, Json.dumpsAll, hs a ha]
  simp [Setup.items, Json.dumps, Json.dumpsItems, hmode, hlog, htoken, haddress]

/-- The interpreter once `attach` has been called with the dict that the text
is loaded as. -/
def attached (path : List String) (scriptDir : String) (setup : List (String × Json)) :
    Interpreter :=
  { modules := ["attach_pid_injected", "sys", "json", "codecs"]
    decodes := true
    scriptDir := some scriptDir
    setup := some (.dict setup)
    path := path
    foundIn := some scriptDir
    attached := [.dict setup] }

theorem exec_statements (h : Json.loads text.toList = some (.dict setup)) :
    (statements scriptDir text).foldlM exec { path } = some (attached path scriptDir setup) := by
  simp [statements, exec, decode_encode, h, attached]

theorem run_program (h : ∀ s ∈ stmts, Readable named s) :
    run named path (program stmts) = stmts.foldlM exec { path } := by
  obtain ⟨n, hn⟩ : ∃ n, (program stmts).length + 1 = stmts.length + (n + 1) := by
    have hle := @length_program stmts
    exact ⟨(program stmts).length - stmts.length, by omega⟩
  have hread := readProgram_append (n := n + 1) (l := []) h
  rw [List.append_nil] at hread
  rw [run, hn, hread]
  simp [readProgram]

theorem listText_safe : ∀ c ∈ Literal.listText ns, c ∉ forbidden := by
  intro c hc hmem
  simp only [forbidden, List.mem_cons, List.not_mem_nil, or_false] at hmem
  rcases Literal.mem_listText hc with hdigit | hpunctuation
  · rcases hmem with rfl | rfl | rfl | rfl <;> cases hdigit
  · rcases hmem with rfl | rfl | rfl | rfl <;> exact absurd hpunctuation (by decide)

theorem pythonCode_safe (h : pythonCode scriptDir setup = some code) : ∀ c ∈ code, c ∉ forbidden := by
  obtain ⟨text, -, rfl⟩ := Option.map_eq_some_iff.mp h
  intro c hc
  simp only [List.mem_append] at hc
  rcases hc with (((hc | hc) | hc) | hc) | hc
  · exact template_allowed _ (.head _) c hc
  · exact listText_safe c hc
  · exact template_allowed _ (.tail _ (.head _)) c hc
  · exact listText_safe c hc
  · exact template_allowed _ (.tail _ (.tail _ (.head _))) c hc

theorem run_pythonCode (scriptDir : String) (hs : Writable setup) : ∃ text,
    pythonCode scriptDir setup = some (program (statements scriptDir text)) ∧
      ∀ path, (statements scriptDir text).foldlM exec { path } =
        some (attached path scriptDir setup.items) := by
  obtain ⟨text, htext⟩ := dumps_items hs
  have hload := Json.loads_dumps htext (distinct_items setup)
  refine ⟨String.ofList text, ?_, fun path => exec_statements ?_⟩
  · rw [pythonCode_eq, htext]
    rfl
  · rwa [String.toList_ofList]

/-- The code has no forbidden character, so the assertion holds, and run in any
process it takes the two texts apart again. -/
theorem pythonCode_faithful (named : List Char → Option Char) (path : List String)
    (scriptDir : String) (setup : Setup) (hsetup : Writable setup) :
    ∃ code, pythonCode scriptDir setup = some code ∧
      (∀ c ∈ code, c ∉ forbidden) ∧
      (∀ disable has, inject disable has none code = .ok (.runPythonCode code)) ∧
      ∃ final, run named path code = some final ∧ final.scriptDir = some scriptDir ∧
        final.setup = some (.dict setup.items) := by
  obtain ⟨text, hcode, hexec⟩ := run_pythonCode scriptDir hsetup
  have hsafe := pythonCode_safe hcode
  have hany : (program (statements scriptDir text)).any (· ∈ forbidden) = false := by
    simpa using hsafe
  refine ⟨_, hcode, hsafe, fun disable has => ?_, _,
    (run_program readable_statements).trans (hexec path), rfl, rfl⟩
  simp [inject, hany]

theorem pythonCode_faithful_quotes :
    ∃ code, pythonCode "/opt/ü \"x\"" ⟨some "listen", some ("::1", 5678), true, some "a'\n", none⟩ =
        some code ∧ (∀ c ∈ code, c ∉ forbidden) ∧
      (∀ disable has, inject disable has none code = .ok (.runPythonCode code)) ∧
      ∃ final, run (fun _ => none) [] code = some final ∧ final.scriptDir = some "/opt/ü \"x\"" ∧
        final.setup = some (.dict (Setup.items
          ⟨some "listen", some ("::1", 5678), true, some "a'\n", none⟩)) :=
  pythonCode_faithful _ _ _ _ fun address h => by
    cases h
    exact PyInt.lt_of_port (by decide)

-- ---------------------------------------------------------------------------
-- The two ways
-- ---------------------------------------------------------------------------

/-- Both ways call `attach` with the dict that the options make, once, and the
first one also removes the temporary file and nothing else. -/
def SameAttach (named : List Char → Option Char) (path : List String) (o : Cli.Options)
    (scriptDir tmpFilePath : String) : Prop :=
  ∃ code, pythonCode scriptDir (.ofOptions o) = some code ∧
    (∃ final, run named path code = some final ∧ final.attached = [.dict (Cli.setup o)] ∧
      final.removed = []) ∧
    ∃ final, runFile named path (remoteScript code tmpFilePath) = some final ∧
      final.attached = [.dict (Cli.setup o)] ∧ final.removed = [tmpFilePath]

theorem utf8Encode_append : utf8Encode (s ++ t) = utf8Encode s ++ utf8Encode t := by
  simp [utf8Encode]

/-- The text behind `os.remove("`. -/
def afterRemove (tmpFilePath : String) : List Char := tmpFilePath.toList ++ '"' :: ");".toList

theorem length_lt_afterRemove :
    tmpFilePath.toList.length < (afterRemove tmpFilePath).length + 1 := by
  simp only [afterRemove, List.length_append, List.length_cons]
  omega

theorem toList_removal : ("import os;os.remove(\"" ++ tmpFilePath ++ "\");").toList =
    program [.importing "os"] ++ ("os.remove(".toList ++ '"' :: afterRemove tmpFilePath) := by
  have hfirst : "import os;os.remove(\"".toList =
      program [.importing "os"] ++ ("os.remove(".toList ++ ['"']) := by decide +kernel
  have hlast : "\");".toList = '"' :: ");".toList := by decide +kernel
  rw [String.toList_append, String.toList_append, hfirst, hlast, afterRemove]
  simp

theorem readStmt_remove : readStmt named ("os.remove(".toList ++ '"' :: l) =
    (Literal.readBody named (l.length + 1) l).bind fun x =>
      (x.2.dropPrefix? ")".toList).map fun l => (.remove (String.ofList x.1), l) :=
  readStmt_form (.tail _ (.tail _ (.tail _ (.tail _ (.tail _ (.tail _ (.tail _ (.head _))))))))

theorem exec_removed {st st' : Interpreter} {s : Stmt} (h : exec st s = some st') :
    st.removed <+: st'.removed := by
  cases s with
  | importing m | defineDecode =>
    cases h
    exact List.prefix_rfl
  | setScriptDir bytes | setSetup bytes | insertScriptDir =>
    simp only [exec] at h
    split at h
    · obtain ⟨_, -, rfl⟩ := Option.map_eq_some_iff.mp h
      exact List.prefix_rfl
    · cases h
  | deleteFirst =>
    simp only [exec] at h
    split at h
    · cases h
    · split at h
      · cases h
        exact List.prefix_rfl
      · cases h
  | attach =>
    simp only [exec] at h
    split at h
    · obtain ⟨_, -, rfl⟩ := Option.map_eq_some_iff.mp h
      exact List.prefix_rfl
    · cases h
  | remove path =>
    simp only [exec] at h
    split at h
    · cases h
      exact List.prefix_append _ _
    · cases h

theorem foldlM_removed {stmts : List Stmt} {st final : Interpreter}
    (h : stmts.foldlM exec st = some final) : st.removed <+: final.removed := by
  induction stmts generalizing st with
  | nil =>
    cases h
    exact List.prefix_rfl
  | cons s stmts ih =>
    obtain ⟨st', hexec, h⟩ := Option.bind_eq_some_iff.mp h
    exact (exec_removed hexec).trans (ih h)

theorem verbatim_of_removed {st final : Interpreter}
    (h : readProgram named n ("os.remove(".toList ++ '"' :: afterRemove tmpFilePath) = some more)
    (hexec : more.foldlM exec st = some final) (hst : st.removed = [])
    (hfinal : final.removed = [tmpFilePath]) : Literal.Verbatim tmpFilePath.toList := by
  obtain ⟨s, l, rest, hread, rfl⟩ := readProgram_first h (by simp)
  rw [readStmt_remove] at hread
  obtain ⟨⟨s, r⟩, hbody, hread⟩ := Option.bind_eq_some_iff.mp hread
  obtain ⟨_, -, heq⟩ := Option.map_eq_some_iff.mp hread
  cases heq
  obtain ⟨st', hfirst, hrest⟩ := Option.bind_eq_some_iff.mp hexec
  have hremoved := foldlM_removed hrest
  simp only [exec] at hfirst
  split at hfirst
  · cases hfirst
    rw [hst, hfinal] at hremoved
    have hs : s = tmpFilePath.toList := by
      obtain ⟨_, heq⟩ := hremoved
      rw [← (List.cons_eq_cons.mp heq).1, String.toList_ofList]
    subst hs
    exact ((Literal.readBody_self (by decide) length_lt_afterRemove).mp hbody).1
  · cases hfirst

theorem readProgram_removal (h : Literal.Verbatim tmpFilePath.toList) :
    readProgram named (n + 2) ("os.remove(".toList ++ '"' :: afterRemove tmpFilePath) =
      some [.remove tmpFilePath] := by
  have hbody : Literal.readBody named ((afterRemove tmpFilePath).length + 1)
      (afterRemove tmpFilePath) = some (tmpFilePath.toList, ");".toList) :=
    Literal.readBody_verbatim h length_lt_afterRemove
  have hstmt : readStmt named ("os.remove(".toList ++ '"' :: afterRemove tmpFilePath) =
      some (.remove tmpFilePath, [';']) := by
    rw [readStmt_remove, hbody, Option.bind_some, String.ofList_toList]
    rfl
  rw [readProgram_cons hstmt (by simp)]
  rfl

/-- The file is run as the statements of the code, then `import os`, then what
is read behind it. -/
theorem runFile_remoteScript (path : List String) (tmpFilePath : String)
    (hs : ∀ s ∈ stmts, Readable named s) : ∃ n,
    runFile named path (remoteScript (program stmts) tmpFilePath) =
      (readProgram named (n + 2) ("os.remove(".toList ++ '"' :: afterRemove tmpFilePath)).bind
        fun more => (stmts ++ [Stmt.importing "os"] ++ more).foldlM exec { path } := by
  have hall : ∀ s ∈ stmts ++ [Stmt.importing "os"], Readable named s := by
    intro s hmem
    rcases List.mem_append.mp hmem with hmem | hmem
    · exact hs s hmem
    · rw [List.mem_singleton.mp hmem]
      exact readable_importing (by decide) (by decide)
  have hsource : utf8Decode (remoteScript (program stmts) tmpFilePath) =
      some (String.ofList (program stmts) ++ ("import os;os.remove(\"" ++ tmpFilePath ++ "\");")) := by
    rw [remoteScript, ← utf8Encode_append, utf8Decode_encode]
  have htext : (String.ofList (program stmts) ++
      ("import os;os.remove(\"" ++ tmpFilePath ++ "\");")).toList =
      program (stmts ++ [Stmt.importing "os"]) ++
        ("os.remove(".toList ++ '"' :: afterRemove tmpFilePath) := by
    rw [String.toList_append, String.toList_ofList, toList_removal, program_append, List.append_assoc]
  rw [runFile, hsource, Option.bind_some, run, htext]
  have henough : (stmts ++ [Stmt.importing "os"]).length + 2 ≤
      (program (stmts ++ [Stmt.importing "os"]) ++
        ("os.remove(".toList ++ '"' :: afterRemove tmpFilePath)).length + 1 := by
    have hle := @length_program (stmts ++ [Stmt.importing "os"])
    simp only [List.length_append, List.length_cons] at hle ⊢
    omega
  obtain ⟨n, hn⟩ := Nat.exists_eq_add_of_le henough
  rw [Nat.add_right_comm, Nat.add_assoc] at hn
  refine ⟨n, ?_⟩
  rw [hn, readProgram_append hall, Option.bind_map]
  rfl

/-- The two ways do the same exactly when the path is written as it is in a
string of Python. -/
theorem sameAttach_iff_verbatim (hs : Writable (.ofOptions o)) :
    SameAttach named path o scriptDir tmpFilePath ↔ Literal.Verbatim tmpFilePath.toList := by
  obtain ⟨text, hcode, hexec⟩ := run_pythonCode scriptDir hs
  rw [items_ofOptions] at hexec
  obtain ⟨n, hfile⟩ := runFile_remoteScript path tmpFilePath
    (@readable_statements named scriptDir text)
  have hstart : (statements scriptDir text ++ [Stmt.importing "os"]).foldlM exec { path } =
      exec (attached path scriptDir (Cli.setup o)) (.importing "os") := by
    rw [List.foldlM_append, hexec]
    rfl
  constructor
  · rintro ⟨code, hcode', -, final, hrun, -, hremoved⟩
    cases hcode.symm.trans hcode'
    rw [hfile] at hrun
    obtain ⟨more, hread, hrun⟩ := Option.bind_eq_some_iff.mp hrun
    rw [List.foldlM_append, hstart] at hrun
    exact verbatim_of_removed hread hrun rfl hremoved
  · intro h
    refine ⟨_, hcode, ⟨_, (run_program readable_statements).trans (hexec path), rfl, rfl⟩, ?_⟩
    rw [hfile, readProgram_removal h, Option.bind_some, List.foldlM_append, hstart]
    exact ⟨_, rfl, rfl, rfl⟩

theorem writable_ofOptions (h : Cli.parseArgs rt argv extraArgv = .ok (o, argv')) :
    Writable (.ofOptions o) := by
  intro address ha
  obtain ⟨hge, hlt⟩ := Cli.parseArgs_port h address ha
  exact PyInt.lt_of_port (by omega)

/-- With any options that the command line gives, the two ways run the same
attach, and the first one cleans up, exactly for these paths. -/
theorem routes_agree_iff (named : List Char → Option Char) (path : List String)
    (h : Cli.parseArgs rt argv extraArgv = .ok (o, argv')) (scriptDir tmpFilePath : String) :
    SameAttach named path o scriptDir tmpFilePath ↔ Literal.Verbatim tmpFilePath.toList :=
  sameAttach_iff_verbatim (writable_ofOptions h)

theorem routes_agree_spaces : SameAttach (fun _ => none) []
    (Cli.settle [Cli.listenGiven, Cli.pidTarget] {}) "/opt/debugpy/server" "/tmp/it's ü/tmpk3j2" :=
  (routes_agree_iff _ _ (Cli.parseArgs_listenPid []) _ _).mpr
    (Literal.verbatim_of_all (by decide +kernel) ⟨by decide +kernel, by decide +kernel⟩)

/-- In a path of Windows a backslash starts escapes; here `\U` is not even a
complete one. -/
theorem backslashes_break :
    Cli.parseArgs Cli.ipv4 (Cli.listenPid []) none =
      .ok (Cli.settle [Cli.listenGiven, Cli.pidTarget] {}, ["debugpy"]) ∧
    (Cli.settle [Cli.listenGiven, Cli.pidTarget] {}).targetKind = some .pid ∧
    ¬ SameAttach (fun _ => none) [] (Cli.settle [Cli.listenGiven, Cli.pidTarget] {})
      "C:\\debugpy\\server" "C:\\Users\\me\\AppData\\Local\\Temp\\tmpk3j2" := by
  have hparse := Cli.parseArgs_listenPid []
  refine ⟨hparse, rfl, fun h => ?_⟩
  have hverbatim := (sameAttach_iff_verbatim (writable_ofOptions hparse)).mp h
  have hnext := hverbatim.unescaped.next
  revert hnext
  decide +kernel

end Debugpy.Injection
