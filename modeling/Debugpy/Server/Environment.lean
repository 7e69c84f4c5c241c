import Debugpy.Server.Sentence

/-!
# The command line and the environment

The loop over `DEBUGPY_EXTRA_ARGV` skips the switches that the command line
has, by their spelling; the next turn then goes on with what would have been
the value. `commandLine_wins_iff` says when the options of the command line
come through, and no such value is carried out.
-/

namespace Debugpy.Cli

-- ---------------------------------------------------------------------------
-- The last setting of an option
-- ---------------------------------------------------------------------------

inductive Field where
  | logTo
  | logToStderr
  | address
  | waitForClient
  | qt
  | subProcess
  | parentSessionPid
  | adapterAccessToken
  | disableSysRemoteExec
  | target
  deriving DecidableEq, Repr

/-- The option that is set; mode and address are one, and so are target and kind. -/
def Setting.field : Setting → Field
  | .logTo _ => .logTo
  | .logToStderr => .logToStderr
  | .address .. => .address
  | .waitForClient => .waitForClient
  | .qt _ => .qt
  | .subProcess _ => .subProcess
  | .parentSessionPid _ => .parentSessionPid
  | .adapterAccessToken _ => .adapterAccessToken
  | .disableSysRemoteExec => .disableSysRemoteExec
  | .target .. => .target

/-- The option has the value that is set. -/
def Setting.Holds (o : Options) (s : Setting) : Prop := s.apply o = o

theorem Setting.apply_holds (s : Setting) : Setting.Holds (s.apply o) s := by
  cases s <;> rfl

theorem Setting.apply_comm (hf : Setting.field s ≠ Setting.field s') :
    s.apply (s'.apply o) = s'.apply (s.apply o) := by
  cases s <;> cases s' <;> first | rfl | exact absurd rfl hf

theorem Setting.holds_apply (h : Setting.Holds o s) (hf : s.field ≠ s'.field) :
    Setting.Holds (Setting.apply o s') s := by
  rw [Holds, apply_comm hf, h]

theorem Setting.holds_unique (h : Setting.Holds o s) (h' : Setting.Holds o s')
    (hf : s.field = s'.field) : s = s' := by
  obtain ⟨⟩ := o
  unfold Holds at h h'
  cases s <;> cases s' <;> simp_all [apply, field] <;> grind

/-- What the last switch for the option sets it to. -/
def lastSetting (f : Field) (given : List Given) : Option Setting :=
  ((settings given).filter (·.field == f)).getLast?

theorem lastSetting_append : lastSetting f (given ++ more) =
    (lastSetting f more).or (lastSetting f given) := by
  simp [lastSetting, settings, List.getLast?_append]

theorem lastSetting_field (h : lastSetting f given = some s) : s.field = f := by
  have hmem := List.mem_of_getLast? h
  simpa using (List.mem_filter.mp hmem).2

theorem lastSetting_holds (h : lastSetting f given = some s) : s.Holds (settle given o) := by
  induction given using List.reverseRecOn with
  | nil => cases h
  | append_singleton given g ih =>
    rw [settle_concat]
    by_cases hg : g.setting.field = f
    · have hlast : lastSetting f [g] = some g.setting := by simp [lastSetting, settings, hg]
      rw [lastSetting_append, hlast, Option.some_or] at h
      obtain rfl := Option.some.inj h
      exact g.setting.apply_holds
    · have hnone : lastSetting f [g] = none := by simp [lastSetting, settings, hg]
      rw [lastSetting_append, hnone, Option.none_or] at h
      refine Setting.holds_apply (ih h) ?_
      rw [lastSetting_field h]
      exact Ne.symm hg

-- ---------------------------------------------------------------------------
-- The turns of the loop
-- ---------------------------------------------------------------------------

inductive Turn where
  | skip (arg : String)
  | carryOut (g : Given)

def carried : List Turn → List Given
  | [] => []
  | .skip _ :: turns => carried turns
  | .carryOut g :: turns => g :: carried turns

/-- The loop over the environment goes over `args` in these turns, if the
command line has the switches `seen`. -/
inductive Walks (rt : Runtime) (seen : List String) : List String → List Turn → Prop
  | nil : Walks rt seen [] []
  | skip : switchOf arg ∈ seen → Walks rt seen it turns → Walks rt seen (arg :: it) (.skip arg :: turns)
  | carryOut : switchOf arg ∉ seen → Sets OrNewline rt (arg :: values) s → Walks rt seen rest turns →
      Walks rt seen (arg :: (values ++ rest)) (.carryOut ⟨arg :: values, s⟩ :: turns)

theorem environment_ok (h : parseArgsHelper rt true args seen o = .ok (seen', o', rest)) :
    ∃ turns, Walks rt seen.fromCommandLine args turns ∧ o' = settle (carried turns) o := by
  induction hn : args.length using Nat.strong_induction_on generalizing args seen o with
  | _ n ih =>
    cases args with
    | nil =>
      rw [parseArgsHelper] at h
      cases h
      exact ⟨[], .nil, rfl⟩
    | cons arg it =>
      rw [List.length_cons] at hn
      obtain ⟨-, h⟩ := parseArgsHelper_cons.mp h
      split at h
      · next hs =>
        obtain ⟨turns, hw, rfl⟩ := ih it.length (by omega) h.2 rfl
        exact ⟨.skip arg :: turns, .skip hs.2 hw, rfl⟩
      · next hs =>
        obtain ⟨values, s, tail, hset, rfl, -, h⟩ := h
        rw [List.length_append] at hn
        obtain ⟨turns, hw, rfl⟩ := ih tail.length (by omega) h rfl
        exact ⟨.carryOut ⟨arg :: values, s⟩ :: turns, .carryOut (fun hc => hs ⟨rfl, hc⟩) hset hw, rfl⟩

theorem Walks.unique (h : Walks rt seen args turns) (h' : Walks rt seen args turns') :
    turns = turns' := by
  induction h generalizing turns' with
  | nil =>
    cases h'
    rfl
  | skip hs _ ih =>
    cases h' with
    | skip _ h' => rw [ih h']
    | carryOut hs' => exact absurd hs hs'
  | @carryOut arg values s rest turns hs hset _ ih =>
    generalize he : arg :: (values ++ rest) = args at h'
    cases h' with
    | nil => cases he
    | skip hs' =>
      cases he
      exact absurd hs' hs
    | carryOut _ hset' h' =>
      obtain ⟨rfl, htail⟩ := List.cons.inj he
      obtain ⟨rfl, rfl, rfl⟩ := hset.unique hset' htail
      rw [ih h']

-- ---------------------------------------------------------------------------
-- Values of switches that are skipped
-- ---------------------------------------------------------------------------

/-- The switch takes the next argument; a positional one is its own value. -/
def takesValue (rt : Runtime) (arg : String) : Bool :=
  switchOf arg != "" && (lookup rt (switchOf arg)).any (·.placeholder.isSome)

/-- The turn after that of a switch that is skipped does not carry out its
value: the value is skipped as a switch that the command line has as well. -/
def ValuesUnread (rt : Runtime) : List Turn → Prop
  | .skip arg :: .skip value :: turns =>
    if takesValue rt arg then ValuesUnread rt turns else ValuesUnread rt (.skip value :: turns)
  | .skip arg :: .carryOut _ :: turns => takesValue rt arg = false ∧ ValuesUnread rt turns
  | .carryOut _ :: turns => ValuesUnread rt turns
  | [.skip _] | [] => True

/-- After each switch in `args` that the command line has, its value is spelled
like one that the command line has. -/
def valuesSkipped (rt : Runtime) (seen : List String) : List String → Bool
  | arg :: value :: it =>
    if takesValue rt arg then
      (!seen.contains (switchOf arg) || seen.contains (switchOf value)) && valuesSkipped rt seen it
    else valuesSkipped rt seen (value :: it)
  | _ => true

theorem Sets.takesValue_eq (h : Sets OrNewline rt (arg :: values) s) :
    values.length = if takesValue rt arg then 1 else 0 := by
  cases h with
  | qt => rfl
  | subProcess => rfl
  | noSubProcess => rfl
  | file h =>
    have hswitch : switchOf arg = "" := by
      rw [switchOf, h]
      rfl
    simp [takesValue, hswitch]
  | logTo h => rcases h with rfl | rfl <;> rfl
  | logToStderr h => rcases h with rfl | rfl <;> rfl
  | listenAt h => rcases h with rfl | rfl <;> rfl
  | connectTo h => rcases h with rfl | rfl <;> rfl
  | waitForClient h => rcases h with rfl | rfl <;> rfl
  | parentSessionPid h => rcases h with rfl | rfl <;> rfl
  | noParentSessionPid h => rcases h with rfl | rfl <;> rfl
  | adapterAccessToken h => rcases h with rfl | rfl <;> rfl
  | disableSysRemoteExec h => rcases h with rfl | rfl <;> rfl
  | module h => rcases h with rfl | rfl <;> rfl
  | code h => rcases h with rfl | rfl <;> rfl
  | pid h => rcases h with rfl | rfl <;> rfl

theorem Walks.nil_turns (h : Walks rt seen [] turns) : turns = [] := by
  cases h
  rfl

theorem Walks.valuesUnread_iff (h : Walks rt seen args turns) :
    ValuesUnread rt turns ↔ valuesSkipped rt seen args = true := by
  induction hn : args.length using Nat.strong_induction_on generalizing args turns with
  | _ n ih =>
    cases h with
    | nil => simp [ValuesUnread, valuesSkipped]
    | @skip arg it turns hs hw =>
      rw [List.length_cons] at hn
      cases hw with
      | nil => simp [ValuesUnread, valuesSkipped]
      | @skip value it turns hs' hw' =>
        rw [List.length_cons] at hn
        cases ht : takesValue rt arg with
        | true => simpa [ValuesUnread, valuesSkipped, ht, hs'] using ih it.length (by omega) hw' rfl
        | false =>
          simpa [ValuesUnread, valuesSkipped, ht] using
            ih (value :: it).length (by simp; omega) (.skip hs' hw') rfl
      | @carryOut value values s rest turns hs' hset hw' =>
        cases ht : takesValue rt arg with
        | true => simp [ValuesUnread, valuesSkipped, ht, hs, hs']
        | false =>
          simpa [ValuesUnread, valuesSkipped, ht] using
            ih (value :: (values ++ rest)).length (by omega) (.carryOut hs' hset hw') rfl
    | @carryOut arg values s rest turns hs hset hw =>
      have hlen := hset.takesValue_eq
      rw [List.length_cons, List.length_append] at hn
      have hrest := ih rest.length (by omega) hw rfl
      cases ht : takesValue rt arg with
      | true =>
        obtain ⟨value, rfl⟩ := List.length_eq_one_iff.mp (hlen.trans (by rw [ht]; rfl))
        simpa [ValuesUnread, valuesSkipped, ht, hs] using hrest
      | false =>
        obtain rfl := List.length_eq_zero_iff.mp (hlen.trans (by rw [ht]; rfl))
        cases rest with
        | nil => 
          obtain rfl := hw.nil_turns
          simp [ValuesUnread, valuesSkipped]
        | cons value it => simpa [ValuesUnread, valuesSkipped, ht] using hrest

-- ---------------------------------------------------------------------------
-- The command line wins
-- ---------------------------------------------------------------------------

/-- How the two loops read `argv` and the environment. -/
structure Sources (rt : Runtime) (argv : List String) (extraArgv : String) (given : List Given)
    (turns : List Turn) : Prop where
  commandLine : ∃ rest, argv.tail = wordsOf given ++ rest ∧
    (∀ g ∈ given, Sets OrNewline rt g.words g.setting) ∧ Ends rest given
  environment : Walks rt (given.map Given.switch) (split extraArgv) turns

theorem Walks.congr (hm : ∀ switch, switch ∈ seen ↔ switch ∈ seen')
    (h : Walks rt seen args turns) : Walks rt seen' args turns := by
  induction h with
  | nil => exact .nil
  | skip hs _ ih => exact .skip ((hm _).mp hs) ih
  | carryOut hs hset _ ih => exact .carryOut (fun hs' => hs ((hm _).mpr hs')) hset ih

theorem parseArgs_sources (h : parseArgs rt argv (some extraArgv) = .ok (o, argv')) :
    ∃ given turns, Sources rt argv extraArgv given turns ∧
      o = settle (given ++ carried turns) {} := by
  obtain ⟨⟨seen, o₁, rest⟩, hc, h⟩ := bind_ok.mp h
  obtain ⟨o₂, he, h⟩ := bind_ok.mp h
  obtain ⟨_, -, h⟩ := bind_ok.mp h
  cases h
  obtain ⟨given, hargs, hall, -, hends, rfl, rfl⟩ := (commandLine_iff rfl).mp hc
  have hsame (switch : String) : switch ∈ ((Seen.addAll {} given).fromCommandLine) ↔
      switch ∈ given.map Given.switch := by
    simp [Seen.addAll]
  simp only [parseArgsFromEnvironment] at he
  split at he
  · next hempty =>
    cases he
    subst hempty
    refine ⟨given, [], ⟨⟨rest, hargs, hall, hends⟩, .nil⟩, ?_⟩
    rw [carried, List.append_nil]
  · obtain ⟨⟨_, o₃, _⟩, henv, hr⟩ := bind_ok.mp he
    cases hr
    obtain ⟨turns, hw, rfl⟩ := environment_ok henv
    refine ⟨given, turns, ⟨⟨rest, hargs, hall, hends⟩, hw.congr hsame⟩, ?_⟩
    rw [settle_append]

theorem Sources.unique (h : Sources rt argv extraArgv given turns)
    (h' : Sources rt argv extraArgv given' turns') : given = given' ∧ turns = turns' := by
  obtain ⟨⟨rest, hargs, hall, hends⟩, hw⟩ := h
  obtain ⟨⟨rest', hargs', hall', hends'⟩, hw'⟩ := h'
  obtain ⟨rfl, -⟩ := given_unique hall hall' hends hends' (hargs.symm.trans hargs')
  exact ⟨rfl, hw.unique hw'⟩

/-- The options that the command line sets keep its values, and no value of a
switch that is skipped is carried out, exactly when the environment sets none
of these options to another value in the end and every such value is skipped
in its turn. -/
theorem commandLine_wins_iff (h : parseArgs rt argv (some extraArgv) = .ok (o, argv'))
    (hs : Sources rt argv extraArgv given turns) :
    ((∀ f s, lastSetting f given = some s → s.Holds o) ∧ ValuesUnread rt turns) ↔
      (∀ f s s', lastSetting f given = some s → lastSetting f (carried turns) = some s' → s = s') ∧
        valuesSkipped rt (given.map Given.switch) (split extraArgv) = true := by
  obtain ⟨given', turns', hs', rfl⟩ := parseArgs_sources h
  obtain ⟨rfl, rfl⟩ := hs.unique hs'
  rw [hs.environment.valuesUnread_iff]
  refine and_congr_left fun _ => ⟨?_, ?_⟩
  · intro hkept f s s' hg hc
    have hlast : lastSetting f (given ++ carried turns) = some s' := by
      rw [lastSetting_append, hc, Option.some_or]
    exact Setting.holds_unique (hkept f s hg) (lastSetting_holds hlast)
      ((lastSetting_field hg).trans (lastSetting_field hc).symm)
  · intro hagree f s hg
    have hlast : lastSetting f (given ++ carried turns) = some s := by
      rw [lastSetting_append, hg]
      cases hc : lastSetting f (carried turns) with
      | none => rfl
      | some s' => rw [Option.some_or, hagree f s s' hg hc]
    exact lastSetting_holds hlast

def connectGiven : Given := ⟨["--connect", "8888"], .address .connect ("127.0.0.1", 8888)⟩

def spamFile : Given := ⟨["spam.py"], .target .file (.text "spam.py")⟩

def spamModule : Given := ⟨["-m", "spam"], .target .module (.text "spam")⟩

theorem sets_connectGiven : Sets OrNewline ipv4 connectGiven.words connectGiven.setting :=
  .connectTo (.inl rfl) ⟨by decide +kernel, by decide, by decide⟩

theorem split_connect : split "--connect 5678" = ["--connect", "5678"] := by decide +kernel

theorem spamFile_sources :
    Sources ipv4 ["debugpy", "--connect", "8888", "spam.py"] "--connect 5678"
      [connectGiven, spamFile] [.skip "--connect", .skip "5678"] where
  commandLine := by
    refine ⟨[], rfl, List.forall_mem_cons.mpr ⟨sets_connectGiven, ?_⟩, rfl⟩
    exact List.forall_mem_singleton.mpr (.file (by decide))
  environment := split_connect ▸ .skip (by decide) (.skip (by decide) .nil)

theorem spamModule_sources :
    Sources ipv4 ["debugpy", "--connect", "8888", "-m", "spam"] "--connect 5678"
      [connectGiven, spamModule]
      [.skip "--connect", .carryOut ⟨["5678"], .target .file (.text "5678")⟩] where
  commandLine := by
    refine ⟨[], rfl, List.forall_mem_cons.mpr ⟨sets_connectGiven, ?_⟩, rfl⟩
    exact List.forall_mem_singleton.mpr (.module (.inl rfl))
  environment := by
    have hset : Sets OrNewline ipv4 ["5678"] (.target .file (.text "5678")) := .file (by decide)
    have hw : Walks ipv4 ["--connect", "-m"] ("5678" :: ([] ++ []))
        [.carryOut ⟨["5678"], .target .file (.text "5678")⟩] := .carryOut (by decide) hset .nil
    rw [split_connect]
    exact .skip (by decide) hw

/-- The value of the switch that is skipped is skipped as another target. -/
theorem commandLine_wins_override :
    (∀ f s, lastSetting f [connectGiven, spamFile] = some s →
      s.Holds (settle [connectGiven, spamFile] {})) ∧
      ValuesUnread ipv4 [.skip "--connect", .skip "5678"] := by
  have h : parseArgs ipv4 ["debugpy", "--connect", "8888", "spam.py"] (some "--connect 5678") =
      .ok (settle [connectGiven, spamFile] {}, ["debugpy"]) := by
    decide +kernel
  refine (commandLine_wins_iff h spamFile_sources).mpr ⟨fun f s s' _ hc => ?_, by decide +kernel⟩
  cases hc

/-- The value of the switch that is skipped becomes the target. -/
theorem environment_takes_target :
    ¬ ∀ o argv' given turns,
      parseArgs ipv4 ["debugpy", "--connect", "8888", "-m", "spam"] (some "--connect 5678") =
        .ok (o, argv') →
      Sources ipv4 ["debugpy", "--connect", "8888", "-m", "spam"] "--connect 5678" given turns →
      (∀ f s, lastSetting f given = some s → s.Holds o) ∧ ValuesUnread ipv4 turns := by
  intro h
  have hp : parseArgs ipv4 ["debugpy", "--connect", "8888", "-m", "spam"] (some "--connect 5678") =
      .ok ({ mode := some .connect, address := some ("127.0.0.1", 8888),
             target := some (.text "5678"), targetKind := some .file }, ["debugpy"]) := by
    decide +kernel
  obtain ⟨hkept, -⟩ := h _ _ _ _ hp spamModule_sources
  have htarget := hkept .target spamModule.setting rfl
  cases congrArg Options.targetKind htarget

end Debugpy.Cli
