import Debugpy.Server.Cli
import Mathlib.Data.List.Basic

/-!
# The grammar of the command line

What the switches say, one rule for each, against what the loop does with
them. The rules are stated twice over, by how a switch may be spelled: as the
table has it, or also with a newline after it, which `$` lets pass.
`parseArgs_iff_sentence_iff` says for which command lines that matters.
-/

namespace Debugpy.Cli

-- ---------------------------------------------------------------------------
-- Rules
-- ---------------------------------------------------------------------------

inductive Setting where
  | logTo (path : String)
  | logToStderr
  | address (mode : Mode) (address : String × Int)
  | waitForClient
  | qt (value : String)
  | subProcess (value : Bool)
  | parentSessionPid (pid : Option Int)
  | adapterAccessToken (token : String)
  | disableSysRemoteExec
  | target (kind : TargetKind) (target : Target)
  deriving DecidableEq, Repr

def Setting.apply (o : Options) : Setting → Options
  | .logTo path => { o with logTo := some path }
  | .logToStderr => { o with logToStderr := true }
  | .address m a => { o with mode := some m, address := some a }
  | .waitForClient => { o with waitForClient := true }
  | .qt v => { o with config := { o.config with qt := v } }
  | .subProcess v => { o with config := { o.config with subProcess := v } }
  | .parentSessionPid pid => { o with parentSessionPid := pid }
  | .adapterAccessToken token => { o with adapterAccessToken := some token }
  | .disableSysRemoteExec => { o with disableSysRemoteExec := true }
  | .target kind t => { o with targetKind := some kind, target := some t }

def Setting.isAddress : Setting → Bool
  | .address .. => true
  | _ => false

def Setting.isTarget : Setting → Bool
  | .target .. => true
  | _ => false

/-- `spelling name arg` if `arg` is taken for the switch `name`. -/
abbrev Spelling := String → String → Prop

def Exact : Spelling := fun name arg => arg = name

def OrNewline : Spelling := fun name arg => arg = name ∨ arg = name ++ "\n"

def IsAddress (rt : Runtime) (value : String) (address : String × Int) : Prop :=
  readAddress rt value = address ∧ 0 ≤ address.2 ∧ address.2 < 65536

/-- `words` are a switch, with its value if it takes one, that sets the setting. -/
inductive Sets (spelling : Spelling) (rt : Runtime) : List String → Setting → Prop
  | logTo : spelling "--log-to" arg → Sets spelling rt [arg, path] (.logTo path)
  | logToStderr : spelling "--log-to-stderr" arg → Sets spelling rt [arg] .logToStderr
  | listenAt : spelling "--listen" arg → IsAddress rt value address →
      Sets spelling rt [arg, value] (.address .listen address)
  | connectTo : spelling "--connect" arg → IsAddress rt value address →
      Sets spelling rt [arg, value] (.address .connect address)
  | waitForClient : spelling "--wait-for-client" arg → Sets spelling rt [arg] .waitForClient
  | qt : Sets spelling rt ["--configure-qt", value] (.qt value)
  | subProcess : lower value = "true" →
      Sets spelling rt ["--configure-subProcess", value] (.subProcess true)
  | noSubProcess : lower value = "false" →
      Sets spelling rt ["--configure-subProcess", value] (.subProcess false)
  | parentSessionPid : spelling "--parent-session-pid" arg → PyInt.ofString value = some pid →
      Sets spelling rt [arg, value] (.parentSessionPid (some pid))
  | noParentSessionPid : spelling "--parent-session-pid" arg →
      Sets spelling rt [arg, ""] (.parentSessionPid none)
  | adapterAccessToken : spelling "--adapter-access-token" arg →
      Sets spelling rt [arg, token] (.adapterAccessToken token)
  | disableSysRemoteExec : spelling "--disable-sys-remote-exec" arg →
      Sets spelling rt [arg] .disableSysRemoteExec
  | file : "-".toList.isPrefixOf name.toList = false →
      Sets spelling rt [name] (.target .file (.text name))
  | module : spelling "-m" arg → Sets spelling rt [arg, name] (.target .module (.text name))
  | code : spelling "-c" arg → Sets spelling rt [arg, code] (.target .code (.text code))
  | pid : spelling "--pid" arg → PyInt.ofString value = some n → 0 ≤ n →
      Sets spelling rt [arg, value] (.target .pid (.pid n))

theorem Sets.mono (hs : ∀ name arg, spelling name arg → other name arg)
    (h : Sets spelling rt words s) : Sets other rt words s := by
  cases h with
  | logTo h => exact .logTo (hs _ _ h)
  | logToStderr h => exact .logToStderr (hs _ _ h)
  | listenAt h ha => exact .listenAt (hs _ _ h) ha
  | connectTo h ha => exact .connectTo (hs _ _ h) ha
  | waitForClient h => exact .waitForClient (hs _ _ h)
  | qt => exact .qt
  | subProcess h => exact .subProcess h
  | noSubProcess h => exact .noSubProcess h
  | parentSessionPid h hv => exact .parentSessionPid (hs _ _ h) hv
  | noParentSessionPid h => exact .noParentSessionPid (hs _ _ h)
  | adapterAccessToken h => exact .adapterAccessToken (hs _ _ h)
  | disableSysRemoteExec h => exact .disableSysRemoteExec (hs _ _ h)
  | file h => exact .file h
  | module h => exact .module (hs _ _ h)
  | code h => exact .code (hs _ _ h)
  | pid h hv hn => exact .pid (hs _ _ h) hv hn

-- ---------------------------------------------------------------------------
-- Actions
-- ---------------------------------------------------------------------------

theorem perform_ok {s : Switch} : s.perform switch arg it o = .ok r ↔ s.action arg it o = .ok r := by
  unfold Switch.perform
  split <;> simp_all
  split <;> simp

theorem next_ok : next it = .ok (value, rest) ↔ it = value :: rest.1 := by
  obtain ⟨rest, hr⟩ := rest
  cases it with
  | nil => simp [next]
  | cons a it => simp [next]

theorem setArg_ok : setArg parser store arg it o = .ok (o', rest) ↔
    ∃ value a, it = value :: rest.1 ∧ parser value = .ok a ∧ o' = store a o := by
  simp only [setArg, bind_ok, Prod.exists, next_ok, pure, Except.pure, Except.ok.injEq, Prod.mk.injEq]
  constructor
  · rintro ⟨value, _, hit, a, ha, rfl, rfl⟩
    exact ⟨value, a, hit, ha, rfl⟩
  · rintro ⟨value, a, hit, ha, rfl⟩
    exact ⟨value, rest, hit, a, ha, rfl, rfl⟩

theorem setConst_ok : setConst store arg it o = .ok (o', rest) ↔ rest.1 = it ∧ o' = store o := by
  obtain ⟨rest, hr⟩ := rest
  simp only [setConst, Iter.all, Except.ok.injEq, Prod.mk.injEq, Subtype.mk.injEq]
  constructor
  · rintro ⟨rfl, rfl⟩
    exact ⟨rfl, rfl⟩
  · rintro ⟨rfl, rfl⟩
    exact ⟨rfl, rfl⟩

theorem setAddress_ok : setAddress rt mode arg it o = .ok (o', rest) ↔
    o.address = none ∧ ∃ value a, it = value :: rest.1 ∧ IsAddress rt value a ∧
      o' = { o with mode := some mode, address := some a } := by
  unfold setAddress
  cases ho : o.address with
  | some a => simp [throw, throwThe, MonadExceptOf.throw]
  | none =>
    simp only [Option.isSome_none, Bool.false_eq_true, if_false, bind_ok, true_and]
    constructor
    · rintro ⟨⟨value, rest'⟩, hn, h⟩
      simp only at h
      split at h
      · next hp =>
        cases h
        exact ⟨value, _, next_ok.mp hn, ⟨rfl, hp⟩, rfl⟩
      · cases h
    · rintro ⟨value, a, hit, ⟨rfl, hp⟩, rfl⟩
      refine ⟨(value, rest), next_ok.mpr hit, ?_⟩
      simp only
      rw [if_pos hp]
      rfl

theorem parseInt_ok : parseInt rt s = .ok n ↔ PyInt.ofString s = some n := by
  unfold parseInt
  split <;> simp_all

theorem parsePid_ok : parsePid rt s = .ok n ↔ PyInt.ofString s = some n ∧ 0 ≤ n := by
  simp only [parsePid, bind_ok, parseInt_ok]
  constructor
  · rintro ⟨m, hm, h⟩
    split at h
    · cases h
    · next hneg =>
      cases h
      exact ⟨hm, Int.not_lt.mp hneg⟩
  · rintro ⟨hn, hpos⟩
    exact ⟨n, hn, if_neg (Int.not_lt.mpr hpos)⟩

theorem parseParentPid_ok : parseParentPid rt s = .ok pid ↔
    s = "" ∧ pid = none ∨ ∃ n, PyInt.ofString s = some n ∧ pid = some n := by
  by_cases hs : s = ""
  · subst hs
    have hempty : PyInt.ofString "" = none := by decide
    simp [parseParentPid, hempty, eq_comm]
  · simp only [parseParentPid, hs, if_false, false_and, false_or, map_ok, parseInt_ok]
    exact exists_congr fun n => and_congr_right fun _ => eq_comm

def propertyOf (arg : String) : String := String.ofList (arg.toList.drop "--configure-".length)

theorem setConfig_ok : setConfig rt arg it o = .ok (o', rest) ↔
    ∃ value, it = value :: rest.1 ∧
      (propertyOf arg = "qt" ∧ o' = { o with config := { o.config with qt := value } } ∨
        propertyOf arg = "subProcess" ∧ ∃ b, lower value = (if b then "true" else "false") ∧
          o' = { o with config := { o.config with subProcess := b } }) := by
  simp only [setConfig, bind_ok]
  constructor
  · rintro ⟨⟨value, rest'⟩, hn, h⟩
    refine ⟨value, ?_⟩
    simp only at h
    split at h
    · next hq =>
      cases h
      exact ⟨next_ok.mp hn, .inl ⟨hq, rfl⟩⟩
    · split at h
      · next hs =>
        split at h
        · next hv =>
          cases h
          exact ⟨next_ok.mp hn, .inr ⟨hs, true, hv, rfl⟩⟩
        · split at h
          · next hv =>
            cases h
            exact ⟨next_ok.mp hn, .inr ⟨hs, false, hv, rfl⟩⟩
          · cases h
      · cases h
  · rintro ⟨value, hit, h⟩
    refine ⟨(value, rest), next_ok.mpr hit, ?_⟩
    rcases h with ⟨hq, rfl⟩ | ⟨hs, b, hv, rfl⟩
    · exact if_pos hq
    · have hq : propertyOf arg ≠ "qt" := by rw [hs]; decide
      refine (if_neg hq).trans ((if_pos hs).trans ?_)
      cases b with
      | true => exact if_pos hv
      | false =>
        have ht : lower value ≠ "true" := by rw [hv]; decide
        exact (if_neg ht).trans (if_pos hv)

theorem setTarget_ok : setTarget kind parser false arg it o = .ok (o', rest) ↔
    ∃ value t, it = value :: rest.1 ∧ parser value = .ok t ∧
      o' = { o with targetKind := some kind, target := some t } := by
  simp only [setTarget, bind_ok, Bool.false_eq_true, if_false]
  constructor
  · rintro ⟨⟨value, rest'⟩, hn, t, ht, h⟩
    cases h
    exact ⟨value, t, next_ok.mp hn, ht, rfl⟩
  · rintro ⟨value, t, hit, ht, rfl⟩
    exact ⟨(value, rest), next_ok.mpr hit, t, ht, rfl⟩

theorem setTarget_positional_ok : setTarget kind text true arg it o = .ok (o', rest) ↔
    rest.1 = it ∧ o' = { o with targetKind := some kind, target := some (.text arg) } := by
  obtain ⟨rest, hr⟩ := rest
  constructor
  · intro h
    cases h
    exact ⟨rfl, rfl⟩
  · rintro ⟨hit, rfl⟩
    simp only at hit
    subst hit
    rfl

-- ---------------------------------------------------------------------------
-- The table
-- ---------------------------------------------------------------------------

theorem chop_eq (h : chop s = some t) : s = t ++ "\n" := by
  unfold chop at h
  split at h
  · next hl =>
    cases h
    obtain ⟨cs, hcs⟩ := List.getLast?_eq_some_iff.mp hl
    apply String.toList_inj.mp
    simp [hcs]
  · cases h

theorem matches_names (h : (Pattern.names ns).matches s = true) : ∃ n ∈ ns, OrNewline n s := by
  rcases Bool.or_eq_true_iff.mp h with hf | hc
  · exact ⟨s, List.contains_iff_mem.mp hf, .inl rfl⟩
  · obtain ⟨t, ht, hf⟩ := (Option.any_eq_true _ _).mp hc
    exact ⟨t, List.contains_iff_mem.mp hf, .inr (chop_eq ht)⟩

theorem switchOf_eq (h : switchOf arg ≠ "") : switchOf arg = arg := by
  unfold switchOf at h ⊢
  split
  · rfl
  · next hp => exact absurd (if_neg hp) h

theorem spelled (h : (Pattern.names [n]).matches (switchOf arg) = true) (hn : n ≠ "") :
    OrNewline n arg := by
  obtain ⟨m, hm, hs⟩ := matches_names h
  obtain rfl := List.mem_singleton.mp hm
  have hne : switchOf arg ≠ "" := by
    rcases hs with hs | hs
    · exact hs ▸ hn
    · intro he
      have hl := congrArg (List.length ∘ String.toList) (hs.symm.trans he)
      simp at hl
  rwa [switchOf_eq hne] at hs

theorem positional (h : (Pattern.names [""]).matches (switchOf arg) = true) :
    "-".toList.isPrefixOf arg.toList = false := by
  cases hp : "-".toList.isPrefixOf arg.toList with
  | false => rfl
  | true =>
    rw [switchOf, if_pos hp] at h
    obtain ⟨n, hn, hs⟩ := matches_names h
    obtain rfl := List.mem_singleton.mp hn
    rcases hs with rfl | rfl
    · exact absurd hp (by decide)
    · exact absurd hp (by decide)

theorem Sets.action (h : Sets OrNewline rt (arg :: values) s)
    (ho : s.isAddress = true → o.address = none) (it : List String) :
    ∃ sw, lookup rt (switchOf arg) = some sw ∧ ∃ rest : Iter (values ++ it), rest.1 = it ∧
      sw.action arg (values ++ it) o = .ok (s.apply o, rest) := by
  have hlen : it.length ≤ (values ++ it).length := by simp
  cases h with
  | logTo h => rcases h with rfl | rfl <;> exact ⟨_, rfl, ⟨it, hlen⟩, rfl, rfl⟩
  | logToStderr h => rcases h with rfl | rfl <;> exact ⟨_, rfl, ⟨it, hlen⟩, rfl, rfl⟩
  | @listenAt _ value a h ha =>
    have hact : setAddress rt .listen arg ([value] ++ it) o =
        .ok ((Setting.address .listen a).apply o, ⟨it, hlen⟩) :=
      setAddress_ok.mpr ⟨ho rfl, value, a, rfl, ha, rfl⟩
    rcases h with rfl | rfl <;> exact ⟨_, rfl, ⟨it, hlen⟩, rfl, hact⟩
  | @connectTo _ value a h ha =>
    have hact : setAddress rt .connect arg ([value] ++ it) o =
        .ok ((Setting.address .connect a).apply o, ⟨it, hlen⟩) :=
      setAddress_ok.mpr ⟨ho rfl, value, a, rfl, ha, rfl⟩
    rcases h with rfl | rfl <;> exact ⟨_, rfl, ⟨it, hlen⟩, rfl, hact⟩
  | waitForClient h => rcases h with rfl | rfl <;> exact ⟨_, rfl, ⟨it, hlen⟩, rfl, rfl⟩
  | qt => exact ⟨_, rfl, ⟨it, hlen⟩, rfl, rfl⟩
  | @subProcess value hv =>
    have hact : setConfig rt "--configure-subProcess" ([value] ++ it) o =
        .ok ((Setting.subProcess true).apply o, ⟨it, hlen⟩) :=
      setConfig_ok.mpr ⟨value, rfl, .inr ⟨rfl, true, hv, rfl⟩⟩
    exact ⟨_, rfl, ⟨it, hlen⟩, rfl, hact⟩
  | @noSubProcess value hv =>
    have hact : setConfig rt "--configure-subProcess" ([value] ++ it) o =
        .ok ((Setting.subProcess false).apply o, ⟨it, hlen⟩) :=
      setConfig_ok.mpr ⟨value, rfl, .inr ⟨rfl, false, hv, rfl⟩⟩
    exact ⟨_, rfl, ⟨it, hlen⟩, rfl, hact⟩
  | @parentSessionPid _ value pid h hv =>
    have hact : setArg (parseParentPid rt) (fun pid o => { o with parentSessionPid := pid }) arg
        ([value] ++ it) o = .ok ((Setting.parentSessionPid (some pid)).apply o, ⟨it, hlen⟩) :=
      setArg_ok.mpr ⟨value, some pid, rfl, parseParentPid_ok.mpr (.inr ⟨pid, hv, rfl⟩), rfl⟩
    rcases h with rfl | rfl <;> exact ⟨_, rfl, ⟨it, hlen⟩, rfl, hact⟩
  | noParentSessionPid h => rcases h with rfl | rfl <;> exact ⟨_, rfl, ⟨it, hlen⟩, rfl, rfl⟩
  | adapterAccessToken h => rcases h with rfl | rfl <;> exact ⟨_, rfl, ⟨it, hlen⟩, rfl, rfl⟩
  | disableSysRemoteExec h => rcases h with rfl | rfl <;> exact ⟨_, rfl, ⟨it, hlen⟩, rfl, rfl⟩
  | file h =>
    rw [switchOf, h]
    exact ⟨_, rfl, ⟨it, hlen⟩, rfl, rfl⟩
  | module h => rcases h with rfl | rfl <;> exact ⟨_, rfl, ⟨it, hlen⟩, rfl, rfl⟩
  | code h => rcases h with rfl | rfl <;> exact ⟨_, rfl, ⟨it, hlen⟩, rfl, rfl⟩
  | @pid _ value n h hv hn =>
    have hp : (Target.pid <$> parsePid rt value) = .ok (.pid n) := by
      rw [parsePid_ok.mpr ⟨hv, hn⟩]
      rfl
    have hact : setTarget .pid (fun s => .pid <$> parsePid rt s) false arg ([value] ++ it) o =
        .ok ((Setting.target .pid (.pid n)).apply o, ⟨it, hlen⟩) :=
      setTarget_ok.mpr ⟨value, .pid n, rfl, hp, rfl⟩
    rcases h with rfl | rfl <;> exact ⟨_, rfl, ⟨it, hlen⟩, rfl, hact⟩

theorem propertyOf_eq (hm : Pattern.configure.matches arg = true) :
    arg = "--configure-" ++ propertyOf arg := by
  have hp : "--configure-".toList <+: arg.toList := by
    rcases Bool.or_eq_true_iff.mp hm with hf | hc
    · simp only [Pattern.full, Bool.and_eq_true] at hf
      exact List.isPrefixOf_iff_prefix.mp hf.1.1
    · obtain ⟨t, ht, hf⟩ := (Option.any_eq_true _ _).mp hc
      simp only [Pattern.full, Bool.and_eq_true] at hf
      rw [chop_eq ht, String.toList_append]
      exact (List.isPrefixOf_iff_prefix.mp hf.1.1).trans (List.prefix_append _ _)
  apply String.toList_inj.mp
  simp only [propertyOf, String.toList_append, String.toList_ofList]
  exact (List.prefix_iff_eq_append.mp hp).symm

theorem sets_of_action (hl : lookup rt (switchOf arg) = some sw)
    (ha : sw.action arg it o = .ok (o', rest)) :
    ∃ values s, Sets OrNewline rt (arg :: values) s ∧ it = values ++ rest.1 ∧
      (s.isAddress = true → o.address = none) ∧ o' = s.apply o := by
  have hmatch := List.find?_some (p := fun s : Switch => s.pattern.matches (switchOf arg)) hl
  have hmem := List.mem_of_find?_eq_some (p := fun s : Switch => s.pattern.matches (switchOf arg)) hl
  have hno (s : Setting) (hs : s.isAddress = false) : s.isAddress = true → o.address = none := by
    simp [hs]
  simp only [switches, List.mem_cons, List.not_mem_nil, or_false] at hmem
  rcases hmem with rfl | rfl | rfl | rfl | rfl | rfl | rfl | rfl | rfl | rfl | rfl | rfl | rfl |
    rfl | rfl <;> dsimp only at ha hmatch
  · cases ha
  · cases ha
  · obtain ⟨path, _, hit, hp, rfl⟩ := setArg_ok.mp ha
    cases hp
    exact ⟨[path], _, .logTo (spelled hmatch (by decide)), hit, hno _ rfl, rfl⟩
  · obtain ⟨hit, rfl⟩ := setConst_ok.mp ha
    exact ⟨[], _, .logToStderr (spelled hmatch (by decide)), hit.symm, hno _ rfl, rfl⟩
  · obtain ⟨ho, value, a, hit, hv, rfl⟩ := setAddress_ok.mp ha
    exact ⟨[value], _, .listenAt (spelled hmatch (by decide)) hv, hit, fun _ => ho, rfl⟩
  · obtain ⟨ho, value, a, hit, hv, rfl⟩ := setAddress_ok.mp ha
    exact ⟨[value], _, .connectTo (spelled hmatch (by decide)) hv, hit, fun _ => ho, rfl⟩
  · obtain ⟨hit, rfl⟩ := setConst_ok.mp ha
    exact ⟨[], _, .waitForClient (spelled hmatch (by decide)), hit.symm, hno _ rfl, rfl⟩
  · obtain ⟨value, hit, h⟩ := setConfig_ok.mp ha
    have harg : switchOf arg = arg := switchOf_eq fun he => by
      rw [he] at hmatch
      cases hmatch
    have hname := propertyOf_eq (harg ▸ hmatch)
    rcases h with ⟨hq, rfl⟩ | ⟨hq, b, hv, rfl⟩
    · rw [hname, hq]
      exact ⟨[value], _, .qt, hit, hno _ rfl, rfl⟩
    · rw [hname, hq]
      cases b with
      | true => exact ⟨[value], _, .subProcess hv, hit, hno _ rfl, rfl⟩
      | false => exact ⟨[value], _, .noSubProcess hv, hit, hno _ rfl, rfl⟩
  · obtain ⟨value, pid, hit, hp, rfl⟩ := setArg_ok.mp ha
    have hs := spelled hmatch (by decide)
    rcases parseParentPid_ok.mp hp with ⟨rfl, rfl⟩ | ⟨n, hv, rfl⟩
    · exact ⟨[""], _, .noParentSessionPid hs, hit, hno _ rfl, rfl⟩
    · exact ⟨[value], _, .parentSessionPid hs hv, hit, hno _ rfl, rfl⟩
  · obtain ⟨token, _, hit, hp, rfl⟩ := setArg_ok.mp ha
    cases hp
    exact ⟨[token], _, .adapterAccessToken (spelled hmatch (by decide)), hit, hno _ rfl, rfl⟩
  · obtain ⟨hit, rfl⟩ := setConst_ok.mp ha
    exact ⟨[], _, .disableSysRemoteExec (spelled hmatch (by decide)), hit.symm, hno _ rfl, rfl⟩
  · obtain ⟨hit, rfl⟩ := setTarget_positional_ok.mp ha
    exact ⟨[], _, .file (positional hmatch), hit.symm, hno _ rfl, rfl⟩
  · obtain ⟨name, _, hit, hp, rfl⟩ := setTarget_ok.mp ha
    cases hp
    exact ⟨[name], _, .module (spelled hmatch (by decide)), hit, hno _ rfl, rfl⟩
  · obtain ⟨code, _, hit, hp, rfl⟩ := setTarget_ok.mp ha
    cases hp
    exact ⟨[code], _, .code (spelled hmatch (by decide)), hit, hno _ rfl, rfl⟩
  · obtain ⟨value, t, hit, hp, rfl⟩ := setTarget_ok.mp ha
    obtain ⟨n, hn, rfl⟩ := map_ok.mp hp
    obtain ⟨hv, hpos⟩ := parsePid_ok.mp hn
    exact ⟨[value], _, .pid (spelled hmatch (by decide)) hv hpos, hit, hno _ rfl, rfl⟩

-- ---------------------------------------------------------------------------
-- The loop
-- ---------------------------------------------------------------------------

/-- A switch in the arguments. -/
structure Given where
  words : List String
  setting : Setting

def Given.switch (g : Given) : String := switchOf (g.words.headD "")

def wordsOf (given : List Given) : List String := (given.map Given.words).flatten

/-- What the switches make of the options, the last having the last word. -/
def settle (given : List Given) (o : Options) : Options :=
  given.foldl (fun o g => g.setting.apply o) o

theorem settle_cons : settle (g :: given) o = settle given (g.setting.apply o) := rfl

theorem settle_append : settle (given ++ more) o = settle more (settle given o) :=
  List.foldl_append

theorem wordsOf_cons : wordsOf (g :: given) = g.words ++ wordsOf given := rfl

theorem wordsOf_append : wordsOf (given ++ more) = wordsOf given ++ wordsOf more := by
  simp [wordsOf]

def Seen.from (seen : Seen) (isFromEnvironment : Bool) : List String :=
  if isFromEnvironment then seen.fromEnvironment else seen.fromCommandLine

theorem parseArgsHelper_cons : parseArgsHelper rt env (arg :: it) seen o = .ok r ↔
    switchOf arg ∉ seen.from env ∧
    if env = true ∧ switchOf arg ∈ seen.fromCommandLine then
      (lookup rt (switchOf arg)).isSome = true ∧ parseArgsHelper rt env it seen o = .ok r
    else ∃ values s rest, Sets OrNewline rt (arg :: values) s ∧ it = values ++ rest ∧
      (s.isAddress = true → o.address = none) ∧
      if !env ∧ (s.apply o).target.isSome then r = (seen.add env (switchOf arg), s.apply o, rest)
      else parseArgsHelper rt env rest (seen.add env (switchOf arg)) (s.apply o) = .ok r := by
  have hfrom : switchOf arg ∈ seen.from env ↔
      (!env) = true ∧ switchOf arg ∈ seen.fromCommandLine ∨
        env = true ∧ switchOf arg ∈ seen.fromEnvironment := by
    cases env <;> simp [Seen.from]
  rw [parseArgsHelper, hfrom, not_or]
  constructor
  · intro h
    dsimp only at h
    split at h
    · cases h
    · next sw hl =>
      split at h
      · cases h
      · next hc =>
        split at h
        · cases h
        · next he =>
          refine ⟨⟨hc, he⟩, ?_⟩
          split at h
          · next hs =>
            rw [if_pos hs]
            exact ⟨by simp [hl], h⟩
          · next hs =>
            rw [if_neg hs]
            split at h
            · cases h
            · next o' rest hp =>
              obtain ⟨values, s, hs, hit, hao, rfl⟩ := sets_of_action hl (perform_ok.mp hp)
              refine ⟨values, s, rest.1, hs, hit, hao, ?_⟩
              split at h
              · next ht =>
                cases h
                rw [if_pos ht]
              · next ht => rwa [if_neg ht]
  · rintro ⟨⟨hc, he⟩, h⟩
    split at h
    · next hs =>
      obtain ⟨hl, h⟩ := h
      obtain ⟨sw, hl⟩ := Option.isSome_iff_exists.mp hl
      simp only [hl, if_neg hc, if_neg he, if_pos hs]
      exact h
    · next hs =>
      obtain ⟨values, s, rest, hset, rfl, hao, h⟩ := h
      obtain ⟨sw, hl, rest', hrest, ha⟩ := hset.action hao rest
      simp only [hl, if_neg hc, if_neg he, if_neg hs, perform_ok.mpr ha, hrest]
      split
      · next ht =>
        rw [if_pos ht] at h
        rw [h]
      · next ht => rwa [if_neg ht] at h

theorem parseArgsHelper_preserves (P : Options → Prop)
    (hstep : ∀ words s o, Sets OrNewline rt words s → P o → P (s.apply o))
    (h : parseArgsHelper rt env args seen o = .ok (seen', o', rest)) (ho : P o) : P o' := by
  induction hn : args.length using Nat.strong_induction_on generalizing args seen o with
  | _ n ih =>
    cases args with
    | nil =>
      rw [parseArgsHelper] at h
      cases h
      exact ho
    | cons arg it =>
      rw [List.length_cons] at hn
      obtain ⟨-, h⟩ := parseArgsHelper_cons.mp h
      split at h
      · exact ih it.length (by omega) h.2 ho rfl
      · obtain ⟨values, s, tail, hs, rfl, -, h⟩ := h
        rw [List.length_append] at hn
        split at h
        · cases h
          exact hstep _ s o hs ho
        · exact ih tail.length (by omega) h (hstep _ s o hs ho) rfl

theorem parseArgs_preserves (P : Options → Prop)
    (hstep : ∀ words s o, Sets OrNewline rt words s → P o → P (s.apply o))
    (h : parseArgs rt argv extraArgv = .ok (o, argv')) (ho : P {}) : P o := by
  obtain ⟨⟨seen, o₁, rest⟩, hc, h⟩ := bind_ok.mp h
  have ho₁ := parseArgsHelper_preserves P hstep hc ho
  obtain ⟨o₂, he, h⟩ := bind_ok.mp h
  obtain ⟨_, -, h⟩ := bind_ok.mp h
  cases h
  unfold parseArgsFromEnvironment at he
  split at he
  · cases he
    exact ho₁
  · split at he
    · cases he
      exact ho₁
    · obtain ⟨⟨_, o₃, _⟩, he, hr⟩ := bind_ok.mp he
      cases hr
      exact parseArgsHelper_preserves P hstep he ho₁

theorem commandLine_cons : parseArgsHelper rt false (arg :: it) seen o = .ok r ↔
    switchOf arg ∉ seen.fromCommandLine ∧ ∃ values s rest, Sets OrNewline rt (arg :: values) s ∧
      it = values ++ rest ∧ (s.isAddress = true → o.address = none) ∧
      if (s.apply o).target.isSome then r = (seen.add false (switchOf arg), s.apply o, rest)
      else parseArgsHelper rt false rest (seen.add false (switchOf arg)) (s.apply o) = .ok r := by
  simp [parseArgsHelper_cons, Seen.from]

/-- The loop can carry out the switches in this order. -/
structure Fresh (seen : List String) (o : Options) (given : List Given) : Prop where
  different : (given.map Given.switch).Nodup
  unseen : ∀ g ∈ given, g.switch ∉ seen
  oneAddress : given.countP (·.setting.isAddress) + (if o.address.isSome then 1 else 0) ≤ 1

theorem apply_address : (Setting.apply o s).address.isSome = (s.isAddress || o.address.isSome) := by
  cases s <;> rfl

theorem apply_target : (Setting.apply o s).target.isSome = (s.isTarget || o.target.isSome) := by
  cases s <;> rfl

theorem fresh_nil : Fresh seen o [] := by
  refine ⟨List.nodup_nil, by simp, ?_⟩
  rw [List.countP_nil]
  split <;> decide

theorem fresh_cons : Fresh seen o (g :: given) ↔
    g.switch ∉ seen ∧ (g.setting.isAddress = true → o.address = none) ∧
      Fresh (g.switch :: seen) (g.setting.apply o) given := by
  have hcount : (g :: given).countP (·.setting.isAddress) + (if o.address.isSome then 1 else 0) ≤ 1 ↔
      (g.setting.isAddress = true → o.address = none) ∧
        given.countP (·.setting.isAddress) +
          (if (g.setting.apply o).address.isSome then 1 else 0) ≤ 1 := by
    rw [List.countP_cons, apply_address]
    cases g.setting.isAddress <;> cases o.address <;> simp
  constructor
  · rintro ⟨hd, hu, ha⟩
    rw [List.map_cons, List.nodup_cons] at hd
    obtain ⟨hao, ha⟩ := hcount.mp ha
    refine ⟨hu g List.mem_cons_self, hao, hd.2, fun g' hg' hmem => ?_, ha⟩
    rcases List.mem_cons.mp hmem with he | hmem
    · exact hd.1 (he ▸ List.mem_map_of_mem hg')
    · exact hu g' (List.mem_cons_of_mem _ hg') hmem
  · rintro ⟨hg, hao, hd, hu, ha⟩
    refine ⟨?_, ?_, hcount.mpr ⟨hao, ha⟩⟩
    · rw [List.map_cons, List.nodup_cons]
      refine ⟨fun hmem => ?_, hd⟩
      obtain ⟨g', hg', he⟩ := List.mem_map.mp hmem
      exact hu g' hg' (he ▸ List.mem_cons_self)
    · intro g' hg' hmem
      rcases List.mem_cons.mp hg' with rfl | hg'
      · exact hg hmem
      · exact hu g' hg' (List.mem_cons_of_mem _ hmem)

theorem Sets.words_cons (h : Sets spelling rt words s) : ∃ arg values, words = arg :: values := by
  cases h <;> exact ⟨_, _, rfl⟩

/-- The loop over the command line ends with the target, or with the arguments. -/
def Ends (rest : List String) : List Given → Prop
  | [] => rest = []
  | g :: given => if g.setting.isTarget then given = [] else Ends rest given

def Seen.addAll (seen : Seen) (given : List Given) : Seen :=
  { seen with fromCommandLine := (given.map Given.switch).reverse ++ seen.fromCommandLine }

theorem addAll_cons (seen : Seen) :
    seen.addAll (g :: given) = (seen.add false g.switch).addAll given := by
  simp [Seen.addAll, Seen.add]

theorem commandLine_iff (ho : o.target = none) :
    parseArgsHelper rt false args seen o = .ok (seen', o', rest) ↔
    ∃ given, args = wordsOf given ++ rest ∧ (∀ g ∈ given, Sets OrNewline rt g.words g.setting) ∧
      Fresh seen.fromCommandLine o given ∧ Ends rest given ∧ o' = settle given o ∧
      seen' = seen.addAll given := by
  constructor
  · induction hn : args.length using Nat.strong_induction_on generalizing args seen o with
    | _ n ih =>
      intro h
      cases args with
      | nil =>
        rw [parseArgsHelper] at h
        cases h
        exact ⟨[], rfl, by simp, fresh_nil, rfl, rfl, rfl⟩
      | cons arg it =>
        obtain ⟨hg, values, s, tail, hs, rfl, hao, h⟩ := commandLine_cons.mp h
        rw [apply_target, ho] at h
        split at h
        · next ht =>
          cases h
          refine ⟨[⟨arg :: values, s⟩], by simp [wordsOf], by simpa using hs, ?_, ?_, rfl, rfl⟩
          · exact fresh_cons.mpr ⟨hg, hao, fresh_nil⟩
          · have ht : s.isTarget = true := by simpa using ht
            simp [Ends, ht]
        · next ht =>
          have ht : s.isTarget = false := by simpa using ht
          have ho' : (s.apply o).target = none := by
            have := apply_target (s := s) (o := o)
            simpa [ht, ho] using this
          obtain ⟨given, rfl, hall, hfresh, hends, rfl, rfl⟩ :=
            ih tail.length (by simp at hn; omega) ho' rfl h
          refine ⟨⟨arg :: values, s⟩ :: given, by simp [wordsOf], ?_, ?_, ?_, rfl, ?_⟩
          · exact List.forall_mem_cons.mpr ⟨hs, hall⟩
          · exact fresh_cons.mpr ⟨hg, hao, hfresh⟩
          · simpa [Ends, ht] using hends
          · rw [addAll_cons]
            rfl
  · rintro ⟨given, rfl, hall, hfresh, hends, rfl, rfl⟩
    induction given generalizing seen o with
    | nil =>
      obtain rfl : rest = [] := hends
      rw [show wordsOf [] ++ [] = ([] : List String) from rfl, parseArgsHelper]
      rfl
    | cons g given ih =>
      obtain ⟨hs, hrest⟩ := List.forall_mem_cons.mp hall
      obtain ⟨hg, hao, hfresh⟩ := fresh_cons.mp hfresh
      obtain ⟨words, s⟩ := g
      obtain ⟨arg, values, rfl⟩ := hs.words_cons
      rw [wordsOf_cons, List.append_assoc, List.cons_append, commandLine_cons]
      refine ⟨hg, values, s, wordsOf given ++ rest, hs, rfl, hao, ?_⟩
      rw [apply_target, ho]
      cases ht : s.isTarget with
      | true =>
        obtain rfl : given = [] := by simpa [Ends, ht] using hends
        rfl
      | false =>
        have ho' : (s.apply o).target = none := by
          have := apply_target (s := s) (o := o)
          simpa [ht, ho] using this
        rw [addAll_cons]
        refine ih ho' hrest hfresh (by simpa [Ends, ht] using hends)

end Debugpy.Cli
