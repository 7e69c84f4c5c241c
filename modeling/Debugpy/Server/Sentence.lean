import Debugpy.Server.Grammar
import Mathlib.Data.List.Nodup

/-!
# The command lines that are accepted

A sentence of the command line is a list of different switches and a target;
what comes after it belongs to the target. `parseArgs_iff_reading` says what
is accepted, `written_iff` when that is the sentences.
-/

namespace Debugpy.Cli

-- ---------------------------------------------------------------------------
-- Sentences
-- ---------------------------------------------------------------------------

/-- Different switches, each with its value, then a target, then anything. -/
structure Reading (spelling : Spelling) (rt : Runtime) (args : List String) (given : List Given)
    (target : Given) (rest : List String) : Prop where
  args_eq : args = wordsOf given ++ (target.words ++ rest)
  sets : ∀ g ∈ given, Sets spelling rt g.words g.setting ∧ g.setting.isTarget = false
  sets_target : Sets spelling rt target.words target.setting ∧ target.setting.isTarget = true
  different : (given.map Given.switch).Nodup

def settings (given : List Given) : List Setting := given.map Given.setting

structure Sentence (rt : Runtime) (args : List String) (given : List Given) (target : Given)
    (rest : List String) : Prop extends Reading Exact rt args given target rest where
  oneAddress : given.countP (·.setting.isAddress) = 1
  nonempty : ∀ kind, target.setting ≠ .target kind (.text "")
  adapterAccessToken : ∀ token, .adapterAccessToken token ∈ settings given →
    ∃ a, .address .connect a ∈ settings given
  parentSessionPid : ∀ n, .parentSessionPid (some n) ∈ settings given →
    ∃ a, .address .connect a ∈ settings given
  waitForClient : .waitForClient ∈ settings given → ∀ t, target.setting ≠ .target .pid t

/-- The options are the ones written in `argv`, or the defaults. -/
def Written (rt : Runtime) (argv : List String) (o : Options) (argv' : List String) : Prop :=
  ∃ given target rest, Sentence rt argv.tail given target rest ∧
    o = settle (given ++ [target]) {} ∧ argv' = argv.take 1 ++ rest

-- ---------------------------------------------------------------------------
-- What is accepted
-- ---------------------------------------------------------------------------

theorem ends_cases (h : Ends rest given) : (∀ g ∈ given, g.setting.isTarget = false) ∨
    ∃ init target, given = init ++ [target] ∧ (∀ g ∈ init, g.setting.isTarget = false) ∧
      target.setting.isTarget = true := by
  induction given with
  | nil => exact .inl (by simp)
  | cons g given ih =>
    cases hg : g.setting.isTarget with
    | true =>
      obtain rfl : given = [] := by simpa [Ends, hg] using h
      exact .inr ⟨[], g, rfl, by simp, hg⟩
    | false =>
      rcases ih (by simpa [Ends, hg] using h) with hnone | ⟨init, target, rfl, hinit, ht⟩
      · exact .inl (List.forall_mem_cons.mpr ⟨hg, hnone⟩)
      · exact .inr ⟨g :: init, target, rfl, List.forall_mem_cons.mpr ⟨hg, hinit⟩, ht⟩

theorem ends_append (hinit : ∀ g ∈ init, g.setting.isTarget = false)
    (ht : target.setting.isTarget = true) : Ends rest (init ++ [target]) := by
  induction init with
  | nil => exact (if_pos ht).mpr rfl
  | cons g init ih =>
    obtain ⟨hg, hinit⟩ := List.forall_mem_cons.mp hinit
    have hg' : ¬ g.setting.isTarget = true := by simp [hg]
    exact (if_neg hg').mpr (ih hinit)

def targetSwitches : List String := ["", "-m", "-m\n", "-c", "-c\n", "--pid", "--pid\n"]

theorem Sets.isTarget_eq (h : Sets OrNewline rt (arg :: values) s) :
    s.isTarget = targetSwitches.contains (switchOf arg) := by
  cases h with
  | qt => rfl
  | subProcess => rfl
  | noSubProcess => rfl
  | file h =>
    rw [switchOf, h]
    rfl
  | logTo h => rcases h with rfl | rfl <;> rfl
  | logToStderr h => rcases h with rfl | rfl <;> rfl
  | listenAt h => rcases h with rfl | rfl <;> rfl
  | connectTo h => rcases h with rfl | rfl <;> rfl
  | waitForClient h => rcases h with rfl | rfl <;> rfl
  | parentSessionPid h => rcases h with rfl | rfl <;> rfl
  | noParentSessionPid h => rcases h with rfl | rfl <;> rfl
  | adapterAccessToken h => rcases h with rfl | rfl <;> rfl
  | disableSysRemoteExec h => rcases h with rfl | rfl <;> rfl
  | module h => rcases h with rfl | rfl <;> rfl
  | code h => rcases h with rfl | rfl <;> rfl
  | pid h => rcases h with rfl | rfl <;> rfl

theorem isTarget_switch (h : Sets OrNewline rt (Given.words g) g.setting) :
    g.setting.isTarget = targetSwitches.contains g.switch := by
  obtain ⟨words, s⟩ := g
  obtain ⟨arg, values, rfl⟩ := h.words_cons
  exact h.isTarget_eq

theorem Reading.all (h : Reading spelling rt args given target rest) :
    ∀ g ∈ given ++ [target], Sets spelling rt (Given.words g) g.setting := by
  intro g hg
  rcases List.mem_append.mp hg with hg | hg
  · exact (h.sets g hg).1
  · obtain rfl := List.mem_singleton.mp hg
    exact h.sets_target.1

theorem Reading.ends (h : Reading spelling rt args given target rest) :
    Ends rest (given ++ [target]) :=
  ends_append (fun g hg => (h.sets g hg).2) h.sets_target.2

theorem Reading.wordsOf_eq (h : Reading spelling rt args given target rest) :
    wordsOf (given ++ [target]) ++ rest = args := by
  simp [h.args_eq, wordsOf]

theorem Reading.target_different (h : Reading OrNewline rt args given target rest) :
    ((given ++ [target]).map Given.switch).Nodup := by
  rw [List.map_append, List.map_singleton, List.nodup_append]
  refine ⟨h.different, by simp, ?_⟩
  intro switch hs t ht he
  obtain rfl := List.mem_singleton.mp ht
  obtain ⟨g, hg, rfl⟩ := List.mem_map.mp hs
  obtain ⟨hset, hno⟩ := h.sets g hg
  have hyes := h.sets_target.2
  rw [isTarget_switch h.sets_target.1, ← he, ← isTarget_switch hset, hno] at hyes
  cases hyes

theorem isAddress_of_isTarget (h : Setting.isTarget s = true) : s.isAddress = false := by
  cases s <;> first | rfl | cases h

theorem settle_target (h : ∀ g ∈ given, g.setting.isTarget = false) :
    (settle given o).target.isSome = o.target.isSome := by
  induction given generalizing o with
  | nil => rfl
  | cons g given ih =>
    obtain ⟨hg, h⟩ := List.forall_mem_cons.mp h
    rw [settle_cons, ih h, apply_target, hg, Bool.false_or]

theorem checkOptions_ok : checkOptions o = .ok u ↔
    (o.target ≠ none ∧ o.target ≠ some (.text "")) ∧ o.mode ≠ none ∧
      (o.adapterAccessToken.isSome = true → o.mode = some .connect) ∧
      (o.parentSessionPid.isSome = true → o.mode = some .connect) ∧
      (o.targetKind = some .pid → o.waitForClient = false) ∧
      o.targetKind ≠ none ∧ o.address ≠ none := by
  unfold checkOptions
  split_ifs <;> grind

theorem parseArgs_iff_reading : parseArgs rt argv none = .ok (o, argv') ↔
    ∃ given target rest, Reading OrNewline rt argv.tail given target rest ∧
      given.countP (·.setting.isAddress) ≤ 1 ∧ o = settle (given ++ [target]) {} ∧
      checkOptions o = .ok () ∧ argv' = argv.take 1 ++ rest := by
  simp only [parseArgs, parseArgsFromEnvironment, bind_ok, pure, Except.pure, Except.ok.injEq,
    Prod.mk.injEq]
  constructor
  · rintro ⟨⟨seen, o₁, rest⟩, hc, _, rfl, _, hcheck, rfl, rfl⟩
    obtain ⟨given, hargs, hall, hfresh, hends, rfl, -⟩ := (commandLine_iff rfl).mp hc
    rcases ends_cases hends with hnone | ⟨init, target, rfl, hinit, ht⟩
    · have hno : (settle given {}).target.isSome = false := settle_target hnone
      have hyes := (checkOptions_ok.mp hcheck).1.1
      simp [Option.isSome_iff_ne_none.mpr hyes] at hno
    · refine ⟨init, target, rest, ⟨?_, ?_, ?_, ?_⟩, ?_, rfl, hcheck, rfl⟩
      · simpa [wordsOf_append, wordsOf] using hargs
      · exact fun g hg => ⟨hall g (List.mem_append_left _ hg), hinit g hg⟩
      · exact ⟨hall target (by simp), ht⟩
      · have := hfresh.different
        rw [List.map_append, List.nodup_append] at this
        exact this.1
      · have := hfresh.oneAddress
        simp only [List.countP_append] at this
        omega
  · rintro ⟨given, target, rest, hr, hcount, rfl, hcheck, rfl⟩
    refine ⟨(_, settle (given ++ [target]) {}, rest), (commandLine_iff rfl).mpr
      ⟨given ++ [target], hr.wordsOf_eq.symm, hr.all, ⟨hr.target_different, by simp, ?_⟩, hr.ends,
        rfl, rfl⟩, _, rfl, (), hcheck, rfl, rfl⟩
    rw [List.countP_append, List.countP_singleton, isAddress_of_isTarget hr.sets_target.2]
    exact hcount

-- ---------------------------------------------------------------------------
-- Newlines
-- ---------------------------------------------------------------------------

def endsInNewline (s : String) : Bool := s.toList.getLast? == some '\n'

theorem endsInNewline_append : endsInNewline (name ++ "\n") = true := by
  simp [endsInNewline]

theorem exact_orNewline (name arg : String) (h : Exact name arg) : OrNewline name arg := .inl h

theorem exact_of_noNewline (hp : "-".toList.isPrefixOf name.toList = true) (h : OrNewline name arg)
    (hn : endsInNewline (switchOf arg) = false) : Exact name arg := by
  rcases h with h | rfl
  · exact h
  · have hpre : "-".toList.isPrefixOf (name ++ "\n").toList = true := by
      rw [String.toList_append]
      exact List.isPrefixOf_iff_prefix.mpr
        ((List.isPrefixOf_iff_prefix.mp hp).trans (List.prefix_append _ _))
    rw [switchOf, if_pos hpre, endsInNewline_append] at hn
    cases hn

theorem Sets.exact (h : Sets OrNewline rt (arg :: values) s)
    (hn : endsInNewline (switchOf arg) = false) : Sets Exact rt (arg :: values) s := by
  cases h with
  | logTo h => exact .logTo (exact_of_noNewline (by decide) h hn)
  | logToStderr h => exact .logToStderr (exact_of_noNewline (by decide) h hn)
  | listenAt h ha => exact .listenAt (exact_of_noNewline (by decide) h hn) ha
  | connectTo h ha => exact .connectTo (exact_of_noNewline (by decide) h hn) ha
  | waitForClient h => exact .waitForClient (exact_of_noNewline (by decide) h hn)
  | qt => exact .qt
  | subProcess h => exact .subProcess h
  | noSubProcess h => exact .noSubProcess h
  | parentSessionPid h hv => exact .parentSessionPid (exact_of_noNewline (by decide) h hn) hv
  | noParentSessionPid h => exact .noParentSessionPid (exact_of_noNewline (by decide) h hn)
  | adapterAccessToken h => exact .adapterAccessToken (exact_of_noNewline (by decide) h hn)
  | disableSysRemoteExec h => exact .disableSysRemoteExec (exact_of_noNewline (by decide) h hn)
  | file h => exact .file h
  | module h => exact .module (exact_of_noNewline (by decide) h hn)
  | code h => exact .code (exact_of_noNewline (by decide) h hn)
  | pid h hv hpos => exact .pid (exact_of_noNewline (by decide) h hn) hv hpos

theorem Sets.noNewline (h : Sets Exact rt (arg :: values) s) :
    endsInNewline (switchOf arg) = false := by
  cases h with
  | qt => rfl
  | subProcess => rfl
  | noSubProcess => rfl
  | file h =>
    rw [switchOf, h]
    rfl
  | logTo h => exact h ▸ rfl
  | logToStderr h => exact h ▸ rfl
  | listenAt h => exact h ▸ rfl
  | connectTo h => exact h ▸ rfl
  | waitForClient h => exact h ▸ rfl
  | parentSessionPid h => exact h ▸ rfl
  | noParentSessionPid h => exact h ▸ rfl
  | adapterAccessToken h => exact h ▸ rfl
  | disableSysRemoteExec h => exact h ▸ rfl
  | module h => exact h ▸ rfl
  | code h => exact h ▸ rfl
  | pid h => exact h ▸ rfl

theorem sets_exact_iff : Sets Exact rt (Given.words g) g.setting ↔
    Sets OrNewline rt g.words g.setting ∧ endsInNewline g.switch = false := by
  obtain ⟨words, s⟩ := g
  constructor
  · intro h
    obtain ⟨arg, values, rfl⟩ := h.words_cons
    exact ⟨h.mono exact_orNewline, h.noNewline⟩
  · rintro ⟨h, hn⟩
    obtain ⟨arg, values, rfl⟩ := h.words_cons
    exact h.exact hn

theorem reading_exact_iff : Reading Exact rt args given target rest ↔
    Reading OrNewline rt args given target rest ∧
      ∀ g ∈ given ++ [target], endsInNewline g.switch = false := by
  constructor
  · rintro ⟨hargs, hs, ⟨ht, hyes⟩, hd⟩
    refine ⟨⟨hargs, fun g hg => ?_, ⟨(sets_exact_iff.mp ht).1, hyes⟩, hd⟩, fun g hg => ?_⟩
    · exact ⟨(sets_exact_iff.mp (hs g hg).1).1, (hs g hg).2⟩
    · rcases List.mem_append.mp hg with hg | hg
      · exact (sets_exact_iff.mp (hs g hg).1).2
      · obtain rfl := List.mem_singleton.mp hg
        exact (sets_exact_iff.mp ht).2
  · rintro ⟨⟨hargs, hs, ⟨ht, hyes⟩, hd⟩, hn⟩
    refine ⟨hargs, fun g hg => ?_, ⟨sets_exact_iff.mpr ⟨ht, hn target (by simp)⟩, hyes⟩, hd⟩
    exact ⟨sets_exact_iff.mpr ⟨(hs g hg).1, hn g (List.mem_append_left _ hg)⟩, (hs g hg).2⟩

-- ---------------------------------------------------------------------------
-- A command line has one reading
-- ---------------------------------------------------------------------------

/-- Two options that tell all settings apart. -/
def apart : List Options :=
  [{}, { logToStderr := true, waitForClient := true, config := { qt := "auto", subProcess := false },
         parentSessionPid := some 0, disableSysRemoteExec := true }]

theorem eq_of_apart (h : ∀ o ∈ apart, Setting.apply o s = Setting.apply o s') : s = s' := by
  obtain ⟨h, h'⟩ := List.forall_mem_cons.mp h
  replace h' := List.forall_mem_singleton.mp h'
  cases s <;> cases s' <;> simp_all [Setting.apply]

theorem Sets.acts (h : Sets OrNewline rt (arg :: values) s) (he : it = values ++ rest)
    (ho : o.address = none) : ∃ sw, lookup rt (switchOf arg) = some sw ∧
      (fun r => (r.1, r.2.1)) <$> sw.action arg it o = .ok (s.apply o, rest) := by
  subst he
  obtain ⟨sw, hl, left, hleft, ha⟩ := h.action (fun _ => ho) rest
  exact ⟨sw, hl, map_ok.mpr ⟨_, ha, by rw [hleft]⟩⟩

theorem Sets.unique (h : Sets OrNewline rt (arg :: values) s)
    (h' : Sets OrNewline rt (arg :: values') s') (he : values ++ rest = values' ++ rest') :
    values = values' ∧ s = s' ∧ rest = rest' := by
  have hacts {o : Options} (ho : o.address = none) : s.apply o = s'.apply o ∧ rest = rest' := by
    obtain ⟨sw, hl, ha⟩ := h.acts rfl ho
    obtain ⟨sw', hl', ha'⟩ := h'.acts he ho
    obtain rfl := Option.some.inj (hl.symm.trans hl')
    exact Prod.mk.inj (Except.ok.inj (ha.symm.trans ha'))
  have hrest := (hacts (o := {}) rfl).2
  refine ⟨List.append_cancel_right (hrest ▸ he), eq_of_apart fun o ho => ?_, hrest⟩
  have hnone : o.address = none := by
    rcases List.mem_cons.mp ho with rfl | ho
    · rfl
    · obtain rfl := List.mem_singleton.mp ho
      rfl
  exact (hacts hnone).1

theorem given_unique (h : ∀ g ∈ given, Sets OrNewline rt (Given.words g) g.setting)
    (h' : ∀ g ∈ given', Sets OrNewline rt (Given.words g) g.setting) (hends : Ends rest given)
    (hends' : Ends rest' given') (he : wordsOf given ++ rest = wordsOf given' ++ rest') :
    given = given' ∧ rest = rest' := by
  induction given generalizing given' with
  | nil =>
    obtain rfl : rest = [] := hends
    cases given' with
    | nil => exact ⟨rfl, (hends' : rest' = []).symm⟩
    | cons g' given' =>
      obtain ⟨arg, values, hw⟩ := (h' g' List.mem_cons_self).words_cons
      simp [wordsOf, hw] at he
  | cons g given ih =>
    obtain ⟨words, s⟩ := g
    obtain ⟨hs, hg⟩ := List.forall_mem_cons.mp h
    obtain ⟨arg, values, rfl⟩ := hs.words_cons
    cases given' with
    | nil =>
      obtain rfl : rest' = [] := hends'
      simp [wordsOf] at he
    | cons g' given' =>
      obtain ⟨words', s'⟩ := g'
      obtain ⟨hs', hg'⟩ := List.forall_mem_cons.mp h'
      obtain ⟨arg', values', rfl⟩ := hs'.words_cons
      simp only [wordsOf_cons, List.cons_append, List.append_assoc, List.cons.injEq] at he
      obtain ⟨rfl, he⟩ := he
      obtain ⟨rfl, rfl, htail⟩ := hs.unique hs' he
      cases hyes : s.isTarget with
      | true =>
        obtain rfl : given = [] := by simpa [Ends, hyes] using hends
        obtain rfl : given' = [] := by simpa [Ends, hyes] using hends'
        exact ⟨rfl, by simpa [wordsOf] using htail⟩
      | false =>
        obtain ⟨rfl, hrest⟩ := ih hg hg' (by simpa [Ends, hyes] using hends)
          (by simpa [Ends, hyes] using hends') htail
        exact ⟨rfl, hrest⟩

theorem Reading.unique (h : Reading OrNewline rt args given target rest)
    (h' : Reading OrNewline rt args given' target' rest') :
    given ++ [target] = given' ++ [target'] :=
  (given_unique h.all h'.all h.ends h'.ends (h.wordsOf_eq.trans h'.wordsOf_eq.symm)).1

-- ---------------------------------------------------------------------------
-- What the switches set
-- ---------------------------------------------------------------------------

theorem settings_cons : settings (g :: given) = g.setting :: settings given := rfl

theorem settle_get (get : Options → α) (sets : Setting → Option α)
    (h : ∀ o s, get (Setting.apply o s) = (sets s).getD (get o)) :
    get (settle given o) = (((settings given).filterMap sets).getLast?).getD (get o) := by
  induction given generalizing o with
  | nil => rfl
  | cons g given ih =>
    rw [settle_cons, ih, h, settings_cons, List.filterMap_cons]
    cases sets g.setting with
    | none => rfl
    | some a => cases List.filterMap sets (settings given) <;> simp [List.getLast?_cons]

theorem settle_mem (get : Options → α) (sets : Setting → Option α)
    (h : ∀ o s, get (Setting.apply o s) = (sets s).getD (get o)) :
    get (settle given o) = get o ∨ ∃ s ∈ settings given, sets s = some (get (settle given o)) := by
  rw [settle_get get sets h]
  cases hl : ((settings given).filterMap sets).getLast? with
  | none => exact .inl rfl
  | some a => exact .inr (List.mem_filterMap.mp (List.mem_of_getLast? hl))

theorem settle_eq (get : Options → α) (sets : Setting → Option α)
    (h : ∀ o s, get (Setting.apply o s) = (sets s).getD (get o)) (hs : s ∈ settings given)
    (ha : sets s = some a) (hall : ∀ s' ∈ settings given, ∀ b, sets s' = some b → b = a) :
    get (settle given o) = a := by
  rw [settle_get get sets h]
  have hmem : a ∈ (settings given).filterMap sets := List.mem_filterMap.mpr ⟨s, hs, ha⟩
  cases hl : ((settings given).filterMap sets).getLast? with
  | none =>
    rw [List.getLast?_eq_none_iff.mp hl] at hmem
    cases hmem
  | some b =>
    obtain ⟨s', hs', hb⟩ := List.mem_filterMap.mp (List.mem_of_getLast? hl)
    exact hall s' hs' b hb

theorem settle_flag (get : Options → Bool) (sets : Setting → Bool)
    (h : ∀ o s, get (Setting.apply o s) = (sets s || get o)) (given : List Given) (o : Options) :
    get (settle given o) = true ↔ (∃ s ∈ settings given, sets s = true) ∨ get o = true := by
  induction given generalizing o with
  | nil => simp [settle, settings]
  | cons g given ih =>
    rw [settle_cons, ih, h, settings_cons, Bool.or_eq_true, List.exists_mem_cons_iff, ← or_assoc,
      or_comm (a := ∃ s ∈ settings given, sets s = true)]

def Setting.isToken : Setting → Bool
  | .adapterAccessToken _ => true
  | _ => false

theorem settle_token : (settle given {}).adapterAccessToken.isSome = true ↔
    ∃ token, .adapterAccessToken token ∈ settings given := by
  have h := settle_flag (fun o => o.adapterAccessToken.isSome) Setting.isToken
    (fun o s => by cases s <;> rfl) given {}
  simp only [Option.isSome_none, Bool.false_eq_true, or_false] at h
  rw [h]
  constructor
  · rintro ⟨s, hs, hyes⟩
    cases s <;> first | exact ⟨_, hs⟩ | cases hyes
  · rintro ⟨token, hs⟩
    exact ⟨_, hs, rfl⟩

def Setting.isWaitForClient : Setting → Bool
  | .waitForClient => true
  | _ => false

theorem settle_waitForClient : (settle given {}).waitForClient = true ↔
    .waitForClient ∈ settings given := by
  have h := settle_flag Options.waitForClient Setting.isWaitForClient
    (fun o s => by cases s <;> rfl) given {}
  simp only [Bool.false_eq_true, or_false] at h
  rw [h]
  constructor
  · rintro ⟨s, hs, hyes⟩
    cases s <;> first | exact hs | cases hyes
  · intro hs
    exact ⟨_, hs, rfl⟩

theorem settle_address : (settle given {}).address.isSome = true ↔
    ∃ s ∈ settings given, s.isAddress = true := by
  have h := settle_flag (fun o => o.address.isSome) Setting.isAddress (fun _ _ => apply_address)
    given {}
  simpa using h

theorem settle_mode : (settle given {}).mode.isSome = true ↔
    ∃ s ∈ settings given, s.isAddress = true := by
  have h := settle_flag (fun o => o.mode.isSome) Setting.isAddress (fun o s => by cases s <;> rfl)
    given {}
  simpa using h

theorem eq_of_countP_le_one {l : List α} (h : l.countP p ≤ 1) (hx : x ∈ l) (hy : y ∈ l)
    (px : p x = true) (py : p y = true) : x = y := by
  rw [List.countP_eq_length_filter] at h
  have hx' := List.mem_filter.mpr ⟨hx, px⟩
  have hy' := List.mem_filter.mpr ⟨hy, py⟩
  obtain ⟨z, hz⟩ := List.length_eq_one_iff.mp (Nat.le_antisymm h (List.length_pos_of_mem hx'))
  rw [hz] at hx' hy'
  exact (List.mem_singleton.mp hx').trans (List.mem_singleton.mp hy').symm

/-- The setting of the mode, or of the parent's process ID. -/
def Setting.mode? : Setting → Option (Option Mode)
  | .address mode _ => some (some mode)
  | _ => none

def Setting.parentSessionPid? : Setting → Option (Option Int)
  | .parentSessionPid pid => some pid
  | _ => none

theorem settle_connect (hone : given.countP (·.setting.isAddress) ≤ 1) :
    (settle given {}).mode = some .connect ↔ ∃ a, .address .connect a ∈ settings given := by
  have hget (o : Options) (s : Setting) : (s.apply o).mode = s.mode?.getD o.mode := by
    cases s <;> rfl
  constructor
  · intro hm
    rcases settle_mem Options.mode Setting.mode? hget with h | ⟨s, hs, h⟩
    · rw [hm] at h
      cases h
    · rw [hm] at h
      cases s <;> cases h
      exact ⟨_, hs⟩
  · rintro ⟨a, hs⟩
    refine settle_eq Options.mode Setting.mode? hget hs rfl fun s' hs' b hb => ?_
    obtain ⟨g, hg, hgs⟩ := List.mem_map.mp hs
    obtain ⟨g', hg', rfl⟩ := List.mem_map.mp hs'
    have haddress : g'.setting.isAddress = true := by
      cases h : g'.setting <;> rw [h] at hb <;> first | rfl | cases hb
    obtain rfl := eq_of_countP_le_one hone hg hg' (by rw [hgs]; rfl) haddress
    rw [hgs] at hb
    exact (Option.some.inj hb).symm

theorem switch_parentSessionPid (h : Sets Exact rt (Given.words g) (.parentSessionPid pid)) :
    g.switch = "--parent-session-pid" := by
  obtain ⟨words, s⟩ := g
  cases h with
  | parentSessionPid h =>
    cases h
    change switchOf "--parent-session-pid" = _
    rfl
  | noParentSessionPid h =>
    cases h
    change switchOf "--parent-session-pid" = _
    rfl

theorem settle_parentSessionPid (h : Reading Exact rt args given target rest) :
    (settle given {}).parentSessionPid.isSome = true ↔
      ∃ n, .parentSessionPid (some n) ∈ settings given := by
  have hget (o : Options) (s : Setting) :
      (s.apply o).parentSessionPid = s.parentSessionPid?.getD o.parentSessionPid := by
    cases s <;> rfl
  constructor
  · intro hm
    rcases settle_mem Options.parentSessionPid Setting.parentSessionPid? hget with he | ⟨s, hs, he⟩
    · rw [he] at hm
      cases hm
    · obtain ⟨n, hn⟩ := Option.isSome_iff_exists.mp hm
      rw [hn] at he
      cases s <;> cases he
      exact ⟨n, hs⟩
  · rintro ⟨n, hs⟩
    refine Option.isSome_iff_exists.mpr ⟨n, ?_⟩
    refine settle_eq _ Setting.parentSessionPid? hget hs rfl fun s' hs' b hb => ?_
    obtain ⟨g, hg, hgs⟩ := List.mem_map.mp hs
    obtain ⟨g', hg', rfl⟩ := List.mem_map.mp hs'
    have hg'' : g'.setting = .parentSessionPid b := by
      cases h : g'.setting <;> rw [h] at hb <;> cases hb
      rfl
    have hswitch : g.switch = g'.switch :=
      (switch_parentSessionPid (hgs ▸ (h.sets g hg).1)).trans
        (switch_parentSessionPid (hg'' ▸ (h.sets g' hg').1)).symm
    obtain rfl := List.inj_on_of_nodup_map h.different hg hg' hswitch
    cases hgs.symm.trans hg''
    rfl

-- ---------------------------------------------------------------------------
-- The command lines that are sentences
-- ---------------------------------------------------------------------------

theorem checkOptions_target : checkOptions ((Setting.target kind t).apply o) = .ok u ↔
    t ≠ .text "" ∧ o.mode.isSome = true ∧
      (o.adapterAccessToken.isSome = true → o.mode = some .connect) ∧
      (o.parentSessionPid.isSome = true → o.mode = some .connect) ∧
      (kind = .pid → o.waitForClient = false) ∧ o.address.isSome = true := by
  simp [checkOptions_ok, Setting.apply, Option.isSome_iff_ne_none]

theorem settle_concat : settle (given ++ [target]) o = target.setting.apply (settle given o) :=
  settle_append

theorem sentence_iff : Sentence rt args given target rest ↔
    Reading Exact rt args given target rest ∧ given.countP (·.setting.isAddress) ≤ 1 ∧
      checkOptions (settle (given ++ [target]) {}) = .ok () := by
  have hsome : (∃ s ∈ settings given, s.isAddress = true) ↔
      0 < given.countP (·.setting.isAddress) := by
    simp [List.countP_pos_iff, settings]
  constructor
  · rintro ⟨hr, hone, hne, htoken, hpid, hwait⟩
    have hle := Nat.le_of_eq hone
    refine ⟨hr, hle, ?_⟩
    obtain ⟨words, s⟩ := target
    have htarget := hr.sets_target.2
    cases s with
    | target kind t =>
      rw [settle_concat, checkOptions_target, settle_mode, settle_address, settle_connect hle,
        settle_token, settle_parentSessionPid hr]
      refine ⟨fun ht => hne kind (congrArg _ ht), hsome.mpr (hone ▸ Nat.one_pos), ?_, ?_, ?_,
        hsome.mpr (hone ▸ Nat.one_pos)⟩
      · exact fun ⟨token, hmem⟩ => htoken token hmem
      · exact fun ⟨n, hmem⟩ => hpid n hmem
      · rintro rfl
        refine Bool.eq_false_iff.mpr fun hw => ?_
        exact hwait (settle_waitForClient.mp hw) t rfl
    | _ => cases htarget
  · rintro ⟨hr, hle, hcheck⟩
    obtain ⟨words, s⟩ := target
    have htarget := hr.sets_target.2
    cases s with
    | target kind t =>
      rw [settle_concat, checkOptions_target, settle_mode, settle_address, settle_connect hle,
        settle_token, settle_parentSessionPid hr] at hcheck
      obtain ⟨ht, hmode, htoken, hpid, hwait, -⟩ := hcheck
      refine ⟨hr, Nat.le_antisymm hle (hsome.mp hmode), ?_, ?_, ?_, ?_⟩
      · intro kind' he
        cases he
        exact ht rfl
      · exact fun token hmem => htoken ⟨token, hmem⟩
      · exact fun n hmem => hpid ⟨n, hmem⟩
      · intro hmem t' he
        cases he
        have hno := hwait rfl
        rw [settle_waitForClient.mpr hmem] at hno
        cases hno
    | _ => cases htarget

/-- Exactly the sentences are accepted, unless a switch of an accepted command
line has a newline after it. -/
theorem written_iff (rt : Runtime) (argv : List String) :
    (∀ o argv', parseArgs rt argv none = .ok (o, argv') ↔ Written rt argv o argv') ↔
      ∀ given target rest, Reading OrNewline rt argv.tail given target rest →
        given.countP (·.setting.isAddress) ≤ 1 →
        checkOptions (settle (given ++ [target]) {}) = .ok () →
        ∀ g ∈ given ++ [target], endsInNewline g.switch = false := by
  constructor
  · intro h given target rest hr hone hcheck
    have hp := parseArgs_iff_reading.mpr ⟨given, target, rest, hr, hone, rfl, hcheck, rfl⟩
    obtain ⟨given', target', rest', hs, -, -⟩ := (h _ _).mp hp
    obtain ⟨hr', hn⟩ := reading_exact_iff.mp hs.toReading
    exact hr.unique hr' ▸ hn
  · intro h o argv'
    rw [parseArgs_iff_reading]
    constructor
    · rintro ⟨given, target, rest, hr, hone, rfl, hcheck, rfl⟩
      have hexact := reading_exact_iff.mpr ⟨hr, h given target rest hr hone hcheck⟩
      exact ⟨given, target, rest, sentence_iff.mpr ⟨hexact, hone, hcheck⟩, rfl, rfl⟩
    · rintro ⟨given, target, rest, hs, rfl, rfl⟩
      obtain ⟨hexact, hone, hcheck⟩ := sentence_iff.mp hs
      exact ⟨given, target, rest, (reading_exact_iff.mp hexact).1, hone, rfl, hcheck, rfl⟩

/-- A runtime for examples. -/
def ipv4 : Runtime where
  localhost := "127.0.0.1"
  repr s := "'" ++ s ++ "'"
  intError s := "invalid literal for int() with base 10: '" ++ s ++ "'"

def listenNewline : Given := ⟨["--listen\n", "5678"], .address .listen ("127.0.0.1", 5678)⟩

theorem listenNewline_reading : Reading OrNewline ipv4 ["--listen\n", "5678", "a.py"]
    [listenNewline] ⟨["a.py"], .target .file (.text "a.py")⟩ [] where
  args_eq := rfl
  sets g hg := by
    obtain rfl := List.mem_singleton.mp hg
    have haddress : IsAddress ipv4 "5678" ("127.0.0.1", 5678) := by
      refine ⟨?_, by decide, by decide⟩
      decide +kernel
    exact ⟨.listenAt (.inr rfl) haddress, rfl⟩
  sets_target := ⟨.file (by decide), rfl⟩
  different := by simp

theorem listenNewline_not_written :
    ¬ ∀ o argv', parseArgs ipv4 ["debugpy", "--listen\n", "5678", "a.py"] none = .ok (o, argv') ↔
      Written ipv4 ["debugpy", "--listen\n", "5678", "a.py"] o argv' := by
  intro h
  have hp : ∃ o argv', parseArgs ipv4 ["debugpy", "--listen\n", "5678", "a.py"] none =
      .ok (o, argv') :=
    ⟨_, _, parseArgs_iff_reading.mpr ⟨[listenNewline], ⟨["a.py"], .target .file (.text "a.py")⟩, [],
      listenNewline_reading, by decide, rfl, rfl, rfl⟩⟩
  obtain ⟨o, argv', hp⟩ := hp
  obtain ⟨given, target, rest, hs, -, -⟩ := (h o argv').mp hp
  obtain ⟨hr, hn⟩ := reading_exact_iff.mp hs.toReading
  rw [← listenNewline_reading.unique hr] at hn
  cases hn listenNewline List.mem_cons_self

end Debugpy.Cli
