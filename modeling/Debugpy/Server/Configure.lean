import Debugpy.Lib.Dict
import Debugpy.Server.Attach

/-!
# `debugpy.configure`

The properties are checked and stored one by one, in the order of the merged
arguments, each against the type of the value it is to replace.
-/

namespace Debugpy.Api

/-- The values of properties; a dict and an object of any other class are
known by their identity. -/
inductive Value where
  | str (s : String)
  | bool (b : Bool)
  | dict (id : Nat)
  | object (cls : String) (id : Nat)
  deriving DecidableEq, Repr

inductive PyType where
  | str
  | bool
  | dict
  | cls (name : String)
  deriving DecidableEq, Repr

def Value.type : Value → PyType
  | .str _ => .str
  | .bool _ => .bool
  | .dict _ => .dict
  | .object cls _ => .cls cls

@[simp] theorem Value.type_str : (Value.str s).type = .str := rfl

@[simp] theorem Value.type_bool : (Value.bool b).type = .bool := rfl

def PyType.name : PyType → String
  | .str => "str"
  | .bool => "bool"
  | .dict => "dict"
  | .cls name => name

/-- Keys, up to equality; of `kwargs` they are all strings. -/
inductive Key where
  | str (s : String)
  | object (id : Nat)
  deriving DecidableEq, Repr

abbrev Properties := Dict Key Value

/-- How `repr` writes what is in a message. -/
structure Reprs where
  key : Key → String
  strings : List String → String

structure Call where
  properties : Option Properties := none
  kwargs : Properties := .empty
  /-- What `ensure_logging` raises. -/
  logging : Option Exn := none

def Call.merged (call : Call) : Properties :=
  match call.properties with
  | none => call.kwargs
  | some properties => properties.update call.kwargs

/-- `_config`, with `sys.executable`. -/
def defaultConfig (executable : Value) : Properties where
  entries := [(.str "qt", .str "none"), (.str "subProcess", .bool true),
    (.str "python", executable), (.str "pythonEnv", .dict 0)]
  nodup := by simp

def configValidValues (k : Key) : Option (List String) :=
  if k = .str "qt" then some Cli.qtValidValues else none

def check (rs : Reprs) (config : Properties) (k : Key) (v : Value) : Except Exn Unit :=
  match config.get? k with
  | none => throw (.valueError ("Unknown property " ++ rs.key k))
  | some old =>
    if v.type ≠ old.type then
      throw (.valueError (rs.key k ++ " must be a " ++ old.type.name))
    else match configValidValues k with
      | some validValues =>
        if v ∈ validValues.map .str then return ()
        else throw (.valueError (rs.key k ++ " must be one of: " ++ rs.strings validValues))
      | none => return ()

/-- The loop over `properties.items()`, with the configuration it leaves. -/
def store (rs : Reprs) (config : Properties) : List (Key × Value) → Properties × Except Exn Unit
  | [] => (config, .ok ())
  | (k, v) :: items => match check rs config k v with
    | .error e => (config, .error e)
    | .ok () => store rs (config.set k v) items

def configure (rs : Reprs) (config : Properties) (call : Call) : Properties × Except Exn Unit :=
  match call.logging with
  | some e => (config, .error e)
  | none => store rs config call.merged.entries

/-- The configuration after a sequence of calls, those that raised included. -/
def configured (rs : Reprs) (config : Properties) (calls : List Call) : Properties :=
  calls.foldl (fun config call => (configure rs config call).1) config

-- ---------------------------------------------------------------------------
-- One property
-- ---------------------------------------------------------------------------

def valid (config : Properties) (e : Key × Value) : Bool :=
  (config.get? e.1).any (e.2.type = ·.type) &&
    (configValidValues e.1).all fun validValues => e.2 ∈ validValues.map .str

theorem check_ok : check rs config k v = .ok () ↔ valid config (k, v) = true := by
  unfold check valid
  cases hold : config.get? k with
  | none => simp [throw, throwThe, MonadExceptOf.throw]
  | some old =>
    by_cases htype : v.type = old.type
    · cases configValidValues k with
      | none => simp [htype, pure, Except.pure]
      | some validValues =>
        by_cases hmem : v ∈ validValues.map .str
        · simp only [htype, hmem, ne_eq, not_true_eq_false, ↓reduceIte]
          simp [pure, Except.pure, List.mem_map.mp hmem]
        · simp only [htype, hmem, ne_eq, not_true_eq_false, ↓reduceIte]
          simpa [throw, throwThe, MonadExceptOf.throw] using hmem
    · simp [htype, throw, throwThe, MonadExceptOf.throw]

theorem check_error (h : check rs config k v = .error e) : ∃ text, e = .valueError text := by
  unfold check at h
  split at h
  · cases h
    exact ⟨_, rfl⟩
  · split_ifs at h
    · cases h
      exact ⟨_, rfl⟩
    · split at h
      · split_ifs at h <;> cases h
        exact ⟨_, rfl⟩
      · cases h

theorem valid_set (h : valid config (k, v) = true) : valid (config.set k v) = valid config := by
  funext e
  unfold valid
  rw [Dict.get?_set]
  split
  · next hk =>
    obtain ⟨old, hold, htype⟩ : ∃ old, config.get? k = some old ∧ v.type = old.type := by
      simpa [valid, Option.any_eq_true] using (Bool.and_eq_true_iff.mp h).1
    simp [hk, hold, htype]
  · rfl

-- ---------------------------------------------------------------------------
-- The loop
-- ---------------------------------------------------------------------------

def accepted (config : Properties) (items : List (Key × Value)) : List (Key × Value) :=
  items.takeWhile (valid config)

theorem store_fst (items : List (Key × Value)) : (store rs config items).1 =
    (accepted config items).foldl (fun d e => d.set e.1 e.2) config := by
  induction items generalizing config with
  | nil => rfl
  | cons item items ih =>
    obtain ⟨k, v⟩ := item
    rw [store, accepted]
    cases hvalid : valid config (k, v) with
    | false =>
      obtain ⟨e, he⟩ : ∃ e, check rs config k v = .error e := by
        cases hcheck : check rs config k v with
        | error e => exact ⟨e, rfl⟩
        | ok => simp [check_ok.mp hcheck] at hvalid
      simp [he, hvalid]
    | true =>
      rw [check_ok.mpr hvalid, List.takeWhile_cons_of_pos hvalid, List.foldl_cons]
      simp only [ih, accepted, valid_set hvalid]

theorem store_ok (items : List (Key × Value)) :
    (store rs config items).2 = .ok () ↔ ∀ item ∈ items, valid config item = true := by
  induction items generalizing config with
  | nil => simp [store]
  | cons item items ih =>
    obtain ⟨k, v⟩ := item
    have hhead : check rs config k v = .ok () ↔ valid config (k, v) = true := check_ok
    rw [store, List.forall_mem_cons, ← hhead]
    cases hcheck : check rs config k v with
    | error e => simp
    | ok => simp [ih, valid_set (check_ok.mp hcheck)]

theorem store_error (items : List (Key × Value)) (h : (store rs config items).2 = .error e) :
    ∃ text, e = .valueError text := by
  induction items generalizing config with
  | nil => cases h
  | cons item items ih =>
    rw [store] at h
    cases hcheck : check rs config item.1 item.2 with
    | error e' =>
      rw [hcheck] at h
      cases h
      exact check_error hcheck
    | ok =>
      rw [hcheck] at h
      exact ih h

-- ---------------------------------------------------------------------------
-- All or nothing
-- ---------------------------------------------------------------------------

/-- A call succeeds and stores all of the properties, or raises `ValueError`
and stores none. -/
def AllOrNothing (rs : Reprs) (config : Properties) (call : Call) : Prop :=
  match configure rs config call with
  | (config', .ok ()) => config' = config.update call.merged
  | (config', .error e) => (∃ text, e = .valueError text) ∧ config' = config

/-- Logging starts or raises `ValueError`, and every property is valid, or those ahead of the first
that is not have the values already that they are given. -/
def Harmless (config : Properties) (call : Call) : Prop :=
  match call.logging with
  | some e => ∃ text, e = .valueError text
  | none => (∀ item ∈ call.merged.entries, valid config item = true) ∨
    ∀ item ∈ accepted config call.merged.entries, config.get? item.1 = some item.2

theorem allOrNothing_of_logging (rs : Reprs) (config : Properties) (call : Call)
    (hlogging : call.logging = none) : AllOrNothing rs config call ↔
      (∀ item ∈ call.merged.entries, valid config item = true) ∨
        ∀ item ∈ accepted config call.merged.entries, config.get? item.1 = some item.2 := by
  have hconfigure : configure rs config call = store rs config call.merged.entries := by
    simp [configure, hlogging]
  have hfst : (store rs config call.merged.entries).1 = _ := store_fst call.merged.entries
  have hnodup : ((accepted config call.merged.entries).map Prod.fst).Nodup :=
    call.merged.nodup.sublist ((List.takeWhile_sublist _).map Prod.fst)
  have hok : (store rs config call.merged.entries).2 = .ok () ↔
      ∀ item ∈ call.merged.entries, valid config item = true := store_ok call.merged.entries
  unfold AllOrNothing
  rw [← hok, hconfigure]
  cases hresult : (store rs config call.merged.entries).2 with
  | ok =>
    have haccepted : accepted config call.merged.entries = call.merged.entries :=
      List.takeWhile_eq_self_iff.mpr (hok.mp hresult)
    rw [haccepted] at hfst
    rw [← Prod.eta (store rs config call.merged.entries), hresult]
    exact ⟨fun _ => .inl rfl, fun _ => hfst⟩
  | error e =>
    rw [← Prod.eta (store rs config call.merged.entries), hresult, hfst]
    simp only [store_error _ hresult, true_and, reduceCtorEq, false_or]
    exact Dict.foldl_set_eq_self_iff hnodup

theorem allOrNothing_iff (rs : Reprs) (config : Properties) (call : Call) :
    AllOrNothing rs config call ↔ Harmless config call := by
  unfold Harmless
  cases hlogging : call.logging with
  | some e => simp [AllOrNothing, configure, hlogging]
  | none => exact allOrNothing_of_logging rs config call hlogging

-- ---------------------------------------------------------------------------
-- Sequences of calls
-- ---------------------------------------------------------------------------

/-- The entries are those of the defaults, of their types, with listed values. -/
structure Sound (executable : Value) (config : Properties) : Prop where
  types : ∀ k, (config.get? k).map Value.type = ((defaultConfig executable).get? k).map Value.type
  listed : ∀ k v validValues, config.get? k = some v → configValidValues k = some validValues →
    v ∈ validValues.map .str

theorem Sound.set (hs : Sound executable config) (h : valid config (k, v) = true) :
    Sound executable (config.set k v) := by
  unfold valid at h
  obtain ⟨hold, hlisted⟩ := Bool.and_eq_true_iff.mp h
  obtain ⟨old, hget, htype⟩ : ∃ old, config.get? k = some old ∧ v.type = old.type := by
    simpa [Option.any_eq_true] using hold
  refine ⟨fun k' => ?_, fun k' v' validValues hv hvalid => ?_⟩
  · rw [Dict.get?_set, ← hs.types k']
    split
    · next hk => rw [hk, hget, Option.map_some, Option.map_some, htype]
    · rfl
  · rw [Dict.get?_set] at hv
    split at hv
    · next hk =>
      obtain rfl := Option.some.inj hv
      rw [← hk, hvalid] at hlisted
      simpa using hlisted
    · exact hs.listed k' v' validValues hv hvalid

theorem Sound.store (hs : Sound executable config) (items : List (Key × Value)) :
    Sound executable (store rs config items).1 := by
  induction items generalizing config with
  | nil => exact hs
  | cons item items ih =>
    rw [Api.store]
    cases hcheck : check rs config item.1 item.2 with
    | error e => exact hs
    | ok => exact ih (hs.set (check_ok.mp hcheck))

theorem Sound.configure (hs : Sound executable config) (call : Call) :
    Sound executable (configure rs config call).1 := by
  unfold Api.configure
  cases call.logging with
  | some e => exact hs
  | none => exact hs.store call.merged.entries

theorem Sound.configured (hs : Sound executable config) (calls : List Call) :
    Sound executable (configured rs config calls) := by
  induction calls generalizing config with
  | nil => exact hs
  | cons call calls ih => exact ih (hs.configure call)

theorem sound_defaultConfig (executable : Value) : Sound executable (defaultConfig executable) where
  types _ := rfl
  listed k v validValues hv hvalid := by
    unfold configValidValues at hvalid
    split_ifs at hvalid with hk
    cases hvalid
    have hdefault : (defaultConfig executable).get? k = some (.str "none") := hk ▸ rfl
    cases hv.symm.trans hdefault
    decide

/-- The loop does not look ahead, but what it stores it has checked. -/
theorem configure_meets_iff (rs : Reprs) (executable : Value) (calls : List Call)
    (config : Properties) (call : Call) :
    (AllOrNothing rs config call ↔ Harmless config call) ∧
      Sound executable (configured rs (defaultConfig executable) calls) :=
  ⟨allOrNothing_iff rs config call, (sound_defaultConfig executable).configured calls⟩

/-- `configure(qt="auto", sub_process=False)`: the second name is misspelled. -/
def misspelled : Call where
  kwargs := ⟨[(.str "qt", .str "auto"), (.str "sub_process", .bool false)], by decide⟩

/-- The call raises, and `"qt"` has been changed. -/
theorem misspelled_stores : ¬ AllOrNothing ⟨fun _ => "'sub_process'", fun _ => ""⟩
    (defaultConfig (.str "/usr/bin/python")) misspelled := by
  rw [allOrNothing_iff]
  rintro (h | h)
  · exact absurd (h (.str "sub_process", .bool false) (by decide)) (by decide)
  · exact absurd (h (.str "qt", .str "auto") (by decide)) (by decide)

-- ---------------------------------------------------------------------------
-- The command line
-- ---------------------------------------------------------------------------

/-- `debugpy.configure(options.config)`. -/
def ofCommandLine (c : Cli.Config) : Call where
  properties := some ⟨[(.str "qt", .str c.qt), (.str "subProcess", .bool c.subProcess)], by simp⟩

/-- The options are configured exactly when `start_debugging` goes on. -/
theorem configure_ofCommandLine (hs : Sound executable config) (c : Cli.Config) (p : Cli.Process) :
    (configure rs config (ofCommandLine c)).2 = .ok () ↔ ∃ p', Cli.configure c p = .ok p' := by
  have hqt : valid config (.str "qt", .str c.qt) = true ↔ c.qt ∈ Cli.qtValidValues := by
    obtain ⟨old, hold, htype⟩ := Option.map_eq_some_iff.mp (hs.types (.str "qt"))
    have hstr : old.type = .str := htype
    simp [valid, hold, hstr, configValidValues]
  have hsub : valid config (.str "subProcess", .bool c.subProcess) = true := by
    obtain ⟨old, hold, htype⟩ := Option.map_eq_some_iff.mp (hs.types (.str "subProcess"))
    have hbool : old.type = .bool := htype
    simp [valid, hold, hbool, configValidValues]
  have hmerged : (ofCommandLine c).merged.entries =
      [(.str "qt", .str c.qt), (.str "subProcess", .bool c.subProcess)] := rfl
  have hstore : configure rs config (ofCommandLine c) = store rs config _ := rfl
  rw [hstore, store_ok, hmerged, List.forall_mem_cons, List.forall_mem_singleton, hqt]
  by_cases hmem : c.qt ∈ Cli.qtValidValues
  · simp [hmem, hsub, Cli.configure, pure, Except.pure]
  · simp [hmem, Cli.configure, throw, throwThe, MonadExceptOf.throw]

end Debugpy.Api
