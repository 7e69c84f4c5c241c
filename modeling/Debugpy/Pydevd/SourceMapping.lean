import Debugpy.Lib.Dict
import Debugpy.Lib.Run
import Mathlib.Data.List.Sort

/-!
# Source mapping

`SourceMapping` of pydevd: ranges of lines of a file that run under another
name, such as a cell of a notebook. There is a table from files, one to cells,
and a cache of what was asked. `normcase` is a parameter: it depends on the
platform.
-/

namespace Debugpy.Pydevd

open Run (exec exec_cons)

structure SourceMappingEntry where
  line : Int
  endLine : Int
  runtimeLine : Int
  runtimeSource : String
  sourceFilename : Option String := none
  deriving DecidableEq, Repr

namespace SourceMappingEntry

def containsLine (e : SourceMappingEntry) (i : Int) : Bool := e.line ≤ i && i ≤ e.endLine

def containsRuntimeLine (e : SourceMappingEntry) (i : Int) : Bool :=
  let lineCount := e.endLine + e.line
  let runtimeEndLine := e.runtimeLine + lineCount
  e.runtimeLine ≤ i && i ≤ runtimeEndLine

end SourceMappingEntry

abbrev Place := Option String × Int × Bool

structure SourceMapping where
  mappingsToServer : Dict String (List SourceMappingEntry) := .empty
  mappingsToClient : Dict String String := .empty
  /-- The cache, for each kind of key. -/
  clientCache : Dict (Int × String) Place := .empty
  entryCache : Dict String Bool := .empty

namespace SourceMapping

def conflictText (filename runtimeSource existing : String) : String :=
  "Cannot apply mapping from " ++ filename ++ " to " ++ runtimeSource ++
    " (it conflicts with mapping: " ++ existing ++ " to " ++ runtimeSource ++ ")"

def conflict (s : SourceMapping) (filename : String) : List SourceMappingEntry → Option String
  | [] => none
  | e :: mapping =>
    match s.mappingsToClient.get? e.runtimeSource with
    | some existing =>
      if existing ≠ "" ∧ existing ≠ filename then
        some (conflictText filename e.runtimeSource existing)
      else s.conflict filename mapping
    | none => s.conflict filename mapping

theorem conflictText_ne_empty : conflictText filename runtimeSource existing ≠ "" := by
  intro h
  unfold conflictText at h
  exact absurd (String.append_eq_empty_iff.mp h).2 (by decide)

theorem conflict_ne_empty {s : SourceMapping} {filename : String} {mapping : List SourceMappingEntry}
    (h : s.conflict filename mapping = some text) : text ≠ "" := by
  induction mapping with
  | nil => cases h
  | cons e mapping ih =>
    unfold conflict at h
    split at h
    · split at h
      · cases h
        exact conflictText_ne_empty
      · exact ih h
    · exact ih h

/-- `del` for each cell; it raises `KeyError` for one that is not there. -/
def deleteAll (d : Dict String String) : List String → Option String × Dict String String
  | [] => (none, d)
  | cell :: cells => if cell ∈ d.keys then deleteAll (d.erase cell) cells else (some cell, d)

/-- An error message, or the cell that `KeyError` is raised for. -/
inductive Outcome where
  | message (text : String)
  | keyError (cell : String)
  deriving DecidableEq, Repr

section
variable (normcase : String → String)

def setSourceMapping (s : SourceMapping) (filename : String) (mapping : List SourceMappingEntry) :
    Outcome × SourceMapping :=
  match s.conflict filename mapping with
  | some text => (.message text, s)
  | none =>
    let currentMapping := (s.mappingsToServer.get? (normcase filename)).getD []
    match deleteAll s.mappingsToClient (currentMapping.map (·.runtimeSource)) with
    | (some cell, mappingsToClient) =>
      (.keyError cell, { s with mappingsToClient, clientCache := .empty, entryCache := .empty })
    | (none, mappingsToClient) =>
      (.message "", {
        mappingsToServer := s.mappingsToServer.set (normcase filename)
          (mapping.insertionSort fun a b => a.line ≤ b.line)
        mappingsToClient := mapping.foldl (fun d e => d.set e.runtimeSource filename) mappingsToClient })

def entries (s : SourceMapping) : List SourceMappingEntry := s.mappingsToServer.values.flatten

/-- What `map_to_client` gives when it is not in the cache. -/
def lookupClient (s : SourceMapping) (runtimeSource : String) (lineno : Int) : Place :=
  match s.entries.find? fun e => e.runtimeSource = runtimeSource && e.containsRuntimeLine lineno with
  | some e => (e.sourceFilename, e.line + (lineno - e.runtimeLine), true)
  | none => (some runtimeSource, lineno, false)

def mapToClient (s : SourceMapping) (runtimeSource : String) (lineno : Int) : Place × SourceMapping :=
  match s.clientCache.get? (lineno, runtimeSource) with
  | some place => (place, s)
  | none =>
    let place := s.lookupClient runtimeSource lineno
    (place, { s with clientCache := s.clientCache.set (lineno, runtimeSource) place })

def hasEntry (s : SourceMapping) (runtimeSource : String) : Bool :=
  s.entries.any fun e => e.runtimeSource = runtimeSource

def hasMappingEntry (s : SourceMapping) (runtimeSource : String) : Bool × SourceMapping :=
  match s.entryCache.get? runtimeSource with
  | some found => (found, s)
  | none =>
    let found := s.hasEntry runtimeSource
    (found, { s with entryCache := s.entryCache.set runtimeSource found })

def bisect (mappings : List SourceMappingEntry) (lineno : Int) : Nat :=
  (mappings.takeWhile (·.line ≤ lineno)).length

/-- The entry that `map_to_server` picks. -/
def entryFor (mappings : List SourceMappingEntry) (lineno : Int) : Option SourceMappingEntry :=
  let i := bisect mappings lineno
  let i := if mappings.length ≤ i then i - 1 else i
  let entry := if i = 0 then mappings[i]? else mappings[i - 1]?
  if entry.any (·.containsLine lineno) then entry else mappings[i]?.filter (·.containsLine lineno)

def mapToServer (s : SourceMapping) (filename : String) (lineno : Int) : String × Int × Bool :=
  match ((s.mappingsToServer.get? (normcase filename)).bind fun mappings => entryFor mappings lineno) with
  | some e => (e.runtimeSource, e.runtimeLine + (lineno - e.line), true)
  | none => (filename, lineno, false)

/-- One call. -/
inductive Op where
  | set (filename : String) (mapping : List SourceMappingEntry)
  | toClient (runtimeSource : String) (lineno : Int)
  | hasEntry (runtimeSource : String)

def op (s : SourceMapping) : Op → Option SourceMapping
  | .set filename mapping => some (s.setSourceMapping normcase filename mapping).2
  | .toClient runtimeSource lineno => some (s.mapToClient runtimeSource lineno).2
  | .hasEntry runtimeSource => some (s.hasMappingEntry runtimeSource).2

end

-- ---------------------------------------------------------------------------
-- The cache
-- ---------------------------------------------------------------------------

variable {normcase : String → String} {s s' : SourceMapping}

/-- What is in the cache is what would be computed. -/
structure Coherent (s : SourceMapping) : Prop where
  client : ∀ {lineno runtimeSource place}, s.clientCache.get? (lineno, runtimeSource) = some place →
    place = s.lookupClient runtimeSource lineno
  entry : ∀ {runtimeSource found}, s.entryCache.get? runtimeSource = some found →
    found = s.hasEntry runtimeSource

theorem Coherent.of_empty (hclient : s.clientCache = .empty) (hentry : s.entryCache = .empty) :
    Coherent s where
  client h := by simp [hclient] at h
  entry h := by simp [hentry] at h

theorem Coherent.mapToClient_fst (h : Coherent s) (runtimeSource : String) (lineno : Int) :
    (s.mapToClient runtimeSource lineno).1 = s.lookupClient runtimeSource lineno := by
  unfold mapToClient
  split
  · next place hplace => exact h.client hplace
  · rfl

theorem Coherent.hasMappingEntry_fst (h : Coherent s) (runtimeSource : String) :
    (s.hasMappingEntry runtimeSource).1 = s.hasEntry runtimeSource := by
  unfold hasMappingEntry
  split
  · next found hfound => exact h.entry hfound
  · rfl

theorem Coherent.next (h : Coherent s) (hop : op normcase s o = some s') : Coherent s' := by
  cases o with
  | set filename mapping =>
    cases hop
    unfold setSourceMapping
    split
    · exact h
    · dsimp only
      split <;> exact .of_empty rfl rfl
  | toClient runtimeSource lineno =>
    cases hop
    unfold mapToClient
    split
    · exact h
    · refine ⟨fun {lineno' runtimeSource' place} hget => ?_, fun hget => h.entry hget⟩
      rw [Dict.get?_set] at hget
      split at hget
      · next heq =>
        cases heq
        exact (Option.some.inj hget).symm
      · exact h.client hget
  | hasEntry runtimeSource =>
    cases hop
    unfold hasMappingEntry
    split
    · exact h
    · refine ⟨fun hget => h.client hget, fun {runtimeSource' found} hget => ?_⟩
      rw [Dict.get?_set] at hget
      split at hget
      · next heq =>
        cases heq
        exact (Option.some.inj hget).symm
      · exact h.entry hget

def Op.isSet : Op → Bool
  | .set _ _ => true
  | _ => false

/-- The two have the same mappings. -/
structure SameTables (s s₀ : SourceMapping) : Prop where
  server : s.mappingsToServer = s₀.mappingsToServer
  client : s.mappingsToClient = s₀.mappingsToClient

theorem SameTables.conflict_eq (h : SameTables s s₀) (filename : String)
    (mapping : List SourceMappingEntry) : s.conflict filename mapping = s₀.conflict filename mapping := by
  induction mapping with
  | nil => rfl
  | cons e mapping ih => simp only [conflict, h.client, ih]

theorem SameTables.set (h : SameTables s s₀) (filename : String) (mapping : List SourceMappingEntry) :
    SameTables (s.setSourceMapping normcase filename mapping).2
      (s₀.setSourceMapping normcase filename mapping).2 := by
  unfold setSourceMapping
  rw [h.conflict_eq, h.server, h.client]
  split
  · exact h
  · dsimp only
    split <;> exact ⟨rfl, rfl⟩

theorem SameTables.query (hop : op normcase s o = some s') (ho : o.isSet = false) :
    SameTables s' s := by
  cases o with
  | set => cases ho
  | toClient runtimeSource lineno =>
    cases hop
    unfold mapToClient
    split <;> exact ⟨rfl, rfl⟩
  | hasEntry runtimeSource =>
    cases hop
    unfold hasMappingEntry
    split <;> exact ⟨rfl, rfl⟩

theorem mappingsToServer_of_refused {filename : String} {mapping : List SourceMappingEntry}
    (h : (s.setSourceMapping normcase filename mapping).1 ≠ .message "") :
    (s.setSourceMapping normcase filename mapping).2.mappingsToServer = s.mappingsToServer := by
  unfold setSourceMapping at h ⊢
  split
  · rfl
  · next hconflict =>
    rw [hconflict] at h
    dsimp only at h ⊢
    split
    · rfl
    · next hdelete =>
      rw [hdelete] at h
      exact absurd rfl h

theorem SameTables.run (h : SameTables s s₀) (hrun : exec (op normcase) s ops = some t) :
    ∃ t₀, exec (op normcase) s₀ (ops.filter Op.isSet) = some t₀ ∧ SameTables t t₀ := by
  induction ops generalizing s s₀ with
  | nil =>
    cases hrun
    exact ⟨s₀, rfl, h⟩
  | cons o ops ih =>
    obtain ⟨s', hop, ht⟩ := exec_cons.mp hrun
    cases ho : o.isSet with
    | false =>
      rw [List.filter_cons_of_neg (by simp [ho])]
      have hquery := SameTables.query hop ho
      exact ih ⟨hquery.server.trans h.server, hquery.client.trans h.client⟩ ht
    | true =>
      rw [List.filter_cons_of_pos ho]
      cases o with
      | set filename mapping =>
        cases hop
        obtain ⟨t₀, ht₀, hsame⟩ := ih (h.set filename mapping) ht
        exact ⟨t₀, exec_cons.mpr ⟨_, rfl, ht₀⟩, hsame⟩
      | _ => cases ho

/-- Whatever was asked before, what is answered is what a map that was never
asked computes from its tables. -/
theorem answers_of_run (normcase : String → String) (ops : List Op) (s : SourceMapping)
    (h : exec (op normcase) {} ops = some s) :
    ∃ s₀, exec (op normcase) {} (ops.filter Op.isSet) = some s₀ ∧
      (∀ runtimeSource lineno,
        (s.mapToClient runtimeSource lineno).1 = s₀.lookupClient runtimeSource lineno) ∧
      (∀ runtimeSource, (s.hasMappingEntry runtimeSource).1 = s₀.hasEntry runtimeSource) ∧
      (∀ filename lineno, s.mapToServer normcase filename lineno = s₀.mapToServer normcase filename lineno) ∧
      ∀ filename mapping, (s.setSourceMapping normcase filename mapping).1 =
        (s₀.setSourceMapping normcase filename mapping).1 := by
  have hcoherent : Coherent s :=
    Run.exec_keeps Coherent (fun h hop => h.next hop) (.of_empty rfl rfl) h
  have hfresh : SameTables ({} : SourceMapping) {} := ⟨rfl, rfl⟩
  obtain ⟨s₀, hs₀, hsame⟩ := hfresh.run h
  refine ⟨s₀, hs₀, fun runtimeSource lineno => ?_, fun runtimeSource => ?_, fun filename lineno => ?_,
    fun filename mapping => ?_⟩
  · rw [hcoherent.mapToClient_fst, lookupClient, lookupClient, entries, entries, hsame.server]
  · rw [hcoherent.hasMappingEntry_fst, hasEntry, hasEntry, entries, entries, hsame.server]
  · rw [mapToServer, mapToServer, hsame.server]
  · unfold setSourceMapping
    rw [hsame.conflict_eq, hsame.server, hsame.client]
    split <;> rfl

/-- A cell is asked for before and after a file is mapped to it. -/
def askBeforeAndAfter : List Op :=
  [.hasEntry "<cell>", .toClient "<cell>" 2,
    .set "a.py" [{ line := 10, endLine := 12, runtimeLine := 1, runtimeSource := "<cell>", sourceFilename := some "a.py" }],
    .toClient "<cell>" 2]

theorem answers_of_run_askBeforeAndAfter : ∃ s s₀, exec (op id) {} askBeforeAndAfter = some s ∧
    exec (op id) {} (askBeforeAndAfter.filter Op.isSet) = some s₀ ∧
      (∀ runtimeSource lineno,
        (s.mapToClient runtimeSource lineno).1 = s₀.lookupClient runtimeSource lineno) ∧
      (∀ runtimeSource, (s.hasMappingEntry runtimeSource).1 = s₀.hasEntry runtimeSource) ∧
      (∀ filename lineno, s.mapToServer id filename lineno = s₀.mapToServer id filename lineno) ∧
      ∀ filename mapping, (s.setSourceMapping id filename mapping).1 =
        (s₀.setSourceMapping id filename mapping).1 := by
  obtain ⟨s₀, h⟩ := answers_of_run id askBeforeAndAfter _ rfl
  exact ⟨_, s₀, rfl, h⟩

-- ---------------------------------------------------------------------------
-- The two tables
-- ---------------------------------------------------------------------------

def mappingOf (s : SourceMapping) (name : String) : List SourceMappingEntry :=
  (s.mappingsToServer.get? name).getD []

def cellsOf (s : SourceMapping) (name : String) : List String :=
  (s.mappingOf name).map (·.runtimeSource)

/-- Each of the tables has what the other one has, so that no cell belongs to
two files. -/
structure OneToMany (normcase : String → String) (s : SourceMapping) : Prop where
  nodup : ∀ name, (s.cellsOf name).Nodup
  named : ∀ {cell filename}, s.mappingsToClient.get? cell = some filename → filename ≠ ""
  toClient : ∀ {cell filename}, s.mappingsToClient.get? cell = some filename →
    cell ∈ s.cellsOf (normcase filename)
  toServer : ∀ {name cell}, cell ∈ s.cellsOf name →
    ∃ filename, normcase filename = name ∧ s.mappingsToClient.get? cell = some filename

theorem OneToMany.unique (h : OneToMany normcase s) (hcell : cell ∈ s.cellsOf name)
    (hcell' : cell ∈ s.cellsOf name') : name = name' := by
  obtain ⟨filename, rfl, hget⟩ := h.toServer hcell
  obtain ⟨filename', rfl, hget'⟩ := h.toServer hcell'
  rw [Option.some.inj (hget.symm.trans hget')]

theorem deleteAll_of_nodup {d : Dict String String} {cells : List String} (hnodup : cells.Nodup)
    (h : ∀ cell ∈ cells, cell ∈ d.keys) :
    ∃ d', deleteAll d cells = (none, d') ∧
      ∀ cell, d'.get? cell = if cell ∈ cells then none else d.get? cell := by
  induction cells generalizing d with
  | nil => exact ⟨d, rfl, fun cell => by simp⟩
  | cons c cells ih =>
    obtain ⟨hc, hcells⟩ := List.nodup_cons.mp hnodup
    obtain ⟨hmem, hrest⟩ := List.forall_mem_cons.mp h
    have hkeys : ∀ cell ∈ cells, cell ∈ (d.erase c).keys := by
      intro cell hcell
      obtain ⟨v, hv⟩ := Dict.mem_keys.mp (hrest cell hcell)
      refine Dict.mem_keys.mpr ⟨v, ?_⟩
      have hne : cell ≠ c := fun heq => hc (heq ▸ hcell)
      rw [Dict.get?_erase, if_neg hne, hv]
    obtain ⟨d', hdelete, hget⟩ := ih hcells hkeys
    refine ⟨d', by rw [deleteAll, if_pos hmem, hdelete], fun cell => ?_⟩
    rw [hget, Dict.get?_erase]
    by_cases hcell : cell ∈ cells <;> by_cases heq : cell = c <;> simp [hcell, heq]

/-- A name that occurs twice cannot be deleted twice. -/
theorem deleteAll_of_not_nodup {d : Dict String String} {cells : List String}
    (h : ¬ cells.Nodup) : ∃ cell d', deleteAll d cells = (some cell, d') := by
  have habsent {d : Dict String String} {c : String} {cells : List String} (hc : c ∈ cells)
      (hd : c ∉ d.keys) : ∃ cell d', deleteAll d cells = (some cell, d') := by
    induction cells generalizing d with
    | nil => cases hc
    | cons c' cells ih =>
      by_cases hmem : c' ∈ d.keys
      · have hne : c ≠ c' := fun heq => hd (heq ▸ hmem)
        rw [deleteAll, if_pos hmem]
        refine ih ((List.mem_cons.mp hc).resolve_left hne) fun hkeys => hd ?_
        obtain ⟨v, hv⟩ := Dict.mem_keys.mp hkeys
        rw [Dict.get?_erase, if_neg hne] at hv
        exact Dict.mem_keys.mpr ⟨v, hv⟩
      · exact ⟨c', d, by rw [deleteAll, if_neg hmem]⟩
  induction cells generalizing d with
  | nil => exact absurd List.nodup_nil h
  | cons c cells ih =>
    by_cases hmem : c ∈ d.keys
    · rw [deleteAll, if_pos hmem]
      by_cases hc : c ∈ cells
      · refine habsent hc fun hkeys => ?_
        obtain ⟨v, hv⟩ := Dict.mem_keys.mp hkeys
        simp [Dict.get?_erase] at hv
      · exact ih fun hnodup => h (List.nodup_cons.mpr ⟨hc, hnodup⟩)
    · exact ⟨c, d, by rw [deleteAll, if_neg hmem]⟩

theorem get?_foldl_cells (d : Dict String String) (filename : String)
    (mapping : List SourceMappingEntry) (cell : String) :
    (mapping.foldl (fun d e => d.set e.runtimeSource filename) d).get? cell =
      if cell ∈ mapping.map (·.runtimeSource) then some filename else d.get? cell := by
  induction mapping generalizing d with
  | nil => rfl
  | cons e mapping ih =>
    rw [List.foldl_cons, ih, Dict.get?_set]
    by_cases hmem : cell ∈ mapping.map (·.runtimeSource) <;> by_cases heq : cell = e.runtimeSource <;>
      simp_all

theorem of_conflict_none {filename : String} {mapping : List SourceMappingEntry}
    (h : s.conflict filename mapping = none) (he : e ∈ mapping)
    (hget : s.mappingsToClient.get? e.runtimeSource = some existing) :
    existing = "" ∨ existing = filename := by
  induction mapping with
  | nil => cases he
  | cons e' mapping ih =>
    unfold conflict at h
    rcases List.mem_cons.mp he with rfl | he
    · rw [hget] at h
      dsimp only at h
      split at h
      · cases h
      · next hnot => exact Decidable.or_iff_not_not_and_not.mpr hnot
    · split at h
      · split at h
        · cases h
        · exact ih h he
      · exact ih h he

theorem OneToMany.set (h : OneToMany normcase s) (filename : String)
    (mapping : List SourceMappingEntry) :
    (∃ text, s.setSourceMapping normcase filename mapping = (.message text, s)) ∨
    s.conflict filename mapping = none ∧
    ∃ mappingsToClient, s.setSourceMapping normcase filename mapping = (.message "", {
        mappingsToServer := s.mappingsToServer.set (normcase filename)
          (mapping.insertionSort fun a b => a.line ≤ b.line)
        mappingsToClient }) ∧
      ∀ cell, mappingsToClient.get? cell =
        if cell ∈ mapping.map (·.runtimeSource) then some filename
        else if cell ∈ s.cellsOf (normcase filename) then none else s.mappingsToClient.get? cell := by
  unfold setSourceMapping
  cases hconflict : s.conflict filename mapping with
  | some text => exact .inl ⟨text, rfl⟩
  | none =>
    obtain ⟨d', hdelete, hget⟩ := deleteAll_of_nodup (d := s.mappingsToClient)
      (h.nodup (normcase filename)) fun cell hcell => by
        obtain ⟨filename', -, hget⟩ := h.toServer hcell
        exact Dict.mem_keys.mpr ⟨filename', hget⟩
    rw [cellsOf, mappingOf] at hdelete
    refine .inr ⟨rfl, mapping.foldl (fun d e => d.set e.runtimeSource filename) d', ?_, fun cell => ?_⟩
    · simp only [hdelete]
    · rw [get?_foldl_cells, hget]

theorem mappingOf_set (name name' : String) (mapping : List SourceMappingEntry)
    (mappingsToClient : Dict String String) :
    mappingOf { mappingsToServer := s.mappingsToServer.set name mapping, mappingsToClient } name' =
      if name' = name then mapping else s.mappingOf name' := by
  rw [mappingOf, mappingOf, Dict.get?_set]
  split <;> rfl

theorem cellsOf_set (name name' : String) (mapping : List SourceMappingEntry)
    (mappingsToClient : Dict String String) :
    cellsOf { mappingsToServer := s.mappingsToServer.set name mapping, mappingsToClient } name' =
      if name' = name then mapping.map (·.runtimeSource) else s.cellsOf name' := by
  rw [cellsOf, mappingOf_set]
  split <;> rfl

/-- Each mapping that is set names a file, and each cell once. -/
def Op.Distinct : Op → Prop
  | .set filename mapping => filename ≠ "" ∧ (mapping.map (·.runtimeSource)).Nodup
  | _ => True

theorem OneToMany.of_tables (h : OneToMany normcase s)
    (hserver : s'.mappingsToServer = s.mappingsToServer)
    (hclient : s'.mappingsToClient = s.mappingsToClient) : OneToMany normcase s' := by
  have hcells (name : String) : s'.cellsOf name = s.cellsOf name := by
    rw [cellsOf, cellsOf, mappingOf, mappingOf, hserver]
  refine ⟨fun name => hcells name ▸ h.nodup name, fun hget => h.named (hclient ▸ hget),
    fun hget => ?_, fun hcell => ?_⟩
  · rw [hcells]
    exact h.toClient (hclient ▸ hget)
  · rw [hclient]
    exact h.toServer (hcells _ ▸ hcell)

theorem OneToMany.next (h : OneToMany normcase s) (hd : o.Distinct) (hop : op normcase s o = some s') :
    OneToMany normcase s' := by
  cases o with
  | toClient runtimeSource lineno =>
    cases hop
    unfold mapToClient
    split <;> exact h.of_tables rfl rfl
  | hasEntry runtimeSource =>
    cases hop
    unfold hasMappingEntry
    split <;> exact h.of_tables rfl rfl
  | set filename mapping =>
    obtain ⟨hname, hnodup⟩ := hd
    cases hop
    rcases h.set filename mapping with ⟨text, hset⟩ | ⟨hconflict, mappingsToClient, hset, hget⟩
    · rw [hset]
      exact h
    rw [hset]
    have hperm := ((List.perm_insertionSort (fun a b : SourceMappingEntry => a.line ≤ b.line)
      mapping).map (·.runtimeSource))
    generalize hsorted : (mapping.insertionSort fun a b => a.line ≤ b.line) = sorted at hperm ⊢
    -- the cells of this mapping belong to no other file
    have hother {cell filename'} (hmem : cell ∈ mapping.map (·.runtimeSource))
        (hold : s.mappingsToClient.get? cell = some filename') : filename' = filename := by
      obtain ⟨e, he, rfl⟩ := List.mem_map.mp hmem
      exact (of_conflict_none hconflict he hold).resolve_left (h.named hold)
    refine ⟨fun name => ?_, fun {cell filename'} hnew => ?_, fun {cell filename'} hnew => ?_,
      fun {name cell} hcell => ?_⟩
    · rw [cellsOf_set]
      split
      · exact hperm.nodup_iff.mpr hnodup
      · exact h.nodup name
    · rw [hget] at hnew
      split at hnew
      · cases hnew
        exact hname
      · split at hnew
        · cases hnew
        · exact h.named hnew
    · rw [hget] at hnew
      rw [cellsOf_set]
      split at hnew
      · next hmem =>
        cases hnew
        rw [if_pos rfl]
        exact hperm.mem_iff.mpr hmem
      · split at hnew
        · cases hnew
        · next hnot =>
          have hold := h.toClient hnew
          have hne : normcase filename' ≠ normcase filename := fun heq => hnot (heq ▸ hold)
          rw [if_neg hne]
          exact hold
    · rw [cellsOf_set] at hcell
      split at hcell
      · next hname' =>
        refine ⟨filename, hname'.symm, ?_⟩
        rw [hget, if_pos (hperm.mem_iff.mp hcell)]
      · next hne =>
        obtain ⟨filename', rfl, hold⟩ := h.toServer hcell
        refine ⟨filename', rfl, ?_⟩
        rw [hget, if_neg fun hmem => hne (congrArg normcase (hother hmem hold)),
          if_neg fun hmem => hne (h.unique hcell hmem), hold]

-- ---------------------------------------------------------------------------
-- There and back
-- ---------------------------------------------------------------------------

theorem entryFor_of_contains {mappings : List SourceMappingEntry}
    (hapart : mappings.Pairwise fun a b => a.endLine < b.line)
    (hranges : ∀ e ∈ mappings, e.line ≤ e.endLine) (he : e ∈ mappings)
    (hcontains : e.containsLine lineno = true) : entryFor mappings lineno = some e := by
  obtain ⟨before, after, rfl⟩ := List.append_of_mem he
  have hline : e.line ≤ lineno ∧ lineno ≤ e.endLine := by
    simpa [SourceMappingEntry.containsLine] using hcontains
  obtain ⟨-, htail, hcross⟩ := List.pairwise_append.mp hapart
  have hbefore : ∀ a ∈ before, a.endLine < lineno := fun a ha =>
    Int.lt_of_lt_of_le (hcross a ha e List.mem_cons_self) hline.1
  have hafter : ∀ a ∈ after, lineno < a.line := fun a ha =>
    Int.lt_of_le_of_lt hline.2 ((List.pairwise_cons.mp htail).1 a ha)
  have hbisect : bisect (before ++ e :: after) lineno = before.length + 1 := by
    have hpass : ∀ a ∈ before, decide (a.line ≤ lineno) = true := by
      intro a ha
      have := hranges a (by simp [ha])
      have := hbefore a ha
      simp only [decide_eq_true_eq]
      omega
    have hstop : after.takeWhile (·.line ≤ lineno) = [] := by
      cases after with
      | nil => rfl
      | cons a after =>
        have := hafter a List.mem_cons_self
        exact List.takeWhile_cons_of_neg (by simp only [decide_eq_true_eq]; omega)
    rw [bisect, List.takeWhile_append_of_pos hpass, List.takeWhile_cons_of_pos (by simpa using hline.1),
      hstop, List.length_append, List.length_singleton]
  have hat : (before ++ e :: after)[before.length]? = some e := by simp
  unfold entryFor
  simp only [hbisect, List.length_append, List.length_cons, Nat.add_sub_cancel]
  by_cases hlast : after = []
  · subst hlast
    rw [List.length_nil, if_pos (Nat.le_refl _), hat]
    rcases List.eq_nil_or_concat before with rfl | ⟨first, a, rfl⟩
    · simp [hcontains]
    · -- the entry looked at first is the one before
      have hnot : a.containsLine lineno = false := by
        have := hbefore a (by simp)
        simp only [SourceMappingEntry.containsLine, Bool.and_eq_false_iff, decide_eq_false_iff_not]
        omega
      simp [hcontains, hnot]
  · have hpos := List.length_pos_of_ne_nil hlast
    have hi : ¬ before.length + (after.length + 1) ≤ before.length + 1 := by omega
    simp only [hi, if_false, Nat.add_eq_zero_iff, Nat.one_ne_zero, and_false, Nat.add_sub_cancel, hat]
    simp [hcontains]

theorem mem_of_entryFor {mappings : List SourceMappingEntry} (h : entryFor mappings lineno = some e) :
    e ∈ mappings ∧ e.containsLine lineno = true := by
  unfold entryFor at h
  dsimp only at h
  generalize (if mappings.length ≤ bisect mappings lineno then bisect mappings lineno - 1
    else bisect mappings lineno) = i at h
  obtain ⟨j, hj⟩ : ∃ j, (if i = 0 then mappings[i]? else mappings[i - 1]?) = mappings[j]? := by
    split
    · exact ⟨i, rfl⟩
    · exact ⟨i - 1, rfl⟩
  rw [hj] at h
  split at h
  · next hany =>
    rw [h] at hany
    exact ⟨List.mem_of_getElem? h, by simpa using hany⟩
  · obtain ⟨hmem, hcontains⟩ := Option.filter_eq_some_iff.mp h
    exact ⟨List.mem_of_getElem? hmem, hcontains⟩

/-- Each mapping that is set has its ranges apart, with the file's name, as
`PyDevdAPI.set_source_mapping` stores it. -/
def Op.Ranged : Op → Prop
  | .set filename mapping =>
    mapping.Pairwise (fun a b => a.endLine < b.line ∨ b.endLine < a.line) ∧
      ∀ e ∈ mapping, 0 ≤ e.line ∧ e.line ≤ e.endLine ∧ e.sourceFilename = some filename
  | _ => True

structure Ranged (normcase : String → String) (s : SourceMapping) : Prop where
  apart : ∀ name, (s.mappingOf name).Pairwise fun a b => a.endLine < b.line
  range : ∀ {name e}, e ∈ s.mappingOf name → 0 ≤ e.line ∧ e.line ≤ e.endLine
  filename : ∀ {name e}, e ∈ s.mappingOf name →
    ∃ filename, e.sourceFilename = some filename ∧ normcase filename = name

theorem Ranged.of_tables (h : Ranged normcase s)
    (hserver : s'.mappingsToServer = s.mappingsToServer) : Ranged normcase s' := by
  have hmapping (name : String) : s'.mappingOf name = s.mappingOf name := by
    rw [mappingOf, mappingOf, hserver]
  exact ⟨fun name => hmapping name ▸ h.apart name, fun he => h.range (hmapping _ ▸ he),
    fun he => h.filename (hmapping _ ▸ he)⟩

theorem Ranged.next (h : Ranged normcase s) (ho : OneToMany normcase s) (hr : o.Ranged)
    (hop : op normcase s o = some s') : Ranged normcase s' := by
  cases o with
  | toClient runtimeSource lineno =>
    cases hop
    unfold mapToClient
    split <;> exact h.of_tables rfl
  | hasEntry runtimeSource =>
    cases hop
    unfold hasMappingEntry
    split <;> exact h.of_tables rfl
  | set filename mapping =>
    obtain ⟨hapart, hentries⟩ := hr
    cases hop
    rcases ho.set filename mapping with ⟨text, hset⟩ | ⟨-, mappingsToClient, hset, -⟩
    · rw [hset]
      exact h
    rw [hset]
    have hperm := List.perm_insertionSort (fun a b : SourceMappingEntry => a.line ≤ b.line) mapping
    have hle := List.pairwise_insertionSort (fun a b : SourceMappingEntry => a.line ≤ b.line) mapping
    generalize (mapping.insertionSort fun a b => a.line ≤ b.line) = sorted at hperm hle ⊢
    have hsorted : sorted.Pairwise fun a b => a.endLine < b.line := by
      have hboth := (hperm.pairwise_iff fun h => h.symm).mpr hapart
      refine (hle.and hboth).imp_of_mem fun {a b} _ hb hab => ?_
      have := (hentries b (hperm.mem_iff.mp hb)).2.1
      omega
    refine ⟨fun name => ?_, fun {name e} he => ?_, fun {name e} he => ?_⟩
    · rw [mappingOf_set]
      split
      · exact hsorted
      · exact h.apart name
    · rw [mappingOf_set] at he
      split at he
      · have := hentries e (hperm.mem_iff.mp he)
        exact ⟨this.1, this.2.1⟩
      · exact h.range he
    · rw [mappingOf_set] at he
      split at he
      · next hname => exact ⟨filename, (hentries e (hperm.mem_iff.mp he)).2.2, hname.symm⟩
      · exact h.filename he

theorem mem_entries : e ∈ s.entries ↔ ∃ name, e ∈ s.mappingOf name := by
  simp only [entries, List.mem_flatten, Dict.mem_values, mappingOf]
  constructor
  · rintro ⟨mapping, ⟨name, hname⟩, he⟩
    exact ⟨name, by rwa [hname]⟩
  · rintro ⟨name, he⟩
    cases hname : s.mappingsToServer.get? name with
    | none => simp [hname] at he
    | some mapping => exact ⟨mapping, ⟨name, hname⟩, by rwa [hname] at he⟩

theorem lookupClient_of_mem (ho : OneToMany normcase s) (hr : Ranged normcase s)
    (he : e ∈ s.mappingOf name) (hcontains : e.containsLine lineno = true) :
    s.lookupClient e.runtimeSource (e.runtimeLine + (lineno - e.line)) =
      (e.sourceFilename, lineno, true) := by
  have hline : e.line ≤ lineno ∧ lineno ≤ e.endLine := by
    simpa [SourceMappingEntry.containsLine] using hcontains
  have hruntime : e.containsRuntimeLine (e.runtimeLine + (lineno - e.line)) = true := by
    have := hr.range he
    simp only [SourceMappingEntry.containsRuntimeLine, Bool.and_eq_true, decide_eq_true_eq]
    omega
  obtain ⟨e', hfind⟩ : ∃ e', (s.entries.find? fun e' => e'.runtimeSource = e.runtimeSource &&
      e'.containsRuntimeLine (e.runtimeLine + (lineno - e.line))) = some e' :=
    Option.isSome_iff_exists.mp (List.find?_isSome.mpr ⟨e, mem_entries.mpr ⟨name, he⟩, by simp [hruntime]⟩)
  have hcell : e'.runtimeSource = e.runtimeSource := by
    have := List.find?_some hfind
    simp only [Bool.and_eq_true, decide_eq_true_eq] at this
    exact this.1
  obtain ⟨name', he'⟩ := mem_entries.mp (List.mem_of_find?_eq_some hfind)
  have hmem : e.runtimeSource ∈ s.cellsOf name := List.mem_map_of_mem he
  have hname : name' = name := ho.unique (hcell ▸ List.mem_map_of_mem he') hmem
  subst hname
  have heq : e' = e := List.inj_on_of_nodup_map (ho.nodup name') he' he hcell
  simp only [lookupClient, hfind, heq, Prod.mk.injEq, and_true, true_and]
  omega

theorem tables_of_run (hops : ∀ o ∈ ops, o.Distinct ∧ o.Ranged)
    (h : exec (op normcase) {} ops = some s) : OneToMany normcase s ∧ Ranged normcase s := by
  have hok : Run.Meets (op normcase) (fun _ o => Op.Distinct o ∧ o.Ranged) {} ops :=
    Run.meets_of_forall fun o ho _ => hops o ho
  refine Run.exec_invariant (I := fun s => OneToMany normcase s ∧ Ranged normcase s)
    (fun hI ho hop => ⟨hI.1.next ho.1 hop, hI.2.next hI.1 ho.2 hop⟩) ?_ hok h
  have hnone (name : String) : ({} : SourceMapping).mappingOf name = [] := rfl
  exact ⟨⟨fun name => List.nodup_nil, fun hget => by simp at hget, fun hget => by simp at hget,
      fun hcell => by simp [cellsOf, hnone] at hcell⟩,
    ⟨fun name => .nil, fun he => by simp [hnone] at he, fun he => by simp [hnone] at he⟩⟩

/-- In every run whose mappings name each cell once and whose ranges are
apart, a line is translated by the one entry that has it, and translated back
to the same line of the same file, or no entry has it and it stays. -/
theorem mapToClient_mapToServer (normcase : String → String) (ops : List Op) (s : SourceMapping)
    (filename : String) (lineno : Int) (hops : ∀ o ∈ ops, o.Distinct ∧ o.Ranged)
    (h : exec (op normcase) {} ops = some s) :
    (∃ e ∈ s.mappingOf (normcase filename), e.containsLine lineno = true ∧
      s.mapToServer normcase filename lineno =
        (e.runtimeSource, e.runtimeLine + (lineno - e.line), true) ∧
      ∃ filename', normcase filename' = normcase filename ∧
        (s.mapToClient e.runtimeSource (e.runtimeLine + (lineno - e.line))).1 =
          (some filename', lineno, true)) ∨
    (∀ e ∈ s.mappingOf (normcase filename), e.containsLine lineno = false) ∧
      s.mapToServer normcase filename lineno = (filename, lineno, false) := by
  obtain ⟨hone, hranged⟩ := tables_of_run hops h
  have hcoherent : Coherent s :=
    Run.exec_keeps Coherent (fun h hop => h.next hop) (.of_empty rfl rfl) h
  have hbind : ((s.mappingsToServer.get? (normcase filename)).bind fun mappings =>
      entryFor mappings lineno) = entryFor (s.mappingOf (normcase filename)) lineno := by
    rw [mappingOf]
    cases s.mappingsToServer.get? (normcase filename) with
    | none => rfl
    | some mapping => rfl
  by_cases hany : ∃ e ∈ s.mappingOf (normcase filename), e.containsLine lineno = true
  · obtain ⟨e, he, hcontains⟩ := hany
    have hentry := entryFor_of_contains (hranged.apart _) (fun e he => (hranged.range he).2) he hcontains
    obtain ⟨filename', hsource, hnorm⟩ := hranged.filename he
    refine .inl ⟨e, he, hcontains, by rw [mapToServer, hbind, hentry], filename', hnorm, ?_⟩
    rw [hcoherent.mapToClient_fst, lookupClient_of_mem hone hranged he hcontains, hsource]
  · have hnone : entryFor (s.mappingOf (normcase filename)) lineno = none := by
      cases hentry : entryFor (s.mappingOf (normcase filename)) lineno with
      | none => rfl
      | some e => exact absurd ⟨e, mem_of_entryFor hentry⟩ hany
    refine .inr ⟨fun e he => ?_, by rw [mapToServer, hbind, hnone]⟩
    exact eq_false_of_ne_true fun hcontains => hany ⟨e, he, hcontains⟩

/-- Two cells of a file, given out of order. -/
def twoCells : List Op :=
  [.set "a.py"
    [{ line := 10, endLine := 12, runtimeLine := 1, runtimeSource := "<b>", sourceFilename := some "a.py" },
      { line := 1, endLine := 9, runtimeLine := 1, runtimeSource := "<a>", sourceFilename := some "a.py" }]]

theorem mapToClient_mapToServer_twoCells : ∃ s, exec (op id) {} twoCells = some s ∧
    ((∃ e ∈ s.mappingOf (id "a.py"), e.containsLine 11 = true ∧
      s.mapToServer id "a.py" 11 = (e.runtimeSource, e.runtimeLine + (11 - e.line), true) ∧
      ∃ filename', id filename' = id "a.py" ∧
        (s.mapToClient e.runtimeSource (e.runtimeLine + (11 - e.line))).1 = (some filename', 11, true)) ∨
    (∀ e ∈ s.mappingOf (id "a.py"), e.containsLine 11 = false) ∧
      s.mapToServer id "a.py" 11 = ("a.py", 11, false)) := by
  have hops : ∀ o ∈ twoCells, o.Distinct ∧ o.Ranged := by
    intro o ho
    obtain rfl := List.mem_singleton.mp ho
    refine ⟨⟨by decide, by decide⟩, ?_, ?_⟩ <;> decide
  exact ⟨_, rfl, mapToClient_mapToServer id twoCells _ "a.py" 11 hops rfl⟩

-- ---------------------------------------------------------------------------
-- A cell that is named twice
-- ---------------------------------------------------------------------------

theorem setSourceMapping_of_not_nodup (filename : String) (mapping : List SourceMappingEntry)
    (hdup : ¬ (s.cellsOf (normcase filename)).Nodup) :
    (s.setSourceMapping normcase filename mapping).1 ≠ .message "" ∧
      (s.setSourceMapping normcase filename mapping).2.mappingsToServer = s.mappingsToServer := by
  unfold setSourceMapping
  cases hconflict : s.conflict filename mapping with
  | some text =>
    refine ⟨fun heq => conflict_ne_empty hconflict (Outcome.message.inj heq), rfl⟩
  | none =>
    obtain ⟨cell, d', hdelete⟩ := deleteAll_of_not_nodup (d := s.mappingsToClient) hdup
    rw [cellsOf, mappingOf] at hdelete
    simp only [hdelete]
    simp

theorem mappingOf_next (hop : op normcase s o = some s') (hdup : ¬ (s.cellsOf name).Nodup) :
    s'.mappingOf name = s.mappingOf name := by
  cases o with
  | toClient runtimeSource lineno =>
    rw [mappingOf, mappingOf, (SameTables.query hop rfl).server]
  | hasEntry runtimeSource =>
    rw [mappingOf, mappingOf, (SameTables.query hop rfl).server]
  | set filename mapping =>
    cases hop
    by_cases hname : normcase filename = name
    · subst hname
      rw [mappingOf, mappingOf, (setSourceMapping_of_not_nodup filename mapping hdup).2]
    · unfold setSourceMapping
      split
      · rfl
      · dsimp only
        split
        · rfl
        · rw [mappingOf_set, if_neg (Ne.symm hname)]

/-- Once a file's mapping names a cell twice, no mapping is accepted for the
file again, in whatever run. -/
theorem refused_of_duplicate (normcase : String → String) (ops : List Op) (s t : SourceMapping)
    (filename : String) (mapping : List SourceMappingEntry)
    (hdup : ¬ (s.cellsOf (normcase filename)).Nodup) (h : exec (op normcase) s ops = some t) :
    (t.setSourceMapping normcase filename mapping).1 ≠ .message "" ∧
      t.mappingOf (normcase filename) = s.mappingOf (normcase filename) := by
  have hkeeps : t.mappingOf (normcase filename) = s.mappingOf (normcase filename) := by
    refine Run.exec_keeps (fun t => t.mappingOf (normcase filename) = s.mappingOf (normcase filename))
      (fun {t o t'} hI hop => ?_) rfl h
    have hcells : t.cellsOf (normcase filename) = s.cellsOf (normcase filename) := by
      rw [cellsOf, hI, cellsOf]
    exact (mappingOf_next hop (hcells ▸ hdup)).trans hI
  refine ⟨(setSourceMapping_of_not_nodup filename mapping ?_).1, hkeeps⟩
  rwa [cellsOf, hkeeps]

/-- Two ranges of a file run in one cell. -/
def twoRanges : List SourceMappingEntry :=
  [{ line := 1, endLine := 2, runtimeLine := 1, runtimeSource := "<cell>" },
    { line := 5, endLine := 6, runtimeLine := 3, runtimeSource := "<cell>" }]

theorem refused_of_duplicate_twoRanges : ∃ s t, exec (op id) {} [.set "a.py" twoRanges] = some s ∧
    exec (op id) s [.set "a.py" []] = some t ∧
    (t.setSourceMapping id "a.py" []).1 ≠ .message "" ∧
      t.mappingOf (id "a.py") = s.mappingOf (id "a.py") :=
  ⟨_, _, rfl, rfl, refused_of_duplicate id [.set "a.py" []] _ _ "a.py" [] (by decide) rfl⟩

end SourceMapping

end Debugpy.Pydevd
