import Debugpy.Pydevd.SourceMapping
import Mathlib.Data.List.Induction
import Mathlib.Data.List.TakeWhile

/-!
# Line breakpoints

`PyDevdAPI.add_breakpoint`, `remove_all_breakpoints`, `reapply_breakpoints` and
the requests that call them. What the client asked for is kept by file and id
(`api_received_breakpoints`), and what the tracing looks at by the file and the
line where the code runs (`breakpoints`), with a table between the two. The
second is what the first says, under the source mapping of the moment, in every
state of a run. Breakpoints of plugins are not here.
-/

namespace Debugpy.Pydevd

open Run (exec exec_cons)

/-- What `add_breakpoint` is given, as it is kept to be applied again. -/
structure BreakpointParams where
  originalFilename : String
  breakpointId : Int
  line : Int
  condition : Option String := none
  funcName : String := "None"
  expression : Option String := none
  suspendPolicy : String := "NONE"
  hitCondition : Option String := none
  isLogpoint : Option Bool := none
  deriving DecidableEq, Repr

structure LineBreakpoint where
  breakpointId : Int
  line : Int
  condition : Option String
  funcName : String
  expression : Option String
  suspendPolicy : String
  hitCondition : Option String
  isLogpoint : Option Bool
  deriving DecidableEq, Repr

/-- `LineBreakpoint(…)` on the line that was found for it. -/
def BreakpointParams.at (p : BreakpointParams) (line : Int) : LineBreakpoint where
  breakpointId := p.breakpointId
  line := line
  condition := p.condition
  funcName := p.funcName
  expression := p.expression
  suspendPolicy := p.suspendPolicy
  hitCondition := p.hitCondition
  isLogpoint := p.isLogpoint

/-- The functions of `pydevd_file_utils`, and the path mapping. -/
structure Paths where
  normcase : String → String
  normcaseFromClient : String → String
  filenameToServer : String → String
  absolutePath : String → String
  canonicalNormalizedPath : String → String

structure Disk where
  /-- `_get_code_lines`, unless it raises. -/
  codeLines : String → Option (List Int)
  fileExists : String → Bool
  /-- The files filter leaves the file out. -/
  excluded : String → Bool

inductive ErrorCode where
  | noError
  | fileNotFound
  | fileExcludedByFilters
  deriving DecidableEq, Repr

structure AddBreakpointResult where
  errorCode : ErrorCode := .noError
  breakpointId : Int
  translatedFilename : String
  translatedLine : Int
  originalLine : Int
  deriving DecidableEq, Repr

structure Breakpoints where
  sourceMapping : SourceMapping := {}
  /-- `api_received_breakpoints`. -/
  received : Dict (String × Int) (String × BreakpointParams) := .empty
  /-- `file_to_id_to_line_breakpoint`. -/
  fileToId : Dict String (Dict Int LineBreakpoint) := .empty
  /-- `breakpoints`. -/
  fileToLine : Dict String (Dict Int LineBreakpoint) := .empty
  nextBreakpointId : Int := 0
  /-- Those whose file was not found when they were last applied. -/
  notFound : List Int := []

def consolidate (idToBreakpoint : Dict Int LineBreakpoint) : Dict Int LineBreakpoint :=
  idToBreakpoint.entries.foldl (fun d e => d.set e.2.line e.2) .empty

def adjustLine (lines : List Int) (line : Int) : Int :=
  let lines := lines.insertionSort (· ≤ ·)
  if line ∈ lines then line else ((lines.takeWhile (· < line)).getLast?).getD line

structure Target where
  absolute : String
  canonical : String
  line : Int
  /-- `multi_mapping_applied`. -/
  mapped : Bool

/-- `translated_absolute_filename.startswith("<")`. -/
def Target.isSpecial (t : Target) : Bool := ['<'].isPrefixOf t.absolute.toList

section
variable (paths : Paths)

def target (sourceMapping : SourceMapping) (p : BreakpointParams) : Target :=
  let translated := paths.filenameToServer p.originalFilename
  match sourceMapping.mapToServer paths.normcase translated p.line with
  | (filename, line, true) => ⟨filename, paths.normcase filename, line, true⟩
  | (_, _, false) =>
    ⟨paths.absolutePath translated, paths.canonicalNormalizedPath translated, p.line, false⟩

def Target.lineOn (t : Target) (disk : Disk) (adjust : Bool) : Int :=
  if !t.mapped && adjust && !t.isSpecial then
    match disk.codeLines t.absolute with
    | some lines => adjustLine lines t.line
    | none => t.line
  else t.line

def addBreakpoint (disk : Disk) (adjust : Bool) (s : Breakpoints) (p : BreakpointParams) :
    AddBreakpointResult × Breakpoints :=
  let t := target paths s.sourceMapping p
  let line := t.lineOn disk adjust
  let result : AddBreakpointResult := {
    breakpointId := p.breakpointId
    translatedFilename := p.originalFilename
    translatedLine := if t.mapped then p.line else line
    originalLine := p.line }
  let key := (paths.normcaseFromClient p.originalFilename, p.breakpointId)
  let s := { s with received := s.received.set key (t.canonical, p) }
  if !t.isSpecial && !disk.fileExists t.absolute then
    ({ result with errorCode := .fileNotFound }, { s with notFound := p.breakpointId :: s.notFound })
  else
    let excluded := !t.isSpecial && disk.excluded t.absolute
    let idToBreakpoint := ((s.fileToId.get? t.canonical).getD .empty).set p.breakpointId (p.at line)
    ({ result with errorCode := if excluded then .fileExcludedByFilters else .noError }, { s with
      fileToId := s.fileToId.set t.canonical idToBreakpoint
      fileToLine := s.fileToLine.set t.canonical (consolidate idToBreakpoint)
      notFound := s.notFound.filter (· ≠ p.breakpointId) })

def removeAllBreakpoints (s : Breakpoints) (receivedFilename : String) : Breakpoints :=
  if receivedFilename = "*" then
    { s with received := .empty, fileToId := .empty, fileToLine := .empty, notFound := [] }
  else
    let name := paths.normcaseFromClient receivedFilename
    let translated := (s.received.entries.filter fun e => e.1.1 = name).map fun e => e.2.1
    { s with
      received := s.received.filter fun key => key.1 ≠ name
      fileToId := s.fileToId.filter fun canonical => canonical ∉ translated
      fileToLine := s.fileToLine.filter fun canonical => canonical ∉ translated }

def reapplyBreakpoints (disk : Disk) (s : Breakpoints) : Breakpoints :=
  let values := s.received.values
  values.foldl (fun s val => (addBreakpoint paths disk false s val.2).2) (removeAllBreakpoints paths s "*")

structure SourceBreakpoint where
  line : Int
  condition : Option String := none
  expression : Option String := none
  suspendPolicy : String := "NONE"
  hitCondition : Option String := none
  isLogpoint : Option Bool := none
  deriving DecidableEq, Repr

def SourceBreakpoint.params (b : SourceBreakpoint) (filename : String) (id : Int) : BreakpointParams where
  originalFilename := filename
  breakpointId := id
  line := b.line
  condition := b.condition
  expression := b.expression
  suspendPolicy := b.suspendPolicy
  hitCondition := b.hitCondition
  isLogpoint := b.isLogpoint

/-- The loop of `on_setbreakpoints_request`. -/
def addAll (disk : Disk) (filename : String) :
    List SourceBreakpoint → Breakpoints → List AddBreakpointResult × Breakpoints
  | [], s => ([], s)
  | b :: bs, s =>
    let id := s.nextBreakpointId
    let (result, s) := addBreakpoint paths disk true { s with nextBreakpointId := id + 1 }
      (b.params filename id)
    let (results, s) := addAll disk filename bs s
    (result :: results, s)

/-- `PyDevdAPI.set_source_mapping`. What it raises leaves the breakpoints. -/
def setSourceMapping (disk : Disk) (s : Breakpoints) (filename : String)
    (mapping : List SourceMappingEntry) : Breakpoints :=
  let absolute := paths.absolutePath (paths.filenameToServer filename)
  let (outcome, sourceMapping) := s.sourceMapping.setSourceMapping paths.normcase absolute
    (mapping.map fun e => { e with sourceFilename := some absolute })
  let s := { s with sourceMapping }
  if outcome = .message "" then reapplyBreakpoints paths disk s else s

inductive BreakpointRequest where
  | setBreakpoints (disk : Disk) (filename : String) (breakpoints : List SourceBreakpoint)
  | setPydevdSourceMap (disk : Disk) (filename : String) (mapping : List SourceMappingEntry)
  /-- `request_disconnect`. -/
  | disconnect

def handle (s : Breakpoints) : BreakpointRequest → Option Breakpoints
  | .setBreakpoints disk filename breakpoints =>
    some (addAll paths disk filename breakpoints (removeAllBreakpoints paths s filename)).2
  | .setPydevdSourceMap disk filename mapping => some (setSourceMapping paths disk s filename mapping)
  | .disconnect => some (removeAllBreakpoints paths s "*")

end

-- ---------------------------------------------------------------------------
-- Consolidation
-- ---------------------------------------------------------------------------

theorem consolidate_concat {d : Dict Int LineBreakpoint} (entries : List (Int × LineBreakpoint))
    (e : Int × LineBreakpoint) :
    (entries ++ [e]).foldl (fun d e => d.set e.2.line e.2) d =
      (entries.foldl (fun d e => d.set e.2.line e.2) d).set e.2.line e.2 := by
  rw [List.foldl_append]
  rfl

theorem mem_of_consolidate {bps : Dict Int LineBreakpoint}
    (h : (consolidate bps).get? line = some bp) : bp.line = line ∧ bp ∈ bps.values := by
  unfold consolidate at h
  rw [Dict.values]
  generalize bps.entries = entries at h ⊢
  induction entries using List.reverseRecOn with
  | nil => simp at h
  | append_singleton entries e ih =>
    rw [consolidate_concat, Dict.get?_set] at h
    split at h
    · next hline =>
      cases h
      exact ⟨hline.symm, by simp⟩
    · obtain ⟨hline, hmem⟩ := ih h
      exact ⟨hline, by simp [hmem]⟩

theorem consolidate_of_mem {bps : Dict Int LineBreakpoint}
    (hascending : (bps.entries.map Prod.fst).Pairwise (· < ·)) {i : Int}
    (h : bps.get? i = some bp) :
    ∃ i' bp', bps.get? i' = some bp' ∧ i ≤ i' ∧ (consolidate bps).get? bp.line = some bp' := by
  rw [Dict.get?_eq_some] at h
  simp only [Dict.get?_eq_some (d := bps), consolidate]
  generalize bps.entries = entries at hascending h ⊢
  induction entries using List.reverseRecOn with
  | nil => cases h
  | append_singleton entries e ih =>
    rw [List.map_append, List.pairwise_append] at hascending
    obtain ⟨hascending, -, hlast⟩ := hascending
    rw [consolidate_concat]
    have hle : i ≤ e.1 := by
      rcases List.mem_append.mp h with hmem | hmem
      · exact Int.le_of_lt (hlast i (List.mem_map.mpr ⟨_, hmem, rfl⟩) e.1 (by simp))
      · rw [← List.mem_singleton.mp hmem]
    by_cases hline : bp.line = e.2.line
    · exact ⟨e.1, e.2, by simp, hle, by rw [Dict.get?_set, if_pos hline]⟩
    · have hmem : (i, bp) ∈ entries := by
        refine (List.mem_append.mp h).resolve_right fun hmem => hline ?_
        rw [← List.mem_singleton.mp hmem]
      obtain ⟨i', bp', hmem', hle', hget⟩ := ih hascending hmem
      exact ⟨i', bp', List.mem_append_left _ hmem', hle', by rwa [Dict.get?_set, if_neg hline]⟩

-- ---------------------------------------------------------------------------
-- The three tables
-- ---------------------------------------------------------------------------

/-- The line is the one of the target, or a valid line before. -/
def Target.Fits (t : Target) (line : Int) : Prop := line = t.line ∨ t.mapped = false ∧ line < t.line

theorem adjustLine_le (lines : List Int) (line : Int) :
    adjustLine lines line = line ∨ adjustLine lines line < line := by
  unfold adjustLine
  dsimp only
  split
  · exact .inl rfl
  · cases hlast : ((lines.insertionSort (· ≤ ·)).takeWhile (· < line)).getLast? with
    | none => exact .inl rfl
    | some last =>
      have := List.mem_takeWhile_imp (List.mem_of_mem_getLast? hlast)
      exact .inr (by simpa using this)

theorem fits_lineOn (t : Target) (disk : Disk) (adjust : Bool) : t.Fits (t.lineOn disk adjust) := by
  unfold Target.lineOn
  split
  · next hcond =>
    split
    · rename_i lines _
      rcases adjustLine_le lines t.line with h | h
      · exact .inl h
      · simp only [Bool.and_eq_true, Bool.not_eq_true'] at hcond
        exact .inr ⟨hcond.1.1, h⟩
    · exact .inl rfl
  · exact .inl rfl

variable {paths : Paths} {s s' : Breakpoints}

/-- The tables tell the same, for ids below the bound. -/
structure Sync (paths : Paths) (bound : Int) (s : Breakpoints) : Prop where
  tied : ∀ canonical, s.fileToLine.get? canonical = (s.fileToId.get? canonical).map consolidate
  backed : ∀ {canonical bps i bp}, s.fileToId.get? canonical = some bps → bps.get? i = some bp →
    ∃ key p, s.received.get? key = some (canonical, p) ∧ p.breakpointId = i ∧ bp = p.at bp.line ∧
      (target paths s.sourceMapping p).Fits bp.line
  keyed : ∀ {key canonical p}, s.received.get? key = some (canonical, p) →
    key = (paths.normcaseFromClient p.originalFilename, p.breakpointId) ∧
      canonical = (target paths s.sourceMapping p).canonical
  ascending : (s.received.entries.map fun e => e.1.2).Pairwise (· < ·)
  below : ∀ e ∈ s.received.entries, e.1.2 < bound
  inFile : ∀ {canonical bps}, s.fileToId.get? canonical = some bps →
    (bps.entries.map Prod.fst).Pairwise (· < ·)

theorem Sync.id_lt (h : Sync paths bound s) (hbps : s.fileToId.get? canonical = some bps)
    (hi : i ∈ bps.keys) : i < bound := by
  obtain ⟨bp, hbp⟩ := Dict.mem_keys.mp hi
  obtain ⟨key, p, hreceived, rfl, -⟩ := h.backed hbps hbp
  have hlt := h.below _ (Dict.get?_eq_some.mp hreceived)
  rwa [(h.keyed hreceived).1] at hlt

theorem Sync.of_empty (hreceived : s.received = .empty) (hid : s.fileToId = .empty)
    (hline : s.fileToLine = .empty) : Sync paths bound s where
  tied canonical := by rw [hid, hline]; rfl
  backed hbps := by simp [hid] at hbps
  keyed hget := by simp [hreceived] at hget
  ascending := by rw [hreceived]; exact .nil
  below := by rw [hreceived]; exact fun e he => by cases he
  inFile hbps := by simp [hid] at hbps

theorem Sync.mono (h : Sync paths bound s) (hle : bound ≤ bound') : Sync paths bound' s :=
  ⟨h.tied, h.backed, h.keyed, h.ascending, fun e he => Int.lt_of_lt_of_le (h.below e he) hle, h.inFile⟩

theorem Sync.new (h : Sync paths bound s) {p : BreakpointParams} (hp : bound ≤ p.breakpointId) (name : String) :
    s.received.get? (name, p.breakpointId) = none := by
  refine Dict.get?_eq_none.mpr fun hkey => ?_
  obtain ⟨e, he, hkey⟩ := List.mem_map.mp hkey
  have hlt := h.below e he
  rw [hkey] at hlt
  exact absurd hlt (by omega)

theorem Sync.receive (h : Sync paths bound s) (hp : bound ≤ p.breakpointId) :
    Sync paths (p.breakpointId + 1) { s with
      received := s.received.set (paths.normcaseFromClient p.originalFilename, p.breakpointId)
        ((target paths s.sourceMapping p).canonical, p) } := by
  have hnew := h.new hp (paths.normcaseFromClient p.originalFilename)
  have hentries := Dict.entries_set_of_get?_none
    (v := ((target paths s.sourceMapping p).canonical, p)) hnew
  refine ⟨h.tied, fun hbps hbp => ?_, fun {key canonical p'} hget => ?_, ?_, ?_, h.inFile⟩
  · obtain ⟨key, p', hreceived, hrest⟩ := h.backed hbps hbp
    refine ⟨key, p', ?_, hrest⟩
    have hne : key ≠ (paths.normcaseFromClient p.originalFilename, p.breakpointId) := by
      rintro rfl
      rw [hnew] at hreceived
      cases hreceived
    rw [Dict.get?_set, if_neg hne, hreceived]
  · rw [Dict.get?_set] at hget
    split at hget
    · next hkey =>
      cases hget
      exact ⟨hkey, rfl⟩
    · exact h.keyed hget
  · rw [hentries, List.map_append, List.pairwise_append]
    refine ⟨h.ascending, List.pairwise_singleton _ _, fun i hi j hj => ?_⟩
    obtain ⟨e, he, rfl⟩ := List.mem_map.mp hi
    have hlt := h.below e he
    rw [List.mem_singleton.mp hj]
    dsimp only
    omega
  · intro e he
    rw [hentries] at he
    rcases List.mem_append.mp he with he | he
    · have hlt := h.below e he
      omega
    · rw [List.mem_singleton.mp he]
      dsimp only
      omega

theorem Sync.ascending_set (h : Sync paths bound s) {p : BreakpointParams}
    (hp : bound ≤ p.breakpointId) (bp : LineBreakpoint) :
    (((s.fileToId.get? canonical).getD .empty).set p.breakpointId bp).entries =
        ((s.fileToId.get? canonical).getD .empty).entries ++ [(p.breakpointId, bp)] ∧
      ((((s.fileToId.get? canonical).getD .empty).set p.breakpointId bp).entries.map Prod.fst).Pairwise
        (· < ·) := by
  cases hbps : s.fileToId.get? canonical with
  | none => exact ⟨rfl, List.pairwise_singleton _ _⟩
  | some bps =>
    rw [Option.getD_some]
    have hnew : bps.get? p.breakpointId = none := by
      refine Dict.get?_eq_none.mpr fun hmem => ?_
      have hlt := h.id_lt hbps hmem
      omega
    have hentries := Dict.entries_set_of_get?_none (v := bp) hnew
    refine ⟨hentries, ?_⟩
    rw [hentries, List.map_append, List.pairwise_append]
    refine ⟨h.inFile hbps, List.pairwise_singleton _ _, fun i hi j hj => ?_⟩
    have hlt := h.id_lt hbps hi
    rw [List.mem_singleton.mp hj]
    dsimp only
    omega

theorem Sync.add (h : Sync paths bound s) (hp : bound ≤ p.breakpointId) (disk : Disk) (adjust : Bool) :
    Sync paths (p.breakpointId + 1) (addBreakpoint paths disk adjust s p).2 := by
  have hreceive := h.receive hp
  unfold addBreakpoint
  dsimp only
  split
  · exact ⟨hreceive.tied, hreceive.backed, hreceive.keyed, hreceive.ascending, hreceive.below,
      hreceive.inFile⟩
  generalize htarget : target paths s.sourceMapping p = t at hreceive ⊢
  refine ⟨fun canonical => ?_, fun {canonical bps i bp} hbps hbp => ?_, hreceive.keyed,
    hreceive.ascending, hreceive.below, fun {canonical bps} hbps => ?_⟩
  · rw [Dict.get?_set, Dict.get?_set]
    split
    · rfl
    · exact hreceive.tied canonical
  · rw [Dict.get?_set] at hbps
    split at hbps
    · next hcanonical =>
      cases hbps
      rw [Dict.get?_set] at hbp
      split at hbp
      · next hi =>
        cases hbp
        refine ⟨(paths.normcaseFromClient p.originalFilename, p.breakpointId), p, ?_, hi.symm, rfl, ?_⟩
        · rw [Dict.get?_set, if_pos rfl, hcanonical]
        · dsimp only
          rw [htarget]
          exact fits_lineOn t disk adjust
      · cases hold : s.fileToId.get? t.canonical with
        | none => simp [hold] at hbp
        | some bps =>
          rw [hold, Option.getD_some] at hbp
          exact hreceive.backed (hcanonical ▸ hold) hbp
    · exact hreceive.backed hbps hbp
  · rw [Dict.get?_set] at hbps
    split at hbps
    · cases hbps
      exact (h.ascending_set hp _).2
    · exact hreceive.inFile hbps

/-- What was asked for is in the tables if its file was found. -/
structure Complete (s : Breakpoints) : Prop where
  found : ∀ {key canonical p}, s.received.get? key = some (canonical, p) →
    p.breakpointId ∉ s.notFound →
    ∃ bps, s.fileToId.get? canonical = some bps ∧ p.breakpointId ∈ bps.keys

theorem Complete.of_empty (h : s.received = .empty) : Complete s :=
  ⟨fun hget => by simp [h] at hget⟩

theorem Complete.add (hc : Complete s) (h : Sync paths bound s) (hp : bound ≤ p.breakpointId)
    (disk : Disk) (adjust : Bool) : Complete (addBreakpoint paths disk adjust s p).2 := by
  have hother {key canonical q} (hget : s.received.get? key = some (canonical, q)) :
      q.breakpointId ≠ p.breakpointId := by
    have hlt := h.below _ (Dict.get?_eq_some.mp hget)
    rw [(h.keyed hget).1] at hlt
    dsimp only at hlt
    omega
  unfold addBreakpoint
  dsimp only
  generalize target paths s.sourceMapping p = t
  split
  · refine ⟨fun {key canonical q} hget hnot => ?_⟩
    rw [Dict.get?_set] at hget
    split at hget
    · cases hget
      exact absurd List.mem_cons_self hnot
    · exact hc.found hget fun hmem => hnot (List.mem_cons_of_mem _ hmem)
  · refine ⟨fun {key canonical q} hget hnot => ?_⟩
    dsimp only at hget hnot ⊢
    rw [Dict.get?_set] at hget
    rw [Dict.get?_set]
    split at hget
    · cases hget
      rw [if_pos rfl]
      exact ⟨_, rfl, Dict.mem_keys.mpr ⟨_, by rw [Dict.get?_set, if_pos rfl]⟩⟩
    · have hne := hother hget
      obtain ⟨bps, hbps, hmem⟩ := hc.found hget fun hmem =>
        hnot (List.mem_filter.mpr ⟨hmem, decide_eq_true hne⟩)
      split
      · next hcanonical =>
        rw [← hcanonical, hbps, Option.getD_some]
        obtain ⟨bp, hbp⟩ := Dict.mem_keys.mp hmem
        exact ⟨_, rfl, Dict.mem_keys.mpr ⟨bp, by rw [Dict.get?_set, if_neg hne, hbp]⟩⟩
      · exact ⟨bps, hbps, hmem⟩

/-- No file of the server is two files of the client. -/
def Separate (s : Breakpoints) : Prop :=
  ∀ e ∈ s.received.entries, ∀ e' ∈ s.received.entries, e.2.1 = e'.2.1 → e.1.1 = e'.1.1

instance (s : Breakpoints) : Decidable (Separate s) := by
  unfold Separate
  infer_instance

theorem Complete.removeAll (hc : Complete s) (hsep : Separate s) (filename : String) :
    Complete (removeAllBreakpoints paths s filename) := by
  unfold removeAllBreakpoints
  split
  · exact .of_empty rfl
  refine ⟨fun {key canonical p} hget hnot => ?_⟩
  dsimp only at hget hnot ⊢
  rw [Dict.get?_filter] at hget
  split at hget
  · next hkey =>
    obtain ⟨bps, hbps, hmem⟩ := hc.found hget hnot
    refine ⟨bps, ?_, hmem⟩
    rw [Dict.get?_filter, if_pos, hbps]
    refine decide_eq_true fun htranslated => of_decide_eq_true hkey ?_
    obtain ⟨e, he, hcanonical⟩ := List.mem_map.mp htranslated
    obtain ⟨he, hname⟩ := List.mem_filter.mp he
    exact (hsep _ (Dict.get?_eq_some.mp hget) e he hcanonical.symm).trans (of_decide_eq_true hname)
  · cases hget

theorem addBreakpoint_kept (paths : Paths) (disk : Disk) (adjust : Bool) (s : Breakpoints) (p : BreakpointParams) :
    (addBreakpoint paths disk adjust s p).2.sourceMapping = s.sourceMapping ∧
      (addBreakpoint paths disk adjust s p).2.nextBreakpointId = s.nextBreakpointId ∧
      (addBreakpoint paths disk adjust s p).2.received = s.received.set
        (paths.normcaseFromClient p.originalFilename, p.breakpointId)
        ((target paths s.sourceMapping p).canonical, p) := by
  unfold addBreakpoint
  dsimp only
  split <;> exact ⟨rfl, rfl, rfl⟩

theorem Sync.removeAll (h : Sync paths bound s) (filename : String) :
    Sync paths bound (removeAllBreakpoints paths s filename) := by
  unfold removeAllBreakpoints
  split
  · exact .of_empty rfl rfl rfl
  dsimp only
  generalize htranslated : ((s.received.entries.filter fun e =>
    e.1.1 = paths.normcaseFromClient filename).map fun e => e.2.1) = translated
  refine ⟨fun canonical => ?_, fun {canonical bps i bp} hbps hbp => ?_, fun {key canonical p} hget => ?_,
    ?_, fun e he => ?_, fun {canonical bps} hbps => ?_⟩
  · simp only [Dict.get?_filter, h.tied canonical]
    split <;> rfl
  · rw [Dict.get?_filter] at hbps
    split at hbps
    · next hcanonical =>
      obtain ⟨key, p, hreceived, hrest⟩ := h.backed hbps hbp
      refine ⟨key, p, ?_, hrest⟩
      rw [Dict.get?_filter, if_pos, hreceived]
      refine decide_eq_true fun hname => of_decide_eq_true hcanonical ?_
      rw [← htranslated]
      refine List.mem_map.mpr ⟨(key, canonical, p), List.mem_filter.mpr ⟨?_, decide_eq_true hname⟩, rfl⟩
      exact Dict.get?_eq_some.mp hreceived
    · cases hbps
  · rw [Dict.get?_filter] at hget
    split at hget
    · exact h.keyed hget
    · cases hget
  · exact h.ascending.sublist (List.filter_sublist.map _)
  · exact h.below e (List.mem_of_mem_filter he)
  · rw [Dict.get?_filter] at hbps
    split at hbps
    · exact h.inFile hbps
    · cases hbps

/-- The breakpoints that the client asked for, file by file in its own words. -/
def Breakpoints.asked (s : Breakpoints) : List (String × BreakpointParams) :=
  s.received.entries.map fun e => (e.1.1, e.2.2)

theorem Sync.asked_add (h : Sync paths bound s) (hp : bound ≤ p.breakpointId) (disk : Disk)
    (adjust : Bool) : (addBreakpoint paths disk adjust s p).2.asked =
      s.asked ++ [(paths.normcaseFromClient p.originalFilename, p)] := by
  rw [Breakpoints.asked, (addBreakpoint_kept paths disk adjust s p).2.2,
    Dict.entries_set_of_get?_none (h.new hp _), List.map_append]
  rfl

theorem Sync.addEach {ps : List BreakpointParams} (h : Sync paths bound s)
    (hascending : (ps.map (·.breakpointId)).Pairwise (· < ·)) (hlow : ∀ p ∈ ps, bound ≤ p.breakpointId)
    (htop : ∀ p ∈ ps, p.breakpointId < top) (hle : bound ≤ top) (disk : Disk) (adjust : Bool) :
    Sync paths top (ps.foldl (fun s p => (addBreakpoint paths disk adjust s p).2) s) ∧
      (Complete s → Complete (ps.foldl (fun s p => (addBreakpoint paths disk adjust s p).2) s)) ∧
      (ps.foldl (fun s p => (addBreakpoint paths disk adjust s p).2) s).nextBreakpointId =
        s.nextBreakpointId ∧
      (ps.foldl (fun s p => (addBreakpoint paths disk adjust s p).2) s).asked =
        s.asked ++ ps.map fun p => (paths.normcaseFromClient p.originalFilename, p) := by
  induction ps generalizing bound s with
  | nil => exact ⟨h.mono hle, fun hc => hc, rfl, (List.append_nil _).symm⟩
  | cons p ps ih =>
    obtain ⟨hp, hlow⟩ := List.forall_mem_cons.mp hlow
    obtain ⟨hlt, htop⟩ := List.forall_mem_cons.mp htop
    obtain ⟨hfirst, hascending⟩ := List.pairwise_cons.mp hascending
    obtain ⟨hsync, hcomplete, hnext, hasked⟩ := ih (h.add hp disk adjust) hascending
      (fun q hq => Int.add_one_le_of_lt (hfirst _ (List.mem_map_of_mem hq))) htop
      (Int.add_one_le_of_lt hlt)
    refine ⟨hsync, fun hc => hcomplete (hc.add h hp disk adjust),
      hnext.trans (addBreakpoint_kept paths disk adjust s p).2.1, ?_⟩
    rw [List.foldl_cons, hasked, h.asked_add hp, List.append_assoc]
    rfl

theorem Sync.asked_ids (h : Sync paths bound s) :
    (s.received.values.map fun val => val.2.breakpointId) = s.received.entries.map fun e => e.1.2 := by
  rw [Dict.values, List.map_map]
  refine List.map_congr_left fun e he => ?_
  have hget : s.received.get? e.1 = some (e.2.1, e.2.2) := Dict.get?_eq_some.mpr he
  have hkeyed := (h.keyed hget).1
  rw [hkeyed]
  rfl

theorem Sync.reapply (h : Sync paths bound s) (disk : Disk) (sourceMapping : SourceMapping) :
    Sync paths bound (reapplyBreakpoints paths disk { s with sourceMapping }) ∧
      Complete (reapplyBreakpoints paths disk { s with sourceMapping }) ∧
      (reapplyBreakpoints paths disk { s with sourceMapping }).nextBreakpointId = s.nextBreakpointId ∧
      (reapplyBreakpoints paths disk { s with sourceMapping }).asked = s.asked := by
  unfold reapplyBreakpoints
  rw [← List.foldl_map (f := Prod.snd)
    (g := fun s p => (addBreakpoint paths disk false s p).2)]
  have hids : ((s.received.values.map Prod.snd).map (·.breakpointId)).Pairwise (· < ·) := by
    rw [List.map_map]
    exact h.asked_ids ▸ h.ascending
  have hbelow : ∀ p ∈ s.received.values.map Prod.snd, p.breakpointId < bound := by
    intro p hp
    obtain ⟨val, hval, rfl⟩ := List.mem_map.mp hp
    have hid : val.2.breakpointId ∈ s.received.entries.map fun e => e.1.2 :=
      h.asked_ids ▸ List.mem_map_of_mem hval
    obtain ⟨e, he, hid⟩ := List.mem_map.mp hid
    exact hid ▸ h.below e he
  have hasked : (s.received.values.map Prod.snd).map
      (fun p => (paths.normcaseFromClient p.originalFilename, p)) = s.asked := by
    rw [Dict.values, List.map_map, List.map_map, Breakpoints.asked]
    refine List.map_congr_left fun e he => ?_
    have hget : s.received.get? e.1 = some (e.2.1, e.2.2) := Dict.get?_eq_some.mpr he
    have hkeyed := (h.keyed hget).1
    dsimp only [Function.comp_apply]
    rw [hkeyed]
  generalize s.received.values.map Prod.snd = ps at hids hbelow hasked ⊢
  have hempty (low : Int) : Sync paths low (removeAllBreakpoints paths { s with sourceMapping } "*") :=
    .of_empty rfl rfl rfl
  cases ps with
  | nil => exact ⟨hempty bound, .of_empty rfl, rfl, hasked⟩
  | cons p ps =>
    have hlow : ∀ q ∈ p :: ps, p.breakpointId ≤ q.breakpointId := by
      intro q hq
      rcases List.mem_cons.mp hq with rfl | hq
      · exact Int.le_refl _
      · exact Int.le_of_lt ((List.pairwise_cons.mp hids).1 _ (List.mem_map_of_mem hq))
    obtain ⟨hsync, hcomplete, hnext, hafter⟩ := (hempty p.breakpointId).addEach hids hlow hbelow
      (Int.le_of_lt (hbelow p List.mem_cons_self)) disk false
    exact ⟨hsync, hcomplete (.of_empty rfl), hnext, hafter.trans hasked⟩

theorem target_of_server (paths : Paths) {sourceMapping : SourceMapping}
    (h : sourceMapping.mappingsToServer = s.sourceMapping.mappingsToServer) (p : BreakpointParams) :
    target paths sourceMapping p = target paths s.sourceMapping p := by
  rw [target, target, SourceMapping.mapToServer, SourceMapping.mapToServer, h]

theorem Sync.of_server (h : Sync paths bound s) {sourceMapping : SourceMapping}
    (hserver : sourceMapping.mappingsToServer = s.sourceMapping.mappingsToServer) :
    Sync paths bound { s with sourceMapping } := by
  have htarget := target_of_server paths hserver
  refine ⟨h.tied, fun hbps hbp => ?_, fun hget => ?_, h.ascending, h.below, h.inFile⟩
  · obtain ⟨key, p, hreceived, hid, hbp, hfits⟩ := h.backed hbps hbp
    exact ⟨key, p, hreceived, hid, hbp, (htarget p).symm ▸ hfits⟩
  · obtain ⟨hkey, hcanonical⟩ := h.keyed hget
    exact ⟨hkey, by rw [hcanonical, htarget]⟩

theorem Sync.setMapping (h : Sync paths bound s) (disk : Disk) (filename : String)
    (mapping : List SourceMappingEntry) :
    Sync paths bound (setSourceMapping paths disk s filename mapping) ∧
      (Complete s → Complete (setSourceMapping paths disk s filename mapping)) ∧
      (setSourceMapping paths disk s filename mapping).nextBreakpointId = s.nextBreakpointId ∧
      (setSourceMapping paths disk s filename mapping).asked = s.asked := by
  unfold setSourceMapping
  dsimp only
  split
  · obtain ⟨hsync, hcomplete, hrest⟩ := h.reapply disk _
    exact ⟨hsync, fun _ => hcomplete, hrest⟩
  · next hrefused =>
    exact ⟨h.of_server (SourceMapping.mappingsToServer_of_refused hrefused), fun hc => ⟨hc.found⟩,
      rfl, rfl⟩

def paramsFrom (filename : String) : Int → List SourceBreakpoint → List BreakpointParams
  | _, [] => []
  | i, b :: bs => b.params filename i :: paramsFrom filename (i + 1) bs

theorem Sync.addAll (h : Sync paths s.nextBreakpointId s) (disk : Disk) (filename : String)
    (bs : List SourceBreakpoint) :
    Sync paths (addAll paths disk filename bs s).2.nextBreakpointId (addAll paths disk filename bs s).2 ∧
      (Complete s → Complete (addAll paths disk filename bs s).2) ∧
      (addAll paths disk filename bs s).2.nextBreakpointId = s.nextBreakpointId + bs.length ∧
      (addAll paths disk filename bs s).2.asked = s.asked ++
        (paramsFrom filename s.nextBreakpointId bs).map fun p => (paths.normcaseFromClient filename, p) := by
  induction bs generalizing s with
  | nil => exact ⟨h, fun hc => hc, (Int.add_zero _).symm, (List.append_nil _).symm⟩
  | cons b bs ih =>
    generalize hp : b.params filename s.nextBreakpointId = p
    have hid : p.breakpointId = s.nextBreakpointId := by rw [← hp]; rfl
    have hname : p.originalFilename = filename := by rw [← hp]; rfl
    have hstart : Sync paths s.nextBreakpointId { s with nextBreakpointId := s.nextBreakpointId + 1 } :=
      ⟨h.tied, h.backed, h.keyed, h.ascending, h.below, h.inFile⟩
    have hle : s.nextBreakpointId ≤ p.breakpointId := Int.le_of_eq hid.symm
    have hsync := hstart.add hle disk true
    have hnext := (addBreakpoint_kept paths disk true
      { s with nextBreakpointId := s.nextBreakpointId + 1 } p).2.1
    have hasked := hstart.asked_add hle disk true
    have hcomplete (hc : Complete s) := Complete.add
      (s := { s with nextBreakpointId := s.nextBreakpointId + 1 }) ⟨hc.found⟩ hstart hle disk true
    simp only [Pydevd.addAll, hp]
    generalize (addBreakpoint paths disk true { s with nextBreakpointId := s.nextBreakpointId + 1 } p).2
      = s₁ at hsync hnext hasked hcomplete ⊢
    rw [hid] at hsync
    have hsync₁ : Sync paths s₁.nextBreakpointId s₁ := hnext ▸ hsync
    obtain ⟨hsync₂, hcomplete₂, hnext₂, hasked₂⟩ := ih hsync₁
    refine ⟨hsync₂, fun hc => hcomplete₂ (hcomplete hc), ?_, ?_⟩
    · rw [hnext₂, hnext, List.length_cons]
      dsimp only
      omega
    · rw [hasked₂, hasked, hnext, paramsFrom, hp, hname, List.append_assoc]
      rfl

-- ---------------------------------------------------------------------------
-- What the client asked for
-- ---------------------------------------------------------------------------

/-- The breakpoints of all files, as the requests say. -/
structure Asked where
  files : List (String × BreakpointParams) := []
  nextId : Int := 0

/-- A request gives the breakpoints of a file anew, with ids of their own. -/
def ask (paths : Paths) (a : Asked) : BreakpointRequest → Asked
  | .setBreakpoints _ filename bs =>
    let name := paths.normcaseFromClient filename
    let kept := if filename = "*" then [] else a.files.filter fun f => f.1 ≠ name
    { files := kept ++ (paramsFrom filename a.nextId bs).map fun p => (name, p)
      nextId := a.nextId + bs.length }
  | .setPydevdSourceMap _ _ _ => a
  | .disconnect => { a with files := [] }

theorem Sync.handle (h : Sync paths s.nextBreakpointId s) (hreq : handle paths s request = some s') :
    Sync paths s'.nextBreakpointId s' ∧ (Separate s → Complete s → Complete s') ∧
      (⟨s'.asked, s'.nextBreakpointId⟩ : Asked) = ask paths ⟨s.asked, s.nextBreakpointId⟩ request := by
  cases request with
  | setBreakpoints disk filename bs =>
    cases hreq
    have hnext : (removeAllBreakpoints paths s filename).nextBreakpointId = s.nextBreakpointId := by
      unfold removeAllBreakpoints
      split <;> rfl
    have hkept : (removeAllBreakpoints paths s filename).asked = if filename = "*" then []
        else s.asked.filter fun f => f.1 ≠ paths.normcaseFromClient filename := by
      unfold removeAllBreakpoints
      split
      · rfl
      · rw [Breakpoints.asked, Breakpoints.asked, List.filter_map]
        rfl
    have hremoved := h.removeAll filename
    obtain ⟨hsync, hcomplete, hid, hasked⟩ := Sync.addAll (hnext ▸ hremoved) disk filename bs
    refine ⟨hsync, fun hsep hc => hcomplete (hc.removeAll hsep filename), ?_⟩
    rw [hasked, hid, hnext, hkept]
    rfl
  | setPydevdSourceMap disk filename mapping =>
    cases hreq
    obtain ⟨hsync, hcomplete, hnext, hasked⟩ := h.setMapping disk filename mapping
    exact ⟨hnext.symm ▸ hsync, fun _ => hcomplete, by rw [hnext, hasked]; rfl⟩
  | disconnect =>
    cases hreq
    exact ⟨.of_empty rfl rfl rfl, fun _ _ => .of_empty rfl, rfl⟩

theorem sync_run_from {a : Asked} (hsync : Sync paths s.nextBreakpointId s)
    (ha : (⟨s.asked, s.nextBreakpointId⟩ : Asked) = a)
    (h : exec (Pydevd.handle paths) s requests = some t) :
    Sync paths t.nextBreakpointId t ∧
      (⟨t.asked, t.nextBreakpointId⟩ : Asked) = requests.foldl (ask paths) a := by
  induction requests generalizing a s with
  | nil =>
    cases h
    exact ⟨hsync, ha⟩
  | cons request requests ih =>
    obtain ⟨s₁, hrequest, hrest⟩ := exec_cons.mp h
    obtain ⟨hsync₁, -, hask⟩ := hsync.handle hrequest
    exact ih hsync₁ (hask.trans (by rw [ha])) hrest

theorem sync_run (h : exec (Pydevd.handle paths) {} requests = some s) :
    Sync paths s.nextBreakpointId s ∧
      (⟨s.asked, s.nextBreakpointId⟩ : Asked) = requests.foldl (ask paths) {} :=
  sync_run_from (.of_empty rfl rfl rfl) rfl h

/-- In every run, a breakpoint that the tracing sees is one that the client
asks for, with all that it said of it; it is in the file where its code runs
under the source mapping of the moment, and on the line where it runs there or,
if its line is not mapped, on a line before. -/
theorem asked_of_active (paths : Paths) (requests : List BreakpointRequest) (s : Breakpoints)
    (canonical : String) (lines : Dict Int LineBreakpoint) (line : Int) (bp : LineBreakpoint)
    (h : exec (Pydevd.handle paths) {} requests = some s)
    (hlines : s.fileToLine.get? canonical = some lines) (hbp : lines.get? line = some bp) :
    ∃ p, (paths.normcaseFromClient p.originalFilename, p) ∈ (requests.foldl (ask paths) {}).files ∧
      bp = p.at line ∧ canonical = (target paths s.sourceMapping p).canonical ∧
      (target paths s.sourceMapping p).Fits line := by
  obtain ⟨hsync, hasked⟩ := sync_run h
  rw [hsync.tied] at hlines
  obtain ⟨bps, hbps, rfl⟩ := Option.map_eq_some_iff.mp hlines
  obtain ⟨rfl, hmem⟩ := mem_of_consolidate hbp
  obtain ⟨i, hi⟩ := Dict.mem_values.mp hmem
  obtain ⟨key, p, hreceived, -, hat, hfits⟩ := hsync.backed hbps hi
  obtain ⟨hkey, hcanonical⟩ := hsync.keyed hreceived
  refine ⟨p, ?_, hat, hcanonical, hfits⟩
  have hmem : (key.1, p) ∈ s.asked :=
    List.mem_map.mpr ⟨(key, canonical, p), Dict.get?_eq_some.mp hreceived, rfl⟩
  rw [hkey] at hmem
  rwa [← hasked]

/-- Paths that need no translation. -/
def samePaths : Paths := ⟨id, id, id, id, id⟩

/-- A file with code on its lines 1, 3 and 7. -/
def smallDisk : Disk := ⟨fun _ => some [1, 3, 7], fun _ => true, fun _ => false⟩

/-- Breakpoints on the lines 5 and 20 of a file, of which one moves to a cell. -/
def moveToCell : List BreakpointRequest :=
  [.setBreakpoints smallDisk "a.py" [{ line := 5 }, { line := 20, condition := some "x" }],
    .setPydevdSourceMap smallDisk "a.py"
      [{ line := 18, endLine := 25, runtimeLine := 1, runtimeSource := "<cell>" }]]

theorem asked_of_active_moveToCell : ∃ s lines bp,
    exec (Pydevd.handle samePaths) {} moveToCell = some s ∧
    s.fileToLine.get? "<cell>" = some lines ∧ lines.get? 3 = some bp ∧
    ∃ p, (samePaths.normcaseFromClient p.originalFilename, p) ∈
        (moveToCell.foldl (ask samePaths) {}).files ∧
      bp = p.at 3 ∧ "<cell>" = (target samePaths s.sourceMapping p).canonical ∧
      (target samePaths s.sourceMapping p).Fits 3 :=
  ⟨_, _, _, rfl, rfl, rfl, asked_of_active samePaths moveToCell _ "<cell>" _ 3 _ rfl rfl rfl⟩

/-- In every run in which no file of the server is two files of the client, a
breakpoint that the client asks for is kept under its id in the file where its
code runs, unless its file was not found, and the tracing sees it on its line;
another one stands for it only if it was asked for later on the same line. -/
theorem active_of_asked (paths : Paths) (requests : List BreakpointRequest) (s : Breakpoints)
    (name : String) (p : BreakpointParams)
    (hseparate : Run.Meets (Pydevd.handle paths) (fun s _ => Separate s) {} requests)
    (h : exec (Pydevd.handle paths) {} requests = some s)
    (hp : (name, p) ∈ (requests.foldl (ask paths) {}).files) (hfound : p.breakpointId ∉ s.notFound) :
    ∃ bps lines line bp,
      s.fileToId.get? (target paths s.sourceMapping p).canonical = some bps ∧
      bps.get? p.breakpointId = some (p.at line) ∧ (target paths s.sourceMapping p).Fits line ∧
      s.fileToLine.get? (target paths s.sourceMapping p).canonical = some lines ∧
      lines.get? line = some bp ∧ bps.get? bp.breakpointId = some bp ∧
      p.breakpointId ≤ bp.breakpointId := by
  obtain ⟨hsync, hasked⟩ := sync_run h
  have hcomplete : Complete s := by
    have hinv : Sync paths s.nextBreakpointId s ∧ Complete s := by
      refine Run.exec_invariant (I := fun s => Sync paths s.nextBreakpointId s ∧ Complete s)
        (fun hI hsep hstep => ?_) ⟨.of_empty rfl rfl rfl, .of_empty rfl⟩ hseparate h
      obtain ⟨hsync', hcomplete', -⟩ := hI.1.handle hstep
      exact ⟨hsync', hcomplete' hsep hI.2⟩
    exact hinv.2
  rw [← hasked] at hp
  obtain ⟨e, he, heq⟩ := List.mem_map.mp hp
  cases heq
  have hreceived : s.received.get? e.1 = some (e.2.1, e.2.2) := Dict.get?_eq_some.mpr he
  obtain ⟨hkey, hcanonical⟩ := hsync.keyed hreceived
  obtain ⟨bps, hbps, hmem⟩ := hcomplete.found hreceived hfound
  obtain ⟨bp, hbp⟩ := Dict.mem_keys.mp hmem
  obtain ⟨i, bp', hi, hle, hconsolidate⟩ := consolidate_of_mem (hsync.inFile hbps) hbp
  obtain ⟨key', p', hreceived', hid, hat, hfits⟩ := hsync.backed hbps hbp
  obtain ⟨key'', p'', -, hid'', hat'', -⟩ := hsync.backed hbps hi
  -- the id tells which breakpoint it is
  have hsame : key' = e.1 := by
    have hkey' := (hsync.keyed hreceived').1
    have hinj := List.inj_on_of_nodup_map (hsync.ascending.imp Int.ne_of_lt)
      (Dict.get?_eq_some.mp hreceived') he (by rw [hkey', hkey, hid])
    exact congrArg Prod.fst hinj
  rw [hsame, hreceived] at hreceived'
  cases hreceived'
  have hi' : bp'.breakpointId = i := by rw [hat'']; exact hid''
  refine ⟨bps, consolidate bps, bp.line, bp', hcanonical ▸ hbps, ?_, hfits, ?_, hconsolidate,
    hi'.symm ▸ hi, hi'.symm ▸ hle⟩
  · rw [← hat]
    exact hbp
  · rw [hsync.tied, ← hcanonical, hbps]
    rfl

/-- Two breakpoints go to one line, where the later one stands. -/
def sameLine : List BreakpointRequest :=
  [.setBreakpoints smallDisk "a.py" [{ line := 5 }, { line := 3, condition := some "x" }]]

theorem active_of_asked_sameLine : ∃ s bps lines line bp,
    exec (Pydevd.handle samePaths) {} sameLine = some s ∧ s.fileToId.get? "a.py" = some bps ∧
    bps.get? 0 = some (({ line := 5 : SourceBreakpoint }.params "a.py" 0).at line) ∧
    s.fileToLine.get? "a.py" = some lines ∧ lines.get? line = some bp ∧
    bps.get? bp.breakpointId = some bp ∧ 0 ≤ bp.breakpointId := by
  have hseparate : Run.Meets (Pydevd.handle samePaths) (fun s _ => Separate s) {} sameLine := by
    decide
  obtain ⟨bps, lines, line, bp, hbps, hat, -, hlines, hbp, hid, hle⟩ := active_of_asked samePaths
    sameLine _ "a.py" ({ line := 5 : SourceBreakpoint }.params "a.py" 0) hseparate rfl (by decide)
    (by decide)
  exact ⟨_, bps, lines, line, bp, rfl, hbps, hat, hlines, hbp, hid, hle⟩

end Debugpy.Pydevd
