import Debugpy.Common.Json
import Debugpy.Lib.Scan
import Mathlib.Tactic.SplitIfs

/-!
# The text of JSON

`json.dumps` with its defaults, which writes ASCII only, and `json.loads`.
What is dumped is loaded again (`loads_dumps`), in a dict with no key twice.
-/

namespace Debugpy.Json

open Scan (Scanner ReadsAs)

-- ---------------------------------------------------------------------------
-- Strings
-- ---------------------------------------------------------------------------

/-- `BACKSLASH`. -/
def unescape (c : Char) : Option Nat :=
  if c ∈ ['"', '\\', '/'] then some c.toNat
  else if c = 'b' then some 8
  else if c = 'f' then some 12
  else if c = 'n' then some 10
  else if c = 'r' then some 13
  else if c = 't' then some 9
  else none

/-- The string after its opening quote. A character is its code point, an
escape the UTF-16 unit it names. -/
def readUnits : Scanner (List Nat)
  | [] => none
  | '"' :: l => some ([], l)
  | '\\' :: 'u' :: a :: b :: c :: d :: l =>
    (Scan.hexNumber [a, b, c, d]).bind fun u => (readUnits l).map (Prod.map (u :: ·) id)
  | '\\' :: e :: l => (unescape e).bind fun u => (readUnits l).map (Prod.map (u :: ·) id)
  | c :: l => if c.toNat < 32 then none else (readUnits l).map (Prod.map (c.toNat :: ·) id)

def IsHigh (u : Nat) : Prop := 0xD800 ≤ u ∧ u < 0xDC00
def IsLow (u : Nat) : Prop := 0xDC00 ≤ u ∧ u < 0xE000

instance : DecidablePred IsHigh := fun _ => inferInstanceAs (Decidable (_ ∧ _))
instance : DecidablePred IsLow := fun _ => inferInstanceAs (Decidable (_ ∧ _))

/-- Two escapes that are a surrogate pair are one character. A lone surrogate
is no text here. -/
def ofUnits : List Nat → Option (List Char)
  | [] => some []
  | u :: us =>
    if IsHigh u then
      match us with
      | [] => none
      | v :: us =>
        if IsLow v then
          (ofUnits us).map (Char.ofNat (65536 + (u - 0xD800) * 1024 + (v - 0xDC00)) :: ·)
        else none
    else if IsLow u then none
    else (ofUnits us).map (Char.ofNat u :: ·)

def readString : Scanner String := fun l =>
  (readUnits l).bind fun (us, l) => (ofUnits us).map fun cs => (String.ofList cs, l)

def dumpsString (s : String) : List Char := '"' :: (s.toList.flatMap escapeChar ++ ['"'])

def units (c : Char) : List Nat :=
  if c.toNat < 65536 then [c.toNat]
  else [55296 + (c.toNat - 65536) / 1024, 56320 + (c.toNat - 65536) % 1024]

theorem hexValue_hexDigit (n : Nat) : Scan.hexValue (hexDigit n) = some (n % 16) := by
  have hall : ∀ d < 16, Scan.hexValue (Nat.digitChar d) = some d := by decide
  exact hall _ (Nat.mod_lt _ (by decide))

theorem readUnits_escapeUnit (hn : n < 65536) :
    readUnits (escapeUnit n ++ l) = (readUnits l).map (Prod.map (n :: ·) id) := by
  have hnumber : Scan.hexNumber
      [hexDigit (n / 4096), hexDigit (n / 256), hexDigit (n / 16), hexDigit n] = some n := by
    simp [Scan.hexNumber, hexValue_hexDigit]
    omega
  simp [escapeUnit, readUnits, hnumber]

theorem readUnits_plain (hc : c ≠ '"' ∧ c ≠ '\\') (h32 : 32 ≤ c.toNat) :
    readUnits (c :: l) = (readUnits l).map (Prod.map (c.toNat :: ·) id) := by
  rw [readUnits]
  · exact if_neg (by omega)
  · exact hc.1
  · rintro _ _ _ _ _ rfl
    exact absurd rfl hc.2
  · rintro _ _ rfl
    exact absurd rfl hc.2

theorem readUnits_escapeChar (c : Char) :
    readUnits (escapeChar c ++ l) = (readUnits l).map (Prod.map (units c ++ ·) id) := by
  have hvalid : c.toNat < 0xD800 ∨ 0xDFFF < c.toNat ∧ c.toNat < 0x110000 := c.valid
  by_cases hwide : c.toNat < 65536
  · have hunits : units c = [c.toNat] := if_pos hwide
    simp only [escapeChar, hunits]
    split_ifs with h₁ h₂ h₃ h₄ h₅ h₆ h₇ h₈
    · simp [h₁, readUnits, unescape]
    · simp [h₂, readUnits, unescape]
    · simp [h₃, readUnits, unescape]
    · simp [h₄, readUnits, unescape]
    · simp [h₅, readUnits, unescape]
    · simp [h₆, readUnits, unescape]
    · simp [h₇, readUnits, unescape]
    · exact readUnits_plain ⟨h₁, h₂⟩ h₈.1
    · exact readUnits_escapeUnit hwide
  · have hunits : units c = [55296 + (c.toNat - 65536) / 1024, 56320 + (c.toNat - 65536) % 1024] :=
      if_neg hwide
    have hescape : escapeChar c = escapeUnit (55296 + (c.toNat - 65536) / 1024) ++
        escapeUnit (56320 + (c.toNat - 65536) % 1024) := by
      have hne (d : Char) (hd : d.toNat < 65536) : c ≠ d := by
        rintro rfl
        exact hwide hd
      have h8 : c.toNat ≠ 8 := by omega
      have h12 : c.toNat ≠ 12 := by omega
      have hascii : ¬ (32 ≤ c.toNat ∧ c.toNat ≤ 126) := by omega
      simp only [escapeChar, if_neg (hne '"' (by decide)), if_neg (hne '\\' (by decide)),
        if_neg (hne '\n' (by decide)), if_neg (hne '\r' (by decide)), if_neg (hne '\t' (by decide)),
        if_neg h8, if_neg h12, if_neg hascii, if_neg hwide]
    rw [hescape, hunits, List.append_assoc, readUnits_escapeUnit (by omega),
      readUnits_escapeUnit (by omega), Option.map_map]
    rfl

theorem ofUnits_units (c : Char) : ofUnits (units c ++ us) = (ofUnits us).map (c :: ·) := by
  have hvalid : c.toNat < 0xD800 ∨ 0xDFFF < c.toNat ∧ c.toNat < 0x110000 := c.valid
  unfold units
  split
  · have hhigh : ¬ IsHigh c.toNat := by unfold IsHigh; omega
    have hlow : ¬ IsLow c.toNat := by unfold IsLow; omega
    rw [List.singleton_append, ofUnits.eq_def]
    simp [hhigh, hlow]
  · have hhigh : IsHigh (55296 + (c.toNat - 65536) / 1024) := by unfold IsHigh; omega
    have hlow : IsLow (56320 + (c.toNat - 65536) % 1024) := by unfold IsLow; omega
    have hchar : 65536 + (55296 + (c.toNat - 65536) / 1024 - 0xD800) * 1024 +
        (56320 + (c.toNat - 65536) % 1024 - 0xDC00) = c.toNat := by omega
    simp only [List.cons_append, List.nil_append, ofUnits, if_pos hhigh, if_pos hlow, hchar,
      Char.ofNat_toNat]

theorem readString_dumps (s : String) :
    readString (s.toList.flatMap escapeChar ++ '"' :: rest) = some (s, rest) := by
  have hunits (cs : List Char) : readUnits (cs.flatMap escapeChar ++ '"' :: rest) =
      some (cs.flatMap units, rest) := by
    induction cs with
    | nil => rfl
    | cons c cs ih =>
      rw [List.flatMap_cons, List.append_assoc, readUnits_escapeChar, ih]
      rfl
  have hchars (cs : List Char) : ofUnits (cs.flatMap units) = some cs := by
    induction cs with
    | nil => rfl
    | cons c cs ih =>
      rw [List.flatMap_cons, ofUnits_units, ih]
      rfl
  simp [readString, hunits, hchars]

-- ---------------------------------------------------------------------------
-- Numbers
-- ---------------------------------------------------------------------------

def fraction : List Char → List Char
  | '.' :: l => if l.takeWhile Char.isDigit = [] then [] else '.' :: l.takeWhile Char.isDigit
  | _ => []

def sign : List Char → List Char
  | '+' :: _ => ['+']
  | '-' :: _ => ['-']
  | _ => []

def exponent : List Char → List Char
  | [] => []
  | c :: l =>
    let digits := (l.drop (sign l).length).takeWhile Char.isDigit
    if (c = 'e' ∨ c = 'E') ∧ digits ≠ [] then c :: (sign l ++ digits) else []

/-- `-?(?:0|[1-9][0-9]*)` of `NUMBER_RE`. -/
def integer : List Char → List Char
  | '-' :: l => if Scan.numeral l = [] then [] else '-' :: Scan.numeral l
  | l => Scan.numeral l

/-- `NUMBER_RE`; a number with a fraction or an exponent is a float. -/
def readNumber : Scanner Json := fun l =>
  let whole := integer l
  let part := fraction (l.drop whole.length)
  let power := exponent (l.drop (whole ++ part).length)
  let rest := l.drop (whole ++ part ++ power).length
  if whole = [] then none
  else if part ++ power = [] then
    (PyInt.ofString (String.ofList whole)).map fun n => (.int n, rest)
  else (PyFloat.ofString (String.ofList (whole ++ part ++ power))).map fun x => (.float x, rest)

theorem integer_digits (hrest : Scan.Ended rest) :
    integer (Nat.toDigits 10 n ++ rest) = Nat.toDigits 10 n := by
  have hnumeral := Scan.numeral_toDigits (n := n) fun c hc => Scan.not_digit_of_isEnd (hrest c hc)
  rw [integer]
  · exact hnumeral
  · intro l hl
    obtain ⟨c, ds, hds⟩ := List.exists_cons_of_ne_nil (@Nat.toDigits_ne_nil n 10)
    have hc : c.isDigit :=
      Nat.isDigit_of_mem_toDigits (by decide) (by decide) (hds ▸ List.mem_cons_self)
    rw [hds] at hl
    obtain ⟨rfl, -⟩ := List.cons_eq_cons.mp hl
    cases hc

/-- `int.__repr__`. -/
def intText (n : Int) : List Char := (toString n).toList

theorem intText_cases (n : Int) : (∃ m, intText n = Nat.toDigits 10 m) ∨
    ∃ m, intText n = '-' :: Nat.toDigits 10 m := by
  cases n with
  | ofNat n => exact .inl ⟨n, PyInt.toList_ofNat n⟩
  | negSucc n => exact .inr ⟨n + 1, PyInt.toList_negSucc n⟩

theorem integer_intText (n : Int) (hrest : Scan.Ended rest) :
    integer (intText n ++ rest) = intText n := by
  rcases intText_cases n with ⟨m, hm⟩ | ⟨m, hm⟩
  · rw [hm]
    exact integer_digits hrest
  · have hnumeral := Scan.numeral_toDigits (n := m) fun c hc =>
      Scan.not_digit_of_isEnd (hrest c hc)
    simp [hm, integer, hnumeral]

theorem intText_starts (n : Int) :
    ∃ c l, intText n = c :: l ∧ (c.isDigit ∨ c = '-') := by
  rcases intText_cases n with ⟨m, hm⟩ | ⟨m, hm⟩
  · obtain ⟨c, ds, hds⟩ := List.exists_cons_of_ne_nil (@Nat.toDigits_ne_nil m 10)
    exact ⟨c, ds, hm.trans hds, .inl
      (Nat.isDigit_of_mem_toDigits (by decide) (by decide) (hds ▸ List.mem_cons_self))⟩
  · exact ⟨_, _, hm, .inr rfl⟩

theorem readNumber_int (hn : n.natAbs < 10 ^ PyInt.maxStrDigits) (hrest : Scan.Ended rest) :
    readNumber (intText n ++ rest) = some (.int n, rest) := by
  have hpart : fraction rest = [] ∧ exponent rest = [] := by
    rcases rest with _ | ⟨c, rest⟩
    · exact ⟨rfl, rfl⟩
    · have hc := hrest c rfl
      simp only [Scan.isEnd, List.mem_cons, List.not_mem_nil, or_false, decide_eq_true_eq] at hc
      rcases hc with rfl | rfl | rfl <;> exact ⟨rfl, rfl⟩
  have hne : intText n ≠ [] := by
    obtain ⟨c, l, hl, -⟩ := intText_starts n
    simp [hl]
  have hint : PyInt.ofString (String.ofList (intText n)) = some n := by
    rw [intText, String.ofList_toList, PyInt.ofString_int, if_pos hn]
  simp [readNumber, integer_intText n hrest, hpart, hne, hint]

-- ---------------------------------------------------------------------------
-- Values
-- ---------------------------------------------------------------------------

def constants : List (String × Scanner Json) :=
  [("null", fun l => some (.null, l)), ("true", fun l => some (.bool true, l)),
    ("false", fun l => some (.bool false, l)), ("NaN", fun l => some (.float .nan, l)),
    ("Infinity", fun l => some (.float (.inf false), l)),
    ("-Infinity", fun l => some (.float (.inf true), l))]

def readItem (value : Scanner Json) : Scanner (String × Json)
  | '"' :: l => (readString l).bind fun key =>
    match Scan.skip key.2 with
    | ':' :: l => (value (Scan.skip l)).map (Prod.map (key.1, ·) id)
    | _ => none
  | _ => none

def ofItems (items : List (String × Json)) : List (String × Json) :=
  items.foldl (fun d p => set d p.1 p.2) []

/-- `scan_once`; `n` is more than the depth of what is read. -/
def readValue : Nat → Scanner Json
  | 0, _ => none
  | _ + 1, '"' :: l => (readString l).map (Prod.map .str id)
  | n + 1, '[' :: l => (Scan.bracketed (readValue n) ']' n l).map (Prod.map .list id)
  | n + 1, '{' :: l => (Scan.bracketed (readItem (readValue n)) '}' n l).map
      (Prod.map (fun items => .dict (ofItems items)) id)
  | _ + 1, l => (readNumber l).or (Scan.oneOf constants l)

def loads (text : List Char) : Option Json :=
  (readValue (text.length + 1) (Scan.skip text)).bind fun (v, l) =>
    if Scan.skip l = [] then some v else none

mutual
/-- `json.dumps`. An integer of too many digits raises; the text of a float is
left out. -/
def dumps : Json → Option (List Char)
  | .null => some "null".toList
  | .bool b => some (if b then "true" else "false").toList
  | .int n => if n.natAbs < 10 ^ PyInt.maxStrDigits then some (intText n) else none
  | .float _ => none
  | .str s => some (dumpsString s)
  | .list xs => (dumpsAll xs).map fun parts => '[' :: (Scan.commas parts ++ [']'])
  | .dict items => (dumpsItems items).map fun parts => '{' :: (Scan.commas parts ++ ['}'])
def dumpsAll : List Json → Option (List (List Char))
  | [] => some []
  | x :: xs => (dumps x).bind fun part => (dumpsAll xs).map (part :: ·)
def dumpsItems : List (String × Json) → Option (List (List Char))
  | [] => some []
  | (k, v) :: items => (dumps v).bind fun text =>
    (dumpsItems items).map ((dumpsString k ++ ':' :: ' ' :: text) :: ·)
end

mutual
/-- No dict has a key twice. -/
def Distinct : Json → Prop
  | .list xs => DistinctAll xs
  | .dict items => (items.map Prod.fst).Nodup ∧ DistinctItems items
  | _ => True
def DistinctAll : List Json → Prop
  | [] => True
  | x :: xs => Distinct x ∧ DistinctAll xs
def DistinctItems : List (String × Json) → Prop
  | [] => True
  | (_, v) :: items => Distinct v ∧ DistinctItems items
end

-- ---------------------------------------------------------------------------
-- What is dumped is loaded
-- ---------------------------------------------------------------------------

theorem foldl_set {d items : List (String × Json)} (h : ((d ++ items).map Prod.fst).Nodup) :
    items.foldl (fun d p => set d p.1 p.2) d = d ++ items := by
  induction items generalizing d with
  | nil => simp
  | cons p items ih =>
    have hnew : set d p.1 p.2 = d ++ [p] := by
      refine if_neg fun hany => ?_
      obtain ⟨q, hq, heq⟩ := List.any_eq_true.mp hany
      rw [List.map_append, List.map_cons, List.nodup_append] at h
      exact h.2.2 _ (List.mem_map_of_mem hq) _ List.mem_cons_self (beq_iff_eq.mp heq)
    rw [List.foldl_cons, hnew, ih (by simpa using h)]
    simp

theorem ofItems_nodup {items : List (String × Json)} (h : (items.map Prod.fst).Nodup) :
    ofItems items = items :=
  foldl_set (d := []) h

theorem distinct_set {items : List (String × Json)} {key : String} (h : Distinct (.dict items))
    (hv : Distinct value) : Distinct (.dict (set items key value)) := by
  obtain ⟨hkeys, hitems⟩ := h
  have hmap : DistinctItems (items.map fun p => if p.1 == key then (key, value) else p) := by
    clear hkeys
    induction items with
    | nil => trivial
    | cons p items ih =>
      by_cases hp : p.1 = key
      · simp only [List.map_cons, hp, beq_self_eq_true, if_true]
        exact ⟨hv, ih hitems.2⟩
      · simp only [List.map_cons, beq_iff_eq, hp, if_false]
        exact ⟨hitems.1, by simpa using ih hitems.2⟩
  have happend : DistinctItems (items ++ [(key, value)]) := by
    clear hkeys hmap
    induction items with
    | nil => exact ⟨hv, trivial⟩
    | cons p items ih => exact ⟨hitems.1, ih hitems.2⟩
  unfold set
  split
  · refine ⟨?_, hmap⟩
    have hfst : (items.map fun p => if p.1 == key then (key, value) else p).map Prod.fst =
        items.map Prod.fst := by
      rw [List.map_map]
      refine List.map_congr_left fun p _ => ?_
      by_cases hp : p.1 = key <;> simp [hp]
    rwa [hfst]
  · next hnew =>
    refine ⟨?_, happend⟩
    rw [List.map_append, List.map_singleton, List.nodup_append]
    refine ⟨hkeys, by simp, fun k hk k' hk' heq => hnew ?_⟩
    obtain ⟨p, hp, hkey⟩ := List.mem_map.mp hk
    rw [heq, List.mem_singleton.mp hk'] at hkey
    exact List.any_eq_true.mpr ⟨p, hp, beq_iff_eq.mpr hkey⟩

theorem reads_string (s : String) : ReadsAs (readValue (n + 1)) (dumpsString s) (.str s) := by
  refine ⟨⟨_, _, rfl, rfl, rfl⟩, fun rest _ => ?_⟩
  simp [dumpsString, readValue, readString_dumps]

theorem reads_item {value : Scanner Json} (h : ReadsAs value text v) :
    ReadsAs (readItem value) (dumpsString k ++ ':' :: ' ' :: text) (k, v) := by
  refine ⟨⟨_, _, rfl, rfl, rfl⟩, fun rest hrest => ?_⟩
  obtain ⟨c, l, rfl, hc, -⟩ := h.starts
  have hread := h.read rest hrest
  rw [List.cons_append] at hread
  simp [dumpsString, readItem, readString_dumps, Scan.skip_cons (show Scan.isSpace ':' = false from rfl),
    Scan.skip_space (show Scan.isSpace ' ' from rfl), Scan.skip_cons hc, hread]

theorem reads_int (hn : i.natAbs < 10 ^ PyInt.maxStrDigits) :
    ReadsAs (readValue (n + 1)) (intText i) (.int i) := by
  obtain ⟨c, l, hl, hc⟩ := intText_starts i
  have hstarts : Scan.isSpace c = false ∧ Scan.isEnd c = false := by
    rcases hc with hc | rfl
    · exact Scan.isDigit_starts hc
    · exact ⟨rfl, rfl⟩
  refine ⟨⟨c, l, hl, hstarts⟩, fun rest hrest => ?_⟩
  have hnumber := readNumber_int hn hrest
  rw [hl, List.cons_append] at hnumber ⊢
  rw [readValue, hnumber, Option.some_or]
  all_goals
    intro l' heq
    obtain ⟨rfl, -⟩ := List.cons_eq_cons.mp heq
    rcases hc with hc | hc <;> cases hc

theorem constants_clash : (constants.map Prod.fst).Pairwise Scan.Clash := by decide +kernel

theorem reads_null : ReadsAs (readValue (n + 1)) "null".toList .null := by
  refine ⟨⟨_, _, rfl, rfl, rfl⟩, fun rest _ => ?_⟩
  have hconstant := Scan.oneOf_eq (l := rest) constants_clash (.head _)
  simpa [readValue, readNumber, integer, Scan.numeral] using hconstant

theorem reads_bool (b : Bool) :
    ReadsAs (readValue (n + 1)) (if b then "true" else "false").toList (.bool b) := by
  cases b with
  | false =>
    refine ⟨⟨_, _, rfl, rfl, rfl⟩, fun rest _ => ?_⟩
    have hconstant := Scan.oneOf_eq (l := rest) constants_clash (.tail _ (.tail _ (.head _)))
    simpa [readValue, readNumber, integer, Scan.numeral] using hconstant
  | true =>
    refine ⟨⟨_, _, rfl, rfl, rfl⟩, fun rest _ => ?_⟩
    have hconstant := Scan.oneOf_eq (l := rest) constants_clash (.tail _ (.head _))
    simpa [readValue, readNumber, integer, Scan.numeral] using hconstant

mutual
theorem reads_value (v : Json) (h : dumps v = some text) (hv : Distinct v)
    (hn : text.length < n) : ReadsAs (readValue n) text v := by
  obtain ⟨n, rfl⟩ : ∃ m, n = m + 1 := ⟨n - 1, by omega⟩
  cases v with
  | null =>
    cases h
    exact reads_null
  | bool b =>
    cases h
    exact reads_bool b
  | int i =>
    rw [dumps] at h
    split at h
    · cases h
      exact reads_int ‹_›
    · cases h
  | float x => cases h
  | str s =>
    cases h
    exact reads_string s
  | list xs =>
    obtain ⟨parts, hparts, rfl⟩ := Option.map_eq_some_iff.mp h
    simp only [List.length_cons, List.length_append, List.length_nil] at hn
    have hlt : ∀ part ∈ parts, part.length < n := fun part hpart => by
      have hle := Scan.part_le_commas hpart
      omega
    have hall := reads_all xs hparts hv hlt
    refine ⟨⟨_, _, rfl, rfl, rfl⟩, fun rest _ => ?_⟩
    have hlen : parts.length ≤ n := by
      have hle := Scan.length_le_commas parts
      omega
    have hread := Scan.bracketed_reads rest hall (.inl rfl) hlen
    simp [readValue, hread]
  | dict items =>
    obtain ⟨parts, hparts, rfl⟩ := Option.map_eq_some_iff.mp h
    simp only [List.length_cons, List.length_append, List.length_nil] at hn
    have hlt : ∀ part ∈ parts, part.length < n := fun part hpart => by
      have hle := Scan.part_le_commas hpart
      omega
    have hall := reads_items items hparts hv.2 hlt
    refine ⟨⟨_, _, rfl, rfl, rfl⟩, fun rest _ => ?_⟩
    have hlen : parts.length ≤ n := by
      have hle := Scan.length_le_commas parts
      omega
    have hread := Scan.bracketed_reads rest hall (.inr rfl) hlen
    simp [readValue, hread, ofItems_nodup hv.1]
theorem reads_all (xs : List Json) (h : dumpsAll xs = some parts) (hxs : DistinctAll xs)
    (hn : ∀ part ∈ parts, part.length < n) : List.Forall₂ (ReadsAs (readValue n)) parts xs := by
  cases xs with
  | nil =>
    cases h
    exact .nil
  | cons x xs =>
    obtain ⟨part, hpart, h⟩ := Option.bind_eq_some_iff.mp h
    obtain ⟨parts, hparts, rfl⟩ := Option.map_eq_some_iff.mp h
    obtain ⟨hn, hrest⟩ := List.forall_mem_cons.mp hn
    exact .cons (reads_value x hpart hxs.1 hn) (reads_all xs hparts hxs.2 hrest)
theorem reads_items (items : List (String × Json)) (h : dumpsItems items = some parts)
    (hitems : DistinctItems items) (hn : ∀ part ∈ parts, part.length < n) :
    List.Forall₂ (ReadsAs (readItem (readValue n))) parts items := by
  cases items with
  | nil =>
    cases h
    exact .nil
  | cons item items =>
    obtain ⟨k, v⟩ := item
    obtain ⟨text, htext, h⟩ := Option.bind_eq_some_iff.mp h
    obtain ⟨parts, hparts, rfl⟩ := Option.map_eq_some_iff.mp h
    obtain ⟨hn, hrest⟩ := List.forall_mem_cons.mp hn
    have hlt : text.length < n := by
      simp only [List.length_append, List.length_cons] at hn
      omega
    exact .cons (reads_item (reads_value v htext hitems.1 hlt))
      (reads_items items hparts hitems.2 hrest)
end

theorem loads_dumps (h : dumps v = some text) (hv : Distinct v) : loads text = some v := by
  have hreads := reads_value v h hv (Nat.lt_add_one _)
  obtain ⟨c, l, hl, hc, -⟩ := hreads.starts
  have hread := hreads.read [] (by simp [Scan.Ended])
  have hskip : Scan.skip text = text := by rw [hl, Scan.skip_cons hc]
  rw [List.append_nil] at hread
  rw [loads, hskip, hread]
  rfl

end Debugpy.Json
