import Debugpy.Lib.Scan
import Mathlib.Tactic.SplitIfs

/-!
# Literals of Python

Displays of decimal integers, and string literals between double quotes. Text
put between the quotes as it is denotes itself exactly when it is `Verbatim`
(`readBody_self`).
-/

namespace Debugpy.Literal

open Scan (Scanner ReadsAs)

-- ---------------------------------------------------------------------------
-- Lists of integers
-- ---------------------------------------------------------------------------

def readList : Scanner (List Nat)
  | '[' :: l => Scan.bracketed Scan.readNat ']' l.length l
  | _ => none

/-- `repr` of a list of natural numbers. -/
def listText (ns : List Nat) : List Char := '[' :: (Scan.commas (ns.map (Nat.toDigits 10)) ++ [']'])

theorem readList_listText : readList (listText ns ++ rest) = some (ns, rest) := by
  have hreads : List.Forall₂ (ReadsAs Scan.readNat) (ns.map (Nat.toDigits 10)) ns := by
    induction ns with
    | nil => exact .nil
    | cons n ns ih => exact .cons (Scan.reads_nat n) ih
  have hlen := Scan.length_le_commas (ns.map (Nat.toDigits 10))
  simp only [listText, List.cons_append, List.append_assoc, List.nil_append, readList]
  exact Scan.bracketed_reads rest hreads (.inl rfl) (by simp at hlen ⊢; omega)

theorem mem_listText (h : c ∈ listText ns) : c.isDigit ∨ c ∈ ['[', ']', ',', ' '] := by
  have hparts : ∀ parts : List (List Char), (∀ part ∈ parts, ∀ c ∈ part, c.isDigit) →
      ∀ c ∈ Scan.commas parts, c.isDigit ∨ c ∈ ['[', ']', ',', ' '] := by
    intro parts hdigits c hc
    induction parts with
    | nil => simp [Scan.commas] at hc
    | cons part parts ih =>
      obtain ⟨hpart, hdigits⟩ := List.forall_mem_cons.mp hdigits
      rcases parts with _ | ⟨part', parts⟩
      · exact .inl (hpart c (by simpa [Scan.commas] using hc))
      · simp only [Scan.commas, List.intercalate_cons_cons, List.mem_append] at hc
        rcases hc with (hc | hc) | hc
        · exact .inl (hpart c hc)
        · right
          simp_all
        · exact ih hdigits hc
  simp only [listText, List.mem_cons, List.mem_append, List.not_mem_nil, or_false] at h
  rcases h with rfl | h | rfl
  · exact .inr (by decide)
  · refine hparts _ (fun part hpart c hc => ?_) c h
    obtain ⟨n, -, rfl⟩ := List.mem_map.mp hpart
    exact Nat.isDigit_of_mem_toDigits (by decide) (by decide) hc
  · exact .inr (by decide)

-- ---------------------------------------------------------------------------
-- Strings
-- ---------------------------------------------------------------------------

def escapes (c : Char) : Bool := c ∈ "\n\r\\'\"abfnrtv01234567xuUN".toList

def ofCodePoint (n : Nat) : Option Char := if n.isValidChar then some (Char.ofNat n) else none

def isOctal (c : Char) : Bool := '0' ≤ c && c ≤ '7'

/-- The character whose code point has `k` hexadecimal digits; a surrogate is
none here. -/
def readCodePoint (k : Nat) : Scanner (Option Char) := fun l =>
  (Scan.readHex k l).bind fun x => (ofCodePoint x.1).map fun c => (c, x.2)

variable {named : List Char → Option Char}

/-- The escape that starts with `c`, with `l` after it; `named` are the names
of characters. -/
def readEscape (named : List Char → Option Char) (c : Char) (l : List Char) :
    Option (Option Char × List Char) :=
  match c with
  | '\n' => some (none, l)
  | '\r' => some (none, if l.head? = some '\n' then l.tail else l)
  | 'a' => some (Char.ofNat 7, l)
  | 'b' => some (Char.ofNat 8, l)
  | 'f' => some (Char.ofNat 12, l)
  | 'n' => some ('\n', l)
  | 'r' => some ('\r', l)
  | 't' => some ('\t', l)
  | 'v' => some (Char.ofNat 11, l)
  | 'x' => readCodePoint 2 l
  | 'u' => readCodePoint 4 l
  | 'U' => readCodePoint 8 l
  | 'N' =>
    if l.head? = some '{' ∧ '}' ∈ l then
      (named (l.tail.takeWhile (· ≠ '}'))).map fun c => (c, (l.dropWhile (· ≠ '}')).tail)
    else none
  | c =>
    if isOctal c then
      let digits := c :: (l.take 2).takeWhile isOctal
      some (Char.ofNat (Nat.ofDigitChars 8 digits 0), l.drop (digits.length - 1))
    else some (c, l)

def readBody (named : List Char → Option Char) : Nat → Scanner (List Char)
  | 0, _ => none
  | _ + 1, [] => none
  | n + 1, c :: l =>
    if c = '"' then some ([], l)
    else if c ∈ ['\n', '\r', '\x00'] then none
    else if c = '\\' then
      match l with
      | [] => none
      | e :: l' =>
        if escapes e then (readEscape named e l').bind fun x =>
          (readBody named n x.2).map (Prod.map (x.1.toList ++ ·) id)
        else (readBody named n l).map (Prod.map ('\\' :: ·) id)
    else (readBody named n l).map (Prod.map (c :: ·) id)

def readString (named : List Char → Option Char) : Scanner (List Char)
  | '"' :: l => readBody named (l.length + 1) l
  | _ => none

/-- Between the quotes it denotes itself. -/
structure Verbatim (s : List Char) : Prop where
  plain : ∀ c ∈ s, c ∉ ['"', '\n', '\r', '\x00']
  unescaped : Scan.Unescaped (fun e => escapes e) s

theorem verbatim_of_all (h : (s.all fun c => c ∉ ['"', '\n', '\r', '\x00']) = true)
    (hunescaped : Scan.Unescaped (fun e => escapes e) s) : Verbatim s :=
  ⟨fun c hc => of_decide_eq_true (List.all_eq_true.mp h c hc), hunescaped⟩

theorem readCodePoint_suffix (h : readCodePoint k l = some (o, r)) : r <:+ l := by
  obtain ⟨⟨n, l'⟩, hhex, h⟩ := Option.bind_eq_some_iff.mp h
  obtain ⟨c, -, h⟩ := Option.map_eq_some_iff.mp h
  cases h
  unfold Scan.readHex at hhex
  split at hhex
  · cases hhex
  · obtain ⟨_, -, hhex⟩ := Option.map_eq_some_iff.mp hhex
    cases hhex
    exact List.drop_suffix _ _

theorem readEscape_suffix (h : readEscape named c l = some (o, r)) : r <:+ l := by
  unfold readEscape at h
  split at h
  case h_2 =>
    cases h
    split
    · exact List.tail_suffix _
    · exact List.suffix_rfl
  case h_10 | h_11 | h_12 => exact readCodePoint_suffix h
  case h_13 =>
    split at h
    · obtain ⟨_, -, h⟩ := Option.map_eq_some_iff.mp h
      cases h
      exact (List.tail_suffix _).trans (List.dropWhile_suffix _)
    · cases h
  case h_14 =>
    split at h
    · cases h
      exact List.drop_suffix _ _
    · cases h
      exact List.suffix_rfl
  all_goals
    cases h
    exact List.suffix_rfl

theorem map_append_eq_some {q : Option (List Char × List Char)} :
    q.map (Prod.map (out ++ ·) id) = some (s, r) ↔ ∃ s', s = out ++ s' ∧ q = some (s', r) := by
  cases q <;> simp [Prod.map, Prod.ext_iff, eq_comm]

/-- What one step of `readBody` can do. -/
theorem readBody_cases (h : readBody named (n + 1) (c :: l) = some (s, r)) :
    c = '"' ∧ s = [] ∧ r = l ∨
    (∃ e l' o l'' s', c = '\\' ∧ l = e :: l' ∧ escapes e ∧ readEscape named e l' = some (o, l'') ∧
      s = o.toList ++ s' ∧ readBody named n l'' = some (s', r)) ∨
    c ∉ ['"', '\n', '\r', '\x00'] ∧ (c = '\\' → ∃ e l', l = e :: l' ∧ ¬ escapes e) ∧
      ∃ s', s = c :: s' ∧ readBody named n l = some (s', r) := by
  rw [readBody.eq_def] at h
  simp only at h
  split_ifs at h with hquote hline hback
  · cases h
    exact .inl ⟨hquote, rfl, rfl⟩
  · subst hback
    rcases l with _ | ⟨e, l'⟩
    · cases h
    simp only at h
    split_ifs at h with he
    · obtain ⟨⟨o, l''⟩, hesc, h⟩ := Option.bind_eq_some_iff.mp h
      obtain ⟨s', rfl, hrest⟩ := map_append_eq_some.mp h
      exact .inr (.inl ⟨e, l', o, l'', s', rfl, rfl, he, hesc, rfl, hrest⟩)
    · obtain ⟨s', rfl, hrest⟩ := Scan.map_cons_eq_some.mp h
      exact .inr (.inr ⟨by decide, fun _ => ⟨e, l', rfl, he⟩, s', rfl, hrest⟩)
  · obtain ⟨s', rfl, hrest⟩ := Scan.map_cons_eq_some.mp h
    exact .inr (.inr ⟨by simp_all, fun heq => absurd heq hback, s', rfl, hrest⟩)

theorem readBody_suffix (h : readBody named n l = some (s, r)) : '"' :: r <:+ l := by
  induction n generalizing l s with
  | zero => cases h
  | succ n ih =>
    rcases l with _ | ⟨c, l⟩
    · cases h
    obtain ⟨rfl, -, rfl⟩ | ⟨e, l', o, l'', s', rfl, rfl, -, hesc, -, hrest⟩ | ⟨-, -, s', -, hrest⟩ :=
      readBody_cases h
    · exact List.suffix_rfl
    · have hsuffix := (ih hrest).trans (readEscape_suffix hesc)
      exact (hsuffix.trans (List.suffix_cons e l')).trans (List.suffix_cons _ _)
    · exact (ih hrest).trans (List.suffix_cons c l)

/-- An escape is longer than what it stands for. -/
theorem readBody_length (h : readBody named n l = some (s, r)) :
    s.length + r.length + 1 ≤ l.length := by
  induction n generalizing l s with
  | zero => cases h
  | succ n ih =>
    rcases l with _ | ⟨c, l⟩
    · cases h
    obtain ⟨rfl, rfl, rfl⟩ | ⟨e, l', o, l'', s', rfl, rfl, -, hesc, rfl, hrest⟩ |
      ⟨-, -, s', rfl, hrest⟩ := readBody_cases h
    · simp
    · have hle := (readEscape_suffix hesc).length_le
      have hrec := ih hrest
      have ho : o.toList.length ≤ 1 := by cases o <;> simp
      simp only [List.length_append, List.length_cons]
      omega
    · have hrec := ih hrest
      simp only [List.length_cons]
      omega

theorem verbatim_cons : Verbatim (c :: s) ↔ c ∉ ['"', '\n', '\r', '\x00'] ∧
    (c = '\\' → ∃ e s', s = e :: s' ∧ ¬ escapes e) ∧ Verbatim s := by
  constructor
  · rintro ⟨hplain, hunescaped⟩
    obtain ⟨hc, hplain⟩ := List.forall_mem_cons.mp hplain
    obtain ⟨hce, hunescaped⟩ := Scan.unescaped_cons.mp hunescaped
    exact ⟨hc, hce, hplain, hunescaped⟩
  · rintro ⟨hc, hce, hplain, hunescaped⟩
    exact ⟨List.forall_mem_cons.mpr ⟨hc, hplain⟩, Scan.unescaped_cons.mpr ⟨hce, hunescaped⟩⟩

/-- No closing quote comes after the last quote of the text. -/
theorem readBody_rest (h : readBody named n (s ++ '"' :: t) = some (s', r)) (ht : '"' ∉ t) :
    t.length ≤ r.length := by
  by_contra hlt
  have hsuffix : '"' :: r <:+ t :=
    List.suffix_of_suffix_length_le (readBody_suffix h)
      ((List.suffix_cons '"' t).trans (List.suffix_append s _)) (by simp; omega)
  exact ht (hsuffix.subset List.mem_cons_self)

theorem readBody_verbatim (hs : Verbatim s) (hn : s.length < n) :
    readBody named n (s ++ '"' :: t) = some (s, t) := by
  induction s generalizing n with
  | nil =>
    obtain ⟨n, rfl⟩ := Nat.exists_eq_add_of_lt hn
    simp [readBody]
  | cons c s ih =>
    obtain ⟨n, rfl⟩ : ∃ m, n = m + 1 := ⟨n - 1, by omega⟩
    obtain ⟨hc, hce, hs⟩ := verbatim_cons.mp hs
    have hrest := ih hs (by simpa using hn)
    have hquote : c ≠ '"' := by rintro rfl; simp at hc
    have hline : c ∉ ['\n', '\r', '\x00'] := fun hmem => hc (List.mem_cons_of_mem _ hmem)
    rw [List.cons_append, readBody.eq_def]
    simp only [if_neg hquote, if_neg hline]
    split_ifs with hback
    · obtain ⟨e, s, rfl, he⟩ := hce hback
      rw [List.cons_append] at hrest ⊢
      simp [he, hrest, hback]
    · simp [hrest]

/-- What is between the quotes denotes itself, and nothing after it is read,
exactly when it is verbatim. -/
theorem readBody_self (ht : '"' ∉ t) (hn : s.length < n) :
    readBody named n (s ++ '"' :: t) = some (s, r) ↔ Verbatim s ∧ r = t := by
  constructor
  · intro h
    have hrest := readBody_rest h ht
    induction s generalizing n with
    | nil =>
      obtain ⟨n, rfl⟩ := Nat.exists_eq_add_of_lt hn
      cases h
      exact ⟨⟨by simp, by simp, by simp⟩, rfl⟩
    | cons c s ih =>
      obtain ⟨n, rfl⟩ : ∃ m, n = m + 1 := ⟨n - 1, by omega⟩
      obtain ⟨-, hs, -⟩ | ⟨e, l, o, l', s', -, hl, -, hesc, hs, h⟩ | ⟨hc, hce, s', hs, h⟩ :=
        readBody_cases h
      · cases hs
      · have hle := (readEscape_suffix hesc).length_le
        have hlen := readBody_length h
        have ho : o.toList.length ≤ 1 := by cases o <;> simp
        replace hl := congrArg List.length hl
        replace hs := congrArg List.length hs
        simp only [List.append_eq, List.length_append, List.length_cons] at hl hs
        omega
      · cases hs
        obtain ⟨hs, rfl⟩ := ih (by simpa using hn) h
        refine ⟨verbatim_cons.mpr ⟨hc, fun heq => ?_, hs⟩, rfl⟩
        obtain ⟨e, l, hl, he⟩ := hce heq
        rcases s with _ | ⟨e', s⟩
        · cases hl
          exact absurd rfl he
        · cases hl
          exact ⟨_, _, rfl, he⟩
  · rintro ⟨hs, rfl⟩
    exact readBody_verbatim hs hn

end Debugpy.Literal
