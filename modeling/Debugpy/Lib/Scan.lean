import Mathlib.Data.List.Basic
import Mathlib.Data.List.Forall2
import Mathlib.Data.List.Zip

/-!
# Scanning text

A scanner takes a value from the start of a text and gives back what follows
it. Here are the scanners of decimal numerals and of lists between brackets,
and that they read what is printed: `ReadsAs item part x` says that `item` reads
`part` as `x` wherever the text goes on as it does in a list.
-/

namespace Debugpy.Scan

abbrev Scanner (α : Type) := List Char → Option (α × List Char)

variable {α : Type} {item : Scanner α} {parts : List (List Char)} {xs : List α}

def isSpace (c : Char) : Bool := c ∈ [' ', '\t', '\n', '\r']

def skip (l : List Char) : List Char := l.dropWhile isSpace

def isEnd (c : Char) : Bool := c ∈ [',', ']', '}']

def Ended (l : List Char) : Prop := ∀ c ∈ l.head?, isEnd c

structure ReadsAs (item : Scanner α) (part : List Char) (x : α) : Prop where
  starts : ∃ c l, part = c :: l ∧ isSpace c = false ∧ isEnd c = false
  read : ∀ rest, Ended rest → item (part ++ rest) = some (x, rest)

theorem map_cons_eq_some {c : α} {w : List α} {p : Option (List α × List Char)} :
    p.map (Prod.map (c :: ·) id) = some (w, r) ↔ ∃ w', w = c :: w' ∧ p = some (w', r) := by
  cases p <;> simp [Prod.map, Prod.ext_iff, eq_comm]

theorem skip_cons (h : isSpace c = false) : skip (c :: l) = c :: l := by simp [skip, h]

theorem skip_space (h : isSpace c) : skip (c :: l) = skip l := by simp [skip, h]

-- ---------------------------------------------------------------------------
-- Fixed texts
-- ---------------------------------------------------------------------------

/-- By the text it starts with, each form has a scanner for what follows. -/
def oneOf (forms : List (String × Scanner α)) : Scanner α := fun l =>
  forms.findSome? fun form => (l.dropPrefix? form.1.toList).bind form.2

/-- Somewhere the texts differ, so neither is the start of the other. -/
def Clash (s t : String) : Prop := ∃ p ∈ s.toList.zip t.toList, p.1 ≠ p.2

instance : DecidableRel Clash := fun s t =>
  inferInstanceAs (Decidable (∃ p ∈ s.toList.zip t.toList, p.1 ≠ p.2))

theorem Clash.symm (h : Clash s t) : Clash t s := by
  obtain ⟨p, hp, hne⟩ := h
  rw [← List.zip_swap, List.mem_map] at hp
  obtain ⟨q, hq, rfl⟩ := hp
  exact ⟨q, hq, Ne.symm hne⟩

theorem dropPrefix?_clash {w w' l : List Char} (h : ∃ p ∈ w.zip w', p.1 ≠ p.2) :
    (w' ++ l).dropPrefix? w = none := by
  induction w generalizing w' with
  | nil => simp at h
  | cons c w ih =>
    rcases w' with _ | ⟨c', w'⟩
    · simp at h
    by_cases hc : c' = c
    · simp [List.dropPrefix?, hc, ih (by simpa [hc] using h)]
    · simp [List.dropPrefix?, hc]

/-- Text that starts as a form does is read by it, if the forms start differently. -/
theorem oneOf_eq {forms : List (String × Scanner α)} {f : Scanner α}
    (hforms : (forms.map Prod.fst).Pairwise Clash) (hmem : (w, f) ∈ forms) :
    oneOf forms (w.toList ++ l) = f l := by
  have hother {form : String × Scanner α} (h : Clash form.1 w) :
      ((w.toList ++ l).dropPrefix? form.1.toList).bind form.2 = none := by
    rw [dropPrefix?_clash h, Option.bind_none]
  induction forms with
  | nil => cases hmem
  | cons form forms ih =>
    obtain ⟨hhead, htail⟩ := List.pairwise_cons.mp hforms
    rw [oneOf, List.findSome?_cons]
    rcases List.mem_cons.mp hmem with rfl | hmem
    · have hrest : forms.findSome?
          (fun form => ((w.toList ++ l).dropPrefix? form.1.toList).bind form.2) = none :=
        List.findSome?_eq_none_iff.mpr fun form hform =>
          hother (hhead _ (List.mem_map_of_mem hform)).symm
      rw [hrest, List.dropPrefix?_append_of_beq l (by simp), Option.bind_some]
      cases h : f l <;> simp only [h]
    · rw [hother (hhead _ (List.mem_map_of_mem hmem))]
      exact ih htail hmem

-- ---------------------------------------------------------------------------
-- Backslashes
-- ---------------------------------------------------------------------------

/-- No backslash has a special character after it or is the last character. -/
structure Unescaped (special : Char → Prop) (s : List Char) : Prop where
  next : s.IsChain fun c e => c = '\\' → ¬ special e
  last : s.getLast? ≠ some '\\'

theorem unescaped_cons {special : Char → Prop} : Unescaped special (c :: s) ↔
    (c = '\\' → ∃ e s', s = e :: s' ∧ ¬ special e) ∧ Unescaped special s := by
  rcases s with _ | ⟨e, s⟩
  · constructor
    · rintro ⟨-, hlast⟩
      exact ⟨fun heq => absurd (by simp [heq]) hlast, by simp, by simp⟩
    · rintro ⟨hc, -⟩
      exact ⟨by simp, by simpa using hc⟩
  · constructor
    · rintro ⟨hnext, hlast⟩
      obtain ⟨hce, hnext⟩ := List.isChain_cons_cons.mp hnext
      exact ⟨fun heq => ⟨e, s, rfl, hce heq⟩, hnext, by simpa using hlast⟩
    · rintro ⟨hce, hnext, hlast⟩
      refine ⟨List.isChain_cons_cons.mpr ⟨fun heq => ?_, hnext⟩, by simpa using hlast⟩
      obtain ⟨_, _, ⟨⟩, he⟩ := hce heq
      exact he

-- ---------------------------------------------------------------------------
-- Numerals
-- ---------------------------------------------------------------------------

def numeral : List Char → List Char
  | '0' :: _ => ['0']
  | l => l.takeWhile Char.isDigit

def readNat : Scanner Nat := fun l =>
  if numeral l = [] then none
  else some (Nat.ofDigitChars 10 (numeral l) 0, l.drop (numeral l).length)

def hexValue (c : Char) : Option Nat :=
  if c.isDigit then some (c.toNat - 48)
  else if 97 ≤ c.toNat ∧ c.toNat ≤ 102 then some (c.toNat - 87)
  else if 65 ≤ c.toNat ∧ c.toNat ≤ 70 then some (c.toNat - 55)
  else none

def hexNumber (cs : List Char) : Option Nat :=
  cs.foldlM (fun n c => (hexValue c).map (16 * n + ·)) 0

/-- A numeral of `k` hexadecimal digits. -/
def readHex (k : Nat) : Scanner Nat := fun l =>
  if l.length < k then none else (hexNumber (l.take k)).map fun n => (n, l.drop k)

theorem toDigits_head (h : (Nat.toDigits 10 n).head? = some '0') : n = 0 := by
  induction n using Nat.strongRecOn with
  | ind n ih =>
    by_cases hn : n < 10
    · rw [Nat.toDigits_of_lt_base hn] at h
      have hdigit : ∀ n < 10, Nat.digitChar n = '0' → n = 0 := by decide
      exact hdigit n hn (by simpa using h)
    · rw [Nat.toDigits_of_base_le (by decide) (Nat.le_of_not_lt hn)] at h
      obtain ⟨c, l, hl⟩ := List.exists_cons_of_ne_nil (@Nat.toDigits_ne_nil (n / 10) 10)
      have hdiv := ih (n / 10) (by omega) (by simpa [hl] using h)
      omega

theorem numeral_toDigits (hrest : ∀ c ∈ rest.head?, c.isDigit = false) :
    numeral (Nat.toDigits 10 n ++ rest) = Nat.toDigits 10 n := by
  have hdigits : ∀ c ∈ Nat.toDigits 10 n, c.isDigit := fun c hc =>
    Nat.isDigit_of_mem_toDigits (by decide) (by decide) hc
  have htake : (Nat.toDigits 10 n ++ rest).takeWhile Char.isDigit = Nat.toDigits 10 n := by
    rw [List.takeWhile_append_of_pos hdigits]
    cases rest with
    | nil => simp
    | cons c rest => simp [hrest c rfl]
  by_cases hn : n = 0
  · subst hn
    rfl
  · rw [numeral]
    · exact htake
    · intro l hl
      refine hn (toDigits_head ?_)
      rw [← List.head?_append_of_ne_nil _ Nat.toDigits_ne_nil, hl]
      rfl

theorem not_digit_of_isEnd (h : isEnd c) : c.isDigit = false := by
  simp only [isEnd, List.mem_cons, List.not_mem_nil, or_false, decide_eq_true_eq] at h
  rcases h with rfl | rfl | rfl <;> rfl

theorem isDigit_starts (h : c.isDigit) : isSpace c = false ∧ isEnd c = false := by
  constructor
  · cases hc : isSpace c with
    | false => rfl
    | true =>
      simp only [isSpace, List.mem_cons, List.not_mem_nil, or_false, decide_eq_true_eq] at hc
      rcases hc with rfl | rfl | rfl | rfl <;> cases h
  · cases hc : isEnd c with
    | false => rfl
    | true => simp [not_digit_of_isEnd hc] at h

theorem reads_nat (n : Nat) : ReadsAs readNat (Nat.toDigits 10 n) n := by
  constructor
  · obtain ⟨c, l, hl⟩ := List.exists_cons_of_ne_nil (@Nat.toDigits_ne_nil n 10)
    have hc : c.isDigit :=
      Nat.isDigit_of_mem_toDigits (by decide) (by decide) (hl ▸ List.mem_cons_self)
    exact ⟨c, l, hl, isDigit_starts hc⟩
  · intro rest hrest
    have hnumeral := numeral_toDigits (n := n) fun c hc => not_digit_of_isEnd (hrest c hc)
    simp [readNat, hnumeral, Nat.ofDigitChars_ten_toDigits]

-- ---------------------------------------------------------------------------
-- Lists between brackets
-- ---------------------------------------------------------------------------

/-- At least one item, with commas between them, up to the closing bracket. -/
def items (item : Scanner α) (close : Char) : Nat → Scanner (List α)
  | 0, _ => none
  | n + 1, l => (item l).bind fun x =>
    match skip x.2 with
    | [] => none
    | c :: l =>
      if c = close then some ([x.1], l)
      else if c = ',' then (items item close n (skip l)).map (Prod.map (x.1 :: ·) id)
      else none

/-- What follows an opening bracket; `n` is more than the items there can be. -/
def bracketed (item : Scanner α) (close : Char) (n : Nat) : Scanner (List α) := fun l =>
  match skip l with
  | [] => none
  | c :: l => if c = close then some ([], l) else items item close n (c :: l)

def commas (parts : List (List Char)) : List Char := [',', ' '].intercalate parts

theorem commas_cons_cons : commas (part :: part' :: parts) ++ rest =
    part ++ ',' :: ' ' :: (commas (part' :: parts) ++ rest) := by
  simp [commas, List.intercalate_cons_cons]

theorem length_le_commas (parts : List (List Char)) : parts.length ≤ (commas parts).length + 1 := by
  induction parts with
  | nil => simp
  | cons part parts ih =>
    cases parts with
    | nil => simp
    | cons part' parts =>
      simp only [commas, List.intercalate_cons_cons, List.length_append, List.length_cons,
        List.length_nil] at ih ⊢
      omega

theorem part_le_commas (h : part ∈ parts) : part.length ≤ (commas parts).length := by
  induction parts with
  | nil => cases h
  | cons part' parts ih =>
    cases parts with
    | nil => simp [List.mem_singleton.mp h, commas]
    | cons part'' parts =>
      simp only [commas, List.intercalate_cons_cons, List.length_append] at ih ⊢
      rcases List.mem_cons.mp h with rfl | h
      · omega
      · have hle := ih h
        omega

/-- A list starts as its first part does. -/
theorem commas_starts (parts : List (List Char)) (h : ReadsAs item part x) :
    ∃ c l, commas (part :: parts) = c :: l ∧ isSpace c = false ∧ isEnd c = false := by
  obtain ⟨c, l, rfl, hc⟩ := h.starts
  cases parts with
  | nil => exact ⟨c, l, List.intercalate_singleton, hc⟩
  | cons part' parts => exact ⟨c, _, List.intercalate_cons_cons, hc⟩

theorem items_reads (h : List.Forall₂ (ReadsAs item) (part :: parts) (x :: xs))
    (hclose : close = ']' ∨ close = '}') (hn : parts.length < n) :
    items item close n (commas (part :: parts) ++ close :: rest) = some (x :: xs, rest) := by
  have hend : isEnd close := by rcases hclose with rfl | rfl <;> rfl
  have hspace : isSpace close = false := by rcases hclose with rfl | rfl <;> rfl
  have hcomma : ',' ≠ close := by rcases hclose with rfl | rfl <;> decide
  induction parts generalizing part x xs n with
  | nil =>
    obtain ⟨hx, hnil⟩ := List.forall₂_cons.mp h
    obtain rfl := List.forall₂_nil_left_iff.mp hnil
    obtain ⟨n, rfl⟩ := Nat.exists_eq_add_of_lt hn
    have hread := hx.read (close :: rest) (by simpa [Ended] using hend)
    simp [items, commas, hread, skip_cons hspace]
  | cons part' parts ih =>
    obtain ⟨hx, hrest⟩ := List.forall₂_cons.mp h
    obtain ⟨x', xs, hx', -, rfl⟩ := List.forall₂_cons_left_iff.mp hrest
    obtain ⟨n, rfl⟩ : ∃ m, n = m + 1 := ⟨n - 1, by omega⟩
    have hskip : skip (' ' :: (commas (part' :: parts) ++ close :: rest)) =
        commas (part' :: parts) ++ close :: rest := by
      obtain ⟨c, l, hl, hc, -⟩ := commas_starts parts hx'
      rw [skip_space rfl, hl, List.cons_append, skip_cons hc]
    rw [commas_cons_cons, items, hx.read _ (by simp [Ended, isEnd]), Option.bind_some,
      skip_cons rfl]
    simp only [hskip, if_neg hcomma, if_true, ih hrest (by simpa using hn)]
    rfl

theorem bracketed_reads (rest : List Char) (h : List.Forall₂ (ReadsAs item) parts xs)
    (hclose : close = ']' ∨ close = '}') (hn : parts.length ≤ n) :
    bracketed item close n (commas parts ++ close :: rest) = some (xs, rest) := by
  cases h with
  | nil =>
    have hspace : isSpace close = false := by rcases hclose with rfl | rfl <;> rfl
    simp [bracketed, commas, skip_cons hspace]
  | @cons part x parts xs hx hrest =>
    obtain ⟨c, l, hl, hc, hend⟩ := commas_starts parts hx
    have hne : c ≠ close := by rcases hclose with rfl | rfl <;> rintro rfl <;> cases hend
    rw [← items_reads (.cons hx hrest) hclose hn, hl, List.cons_append, bracketed, skip_cons hc]
    simp [hne]

end Debugpy.Scan
