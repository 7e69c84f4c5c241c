import Mathlib.Data.List.DropRight
import Mathlib.Tactic.IntervalCases

/-!
# Python's `int()`

`int(bytes)` and `int(str)` accept the same spellings over different
alphabets: blanks around an optional sign and a run of decimal digits with
single underscores between them. Both map their input to `Sym` and share
`parseInt`. A digit of a `str` is any Unicode decimal digit.
-/

namespace Debugpy.PyInt

inductive Sym where
  | space
  | plus
  | minus
  | underscore
  | digit (d : Nat)
  | other
  deriving DecidableEq, Repr

def Sym.isSpace : Sym → Bool
  | .space => true
  | _ => false

def digits : List Sym → Option (List Nat)
  | [.digit d] => some [d]
  | .digit d :: .underscore :: rest => (digits rest).map (d :: ·)
  | .digit d :: rest => (digits rest).map (d :: ·)
  | _ => none

def maxStrDigits : Nat := 4300

def ofDigits (ds : List Nat) : Nat := ds.foldl (fun n d => 10 * n + d) 0

def parseNat (run : List Sym) : Option Nat := do
  let ds ← digits run
  if ds.length ≤ maxStrDigits then some (ofDigits ds) else none

/-- `none` is `ValueError`. -/
def parseInt (text : List Sym) : Option Int :=
  match (text.dropWhile Sym.isSpace).rdropWhile Sym.isSpace with
  | .minus :: run => (parseNat run).map fun n => -(n : Int)
  | .plus :: run => (parseNat run).map fun n => (n : Int)
  | run => (parseNat run).map fun n => (n : Int)

/-- C's `isspace`, the sign, digit and underscore bytes. -/
def symOfByte (b : UInt8) : Sym :=
  if b = 32 ∨ 9 ≤ b ∧ b ≤ 13 then .space
  else if b = 43 then .plus
  else if b = 45 then .minus
  else if b = 95 then .underscore
  else if 48 ≤ b ∧ b ≤ 57 then .digit (b.toNat - 48)
  else .other

def ofBytes (bs : List UInt8) : Option Int := parseInt (bs.map symOfByte)

/-- The zero of each block of ten decimal digits in Unicode. -/
def decimalZeros : List Nat :=
  [0x30, 0x660, 0x6f0, 0x7c0, 0x966, 0x9e6, 0xa66, 0xae6, 0xb66, 0xbe6, 0xc66, 0xce6, 0xd66,
   0xde6, 0xe50, 0xed0, 0xf20, 0x1040, 0x1090, 0x17e0, 0x1810, 0x1946, 0x19d0, 0x1a80, 0x1a90,
   0x1b50, 0x1bb0, 0x1c40, 0x1c50, 0xa620, 0xa8d0, 0xa900, 0xa9d0, 0xa9f0, 0xaa50, 0xabf0,
   0xff10, 0x104a0, 0x10d30, 0x11066, 0x110f0, 0x11136, 0x111d0, 0x112f0, 0x11450, 0x114d0,
   0x11650, 0x116c0, 0x11730, 0x118e0, 0x11950, 0x11c50, 0x11d50, 0x11da0, 0x16a60, 0x16ac0,
   0x16b50, 0x1d7ce, 0x1d7d8, 0x1d7e2, 0x1d7ec, 0x1d7f6, 0x1e140, 0x1e2f0, 0x1e950, 0x1fbf0]

/-- Non-ASCII white space; of the ASCII range only C's `isspace` counts. -/
def isWideSpace (c : Nat) : Bool :=
  c ∈ [0x85, 0xa0, 0x1680, 0x2028, 0x2029, 0x202f, 0x205f, 0x3000] ∨ 0x2000 ≤ c ∧ c ≤ 0x200a

def symOfChar (ch : Char) : Sym :=
  let c := ch.toNat
  if c = 32 ∨ 9 ≤ c ∧ c ≤ 13 ∨ isWideSpace c then .space
  else if c = 43 then .plus
  else if c = 45 then .minus
  else if c = 95 then .underscore
  else match decimalZeros.find? fun z => z ≤ c ∧ c < z + 10 with
    | some z => .digit (c - z)
    | none => .other

def ofString (s : String) : Option Int := parseInt (s.toList.map symOfChar)

-- ---------------------------------------------------------------------------
-- What `str(n)` prints, `int` reads
-- ---------------------------------------------------------------------------

/-- `str(n).encode("ascii")`. -/
def decimal (n : Nat) : List UInt8 := (Nat.toDigits 10 n).map fun c => c.toNat.toUInt8

theorem digits_digit (ds : List Nat) (h : ds ≠ []) : digits (ds.map .digit) = some ds := by
  induction ds with
  | nil => exact absurd rfl h
  | cons d rest ih =>
    cases rest with
    | nil => rfl
    | cons e rest => simpa [digits] using ih (by simp)

theorem isDigit_range {c : Char} (h : c.isDigit = true) : 48 ≤ c.toNat ∧ c.toNat ≤ 57 := by
  simpa [Char.isDigit, UInt32.le_iff_toNat_le] using h

theorem symOfByte_digit {c : Char} (h : c.isDigit = true) :
    symOfByte c.toNat.toUInt8 = .digit (c.toNat - 48) := by
  obtain ⟨lo, hi⟩ := isDigit_range h
  generalize c.toNat = n at *
  interval_cases n <;> rfl

theorem ofDigits_toDigits (n : Nat) : ofDigits ((Nat.toDigits 10 n).map fun c => c.toNat - 48) = n := by
  have h := Nat.ofDigitChars_ten_toDigits (n := n)
  rw [Nat.ofDigitChars_eq_foldl] at h
  rw [ofDigits, List.foldl_map]
  exact h

theorem parseNat_digits (ds : List Nat) (h : ds ≠ []) : parseNat (ds.map .digit) =
    if ds.length ≤ maxStrDigits then some (ofDigits ds) else none := by
  simp [parseNat, digits_digit ds h]

theorem parseInt_digits (ds : List Nat) (h : ds ≠ []) : parseInt (ds.map .digit) =
    if ds.length ≤ maxStrDigits then some (ofDigits ds : Int) else none := by
  have hstrip : ((ds.map Sym.digit).dropWhile Sym.isSpace).rdropWhile Sym.isSpace =
      ds.map .digit := by
    obtain ⟨d, rest, rfl⟩ := List.exists_cons_of_ne_nil h
    rw [List.map_cons, List.dropWhile_cons_of_neg (by simp [Sym.isSpace]), ← List.map_cons,
      List.rdropWhile_eq_self_iff]
    intro hne
    rw [List.getLast_map]
    simp [Sym.isSpace]
  have hnat := parseNat_digits ds h
  unfold parseInt
  rw [hstrip]
  obtain ⟨d, rest, rfl⟩ := List.exists_cons_of_ne_nil h
  simp only [List.map_cons] at hnat ⊢
  rw [hnat]
  split <;> rfl

theorem parseInt_minus (ds : List Nat) (h : ds ≠ []) : parseInt (.minus :: ds.map .digit) =
    if ds.length ≤ maxStrDigits then some (-(ofDigits ds : Int)) else none := by
  have hstrip : ((.minus :: ds.map Sym.digit).dropWhile Sym.isSpace).rdropWhile Sym.isSpace =
      .minus :: ds.map .digit := by
    rw [List.dropWhile_cons_of_neg (by simp [Sym.isSpace]), List.rdropWhile_eq_self_iff]
    intro hne
    rw [List.getLast_cons (by simpa using h), List.getLast_map]
    simp [Sym.isSpace]
  unfold parseInt
  rw [hstrip]
  simp only [parseNat_digits ds h]
  split <;> rfl

theorem parseInt_space (text : List Sym) : parseInt (.space :: text) = parseInt text := by
  unfold parseInt
  rw [List.dropWhile_cons_of_pos rfl]

theorem length_toDigits_le (n : Nat) :
    (Nat.toDigits 10 n).length ≤ maxStrDigits ↔ n < 10 ^ maxStrDigits :=
  Nat.length_toDigits_le_iff (by decide) (by decide)

/-- A length that `str` writes, with the blank of a header before it, is
read back by `int` unless it has too many digits. -/
theorem ofBytes_decimal (n : Nat) : ofBytes (32 :: decimal n) =
    if n < 10 ^ maxStrDigits then some (n : Int) else none := by
  have hmap : (decimal n).map symOfByte = ((Nat.toDigits 10 n).map fun c => c.toNat - 48).map .digit := by
    rw [decimal, List.map_map, List.map_map]
    exact List.map_congr_left fun c hc =>
      symOfByte_digit (Nat.isDigit_of_mem_toDigits (by decide) (by decide) hc)
  rw [ofBytes, List.map_cons, show symOfByte 32 = .space from rfl, parseInt_space, hmap,
    parseInt_digits _ (by simp), ofDigits_toDigits, List.length_map]
  simp only [length_toDigits_le]

theorem symOfChar_digit {c : Char} (h : c.isDigit = true) :
    symOfChar c = .digit (c.toNat - 48) := by
  obtain ⟨lo, hi⟩ := isDigit_range h
  unfold symOfChar
  generalize c.toNat = n at *
  interval_cases n <;> rfl

theorem map_symOfChar_toDigits (n : Nat) : (Nat.toDigits 10 n).map symOfChar =
    ((Nat.toDigits 10 n).map fun c => c.toNat - 48).map .digit := by
  rw [List.map_map]
  exact List.map_congr_left fun c hc =>
    symOfChar_digit (Nat.isDigit_of_mem_toDigits (by decide) (by decide) hc)

theorem lt_of_port (h : n < 65536) : n < 10 ^ maxStrDigits := by
  have hbound : 10 ^ 5 ≤ 10 ^ maxStrDigits := Nat.pow_le_pow_right (by decide) (by decide)
  omega

theorem ofString_toString (n : Nat) : ofString (toString n) =
    if n < 10 ^ maxStrDigits then some (n : Int) else none := by
  have hlist : (toString n).toList = Nat.toDigits 10 n := Nat.toList_repr
  rw [ofString, hlist, map_symOfChar_toDigits, parseInt_digits _ (by simp), ofDigits_toDigits,
    List.length_map]
  simp only [length_toDigits_le]

theorem toList_ofNat (n : Nat) : (toString (Int.ofNat n)).toList = Nat.toDigits 10 n :=
  Nat.toList_repr

theorem toList_negSucc (n : Nat) :
    (toString (Int.negSucc n)).toList = '-' :: Nat.toDigits 10 (n + 1) := by
  have h : toString (Int.negSucc n) = "-" ++ Nat.repr (n + 1) := rfl
  rw [h, String.toList_append, Nat.toList_repr]
  rfl

theorem ofString_int (n : Int) : ofString (toString n) =
    if n.natAbs < 10 ^ maxStrDigits then some n else none := by
  cases n with
  | ofNat n => exact ofString_toString n
  | negSucc n =>
    have hminus : symOfChar '-' = .minus := rfl
    rw [ofString, toList_negSucc, List.map_cons, hminus, map_symOfChar_toDigits, parseInt_minus _ (by simp),
      ofDigits_toDigits, List.length_map]
    simp only [length_toDigits_le]
    rfl

end Debugpy.PyInt
