import Debugpy.Common.PyInt
import Mathlib.Data.Rat.Defs
import Mathlib.Tactic.FieldSimp
import Mathlib.Tactic.Ring

/-!
# Python's `float()`

Floats as far as their values go, and how `float()` makes one of an integer or
of a string: it is the binary64 number next to it, and of two that are equally
near the one with an even significand.
-/

namespace Debugpy

/-- A float that a JSON number can decode to; `0.0` and `-0.0` compare equal
and nothing here tells them apart. -/
inductive PyFloat where
  | finite (q : ℚ)
  | inf (negative : Bool)
  | nan
  deriving DecidableEq, Repr

namespace PyFloat

-- ---------------------------------------------------------------------------
-- Rounding
-- ---------------------------------------------------------------------------

/-- The exponent of the power of two that is next below `num / den`. -/
def exponent (num den : Nat) : Int :=
  let k : Int := (Nat.log2 num : Int) - Nat.log2 den
  if num * 2 ^ (-k).toNat < den * 2 ^ k.toNat then k - 1 else k

/-- `num / den` as the nearest integer. -/
def halfEven (num den : Nat) : Nat :=
  let q := num / den
  let r := num % den
  if 2 * r < den then q else if den < 2 * r then q + 1 else q + q % 2

/-- The nearest double: 53 bits, or fewer below the least normal one. -/
def ofRatio (negative : Bool) (num den : Nat) : PyFloat :=
  let e := max (exponent num den - 52) (-1074)
  let m := halfEven (num * 2 ^ (-e).toNat) (den * 2 ^ e.toNat)
  let q : ℚ := m * 2 ^ e.toNat / 2 ^ (-e).toNat
  if 2 ^ 1024 ≤ q then .inf negative else .finite (if negative then -q else q)

/-- `float(n)` of an integer; `none` is `OverflowError`. -/
def ofInt (n : Int) : Option PyFloat :=
  match ofRatio (n < 0) n.natAbs 1 with
  | .inf _ => none
  | x => some x

theorem halfEven_one (n : Nat) : halfEven n 1 = n := by
  simp [halfEven, Nat.mod_one]

theorem exponent_le (h : n < 2 ^ 53) : exponent n 1 ≤ 52 := by
  have hlog : Nat.log2 n ≤ 52 := by
    by_cases hn : n = 0
    · simp [hn]
    · exact Nat.le_of_lt_succ ((Nat.log2_lt hn).mpr h)
  have hone : Nat.log2 1 = 0 := by decide
  unfold exponent
  rw [hone]
  dsimp only
  split <;> omega

theorem sign_natAbs (n : Int) : (if n < 0 then -(n.natAbs : ℚ) else n.natAbs) = n := by
  have hcast : (n.natAbs : ℚ) = ((n.natAbs : Int) : ℚ) := (Int.cast_natCast _).symm
  rw [hcast]
  rcases lt_or_ge n 0 with hn | hn
  · rw [if_pos hn, Int.ofNat_natAbs_of_nonpos hn.le]
    simp
  · rw [if_neg hn.not_gt, Int.natAbs_of_nonneg hn]

theorem ofInt_exact (n : Int) (h : n.natAbs < 2 ^ 53) : ofInt n = some (.finite n) := by
  have hle := exponent_le h
  have he : (max (exponent n.natAbs 1 - 52) (-1074)).toNat = 0 := by omega
  have hq : ∀ k : Nat, ((n.natAbs * 2 ^ k : Nat) : ℚ) * 1 / 2 ^ k = n.natAbs := by
    intro k
    push_cast
    field_simp
  have hlt : ∀ k, 53 ≤ k → ¬ (2 : ℚ) ^ k ≤ n.natAbs := by
    intro k hk
    have hbound := Nat.cast_lt (α := ℚ).mpr (h.trans_le (Nat.pow_le_pow_right (by decide) hk))
    rw [Nat.cast_pow] at hbound
    exact not_le.mpr hbound
  simp only [ofInt, ofRatio, he, pow_zero, Nat.mul_one, halfEven_one, hq, if_neg (hlt 1024 (by decide)),
    decide_eq_true_eq, sign_natAbs]

-- ---------------------------------------------------------------------------
-- Strings
-- ---------------------------------------------------------------------------

/-- `float()` sees blanks and decimal digits of any script as those of ASCII,
and no other character that is not ASCII. -/
def asciiOf (ch : Char) : Char :=
  let c := ch.toNat
  if c < 128 then ch
  else if PyInt.isWideSpace c then ' '
  else match PyInt.decimalZeros.find? fun z => z ≤ c ∧ c < z + 10 with
    | some z => Nat.digitChar (c - z)
    | none => '?'

def isBlank (c : Char) : Bool := c = ' ' ∨ 9 ≤ c.toNat ∧ c.toNat ≤ 13

def dropUnderscores : Option Char → List Char → Option (List Char)
  | _, [] => some []
  | previous, '_' :: next :: rest =>
    if previous.any Char.isDigit && next.isDigit then
      (dropUnderscores (some next) rest).map (next :: ·)
    else none
  | _, '_' :: [] => none
  | _, c :: rest => (dropUnderscores (some c) rest).map (c :: ·)

def sign : List Char → Bool × List Char
  | '-' :: rest => (true, rest)
  | '+' :: rest => (false, rest)
  | text => (false, text)

def digitsValue (ds : List Char) : Nat := PyInt.ofDigits (ds.map fun d => d.toNat - 48)

def scaleOf : List Char → Option Int
  | [] => some 0
  | c :: rest =>
    if c = 'e' ∨ c = 'E' then
      let (negative, ds) := sign rest
      if ds ≠ [] ∧ ds.all Char.isDigit then
        some (if negative then -(digitsValue ds : Int) else digitsValue ds)
      else none
    else none

def ofDecimal (negative : Bool) (text : List Char) : Option PyFloat := do
  let whole := text.takeWhile Char.isDigit
  let text := text.dropWhile Char.isDigit
  let (fraction, text) := match text with
    | '.' :: rest => (rest.takeWhile Char.isDigit, rest.dropWhile Char.isDigit)
    | text => ([], text)
  if whole = [] ∧ fraction = [] then none
  let scale ← scaleOf text
  let scale := scale - fraction.length
  return ofRatio negative (digitsValue (whole ++ fraction) * 10 ^ scale.toNat) (10 ^ (-scale).toNat)

/-- `float(s)` of a string; `none` is `ValueError`. -/
def ofString (s : String) : Option PyFloat := do
  let text := ((s.toList.map asciiOf).dropWhile isBlank).rdropWhile isBlank
  let (negative, text) := sign (← dropUnderscores none text)
  let name := String.ofList (text.map Char.toLower)
  if name = "inf" ∨ name = "infinity" then return .inf negative
  else if name = "nan" then return .nan
  else ofDecimal negative text

end PyFloat

end Debugpy
