import Mathlib.Tactic.SplitIfs
import Mathlib.Tactic.Cases

/-!
# An incremental UTF-8 decoder

The decoder keeps the bytes of a sequence that may still become a character.
A byte that cannot go on with them escapes each of them to a lone surrogate
and is looked at again from the start; at the end of the input they are all
escaped. Text is a list of code points, lone surrogates included.

As a machine over single bytes the decoder does not depend on how its input is
cut (`decode_append`). What it says of a byte below 0x80 is that it stands for
itself wherever it comes (`feed_ascii`), and that no other byte yields a code
point that small (`le_of_mem_feed`).

The encoder takes every code point to the bytes it stands for, an escape to its
byte. What has been decoded encodes to what was consumed (`encode_decode`).
-/

namespace Debugpy.Utf8

abbrev Text := List Nat

/-- What the bytes of one sequence make so far. -/
inductive Sequence where
  | complete (codePoint : Nat)
  | incomplete
  | invalid
  deriving DecidableEq, Repr

def IsLead (a : Nat) : Prop := 0xC2 ≤ a ∧ a ≤ 0xF4
def IsContinuation (b : Nat) : Prop := 0x80 ≤ b ∧ b ≤ 0xBF

/-- The second byte: no overlong forms, no surrogates, nothing past the last
code point. -/
def IsSecond (a b : Nat) : Prop :=
  IsContinuation b ∧ (a = 0xE0 → 0xA0 ≤ b) ∧ (a = 0xED → b ≤ 0x9F) ∧ (a = 0xF0 → 0x90 ≤ b) ∧
    (a = 0xF4 → b ≤ 0x8F)

instance : DecidablePred IsLead := fun _ => inferInstanceAs (Decidable (_ ∧ _))
instance : DecidablePred IsContinuation := fun _ => inferInstanceAs (Decidable (_ ∧ _))
instance (a b : Nat) : Decidable (IsSecond a b) := inferInstanceAs (Decidable (_ ∧ _))

def classify : List Nat → Sequence
  | [a] => if a < 0x80 then .complete a else if IsLead a then .incomplete else .invalid
  | [a, b] =>
    if IsLead a ∧ IsSecond a b then
      if a < 0xE0 then .complete ((a - 0xC0) * 64 + (b - 0x80)) else .incomplete
    -- what begins like a surrogate is only refused with its third byte
    else if a = 0xED ∧ IsContinuation b then .incomplete
    else .invalid
  | [a, b, c] =>
    if IsLead a ∧ 0xE0 ≤ a ∧ IsSecond a b ∧ IsContinuation c then
      if a < 0xF0 then .complete ((a - 0xE0) * 4096 + (b - 0x80) * 64 + (c - 0x80))
      else .incomplete
    else .invalid
  | [a, b, c, d] =>
    if IsLead a ∧ 0xF0 ≤ a ∧ IsSecond a b ∧ IsContinuation c ∧ IsContinuation d then
      .complete ((a - 0xF0) * 262144 + (b - 0x80) * 4096 + (c - 0x80) * 64 + (d - 0x80))
    else .invalid
  | _ => .invalid

def flush (buffer : List UInt8) : Text := buffer.map fun b => 0xDC00 + b.toNat

/-- A byte with nothing held back. -/
def start (b : UInt8) : List UInt8 × Text :=
  match classify [b.toNat] with
  | .complete codePoint => ([], [codePoint])
  | .incomplete => ([b], [])
  | .invalid => ([], flush [b])

def feed (buffer : List UInt8) (b : UInt8) : List UInt8 × Text :=
  match classify ((buffer ++ [b]).map UInt8.toNat) with
  | .complete codePoint => ([], [codePoint])
  | .incomplete => (buffer ++ [b], [])
  | .invalid => ((start b).1, flush buffer ++ (start b).2)

def decode (buffer : List UInt8) : List UInt8 → List UInt8 × Text
  | [] => (buffer, [])
  | b :: bs =>
    let (buffer, text) := feed buffer b
    let (buffer, rest) := decode buffer bs
    (buffer, text ++ rest)

def decodeAll (bs : List UInt8) : Text := (decode [] bs).2 ++ flush (decode [] bs).1

/-- A surrogate that is no escape has no bytes. -/
def encodePoint (x : Nat) : Option (List UInt8) :=
  if x < 0x80 then some [.ofNat x]
  else if x < 0x800 then some [.ofNat (0xC0 + x / 64), .ofNat (0x80 + x % 64)]
  else if 0xD800 ≤ x ∧ x ≤ 0xDFFF then
    if 0xDC80 ≤ x ∧ x ≤ 0xDCFF then some [.ofNat (x - 0xDC00)] else none
  else if x < 0x10000 then
    some [.ofNat (0xE0 + x / 4096), .ofNat (0x80 + x / 64 % 64), .ofNat (0x80 + x % 64)]
  else if x ≤ 0x10FFFF then
    some [.ofNat (0xF0 + x / 262144), .ofNat (0x80 + x / 4096 % 64), .ofNat (0x80 + x / 64 % 64),
      .ofNat (0x80 + x % 64)]
  else none

def encode : Text → Option (List UInt8)
  | [] => some []
  | x :: text => do return (← encodePoint x) ++ (← encode text)

-- ---------------------------------------------------------------------------
-- Cutting the input
-- ---------------------------------------------------------------------------

@[simp] theorem decode_nil (buffer : List UInt8) : decode buffer [] = (buffer, []) := rfl

theorem decode_append (buffer bs bs' : List UInt8) :
    decode buffer (bs ++ bs') =
      ((decode (decode buffer bs).1 bs').1, (decode buffer bs).2 ++ (decode (decode buffer bs).1 bs').2) := by
  induction bs generalizing buffer with
  | nil => simp
  | cons b bs ih => simp [decode, ih]

-- ---------------------------------------------------------------------------
-- Bytes below 0x80
-- ---------------------------------------------------------------------------

theorem classify_ascii (h : a < 0x80) (hbs : bs ≠ []) : classify (bs ++ [a]) = .invalid := by
  have hc : ¬ IsContinuation a := by
    rintro ⟨hle, -⟩
    omega
  rcases bs with _ | ⟨b₀, _ | ⟨b₁, _ | ⟨b₂, _ | ⟨b₃, bs⟩⟩⟩⟩
  · exact absurd rfl hbs
  · simp [classify, IsSecond, hc]
  · simp [classify, hc]
  · simp [classify, hc]
  · cases bs <;> rfl

/-- A byte below 0x80 ends what is held back and stands for itself. -/
theorem feed_ascii (buffer : List UInt8) (h : b.toNat < 0x80) :
    feed buffer b = ([], flush buffer ++ [b.toNat]) := by
  have hstart : classify [b.toNat] = .complete b.toNat := by simp [classify, h]
  by_cases hb : buffer = []
  · simp [feed, hb, hstart, flush]
  · have hmap : buffer.map UInt8.toNat ≠ [] := by simpa using hb
    have hinvalid := classify_ascii h hmap
    simp [feed, start, hstart, hinvalid]

theorem le_of_classify (h : classify bs = .complete codePoint) (hbs : bs ≠ [codePoint]) :
    0x80 ≤ codePoint := by
  rcases bs with _ | ⟨a, _ | ⟨b, _ | ⟨c, _ | ⟨d, _ | ⟨e, bs⟩⟩⟩⟩⟩ <;>
    simp only [classify, reduceCtorEq] at h
  · split_ifs at h
    injection h with h
    exact absurd (h ▸ rfl) hbs
  all_goals
    split_ifs at h with hwell
    injection h with h
    simp only [IsLead, IsSecond, IsContinuation] at hwell
    omega

theorem le_of_mem_flush (h : x ∈ flush buffer) : 0xDC00 ≤ x := by
  simp only [flush, List.mem_map] at h
  obtain ⟨b, -, rfl⟩ := h
  omega

/-- Only a byte below 0x80 yields a code point below 0x80. -/
theorem le_of_mem_feed (h : 0x80 ≤ b.toNat) (hx : x ∈ (feed buffer b).2) : 0x80 ≤ x := by
  have hall : ∀ bs, classify (bs ++ [b.toNat]) = .complete x → 0x80 ≤ x := by
    intro bs hc
    by_cases hs : bs ++ [b.toNat] = [x]
    · have hlast := congrArg List.getLast? hs
      simp only [List.getLast?_append, List.getLast?_singleton, Option.some_or] at hlast
      cases hlast
      exact h
    · exact le_of_classify hc hs
  simp only [feed, List.map_append, List.map_cons, List.map_nil] at hx
  split at hx
  · rename_i codePoint hc
    simp only [List.mem_singleton] at hx
    exact hall _ (hx ▸ hc)
  · cases hx
  · rcases List.mem_append.mp hx with hx | hx
    · have := le_of_mem_flush hx
      omega
    · simp only [start] at hx
      split at hx
      · rename_i codePoint hc
        simp only [List.mem_singleton] at hx
        exact hall [] (hx ▸ hc)
      · cases hx
      · have := le_of_mem_flush hx
        omega

/-- A byte that yields nothing is held back. -/
theorem feed_ne_nil (h : (feed buffer b).2 = []) : (feed buffer b).1 ≠ [] := by
  simp only [feed] at h ⊢
  split at h
  · cases h
  · simp
  · simp only [List.append_eq_nil_iff, start] at h ⊢
    split at h
    · cases h.2
    · simp
    · cases h.2

/-- The text begins with a small code point where the input begins with that
byte and nothing was held back. -/
theorem head?_decode (h : x.toNat < 0x80) :
    (decode buffer bs).2.head? = some x.toNat ↔ buffer = [] ∧ bs.head? = some x := by
  induction bs generalizing buffer with
  | nil => simp
  | cons b bs ih =>
    simp only [decode, List.head?_append, List.head?_cons, Option.some.injEq]
    by_cases hb : b.toNat < 0x80
    · rw [feed_ascii buffer hb]
      cases buffer with
      | nil =>
        simp only [flush, List.map_nil, List.nil_append, List.head?_cons, Option.some_or,
          Option.some.injEq, true_and]
        exact UInt8.toNat_inj
      | cons a buffer =>
        simp only [flush, List.map_cons, List.cons_append, List.head?_cons, Option.some_or,
          Option.some.injEq, reduceCtorEq, false_and, iff_false]
        omega
    · have hne : b ≠ x := by
        rintro rfl
        exact hb h
      simp only [hne, and_false, iff_false]
      cases ht : (feed buffer b).2 with
      | nil =>
        -- The byte is held back, so that nothing small can come next.
        have hheld := feed_ne_nil ht
        simp only [List.head?_nil, Option.none_or, ih, hheld, false_and, not_false_eq_true]
      | cons y text =>
        have hy : 0x80 ≤ y := le_of_mem_feed (Nat.le_of_not_lt hb) (ht ▸ List.mem_cons_self)
        simp only [List.head?_cons, Option.some_or, Option.some.injEq]
        omega

/-- The text ends with a small code point, and nothing is held back, where the
input ends with that byte. -/
theorem getLast?_decode (h : x.toNat < 0x80) :
    ((decode [] bs).2.getLast? = some x.toNat ∧ (decode [] bs).1 = []) ↔
      bs.getLast? = some x := by
  rcases List.eq_nil_or_concat bs with rfl | ⟨bs, b, rfl⟩
  · simp
  · simp only [List.concat_eq_append, decode_append, decode, List.append_nil,
      List.getLast?_append, List.getLast?_singleton, Option.some_or, Option.some.injEq]
    generalize (decode [] bs).1 = buffer
    by_cases hb : b.toNat < 0x80
    · rw [feed_ascii buffer hb]
      simp only [List.getLast?_append, List.getLast?_singleton, Option.some_or,
        Option.some.injEq, and_true]
      exact UInt8.toNat_inj
    · have hne : b ≠ x := by
        rintro rfl
        exact hb h
      simp only [hne, iff_false, not_and]
      intro hlast hheld
      have ht : (feed buffer b).2 ≠ [] := fun ht => feed_ne_nil ht hheld
      rw [List.getLast?_eq_some_getLast ht, Option.some_or, Option.some.injEq] at hlast
      have := le_of_mem_feed (Nat.le_of_not_lt hb) (List.getLast_mem ht)
      omega

-- ---------------------------------------------------------------------------
-- Encoding what was decoded
-- ---------------------------------------------------------------------------

theorem encode_append (hu : encode u = some bs) (hv : encode v = some bs') :
    encode (u ++ v) = some (bs ++ bs') := by
  induction u generalizing bs with
  | nil =>
    cases hu
    exact hv
  | cons x u ih =>
    simp only [encode, Option.bind_eq_bind, Option.bind_eq_some_iff, Option.pure_def,
      Option.some.injEq] at hu
    obtain ⟨cs, hx, ds, hds, rfl⟩ := hu
    simp [encode, hx, ih hds]

theorem encode_singleton (h : encodePoint x = some bs) : encode [x] = some bs := by
  simp [encode, h]

theorem byte_eq {n : Nat} {b : UInt8} (h : n = b.toNat) : UInt8.ofNat n = b := by
  rw [h, UInt8.ofNat_toNat]

/-- The bytes of a sequence are the only ones that its code point has. -/
theorem encodePoint_of_classify {bs : List UInt8}
    (h : classify (bs.map UInt8.toNat) = .complete codePoint) :
    encodePoint codePoint = some bs := by
  rcases bs with _ | ⟨a, _ | ⟨b, _ | ⟨c, _ | ⟨d, _ | ⟨e, bs⟩⟩⟩⟩⟩ <;>
    simp only [classify, List.map_cons, List.map_nil, reduceCtorEq] at h
  all_goals
    split_ifs at h with hwell
    replace h := Sequence.complete.inj h
    subst h
    try simp only [IsLead, IsSecond, IsContinuation] at hwell
    unfold encodePoint
  · rw [if_pos hwell, byte_eq rfl]
  · rw [if_neg (by omega), if_pos (by omega), byte_eq (by omega : _ = a.toNat),
      byte_eq (by omega : _ = b.toNat)]
  · rw [if_neg (by omega), if_neg (by omega), if_neg (by omega), if_pos (by omega),
      byte_eq (by omega : _ = a.toNat), byte_eq (by omega : _ = b.toNat),
      byte_eq (by omega : _ = c.toNat)]
  · rw [if_neg (by omega), if_neg (by omega), if_neg (by omega), if_neg (by omega),
      if_pos (by omega), byte_eq (by omega : _ = a.toNat), byte_eq (by omega : _ = b.toNat),
      byte_eq (by omega : _ = c.toNat), byte_eq (by omega : _ = d.toNat)]

/-- Only bytes that are no characters of their own are held back or escaped. -/
def Held (buffer : List UInt8) : Prop := ∀ b ∈ buffer, 0x80 ≤ b.toNat

theorem held_nil : Held [] := fun _ h => absurd h List.not_mem_nil

theorem held_of_incomplete {bs : List UInt8} (h : classify (bs.map UInt8.toNat) = .incomplete) :
    Held bs := by
  rcases bs with _ | ⟨a, _ | ⟨b, _ | ⟨c, _ | ⟨d, _ | ⟨e, bs⟩⟩⟩⟩⟩ <;>
    simp only [classify, List.map_cons, List.map_nil, reduceCtorEq] at h <;> split_ifs at h
  all_goals
    simp only [IsLead, IsSecond, IsContinuation] at *
    simp only [Held, List.mem_cons, List.not_mem_nil, or_false, forall_eq_or_imp, forall_eq]
    omega

theorem le_of_invalid {b : UInt8} (h : classify [b.toNat] = .invalid) : 0x80 ≤ b.toNat := by
  simp only [classify] at h
  split_ifs at h
  omega

theorem encode_flush (h : Held buffer) : encode (flush buffer) = some buffer := by
  induction buffer with
  | nil => rfl
  | cons b buffer ih =>
    have hb := h b List.mem_cons_self
    have hlt := b.toNat_lt
    have hpoint : encodePoint (0xDC00 + b.toNat) = some [b] := by
      rw [encodePoint, if_neg (by omega), if_neg (by omega), if_pos (by omega), if_pos (by omega),
        byte_eq (by omega : _ = b.toNat)]
    exact encode_append (encode_singleton hpoint) (ih fun b hb => h b (List.mem_cons_of_mem _ hb))

/-- What a step consumes is what its text encodes to and what it holds back. -/
structure Consumes (result : List UInt8 × Text) (bs : List UInt8) : Prop where
  held : Held result.1
  encodes : ∃ out, encode result.2 = some out ∧ out ++ result.1 = bs

theorem consumes_start (b : UInt8) : Consumes (start b) [b] := by
  unfold start
  split
  · rename_i codePoint hc
    have hpoint : encodePoint codePoint = some [b] := encodePoint_of_classify hc
    exact ⟨held_nil, [b], encode_singleton hpoint, rfl⟩
  · rename_i hc
    have hheld : Held [b] := held_of_incomplete hc
    exact ⟨hheld, [], rfl, rfl⟩
  · rename_i hc
    have hb : Held [b] := by simpa [Held] using le_of_invalid hc
    exact ⟨held_nil, [b], encode_flush hb, rfl⟩

theorem consumes_feed (h : Held buffer) (b : UInt8) : Consumes (feed buffer b) (buffer ++ [b]) := by
  unfold feed
  split
  · rename_i codePoint hc
    exact ⟨held_nil, _, encode_singleton (encodePoint_of_classify hc), List.append_nil _⟩
  · rename_i hc
    exact ⟨held_of_incomplete hc, [], rfl, rfl⟩
  · obtain ⟨hheld, out, hout, heq⟩ := consumes_start b
    refine ⟨hheld, _, encode_append (encode_flush h) hout, ?_⟩
    rw [List.append_assoc, heq]

theorem encode_decode (h : Held buffer) (bs : List UInt8) :
    Consumes (decode buffer bs) (buffer ++ bs) := by
  induction bs generalizing buffer with
  | nil => exact ⟨h, [], rfl, (List.append_nil buffer).symm⟩
  | cons b bs ih =>
    obtain ⟨hheld, out, hout, heq⟩ := consumes_feed h b
    obtain ⟨hheld', rest, hrest, heq'⟩ := ih hheld
    refine ⟨hheld', _, encode_append hout hrest, ?_⟩
    calc (out ++ rest) ++ (decode (feed buffer b).1 bs).1
      _ = out ++ ((feed buffer b).1 ++ bs) := by rw [List.append_assoc, heq']
      _ = buffer ++ b :: bs := by rw [← List.append_assoc, heq, List.append_assoc]; rfl

end Debugpy.Utf8
