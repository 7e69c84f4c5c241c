import Mathlib.Data.Sum.Basic
import Mathlib.Order.Monotone.Basic

/-!
# Computations that may not terminate

`Comp α` is a computation indexed by fuel: given enough fuel it produces its
value, and more fuel never changes that value. `loop` is an unbounded
`while`. `Returns` forgets the fuel, and its rules are the only interface
the users of this library need: what a bind or one turn of a loop returns,
an induction over the turns, a variant for termination, and an invariant
that shows a loop never ends.
-/

namespace Debugpy.Fuel

variable {α β σ ρ : Type}

/-- A fuel-indexed computation; `mono` says that a value, once produced,
stays. -/
structure Comp (α : Type) where
  run : Nat → Option α
  mono : ∀ {n a}, run n = some a → run (n + 1) = some a

theorem Comp.mono_le (c : Comp α) (h : c.run n = some a) (hle : n ≤ m) : c.run m = some a := by
  induction hle with
  | refl => exact h
  | step _ ih => exact c.mono ih

/-- The computation ends with this value, for some amount of fuel. -/
def Returns (c : Comp α) (a : α) : Prop := ∃ n, c.run n = some a

def Terminates (c : Comp α) : Prop := ∃ a, Returns c a

theorem Returns.unique {c : Comp α} (ha : Returns c a) (hb : Returns c b) : a = b := by
  obtain ⟨n, hn⟩ := ha
  obtain ⟨m, hm⟩ := hb
  have h := c.mono_le hn (Nat.le_max_left n m)
  rw [c.mono_le hm (Nat.le_max_right n m)] at h
  exact (Option.some.inj h).symm

-- ---------------------------------------------------------------------------
-- Sequencing
-- ---------------------------------------------------------------------------

def Comp.pure (a : α) : Comp α := ⟨fun _ => some a, fun h => h⟩

def Comp.bind (c : Comp α) (f : α → Comp β) : Comp β where
  run n := (c.run n).bind fun a => (f a).run n
  mono h := by
    obtain ⟨a, ha, hb⟩ := Option.bind_eq_some_iff.mp h
    exact Option.bind_eq_some_iff.mpr ⟨a, c.mono ha, (f a).mono hb⟩

instance : Monad Comp where
  pure := Comp.pure
  bind := Comp.bind

@[simp] theorem returns_pure {a b : α} : Returns (pure a : Comp α) b ↔ a = b := by
  constructor
  · rintro ⟨_, h⟩
    exact Option.some.inj h
  · rintro rfl
    exact ⟨0, rfl⟩

theorem returns_bind {c : Comp α} {f : α → Comp β} :
    Returns (c >>= f) b ↔ ∃ a, Returns c a ∧ Returns (f a) b := by
  constructor
  · rintro ⟨n, h⟩
    obtain ⟨a, ha, hb⟩ := Option.bind_eq_some_iff.mp h
    exact ⟨a, ⟨n, ha⟩, ⟨n, hb⟩⟩
  · rintro ⟨a, ⟨n, ha⟩, ⟨m, hb⟩⟩
    exact ⟨max n m, Option.bind_eq_some_iff.mpr
      ⟨a, c.mono_le ha (Nat.le_max_left n m), (f a).mono_le hb (Nat.le_max_right n m)⟩⟩

/-- A first part known to return leaves only the second one. -/
theorem Returns.bind_iff {c : Comp α} {f : α → Comp β} (h : Returns c a) :
    Returns (c >>= f) b ↔ Returns (f a) b := by
  rw [returns_bind]
  constructor
  · rintro ⟨a', ha', hb⟩
    rwa [ha'.unique h] at hb
  · exact fun hb => ⟨a, h, hb⟩

theorem terminates_pure (a : α) : Terminates (pure a : Comp α) :=
  ⟨a, returns_pure.mpr rfl⟩

/-- A first part known to return leaves the end to the second one. -/
theorem Returns.terminates_bind {c : Comp α} {f : α → Comp β} (h : Returns c a)
    (hf : Terminates (f a)) : Terminates (c >>= f) := by
  obtain ⟨b, hb⟩ := hf
  exact ⟨b, h.bind_iff.mpr hb⟩

/-- A first part that does not end hides the second one. -/
theorem not_terminates_bind {c : Comp α} {f : α → Comp β} (h : ¬ Terminates c) :
    ¬ Terminates (c >>= f) := by
  rintro ⟨_, hb⟩
  obtain ⟨a, ha, -⟩ := returns_bind.mp hb
  exact h ⟨a, ha⟩

-- ---------------------------------------------------------------------------
-- Loops
-- ---------------------------------------------------------------------------

/-- `while True`: each turn goes on with a new state or leaves with a
result. -/
def loopRun (turn : σ → Comp (σ ⊕ ρ)) : Nat → σ → Option ρ
  | 0, _ => none
  | n + 1, s => ((turn s).run (n + 1)).bind fun
    | .inl s' => loopRun turn n s'
    | .inr r => some r

theorem loopRun_mono (turn : σ → Comp (σ ⊕ ρ)) (h : loopRun turn n s = some r) :
    loopRun turn (n + 1) s = some r := by
  induction n generalizing s with
  | zero => cases h
  | succ n ih =>
    rw [loopRun] at h ⊢
    obtain ⟨x, hx, hr⟩ := Option.bind_eq_some_iff.mp h
    refine Option.bind_eq_some_iff.mpr ⟨x, (turn s).mono hx, ?_⟩
    cases x with
    | inl s' => exact ih hr
    | inr r' => exact hr

def loop (turn : σ → Comp (σ ⊕ ρ)) (s : σ) : Comp ρ :=
  ⟨fun n => loopRun turn n s, loopRun_mono turn⟩

variable {turn : σ → Comp (σ ⊕ ρ)}

theorem loop_exit (h : Returns (turn s) (.inr r)) : Returns (loop turn s) r := by
  obtain ⟨n, hn⟩ := h
  exact ⟨n + 1, Option.bind_eq_some_iff.mpr ⟨_, (turn s).mono hn, rfl⟩⟩

theorem loop_next (h : Returns (turn s) (.inl s')) (hr : Returns (loop turn s') r) :
    Returns (loop turn s) r := by
  obtain ⟨n, hn⟩ := h
  obtain ⟨m, hm⟩ := hr
  refine ⟨max n m + 1, Option.bind_eq_some_iff.mpr ⟨_, (turn s).mono_le hn (by omega), ?_⟩⟩
  exact (loop turn s').mono_le hm (Nat.le_max_right n m)

/-- An induction over the turns of a loop that ends. -/
theorem loop_induction {P : σ → ρ → Prop} (exit : ∀ {s r}, Returns (turn s) (.inr r) → P s r)
    (next : ∀ {s s' r}, Returns (turn s) (.inl s') → P s' r → P s r)
    (h : Returns (loop turn s) r) : P s r := by
  obtain ⟨n, hn⟩ := h
  replace hn : loopRun turn n s = some r := hn
  induction n generalizing s with
  | zero => cases hn
  | succ n ih =>
    rw [loopRun] at hn
    obtain ⟨x, hx, hr⟩ := Option.bind_eq_some_iff.mp hn
    cases x with
    | inl s' => exact next ⟨_, hx⟩ (ih hr)
    | inr r' => exact exit (Option.some.inj hr ▸ ⟨_, hx⟩)

/-- One turn of a loop, taken apart. -/
theorem returns_loop : Returns (loop turn s) r ↔
    Returns (turn s) (.inr r) ∨ ∃ s', Returns (turn s) (.inl s') ∧ Returns (loop turn s') r := by
  constructor
  · intro h
    refine (loop_induction (P := fun s r => Returns (loop turn s) r ∧ (Returns (turn s) (.inr r) ∨
      ∃ s', Returns (turn s) (.inl s') ∧ Returns (loop turn s') r)) ?_ ?_ h).2
    · exact fun h => ⟨loop_exit h, .inl h⟩
    · exact fun h hr => ⟨loop_next h hr.1, .inr ⟨_, h, hr.1⟩⟩
  · rintro (h | ⟨s', h, hr⟩)
    · exact loop_exit h
    · exact loop_next h hr

/-- A turn known to go on leaves the rest of the loop. -/
theorem loop_next_iff (h : Returns (turn s) (.inl s')) :
    Returns (loop turn s) r ↔ Returns (loop turn s') r := by
  rw [returns_loop]
  constructor
  · rintro (hr | ⟨s'', hs, hr⟩)
    · cases hr.unique h
    · cases hs.unique h
      exact hr
  · exact fun hr => .inr ⟨s', h, hr⟩

/-- A turn that does not end hides the rest of the loop. -/
theorem not_terminates_loop (h : ¬ Terminates (turn s)) : ¬ Terminates (loop turn s) := by
  rintro ⟨r, hr⟩
  rcases returns_loop.mp hr with hx | ⟨s', hx, -⟩
  · exact h ⟨_, hx⟩
  · exact h ⟨_, hx⟩

/-- A loop whose invariant always allows one more turn never ends. -/
theorem loop_not_terminates {P : σ → Prop}
    (next : ∀ s, P s → ∃ s', Returns (turn s) (.inl s') ∧ P s') (h : P s) :
    ¬ Terminates (loop turn s) := by
  rintro ⟨r, hr⟩
  refine loop_induction (P := fun s _ => ¬ P s) ?_ ?_ hr h
  · intro s r hx hs
    obtain ⟨s', hs', -⟩ := next s hs
    cases hx.unique hs'
  · intro s s' r hx ih hs
    obtain ⟨s'', hs'', hp⟩ := next s hs
    cases hx.unique hs''
    exact ih hp

end Debugpy.Fuel
