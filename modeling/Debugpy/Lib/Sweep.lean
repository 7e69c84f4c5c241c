import Mathlib.Data.Fintype.EquivFin
import Mathlib.Data.List.Nodup
import Mathlib.Data.List.Range

/-!
# Looking until there is nothing new

A sweep looks at a changing list again and again, and handles at each look
what it has not seen before and is not to skip. It is over at the first look
that shows nothing new. What it has handled by then depends on the looks only.
-/

namespace Debugpy.Sweep

variable {κ : Type} [DecidableEq κ] {skip : κ → Prop} [DecidablePred skip] {looks : Nat → List κ}

/-- What look `n` shows that is not skipped and that no look before has shown. -/
def fresh (skip : κ → Prop) [DecidablePred skip] (looks : Nat → List κ) (n : Nat) : List κ :=
  (looks n).filter fun k => ¬ (skip k ∨ ∃ m < n, k ∈ looks m)

/-- What is handled in the first `n` looks, in this order. -/
def handled (skip : κ → Prop) [DecidablePred skip] (looks : Nat → List κ) (n : Nat) : List κ :=
  (List.range n).flatMap (fresh skip looks)

theorem mem_fresh : k ∈ fresh skip looks n ↔
    k ∈ looks n ∧ ¬ skip k ∧ ∀ m < n, k ∉ looks m := by
  simp [fresh]

theorem handled_succ : handled skip looks (n + 1) =
    handled skip looks n ++ fresh skip looks n := by
  simp [handled, List.range_succ]

/-- Everything shown is handled, but for what is skipped. -/
theorem mem_handled : k ∈ handled skip looks n ↔ ¬ skip k ∧ ∃ m < n, k ∈ looks m := by
  induction n with
  | zero => simp [handled]
  | succ n ih =>
    rw [handled_succ, List.mem_append, ih, mem_fresh]
    constructor
    · rintro (⟨hskip, m, hm, hk⟩ | ⟨hk, hskip, -⟩)
      · exact ⟨hskip, m, Nat.lt_succ_of_lt hm, hk⟩
      · exact ⟨hskip, n, Nat.lt_succ_self n, hk⟩
    · rintro ⟨hskip, m, hm, hk⟩
      by_cases hseen : ∃ m < n, k ∈ looks m
      · exact .inl ⟨hskip, hseen⟩
      · rcases Nat.lt_succ_iff_lt_or_eq.mp hm with hm | rfl
        · exact absurd ⟨m, hm, hk⟩ hseen
        · exact .inr ⟨hk, hskip, fun m hm hk => hseen ⟨m, hm, hk⟩⟩

/-- Nothing is handled twice unless one look shows it twice. -/
theorem nodup_handled : (handled skip looks n).Nodup ↔ ∀ m < n, (fresh skip looks m).Nodup := by
  induction n with
  | zero => simp [handled]
  | succ n ih =>
    have hdisjoint : List.Disjoint (handled skip looks n) (fresh skip looks n) := by
      intro k hk hfresh
      obtain ⟨-, m, hm, hlook⟩ := mem_handled.mp hk
      exact (mem_fresh.mp hfresh).2.2 m hm hlook
    rw [handled_succ, List.nodup_append', ih]
    constructor
    · rintro ⟨hbefore, hlast, -⟩ m hm
      rcases Nat.lt_succ_iff_lt_or_eq.mp hm with hm | rfl
      · exact hbefore m hm
      · exact hlast
    · intro h
      exact ⟨fun m hm => h m (Nat.lt_succ_of_lt hm), h n (Nat.lt_succ_self n), hdisjoint⟩

/-- One look of a sweep that remembers what it skips and what it has handled. -/
theorem filter_eq_fresh {done : List κ} (h : ∀ k, k ∈ done ↔ skip k ∨ k ∈ handled skip looks n) :
    (looks n).filter (· ∉ done) = fresh skip looks n := by
  refine List.filter_congr fun k _ => ?_
  simp only [h, mem_handled]
  by_cases hskip : skip k <;> simp [hskip]

/-- Finitely many things cannot be new at every look. -/
theorem exists_fresh_nil (bound : List κ) (h : ∀ n, ∀ k ∈ looks n, k ∈ bound) :
    ∃ n, fresh skip looks n = [] := by
  by_contra hnone
  have hsome (n : Nat) : ∃ k, k ∈ fresh skip looks n :=
    List.exists_mem_of_ne_nil _ fun hnil => hnone ⟨n, hnil⟩
  choose first hfirst using hsome
  -- Two looks cannot show the same thing for the first time.
  have hinj : Function.Injective first := by
    intro m n heq
    rcases Nat.lt_trichotomy m n with hlt | heq' | hlt
    · exact absurd (heq ▸ (mem_fresh.mp (hfirst m)).1) ((mem_fresh.mp (hfirst n)).2.2 m hlt)
    · exact heq'
    · exact absurd (heq ▸ (mem_fresh.mp (hfirst n)).1) ((mem_fresh.mp (hfirst m)).2.2 n hlt)
  refine not_injective_infinite_finite (fun n => (⟨first n, ?_⟩ : { k // k ∈ bound })) ?_
  · exact h n _ (mem_fresh.mp (hfirst n)).1
  · intro m n heq
    exact hinj (congrArg Subtype.val heq)

/-- The look that ends the sweep. -/
theorem exists_last (bound : List κ) (h : ∀ n, ∀ k ∈ looks n, k ∈ bound) :
    ∃ n, fresh skip looks n = [] ∧ ∀ m < n, fresh skip looks m ≠ [] := by
  have hex : ∃ n, fresh skip looks n = [] := exists_fresh_nil bound h
  exact ⟨Nat.find hex, Nat.find_spec hex, fun m hm => Nat.find_min hex hm⟩

end Debugpy.Sweep
