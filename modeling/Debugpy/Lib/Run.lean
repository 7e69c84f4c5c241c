import Mathlib.Data.Option.Basic

/-!
# Runs of a labelled transition function

A system is a partial function from a state and a label to the next state;
`none` means that the label is not enabled. `exec` takes the labels of a run
one after the other, and `Meets` says that every step of the run meets a
condition on the state before it and its label. `exec_invariant` is the one
induction over runs: what each step keeps, under the condition, holds in
every state the run reaches.
-/

namespace Debugpy.Run

variable {σ ι : Type} {step : σ → ι → Option σ} {ok : σ → ι → Prop}

/-- The state after all labels, if each one is enabled in its turn. -/
def exec (step : σ → ι → Option σ) : σ → List ι → Option σ
  | s, [] => some s
  | s, i :: is => (step s i).bind fun s' => exec step s' is

/-- Every step of the run meets `ok` in the state it is taken from. -/
def Meets (step : σ → ι → Option σ) (ok : σ → ι → Prop) : σ → List ι → Prop
  | _, [] => True
  | s, i :: is => ok s i ∧ ∀ s', step s i = some s' → Meets step ok s' is

@[simp] theorem exec_nil : exec step s [] = some s := rfl

theorem exec_cons : exec step s (i :: is) = some t ↔
    ∃ s', step s i = some s' ∧ exec step s' is = some t := by
  simp [exec, Option.bind_eq_some_iff]

theorem exec_append : exec step s (is ++ js) = (exec step s is).bind fun t => exec step t js := by
  induction is generalizing s with
  | nil => rfl
  | cons i is ih =>
    cases h : step s i with
    | none => simp [exec, h]
    | some s' => simpa [exec, h] using ih

@[simp] theorem meets_true : Meets step (fun _ _ => True) s is := by
  induction is generalizing s with
  | nil => trivial
  | cons i is ih => exact ⟨trivial, fun _ _ => ih⟩

theorem Meets.mono (h : Meets step ok s is) (himp : ∀ s i, ok s i → ok' s i) :
    Meets step ok' s is := by
  induction is generalizing s with
  | nil => trivial
  | cons i is ih => exact ⟨himp _ _ h.1, fun s' hs => ih (h.2 s' hs)⟩

theorem Meets.append (h : Meets step ok s is)
    (hrest : ∀ t, exec step s is = some t → Meets step ok t js) : Meets step ok s (is ++ js) := by
  induction is generalizing s with
  | nil => exact hrest s rfl
  | cons i is ih =>
    exact ⟨h.1, fun s' hs => ih (h.2 s' hs) fun t ht => hrest t (exec_cons.mpr ⟨s', hs, ht⟩)⟩

theorem Meets.append_left (h : Meets step ok s (is ++ js)) : Meets step ok s is := by
  induction is generalizing s with
  | nil => trivial
  | cons i is ih => exact ⟨h.1, fun s' hs => ih (h.2 s' hs)⟩

theorem Meets.append_right (h : Meets step ok s (is ++ js)) (hrun : exec step s is = some t) :
    Meets step ok t js := by
  induction is generalizing s with
  | nil => exact Option.some.inj hrun ▸ h
  | cons i is ih =>
    obtain ⟨s', hs, ht⟩ := exec_cons.mp hrun
    exact ih (h.2 s' hs) ht

/-- The condition step by step, with the state that each one is taken from. -/
theorem meets_iff (hrun : exec step s is = some t) : Meets step ok s is ↔
    ∀ before i after s', is = before ++ i :: after → exec step s before = some s' → ok s' i := by
  constructor
  · rintro h before i after s' rfl hbefore
    exact (h.append_right hbefore).1
  · intro h
    induction is generalizing s with
    | nil => trivial
    | cons i is ih =>
      obtain ⟨s', hs, ht⟩ := exec_cons.mp hrun
      refine ⟨h [] i is s rfl rfl, fun s'' hs'' => ?_⟩
      obtain rfl := Option.some.inj (hs.symm.trans hs'')
      refine ih ht fun before j after u his hbefore => ?_
      exact h (i :: before) j after u (by rw [his]; rfl) (exec_cons.mpr ⟨s', hs, hbefore⟩)

/-- In a run to its end only what is enabled counts. -/
theorem Meets.of_enabled (h : Meets step ok s is) (hrun : exec step s is = some t)
    (himp : ∀ {s i s'}, step s i = some s' → ok s i → ok' s i) : Meets step ok' s is := by
  induction is generalizing s with
  | nil => trivial
  | cons i is ih =>
    obtain ⟨s', hs, ht⟩ := exec_cons.mp hrun
    refine ⟨himp hs h.1, fun s'' hs' => ?_⟩
    obtain rfl := Option.some.inj (hs.symm.trans hs')
    exact ih (h.2 s' hs) ht

theorem meets_of_forall (h : ∀ i ∈ is, ∀ s, ok s i) : Meets step ok s is := by
  induction is generalizing s with
  | nil => trivial
  | cons i is ih =>
    obtain ⟨hi, his⟩ := List.forall_mem_cons.mp h
    exact ⟨hi s, fun _ _ => ih his⟩

instance Meets.decidable [∀ s i, Decidable (ok s i)] : ∀ s is, Decidable (Meets step ok s is)
  | _, [] => isTrue trivial
  | s, i :: is => match h : step s i with
    | none => decidable_of_iff (ok s i) ⟨fun hok => ⟨hok, fun s' hs => by simp [h] at hs⟩, And.left⟩
    | some s' =>
      have := Meets.decidable s' is
      decidable_of_iff (ok s i ∧ Meets step ok s' is)
        ⟨fun hok => ⟨hok.1, fun t ht => by simp_all⟩, fun hok => ⟨hok.1, hok.2 s' h⟩⟩

/-- An invariant that every step meeting the condition keeps holds at the
end of every run whose steps all meet it. -/
theorem exec_invariant {I : σ → Prop}
    (keep : ∀ {s i s'}, I s → ok s i → step s i = some s' → I s')
    (hI : I s) (hok : Meets step ok s is) (h : exec step s is = some t) : I t := by
  induction is generalizing s with
  | nil => exact Option.some.inj h ▸ hI
  | cons i is ih =>
    obtain ⟨s', hs, ht⟩ := exec_cons.mp h
    exact ih (keep hI hok.1 hs) (hok.2 s' hs) ht

/-- The same for an invariant that every step keeps. -/
theorem exec_keeps (I : σ → Prop) (keep : ∀ {s i s'}, I s → step s i = some s' → I s')
    (hI : I s) (h : exec step s is = some t) : I t := by
  have hok : Meets step (fun _ _ => True) s is := meets_true
  exact exec_invariant (fun hI _ hs => keep hI hs) hI hok h

/-- What an invariant says of the steps is met by all of them. -/
theorem Meets.of_invariant {I : σ → Prop}
    (keep : ∀ {s i s'}, I s → ok s i → step s i = some s' → I s')
    (himp : ∀ {s i}, I s → ok s i → ok' s i) (hI : I s) (hok : Meets step ok s is) :
    Meets step ok' s is := by
  induction is generalizing s with
  | nil => trivial
  | cons i is ih => exact ⟨himp hI hok.1, fun s' hs => ih (keep hI hok.1 hs) (hok.2 s' hs)⟩

/-- What each step of a run does, seen through `view`, a second system does,
and so does it for the whole run. -/
theorem exec_map {τ : Type} {step' : τ → ι → Option τ} {view : σ → τ} {I : σ → Prop}
    (keep : ∀ {s i s'}, I s → ok s i → step s i = some s' → I s')
    (same : ∀ {s i}, I s → ok s i → (step s i).map view = step' (view s) i)
    (hI : I s) (hok : Meets step ok s is) : (exec step s is).map view = exec step' (view s) is := by
  induction is generalizing s with
  | nil => rfl
  | cons i is ih =>
    have hsame := same hI hok.1
    cases hs : step s i with
    | none =>
      rw [hs, Option.map_none] at hsame
      simp [exec, hs, ← hsame]
    | some s' =>
      rw [hs, Option.map_some] at hsame
      simpa [exec, hs, ← hsame] using ih (keep hI hok.1 hs) (hok.2 s' hs)

/-- What the steps of a run put out, one after the other. -/
def outputs {ω : Type} (step : σ → ι → Option σ) (out : σ → ι → List ω) : σ → List ι → List ω
  | _, [] => []
  | s, i :: is => out s i ++ (step s i).elim [] fun s' => outputs step out s' is

/-- An invariant of the state and all that has been put out. -/
theorem exec_outputs {ω : Type} {os : List ω} {out : σ → ι → List ω} {I : List ω → σ → Prop}
    (keep : ∀ {os s i s'}, I os s → ok s i → step s i = some s' → I (os ++ out s i) s')
    (hI : I os s) (hok : Meets step ok s is) (h : exec step s is = some t) :
    I (os ++ outputs step out s is) t := by
  induction is generalizing s os with
  | nil =>
    rw [outputs, List.append_nil]
    exact Option.some.inj h ▸ hI
  | cons i is ih =>
    obtain ⟨s', hs, ht⟩ := exec_cons.mp h
    have hrest := ih (keep hI hok.1 hs) (hok.2 s' hs) ht
    rwa [outputs, hs, Option.elim_some, ← List.append_assoc]

/-- How many steps of the run are of this kind. -/
def count (step : σ → ι → Option σ) (p : σ → ι → Prop) [∀ s i, Decidable (p s i)] : σ → List ι → Nat
  | _, [] => 0
  | s, i :: is => (if p s i then 1 else 0) + (step s i).elim 0 fun s' => count step p s' is

section
variable {p : σ → ι → Prop} [∀ s i, Decidable (p s i)] {I done : σ → Prop}

theorem count_eq_zero (hnot : ∀ s i, p s i → ¬ done s)
    (hstays : ∀ {s i s'}, done s → ok s i → step s i = some s' → done s') (h : done s)
    (hok : Meets step ok s is) : count step p s is = 0 := by
  induction is generalizing s with
  | nil => rfl
  | cons i is ih =>
    rw [count, if_neg fun hp => hnot s i hp h]
    cases hs : step s i with
    | none => rfl
    | some s' => simpa using ih (hstays h hok.1 hs) (hok.2 s' hs)

/-- A step of a kind that rules itself out happens at most once. -/
theorem count_le_one (keep : ∀ {s i s'}, I s → ok s i → step s i = some s' → I s')
    (hnot : ∀ s i, p s i → ¬ done s)
    (hstays : ∀ {s i s'}, done s → ok s i → step s i = some s' → done s')
    (hdone : ∀ {s i s'}, I s → ok s i → p s i → step s i = some s' → done s')
    (hI : I s) (hok : Meets step ok s is) : count step p s is ≤ 1 := by
  induction is generalizing s with
  | nil => exact Nat.zero_le 1
  | cons i is ih =>
    rw [count]
    cases hs : step s i with
    | none =>
      split
      · exact Nat.le_refl 1
      · exact Nat.zero_le 1
    | some s' =>
      split
      · next hp => simp [count_eq_zero hnot hstays (hdone hI hok.1 hp hs) (hok.2 s' hs)]
      · simpa using ih (keep hI hok.1 hs) (hok.2 s' hs)

end

end Debugpy.Run
