import Mathlib.Tactic.TypeStar

/-!
# Histories

A history is the list of the events of a run. Something is open in it since
the last event that starts it, if no event after that one ends it; the first
event that does closes it. The two are given by how a history grows.
-/

namespace Debugpy.History

variable {ε : Type} {starts ends : ε → Prop}

/-- Started, and not ended since. -/
def Open (starts ends : ε → Prop) (h : List ε) : Prop :=
  ∃ pre e mid, h = pre ++ e :: mid ∧ starts e ∧ ∀ x ∈ mid, ¬ ends x

/-- The event is the first to end what was open before it. -/
def Closes (starts ends : ε → Prop) (h : List ε) (e : ε) : Prop :=
  ∃ pre post, h = pre ++ e :: post ∧ Open starts ends pre ∧ ends e

/-- Where the last event of a history is in a split of it. -/
theorem split_last {e x : ε} (h : hs ++ [e] = pre ++ x :: post) :
    pre = hs ∧ x = e ∧ post = [] ∨ ∃ post', post = post' ++ [e] ∧ hs = pre ++ x :: post' := by
  rcases List.eq_nil_or_concat post with rfl | ⟨post', y, rfl⟩
  · obtain ⟨rfl, hlast⟩ := List.append_inj' h rfl
    cases hlast
    exact .inl ⟨rfl, rfl, rfl⟩
  · rw [List.concat_eq_append, ← List.cons_append, ← List.append_assoc] at h
    obtain ⟨rfl, hlast⟩ := List.append_inj' h rfl
    cases hlast
    exact .inr ⟨post', List.concat_eq_append, rfl⟩

theorem not_open_nil : ¬ Open starts ends [] := by
  rintro ⟨pre, e, mid, h, -⟩
  simp at h

theorem open_append : Open starts ends (hs ++ [e]) ↔ starts e ∨ Open starts ends hs ∧ ¬ ends e := by
  constructor
  · rintro ⟨pre, x, mid, heq, hstarts, hmid⟩
    rcases split_last heq with ⟨-, rfl, -⟩ | ⟨mid, rfl, rfl⟩
    · exact .inl hstarts
    · exact .inr ⟨⟨pre, x, mid, rfl, hstarts, fun y hy => hmid y (List.mem_append_left _ hy)⟩,
        hmid e (by simp)⟩
  · rintro (hstarts | ⟨⟨pre, x, mid, rfl, hstarts, hmid⟩, hends⟩)
    · exact ⟨hs, e, [], rfl, hstarts, nofun⟩
    · refine ⟨pre, x, mid ++ [e], by simp, hstarts, fun y hy => ?_⟩
      rcases List.mem_append.mp hy with hy | hy
      · exact hmid y hy
      · rw [List.mem_singleton.mp hy]
        exact hends

theorem not_closes_nil : ¬ Closes starts ends [] e := by
  rintro ⟨pre, post, h, -⟩
  simp at h

theorem closes_append : Closes starts ends (hs ++ [e]) x ↔
    Closes starts ends hs x ∨ x = e ∧ Open starts ends hs ∧ ends x := by
  constructor
  · rintro ⟨pre, post, heq, hopen, hends⟩
    rcases split_last heq with ⟨rfl, rfl, -⟩ | ⟨post, rfl, rfl⟩
    · exact .inr ⟨rfl, hopen, hends⟩
    · exact .inl ⟨pre, post, rfl, hopen, hends⟩
  · rintro (⟨pre, post, rfl, hopen, hends⟩ | ⟨rfl, hopen, hends⟩)
    · exact ⟨pre, post ++ [e], by simp, hopen, hends⟩
    · exact ⟨hs, [], rfl, hopen, hends⟩

end Debugpy.History
