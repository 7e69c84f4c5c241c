import Mathlib.Data.List.Nodup

/-!
# Dictionaries

A dictionary keeps its keys in the order in which they were first stored, and
each of them once. A stored value replaces the one before it in its place.
-/

namespace Debugpy

structure Dict (κ ν : Type) where
  entries : List (κ × ν)
  nodup : (entries.map Prod.fst).Nodup

namespace Dict

variable {κ ν : Type} {d : Dict κ ν} {k k' : κ} {v : ν}

@[ext] theorem ext {d d' : Dict κ ν} (h : d.entries = d'.entries) : d = d' := by
  cases d
  cases d'
  cases h
  rfl

variable [DecidableEq κ]

def empty : Dict κ ν := ⟨[], List.nodup_nil⟩

def keys (d : Dict κ ν) : List κ := d.entries.map Prod.fst

def values (d : Dict κ ν) : List ν := d.entries.map Prod.snd

def get? (d : Dict κ ν) (k : κ) : Option ν := (d.entries.find? (·.1 = k)).map Prod.snd

def replace (k : κ) (v : ν) (e : κ × ν) : κ × ν := if e.1 = k then (k, v) else e

theorem replace_fst (e : κ × ν) : (replace k v e).1 = e.1 := by
  unfold replace
  split
  · next h => exact h.symm
  · rfl

theorem map_replace_keys (entries : List (κ × ν)) :
    (entries.map (replace k v)).map Prod.fst = entries.map Prod.fst := by
  rw [List.map_map]
  exact List.map_congr_left fun e _ => replace_fst e

/-- `d[k] = v`. -/
def set (d : Dict κ ν) (k : κ) (v : ν) : Dict κ ν :=
  if h : k ∈ d.keys then ⟨d.entries.map (replace k v), map_replace_keys d.entries ▸ d.nodup⟩
  else ⟨d.entries ++ [(k, v)], by
    rw [List.map_append, List.nodup_append']
    refine ⟨d.nodup, List.nodup_singleton k, fun x hx hk => h ?_⟩
    rwa [List.mem_singleton.mp hk] at hx⟩

/-- `del d[k]`, as far as the rest goes. -/
def erase (d : Dict κ ν) (k : κ) : Dict κ ν :=
  ⟨d.entries.filter (·.1 ≠ k), d.nodup.sublist (List.filter_sublist.map Prod.fst)⟩

/-- `del d[k]` for each key that does not pass. -/
def filter (d : Dict κ ν) (p : κ → Bool) : Dict κ ν :=
  ⟨d.entries.filter fun e => p e.1, d.nodup.sublist (List.filter_sublist.map Prod.fst)⟩

def update (d d' : Dict κ ν) : Dict κ ν := d'.entries.foldl (fun d e => d.set e.1 e.2) d

-- ---------------------------------------------------------------------------
-- Reading
-- ---------------------------------------------------------------------------

theorem get?_eq_some : d.get? k = some v ↔ (k, v) ∈ d.entries := by
  constructor
  · intro h
    obtain ⟨⟨k', v'⟩, hfind, rfl⟩ := Option.map_eq_some_iff.mp h
    have hk : k' = k := by simpa using List.find?_some hfind
    exact hk ▸ List.mem_of_find?_eq_some hfind
  · intro h
    obtain ⟨e, he⟩ : ∃ e, d.entries.find? (·.1 = k) = some e :=
      Option.isSome_iff_exists.mp (List.find?_isSome.mpr ⟨_, h, by simp⟩)
    -- Two entries with one key are the same entry.
    have hk : e.1 = k := by simpa using List.find?_some he
    have heq : e = (k, v) :=
      List.inj_on_of_nodup_map d.nodup (List.mem_of_find?_eq_some he) h hk
    simp [get?, he, heq]

theorem get?_eq_none : d.get? k = none ↔ k ∉ d.keys := by
  simp only [get?, Option.map_eq_none_iff, List.find?_eq_none, keys, List.mem_map]
  grind

theorem mem_keys : k ∈ d.keys ↔ ∃ v, d.get? k = some v := by
  rw [← not_iff_not, ← get?_eq_none, Option.eq_none_iff_forall_ne_some, not_exists]

theorem mem_values : v ∈ d.values ↔ ∃ k, d.get? k = some v := by
  simp [values, get?_eq_some]

@[simp] theorem get?_empty : (empty : Dict κ ν).get? k = none := rfl

-- ---------------------------------------------------------------------------
-- Writing
-- ---------------------------------------------------------------------------

theorem mem_entries_set {e : κ × ν} :
    e ∈ (d.set k v).entries ↔ e = (k, v) ∨ e ∈ d.entries ∧ e.1 ≠ k := by
  unfold set
  split
  · next h =>
    obtain ⟨e', he', hk⟩ := List.mem_map.mp h
    constructor
    · intro hmem
      obtain ⟨e₁, he₁, rfl⟩ := List.mem_map.mp hmem
      unfold replace
      split
      · exact .inl rfl
      · next hne => exact .inr ⟨he₁, hne⟩
    · rintro (rfl | ⟨hmem, hne⟩)
      · exact List.mem_map.mpr ⟨e', he', if_pos hk⟩
      · exact List.mem_map.mpr ⟨e, hmem, if_neg hne⟩
  · next h =>
    have hne (e : κ × ν) (he : e ∈ d.entries) : e.1 ≠ k := fun hk => h (List.mem_map.mpr ⟨e, he, hk⟩)
    simp only [List.mem_append, List.mem_singleton]
    constructor
    · rintro (hmem | rfl)
      · exact .inr ⟨hmem, hne e hmem⟩
      · exact .inl rfl
    · rintro (rfl | ⟨hmem, -⟩)
      · exact .inr rfl
      · exact .inl hmem

theorem get?_set (d : Dict κ ν) (k k' : κ) (v : ν) :
    (d.set k v).get? k' = if k' = k then some v else d.get? k' := by
  refine Option.ext fun v' => ?_
  rw [get?_eq_some, mem_entries_set]
  split
  · next h => simp [h, eq_comm]
  · next h => simp [h, get?_eq_some]

theorem get?_erase (d : Dict κ ν) (k k' : κ) :
    (d.erase k).get? k' = if k' = k then none else d.get? k' := by
  refine Option.ext fun v' => ?_
  rw [get?_eq_some, erase, List.mem_filter, ← get?_eq_some]
  split
  · next h => simp [h]
  · next h => simp [h]

theorem get?_filter (d : Dict κ ν) (p : κ → Bool) (k : κ) :
    (d.filter p).get? k = if p k then d.get? k else none := by
  refine Option.ext fun v => ?_
  rw [get?_eq_some, filter, List.mem_filter, ← get?_eq_some]
  split
  · next h => simp [h]
  · next h => simp [h]

/-- A new key comes last. -/
theorem entries_set_of_get?_none (h : d.get? k = none) : (d.set k v).entries = d.entries ++ [(k, v)] := by
  rw [set, dif_neg (get?_eq_none.mp h)]

/-- To store what is there already changes nothing. -/
theorem set_eq_self (h : d.get? k = some v) : d.set k v = d := by
  have hk : k ∈ d.keys := mem_keys.mpr ⟨v, h⟩
  rw [set, dif_pos hk]
  refine ext ((List.map_congr_left fun e he => ?_).trans (List.map_id _))
  unfold replace
  split
  · next hek =>
    subst hek
    have hv : d.get? e.1 = some e.2 := get?_eq_some.mpr he
    exact Prod.ext rfl (Option.some.inj (h.symm.trans hv))
  · rfl

/-- What is left of the old dictionary after a few assignments. -/
theorem get?_foldl_set (entries : List (κ × ν)) (h : k ∉ entries.map Prod.fst) :
    (entries.foldl (fun d e => d.set e.1 e.2) d).get? k = d.get? k := by
  induction entries generalizing d with
  | nil => rfl
  | cons e entries ih =>
    rw [List.map_cons, List.mem_cons, not_or] at h
    rw [List.foldl_cons, ih h.2, get?_set, if_neg h.1]

theorem get?_foldl_set_of_mem {entries : List (κ × ν)} (hnodup : (entries.map Prod.fst).Nodup)
    (h : (k, v) ∈ entries) :
    (entries.foldl (fun d e => d.set e.1 e.2) d).get? k = some v := by
  induction entries generalizing d with
  | nil => cases h
  | cons e entries ih =>
    obtain ⟨hhead, htail⟩ := List.nodup_cons.mp hnodup
    rcases List.mem_cons.mp h with rfl | h
    · rw [List.foldl_cons, get?_foldl_set _ hhead, get?_set, if_pos rfl]
    · exact ih htail h

/-- Assignments change nothing if they store what is there already. -/
theorem foldl_set_eq_self_iff {entries : List (κ × ν)}
    (hnodup : (entries.map Prod.fst).Nodup) :
    entries.foldl (fun d e => d.set e.1 e.2) d = d ↔ ∀ e ∈ entries, d.get? e.1 = some e.2 := by
  constructor
  · intro h e he
    have hset := get?_foldl_set_of_mem (d := d) hnodup he
    rwa [h] at hset
  · intro h
    clear hnodup
    induction entries with
    | nil => rfl
    | cons e entries ih =>
      obtain ⟨he, hrest⟩ := List.forall_mem_cons.mp h
      rw [List.foldl_cons, set_eq_self he]
      exact ih hrest

end Dict

end Debugpy
