import Debugpy.Common.Messages
import Mathlib.Data.List.Forall2

/-!
# The decoder of a channel

The decoder prettifies every dict that has a `"seq"`, so that what a message
is read as can differ from what was written in the order of its items.
`Same` is equality of JSON values: the order of items does not count.
-/

namespace Debugpy

def objectHook (d : Items) : Items := if (Json.get? d "seq").isSome then prettify d else d

mutual

/-- A value as the other end decodes it; the objects inside one come first. -/
def decoded : Json → Json
  | .list xs => .list (decodedList xs)
  | .dict d => .dict (objectHook (decodedItems d))
  | v => v

def decodedList : List Json → List Json
  | [] => []
  | x :: xs => decoded x :: decodedList xs

def decodedItems : List (String × Json) → List (String × Json)
  | [] => []
  | (key, x) :: items => (key, decoded x) :: decodedItems items

end

/-- The dict that a message is read as. -/
def decodedDict (d : Items) : Items := objectHook (decodedItems d)

@[simp] theorem get?_decodedDict (d : Items) (key : String) :
    Json.get? (decodedDict d) key = (Json.get? d key).map decoded := by
  have hitems : Json.get? (decodedItems d) key = (Json.get? d key).map decoded := by
    induction d with
    | nil => rfl
    | cons p d ih =>
      obtain ⟨k, x⟩ := p
      rw [decodedItems, Json.get?_cons, Json.get?_cons, ih]
      split <;> rfl
  unfold decodedDict objectHook
  split
  · rw [get?_prettify, hitems]
  · exact hitems

-- ---------------------------------------------------------------------------
-- Equality of values
-- ---------------------------------------------------------------------------

namespace Json

inductive Alike (R : Json → Json → Prop) : Json → Json → Prop
  | null : Alike R .null .null
  | bool (b : Bool) : Alike R (.bool b) (.bool b)
  | int (n : Int) : Alike R (.int n) (.int n)
  | float (x : PyFloat) : Alike R (.float x) (.float x)
  | str (s : String) : Alike R (.str s) (.str s)
  | list : List.Forall₂ R xs ys → Alike R (.list xs) (.list ys)
  | dict : (∀ key, Option.Rel R (Json.get? d key) (Json.get? d' key)) →
      Alike R (.dict d) (.dict d')

/-- The values are equal: they are related by a bisimulation. -/
def Same (v w : Json) : Prop := ∃ R : Json → Json → Prop, (∀ v w, R v w → Alike R v w) ∧ R v w

theorem Same.alike (h : Same v w) : ∃ R, Alike R v w := by
  obtain ⟨R, hR, hvw⟩ := h
  exact ⟨R, hR v w hvw⟩

theorem same_refl (v : Json) : Same v v := by
  refine ⟨Eq, fun v w h => ?_, rfl⟩
  subst h
  cases v with
  | null => exact .null
  | bool b => exact .bool b
  | int n => exact .int n
  | float x => exact .float x
  | str s => exact .str s
  | list xs => exact .list (List.forall₂_same.mpr fun x _ => rfl)
  | dict d =>
    refine .dict fun key => ?_
    cases Json.get? d key with
    | none => exact .none
    | some v => exact .some rfl

theorem forall₂_comp (h : List.Forall₂ R xs ys) (h' : List.Forall₂ R' ys zs) :
    List.Forall₂ (Relation.Comp R R') xs zs := by
  induction h generalizing zs with
  | nil =>
    cases h'
    exact .nil
  | cons hxy _ ih => cases h' with
    | cons hyz h' => exact .cons ⟨_, hxy, hyz⟩ (ih h')

theorem rel_comp (h : Option.Rel R x y) (h' : Option.Rel R' y z) :
    Option.Rel (Relation.Comp R R') x z := by
  cases h with
  | none =>
    cases h'
    exact .none
  | some hxy => cases h' with
    | some hyz => exact .some ⟨_, hxy, hyz⟩

theorem Alike.trans (h : Alike R u v) (h' : Alike R' v w) : Alike (Relation.Comp R R') u w := by
  cases h with
  | null | bool | int | float | str =>
    cases h'
    constructor
  | list h => cases h' with
    | list h' => exact .list (forall₂_comp h h')
  | dict h => cases h' with
    | dict h' => exact .dict fun key => rel_comp (h key) (h' key)

theorem Same.trans (h : Same u v) (h' : Same v w) : Same u w := by
  obtain ⟨R, hR, huv⟩ := h
  obtain ⟨R', hR', hvw⟩ := h'
  refine ⟨Relation.Comp R R', fun a c hac => ?_, v, huv, hvw⟩
  obtain ⟨b, hab, hbc⟩ := hac
  exact (hR a b hab).trans (hR' b c hbc)

theorem same_decoded (v : Json) : Same v (decoded v) := by
  refine ⟨fun v w => w = decoded v, fun v w h => ?_, rfl⟩
  subst h
  cases v with
  | null => exact .null
  | bool b => exact .bool b
  | int n => exact .int n
  | float x => exact .float x
  | str s => exact .str s
  | list xs =>
    refine .list ?_
    induction xs with
    | nil => exact .nil
    | cons x xs ih => exact .cons rfl ih
  | dict d =>
    refine .dict fun key => ?_
    have hget := get?_decodedDict d key
    unfold decodedDict at hget
    rw [hget]
    cases Json.get? d key with
    | none => exact .none
    | some v => exact .some rfl

end Json

end Debugpy
