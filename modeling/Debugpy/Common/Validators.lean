import Debugpy.Common.Malformed

/-!
# What validators accept

`of_type` and `array` against their docstrings. `of_type` converts whatever a
numeric class takes, strings or not, and rejects what it converts to zero;
`array` compares a length with the maximum of a pair the wrong way round.
-/

namespace Debugpy.Json

-- ---------------------------------------------------------------------------
-- Types
-- ---------------------------------------------------------------------------

def isString : Property → Bool
  | some (str _) => true
  | _ => false

def Parses (classes : List Class) (value : Property) : Prop :=
  isString value ∧ ∃ c ∈ classes, c.isNumber ∧ ∃ v, c.convert value = .ok v

/-- What `of_type` returns or raises. -/
inductive TypeChecked (classes : List Class) (optional : Bool) (value : Property) :
    Except Exn Property → Prop
  | missing : optional = true → value = none → TypeChecked classes optional value (.ok value)
  | unchanged (c : Class) : c ∈ classes → isInstance value c →
      TypeChecked classes optional value (.ok value)
  | converted (c : Class) (v : Json) : (∀ c ∈ classes, ¬ isInstance value c) → isString value →
      c ∈ classes → c.isNumber → c.convert value = .ok v →
      TypeChecked classes optional value (.ok (some v))
  | rejected (e : Exn) : ¬ (optional = true ∧ value = none) →
      (∀ c ∈ classes, ¬ isInstance value c) → ¬ Parses classes value → e.isTypeOrValueError →
      TypeChecked classes optional value (.error e)

/-- `of_type` does what `TypeChecked` says, and what it returns is an instance. -/
structure TypeValidated (classes : List Class) (optional : Bool) (value : Property) : Prop where
  checked : TypeChecked classes optional value (ofType (classes.map .cls) optional value)
  instances : ∀ result, ofType (classes.map .cls) optional value = .ok result →
    optional = true ∧ value = none ∨ ∃ c ∈ classes, isInstance result c

/-- What becomes of the value with the first numeric class that does not raise
`ValueError`. -/
def firstNumber (value : Property) : List Class → Option (Except Exn Json)
  | [] => none
  | c :: classes =>
    if c.isNumber then
      match c.convert value with
      | .error (.valueError _) => firstNumber value classes
      | outcome => some outcome
    else firstNumber value classes

/-- A string becomes a number other than zero, anything else becomes zero or
nothing. -/
def Convertible (value : Property) : Option (Except Exn Json) → Prop
  | none => True
  | some (.ok v) => v.truthy = isString value
  | some (.error e) => e.isTypeOrValueError

theorem converter_eq (value : Property) (classes : List Class) :
    converter value (classes.map .cls) = match firstNumber value classes with
      | none => .ok none
      | some (.ok v) => .ok (some v)
      | some (.error e) => .error e := by
  induction classes with
  | nil => rfl
  | cons c classes ih =>
    simp only [List.map_cons, converter, firstNumber]
    split
    · cases c.convert value with
      | ok v => rfl
      | error e => cases e <;> first | exact ih | rfl
    · exact ih

theorem firstNumber_some (h : firstNumber value classes = some outcome) :
    ∃ c ∈ classes, c.isNumber ∧ c.convert value = outcome ∧ ∀ text, outcome ≠ .error (.valueError text) := by
  induction classes with
  | nil => cases h
  | cons c classes ih =>
    have hrest : firstNumber value classes = some outcome → ∃ c' ∈ c :: classes, c'.isNumber ∧
        c'.convert value = outcome ∧ ∀ text, outcome ≠ .error (.valueError text) := by
      intro h
      obtain ⟨c', hmem, hc'⟩ := ih h
      exact ⟨c', List.mem_cons_of_mem c hmem, hc'⟩
    simp only [firstNumber] at h
    split at h
    · rename_i hnum
      split at h
      · exact hrest h
      · rename_i hne
        cases h
        exact ⟨c, List.mem_cons_self, hnum, rfl, hne⟩
    · exact hrest h

theorem firstNumber_none (h : firstNumber value classes = none) :
    ∀ c ∈ classes, c.isNumber → ∀ v, c.convert value ≠ .ok v := by
  induction classes with
  | nil => simp
  | cons c classes ih =>
    simp only [firstNumber] at h
    intro c' hmem hnum v hv
    rcases List.mem_cons.mp hmem with rfl | hmem
    · simp [hnum, hv] at h
    · refine ih ?_ c' hmem hnum v hv
      split at h
      · split at h
        · exact h
        · cases h
      · exact h

/-- A string that cannot be parsed is a `ValueError`. -/
theorem convert_str_error {c : Class} (hnum : c.isNumber) (h : c.convert (some (str s)) = .error e) :
    ∃ text, e = .valueError text := by
  cases c with
  | bool => cases h
  | int =>
    have h := map_error h
    simp only [toInt] at h
    split at h <;> cases h
    exact ⟨_, rfl⟩
  | float =>
    have h := map_error h
    simp only [toFloat] at h
    split at h <;> cases h
    exact ⟨_, rfl⟩
  | _ => cases hnum

theorem isInstance_convert {c : Class} (hnum : c.isNumber) (h : c.convert value = .ok v) :
    isInstance (some v) c := by
  cases c with
  | bool =>
    cases h
    rfl
  | int =>
    obtain ⟨n, -, rfl⟩ := map_ok.mp h
    rfl
  | float =>
    obtain ⟨x, -, rfl⟩ := map_ok.mp h
    rfl
  | _ => cases hnum

section
variable {classes : List Class} {optional : Bool} {value : Property}

theorem ofType_accepted (h : optional = true ∧ value = none ∨ ∃ c ∈ classes, isInstance value c) :
    ofType (classes.map .cls) optional value = .ok value := by
  rw [ofType, if_pos]
  rcases h with ⟨rfl, rfl⟩ | ⟨c, hmem, hc⟩
  · rfl
  · simp only [Bool.or_eq_true, List.any_map, List.any_eq_true]
    exact .inr ⟨c, hmem, hc⟩

theorem ofType_other (hmissing : ¬ (optional = true ∧ value = none))
    (hclasses : ∀ c ∈ classes, ¬ isInstance value c) :
    ∃ e, e.isTypeOrValueError ∧ ofType (classes.map .cls) optional value =
      match firstNumber value classes with
      | some (.ok v) => if v.truthy then .ok (some v) else .error e
      | some (.error e) => .error e
      | none => .error e := by
  have hno : ¬ ((optional && value.isNone) ||
      (classes.map ClassInfo.cls).any (·.accepts value)) = true := by
    simp only [Bool.or_eq_true, Bool.and_eq_true, Option.isNone_iff_eq_none, List.any_map,
      List.any_eq_true, not_or]
    exact ⟨hmissing, fun ⟨c, hmem, hc⟩ => hclasses c hmem hc⟩
  rw [ofType, if_neg hno, converter_eq]
  refine ⟨if !optional && value.isNone then .valueError "must be specified" else
    .typeError ("must be " ++ " or ".intercalate ((classes.map .cls).map ClassInfo.name)),
    by split <;> rfl, ?_⟩
  cases firstNumber value classes with
  | none => by_cases h : (!optional && value.isNone) = true <;> simp only [h] <;> rfl
  | some outcome =>
    cases outcome with
    | error e => rfl
    | ok v =>
      by_cases ht : v.truthy = true
      · simp [ht]
      · by_cases h : (!optional && value.isNone) = true <;> simp only [h, ht] <;> simp [ht]

theorem checked_iff_of_other (hmissing : ¬ (optional = true ∧ value = none))
    (hclasses : ∀ c ∈ classes, ¬ isInstance value c) :
    TypeChecked classes optional value (ofType (classes.map .cls) optional value) ↔
      Convertible value (firstNumber value classes) := by
  obtain ⟨e, he, hof⟩ := ofType_other hmissing hclasses
  rw [hof]
  cases hfirst : firstNumber value classes with
  | none =>
    refine iff_of_true (.rejected e hmissing hclasses ?_ he) trivial
    rintro ⟨-, c, hmem, hnum, v, hv⟩
    exact firstNumber_none hfirst c hmem hnum v hv
  | some outcome =>
    obtain ⟨c, hmem, hnum, hconvert, hne⟩ := firstNumber_some hfirst
    cases outcome with
    | error e' =>
      refine ⟨fun h => ?_, fun h => .rejected e' hmissing hclasses ?_ h⟩
      · cases h with
        | rejected _ _ _ _ he' => exact he'
      · rintro ⟨hstr, -⟩
        match value, hstr with
        | some (str s), _ =>
          obtain ⟨text, rfl⟩ := convert_str_error hnum hconvert
          exact hne text rfl
    | ok v =>
      simp only [Convertible]
      by_cases ht : v.truthy = true
      · rw [if_pos ht, ht]
        constructor
        · intro h
          cases h with
          | missing hopt hnone => exact absurd ⟨hopt, hnone⟩ hmissing
          | unchanged c hmem hc => exact absurd hc (hclasses c hmem)
          | converted _ _ _ hstr => exact hstr.symm
        · exact fun h => .converted c v hclasses h.symm hmem hnum hconvert
      · rw [if_neg ht, Bool.eq_false_iff.mpr ht]
        constructor
        · intro h
          cases h with
          | rejected _ _ _ hparse _ =>
            refine (Bool.eq_false_iff.mpr fun hstr => hparse ?_).symm
            exact ⟨hstr, c, hmem, hnum, v, hconvert⟩
        · refine fun h => .rejected e hmissing hclasses ?_ he
          rintro ⟨hstr, -⟩
          cases h.trans hstr

theorem ofType_instance (h : ofType (classes.map .cls) optional value = .ok result) :
    optional = true ∧ value = none ∨ ∃ c ∈ classes, isInstance result c := by
  by_cases hin : optional = true ∧ value = none ∨ ∃ c ∈ classes, isInstance value c
  · cases (ofType_accepted hin).symm.trans h
    exact hin
  · simp only [not_or, not_exists, not_and] at hin
    obtain ⟨e, -, hof⟩ := ofType_other (fun hm => hin.1 hm.1 hm.2) hin.2
    rw [hof] at h
    split at h
    · rename_i v hfirst
      obtain ⟨c, hmem, hnum, hconvert, -⟩ := firstNumber_some hfirst
      split at h <;> cases h
      exact .inr ⟨c, hmem, isInstance_convert hnum hconvert⟩
    · cases h
    · cases h

/-- `of_type` validates a value as documented if and only if the value is
missing and may be, or an instance, or one that it converts correctly. -/
theorem typeValidated_iff (classes : List Class) (optional : Bool) (value : Property) :
    TypeValidated classes optional value ↔ optional = true ∧ value = none ∨
      (∃ c ∈ classes, isInstance value c) ∨ Convertible value (firstNumber value classes) := by
  by_cases hin : optional = true ∧ value = none ∨ ∃ c ∈ classes, isInstance value c
  · refine iff_of_true ⟨?_, fun result => ofType_instance⟩ (or_assoc.mp (.inl hin))
    rw [ofType_accepted hin]
    rcases hin with ⟨rfl, rfl⟩ | ⟨c, hmem, hc⟩
    · exact .missing rfl rfl
    · exact .unchanged c hmem hc
  · rw [← or_assoc, or_iff_right hin]
    simp only [not_or, not_exists, not_and] at hin
    rw [← checked_iff_of_other (fun hm => hin.1 hm.1 hm.2) hin.2]
    exact ⟨TypeValidated.checked, fun h => ⟨h, fun result => ofType_instance⟩⟩

/-- The number zero is not one that a string is converted to. -/
theorem not_typeValidated_zero : ¬ TypeValidated [.int] false (some (str "0")) := by
  have hzero : PyInt.ofString "0" = some 0 := by decide +kernel
  have hfirst : firstNumber (some (str "0")) [.int] = some (.ok (int 0)) := by
    simp [firstNumber, Class.isNumber, Class.convert, toInt, hzero]
  intro h
  have hconv := (checked_iff_of_other (by simp) (by simp [isInstance])).mp h.checked
  rw [hfirst] at hconv
  simp [Convertible, isString, truthy] at hconv

end

-- ---------------------------------------------------------------------------
-- Arrays
-- ---------------------------------------------------------------------------

/-- The lengths that a size is documented to allow. -/
def Size.Allows (n : Nat) : Size → Prop
  | .any => True
  | .exactly k => (n : Int) = k
  | .atLeast min => min ≤ n
  | .between min max => min ≤ n ∧ (n : Int) ≤ max
  | .oneOf sizes => (n : Int) ∈ sizes

/-- The lengths that the test of a pair gets wrong: all above its minimum but
the maximum. -/
def Size.Misjudges (n : Nat) : Size → Prop
  | .between min max => min ≤ n ∧ (n : Int) ≠ max
  | .any | .exactly _ | .atLeast _ | .oneOf _ => False

section
variable {β : Type} {validate : Json → Except Exn β} {xs : List Json}

def ArrayOf (validate : Json → Except Exn β) (vectorize : Bool) (size : Size) (value : Property)
    (ys : List β) : Prop :=
  ∃ xs, arrayValue vectorize value = list xs ∧ size.Allows xs.length ∧
    List.Forall₂ (fun x y => validate x = .ok y) xs ys

/-- What `array` returns or raises. -/
inductive ArrayChecked (validate : Json → Except Exn β) (vectorize : Bool) (size : Size)
    (value : Property) : Except Exn (List β) → Prop
  | accepted (ys : List β) : ArrayOf validate vectorize size value ys →
      ArrayChecked validate vectorize size value (.ok ys)
  | rejected (e : Exn) : (∀ ys, ¬ ArrayOf validate vectorize size value ys) →
      e.isTypeOrValueError → ArrayChecked validate vectorize size value (.error e)

def firstError (validate : Json → Except Exn β) : List Json → Option Exn
  | [] => none
  | x :: xs => match validate x with
    | .ok _ => firstError validate xs
    | .error e => some e

/-- The condition on a list: a length that is misjudged makes no difference,
since an item is rejected anyway, and the first item that is rejected, if it
comes to that, is rejected with a proper exception. -/
def Judged (validate : Json → Except Exn β) (size : Size) (xs : List Json) : Prop :=
  (size.Misjudges xs.length → firstError validate xs ≠ none) ∧
    (size.error xs.length = none → ∀ e ∈ firstError validate xs, e.isTypeOrValueError)

@[simp] theorem atIndex_isTypeOrValueError (label : String) (e : Exn) :
    (atIndex label e).isTypeOrValueError = e.isTypeOrValueError := by
  cases e <;> rfl

theorem size_error_none (size : Size) (n : Nat) :
    size.error n = none ↔ (size.Allows n ↔ ¬ size.Misjudges n) := by
  cases size with
  | any => simp [Size.error, Size.Allows, Size.Misjudges]
  | exactly k => simp [Size.error, Size.Allows, Size.Misjudges]
  | atLeast min => simp [Size.error, Size.Allows, Size.Misjudges]
  | oneOf sizes => simp [Size.error, Size.Allows, Size.Misjudges]
  | between min max =>
    simp only [Size.error, Size.Allows, Size.Misjudges]
    split
    · simp
      omega
    · split
      · simp
        omega
      · simp
        omega

theorem validateItems_eq (validate : Json → Except Exn β) (i : Nat) (xs : List Json) :
    (∃ ys, validateItems validate i xs = .ok ys ∧ firstError validate xs = none ∧
        List.Forall₂ (fun x y => validate x = .ok y) xs ys) ∨
      ∃ e e', validateItems validate i xs = .error e' ∧ firstError validate xs = some e ∧
        e'.isTypeOrValueError = e.isTypeOrValueError := by
  induction xs generalizing i with
  | nil => exact .inl ⟨[], rfl, rfl, .nil⟩
  | cons x xs ih =>
    cases hx : validate x with
    | error e =>
      refine .inr ⟨e, atIndex (toString i) e, ?_, ?_, atIndex_isTypeOrValueError _ e⟩
      · simp [validateItems, hx]
      · simp [firstError, hx]
    | ok y =>
      rcases ih (i + 1) with ⟨ys, hys, hfirst, hall⟩ | ⟨e, e', he, hfirst, htype⟩
      · refine .inl ⟨y :: ys, ?_, ?_, .cons hx hall⟩
        · simp [validateItems, hx, hys]
        · simp [firstError, hx, hfirst]
      · refine .inr ⟨e, e', ?_, ?_, htype⟩
        · simp [validateItems, hx, he]
        · simp [firstError, hx, hfirst]

theorem firstError_none (h : List.Forall₂ (fun x y => validate x = .ok y) xs ys) :
    firstError validate xs = none := by
  induction h with
  | nil => rfl
  | cons hx _ ih => simpa [firstError, hx] using ih

theorem arrayOf_list (hvalue : arrayValue vectorize value = list xs) :
    ArrayOf validate vectorize size value ys ↔
      size.Allows xs.length ∧ List.Forall₂ (fun x y => validate x = .ok y) xs ys := by
  constructor
  · rintro ⟨xs', hvalue', hall⟩
    cases hvalue.symm.trans hvalue'
    exact hall
  · exact fun hall => ⟨xs, hvalue, hall⟩

theorem arrayChecked_list (hvalue : arrayValue vectorize value = list xs) :
    ArrayChecked validate vectorize size value (arrayOf validate vectorize size value) ↔
      Judged validate size xs := by
  have hsize := size_error_none size xs.length
  have hitems := validateItems_eq validate 0 xs
  have hnone : (∃ ys, List.Forall₂ (fun x y => validate x = .ok y) xs ys) ↔
      firstError validate xs = none := by
    refine ⟨fun ⟨ys, hall⟩ => firstError_none hall, fun hfirst => ?_⟩
    rcases hitems with ⟨ys, -, -, hall⟩ | ⟨e, e', -, hfirst', -⟩
    · exact ⟨ys, hall⟩
    · cases hfirst.symm.trans hfirst'
  simp only [arrayOf, hvalue]
  cases herr : size.error xs.length with
  | some text =>
    have hallows : size.Allows xs.length ↔ size.Misjudges xs.length := by
      simp only [herr, reduceCtorEq, false_iff] at hsize
      tauto
    constructor
    · intro h
      cases h with
      | rejected _ hno _ =>
        refine ⟨fun hmis hfirst => ?_, by simp [herr]⟩
        obtain ⟨ys, hall⟩ := hnone.mpr hfirst
        exact hno ys ((arrayOf_list hvalue).mpr ⟨hallows.mpr hmis, hall⟩)
    · intro h
      refine .rejected _ (fun ys hys => ?_) rfl
      obtain ⟨hallow, hall⟩ := (arrayOf_list hvalue).mp hys
      exact h.1 (hallows.mp hallow) (firstError_none hall)
  | none =>
    have hallows := hsize.mp herr
    simp only [Judged, herr, forall_const]
    rcases hitems with ⟨ys, hys, hfirst, hall⟩ | ⟨e, e', he, hfirst, htype⟩
    · rw [hys, hfirst]
      constructor
      · intro h
        cases h with
        | accepted _ hys =>
          have hallow := ((arrayOf_list hvalue).mp hys).1
          exact ⟨fun hmis => absurd hmis (hallows.mp hallow), by simp⟩
      · intro h
        refine .accepted ys ((arrayOf_list hvalue).mpr ⟨hallows.mpr fun hmis => ?_, hall⟩)
        exact h.1 hmis rfl
    · rw [he, hfirst]
      constructor
      · intro h
        cases h with
        | rejected _ _ he' => simpa [htype] using he'
      · intro h
        refine .rejected e' (fun ys hys => ?_) (htype.trans (h.2 e rfl))
        cases hfirst.symm.trans (firstError_none ((arrayOf_list hvalue).mp hys).2)

/-- `array` validates a value as documented if and only if the value is no
list, or a list that meets the condition. -/
theorem arrayChecked_iff (item : Validate) (vectorize : Bool) (size : Size) (value : Property) :
    ArrayChecked (fun x => item.item (some x)) vectorize size value
        (arrayOf (fun x => item.item (some x)) vectorize size value) ↔
      ∀ xs, arrayValue vectorize value = list xs → Judged (fun x => item.item (some x)) size xs := by
  by_cases hlist : ∃ xs, arrayValue vectorize value = list xs
  · obtain ⟨xs, hvalue⟩ := hlist
    rw [arrayChecked_list hvalue]
    refine ⟨fun h xs' hvalue' => ?_, fun h => h xs hvalue⟩
    cases hvalue.symm.trans hvalue'
    exact h
  · have hno : ∀ xs, arrayValue vectorize value ≠ list xs := fun xs h => hlist ⟨xs, h⟩
    refine iff_of_true ?_ fun xs h => absurd h (hno xs)
    have herr : arrayOf (fun x => item.item (some x)) vectorize size value =
        .error (.typeError "must be list") := by
      unfold arrayOf
      split
      · exact absurd ‹_› (hno _)
      · rfl
    rw [herr]
    exact .rejected _ (fun ys ⟨xs, hvalue, _⟩ => hno xs hvalue) rfl

/-- One element, where the maximum is two. -/
theorem not_arrayChecked_pair :
    ¬ ArrayChecked (fun x => (Validate.types (.cls .str)).item (some x)) false (.between 1 2)
        (some (list [str "a"]))
        (arrayOf (fun x => (Validate.types (.cls .str)).item (some x)) false (.between 1 2)
          (some (list [str "a"]))) := by
  intro h
  have hvalue : arrayValue false (some (list [str "a"])) = list [str "a"] := rfl
  have hfirst := ((arrayChecked_list hvalue).mp h).1 (by simp [Size.Misjudges])
  simp [firstError, Validate.item, ofType, ClassInfo.accepts, isInstance] at hfirst

end

end Debugpy.Json
