import Debugpy.Common.Exn
import Debugpy.Common.PyFloat

/-!
# JSON values and property validators

`common/json.py`: a validator is applied to the value of a property, or to
`()` if the property is missing, and returns the value, possibly substituted,
or raises. `Property` is that argument, with `none` for `()`.
-/

namespace Debugpy

inductive Json where
  | null
  | bool (b : Bool)
  | int (n : Int)
  | float (x : PyFloat)
  | str (s : String)
  | list (xs : List Json)
  | dict (items : List (String × Json))

abbrev Property := Option Json

abbrev Validator := Property → Except Exn Property

namespace Json

def get? (items : List (String × Json)) (key : String) : Property :=
  (items.find? fun p => p.1 == key).map Prod.snd

/-- `dict[key] = value`; an existing key keeps its place. -/
def set (items : List (String × Json)) (key : String) (value : Json) : List (String × Json) :=
  if items.any fun p => p.1 == key then
    items.map fun p => if p.1 == key then (key, value) else p
  else items ++ [(key, value)]

/-- `dict.pop(key, None)` and `del`, as far as the rest of the dict goes. -/
def erase (items : List (String × Json)) (key : String) : List (String × Json) :=
  items.filter fun p => p.1 != key

theorem get?_cons (p : String × Json) (d : List (String × Json)) (k : String) :
    get? (p :: d) k = if p.1 = k then some p.2 else get? d k := by
  by_cases h : p.1 = k <;> simp [get?, h]

theorem get?_set_self (d : List (String × Json)) : get? (set d k v) k = some v := by
  induction d with
  | nil => simp [set, get?]
  | cons p d ih =>
    by_cases h : p.1 = k
    · simp [set, get?, h]
    · simp only [set, List.any_cons, beq_iff_eq, h, List.map_cons, ↓reduceIte] at ih ⊢
      split at ih <;> simp_all [get?_cons]

theorem get?_set_ne (d : List (String × Json)) (h : k' ≠ k) : get? (set d k v) k' = get? d k' := by
  have hmap : ∀ d, get? (d.map fun p => if p.1 == k then (k, v) else p) k' = get? d k' := by
    intro d
    induction d with
    | nil => rfl
    | cons p d ih =>
      rw [List.map_cons, get?_cons, get?_cons, ih]
      by_cases hp : p.1 = k <;> simp [hp, h.symm]
  have happend : ∀ d, get? (d ++ [(k, v)]) k' = get? d k' := by
    intro d
    induction d with
    | nil => simp [get?, h.symm]
    | cons p d ih => rw [List.cons_append, get?_cons, get?_cons, ih]
  unfold set
  split
  · exact hmap d
  · exact happend d

theorem get?_erase_self (d : List (String × Json)) (k : String) : get? (erase d k) k = none := by
  induction d with
  | nil => rfl
  | cons p d ih =>
    unfold erase at ih ⊢
    by_cases hp : p.1 = k
    · simp [hp, ih]
    · simp [hp, get?_cons, ih]

theorem get?_erase_ne (d : List (String × Json)) (h : k' ≠ k) : get? (erase d k) k' = get? d k' := by
  induction d with
  | nil => rfl
  | cons p d ih =>
    unfold erase at ih ⊢
    by_cases hp : p.1 = k
    · simp [hp, get?_cons, h.symm, ih]
    · simp [hp, get?_cons, ih]

/-- `bool(value)`. -/
def truthy : Json → Bool
  | null => false
  | bool b => b
  | int n => n != 0
  | float (.finite q) => q != 0
  | float _ => true
  | str s => s != ""
  | list xs => !xs.isEmpty
  | dict items => !items.isEmpty

/-- `isinstance(value, Exception)` aside, the test `body is not None and
body != {}` of the senders. -/
def isNoneOrEmpty : Json → Bool
  | null | dict [] => true
  | _ => false

/-- `type(value).__name__`; objects of a message are `MessageDict`. -/
def typeName : Json → String
  | null => "NoneType"
  | bool _ => "bool"
  | int _ => "int"
  | float _ => "float"
  | str _ => "str"
  | list _ => "list"
  | dict _ => "MessageDict"

def literalName : Json → String
  | dict _ => "dict"
  | v => v.typeName

/-- `isinstance(value, type(default))`; `bool` is a subclass of `int`. -/
def sameType : Json → Json → Bool
  | null, null | bool _, bool _ | int _, int _ | bool _, int _ | float _, float _
  | str _, str _ | list _, list _ | dict _, dict _ => true
  | _, _ => false

def hexDigit (n : Nat) : Char := Nat.digitChar (n % 16)

def escapeUnit (n : Nat) : List Char :=
  ['\\', 'u', hexDigit (n / 4096), hexDigit (n / 256), hexDigit (n / 16), hexDigit n]

def escapeChar (c : Char) : List Char :=
  let n := c.toNat
  if c = '"' then ['\\', '"']
  else if c = '\\' then ['\\', '\\']
  else if c = '\n' then ['\\', 'n']
  else if c = '\r' then ['\\', 'r']
  else if c = '\t' then ['\\', 't']
  else if n = 8 then ['\\', 'b']
  else if n = 12 then ['\\', 'f']
  else if 32 ≤ n ∧ n ≤ 126 then [c]
  else if n < 65536 then escapeUnit n
  else escapeUnit (55296 + (n - 65536) / 1024) ++ escapeUnit (56320 + (n - 65536) % 1024)

def repr (s : String) : String :=
  String.ofList ('"' :: (s.toList.flatMap escapeChar ++ ['"']))

-- ---------------------------------------------------------------------------
-- Classes and conversion
-- ---------------------------------------------------------------------------

inductive Class where
  | int
  | float
  | bool
  | str
  | list
  | dict
  | noneType
  deriving DecidableEq, Repr

def Class.isNumber : Class → Bool
  | .int | .float | .bool => true
  | .str | .list | .dict | .noneType => false

def Class.name : Class → String
  | .int => "int"
  | .float => "float"
  | .bool => "bool"
  | .str => "str"
  | .list => "list"
  | .dict => "dict"
  | .noneType => "NoneType"

def isInstance : Property → Class → Bool
  | some (bool _), .bool | some (bool _), .int | some (int _), .int | some (float _), .float
  | some (str _), .str | some (list _), .list | some (dict _), .dict | some null, .noneType => true
  | _, _ => false

inductive ClassInfo where
  | cls (c : Class)
  | tuple (cs : List Class)
  deriving DecidableEq, Repr

def ClassInfo.accepts (value : Property) : ClassInfo → Bool
  | .cls c => isInstance value c
  | .tuple cs => cs.any (isInstance value)

def notANumber (name : String) : Exn :=
  .typeError ("int() argument must be a string, a bytes-like object or a real number, not '" ++
    name ++ "'")

/-- `int(value)`. The text of its `ValueError` is never read. -/
def toInt : Property → Except Exn Int
  | none => .error (notANumber "tuple")
  | some (bool b) => .ok (if b then 1 else 0)
  | some (int n) => .ok n
  | some (float (.finite q)) => .ok (q.num.tdiv q.den)
  | some (float (.inf _)) => .error (.overflowError "cannot convert float infinity to integer")
  | some (float .nan) => .error (.valueError "cannot convert float NaN to integer")
  | some (str s) => match PyInt.ofString s with
    | some n => .ok n
    | none => .error (.valueError "invalid literal for int() with base 10")
  | some v => .error (notANumber v.typeName)

def notAFloat (name : String) : Exn :=
  .typeError ("float() argument must be a string or a real number, not '" ++ name ++ "'")

/-- `float(value)`. The text of its `ValueError` is never read. -/
def toFloat : Property → Except Exn PyFloat
  | none => .error (notAFloat "tuple")
  | some (bool b) => .ok (.finite (if b then 1 else 0))
  | some (int n) => match PyFloat.ofInt n with
    | some x => .ok x
    | none => .error (.overflowError "int too large to convert to float")
  | some (float x) => .ok x
  | some (str s) => match PyFloat.ofString s with
    | some x => .ok x
    | none => .error (.valueError "could not convert string to float")
  | some v => .error (notAFloat v.typeName)

/-- `bool(value)` of an argument; `bool(())` is false. -/
def toBool (value : Property) : Bool := value.elim false truthy

/-- `one_info(value)` for a numeric class. -/
def Class.convert (c : Class) (value : Property) : Except Exn Json :=
  match c with
  | .bool => .ok (Json.bool (toBool value))
  | .float => Json.float <$> toFloat value
  | _ => Json.int <$> toInt value

/-- `_converter`: the value as the first numeric class that can parse it.
Only `ValueError` moves on to the next class. -/
def converter (value : Property) : List ClassInfo → Except Exn (Option Json)
  | [] => .ok none
  | .tuple _ :: _ => .error (.typeError "issubclass() arg 1 must be a class")
  | .cls c :: rest =>
    if c.isNumber then
      match c.convert value with
      | .ok v => .ok (some v)
      | .error (.valueError _) => converter value rest
      | .error e => .error e
    else converter value rest

def ClassInfo.name : ClassInfo → String
  | .cls c => c.name
  | .tuple _ => ""

-- ---------------------------------------------------------------------------
-- Validators
-- ---------------------------------------------------------------------------

def ofType (classinfo : List ClassInfo) (optional : Bool) : Validator := fun value =>
  if (optional && value.isNone) || classinfo.any (·.accepts value) then .ok value
  else match converter value classinfo with
    | .error e => .error e
    | .ok converted =>
      if converted.any truthy then .ok converted
      else if !optional && value.isNone then .error (.valueError "must be specified")
      else .error (.typeError ("must be " ++ " or ".intercalate (classinfo.map ClassInfo.name)))

def default (d : Json) : Validator
  | none => .ok (some d)
  | some v => if v.sameType d then .ok (some v) else .error (.typeError ("must be " ++ d.literalName))

/-- `repr` of a list of the strings an enum lists; they have no quotes. -/
def listRepr (values : List String) : String :=
  "[" ++ ", ".intercalate (values.map fun v => "'" ++ v ++ "'") ++ "]"

def enum (values : List String) (optional : Bool) : Validator := fun value =>
  match value, values with
  | none, first :: _ =>
    if optional then .ok (some (str first))
    else .error (.valueError ("must be one of: " ++ listRepr values))
  | some (str s), _ =>
    if s ∈ values then .ok (some (str s))
    else .error (.valueError ("must be one of: " ++ listRepr values))
  | _, _ => .error (.valueError ("must be one of: " ++ listRepr values))

/-- The second argument of `message(key, validate)` and the item validators:
any value that is neither a type nor callable, a type or tuple of types, or
a callable. -/
inductive Validate where
  | value (v : Json)
  | types (c : ClassInfo)
  | callable (f : Validator)

def notCallable (v : Json) : Validator := fun _ =>
  .error (.typeError ("'" ++ v.literalName ++ "' object is not callable"))

/-- `validate_item` of `array`; the empty tuple counts as false. -/
def Validate.item : Validate → Validator
  | .value v => if v.truthy then notCallable v else fun x => .ok x
  | .types (.tuple []) => fun x => .ok x
  | .types c => ofType [c] false
  | .callable f => f

/-- `validate_value` of `object`, if it counts as true. -/
def Validate.objectValue : Validate → Option Validator
  | .value v => if v.truthy then some (notCallable v) else none
  | .types c => some (ofType [c] false)
  | .callable f => some f

inductive Size where
  | any
  | exactly (n : Int)
  | atLeast (min : Int)
  | between (min max : Int)
  | oneOf (sizes : List Int)

/-- `validate_size`: `none` if valid, else the error text. The last test of
a pair is the source's own, `len(value) < max_len`. -/
def Size.error (size : Size) (n : Nat) : Option String :=
  match size with
  | .any => none
  | .exactly k => if (n : Int) = k then none else some s!"must have {k} elements"
  | .atLeast min => if (n : Int) < min then some s!"must have at least {min} elements" else none
  | .between min max =>
    if (n : Int) < min then some s!"must have at least {min} elements"
    else if (n : Int) < max then some s!"must have at most {max} elements"
    else none
  | .oneOf sizes =>
    if (n : Int) ∈ sizes then none
    else some ("must have " ++ " or ".intercalate ((sizes.mergeSort (· ≤ ·)).map toString) ++
      " elements")

/-- `type(exc)(f"[{repr(i)}] {exc}")`; `UnicodeDecodeError` takes other
arguments. -/
def atIndex (label : String) : Exn → Exn
  | .typeError text => .typeError ("[" ++ label ++ "] " ++ text)
  | .valueError text => .valueError ("[" ++ label ++ "] " ++ text)
  | .unicodeDecodeError => .typeError "function takes exactly 5 arguments (1 given)"
  | e => e

def validateItems {β : Type} (validate : Json → Except Exn β) : Nat → List Json → Except Exn (List β)
  | _, [] => .ok []
  | i, x :: xs => match validate x with
    | .ok y => (y :: ·) <$> validateItems validate (i + 1) xs
    | .error e => .error (atIndex (toString i) e)

def arrayValue (vectorize : Bool) : Property → Json
  | none => list []
  | some (list xs) => list xs
  | some (dict d) => dict d
  | some v => if vectorize then list [v] else v

/-- What `array` makes of a value, given what becomes of an item. -/
def arrayOf {β : Type} (validate : Json → Except Exn β) (vectorize : Bool) (size : Size)
    (value : Property) : Except Exn (List β) :=
  match arrayValue vectorize value with
  | list xs => match size.error xs.length with
    | some text => .error (.valueError text)
    | none => validateItems validate 0 xs
  | _ => .error (.typeError "must be list")

/-- An item, replaced. A `()` has no place in a list here, see `arrayOf`. -/
def Validate.replace (item : Validate) (x : Json) : Except Exn Json :=
  (fun y => y.getD x) <$> item.item (some x)

def array (item : Validate) (vectorize : Bool) (size : Size) : Validator := fun value =>
  (fun ys => some (list ys)) <$> arrayOf item.replace vectorize size value

def validateValues (validate : Validator) : List (String × Json) → Except Exn (List (String × Json))
  | [] => .ok []
  | (k, v) :: rest => do
    match validate (some v) with
    | .ok (some w) => return (k, w) :: (← validateValues validate rest)
    | .ok none => return (k, v) :: (← validateValues validate rest)
    | .error e => throw (atIndex (repr k) e)

def object (value : Validate) : Validator
  | none => .ok (some (dict []))
  | some (dict items) => match value.objectValue with
    | none => .ok (some (dict items))
    | some validate => do return some (dict (← validateValues validate items))
  | some _ => .error (.typeError "must be dict")

end Json

end Debugpy
