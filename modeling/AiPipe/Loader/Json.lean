import Mathlib.Algebra.Group.Int.Defs
import Mathlib.Algebra.Group.Nat.Defs
import Mathlib.Data.Rat.Defs
import Mathlib.Data.Nat.Log

/-!
JSON values and how a C++ program reads them: a typed read of another kind, and a read of a
member that is not there, end in an exception.
-/

namespace Nlohmann

/-- Integers that do not fit `int64_t` are unsigned ones; an object is a map, with its
entries in the order of their keys. -/
inductive Json where
  | null
  | boolean (value : Bool)
  | integer (value : Int)
  | unsigned (value : Nat)
  | float (value : Rat)
  | string (value : String)
  | array (elements : List Json)
  | object (entries : List (String × Json))

inductive Exception where
  | parseError (what : String)
  | outOfRange
  | typeError
  /-- The constant `operator[]` with a key that the object does not have. -/
  | missingKey
  deriving DecidableEq, Repr

abbrev Throws (α : Type) := Except Exception α

/-- The conversion of a 64-bit integer to `double`: to the nearest value with 53 bits, and
to the even one of two. -/
def roundMagnitude (value : Nat) : Nat :=
  let unit := 2 ^ (Nat.log 2 value - 52)
  let quotient := value / unit
  let rest := value % unit
  if unit < 2 * rest ∨ unit = 2 * rest ∧ quotient % 2 = 1 then (quotient + 1) * unit
  else quotient * unit

def toDouble (value : Int) : Rat := value.sign * roundMagnitude value.natAbs

def toInt64 (value : Int) : Int := (value + 2 ^ 63) % 2 ^ 64 - 2 ^ 63

def toUint64 (value : Int) : Nat := (value % 2 ^ 64).toNat

structure Parser where
  parse : List UInt8 → Throws Json
  overflows : List UInt8 → Prop
  throws : ∀ text exception, parse text = .error exception →
    (∃ what, exception = .parseError what) ∨ exception = .outOfRange ∧ overflows text
  outOfRange : ∀ text, overflows text → parse text = .error .outOfRange

namespace Json

def isBoolean : Json → Bool
  | boolean _ => true
  | _ => false

def isNumberUnsigned : Json → Bool
  | unsigned _ => true
  | _ => false

def isNumberInteger : Json → Bool
  | integer _ | unsigned _ => true
  | _ => false

def isNumber : Json → Bool
  | integer _ | unsigned _ | float _ => true
  | _ => false

def isString : Json → Bool
  | string _ => true
  | _ => false

def isArray : Json → Bool
  | array _ => true
  | _ => false

def isObject : Json → Bool
  | object _ => true
  | _ => false

def empty : Json → Bool
  | null => true
  | array elements => elements.isEmpty
  | object entries => entries.isEmpty
  | _ => false

def elements : Json → List Json
  | null => []
  | array elements => elements
  | object entries => entries.map Prod.snd
  | value => [value]

def items : Json → List (String × Json)
  | null => []
  | array elements => elements.zipIdx.map fun (element, index) => (toString index, element)
  | object entries => entries
  | value => [("", value)]

def find (key : String) : Json → Option Json
  | object entries => entries.lookup key
  | _ => none

def contains (key : String) (value : Json) : Bool := (value.find key).isSome

def getBool : Json → Throws Bool
  | boolean value => .ok value
  | _ => .error .typeError

def getInt64 : Json → Throws Int
  | integer value => .ok value
  | unsigned value => .ok (toInt64 value)
  | float value => .ok (value.num.tdiv value.den)
  | _ => .error .typeError

def getUint64 : Json → Throws Nat
  | integer value => .ok (toUint64 value)
  | unsigned value => .ok value
  | float value => .ok (toUint64 (value.num.tdiv value.den))
  | _ => .error .typeError

def getDouble : Json → Throws Rat
  | integer value => .ok (toDouble value)
  | unsigned value => .ok (toDouble value)
  | float value => .ok value
  | _ => .error .typeError

def getString : Json → Throws String
  | string value => .ok value
  | _ => .error .typeError

def getVector {α : Type} (get : Json → Throws α) : Json → Throws (List α)
  | array elements => elements.mapM get
  | _ => .error .typeError

def item (key : String) : Json → Throws Json
  | object entries => match entries.lookup key with
    | some value => .ok value
    | none => .error .missingKey
  | _ => .error .typeError

def valueOr (key fallback : String) : Json → Throws String
  | object entries => match entries.lookup key with
    | some value => value.getString
    | none => .ok fallback
  | _ => .error .typeError

variable {value : Json}

theorem item_of_contains {key : String} (present : value.contains key = true) :
    ∃ found, value.find key = some found ∧ value.item key = .ok found := by
  obtain ⟨found, same⟩ := Option.isSome_iff_exists.mp present
  refine ⟨found, same, ?_⟩
  cases value with
  | object entries =>
    rw [find] at same
    rw [item, same]
  | _ => cases same

/-! A read that follows the test of the kind. -/

theorem getBool_ok (kind : value.isBoolean = true) : ∃ flag, value.getBool = .ok flag := by
  cases value with
  | boolean flag => exact ⟨flag, rfl⟩
  | _ => cases kind

theorem getString_ok (kind : value.isString = true) : ∃ text, value.getString = .ok text := by
  cases value with
  | string text => exact ⟨text, rfl⟩
  | _ => cases kind

theorem getInt64_ok (kind : value.isNumberInteger = true) :
    ∃ number, value.getInt64 = .ok number := by
  cases value with
  | integer | unsigned => exact ⟨_, rfl⟩
  | _ => cases kind

theorem getUint64_ok (kind : value.isNumberInteger = true) :
    ∃ number, value.getUint64 = .ok number := by
  cases value with
  | integer | unsigned => exact ⟨_, rfl⟩
  | _ => cases kind

theorem getDouble_ok (kind : value.isNumber = true) : ∃ number, value.getDouble = .ok number := by
  cases value with
  | integer | unsigned | float => exact ⟨_, rfl⟩
  | _ => cases kind

theorem getVector_ok {α : Type} {get : Json → Throws α} {elements : List Json}
    (each : ∀ element ∈ elements, ∃ value, get element = .ok value) :
    ∃ values, (array elements).getVector get = .ok values := by
  change ∃ values, elements.mapM get = .ok values
  induction elements with
  | nil => exact ⟨[], rfl⟩
  | cons element rest ih =>
    obtain ⟨value, first⟩ := each element (.head _)
    obtain ⟨values, others⟩ := ih fun other member => each other (.tail _ member)
    refine ⟨value :: values, ?_⟩
    rw [List.mapM_cons, first, others]
    rfl

end Json

end Nlohmann
