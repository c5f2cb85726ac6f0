import Mathlib.Data.Rat.Floor
import Mathlib.Data.Int.Log
import Mathlib.Algebra.Order.Field.Rat
import Std.Data.ExtTreeMap

/-!
# JSON values as `serde_json` holds them

Requests, task publications and HID status frames reach the bridge as
`serde_json::Value`.  A number is a `u64`, a negative `i64` or a finite double;
an object is a map with unique keys, kept here as the list of its fields, and
`Value.sortedFields` is the order in which it iterates.

Finite doubles are represented by the rationals they denote.  The two places
where the bridge computes with them (scaling a brightness and rounding it)
round exactly as IEEE double arithmetic does.
-/

namespace MicroEmu

/-- Largest `u128`, the saturation point of the bridge's millisecond clock. -/
def u128Max : Nat := 2 ^ 128 - 1

/-- `u128::saturating_add`. -/
def saturatingAdd (a b : Nat) : Nat := min (a + b) u128Max

/-- Plain `+` on `u128`, as a release build computes it. -/
def wrappingAdd (a b : Nat) : Nat := (a + b) % 2 ^ 128

namespace Json

/-- A finite double, as the rational number it denotes. -/
abbrev F64 := ℚ

/-- Nearest integer, ties to the even one. -/
def roundTiesEven (q : ℚ) : Int :=
  let below := ⌊q⌋
  let rest := q - below
  if rest < 1 / 2 then below
  else if 1 / 2 < rest then below + 1
  else if below % 2 = 0 then below else below + 1

/-- Exponent of the last mantissa bit of the double nearest to `q`: 53
significant bits, and never below the subnormal step `2 ^ -1074`. -/
def ulpExponent (q : ℚ) : Int :=
  max (Int.log 2 |q| - 52) (-1074)

/-- The double nearest to a rational (ties to even), overflow aside. -/
def toF64 (q : ℚ) : F64 :=
  if q = 0 then 0
  else (roundTiesEven (q / 2 ^ ulpExponent q) : ℚ) * 2 ^ ulpExponent q

/-- `f64::EPSILON`. -/
def f64Epsilon : F64 := 1 / 2 ^ 52

/-- `f64::round`: nearest integer, ties away from zero. -/
def f64Round (q : F64) : Int :=
  if 0 ≤ q then ⌊q + 1 / 2⌋ else -⌊-q + 1 / 2⌋

/-- The three representations of `serde_json::Number`. -/
inductive Number where
  | posInt (n : UInt64)
  | negInt (n : Int64)
  | float (q : F64)
  deriving DecidableEq, Repr

/-- `Number::as_u64`: integers only, never a float with an integral value. -/
def Number.asU64 : Number → Option Nat
  | .posInt n => some n.toNat
  | .negInt _ => none
  | .float _ => none

/-- `Number::as_f64`. -/
def Number.asF64 : Number → F64
  | .posInt n => toF64 n.toNat
  | .negInt n => toF64 n.toInt
  | .float q => q

/-- `serde_json::Value`. -/
inductive Value where
  | null
  | bool (b : Bool)
  | number (n : Number)
  | string (s : String)
  | array (items : List Value)
  | object (fields : List (String × Value))
  deriving Repr

namespace Value

instance : Inhabited Value := ⟨.null⟩

/-- `Value::from` for an unsigned integer. -/
def ofNat (n : Nat) : Value := .number (.posInt (UInt64.ofNat n))

/-- `Value::from` for an optional string. -/
def ofOptString : Option String → Value
  | none => .null
  | some s => .string s

/-- `Value::from` for an optional unsigned integer. -/
def ofOptNat : Option Nat → Value
  | none => .null
  | some n => ofNat n

def asBool : Value → Option Bool
  | .bool b => some b
  | _ => none

def asU64 : Value → Option Nat
  | .number n => n.asU64
  | _ => none

def asF64 : Value → Option F64
  | .number n => some n.asF64
  | _ => none

def asStr : Value → Option String
  | .string s => some s
  | _ => none

def asArray : Value → Option (List Value)
  | .array items => some items
  | _ => none

def asObject : Value → Option (List (String × Value))
  | .object fields => some fields
  | _ => none

/-- `Value::get` with a string index: `None` on anything but an object. -/
def get? (value : Value) (key : String) : Option Value :=
  value.asObject.bind (List.lookup key)

/-- The fields of an object in the order its map iterates. -/
def sortedFields (fields : List (String × Value)) : List (String × Value) :=
  (Std.ExtTreeMap.ofList fields : Std.ExtTreeMap String Value).toList

/-! ### Equality -/

mutual

/-- `PartialEq` of `serde_json::Value`: the order of the fields of an object does not count. -/
def same : Value → Value → Bool
  | .null, .null => true
  | .bool a, .bool b => a == b
  | .number a, .number b => a == b
  | .string a, .string b => a == b
  | .array items, .array others => sameItems items others
  | .object fields, .object others =>
      fields.length == others.length && sameFields fields others
  | _, _ => false

def sameItems : List Value → List Value → Bool
  | [], [] => true
  | item :: items, other :: others => same item other && sameItems items others
  | _, _ => false

/-- Each field is one of the others. -/
def sameFields : List (String × Value) → List (String × Value) → Bool
  | [], _ => true
  | (key, value) :: fields, others =>
      ((others.lookup key).any fun other => same value other) && sameFields fields others

end

end Value

/-- `serde_json::Map::insert`: a present key keeps its place and gets the new
value. -/
def insertField (fields : List (String × Value)) (key : String) (value : Value) :
    List (String × Value) :=
  if fields.any (·.1 == key) then
    fields.map fun field => if field.1 == key then (key, value) else field
  else
    fields ++ [(key, value)]

/-- Inserting a field leaves the others. -/
theorem lookup_insertField_of_ne (fields : List (String × Value)) {key other : String}
    (value : Value) (h : other ≠ key) :
    (insertField fields key value).lookup other = fields.lookup other := by
  have hne : (other == key) = false := by simpa using h
  have hmap : (fields.map fun field =>
      if field.1 == key then (key, value) else field).lookup other = fields.lookup other := by
    induction fields with
    | nil => rfl
    | cons field fields ih =>
        obtain ⟨name, old⟩ := field
        rw [List.map_cons]
        by_cases hname : name = key
        · simp only [hname, beq_self_eq_true, if_true, List.lookup_cons, hne, ih]
        · have hkeep : (name == key) = false := by simpa using hname
          simp only [hkeep, Bool.false_eq_true, if_false, List.lookup_cons, ih]
  unfold insertField
  split
  · exact hmap
  · simp [List.lookup_append, List.lookup_cons, hne]

/-! ## Text helpers of the Rust standard library -/

/-- `char::is_whitespace`, the Unicode `White_Space` property. -/
def isWhitespace (c : Char) : Bool :=
  let n := c.toNat
  (9 ≤ n && n ≤ 13) || n == 0x20 || n == 0x85 || n == 0xA0 || n == 0x1680 ||
    (0x2000 ≤ n && n ≤ 0x200A) || n == 0x2028 || n == 0x2029 || n == 0x202F ||
    n == 0x205F || n == 0x3000

/-- `str::trim`. -/
def trim (s : String) : String :=
  String.ofList ((((s.toList.dropWhile isWhitespace).reverse).dropWhile
    isWhitespace).reverse)

/-- `str::to_ascii_lowercase`. -/
def toAsciiLowercase (s : String) : String := String.ofList (s.toList.map Char.toLower)

/-- `s.chars().take(n).collect()`. -/
def takeChars (n : Nat) (s : String) : String :=
  String.ofList (s.toList.take n)

/-- `s.chars().count()`. -/
def charCount (s : String) : Nat := s.toList.length

/-- `str::strip_prefix`. -/
def stripPrefix (s pre : String) : Option String :=
  if pre.toList.isPrefixOf s.toList then
    some (String.ofList (s.toList.drop pre.toList.length))
  else
    none

/-- `str::split_once` on the characters of the separator. -/
def splitOnceChars (separator : List Char) : List Char → Option (List Char × List Char)
  | [] => if separator.isEmpty then some ([], []) else none
  | c :: rest =>
      if separator.isPrefixOf (c :: rest) then
        some ([], (c :: rest).drop separator.length)
      else
        (splitOnceChars separator rest).map fun parts => (c :: parts.1, parts.2)

/-- `str::split_once`: the texts before and after the first separator. -/
def splitOnce (s separator : String) : Option (String × String) :=
  (splitOnceChars separator.toList s.toList).map fun parts =>
    (String.ofList parts.1, String.ofList parts.2)

/-- `str::starts_with`. -/
def startsWith (s pre : String) : Bool := pre.toList.isPrefixOf s.toList

/-- Value of one digit in the given radix, as `char::to_digit` reads it. -/
def digitValue (radix : Nat) (c : Char) : Option Nat :=
  let value :=
    if '0' ≤ c ∧ c ≤ '9' then some (c.toNat - '0'.toNat)
    else if 'a' ≤ c ∧ c ≤ 'z' then some (c.toNat - 'a'.toNat + 10)
    else if 'A' ≤ c ∧ c ≤ 'Z' then some (c.toNat - 'A'.toNat + 10)
    else none
  value.filter (· < radix)

/-- Unsigned digits in the given radix; `none` on an empty or foreign text. -/
def parseDigits (radix : Nat) : List Char → Option Nat
  | [] => none
  | digits => digits.foldlM
      (fun acc c => (digitValue radix c).map (acc * radix + ·)) 0

/-- `from_str_radix` of an unsigned type with values up to `limit`: one leading
`+` is accepted, an empty text, a foreign digit or an overflow is an error. -/
def parseUnsigned (radix limit : Nat) (s : String) : Option Nat :=
  let digits := match s.toList with
    | '+' :: rest => rest
    | text => text
  (parseDigits radix digits).filter (· ≤ limit)

end Json
end MicroEmu
