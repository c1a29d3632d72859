import Mathlib.Data.Rat.Defs

/-!
# JSON values as Python reads them

The value of a parsed JSON document under the Python operations that programs
apply to it without checking its shape first: truth value, comparison with an
integer, `isinstance` tests, `dict.get`, and conversion to text.
-/

namespace MightyColab
namespace Lib

/-- The result of Python's `json.loads`. A float carries its exact value, absent
for `NaN` and the infinities, and the text Python prints for it. -/
inductive Json where
  | null
  | bool (b : Bool)
  | int (i : Int)
  | float (value : Option Rat) (text : String)
  | str (s : String)
  | arr (items : List Json)
  | obj (fields : List (String × Json))
  deriving Repr, Inhabited

namespace Json

/-- `bool(value)`. -/
def truthy : Json -> Bool
  | null => false
  | bool b => b
  | int i => i ≠ 0
  | float value _ => value ≠ some 0
  | str s => s ≠ ""
  | arr items => !items.isEmpty
  | obj fields => !fields.isEmpty

/-- The integer an `int` or a `bool` is, which are the values
`isinstance(value, int)` accepts. -/
def asInt? : Json -> Option Int
  | int i => some i
  | bool b => some (if b then 1 else 0)
  | _ => none

/-- `value == n`, which a float of the same value also satisfies. -/
def eqInt (j : Json) (n : Int) : Bool :=
  match j with
  | float value _ => value = some (n : Rat)
  | j => j.asInt? = some n

private def digits? : List Char -> Option (List Char)
  | [] => some []
  | c :: rest =>
      if c.isDigit then (digits? rest).map (c :: ·)
      else match c, rest with
        | '_', d :: _ => if d.isDigit then digits? rest else none
        | _, _ => none

/-- Python's `int(text)` for ASCII text: blanks around, a sign, and digits with
single underscores between them. -/
def parseInt? (text : String) : Option Int :=
  let (negative, body) := match text.trimAscii.toString.toList with
    | '-' :: rest => (true, rest)
    | '+' :: rest => (false, rest)
    | rest => (false, rest)
  match body with
  | c :: _ =>
      if c.isDigit then
        (digits? body).map fun ds =>
          let n : Nat := ds.foldl (fun n d => 10 * n + (d.toNat - 48)) 0
          if negative then -(n : Int) else n
      else none
  | [] => none

/-- `int(value)`, or nothing where it raises. -/
def toInt? : Json -> Option Int
  | int i => some i
  | bool b => some (if b then 1 else 0)
  | float value _ => value.map fun q => q.num.tdiv q.den
  | str s => parseInt? s
  | _ => none

def asStr? : Json -> Option String
  | str s => some s
  | _ => none

def asObj? : Json -> Option (List (String × Json))
  | obj fields => some fields
  | _ => none

def optional (value : Option Json) : Json := value.getD .null

def optStr (text : Option String) : Json := optional (text.map str)

def optInt (number : Option Int) : Json := optional (number.map int)

def isNull : Json -> Bool
  | null => true
  | _ => false

/-- `type(value).__name__`. -/
def typeName : Json -> String
  | null => "NoneType"
  | bool _ => "bool"
  | int _ => "int"
  | float _ _ => "float"
  | str _ => "str"
  | arr _ => "list"
  | obj _ => "dict"

/-- Whether `value in {..}` can be asked of it: lists and dicts are unhashable. -/
def hashable : Json -> Bool
  | arr _ => false
  | obj _ => false
  | _ => true

structure FloatValue where
  value : Option Rat
  text : String
  deriving DecidableEq, Repr, Inhabited

/-- A JSON object's fields, as `json.loads` keeps them. -/
abbrev Fields := List (String × Json)

/-- `fields.get(key)`, with None for a missing key. -/
def Fields.get (fields : Fields) (key : String) : Json :=
  (fields.lookup key).getD null

/-- `fields.get(key, default)`. -/
def Fields.getD (fields : Fields) (key : String) (default : Json) : Json :=
  (fields.lookup key).getD default

/-- `value or default`. -/
def orElse (j default : Json) : Json :=
  if j.truthy then j else default

private def hexDigit (n : Nat) : Char :=
  if n < 10 then Char.ofNat (48 + n) else Char.ofNat (87 + n)

private def escapeChar (quote c : Char) : List Char :=
  let backslash := Char.ofNat 92
  if c = backslash ∨ c = quote then [backslash, c]
  else if c.toNat = 10 then [backslash, 'n']
  else if c.toNat = 13 then [backslash, 'r']
  else if c.toNat = 9 then [backslash, 't']
  else if c.toNat < 32 ∨ c.toNat = 127 then
    [backslash, 'x', hexDigit (c.toNat / 16), hexDigit (c.toNat % 16)]
  else [c]

/-- `repr` of a string: single quotes unless only they occur in it. Characters
beyond ASCII are taken as printable. -/
def reprStr (s : String) : String :=
  let single := Char.ofNat 39
  let double := Char.ofNat 34
  let quote := if single ∈ s.toList ∧ double ∉ s.toList then double else single
  String.ofList (quote :: s.toList.flatMap (escapeChar quote) ++ [quote])

mutual

/-- `repr(value)`. -/
def pyRepr : Json -> String
  | null => "None"
  | bool true => "True"
  | bool false => "False"
  | int i => toString i
  | float _ text => text
  | str s => reprStr s
  | arr items => "[" ++ String.intercalate ", " (pyReprItems items) ++ "]"
  | obj fields => "\x7b" ++ String.intercalate ", " (pyReprFields fields) ++ "\x7d"

def pyReprItems : List Json -> List String
  | [] => []
  | j :: rest => pyRepr j :: pyReprItems rest

def pyReprFields : List (String × Json) -> List String
  | [] => []
  | (key, j) :: rest => (reprStr key ++ ": " ++ pyRepr j) :: pyReprFields rest

end

/-- `str(value)`, or the value in an f-string. -/
def pyStr : Json -> String
  | str s => s
  | j => pyRepr j

/-- `a == b` for values that are not both lists or both dicts: numbers by value, and
NaN not even equal to itself. -/
def scalarEq : Json -> Json -> Bool
  | null, null => true
  | str s, str t => s = t
  | float none text, float none text' => text = text' && text ≠ "nan"
  | float none _, _ => false
  | float (some q) _, float value _ => value = some q
  | float (some q) _, b => b.asInt?.any fun i => (i : Rat) = q
  | a, float (some q) _ => a.asInt?.any fun i => (i : Rat) = q
  | a, b => a.asInt?.isSome && a.asInt? = b.asInt?

mutual

/-- `a == b`. -/
def pyEq : Json -> Json -> Bool
  | arr items, arr items' => pyEqItems items items'
  | obj fields, obj fields' =>
      fields.length = fields'.length && pyEqFields fields fields'
  | a, b => scalarEq a b

def pyEqItems : List Json -> List Json -> Bool
  | [], [] => true
  | a :: rest, b :: rest' => pyEq a b && pyEqItems rest rest'
  | _, _ => false

def pyEqFields : List (String × Json) -> List (String × Json) -> Bool
  | [], _ => true
  | (key, a) :: rest, fields =>
      (match fields.lookup key with
        | some b => pyEq a b
        | none => false) && pyEqFields rest fields

end

@[simp] theorem truthy_null : truthy null = false := rfl

@[simp] theorem truthy_obj_cons (field : String × Json) (fields : Fields) :
    truthy (obj (field :: fields)) = true := rfl

example : pyEq (obj [("a", int 1), ("b", null)]) (obj [("b", null), ("a", bool true)]) =
    true := by decide

example : pyStr (arr [int 3, str "a", null]) = "[3, 'a', None]" := by decide

end Json
end Lib
end MightyColab
