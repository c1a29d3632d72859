import MightyColab.Lib.JsonTree
import MightyColab.Lib.PyLiteral

/-!
# The text of a document

`json.dumps` with sorted keys, without blanks and in ASCII.
-/

namespace MightyColab
namespace Lib
namespace Json

def quoted (s : String) : List Char :=
  (PyLiteral.jsonStr (s.toList.map Char.toNat)).map Char.ofNat

/-- What stands for a float that Python prints as `text`. -/
def floatText (text : String) : List Char :=
  if text = "nan" then "NaN".toList
  else if text = "inf" then "Infinity".toList
  else if text = "-inf" then "-Infinity".toList
  else text.toList

def commas : List (List Char) -> List Char
  | [] => []
  | [text] => text
  | text :: next :: rest => text ++ ',' :: commas (next :: rest)

def insertField (name : String) (text : List Char) :
    List (String × List Char) -> List (String × List Char)
  | [] => [(name, text)]
  | (other, first) :: rest =>
      if other.toList < name.toList then (other, first) :: insertField name text rest
      else (name, text) :: (other, first) :: rest

mutual

/-- `json.dumps(value, sort_keys=True, separators=(",", ":"), ensure_ascii=True)`. -/
def dumpsList : Json -> List Char
  | null => "null".toList
  | bool true => "true".toList
  | bool false => "false".toList
  | int i => (toString i).toList
  | float _ text => floatText text
  | str s => quoted s
  | arr items => '[' :: (commas (dumpsItems items) ++ [']'])
  | obj fields =>
      '{' :: (commas ((dumpsFields fields).map fun (name, text) =>
        quoted name ++ ':' :: text) ++ ['}'])

def dumpsItems : List Json -> List (List Char)
  | [] => []
  | j :: rest => dumpsList j :: dumpsItems rest

def dumpsFields : List (String × Json) -> List (String × List Char)
  | [] => []
  | (name, j) :: rest => insertField name (dumpsList j) (dumpsFields rest)

end

def dumps (j : Json) : String := String.ofList (dumpsList j)

example : dumps (.obj [("b", .arr [.int (-3), .null]), ("a", .str "x\"é")]) =
    "\x7b\"a\":\"x\\\"\\u00e9\",\"b\":[-3,null]\x7d" := by decide

end Json
end Lib
end MightyColab
