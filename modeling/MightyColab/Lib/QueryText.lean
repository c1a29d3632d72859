import MightyColab.Lib.Url

/-!
# Query strings

`urllib.parse.parse_qs`: the names and values of a query, with `%` and `+` undone. Bytes
that are no UTF-8 come to be replacement characters.
-/

namespace MightyColab
namespace Lib
namespace QueryText

/-- What `unquote` makes of a text before it decodes: bytes, and the characters that are
not ASCII as they stand. -/
inductive Piece where
  | byte (value : Nat)
  | char (c : Char)

/-- `unquote_to_bytes` of each ASCII part. -/
def pieces : List Char -> List Piece
  | '%' :: high :: low :: rest =>
      match IpAddress.hexDigit high, IpAddress.hexDigit low with
      | some h, some l => .byte (16 * h + l) :: pieces rest
      | _, _ => .byte 37 :: pieces (high :: low :: rest)
  | c :: rest => (if Url.isAscii c then .byte c.toNat else .char c) :: pieces rest
  | [] => []

structure Pending where
  code : Nat
  /-- How many bytes are missing. -/
  missing : Nat
  /-- The bounds of the next byte. -/
  low : Nat := 128
  high : Nat := 191

def replacement : Char := Char.ofNat 65533

def lead (byte : Nat) : List Char × Option Pending :=
  if byte < 128 then ([Char.ofNat byte], none)
  else if 194 ≤ byte ∧ byte ≤ 223 then ([], some { code := byte - 192, missing := 1 })
  else if 224 ≤ byte ∧ byte ≤ 239 then
    ([], some
      { code := byte - 224
        missing := 2
        low := if byte = 224 then 160 else 128
        high := if byte = 237 then 159 else 191 })
  else if 240 ≤ byte ∧ byte ≤ 244 then
    ([], some
      { code := byte - 240
        missing := 3
        low := if byte = 240 then 144 else 128
        high := if byte = 244 then 143 else 191 })
  else ([replacement], none)

/-- Decoding with `errors="replace"`. -/
def decode : Option Pending -> List Piece -> List Char
  | none, [] => []
  | some _, [] => [replacement]
  | none, .char c :: rest => c :: decode none rest
  | some _, .char c :: rest => replacement :: c :: decode none rest
  | none, .byte byte :: rest =>
      let (text, pending) := lead byte
      text ++ decode pending rest
  | some p, .byte byte :: rest =>
      if p.low ≤ byte ∧ byte ≤ p.high then
        let code := 64 * p.code + (byte - 128)
        if p.missing = 1 then Char.ofNat code :: decode none rest
        else decode (some { code, missing := p.missing - 1 }) rest
      else
        let (text, pending) := lead byte
        replacement :: text ++ decode pending rest

/-- `unquote` after `+` has been read as a blank. -/
def unquotePlus (text : List Char) : String :=
  String.ofList (decode none (pieces (text.map fun c => if c = '+' then ' ' else c)))

/-- `parse_qs` with `keep_blank_values`, each name with one value at a time. -/
def parseQs (query : List Char) : List (String × String) :=
  ((query.splitOn '&').filter (· ≠ [])).map fun field =>
    (unquotePlus (Url.before '=' field), unquotePlus (Url.after '=' field))

end QueryText
end Lib
end MightyColab
