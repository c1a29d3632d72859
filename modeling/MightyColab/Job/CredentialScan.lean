import MightyColab.Job.UrlIdentity
import MightyColab.Lib.Json

/-!
# Credentials in source files

The two screens that each file of the source passes before it is uploaded: one over its
bytes, one over what YAML makes of them.
-/

namespace MightyColab
namespace Job

open Lib

namespace CredentialScan

def bytesOf (text : String) : List UInt8 := text.toUTF8.toList

def urlDelimiters : List UInt8 := [32, 9, 13, 10, 34, 39, 60, 62, 40, 41, 123, 125]

def secretQueryKeys : List (List UInt8) :=
  ["access_token", "awsaccesskeyid", "googleaccessid", "sig", "signature", "token",
    "x-amz-credential", "x-amz-security-token", "x-amz-signature", "x-goog-credential",
    "x-goog-signature"].map bytesOf

inductive QueryKey where
  /-- No query has begun. -/
  | none
  /-- A key, as far as it has been read. -/
  | key (read : List UInt8)
  /-- A value. -/
  | value

structure Scanner where
  /-- The last bytes outside of URLs, eight at most. -/
  recent : List UInt8 := []
  inUrl : Bool := false
  queryKey : QueryKey := .none

def lowered (byte : UInt8) : UInt8 := if 65 ≤ byte ∧ byte ≤ 90 then byte + 32 else byte

def urlByte (s : Scanner) (byte : UInt8) : Option Scanner :=
  if urlDelimiters.contains byte then some {}
  else
    match s.queryKey with
    | .none => some (if byte = 63 then { s with queryKey := .key [] } else s)
    | .key read =>
        if byte = 61 ∨ byte = 38 ∨ byte = 59 ∨ byte = 35 then
          if secretQueryKeys.contains read then none
          else some
            { s with
              queryKey := if byte = 38 ∨ byte = 59 then .key [] else .value
              inUrl := byte ≠ 35 }
        else if read.length ≤ 64 then some { s with queryKey := .key (read ++ [lowered byte]) }
        else some s
    | .value =>
        if byte = 38 ∨ byte = 59 then some { s with queryKey := .key [] }
        else if byte = 35 then some { s with inUrl := false }
        else some s

def plainByte (s : Scanner) (byte : UInt8) : Scanner :=
  let grown := s.recent ++ [lowered byte]
  let recent := if grown.length > 8 then grown.tail else grown
  if (bytesOf "https://").isSuffixOf recent || (bytesOf "http://").isSuffixOf recent then
    { recent, inUrl := true, queryKey := .none }
  else { s with recent }

def scanByte (s : Scanner) (byte : UInt8) : Option Scanner :=
  if s.inUrl then urlByte s byte else some (plainByte s byte)

/-- `_reject_credential_content`: no key of a secret is found. -/
def credentialFree (content : List UInt8) : Bool := (content.foldlM scanByte {}).isSome

/-!
## Structured files
-/

/-- `key == "url" or key.endswith("_url")` of a key in folded case. -/
def typedUrlKey (key : String) : Bool := key = "url" || Text.endsWith key "_url"

def webQuery (tools : UrlTools) : Json -> Except String Bool
  | .str item =>
      match tools.urlsplit item with
      | none => .error "Invalid URL"
      | some p => .ok ((p.scheme = "http".toList || p.scheme = "https".toList) &&
          !p.query.isEmpty)
  | _ => .ok false

variable (tools : UrlTools) (casefold : String -> String)

mutual

/-- `_contains_typed_url_query`, up to the first URL that it finds. -/
def containsTypedUrlQuery : Json -> Except String Bool
  | .arr items => anyItem items
  | .obj fields => anyField fields
  | .null | .bool _ | .int _ | .float _ _ | .str _ => .ok false

def anyItem : List Json -> Except String Bool
  | [] => .ok false
  | item :: rest => do
      if ← containsTypedUrlQuery item then .ok true else anyItem rest

def anyField : List (String × Json) -> Except String Bool
  | [] => .ok false
  | (key, item) :: rest => do
      if ← (if typedUrlKey (casefold key) then webQuery tools item else .ok false) then .ok true
      else if ← containsTypedUrlQuery item then .ok true
      else anyField rest

end

/-- What the two screens say against a file; `loadYaml` is nothing where the file is no text
or no YAML. -/
def refusal (loadYaml : List UInt8 -> Option Json) (content : List UInt8) : Option String :=
  if !credentialFree content then
    some ("code payload contains a credential-bearing URL; " ++
      "move transfer URLs into the active job spec")
  else
    match loadYaml content with
    | none => none
    | some value =>
        match containsTypedUrlQuery tools casefold value with
        | .error problem => some problem
        | .ok true => some "code payload contains a credential-bearing URL query"
        | .ok false => none

end CredentialScan
end Job
end MightyColab
