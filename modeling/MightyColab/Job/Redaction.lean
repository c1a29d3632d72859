import MightyColab.Lib.Substitution
import MightyColab.Lib.Url

/-!
# Redaction

`redact_credentials`: user names and passwords of URLs first, then queries. The text is a
list of anything that carries a character; what the substitutions leave in place is the same
item before and after.
-/

namespace MightyColab
namespace Job

open Lib

namespace Redaction

/-- The letters, digits and underscores of Unicode. -/
structure Words where
  word : Char -> Bool
  word_ascii : forall c, Url.isAscii c = true -> word c = (c.isAlphanum || c = '_')

/-- `\s`. -/
def space (c : Char) : Bool :=
  let n := c.toNat
  (9 ≤ n ∧ n ≤ 13) ∨ (28 ≤ n ∧ n ≤ 32) ∨ n = 133 ∨ n = 160 ∨ n = 5760 ∨
    (8192 ≤ n ∧ n ≤ 8202) ∨ n = 8232 ∨ n = 8233 ∨ n = 8239 ∨ n = 8287 ∨ n = 12288

def quotes : List Char := [Char.ofNat 34, Char.ofNat 39]

/-- What neither a query nor a user name may have: blanks, quotes and angle brackets. -/
def stop (c : Char) : Bool := space c || (quotes ++ ['<', '>']).contains c

def queryChar (c : Char) : Bool := !stop c && c != ',' && c != ')'

/-- What a user name is made of: anything else but a slash and an `@`. -/
def userChar (c : Char) : Bool := !stop c && c != '/' && c != '@'

/-- `(?i)[a-z]`, with the four letters that are no ASCII. -/
def schemeStart (c : Char) : Bool :=
  c.isAlpha || [Char.ofNat 304, Char.ofNat 305, Char.ofNat 383, Char.ofNat 8490].contains c

/-- `(?i)[a-z0-9+.-]`. -/
def schemeChar (c : Char) : Bool := schemeStart c || c.isDigit || ['+', '.', '-'].contains c

/-!
## The two patterns
-/

structure Carrier (alpha : Type) where
  glyph : alpha -> Char
  /-- A character that was not there before. -/
  made : Char -> alpha

variable {alpha : Type} (k : Carrier alpha) (words : Words)

namespace Carrier

/-- The longest run of such characters, and the text after it. -/
def run (p : Char -> Bool) (text : List alpha) : List alpha := text.takeWhile fun c => p (k.glyph c)

def afterRun (p : Char -> Bool) (text : List alpha) : List alpha :=
  text.dropWhile fun c => p (k.glyph c)

variable {k} in
theorem run_append {p : Char -> Bool} {first rest : List alpha} {c : alpha}
    (hall : forall a, a ∈ first -> p (k.glyph a) = true) (hc : p (k.glyph c) = false) :
    k.run p (first ++ c :: rest) = first := by
  unfold run
  rw [List.takeWhile_append_of_pos hall, List.takeWhile_cons_of_neg (by simp [hc]),
    List.append_nil]

variable {k} in
theorem afterRun_append {p : Char -> Bool} {first rest : List alpha} {c : alpha}
    (hall : forall a, a ∈ first -> p (k.glyph a) = true) (hc : p (k.glyph c) = false) :
    k.afterRun p (first ++ c :: rest) = c :: rest := by
  unfold afterRun
  rw [List.dropWhile_append_of_pos hall, List.dropWhile_cons_of_neg (by simp [hc])]

variable {k} in
theorem afterRun_pos {p : Char -> Bool} {c : alpha} {rest : List alpha}
    (h : p (k.glyph c) = true) : k.afterRun p (c :: rest) = k.afterRun p rest :=
  List.dropWhile_cons_of_pos (p := fun c => p (k.glyph c)) h

variable {k} in
theorem afterRun_neg {p : Char -> Bool} {c : alpha} {rest : List alpha}
    (h : ¬ p (k.glyph c) = true) : k.afterRun p (c :: rest) = c :: rest :=
  List.dropWhile_cons_of_neg (p := fun c => p (k.glyph c)) h

theorem run_append_afterRun (p : Char -> Bool) (text : List alpha) :
    k.run p text ++ k.afterRun p text = text := List.takeWhile_append_dropWhile

theorem mem_run {p : Char -> Bool} {text : List alpha} {c : alpha} (h : c ∈ k.run p text) :
    p (k.glyph c) = true := List.mem_takeWhile_imp (p := fun c => p (k.glyph c)) h

def write (text : String) : List alpha := text.toList.map k.made

end Carrier

/-- `_QUERY`, to be replaced by `?<redacted>`; the `?` is the one that was there. -/
def findQuery : Substitution.Pattern alpha := fun _ text =>
  match text with
  | [] => none
  | c :: rest =>
      let run := k.run queryChar rest
      if k.glyph c = '?' ∧ run.any (k.glyph · = '=') then
        some (c :: k.write "<redacted>", run.length)
      else none

/-- What `_USERINFO` has after the scheme: `://`, the user and the `@`. -/
def findAuthority (text : List alpha) : Option (List alpha × List alpha × alpha) :=
  match text with
  | colon :: slash :: second :: rest =>
      match k.afterRun userChar rest with
      | [] => none
      | close :: _ =>
          if [colon, slash, second].map k.glyph = [':', '/', '/'] ∧
              k.run userChar rest ≠ [] ∧ k.glyph close = '@' then
            some ([colon, slash, second], k.run userChar rest, close)
          else none
  | _ => none

/-- `_USERINFO`, to be replaced by `\1***@`; the `@` is the one that was there. -/
def findUser : Substitution.Pattern alpha := fun before text =>
  match text with
  | [] => none
  | c :: rest =>
      if schemeStart (k.glyph c) = true ∧ before.any words.word = false then
        (findAuthority k (k.afterRun schemeChar rest)).map fun (mark, user, close) =>
          (c :: k.run schemeChar rest ++ mark ++ k.write "***" ++ [close],
            (k.run schemeChar rest ++ mark ++ user ++ [close]).length)
      else none

/-- `_USERINFO.sub`. -/
def subUser (text : List alpha) : List alpha :=
  Substitution.sub k.glyph (findUser k words) none 0 text

/-- `_QUERY.sub`. -/
def subQuery (text : List alpha) : List alpha :=
  Substitution.sub k.glyph (findQuery k) none 0 text

def redact (text : List alpha) : List alpha := subQuery k (subUser k words text)

def plain : Carrier Char where
  glyph := id
  made := id

def redactCredentials (text : String) : String :=
  String.ofList (redact plain words text.toList)

end Redaction
end Job
end MightyColab
