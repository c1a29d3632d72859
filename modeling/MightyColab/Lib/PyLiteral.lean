import Mathlib.Data.List.Basic
import Mathlib.Tactic.Ring

/-!
# String literals of Python and JSON

A Python string is a list of code points, surrogates among them. This module reads the
string and list displays of Python source text, writes what `repr` and `json.dumps` write,
and says what a text written by either is read as.
-/

namespace MightyColab
namespace Lib
namespace PyLiteral

abbrev PyStr := List Nat

def codes (text : String) : PyStr := text.toList.map Char.toNat

def codeLimit : Nat := 0x110000

/-!
## Reading
-/

def hexValue (c : Nat) : Option Nat :=
  if 48 ≤ c ∧ c ≤ 57 then some (c - 48)
  else if 97 ≤ c ∧ c ≤ 102 then some (c - 87)
  else if 65 ≤ c ∧ c ≤ 70 then some (c - 55)
  else none

def octalValue (c : Nat) : Option Nat :=
  if 48 ≤ c ∧ c ≤ 55 then some (c - 48) else none

inductive Escape where
  | code (n : Nat)
  /-- A line that goes on. -/
  | joined
  | hex (digits : Nat)
  /-- A character by its name, which this reader does not know. -/
  | named
  | unknown
  deriving DecidableEq, Repr

def escapeOf (c : Nat) : Escape :=
  if c = 10 then .joined
  else if c = 92 ∨ c = 39 ∨ c = 34 then .code c
  else if c = 97 then .code 7
  else if c = 98 then .code 8
  else if c = 102 then .code 12
  else if c = 110 then .code 10
  else if c = 114 then .code 13
  else if c = 116 then .code 9
  else if c = 118 then .code 11
  else if c = 120 then .hex 2
  else if c = 117 then .hex 4
  else if c = 85 then .hex 8
  else if c = 78 then .named
  else .unknown

inductive Mode where
  | plain
  | escaped
  | hex (left value : Nat)
  | octal (left value : Nat)
  deriving DecidableEq, Repr

def push (text : PyStr) (read : Option (PyStr × PyStr)) : Option (PyStr × PyStr) :=
  read.map fun parts => (text ++ parts.1, parts.2)

def readPlain (quote c : Nat) (rest : PyStr) (plain escaped : Option (PyStr × PyStr)) :
    Option (PyStr × PyStr) :=
  if c = quote then some ([], rest)
  else if c = 10 ∨ c = 13 then none
  else if c = 92 then escaped
  else push [c] plain

/-- A literal up to its closing quote, and the text after it. -/
def read (quote : Nat) : Mode -> PyStr -> Option (PyStr × PyStr)
  | _, [] => none
  | .plain, c :: rest =>
      readPlain quote c rest (read quote .plain rest) (read quote .escaped rest)
  | .escaped, c :: rest =>
      match octalValue c with
      | some digit => read quote (.octal 2 digit) rest
      | none =>
          match escapeOf c with
          | .code n => push [n] (read quote .plain rest)
          | .joined => read quote .plain rest
          | .hex digits => read quote (.hex digits 0) rest
          | .named => none
          | .unknown => push [92, c] (read quote .plain rest)
  | .hex left value, c :: rest =>
      match hexValue c with
      | none => none
      | some digit =>
          if 1 < left then read quote (.hex (left - 1) (16 * value + digit)) rest
          else if 16 * value + digit < codeLimit then
            push [16 * value + digit] (read quote .plain rest)
          else none
  | .octal left value, c :: rest =>
      match octalValue c, left with
      | some digit, left + 1 => read quote (.octal left (8 * value + digit)) rest
      | _, _ =>
          push [value]
            (readPlain quote c rest (read quote .plain rest) (read quote .escaped rest))

theorem read_plain (quote c : Nat) (rest : PyStr) :
    read quote .plain (c :: rest) =
      readPlain quote c rest (read quote .plain rest) (read quote .escaped rest) := rfl

theorem read_escaped (quote c : Nat) (rest : PyStr) :
    read quote .escaped (c :: rest) =
      match octalValue c with
      | some digit => read quote (.octal 2 digit) rest
      | none =>
          match escapeOf c with
          | .code n => push [n] (read quote .plain rest)
          | .joined => read quote .plain rest
          | .hex digits => read quote (.hex digits 0) rest
          | .named => none
          | .unknown => push [92, c] (read quote .plain rest) := rfl

theorem read_hex (quote left value c : Nat) (rest : PyStr) :
    read quote (.hex left value) (c :: rest) =
      match hexValue c with
      | none => none
      | some digit =>
          if 1 < left then read quote (.hex (left - 1) (16 * value + digit)) rest
          else if 16 * value + digit < codeLimit then
            push [16 * value + digit] (read quote .plain rest)
          else none := rfl

def readLiteral (quote : Nat) (text : PyStr) : Option (PyStr × PyStr) :=
  if text.take 2 = [quote, quote] then none else read quote .plain text

def evalStr : PyStr -> Option PyStr
  | [] => none
  | quote :: text =>
      if quote = 34 ∨ quote = 39 then
        match readLiteral quote text with
        | some (value, []) => some value
        | _ => none
      else none

def skipBlanks (text : PyStr) : PyStr := text.dropWhile fun c => c = 32 || c = 9

def readItems : Nat -> PyStr -> Option (List PyStr)
  | 0, _ => none
  | fuel + 1, text =>
      match skipBlanks text with
      | [] => none
      | [93] => some []
      | quote :: rest =>
          if quote = 34 ∨ quote = 39 then
            match readLiteral quote rest with
            | none => none
            | some (item, after) =>
                match skipBlanks after with
                | [93] => some [item]
                | 44 :: more => (readItems fuel more).map (item :: ·)
                | _ => none
          else none

def evalList : PyStr -> Option (List PyStr)
  | 91 :: rest => readItems (rest.length + 1) rest
  | _ => none

/-!
## Writing
-/

def hexDigit (n : Nat) : Nat := if n < 10 then 48 + n else 87 + n

/-- The lowest `count` hexadecimal digits. -/
def hexDigits : Nat -> Nat -> PyStr
  | 0, _ => []
  | count + 1, n => hexDigit (n / 16 ^ count % 16) :: hexDigits count (n % 16 ^ count)

def units (n : Nat) : PyStr :=
  if n < 0x10000 then [n]
  else [0xd800 + (n - 0x10000) / 1024, 0xdc00 + (n - 0x10000) % 1024]

/-- One UTF-16 unit as `json.dumps` writes it. -/
def jsonUnit (n : Nat) : PyStr := 92 :: 117 :: hexDigits 4 n

/-- One character as `json.dumps` writes it. -/
def jsonEscape (n : Nat) : PyStr :=
  if n = 34 ∨ n = 92 then [92, n]
  else if n = 8 then [92, 98]
  else if n = 9 then [92, 116]
  else if n = 10 then [92, 110]
  else if n = 12 then [92, 102]
  else if n = 13 then [92, 114]
  else if 32 ≤ n ∧ n ≤ 126 then [n]
  else (units n).flatMap jsonUnit

def jsonStr (text : PyStr) : PyStr := 34 :: text.flatMap jsonEscape ++ [34]

def jsonItems : List PyStr -> PyStr
  | [] => [93]
  | [item] => jsonStr item ++ [93]
  | item :: next :: rest => jsonStr item ++ 44 :: 32 :: jsonItems (next :: rest)

/-- `json.dumps` of a list of strings. -/
def jsonList (items : List PyStr) : PyStr := 91 :: jsonItems items

/-- One character as `repr` writes it; `printable` beyond ASCII. -/
def reprEscape (printable : Nat -> Bool) (quote n : Nat) : PyStr :=
  if n = quote ∨ n = 92 then [92, n]
  else if n = 9 then [92, 116]
  else if n = 10 then [92, 110]
  else if n = 13 then [92, 114]
  else if n < 32 ∨ n = 127 then 92 :: 120 :: hexDigits 2 n
  else if n < 127 ∨ printable n = true then [n]
  else if n < 0x100 then 92 :: 120 :: hexDigits 2 n
  else if n < 0x10000 then 92 :: 117 :: hexDigits 4 n
  else 92 :: 85 :: hexDigits 8 n

def reprQuote (text : PyStr) : Nat := if 39 ∈ text ∧ 34 ∉ text then 34 else 39

/-- `repr` of a string. -/
def repr (printable : Nat -> Bool) (text : PyStr) : PyStr :=
  let quote := reprQuote text
  quote :: text.flatMap (reprEscape printable quote) ++ [quote]

/-!
## Digits
-/

variable {quote n : Nat} {text tail : PyStr} {printable : Nat -> Bool}

theorem push_push (first second : PyStr) (read : Option (PyStr × PyStr)) :
    push first (push second read) = push (first ++ second) read := by
  cases read with
  | none => rfl
  | some parts => simp [push]

theorem hexValue_hexDigit (h : n < 16) : hexValue (hexDigit n) = some n := by
  unfold hexDigit
  split
  · have hrange : 48 ≤ 48 + n ∧ 48 + n ≤ 57 := by omega
    rw [hexValue, if_pos hrange, Nat.add_sub_cancel_left]
  · have hnot : ¬(48 ≤ 87 + n ∧ 87 + n ≤ 57) := by omega
    have hrange : 97 ≤ 87 + n ∧ 87 + n ≤ 102 := by omega
    rw [hexValue, if_neg hnot, if_pos hrange, Nat.add_sub_cancel_left]

theorem read_hexDigits (count : Nat) : forall value n,
    n < 16 ^ (count + 1) -> 16 ^ (count + 1) * value + n < codeLimit ->
    read quote (.hex (count + 1) value) (hexDigits (count + 1) n ++ tail) =
      push [16 ^ (count + 1) * value + n] (read quote .plain tail) := by
  induction count with
  | zero =>
      intro value n hn hlimit
      simp only [zero_add, pow_one] at hn hlimit
      have hdigit : n / 16 ^ 0 % 16 = n := by
        rw [pow_zero, Nat.div_one, Nat.mod_eq_of_lt hn]
      simp only [hexDigits, hdigit, List.cons_append, List.nil_append, read_hex,
        hexValue_hexDigit hn, Nat.lt_irrefl, if_false, hlimit, if_true]
      simp
  | succ count ih =>
      intro value n hn hlimit
      have hpos : 0 < 16 ^ (count + 1) := Nat.pow_pos (by decide)
      have htop : n / 16 ^ (count + 1) < 16 := by
        rw [Nat.div_lt_iff_lt_mul hpos, mul_comm]
        simpa [pow_succ] using hn
      have hsplit := Nat.div_add_mod n (16 ^ (count + 1))
      have hsum : 16 ^ (count + 1) * (16 * value + n / 16 ^ (count + 1)) +
          n % 16 ^ (count + 1) = 16 ^ (count + 1 + 1) * value + n := by
        rw [Nat.mul_add, Nat.add_assoc, hsplit]
        ring
      rw [hexDigits, Nat.mod_eq_of_lt htop, List.cons_append, read_hex, hexValue_hexDigit htop]
      have hmore : 1 < count + 1 + 1 := by omega
      simp only [hmore, if_true, Nat.add_sub_cancel]
      rw [ih _ _ (Nat.mod_lt _ hpos) (by rw [hsum]; exact hlimit), hsum]

/-!
## Escapes
-/

def ReadAs (quote : Nat) (written value : PyStr) : Prop :=
  forall tail, read quote .plain (written ++ tail) = push value (read quote .plain tail)

theorem ReadAs.nil : ReadAs quote [] [] := by
  intro tail
  cases h : read quote .plain tail <;> simp [push, h]

theorem ReadAs.append {first second value value' : PyStr} (hfirst : ReadAs quote first value)
    (hsecond : ReadAs quote second value') :
    ReadAs quote (first ++ second) (value ++ value') := by
  intro tail
  rw [List.append_assoc, hfirst, hsecond, push_push]

theorem ReadAs.flatMap {write value : Nat -> PyStr} {text : PyStr}
    (h : forall n, n ∈ text -> ReadAs quote (write n) (value n)) :
    ReadAs quote (text.flatMap write) (text.flatMap value) := by
  induction text with
  | nil => exact ReadAs.nil
  | cons n rest ih =>
      rw [List.flatMap_cons, List.flatMap_cons]
      exact (h n List.mem_cons_self).append (ih fun m hm => h m (List.mem_cons_of_mem _ hm))

theorem readAs_plain (hquote : n ≠ quote) (hline : n ≠ 10 ∧ n ≠ 13) (hslash : n ≠ 92) :
    ReadAs quote [n] [n] := by
  intro tail
  rw [List.singleton_append, read_plain, readPlain, if_neg hquote, if_neg (by tauto), if_neg hslash]

theorem readAs_short {c : Nat} (hquote : quote ≠ 92) (hoctal : octalValue c = none)
    (h : escapeOf c = .code n) : ReadAs quote [92, c] [n] := by
  intro tail
  rw [List.cons_append, List.cons_append, List.nil_append, read_plain, readPlain,
    if_neg (Ne.symm hquote), if_neg (by decide), if_pos rfl, read_escaped, hoctal]
  simp only [h]

theorem readAs_hex {c count : Nat} (hquote : quote ≠ 92) (hoctal : octalValue c = none)
    (h : escapeOf c = .hex (count + 1)) (hn : n < 16 ^ (count + 1))
    (hlimit : n < codeLimit) :
    ReadAs quote (92 :: c :: hexDigits (count + 1) n) [n] := by
  intro tail
  rw [List.cons_append, List.cons_append, read_plain, readPlain, if_neg (Ne.symm hquote),
    if_neg (by decide), if_pos rfl, read_escaped, hoctal]
  simp only [h]
  rw [read_hexDigits count 0 n hn (by simpa using hlimit)]
  simp

/-!
## JSON
-/

theorem units_lt (h : n < codeLimit) : forall u, u ∈ units n -> u < 0x10000 := by
  intro u hu
  unfold units at hu
  unfold codeLimit at h
  split at hu
  · rw [List.mem_singleton.mp hu]
    assumption
  · rcases List.mem_cons.mp hu with heq | hu
    · omega
    · rw [List.mem_singleton.mp hu]
      omega

theorem units_small (h : n < 0x10000) : units n = [n] := if_pos h

theorem readAs_jsonEscape (h : n < codeLimit) :
    ReadAs 34 (jsonEscape n) (units n) := by
  have hshort : forall c m, m < 0x10000 -> octalValue c = none -> escapeOf c = .code m ->
      ReadAs 34 [92, c] (units m) := by
    intro c m hm hoctal hescape
    rw [units_small hm]
    exact readAs_short (by decide) hoctal hescape
  unfold jsonEscape
  split
  · next hself =>
      rcases hself with rfl | rfl
      · exact hshort 34 34 (by decide) (by decide) (by decide)
      · exact hshort 92 92 (by decide) (by decide) (by decide)
  · next hself =>
      split
      · next heq => rw [heq]; exact hshort 98 8 (by decide) (by decide) (by decide)
      · split
        · next heq => rw [heq]; exact hshort 116 9 (by decide) (by decide) (by decide)
        · split
          · next heq => rw [heq]; exact hshort 110 10 (by decide) (by decide) (by decide)
          · split
            · next heq => rw [heq]; exact hshort 102 12 (by decide) (by decide) (by decide)
            · split
              · next heq => rw [heq]; exact hshort 114 13 (by decide) (by decide) (by decide)
              · split
                · rw [units_small (by omega)]
                  exact readAs_plain (by omega) (by omega) (by omega)
                · have heach : ReadAs 34 ((units n).flatMap jsonUnit)
                      ((units n).flatMap fun u => [u]) := by
                    refine ReadAs.flatMap fun u hu => ?_
                    have hu16 := units_lt h u hu
                    have hulimit : u < codeLimit := by
                      unfold codeLimit
                      omega
                    exact readAs_hex (by decide) (by decide) (by decide) hu16 hulimit
                  simpa using heach

theorem jsonEscape_head (n : Nat) : forall rest, jsonEscape n ≠ 34 :: rest := by
  intro rest
  unfold jsonEscape units jsonUnit
  repeat' split
  all_goals simp
  all_goals omega

theorem flatMap_head {write : Nat -> PyStr} (h : forall n rest, write n ≠ quote :: rest) :
    forall rest, text.flatMap write ≠ quote :: rest := by
  induction text with
  | nil => intro rest; simp
  | cons n more ih =>
      intro rest heq
      rw [List.flatMap_cons] at heq
      cases hwrite : write n with
      | nil =>
          rw [hwrite, List.nil_append] at heq
          exact ih rest heq
      | cons c written =>
          rw [hwrite, List.cons_append, List.cons.injEq] at heq
          exact h n written (by rw [hwrite, heq.left])

theorem readLiteral_written {written value : PyStr} (h : ReadAs quote written value)
    (hhead : forall rest, written ≠ quote :: rest) (htail : forall rest, tail ≠ quote :: rest) :
    readLiteral quote (written ++ quote :: tail) = some (value, tail) := by
  have hsingle : (written ++ quote :: tail).take 2 ≠ [quote, quote] := by
    cases written with
    | nil =>
        cases tail with
        | nil => simp
        | cons c rest =>
            intro heq
            have hc : c = quote := by simpa using heq
            exact htail rest (by rw [hc])
    | cons c rest =>
        intro heq
        have hc : c = quote := by
          rw [List.cons_append, List.take_succ_cons, List.cons.injEq] at heq
          exact heq.left
        exact hhead rest (by rw [hc])
  rw [readLiteral, if_neg hsingle, h, read_plain, readPlain, if_pos rfl]
  simp [push]

theorem readLiteral_json (htext : forall n, n ∈ text -> n < codeLimit)
    (htail : forall rest, tail ≠ 34 :: rest) :
    readLiteral 34 (text.flatMap jsonEscape ++ 34 :: tail) =
      some (text.flatMap units, tail) :=
  readLiteral_written (ReadAs.flatMap fun n hn => readAs_jsonEscape (htext n hn))
    (flatMap_head jsonEscape_head) htail

theorem readItems_blank (fuel : Nat) (text : PyStr) :
    readItems fuel (32 :: text) = readItems fuel text := by
  cases fuel with
  | zero => rfl
  | succ fuel => simp [readItems, skipBlanks]

theorem readItems_json (items : List PyStr)
    (hitems : forall text, text ∈ items -> forall n, n ∈ text -> n < codeLimit) :
    forall fuel, items.length < fuel ->
      readItems fuel (jsonItems items) = some (items.map fun text => text.flatMap units) := by
  induction items with
  | nil =>
      intro fuel hfuel
      cases fuel with
      | zero => cases hfuel
      | succ fuel => rfl
  | cons item rest ih =>
      intro fuel hfuel
      have hitem := hitems item List.mem_cons_self
      have hrest : forall text, text ∈ rest -> forall n, n ∈ text -> n < codeLimit :=
        fun text htext => hitems text (List.mem_cons_of_mem _ htext)
      cases fuel with
      | zero => cases hfuel
      | succ fuel =>
          cases rest with
          | nil =>
              have hread : readLiteral 34 (item.flatMap jsonEscape ++ [34, 93]) =
                  some (item.flatMap units, [93]) := readLiteral_json hitem (by simp)
              simp [readItems, jsonItems, jsonStr, skipBlanks, hread]
          | cons next more =>
              have hread : readLiteral 34 (item.flatMap jsonEscape ++
                  34 :: 44 :: 32 :: jsonItems (next :: more)) =
                    some (item.flatMap units, 44 :: 32 :: jsonItems (next :: more)) :=
                readLiteral_json hitem (by simp)
              have hmore := ih hrest fuel (by simpa using hfuel)
              simp [readItems, jsonItems, jsonStr, skipBlanks, hread, readItems_blank, hmore]

theorem length_jsonItems (items : List PyStr) :
    items.length ≤ (jsonItems items).length := by
  induction items with
  | nil => simp
  | cons item rest ih =>
      cases rest with
      | nil => simp [jsonItems, jsonStr]
      | cons next more =>
          simp only [jsonItems, List.length_append, List.length_cons] at ih ⊢
          omega

/-- What `json.dumps` writes for a list of strings is read by Python as the list of their
UTF-16 units. -/
theorem evalList_jsonList (items : List PyStr)
    (hitems : forall text, text ∈ items -> forall n, n ∈ text -> n < codeLimit) :
    evalList (jsonList items) = some (items.map fun text => text.flatMap units) := by
  have hfuel := length_jsonItems items
  rw [jsonList, evalList]
  exact readItems_json items hitems _ (by omega)

/-- The UTF-16 units of a text are its code points exactly where none is beyond 16 bits. -/
theorem flatMap_units_iff (text : PyStr) :
    text.flatMap units = text <-> forall n, n ∈ text -> n < 0x10000 := by
  constructor
  · intro heq n hn
    by_contra hlarge
    have hlonger : text.length < (text.flatMap units).length := by
      clear heq
      have hlength : forall m, 1 ≤ (units m).length := by
        intro m
        unfold units
        split <;> simp
      have hle : forall rest : PyStr, rest.length ≤ (rest.flatMap units).length := by
        intro rest
        induction rest with
        | nil => simp
        | cons m rest ih =>
            have hm := hlength m
            simp only [List.flatMap_cons, List.length_append, List.length_cons]
            omega
      rcases List.append_of_mem hn with ⟨front, back, rfl⟩
      have hfront := hle front
      have hback := hle back
      have hpair : (units n).length = 2 := by rw [units, if_neg hlarge]; rfl
      simp only [List.flatMap_append, List.flatMap_cons, List.length_append,
        List.length_cons, hpair]
      omega
    rw [heq] at hlonger
    exact Nat.lt_irrefl _ hlonger
  · intro hsmall
    induction text with
    | nil => rfl
    | cons n rest ih =>
        rw [List.flatMap_cons, units_small (hsmall n List.mem_cons_self),
          ih fun m hm => hsmall m (List.mem_cons_of_mem _ hm)]
        rfl

/-!
## `repr`
-/

theorem readAs_reprEscape (hquote : quote = 34 ∨ quote = 39) (h : n < codeLimit) :
    ReadAs quote (reprEscape printable quote n) [n] := by
  have hslash : quote ≠ 92 := by omega
  unfold reprEscape
  split
  · next hself =>
      refine readAs_short hslash ?_ ?_
      · rcases hself with rfl | rfl
        · rcases hquote with rfl | rfl <;> decide
        · decide
      · rcases hself with rfl | rfl
        · rcases hquote with rfl | rfl <;> decide
        · decide
  · next hself =>
      split
      · next heq => rw [heq]; exact readAs_short hslash (by decide) (by decide)
      · split
        · next heq => rw [heq]; exact readAs_short hslash (by decide) (by decide)
        · split
          · next heq => rw [heq]; exact readAs_short hslash (by decide) (by decide)
          · split
            · exact readAs_hex hslash (by decide) (by decide) (by omega) h
            · split
              · exact readAs_plain (by tauto) (by tauto) (by tauto)
              · split
                · exact readAs_hex hslash (by decide) (by decide) (by omega) h
                · split
                  · exact readAs_hex hslash (by decide) (by decide) (by omega) h
                  · refine readAs_hex hslash (by decide) (by decide) ?_ h
                    unfold codeLimit at h
                    omega

theorem reprEscape_head (hquote : quote = 34 ∨ quote = 39) (n : Nat) :
    forall rest, reprEscape printable quote n ≠ quote :: rest := by
  intro rest heq
  have hslash : quote ≠ 92 := by omega
  unfold reprEscape at heq
  split at heq
  · simp [hslash.symm] at heq
  · next hself =>
      have hn : n ≠ quote := by tauto
      repeat' split at heq
      all_goals simp [hslash.symm, hn] at heq

theorem evalStr_repr (htext : forall n, n ∈ text -> n < codeLimit) :
    evalStr (repr printable text) = some text := by
  have hquote : reprQuote text = 34 ∨ reprQuote text = 39 := by
    unfold reprQuote
    split <;> simp
  have hread : readLiteral (reprQuote text)
      (text.flatMap (reprEscape printable (reprQuote text)) ++ reprQuote text :: []) =
        some (text.flatMap fun n => [n], []) :=
    readLiteral_written (ReadAs.flatMap fun n hn => readAs_reprEscape hquote (htext n hn))
      (flatMap_head (reprEscape_head hquote)) (by simp)
  rw [repr, List.cons_append, evalStr, if_pos hquote, hread]
  simp

end PyLiteral
end Lib
end MightyColab
