import MightyColab.Lib.Substitution

/-!
# ANSI escapes in a stream

Escape sequences are taken out of a whole text by one substitution, and out of a text that
arrives in pieces by a reader that holds back a sequence that may go on in the next piece.
However the text is cut, both leave the same.
-/

namespace MightyColab
namespace Exec

open Lib Lib.Substitution

def escape : Char := '\x1b'

def paramChar (c : Char) : Bool := c.isDigit || c = ';'

/-!
## A whole text
-/

/-- `\x1b\[[0-9;]*[a-zA-Z]`, which is replaced by nothing. -/
def findAnsi : Pattern Char := fun _ text =>
  match text with
  | c :: bracket :: rest =>
      if c = escape ∧ bracket = '[' then
        match rest.dropWhile paramChar with
        | letter :: _ =>
            if letter.isAlpha then some ([], (rest.takeWhile paramChar).length + 2) else none
        | [] => none
      else none
  | _ => none

def stripAnsi (text : List Char) : List Char := sub id findAnsi none 0 text

/-!
## A stream
-/

/-- `$`: at the end, or before a line break that is the last character. -/
def atEnd (text : List Char) : Bool := text.isEmpty || text = ['\n']

/-- `\x1b(\[[0-9;]*)?$` matches at the beginning. -/
def partialHere : List Char -> Bool
  | [] => false
  | c :: rest =>
      c = escape && (atEnd rest ||
        match rest with
        | bracket :: params => bracket = '[' && atEnd (params.dropWhile paramChar)
        | [] => false)

/-- `_ANSI_PARTIAL_TAIL_RE.search`: what comes before the match, and the rest. -/
def searchPartial : List Char -> Option (List Char × List Char)
  | [] => none
  | c :: rest =>
      if partialHere (c :: rest) then some ([], c :: rest)
      else (searchPartial rest).map fun found => (c :: found.1, found.2)

/-- `feed`: what is pending afterwards, and the output. -/
def feed (pending chunk : List Char) (final : Bool) : List Char × List Char :=
  let combined := pending ++ chunk
  if final then ([], stripAnsi combined)
  else
    match searchPartial combined with
    | some (front, back) => (back, stripAnsi front)
    | none => ([], stripAnsi combined)

/-- What the stripper gives for the chunks one after the other, the last one with
`final=True`. -/
def feedChunks (pending : List Char) : List (List Char) -> List (List Char)
  | [] => []
  | [last] => [(feed pending last true).2]
  | chunk :: rest =>
      (feed pending chunk false).2 :: feedChunks (feed pending chunk false).1 rest

/-!
## Cutting a text
-/

variable {c : Char} {text rest tail front back : List Char}

def Unfinished : List Char -> Prop
  | [] => False
  | c :: rest => c = escape ∧
      (rest = [] ∨ exists params, rest = '[' :: params ∧ params.dropWhile paramChar = [])

theorem paramChar_escape : paramChar escape = false := by decide

theorem isAlpha_escape : escape.isAlpha = false := by decide

theorem findAnsi_fits {before : Option Char} {new : List Char} {more : Nat}
    (h : findAnsi before (c :: rest) = some (new, more)) : more ≤ rest.length := by
  cases rest with
  | nil => cases h
  | cons bracket rest =>
      rw [findAnsi] at h
      split at h
      · split at h
        · next letter after hdrop =>
            split at h
            · have hmore : (rest.takeWhile paramChar).length + 2 = more :=
                congrArg Prod.snd (Option.some.inj h)
              have hlength := congrArg List.length
                (List.takeWhile_append_dropWhile (p := paramChar) (l := rest))
              rw [hdrop, List.length_append, List.length_cons] at hlength
              rw [← hmore, List.length_cons]
              omega
            · cases h
        · cases h
      · cases h

theorem findAnsi_append {before : Option Char} (h : ¬ Unfinished (c :: rest)) (tail : List Char) :
    findAnsi before (c :: rest ++ tail) = findAnsi before (c :: rest) := by
  by_cases hc : c = escape
  · cases rest with
    | nil => exact absurd ⟨hc, Or.inl rfl⟩ h
    | cons bracket params =>
        by_cases hbracket : bracket = '['
        · have hends : params.dropWhile paramChar ≠ [] := by
            intro hnil
            exact h ⟨hc, Or.inr ⟨params, by rw [hbracket], hnil⟩⟩
          rw [List.cons_append, List.cons_append, findAnsi, findAnsi, if_pos ⟨hc, hbracket⟩,
            if_pos ⟨hc, hbracket⟩]
          have hdrop : (params ++ tail).dropWhile paramChar =
              params.dropWhile paramChar ++ tail := by
            rw [List.dropWhile_append, if_neg (by simpa using hends)]
          have htake : (params ++ tail).takeWhile paramChar = params.takeWhile paramChar := by
            rw [List.takeWhile_append, if_neg]
            intro hall
            apply hends
            rw [← List.length_eq_zero_iff]
            have hlength := congrArg List.length
              (List.takeWhile_append_dropWhile (p := paramChar) (l := params))
            rw [List.length_append] at hlength
            omega
          rw [hdrop, htake]
          cases hrest : params.dropWhile paramChar with
          | nil => exact absurd hrest hends
          | cons letter after => rfl
        · have hnot : ¬ (c = escape ∧ bracket = '[') := fun h => hbracket h.right
          rw [List.cons_append, List.cons_append, findAnsi, findAnsi, if_neg hnot, if_neg hnot]
  · have hnot : forall bracket, ¬ (c = escape ∧ bracket = '[') := fun _ h => hc h.left
    have hmiss : forall text, findAnsi before (c :: text) = none := by
      intro text
      cases text with
      | nil => rfl
      | cons bracket text => rw [findAnsi, if_neg (hnot bracket)]
    rw [List.cons_append, hmiss, hmiss]

theorem findAnsi_unfinished (h : Unfinished (c :: rest)) (before : Option Char)
    (back : List Char) :
    findAnsi before (c :: rest ++ escape :: back) = none ∧ findAnsi before (c :: rest) = none := by
  rcases h with ⟨hc, hnil | ⟨params, hparams, hall⟩⟩
  · rw [hnil]
    constructor
    · rw [List.cons_append, List.nil_append, findAnsi, if_neg]
      exact fun h => absurd h.right (by decide)
    · rfl
  · rw [hparams, List.cons_append, List.cons_append, findAnsi, findAnsi, if_pos ⟨hc, rfl⟩,
      if_pos ⟨hc, rfl⟩, List.dropWhile_append, hall]
    constructor
    · simp [paramChar_escape, isAlpha_escape]
    · rfl

theorem stripAnsi_append
    (hlocal : forall before front c rest, text = front ++ c :: rest ->
      findAnsi before (c :: rest ++ tail) = findAnsi before (c :: rest)) :
    stripAnsi (text ++ tail) = stripAnsi text ++ stripAnsi tail := by
  unfold stripAnsi
  rw [sub_append hlocal (fun _ _ _ _ _ => findAnsi_fits) (Nat.zero_le _)]
  exact congrArg _ (sub_before (fun _ _ _ => rfl) _ none 0 tail)

theorem stripAnsi_escape (text back : List Char) :
    stripAnsi (text ++ escape :: back) = stripAnsi text ++ stripAnsi (escape :: back) := by
  refine stripAnsi_append ?_
  intro before front c rest _
  by_cases hopen : Unfinished (c :: rest)
  · rcases findAnsi_unfinished hopen before back with ⟨hlong, hshort⟩
    rw [hlong, hshort]
  · exact findAnsi_append hopen _

theorem stripAnsi_finished
    (h : forall front c rest, text = front ++ c :: rest -> ¬ Unfinished (c :: rest))
    (tail : List Char) : stripAnsi (text ++ tail) = stripAnsi text ++ stripAnsi tail :=
  stripAnsi_append fun _ front c rest heq => findAnsi_append (h front c rest heq) tail

/-!
## What the search finds
-/

theorem atEnd_nil : atEnd [] = true := rfl

theorem partialHere_unfinished (h : Unfinished (c :: rest)) : partialHere (c :: rest) = true := by
  rcases h with ⟨hc, hnil | ⟨params, hparams, hall⟩⟩
  · rw [hc, hnil]
    rfl
  · rw [hc, hparams, partialHere, hall]
    simp [atEnd_nil]

theorem partialHere_escape (h : partialHere (c :: rest) = true) : c = escape := by
  unfold partialHere at h
  rw [Bool.and_eq_true, decide_eq_true_eq] at h
  exact h.left

theorem searchPartial_some (h : searchPartial text = some (front, back)) :
    text = front ++ back ∧ exists rest, back = escape :: rest := by
  induction text generalizing front with
  | nil => cases h
  | cons c rest ih =>
      rw [searchPartial] at h
      split at h
      · next hhere =>
          cases h
          exact ⟨rfl, rest, by rw [partialHere_escape hhere]⟩
      · rcases Option.map_eq_some_iff.mp h with ⟨found, hfound, heq⟩
        cases heq
        rcases ih hfound with ⟨htext, hback⟩
        exact ⟨by rw [htext]; rfl, hback⟩

theorem searchPartial_none (h : searchPartial text = none) :
    forall front c rest, text = front ++ c :: rest -> ¬ Unfinished (c :: rest) := by
  induction text with
  | nil =>
      intro front c rest heq
      cases front <;> cases heq
  | cons d more ih =>
      rw [searchPartial] at h
      split at h
      · cases h
      · next hhere =>
          intro front c rest heq hopen
          cases front with
          | nil =>
              rw [List.nil_append] at heq
              rw [heq] at hhere
              exact hhere (partialHere_unfinished hopen)
          | cons e front =>
              exact ih (Option.map_eq_none_iff.mp h) front c rest (List.cons.inj heq).right hopen

/-!
## The whole stream
-/

theorem feed_strip (pending chunk tail : List Char) :
    (feed pending chunk false).2 ++ stripAnsi ((feed pending chunk false).1 ++ tail) =
      stripAnsi (pending ++ chunk ++ tail) := by
  unfold feed
  simp only [Bool.false_eq_true, if_false]
  cases hsearch : searchPartial (pending ++ chunk) with
  | some found =>
      rcases found with ⟨front, back⟩
      rcases searchPartial_some hsearch with ⟨htext, rest, hback⟩
      simp only
      rw [htext, hback, List.append_assoc, List.cons_append, stripAnsi_escape]
  | none =>
      simp only
      rw [stripAnsi_finished (searchPartial_none hsearch), List.nil_append]

theorem feedChunks_strip {chunks : List (List Char)} (hne : chunks ≠ []) :
    forall pending, (feedChunks pending chunks).flatten = stripAnsi (pending ++ chunks.flatten) := by
  induction chunks with
  | nil => exact absurd rfl hne
  | cons chunk rest ih =>
      intro pending
      cases rest with
      | nil =>
          rw [feedChunks, List.flatten_cons, List.flatten_nil, List.append_nil, List.flatten_cons,
            List.flatten_nil, List.append_nil]
          rfl
      | cons next rest =>
          rw [List.flatten_cons, ← List.append_assoc, ← feed_strip,
            ← ih (List.cons_ne_nil next rest)]
          rfl

/-- The outputs for the chunks of a text, put together, are the stripped text. -/
theorem stream_strips_whole (chunks : List (List Char)) :
    (feedChunks [] chunks).flatten = stripAnsi chunks.flatten := by
  cases chunks with
  | nil => rfl
  | cons chunk rest => exact feedChunks_strip (List.cons_ne_nil chunk rest) []

/-- A sequence that is cut before its letter, and one that is held back with a line break. -/
example : feedChunks [] ["a\x1b[0;3".toList, "1mb\x1b\n".toList, "c".toList] =
    ["a".toList, "b".toList, "\x1b\nc".toList] := by
  decide

end Exec
end MightyColab
