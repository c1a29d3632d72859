import Mathlib.Data.List.Basic

/-!
# Substitution

`re.sub` for a pattern that has one match at most at each place of a text. A pattern sees
the character before the place, for word boundaries, and the text from there on. The text
is a list of anything that carries a character, so that its parts can be followed.
-/

namespace MightyColab
namespace Lib
namespace Substitution

variable {alpha beta : Type}

/-- What a pattern finds at a place: the text to put there, and how many items after the
first belong to the match. -/
abbrev Pattern (alpha : Type) : Type := Option Char -> List alpha -> Option (List alpha × Nat)

/-- All matches from left to right; `skip` items still belong to the last one. -/
def sub (glyph : alpha -> Char) (find : Pattern alpha) (before : Option Char) (skip : Nat) :
    List alpha -> List alpha
  | [] => []
  | c :: rest =>
      match skip with
      | skip + 1 => sub glyph find (some (glyph c)) skip rest
      | 0 =>
          match find before (c :: rest) with
          | some (new, more) => new ++ sub glyph find (some (glyph c)) more rest
          | none => c :: sub glyph find (some (glyph c)) 0 rest

variable {glyph : alpha -> Char} {find : Pattern alpha} {before : Option Char} {c : alpha}
  {rest new : List alpha} {more : Nat}

theorem sub_miss (h : find before (c :: rest) = none) :
    sub glyph find before 0 (c :: rest) = c :: sub glyph find (some (glyph c)) 0 rest := by
  rw [sub, h]

theorem sub_match (h : find before (c :: rest) = some (new, more)) :
    sub glyph find before 0 (c :: rest) = new ++ sub glyph find (some (glyph c)) more rest := by
  rw [sub, h]

theorem sub_skip (skipped rest : List alpha) (last : alpha) :
    sub glyph find before (skipped ++ [last]).length (skipped ++ last :: rest) =
      sub glyph find (some (glyph last)) 0 rest := by
  induction skipped generalizing before with
  | nil => rfl
  | cons c skipped ih => exact ih

def lastGlyph (glyph : alpha -> Char) (before : Option Char) (part : List alpha) : Option Char :=
  part.foldl (fun _ c => some (glyph c)) before

/-- A text is substituted part by part where no match starts in the first part and needs the
second one to be told. -/
theorem sub_append {part tail : List alpha}
    (hlocal : forall before front c rest, part = front ++ c :: rest ->
      find before (c :: rest ++ tail) = find before (c :: rest))
    (hfits : forall before c rest new more, find before (c :: rest) = some (new, more) ->
      more ≤ rest.length)
    {skip : Nat} (hskip : skip ≤ part.length) :
    sub glyph find before skip (part ++ tail) =
      sub glyph find before skip part ++ sub glyph find (lastGlyph glyph before part) 0 tail := by
  induction part generalizing before skip with
  | nil =>
      have hzero : skip = 0 := Nat.le_zero.mp hskip
      rw [hzero]
      rfl
  | cons c rest ih =>
      have hrest : forall {before : Option Char} {skip : Nat}, skip ≤ rest.length ->
          sub glyph find before skip (rest ++ tail) =
            sub glyph find before skip rest ++
              sub glyph find (lastGlyph glyph before rest) 0 tail :=
        fun hle => ih (fun before front d more h => hlocal before (c :: front) d more (by rw [h]; rfl))
          hle
      cases skip with
      | succ skip => exact hrest (Nat.le_of_succ_le_succ hskip)
      | zero =>
          have hhere := hlocal before [] c rest rfl
          rw [List.cons_append] at hhere ⊢
          cases hmatch : find before (c :: rest) with
          | none =>
              rw [hmatch] at hhere
              rw [sub_miss hhere, sub_miss hmatch, hrest (Nat.zero_le _)]
              rfl
          | some found =>
              rcases found with ⟨new, more⟩
              rw [hmatch] at hhere
              rw [sub_match hhere, sub_match hmatch, hrest (hfits before c rest new more hmatch),
                List.append_assoc]
              rfl

theorem sub_before (hback : forall before before' text, find before text = find before' text)
    (before before' : Option Char) (skip : Nat) (text : List alpha) :
    sub glyph find before skip text = sub glyph find before' skip text := by
  cases text with
  | nil => rfl
  | cons c rest =>
      cases skip with
      | succ skip => rfl
      | zero => rw [sub, sub, hback before before']

end Substitution
end Lib
end MightyColab
