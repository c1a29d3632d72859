import MightyColab.Job.RedactionSteps

/-!
# What redaction removes

Redacting twice is redacting once: what one redaction leaves has no query and no user name
that the patterns find.
-/

namespace MightyColab
namespace Job

open Lib

namespace Redaction

variable {words : Words}

/-!
## Redacting twice
-/

/-- Each user name that `_USERINFO` finds is the stars. -/
def Settled (words : Words) (x : Context) : List Char -> Prop
  | [] => True
  | c :: rest =>
      (x.user = .first -> userChar c = true -> closes plain rest = true ->
        "***@".toList <+: c :: rest) ∧ Settled words (x.step words c) rest

def Quiet (x : Context) (text : List Char) : Prop := ¬ (x.user = .more ∧ closes plain text = true)

theorem step_first {x : Context} {c : Char} (h : (x.step words c).user = .first) : c = '/' :=
  (step_first_iff.mp h).left

/-- Past an item that begins no user name, none is being read that comes to an end. -/
theorem Quiet.step {x : Context} {c : Char} {rest : List Char} (h : Quiet x (c :: rest))
    (hfirst : ¬ (x.user = .first ∧ userChar c = true ∧ closes plain rest = true)) :
    Quiet (x.step words c) rest := by
  rintro ⟨hmore, hcloses⟩
  rcases step_more hmore with ⟨hchar, huser⟩
  cases hx : x.user with
  | outside => exact huser hx
  | first => exact hfirst ⟨hx, hchar, hcloses⟩
  | more =>
      refine h ⟨hx, ?_⟩
      rw [closes]
      exact (if_pos hchar).trans hcloses

theorem Quiet.kept {x : Context} {c : Char} {rest : List Char} (h : Quiet x (c :: rest))
    (hfirst : ¬ (x.user = .first ∧ userChar c = true ∧ closes plain rest = true)) :
    kept plain x c rest = [c] := by
  unfold Redaction.kept
  rw [if_neg]
  rintro ⟨huser, hchar, hcloses⟩
  cases hx : x.user with
  | outside => exact huser hx
  | first => exact hfirst ⟨hx, hchar, hcloses⟩
  | more =>
      refine h ⟨hx, ?_⟩
      rw [closes]
      exact (if_pos hchar).trans hcloses

theorem quiet_start (text : List Char) : Quiet {} text := by
  rintro ⟨h, _⟩
  cases h

theorem settled_stars {x : Context} {after : List Char} :
    Settled words x ("***@".toList ++ after) <-> Settled words {} after := by
  have hstep : ((((x.step words '*').step words '*').step words '*').step words '@') = {} :=
    step_close _
  have hnot : forall (y : Context) (c : Char), c ≠ '/' -> (y.step words c).user ≠ .first :=
    fun y c hc hfirst => hc (step_first hfirst)
  show Settled words x ('*' :: '*' :: '*' :: '@' :: after) <-> _
  simp only [Settled, hstep]
  constructor
  · rintro ⟨_, _, _, _, h⟩
    exact h
  · intro h
    exact ⟨fun _ _ _ => ⟨after, rfl⟩, fun hf => absurd hf (hnot _ _ (by decide)),
      fun hf => absurd hf (hnot _ _ (by decide)), fun hf => absurd hf (hnot _ _ (by decide)), h⟩

theorem userOut_stars {x : Context} {after : List Char} (hx : x.user = .first) :
    userOut plain words x ("***@".toList ++ after) =
      "***@".toList ++ userOut plain words {} after := by
  have hchars : forall a, a ∈ "***".toList -> userChar (plain.glyph a) = true := by
    have hall : "***".toList.all userChar = true := by decide
    exact List.all_eq_true.mp hall
  have hout : userOut plain words x ("***".toList ++ '@' :: after) =
      plain.write "***" ++ '@' :: userOut plain words {} after :=
    userOut_first hx (by decide) hchars rfl
  exact hout

theorem userOut_settled : forall (n : Nat) (text : List Char) (x : Context), text.length ≤ n ->
    Settled words x text -> Quiet x text -> userOut plain words x text = text := by
  intro n
  induction n with
  | zero =>
      intro text x hlength _ _
      rw [List.length_eq_zero_iff.mp (Nat.le_zero.mp hlength)]
      rfl
  | succ n ih =>
      intro text x hlength hsettled hquiet
      cases text with
      | nil => rfl
      | cons c rest =>
          by_cases hfirst : x.user = .first ∧ userChar c = true ∧ closes plain rest = true
          · rcases hsettled.left hfirst.left hfirst.right.left hfirst.right.right with
              ⟨after, hafter⟩
            rw [← hafter] at hsettled hlength ⊢
            rw [List.length_append] at hlength
            have hstars : "***@".toList.length = 4 := by decide
            rw [userOut_stars hfirst.left,
              ih after {} (by omega) (settled_stars.mp hsettled) (quiet_start after)]
          · rw [List.length_cons] at hlength
            rw [userOut, hquiet.kept hfirst,
              ih rest (x.step words (plain.glyph c)) (by omega) hsettled.right
                (hquiet.step hfirst)]
            rfl

theorem closes_userOut {x : Context} {text : List Char} (h : closes plain text = false) :
    closes plain (userOut plain words x text) = false := by
  induction text generalizing x with
  | nil => rfl
  | cons c rest ih =>
      rw [closes] at h
      split at h
      · next hchar =>
          rw [userOut, kept_unclosed h, List.singleton_append, closes, if_pos hchar, ih h]
      · next hchar =>
          rw [userOut, kept_plain (Bool.eq_false_iff.mpr hchar), List.singleton_append, closes,
            if_neg hchar, h]

theorem settled_userOut : forall (n : Nat) (text : List Char) (x : Context), text.length ≤ n ->
    Quiet x text -> Settled words x (userOut plain words x text) := by
  intro n
  induction n with
  | zero =>
      intro text x hlength _
      rw [List.length_eq_zero_iff.mp (Nat.le_zero.mp hlength)]
      exact trivial
  | succ n ih =>
      intro text x hlength hquiet
      cases text with
      | nil => exact trivial
      | cons c rest =>
          by_cases hfirst : x.user = .first ∧ userChar c = true ∧ closes plain rest = true
          · rcases hfirst with ⟨hx, hchar, hcloses⟩
            rcases closes_shape hcloses with ⟨user, close, after, rfl, hall, hclose⟩
            have hout : userOut plain words x (c :: (user ++ close :: after)) =
                plain.write "***" ++ close :: userOut plain words {} after :=
              userOut_first hx (List.cons_ne_nil c user)
                (List.forall_mem_cons.mpr ⟨hchar, hall⟩) hclose
            have hclose' : close = '@' := hclose
            rw [hout, hclose']
            refine settled_stars.mpr (ih after {} ?_ (quiet_start after))
            simp only [List.length_cons, List.length_append] at hlength
            omega
          · rw [List.length_cons] at hlength
            rw [userOut, hquiet.kept hfirst]
            refine ⟨fun hx hchar hcloses => ?_,
              ih rest (x.step words c) (by omega) (hquiet.step hfirst)⟩
            cases hrest : closes plain rest with
            | true => exact absurd ⟨hx, hchar, hrest⟩ hfirst
            | false =>
                have hfalse : closes plain (userOut plain words (x.step words c) rest) = false :=
                  closes_userOut hrest
                exact absurd (hfalse.symm.trans hcloses) Bool.false_ne_true

/-!
### Across queries that go
-/

theorem queryChar_of_schemeChar {c : Char} (h : schemeChar c = true) : queryChar c = true := by
  have huser := userChar_of_schemeChar h
  have hranges := schemeChar_ranges h
  have hcomma : c ≠ ',' := by
    rintro rfl
    revert hranges
    decide
  have hbracket : c ≠ ')' := by
    rintro rfl
    revert hranges
    decide
  unfold userChar at huser
  simp only [Bool.and_eq_true] at huser
  unfold queryChar
  rw [huser.left.left, bne_iff_ne.mpr hcomma, bne_iff_ne.mpr hbracket]
  rfl

theorem step_bracket (x : Context) : x.step words '>' = {} := by
  have hword : words.word '>' = false := (words.word_ascii '>' (by decide)).trans (by decide)
  unfold Context.step
  rw [hword, if_neg (by rintro ⟨h, _⟩; revert h; decide),
    if_neg (by rintro ⟨h, _⟩; revert h; decide), if_neg (by rintro ⟨h, _⟩; revert h; decide),
    if_neg (by rintro ⟨h, _⟩; revert h; decide), if_neg (by rintro ⟨h, _⟩; revert h; decide)]

theorem settled_mark {x : Context} {after : List Char} (h : Settled words {} after) :
    Settled words x ("<redacted>".toList ++ after) := by
  have hnot : forall (y : Context) (c : Char), c ≠ '/' -> (y.step words c).user ≠ .first :=
    fun y c hc hfirst => hc (step_first hfirst)
  show Settled words x ('<' :: 'r' :: 'e' :: 'd' :: 'a' :: 'c' :: 't' :: 'e' :: 'd' :: '>' :: after)
  simp only [Settled, step_bracket]
  have hbracket : ¬ userChar '<' = true := by decide
  refine ⟨fun _ hchar => absurd hchar hbracket, ?_, ?_, ?_, ?_, ?_, ?_, ?_, ?_, ?_, h⟩
  all_goals exact fun hf => absurd hf (hnot _ _ (by decide))

structure Behind (y x : Context) : Prop where
  word : y.word = x.word
  scheme : y.scheme = x.scheme
  user : y.user = x.user ∨ y.user = .outside

theorem Behind.step {x y : Context} (h : Behind y x) (c : Char) :
    Behind (y.step words c) (x.step words c) where
  word := rfl
  scheme := by
    unfold Context.step
    simp only
    rw [h.word, h.scheme]
  user := by
    unfold Context.step
    simp only
    rw [h.scheme]
    rcases h.user with huser | huser
    · rw [huser]
      exact Or.inl rfl
    · rw [huser]
      split
      · exact Or.inl rfl
      · exact Or.inr (if_neg fun hnot => hnot.right rfl)

theorem Behind.leave {x : Context} {c : Char} (h : queryChar c = false) :
    Behind (({} : Context).step words c) (x.step words c) where
  word := rfl
  scheme := by
    have hscheme : ¬ schemeChar c = true := by
      intro hscheme
      rw [queryChar_of_schemeChar hscheme] at h
      cases h
    have hcolon : c ≠ ':' := by
      rintro rfl
      revert h
      decide
    have hslash : c ≠ '/' := by
      rintro rfl
      revert h
      decide
    unfold Context.step
    simp only
    rw [if_neg (fun h => hscheme h.left), if_neg (fun h => hcolon h.left),
      if_neg (fun h => hslash h.left), if_neg (fun h => hscheme h.left),
      if_neg (fun h => hcolon h.left), if_neg (fun h => hslash h.left)]
  user := by
    right
    unfold Context.step
    simp only
    rw [if_neg (by rintro ⟨_, h⟩; cases h), if_neg fun hnot => hnot.right rfl]

theorem closes_queryOut {text : List Char} (h : closes plain (queryOut plain false text) = true) :
    closes plain text = true := by
  induction text with
  | nil => exact h
  | cons c rest ih =>
      by_cases hbegins : plain.glyph c = '?' ∧ Assigned plain rest = true
      · rw [queryOut_begins hbegins.left hbegins.right] at h
        have hquestion : c = '?' := hbegins.left
        rw [hquestion] at h
        cases h
      · rw [queryOut_keeps hbegins, closes] at h
        rw [closes]
        split
        · next hchar => exact ih (by rwa [if_pos hchar] at h)
        · next hchar => rwa [if_neg hchar] at h

theorem settled_queryOut {text : List Char} : forall {x : Context}, Settled words x text ->
    Settled words {} (queryOut plain true text) ∧
      forall y, Behind y x -> Settled words y (queryOut plain false text) := by
  induction text with
  | nil => exact fun _ => ⟨trivial, fun _ _ => trivial⟩
  | cons c rest ih =>
      intro x hsettled
      rcases ih hsettled.right with ⟨hinside, houtside⟩
      constructor
      · cases hchar : queryChar c with
        | true =>
            rw [queryOut_inside (show queryChar (plain.glyph c) = true from hchar)]
            exact hinside
        | false =>
            rw [queryOut_outside (show queryChar (plain.glyph c) = false from hchar)]
            exact ⟨nofun, houtside _ (Behind.leave hchar)⟩
      · intro y hbehind
        by_cases hbegins : plain.glyph c = '?' ∧ Assigned plain rest = true
        · rw [queryOut_begins hbegins.left hbegins.right]
          refine ⟨fun _ _ hcloses => ?_, settled_mark hinside⟩
          cases hcloses
        · rw [queryOut_keeps hbegins]
          refine ⟨fun hfirst hchar hcloses => ?_, houtside _ (hbehind.step c)⟩
          have hx : x.user = .first := by
            rcases hbehind.user with huser | huser
            · exact huser.symm.trans hfirst
            · rw [huser] at hfirst
              cases hfirst
          rcases hsettled.left hx hchar (closes_queryOut hcloses) with ⟨after, hafter⟩
          have hcons : '*' :: '*' :: '*' :: '@' :: after = c :: rest := hafter
          cases hcons
          have hkeep : forall (d : Char) (more : List Char), d ≠ '?' ->
              queryOut plain false (d :: more) = d :: queryOut plain false more :=
            fun d more hd => queryOut_keeps fun h => hd h.left
          rw [hkeep _ _ (by decide), hkeep _ _ (by decide), hkeep _ _ (by decide)]
          exact ⟨queryOut plain false after, rfl⟩

/-!
### Queries that are left
-/

def Tidy : List Char -> Prop
  | [] => True
  | c :: rest => ¬ (c = '?' ∧ Assigned plain rest = true) ∧ Tidy rest

theorem assigned_queryOut {text : List Char}
    (h : Assigned plain (queryOut plain false text) = true) : Assigned plain text = true := by
  induction text with
  | nil => exact h
  | cons c rest ih =>
      by_cases hbegins : plain.glyph c = '?' ∧ Assigned plain rest = true
      · have hquestion : c = '?' := hbegins.left
        exact assigned_cons.mpr ⟨by rw [hquestion]; decide, Or.inr hbegins.right⟩
      · rw [queryOut_keeps hbegins] at h
        rcases assigned_cons.mp h with ⟨hchar, heq | hrest⟩
        · exact assigned_cons.mpr ⟨hchar, Or.inl heq⟩
        · exact assigned_cons.mpr ⟨hchar, Or.inr (ih hrest)⟩

theorem tidy_append {first rest : List Char} (hfirst : '?' ∉ first) (hrest : Tidy rest) :
    Tidy (first ++ rest) := by
  induction first with
  | nil => exact hrest
  | cons c first ih =>
      rw [List.mem_cons, not_or] at hfirst
      exact ⟨fun h => hfirst.left h.left.symm, ih hfirst.right⟩

theorem tidy_queryOut (text : List Char) : forall inside, Tidy (queryOut plain inside text) := by
  induction text with
  | nil => exact fun _ => trivial
  | cons c rest ih =>
      have houtside : Tidy (queryOut plain false (c :: rest)) := by
        by_cases hbegins : plain.glyph c = '?' ∧ Assigned plain rest = true
        · rw [queryOut_begins hbegins.left hbegins.right]
          refine ⟨fun h => ?_, tidy_append (by decide) (ih true)⟩
          have hassigned := h.right
          cases hassigned
        · rw [queryOut_keeps hbegins]
          exact ⟨fun h => hbegins ⟨h.left, assigned_queryOut h.right⟩, ih false⟩
      intro inside
      cases inside with
      | false => exact houtside
      | true =>
          cases hchar : queryChar c with
          | true =>
              rw [queryOut_inside (show queryChar (plain.glyph c) = true from hchar)]
              exact ih true
          | false =>
              have hplain : queryChar (plain.glyph c) = false := hchar
              rw [queryOut_outside hplain, ← queryOut_outside hplain false]
              exact houtside

theorem queryOut_tidy {text : List Char} (h : Tidy text) : queryOut plain false text = text := by
  induction text with
  | nil => rfl
  | cons c rest ih => rw [queryOut_keeps h.left, ih h.right]

theorem redact_redact (words : Words) (text : List Char) :
    redact plain words (redact plain words text) = redact plain words text := by
  have hsettled : Settled words {} (userOut plain words {} text) :=
    settled_userOut text.length text {} (Nat.le_refl _) (quiet_start text)
  have hsettled' := (settled_queryOut hsettled).right {} ⟨rfl, rfl, Or.inl rfl⟩
  rw [redact_eq text, redact_eq, userOut_settled _ _ {} (Nat.le_refl _) hsettled' (quiet_start _),
    queryOut_tidy (tidy_queryOut _ false)]

end Redaction
end Job
end MightyColab
