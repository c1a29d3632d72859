import MightyColab.Job.Redaction
import Mathlib.Data.List.Induction

/-!
# Redaction, item by item

The two substitutions as readers that go over the text once. What becomes of an item depends
on what has been read before it and on what comes after it up to the next character that no
user name, or no query, may have.
-/

namespace MightyColab
namespace Job

open Lib

namespace Redaction

variable {alpha : Type} (k : Carrier alpha) (words : Words)

/-!
## User names, item by item
-/

/-- How far a scheme with `://` has been read. -/
inductive SchemeRead where
  | idle | scheme | colon | slash
  deriving DecidableEq, Repr

/-- How far a user name has been read: from the `://` on. -/
inductive UserRead where
  | outside | first | more
  deriving DecidableEq, Repr

structure Context where
  /-- The character before is one of a word. -/
  word : Bool := false
  scheme : SchemeRead := .idle
  user : UserRead := .outside
  deriving DecidableEq, Repr

def Context.step (x : Context) (c : Char) : Context where
  word := words.word c
  scheme :=
    if schemeChar c = true ∧ (x.scheme = .scheme ∨ (schemeStart c = true ∧ x.word = false)) then
      .scheme
    else if c = ':' ∧ x.scheme = .scheme then .colon
    else if c = '/' ∧ x.scheme = .colon then .slash
    else .idle
  user :=
    if c = '/' ∧ x.scheme = .slash then .first
    else if userChar c = true ∧ x.user ≠ .outside then .more
    else .outside

/-- An `@` ends the characters of a user name that come here. -/
def closes : List alpha -> Bool
  | [] => false
  | c :: rest => if userChar (k.glyph c) then closes rest else k.glyph c = '@'

def kept (x : Context) (c : alpha) (rest : List alpha) : List alpha :=
  if x.user ≠ .outside ∧ userChar (k.glyph c) = true ∧ closes k rest = true then
    if x.user = .first then k.write "***" else []
  else [c]

def userOut (x : Context) : List alpha -> List alpha
  | [] => []
  | c :: rest => kept k x c rest ++ userOut (x.step words (k.glyph c)) rest

def Context.steps (x : Context) (text : List alpha) : Context :=
  text.foldl (fun x c => x.step words (k.glyph c)) x

/-- A user name and its `@` come here. -/
def Named : List alpha -> Prop
  | [] => False
  | c :: rest => userChar (k.glyph c) = true ∧ closes k rest = true

def Completes : SchemeRead -> List alpha -> Prop
  | _, [] => False
  | .idle, _ => False
  | .scheme, c :: rest =>
      if schemeChar (k.glyph c) then Completes .scheme rest
      else k.glyph c = ':' ∧ Completes .colon rest
  | .colon, c :: rest => k.glyph c = '/' ∧ Completes .slash rest
  | .slash, c :: rest => k.glyph c = '/' ∧ Named k rest

def Pending (x : Context) (text : List alpha) : Prop :=
  Completes k x.scheme text ∨ (x.user = .first ∧ Named k text) ∨
    (x.user = .more ∧ closes k text = true)

variable {k words} {x : Context} {c : alpha} {rest text tail : List alpha}

theorem kept_pending (h : ¬ Pending k x (c :: rest)) : kept k x c rest = [c] := by
  unfold kept
  rw [if_neg]
  rintro ⟨huser, hchar, hcloses⟩
  refine h (Or.inr ?_)
  cases hx : x.user with
  | outside => exact absurd hx huser
  | first => exact Or.inl ⟨rfl, hchar, hcloses⟩
  | more => exact Or.inr ⟨rfl, by rw [closes, if_pos hchar, hcloses]⟩

/-!
### What the two patterns find
-/

theorem closes_append (hall : forall a, a ∈ text -> userChar (k.glyph a) = true) :
    closes k (text ++ rest) = closes k rest := by
  induction text with
  | nil => rfl
  | cons c text ih =>
      rw [List.cons_append, closes, if_pos (hall c (List.mem_cons_self)),
        ih fun a ha => hall a (List.mem_cons_of_mem c ha)]

theorem closes_shape (h : closes k text = true) :
    exists user close after, text = user ++ close :: after ∧
      (forall a, a ∈ user -> userChar (k.glyph a) = true) ∧ k.glyph close = '@' := by
  induction text with
  | nil => cases h
  | cons c rest ih =>
      rw [closes] at h
      split at h
      · next hchar =>
          rcases ih h with ⟨user, close, after, rfl, hall, hclose⟩
          exact ⟨c :: user, close, after, rfl, List.forall_mem_cons.mpr ⟨hchar, hall⟩, hclose⟩
      · exact ⟨[], c, rest, rfl, nofun, of_decide_eq_true h⟩

/-- `://`, a user name and its `@`. -/
structure Authority (k : Carrier alpha) (text : List alpha) where
  colon : alpha
  slash : alpha
  second : alpha
  user : List alpha
  close : alpha
  after : List alpha
  text_eq : text = colon :: slash :: second :: (user ++ close :: after)
  mark : [colon, slash, second].map k.glyph = [':', '/', '/']
  user_ne : user ≠ []
  user_chars : forall a, a ∈ user -> userChar (k.glyph a) = true
  close_glyph : k.glyph close = '@'

theorem not_userChar_close {close : alpha} (h : k.glyph close = '@') :
    userChar (k.glyph close) = false := by
  rw [h]
  decide

theorem findAuthority_shape {mark user : List alpha} {close : alpha}
    (h : findAuthority k text = some (mark, user, close)) :
    exists a : Authority k text,
      mark = [a.colon, a.slash, a.second] ∧ user = a.user ∧ close = a.close := by
  unfold findAuthority at h
  split at h
  · next colon slash second rest =>
      split at h
      · cases h
      · next last after hafter =>
          split at h
          · next hfound =>
              rcases hfound with ⟨hmark, huser, hclose⟩
              cases h
              refine ⟨⟨colon, slash, second, _, close, after, ?_, hmark, huser,
                fun a => k.mem_run, hclose⟩, rfl, rfl, rfl⟩
              rw [← hafter, k.run_append_afterRun]
          · cases h
  · cases h

theorem findAuthority_of (a : Authority k text) :
    findAuthority k text = some ([a.colon, a.slash, a.second], a.user, a.close) := by
  rcases a with ⟨colon, slash, second, user, close, after, rfl, hmark, huser, hchars, hclose⟩
  have hstop := not_userChar_close hclose
  unfold findAuthority
  simp only
  rw [Carrier.afterRun_append hchars hstop]
  simp only
  rw [Carrier.run_append hchars hstop, if_pos ⟨hmark, huser, hclose⟩]

theorem completes_shape (h : Completes k .scheme text) :
    Nonempty (Authority k (k.afterRun schemeChar text)) := by
  induction text with
  | nil => cases h
  | cons c rest ih =>
      rw [Completes] at h
      split at h
      · next hscheme =>
          rw [Carrier.afterRun_pos hscheme]
          exact ih h
      · next hscheme =>
          rw [Carrier.afterRun_neg hscheme]
          rcases h with ⟨hcolon, h⟩
          match rest, h with
          | [slash, second], ⟨_, _, h⟩ => cases h
          | slash :: second :: first :: rest, ⟨hslash, hsecond, hfirst, hcloses⟩ =>
              rcases closes_shape hcloses with ⟨user, close, after, rfl, hall, hclose⟩
              exact ⟨⟨c, slash, second, first :: user, close, after, rfl,
                by simp [hcolon, hslash, hsecond], nofun,
                List.forall_mem_cons.mpr ⟨hfirst, hall⟩, hclose⟩⟩

theorem findUser_some {before : Option Char} {new : List alpha} {more : Nat}
    (h : findUser k words before (c :: rest) = some (new, more)) :
    exists (a : Authority k (k.afterRun schemeChar rest)) (skipped : List alpha),
      schemeStart (k.glyph c) = true ∧ before.any words.word = false ∧
      rest = skipped ++ a.close :: a.after ∧ more = (skipped ++ [a.close]).length ∧
      new = c :: k.run schemeChar rest ++ [a.colon, a.slash, a.second] ++ k.write "***" ++
        [a.close] := by
  unfold findUser at h
  simp only at h
  split at h
  · next hstart =>
      rcases Option.map_eq_some_iff.mp h with ⟨⟨mark, user, close⟩, hfound, heq⟩
      rcases findAuthority_shape hfound with ⟨a, rfl, rfl, rfl⟩
      cases heq
      refine ⟨a, k.run schemeChar rest ++ [a.colon, a.slash, a.second] ++ a.user, hstart.left,
        hstart.right, ?_, rfl, rfl⟩
      have hrest := k.run_append_afterRun schemeChar rest
      rw [a.text_eq] at hrest
      refine hrest.symm.trans ?_
      simp
  · cases h

theorem findUser_none {before : Option Char} (h : findUser k words before (c :: rest) = none)
    (hstart : schemeStart (k.glyph c) = true) (hbefore : before.any words.word = false) :
    ¬ Completes k .scheme rest := by
  intro hcompletes
  rcases completes_shape hcompletes with ⟨a⟩
  unfold findUser at h
  simp only at h
  rw [if_pos ⟨hstart, hbefore⟩, findAuthority_of a] at h
  cases h

/-!
### Item by item
-/

theorem schemeChar_ranges {c : Char} (h : schemeChar c = true) :
    (48 ≤ c.toNat ∧ c.toNat ≤ 57) ∨ (65 ≤ c.toNat ∧ c.toNat ≤ 90) ∨
      (97 ≤ c.toNat ∧ c.toNat ≤ 122) ∨ c.toNat ∈ [43, 45, 46, 304, 305, 383, 8490] := by
  have hnat : c.toNat = c.val.toNat := rfl
  simp only [schemeChar, schemeStart, Text.isAlpha_iff, Char.isDigit,
    Bool.or_eq_true, Bool.and_eq_true, decide_eq_true_eq, UInt32.le_iff_toNat_le, ge_iff_le,
    List.contains_iff_mem, List.mem_cons, List.not_mem_nil, or_false] at h
  simp only [List.mem_cons, List.not_mem_nil, or_false]
  rcases h with ((((h | h) | rfl | rfl | rfl | rfl)) | h) | rfl | rfl | rfl
  · exact Or.inr (Or.inl h)
  · exact Or.inr (Or.inr (Or.inl h))
  all_goals first | decide | exact Or.inl h

theorem stop_ranges {c : Char} (h : stop c = true) :
    space c = true ∨ c.toNat ∈ [34, 39, 60, 62] := by
  unfold stop quotes at h
  rw [Bool.or_eq_true, List.contains_iff_mem] at h
  rcases h with h | h
  · exact Or.inl h
  · right
    simp only [List.cons_append, List.nil_append, List.mem_cons, List.not_mem_nil, or_false] at h
    rcases h with rfl | rfl | rfl | rfl <;> decide

theorem userChar_of_schemeChar {c : Char} (h : schemeChar c = true) : userChar c = true := by
  have hranges := schemeChar_ranges h
  simp only [List.mem_cons, List.not_mem_nil, or_false] at hranges
  have hstop : stop c = false := by
    cases hstop : stop c with
    | false => rfl
    | true =>
        rcases stop_ranges hstop with hspace | hmem
        · unfold space at hspace
          simp only [decide_eq_true_eq] at hspace
          omega
        · simp only [List.mem_cons, List.not_mem_nil, or_false] at hmem
          omega
  have hslash : c ≠ '/' := by
    rintro rfl
    revert hranges
    decide
  have hclose : c ≠ '@' := by
    rintro rfl
    revert hranges
    decide
  unfold userChar
  rw [hstop, bne_iff_ne.mpr hslash, bne_iff_ne.mpr hclose]
  rfl

theorem schemeStart_char {c : Char} (h : schemeStart c = true) : schemeChar c = true := by
  unfold schemeChar
  rw [h]
  rfl

theorem pending_step {before : Option Char} (hword : x.word = before.any words.word)
    (hpending : ¬ Pending k x (c :: rest)) (hfind : findUser k words before (c :: rest) = none) :
    ¬ Pending k (x.step words (k.glyph c)) rest := by
  rintro (hscheme | ⟨hfirst, hnamed⟩ | ⟨hmore, hcloses⟩)
  · refine hpending (Or.inl ?_)
    unfold Context.step at hscheme
    simp only at hscheme
    split at hscheme
    · next hopen =>
        rcases hopen with ⟨hchar, hx | ⟨hstart, hx⟩⟩
        · rw [hx, Completes, if_pos hchar]
          exact hscheme
        · exact absurd hscheme (findUser_none hfind hstart (hword.symm.trans hx))
    · next hnot =>
        split at hscheme
        · next hcolon =>
            have hchar : ¬ schemeChar (k.glyph c) = true := fun h => hnot ⟨h, Or.inl hcolon.right⟩
            rw [hcolon.right, Completes, if_neg hchar]
            exact ⟨hcolon.left, hscheme⟩
        · split at hscheme
          · next hslash =>
              rw [hslash.right]
              exact ⟨hslash.left, hscheme⟩
          · cases rest <;> cases hscheme
  · unfold Context.step at hfirst
    simp only at hfirst
    split at hfirst
    · next hslash =>
        refine hpending (Or.inl ?_)
        rw [hslash.right]
        exact ⟨hslash.left, hnamed⟩
    · split at hfirst <;> cases hfirst
  · unfold Context.step at hmore
    simp only at hmore
    split at hmore
    · cases hmore
    · split at hmore
      · next hchar =>
          refine hpending (Or.inr ?_)
          cases hx : x.user with
          | outside => exact absurd hx hchar.right
          | first => exact Or.inl ⟨rfl, hchar.left, hcloses⟩
          | more => exact Or.inr ⟨rfl, by rw [closes, if_pos hchar.left, hcloses]⟩
      · cases hmore

theorem step_scheme {c : Char} (hx : x.scheme = .scheme) (hc : schemeChar c = true) :
    (x.step words c).scheme = .scheme := if_pos ⟨hc, Or.inl hx⟩

theorem step_scheme_iff {c : Char} : (x.step words c).scheme = .scheme <->
    schemeChar c = true ∧ (x.scheme = .scheme ∨ (schemeStart c = true ∧ x.word = false)) := by
  unfold Context.step
  simp only
  split
  · next h => exact iff_of_true rfl h
  · next h =>
      refine iff_of_false ?_ h
      split
      · nofun
      · split <;> nofun

theorem kept_unclosed (h : closes k rest = false) : kept k x c rest = [c] := by
  unfold kept
  rw [if_neg]
  rintro ⟨_, _, hcloses⟩
  rw [h] at hcloses
  cases hcloses

theorem userOut_unclosed {tail : List alpha} (htail : closes k tail = false)
    (hall : forall a, a ∈ text -> userChar (k.glyph a) = true) :
    userOut k words x (text ++ tail) = text ++ userOut k words (x.steps k words text) tail := by
  induction text generalizing x with
  | nil => rfl
  | cons c text ih =>
      have hrest := List.forall_mem_cons.mp hall
      rw [List.cons_append, userOut, kept_unclosed, ih hrest.right]
      · rfl
      · rw [closes_append hrest.right, htail]

theorem steps_scheme {scheme : List alpha} (hx : x.scheme = .scheme)
    (hall : forall a, a ∈ scheme -> schemeChar (k.glyph a) = true) :
    (x.steps k words scheme).scheme = .scheme := by
  induction scheme generalizing x with
  | nil => exact hx
  | cons c scheme ih =>
      have hrest := List.forall_mem_cons.mp hall
      exact ih (step_scheme hx hrest.left) hrest.right

theorem userOut_more {user tail : List alpha} (hx : x.user = .more)
    (hall : forall a, a ∈ user -> userChar (k.glyph a) = true) (htail : closes k tail = true) :
    userOut k words x (user ++ tail) = userOut k words (x.steps k words user) tail := by
  induction user generalizing x with
  | nil => rfl
  | cons c user ih =>
      have hrest := List.forall_mem_cons.mp hall
      have hkept : kept k x c (user ++ tail) = [] := by
        unfold kept
        rw [if_pos ⟨by rw [hx]; nofun, hrest.left, by rw [closes_append hrest.right, htail]⟩,
          if_neg (by rw [hx]; nofun)]
      have huser : (x.step words (k.glyph c)).user = .more := by
        have hnot : ¬ (k.glyph c = '/' ∧ x.scheme = .slash) := by
          rintro ⟨hslash, _⟩
          have hchar := hrest.left
          rw [hslash] at hchar
          revert hchar
          decide
        unfold Context.step
        simp only
        rw [if_neg hnot, if_pos ⟨hrest.left, by rw [hx]; nofun⟩]
      rw [List.cons_append, userOut, hkept, List.nil_append, ih huser hrest.right]
      rfl

theorem kept_plain (h : userChar (k.glyph c) = false) : kept k x c rest = [c] := by
  unfold kept
  rw [if_neg]
  rintro ⟨_, hchar, _⟩
  rw [h] at hchar
  cases hchar

theorem step_colon (hx : x.scheme = .scheme) : (x.step words ':').scheme = .colon := by
  unfold Context.step
  simp only
  rw [if_neg (by rintro ⟨h, _⟩; revert h; decide), if_pos ⟨trivial, hx⟩]

theorem step_slash (hx : x.scheme = .colon) : (x.step words '/').scheme = .slash := by
  unfold Context.step
  simp only
  rw [if_neg (by rintro ⟨h, _⟩; revert h; decide), if_neg (by rintro ⟨h, _⟩; revert h; decide),
    if_pos ⟨trivial, hx⟩]

theorem step_second (hx : x.scheme = .slash) : (x.step words '/').user = .first := if_pos ⟨rfl, hx⟩

theorem step_close (x : Context) : x.step words '@' = {} := by
  have hword : words.word '@' = false := (words.word_ascii '@' (by decide)).trans (by decide)
  unfold Context.step
  rw [hword, if_neg (by rintro ⟨h, _⟩; revert h; decide),
    if_neg (by rintro ⟨h, _⟩; revert h; decide), if_neg (by rintro ⟨h, _⟩; revert h; decide),
    if_neg (by rintro ⟨h, _⟩; revert h; decide), if_neg (by rintro ⟨h, _⟩; revert h; decide)]

theorem userOut_first {user after : List alpha} {close : alpha} (hx : x.user = .first)
    (hne : user ≠ []) (hall : forall a, a ∈ user -> userChar (k.glyph a) = true)
    (hclose : k.glyph close = '@') :
    userOut k words x (user ++ close :: after) =
      k.write "***" ++ close :: userOut k words {} after := by
  cases user with
  | nil => exact absurd rfl hne
  | cons c user =>
      have hrest := List.forall_mem_cons.mp hall
      have hstop := not_userChar_close hclose
      have hcloses : closes k (close :: after) = true := by
        rw [closes, if_neg (by rw [hstop]; exact Bool.false_ne_true), hclose]
        rfl
      have hkept : kept k x c (user ++ close :: after) = k.write "***" := by
        unfold kept
        rw [if_pos ⟨by rw [hx]; nofun, hrest.left, by rw [closes_append hrest.right, hcloses]⟩,
          if_pos hx]
      have huser : (x.step words (k.glyph c)).user = .more := by
        have hnot : ¬ (k.glyph c = '/' ∧ x.scheme = .slash) := by
          rintro ⟨hslash, _⟩
          have hchar := hrest.left
          rw [hslash] at hchar
          revert hchar
          decide
        unfold Context.step
        simp only
        rw [if_neg hnot, if_pos ⟨hrest.left, by rw [hx]; nofun⟩]
      rw [List.cons_append, userOut, hkept, userOut_more huser hrest.right hcloses, userOut,
        kept_plain hstop, hclose, step_close]
      rfl

theorem Authority.glyphs (a : Authority k text) :
    k.glyph a.colon = ':' ∧ k.glyph a.slash = '/' ∧ k.glyph a.second = '/' := by
  have hmark := a.mark
  simpa only [List.map_cons, List.map_nil, List.cons.injEq, and_true] using hmark

theorem unclosed_slash {slash : alpha} (hslash : k.glyph slash = '/') :
    closes k (slash :: rest) = false := by
  have hplain : userChar '/' = false := by decide
  rw [closes, hslash, hplain]
  rfl

theorem Authority.unclosed (a : Authority k text) : closes k text = false := by
  have hcolon : userChar ':' = true := by decide
  rw [a.text_eq, closes, a.glyphs.left, if_pos hcolon, unclosed_slash a.glyphs.right.left]

theorem Authority.userOut (a : Authority k text) (hx : x.scheme = .scheme) :
    userOut k words x text =
      [a.colon, a.slash, a.second] ++ k.write "***" ++
        a.close :: Redaction.userOut k words {} a.after := by
  rcases a.glyphs with ⟨hcolon, hslash, hsecond⟩
  have hplain : userChar '/' = false := by decide
  conv => lhs; rw [a.text_eq]
  rw [Redaction.userOut, kept_unclosed (unclosed_slash hslash), Redaction.userOut,
    kept_plain (by rw [hslash, hplain]), Redaction.userOut, kept_plain (by rw [hsecond, hplain]),
    hcolon, hslash, hsecond,
    userOut_first (step_second (step_slash (step_colon hx))) a.user_ne a.user_chars a.close_glyph]
  simp

theorem not_pending_start (text : List alpha) : ¬ Pending k ({} : Context) text := by
  rintro (h | ⟨h, _⟩ | ⟨h, _⟩)
  · cases text <;> cases h
  · cases h
  · cases h

theorem sub_eq_userOut : forall (n : Nat) (text : List alpha) (x : Context) (before : Option Char),
    text.length ≤ n -> x.word = before.any words.word -> ¬ Pending k x text ->
      Substitution.sub k.glyph (findUser k words) before 0 text = userOut k words x text := by
  intro n
  induction n with
  | zero =>
      intro text x before hlength _ _
      rw [List.length_eq_zero_iff.mp (Nat.le_zero.mp hlength)]
      rfl
  | succ n ih =>
      intro text x before hlength hword hpending
      cases text with
      | nil => rfl
      | cons c rest =>
          rw [List.length_cons] at hlength
          cases hfind : findUser k words before (c :: rest) with
          | none =>
              rw [Substitution.sub_miss hfind, userOut, kept_pending hpending,
                ih rest (x.step words (k.glyph c)) (some (k.glyph c)) (by omega) rfl
                  (pending_step hword hpending hfind)]
              rfl
          | some found =>
              rcases found with ⟨new, more⟩
              rcases findUser_some hfind with
                ⟨a, skipped, hstart, hbefore, hrest, hmore, hnew⟩
              have hafter : a.after.length ≤ n := by
                rw [hrest, List.length_append, List.length_cons] at hlength
                omega
              have hscheme : ((x.step words (k.glyph c)).steps k words
                  (k.run schemeChar rest)).scheme = .scheme := by
                refine steps_scheme (if_pos ⟨schemeStart_char hstart, Or.inr ⟨hstart, ?_⟩⟩)
                  fun _ => k.mem_run
                rw [hword, hbefore]
              have hout := @userOut_unclosed _ _ words (x.step words (k.glyph c)) _ _
                a.unclosed fun b (hb : b ∈ k.run schemeChar rest) =>
                  userChar_of_schemeChar (k.mem_run hb)
              rw [k.run_append_afterRun, a.userOut hscheme] at hout
              have hclosed : (some (k.glyph a.close)).any words.word = false := by
                rw [a.close_glyph]
                exact (words.word_ascii '@' (by decide)).trans (by decide)
              have hsub : Substitution.sub k.glyph (findUser k words) (some (k.glyph c))
                  (skipped ++ [a.close]).length rest = userOut k words {} a.after :=
                (congrArg _ hrest).trans ((Substitution.sub_skip skipped a.after a.close).trans
                  (ih a.after {} _ hafter hclosed.symm (not_pending_start _)))
              rw [userOut, kept_pending hpending, hout, Substitution.sub_match hfind, hmore, hnew,
                hsub]
              simp

theorem subUser_eq (text : List alpha) : subUser k words text = userOut k words {} text :=
  sub_eq_userOut text.length text {} none (Nat.le_refl _) rfl (not_pending_start text)

/-!
## Queries, item by item
-/

variable (k) in
/-- Some `=` comes before the end of the query. -/
def Assigned (text : List alpha) : Bool := (k.run queryChar text).any (k.glyph · = '=')

variable (k) in
/-- `_QUERY.sub`; `inside` is set in a query that goes. -/
def queryOut (inside : Bool) : List alpha -> List alpha
  | [] => []
  | c :: rest =>
      if inside = true ∧ queryChar (k.glyph c) = true then queryOut true rest
      else if k.glyph c = '?' ∧ Assigned k rest = true then
        c :: k.write "<redacted>" ++ queryOut true rest
      else c :: queryOut false rest

theorem queryOut_inside (h : queryChar (k.glyph c) = true) :
    queryOut k true (c :: rest) = queryOut k true rest := if_pos ⟨rfl, h⟩

theorem queryOut_outside (h : queryChar (k.glyph c) = false) (inside : Bool) :
    queryOut k inside (c :: rest) = c :: queryOut k false rest := by
  rw [queryOut, if_neg (by rw [h]; nofun), if_neg]
  rintro ⟨hquestion, _⟩
  rw [hquestion] at h
  revert h
  decide

theorem queryOut_begins (h : k.glyph c = '?') (hassigned : Assigned k rest = true) :
    queryOut k false (c :: rest) = c :: k.write "<redacted>" ++ queryOut k true rest := by
  rw [queryOut, if_neg (by nofun), if_pos ⟨h, hassigned⟩]

theorem queryOut_keeps (h : ¬ (k.glyph c = '?' ∧ Assigned k rest = true)) :
    queryOut k false (c :: rest) = c :: queryOut k false rest := by
  rw [queryOut, if_neg (by nofun), if_neg h]

theorem queryOut_run (hall : forall a, a ∈ text -> queryChar (k.glyph a) = true)
    (tail : List alpha) : queryOut k true (text ++ tail) = queryOut k true tail := by
  induction text with
  | nil => rfl
  | cons c text ih =>
      have hrest := List.forall_mem_cons.mp hall
      rw [List.cons_append, queryOut_inside hrest.left, ih hrest.right]

theorem queryOut_afterRun (text : List alpha) :
    queryOut k true text = queryOut k false (k.afterRun queryChar text) := by
  induction text with
  | nil => rfl
  | cons c rest ih =>
      by_cases hchar : queryChar (k.glyph c) = true
      · rw [queryOut_inside hchar, Carrier.afterRun_pos hchar, ih]
      · have hfalse := Bool.eq_false_iff.mpr hchar
        rw [Carrier.afterRun_neg hchar, queryOut_outside hfalse, queryOut_outside hfalse]

theorem subQuery_eq (text : List alpha) : subQuery k text = queryOut k false text := by
  have hsub : forall (n : Nat) (text : List alpha) (before : Option Char), text.length ≤ n ->
      Substitution.sub k.glyph (findQuery k) before 0 text = queryOut k false text := by
    intro n
    induction n with
    | zero =>
        intro text before hlength
        rw [List.length_eq_zero_iff.mp (Nat.le_zero.mp hlength)]
        rfl
    | succ n ih =>
        intro text before hlength
        cases text with
        | nil => rfl
        | cons c rest =>
            rw [List.length_cons] at hlength
            by_cases hfound : k.glyph c = '?' ∧ Assigned k rest = true
            · have hmatch : findQuery k before (c :: rest) =
                  some (c :: k.write "<redacted>", (k.run queryChar rest).length) :=
                if_pos hfound
              rw [Substitution.sub_match hmatch, queryOut_begins hfound.left hfound.right,
                queryOut_afterRun]
              have hrest := k.run_append_afterRun queryChar rest
              have hne : k.run queryChar rest ≠ [] := by
                intro hnil
                have hassigned := hfound.right
                unfold Assigned at hassigned
                rw [hnil] at hassigned
                cases hassigned
              rcases List.eq_nil_or_concat (k.run queryChar rest) with hnil | ⟨skipped, last, hrun⟩
              · exact absurd hnil hne
              have hskip : Substitution.sub k.glyph (findQuery k) (some (k.glyph c))
                  (k.run queryChar rest).length rest =
                    Substitution.sub k.glyph (findQuery k) (some (k.glyph last)) 0
                      (k.afterRun queryChar rest) := by
                conv => lhs; arg 5; rw [← hrest]
                rw [hrun, List.concat_eq_append, List.append_assoc]
                exact Substitution.sub_skip skipped _ last
              rw [hskip, ih]
              have hle := congrArg List.length hrest
              rw [List.length_append] at hle
              omega
            · have hmiss : findQuery k before (c :: rest) = none := if_neg hfound
              rw [Substitution.sub_miss hmiss, queryOut_keeps hfound, ih rest _ (by omega)]
  exact hsub text.length text none (Nat.le_refl _)

theorem redact_eq (text : List alpha) :
    redact k words text = queryOut k false (userOut k words {} text) := by
  unfold redact
  rw [subQuery_eq, subUser_eq]

/-!
## What comes before and what comes after
-/

theorem steps_append (x : Context) (first rest : List alpha) :
    x.steps k words (first ++ rest) = (x.steps k words first).steps k words rest :=
  List.foldl_append

theorem userOut_outside (hx : x.user = .outside) (hall : forall a, a ∈ text -> k.glyph a ≠ '/')
    (rest : List alpha) :
    userOut k words x (text ++ rest) = text ++ userOut k words (x.steps k words text) rest := by
  induction text generalizing x with
  | nil => rfl
  | cons c text ih =>
      have hrest := List.forall_mem_cons.mp hall
      have hkept : kept k x c (text ++ rest) = [c] := if_neg fun h => h.left hx
      have hstep : (x.step words (k.glyph c)).user = .outside := by
        unfold Context.step
        simp only
        rw [if_neg fun h => hrest.left h.left, if_neg fun h => h.right hx]
      rw [List.cons_append, userOut, hkept, ih hstep hrest.right]
      rfl

theorem user_after_mark (x : Context) :
    (((x.step words ':').step words '/').step words '/').user =
      if x.scheme = .scheme then .first else .outside := by
  split
  · next hx => exact step_second (step_slash (step_colon hx))
  · next hx =>
      have hcolon : (x.step words ':').scheme = .idle := by
        unfold Context.step
        simp only
        rw [if_neg (by rintro ⟨h, _⟩; revert h; decide), if_neg fun h => hx h.right,
          if_neg (by rintro ⟨h, _⟩; revert h; decide)]
      have hslash : ((x.step words ':').step words '/').scheme = .idle := by
        rw [Context.step]
        simp only
        rw [if_neg (by rintro ⟨h, _⟩; revert h; decide),
          if_neg (by rintro ⟨h, _⟩; revert h; decide), if_neg (by rw [hcolon]; nofun)]
      rw [Context.step]
      simp only
      rw [if_neg (by rw [hslash]; nofun), if_neg (by rintro ⟨h, _⟩; revert h; decide)]

variable (k) in
def InQuery (text tail : List alpha) : Prop :=
  exists before question between, text = before ++ question :: between ∧
    k.glyph question = '?' ∧ (forall a, a ∈ between -> queryChar (k.glyph a) = true) ∧
    Assigned k (between ++ tail) = true

theorem assigned_cons {c : alpha} {rest : List alpha} :
    Assigned k (c :: rest) = true <->
      queryChar (k.glyph c) = true ∧ (k.glyph c = '=' ∨ Assigned k rest = true) := by
  unfold Assigned Carrier.run
  rw [List.takeWhile_cons]
  split
  · next hchar =>
      rw [List.any_cons, Bool.or_eq_true, decide_eq_true_eq]
      exact ⟨fun h => ⟨hchar, h⟩, fun h => h.right⟩
  · next hchar => exact iff_of_false nofun fun h => hchar h.left

variable (k) in
def queryAfter (inside : Bool) : List alpha -> List alpha -> Bool
  | [], _ => inside
  | c :: rest, tail =>
      if inside = true ∧ queryChar (k.glyph c) = true then queryAfter true rest tail
      else if k.glyph c = '?' ∧ Assigned k (rest ++ tail) = true then queryAfter true rest tail
      else queryAfter false rest tail

theorem queryAfter_iff {tail : List alpha} : forall {inside : Bool},
    queryAfter k inside text tail = true <->
      (inside = true ∧ forall a, a ∈ text -> queryChar (k.glyph a) = true) ∨
        InQuery k text tail := by
  induction text with
  | nil =>
      intro inside
      refine ⟨fun h => Or.inl ⟨h, nofun⟩, ?_⟩
      rintro (⟨h, _⟩ | ⟨before, question, between, h, _⟩)
      · exact h
      · cases before <;> cases h
  | cons c rest ih =>
      have hcons : InQuery k (c :: rest) tail <->
          (k.glyph c = '?' ∧ (forall a, a ∈ rest -> queryChar (k.glyph a) = true) ∧
            Assigned k (rest ++ tail) = true) ∨ InQuery k rest tail := by
        constructor
        · rintro ⟨before, question, between, heq, hquestion, hall, hassigned⟩
          cases before with
          | nil =>
              cases heq
              exact Or.inl ⟨hquestion, hall, hassigned⟩
          | cons b before =>
              cases heq
              exact Or.inr ⟨before, question, between, rfl, hquestion, hall, hassigned⟩
        · rintro (⟨hquestion, hall, hassigned⟩ | ⟨before, question, between, rfl, h⟩)
          · exact ⟨[], c, rest, rfl, hquestion, hall, hassigned⟩
          · exact ⟨c :: before, question, between, rfl, h⟩
      intro inside
      rw [queryAfter, hcons]
      split
      · next hinside =>
          rw [ih, List.forall_mem_cons]
          constructor
          · rintro (⟨_, hall⟩ | h)
            · exact Or.inl ⟨hinside.left, hinside.right, hall⟩
            · exact Or.inr (Or.inr h)
          · rintro (⟨_, _, hall⟩ | ⟨_, hall, _⟩ | h)
            · exact Or.inl ⟨rfl, hall⟩
            · exact Or.inl ⟨rfl, hall⟩
            · exact Or.inr h
      · next hinside =>
          rw [List.forall_mem_cons]
          split
          · next hbegins =>
              rw [ih]
              constructor
              · rintro (⟨_, hall⟩ | h)
                · exact Or.inr (Or.inl ⟨hbegins.left, hall, hbegins.right⟩)
                · exact Or.inr (Or.inr h)
              · rintro (⟨hin, hchar, _⟩ | ⟨_, hall, _⟩ | h)
                · exact absurd ⟨hin, hchar⟩ hinside
                · exact Or.inl ⟨rfl, hall⟩
                · exact Or.inr h
          · next hbegins =>
              rw [ih]
              constructor
              · rintro (⟨h, _⟩ | h)
                · cases h
                · exact Or.inr (Or.inr h)
              · rintro (⟨hin, hchar, _⟩ | ⟨hquestion, _, hassigned⟩ | h)
                · exact absurd ⟨hin, hchar⟩ hinside
                · exact absurd ⟨hquestion, hassigned⟩ hbegins
                · exact Or.inr h

theorem queryAfter_start {tail : List alpha} :
    queryAfter k false text tail = true <-> InQuery k text tail := by
  rw [queryAfter_iff]
  exact or_iff_right fun h => Bool.false_ne_true h.left

variable (k) in
def queryHead (inside : Bool) : List alpha -> List alpha -> List alpha
  | [], _ => []
  | c :: rest, tail =>
      if inside = true ∧ queryChar (k.glyph c) = true then queryHead true rest tail
      else if k.glyph c = '?' ∧ Assigned k (rest ++ tail) = true then
        c :: k.write "<redacted>" ++ queryHead true rest tail
      else c :: queryHead false rest tail

theorem queryOut_split (text tail : List alpha) (inside : Bool) :
    queryOut k inside (text ++ tail) =
      queryHead k inside text tail ++ queryOut k (queryAfter k inside text tail) tail := by
  induction text generalizing inside with
  | nil => rfl
  | cons c rest ih =>
      rw [List.cons_append, queryOut, queryHead, queryAfter]
      split
      · exact ih true
      · split
        · rw [ih, List.append_assoc]
        · rw [ih]
          rfl

theorem mem_queryHead {p : alpha -> Prop} {tail : List alpha}
    (hmade : forall c, c ∈ "<redacted>".toList -> p (k.made c)) :
    forall {inside : Bool}, (forall a, a ∈ text -> p a) ->
      forall a, a ∈ queryHead k inside text tail -> p a := by
  induction text with
  | nil => exact nofun
  | cons c rest ih =>
      intro inside htext
      have hall := List.forall_mem_cons.mp htext
      rw [queryHead]
      split
      · exact ih hall.right
      · split
        · intro a ha
          rcases List.mem_cons.mp ha with heq | ha
          · rw [heq]
            exact hall.left
          rcases List.mem_append.mp ha with hwritten | hhead
          · rcases List.mem_map.mp hwritten with ⟨d, hmem, hd⟩
            rw [← hd]
            exact hmade d hmem
          · exact ih hall.right a hhead
        · exact List.forall_mem_cons.mpr ⟨hall.left, ih hall.right⟩

/-- What comes after a written part that has not the item in it, comes after all of it. -/
theorem split_written {item : alpha} {part after before tail : List alpha} (hnot : item ∉ part)
    (h : part ++ after = before ++ item :: tail) :
    exists more, before = part ++ more ∧ after = more ++ item :: tail := by
  rcases List.append_eq_append_iff.mp h with ⟨more, hmore, hrest⟩ | ⟨more, hmore, hrest⟩
  · exact ⟨more, hmore, hrest⟩
  · cases more with
    | nil => exact ⟨[], by rw [hmore, List.append_nil, List.append_nil], hrest.symm⟩
    | cons e more =>
        have he : item = e := (List.cons.inj hrest).left
        rw [hmore, ← he] at hnot
        exact absurd (by simp) hnot

/-!
## The parts of a text
-/

variable (k words) in
def userHead (x : Context) : List alpha -> List alpha -> List alpha
  | [], _ => []
  | c :: rest, tail => kept k x c (rest ++ tail) ++ userHead (x.step words (k.glyph c)) rest tail

theorem userOut_append (text tail : List alpha) (x : Context) :
    userOut k words x (text ++ tail) =
      userHead k words x text tail ++ userOut k words (x.steps k words text) tail := by
  induction text generalizing x with
  | nil => rfl
  | cons c rest ih =>
      rw [List.cons_append, userOut, userHead, ih, List.append_assoc]
      rfl

theorem userHead_append (text more tail : List alpha) (x : Context) :
    userHead k words x (text ++ more) tail = userHead k words x text (more ++ tail) ++
      userHead k words (x.steps k words text) more tail := by
  induction text generalizing x with
  | nil => rfl
  | cons c rest ih =>
      rw [List.cons_append, userHead, userHead, ih, List.append_assoc, List.append_assoc]
      rfl

theorem step_colon_iff {c : Char} :
    (x.step words c).scheme = .colon <-> c = ':' ∧ x.scheme = .scheme := by
  unfold Context.step
  simp only
  split
  · next h =>
      refine iff_of_false nofun ?_
      rintro ⟨rfl, _⟩
      revert h
      rw [show schemeChar ':' = false from by decide]
      nofun
  · split
    · next h => exact iff_of_true rfl h
    · next h =>
        refine iff_of_false ?_ h
        split <;> nofun

theorem step_slash_iff {c : Char} :
    (x.step words c).scheme = .slash <-> c = '/' ∧ x.scheme = .colon := by
  unfold Context.step
  simp only
  split
  · next h =>
      refine iff_of_false nofun ?_
      rintro ⟨rfl, _⟩
      revert h
      rw [show schemeChar '/' = false from by decide]
      nofun
  · split
    · next h =>
        refine iff_of_false nofun ?_
        rintro ⟨hc, hx⟩
        rw [h.right] at hx
        cases hx
    · split
      · next h => exact iff_of_true rfl h
      · next h => exact iff_of_false nofun h

theorem step_first_iff {c : Char} :
    (x.step words c).user = .first <-> c = '/' ∧ x.scheme = .slash := by
  unfold Context.step
  simp only
  split
  · next h => exact iff_of_true rfl h
  · next h =>
      refine iff_of_false ?_ h
      split <;> nofun

theorem userOut_close {close : alpha} (hclose : k.glyph close = '@') (tail : List alpha) :
    userOut k words x (close :: tail) = close :: userOut k words {} tail := by
  rw [userOut, kept_plain (not_userChar_close hclose), hclose, step_close]
  rfl

theorem step_more {x : Context} {c : Char} (h : (x.step words c).user = .more) :
    userChar c = true ∧ x.user ≠ .outside := by
  unfold Context.step at h
  simp only at h
  split at h
  · cases h
  · split at h
    · next hchar => exact hchar
    · cases h

theorem step_more_of (hx : x.user ≠ .outside) {c : Char} (hc : userChar c = true) :
    (x.step words c).user = .more := by
  have hslash : ¬ (c = '/' ∧ x.scheme = .slash) := by
    rintro ⟨rfl, _⟩
    revert hc
    decide
  unfold Context.step
  simp only
  rw [if_neg hslash, if_pos ⟨hc, hx⟩]

theorem steps_inside (hx : x.user ≠ .outside)
    (hall : forall a, a ∈ text -> userChar (k.glyph a) = true) :
    (x.steps k words text).user ≠ .outside := by
  induction text generalizing x with
  | nil => exact hx
  | cons c rest ih =>
      have hrest := List.forall_mem_cons.mp hall
      exact ih (by rw [step_more_of hx hrest.left]; nofun) hrest.right

theorem steps_concat (x : Context) (text : List alpha) (c : alpha) :
    x.steps k words (text ++ [c]) = (x.steps k words text).step words (k.glyph c) :=
  List.foldl_concat _ _ _ _

theorem name_begun (hx : x.user = .outside) (h : (x.steps k words text).user ≠ .outside) :
    exists first name, text = first ++ name ∧ (x.steps k words first).user = .first ∧
      forall a, a ∈ name -> userChar (k.glyph a) = true := by
  induction text using List.reverseRecOn with
  | nil => exact absurd hx h
  | append_singleton text c ih =>
      rw [steps_concat] at h
      cases huser : ((x.steps k words text).step words (k.glyph c)).user with
      | outside => exact absurd huser h
      | first => exact ⟨text ++ [c], [], by simp, by rw [steps_concat, huser], nofun⟩
      | more =>
          rcases step_more huser with ⟨hchar, hinside⟩
          rcases ih hinside with ⟨first, name, rfl, hfirst, hname⟩
          refine ⟨first, name ++ [c], by simp, hfirst, ?_⟩
          intro a ha
          rcases List.mem_append.mp ha with ha | ha
          · exact hname a ha
          · rw [List.mem_singleton.mp ha]
            exact hchar

theorem userOut_cut {name : List alpha} (hx : x.user = .first) (hne : name ≠ [])
    (hall : forall a, a ∈ name -> userChar (k.glyph a) = true) (htail : closes k tail = true) :
    userOut k words x (name ++ tail) =
      k.write "***" ++ userOut k words (x.steps k words name) tail := by
  cases name with
  | nil => exact absurd rfl hne
  | cons c rest =>
      have hrest := List.forall_mem_cons.mp hall
      have hkept : kept k x c (rest ++ tail) = k.write "***" := by
        unfold kept
        rw [if_pos ⟨by rw [hx]; nofun, hrest.left, by rw [closes_append hrest.right, htail]⟩,
          if_pos hx]
      have huser : (x.step words (k.glyph c)).user = .more :=
        step_more_of (by rw [hx]; nofun) hrest.left
      rw [List.cons_append, userOut, hkept, userOut_more huser hrest.right htail]
      rfl

theorem userHead_name {name : List alpha} (hx : x.user = .first) (hne : name ≠ [])
    (hall : forall a, a ∈ name -> userChar (k.glyph a) = true) (htail : closes k tail = true) :
    userHead k words x name tail = k.write "***" := by
  have hcut : userOut k words x (name ++ tail) = _ := userOut_cut hx hne hall htail
  rw [userOut_append] at hcut
  exact List.append_cancel_right hcut

end Redaction
end Job
end MightyColab
