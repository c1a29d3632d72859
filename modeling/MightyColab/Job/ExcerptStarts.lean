import MightyColab.Job.ExcerptCuts

/-!
# Where an excerpt begins

What the later part of a text, redacted alone, shows of what redacting the whole text takes
out. A reader that starts at the cut may miss a user name and the `?` of a query, and it may
find a user name, with a `?` in it, that the reader of the whole text does not.
-/

namespace MightyColab
namespace Job

open Lib

namespace Redaction

variable {alpha : Type} {k : Carrier alpha} {words : Words} {x y : Context}
  {c : alpha} {rest text tail : List alpha}

/-!
## Two readers of one text
-/

variable (k words) in
/-- A character that goes after the one context and is kept after the other. -/
def Lost (x y : Context) (text : List alpha) : Prop :=
  exists before c after, text = before ++ c :: after ∧ userChar (k.glyph c) = true ∧
    closes k after = true ∧ (x.steps k words before).user ≠ .outside ∧
    (y.steps k words before).user = .outside

theorem Lost.cons (h : Lost k words (x.step words (k.glyph c)) (y.step words (k.glyph c)) rest) :
    Lost k words x y (c :: rest) := by
  rcases h with ⟨before, d, after, rfl, h⟩
  exact ⟨c :: before, d, after, rfl, h⟩

def Together (x y : Context) : Prop :=
  x.user = y.user ∨ x.user = .outside ∨ y.user = .outside

theorem together_step (x y : Context) (c : Char) :
    Together (x.step words c) (y.step words c) := by
  have hslash : c = '/' -> userChar c ≠ true := by
    rintro rfl
    decide
  have hstep : forall x : Context, (x.step words c).user = .outside ∨
      (x.step words c).user = if c = '/' then .first else .more := by
    intro x
    unfold Context.step
    simp only
    split
    · next h => exact Or.inr (if_pos h.left).symm
    · split
      · next h => exact Or.inr (if_neg fun hc => hslash hc h.left).symm
      · exact Or.inl rfl
  rcases hstep x with hx | hx
  · exact Or.inr (Or.inl hx)
  · rcases hstep y with hy | hy
    · exact Or.inr (Or.inr hy)
    · exact Or.inl (hx.trans hy.symm)

theorem kept_together (hxy : ¬ Lost k words x y (c :: rest)) (hyx : ¬ Lost k words y x (c :: rest))
    (htogether : Together x y) : kept k x c rest = kept k y c rest := by
  by_cases hname : userChar (k.glyph c) = true ∧ closes k rest = true
  · have hsame : x.user = y.user := by
      rcases htogether with h | h | h
      · exact h
      · by_contra hne
        exact hyx ⟨[], c, rest, rfl, hname.left, hname.right, fun hy => hne (h.trans hy.symm), h⟩
      · by_contra hne
        exact hxy ⟨[], c, rest, rfl, hname.left, hname.right, fun hx => hne (hx.trans h.symm), h⟩
    unfold kept
    rw [hsame]
  · unfold kept
    rw [if_neg fun h => hname h.right, if_neg fun h => hname h.right]

theorem userOut_together (hxy : ¬ Lost k words x y text) (hyx : ¬ Lost k words y x text)
    (htogether : Together x y) : userOut k words x text = userOut k words y text := by
  induction text generalizing x y with
  | nil => rfl
  | cons c rest ih =>
      rw [userOut, userOut, kept_together hxy hyx htogether,
        ih (fun h => hxy h.cons) (fun h => hyx h.cons) (together_step x y _)]

/-!
### How long two readers stay apart
-/

/-- What stands before a user name: a scheme and `://`. -/
def MarkChar (c : Char) : Prop := schemeChar c = true ∨ c = ':' ∨ c = '/'

theorem MarkChar.ne_question {c : Char} (h : MarkChar c) : c ≠ '?' := by
  rintro rfl
  revert h
  unfold MarkChar
  decide

theorem MarkChar.ne_close {c : Char} (h : MarkChar c) : c ≠ '@' := by
  rintro rfl
  revert h
  unfold MarkChar
  decide

theorem step_word {c : Char} : (x.step words c).word = (y.step words c).word := rfl

theorem scheme_apart {text : List Char} (hx : (x.steps plain words text).scheme = .scheme)
    (hy : (y.steps plain words text).scheme ≠ .scheme) :
    forall c, c ∈ text -> MarkChar c := by
  induction text using List.reverseRecOn with
  | nil => nofun
  | append_singleton text c ih =>
      rw [steps_concat, step_scheme_iff] at hx
      rw [steps_concat, Ne, step_scheme_iff] at hy
      refine List.forall_mem_append.mpr ⟨?_, List.forall_mem_cons.mpr ⟨Or.inl hx.left, nofun⟩⟩
      rcases List.eq_nil_or_concat text with rfl | ⟨front, d, rfl⟩
      · nofun
      rw [List.concat_eq_append] at hx hy ih ⊢
      have hword : (x.steps plain words (front ++ [d])).word =
          (y.steps plain words (front ++ [d])).word := by
        rw [steps_concat, steps_concat, step_word]
      refine ih ?_ fun h => hy ⟨hx.left, Or.inl h⟩
      rcases hx.right with h | h
      · exact h
      · exact absurd ⟨hx.left, Or.inr ⟨h.left, hword ▸ h.right⟩⟩ hy

/-- If the readers were apart before a mark's character, they are only apart behind a mark. -/
theorem apart_back {p q : Context -> Prop} {d : Char} (hd : MarkChar d)
    (hstep : forall (x : Context) (c : Char), p (x.step words c) <-> c = d ∧ q x)
    (hback : forall text : List Char, q (x.steps plain words text) ->
      ¬ q (y.steps plain words text) -> forall c, c ∈ text -> MarkChar c)
    (text : List Char) (hx : p (x.steps plain words text)) (hy : ¬ p (y.steps plain words text)) :
    forall c, c ∈ text -> MarkChar c := by
  rcases List.eq_nil_or_concat text with rfl | ⟨front, c, rfl⟩
  · nofun
  rw [List.concat_eq_append] at hx hy ⊢
  rw [steps_concat, hstep] at hx hy
  rcases hx with ⟨rfl, hx⟩
  exact List.forall_mem_append.mpr
    ⟨hback front hx fun h => hy ⟨rfl, h⟩, List.forall_mem_cons.mpr ⟨hd, nofun⟩⟩

theorem first_apart {text : List Char} (hx : (x.steps plain words text).user = .first)
    (hy : (y.steps plain words text).user ≠ .first) : forall c, c ∈ text -> MarkChar c := by
  have hcolon : forall text, (x.steps plain words text).scheme = .colon ->
      ¬ (y.steps plain words text).scheme = .colon -> forall c, c ∈ text -> MarkChar c :=
    apart_back (p := fun x => x.scheme = .colon) (q := fun x => x.scheme = .scheme)
      (Or.inr (Or.inl rfl)) (fun _ _ => step_colon_iff) fun _ => scheme_apart
  have hslash := apart_back (p := fun x => x.scheme = .slash) (q := fun x => x.scheme = .colon)
    (Or.inr (Or.inr rfl)) (fun _ _ => step_slash_iff) hcolon
  exact apart_back (p := fun x => x.user = .first) (q := fun x => x.scheme = .slash)
    (Or.inr (Or.inr rfl)) (fun _ _ => step_first_iff) hslash text hx hy

theorem name_apart {text : List Char} (hx : (x.steps plain words text).user ≠ .outside)
    (hy : (y.steps plain words text).user = .outside) :
    exists first name, text = first ++ name ∧ (forall c, c ∈ first -> MarkChar c) ∧
      (forall c, c ∈ name -> userChar c = true) ∧
      (first = [] ∨ (x.steps plain words first).user = .first) ∧
      (x.steps plain words first).user ≠ .outside ∧
      (y.steps plain words first).user = .outside := by
  induction text using List.reverseRecOn with
  | nil => exact ⟨[], [], rfl, nofun, nofun, Or.inl rfl, hx, hy⟩
  | append_singleton text c ih =>
      cases huser : (x.steps plain words (text ++ [c])).user with
      | outside => exact absurd huser hx
      | first =>
          refine ⟨text ++ [c], [], by simp, first_apart (y := y) huser ?_, nofun, Or.inr huser, hx, hy⟩
          rw [hy]
          nofun
      | more =>
          rw [steps_concat] at huser hy
          rcases step_more huser with ⟨hchar, hinside⟩
          have houtside : (y.steps plain words text).user = .outside := by
            by_contra hne
            rw [step_more_of hne hchar] at hy
            cases hy
          rcases ih hinside houtside with ⟨first, name, rfl, hfirst, hname, h⟩
          refine ⟨first, name ++ [c], by simp, hfirst, ?_, h⟩
          exact List.forall_mem_append.mpr ⟨hname, List.forall_mem_cons.mpr ⟨hchar, nofun⟩⟩

/-!
## What stands before a name
-/

theorem closes_none (h : forall a, a ∈ text -> k.glyph a ≠ '@') : closes k text = false := by
  refine Bool.eq_false_iff.mpr fun hcloses => ?_
  rcases closes_shape hcloses with ⟨user, close, after, rfl, _, hclose⟩
  exact h close (by simp) hclose

theorem userOut_none (h : forall a, a ∈ text -> k.glyph a ≠ '@') :
    userOut k words x text = text := by
  induction text generalizing x with
  | nil => rfl
  | cons c rest ih =>
      have hrest := List.forall_mem_cons.mp h
      have hkept : kept k x c rest = [c] := if_neg fun hgone => by
        rw [closes_none hrest.right] at hgone
        cases hgone.right.right
      rw [userOut, hkept, ih hrest.right]
      rfl

theorem queryOut_none (h : forall a, a ∈ text -> k.glyph a ≠ '?') (tail : List alpha) :
    queryOut k false (text ++ tail) = text ++ queryOut k false tail := by
  induction text with
  | nil => rfl
  | cons c rest ih =>
      have hrest := List.forall_mem_cons.mp h
      rw [List.cons_append, queryOut_keeps fun hq => hrest.left hq.left, ih hrest.right]
      rfl

theorem mem_userHead {item : alpha} (h : item ∈ userHead k words x text tail) :
    item ∈ text ∨ item ∈ k.write "***" := by
  induction text generalizing x with
  | nil => cases h
  | cons c rest ih =>
      rw [userHead] at h
      rcases List.mem_append.mp h with h | h
      · unfold kept at h
        split at h
        · split at h
          · exact Or.inr h
          · cases h
        · exact Or.inl (List.mem_cons.mpr (Or.inl (List.mem_singleton.mp h)))
      · exact (ih h).imp_left (List.mem_cons_of_mem c)

/-- What stands before a name that the reader does not read, and the name, are left. -/
theorem userHead_unread {first name : List alpha}
    (hfirst : forall a, a ∈ first -> MarkChar (k.glyph a))
    (hname : forall a, a ∈ name -> userChar (k.glyph a) = true)
    (hx : (x.steps k words first).user = .outside) (tail : List alpha) :
    userHead k words x (first ++ name) tail = first ++ name := by
  have hbegin : userHead k words x first (name ++ tail) = first := by
    rw [userHead_uncut (by rw [hx]; nofun), userOut_none fun a ha => (hfirst a ha).ne_close]
  have hslash : forall a, a ∈ name -> k.glyph a ≠ '/' := by
    intro a ha hslash
    have hchar := hname a ha
    rw [hslash] at hchar
    revert hchar
    decide
  have hend : userHead k words (x.steps k words first) name tail = name := by
    have hboth : userHead k words (x.steps k words first) name tail ++
        userOut k words ((x.steps k words first).steps k words name) tail =
          name ++ userOut k words ((x.steps k words first).steps k words name) tail := by
      rw [← userOut_append, userOut_outside hx hslash]
    exact List.append_cancel_right hboth
  rw [userHead_append, hbegin, hend]

theorem userHead_read {first name : List alpha} {close : alpha}
    (hfirst : forall a, a ∈ first -> MarkChar (k.glyph a))
    (hname : forall a, a ∈ name -> userChar (k.glyph a) = true) (hne : name ≠ [])
    (hx : (x.steps k words first).user = .first) (hclose : k.glyph close = '@')
    (tail : List alpha) :
    userHead k words x (first ++ name) (close :: tail) = first ++ k.write "***" := by
  have hcloses : closes k (close :: tail) = true := by
    rw [closes, if_neg (by rw [not_userChar_close hclose]; exact Bool.false_ne_true), hclose]
    rfl
  have hbegin : userHead k words x first (name ++ close :: tail) = first := by
    rw [userHead_uncut (by rw [hx]; exact fun h => by cases h.left),
      userOut_none fun a ha => (hfirst a ha).ne_close]
  rw [userHead_append, hbegin, userHead_name hx hne hname hcloses]

/-!
## One marked character
-/

def markOne (before : List Char) (c : Char) (after : List Char) : List (Char × Bool) :=
  mark false before ++ (c, true) :: mark false after

theorem markOne_text (before after : List Char) (c : Char) :
    (markOne before c after).map Prod.fst = before ++ c :: after := by
  unfold markOne
  rw [List.map_append, List.map_cons, map_mark, map_mark]

theorem userOut_markOne (before after : List Char) (c : Char) :
    userOut marked words {} (markOne before c after) =
      userHead marked words {} (mark false before) ((c, true) :: mark false after) ++
        (kept marked (({} : Context).steps plain words before) (c, true) (mark false after) ++
          userOut marked words ((({} : Context).steps plain words before).step words c)
            (mark false after)) := by
  unfold markOne
  rw [userOut_append, steps_marked, map_mark]
  rfl

theorem userHead_markOne (before after : List Char) (c : Char) :
    (userHead marked words {} (mark false before) ((c, true) :: mark false after)).map Prod.fst =
      userHead plain words {} before (c :: after) := by
  rw [userHead_marked, map_mark, List.map_cons, map_mark]

theorem one_marked (c : Char) : forall item, item ∈ [(c, true)] -> item.2 = true :=
  List.forall_mem_cons.mpr ⟨rfl, List.forall_mem_nil _⟩

theorem markOne_shown {before after : List Char} {c : Char}
    (hkept : kept plain (({} : Context).steps plain words before) c after = [c])
    (hquestion : '?' ∉ userHead plain words {} before (c :: after)) :
    ¬ Unmarked (redact marked words (markOne before c after)) := by
  intro hgone
  rw [redact_eq, userOut_markOne, kept_mark hkept] at hgone
  rcases (unmarked_between (unmarked_userHead (unmarked_mark before))
    (unmarked_userOut (unmarked_mark after)) (one_marked c)).mp hgone with h | ⟨hquery, _⟩
  · cases h
  · rw [UserUrl.inQuery_marked, userHead_markOne] at hquery
    rcases hquery with ⟨front, question, between, htext, hq, _⟩
    refine hquestion ?_
    rw [htext, show question = '?' from hq]
    simp

theorem markOne_named {before after : List Char} {c : Char}
    (huser : (({} : Context).steps plain words before).user ≠ .outside)
    (hchar : userChar c = true) (hcloses : closes plain after = true) :
    Unmarked (redact marked words (markOne before c after)) := by
  rw [redact_eq, userOut_markOne]
  refine unmarked_queryOut (unmarked_append.mpr ⟨unmarked_userHead (unmarked_mark before),
    unmarked_append.mpr ⟨?_, unmarked_userOut (unmarked_mark after)⟩⟩)
  unfold kept
  rw [if_pos ⟨huser, hchar, by rw [closes_marked, map_mark, hcloses]⟩]
  split
  · exact unmarked_write "***"
  · exact List.forall_mem_nil _

theorem markOne_queried {before after : List Char} {c : Char}
    (hquery : InQuery plain (userHead plain words {} before (c :: after))
      (userOut plain words (({} : Context).steps plain words before) (c :: after)))
    (hchar : queryChar c = true) :
    Unmarked (redact marked words (markOne before c after)) := by
  by_cases hname : (({} : Context).steps plain words before).user ≠ .outside ∧
      userChar (plain.glyph c) = true ∧ closes plain after = true
  · exact markOne_named hname.left hname.right.left hname.right.right
  · have hkept : kept plain (({} : Context).steps plain words before) c after = [c] :=
      if_neg hname
    rw [userOut, hkept] at hquery
    rw [redact_eq, userOut_markOne, kept_mark hkept]
    refine (unmarked_between (unmarked_userHead (unmarked_mark before))
      (unmarked_userOut (unmarked_mark after)) (one_marked c)).mpr
        (Or.inr ⟨?_, List.forall_mem_cons.mpr ⟨hchar, List.forall_mem_nil _⟩⟩)
    rw [UserUrl.inQuery_marked, userHead_markOne, List.map_append, userOut_marked, map_mark]
    exact hquery

/-!
## The beginning of an excerpt
-/

def TailSafe (words : Words) (first rest : List Char) : Prop :=
  forall a b : List (Char × Bool), a.map Prod.fst = first -> b.map Prod.fst = rest ->
    Unmarked (redact marked words (a ++ b)) -> Unmarked (redact marked words b)

def Naming (words : Words) (text : List Char) : Prop :=
  exists before name, text = before ++ name ∧ NameBegins words before ∧
    forall c, c ∈ name -> userChar c = true

/-- A character of the last part is of a user name in the whole text, and not in this part. -/
def LosesName (words : Words) (first rest : List Char) : Prop :=
  exists before c after, rest = before ++ c :: after ∧ userChar c = true ∧
    closes plain after = true ∧ Naming words (first ++ before) ∧ ¬ Naming words before

/-- The last part begins inside of a query that goes from the whole text. -/
def LosesQuery (words : Words) (first rest : List Char) : Prop :=
  (exists c after, rest = c :: after ∧ queryChar c = true) ∧
    InQuery plain (userHead plain words {} first rest)
      (userOut plain words (({} : Context).steps plain words first) rest)

/-- A name of the last part is none in the whole text, and a `?` in it begins a query there that
goes on behind the name. -/
def LosesQuestion (words : Words) (first rest : List Char) : Prop :=
  exists before name after, rest = before ++ name ++ '@' :: after ∧ NameBegins words before ∧
    name ≠ [] ∧ (forall c, c ∈ name -> userChar c = true) ∧ ¬ Naming words (first ++ before) ∧
    InQuery plain (before ++ name) ('@' :: subUser plain words after)

theorem steps_naming {text : List Char} :
    (({} : Context).steps plain words text).user ≠ .outside <-> Naming words text := by
  constructor
  · intro h
    rcases name_begun rfl h with ⟨before, name, htext, hfirst, hname⟩
    exact ⟨before, name, htext, steps_first.mp hfirst, hname⟩
  · rintro ⟨before, name, rfl, hbegins, hname⟩
    rw [steps_append]
    refine steps_inside ?_ hname
    rw [steps_first.mpr hbegins]
    nofun

theorem steps_unnamed {text : List Char} (h : ¬ Naming words text) :
    (({} : Context).steps plain words text).user = .outside := by
  by_contra hne
  exact h (steps_naming.mp hne)

theorem shown_of_markOne {first before after : List Char} {c : Char}
    (hwhole : Unmarked (redact marked words (markOne (first ++ before) c after)))
    (hpart : ¬ Unmarked (redact marked words (markOne before c after))) :
    ¬ TailSafe words first (before ++ c :: after) := by
  intro hsafe
  refine hpart (hsafe (mark false first) _ (map_mark false first) (markOne_text _ _ _) ?_)
  have hmarks : mark false first ++ markOne before c after = markOne (first ++ before) c after := by
    unfold markOne
    rw [UserUrl.mark_append, List.append_assoc]
  rw [hmarks]
  exact hwhole

theorem losesName_shows {first rest : List Char} (h : LosesName words first rest) :
    ¬ TailSafe words first rest := by
  rcases h with ⟨before, c, after, rfl, hchar, hcloses, hnaming, hnot⟩
  have hwhole := steps_naming.mpr hnaming
  rw [steps_append] at hwhole
  rcases name_apart hwhole (steps_unnamed hnot) with
    ⟨front, name, rfl, hfront, hname, _, hinside, houtside⟩
  -- the first character of the name that the reader of the part does not read
  have hlead : exists d more, name ++ c :: after = d :: more ∧ userChar d = true ∧
      closes plain more = true := by
    cases name with
    | nil => exact ⟨c, after, rfl, hchar, hcloses⟩
    | cons d name =>
        have hrest := List.forall_mem_cons.mp hname
        refine ⟨d, name ++ c :: after, rfl, hrest.left, ?_⟩
        rw [closes_append (k := plain) hrest.right]
        exact (if_pos hchar).trans hcloses
  rcases hlead with ⟨d, more, heq, hd, hmore⟩
  rw [List.append_assoc, heq]
  refine shown_of_markOne (markOne_named (by rwa [steps_append]) hd hmore)
    (markOne_shown (if_neg fun hkept => hkept.left houtside) ?_)
  intro hmem
  rcases mem_userHead hmem with h | h
  · exact (hfront _ h).ne_question rfl
  · revert h
    decide

theorem losesQuery_shows {first rest : List Char} (h : LosesQuery words first rest) :
    ¬ TailSafe words first rest := by
  rcases h with ⟨⟨c, after, rfl, hchar⟩, hquery⟩
  have hwhole : Unmarked (redact marked words (markOne (first ++ []) c after)) := by
    rw [List.append_nil]
    exact markOne_queried hquery hchar
  exact shown_of_markOne hwhole (markOne_shown (if_neg fun h => h.left rfl) nofun)

theorem losesQuestion_shows {first rest : List Char} (h : LosesQuestion words first rest) :
    ¬ TailSafe words first rest := by
  rcases h with ⟨before, name, after, rfl, hbegins, hne, hname, hnot, hquery⟩
  have hread := steps_first.mpr hbegins
  have hunread := steps_unnamed hnot
  rw [steps_append] at hunread
  have hmark : forall c, c ∈ before -> MarkChar c :=
    first_apart (y := ({} : Context).steps plain words first) hread (by rw [hunread]; nofun)
  refine shown_of_markOne (markOne_queried ?_ (by decide)) (markOne_shown ?_ ?_)
  · rw [userHead_append, userHead_unread hmark hname hunread, userOut_close rfl, ← subUser_eq]
    exact hquery.append_left _
  · exact kept_plain (by decide)
  · have hstars : userHead plain words {} (before ++ name) ('@' :: after) =
        before ++ plain.write "***" := userHead_read hmark hname hne hread rfl after
    rw [hstars]
    intro hmem
    rcases List.mem_append.mp hmem with h | h
    · exact (hmark _ h).ne_question rfl
    · revert h
      decide

/-- A name that only the reader of the part reads: the `@` and what follows is left alike. -/
theorem safe_of_gained {b : List (Char × Bool)} (hlost : Lost marked words {} x b)
    (hquestion : forall before name after, b.map Prod.fst = before ++ name ++ '@' :: after ->
      (({} : Context).steps plain words before).user = .first -> name ≠ [] ->
      (forall c, c ∈ name -> userChar c = true) -> (x.steps plain words before).user = .outside ->
      ¬ InQuery plain (before ++ name) ('@' :: subUser plain words after))
    (hfull : Unmarked (queryOut marked false (userOut marked words x b))) :
    Unmarked (queryOut marked false (userOut marked words {} b)) := by
  rcases hlost with ⟨before, item, after, rfl, hchar, hcloses, hinside, houtside⟩
  rw [steps_marked] at hinside houtside
  rcases name_apart hinside houtside with
    ⟨first, name, hbefore, hmark, hname, hempty | hread, hreading, hunread⟩
  · subst hempty
    exact absurd rfl hreading
  rcases List.map_eq_append_iff.mp hbefore with ⟨first, name, rfl, rfl, rfl⟩
  rcases closes_shape hcloses with ⟨user, close, after, rfl, huser, hclose⟩
  have hmarks : forall a, a ∈ first -> MarkChar (marked.glyph a) :=
    fun a ha => hmark a.1 (List.mem_map_of_mem ha)
  have hchars : forall a, a ∈ name ++ item :: user -> userChar (marked.glyph a) = true :=
    List.forall_mem_append.mpr ⟨fun a ha => hname a.1 (List.mem_map_of_mem ha),
      List.forall_mem_cons.mpr ⟨hchar, huser⟩⟩
  have htext : first ++ name ++ item :: (user ++ close :: after) =
      (first ++ (name ++ item :: user)) ++ close :: after := by simp
  have hnone : forall a, a ∈ first -> marked.glyph a ≠ '?' := fun a ha => (hmarks a ha).ne_question
  have hwhole : userOut marked words x (first ++ name ++ item :: (user ++ close :: after)) =
      first ++ ((name ++ item :: user) ++ close :: userOut marked words {} after) := by
    rw [htext, userOut_append, userHead_unread hmarks hchars (by rwa [steps_marked]),
      userOut_close hclose, List.append_assoc]
  have hpart : userOut marked words {} (first ++ name ++ item :: (user ++ close :: after)) =
      first ++ (marked.write "***" ++ close :: userOut marked words {} after) := by
    rw [htext, userOut_append, userHead_read hmarks hchars (by simp) (by rwa [steps_marked]) hclose,
      userOut_close hclose, List.append_assoc]
  have hstars : forall a, a ∈ marked.write "***" -> marked.glyph a ≠ '?' := by
    decide
  -- no query of the whole text goes on to the `@`
  have hafter : queryAfter marked false (name ++ item :: user)
      (close :: userOut marked words {} after) = false := by
    refine Bool.eq_false_iff.mpr fun hquery => ?_
    refine hquestion (first.map Prod.fst) ((name ++ item :: user).map Prod.fst)
      (after.map Prod.fst) ?_ hread (by simp) ?_ hunread ?_
    · rw [htext, List.map_append, List.map_append, List.map_cons]
      exact congrArg _ (congrArg (· :: _) hclose)
    · intro c hc
      rcases List.mem_map.mp hc with ⟨a, ha, rfl⟩
      exact hchars a ha
    · have hplain := (UserUrl.inQuery_marked _ _).mp (queryAfter_start.mp hquery)
      rw [List.map_cons, userOut_marked, ← subUser_eq] at hplain
      have hat : close.1 = '@' := hclose
      rw [hat] at hplain
      exact hplain.append_left _
  rw [hwhole, queryOut_none hnone, unmarked_append, queryOut_split, hafter, unmarked_append] at hfull
  rw [hpart, queryOut_none hnone, queryOut_none hstars]
  exact unmarked_append.mpr ⟨hfull.left,
    unmarked_append.mpr ⟨unmarked_write "***", hfull.right.right⟩⟩

theorem lost_marked {b : List (Char × Bool)} (h : Lost marked words x y b) :
    Lost plain words x y (b.map Prod.fst) := by
  rcases h with ⟨before, item, after, rfl, hchar, hcloses, hx, hy⟩
  rw [steps_marked] at hx hy
  rw [closes_marked] at hcloses
  exact ⟨before.map Prod.fst, item.1, after.map Prod.fst, by rw [List.map_append, List.map_cons],
    hchar, hcloses, hx, hy⟩

theorem losesName_of_lost {first rest : List Char}
    (h : Lost plain words (({} : Context).steps plain words first) {} rest) :
    LosesName words first rest := by
  rcases h with ⟨before, c, after, rfl, hchar, hcloses, hinside, houtside⟩
  rw [← steps_append, steps_naming] at hinside
  exact ⟨before, c, after, rfl, hchar, hcloses, hinside, fun h => steps_naming.mpr h houtside⟩

theorem queryOut_begin {x : Context} {inside : Bool} {b : List (Char × Bool)}
    (hlost : ¬ Lost marked words x {} b)
    (hinside : inside = true -> forall item rest, b = item :: rest -> queryChar item.1 = false) :
    queryOut marked inside (userOut marked words x b) =
      queryOut marked false (userOut marked words x b) := by
  cases inside with
  | false => rfl
  | true =>
      cases b with
      | nil => rfl
      | cons item rest =>
          have hkept : kept marked x item rest = [item] := if_neg fun h =>
            hlost ⟨[], item, rest, rfl, h.right.left, h.right.right, h.left, rfl⟩
          have hchar := hinside rfl item rest rfl
          rw [userOut, hkept]
          exact (queryOut_outside hchar true).trans (queryOut_outside hchar false).symm

/-- The beginning of an excerpt shows nothing exactly where it loses no user name, no query and
no `?` in a name that it alone has. -/
theorem tail_safe_iff {first rest : List Char} :
    TailSafe words first rest <-> ¬ LosesName words first rest ∧ ¬ LosesQuery words first rest ∧
      ¬ LosesQuestion words first rest := by
  constructor
  · intro hsafe
    exact ⟨fun h => losesName_shows h hsafe, fun h => losesQuery_shows h hsafe,
      fun h => losesQuestion_shows h hsafe⟩
  · rintro ⟨hname, hquery, hquestion⟩ a b ha hb hfull
    have hlost : ¬ Lost marked words (({} : Context).steps plain words first) {} b := fun h =>
      hname (losesName_of_lost (hb ▸ lost_marked h))
    rw [redact_eq, userOut_append, queryOut_split, unmarked_append, steps_marked, ha,
      queryOut_begin hlost] at hfull
    · rw [redact_eq]
      by_cases hgained : Lost marked words {} (({} : Context).steps plain words first) b
      · refine safe_of_gained hgained ?_ hfull.right
        intro before name after htext hread hne hchars hunread hin
        rw [← steps_append] at hunread
        exact hquestion ⟨before, name, after, hb ▸ htext, steps_first.mp hread, hne, hchars,
          fun h => steps_naming.mpr h hunread, hin⟩
      · rw [← userOut_together hlost hgained (Or.inr (Or.inr rfl))]
        exact hfull.right
    · intro hinside item rest' hcons
      refine Bool.eq_false_iff.mpr fun hchar => hquery ?_
      rw [queryAfter_start, UserUrl.inQuery_marked, userHead_marked, userOut_marked, ha, hb] at hinside
      refine ⟨⟨item.1, rest'.map Prod.fst, ?_, hchar⟩, hinside⟩
      rw [← hb, hcons, List.map_cons]

end Redaction
end Job
end MightyColab
