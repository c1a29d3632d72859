import MightyColab.Job.UserNames

/-!
# Redaction and cuts

When a part of a text, redacted alone, shows something that redacting the whole text takes
out. At the end of the part a user name or a query may be cut off before what it is known
by; at its beginning, after that.
-/

namespace MightyColab
namespace Job

open Lib

namespace Redaction

variable {alpha : Type} {k : Carrier alpha} {words : Words} {x y : Context}
  {c : alpha} {rest text tail : List alpha}

/-!
## The parts of a text
-/

theorem steps_more (hx : x.user = .more)
    (hall : forall a, a ∈ text -> userChar (k.glyph a) = true) :
    (x.steps k words text).user = .more := by
  induction text generalizing x with
  | nil => exact hx
  | cons c rest ih =>
      have hrest := List.forall_mem_cons.mp hall
      exact ih (step_more_of (by rw [hx]; nofun) hrest.left) hrest.right

theorem closes_all (hall : forall a, a ∈ text -> userChar (k.glyph a) = true) :
    closes k text = false := by
  have happend : closes k (text ++ []) = closes k [] := closes_append hall
  rw [List.append_nil] at happend
  exact happend

theorem userOut_inside (hall : forall a, a ∈ text -> userChar (k.glyph a) = true) :
    userOut k words x text = text := by
  have hkept : userOut k words x (text ++ []) = text ++ [] := userOut_unclosed rfl hall
  rw [List.append_nil] at hkept
  exact hkept

theorem closes_stopped (h : ¬ forall a, a ∈ text -> userChar (k.glyph a) = true)
    (tail : List alpha) : closes k (text ++ tail) = closes k text := by
  induction text with
  | nil => exact absurd nofun h
  | cons c rest ih =>
      rw [List.cons_append, closes, closes]
      split
      · next hchar => exact ih fun hall => h (List.forall_mem_cons.mpr ⟨hchar, hall⟩)
      · rfl

theorem userHead_uncut (h : ¬ ((x.steps k words text).user = .more ∧ closes k tail = true)) :
    userHead k words x text tail = userOut k words x text := by
  induction text generalizing x with
  | nil => rfl
  | cons c rest ih =>
      have hkept : kept k x c (rest ++ tail) = kept k x c rest := by
        by_cases hname : x.user ≠ .outside ∧ userChar (k.glyph c) = true
        · have hcloses : closes k (rest ++ tail) = closes k rest := by
            by_cases hall : forall a, a ∈ rest -> userChar (k.glyph a) = true
            · rw [closes_append hall, closes_all hall]
              cases htail : closes k tail with
              | false => rfl
              | true =>
                  have hmore : ((x.step words (k.glyph c)).steps k words rest).user = .more :=
                    steps_more (step_more_of hname.left hname.right) hall
                  exact absurd ⟨hmore, htail⟩ h
            · exact closes_stopped hall tail
          unfold kept
          rw [hcloses]
        · unfold kept
          rw [if_neg fun hn => hname ⟨hn.left, hn.right.left⟩,
            if_neg fun hn => hname ⟨hn.left, hn.right.left⟩]
      rw [userHead, userOut, hkept, ih h]

theorem userOut_at_first (h : (x.steps k words text).user = .first) (tail : List alpha) :
    userOut k words x (text ++ tail) =
      userOut k words x text ++ userOut k words (x.steps k words text) tail := by
  rw [userOut_append, userHead_uncut]
  rw [h]
  nofun

/-!
## Queries up to a cut
-/

theorem assigned_append (hall : forall a, a ∈ text -> queryChar (k.glyph a) = true)
    (htail : Assigned k tail = true) : Assigned k (text ++ tail) = true := by
  induction text with
  | nil => exact htail
  | cons c rest ih =>
      have hrest := List.forall_mem_cons.mp hall
      exact assigned_cons.mpr ⟨hrest.left, Or.inr (ih hrest.right)⟩

theorem assigned_stopped (h : ¬ forall a, a ∈ text -> queryChar (k.glyph a) = true)
    (tail : List alpha) : Assigned k (text ++ tail) = true <-> Assigned k text = true := by
  induction text with
  | nil => exact absurd nofun h
  | cons c rest ih =>
      rw [List.cons_append, assigned_cons, assigned_cons]
      refine and_congr_right fun hchar => or_congr_right ?_
      exact ih fun hall => h (List.forall_mem_cons.mpr ⟨hchar, hall⟩)

theorem InQuery.append_left (h : InQuery k text tail) (first : List alpha) :
    InQuery k (first ++ text) tail := by
  rcases h with ⟨before, question, between, rfl, h⟩
  exact ⟨first ++ before, question, between, by simp, h⟩

theorem InQuery.append_right {more : List alpha} (h : InQuery k text (more ++ tail))
    (hall : forall a, a ∈ more -> queryChar (k.glyph a) = true) :
    InQuery k (text ++ more) tail := by
  rcases h with ⟨before, question, between, rfl, hquestion, hbetween, hassigned⟩
  refine ⟨before, question, between ++ more, by simp, hquestion, ?_, by simpa using hassigned⟩
  intro a ha
  rcases List.mem_append.mp ha with ha | ha
  · exact hbetween a ha
  · exact hall a ha

/-- With another rest no more is left of a text, if the reader ends inside of a query with
it wherever it did. -/
theorem queryHead_mono {text first second : List (Char × Bool)} :
    forall {i j : Bool}, (i = true -> j = true) ->
      (queryAfter marked i text first = true -> queryAfter marked j text second = true) ->
      Unmarked (queryHead marked i text first) -> Unmarked (queryHead marked j text second) := by
  induction text with
  | nil => exact fun _ _ _ => List.forall_mem_nil _
  | cons c rest ih =>
      intro i j hij hafter hleft
      -- what is left with the first rest, and how its reader goes on
      have hfirst : exists i', Unmarked (queryHead marked i' rest first) ∧
          queryAfter marked i (c :: rest) first = queryAfter marked i' rest first ∧
          (¬ (i = true ∧ queryChar c.1 = true) -> c.2 = false ∧
            (i' = true -> c.1 = '?' ∧ Assigned marked (rest ++ first) = true)) := by
        rw [queryHead] at hleft
        rw [queryAfter]
        by_cases hinside : i = true ∧ queryChar (marked.glyph c) = true
        · rw [if_pos hinside] at hleft ⊢
          exact ⟨true, hleft, rfl, fun h => absurd hinside h⟩
        · rw [if_neg hinside] at hleft ⊢
          by_cases hbegins : marked.glyph c = '?' ∧ Assigned marked (rest ++ first) = true
          · rw [if_pos hbegins] at hleft ⊢
            have hparts := unmarked_append.mp hleft
            exact ⟨true, hparts.right, rfl,
              fun _ => ⟨hparts.left c (List.mem_cons_self), fun _ => hbegins⟩⟩
          · rw [if_neg hbegins] at hleft ⊢
            have hparts := List.forall_mem_cons.mp hleft
            exact ⟨false, hparts.right, rfl, fun _ => ⟨hparts.left, fun h => by cases h⟩⟩
      rcases hfirst with ⟨i', hrest, hstep, hkept⟩
      rw [hstep] at hafter
      rw [queryAfter] at hafter
      rw [queryHead]
      by_cases hinside : j = true ∧ queryChar (marked.glyph c) = true
      · rw [if_pos hinside] at hafter ⊢
        exact ih (fun _ => rfl) hafter hrest
      rw [if_neg hinside] at hafter ⊢
      have hitem := hkept fun h => hinside ⟨hij h.left, h.right⟩
      by_cases hbegins : marked.glyph c = '?' ∧ Assigned marked (rest ++ second) = true
      · rw [if_pos hbegins] at hafter ⊢
        refine unmarked_append.mpr ⟨List.forall_mem_cons.mpr ⟨hitem.left, ?_⟩,
          ih (fun _ => rfl) hafter hrest⟩
        exact unmarked_write "<redacted>"
      · rw [if_neg hbegins] at hafter ⊢
        refine List.forall_mem_cons.mpr ⟨hitem.left, ih (fun hi' => ?_) hafter hrest⟩
        exfalso
        rcases hitem.right hi' with ⟨hquestion, hassigned⟩
        by_cases hall : forall a, a ∈ rest -> queryChar (marked.glyph a) = true
        · -- the reader with the second rest ends inside, so some `=` comes after this `?`
          have hinner := hafter (queryAfter_iff.mpr (Or.inl ⟨hi', hall⟩))
          rcases queryAfter_start.mp hinner with
            ⟨before, question, between, rfl, _, hbetween, hassigned'⟩
          refine hbegins ⟨hquestion, ?_⟩
          rw [List.append_assoc, List.cons_append]
          refine assigned_append (fun a ha => hall a (by simp [ha])) ?_
          exact assigned_cons.mpr ⟨hall question (by simp), Or.inr hassigned'⟩
        · refine hbegins ⟨hquestion, (assigned_stopped hall second).mpr ?_⟩
          exact (assigned_stopped hall first).mp hassigned

variable (k) in
/-- A query begins in the text that goes with the first rest and stays with the second, and
some of it stands in the text. -/
def OpenQuery (text first second : List alpha) : Prop :=
  (exists before question between, text = before ++ question :: between ∧
    k.glyph question = '?' ∧ between ≠ [] ∧
    (forall a, a ∈ between -> queryChar (k.glyph a) = true) ∧
    Assigned k (between ++ first) = true) ∧ ¬ InQuery k text second

theorem queryHead_append (text more tail : List alpha) (inside : Bool) :
    queryHead k inside (text ++ more) tail = queryHead k inside text (more ++ tail) ++
      queryHead k (queryAfter k inside text (more ++ tail)) more tail := by
  induction text generalizing inside with
  | nil => rfl
  | cons c rest ih =>
      rw [List.cons_append, queryHead, queryHead, queryAfter, List.append_assoc]
      split
      · exact ih true
      · split
        · rw [ih, List.append_assoc]
        · rw [ih]
          rfl

theorem queryHead_safe {text first second : List (Char × Bool)}
    (hopen : ¬ OpenQuery marked text first second)
    (hleft : Unmarked (queryHead marked false text first)) :
    Unmarked (queryHead marked false text second) := by
  by_cases hfollows : InQuery marked text first -> InQuery marked text second
  · exact queryHead_mono id (fun h => queryAfter_start.mpr (hfollows (queryAfter_start.mp h))) hleft
  rw [Classical.not_imp] at hfollows
  rcases hfollows with ⟨⟨before, question, between, rfl, hquestion, hall, hassigned⟩, hnot⟩
  have hempty : between = [] := by
    by_contra hne
    exact hopen ⟨⟨before, question, between, rfl, hquestion, hne, hall, hassigned⟩, hnot⟩
  subst hempty
  have hchar : queryChar (marked.glyph question) = true := by
    rw [hquestion]
    decide
  have hsingle : forall a, a ∈ [question] -> queryChar (marked.glyph a) = true :=
    List.forall_mem_cons.mpr ⟨hchar, List.forall_mem_nil _⟩
  have hfirst : queryAfter marked false before ([question] ++ first) = false := by
    refine Bool.eq_false_iff.mpr fun h => hopen ⟨?_, hnot⟩
    rcases queryAfter_start.mp h with ⟨front, q, more, rfl, hq, hmore, hassigned'⟩
    refine ⟨front, q, more ++ [question], by simp, hq, by simp, ?_, by simpa using hassigned'⟩
    exact List.forall_mem_append.mpr ⟨hmore, hsingle⟩
  have hsecond : queryAfter marked false before ([question] ++ second) = false := by
    refine Bool.eq_false_iff.mpr fun h => hnot ?_
    exact (queryAfter_start.mp h).append_right hsingle
  have hplain : Assigned marked second ≠ true := fun h =>
    hnot ⟨before, question, [], rfl, hquestion, List.forall_mem_nil _, h⟩
  rw [queryHead_append, hfirst, unmarked_append] at hleft
  rw [queryHead_append, hsecond, unmarked_append]
  refine ⟨queryHead_mono id (fun h => ?_) hleft.left, ?_⟩
  · rw [hfirst] at h
    cases h
  · have hitem : question.2 = false := by
      have hquery := hleft.right
      rw [queryHead, if_neg fun h => Bool.false_ne_true h.left] at hquery
      split at hquery
      · exact hquery question (List.mem_cons_self)
      · exact hquery question (List.mem_cons_self)
    rw [queryHead, if_neg fun h => Bool.false_ne_true h.left, if_neg fun h => hplain h.right]
    exact List.forall_mem_cons.mpr ⟨hitem, List.forall_mem_nil _⟩

theorem steps_marked (x : Context) (text : List (Char × Bool)) :
    x.steps marked words text = x.steps plain words (text.map Prod.fst) := List.foldl_map.symm

/-!
## The end of an excerpt
-/

def HeadSafe (words : Words) (first rest : List Char) : Prop :=
  forall a b : List (Char × Bool), a.map Prod.fst = first -> b.map Prod.fst = rest ->
    Unmarked (redact marked words (a ++ b)) -> Unmarked (redact marked words a)

/-- The first part ends inside of a user name that comes to its `@` later, and what it has of
the name does not stand in a query that goes. -/
def CutsName (words : Words) (first rest : List Char) : Prop :=
  exists before name, first = before ++ name ∧ NameBegins words before ∧ name ≠ [] ∧
    (forall c, c ∈ name -> userChar c = true) ∧ closes plain rest = true ∧
    ¬ (InQuery plain (subUser plain words before) name ∧ forall c, c ∈ name -> queryChar c = true)

/-- The first part ends inside of a query, behind its `?`, and the `=` comes later. -/
def CutsQuery (words : Words) (first rest : List Char) : Prop :=
  exists more, subUser plain words (first ++ rest) = subUser plain words first ++ more ∧
    OpenQuery plain (subUser plain words first) more []

theorem cutsName_shows {first rest : List Char} (h : CutsName words first rest) :
    ¬ HeadSafe words first rest := by
  rcases h with ⟨before, name, rfl, hbegins, hne, hname, hcloses, hbare⟩
  intro hsafe
  have hfirst : (({} : Context).steps marked words (mark false before)).user = .first := by
    rw [steps_marked, map_mark]
    exact steps_first.mpr hbegins
  have hmarks : forall item, item ∈ mark true name -> userChar (marked.glyph item) = true := by
    intro item hitem
    rcases List.mem_map.mp hitem with ⟨c, hc, rfl⟩
    exact hname c hc
  have hneMarks : mark true name ≠ [] := fun h => hne (List.map_eq_nil_iff.mp h)
  have hclosesMarks : closes marked (mark false rest) = true := by
    rw [closes_marked, map_mark, hcloses]
  have hshown := hsafe (mark false before ++ mark true name) (mark false rest)
    (by rw [List.map_append, map_mark, map_mark]) (map_mark false rest) ?_
  · rw [redact_eq, userOut_at_first hfirst] at hshown
    have hkept := @userOut_inside _ marked words (({} : Context).steps marked words
      (mark false before)) _ hmarks
    have hmarked : forall item, item ∈ mark true name -> item.2 = true := by
      intro item hitem
      rcases List.mem_map.mp hitem with ⟨c, _, rfl⟩
      rfl
    have hbetween := @unmarked_between (userOut marked words {} (mark false before))
      (mark true name) [] (unmarked_userOut (unmarked_mark before)) nofun hmarked
    rw [hkept, ← List.append_nil (mark true name)] at hshown
    rcases hbetween.mp hshown with h | ⟨hquery, hall⟩
    · exact hneMarks h
    · refine hbare ⟨?_, fun c hc => hall (c, true) (List.mem_map_of_mem hc)⟩
      rw [UserUrl.inQuery_marked, userOut_marked, map_mark, List.append_nil, map_mark] at hquery
      rw [subUser_eq]
      exact hquery
  · rw [redact_eq, List.append_assoc, userOut_at_first hfirst,
      userOut_cut hfirst hneMarks hmarks hclosesMarks]
    refine unmarked_queryOut (unmarked_append.mpr ⟨unmarked_userOut (unmarked_mark before), ?_⟩)
    exact unmarked_append.mpr ⟨unmarked_write "***", unmarked_userOut (unmarked_mark rest)⟩

theorem kept_mark {c : Char} {rest : List Char} (h : kept plain x c rest = [c]) {on : Bool} :
    kept marked x (c, on) (mark false rest) = [(c, on)] := by
  have hlength := congrArg List.length (kept_marked x (c, on) (mark false rest))
  rw [map_mark] at hlength
  change _ = (kept plain x c rest).length at hlength
  rw [h, List.length_map] at hlength
  unfold kept at hlength ⊢
  split
  · next hgone =>
      rw [if_pos hgone] at hlength
      have hthree : (marked.write "***").length = 3 := by decide
      split at hlength
      · rw [hthree] at hlength
        cases hlength
      · cases hlength
  · rfl

theorem kept_after_question {rest : List Char} {d : Char}
    (h : kept plain x '?' (d :: rest) = ['?']) :
    kept plain (x.step words '?') d rest = [d] := by
  unfold kept
  rw [if_neg]
  rintro ⟨huser, hchar, hcloses⟩
  have hinside : x.user ≠ .outside := by
    intro hx
    refine huser ?_
    unfold Context.step
    simp only
    rw [if_neg (by rintro ⟨h, _⟩; revert h; decide), if_neg fun h => h.right hx]
  have hgone : x.user ≠ .outside ∧ userChar (plain.glyph '?') = true ∧
      closes plain (d :: rest) = true := by
    refine ⟨hinside, by decide, ?_⟩
    rw [closes, if_pos hchar, hcloses]
  unfold kept at h
  rw [if_pos hgone] at h
  split at h <;> revert h <;> decide

theorem cutsQuery_shows {first rest : List Char} (h : CutsQuery words first rest)
    (huncut : ¬ ((({} : Context).steps plain words first).user = .more ∧
      closes plain rest = true)) :
    ¬ HeadSafe words first rest := by
  rcases h with
    ⟨more, hmore, ⟨before, question, between, htext, hquestion, hne, hall, hassigned⟩, hnot⟩
  have hq : question = '?' := hquestion
  subst hq
  cases between with
  | nil => exact absurd rfl hne
  | cons c between =>
      simp only [subUser_eq] at htext hnot hmore
      rcases userOut_shown (by decide) [] htext with
        ⟨head, after, rfl, hshown, hhead, htail⟩
      rw [List.nil_append] at hshown htail
      rw [steps_concat] at htail
      have hkept := kept_shown hshown
      cases after with
      | nil => cases htail
      | cons d after =>
          have hd := @kept_after_question words _ _ _ hkept
          change userOut plain words ((({} : Context).steps plain words head).step words '?')
            (d :: after) = c :: between at htail
          rw [userOut, hd] at htail
          cases htail
          intro hsafe
          -- the character behind the `?` is marked
          have hmarkText : (mark false (head ++ ['?']) ++ (c, true) :: mark false after).map
              Prod.fst = head ++ '?' :: c :: after := by
            rw [List.map_append, map_mark, List.map_cons, map_mark]
            simp
          have hsteps : ({} : Context).steps marked words (mark false (head ++ ['?'])) =
              (({} : Context).steps plain words head).step words '?' := by
            rw [steps_marked, map_mark, steps_concat]
            rfl
          have hfront : (userHead marked words {} (mark false (head ++ ['?']))
              ((c, true) :: mark false after)).map Prod.fst = before ++ ['?'] := by
            rw [userHead_marked, map_mark, List.map_cons, map_mark, userHead_append]
            refine congr_arg₂ (· ++ ·) hhead ?_
            rw [userHead, userHead, List.append_nil]
            exact hkept
          have hout : userOut marked words {} (mark false (head ++ ['?']) ++
              (c, true) :: mark false after) =
                userHead marked words {} (mark false (head ++ ['?']))
                  ((c, true) :: mark false after) ++ ([(c, true)] ++
                    userOut marked words (((({} : Context).steps plain words head).step
                      words '?').step words c) (mark false after)) := by
            rw [userOut_append, hsteps, userOut, kept_mark hd]
            rfl
          have huncut' : ¬ ((({} : Context).steps marked words (mark false (head ++ ['?']) ++
              (c, true) :: mark false after)).user = .more ∧
                closes marked (mark false rest) = true) := by
            rw [steps_marked, hmarkText, closes_marked, map_mark]
            exact huncut
          have hwhole := @userOut_append _ marked words
            (mark false (head ++ ['?']) ++ (c, true) :: mark false after) (mark false rest) {}
          rw [userHead_uncut huncut'] at hwhole
          have hmoreText := congrArg (List.map Prod.fst) hwhole
          rw [userOut_marked, List.map_append, hmarkText, map_mark, List.map_append,
            userOut_marked, hmarkText, hmore] at hmoreText
          have hmoreEq := List.append_cancel_left hmoreText
          rw [hout, List.append_assoc (userHead _ _ _ _ _), List.append_assoc [(c, true)]] at hwhole
          have hmarkedOne : forall item, item ∈ [(c, true)] -> item.2 = true :=
            List.forall_mem_cons.mpr ⟨rfl, List.forall_mem_nil _⟩
          have hbefore := @unmarked_userHead words {} _ ((c, true) :: mark false after)
            (unmarked_mark (head ++ ['?']))
          have hafterText : (userOut marked words (((({} : Context).steps plain words head).step
              words '?').step words c) (mark false after)).map Prod.fst = userOut plain words
                (((({} : Context).steps plain words head).step words '?').step words c) after := by
            rw [userOut_marked, map_mark]
          have hchar : queryChar c = true := hall c (List.mem_cons_self)
          have hshown := hsafe _ (mark false rest) hmarkText (map_mark false rest) ?_
          · rw [redact_eq, hout] at hshown
            rcases (unmarked_between hbefore (unmarked_userOut (unmarked_mark after))
              hmarkedOne).mp hshown with h | ⟨hquery, _⟩
            · cases h
            · refine hnot ?_
              rw [UserUrl.inQuery_marked, hfront, List.map_append, hafterText] at hquery
              have hwhole := (show InQuery plain (before ++ ['?']) ((c :: userOut plain words
                (((({} : Context).steps plain words head).step words '?').step words c)
                  after) ++ []) by simpa using hquery).append_right hall
              rw [htext]
              rw [List.append_assoc] at hwhole
              exact hwhole
          · have hwholeMarks : userOut marked words {} (mark false (head ++ ['?']) ++
                (c, true) :: mark false after ++ mark false rest) = _ := hwhole
            rw [redact_eq, hwholeMarks]
            refine (unmarked_between hbefore (unmarked_append.mpr
              ⟨unmarked_userOut (unmarked_mark after), unmarked_userOut (unmarked_mark rest)⟩)
                hmarkedOne).mpr (Or.inr ⟨?_, List.forall_mem_cons.mpr ⟨hchar, List.forall_mem_nil _⟩⟩)
            rw [UserUrl.inQuery_marked, hfront, List.map_append, List.map_append, hafterText]
            refine ⟨before, '?', [], rfl, rfl, List.forall_mem_nil _, ?_⟩
            rw [← hmoreEq]
            exact hassigned

theorem openQuery_marked {text first second : List (Char × Bool)}
    (h : OpenQuery marked text first second) :
    OpenQuery plain (text.map Prod.fst) (first.map Prod.fst) (second.map Prod.fst) := by
  rcases h with ⟨⟨before, question, between, rfl, hquestion, hne, hall, hassigned⟩, hnot⟩
  rw [assigned_marked, List.map_append] at hassigned
  rw [UserUrl.inQuery_marked] at hnot
  refine ⟨⟨before.map Prod.fst, question.1, between.map Prod.fst, ?_, hquestion, ?_, ?_,
    hassigned⟩, hnot⟩
  · rw [List.map_append, List.map_cons]
  · exact fun h => hne (List.map_eq_nil_iff.mp h)
  · intro c hc
    rcases List.mem_map.mp hc with ⟨item, hitem, rfl⟩
    exact hall item hitem

theorem name_cut {first rest : List Char}
    (h : (({} : Context).steps plain words first).user = .more ∧ closes plain rest = true) :
    exists before name, first = before ++ name ∧ NameBegins words before ∧ name ≠ [] ∧
      (forall c, c ∈ name -> userChar c = true) ∧
      subUser plain words first = subUser plain words before ++ name := by
  rcases name_begun rfl (by rw [h.left]; nofun) with ⟨before, name, rfl, hbefore, hname⟩
  refine ⟨before, name, rfl, steps_first.mp hbefore, ?_, hname, ?_⟩
  · rintro rfl
    rw [List.append_nil, hbefore] at h
    cases h.left
  · rw [subUser_eq, subUser_eq, userOut_at_first hbefore]
    exact congrArg _ (userOut_inside hname)

theorem safe_of_covered {before name rest : List Char} (hbegins : NameBegins words before)
    (hname : forall c, c ∈ name -> userChar c = true)
    (hquery : InQuery plain (subUser plain words before) name)
    (hall : forall c, c ∈ name -> queryChar c = true) :
    HeadSafe words (before ++ name) rest := by
  intro a b ha _ hfull
  rcases List.map_eq_append_iff.mp ha with ⟨front, back, rfl, rfl, rfl⟩
  have hfirst : (({} : Context).steps marked words front).user = .first := by
    rw [steps_marked]
    exact steps_first.mpr hbegins
  have hback : forall item, item ∈ back -> userChar (marked.glyph item) = true :=
    fun item hitem => hname item.1 (List.mem_map_of_mem hitem)
  have hinside : InQuery marked (userOut marked words {} front) back := by
    rw [UserUrl.inQuery_marked, userOut_marked, ← subUser_eq]
    exact hquery
  rw [redact_eq, List.append_assoc, userOut_at_first hfirst, queryOut_split,
    unmarked_append] at hfull
  have hnone : queryOut marked true (back ++ []) = [] :=
    queryOut_run (fun item hitem => hall item.1 (List.mem_map_of_mem hitem)) []
  rw [List.append_nil] at hnone
  rw [redact_eq, userOut_at_first hfirst, userOut_inside hback, queryOut_split,
    queryAfter_start.mpr hinside, hnone, List.append_nil]
  exact queryHead_mono id (fun _ => queryAfter_start.mpr hinside) hfull.left

theorem safe_of_uncut {first rest : List Char} (hopen : ¬ CutsQuery words first rest)
    (huncut : ¬ ((({} : Context).steps plain words first).user = .more ∧
      closes plain rest = true)) :
    HeadSafe words first rest := by
  intro a b ha hb hfull
  have hparts := @userOut_append _ marked words a b {}
  rw [userHead_uncut (by rwa [steps_marked, ha, closes_marked, hb])] at hparts
  have htext := congrArg (List.map Prod.fst) hparts
  rw [userOut_marked, List.map_append, List.map_append, userOut_marked, ha, hb, ← subUser_eq,
    ← subUser_eq] at htext
  rw [redact_eq, hparts, queryOut_split, unmarked_append] at hfull
  have hsafe := @queryHead_safe _ _ [] ?_ hfull.left
  · have hend := queryOut_split (k := marked) (userOut marked words {} a) [] false
    rw [List.append_nil] at hend
    rw [redact_eq, hend]
    exact unmarked_append.mpr ⟨hsafe, nofun⟩
  · intro h
    have hplain := openQuery_marked h
    rw [userOut_marked, ha, ← subUser_eq] at hplain
    exact hopen ⟨_, htext, hplain⟩

/-- The end of an excerpt shows nothing exactly where it cuts neither a user name nor a query. -/
theorem head_safe_iff {first rest : List Char} :
    HeadSafe words first rest <-> ¬ CutsName words first rest ∧ ¬ CutsQuery words first rest := by
  constructor
  · intro hsafe
    refine ⟨fun hcut => cutsName_shows hcut hsafe, fun hcut => ?_⟩
    by_cases hname : (({} : Context).steps plain words first).user = .more ∧
        closes plain rest = true
    · rcases name_cut hname with ⟨before, name, rfl, hbegins, hne, hchars, htext⟩
      refine cutsName_shows ⟨before, name, rfl, hbegins, hne, hchars, hname.right, ?_⟩ hsafe
      rintro ⟨hquery, hall⟩
      rcases hcut with ⟨more, _, _, hnot⟩
      refine hnot ?_
      rw [htext]
      exact InQuery.append_right (by rwa [List.append_nil]) hall
    · exact cutsQuery_shows hcut hname hsafe
  · rintro ⟨hname, hquery⟩
    by_cases hcut : (({} : Context).steps plain words first).user = .more ∧
        closes plain rest = true
    · rcases name_cut hcut with ⟨before, name, rfl, hbegins, hne, hchars, _⟩
      have hcovered : InQuery plain (subUser plain words before) name ∧
          forall c, c ∈ name -> queryChar c = true := by
        by_contra hbare
        exact hname ⟨before, name, rfl, hbegins, hne, hchars, hcut.right, hbare⟩
      exact safe_of_covered hbegins hchars hcovered.left hcovered.right
    · exact safe_of_uncut hquery hcut

end Redaction
end Job
end MightyColab
