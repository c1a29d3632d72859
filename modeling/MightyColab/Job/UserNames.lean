import MightyColab.Job.LeftQueries

/-!
# User names in error texts

Which characters of a URL's user name redaction leaves. The characters are followed by marks:
every item of the text carries one, and what redaction writes itself carries none.
-/

namespace MightyColab
namespace Job

open Lib

namespace Redaction

variable {words : Words}

/-!
## Marks
-/

def marked : Carrier (Char × Bool) where
  glyph := Prod.fst
  made c := (c, false)

def mark (on : Bool) (text : List Char) : List (Char × Bool) := text.map fun c => (c, on)

def Unmarked (text : List (Char × Bool)) : Prop := forall item, item ∈ text -> item.2 = false

theorem unmarked_mark (text : List Char) : Unmarked (mark false text) := by
  intro item hitem
  rcases List.mem_map.mp hitem with ⟨c, _, rfl⟩
  rfl

theorem unmarked_append {first rest : List (Char × Bool)} :
    Unmarked (first ++ rest) <-> Unmarked first ∧ Unmarked rest := List.forall_mem_append

theorem map_mark (on : Bool) (text : List Char) : (mark on text).map Prod.fst = text := by
  unfold mark
  rw [List.map_map]
  exact List.map_id text

theorem closes_marked (text : List (Char × Bool)) :
    closes marked text = closes plain (text.map Prod.fst) := by
  induction text with
  | nil => rfl
  | cons c rest ih =>
      rw [List.map_cons, closes, closes, ih]
      rfl

theorem kept_marked (x : Context) (c : Char × Bool) (rest : List (Char × Bool)) :
    (kept marked x c rest).map Prod.fst = kept plain x c.1 (rest.map Prod.fst) := by
  unfold kept
  rw [closes_marked]
  show List.map Prod.fst (if x.user ≠ .outside ∧ userChar c.1 = true ∧
    closes plain (rest.map Prod.fst) = true then _ else [c]) = _
  split
  · next h =>
      refine Eq.trans ?_ (if_pos h).symm
      split <;> rfl
  · next h => exact (if_neg h).symm

theorem userOut_marked (x : Context) (text : List (Char × Bool)) :
    (userOut marked words x text).map Prod.fst = userOut plain words x (text.map Prod.fst) := by
  induction text generalizing x with
  | nil => rfl
  | cons c rest ih =>
      rw [userOut, List.map_append, List.map_cons, userOut, kept_marked, ih]
      rfl

theorem userHead_marked (x : Context) (text tail : List (Char × Bool)) :
    (userHead marked words x text tail).map Prod.fst =
      userHead plain words x (text.map Prod.fst) (tail.map Prod.fst) := by
  induction text generalizing x with
  | nil => rfl
  | cons c rest ih =>
      rw [userHead, List.map_append, List.map_cons, userHead, kept_marked, ih, List.map_append]
      rfl

theorem assigned_marked (text : List (Char × Bool)) :
    Assigned marked text = Assigned plain (text.map Prod.fst) := by
  unfold Assigned Carrier.run
  rw [List.takeWhile_map, List.any_map]
  rfl

theorem queryOut_marked (inside : Bool) (text : List (Char × Bool)) :
    (queryOut marked inside text).map Prod.fst = queryOut plain inside (text.map Prod.fst) := by
  induction text generalizing inside with
  | nil => rfl
  | cons c rest ih =>
      rw [List.map_cons, queryOut, queryOut, assigned_marked]
      show List.map Prod.fst (if inside = true ∧ queryChar c.1 = true then _
        else if c.1 = '?' ∧ Assigned plain (rest.map Prod.fst) = true then _ else _) = _
      split
      · next h => exact (ih true).trans (if_pos h).symm
      · next h =>
          refine Eq.trans ?_ (if_neg h).symm
          split
          · next h' =>
              refine Eq.trans ?_ (if_pos h').symm
              rw [List.map_append, List.map_cons, ih]
              rfl
          · next h' =>
              refine Eq.trans ?_ (if_neg h').symm
              rw [List.map_cons, ih]

theorem redact_marked (text : List (Char × Bool)) :
    (redact marked words text).map Prod.fst = redact plain words (text.map Prod.fst) := by
  rw [redact_eq, redact_eq, queryOut_marked, userOut_marked]

theorem unmarked_write (text : String) : Unmarked (marked.write text) := by
  intro item hitem
  rcases List.mem_map.mp hitem with ⟨c, _, rfl⟩
  rfl

theorem unmarked_kept {x : Context} {c : Char × Bool} (h : c.2 = false)
    (rest : List (Char × Bool)) : Unmarked (kept marked x c rest) := by
  unfold kept
  split
  · split
    · exact unmarked_write "***"
    · exact List.forall_mem_nil _
  · exact List.forall_mem_singleton.mpr h

theorem unmarked_userOut {x : Context} {text : List (Char × Bool)} (h : Unmarked text) :
    Unmarked (userOut marked words x text) := by
  induction text generalizing x with
  | nil => exact List.forall_mem_nil _
  | cons c rest ih =>
      have hrest := List.forall_mem_cons.mp h
      exact unmarked_append.mpr ⟨unmarked_kept hrest.left rest, ih hrest.right⟩

theorem unmarked_userHead {x : Context} {text tail : List (Char × Bool)} (h : Unmarked text) :
    Unmarked (userHead marked words x text tail) := by
  induction text generalizing x with
  | nil => exact List.forall_mem_nil _
  | cons c rest ih =>
      have hrest := List.forall_mem_cons.mp h
      exact unmarked_append.mpr ⟨unmarked_kept hrest.left (rest ++ tail), ih hrest.right⟩

theorem unmarked_queryOut {inside : Bool} {text : List (Char × Bool)} (h : Unmarked text) :
    Unmarked (queryOut marked inside text) := by
  rw [← List.append_nil text, queryOut_split]
  exact unmarked_append.mpr ⟨mem_queryHead (fun _ _ => rfl) h, nofun⟩

theorem unmarked_between {before left after : List (Char × Bool)} (hbefore : Unmarked before)
    (hafter : Unmarked after) (hleft : forall item, item ∈ left -> item.2 = true) :
    Unmarked (queryOut marked false (before ++ (left ++ after))) <->
      left = [] ∨ (InQuery marked before (left ++ after) ∧
        forall item, item ∈ left -> queryChar item.1 = true) := by
  have hhead : Unmarked (queryHead marked false before (left ++ after)) :=
    mem_queryHead (fun _ _ => rfl) hbefore
  have hitems : forall (left : List (Char × Bool)) (inside : Bool),
      (forall item, item ∈ left -> item.2 = true) ->
      (Unmarked (queryOut marked inside (left ++ after)) <->
        left = [] ∨ (inside = true ∧ forall item, item ∈ left -> queryChar item.1 = true)) := by
    intro left
    induction left with
    | nil => exact fun inside _ => iff_of_true (unmarked_queryOut hafter) (Or.inl rfl)
    | cons item left ih =>
        intro inside hall
        have hrest := List.forall_mem_cons.mp hall
        rw [List.cons_append, queryOut]
        split
        · next hinside =>
            rw [ih true hrest.right, List.forall_mem_cons]
            constructor
            · rintro (rfl | ⟨_, h⟩)
              · exact Or.inr ⟨hinside.left, hinside.right, List.forall_mem_nil _⟩
              · exact Or.inr ⟨hinside.left, hinside.right, h⟩
            · rintro (h | ⟨_, _, h⟩)
              · cases h
              · exact Or.inr ⟨rfl, h⟩
        · next hinside =>
            have hkept : forall rest : List (Char × Bool), ¬ Unmarked (item :: rest) := by
              intro rest h
              have hitem := h item (List.mem_cons_self)
              rw [hrest.left] at hitem
              cases hitem
            refine iff_of_false ?_ ?_
            · split
              · exact hkept _
              · exact hkept _
            · rintro (h | ⟨hin, h⟩)
              · cases h
              · exact hinside ⟨hin, h item (List.mem_cons_self)⟩
  rw [queryOut_split, unmarked_append, and_iff_right hhead, hitems left _ hleft]
  refine or_congr_right (and_congr_left' ?_)
  exact queryAfter_start

/-!
## URLs with a user name
-/

def authorityChar (c : Char) : Bool := !stop c && !(['/', '?', '#'].contains c)

/-- A URL in a text whose authority has a user name: all before its last `@`. -/
structure UserUrl (text : List Char) where
  before : List Char
  scheme : List Char
  user : List Char
  host : List Char
  after : List Char
  text_eq : text = before ++ scheme ++ "://".toList ++ (user ++ '@' :: (host ++ after))
  scheme_first : exists c rest, scheme = c :: rest ∧ c.isAlpha = true
  scheme_chars : forall c, c ∈ scheme -> c.isAlphanum = true ∨ c ∈ ['+', '.', '-']
  user_chars : forall c, c ∈ user -> authorityChar c = true
  host_chars : forall c, c ∈ host -> authorityChar c = true ∧ c ≠ '@'
  ends : forall c, after.head? = some c -> authorityChar c = false

instance (text : List Char) : Decidable (Bounded words text) :=
  decidable_of_iff _ (steps_bounded text)

namespace UserUrl

variable {text : List Char} (o : UserUrl text) (words)

def head : List Char := o.before ++ o.scheme ++ "://".toList

def tail : List Char := '@' :: (o.host ++ o.after)

/-- `_USERINFO` finds the scheme. -/
def Found : Prop := Bounded words (o.before ++ o.scheme)

instance : Decidable (o.Found words) := inferInstanceAs (Decidable (Bounded _ _))

/-- What `_USERINFO.sub` leaves of the user name: what comes from its first `@` on. -/
def left : List Char := if o.Found words then o.user.dropWhile (· ≠ '@') else o.user

def gone : List Char := if o.Found words then o.user.takeWhile (· ≠ '@') else []

def marks : List (Char × Bool) := mark false o.head ++ (mark true o.user ++ mark false o.tail)

/-- No character of the user name is left. -/
def Gone : Prop := Unmarked (redact marked words o.marks)

/-- `_USERINFO.sub` leaves nothing of the user name, or what it leaves stands in a query that
goes. -/
def Covered : Prop :=
  o.left words = [] ∨ (Queried words (o.head ++ o.gone words) (o.left words ++ o.tail) ∧
    forall c, c ∈ o.left words -> queryChar c = true)

/-!
### What becomes of the name
-/

theorem userChar_of_authority {c : Char} (h : authorityChar c = true) (hc : c ≠ '@') :
    userChar c = true := by
  unfold authorityChar at h
  simp only [Bool.and_eq_true, Bool.not_eq_true', List.contains_eq_mem, decide_eq_false_iff_not,
    List.mem_cons, not_or] at h
  unfold userChar
  rw [h.left, bne_iff_ne.mpr h.right.left, bne_iff_ne.mpr hc]
  rfl

theorem ne_slash_of_authority {c : Char} (h : authorityChar c = true) : c ≠ '/' := by
  rintro rfl
  revert h
  decide

theorem steps_mark (x : Context) (on : Bool) (text : List Char) :
    x.steps marked words (mark on text) = x.steps plain words text := List.foldl_map

theorem user_head : (({} : Context).steps plain words o.head).user =
    if o.Found words then .first else .outside := by
  have hsteps : ({} : Context).steps plain words o.head =
      (((({} : Context).steps plain words (o.before ++ o.scheme)).step words ':').step
        words '/').step words '/' := steps_append {} (o.before ++ o.scheme) "://".toList
  rw [hsteps, user_after_mark]
  exact if_congr (steps_bounded _) rfl rfl

theorem mark_append (on : Bool) (first rest : List Char) :
    mark on (first ++ rest) = mark on first ++ mark on rest := List.map_append

theorem outside_mark {x : Context} (hx : x.user = .outside) {user : List Char}
    (hall : forall c, c ∈ user -> authorityChar c = true) (rest : List Char) :
    exists after, userOut marked words x (mark true user ++ mark false rest) =
      mark true user ++ after ∧ Unmarked after := by
  refine ⟨_, userOut_outside hx ?_ _, unmarked_userOut (unmarked_mark rest)⟩
  intro item hitem
  rcases List.mem_map.mp hitem with ⟨c, hc, rfl⟩
  exact ne_slash_of_authority (hall c hc)

theorem gone_append_left : o.gone words ++ o.left words = o.user := by
  unfold gone left
  split
  · exact List.takeWhile_append_dropWhile
  · rfl

theorem gone_cases : o.gone words = [] ∨ o.Found words := by
  unfold gone
  split
  · next hfound => exact Or.inr hfound
  · exact Or.inl rfl

theorem gone_chars {c : Char} (h : c ∈ o.gone words) : userChar c = true := by
  unfold gone at h
  split at h
  · have hne : decide (c ≠ '@') = true := List.mem_takeWhile_imp (p := fun c => c ≠ '@') h
    exact userChar_of_authority (o.user_chars c ((List.takeWhile_sublist _).mem h))
      (of_decide_eq_true hne)
  · cases h

/-- What is left of a user name behind a scheme that is found begins with its first `@`. -/
theorem left_cases (hfound : o.Found words) : o.left words = [] ∨
    exists more, o.left words = '@' :: more ∧ forall c, c ∈ more -> authorityChar c = true := by
  have hleft : o.left words = o.user.dropWhile (· ≠ '@') := if_pos hfound
  cases hdrop : o.user.dropWhile (· ≠ '@') with
  | nil => exact Or.inl (hleft.trans hdrop)
  | cons c more =>
      have hhead := List.head_dropWhile_not (fun c => decide (c ≠ '@'))
        (l := o.user) (by rw [hdrop]; nofun)
      simp only [hdrop, List.head_cons] at hhead
      refine Or.inr ⟨more, ?_, fun d hd => o.user_chars d ?_⟩
      · rw [hleft, hdrop, of_not_not (of_decide_eq_false hhead)]
      · exact (List.dropWhile_sublist _).mem (by rw [hdrop]; exact List.mem_cons_of_mem c hd)

theorem closes_left (hfound : o.Found words) :
    closes marked (mark true (o.left words) ++ mark false o.tail) = true := by
  rcases o.left_cases words hfound with h | ⟨more, h, _⟩
  · rw [h]
    rfl
  · rw [h]
    rfl

theorem unmarked_front : Unmarked (userHead marked words {} (mark false o.head ++
    mark true (o.gone words)) (mark true (o.left words) ++ mark false o.tail)) := by
  rw [userHead_append, unmarked_append, steps_mark]
  refine ⟨unmarked_userHead (unmarked_mark o.head), ?_⟩
  by_cases hne : o.gone words = []
  · rw [hne]
    exact List.forall_mem_nil _
  have hfound := (o.gone_cases words).resolve_left hne
  have hfirst : (({} : Context).steps plain words o.head).user = .first :=
    (o.user_head words).trans (if_pos hfound)
  have hmark : mark true (o.gone words) ≠ [] := fun h => hne (List.map_eq_nil_iff.mp h)
  have hchars : forall item, item ∈ mark true (o.gone words) ->
      userChar (marked.glyph item) = true := by
    intro item hitem
    rcases List.mem_map.mp hitem with ⟨c, hc, rfl⟩
    exact o.gone_chars words hc
  rw [userHead_name hfirst hmark hchars (o.closes_left words hfound)]
  exact unmarked_write "***"

theorem userOut_left : exists after,
    userOut marked words (({} : Context).steps plain words (o.head ++ o.gone words))
        (mark true (o.left words) ++ mark false o.tail) =
      mark true (o.left words) ++ after ∧ Unmarked after := by
  by_cases hfound : o.Found words
  · rcases o.left_cases words hfound with h | ⟨more, h, hmore⟩
    · rw [h]
      exact ⟨_, rfl, unmarked_userOut (unmarked_mark o.tail)⟩
    · rcases outside_mark words (x := {}) rfl hmore o.tail with ⟨after, heq, hafter⟩
      refine ⟨after, ?_, hafter⟩
      rw [h]
      exact (userOut_close rfl _).trans (congrArg (('@', true) :: ·) heq)
  · have hleft : o.left words = o.user := if_neg hfound
    have hgone : o.gone words = [] := if_neg hfound
    rw [hleft, hgone, List.append_nil]
    exact outside_mark words ((o.user_head words).trans (if_neg hfound)) o.user_chars o.tail

theorem queryAfter_marked (inside : Bool) (text tail : List (Char × Bool)) :
    queryAfter marked inside text tail =
      queryAfter plain inside (text.map Prod.fst) (tail.map Prod.fst) := by
  induction text generalizing inside with
  | nil => rfl
  | cons c rest ih =>
      rw [List.map_cons, queryAfter, queryAfter, ih, ih, assigned_marked, List.map_append]
      rfl

theorem inQuery_marked (text tail : List (Char × Bool)) :
    InQuery marked text tail <-> InQuery plain (text.map Prod.fst) (tail.map Prod.fst) := by
  rw [← queryAfter_start, ← queryAfter_start, queryAfter_marked]

theorem marks_eq : o.marks = (mark false o.head ++ mark true (o.gone words)) ++
    (mark true (o.left words) ++ mark false o.tail) := by
  unfold marks
  rw [← o.gone_append_left words, mark_append, List.append_assoc, List.append_assoc]

theorem gone_iff : o.Gone words <-> o.Covered words := by
  rcases o.userOut_left words with ⟨after, heq, hafter⟩
  have hsteps : ({} : Context).steps marked words (mark false o.head ++ mark true (o.gone words)) =
      ({} : Context).steps plain words (o.head ++ o.gone words) := by
    rw [steps_append, steps_append, steps_mark, steps_mark]
  have hmarked : forall item, item ∈ mark true (o.left words) -> item.2 = true := by
    intro item hitem
    rcases List.mem_map.mp hitem with ⟨c, _, rfl⟩
    rfl
  unfold Gone
  rw [redact_eq, o.marks_eq words, userOut_append, hsteps, heq,
    unmarked_between (o.unmarked_front words) hafter hmarked, ← heq, inQuery_marked,
    userHead_marked, userOut_marked, List.map_append, List.map_append, map_mark, map_mark,
    map_mark, map_mark, inQuery_iff]
  refine or_congr List.map_eq_nil_iff (and_congr_right' ?_)
  constructor
  · exact fun h c hc => h (c, true) (List.mem_map_of_mem hc)
  · intro h item hitem
    rcases List.mem_map.mp hitem with ⟨c, hc, rfl⟩
    exact h c hc

end UserUrl

/-!
## The text of an error
-/

def asciiWords : Words where
  word c := c.isAlphanum || c = '_'
  word_ascii _ _ := rfl

/-- A user name with an `@` of its own. -/
def twoAts : UserUrl "http://a@b@host".toList where
  before := []
  scheme := "http".toList
  user := "a@b".toList
  host := "host".toList
  after := []
  text_eq := by decide
  scheme_first := ⟨'h', "ttp".toList, by decide, by decide⟩
  scheme_chars := by
    have hall : "http".toList.all Char.isAlphanum = true := by decide
    exact fun c hc => Or.inl (List.all_eq_true.mp hall c hc)
  user_chars := by
    have hall : "a@b".toList.all authorityChar = true := by decide
    exact List.all_eq_true.mp hall
  host_chars := by
    have hall : "host".toList.all (fun c => authorityChar c && c != '@') = true := by
      decide
    intro c hc
    have hchar := List.all_eq_true.mp hall c hc
    simpa using hchar
  ends := nofun

example : redactCredentials asciiWords "http://a@b@host?x=1" = "http://***@b@host?<redacted>" := by
  decide

example : redactCredentials asciiWords "https://h/x?fields=a,b&token=SECRET" =
    "https://h/x?<redacted>,b&token=SECRET" := by
  decide

end Redaction
end Job
end MightyColab
