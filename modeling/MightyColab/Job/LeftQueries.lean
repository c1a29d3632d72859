import MightyColab.Job.RedactedUrls

/-!
# Queries that redaction leaves

Where a query of the text survives, whatever its key is made of. The conditions are on the
text itself: of a user name that goes nothing counts but that it is there.
-/

namespace MightyColab
namespace Job

open Lib

namespace Redaction

variable {words : Words}

/-!
## What the pattern of the queries leaves
-/

/-- A query: a `?`, a key without a blank, and `=`. -/
def HasQuery (text : List Char) : Prop :=
  exists before key after, text = before ++ '?' :: (key ++ '=' :: after) ∧
    forall c, c ∈ key -> space c = false

def bars : List Char := quotes ++ ['<', '>', ',', ')']

theorem space_of_stop {c : Char} (h : stop c = false) : space c = false := by
  unfold stop at h
  exact (Bool.or_eq_false_iff.mp h).left

theorem space_of_queryChar {c : Char} (h : queryChar c = true) : space c = false := by
  unfold queryChar at h
  simp only [Bool.and_eq_true, Bool.not_eq_true'] at h
  exact space_of_stop h.left.left

theorem space_of_userChar {c : Char} (h : userChar c = true) : space c = false := by
  unfold userChar at h
  simp only [Bool.and_eq_true, Bool.not_eq_true'] at h
  exact space_of_stop h.left.left

theorem mem_bars {c : Char} : c ∈ bars <-> queryChar c = false ∧ space c = false := by
  constructor
  · intro h
    simp only [bars, quotes, List.cons_append, List.nil_append, List.mem_cons, List.not_mem_nil,
      or_false] at h
    rcases h with rfl | rfl | rfl | rfl | rfl | rfl <;> decide
  · rintro ⟨hquery, hspace⟩
    by_contra hnot
    simp only [bars, List.mem_append, List.mem_cons, List.not_mem_nil, or_false, not_or] at hnot
    have hchar : queryChar c = true := by
      simp [queryChar, stop, hspace, hnot]
    rw [hchar] at hquery
    cases hquery

/-- A query whose `=` stands behind a bar. -/
def BarredQuery (text : List Char) : Prop :=
  exists before mid bar last after,
    text = before ++ '?' :: (mid ++ bar :: (last ++ '=' :: after)) ∧
      (forall c, c ∈ mid -> space c = false) ∧ bar ∈ bars ∧
      forall c, c ∈ last -> queryChar c = true ∧ c ≠ '?'

theorem BarredQuery.cons {text : List Char} (h : BarredQuery text) (c : Char) :
    BarredQuery (c :: text) := by
  rcases h with ⟨before, mid, bar, last, after, rfl, h⟩
  exact ⟨c :: before, mid, bar, last, after, rfl, h⟩

theorem assigned_key {key : List Char} (hkey : forall c, c ∈ key -> queryChar c = true)
    (rest : List Char) : Assigned plain (key ++ '=' :: rest) = true := by
  induction key with
  | nil => exact assigned_cons.mpr ⟨by decide, Or.inl rfl⟩
  | cons c key ih =>
      have hrest := List.forall_mem_cons.mp hkey
      exact assigned_cons.mpr ⟨hrest.left, Or.inr (ih hrest.right)⟩

/-- An `=` that is left stands behind a bar, or behind nothing that a query does not go over. -/
theorem queryOut_equals {text : List Char} : forall {inside : Bool} {key tail : List Char},
    queryOut plain inside text = key ++ '=' :: tail -> (forall c, c ∈ key -> space c = false) ->
      (exists mid bar last after, text = mid ++ bar :: (last ++ '=' :: after) ∧
        (forall c, c ∈ mid -> space c = false) ∧ bar ∈ bars ∧
        forall c, c ∈ last -> queryChar c = true ∧ c ≠ '?') ∨
      (inside = false ∧ exists last after, text = last ++ '=' :: after ∧
        forall c, c ∈ last -> queryChar c = true ∧ c ≠ '?') := by
  induction text with
  | nil =>
      intro inside key tail h
      cases key <;> cases h
  | cons c rest ih =>
      intro inside key tail h hkey
      have hbehind : forall {key' : List Char} {inside' : Bool}, space c = false ->
          (forall d, d ∈ key' -> space d = false) -> inside' = true ->
          queryOut plain inside' rest = key' ++ '=' :: tail ->
          exists mid bar last after, c :: rest = mid ++ bar :: (last ++ '=' :: after) ∧
            (forall d, d ∈ mid -> space d = false) ∧ bar ∈ bars ∧
            forall d, d ∈ last -> queryChar d = true ∧ d ≠ '?' := by
        intro key' inside' hgap hkey' hinside' hout
        rcases ih hout hkey' with ⟨mid, bar, last, after, rfl, hmid, h⟩ | ⟨hfalse, _⟩
        · exact ⟨c :: mid, bar, last, after, rfl, List.forall_mem_cons.mpr ⟨hgap, hmid⟩, h⟩
        · rw [hinside'] at hfalse
          cases hfalse
      by_cases hinside : inside = true ∧ queryChar (plain.glyph c) = true
      · rw [queryOut, if_pos hinside] at h
        exact Or.inl (hbehind (space_of_queryChar hinside.right) hkey rfl h)
      by_cases hbegins : plain.glyph c = '?' ∧ Assigned plain rest = true
      · rw [queryOut, if_neg hinside, if_pos hbegins] at h
        have hc : c = '?' := hbegins.left
        have hnot : '=' ∉ c :: "<redacted>".toList := by
          rw [hc]
          decide
        rcases split_written hnot h with ⟨more, hmore, hrest⟩
        refine Or.inl (hbehind ?_ (fun d hd => hkey d ?_) rfl hrest)
        · rw [hc]
          decide
        · rw [hmore]
          exact List.mem_append_right _ hd
      · rw [queryOut, if_neg hinside, if_neg hbegins] at h
        cases key with
        | nil =>
            have hc : c = '=' := (List.cons.inj h).left
            refine Or.inr ⟨?_, [], rest, by rw [hc]; rfl, List.forall_mem_nil _⟩
            refine Bool.eq_false_iff.mpr fun hin => hinside ⟨hin, ?_⟩
            rw [hc]
            decide
        | cons d key =>
            have hd : c = d := (List.cons.inj h).left
            subst hd
            have hgaps := List.forall_mem_cons.mp hkey
            rcases ih (List.cons.inj h).right hgaps.right with
              ⟨mid, bar, last, after, rfl, hmid, h⟩ | ⟨_, last, after, rfl, hlast⟩
            · exact Or.inl ⟨c :: mid, bar, last, after, rfl,
                List.forall_mem_cons.mpr ⟨hgaps.left, hmid⟩, h⟩
            · cases hchar : queryChar c with
              | false =>
                  exact Or.inl ⟨[], c, last, after, rfl, List.forall_mem_nil _,
                    mem_bars.mpr ⟨hchar, hgaps.left⟩, hlast⟩
              | true =>
                  have hquestion : c ≠ '?' := fun hc =>
                    hbegins ⟨hc, assigned_key (fun e he => (hlast e he).left) after⟩
                  refine Or.inr ⟨Bool.eq_false_iff.mpr fun hin => hinside ⟨hin, hchar⟩,
                    c :: last, after, rfl, ?_⟩
                  exact List.forall_mem_cons.mpr ⟨⟨hchar, hquestion⟩, hlast⟩

theorem barred_of_hasQuery {text : List Char} :
    forall {inside : Bool} {before key tail : List Char},
      queryOut plain inside text = before ++ '?' :: (key ++ '=' :: tail) ->
        (forall c, c ∈ key -> space c = false) -> BarredQuery text := by
  induction text with
  | nil =>
      intro inside before key tail h
      cases before <;> cases h
  | cons c rest ih =>
      intro inside before key tail h hkey
      by_cases hinside : inside = true ∧ queryChar (plain.glyph c) = true
      · rw [queryOut, if_pos hinside] at h
        exact (ih h hkey).cons c
      by_cases hbegins : plain.glyph c = '?' ∧ Assigned plain rest = true
      · rw [queryOut, if_neg hinside, if_pos hbegins] at h
        have hc : c = '?' := hbegins.left
        cases before with
        | nil =>
            have hwritten : "<redacted>".toList ++ queryOut plain true rest = key ++ '=' :: tail :=
              (List.cons.inj h).right
            rcases split_written (by decide) hwritten with ⟨more, hmore, hrest⟩
            have hmoreGaps : forall d, d ∈ more -> space d = false := by
              intro d hd
              refine hkey d ?_
              rw [hmore]
              exact List.mem_append_right _ hd
            rcases queryOut_equals hrest hmoreGaps with
              ⟨mid, bar, last, after, rfl, hbarred⟩ | ⟨hfalse, _⟩
            · exact ⟨[], mid, bar, last, after, by rw [hc]; rfl, hbarred⟩
            · cases hfalse
        | cons d before =>
            have hwritten : "<redacted>".toList ++ queryOut plain true rest =
                before ++ '?' :: (key ++ '=' :: tail) := (List.cons.inj h).right
            rcases split_written (by decide) hwritten with ⟨more, _, hrest⟩
            exact (ih hrest hkey).cons c
      · rw [queryOut, if_neg hinside, if_neg hbegins] at h
        cases before with
        | nil =>
            have hc : c = '?' := (List.cons.inj h).left
            rcases queryOut_equals (List.cons.inj h).right hkey with
              ⟨mid, bar, last, after, rfl, hbarred⟩ | ⟨_, last, after, rfl, hlast⟩
            · exact ⟨[], mid, bar, last, after, by rw [hc]; rfl, hbarred⟩
            · exact absurd ⟨hc, assigned_key (fun e he => (hlast e he).left) after⟩ hbegins
        | cons d before => exact (ih (List.cons.inj h).right hkey).cons c

/-- What is left of a `?` with a key: a `?` with one, unless the reader was inside of a query
already. -/
theorem queryHead_question {mid tail : List Char} (hmid : forall c, c ∈ mid -> space c = false) :
    forall (before : List Char) (inside : Bool),
      (exists front key, queryHead plain inside (before ++ '?' :: mid) tail = front ++ '?' :: key ∧
        forall c, c ∈ key -> space c = false) ∨
      (inside = true ∧
        forall c, c ∈ queryHead plain inside (before ++ '?' :: mid) tail -> space c = false) := by
  have hmark : forall c, c ∈ "<redacted>".toList -> space c = false := by
    have hall : "<redacted>".toList.all (fun c => !space c) = true := by decide
    exact fun c hc => by simpa using List.all_eq_true.mp hall c hc
  have hkey : forall inside : Bool, forall c, c ∈ queryHead plain inside mid tail ->
      space c = false := fun inside => mem_queryHead hmark hmid
  intro before
  induction before with
  | nil =>
      intro inside
      rw [List.nil_append, queryHead]
      split
      · next hinside => exact Or.inr ⟨hinside.left, hkey true⟩
      · split
        · exact Or.inl ⟨[], _, rfl, List.forall_mem_append.mpr ⟨hmark, hkey true⟩⟩
        · exact Or.inl ⟨[], _, rfl, hkey false⟩
  | cons c before ih =>
      intro inside
      rw [List.cons_append, queryHead]
      split
      · next hinside =>
          exact (ih true).imp_right fun h => ⟨hinside.left, h.right⟩
      · split
        · next hbegins =>
            have hc : c = '?' := hbegins.left
            rcases ih true with ⟨front, key, heq, hspace⟩ | ⟨_, hspace⟩
            · exact Or.inl ⟨c :: "<redacted>".toList ++ front, key, by rw [heq]; simp; rfl, hspace⟩
            · refine Or.inl ⟨[], _, by rw [hc]; rfl, List.forall_mem_append.mpr ⟨hmark, hspace⟩⟩
        · rcases ih false with ⟨front, key, heq, hspace⟩ | ⟨hfalse, _⟩
          · exact Or.inl ⟨c :: front, key, by rw [heq]; rfl, hspace⟩
          · cases hfalse

theorem queryOut_plain {first : List Char} (hfirst : '?' ∉ first) (rest : List Char) :
    queryOut plain false (first ++ rest) = first ++ queryOut plain false rest := by
  induction first with
  | nil => rfl
  | cons c first ih =>
      rw [List.mem_cons, not_or] at hfirst
      rw [List.cons_append, queryOut_keeps fun h => hfirst.left h.left.symm, ih hfirst.right]
      rfl

theorem hasQuery_queryOut (text : List Char) :
    HasQuery (queryOut plain false text) <-> BarredQuery text := by
  constructor
  · rintro ⟨before, key, tail, h, hkey⟩
    exact barred_of_hasQuery h hkey
  · rintro ⟨before, mid, bar, last, after, rfl, hmid, hbar, hlast⟩
    have hstops := mem_bars.mp hbar
    have hnot : '?' ∉ last ++ ['='] := by
      intro h
      rcases List.mem_append.mp h with h | h
      · exact (hlast _ h).right rfl
      · revert h
        decide
    have hrest : queryOut plain false (last ++ '=' :: after) =
        last ++ '=' :: queryOut plain false after := by
      have hplain := queryOut_plain hnot after
      simpa using hplain
    have hout : queryOut plain false (before ++ '?' :: (mid ++ bar :: (last ++ '=' :: after))) =
        queryHead plain false (before ++ '?' :: mid) (bar :: (last ++ '=' :: after)) ++
          bar :: (last ++ '=' :: queryOut plain false after) := by
      have hsplit := queryOut_split (k := plain) (before ++ '?' :: mid)
        (bar :: (last ++ '=' :: after)) false
      rw [queryOut_outside (show queryChar (plain.glyph bar) = false from hstops.left),
        hrest] at hsplit
      simpa using hsplit
    rcases queryHead_question hmid before false with
      ⟨front, key, heq, hkey⟩ | ⟨hfalse, _⟩
    · refine ⟨front, key ++ bar :: last, queryOut plain false after, by rw [hout, heq]; simp, ?_⟩
      refine List.forall_mem_append.mpr ⟨hkey, List.forall_mem_cons.mpr ⟨hstops.right, ?_⟩⟩
      exact fun c hc => space_of_queryChar (hlast c hc).left
    · cases hfalse

/-!
## Where a user name goes
-/

/-- A scheme ends here that `_USERINFO` can find: its first letter is at the beginning of a
word. -/
def Bounded (words : Words) (text : List Char) : Prop :=
  exists before c rest, text = before ++ c :: rest ∧ schemeStart c = true ∧
    (forall d, d ∈ rest -> schemeChar d = true) ∧ before.getLast?.any words.word = false

theorem steps_word (text : List Char) :
    (({} : Context).steps plain words text).word = text.getLast?.any words.word := by
  induction text using List.reverseRecOn with
  | nil => rfl
  | append_singleton text c ih =>
      rw [steps_concat, List.getLast?_concat]
      rfl

theorem steps_bounded (text : List Char) :
    (({} : Context).steps plain words text).scheme = .scheme <-> Bounded words text := by
  induction text using List.reverseRecOn with
  | nil =>
      refine iff_of_false nofun ?_
      rintro ⟨before, c, rest, h, _⟩
      cases before <;> cases h
  | append_singleton text c ih =>
      rw [steps_concat, step_scheme_iff, ih, steps_word]
      constructor
      · rintro ⟨hchar, ⟨before, first, rest, rfl, hfirst, hrest, hbefore⟩ | ⟨hstart, hword⟩⟩
        · refine ⟨before, first, rest ++ [c], by simp, hfirst, ?_, hbefore⟩
          intro d hd
          rcases List.mem_append.mp hd with hd | hd
          · exact hrest d hd
          · rw [List.mem_singleton.mp hd]
            exact hchar
        · exact ⟨text, c, [], rfl, hstart, nofun, hword⟩
      · rintro ⟨before, first, rest, heq, hfirst, hrest, hbefore⟩
        rcases List.eq_nil_or_concat rest with rfl | ⟨rest, last, rfl⟩
        · have hinj := List.append_inj' heq rfl
          have hc : c = first := (List.cons.inj hinj.right).left
          rw [hc, hinj.left]
          exact ⟨schemeStart_char hfirst, Or.inr ⟨hfirst, hbefore⟩⟩
        · rw [List.concat_eq_append] at heq hrest
          have hsplit : before ++ first :: (rest ++ [last]) = (before ++ first :: rest) ++ [last] := by
            simp
          rw [hsplit] at heq
          have hinj := List.append_inj' heq rfl
          have hc : c = last := (List.cons.inj hinj.right).left
          rw [hc, hinj.left]
          exact ⟨hrest last (by simp),
            Or.inl ⟨before, first, rest, rfl, hfirst, fun d hd => hrest d (by simp [hd]), hbefore⟩⟩

/-- A scheme that `_USERINFO` can find and `://` end here. -/
def NameBegins (words : Words) (text : List Char) : Prop :=
  exists before, text = before ++ "://".toList ∧ Bounded words before

theorem steps_ends {p q : Context -> Prop} {d : Char} (hstart : ¬ p {})
    (hstep : forall (x : Context) (c : Char), p (x.step words c) <-> c = d ∧ q x)
    (text : List Char) : p (({} : Context).steps plain words text) <->
      exists before, text = before ++ [d] ∧ q (({} : Context).steps plain words before) := by
  rcases List.eq_nil_or_concat text with rfl | ⟨front, c, rfl⟩
  · refine iff_of_false hstart ?_
    rintro ⟨before, h, _⟩
    cases before <;> cases h
  · rw [List.concat_eq_append, steps_concat, hstep]
    constructor
    · rintro ⟨rfl, hq⟩
      exact ⟨front, rfl, hq⟩
    · rintro ⟨before, h, hq⟩
      have hinj := List.append_inj' h rfl
      rw [hinj.left]
      exact ⟨(List.cons.inj hinj.right).left, hq⟩

theorem steps_first {text : List Char} :
    (({} : Context).steps plain words text).user = .first <-> NameBegins words text := by
  have hcolon := @steps_ends words (fun x => x.scheme = .colon) (fun x => x.scheme = .scheme) _
    nofun fun _ _ => step_colon_iff
  have hslash := @steps_ends words (fun x => x.scheme = .slash) (fun x => x.scheme = .colon) _
    nofun fun _ _ => step_slash_iff
  have hfirst := @steps_ends words (fun x => x.user = .first) (fun x => x.scheme = .slash) _
    nofun fun _ _ => step_first_iff
  rw [hfirst]
  constructor
  · rintro ⟨marked, rfl, hmarked⟩
    rcases (hslash marked).mp hmarked with ⟨named, rfl, hnamed⟩
    rcases (hcolon named).mp hnamed with ⟨before, rfl, hbefore⟩
    exact ⟨before, by simp, (steps_bounded before).mp hbefore⟩
  · rintro ⟨before, rfl, hbounded⟩
    refine ⟨before ++ [':', '/'], by simp, (hslash _).mpr ⟨before ++ [':'], by simp, ?_⟩⟩
    exact (hcolon _).mpr ⟨before, rfl, (steps_bounded before).mpr hbounded⟩

/-- The first character of the rest belongs to a user name that goes. -/
def InUser (words : Words) (front rest : List Char) : Prop :=
  exists before name more after, front = before ++ name ∧ NameBegins words before ∧
    rest = more ++ '@' :: after ∧ more ≠ [] ∧ forall c, c ∈ name ++ more -> userChar c = true

variable {front text tail rest : List Char} {c d : Char}

theorem inUser_iff : InUser words front (c :: rest) <->
    (({} : Context).steps plain words front).user ≠ .outside ∧ userChar c = true ∧
      closes plain rest = true := by
  constructor
  · rintro ⟨before, name, more, after, rfl, hbegins, heq, hne, hall⟩
    have hparts := List.forall_mem_append.mp hall
    have huser : (({} : Context).steps plain words (before ++ name)).user ≠ .outside := by
      rw [steps_append]
      exact steps_inside (by rw [steps_first.mpr hbegins]; nofun) hparts.left
    cases more with
    | nil => exact absurd rfl hne
    | cons a more =>
        have hmore := List.forall_mem_cons.mp hparts.right
        rw [List.cons_append] at heq
        have hcloses : closes plain (more ++ '@' :: after) = closes plain ('@' :: after) :=
          closes_append hmore.right
        rw [(List.cons.inj heq).left, (List.cons.inj heq).right, hcloses]
        exact ⟨huser, hmore.left, rfl⟩
  · rintro ⟨huser, hchar, hcloses⟩
    rcases name_begun rfl huser with ⟨before, name, rfl, hfirst, hname⟩
    rcases closes_shape hcloses with ⟨user, close, after, rfl, hall, hclose⟩
    have hat : close = '@' := hclose
    refine ⟨before, name, c :: user, after, rfl, steps_first.mp hfirst, by rw [hat]; rfl, nofun, ?_⟩
    exact List.forall_mem_append.mpr ⟨hname, List.forall_mem_cons.mpr ⟨hchar, hall⟩⟩

theorem kept_shown (h : ¬ InUser words front (c :: rest)) :
    kept plain (({} : Context).steps plain words front) c rest = [c] :=
  if_neg fun hgone => h (inUser_iff.mpr hgone)

theorem kept_stars (h : InUser words front (c :: rest)) :
    forall d, d ∈ kept plain (({} : Context).steps plain words front) c rest -> d = '*' := by
  intro d hd
  have hgone := inUser_iff.mp h
  unfold kept at hd
  rw [if_pos (show _ ∧ userChar (plain.glyph c) = true ∧ _ from hgone)] at hd
  split at hd
  · have hstars : plain.write "***" = List.replicate 3 '*' := by rfl
    rw [hstars] at hd
    exact List.eq_of_mem_replicate hd
  · cases hd

/-- What comes from the text, and is no star, stood there outside of the user names that go. -/
theorem userHead_shown (hd : d ≠ '*') : forall {text before after : List Char} (front : List Char),
    userHead plain words (({} : Context).steps plain words front) text tail =
        before ++ d :: after ->
      exists first rest, text = first ++ d :: rest ∧
        ¬ InUser words (front ++ first) (d :: (rest ++ tail)) ∧
        userHead plain words (({} : Context).steps plain words front) first
          (d :: (rest ++ tail)) = before ∧
        userHead plain words (({} : Context).steps plain words (front ++ first ++ [d])) rest
          tail = after := by
  intro text
  induction text with
  | nil =>
      intro before after front h
      cases before <;> cases h
  | cons c text ih =>
      intro before after front h
      rw [userHead, ← steps_concat] at h
      by_cases hgone : InUser words front (c :: (text ++ tail))
      · have hnot : d ∉ kept plain (({} : Context).steps plain words front) c (text ++ tail) :=
          fun hmem => hd (kept_stars hgone d hmem)
        rcases split_written hnot h with ⟨more, rfl, hrest⟩
        rcases ih _ hrest with ⟨first, rest, rfl, hshown, hbefore, hafter⟩
        rw [List.append_assoc front] at hshown hafter
        refine ⟨c :: first, rest, rfl, hshown, ?_, hafter⟩
        rw [userHead, ← steps_concat, hbefore, List.append_assoc]
        rfl
      · rw [kept_shown hgone] at h
        cases before with
        | nil =>
            have hc : c = d := (List.cons.inj h).left
            subst hc
            exact ⟨[], text, rfl, by rwa [List.append_nil], rfl,
              by rw [List.append_nil]; exact (List.cons.inj h).right⟩
        | cons e before =>
            have hc : c = e := (List.cons.inj h).left
            subst hc
            rcases ih _ (List.cons.inj h).right with ⟨first, rest, rfl, hshown, hbefore, hafter⟩
            rw [List.append_assoc front] at hshown hafter
            refine ⟨c :: first, rest, rfl, hshown, ?_, hafter⟩
            have hgone' : ¬ InUser words front (c :: (first ++ d :: (rest ++ tail))) := by
              simpa using hgone
            rw [userHead, ← steps_concat, kept_shown hgone', hbefore]
            rfl

theorem userOut_shown (hd : d ≠ '*') {text before after : List Char} (front : List Char)
    (h : userOut plain words (({} : Context).steps plain words front) text =
      before ++ d :: after) :
    exists first rest, text = first ++ d :: rest ∧ ¬ InUser words (front ++ first) (d :: rest) ∧
      userHead plain words (({} : Context).steps plain words front) first (d :: rest) = before ∧
      userOut plain words (({} : Context).steps plain words (front ++ first ++ [d])) rest =
        after := by
  have hend : forall (x : Context) (text : List Char),
      userOut plain words x text = userHead plain words x text [] := by
    intro x text
    have happend := @userOut_append _ plain words text [] x
    simpa [userOut] using happend
  rw [hend] at h
  simpa only [hend, List.append_nil] using userHead_shown hd front h

theorem userOut_join {first : List Char} (front : List Char)
    (h : ¬ InUser words (front ++ first) (d :: rest)) :
    userOut plain words (({} : Context).steps plain words front) (first ++ d :: rest) =
      userHead plain words (({} : Context).steps plain words front) first (d :: rest) ++
        d :: userOut plain words (({} : Context).steps plain words (front ++ first ++ [d])) rest := by
  rw [userOut_append, userOut, ← steps_append, kept_shown h, ← steps_concat]
  rfl

/-- All characters of the text, outside of user names that go, are such. -/
def Seen (words : Words) (p : Char -> Prop) (front text tail : List Char) : Prop :=
  forall before c after, text = before ++ c :: after ->
    InUser words (front ++ before) (c :: (after ++ tail)) ∨ p c

theorem seen_cons {p : Char -> Prop} : Seen words p front (c :: text) tail <->
    (InUser words front (c :: (text ++ tail)) ∨ p c) ∧ Seen words p (front ++ [c]) text tail := by
  constructor
  · intro h
    have hc := h [] c text rfl
    rw [List.append_nil] at hc
    refine ⟨hc, ?_⟩
    rintro before d after rfl
    have hd := h (c :: before) d after rfl
    rwa [List.append_assoc]
  · rintro ⟨hc, hrest⟩ before d after heq
    cases before with
    | nil =>
        cases heq
        rwa [List.append_nil]
    | cons e before =>
        cases heq
        have hd := hrest before d after rfl
        rwa [List.append_assoc] at hd

theorem seen_iff {p : Char -> Prop} (hstar : p '*') :
    (forall c, c ∈ userHead plain words (({} : Context).steps plain words front) text tail -> p c) <->
      Seen words p front text tail := by
  induction text generalizing front with
  | nil =>
      refine iff_of_true nofun ?_
      intro before c after heq
      cases before <;> cases heq
  | cons c text ih =>
      rw [userHead, ← steps_concat, List.forall_mem_append, ih, seen_cons]
      refine and_congr_left' ?_
      by_cases hgone : InUser words front (c :: (text ++ tail))
      · refine iff_of_true ?_ (Or.inl hgone)
        intro d hd
        rw [kept_stars hgone d hd]
        exact hstar
      · rw [or_iff_right hgone, kept_shown hgone]
        exact List.forall_mem_singleton

theorem seen_space : Seen words (fun c => space c = false) front text tail <->
    forall c, c ∈ text -> space c = false := by
  constructor
  · intro h c hc
    rcases List.append_of_mem hc with ⟨before, after, rfl⟩
    rcases h before c after rfl with hgone | hspace
    · exact space_of_userChar (inUser_iff.mp hgone).right.left
    · exact hspace
  · rintro h before c after rfl
    exact Or.inr (h c (by simp))

/-!
## Queries of the text
-/

/-- A query with its `=` behind a bar: none of the three is in a user name that goes, and
whatever is left between the bar and the `=` ends no query and begins none. -/
def OddQuery (words : Words) (text : List Char) : Prop :=
  exists before mid bar last after,
    text = before ++ '?' :: (mid ++ bar :: (last ++ '=' :: after)) ∧
      ¬ InUser words before ('?' :: (mid ++ bar :: (last ++ '=' :: after))) ∧
      (forall c, c ∈ mid -> space c = false) ∧ bar ∈ bars ∧
      ¬ InUser words (before ++ ['?'] ++ mid) (bar :: (last ++ '=' :: after)) ∧
      Seen words (fun c => queryChar c = true ∧ c ≠ '?') (before ++ ['?'] ++ mid ++ [bar]) last
        ('=' :: after) ∧
      ¬ InUser words (before ++ ['?'] ++ mid ++ [bar] ++ last) ('=' :: after)

/-- After this text, and before the rest, a query goes. -/
def Queried (words : Words) (front rest : List Char) : Prop :=
  exists before between, front = before ++ '?' :: between ∧
    ¬ InUser words before ('?' :: (between ++ rest)) ∧
    Seen words (queryChar · = true) (before ++ ['?']) between rest ∧
    exists key after, between ++ rest = key ++ '=' :: after ∧
      Seen words (queryChar · = true) (before ++ ['?']) key ('=' :: after) ∧
      ¬ InUser words (before ++ ['?'] ++ key) ('=' :: after)

theorem bar_ne_star {bar : Char} (h : bar ∈ bars) : bar ≠ '*' := by
  rintro rfl
  revert h
  decide

theorem barred_iff (text : List Char) :
    BarredQuery (subUser plain words text) <-> OddQuery words text := by
  rw [subUser_eq]
  constructor
  · rintro ⟨before, mid, bar, last, after, h, hmid, hbar, hlast⟩
    rcases userOut_shown (by decide) [] h with ⟨before, text, rfl, hquestion, _, hmore⟩
    rcases userOut_shown (bar_ne_star hbar) _ hmore with ⟨mid, text, rfl, hshown, rfl, hrest⟩
    rcases userOut_shown (d := '=') (by decide) _ hrest with ⟨last, after, rfl, hequals, rfl, _⟩
    exact ⟨before, mid, bar, last, after, rfl, hquestion,
      seen_space.mp ((seen_iff (by decide)).mp hmid),
      hbar, hshown, (seen_iff (by decide)).mp hlast, hequals⟩
  · rintro ⟨before, mid, bar, last, after, rfl, hquestion, hmid, hbar, hshown, hlast, hequals⟩
    have hout := userOut_join [] hquestion
    rw [List.nil_append, userOut_join _ hshown, userOut_join _ hequals] at hout
    exact ⟨_, _, bar, _, _, hout, (seen_iff (by decide)).mpr (seen_space.mpr hmid), hbar,
      (seen_iff (by decide)).mpr hlast⟩

theorem assigned_iff : Assigned plain text = true <->
    exists key after, text = key ++ '=' :: after ∧ forall c, c ∈ key -> queryChar c = true := by
  constructor
  · intro h
    induction text with
    | nil => cases h
    | cons c text ih =>
        rcases assigned_cons.mp h with ⟨hchar, heq | hrest⟩
        · have hc : c = '=' := heq
          exact ⟨[], text, by rw [hc]; rfl, nofun⟩
        · rcases ih hrest with ⟨key, after, rfl, hkey⟩
          exact ⟨c :: key, after, rfl, List.forall_mem_cons.mpr ⟨hchar, hkey⟩⟩
  · rintro ⟨key, after, rfl, hkey⟩
    exact assigned_key hkey after

theorem assigned_userOut :
    Assigned plain (userOut plain words (({} : Context).steps plain words front) text) = true <->
      exists key after, text = key ++ '=' :: after ∧
        Seen words (queryChar · = true) front key ('=' :: after) ∧
        ¬ InUser words (front ++ key) ('=' :: after) := by
  rw [assigned_iff]
  constructor
  · rintro ⟨key, after, h, hkey⟩
    rcases userOut_shown (d := '=') (by decide) _ h with ⟨key, after, rfl, hequals, rfl, _⟩
    exact ⟨key, after, rfl, (seen_iff (by decide)).mp hkey, hequals⟩
  · rintro ⟨key, after, rfl, hkey, hequals⟩
    exact ⟨_, _, userOut_join _ hequals, (seen_iff (by decide)).mpr hkey⟩

theorem inQuery_iff :
    InQuery plain (userHead plain words {} front rest)
        (userOut plain words (({} : Context).steps plain words front) rest) <->
      Queried words front rest := by
  have hwhole : forall before between : List Char, front = before ++ '?' :: between ->
      userHead plain words (({} : Context).steps plain words (before ++ ['?'])) between rest ++
          userOut plain words (({} : Context).steps plain words front) rest =
        userOut plain words (({} : Context).steps plain words (before ++ ['?']))
          (between ++ rest) := by
    rintro before between rfl
    rw [userOut_append, ← steps_append, List.append_assoc]
    rfl
  constructor
  · rintro ⟨before, question, between, h, hquestion, hbetween, hassigned⟩
    have hq : question = '?' := hquestion
    subst hq
    rcases userHead_shown (by decide) [] h with ⟨before, between, hfront, hshown, _, rfl⟩
    rw [List.nil_append] at hshown hassigned hbetween
    rw [hwhole before between hfront] at hassigned
    exact ⟨before, between, hfront, hshown, (seen_iff (by decide)).mp hbetween,
      assigned_userOut.mp hassigned⟩
  · rintro ⟨before, between, hfront, hshown, hbetween, hassigned⟩
    refine ⟨userHead plain words {} before ('?' :: (between ++ rest)), '?', userHead plain words
      (({} : Context).steps plain words (before ++ ['?'])) between rest, ?_, rfl,
      (seen_iff (by decide)).mpr hbetween, ?_⟩
    · rw [hfront, userHead_append, userHead, steps_concat, kept_shown hshown]
      rfl
    · rw [hwhole before between hfront]
      exact assigned_userOut.mpr hassigned

end Redaction
end Job
end MightyColab
