import MightyColab.Job.ExpiryChecks
import MightyColab.Job.UrlIdentity
import MightyColab.Lib.QueryText

/-!
# The expiry of a signed URL

What `parse_signed_url_expiry` reads in the query of a URL, and what `expiry_problems` does
with it. Texts that are no number or no time are nothing to it; a time that is none of the
calendar is, in some places, an error that nothing catches.
-/

namespace MightyColab
namespace Job

open Lib

namespace SignedExpiry

/-- What reads URLs, numbers and times. -/
structure Readers where
  tools : UrlTools
  digits : DateText.Digits
  /-- `datetime.fromisoformat`: the time on its own clock, and the offset of that clock if
  one is given; nothing where it raises `ValueError`. -/
  fromisoformat : String -> Option (Rat × Option Rat)

variable (r : Readers)

def InRange (time : Rat) : Prop := Planner.datetimeMin ≤ time ∧ time < Planner.datetimeMax

instance (time : Rat) : Decidable (InRange time) := inferInstanceAs (Decidable (_ ∧ _))

def query (url : String) : List (String × String) :=
  match r.tools.urlsplit url with
  | none => []
  | some p => QueryText.parseQs p.query

def one (query : List (String × String)) (key : String) : Option String := query.lookup key

/-- `_parse_utc_date`, of a date that is there and not empty. -/
def parseUtcDate (date : Option String) : Option Int :=
  match date with
  | none => none
  | some text => if text = "" then none else DateText.strptime r.digits text

def parseSeconds (value : Option String) : Option Int :=
  match value.bind (DateText.intOf r.digits) with
  | none => none
  | some seconds => if 0 ≤ seconds then some seconds else none

/-- The dialects with a date and a lifetime; the outer option is empty where `OverflowError`
is raised. -/
def dated (date : Option String) (expires : Option Int) : Option (Option Rat) :=
  match parseUtcDate r date, expires with
  | some start, some seconds => (Planner.later start seconds).map some
  | _, _ => some none

/-- Google Cloud Storage V2: `fromtimestamp` with its errors caught. -/
def epoch (value : String) : Option Rat :=
  match DateText.intOf r.digits value with
  | none => none
  | some timestamp => if InRange timestamp then some (timestamp : Rat) else none

/-- `replace("Z", "+00:00")`. -/
def zoned (text : String) : String :=
  String.ofList (text.toList.flatMap fun c => if c = 'Z' then "+00:00".toList else [c])

def azure (value : String) : Option (Option Rat) :=
  match r.fromisoformat (zoned value) with
  | none => some none
  | some (clock, none) => some (some clock)
  | some (clock, some offset) =>
      -- `astimezone` takes the offset off
      if InRange (clock - offset) then some (some (clock - offset)) else none

/-- The URL has a date of this dialect, or a readable lifetime. -/
def Uses (query : List (String × String)) (dateKey expiresKey : String) : Prop :=
  (one query dateKey).isSome = true ∨ (parseSeconds r (one query expiresKey)).isSome = true

instance (query : List (String × String)) (dateKey expiresKey : String) :
    Decidable (Uses r query dateKey expiresKey) := inferInstanceAs (Decidable (_ ∨ _))

def parseSignedUrlExpiry (url : String) : Option (Option Rat) :=
  let query := query r url
  if Uses r query "X-Goog-Date" "X-Goog-Expires" then
    dated r (one query "X-Goog-Date") (parseSeconds r (one query "X-Goog-Expires"))
  else
    match one query "Expires" with
    | some gcsV2 => some (epoch r gcsV2)
    | none =>
        if Uses r query "X-Amz-Date" "X-Amz-Expires" then
          dated r (one query "X-Amz-Date") (parseSeconds r (one query "X-Amz-Expires"))
        else
          match one query "se" with
          | some azureExpiry => azure r azureExpiry
          | none => some none

def storedTime (text : String) : Option Rat :=
  (r.fromisoformat text).map fun (clock, offset) => clock - offset.getD 0

def storedExpiry (stored : String -> Option String) (field : String) : Option Rat :=
  (stored field).bind (storedTime r)

/-- One URL in `expiry_problems`. -/
def expiryProblem (w : Planner.World) (spec : JobSpec) (afterInstall : Bool)
    (stored : String -> Option String) (item : String × String × Planner.Purpose) :
    Option (List Diagnostic) := do
  let expiry ← parseSignedUrlExpiry r item.2.1
  Planner.expiryProblem { w with expiry := fun _ => expiry } spec afterInstall
    (storedExpiry r stored) item

/-- `expiry_problems` with the parser that it calls; nothing where it raises. -/
def expiryProblems (w : Planner.World) (spec : JobSpec) (afterInstall : Bool)
    (stored : String -> Option String) : Option (List Diagnostic) :=
  if Planner.Printable spec afterInstall then
    ((Planner.urlItems spec).mapM (expiryProblem r w spec afterInstall stored)).map List.flatten
  else none

/-!
## When a date is left
-/

/-- A readable date and a readable lifetime whose sum is after the last date. -/
def EndsLate (query : List (String × String)) (dateKey expiresKey : String) : Prop :=
  exists start seconds, parseUtcDate r (one query dateKey) = some start ∧
    parseSeconds r (one query expiresKey) = some seconds ∧
    Planner.datetimeMax ≤ (start : Rat) + (seconds : Rat)

/-- The time of an Azure URL, moved to UTC, is none of the calendar. -/
def LeavesRange (query : List (String × String)) : Prop :=
  exists text clock offset, one query "se" = some text ∧
    r.fromisoformat (zoned text) = some (clock, some offset) ∧ ¬ InRange (clock - offset)

/-- The first dialect that the URL uses has an expiry that is none of the calendar. -/
def OutOfRange (url : String) : Prop :=
  EndsLate r (query r url) "X-Goog-Date" "X-Goog-Expires" ∨
    (¬ Uses r (query r url) "X-Goog-Date" "X-Goog-Expires" ∧
      one (query r url) "Expires" = none ∧
      (EndsLate r (query r url) "X-Amz-Date" "X-Amz-Expires" ∨
        (¬ Uses r (query r url) "X-Amz-Date" "X-Amz-Expires" ∧ LeavesRange r (query r url))))

variable {r}

theorem parseUtcDate_min {date : Option String} {start : Int}
    (h : parseUtcDate r date = some start) : Planner.datetimeMin ≤ (start : Rat) := by
  unfold parseUtcDate at h
  split at h
  · cases h
  · next text =>
      split at h
      · cases h
      · have hmin := DateText.strptime_min r.digits h
        have hcast : ((-62135596800 : Int) : Rat) ≤ (start : Rat) :=
          Rat.intCast_le_intCast.mpr hmin
        exact hcast

theorem parseSeconds_nonneg {value : Option String} {seconds : Int}
    (h : parseSeconds r value = some seconds) : 0 ≤ seconds := by
  unfold parseSeconds at h
  split at h
  · cases h
  · split at h
    · next hnonneg =>
        cases h
        exact hnonneg
    · cases h

theorem dated_none_iff {query : List (String × String)} {dateKey expiresKey : String} :
    dated r (one query dateKey) (parseSeconds r (one query expiresKey)) = none <->
      EndsLate r query dateKey expiresKey := by
  unfold dated EndsLate
  cases hdate : parseUtcDate r (one query dateKey) with
  | none => exact iff_of_false nofun (by rintro ⟨_, _, h, _⟩; cases h)
  | some start =>
      cases hexpires : parseSeconds r (one query expiresKey) with
      | none => exact iff_of_false nofun (by rintro ⟨_, _, _, h, _⟩; cases h)
      | some seconds =>
          have hmin : Planner.datetimeMin ≤ (start : Rat) + (seconds : Rat) := by
            have hstart := parseUtcDate_min hdate
            have hseconds : ((0 : Int) : Rat) ≤ (seconds : Rat) :=
              Rat.intCast_le_intCast.mpr (parseSeconds_nonneg hexpires)
            grind
          unfold Planner.later
          simp only [Option.map_eq_none_iff, Option.some.injEq]
          constructor
          · intro h
            refine ⟨start, seconds, rfl, rfl, ?_⟩
            by_contra hnot
            rw [if_pos ⟨hmin, Rat.not_le.mp hnot⟩] at h
            cases h
          · rintro ⟨_, _, rfl, rfl, hlate⟩
            exact if_neg fun h => Rat.not_le.mpr h.right hlate

theorem azure_none_iff {query : List (String × String)} {text : String}
    (htext : one query "se" = some text) : azure r text = none <-> LeavesRange r query := by
  unfold azure LeavesRange
  rw [htext]
  cases hread : r.fromisoformat (zoned text) with
  | none =>
      refine iff_of_false nofun ?_
      rintro ⟨_, _, _, ⟨⟩, h, _⟩
      rw [hread] at h
      cases h
  | some read =>
      rcases read with ⟨clock, _ | offset⟩
      · refine iff_of_false nofun ?_
        rintro ⟨_, _, _, ⟨⟩, h, _⟩
        rw [hread] at h
        cases h
      · simp only [ite_eq_right_iff, reduceCtorEq, imp_false]
        constructor
        · exact fun h => ⟨text, clock, offset, rfl, hread, h⟩
        · rintro ⟨_, clock', offset', ⟨⟩, h, hrange⟩
          rw [hread] at h
          cases h
          exact hrange

/-- The parser raises exactly where it comes upon an expiry that is none of the calendar. -/
theorem parse_none_iff {url : String} :
    parseSignedUrlExpiry r url = none <-> OutOfRange r url := by
  have huses : forall dateKey expiresKey, EndsLate r (query r url) dateKey expiresKey ->
      Uses r (query r url) dateKey expiresKey := by
    rintro dateKey expiresKey ⟨start, seconds, -, hseconds, -⟩
    exact Or.inr (by rw [hseconds]; rfl)
  unfold parseSignedUrlExpiry OutOfRange
  simp only
  by_cases hgcs : Uses r (query r url) "X-Goog-Date" "X-Goog-Expires"
  · rw [if_pos hgcs, dated_none_iff]
    exact ⟨Or.inl, fun h => h.elim id fun h => absurd hgcs h.left⟩
  rw [if_neg hgcs, or_iff_right (mt (huses _ _) hgcs), and_iff_right hgcs]
  cases hv2 : one (query r url) "Expires" with
  | some value => exact iff_of_false (fun h => by cases h) fun h => by cases h.left
  | none =>
      simp only [true_and]
      by_cases hs3 : Uses r (query r url) "X-Amz-Date" "X-Amz-Expires"
      · rw [if_pos hs3, dated_none_iff]
        exact ⟨Or.inl, fun h => h.elim id fun h => absurd hs3 h.left⟩
      rw [if_neg hs3, or_iff_right (mt (huses _ _) hs3), and_iff_right hs3]
      cases hse : one (query r url) "se" with
      | some text => exact azure_none_iff hse
      | none =>
          refine iff_of_false (fun h => by cases h) ?_
          rintro ⟨text, _, _, h, _⟩
          rw [hse] at h
          cases h

/-!
## The check of a spec
-/

variable {w : Planner.World} {spec : JobSpec} {afterInstall : Bool}
  {stored : String -> Option String} {item : String × String × Planner.Purpose}

/-- The expiry of a URL is known, from the URL or from the plan. -/
def Known (r : Readers) (stored : String -> Option String)
    (item : String × String × Planner.Purpose) : Prop :=
  exists expiry, parseSignedUrlExpiry r item.2.1 = some expiry ∧
    (expiry.or (storedExpiry r stored item.1)).isSome = true

theorem expiryProblem_isSome :
    (expiryProblem r w spec afterInstall stored item).isSome = true <->
      ¬ OutOfRange r item.2.1 ∧
        (Known r stored item ->
          InRange (w.now + Planner.lifetime spec afterInstall item.2.2)) := by
  rw [← parse_none_iff]
  unfold expiryProblem Known
  cases hparse : parseSignedUrlExpiry r item.2.1 with
  | none => exact iff_of_false nofun fun h => h.left rfl
  | some expiry =>
      rw [and_iff_right (by nofun)]
      change (Planner.expiryProblem _ _ _ _ _).isSome = true <-> _
      rw [Planner.expiryProblem_isSome, Planner.later_isSome]
      change (forall time, expiry.or (storedExpiry r stored item.1) = some time ->
        InRange (w.now + Planner.lifetime spec afterInstall item.2.2)) <-> _
      constructor
      · rintro h ⟨_, ⟨⟩, hknown⟩
        rcases Option.isSome_iff_exists.mp hknown with ⟨time, htime⟩
        exact h time htime
      · intro h time htime
        exact h ⟨expiry, rfl, by rw [htime]; rfl⟩

theorem expiryProblems_isSome :
    (expiryProblems r w spec afterInstall stored).isSome = true <->
      Planner.Printable spec afterInstall ∧ forall item, item ∈ Planner.urlItems spec ->
        (expiryProblem r w spec afterInstall stored item).isSome = true := by
  unfold expiryProblems
  split
  · next hprintable =>
      rw [and_iff_right hprintable, Option.isSome_map, Fallible.mapM_isSome]
  · next hprintable => exact iff_of_false nofun fun h => hprintable h.left

theorem mapM_congr {alpha beta : Type} {first second : alpha -> Option beta} {items : List alpha}
    (h : forall item, item ∈ items -> first item = second item) :
    items.mapM first = items.mapM second := by
  induction items with
  | nil => rfl
  | cons item rest ih =>
      rw [List.mapM_cons, List.mapM_cons, h item (List.mem_cons_self),
        ih fun other hother => h other (List.mem_cons_of_mem item hother)]

theorem expiryProblems_eq (hparse : forall item, item ∈ Planner.urlItems spec ->
      parseSignedUrlExpiry r item.2.1 = some (w.expiry item.2.1)) :
    expiryProblems r w spec afterInstall stored =
      Planner.expiryProblems w spec afterInstall (storedExpiry r stored) := by
  have heach : forall item, item ∈ Planner.urlItems spec ->
      expiryProblem r w spec afterInstall stored item =
        Planner.expiryProblem w spec afterInstall (storedExpiry r stored) item := by
    intro item hitem
    unfold expiryProblem
    rw [hparse item hitem]
    rfl
  unfold expiryProblems Planner.expiryProblems
  rw [mapM_congr heach]

def asciiReaders : Readers where
  tools := asciiTools [] noDigests
  digits := DateText.asciiDigits
  fromisoformat _ := none

example : parseSignedUrlExpiry asciiReaders
    "https://storage.example/a?X-Goog-Date=20260911T120000Z&X-Goog-Expires=90" =
      some (some 1789128090) := by
  decide +kernel

end SignedExpiry
end Job
end MightyColab
