import MightyColab.Lib.Fallible
import MightyColab.Job.Planner

/-!
# The two expiry checks of a run

`job apply` checks the signed URLs before it asks for a VM, with time set aside for the
install, and once more after the install. What passes the first check passes the second if
the install took no longer than that; and what a check rejects it rejects later too.
-/

namespace MightyColab
namespace Job

open Lib

namespace Planner

def lifetime (spec : JobSpec) (afterInstall : Bool) : Purpose -> Int
  | .control => (required spec afterInstall).2.1
  | _ => (required spec afterInstall).1.1

/-- What the check before the install sets aside for it. -/
def installReserve (spec : JobSpec) : Int :=
  if spec.deps ≠ [] then installAllowanceSeconds else 0

def knownExpiry (w : World) (storedExpiry : String -> Option Rat)
    (item : String × String × Purpose) : Option Rat :=
  (w.expiry item.2.1).or (storedExpiry item.1)

def Rejects (w : World) (spec : JobSpec) (afterInstall : Bool)
    (storedExpiry : String -> Option Rat) (item : String × String × Purpose) : Prop :=
  exists problem, expiryProblem w spec afterInstall storedExpiry item = some [problem]

/-- The check returns and reports the URL. -/
def Reports (w : World) (spec : JobSpec) (afterInstall : Bool)
    (storedExpiry : String -> Option Rat) (item : String × String × Purpose) : Prop :=
  item ∈ urlItems spec ∧ Rejects w spec afterInstall storedExpiry item ∧
    (expiryProblems w spec afterInstall storedExpiry).isSome = true

def World.at (w : World) (now : Rat) : World := { w with now }

variable {w : World} {spec : JobSpec} {afterInstall : Bool} {storedExpiry : String -> Option Rat}
  {item : String × String × Purpose}

/-!
## One URL
-/

theorem later_eq_some {now deadline : Rat} {seconds : Int} :
    later now seconds = some deadline <->
      (datetimeMin ≤ now + seconds ∧ now + seconds < datetimeMax) ∧ deadline = now + seconds := by
  unfold later
  split
  · next h => rw [Option.some.injEq, eq_comm, and_iff_right h]
  · next h =>
      constructor
      · intro hnone
        cases hnone
      · intro hsome
        exact absurd hsome.left h

theorem expiryProblem_unknown (h : knownExpiry w storedExpiry item = none) :
    expiryProblem w spec afterInstall storedExpiry item = some [] := by
  rcases item with ⟨field, url, purpose⟩
  unfold knownExpiry at h
  unfold expiryProblem
  simp only at h ⊢
  rw [h]

theorem bind_ite {alpha beta : Type} (x : Option alpha) (c : alpha -> Prop) [DecidablePred c]
    (p q : beta) :
    (x.bind fun a => if c a then some p else some q) = x.map fun a => if c a then p else q := by
  cases x with
  | none => rfl
  | some a =>
      rw [Option.bind_some, Option.map_some]
      split <;> rfl

theorem expiryProblem_known (spec : JobSpec) (afterInstall : Bool) {expiry : Rat}
    (h : knownExpiry w storedExpiry item = some expiry) :
    exists problem, expiryProblem w spec afterInstall storedExpiry item =
      (later w.now (lifetime spec afterInstall item.2.2)).map fun deadline =>
        if deadline ≤ expiry then [] else [problem] := by
  rcases item with ⟨field, url, purpose⟩
  unfold knownExpiry at h
  unfold expiryProblem
  simp only at h ⊢
  rw [h]
  cases purpose with
  | data => exact ⟨_, bind_ite _ _ _ _⟩
  | artifact => exact ⟨_, bind_ite _ _ _ _⟩
  | control => exact ⟨_, bind_ite _ _ _ _⟩

theorem expiryProblem_isSome :
    (expiryProblem w spec afterInstall storedExpiry item).isSome = true <->
      forall expiry, knownExpiry w storedExpiry item = some expiry ->
        (later w.now (lifetime spec afterInstall item.2.2)).isSome = true := by
  cases hknown : knownExpiry w storedExpiry item with
  | none =>
      rw [expiryProblem_unknown hknown]
      exact iff_of_true rfl fun _ h => by cases h
  | some expiry =>
      rcases expiryProblem_known spec afterInstall hknown with
        ⟨problem, heq⟩
      rw [heq, Option.isSome_map]
      exact ⟨fun h _ _ => h, fun h => h expiry rfl⟩

theorem expiryProblem_clear :
    expiryProblem w spec afterInstall storedExpiry item = some [] <->
      forall expiry, knownExpiry w storedExpiry item = some expiry ->
        exists deadline, later w.now (lifetime spec afterInstall item.2.2) = some deadline ∧
          deadline ≤ expiry := by
  cases hknown : knownExpiry w storedExpiry item with
  | none =>
      exact iff_of_true (expiryProblem_unknown hknown) fun _ h => by cases h
  | some expiry =>
      rcases expiryProblem_known spec afterInstall hknown with
        ⟨problem, heq⟩
      rw [heq, Option.map_eq_some_iff]
      constructor
      · rintro ⟨deadline, hlater, hclear⟩ _ ⟨⟩
        refine ⟨deadline, hlater, ?_⟩
        by_contra hnot
        rw [if_neg hnot] at hclear
        cases hclear
      · intro h
        rcases h expiry rfl with ⟨deadline, hlater, hle⟩
        exact ⟨deadline, hlater, if_pos hle⟩

theorem rejects_iff :
    Rejects w spec afterInstall storedExpiry item <->
      exists expiry deadline, knownExpiry w storedExpiry item = some expiry ∧
        later w.now (lifetime spec afterInstall item.2.2) = some deadline ∧ expiry < deadline := by
  unfold Rejects
  cases hknown : knownExpiry w storedExpiry item with
  | none =>
      rw [expiryProblem_unknown hknown]
      constructor
      · rintro ⟨problem, h⟩
        cases h
      · rintro ⟨expiry, deadline, h, _⟩
        cases h
  | some expiry =>
      rcases expiryProblem_known spec afterInstall hknown with
        ⟨problem, heq⟩
      rw [heq]
      constructor
      · rintro ⟨problem', h⟩
        rcases Option.map_eq_some_iff.mp h with ⟨deadline, hlater, hproblem⟩
        refine ⟨expiry, deadline, rfl, hlater, ?_⟩
        by_contra hnot
        rw [if_pos (Rat.not_lt.mp hnot)] at hproblem
        cases hproblem
      · rintro ⟨_, deadline, ⟨⟩, hlater, hlt⟩
        exact ⟨problem, by rw [hlater, Option.map_some, if_neg (Rat.not_le.mpr hlt)]⟩

/-!
## All URLs
-/

theorem expiryProblems_printable (h : Printable spec afterInstall) :
    expiryProblems w spec afterInstall storedExpiry =
      ((urlItems spec).mapM (expiryProblem w spec afterInstall storedExpiry)).map
        List.flatten := if_pos h

theorem expiryProblems_unprintable (h : ¬ Printable spec afterInstall) :
    expiryProblems w spec afterInstall storedExpiry = none := if_neg h

theorem expiryProblems_clear :
    expiryProblems w spec afterInstall storedExpiry = some [] <->
      Printable spec afterInstall ∧ forall item, item ∈ urlItems spec ->
        expiryProblem w spec afterInstall storedExpiry item = some [] := by
  by_cases hprintable : Printable spec afterInstall
  swap
  · exact iff_of_false (by rw [expiryProblems_unprintable hprintable]; nofun)
      fun h => hprintable h.left
  rw [expiryProblems_printable hprintable, and_iff_right hprintable]
  generalize urlItems spec = items
  induction items with
  | nil => exact iff_of_true rfl fun _ h => by cases h
  | cons item rest ih =>
      rw [List.forall_mem_cons, ← ih, List.mapM_cons]
      cases expiryProblem w spec afterInstall storedExpiry item with
      | none => exact iff_of_false nofun fun h => by cases h.left
      | some problems =>
          cases rest.mapM (expiryProblem w spec afterInstall storedExpiry) with
          | none => exact iff_of_false nofun fun h => by cases h.right
          | some others =>
              change some (problems ++ others.flatten) = some [] <->
                some problems = some [] ∧ some others.flatten = some []
              simp only [Option.some.injEq, List.append_eq_nil_iff]

theorem expiryProblems_isSome :
    (expiryProblems w spec afterInstall storedExpiry).isSome = true <->
      Printable spec afterInstall ∧ forall item, item ∈ urlItems spec ->
        (expiryProblem w spec afterInstall storedExpiry item).isSome = true := by
  by_cases hprintable : Printable spec afterInstall
  · rw [expiryProblems_printable hprintable, and_iff_right hprintable, Option.isSome_map,
      Fallible.mapM_isSome]
  · rw [expiryProblems_unprintable hprintable]
    exact iff_of_false nofun fun h => hprintable h.left

/-!
## The two checks
-/

theorem printable_second (h : Printable spec false) : Printable spec true :=
  ⟨h.left, fun hbudget => by cases hbudget.left⟩

theorem lifetime_afterInstall (spec : JobSpec) (purpose : Purpose) :
    lifetime spec true purpose = spec.budgets.wallClock + urlSlackSeconds := by
  cases purpose <;> simp [lifetime, required]

theorem lifetime_covers (spec : JobSpec) (purpose : Purpose) :
    lifetime spec true purpose + installReserve spec ≤ lifetime spec false purpose := by
  rw [lifetime_afterInstall]
  unfold lifetime installReserve required
  cases purpose with
  | data => simp
  | artifact => simp
  | control =>
      simp only [Bool.false_eq_true, if_false, and_true]
      split <;> split <;> simp_all

theorem later_isSome {now : Rat} {seconds : Int} :
    (later now seconds).isSome = true <->
      datetimeMin ≤ now + seconds ∧ now + seconds < datetimeMax := by
  unfold later
  split
  · next h => exact iff_of_true rfl h
  · next h => exact iff_of_false Bool.false_ne_true h

theorem cast_add_le {a b c : Int} (h : a + b ≤ c) : (a : Rat) + b ≤ c := by
  rw [← Rat.intCast_add]
  exact Rat.intCast_le_intCast.mpr h

/-- What is clear before the install is clear after it, where the deadline is a date. -/
theorem expiryProblem_after {t0 t1 : Rat} (hgap : t1 - t0 ≤ installReserve spec)
    (hclear : expiryProblem (w.at t0) spec false storedExpiry item = some []) :
    expiryProblem (w.at t1) spec true storedExpiry item = some [] <->
      ((knownExpiry w storedExpiry item).isSome = true ->
        datetimeMin ≤ t1 + (spec.budgets.wallClock + urlSlackSeconds : Int)) := by
  rw [expiryProblem_clear] at hclear ⊢
  change forall expiry, knownExpiry w storedExpiry item = some expiry -> _ at hclear
  change (forall expiry, knownExpiry w storedExpiry item = some expiry -> _) <-> _
  rw [lifetime_afterInstall]
  have hcovers := cast_add_le (lifetime_covers spec item.2.2)
  rw [lifetime_afterInstall] at hcovers
  constructor
  · intro h hknown
    rcases Option.isSome_iff_exists.mp hknown with ⟨expiry, hexpiry⟩
    rcases h expiry hexpiry with ⟨deadline, hlater, _⟩
    exact (later_eq_some.mp hlater).left.left
  · intro h expiry hexpiry
    rcases hclear expiry hexpiry with ⟨deadline, hlater, hle⟩
    rcases later_eq_some.mp hlater with ⟨⟨_, hmax⟩, rfl⟩
    have hmin := h (by rw [hexpiry]; rfl)
    simp only [World.at] at hlater hmax hle ⊢
    refine ⟨_, later_eq_some.mpr ⟨⟨hmin, ?_⟩, rfl⟩, ?_⟩ <;> grind

theorem rejects_later {t0 t1 : Rat} (hle : t0 ≤ t1)
    (h : Rejects (w.at t0) spec afterInstall storedExpiry item)
    (hlast : t1 + lifetime spec afterInstall item.2.2 < datetimeMax) :
    Rejects (w.at t1) spec afterInstall storedExpiry item := by
  rcases rejects_iff.mp h with ⟨expiry, deadline, hexpiry, hlater, hlt⟩
  rcases later_eq_some.mp hlater with ⟨⟨hmin, _⟩, rfl⟩
  simp only [World.at] at hmin hlt hlast
  have hmin' : datetimeMin ≤ t1 + lifetime spec afterInstall item.2.2 := by grind
  have hlt' : expiry < t1 + lifetime spec afterInstall item.2.2 := by grind
  exact rejects_iff.mpr ⟨expiry, t1 + lifetime spec afterInstall item.2.2, hexpiry,
    later_eq_some.mpr ⟨⟨hmin', hlast⟩, rfl⟩, hlt'⟩

theorem reports_later {t0 t1 : Rat} (hle : t0 ≤ t1)
    (h : Reports (w.at t0) spec afterInstall storedExpiry item) :
    Reports (w.at t1) spec afterInstall storedExpiry item <->
      forall other, other ∈ urlItems spec -> (knownExpiry w storedExpiry other).isSome = true ->
        t1 + lifetime spec afterInstall other.2.2 < datetimeMax := by
  rcases h with ⟨hmem, hrejects, hreturns⟩
  constructor
  · rintro ⟨_, _, hreturns'⟩ other hother hknown
    rcases Option.isSome_iff_exists.mp hknown with ⟨expiry, hexpiry⟩
    have hone := (expiryProblems_isSome.mp hreturns').right other hother
    exact (later_isSome.mp (expiryProblem_isSome.mp hone expiry hexpiry)).right
  · intro hlast
    have hknown : (knownExpiry w storedExpiry item).isSome = true := by
      rcases rejects_iff.mp hrejects with ⟨expiry, _, hexpiry, _⟩
      exact Option.isSome_iff_exists.mpr ⟨expiry, hexpiry⟩
    refine ⟨hmem, rejects_later hle hrejects (hlast item hmem hknown), ?_⟩
    refine expiryProblems_isSome.mpr ⟨(expiryProblems_isSome.mp hreturns).left,
      fun other hother => expiryProblem_isSome.mpr ?_⟩
    intro expiry hexpiry
    have hone := expiryProblem_isSome.mp ((expiryProblems_isSome.mp hreturns).right other hother)
      expiry hexpiry
    have hmin := (later_isSome.mp hone).left
    refine later_isSome.mpr ⟨?_, hlast other hother (Option.isSome_iff_exists.mpr ⟨_, hexpiry⟩)⟩
    simp only [World.at] at hmin ⊢
    grind

/-- After an install no longer than was set aside, the second check is clear too exactly
where its deadlines do not come before the first date; and what either check rejects it
rejects later exactly where its deadlines do not come after the last one. -/
theorem checks_consistent_iff (w : World) (spec : JobSpec) (storedExpiry : String -> Option Rat)
    (t0 t1 : Rat) (hle : t0 ≤ t1) :
    (t1 - t0 ≤ installReserve spec ->
      expiryProblems (w.at t0) spec false storedExpiry = some [] ->
      (expiryProblems (w.at t1) spec true storedExpiry = some [] <->
        ((exists item, item ∈ urlItems spec ∧ (knownExpiry w storedExpiry item).isSome = true) ->
          datetimeMin ≤ t1 + (spec.budgets.wallClock + urlSlackSeconds : Int)))) ∧
    (forall afterInstall item, Reports (w.at t0) spec afterInstall storedExpiry item ->
      (Reports (w.at t1) spec afterInstall storedExpiry item <->
        forall other, other ∈ urlItems spec ->
          (knownExpiry w storedExpiry other).isSome = true ->
            t1 + lifetime spec afterInstall other.2.2 < datetimeMax)) := by
  refine ⟨fun hgap hclear => ?_, fun afterInstall item h => reports_later hle h⟩
  rw [expiryProblems_clear] at hclear ⊢
  rcases hclear with ⟨hprintable, hclear⟩
  constructor
  · rintro ⟨-, h⟩ ⟨item, hmem, hknown⟩
    exact (expiryProblem_after hgap (hclear item hmem)).mp (h item hmem) hknown
  · intro h
    refine ⟨printable_second hprintable, fun item hmem => ?_⟩
    exact (expiryProblem_after hgap (hclear item hmem)).mpr fun hknown => h ⟨item, hmem, hknown⟩

def plainWorld : World where
  casefold := id
  urlId := id
  specHash _ := ""
  now := 0
  isoformat _ := ""
  expiry url := if url = "p" then some 100000 else none
  urls := []
  controlUrls := []
  codeRoot := ""
  entryEscapes := false
  entryIsFile := true
  probe := ([], [])
  source _ := ([], [])

def controlSpec (wallClock : Int) : JobSpec :=
  { name := "n", code := { entry := "main.py" }, deps := ["torch"],
    budgets := { wallClock }, control := { result := some { putUrl := "p", getUrl := "g" } } }

theorem checks_consistent_hour :
    expiryProblems (plainWorld.at 3300) (controlSpec 3600) true (fun _ => none) = some [] := by
  have hchecks := (checks_consistent_iff plainWorld (controlSpec 3600) (fun _ => none) 0 3300
    (by decide)).left (by decide +kernel) (by decide +kernel)
  exact hchecks.mpr fun _ => by decide +kernel

/-- With a budget below zero the second check has no date to compare with. -/
theorem check_raises_after :
    let spec := controlSpec (-100000000000000)
    (0 : Rat) - 0 ≤ installReserve spec ∧
      expiryProblems (plainWorld.at 0) spec false (fun _ => none) = some [] ∧
      expiryProblems (plainWorld.at 0) spec true (fun _ => none) = none := by
  decide +kernel

end Planner
end Job
end MightyColab
