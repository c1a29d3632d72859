import MightyColab.Job.Absence
import MightyColab.Job.ApplyRelease

/-!
# What the poll goes by

A pass of apply's poll taken apart into the reads that it makes with what it concludes from
them, and what it then does. A poll that gives up has read what entitles it to: a lost
session, a record of a dead runner with still no result, or launch.json absent for as long
as it takes, with no sign of the runner before.
-/

namespace MightyColab
namespace Job

open Lib
open Transport (ReadStatus)

namespace Evidence

open Apply

/-!
## Reads and conclusions
-/

/-- What a read of a file has come to. -/
abbrev Seen := Option Json.Fields × ReadStatus

inductive Read where
  | result (seen : Seen)
  | watchdog (seen : Seen)
  /-- launch.json, with the clock when it is noted absent and when it is compared. -/
  | launch (seen : Seen) (noted compared : Rat)
  /-- The last look at result.json. -/
  | late (seen : Seen)

inductive Ending where
  /-- There is a result. -/
  | result (record : Json.Fields)
  /-- The assignment is gone. -/
  | lost
  /-- The runner is dead. -/
  | dead (record : Json.Fields)
  /-- The runner never started. -/
  | neverStarted (since : Rat)

inductive Conclusion where
  | ends (ending : Ending)
  /-- The poll goes on; result.json could be read, or not. -/
  | goesOn (healthy : Bool)

abbrev Looked := List Read × Option Ending

def goneLook (t : Tick) (otherwise : Ending) : Program Looked := do
  let late ← readJson t.late
  match okRecord late with
  | some record => return ([.late late], some (.result record))
  | none => return ([.late late], some otherwise)

def watchdogLook (t : Tick) (record : Json.Fields) : Program Looked := do
  let s ← Prog.get
  let hint := watchdogHint record
  let (stalled, staleness) := s.staleness.observe t.clock record
  Prog.modify fun s => { s with
    runnerSeen := true, lastWatchdogHint := some hint, staleness
    env :=
      let env := replaceHint watchdogStalledLead stalled
        (replaceHint watchdogHintLead (some hint) s.env)
      { env with reason := stalled.or env.reason } }
  match Json.Fields.get record "runner_alive" with
  | .bool false => goneLook t (.dead record)
  | _ => return ([], none)

def launchLook (t : Tick) : Program Looked := do
  let s ← Prog.get
  match (nonempty s.env.startedAt).bind fun _ => t.sinceLaunch with
  | none => return ([], none)
  | some since =>
      if since ≤ launchRecordGraceSeconds then return ([], none)
      else
        let launch ← readJson t.launch
        let read := Read.launch launch t.absentFrom t.absentNow
        Prog.modify fun s =>
          if launch.2 = .ok then { s with runnerSeen := true, launchAbsentSince := none }
          else if launch.2 = .notFound then
            { s with launchAbsentSince := s.launchAbsentSince.or (some t.absentFrom) }
          else s
        let s ← Prog.get
        if launch.2 = .notFound ∧ (s.launchAbsentSince.any fun absent =>
            decide (launchAbsenceConfirmSeconds ≤ t.absentNow - absent)) = true then
          let looked ← goneLook t (.neverStarted since)
          return (read :: looked.1, looked.2)
        else return ([read], none)

def healthyLook (t : Tick) : Program Looked := do
  modifyEnv fun env => { env with supervisor := .running, reason := none }
  let watchdog ← readJson t.watchdog
  let s ← Prog.get
  let looked ← (match okRecord watchdog with
    | some record => watchdogLook t record
    | none =>
        if watchdog.2 = .notFound ∧ s.runnerSeen = false then launchLook t
        else return ([], none))
  return (.watchdog watchdog :: looked.1, looked.2)

def Conclusion.ofEnding : Option Ending -> Conclusion
  | some ending => .ends ending
  | none => .goesOn true

def look (t : Tick) (degraded : Nat) : Program (List Read × Conclusion) := do
  let read ← readJson t.result
  match okRecord read with
  | some record => return ([.result read], .ends (.result record))
  | none =>
      if read.2 = .sessionLost then return ([.result read], .ends .lost)
      else if read.2 = .degraded then
        modifyEnv fun env => { env with
          supervisor := .degraded
          reason := some (degradedReason t.note (some (degraded + 1))) }
        return ([.result read], .goesOn false)
      else
        let looked ← healthyLook t
        return (.result read :: looked.1, .ofEnding looked.2)

def settle (spec : JobSpec) (t : Tick) : Ending -> Program Unit
  | .result record => absorbOrKeep spec t.absorb t.endings record
  | .lost => do
      let s ← Prog.get
      finishWithoutResult spec t.endings (lostAssignmentReason s.env)
  | .dead record => finishWithoutResult spec t.endings (deadReason record)
  | .neverStarted since => finishWithoutResult spec t.endings (neverStartedReason since)

def conclude (spec : JobSpec) (t : Tick) : Conclusion -> Program Bool
  | .ends ending => do
      settle spec t ending
      return true
  | .goesOn healthy => do
      if healthy then arrive t.pull
      persist t.write
      arrive t.sleep
      return false

/-!
## A pass is its reads and what it does about them
-/

variable {spec : JobSpec} {t : Tick} {degraded : Nat} {s s' : Proc}

def settleIf (spec : JobSpec) (t : Tick) : Option Ending -> Program Bool
  | some ending => do
      settle spec t ending
      return true
  | none => pure false

theorem goneLook_eq {reason : String} {otherwise : Ending}
    (h : settle spec t otherwise = finishWithoutResult spec t.endings reason) :
    (do
      runnerGone spec t reason
      return true : Program Bool) =
      goneLook t otherwise >>= fun looked => settleIf spec t looked.2 := by
  unfold runnerGone absorbLateResult goneLook
  rw [Prog.bind_assoc, Prog.bind_assoc, Prog.bind_assoc]
  congr 1
  funext late
  cases okRecord late with
  | some record =>
      simp only [Prog.bind_assoc, Prog.pure_bind, if_true]
      rfl
  | none =>
      simp only [Prog.pure_bind, settleIf, h]
      rfl

theorem watchdogLook_eq (record : Json.Fields) :
    watchdogRead spec t record =
      watchdogLook t record >>= fun looked => settleIf spec t looked.2 := by
  unfold watchdogRead watchdogLook
  rw [Prog.bind_assoc]
  congr 1
  funext s
  simp only
  rw [Prog.bind_assoc]
  congr 1
  funext _
  rcases Json.Fields.get record "runner_alive" with _ | alive | _ | _ | _ | _ | _
  case bool =>
    cases alive with
    | false => exact goneLook_eq rfl
    | true => rfl
  all_goals rfl

theorem launchLook_eq :
    launchRead spec t = launchLook t >>= fun looked => settleIf spec t looked.2 := by
  unfold launchRead launchLook
  rw [Prog.bind_assoc]
  congr 1
  funext s
  cases (nonempty s.env.startedAt).bind fun _ => t.sinceLaunch with
  | none => rfl
  | some since =>
      by_cases hgrace : since ≤ launchRecordGraceSeconds
      · simp only [if_pos hgrace]
        rfl
      · simp only [if_neg hgrace]
        rw [Prog.bind_assoc]
        congr 1
        funext launch
        simp only [Prog.bind_assoc]
        congr 1
        funext _
        congr 1
        funext s
        by_cases habsent : launch.2 = .notFound ∧ (s.launchAbsentSince.any fun absent =>
            decide (launchAbsenceConfirmSeconds ≤ t.absentNow - absent)) = true
        · rw [if_pos habsent, if_pos habsent, Prog.bind_assoc]
          exact goneLook_eq rfl
        · rw [if_neg habsent, if_neg habsent]
          rfl

theorem healthyPart_eq {p : Program Bool} {q : Program Looked}
    (h : p = q >>= fun looked => settleIf spec t looked.2) :
    (p >>= fun ended => (if ended = true then pure true else do
      arrive t.pull
      pure false) >>= fun ended => if ended = true then pure true else do
        persist t.write
        arrive t.sleep
        pure false) =
    (q >>= fun looked => conclude spec t (.ofEnding looked.2)) := by
  rw [h, Prog.bind_assoc]
  congr 1
  funext looked
  rcases looked with ⟨reads, _ | ending⟩
  · simp only [settleIf, Conclusion.ofEnding, conclude, Prog.bind_assoc, Prog.pure_bind,
      Bool.false_eq_true, if_false, if_true]
  · simp only [settleIf, Conclusion.ofEnding, conclude, Prog.bind_assoc, Prog.pure_bind, if_true]

theorem tick_eq :
    tick spec t degraded = look t degraded >>= fun looked => conclude spec t looked.2 := by
  unfold tick look
  rw [Prog.bind_assoc]
  congr 1
  funext read
  cases okRecord read with
  | some record => rfl
  | none =>
      by_cases hlost : read.2 = .sessionLost
      · simp only [if_pos hlost]
        rfl
      · by_cases hdegraded : read.2 = .degraded
        · simp only [if_neg hlost, if_pos hdegraded]
          rfl
        · simp only [if_neg hlost, if_neg hdegraded]
          unfold healthy healthyLook
          simp only [Prog.bind_assoc]
          congr 1
          funext _
          congr 1
          funext watchdog
          congr 1
          funext s
          cases okRecord watchdog with
          | some record => exact healthyPart_eq (watchdogLook_eq record)
          | none =>
              by_cases hunseen : watchdog.2 = .notFound ∧ s.runnerSeen = false
              · simp only [if_pos hunseen]
                exact healthyPart_eq launchLook_eq
              · simp only [if_neg hunseen]
                exact healthyPart_eq rfl

/-!
## What a pass has read
-/

variable {reads : List Read} {ending : Option Ending} {u : Proc}

theorem arrive_eq_ok {signal : Option Signal} {x : Unit} (h : arrive signal s = (.ok x, u)) :
    u = s := by
  by_cases hquiet : Quiet s signal
  · rw [arrive_quiet hquiet] at h
    cases h
    rfl
  · rcases arrive_loud hquiet with ⟨e, v, hloud, _⟩
    rw [hloud] at h
    cases h

theorem readJson_eq_ok {hit : ReadHit} {seen : Seen} (h : readJson hit s = (.ok seen, u)) :
    hit.read = .ok seen ∧ u = s := by
  rcases Prog.bind_eq_ok h with ⟨_, v, hbefore, h⟩
  cases arrive_eq_ok hbefore
  cases hread : hit.read with
  | error text =>
      simp only [hread] at h
      cases h
  | ok read =>
      simp only [hread] at h
      rcases Prog.bind_eq_ok h with ⟨_, v, hafter, h⟩
      cases arrive_eq_ok hafter
      cases h
      exact ⟨rfl, rfl⟩

theorem goneLook_ok {otherwise : Ending} (h : goneLook t otherwise s = (.ok (reads, ending), u)) :
    exists late, reads = [.late late] ∧
      ((exists record, ending = some (.result record)) ∨
        (okRecord late = none ∧ ending = some otherwise)) := by
  rcases Prog.bind_eq_ok h with ⟨late, v, _, h⟩
  refine ⟨late, ?_⟩
  cases hrecord : okRecord late with
  | some record =>
      simp only [hrecord] at h
      cases h
      exact ⟨rfl, Or.inl ⟨record, rfl⟩⟩
  | none =>
      simp only [hrecord] at h
      cases h
      exact ⟨rfl, Or.inr ⟨rfl, rfl⟩⟩

theorem watchdogLook_ok {record : Json.Fields}
    (h : watchdogLook t record s = (.ok (reads, ending), u)) :
    (ending = none ∧ reads = [] ∧ u.runnerSeen = true ∧
        u.launchAbsentSince = s.launchAbsentSince) ∨
      (exists result, ending = some (.result result)) ∨
      (ending = some (.dead record) ∧ Json.Fields.get record "runner_alive" = .bool false ∧
        exists late, reads = [.late late] ∧ okRecord late = none) := by
  unfold watchdogLook at h
  rw [Prog.bind_run_ok (Prog.get_run s)] at h
  simp only at h
  rcases Prog.bind_eq_ok h with ⟨_, v, hmark, h⟩
  cases hmark
  cases halive : Json.Fields.get record "runner_alive" with
  | bool alive =>
      simp only [halive] at h
      cases alive with
      | true =>
          cases h
          exact Or.inl ⟨rfl, rfl, rfl, rfl⟩
      | false =>
          rcases goneLook_ok h with ⟨late, hreads, hresult | ⟨hnone, hending⟩⟩
          · exact Or.inr (Or.inl hresult)
          · exact Or.inr (Or.inr ⟨hending, rfl, late, hreads, hnone⟩)
  | null | int _ | float _ _ | str _ | arr _ | obj _ =>
      simp only [halive] at h
      cases h
      exact Or.inl ⟨rfl, rfl, rfl, rfl⟩

def noteLaunch (t : Tick) (launch : Seen) (s : Proc) : Proc :=
  if launch.2 = .ok then { s with runnerSeen := true, launchAbsentSince := none }
  else if launch.2 = .notFound then
    { s with launchAbsentSince := s.launchAbsentSince.or (some t.absentFrom) }
  else s

theorem launchLook_ok (h : launchLook t s = (.ok (reads, ending), u)) :
    (ending = none ∧ reads = [] ∧ u = s) ∨
      (exists result, ending = some (.result result)) ∨
      exists launch since, launchRecordGraceSeconds < since ∧
        ((ending = none ∧ reads = [.launch launch t.absentFrom t.absentNow] ∧
            u = noteLaunch t launch s) ∨
          (ending = some (.neverStarted since) ∧ launch.2 = .notFound ∧
            (exists noted, s.launchAbsentSince.or (some t.absentFrom) = some noted ∧
              launchAbsenceConfirmSeconds ≤ t.absentNow - noted) ∧
            exists late, reads = [.launch launch t.absentFrom t.absentNow, .late late])) := by
  unfold launchLook at h
  rw [Prog.bind_run_ok (Prog.get_run s)] at h
  cases hsince : (nonempty s.env.startedAt).bind fun _ => t.sinceLaunch with
  | none =>
      simp only [hsince] at h
      cases h
      exact Or.inl ⟨rfl, rfl, rfl⟩
  | some since =>
      simp only [hsince] at h
      by_cases hgrace : since ≤ launchRecordGraceSeconds
      · rw [if_pos hgrace] at h
        cases h
        exact Or.inl ⟨rfl, rfl, rfl⟩
      · rw [if_neg hgrace] at h
        have hlong := Rat.not_le.mp hgrace
        rcases Prog.bind_eq_ok h with ⟨launch, v, hread, h⟩
        cases (readJson_eq_ok hread).right
        rcases Prog.bind_eq_ok h with ⟨_, v, hmark, h⟩
        have hv : v = noteLaunch t launch s := (congrArg Prod.snd hmark).symm
        rw [Prog.bind_run_ok (Prog.get_run v)] at h
        split at h
        · next habsent =>
            rcases Prog.bind_eq_ok h with ⟨⟨late, ending'⟩, w, hgone, h⟩
            cases h
            rcases goneLook_ok hgone with ⟨seen, hlate, hresult | ⟨_, hending⟩⟩
            · exact Or.inr (Or.inl hresult)
            · rcases habsent with ⟨hnotFound, hconfirmed⟩
              rw [hv, noteLaunch, hnotFound, if_neg (by decide), if_pos rfl] at hconfirmed
              refine Or.inr (Or.inr ⟨launch, since, hlong, Or.inr ⟨hending, hnotFound, ?_, seen, ?_⟩⟩)
              · cases hnoted : s.launchAbsentSince.or (some t.absentFrom) with
                | none =>
                    simp only [hnoted] at hconfirmed
                    cases hconfirmed
                | some noted =>
                    simp only [hnoted] at hconfirmed
                    exact ⟨noted, rfl, of_decide_eq_true hconfirmed⟩
              · rw [hlate]
        · cases h
          exact Or.inr (Or.inr ⟨launch, since, hlong, Or.inl ⟨rfl, rfl, hv⟩⟩)

/-!
## What entitles the poll to give up
-/

/-- The read shows that the runner has been there. An OK of `watchdog.json` does with a record
in it: an empty object is none to the poll, and the watchdog never writes one. -/
def Read.showsRunner : Read -> Bool
  | .watchdog seen => (okRecord seen).isSome
  | .launch seen _ _ => seen.2 = .ok
  | _ => false

/-- Two reads have found no launch.json, the second as long after the first as it takes. -/
def AbsentTwice (reads : List Read) : Prop :=
  exists first middle last seen noted compared seen' noted' compared',
    reads = first ++ .launch seen noted compared :: middle ++
      .launch seen' noted' compared' :: last ∧
    seen.2 = .notFound ∧ seen'.2 = .notFound ∧
    launchAbsenceConfirmSeconds ≤ compared' - noted

/-- The reads up to the end of the poll bear it out. -/
def Entitles (reads : List Read) : Ending -> Prop
  | .result _ => True
  | .lost => exists earlier seen, reads = earlier ++ [.result seen] ∧ seen.2 = .sessionLost
  | .dead record =>
      exists earlier watchdog late, reads = earlier ++ [.watchdog watchdog, .late late] ∧
        okRecord watchdog = some record ∧
        Json.Fields.get record "runner_alive" = .bool false ∧ okRecord late = none
  | .neverStarted since =>
      (forall read, read ∈ reads -> read.showsRunner = false) ∧
        launchRecordGraceSeconds < since ∧ AbsentTwice reads

/-- What the poll remembers of its reads. -/
structure Remembers (reads : List Read) (s : Proc) : Prop where
  unseen : s.runnerSeen = false -> forall read, read ∈ reads -> read.showsRunner = false
  absent : forall noted, s.launchAbsentSince = some noted ->
    exists seen compared, .launch seen noted compared ∈ reads ∧ seen.2 = .notFound

theorem Remembers.snoc {read : Read} (h : Remembers reads s)
    (hseen : u.runnerSeen = false -> s.runnerSeen = false ∧ read.showsRunner = false)
    (hsame : u.launchAbsentSince = s.launchAbsentSince) : Remembers (reads ++ [read]) u where
  unseen hunseen := by
    intro r hr
    rcases List.mem_append.mp hr with hr | hr
    · exact h.unseen (hseen hunseen).left r hr
    · rw [List.mem_singleton.mp hr]
      exact (hseen hunseen).right
  absent noted hnoted := by
    rw [hsame] at hnoted
    rcases h.absent noted hnoted with ⟨seen, compared, hmem, hnotFound⟩
    exact ⟨seen, compared, List.mem_append_left _ hmem, hnotFound⟩

theorem Remembers.launch {launch : Seen} (h : Remembers reads s) :
    Remembers (reads ++ [.launch launch t.absentFrom t.absentNow]) (noteLaunch t launch s) := by
  unfold noteLaunch
  split
  · exact ⟨nofun, nofun⟩
  · next hnotOk =>
      have hshows : (Read.launch launch t.absentFrom t.absentNow).showsRunner = false :=
        decide_eq_false hnotOk
      split
      · next hnotFound =>
          refine ⟨(h.snoc (fun hunseen => ⟨hunseen, hshows⟩) rfl).unseen, fun noted hnoted => ?_⟩
          rcases Option.or_eq_some_iff.mp hnoted with hbefore | ⟨_, hnow⟩
          · rcases h.absent noted hbefore with ⟨seen, compared, hmem, habsent⟩
            exact ⟨seen, compared, List.mem_append_left _ hmem, habsent⟩
          · cases hnow
            exact ⟨launch, t.absentNow, List.mem_append_right _ List.mem_cons_self, hnotFound⟩
      · exact h.snoc (fun hunseen => ⟨hunseen, hshows⟩) rfl

theorem absentTwice_of_noted {launch : Seen} {late : Read} {noted : Rat} (h : Remembers reads s)
    (hinstant : t.absentNow = t.absentFrom) (hnotFound : launch.2 = .notFound)
    (hnoted : s.launchAbsentSince.or (some t.absentFrom) = some noted)
    (hlong : launchAbsenceConfirmSeconds ≤ t.absentNow - noted) :
    AbsentTwice (reads ++ [.launch launch t.absentFrom t.absentNow, late]) := by
  rcases Option.or_eq_some_iff.mp hnoted with hbefore | ⟨_, hnow⟩
  · rcases h.absent noted hbefore with ⟨seen, compared, hmem, habsent⟩
    rcases List.append_of_mem hmem with ⟨first, middle, rfl⟩
    exact ⟨first, middle, [late], seen, noted, compared, launch, t.absentFrom, t.absentNow,
      rfl, habsent, hnotFound, hlong⟩
  · cases hnow
    rw [hinstant, sub_self] at hlong
    exact absurd hlong (by decide)

/-!
## A pass
-/

structure Sound (reads : List Read) (ending : Option Ending) (s : Proc) : Prop where
  ends : forall e, ending = some e -> Entitles reads e
  goesOn : ending = none -> Remembers reads s

theorem Sound.ended {e : Ending} (h : Entitles reads e) : Sound reads (some e) s where
  ends e' he := by
    cases he
    exact h
  goesOn hnone := by cases hnone

theorem Sound.remembers (h : Remembers reads s) : Sound reads none s where
  ends e he := by cases he
  goesOn _ := h

variable {earlier : List Read}

theorem watchdogLook_sound {watchdog : Seen} {record : Json.Fields}
    (h : Remembers earlier s) (hrecord : okRecord watchdog = some record)
    (hlook : watchdogLook t record s = (.ok (reads, ending), u)) :
    Sound (earlier ++ .watchdog watchdog :: reads) ending u := by
  rcases watchdogLook_ok hlook with ⟨rfl, rfl, hseen, hsame⟩ | ⟨result, rfl⟩ |
    ⟨rfl, hdead, late, rfl, hnone⟩
  · refine Sound.remembers (h.snoc (fun hunseen => ?_) hsame)
    rw [hseen] at hunseen
    cases hunseen
  · exact Sound.ended trivial
  · exact Sound.ended ⟨earlier, watchdog, late, rfl, hrecord, hdead, hnone⟩

theorem launchLook_sound {watchdog : Seen} (h : Remembers earlier s)
    (hinstant : t.absentNow = t.absentFrom) (hnone : okRecord watchdog = none)
    (hunseen : s.runnerSeen = false) (hlook : launchLook t s = (.ok (reads, ending), u)) :
    Sound (earlier ++ .watchdog watchdog :: reads) ending u := by
  have hshows : (Read.watchdog watchdog).showsRunner = false := by
    rw [Read.showsRunner, hnone]
    rfl
  have hwatched : Remembers (earlier ++ [.watchdog watchdog]) s :=
    h.snoc (fun hunseen => ⟨hunseen, hshows⟩) rfl
  have hsplit : earlier ++ .watchdog watchdog :: reads =
      earlier ++ [.watchdog watchdog] ++ reads := by
    rw [List.append_assoc, List.singleton_append]
  rw [hsplit]
  rcases launchLook_ok hlook with ⟨rfl, rfl, rfl⟩ | ⟨result, rfl⟩ |
    ⟨launch, since, hlong, ⟨rfl, rfl, rfl⟩ | ⟨rfl, hnotFound, hconfirmed, late, rfl⟩⟩
  · rw [List.append_nil]
    exact Sound.remembers hwatched
  · exact Sound.ended trivial
  · exact Sound.remembers hwatched.launch
  · rcases hconfirmed with ⟨noted, hnoted, hconfirm⟩
    refine Sound.ended ⟨fun read hread => ?_, hlong,
      absentTwice_of_noted hwatched hinstant hnotFound hnoted hconfirm⟩
    rcases List.mem_append.mp hread with hread | hread
    · exact hwatched.unseen hunseen read hread
    · rcases List.mem_cons.mp hread with rfl | hread
      · rw [Read.showsRunner, hnotFound]
        rfl
      · rw [List.mem_singleton.mp hread]
        rfl

theorem healthyLook_sound (h : Remembers earlier s) (hinstant : t.absentNow = t.absentFrom)
    (hlook : healthyLook t s = (.ok (reads, ending), u)) : Sound (earlier ++ reads) ending u := by
  rcases Prog.bind_eq_ok hlook with ⟨_, v, hrunning, hlook⟩
  have hkept : Remembers earlier v := by
    cases hrunning
    exact ⟨h.unseen, h.absent⟩
  rcases Prog.bind_eq_ok hlook with ⟨watchdog, w, hread, hlook⟩
  cases (readJson_eq_ok hread).right
  rw [Prog.bind_run_ok (Prog.get_run v)] at hlook
  rcases Prog.bind_eq_ok hlook with ⟨⟨rest, ending'⟩, w, hpart, hlook⟩
  cases hlook
  cases hrecord : okRecord watchdog with
  | some record =>
      simp only [hrecord] at hpart
      exact watchdogLook_sound hkept hrecord hpart
  | none =>
      simp only [hrecord] at hpart
      by_cases hasks : watchdog.2 = .notFound ∧ v.runnerSeen = false
      · rw [if_pos hasks] at hpart
        exact launchLook_sound hkept hinstant hrecord hasks.right hpart
      · rw [if_neg hasks] at hpart
        cases hpart
        refine Sound.remembers (hkept.snoc (fun hunseen => ⟨hunseen, ?_⟩) rfl)
        rw [Read.showsRunner, hrecord]
        rfl

def Conclusion.endedBy : Conclusion -> Option Ending
  | .ends ending => some ending
  | .goesOn _ => none

theorem look_sound {conclusion : Conclusion} (h : Remembers earlier s)
    (hinstant : t.absentNow = t.absentFrom)
    (hlook : look t degraded s = (.ok (reads, conclusion), u)) :
    Sound (earlier ++ reads) conclusion.endedBy u := by
  rcases Prog.bind_eq_ok hlook with ⟨result, v, hread, hlook⟩
  cases (readJson_eq_ok hread).right
  have hresult : forall v, v.runnerSeen = s.runnerSeen ->
      v.launchAbsentSince = s.launchAbsentSince -> Remembers (earlier ++ [.result result]) v := by
    intro v hseen hsame
    exact h.snoc (fun hunseen => ⟨hseen.symm.trans hunseen, rfl⟩) hsame
  cases hrecord : okRecord result with
  | some record =>
      simp only [hrecord] at hlook
      cases hlook
      exact Sound.ended trivial
  | none =>
      simp only [hrecord] at hlook
      by_cases hlost : result.2 = .sessionLost
      · rw [if_pos hlost] at hlook
        cases hlook
        exact Sound.ended ⟨earlier, result, rfl, hlost⟩
      · rw [if_neg hlost] at hlook
        by_cases hdegraded : result.2 = .degraded
        · rw [if_pos hdegraded] at hlook
          cases hlook
          exact Sound.remembers (hresult _ rfl rfl)
        · rw [if_neg hdegraded] at hlook
          rcases Prog.bind_eq_ok hlook with ⟨⟨rest, ending⟩, w, hhealthy, hlook⟩
          cases hlook
          have hsound := healthyLook_sound (hresult s rfl rfl) hinstant hhealthy
          rw [List.append_assoc, List.singleton_append] at hsound
          cases ending with
          | none => exact hsound
          | some e => exact hsound

/-!
## The poll
-/

/-- A pass with each read at one time: the clock stands still between the two looks at it
after launch.json's. -/
structure Pass extends Tick where
  instant : absentNow = absentFrom

/-- The poll goes through these passes, with these reads; the numbers count the degraded
ones. -/
inductive Polls (spec : JobSpec) (deadline : Rat) (start : Proc) :
    List Pass -> List Read -> Nat -> Proc -> Prop
  | start : Polls spec deadline start [] [] 0 start
  | pass {passes : List Pass} {earlier reads : List Read} {n : Nat} {p : Pass} {s u s' : Proc}
      {conclusion : Conclusion} (before : Polls spec deadline start passes earlier n s)
      (intime : p.time < deadline) (looks : look p.toTick n s = (.ok (reads, conclusion), u))
      (goesOn : conclude spec p.toTick conclusion u = (.ok false, s')) :
      Polls spec deadline start (passes ++ [p]) (earlier ++ reads)
        (match p.result.read with
          | .ok (_, .degraded) => n + 1
          | _ => 0) s'

/-- The poll settles the job in its last pass, after these reads. -/
structure Settles (spec : JobSpec) (deadline : Rat) (start : Proc) (passes : List Pass) (p : Pass)
    (reads : List Read) (ending : Ending) (u : Proc) : Prop where
  polls : exists earlier last n s, Polls spec deadline start passes earlier n s ∧
    reads = earlier ++ last ∧ look p.toTick n s = (.ok (last, .ends ending), u)
  intime : p.time < deadline

theorem goOn_eq_ok (h : (do
      persist t.write
      arrive t.sleep
      return false : Program Bool) u = (.ok false, s')) : s' = Absence.wrote u := by
  rcases Prog.bind_eq_ok h with ⟨_, w, hpersist, h⟩
  rcases Prog.bind_eq_ok h with ⟨_, x, hsleep, h⟩
  cases h
  cases arrive_eq_ok hsleep
  rcases Prog.bind_eq_ok hpersist with ⟨_, y, hbefore, hpersist⟩
  cases arrive_eq_ok hbefore
  rcases Prog.bind_eq_ok hpersist with ⟨_, z, hwrite, hafter⟩
  cases arrive_eq_ok hafter
  cases hfile : t.write.write.file with
  | some text => simp [writeEnvelope, Write.perform, hfile] at hwrite
  | none =>
      have hstate := congrArg Prod.snd hwrite
      rw [writeEnvelope_state, if_pos (by simp [Write.lands, hfile])] at hstate
      exact hstate.symm

theorem conclude_wrote {conclusion : Conclusion}
    (h : conclude spec t conclusion u = (.ok false, s')) :
    (exists healthy, conclusion = .goesOn healthy) ∧ s' = Absence.wrote u := by
  cases conclusion with
  | ends ending =>
      rcases Prog.bind_eq_ok h with ⟨_, v, _, h⟩
      cases h
  | goesOn healthy =>
      cases healthy with
      | false => exact ⟨⟨false, rfl⟩, goOn_eq_ok h⟩
      | true =>
          rcases Prog.bind_eq_ok h with ⟨_, v, hpull, h⟩
          cases arrive_eq_ok hpull
          exact ⟨⟨true, rfl⟩, goOn_eq_ok h⟩

theorem conclude_goesOn {conclusion : Conclusion}
    (h : conclude spec t conclusion u = (.ok false, s')) :
    conclusion.endedBy = none ∧ s'.runnerSeen = u.runnerSeen ∧
      s'.launchAbsentSince = u.launchAbsentSince := by
  rcases conclude_wrote h with ⟨⟨healthy, rfl⟩, rfl⟩
  exact ⟨rfl, rfl, rfl⟩

variable {deadline : Rat} {start : Proc} {passes : List Pass} {n : Nat}

theorem polls_remembers (hfresh : start.launchAbsentSince = none)
    (h : Polls spec deadline start passes earlier n s) : Remembers earlier s := by
  induction h with
  | start =>
      refine ⟨fun _ => nofun, fun noted hnoted => ?_⟩
      rw [hfresh] at hnoted
      cases hnoted
  | pass before intime looks goesOn ih =>
      rename_i p _ _ _ _
      rcases conclude_goesOn goesOn with ⟨hnone, hseen, hsame⟩
      have hkept := (look_sound ih p.instant looks).goesOn hnone
      refine ⟨fun hunseen => hkept.unseen (hseen.symm.trans hunseen), fun noted hnoted => ?_⟩
      exact hkept.absent noted (hsame.symm.trans hnoted)

theorem polls_poll (a : Deadline) (h : Polls spec deadline start passes earlier n s) :
    forall rest : List Tick, poll spec deadline a (passes.map Pass.toTick ++ rest) 0 start =
      poll spec deadline a rest n s := by
  induction h with
  | start => exact fun rest => rfl
  | pass before intime looks goesOn ih =>
      intro rest
      rw [List.map_append, List.append_assoc, ih]
      change poll spec deadline a (_ :: rest) _ _ = _
      rw [poll, if_pos intime, tick_eq, Prog.bind_assoc, Prog.bind_run_ok looks,
        Prog.bind_run_ok goesOn]
      rfl

theorem settles_poll {p : Pass} {e : Ending} (a : Deadline) (rest : List Tick)
    (h : Settles spec deadline start passes p reads e u) :
    poll spec deadline a (passes.map Pass.toTick ++ p.toTick :: rest) 0 start =
      settle spec p.toTick e u := by
  rcases h with ⟨⟨earlier, last, n, s, hpolls, _, hlook⟩, hintime⟩
  rw [polls_poll a hpolls, poll, if_pos hintime, tick_eq, Prog.bind_assoc, Prog.bind_run_ok hlook,
    conclude, Prog.bind_assoc, Prog.bind_run]
  rcases settle spec p.toTick e u with ⟨o, v⟩
  cases o <;> rfl

/-- Whatever a poll reads, and whenever: it gives up on a runner only on reads that entitle
it to. -/
theorem poll_entitled (a : Deadline) (rest : List Tick) {p : Pass} {e : Ending}
    (hfresh : start.launchAbsentSince = none)
    (h : Settles spec deadline start passes p reads e u) :
    Entitles reads e ∧
      poll spec deadline a (passes.map Pass.toTick ++ p.toTick :: rest) 0 start =
        settle spec p.toTick e u := by
  refine ⟨?_, settles_poll a rest h⟩
  rcases h with ⟨⟨earlier, last, n, s, hpolls, rfl, hlook⟩, _⟩
  exact (look_sound (polls_remembers hfresh hpolls) p.instant hlook).ends e rfl

def emptyPass (clock : Rat) : Pass where
  time := clock
  sinceLaunch := some (200 + clock)
  absentFrom := clock
  absentNow := clock
  instant := rfl

def emptyReads (clock : Rat) : List Read :=
  [.result (none, .notFound), .watchdog (none, .notFound), .launch (none, .notFound) clock clock]

def launched : Proc where
  env := { jobId := "j", startedAt := some "then" }
  disk := none

theorem emptyPass_launch {clock noted : Rat} (hstarted : s.env.startedAt = some "then")
    (hgrace : launchRecordGraceSeconds < 200 + clock)
    (hnoted : s.launchAbsentSince.or (some clock) = some noted) :
    launchLook (emptyPass clock).toTick s = (.ok
      (if launchAbsenceConfirmSeconds ≤ clock - noted then
        ([.launch (none, .notFound) clock clock, .late (none, .notFound)],
          some (.neverStarted (200 + clock)))
      else ([.launch (none, .notFound) clock clock], none)),
      { s with launchAbsentSince := some noted }) := by
  have hsince : (nonempty s.env.startedAt).bind (fun _ => (emptyPass clock).sinceLaunch) =
      some (200 + clock) := by
    rw [hstarted]
    rfl
  have hread : readJson (emptyPass clock).launch s = (.ok (none, .notFound), s) := rfl
  have hmark : { s with launchAbsentSince := s.launchAbsentSince.or (some clock) } =
      { s with launchAbsentSince := some noted } := by rw [hnoted]
  have hnote : (Prog.modify fun s : Proc =>
      if ReadStatus.notFound = .ok then { s with runnerSeen := true, launchAbsentSince := none }
      else if ReadStatus.notFound = .notFound then
        { s with launchAbsentSince := s.launchAbsentSince.or (some (emptyPass clock).absentFrom) }
      else s : Program Unit) s = (.ok (), { s with launchAbsentSince := some noted }) :=
    congrArg (Prod.mk _) hmark
  unfold launchLook
  rw [Prog.bind_run_ok (Prog.get_run s)]
  simp only [hsince, if_neg (Rat.not_le.mpr hgrace)]
  rw [Prog.bind_run_ok hread, Prog.bind_run_ok hnote, Prog.bind_run_ok (Prog.get_run _)]
  by_cases hlong : launchAbsenceConfirmSeconds ≤ clock - noted
  · rw [if_pos ⟨rfl, decide_eq_true hlong⟩, if_pos hlong]
    rfl
  · rw [if_neg fun h => hlong (of_decide_eq_true h.right), if_neg hlong]
    rfl

theorem emptyPass_look {clock noted : Rat} (hunseen : s.runnerSeen = false)
    (hstarted : s.env.startedAt = some "then") (hgrace : launchRecordGraceSeconds < 200 + clock)
    (hnoted : s.launchAbsentSince.or (some clock) = some noted) :
    exists u, u.env.startedAt = some "then" ∧ u.runnerSeen = false ∧
      u.launchAbsentSince = some noted ∧
      look (emptyPass clock).toTick 0 s = (.ok
        (if launchAbsenceConfirmSeconds ≤ clock - noted then
          (emptyReads clock ++ [.late (none, .notFound)], .ends (.neverStarted (200 + clock)))
        else (emptyReads clock, .goesOn true)), u) := by
  let v : Proc := { s with env := { s.env with supervisor := .running, reason := none } }
  refine ⟨{ v with launchAbsentSince := some noted }, hstarted, hunseen, rfl, ?_⟩
  have hlaunch : launchLook (emptyPass clock).toTick v = _ :=
    emptyPass_launch hstarted hgrace hnoted
  have hhealthy : healthyLook (emptyPass clock).toTick s =
      ((launchLook (emptyPass clock).toTick >>= fun looked =>
        pure (.watchdog (none, .notFound) :: looked.1, looked.2)) : Program Looked) v := by
    have hrunning : modifyEnv (fun env => { env with supervisor := .running, reason := none }) s =
        (.ok (), v) := rfl
    have hread : readJson (emptyPass clock).watchdog v = (.ok (none, .notFound), v) := rfl
    unfold healthyLook
    rw [Prog.bind_run_ok hrunning, Prog.bind_run_ok hread, Prog.bind_run_ok (Prog.get_run v)]
    simp only [okRecord]
    rw [if_pos ⟨trivial, hunseen⟩]
  have hlook : look (emptyPass clock).toTick 0 s =
      ((healthyLook (emptyPass clock).toTick >>= fun looked =>
        pure (.result (none, .notFound) :: looked.1, .ofEnding looked.2)) :
          Program (List Read × Conclusion)) s := rfl
  rw [hlook, Prog.bind_run, hhealthy, Prog.bind_run, hlaunch]
  by_cases hlong : launchAbsenceConfirmSeconds ≤ clock - noted
  · simp only [if_pos hlong]
    rfl
  · simp only [if_neg hlong]
    rfl

theorem poll_entitled_absent :
    Entitles (emptyReads 0 ++ (emptyReads 90 ++ [.late (none, .notFound)]))
      (.neverStarted (200 + 90)) := by
  let spec : JobSpec := { name := "n", code := { entry := "main.py" } }
  rcases @emptyPass_look launched 0 0 rfl rfl (by decide +kernel) rfl with
    ⟨u, hstarted, hunseen, hnoted, hfirst⟩
  rw [if_neg (by decide +kernel)] at hfirst
  let v : Proc := { u with disk := some u.env, log := .wrote u.env :: u.log }
  have hpolls : Polls spec 1000 launched [emptyPass 0] (emptyReads 0) 0 v :=
    .pass .start (by decide) hfirst (Absence.passEnd_run u)
  rcases @emptyPass_look v 90 0 hunseen hstarted (by decide +kernel)
    (by rw [show v.launchAbsentSince = some 0 from hnoted]; rfl) with ⟨w, _, _, _, hsecond⟩
  rw [if_pos (by decide +kernel)] at hsecond
  have hsettles : Settles spec 1000 launched [emptyPass 0] (emptyPass 90)
      (emptyReads 0 ++ (emptyReads 90 ++ [.late (none, .notFound)])) (.neverStarted (200 + 90)) w :=
    ⟨⟨emptyReads 0, _, 0, v, hpolls, rfl, hsecond⟩, by decide⟩
  exact (poll_entitled {} [] rfl hsettles).left

end Evidence
end Job
end MightyColab
