import MightyColab.Job.CancelRace
import MightyColab.Job.Verdict

/-!
# Who cancelled

The retry class of a cancelled run follows from the name in `cancel.json`. The runner and
the watchdog write theirs only where they have seen no file, in two steps each;
`request_cancel` puts its own without a look. The name stays for as long as no request
comes over another's and none comes between such a look and the write that follows it.
-/

namespace MightyColab
namespace Job

open Lib

namespace CancelRace

/-- The name in `cancel.json`. -/
def requester (s : State) : Option String :=
  s.cancel.bind fun file => Verdict.cancelSource file.intent

/-- The first canceller keeps its place. -/
def SameRequester (s s' : State) : Prop :=
  forall name, requester s = some name -> requester s' = some name

/-- What `request_cancel` writes. -/
def requestCancel (name now : String) : CancelFile :=
  .readable (.obj [("intent", .str "cancelled"), ("by", .str name), ("at", .str now)])

theorem wallClock_source (now : Nat) :
    Verdict.cancelSource (wallClockCancel now).intent = some "wall_clock" := rfl

def written (s : State) : Action -> Option CancelFile
  | .writeCancel file => some file
  | .runner =>
      match s.runner with
      | .writeIntent now => some (wallClockCancel now)
      | _ => none
  | .watchdog _ =>
      match s.watchdog with
      | .writeIntent now => some (wallClockCancel now)
      | _ => none
  | _ => none

theorem runnerStep_cancel {cfg : Config} {s next : State} (h : runnerStep cfg s = some next) :
    next.cancel = (written s .runner).or s.cancel := by
  cases hpc : s.runner with
  | poll =>
      simp only [runnerStep, written, hpc] at h ⊢
      split at h <;> cases h <;> rfl
  | decide now requested =>
      simp only [runnerStep, written, hpc] at h ⊢
      split at h
      · split at h <;> cases h <;> rfl
      · split at h <;> cases h <;> rfl
  | maySync now =>
      simp only [runnerStep, written, hpc] at h ⊢
      split at h
      · split at h <;> cases h <;> rfl
      · cases h
        rfl
  | verdict | done =>
      simp only [runnerStep, hpc] at h
      cases h
  | readClock | readCancel _ | writeIntent _ | sigterm _ | escapees _ | sigkill _ | syncing
  | ended =>
      simp only [runnerStep, written, hpc] at h ⊢
      cases h
      rfl

theorem watchdogStep_cancel {cfg : Config} {readable : Bool} {s next : State}
    (h : watchdogStep cfg readable s = some next) :
    next.cancel = (written s (.watchdog readable)).or s.cancel := by
  cases hpc : s.watchdog with
  | decide now deadline requested =>
      simp only [watchdogStep, written, hpc] at h ⊢
      split at h
      · split at h <;> cases h <;> rfl
      · split at h
        · split at h <;> cases h <;> rfl
        · cases h
          rfl
  | checkResult now deadline =>
      simp only [watchdogStep, written, hpc] at h ⊢
      split at h <;> cases h <;> rfl
  | recheck now =>
      simp only [watchdogStep, written, hpc] at h ⊢
      split at h <;> cases h <;> rfl
  | stopped =>
      simp only [watchdogStep, hpc] at h
      cases h
  | top | checkCancel _ _ | writeIntent _ | sigterm _ | sigkill _ =>
      simp only [watchdogStep, written, hpc] at h ⊢
      cases h
      rfl

theorem step_cancel {cfg : Config} {s next : State} {a : Action} (h : step cfg s a = some next) :
    next.cancel = (written s a).or s.cancel := by
  cases a with
  | runner => exact runnerStep_cancel h
  | watchdog readable => exact watchdogStep_cancel h
  | childExits _ | childDies _ | runnerRaises _ =>
      simp only [step] at h
      split at h <;> cases h
      rfl
  | finish tagged detectOk =>
      simp only [step] at h
      split at h <;> cases h
      rfl
  | advance _ | writeCancel _ | watchdogStops =>
      simp only [step] at h
      cases h
      rfl

/-!
## Which steps change the name
-/

/-- No request comes over the record of another, and a deadline's writer does not find
another's record where it has seen none. -/
def Undisturbed (s : State) : Action -> Prop
  | .writeCancel file =>
      forall name, requester s = some name -> Verdict.cancelSource file.intent = some name
  | .runner =>
      forall now, s.runner = .writeIntent now ->
        forall name, requester s = some name -> name = "wall_clock"
  | .watchdog _ =>
      forall now, s.watchdog = .writeIntent now ->
        forall name, requester s = some name -> name = "wall_clock"
  | _ => True

theorem sameRequester_refl (s : State) : SameRequester s s := fun _ h => h

theorem sameRequester_trans {s s' s'' : State} (h : SameRequester s s')
    (h' : SameRequester s' s'') : SameRequester s s'' := fun name hname => h' name (h name hname)

theorem sameRequester_unwritten {cfg : Config} {s next : State} {a : Action}
    (hstep : step cfg s a = some next) (h : written s a = none) : SameRequester s next := by
  intro name hname
  unfold requester at *
  rw [step_cancel hstep, h, Option.none_or]
  exact hname

theorem sameRequester_written {cfg : Config} {s next : State} {a : Action} {file : CancelFile}
    (hstep : step cfg s a = some next) (h : written s a = some file) :
    SameRequester s next <->
      forall name, requester s = some name -> Verdict.cancelSource file.intent = some name := by
  have hnext : requester next = Verdict.cancelSource file.intent := by
    unfold requester
    rw [step_cancel hstep, h]
    rfl
  unfold SameRequester
  rw [hnext]

theorem names_wallClock {s : State} {now : Nat} :
    (forall name, requester s = some name ->
        Verdict.cancelSource (wallClockCancel now).intent = some name) <->
      forall name, requester s = some name -> name = "wall_clock" := by
  rw [wallClock_source]
  refine forall_congr' fun name => imp_congr_right fun _ => ?_
  rw [Option.some.injEq, eq_comm]

theorem undisturbed_iff {cfg : Config} {s : State} {a : Action} :
    Undisturbed s a <-> forall next, step cfg s a = some next -> SameRequester s next := by
  cases a with
  | writeCancel file =>
      have hstep : step cfg s (.writeCancel file) = some { s with cancel := some file } := rfl
      have hwritten : written s (.writeCancel file) = some file := rfl
      rw [hstep]
      simp only [Undisturbed, Option.some.injEq, forall_eq']
      exact (sameRequester_written hstep hwritten).symm
  | runner =>
      cases hpc : s.runner with
      | writeIntent now =>
          have hstep : step cfg s .runner = some
              { s with cancel := some (wallClockCancel now), runner := .sigterm now } := by
            simp only [step, runnerStep, hpc]
          have hwritten : written s .runner = some (wallClockCancel now) := by
            simp only [written, hpc]
          rw [hstep]
          simp only [Undisturbed, hpc, RunnerPc.writeIntent.injEq, forall_eq', Option.some.injEq]
          rw [sameRequester_written hstep hwritten]
          exact names_wallClock.symm
      | _ =>
          refine iff_of_true (fun now h => by rw [hpc] at h; cases h) fun next hstep => ?_
          exact sameRequester_unwritten hstep (by simp only [written, hpc])
  | watchdog readable =>
      cases hpc : s.watchdog with
      | writeIntent now =>
          have hstep : step cfg s (.watchdog readable) = some
              { s with cancel := some (wallClockCancel now), watchdog := .sigterm now } := by
            simp only [step, watchdogStep, hpc]
          have hwritten : written s (.watchdog readable) = some (wallClockCancel now) := by
            simp only [written, hpc]
          rw [hstep]
          simp only [Undisturbed, hpc, WatchdogPc.writeIntent.injEq, forall_eq',
            Option.some.injEq]
          rw [sameRequester_written hstep hwritten]
          exact names_wallClock.symm
      | _ =>
          refine iff_of_true (fun now h => by rw [hpc] at h; cases h) fun next hstep => ?_
          exact sameRequester_unwritten hstep (by simp only [written, hpc])
  | advance _ | childExits _ | childDies _ | runnerRaises _ | finish _ _ | watchdogStops =>
      exact iff_of_true trivial fun next hstep => sameRequester_unwritten hstep rfl

/-!
## Runs
-/

theorem along_undisturbed (cfg : Config) (actions : List Action) :
    (machine cfg).Along SameRequester init actions <->
      (machine cfg).Guarded Undisturbed init actions := by
  rw [Machine.along_iff sameRequester_refl fun h h' => sameRequester_trans h h']
  have hany : (machine cfg).Preserved Machine.Free fun _ => True := fun _ _ _ _ _ _ => trivial
  exact Machine.guarded_congr hany (fun _ _ _ => undisturbed_iff.symm) trivial

/-!
## When requests may come
-/

def RunnerPc.unseen : RunnerPc -> Bool
  | .decide _ requested => !requested
  | .writeIntent _ => true
  | _ => false

def WatchdogPc.unseen : WatchdogPc -> Bool
  | .writeIntent _ => true
  | _ => false

def Unseen (s : State) : Prop := s.runner.unseen = true ∨ s.watchdog.unseen = true

/-- A request comes neither over another's record nor while a deadline's writer is
between its look and its write. -/
def Timely (s : State) : Action -> Prop
  | .writeCancel file =>
      (forall name, requester s = some name -> Verdict.cancelSource file.intent = some name) ∧
        ¬ Unseen s
  | _ => True

/-- What a writer has not seen is not there, or the other writer's. -/
def Unnamed (s : State) : Prop :=
  Unseen s -> forall name, requester s = some name -> name = "wall_clock"

theorem runnerStep_unseen {cfg : Config} {s next : State} (h : runnerStep cfg s = some next) :
    next.watchdog = s.watchdog ∧
      (next.runner.unseen = true -> s.runner.unseen = true ∨ s.cancel = none) := by
  cases hpc : s.runner with
  | poll =>
      simp only [runnerStep, hpc] at h
      split at h <;> cases h <;> exact ⟨rfl, fun h => by cases h⟩
  | readCancel now =>
      simp only [runnerStep, hpc] at h
      cases h
      refine ⟨rfl, fun hunseen => Or.inr ?_⟩
      simpa [RunnerPc.unseen] using hunseen
  | decide now requested =>
      simp only [runnerStep, hpc] at h
      split at h
      · split at h
        · next hlate =>
            cases h
            rw [Bool.and_eq_true] at hlate
            exact ⟨rfl, fun _ => Or.inl hlate.right⟩
        · cases h
          exact ⟨rfl, fun h => by cases h⟩
      · split at h <;> cases h <;> exact ⟨rfl, fun h => by cases h⟩
  | maySync now =>
      simp only [runnerStep, hpc] at h
      split at h
      · split at h <;> cases h <;> exact ⟨rfl, fun h => by cases h⟩
      · cases h
        exact ⟨rfl, fun h => by cases h⟩
  | verdict | done =>
      simp only [runnerStep, hpc] at h
      cases h
  | readClock | writeIntent _ | sigterm _ | escapees _ | sigkill _ | syncing | ended =>
      simp only [runnerStep, hpc] at h
      cases h
      exact ⟨rfl, fun h => by cases h⟩

theorem watchdogStep_unseen {cfg : Config} {readable : Bool} {s next : State}
    (h : watchdogStep cfg readable s = some next) :
    next.runner = s.runner ∧ (next.watchdog.unseen = true -> s.cancel = none) := by
  cases hpc : s.watchdog with
  | recheck now =>
      simp only [watchdogStep, hpc] at h
      split at h
      · cases h
        exact ⟨rfl, fun h => by cases h⟩
      · next hnone =>
          cases h
          exact ⟨rfl, fun _ => by simpa using hnone⟩
  | decide now deadline requested =>
      simp only [watchdogStep, hpc] at h
      split at h
      · split at h <;> cases h <;> exact ⟨rfl, fun h => by cases h⟩
      · split at h
        · split at h <;> cases h <;> exact ⟨rfl, fun h => by cases h⟩
        · cases h
          exact ⟨rfl, fun h => by cases h⟩
  | checkResult now deadline =>
      simp only [watchdogStep, hpc] at h
      split at h <;> cases h <;> exact ⟨rfl, fun h => by cases h⟩
  | stopped =>
      simp only [watchdogStep, hpc] at h
      cases h
  | top | checkCancel _ _ | writeIntent _ | sigterm _ | sigkill _ =>
      simp only [watchdogStep, hpc] at h
      cases h
      exact ⟨rfl, fun h => by cases h⟩

theorem step_unseen {cfg : Config} {s next : State} {a : Action} (h : step cfg s a = some next)
    (hunseen : Unseen next) : Unseen s ∨ s.cancel = none := by
  cases a with
  | runner =>
      rcases runnerStep_unseen h with ⟨hsame, hrunner⟩
      rcases hunseen with hnext | hnext
      · exact (hrunner hnext).imp_left Or.inl
      · rw [hsame] at hnext
        exact Or.inl (Or.inr hnext)
  | watchdog readable =>
      rcases watchdogStep_unseen h with ⟨hsame, hwatchdog⟩
      rcases hunseen with hnext | hnext
      · rw [hsame] at hnext
        exact Or.inl (Or.inl hnext)
      · exact Or.inr (hwatchdog hnext)
  | childExits _ | childDies _ =>
      simp only [step] at h
      split at h <;> cases h
      exact Or.inl hunseen
  | runnerRaises _ | finish _ _ =>
      simp only [step] at h
      split at h <;> cases h
      exact Or.inl (hunseen.imp (fun h => by cases h) id)
  | watchdogStops =>
      simp only [step] at h
      cases h
      exact Or.inl (hunseen.imp id (fun h => by cases h))
  | advance _ | writeCancel _ =>
      simp only [step] at h
      cases h
      exact Or.inl hunseen

theorem unnamed_preserved (cfg : Config) : (machine cfg).Preserved Timely Unnamed := by
  intro s a next hunnamed htimely hstep hunseen name hname
  have hnext := step_cancel hstep
  cases hwritten : written s a with
  | none =>
      rw [hwritten, Option.none_or] at hnext
      unfold requester at hname
      rw [hnext] at hname
      rcases step_unseen hstep hunseen with hbefore | hnone
      · exact hunnamed hbefore name hname
      · rw [hnone] at hname
        cases hname
  | some file =>
      rw [hwritten, Option.some_or] at hnext
      unfold requester at hname
      rw [hnext] at hname
      cases a with
      | writeCancel file' =>
          simp only [machine, step] at hstep
          cases hstep
          exact absurd hunseen htimely.right
      | runner | watchdog _ =>
          simp only [written] at hwritten
          split at hwritten <;> cases hwritten
          cases hname
          rfl
      | advance _ | childExits _ | childDies _ | runnerRaises _ | finish _ _ | watchdogStops =>
          cases hwritten

theorem timely_undisturbed {s : State} {a : Action} (hunnamed : Unnamed s) (h : Timely s a) :
    Undisturbed s a := by
  cases a with
  | writeCancel file => exact h.left
  | runner =>
      intro now hpc
      exact hunnamed (Or.inl (by rw [hpc]; rfl))
  | watchdog readable =>
      intro now hpc
      exact hunnamed (Or.inr (by rw [hpc]; rfl))
  | advance _ | childExits _ | childDies _ | runnerRaises _ | finish _ _ | watchdogStops => trivial

theorem timely_along (cfg : Config) {actions : List Action}
    (h : (machine cfg).Guarded Timely init actions) :
    (machine cfg).Along SameRequester init actions := by
  refine (along_undisturbed cfg actions).mpr ?_
  have hinit : Unnamed init := fun hunseen => by rcases hunseen with h | h <;> cases h
  exact Machine.guarded_mono (unnamed_preserved cfg) (fun _ _ => timely_undisturbed) hinit h

/-- Along a run whose requests are timely the first canceller keeps its place; along any run
it does exactly where every step is undisturbed. -/
theorem first_canceller_iff (cfg : Config) (actions : List Action) :
    ((machine cfg).Guarded Timely init actions ->
      (machine cfg).Along SameRequester init actions) ∧
    ((machine cfg).Along SameRequester init actions <->
      (machine cfg).Guarded Undisturbed init actions) :=
  ⟨timely_along cfg, along_undisturbed cfg actions⟩

/-- A request between the watchdog's look and its write becomes a wall-clock cancel, and a
request after a wall-clock cancel takes its place. -/
theorem canceller_replaced :
    (exists actions s s', (machine ⟨some 0, none⟩).exec init actions = some s ∧
      step ⟨some 0, none⟩ s (.watchdog true) = some s' ∧
      requester s = some "job destroy" ∧ requester s' = some "wall_clock" ∧
      ¬(machine ⟨some 0, none⟩).Along SameRequester init (actions ++ [.watchdog true])) ∧
    exists actions s s', (machine ⟨some 0, none⟩).exec init actions = some s ∧
      step ⟨some 0, none⟩ s (.writeCancel (requestCancel "job destroy" "t")) = some s' ∧
      requester s = some "wall_clock" ∧ requester s' = some "job destroy" ∧
      ¬(machine ⟨some 0, none⟩).Along SameRequester init
        (actions ++ [.writeCancel (requestCancel "job destroy" "t")]) := by
  let looks : List Action := List.replicate 5 (.watchdog true)
  let raced := looks ++ [.writeCancel (requestCancel "job destroy" "t")]
  let late := looks ++ [.watchdog true]
  refine ⟨⟨raced, ((machine ⟨some 0, none⟩).exec init raced).get rfl, _, rfl, rfl, rfl, rfl, ?_⟩,
    ⟨late, ((machine ⟨some 0, none⟩).exec init late).get rfl, _, rfl, rfl, rfl, rfl, ?_⟩⟩
  · intro h
    have hsame := h raced [.watchdog true] [] _ _ rfl rfl rfl "job destroy" rfl
    have hname : some "wall_clock" = some "job destroy" := hsame
    exact absurd hname (by decide)
  · intro h
    have hsame := h late [.writeCancel (requestCancel "job destroy" "t")] [] _ _ rfl rfl rfl
      "wall_clock" rfl
    have hname : some "job destroy" = some "wall_clock" := hsame
    exact absurd hname (by decide)

end CancelRace
end Job
end MightyColab
