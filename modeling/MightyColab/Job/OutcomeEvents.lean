import MightyColab.Job.DoneFinal
import MightyColab.Lib.Slots

/-!
# The outcome in events.jsonl

`write_envelope` beside itself: any number of `apply`, `status` and `destroy` processes on
one job, whose writes of the record go through three steps. A write of a record that is done
reads the record before it, puts its own in place, and appends the outcome if the one that it
read was not done. A process may be stopped anywhere.
-/

namespace MightyColab
namespace Job

open Lib

namespace OutcomeEvents

open Concurrent

/-!
## The machine
-/

structure Event where
  ts : String
  workload : Workload
  offload : Offload
  cleanup : Cleanup
  failedPhase : Option Phase
  retryClass : Option RetryClass
  reason : Option String
  deriving Repr

def outcome (env : JobEnvelope) (ts : String) : Event where
  ts := ts
  workload := env.workload
  offload := env.offload
  cleanup := env.cleanup
  failedPhase := env.failedPhase
  retryClass := env.retryClass
  reason := env.reason

/-- Where a process is in a `write_envelope`. -/
inductive Stage where
  | outside
  /-- It is about to read the record that is there. -/
  | reading (env : JobEnvelope)
  /-- It is about to put its record in place; `wasDone` is what it has read. -/
  | replacing (env : JobEnvelope) (wasDone : Bool)
  /-- It is about to append the outcome. -/
  | appending (env : JobEnvelope)

structure Process where
  work : Work
  stage : Stage := .outside

structure State where
  /-- `envelope.json`. -/
  disk : Option JobEnvelope
  /-- The outcomes in `events.jsonl`, oldest first. -/
  events : List Event
  procs : Nat -> Option Process
  /-- A record that is done has been put in place. -/
  madeDone : Bool
  /-- A write of a record that is done has returned. -/
  completed : Bool

inductive Action where
  /-- A process starts: it reads the record. -/
  | begin (p : Nat) (task : Task)
  /-- A `destroy` that has waited for a live `job apply` reads the record again. -/
  | reread (p : Nat)
  /-- Its next deed; a write is only called. -/
  | act (p : Nat)
  /-- `read_envelope_or_problem`, and whether the record can be read. -/
  | read (p : Nat) (readable : Bool)
  /-- `_atomic_write`. -/
  | replace (p : Nat)
  | replaceRaises (p : Nat)
  /-- `append_event`. -/
  | append (p : Nat) (ts : String)
  | appendRaises (p : Nat)
  /-- It ends, or dies. -/
  | finish (p : Nat)

/-- `write_envelope` up to its first step: nothing is read for a record that is not done. -/
def called (env : JobEnvelope) : Stage :=
  if env.done then .reading env else .replacing env false

namespace State

def set (s : State) (p : Nat) (proc : Option Process) : State :=
  { s with procs := Function.update s.procs p proc }

end State

def step (s : State) : Action -> Option State
  | .begin p task =>
      match s.procs p with
      | some _ => none
      | none => some (s.set p (some { work := { task, copy := s.disk } }))
  | .reread p =>
      match s.procs p with
      | some ⟨⟨.destroy args a, copy, _, 0⟩, .outside⟩ =>
          some (s.set p (some { work := ⟨.destroy args a, copy, s.disk, 0⟩ }))
      | _ => none
  | .act p =>
      match s.procs p with
      | some ⟨w, .outside⟩ =>
          match w.deeds[w.next]? with
          | none => none
          | some (.wrote env) =>
              some (s.set p (some ⟨{ w with next := w.next + 1 }, called env⟩))
          | some _ => some (s.set p (some ⟨{ w with next := w.next + 1 }, .outside⟩))
      | _ => none
  | .read p readable =>
      match s.procs p with
      | some ⟨w, .reading env⟩ =>
          some (s.set p (some ⟨w, .replacing env (readable && s.disk.any JobEnvelope.done)⟩))
      | _ => none
  | .replace p =>
      match s.procs p with
      | some ⟨w, .replacing env wasDone⟩ =>
          let s' := { s with disk := some env, madeDone := s.madeDone || env.done }
          if env.done && !wasDone then some (s'.set p (some ⟨w, .appending env⟩))
          else
            some ({ s' with completed := s.completed || env.done }.set p (some ⟨w, .outside⟩))
      | _ => none
  | .replaceRaises p =>
      match s.procs p with
      | some ⟨w, .replacing _ _⟩ => some (s.set p (some ⟨w, .outside⟩))
      | _ => none
  | .append p ts =>
      match s.procs p with
      | some ⟨w, .appending env⟩ =>
          some ({ s with events := s.events ++ [outcome env ts], completed := true }.set p
            (some ⟨w, .outside⟩))
      | _ => none
  | .appendRaises p =>
      match s.procs p with
      | some ⟨w, .appending _⟩ => some (s.set p (some ⟨w, .outside⟩))
      | _ => none
  | .finish p =>
      match s.procs p with
      | some _ => some (s.set p none)
      | none => none

/-- No process runs yet, and the record, if there is one, is not done. -/
def machine : Machine State Action where
  start s := (forall p, s.procs p = none) ∧ s.disk.any JobEnvelope.done = false ∧
    s.events = [] ∧ s.madeDone = false ∧ s.completed = false
  step := step

/-- One outcome at most, and one as soon as a write of a record that is done has returned. -/
structure OneOutcome (s : State) : Prop where
  atMost : s.events.length ≤ 1
  exactly : s.completed = true -> s.events.length = 1

def Appending (s : State) (p : Nat) : Prop :=
  exists w env, s.procs p = some ⟨w, .appending env⟩

/-- What a write of a done record has read is still so when it puts its own in place: if it
has read a record that was not done, none that is done has been put in place by then, and
otherwise no other process is still to append. And no outcome is lost between the record and
the events. -/
def InTurn (s : State) : Action -> Prop
  | .replace p => forall w env wasDone, s.procs p = some ⟨w, .replacing env wasDone⟩ ->
      env.done = true -> if wasDone then forall q, ¬Appending s q else s.madeDone = false
  | .appendRaises _ => False
  | .finish p => ¬Appending s p
  | _ => True

/-!
## What holds in such runs
-/

structure Inv (s : State) : Prop where
  alone : forall p q, Appending s p -> Appending s q -> p = q
  unrecorded : forall p, Appending s p -> s.events = []
  atMost : s.events.length ≤ 1
  /-- A done record was there before its outcome was. -/
  appending : forall p, Appending s p -> s.madeDone = true
  made : s.events ≠ [] -> s.madeDone = true
  disk : s.disk.any JobEnvelope.done = true -> s.madeDone = true
  found : forall p w env, s.procs p = some ⟨w, .replacing env true⟩ -> s.madeDone = true
  /-- And the outcome follows it. -/
  follows : s.madeDone = true -> s.events.length = 1 ∨ exists p, Appending s p
  completed : s.completed = true -> s.events.length = 1

theorem start_inv {s : State} (h : machine.start s) : Inv s := by
  rcases h with ⟨hprocs, hdisk, hevents, hmade, hcompleted⟩
  have hnone : forall p r, s.procs p ≠ some r := fun p r hp => by
    rw [hprocs p] at hp
    cases hp
  constructor
  · exact fun p q ⟨w, env, hp⟩ => absurd hp (hnone p _)
  · exact fun _ _ => hevents
  · simp [hevents]
  · exact fun p ⟨w, env, hp⟩ => absurd hp (hnone p _)
  · exact fun h => absurd hevents h
  · exact fun h => by rw [hdisk] at h; cases h
  · exact fun p w env hp => absurd hp (hnone p _)
  · exact fun h => by rw [hmade] at h; cases h
  · exact fun h => by rw [hcompleted] at h; cases h

/-!
## One process goes on
-/

variable {s : State} {p q : Nat} {env : JobEnvelope} {w : Work}

theorem set_self (s : State) (p : Nat) (proc : Option Process) : (s.set p proc).procs p = proc :=
  Function.update_self ..

theorem set_other (s : State) (proc : Option Process) (h : q ≠ p) :
    (s.set p proc).procs q = s.procs q :=
  Function.update_of_ne h ..

theorem appending_other {proc : Option Process} (h : q ≠ p) :
    Appending (s.set p proc) q <-> Appending s q := by
  rw [Appending, set_other s proc h]
  rfl

theorem not_appending {r : Process} (hp : s.procs p = some r)
    (h : forall env, r.stage ≠ .appending env) : ¬Appending s p := by
  rintro ⟨w, env, hold⟩
  rw [hp] at hold
  cases hold
  exact h env rfl

/-- A stage at which the process is not about to append, and has read what was there. -/
def Stage.Quiet (s : State) : Stage -> Prop
  | .outside | .reading _ | .replacing _ false => True
  | .replacing _ true => s.madeDone = true
  | .appending _ => False

theorem called_quiet (s : State) (env : JobEnvelope) : (called env).Quiet s := by
  unfold called
  split <;> trivial

theorem Inv.quiet (h : Inv s) {proc : Option Process} (hnot : ¬Appending s p)
    (hquiet : forall r, proc = some r -> r.stage.Quiet s) : Inv (s.set p proc) := by
  have happending : forall q, Appending (s.set p proc) q -> Appending s q := by
    intro q hq
    by_cases hqp : q = p
    · subst hqp
      rcases hq with ⟨w, env, hq⟩
      rw [set_self] at hq
      exact absurd (hquiet _ hq) id
    · exact (appending_other hqp).mp hq
  constructor
  · exact fun q r hq hr => h.alone q r (happending q hq) (happending r hr)
  · exact fun q hq => h.unrecorded q (happending q hq)
  · exact h.atMost
  · exact fun q hq => h.appending q (happending q hq)
  · exact h.made
  · exact h.disk
  · intro q w env hq
    rcases update_some_cases hq with ⟨_, hnew⟩ | ⟨_, hold⟩
    · exact hquiet _ hnew
    · exact h.found q w env hold
  · intro hmade
    rcases h.follows hmade with hone | ⟨q, hq⟩
    · exact Or.inl hone
    · have hqp : q ≠ p := fun heq => hnot (heq ▸ hq)
      exact Or.inr ⟨q, (appending_other hqp).mpr hq⟩
  · exact h.completed

theorem Inv.put (h : Inv s) (env : JobEnvelope)
    (hrecorded : env.done = true -> s.events.length = 1) :
    Inv { s with
      disk := some env
      madeDone := s.madeDone || env.done
      completed := s.completed || env.done } := by
  have hstill : s.madeDone = true -> (s.madeDone || env.done) = true :=
    fun hmade => Bool.or_eq_true_iff.mpr (Or.inl hmade)
  constructor
  · exact h.alone
  · exact h.unrecorded
  · exact h.atMost
  · exact fun p hp => hstill (h.appending p hp)
  · exact fun hevents => hstill (h.made hevents)
  · exact fun hdisk => Bool.or_eq_true_iff.mpr (Or.inr (by simpa using hdisk))
  · exact fun p w env hp => hstill (h.found p w env hp)
  · intro hmade
    rcases Bool.or_eq_true_iff.mp hmade with hold | hdone
    · exact h.follows hold
    · exact Or.inl (hrecorded hdone)
  · intro hcompleted
    rcases Bool.or_eq_true_iff.mp hcompleted with hold | hdone
    · exact h.completed hold
    · exact hrecorded hdone

theorem Inv.first (h : Inv s) (hdone : env.done = true) (hfirst : s.madeDone = false) :
    Inv ({ s with disk := some env, madeDone := s.madeDone || env.done }.set p
      (some ⟨w, .appending env⟩)) := by
  have hnot : s.madeDone ≠ true := by simp [hfirst]
  have hevents : s.events = [] := by
    by_contra hne
    exact hnot (h.made hne)
  have hmade : (s.madeDone || env.done) = true := Bool.or_eq_true_iff.mpr (Or.inr hdone)
  have honly : forall q, Appending ({ s with
      disk := some env, madeDone := s.madeDone || env.done }.set p
        (some ⟨w, .appending env⟩)) q -> q = p := by
    intro q hq
    by_contra hne
    exact hnot (h.appending q ((appending_other hne).mp hq))
  constructor
  · exact fun q r hq hr => (honly q hq).trans (honly r hr).symm
  · exact fun _ _ => hevents
  · exact h.atMost
  · exact fun _ _ => hmade
  · exact fun _ => hmade
  · exact fun _ => hmade
  · exact fun _ _ _ _ => hmade
  · exact fun _ => Or.inr ⟨p, w, env, set_self _ p _⟩
  · exact h.completed

theorem Inv.appended (h : Inv s) (hp : s.procs p = some ⟨w, .appending env⟩) (ts : String) :
    Inv ({ s with events := s.events ++ [outcome env ts], completed := true }.set p
      (some ⟨w, .outside⟩)) := by
  have hpending : Appending s p := ⟨w, env, hp⟩
  have hmade := h.appending p hpending
  have hone : (s.events ++ [outcome env ts]).length = 1 := by
    rw [h.unrecorded p hpending]
    rfl
  have hnone : forall q, ¬Appending ({ s with
      events := s.events ++ [outcome env ts], completed := true }.set p
        (some ⟨w, .outside⟩)) q := by
    intro q hq
    by_cases hqp : q = p
    · subst hqp
      exact not_appending (set_self ..) (fun _ => by simp) hq
    · exact hqp (h.alone q p ((appending_other hqp).mp hq) hpending)
  constructor
  · exact fun q r hq _ => absurd hq (hnone q)
  · exact fun q hq => absurd hq (hnone q)
  · exact le_of_eq hone
  · exact fun _ _ => hmade
  · exact fun _ => hmade
  · exact h.disk
  · exact fun _ _ _ _ => hmade
  · exact fun _ => Or.inl hone
  · exact fun _ => hone

/-!
## Steps
-/

theorem Inv.read (h : Inv s) {readable : Bool} (hp : s.procs p = some ⟨w, .reading env⟩) :
    Inv (s.set p (some ⟨w, .replacing env (readable && s.disk.any JobEnvelope.done)⟩)) := by
  apply h.quiet (not_appending hp fun _ => by simp)
  intro r hr
  cases hr
  cases hfound : readable && s.disk.any JobEnvelope.done with
  | false => trivial
  | true => exact h.disk (Bool.and_eq_true_iff.mp hfound).right

theorem Inv.recorded (h : Inv s) (hp : s.procs p = some ⟨w, .replacing env true⟩)
    (hnone : forall q, ¬Appending s q) : s.events.length = 1 := by
  rcases h.follows (h.found p w env hp) with hone | ⟨q, hq⟩
  · exact hone
  · exact absurd hq (hnone q)

theorem Inv.replaced (h : Inv s) {wasDone : Bool}
    (hp : s.procs p = some ⟨w, .replacing env wasDone⟩) (hturn : InTurn s (.replace p))
    {next : State} (hstep : step s (.replace p) = some next) : Inv next := by
  have hright := hturn w env wasDone hp
  simp only [step, hp] at hstep
  split at hstep
  · next hcond =>
      cases hstep
      rcases Bool.and_eq_true_iff.mp hcond with ⟨hdone, hfound⟩
      have hfirst : s.madeDone = false := by
        have hright := hright hdone
        rwa [if_neg (by simpa using hfound)] at hright
      exact h.first hdone hfirst
  · next hcond =>
      cases hstep
      have hrecorded : env.done = true -> s.events.length = 1 := by
        intro hdone
        have hfound : wasDone = true := by simpa [hdone] using hcond
        have hright := hright hdone
        rw [hfound] at hp hright
        exact h.recorded hp hright
      apply (h.put env hrecorded).quiet
      · exact not_appending (r := ⟨w, .replacing env wasDone⟩) hp fun _ => by simp
      · intro r hr
        cases hr
        trivial

theorem inv_preserved : machine.Preserved InTurn Inv := by
  intro s a next h hturn hstep
  have hnext : step s a = some next := hstep
  cases a with
  | begin p task =>
      simp only [step] at hnext
      split at hnext
      · cases hnext
      · next hp =>
          cases hnext
          apply h.quiet
          · rintro ⟨w, env, hold⟩
            rw [hp] at hold
            cases hold
          · intro r hr
            cases hr
            trivial
  | reread p =>
      simp only [step] at hnext
      split at hnext
      · next hp =>
          cases hnext
          apply h.quiet (not_appending hp fun _ => by simp)
          intro r hr
          cases hr
          trivial
      · cases hnext
  | act p =>
      simp only [step] at hnext
      split at hnext
      · next w hp =>
          have hnot : ¬Appending s p := not_appending hp fun _ => by simp
          split at hnext
          · cases hnext
          · next env _ =>
              cases hnext
              apply h.quiet hnot
              intro r hr
              cases hr
              exact called_quiet s env
          · cases hnext
            apply h.quiet hnot
            intro r hr
            cases hr
            trivial
      · cases hnext
  | read p readable =>
      simp only [step] at hnext
      split at hnext
      · next hp =>
          cases hnext
          exact h.read hp
      · cases hnext
  | replace p =>
      cases hp : s.procs p with
      | none =>
          simp only [step, hp] at hnext
          cases hnext
      | some r =>
          rcases r with ⟨w, stage⟩
          cases stage with
          | replacing env wasDone => exact h.replaced hp hturn hnext
          | _ =>
              simp only [step, hp] at hnext
              cases hnext
  | replaceRaises p =>
      simp only [step] at hnext
      split at hnext
      · next hp =>
          cases hnext
          apply h.quiet (not_appending hp fun _ => by simp)
          intro r hr
          cases hr
          trivial
      · cases hnext
  | append p ts =>
      simp only [step] at hnext
      split at hnext
      · next hp =>
          cases hnext
          exact h.appended hp ts
      · cases hnext
  | appendRaises p => exact absurd hturn id
  | finish p =>
      simp only [step] at hnext
      split at hnext
      · cases hnext
        exact h.quiet hturn fun r hr => by cases hr
      · cases hnext

/-!
## A write without others
-/

/-- The steps of a write that meets these answers and that no other process comes between. -/
def writes (answer : Write) (env : JobEnvelope) (disk : Option JobEnvelope) (p : Nat)
    (ts : String) : List Action :=
  let wasDone := answer.readable && disk.any JobEnvelope.done
  let appends := match answer.event with
    | some _ => Action.appendRaises p
    | none => Action.append p ts
  (if env.done then [Action.read p answer.readable] else []) ++
    match answer.file with
    | some _ => [Action.replaceRaises p]
    | none => Action.replace p :: if env.done && !wasDone then [appends] else []

theorem writes_perform (answer : Write) (ts : String)
    (hp : s.procs p = some ⟨w, called env⟩) :
    exists s', machine.exec s (writes answer env s.disk p ts) = some s' ∧
      s'.disk = (answer.perform env s.disk).1 ∧ s'.procs p = some ⟨w, .outside⟩ := by
  cases hdone : env.done with
  | false =>
      rw [called, hdone] at hp
      cases hfile : answer.file <;>
        simp [writes, Write.perform, Machine.exec, machine, step, State.set, hdone, hfile, hp]
  | true =>
      rw [called, hdone] at hp
      cases hfile : answer.file with
      | some error =>
          simp [writes, Write.perform, Machine.exec, machine, step, State.set, hdone, hfile, hp]
      | none =>
          cases hwas : (answer.readable && s.disk.any JobEnvelope.done) with
          | true =>
              simp only [writes, Write.perform, hdone, hfile, hwas, if_true, Bool.not_true,
                Bool.and_false, Bool.false_eq_true, if_false]
              simp [Machine.exec, machine, step, State.set, hdone, hwas, hp]
          | false =>
              cases hevent : answer.event <;>
                simp only [writes, Write.perform, hdone, hfile, hwas, hevent, if_true,
                  Bool.not_false, Bool.and_true] <;>
                simp [Machine.exec, machine, step, State.set, hdone, hwas, hp]

/-- In every run in which what the writes of done records have read is still so when they
put theirs in place, and no outcome is lost: at most one outcome is appended, and one as soon
as such a write has returned. -/
theorem one_outcome (h : machine.Reaches InTurn s) : OneOutcome s := by
  have hinv := Machine.reaches_invariant (fun _ => start_inv) inv_preserved h
  exact ⟨hinv.atMost, hinv.completed⟩

/-!
## A write out of turn
-/

theorem replaced_run {wasDone : Bool} (hp : s.procs p = some ⟨w, .replacing env wasDone⟩)
    (hdone : env.done = true) :
    machine.step s (.replace p) = some (if wasDone then
      { s with disk := some env, madeDone := true, completed := true }.set p
        (some ⟨w, .outside⟩)
      else { s with disk := some env, madeDone := true }.set p (some ⟨w, .appending env⟩)) := by
  cases wasDone <;> simp [machine, step, hp, hdone]

theorem append_run (hp : s.procs p = some ⟨w, .appending env⟩) (ts : String) :
    machine.step s (.append p ts) =
      some ({ s with events := s.events ++ [outcome env ts], completed := true }.set p
        (some ⟨w, .outside⟩)) := by
  simp [machine, step, hp]

/-- A write that puts its record in place though what it has read is no longer so breaks the
law, as soon as the processes that are to append have done it. -/
theorem out_of_turn (h : machine.Reaches InTurn s) (hnot : ¬InTurn s (.replace p)) :
    exists appends t, machine.exec s (.replace p :: appends) = some t ∧
      (forall a, a ∈ appends -> exists q ts, a = .append q ts) ∧ ¬OneOutcome t := by
  have hinv : Inv s := Machine.reaches_invariant (fun _ => start_inv) inv_preserved h
  simp only [InTurn, not_forall] at hnot
  rcases hnot with ⟨w, env, wasDone, hp, hdone, hstale⟩
  have hstep := replaced_run hp hdone
  cases wasDone with
  | true =>
      -- it returns before the outcome is there
      simp only [if_true, not_forall, not_not] at hstale hstep
      rcases hstale with ⟨q, hq⟩
      refine ⟨[], _, (Machine.exec_of_step hstep []).trans rfl, fun a ha => by simp at ha, ?_⟩
      intro hone
      have hlength := hone.exactly rfl
      have hevents : s.events.length = 1 := hlength
      rw [hinv.unrecorded q hq] at hevents
      cases hevents
  | false =>
      simp only [Bool.false_eq_true, if_false, Bool.not_eq_false] at hstale hstep
      have hnot : ¬Appending s p := not_appending hp fun _ => by simp
      rcases hinv.follows hstale with hone | ⟨q, w', env', hq⟩
      · -- the outcome is there
        refine ⟨[.append p ""], _, (Machine.exec_of_step hstep _).trans
          (Machine.exec_of_step (append_run (set_self ..) "") []), ?_, ?_⟩
        · intro a ha
          exact ⟨p, "", List.mem_singleton.mp ha⟩
        · intro h
          have hlength : (s.events ++ [outcome env ""]).length ≤ 1 := h.atMost
          rw [List.length_append, hone] at hlength
          exact absurd hlength (by simp)
      · -- another process is about to append it
        have hqp : q ≠ p := by
          rintro rfl
          exact hnot ⟨w', env', hq⟩
        have hfirst := append_run (s := { s with disk := some env, madeDone := true }.set p
          (some ⟨w, .appending env⟩)) ((set_other _ _ hqp).trans hq) ""
        have hsecond := append_run (((set_other _ _ hqp.symm).trans (set_self ..))) ""
          (s := ({ s with
            disk := some env, madeDone := true
            events := s.events ++ [outcome env' ""], completed := true }.set p
              (some ⟨w, .appending env⟩)).set q (some ⟨w', .outside⟩))
        refine ⟨[.append q "", .append p ""], _, (Machine.exec_of_step hstep _).trans
          ((Machine.exec_of_step hfirst _).trans (Machine.exec_of_step hsecond [])), ?_, ?_⟩
        · intro a ha
          rcases List.mem_cons.mp ha with rfl | ha
          · exact ⟨q, "", rfl⟩
          · exact ⟨p, "", List.mem_singleton.mp ha⟩
        · intro h
          have hlength : (s.events ++ [outcome env' ""] ++ [outcome env ""]).length ≤ 1 := h.atMost
          rw [List.length_append, List.length_append] at hlength
          exact absurd hlength (by simp)

/-!
## Two runs
-/

def running : State where
  disk := some Destroy.launched
  events := []
  procs := fun _ => none
  madeDone := false
  completed := false

theorem running_start : machine.start running := ⟨fun _ => rfl, rfl, rfl, rfl, rfl⟩

/-- `destroy`, up to the call of its write. -/
def destroys (p : Nat) : List Action := [.begin p DoneFinal.destroyTask, .act p, .act p]

def firstOnly (s : State) : Action -> Bool
  | .replace _ => !s.madeDone
  | .appendRaises _ | .finish _ => false
  | _ => true

theorem firstOnly_inTurn {a : Action} (h : Inv s) (hfirst : firstOnly s a = true) :
    InTurn s a := by
  cases a with
  | replace p =>
      have hmade : s.madeDone = false := by simpa [firstOnly] using hfirst
      intro w env wasDone _ _
      split
      · intro q hq
        have hdone := h.appending q hq
        rw [hmade] at hdone
        cases hdone
      · exact hmade
  | appendRaises p => cases hfirst
  | finish p => cases hfirst
  | _ => trivial

theorem one_outcome_destroyed : exists s, machine.Reaches InTurn s ∧ s.completed = true ∧
    OneOutcome s := by
  let run : List Action := destroys 0 ++ [.read 0 true, .replace 0, .append 0 "t0"]
  have hruns : ((machine.exec running run).any State.completed) = true := by decide
  have hfirst : machine.Guarded (fun s a => firstOnly s a = true) running run := by
    decide
  have hpreserved : machine.Preserved (fun s a => firstOnly s a = true) Inv :=
    fun s a next h hguard hstep => inv_preserved s a next h (firstOnly_inTurn h hguard) hstep
  have hguarded : machine.Guarded InTurn running run :=
    Machine.guarded_mono hpreserved (fun _ _ => firstOnly_inTurn) (start_inv running_start) hfirst
  rcases Option.any_eq_true_iff_get _ _ |>.mp hruns with ⟨hsome, hcompleted⟩
  have hreach : machine.Reaches InTurn ((machine.exec running run).get hsome) :=
    ⟨running, run, running_start, hguarded, (Option.some_get hsome).symm⟩
  exact ⟨_, hreach, hcompleted, one_outcome hreach⟩

/-- Two `destroy` of one job, of which the second reads the record before the first has put
its own in place. -/
def overlapping : List Action :=
  destroys 0 ++ destroys 1 ++
    [.read 0 true, .read 1 true, .replace 0, .append 0 "t0", .replace 1, .append 1 "t1"]

theorem two_outcomes : ¬forall s, machine.Reaches Machine.Free s -> OneOutcome s := by
  intro h
  have hruns : ((machine.exec running overlapping).any fun s =>
      decide (s.events.length = 2)) = true := by decide
  rcases Option.any_eq_true_iff_get _ _ |>.mp hruns with ⟨hsome, htwo⟩
  have hone := (h _ ⟨running, overlapping, running_start, Machine.guarded_free machine _ _,
    (Option.some_get hsome).symm⟩).atMost
  rw [of_decide_eq_true htwo] at hone
  exact absurd hone (by decide)

end OutcomeEvents
end Job
end MightyColab
