import MightyColab.Job.Status
import MightyColab.Job.Destroy
import MightyColab.Job.Apply

/-!
# Commands beside each other

`job apply`, `job status` and `job destroy` as processes on one job: each reads
`envelope.json`, works on its own copy and writes the whole copy back. What a process
does for others to see is the list of its deeds, which it does one by one, between those
of the others, and may leave off after any of them.
-/

namespace MightyColab
namespace Job

open Lib

namespace Concurrent

/-!
## A process
-/

inductive Task where
  | status (args : Status.Args) (a : Status.Answers)
  | destroy (args : Destroy.Args) (a : Destroy.Answers)
  | apply (args : Apply.Args) (a : Apply.Answers)

structure Work where
  task : Task
  /-- The record it read at its start. -/
  copy : Option JobEnvelope
  /-- The record that a `destroy` reads once it has waited for a live `job apply`. -/
  late : Option JobEnvelope := none
  /-- The number of its deeds so far. -/
  next : Nat := 0

def desk (copy : Option JobEnvelope) : Desk where
  env := copy.getD { jobId := "" }
  disk := copy

/-- The answers of a `destroy` with what its second read finds, or as if that could not be
read. -/
def readingLate (a : Destroy.Answers) (late : Option JobEnvelope) : Destroy.Answers :=
  match late with
  | some late => { a with latest := { a.latest with written := some late } }
  | none => { a with latest := { a.latest with fault := some (a.latest.fault.getD "") } }

def Work.deeds (w : Work) : List Deed :=
  match w.task with
  | .status args a => (Status.status args a (desk w.copy)).2.log.reverse
  | .destroy args a =>
      (Destroy.destroy args (readingLate a w.late) (desk w.copy)).2.log.reverse
  | .apply args a => (Apply.apply args a w.copy).2.log.reverse

/-- The `destroy` of a running job whose `job apply` is alive, with a second read that
does not raise. -/
def takesOver (args : Destroy.Args) (a : Destroy.Answers) (copy : JobEnvelope) : Bool :=
  match Destroy.openTransport a copy with
  | .error _ => false
  | .ok transport =>
      match Destroy.recover a (Destroy.reconcile a transport copy) with
      | .error _ => false
      | .ok env =>
          !args.cancelOnly && !env.workload.terminal && transport &&
            (Destroy.cancelRunner a transport env).2 && decide (0 < args.wait) &&
            (a.supervisorAlive matches .ok true) && a.latest.fault.isNone

def Work.basis (w : Work) : Option JobEnvelope :=
  match w.task, w.copy with
  | .destroy args a, some copy => if takesOver args a copy then w.late.or (some copy) else some copy
  | _, copy => copy

/-!
## What a command keeps of its record

`good log env` is said of a record in hand, with the deeds before it, newest first.
-/

def Wrote (good : List Deed -> JobEnvelope -> Prop) (log : List Deed) : Prop :=
  forall newer env older, log = newer ++ .wrote env :: older -> good older env

/-- The record in hand is good too. -/
structure Kept (good : List Deed -> JobEnvelope -> Prop) (s : Desk) : Prop where
  env : good s.log s.env
  wrote : Wrote good s.log

def Steady (good : List Deed -> JobEnvelope -> Prop) : Prop :=
  forall log env, good log env -> good (.wrote env :: log) env

variable {good : List Deed -> JobEnvelope -> Prop} {log : List Deed} {result : Type}

theorem wrote_nil : Wrote good [] := by
  intro newer env older h
  cases newer <;> cases h

theorem kept_still {p : Command result} (h : Prog.Still p) :
    Prog.Keeps (Kept good) p := by
  intro s hs
  rw [h s]
  exact hs

theorem kept_attempted (fault : Option String) :
    Prog.Keeps (Kept good) (Command.attempted fault) :=
  kept_still (Command.attempted_still fault)

theorem kept_lift (step : Except String result) :
    Prog.Keeps (Kept good) (Command.lift step) := by
  cases step <;> exact fun _ hs => hs

theorem kept_modifyEnv {f : JobEnvelope -> JobEnvelope}
    (h : forall log env, good log env -> good log (f env)) :
    Prog.Keeps (Kept good) (Command.modifyEnv f) :=
  fun _ hs => ⟨h _ _ hs.env, hs.wrote⟩

theorem kept_write (hsteady : Steady good) (answer : Write) :
    Prog.Keeps (Kept good) (Command.writeEnvelope answer) := by
  intro s hs
  rw [Command.writeEnvelope_run]
  split
  · refine ⟨hsteady _ _ hs.env, ?_⟩
    intro newer env older h
    cases newer with
    | nil =>
        cases h
        exact hs.env
    | cons deed newer => exact hs.wrote newer env older (List.cons.inj h).right
  · exact hs

theorem wrote_of_cons {deed : Deed} {log newer older : List Deed} {env : JobEnvelope}
    (h : deed :: log = newer ++ .wrote env :: older)
    (hdeed : forall env, deed ≠ .wrote env) :
    exists newer', log = newer' ++ .wrote env :: older := by
  cases newer with
  | nil => exact absurd (List.cons.inj h).left (hdeed env)
  | cons d newer => exact ⟨newer, (List.cons.inj h).right⟩

theorem kept_release {answer : Release} {failure : String}
    (h : forall log env, good log env ->
      good (((nonempty env.endpoint).map Deed.release).toList ++ log)
        (release answer failure env)) :
    Prog.Keeps (Kept good) (Command.releaseVm answer failure) := by
  intro s hs
  rw [Command.releaseVm_run]
  refine ⟨h _ _ hs.env, ?_⟩
  intro newer env older hlog
  cases hend : nonempty s.env.endpoint with
  | none =>
      rw [hend] at hlog
      exact hs.wrote newer env older hlog
  | some endpoint =>
      rw [hend] at hlog
      rcases wrote_of_cons hlog (fun _ => nofun) with ⟨newer', h'⟩
      exact hs.wrote newer' env older h'

theorem wrote_deeds (h : Wrote good log) {k : Nat} {env : JobEnvelope}
    (hk : log.reverse[k]? = some (.wrote env)) :
    good (log.reverse.take k).reverse env := by
  rcases List.getElem?_eq_some_iff.mp hk with ⟨hlt, hget⟩
  have hsplit : log.reverse = log.reverse.take k ++ .wrote env ::
      log.reverse.drop (k + 1) := by
    rw [← hget, List.getElem_cons_drop, List.take_append_drop]
  apply h (log.reverse.drop (k + 1)).reverse
  have hlog := congrArg List.reverse hsplit
  simpa using hlog

end Concurrent
end Job
end MightyColab
