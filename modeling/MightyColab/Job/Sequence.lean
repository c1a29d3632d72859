import MightyColab.Lib.Runs
import MightyColab.Job.CommandRecords

/-!
# One command after the other

The record of one job under any sequence of `job apply`, `job status` and `job destroy`, each
of which runs to its exit before the next one begins. An `apply` is seen twice: where its `try`
block and its `except` clauses are done, and at its exit.
-/

namespace MightyColab
namespace Job

open Lib

namespace Sequence

open Concurrent Records

/-- An `apply` that has come to its `finally` block. -/
structure Applying where
  args : Apply.Args
  answers : Apply.Answers
  /-- What the block will raise again, if it raises nothing itself. -/
  outcome : Outcome Apply.Raise Unit
  proc : Apply.Proc

structure State where
  /-- `envelope.json`. -/
  disk : Option JobEnvelope
  applying : Option Applying := none

inductive Action where
  | apply (args : Apply.Args) (a : Apply.Answers)
  /-- The `finally` block, and the exit. -/
  | finish
  | status (args : Status.Args) (a : Status.Answers)
  | destroy (args : Destroy.Args) (a : Destroy.Answers)

def refused (disk : Option JobEnvelope) : Bool :=
  (disk.bind fun env => nonempty env.endpoint).isSome

def exits {result : Type} (run : Outcome Raise result × Desk) : Option State :=
  match run.1 with
  | .ended => none
  | _ => some { disk := run.2.disk }

/-- The next command, or the rest of an `apply`. A `destroy` runs alone. -/
def step (s : State) : Action -> Option State
  | .apply args a =>
      match s.applying with
      | some _ => none
      | none =>
          if a.existing.isSome || refused s.disk then some s
          else
            let run := Apply.supervised args a (Apply.start args s.disk)
            match run.1 with
            | .ended => none
            | outcome =>
                some {
                  disk := run.2.disk
                  applying := some ⟨args, a, outcome, run.2⟩ }
  | .finish => s.applying.map fun w =>
      { disk := (Apply.finallyBlock w.args.plan w.answers.finally_ w.proc).2.disk }
  | .status args a =>
      match s.applying with
      | some _ => none
      | none => exits (Status.status args a (desk s.disk))
  | .destroy args a =>
      match s.applying with
      | some _ => none
      | none => exits (Destroy.destroy args (alone a) (desk s.disk))

def machine : Machine State Action where
  start s := s = { disk := none }
  step := step

variable {s next : State} {w : Applying}

/-!
## Apply
-/

theorem exec_apply {args : Apply.Args} {a : Apply.Answers} {disk : Option JobEnvelope}
    (hread : a.existing = none) (hfree : refused disk = false)
    (hends : (Apply.supervised args a (Apply.start args disk)).1 ≠ .ended) :
    machine.exec { disk } [.apply args a, .finish] =
      some { disk := (Apply.apply args a disk).2.disk } := by
  have happly : (Apply.apply args a disk).2.disk =
      (Apply.run args a (Apply.start args disk)).2.disk := by
    unfold Apply.apply
    rw [hread]
    simp only
    rw [show (disk.bind fun env => nonempty env.endpoint).isSome = false from hfree,
      if_neg Bool.false_ne_true, Prog.bind_still]
    intro _ s
    unfold Apply.report
    cases a.emit with
    | some text => rfl
    | none =>
        rw [Apply.attempted, Prog.bind_run_ok (Prog.pure_run _ _),
          Prog.bind_run_ok (Prog.get_run _)]
        split <;> rfl
  have hstep : machine.step { disk } (.apply args a) = some {
      disk := (Apply.supervised args a (Apply.start args disk)).2.disk
      applying := some ⟨args, a, (Apply.supervised args a (Apply.start args disk)).1,
        (Apply.supervised args a (Apply.start args disk)).2⟩ } := by
    change step { disk } (.apply args a) = _
    rw [step]
    simp only [hread, hfree, Option.isSome_none, Bool.or_self, Bool.false_eq_true, if_false]
  rw [Machine.exec_of_step hstep, happly, Apply.run, Prog.ensure_state hends]
  rfl

theorem apply_cases {args : Apply.Args} {a : Apply.Answers}
    (h : step s (.apply args a) = some next) :
    s.applying = none ∧ (next = s ∨
      let run := Apply.supervised args a (Apply.start args s.disk)
      run.1 ≠ .ended ∧
        next = { disk := run.2.disk, applying := some ⟨args, a, run.1, run.2⟩ }) := by
  rw [step] at h
  split at h
  · cases h
  · next hidle =>
      refine ⟨hidle, ?_⟩
      split at h
      · exact Or.inl (Option.some.inj h).symm
      · simp only at h
        split at h
        · cases h
        · next hends =>
            exact Or.inr ⟨hends, (Option.some.inj h).symm⟩

theorem finish_cases (h : step s .finish = some next) :
    exists w, s.applying = some w ∧
      next = { disk := (Apply.finallyBlock w.args.plan w.answers.finally_ w.proc).2.disk } := by
  rcases Option.map_eq_some_iff.mp h with ⟨w, hw, heq⟩
  exact ⟨w, hw, heq.symm⟩

/-!
## Status and destroy
-/

theorem exits_disk {result : Type} {run : Outcome Raise result × Desk}
    (h : exits run = some next) : next = { disk := run.2.disk } := by
  unfold exits at h
  split at h
  · cases h
  · exact (Option.some.inj h).symm

theorem status_cases {args : Status.Args} {a : Status.Answers}
    (h : step s (.status args a) = some next) :
    s.applying = none ∧ next.applying = none ∧
      (next.disk = s.disk ∨ exists copy env, s.disk = some copy ∧ next.disk = some env ∧
        StatusWrites args a copy env) := by
  rw [step] at h
  split at h
  · cases h
  · next hidle =>
      rw [exits_disk h]
      refine ⟨hidle, rfl, ?_⟩
      cases hdisk : s.disk with
      | none =>
          rw [status_none args a]
          exact Or.inl rfl
      | some copy =>
          rcases (status_only args a copy).right with hsame | ⟨env, henv, hwrites⟩
          · exact Or.inl hsame
          · exact Or.inr ⟨copy, env, rfl, henv, hwrites⟩

theorem destroy_cases {args : Destroy.Args} {a : Destroy.Answers}
    (h : step s (.destroy args a) = some next) :
    s.applying = none ∧ next.applying = none ∧
      (next.disk = s.disk ∨ exists copy env, s.disk = some copy ∧ next.disk = some env ∧
        DestroyWrites args (alone a) copy env) := by
  rw [step] at h
  split at h
  · cases h
  · next hidle =>
      rw [exits_disk h]
      refine ⟨hidle, rfl, ?_⟩
      cases hdisk : s.disk with
      | none =>
          rw [destroy_none args (alone a)]
          exact Or.inl rfl
      | some copy =>
          rcases (destroy_only args (alone_alone a) copy).right with hsame | ⟨env, henv, hwrites⟩
          · exact Or.inl hsame
          · exact Or.inr ⟨copy, env, rfl, henv, hwrites⟩

end Sequence
end Job
end MightyColab
