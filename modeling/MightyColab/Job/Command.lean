import MightyColab.Job.Observe
import MightyColab.Lib.Prog

/-!
# Commands

A `job` command as a program over the envelope it holds, the envelope on disk, and a log
of its releases and writes that it never reads. A step that raises what the command does
not catch ends it; nothing it wrote before is taken back.
-/

namespace MightyColab
namespace Job

open Lib

inductive Raise where
  /-- `typer.Exit`. -/
  | exit (code : Nat)
  /-- An `Exception`, with the text `describe_error` makes of it. -/
  | exception (text : String)
  deriving DecidableEq, Repr

inductive Deed where
  /-- `release_assignment` was called on an endpoint. -/
  | release (endpoint : String)
  /-- An envelope was put in place on disk. -/
  | wrote (env : JobEnvelope)
  /-- The server assigned a VM to it. -/
  | assigned (endpoint : String)
  /-- `release_assignment` confirmed that a VM is gone. -/
  | absent (endpoint : String)
  deriving Repr

structure Desk where
  env : JobEnvelope
  /-- `envelope.json`. -/
  disk : Option JobEnvelope
  /-- Newest first. -/
  log : List Deed := []
  deriving Repr

/-- How one `write_envelope` goes: what raises before the new file is in place,
whether the old one can be read, and what appending the outcome event raises. -/
structure Write where
  file : Option String := none
  readable : Bool := true
  event : Option String := none
  deriving DecidableEq, Repr

/-- `write_envelope`: the disk after it, and what it raises. The write that first makes
the job `done` also appends the outcome. -/
def Write.perform (answer : Write) (env : JobEnvelope) (disk : Option JobEnvelope) :
    Option JobEnvelope × Option String :=
  match answer.file with
  | some error => (disk, some error)
  | none =>
      let wasDone := answer.readable && disk.any JobEnvelope.done
      (some env, if env.done && !wasDone then answer.event else none)

def Write.lands (answer : Write) : Bool := answer.file.isNone

theorem Write.perform_disk (answer : Write) (env : JobEnvelope) (disk : Option JobEnvelope) :
    (answer.perform env disk).1 = if answer.lands then some env else disk := by
  unfold Write.perform Write.lands
  cases answer.file with
  | some error => rfl
  | none => rfl

abbrev Command (result : Type) := Prog Desk Raise result

namespace Command

def lift {result : Type} (step : Except String result) : Command result :=
  match step with
  | .ok value => pure value
  | .error text => Prog.raise (.exception text)

def attempted (fault : Option String) : Command Unit :=
  match fault with
  | none => pure ()
  | some text => Prog.raise (.exception text)

def modifyEnv (f : JobEnvelope -> JobEnvelope) : Command Unit :=
  Prog.modify fun s => { s with env := f s.env }

/-- `read_envelope`; a fault is what it raises. -/
def readEnvelope (fault : Option String) : Command (Option JobEnvelope) := do
  attempted fault
  return (← Prog.get).disk

/-- `store.write_envelope(env)`. -/
def writeEnvelope (answer : Write) : Command Unit := fun s =>
  let (disk, error) := answer.perform s.env s.disk
  let log := if answer.lands then .wrote s.env :: s.log else s.log
  match error with
  | none => (.ok (), { s with disk, log })
  | some text => (.raised (.exception text), { s with disk, log })

/-- `_release`. -/
def releaseVm (answer : Release) (failure : String) : Command Unit :=
  Prog.modify fun s =>
    { s with
      env := release answer failure s.env
      log := ((nonempty s.env.endpoint).map Deed.release).toList ++ s.log }

/-!
## Running
-/

@[simp] theorem lift_ok {result : Type} (value : result) :
    lift (.ok value) = (pure value : Command result) := rfl

@[simp] theorem lift_error {result : Type} (text : String) :
    (lift (.error text) : Command result) = Prog.raise (.exception text) := rfl

@[simp] theorem attempted_none : attempted none = (pure () : Command Unit) := rfl

@[simp] theorem attempted_some (text : String) :
    attempted (some text) = (Prog.raise (.exception text) : Command Unit) := rfl

theorem readEnvelope_none (s : Desk) : readEnvelope none s = (.ok s.disk, s) := rfl

@[simp] theorem modifyEnv_run (f : JobEnvelope -> JobEnvelope) (s : Desk) :
    modifyEnv f s = (.ok (), { s with env := f s.env }) := rfl

@[simp] theorem releaseVm_run (answer : Release) (failure : String) (s : Desk) :
    releaseVm answer failure s =
      (.ok (), { s with
        env := release answer failure s.env
        log := ((nonempty s.env.endpoint).map Deed.release).toList ++ s.log }) := rfl

theorem keeps_lift_bind {result result' : Type} {inv : Desk -> Prop}
    {step : Except String result} {f : result -> Command result'}
    (h : forall value, step = .ok value -> Prog.Keeps inv (f value)) :
    Prog.Keeps inv (lift step >>= f) := by
  cases step with
  | error text => exact fun _ hs => hs
  | ok value => exact h value rfl

theorem attempted_still (fault : Option String) : Prog.Still (attempted fault) := by
  cases fault <;> exact fun _ => rfl

/-- A write leaves the envelope in hand; the disk and the log say whether it landed. -/
theorem writeEnvelope_run (answer : Write) (s : Desk) :
    (writeEnvelope answer s).2 =
      if answer.lands then { s with disk := some s.env, log := .wrote s.env :: s.log }
      else s := by
  have hdisk := answer.perform_disk s.env s.disk
  unfold writeEnvelope
  rcases hperform : answer.perform s.env s.disk with ⟨disk, error⟩
  rw [hperform] at hdisk
  change disk = _ at hdisk
  rw [hdisk]
  cases error with
  | none => cases answer.lands <;> rfl
  | some text => cases answer.lands <;> rfl

end Command
end Job
end MightyColab
