import MightyColab.Job.Command

/-!
# The `destroy` command

`job destroy`: read what can still be read of the result, remove the transfer
credentials, ask the runner to stop, wait for it or for a live `job apply`, and release
the VM. The answers of one run are given; a step that the command does not guard ends
it when it raises.
-/

namespace MightyColab
namespace Job

open Lib
open Transport (ReadStatus)

namespace Destroy

/-!
## Arguments and answers
-/

structure Args where
  jobId : String
  cancelOnly : Bool := false
  wait : Nat := runnerStopWaitSeconds

/-- One read of `envelope.json` while a live `job apply` may be writing it: what it has
written by then, and what the read raises. -/
structure Reread where
  written : Option JobEnvelope := none
  fault : Option String := none

/-- One poll of `_await_supervisor_cleanup`. -/
structure Await extends Reread where
  alive : Except String Bool := .ok true

/-- The answers of one run, in the order in which they are asked for. -/
structure Answers where
  envelope : Option String
  /-- `store.read_plan`. -/
  plan : PlanRead
  /-- Whether the session store has the job's session. -/
  session : Except String Bool
  /-- What `JobTransport(...)` raises. -/
  transport : Option String
  result : JsonRead
  note : TransportNote
  absorb : Absorption
  offVm : OffVm
  /-- `transport.remove` of the credential file. -/
  scrub : Except String ReadStatus
  cancel : Except String ReadStatus
  supervisorAlive : Except String Bool
  /-- What `typer.echo` raises. -/
  echo : Option String
  awaits : Nat -> Await
  latest : Reread
  looks : Nat -> Look
  waitAbsorb : Absorption
  copy : CopyAnswer
  /-- What stopping the session's keep-alive daemon raises. -/
  keepAlive : Option String
  release : Release
  forget : Option String
  write : Write
  emit : Option String

/-!
## Steps before the release
-/

def openTransport (a : Answers) (env : JobEnvelope) : Except String Bool :=
  match nonempty env.session with
  | none => .ok false
  | some _ =>
      match a.session, a.transport with
      | .error text, _ => .error text
      | .ok false, _ => .ok false
      | .ok true, some text => .error text
      | .ok true, none => .ok true

def reconcile (a : Answers) (transport : Bool) (env : JobEnvelope) : JobEnvelope :=
  let unreconciled (error : String) : JobEnvelope :=
    env.addHint
      s!"the remote result could not be reconciled before destroy ({error})"
  if !transport then env
  else
    match a.result with
    | .error error => unreconciled error
    | .ok read =>
        match okRecord read with
        | some result =>
            match absorbRemoteResult env a.absorb.plan result a.absorb.now with
            | .ok env => { env with supervisor := .finished }
            | .error error => unreconciled error
        | none =>
            if read.2 = .ok ∨ read.2 = .notFound then env
            else env.addHint (s!"reading result.json before destroy returned " ++
              s!"{read.2.name}: {degradedReason a.note none}")

/-- The result at `control.result`, for a workload without a verdict. -/
def recover (a : Answers) (env : JobEnvelope) : Except String JobEnvelope :=
  if env.workload.terminal then .ok env
  else
    match recoverOffVmResult a.offVm env with
    | .error text => .error text
    | .ok (true, env) => .ok { env with supervisor := .finished }
    | .ok (false, env) => .ok env

def removeSecret (a : Answers) (transport : Bool) (env : JobEnvelope) :
    Bool × Option String :=
  if transport then scrubReport a.scrub
  else (false, some (s!"no local session record {reprOption env.session}, " ++
    "so the VM could not be reached"))

def cancelRunner (a : Answers) (transport : Bool) (env : JobEnvelope) :
    Option String × Bool :=
  if !env.workload.terminal && transport then
    let (note, confirmed) := requestCancel a.cancel
    (some note, confirmed)
  else (none, false)

/-- The release of a job that must not keep its VM, because its credential file could
not be confirmed removed. -/
def forcedVerdict (problem : String) (env : JobEnvelope) : JobEnvelope :=
  let env :=
    if env.workload.terminal then
      env.addHint ("forced VM teardown because credential deletion was not confirmed " ++
        s!"({problem})")
    else
      let env := match nonempty env.reason with
        | some reason => env.addHint s!"before the forced teardown: {reason}"
        | none => env
      { { env with workload := .unknown }.recordFailure .cleanup with
        reason := some ("cancel-only retention overridden because transfer credential " ++
          s!"deletion could not be confirmed ({problem})")
        retryClass := some .doNotRetry }
  finalizeHints { env with supervisor := .finished }

/-- The reason of a `--cancel-only` that leaves the VM running. -/
def cancelOnlyVerdict (note : Option String) (confirmed : Bool) (env : JobEnvelope) :
    JobEnvelope :=
  let reason :=
    if env.workload.terminal then
      (nonempty env.reason).getD "workload already terminal; VM left running"
    else if confirmed then "cancel intent written; VM left running"
    else "cancel intent could not be confirmed (" ++
      (nonempty note).getD "no transport" ++ "); VM left running"
  finalizeHints { env with reason := some reason }

/-!
## Waiting
-/

def reread (r : Reread) (disk : Option JobEnvelope) :
    Except String (Option JobEnvelope) × Option JobEnvelope :=
  let disk := r.written.or disk
  match r.fault with
  | some text => (.error text, disk)
  | none => (.ok disk, disk)

/-- `_await_supervisor_cleanup`, with `left` polls to go: the envelope once its cleanup
is terminal or the supervisor has exited. -/
def awaitSupervisorCleanup (awaits : Nat -> Await) (polls : Nat) :
    Nat -> Option JobEnvelope -> Except String (Option JobEnvelope) × Option JobEnvelope
  | 0, disk => (.ok none, disk)
  | left + 1, disk =>
      let poll := awaits (polls - (left + 1))
      match reread poll.toReread disk with
      | (.error _, disk) => awaitSupervisorCleanup awaits polls left disk
      | (.ok current, disk) =>
          if current.any fun env => env.cleanup.terminal then (.ok current, disk)
          else
            match poll.alive with
            | .error text => (.error text, disk)
            | .ok false => (.ok current, disk)
            | .ok true => awaitSupervisorCleanup awaits polls left disk

/-- The record to release from after a live `job apply` has not released the VM. -/
def takeOver (args : Args) (current : Option JobEnvelope)
    (latest : Except String (Option JobEnvelope)) (env : JobEnvelope) : JobEnvelope :=
  let env := match latest with
    | .ok latest => latest.getD env
    | .error error =>
        env.addHint (s!"latest envelope unreadable ({error}); " ++
          "releasing from the record read at the start of destroy")
  match current with
  | none =>
      env.addHint (s!"the running \x60job apply\x60 did not release the VM within " ++
        s!"{args.wait}s; destroy took over the release")
  | some current =>
      env.addHint (s!"the running \x60job apply\x60 ended with cleanup=" ++
        s!"{current.cleanup.value}; destroy took over the release")

def absorbAwaited (a : Answers) (wait : Nat) (env : JobEnvelope) :
    Option String × JobEnvelope :=
  match awaitRunnerResult a.looks wait with
  | .ok result =>
      match absorbRemoteResult env a.waitAbsorb.plan result a.waitAbsorb.now with
      | .ok env => (none, { env with supervisor := .finished })
      | .error error =>
          (none, env.addHint (s!"runner result could not be absorbed ({error}); " ++
            s!"raw result: {rawVerdict result}"))
  | .error why => (some why, env.addHint why)

inductive Waited where
  /-- A live `job apply` has released the VM. -/
  | released
  | release (outcome : Option String)
  deriving DecidableEq, Repr

/-- Wait for the live `job apply` that owns the release. -/
def waitForApply (args : Args) (a : Answers) : Command Waited := do
  Command.attempted a.echo
  let s ← Prog.get
  let polls := waitPolls args.wait
  let (current, disk) := awaitSupervisorCleanup a.awaits polls polls s.disk
  Prog.modify fun s => { s with disk }
  let current ← Command.lift current
  if current.any fun env => env.cleanup.gone then
    Command.attempted a.emit
    return .released
  else
    let (latest, disk) := reread a.latest disk
    Prog.modify fun s => { s with disk, env := takeOver args current latest s.env }
    return .release none

def waitForRunner (args : Args) (a : Answers) : Command Waited := do
  Command.attempted a.echo
  let s ← Prog.get
  let (outcome, env) := absorbAwaited a args.wait s.env
  Command.modifyEnv fun _ => env
  return .release outcome

def await (args : Args) (a : Answers) (transport confirmed : Bool) : Command Waited := do
  let s ← Prog.get
  if !s.env.workload.terminal && transport && confirmed && decide (0 < args.wait) then
    if ← Command.lift a.supervisorAlive then waitForApply args a
    else waitForRunner args a
  else return .release none

/-!
## The command
-/

def destroyedVerdict (plan : Option Plan) (note : Option String) (confirmed : Bool)
    (outcome : Option String) (env : JobEnvelope) : JobEnvelope :=
  let env :=
    if env.workload.terminal then env
    else
      let declared := plan.any fun plan => !plan.spec.artifacts.isEmpty
      let offload :=
        if env.offload.terminal then env.offload
        else if declared then .skipped
        else .notRequired
      let reason :=
        if confirmed then
          "VM destroyed after cancellation was requested; remote workload " ++
            "verdict unavailable"
        else
          "VM destroyed; cancellation intent and remote workload verdict unavailable" ++
            (match nonempty note with
              | some note => s!" ({note})"
              | none => "")
      let reason := match nonempty outcome with
        | some outcome => s!"{reason}: {outcome}"
        | none => reason
      { env with
        workload := .unknown, offload, reason := some reason
        retryClass := some .doNotRetry }
  finalizeHints { env with supervisor := .finished }

/-- The end of a `--cancel-only` whose credential file may still be on the VM. -/
def releaseForced (a : Answers) (transport : Bool) (problem : Option String) :
    Command Unit := do
  Command.modifyEnv (copyBeforeRelease transport a.copy)
  Command.attempted a.keepAlive
  Command.releaseVm a.release "forced unassign failed"
  Command.modifyEnv (forgetSession a.forget)
  Command.modifyEnv (forcedVerdict (problem.getD "None"))
  Command.writeEnvelope a.write
  Command.attempted a.emit
  Prog.raise (.exit 1)

/-- The end of a `--cancel-only` that keeps the VM. -/
def leaveRunning (a : Answers) (note : Option String) (confirmed : Bool) :
    Command Unit := do
  Command.modifyEnv (cancelOnlyVerdict note confirmed)
  Command.writeEnvelope a.write
  Command.attempted a.emit
  let s ← Prog.get
  if !s.env.workload.terminal && !confirmed then Prog.raise (.exit 1)
  else return ()

/-- `_emit`, and the exit code of a release that failed. -/
def report (a : Answers) : Command Unit := do
  Command.attempted a.emit
  let s ← Prog.get
  if s.env.cleanup = .failed then Prog.raise (.exit 1) else return ()

def releaseAndRecord (a : Answers) (plan : Option Plan) (transport : Bool)
    (note : Option String) (confirmed : Bool) (outcome : Option String) :
    Command Unit := do
  Command.modifyEnv (copyBeforeRelease transport a.copy)
  Command.attempted a.keepAlive
  Command.releaseVm a.release "unassign failed"
  Command.modifyEnv (forgetSession a.forget)
  Command.modifyEnv (destroyedVerdict plan note confirmed outcome)
  Command.writeEnvelope a.write
  report a

def conclude (args : Args) (a : Answers) (plan : Option Plan) (transport : Bool) :
    Command Unit := do
  let s ← Prog.get
  let (removed, problem) := removeSecret a transport s.env
  if args.cancelOnly && !removed then releaseForced a transport problem
  else
    let (note, confirmed) := cancelRunner a transport s.env
    if args.cancelOnly then leaveRunning a note confirmed
    else
      match ← await args a transport confirmed with
      | .released => return ()
      | .release outcome => releaseAndRecord a plan transport note confirmed outcome

def destroy (args : Args) (a : Answers) : Command Unit := do
  match ← Command.readEnvelope a.envelope with
  | none => Prog.raise (.exit 0)
  | some env =>
      let plan ← Command.lift (a.plan.mapError PlanError.text)
      let transport ← Command.lift (openTransport a env)
      let env ← Command.lift (recover a (reconcile a transport env))
      Command.modifyEnv fun _ => env
      conclude args a plan transport

end Destroy
end Job
end MightyColab
