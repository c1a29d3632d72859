import MightyColab.Job.Command

/-!
# The `status` command

`job status` and `job status --poll`: the supervisor that finishes an orphaned job. One
pass of its loop is a function of the envelope and of what the pass sees; the passes of
a run are given as a list, and a run whose list is used up has not left the loop.
-/

namespace MightyColab
namespace Job

open Lib
open Transport (ReadStatus)

namespace Status

/-!
## Arguments and answers
-/

structure Args where
  jobId : String
  poll : Bool := false

structure CancelAnswer where
  write : Except String ReadStatus
  looks : Nat -> Look
  absorb : Absorption
  /-- The time for `finished_at`. -/
  now : String

/-- What one pass of the loop sees. -/
structure Pass where
  /-- `time.time()`. -/
  time : Rat
  /-- `time.monotonic()`. -/
  clock : Rat
  cancel : CancelAnswer
  /-- The hint of `_ensure_keep_alive` when the daemon is not alive. -/
  keepAlive : Except String (Option String)
  look : Look
  absorb : Absorption
  offVm : OffVm
  note : TransportNote

/-- The answers of one run, in the order in which they are asked for. -/
structure Answers where
  envelope : Option String
  supervisorAlive : Except String Bool
  /-- Whether the session store has the job's session. -/
  session : Except String Bool
  /-- What `JobTransport(...)` raises. -/
  transport : Option String
  keepAlive : Except String (Option String)
  scrub : Except String ReadStatus
  offVm : OffVm
  /-- `read_plan` for the deadline. -/
  deadlinePlan : PlanRead
  /-- The time that `started_at` denotes, if it can be parsed. -/
  launched : Option Rat
  passes : List Pass
  /-- `read_plan` for the decision to keep the VM. -/
  keepPlan : PlanRead
  copy : CopyAnswer
  /-- What stopping the session's keep-alive daemon raises. -/
  stopKeepAlive : Option String
  release : Release
  forget : Option String
  /-- The write inside the block on the VM, and the last one. -/
  write : Write
  lastWrite : Write
  emit : Option String

/-!
## Before the VM is asked
-/

def noteSupervisor (alive : Bool) (env : JobEnvelope) : JobEnvelope :=
  if env.supervisor = .running ∧ alive = false then
    { env with
      supervisor := .interrupted
      reason := some "the supervisor process that started this job is gone" }
  else env

def orphaned (alive : Bool) (env : JobEnvelope) : Bool :=
  !alive && decide (env.supervisor ≠ .running)

def cleanupPending (env : JobEnvelope) : Bool :=
  !(env.cleanup.gone || decide (env.cleanup = .leftUp))

def mustScrub (orphan : Bool) (env : JobEnvelope) : Bool :=
  orphan || decide (env.cleanup = .failed)

/-- `_ensure_keep_alive`; a job applied with `--no-keepalive` never gets one. -/
def ensureKeepAlive (answer : Except String (Option String)) (env : JobEnvelope) :
    Except String JobEnvelope :=
  if env.keepAliveDisabled then .ok env
  else
    match answer with
    | .error text => .error text
    | .ok hint =>
        match nonempty hint with
        | some hint => .ok (env.addHint hint)
        | none => .ok env

/-- The result at `control.result`, if there is one to absorb. -/
def recover (answer : OffVm) (env : JobEnvelope) : Except String JobEnvelope :=
  (recoverOffVmResult answer env).map Prod.snd

/-- The verdict of `_force_release_unconfirmed_secret`, after the release. -/
def forcedVerdict (cause : Option String) (env : JobEnvelope) : JobEnvelope :=
  let because := "transfer credential deletion could not be confirmed" ++
    (match nonempty cause with
      | some cause => s!" ({cause})"
      | none => "")
  let env :=
    if env.workload.terminal then
      env.addHint s!"forced VM teardown because {because}"
    else
      let env := match nonempty env.reason with
        | some reason => env.addHint s!"before the forced teardown: {reason}"
        | none => env
      { { env with workload := .unknown }.recordFailure .cleanup with
        reason := some s!"forced teardown because {because}"
        retryClass := some .doNotRetry }
  { env with supervisor := .finished }

/-!
## The deadline
-/

def runDeadlineMarginSeconds : Int := 600

def runDeadlineSeconds (spec : JobSpec) : Int :=
  spec.budgets.wallClock + runDeadlineMarginSeconds

def deadlineText (spec : JobSpec) : String :=
  s!"no verdict within {runDeadlineSeconds spec}s of launch " ++
    s!"(wall_clock {spec.budgets.wallClock}s + {runDeadlineMarginSeconds}s)"

/-- `_status_poll_deadline`. Only a `ValueError` of the plan is caught. -/
def statusPollDeadline (a : Answers) (env : JobEnvelope) :
    Except String (Option (Rat × String)) :=
  match nonempty env.startedAt with
  | none => .ok none
  | some _ =>
      match a.deadlinePlan with
      | .error (.failed text) => .error text
      | .error (.invalid _) => .ok none
      | .ok none => .ok none
      | .ok (some plan) =>
          .ok (a.launched.map fun launched =>
            (launched + runDeadlineSeconds plan.spec, deadlineText plan.spec))

/-- The canceller that `status --poll` names in `cancel.json`. -/
def requester : String := "job status --poll"

def cancelOrphanAfterDeadline (answer : CancelAnswer) (passed : String)
    (env : JobEnvelope) : JobEnvelope :=
  let (note, confirmed) := requestCancel answer.write
  let env :=
    match awaitRunnerResult answer.looks runnerStopWaitSeconds with
    | .ok result =>
        let env :=
          match absorbRemoteResult env answer.absorb.plan result answer.absorb.now with
          | .ok env => env
          | .error error =>
              env.addHint (s!"runner result could not be absorbed ({error}); " ++
                s!"raw result: {rawVerdict result}")
        { env with
          reason := some (deadlineReason passed note confirmed requester result env.reason) }
    | .error why =>
        { env with
          workload := .unknown
          offload := if env.offload.terminal then env.offload else .skipped
          reason := some s!"{passed}; {note}; {why}" }
  let env := env.recordFailure .run
  { env with
    retryClass := env.retryClass.or (some .retrySame)
    supervisor := .finished
    finishedAt := (nonempty env.finishedAt).or (some answer.now) }

/-!
## One pass of the loop
-/

def lostVerdict (reason : String) (env : JobEnvelope) : JobEnvelope :=
  { { env with workload := .unknown }.recordFailure .run with
    reason := some reason
    retryClass := some .retrySame
    supervisor := .finished }

def unabsorbedVerdict (error : String) (result : Json.Fields) (env : JobEnvelope) :
    JobEnvelope :=
  { { env with workload := .unknown }.recordFailure .run with
    reason := some (s!"runner result could not be absorbed ({error}); " ++
      s!"raw result: {rawVerdict result}")
    retryClass := some .doNotRetry
    offload := if env.offload.terminal then env.offload else .skipped }

def absorbPayload (orphan : Bool) (answer : Absorption) (result : Json.Fields)
    (env : JobEnvelope) : JobEnvelope :=
  let env :=
    match absorbRemoteResult env answer.plan result answer.now with
    | .ok env => env
    | .error error => unabsorbedVerdict error result env
  if orphan then { env with supervisor := .finished } else env

def deadRunnerReason (record : Json.Fields) : String :=
  let reading :=
    if record.isEmpty then ""
    else
      let elapsed := (Json.Fields.get record "elapsed").pyStr
      let ts := (Json.Fields.get record "ts").pyStr
      s!" (watchdog: elapsed={elapsed}s, ts={ts})"
  s!"runner identity is dead and no result.json was written{reading}; " ++
    "its last output is in runner.log"

inductive Turn where
  | break (env : JobEnvelope)
  | again (staleness : WatchdogStaleness) (env : JobEnvelope)

/-- An observation that ends the job unless `control.result` has its result. -/
def endOfRunner (orphan : Bool) (env : JobEnvelope) : Observation -> Option String
  | .sessionLost => some (lostAssignmentReason env)
  | .runnerDead record => some (deadRunnerReason record)
  | .neverStarted =>
      if orphan then some "supervisor is gone and no runner identity was recorded"
      else none
  | _ => none

def undecided (pass : Pass) (staleness : WatchdogStaleness) (env : JobEnvelope) :
    Observation -> WatchdogStaleness × JobEnvelope
  | .degraded =>
      (staleness, { env with
        supervisor := .degraded
        reason := some (degradedReason pass.note none ++ "; the job is not known dead") })
  | .launchInvalid launch =>
      let identity := Json.obj (["pid", "starttime", "boot_id"].map fun key =>
        (key, Json.Fields.get launch key))
      (staleness, { env with
        reason := some ("launch.json on the VM has no valid runner identity: " ++
          identity.pyStr) })
  | .runnerAlive (some record) =>
      let (stalled, staleness) := staleness.observe pass.clock record
      let env := replaceHint watchdogStalledLead stalled env
      (staleness, { env with reason := stalled.or env.reason })
  | _ => (staleness, env)

def pastDeadlineLead : String := "past its deadline: "

/-- The deadline, once it has passed: a `--poll` cancels the runner and leaves the
loop, a plain status only says so. -/
def checkDeadline (args : Args) (deadline : Option (Rat × String)) (pass : Pass)
    (env : JobEnvelope) : Bool × JobEnvelope :=
  match deadline with
  | none => (false, env)
  | some (time, text) =>
      if time < pass.time then
        if args.poll then
          (true, cancelOrphanAfterDeadline pass.cancel
            (text ++ "; the job's supervisor is gone, so job status --poll cancelled it")
            (replaceHint pastDeadlineLead none env))
        else
          (false, replaceHint pastDeadlineLead
            (some (s!"{text}; \x60job status {args.jobId} --poll\x60 cancels it and " ++
              s!"releases the VM, \x60job destroy {args.jobId}\x60 stops it now")) env)
      else (false, env)

def decide_ (orphan : Bool) (pass : Pass) (staleness : WatchdogStaleness)
    (env : JobEnvelope) (observation : Observation) : Except String Turn :=
  match observation with
  | .result result => .ok (.break (absorbPayload orphan pass.absorb result env))
  | observation =>
      match endOfRunner orphan env observation with
      | some reason =>
          match recoverOffVmResult pass.offVm env with
          | .error text => .error text
          | .ok (true, env) => .ok (.break { env with supervisor := .finished })
          | .ok (false, env) => .ok (.break (lostVerdict reason env))
      | none =>
          let (staleness, env) := undecided pass staleness env observation
          .ok (.again staleness env)

def pass (args : Args) (orphan : Bool) (deadline : Option (Rat × String)) (pass : Pass)
    (staleness : WatchdogStaleness) (env : JobEnvelope) : Except String Turn := do
  let (cancelled, env) := checkDeadline args deadline pass env
  if cancelled then return .break env
  else
    let env ← ensureKeepAlive pass.keepAlive env
    decide_ orphan pass staleness env (← observeRemote pass.look)

/-- The loop. Without `--poll` it makes one pass. -/
def loop (args : Args) (orphan : Bool) (deadline : Option (Rat × String)) :
    List Pass -> WatchdogStaleness -> Command Unit
  | [], _ => Prog.exit
  | p :: rest, staleness => do
      let s ← Prog.get
      match ← Command.lift (pass args orphan deadline p staleness s.env) with
      | .break env => Command.modifyEnv fun _ => env
      | .again staleness env =>
          Command.modifyEnv fun _ => env
          if args.poll then loop args orphan deadline rest staleness else return ()

/-!
## Releasing
-/

def forceReleaseUnconfirmedSecret (a : Answers) (transport : Bool)
    (cause : Option String) : Command Unit := do
  Command.modifyEnv (copyBeforeRelease transport a.copy)
  Command.releaseVm a.release "forced unassign failed"
  Command.modifyEnv (forgetSession a.forget)
  Command.modifyEnv (forcedVerdict cause)
  Command.writeEnvelope a.write
  Command.attempted a.emit
  Prog.raise (.exit 1)

/-- The plan for the decision to keep the VM: only a `ValueError` is caught. -/
def keepSpec (plan : PlanRead) : Except String (Option JobSpec) :=
  match plan with
  | .error (.failed text) => .error text
  | .error (.invalid _) => .ok none
  | .ok plan => .ok (plan.map Plan.spec)

def orphanVerdict (env : JobEnvelope) : JobEnvelope :=
  { env with
    supervisor := .finished
    offload := if env.offload.terminal then env.offload else .skipped }

def releaseOrphanedJob (a : Answers) : Command Unit := do
  let spec ← Command.lift (keepSpec a.keepPlan)
  let s ← Prog.get
  if keepVm s.env spec true then
    Command.modifyEnv fun env =>
      { recordVmKept env env.jobId with supervisor := .finished }
    Command.writeEnvelope a.write
  else
    Command.modifyEnv (copyBeforeRelease true a.copy)
    Command.attempted a.stopKeepAlive
    Command.releaseVm a.release "recovery teardown failed"
    Command.modifyEnv (forgetSession a.forget)
    Command.modifyEnv orphanVerdict
    Command.writeEnvelope a.write

/-!
## The command
-/

def notConsulted (jobId : String) (consulted : Bool) (env : JobEnvelope) : JobEnvelope :=
  if consulted || env.cleanup.gone then env
  else
    let why := match nonempty env.session with
      | none => "no session is recorded for this job"
      | some _ => s!"cleanup is already {env.cleanup.value}"
    let note := s!"the VM was not consulted: {why}" ++
      (if env.cleanup = .leftUp then
        "; the VM was left running and may still bill: \x60mighty-colab sessions\x60 " ++
          s!"shows it, \x60job destroy {jobId}\x60 releases it"
      else "")
    if note ∈ env.hints then env else env.addHint note

def conclude (args : Args) (a : Answers) (consulted : Bool) : Command Unit := do
  Command.modifyEnv fun env => finalizeHints (notConsulted args.jobId consulted env)
  Command.writeEnvelope a.lastWrite
  Command.attempted a.emit

def consultVm (args : Args) (a : Answers) (orphan : Bool) : Command Unit := do
  let s ← Prog.get
  if s.env.workload.terminal then return ()
  else
    let deadline ← (if orphan then Command.lift (statusPollDeadline a s.env)
      else return none)
    loop args orphan deadline a.passes {}

def superviseVm (args : Args) (a : Answers) (orphan : Bool) : Command Unit := do
  consultVm args a orphan
  let s ← Prog.get
  if orphan && s.env.workload.terminal then releaseOrphanedJob a
  else Command.writeEnvelope a.write
  conclude args a true

def withSession (args : Args) (a : Answers) (orphan : Bool) : Command Unit := do
  let s ← Prog.get
  let env ← Command.lift (ensureKeepAlive a.keepAlive s.env)
  Command.modifyEnv fun _ => env
  Command.attempted a.transport
  let (scrubbed, problem) :=
    if mustScrub orphan env then scrubReport a.scrub else (true, none)
  if !scrubbed then
    let env ← Command.lift (recover a.offVm env)
    Command.modifyEnv fun _ => env
    forceReleaseUnconfirmedSecret a true problem
  else if orphan && env.workload.terminal then
    releaseOrphanedJob a
    Command.attempted a.emit
  else superviseVm args a orphan

def withoutSession (args : Args) (a : Answers) (orphan : Bool) : Command Unit := do
  let s ← Prog.get
  if mustScrub orphan s.env then
    let env ← Command.lift (recover a.offVm s.env)
    Command.modifyEnv fun _ => env
    forceReleaseUnconfirmedSecret a false
      (some (s!"no local session record {reprOption env.session}, so the VM could " ++
        "not be reached"))
  else
    Command.modifyEnv fun env => env.addHint (s!"the VM was not consulted: no local " ++
      s!"session record {reprOption env.session} on this machine")
    conclude args a true

def status (args : Args) (a : Answers) : Command Unit := do
  match ← Command.readEnvelope a.envelope with
  | none => Prog.raise (.exit 1)
  | some env =>
      let alive ← Command.lift a.supervisorAlive
      let env := noteSupervisor alive env
      Command.modifyEnv fun _ => env
      let orphan := orphaned alive env
      if (nonempty env.session).isSome && cleanupPending env then
        if ← Command.lift a.session then withSession args a orphan
        else withoutSession args a orphan
      else conclude args a false

end Status
end Job
end MightyColab
