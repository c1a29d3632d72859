import MightyColab.Job.Poll

/-!
# The `apply` command

`job apply` from its claim to its exit: the phases, the `except` clauses that give a
stopped or failed run its verdict, and the `finally` block that removes the transfer
credentials and then leaves the VM to a later `status --poll`, keeps it, or releases
it. The handlers for SIGTERM and SIGHUP stay installed until the block's end.
-/

namespace MightyColab
namespace Job

open Lib
open Transport (ReadStatus)

namespace Apply

/-!
## Arguments
-/

structure Args where
  plan : Plan
  timeout : Option Nat := none
  leaveUp : Bool := false
  noKeepalive : Bool := false
  /-- `state.debug`. -/
  debug : Bool := false

/-- `Offload.NOT_REQUIRED if not p.spec.artifacts else Offload.SKIPPED`. -/
def nothingOffloaded (spec : JobSpec) : Offload :=
  if spec.artifacts.isEmpty then .notRequired else .skipped

/-!
## The phases and the poll
-/

/-- The answers of the `try` block. -/
structure Body where
  provision : Provision
  install : Install := {}
  restart : Restart := {}
  verify : Verify := {}
  stage : Stage := {}
  sealing : Kernel (Option String) := { outcome := .ok none }
  launch : Launch := {}
  /-- A signal before `secret_handoff` is set. -/
  handoff : Option Signal := none
  transport : Hit := {}
  /-- `time.time()` before the phases, and after the launch. -/
  started : Rat := 0
  launched : Rat := 0
  ticks : List Tick := []
  deadline : Deadline := {}
  cancel : CancelHit := {}

def runDeadline (args : Args) (a : Body) : Rat × String × String :=
  match args.timeout.filter (· ≠ 0) with
  | some timeout =>
      (a.started + timeout, s!"apply's --timeout of {timeout}s passed before a verdict",
        "job apply --timeout")
  | none =>
      let spec := args.plan.spec
      let seconds := spec.budgets.wallClock + 600
      (a.launched + seconds,
        s!"no verdict within {seconds}s of launch (wall_clock " ++
          s!"{spec.budgets.wallClock}s + 600s)",
        "job apply deadline")

/-- The `try` block. -/
def body (args : Args) (a : Body) : Program Unit := do
  let spec := args.plan.spec
  provision args.plan a.provision
  install spec a.install
  restart spec a.restart
  verify a.verify
  stagePayload spec a.stage
  sealSecretChannel a.sealing
  let launched ← launch a.launch
  arrive a.handoff
  Prog.modify fun s => { s with handoff := launched }
  jobTransport a.transport
  let (deadline, passed, requester) := runDeadline args a
  poll spec deadline a.deadline a.ticks 0
  let s ← Prog.get
  if s.env.supervisor = .interrupted then
    cancelAfterDeadline spec passed requester a.cancel
  else return ()

/-!
## The handlers
-/

structure Handler where
  gaps : Gaps := fun _ => none
  now : String := ""
  logPath : String := ""

/-- `except PhaseError`. -/
def phaseFailed (spec : JobSpec) (a : Handler) (e : PhaseError) : Program Unit :=
  updates a.gaps
    [fun env => env.recordFailure e.phase,
      fun env => { env with finishedAt := (nonempty env.finishedAt).or (some a.now) },
      fun env => { env with workload := .failed },
      fun env => { env with offload := nothingOffloaded spec },
      fun env => { env with supervisor := .finished },
      fun env => { env with reason := some e.reason },
      fun env => { env with retryClass := e.retryClass },
      fun env => env.addHints e.hints,
      fun env => { env with phase := e.phase }]

inductive Stop where
  | keyboard
  | signal (signal : StopSignal)
  deriving DecidableEq, Repr

def Stop.how : Stop -> String
  | .keyboard => "Ctrl-C (SIGINT)"
  | .signal s => s.name

def cancelledVerdict (spec : JobSpec) (a : Handler) (stop : Stop) :
    List (JobEnvelope -> JobEnvelope) :=
  [fun env => { env with workload := .cancelled },
    fun env => { env with offload := nothingOffloaded spec },
    fun env => { env with supervisor := .finished },
    fun env => { env with finishedAt := some a.now },
    fun env => { env with
      reason := some (s!"interrupted locally by {stop.how} during {env.phase.value}, " ++
        "before the runner was launched; the VM is released") },
    fun env => { env with retryClass := some .retrySame }]

def interruptedVerdict (reason : String) (hints : List String) :
    List (JobEnvelope -> JobEnvelope) :=
  [fun env => { env with supervisor := .interrupted },
    fun env => { env with reason := some reason },
    fun env => { env with retryClass := none },
    fun env => env.addHints hints]

/-- The hint that `destroy` ends the job now. -/
def destroyHint (jobId : String) : String :=
  s!"the VM is still billing: \x60mighty-colab job destroy {jobId}\x60 " ++
    "stops the job and releases the VM now"

/-- `except (KeyboardInterrupt, SupervisorStopped)`. -/
def runStopped (plan : Plan) (a : Handler) (stop : Stop) : Program Unit := do
  let s ← Prog.get
  if s.env.workload = .pending then
    updates a.gaps (cancelledVerdict plan.spec a stop)
  else
    match stop with
    | .signal signal =>
        -- whoever started apply may not come back: a detached poll takes over
        arrive (a.gaps 0)
        Prog.modify fun s => { s with handOffLog := true }
        updates (fun n => a.gaps (n + 1)) (interruptedVerdict
          (s!"stopped by {signal.name} after the runner was launched; the job keeps " ++
            "running, and a detached \x60job status --poll\x60 collects the result " ++
            "and releases the VM when it ends")
          [s!"the VM is still billing: the detached poll logs to {a.logPath}",
            destroyHint plan.jobId])
    | .keyboard =>
        updates a.gaps (interruptedVerdict
          (s!"interrupted locally by {stop.how} after the runner was launched; the " ++
            "job keeps running on the VM, which bills until the job is released")
          [s!"the VM is still billing: \x60mighty-colab job status {plan.jobId} " ++
              "--poll\x60 collects the result and releases the VM when the job ends",
            destroyHint plan.jobId])

def beforeRun (phase : Phase) : Bool :=
  [Phase.plan, .provision, .install, .restart, .verify, .stage].contains phase

/-- `except Exception`, without `--debug`. -/
def supervisorFailed (spec : JobSpec) (a : Handler) (text : String) : Program Unit :=
  updates a.gaps
    [fun env => env.recordFailure env.phase,
      fun env => { env with finishedAt := (nonempty env.finishedAt).or (some a.now) },
      fun env => { env with
        workload :=
          if env.workload.terminal then env.workload
          else if beforeRun env.phase then .failed
          else .unknown },
      fun env => { env with
        offload :=
          if env.offload.terminal then env.offload
          else if spec.artifacts.isEmpty then .notRequired
          else if env.phase = .offload then .failed
          else .skipped },
      fun env => { env with supervisor := .finished },
      fun env => { env with
        reason := some s!"internal supervisor failure in {env.phase.value}: {text}" },
      fun env => { env with retryClass := some .doNotRetry },
      fun env => env.addHint "local traceback logged to ~/.config/colab-cli/colab.log"]

/-- The `except` clauses. -/
def handle (args : Args) (a : Handler) (e : Raise) : Program Unit :=
  match e with
  | .phase error => phaseFailed args.plan.spec a error
  | .keyboard => runStopped args.plan a .keyboard
  | .stopped signal => runStopped args.plan a (.signal signal)
  | .exception text =>
      if args.debug then Prog.raise e else supervisorFailed args.plan.spec a text
  | .exit code => Prog.raise (.exit code)

/-!
## Cleanup
-/

def closeRuntime (hit : Hit) : Program Unit := do
  let s ← Prog.get
  if s.runtime then
    Prog.modify fun s => { s with runtime := false }
    catching (step hit) fun text =>
      modifyEnv fun env => env.addHint s!"local runtime client close failed ({text})"
  else return ()

def stopKeepAlive (hit : Hit) : Program Unit := do
  let s ← Prog.get
  if s.session && s.keepAlivePid then step hit else return ()

def dropSession (hit : Hit) (jobId : String) : Program Unit := do
  let s ← Prog.get
  if s.session then
    catching (step hit) fun text =>
      modifyEnv fun env => env.addHint
        (s!"local session record job-{jobId} not removed ({text}); " ++
          "\x60mighty-colab sessions\x60 may still list it")
  else return ()

/-- The steps of `cleanup`. -/
structure CleanupHit where
  close : Hit := {}
  phase : PhaseHit := {}
  keepAlive : Hit := {}
  drop : Hit := {}
  /-- Signals around the assignments to the envelope. -/
  gaps : Gaps := fun _ => none
  write : WriteHit := {}
  transport : Hit := {}
  copyBefore : Option Signal := none
  copy : CopyAnswer := ⟨0, "", fun _ => ⟨0, .ok (none, .notFound), none⟩⟩
  copyAfter : Option Signal := none
  release : ReleaseHit := {}
  /-- A signal before the outcome is in the envelope. -/
  outcome : Option Signal := none
  units : UnitsHit := {}

def cleanupAbsent (a : CleanupHit) (jobId : String) : Program Unit := do
  stopKeepAlive a.keepAlive
  dropSession a.drop jobId
  updates a.gaps [fun env => { env with cleanup := .alreadyAbsent }]
  persist a.write

def cleanupKept (a : CleanupHit) (jobId : String) : Program Unit := do
  updates a.gaps [fun env => recordVmKept env jobId]
  persist a.write

def copyRecordsBeforeRelease (a : CleanupHit) : Program Unit := do
  let made ← catching (do jobTransport a.transport; return none) fun text =>
    return some text
  match made with
  | some text =>
      modifyEnv fun env => env.addHint s!"VM records not copied before release ({text})"
  | none =>
      arrive a.copyBefore
      modifyEnv fun env => env.addHint (copyVmRecords a.copy)
      arrive a.copyAfter

def recordRelease (a : CleanupHit) (jobId endpoint : String)
    (outcome : Cleanup × Option String) : Program Unit := do
  arrive a.outcome
  modifyEnv fun env => { env with cleanup := outcome.1 }
  let reading ← computeUnits a.units "release"
  modifyEnv fun env => { env with computeUnitsAtRelease := reading }
  updates a.gaps
    [fun env => if env.cleanup = .failed then env.recordFailure .cleanup else env,
      fun env =>
        match nonempty outcome.2 with
        | some detail => env.addHint
            (s!"teardown failed ({detail}); endpoint {endpoint} may still be " ++
              s!"billing -- retry with \x60mighty-colab job destroy {jobId}\x60")
        | none => env]

def releaseAndRecord (a : CleanupHit) (jobId endpoint : String) : Program Unit :=
  Prog.ensure
    (do
      let outcome ← releaseAssignment a.release endpoint
      recordRelease a jobId endpoint outcome)
    (do
      dropSession a.drop jobId
      persist a.write)

def cleanup (a : CleanupHit) (jobId : String) (leaveUp : Bool) : Program Unit := do
  closeRuntime a.close
  setPhase a.phase .cleanup
  let s ← Prog.get
  match nonempty s.env.endpoint with
  | none => cleanupAbsent a jobId
  | some endpoint =>
      if leaveUp then cleanupKept a jobId
      else
        copyRecordsBeforeRelease a
        stopKeepAlive a.keepAlive
        releaseAndRecord a jobId endpoint

/-!
## The credential file
-/

/-- The steps of `cleanup_secret_channel`: whether the kernel cell saw the file absent,
and the Contents removal. -/
structure SecretHit where
  call : Kernel Bool := { outcome := .ok true }
  transport : Hit := {}
  before : Option Signal := none
  remove : Except String ReadStatus := .ok .ok
  after : Option Signal := none
  gap : Option Signal := none

def kernelAbsent (a : SecretHit) : Program (Bool × String) :=
  catching
    (do
      let absent ← executeCode a.call .cleanup []
      return (absent, "the kernel did not confirm it"))
    fun text => return (false, s!"the kernel call failed ({text})")

def contentsAbsent (a : SecretHit) : Program (Bool × String) :=
  catching
    (do
      jobTransport a.transport
      arrive a.before
      match a.remove with
      | .error text => Prog.raise (.exception text)
      | .ok status =>
          arrive a.after
          return (decide (status = .ok ∨ status = .sessionLost),
            s!"Contents removal returned {status.name}"))
    fun text => return (false, s!"Contents removal failed ({text})")

/-- `cleanup_secret_channel`: whether the credential file is known to be absent. -/
def cleanupSecretChannel (a : SecretHit) : Program Bool := do
  let s ← Prog.get
  if s.prepared = false then return true
  else if s.session = false then
    Prog.modify fun s =>
      { s with secretProblem := some "no session to reach the VM with" }
    return false
  else
    let kernel ← kernelAbsent a
    let contents ← contentsAbsent a
    arrive a.gap
    if kernel.1 || contents.1 then
      Prog.modify fun s => { s with prepared := false, secretProblem := none }
      return true
    else
      Prog.modify fun s => { s with secretProblem := some s!"{kernel.2}; {contents.2}" }
      return false

/-- `secret_handoff or orch.cleanup_secret_channel()`. -/
def removeSecret (a : SecretHit) : Program Bool := do
  let s ← Prog.get
  if s.handoff then return true else cleanupSecretChannel a

def secretKeptVerdict (problem : Option String) : List (JobEnvelope -> JobEnvelope) :=
  let unconfirmed := "transfer credential deletion could not be confirmed"
  let detail := match nonempty problem with
    | some problem => s!" ({problem})"
    | none => ""
  [fun env => { env with reason := env.reason.or (some unconfirmed) },
    fun env => { env with retryClass := env.retryClass.or (some .doNotRetry) },
    fun env => env.addHint
      (unconfirmed ++ detail ++ "; forced VM teardown to remove the secret")]

/-!
## The `finally` block
-/

/-- The steps of the `finally` block. -/
structure FinallyHit where
  start : Option Signal := none
  secret : SecretHit := {}
  gaps : Gaps := fun _ => none
  /-- `detach` and its write. -/
  close : Hit := {}
  write : WriteHit := {}
  cleanup : CleanupHit := {}
  identity : Option Signal := none
  claim : Hit := {}
  spawn : Hit := {}
  spawnWrite : WriteHit := {}
  restore : Option Signal := none

/-- Leave the job to a later `status --poll`: cleanup stays pending. -/
def detach (a : FinallyHit) : Program Unit := do
  closeRuntime a.close
  persist a.write

def settleVm (plan : Plan) (a : FinallyHit) (secretRemoved : Bool) : Program Unit := do
  let s ← Prog.get
  let keep := keepVm s.env (some plan.spec) secretRemoved
  (if secretRemoved then pure ()
    else updates a.gaps (secretKeptVerdict s.secretProblem))
  if decide (s.env.supervisor = .interrupted) && secretRemoved then detach a
  else cleanup a.cleanup plan.jobId keep

/-- The detached poll that takes over from a supervisor stopped by SIGTERM or SIGHUP. -/
def handOff (plan : Plan) (a : FinallyHit) : Program Unit := do
  let s ← Prog.get
  if s.handOffLog && decide (s.env.cleanup = .pending) then
    match ← catching (do step a.spawn; return none) fun text => return some text with
    | none => return ()
    | some text =>
        modifyEnv fun env => env.addHint
          (s!"the VM is still billing: the detached poll could not start ({text}); run " ++
            s!"\x60mighty-colab job status {plan.jobId} --poll\x60 or " ++
            s!"\x60mighty-colab job destroy {plan.jobId}\x60")
        persist a.spawnWrite
  else return ()

def letGo (plan : Plan) (a : FinallyHit) : Program Unit := do
  arrive a.identity
  step a.claim
  handOff plan a
  arrive a.restore

/-- The `finally` block. -/
def finallyBlock (plan : Plan) (a : FinallyHit) : Program Unit := do
  arrive a.start
  let secretRemoved ← removeSecret a.secret
  settleVm plan a secretRemoved
  letGo plan a

/-!
## The command
-/

structure Answers where
  /-- What `read_envelope` raises. -/
  existing : Option String := none
  body : Body
  handler : Handler := {}
  finally_ : FinallyHit := {}
  emit : Option String := none

def newEnvelope (args : Args) : JobEnvelope :=
  { jobId := args.plan.jobId
    leaveUp := args.leaveUp
    keepAliveDisabled := args.noKeepalive }

/-- The process at the `try`: nothing assigned, on a disk left by earlier commands. -/
def start (args : Args) (disk : Option JobEnvelope) : Proc :=
  { env := newEnvelope args, disk }

/-- The `try` block with its `except` clauses. -/
def supervised (args : Args) (a : Answers) : Program Unit :=
  (body args a.body).attempt (handle args a.handler)

/-- From the `try` to the end of its `finally` block. -/
def run (args : Args) (a : Answers) : Program Unit :=
  Prog.ensure (supervised args a) (finallyBlock args.plan a.finally_)

/-- `_emit` and the exit code. -/
def report (a : Answers) : Program Unit := do
  attempted a.emit
  let s ← Prog.get
  if s.env.ok then return () else Prog.raise (.exit 1)

/-- `apply`, once it holds the claim: a job that already has an endpoint is refused. -/
def apply (args : Args) (a : Answers) (disk : Option JobEnvelope) :
    Outcome Raise Unit × Proc :=
  match a.existing with
  | some text => (.raised (.exception text), start args disk)
  | none =>
      if (disk.bind fun env => nonempty env.endpoint).isSome then
        (.raised (.exit 1), start args disk)
      else (do run args a; report a) (start args disk)

end Apply
end Job
end MightyColab
