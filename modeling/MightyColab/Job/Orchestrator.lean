import MightyColab.Job.Process

/-!
# From the plan to a launched runner

The phases of `Orchestrator` before the poll: provision with its keep-alive, install,
restart, verify, stage and launch. What a kernel call printed is given as what the code
makes of it: the hints of a success, or the refusal.
-/

namespace MightyColab
namespace Job

open Lib
open Transport (ReadStatus)

namespace Apply

/-!
## Provision
-/

structure Grant where
  endpoint : { e : String // e ≠ "" }
  /-- `res.accelerator.name` of a `PostAssignmentResponse`; an `Assignment` has none. -/
  accelerator : Option String
  deriving DecidableEq, Repr

/-- What `client.assign`, or the call before it, raised; the body is the excerpt that
`_failed_assign` keeps. -/
structure AssignError where
  /-- `TooManyAssignmentsError`. -/
  tooMany : Bool := false
  httpStatus : Option Int := none
  /-- It is a `RequestException`. -/
  network : Bool := false
  text : String
  body : Option String := none
  deriving DecidableEq, Repr

/-- How a request for an assignment ends: with the grant, or with an exception, whether
or not the server has granted a VM whose response is lost. -/
inductive AssignOutcome where
  | granted (grant : Grant)
  | failed (error : AssignError) (lost : Option Grant)
  deriving DecidableEq, Repr

/-- The requests of one pre-flight ping: accepted, refused for a missing OAuth scope, or
failed otherwise, with the hint that tolerates it. -/
inductive Ping where
  | accepted
  | scope
  | tolerated (hint : String)
  deriving DecidableEq, Repr

/-- The steps of `_start_keep_alive`. -/
structure KeepAliveHit where
  before : Option Signal := none
  ping : Ping := .accepted
  after : Option Signal := none
  release : ReleaseHit := {}
  gaps : Gaps := fun _ => none
  add : Hit := {}
  spawn : Hit := {}
  addAgain : Hit := {}

structure Candidate where
  start : Option Signal := none
  before : Option Signal := none
  outcome : AssignOutcome
  /-- A signal once the server has acted, before the response is in. -/
  during : Option Signal := none
  /-- Signals before the accelerator and the endpoint are in the envelope, and after. -/
  record : Gaps := fun _ => none
  /-- Signals around what follows. -/
  gaps : Gaps := fun _ => none
  release : ReleaseHit := {}
  emit : Hit := {}
  session : Hit := {}
  write : WriteHit := {}
  keepAlive : KeepAliveHit := {}
  units : UnitsHit := {}

def failedAssign (want : String) (error : AssignError) : ProvisionAttempt where
  accelerator := want
  outcome := .failed
  httpStatus := error.httpStatus
  error := some error.text
  body := error.body
  retryClass := some (Verdict.assignRetryClass error.httpStatus error.network)

def assigned (grant : Grant) (s : Proc) : Proc :=
  { s with
    live := grant.endpoint.val :: s.live
    log := .assigned grant.endpoint.val :: s.log }

/-- `client.assign`: the server's grant, or the error. -/
def assign (c : Candidate) : Program (Except AssignError Grant) := do
  arrive c.before
  match c.outcome with
  | .granted grant =>
      Prog.modify (assigned grant)
      arrive c.during
      return .ok grant
  | .failed error lost =>
      Prog.modify fun s => match lost with
        | some grant => assigned grant s
        | none => s
      arrive c.during
      return .error error

def tooManyAssignments (attempt : ProvisionAttempt) : PhaseError where
  phase := .provision
  reason := "account is at its concurrent-assignment limit: " ++
    attempt.error.getD "None" ++
    (match nonempty attempt.body with
      | some body => s!"; response body: {body}"
      | none => "")
  retryClass := some .fixHuman
  hints := ["run \x60mighty-colab sessions\x60 and stop what you are not using"]

def scopeMissing : PhaseError where
  phase := .provision
  reason := "keep-alive pre-flight failed: credentials are missing an OAuth scope " ++
    "required by Colab"
  retryClass := some .fixHuman
  hints := ["re-authenticate with the colaboratory and userinfo.email scopes"]

def releaseForScope (hit : KeepAliveHit) (endpoint : String) : Program Unit := do
  let (outcome, detail) ← releaseAssignment hit.release endpoint
  if outcome = .failed then
    updates hit.gaps [fun env =>
      env.addHint (s!"releasing {endpoint} after the keep-alive scope error failed " ++
        "(" ++ detail.getD "None" ++ "); it may still be billing")]
  else
    updates hit.gaps [fun env => { env with endpoint := none },
      fun env => { env with session := none }]
    Prog.modify fun s => { s with session := false, keepAlivePid := false }
  Prog.raise (.phase scopeMissing)

def preflight (hit : KeepAliveHit) (endpoint : String) : Program Unit := do
  arrive hit.before
  arrive hit.after
  match hit.ping with
  | .accepted => return ()
  | .tolerated hint => modifyEnv fun env => env.addHint hint
  | .scope => releaseForScope hit endpoint

def startKeepAlive (hit : KeepAliveHit) (endpoint : String) : Program Unit := do
  let s ← Prog.get
  if s.env.keepAliveDisabled then step hit.add
  else
    preflight hit endpoint
    step hit.add
    catching (step hit.spawn) fun text =>
      Prog.raise (.phase
        { phase := .provision
          reason := s!"the keep-alive daemon could not be started ({text}); " ++
            "the job was applied with keep-alive on, so it stops here: apply " ++
            "with --no-keepalive to run without one"
          retryClass := some .fixHuman })
    Prog.modify fun s => { s with keepAlivePid := true }
    step hit.addAgain

/-- A granted VM that the job can use: its session, its record on disk, its keep-alive
and the compute units. -/
def useGrant (jobId : String) (c : Candidate) (want : String) (grant : Grant)
    (attempts : List ProvisionAttempt) : Program Unit := do
  step c.session
  Prog.modify fun s => { s with session := true }
  updates c.gaps [fun env =>
    { env with
      session := some s!"job-{jobId}"
      provisionAttempts :=
        if attempts.isEmpty then env.provisionAttempts
        else attempts ++ [{
          accelerator := want, outcome := .granted, granted := grant.accelerator }] }]
  persist c.write
  startKeepAlive c.keepAlive grant.endpoint.val
  let reading ← computeUnits c.units "provision"
  modifyEnv fun env => { env with computeUnitsAtProvision := reading }
  step c.emit

def noAccelerator (candidates : List String) (attempts : List ProvisionAttempt) :
    PhaseError :=
  let retry := Verdict.strongest (attempts.map ProvisionAttempt.retryClass)
  let hints := match retry with
    | some .fixHuman =>
        ["Colab refused the account: a 400 means no quota or entitlement " ++
          "for that accelerator on this account's plan; 401/403 are its " ++
          "credentials or OAuth scope."]
    | some .retryDifferent =>
        ["Colab capacity varies by hour; a different accelerator in " ++
          "\x60accelerator.prefer\x60 is usually available sooner than the " ++
          "same one later.",
        "Set \x60accelerator.accept_cpu: true\x60 only if the workload is " ++
          "genuinely useful without a GPU."]
    | _ => []
  { phase := .provision
    reason :=
      (s!"no acceptable accelerator from {(Json.arr (candidates.map .str)).pyStr}: ") ++
        "; ".intercalate (attempts.map ProvisionAttempt.summary)
    retryClass := retry
    hints }

/-- What reading the accelerator of an `Assignment` raises. -/
def noAcceleratorField : String :=
  "AttributeError: 'Assignment' object has no attribute 'accelerator'"

def cpuOnly (want granted : String) : Bool :=
  decide ((granted = "NONE" ∨ granted = "UNRECOGNIZED") ∧ want ≠ "NONE")

def tryCandidates (jobId : String) (all : List String) :
    List String -> (Nat -> Candidate) -> List ProvisionAttempt -> Program Unit
  | want :: rest, answers, attempts => do
      let c := answers 0
      let later (n : Nat) : Candidate := answers (n + 1)
      arrive c.start
      modifyEnv fun env => { env with requestedAccelerator := some want }
      match ← assign c with
      | .error error =>
          if error.tooMany then
            let attempt := { failedAssign want error with retryClass := some .fixHuman }
            modifyEnv fun env => { env with provisionAttempts := attempts ++ [attempt] }
            Prog.raise (.phase (tooManyAssignments attempt))
          else
            step c.emit
            tryCandidates jobId all rest later (attempts ++ [failedAssign want error])
      | .ok grant =>
          match grant.accelerator with
          | none => Prog.raise (.exception noAcceleratorField)
          | some granted =>
              updates c.record
                [fun env => { env with actualAccelerator := some granted },
                  fun env => { env with endpoint := some grant.endpoint.val }]
              if cpuOnly want granted then
                let (outcome, detail) ← releaseAssignment c.release grant.endpoint.val
                if outcome = .failed then
                  Prog.raise (.phase
                    { phase := .provision
                      reason := s!"{want} was granted as {granted} and releasing it " ++
                        s!"({grant.endpoint.val}) failed: " ++ detail.getD "None"
                      retryClass := some .retrySame })
                else
                  updates c.gaps [fun env => { env with endpoint := none }]
                  tryCandidates jobId all rest later (attempts ++ [{
                    accelerator := want
                    outcome := .refusedCpu
                    granted := some granted
                    retryClass := some .retryDifferent }])
              else useGrant jobId c want grant attempts
  | [], _, attempts => do
      modifyEnv fun env => { env with provisionAttempts := attempts }
      Prog.raise (.phase (noAccelerator all attempts))

/-- The answers of one `provision`, with one candidate's for each that is tried. -/
structure Provision where
  phase : PhaseHit := {}
  candidates : Nat -> Candidate

def candidates (spec : JobSpec) : List String :=
  spec.accelerator.prefer ++ (if spec.accelerator.acceptCpu then ["NONE"] else [])

def provision (plan : Plan) (a : Provision) : Program Unit := do
  setPhase a.phase .provision
  tryCandidates plan.jobId (candidates plan.spec) (candidates plan.spec) a.candidates []

/-!
## Install, restart and verify
-/

structure Refusal where
  reason : String
  retryClass : RetryClass
  hints : List String := []
  deriving DecidableEq, Repr

def Refusal.error (r : Refusal) (phase : Phase) : Raise :=
  .phase { phase, reason := r.reason, retryClass := some r.retryClass, hints := r.hints }

def installLogHint : String :=
  "full installer output: install.log in the local job directory, copied " ++
    "from the VM before release"

structure Install where
  phase : PhaseHit := {}
  call : Kernel (Except Refusal (List String)) := { outcome := .ok (.ok []) }

def install (spec : JobSpec) (a : Install) : Program Unit := do
  if spec.deps.isEmpty then return ()
  else
    setPhase a.phase .install
    match ← executeCode a.call .install [installLogHint] with
    | .error refusal => Prog.raise (refusal.error .install)
    | .ok hints => modifyEnv fun env => env.addHints hints

structure RestartFailure where
  timedOut : Bool
  text : String

structure Restart where
  phase : PhaseHit := {}
  runtime : Hit := {}
  before : Option Signal := none
  failure : Option RestartFailure := none
  after : Option Signal := none
  sync : Hit := {}

def RestartFailure.error (f : RestartFailure) : Raise :=
  let what :=
    if f.timedOut then "kernel restart did not complete within 60s"
    else "kernel restart failed"
  .phase { phase := .restart, reason := s!"{what}: {f.text}", retryClass := some .retrySame }

def restart (spec : JobSpec) (a : Restart) : Program Unit := do
  if spec.deps.isEmpty then return ()
  else
    setPhase a.phase .restart
    runtimeHandle a.runtime
    Prog.ensure
      (do
        arrive a.before
        match a.failure with
        | some failure => Prog.raise failure.error
        | none => arrive a.after)
      (step a.sync)

structure Verify where
  phase : PhaseHit := {}
  call : Kernel (Except Refusal String) := { outcome := .ok (.ok "") }
  checks : Option Refusal := none
  write : WriteHit := {}

def verify (a : Verify) : Program Unit := do
  setPhase a.phase .verify
  match ← executeCode a.call .verify [] with
  | .error refusal => Prog.raise (refusal.error .verify)
  | .ok hint =>
      modifyEnv fun env => env.addHint hint
      match a.checks with
      | some refusal => Prog.raise (refusal.error .verify)
      | none => persist a.write

/-!
## Stage and launch
-/

def secretsRequired (spec : JobSpec) : Bool :=
  !spec.data.isEmpty || !spec.artifacts.isEmpty ||
    (spec.control.result.any fun channel => channel.putUrl ≠ "")

/-- How `stage_payload` ends. -/
inductive UploadOutcome where
  | ok
  | transportError (status : ReadStatus) (text : String)
  | valueError (text : String)
  | osError (text : String)
  | other (text : String)
  deriving DecidableEq, Repr

/-- `_stage_payload`'s classification. -/
def UploadOutcome.error : UploadOutcome -> Option Raise
  | .ok => none
  | .transportError status text =>
      some (.phase
        { phase := .stage
          reason := text
          retryClass :=
            some (if status = .sessionLost then .retryDifferent else .retrySame) })
  | .valueError text =>
      some (.phase
        { phase := .stage, reason := s!"staging refused: {text}"
          retryClass := some .fixCode })
  | .osError text =>
      some (.phase
        { phase := .stage, reason := s!"a local source file could not be read: {text}"
          retryClass := some .fixHuman })
  | .other text => some (.exception text)

/-- The steps of `_stage_payload`; the kernel calls give the text that refuses. -/
structure Stage where
  phase : PhaseHit := {}
  prepare : Kernel (Option String) := { outcome := .ok none }
  before : Option Signal := none
  upload : UploadOutcome := .ok
  after : Option Signal := none

def prepareSecretChannel (call : Kernel (Option String)) : Program Unit := do
  match ← executeCode call .stage [] with
  | some text =>
      Prog.raise (.phase
        { phase := .stage, reason := s!"credential channel preparation failed: {text}"
          retryClass := some .retrySame })
  | none => Prog.modify fun s => { s with prepared := true }

def stagePayload (spec : JobSpec) (a : Stage) : Program Unit := do
  setPhase a.phase .stage
  (if secretsRequired spec then prepareSecretChannel a.prepare else pure ())
  arrive a.before
  match a.upload.error with
  | some error => Prog.raise error
  | none =>
      Prog.modify fun s => { s with transport := true }
      arrive a.after

def sealSecretChannel (call : Kernel (Option String)) : Program Unit := do
  match ← executeCode call .stage [] with
  | some text =>
      Prog.raise (.phase
        { phase := .stage, reason := s!"credential channel sealing failed: {text}"
          retryClass := some .retrySame })
  | none => return ()

/-- The steps of `launch`: the call gives the pid's text, or the output without one. -/
structure Launch where
  phase : PhaseHit := {}
  call : Kernel (Except String String) := { outcome := .ok (.ok "1") }
  gaps : Gaps := fun _ => none
  /-- The time for `started_at`. -/
  now : String := ""
  write : WriteHit := {}
  /-- `int(pid)`. -/
  pid : Hit := {}

def markRunning (a : Launch) (hint : Option String) : Program Unit := do
  updates a.gaps
    [fun env => { env with workload := .running },
      fun env => { env with startedAt := some a.now },
      fun env => env.addHints hint.toList]
  persist a.write

/-- `launch`: whether it has the runner's pid. A launch whose reply was lost may have
started the runner, which the poll will tell. -/
def launch (a : Launch) : Program Bool := do
  setPhase a.phase .run
  let reply ← (do
      let output ← executeCode a.call .run []
      return Except.ok output).attempt fun e =>
    match e with
    | .phase error =>
        if error.transport then return .error error.reason else Prog.raise e
    | e => Prog.raise e
  match reply with
  | .error reason =>
      markRunning a (some (s!"the launch call's reply was lost ({reason}); the runner " ++
        "is observed through its files instead"))
      return false
  | .ok (.error text) =>
      Prog.raise (.phase
        { phase := .run, reason := s!"launch RPC returned no pid: {text}"
          retryClass := some .retrySame })
  | .ok (.ok _) =>
      markRunning a none
      step a.pid
      return true

end Apply
end Job
end MightyColab
