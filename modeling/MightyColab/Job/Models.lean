import MightyColab.Lib.Json

/-!
# Job records

The spec, the plan and the envelope of a job, with the envelope's four state
fields and the two questions asked of them: is the job `done`, and is it `ok`.
-/

namespace MightyColab
namespace Job

open Lib

def graceSeconds : Nat := 5

/-!
## State fields
-/

inductive Workload where
  | pending | running | succeeded | failed | cancelled | unknown
  deriving DecidableEq, Repr, Inhabited

namespace Workload

def terminal : Workload -> Bool
  | succeeded | failed | cancelled | unknown => true
  | pending | running => false

def value : Workload -> String
  | pending => "pending"
  | running => "running"
  | succeeded => "succeeded"
  | failed => "failed"
  | cancelled => "cancelled"
  | unknown => "unknown"

def all : List Workload :=
  [pending, running, succeeded, failed, cancelled, unknown]

/-- `Workload(value)`, which raises for any other string. -/
def ofValue? (s : String) : Option Workload :=
  all.find? fun w => w.value = s

end Workload

inductive Offload where
  | pending | running | ok
  /-- The spec declared no artifacts. -/
  | notRequired
  /-- Artifacts were declared and deliberately not uploaded. -/
  | skipped
  | failed
  deriving DecidableEq, Repr, Inhabited

def Offload.terminal : Offload -> Bool
  | .ok | .notRequired | .skipped | .failed => true
  | .pending | .running => false

inductive Cleanup where
  | pending | running | released | alreadyAbsent | leftUp | failed
  deriving DecidableEq, Repr, Inhabited

namespace Cleanup

def terminal : Cleanup -> Bool
  | released | alreadyAbsent | leftUp | failed => true
  | pending | running => false

def value : Cleanup -> String
  | pending => "pending"
  | running => "running"
  | released => "released"
  | alreadyAbsent => "already_absent"
  | leftUp => "left_up"
  | failed => "failed"

/-- The values that say no VM is left: `{released, already_absent}`. -/
def gone : Cleanup -> Bool
  | released | alreadyAbsent => true
  | _ => false

end Cleanup

inductive Supervisor where
  | running
  /-- Transport is failing but the job is not known dead. -/
  | degraded
  | finished
  /-- The local supervisor died. -/
  | interrupted
  deriving DecidableEq, Repr, Inhabited

def Supervisor.terminal : Supervisor -> Bool
  | .finished | .interrupted => true
  | .running | .degraded => false

inductive RetryClass where
  | fixCode | fixHuman | retrySame | retryDifferent | refreshUrls | doNotRetry
  deriving DecidableEq, Repr, Inhabited

inductive Phase where
  | plan | provision | install | restart | verify | stage | run | offload | cleanup
  deriving DecidableEq, Repr, Inhabited

namespace Phase

def value : Phase -> String
  | plan => "plan"
  | provision => "provision"
  | install => "install"
  | restart => "restart"
  | verify => "verify"
  | stage => "stage"
  | run => "run"
  | offload => "offload"
  | cleanup => "cleanup"

def all : List Phase :=
  [plan, provision, install, restart, verify, stage, run, offload, cleanup]

/-- `Phase(value)`, which raises for any other string. -/
def ofValue? (s : String) : Option Phase :=
  all.find? fun p => p.value = s

end Phase

/-!
## Spec and plan
-/

structure Accelerator where
  prefer : List String := ["T4"]
  acceptCpu : Bool := false
  deriving DecidableEq, Repr, Inhabited

inductive CodeKind where
  | file | bundle
  deriving DecidableEq, Repr, Inhabited

structure CodeSpec where
  kind : CodeKind := .file
  root : Option String := none
  entry : String
  args : List String := []
  deriving DecidableEq, Repr, Inhabited

structure DataItem where
  url : String
  dest : String
  sha256 : Option String := none
  sizeBytes : Option Int := none
  deriving DecidableEq, Repr, Inhabited

structure ArtifactItem where
  path : String
  url : String
  required : Bool := true
  sizeBytes : Option Int := none
  deriving DecidableEq, Repr, Inhabited

structure ControlChannel where
  putUrl : String
  getUrl : String
  deriving DecidableEq, Repr, Inhabited

structure Control where
  result : Option ControlChannel := none
  log : Option ControlChannel := none
  deriving DecidableEq, Repr, Inhabited

structure Budgets where
  wallClock : Int := 3600
  artifactSyncIntervalSeconds : Option Int := none
  deriving DecidableEq, Repr, Inhabited

inductive RetryMode where
  | recreate | resume
  deriving DecidableEq, Repr, Inhabited

structure Retry where
  when : List RetryClass := [.retrySame]
  maxAttempts : Int := 1
  budgetSeconds : Int := 14400
  mode : RetryMode := .recreate
  deriving DecidableEq, Repr, Inhabited

inductive OnOffloadFail where
  | leaveUp | destroy
  deriving DecidableEq, Repr, Inhabited

inductive OnRunFail where
  | offloadAnyway | skip
  deriving DecidableEq, Repr, Inhabited

structure JobSpec where
  name : String
  code : CodeSpec
  accelerator : Accelerator := {}
  deps : List String := []
  data : List DataItem := []
  artifacts : List ArtifactItem := []
  control : Control := {}
  budgets : Budgets := {}
  retry : Retry := {}
  ignoreWarnings : Bool := false
  onOffloadFail : OnOffloadFail := .leaveUp
  onRunFail : OnRunFail := .offloadAnyway
  deriving DecidableEq, Repr, Inhabited

inductive Severity where
  | error | warn | info
  deriving DecidableEq, Repr, Inhabited

structure Diagnostic where
  severity : Severity
  code : String
  message : String
  retryClass : Option RetryClass := none
  hint : Option String := none
  deriving DecidableEq, Repr, Inhabited

/-- One source file that a plan covers. -/
structure SourceFileLock where
  path : String
  sizeBytes : Int
  sha256 : String
  deriving DecidableEq, Repr, Inhabited

/-- What `job plan` writes. The commands on an applied job read its spec only. -/
structure Plan where
  schemaVersion : String := "1"
  jobId : String
  specHash : String := ""
  createdAt : String := ""
  spec : JobSpec
  diagnostics : List Diagnostic := []
  urlExpiry : List (String × Option String) := []
  probedSizeBytes : List (String × Int) := []
  sourceSpecPath : Option String := none
  sourceFiles : List SourceFileLock := []
  deriving DecidableEq, Repr, Inhabited

def Plan.hasErrors (p : Plan) : Bool := p.diagnostics.any fun d => d.severity = .error

def Plan.hasWarnings (p : Plan) : Bool := p.diagnostics.any fun d => d.severity = .warn

/-!
## Envelope

Every record keeps the fields this CLI does not define in `extra`.
-/

inductive TransferCategory where
  | http | network | checksum | size | localDisk | blocked | setup | error
  deriving DecidableEq, Repr, Inhabited

structure TransferError where
  exception : String
  reason : String
  httpStatus : Option Int := none
  body : Option String := none
  category : Option TransferCategory := none
  extra : Json.Fields := []
  deriving Repr, Inhabited

/-- One line: the HTTP status line when there was a response, otherwise the
exception type and message. -/
def TransferError.summary (e : TransferError) : String :=
  if e.httpStatus.isSome then e.reason else s!"{e.exception}: {e.reason}"

inductive ArtifactStatus where
  | ok | failed | missing
  deriving DecidableEq, Repr, Inhabited

structure ArtifactResult where
  path : String
  urlId : String
  status : ArtifactStatus
  sha256 : Option String := none
  bytes : Option Int := none
  error : Option TransferError := none
  extra : Json.Fields := []
  deriving Repr, Inhabited

inductive InputStatus where
  | ok | failed
  deriving DecidableEq, Repr, Inhabited

structure InputResult where
  dest : String
  urlId : String
  status : InputStatus
  sha256 : Option String := none
  bytes : Option Int := none
  error : Option TransferError := none
  extra : Json.Fields := []
  deriving Repr, Inhabited

structure ComputeUnitReading where
  readAt : String
  balance : Json.FloatValue
  rateHourly : Json.FloatValue
  assignments : Int
  extra : Json.Fields := []
  deriving Repr, Inhabited

inductive ProvisionOutcome where
  | granted | failed | refusedCpu
  deriving DecidableEq, Repr, Inhabited

structure ProvisionAttempt where
  accelerator : String
  outcome : ProvisionOutcome
  granted : Option String := none
  httpStatus : Option Int := none
  error : Option String := none
  body : Option String := none
  retryClass : Option RetryClass := none
  extra : Json.Fields := []
  deriving Repr, Inhabited

private def orNone (s : Option String) : String := s.getD "None"

def ProvisionAttempt.summary (a : ProvisionAttempt) : String :=
  match a.outcome with
  | .granted => s!"{a.accelerator}: granted as {orNone a.granted}"
  | .refusedCpu =>
      s!"{a.accelerator}: granted as {orNone a.granted} and released, " ++
        "because accept_cpu is false"
  | .failed => s!"{a.accelerator}: {orNone a.error}"

inductive Installer where
  | uv | pip
  deriving DecidableEq, Repr, Inhabited

inductive InstallFailure where
  | resolution | build | auth | transient | timeout | unknown
  deriving DecidableEq, Repr, Inhabited

/-- One installer run during `install`. -/
structure InstallAttempt where
  installer : Installer
  version : String
  command : List String
  index : List (String × String) := []
  exitCode : Option Int := none
  timedOut : Bool := false
  seconds : Json.FloatValue
  failure : Option InstallFailure := none
  keyLines : List String := []
  extra : Json.Fields := []
  deriving Repr, Inhabited

structure JobEnvelope where
  schemaVersion : String := "2"
  cliVersion : String := ""
  runtimePayloadVersion : String := ""
  jobId : String
  phase : Phase := .plan
  /-- The phase whose failure decided the outcome, set at the first failure. -/
  failedPhase : Option Phase := none
  workload : Workload := .pending
  offload : Offload := .pending
  cleanup : Cleanup := .pending
  supervisor : Supervisor := .running
  session : Option String := none
  /-- Kept even when teardown fails: the handle to a VM that may still bill. -/
  endpoint : Option String := none
  requestedAccelerator : Option String := none
  actualAccelerator : Option String := none
  exitCode : Option Int := none
  signal : Option Int := none
  exception : Option (List (String × String)) := none
  survivingDescendants : List Int := []
  inputs : List InputResult := []
  artifacts : List ArtifactResult := []
  installAttempts : List InstallAttempt := []
  provisionAttempts : List ProvisionAttempt := []
  retryClass : Option RetryClass := none
  reason : Option String := none
  hints : List String := []
  leaveUp : Bool := false
  computeUnitsAtProvision : Option ComputeUnitReading := none
  computeUnitsAtRelease : Option ComputeUnitReading := none
  keepAliveDisabled : Bool := false
  attempt : Int := 1
  nextPollAfter : Int := 15
  startedAt : Option String := none
  finishedAt : Option String := none
  extra : Json.Fields := []
  deriving Repr, Inhabited

namespace JobEnvelope

def recordFailure (env : JobEnvelope) (phase : Phase) : JobEnvelope :=
  { env with failedPhase := env.failedPhase.or (some phase) }

def done (env : JobEnvelope) : Bool :=
  env.workload.terminal && env.offload.terminal && env.cleanup.terminal &&
    env.supervisor.terminal

/-- The job succeeded; `left_up` counts, because the caller asked for it. -/
def ok (env : JobEnvelope) : Bool :=
  env.workload = .succeeded && (env.offload = .ok || env.offload = .notRequired) &&
    (env.cleanup.gone || env.cleanup = .leftUp)

def addHint (env : JobEnvelope) (hint : String) : JobEnvelope :=
  { env with hints := env.hints ++ [hint] }

def addHints (env : JobEnvelope) (hints : List String) : JobEnvelope :=
  { env with hints := env.hints ++ hints }

/-- The three fields that a release must find closed. -/
def Settled (env : JobEnvelope) : Prop :=
  env.workload.terminal = true ∧ env.offload.terminal = true ∧
    env.supervisor.terminal = true

theorem done_of_settled {env : JobEnvelope} (h : env.Settled)
    (hgone : env.cleanup.gone = true) : env.done = true := by
  rcases h with ⟨hwork, hoff, hsup⟩
  have hclean : env.cleanup.terminal = true := by
    cases hc : env.cleanup <;> simp_all [Cleanup.gone, Cleanup.terminal]
  simp [done, hwork, hoff, hsup, hclean]

end JobEnvelope
end Job
end MightyColab
