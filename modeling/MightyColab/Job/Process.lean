import MightyColab.Job.Observe
import MightyColab.Job.Command

/-!
# The process of `job apply`

The state of the process that runs `job apply`, the server's assignments with it, and
the elementary steps: signals that arrive between any two of them, local steps that
fail, envelope writes, kernel calls and requests to the server.

SIGINT raises `KeyboardInterrupt` wherever it arrives. SIGTERM and SIGHUP raise
`SupervisorStopped` once each, and are ignored from then on. A signal that arrives
inside a request finds it sent, answered or not.
-/

namespace MightyColab
namespace Job

open Lib
open Transport (ReadStatus)

namespace Apply

/-!
## Signals and errors
-/

inductive StopSignal where
  | sigterm
  | sighup
  deriving DecidableEq, Repr

/-- `signal.Signals(signum).name`. -/
def StopSignal.name : StopSignal -> String
  | .sigterm => "SIGTERM"
  | .sighup => "SIGHUP"

inductive Signal where
  | sigint
  | stop (signal : StopSignal)
  deriving DecidableEq, Repr

/-- `PhaseError`; `transport` is the field that `KernelCallError` adds. -/
structure PhaseError where
  phase : Phase
  reason : String
  retryClass : Option RetryClass
  hints : List String := []
  transport : Bool := false
  deriving DecidableEq, Repr

inductive Raise where
  /-- `KeyboardInterrupt`. -/
  | keyboard
  /-- `SupervisorStopped`. -/
  | stopped (signal : StopSignal)
  | phase (error : PhaseError)
  /-- Any other `Exception`, with the text `describe_error` makes of it. -/
  | exception (text : String)
  /-- `typer.Exit`. -/
  | exit (code : Nat)
  deriving DecidableEq, Repr

/-!
## The process
-/

/-- The process of one `job apply`, the disk, and the server's view of its VMs. -/
structure Proc where
  env : JobEnvelope
  /-- `envelope.json`. -/
  disk : Option JobEnvelope
  /-- The VMs it was assigned, the releases it has called and those confirmed, and the
  envelopes it has written, newest first. -/
  log : List Deed := []
  /-- The endpoints that the server has assigned to this apply and not released. -/
  live : List String := []
  /-- The signals that are ignored from now on. -/
  ignored : List StopSignal := []
  /-- `session_state` is set. -/
  session : Bool := false
  /-- `session_state.keep_alive_pid` is set. -/
  keepAlivePid : Bool := false
  /-- `_runtime` is set. -/
  runtime : Bool := false
  /-- `_job_transport` is set. -/
  transport : Bool := false
  /-- `_secret_channel_prepared`. -/
  prepared : Bool := false
  secretProblem : Option String := none
  runnerSeen : Bool := false
  staleness : WatchdogStaleness := {}
  lastWatchdogHint : Option String := none
  launchAbsentSince : Option Rat := none
  /-- `secret_handoff`. -/
  handoff : Bool := false
  /-- `hand_off_log` is set. -/
  handOffLog : Bool := false

abbrev Program (result : Type) := Prog Proc Raise result

/-!
## Elementary steps
-/

def arrive (signal : Option Signal) : Program Unit := do
  match signal with
  | none => return ()
  | some .sigint => Prog.raise .keyboard
  | some (.stop signal) =>
      let s ← Prog.get
      if signal ∈ s.ignored then return ()
      else
        Prog.modify fun s => { s with ignored := signal :: s.ignored }
        Prog.raise (.stopped signal)

structure Hit where
  before : Option Signal := none
  fault : Option String := none
  after : Option Signal := none

def attempted (fault : Option String) : Program Unit :=
  match fault with
  | none => pure ()
  | some text => Prog.raise (.exception text)

def step (hit : Hit) : Program Unit := do
  arrive hit.before
  attempted hit.fault
  arrive hit.after

def modifyEnv (f : JobEnvelope -> JobEnvelope) : Program Unit :=
  Prog.modify fun s => { s with env := f s.env }

abbrev Gaps := Nat -> Option Signal

/-- Assignments to the envelope, one after the other, with a signal before each and
one after the last. -/
def updates (gaps : Gaps) : List (JobEnvelope -> JobEnvelope) -> Program Unit
  | [] => arrive (gaps 0)
  | f :: rest => do
      arrive (gaps 0)
      modifyEnv f
      updates (fun n => gaps (n + 1)) rest

/-- One `write_envelope` and the signals around it. -/
structure WriteHit where
  before : Option Signal := none
  write : Write := {}
  after : Option Signal := none

def writeEnvelope (answer : Write) : Program Unit := fun s =>
  let (disk, error) := answer.perform s.env s.disk
  let log := if answer.lands then .wrote s.env :: s.log else s.log
  match error with
  | none => (.ok (), { s with disk, log })
  | some text => (.raised (.exception text), { s with disk, log })

def persist (hit : WriteHit) : Program Unit := do
  arrive hit.before
  writeEnvelope hit.write
  arrive hit.after

/-- The steps of one `_set_phase`. -/
structure PhaseHit where
  start : Option Signal := none
  event : Hit := {}
  write : WriteHit := {}
  emit : Hit := {}

def setPhase (hit : PhaseHit) (phase : Phase) : Program Unit := do
  arrive hit.start
  modifyEnv fun env => { env with phase := phase }
  step hit.event
  persist hit.write
  step hit.emit

/-- `try` with an `except Exception` clause, which a signal passes. -/
def catching {result : Type} (p : Program result) (handler : String -> Program result) :
    Program result :=
  p.attempt fun e =>
    match e with
    | .exception text => handler text
    | .phase error => handler error.reason
    | e => Prog.raise e

/-!
## The server
-/

/-- One `release_assignment` and what happens to its requests. -/
structure ReleaseHit where
  before : Option Signal := none
  /-- The server has reclaimed the VM by itself by the time of the request. -/
  reclaimed : Bool := false
  /-- What `unassign` raises, and whether the server released the VM all the same. -/
  failure : Option (ApiError × Bool) := none
  /-- A signal once the server has acted. -/
  during : Option Signal := none
  /-- What `list_assignments` raises, or what else it lists. -/
  listing : Except String (List (Option String)) := .ok []
  after : Option Signal := none

def confirmed (endpoint : String) (outcome : Cleanup) (s : Proc) : Proc :=
  if outcome = .failed then s else { s with log := .absent endpoint :: s.log }

/-- `release_assignment`; it is on record once its request is sent. A listing shows every
assignment there is. -/
def releaseAssignment (hit : ReleaseHit) (endpoint : String) :
    Program (Cleanup × Option String) := do
  arrive hit.before
  Prog.modify fun s => { s with log := .release endpoint :: s.log }
  let released := hit.reclaimed || (hit.failure.all fun failure => failure.2)
  Prog.modify fun s =>
    if released then { s with live := s.live.filter (· ≠ endpoint) } else s
  arrive hit.during
  let s ← Prog.get
  let answer : ReleaseAnswer :=
    { unassign := match hit.failure with
        | none => .ok ()
        | some (error, _) => .error error
      listing := hit.listing.map fun others => s.live.map some ++ others }
  let outcome := Job.releaseAssignment answer endpoint
  Prog.modify (confirmed endpoint outcome.1)
  arrive hit.after
  return outcome

/-- One `read_compute_units` and the signals around it. -/
structure UnitsHit where
  before : Option Signal := none
  answer : Except String ComputeUnitReading := .error ""
  after : Option Signal := none

def computeUnits (hit : UnitsHit) (moment : String) :
    Program (Option ComputeUnitReading) := do
  arrive hit.before
  let s ← Prog.get
  let (reading, env) := readComputeUnits hit.answer moment s.env
  modifyEnv fun _ => env
  arrive hit.after
  return reading

/-- `job_transport`: the transport is made once. -/
def jobTransport (hit : Hit) : Program Unit := do
  let s ← Prog.get
  if s.transport then return ()
  else
    step hit
    Prog.modify fun s => { s with transport := true }

/-!
## The kernel
-/

inductive KernelFault where
  /-- The cell was interrupted. -/
  | interrupted
  /-- The connection failed. -/
  | transport
  | other
  deriving DecidableEq, Repr

structure KernelFailure where
  fault : KernelFault
  text : String
  deriving DecidableEq, Repr

/-- `KernelCallError`. -/
def KernelFailure.error (f : KernelFailure) (phase : Phase) (hints : List String) :
    PhaseError :=
  let what := match f.fault with
    | .interrupted => "kernel interrupted"
    | .transport => "kernel connection failed"
    | .other => "kernel call failed"
  { phase
    reason := s!"{what} during {phase.value}: {f.text}"
    retryClass := some (if f.fault = .other then .doNotRetry else .retrySame)
    hints
    transport := decide (f.fault ≠ .other) }

/-- One `_execute_code`: the runtime's construction, the call and what its output says,
and the session record's update after it. -/
structure Kernel (result : Type) where
  runtime : Hit := {}
  before : Option Signal := none
  outcome : Except KernelFailure result
  after : Option Signal := none
  sync : Hit := {}

def runtimeHandle (hit : Hit) : Program Unit := do
  let s ← Prog.get
  if s.runtime then return ()
  else
    step hit
    Prog.modify fun s => { s with runtime := true }

def executeCode {result : Type} (call : Kernel result) (phase : Phase)
    (hints : List String) : Program result := do
  runtimeHandle call.runtime
  Prog.ensure
    (do
      arrive call.before
      match call.outcome with
      | .error failure => Prog.raise (.phase (failure.error phase hints))
      | .ok value =>
          arrive call.after
          return value)
    (step call.sync)

end Apply
end Job
end MightyColab
