import MightyColab.Job.Orchestrator

/-!
# Apply's poll

`Orchestrator.poll` and what ends it: the runner's result, a lost assignment, a runner
that is dead or never started, or the deadline, after which the runner is cancelled.
One pass of the loop sees one `Tick`; a run whose ticks are used up is still polling.
-/

namespace MightyColab
namespace Job

open Lib
open Transport (ReadStatus)

namespace Apply

/-!
## Absorbing
-/

/-- The envelope when the first `k` of its fields, in the order of the model, have been
set to their new values. -/
def partlySet (k : Nat) (old new : JobEnvelope) : JobEnvelope :=
  let at_ {alpha : Type} (i : Nat) (f : JobEnvelope -> alpha) : alpha :=
    f (if i < k then new else old)
  { schemaVersion := at_ 0 (·.schemaVersion)
    cliVersion := at_ 1 (·.cliVersion)
    runtimePayloadVersion := at_ 2 (·.runtimePayloadVersion)
    jobId := at_ 3 (·.jobId)
    phase := at_ 4 (·.phase)
    failedPhase := at_ 5 (·.failedPhase)
    workload := at_ 6 (·.workload)
    offload := at_ 7 (·.offload)
    cleanup := at_ 8 (·.cleanup)
    supervisor := at_ 9 (·.supervisor)
    session := at_ 10 (·.session)
    endpoint := at_ 11 (·.endpoint)
    requestedAccelerator := at_ 12 (·.requestedAccelerator)
    actualAccelerator := at_ 13 (·.actualAccelerator)
    exitCode := at_ 14 (·.exitCode)
    signal := at_ 15 (·.signal)
    exception := at_ 16 (·.exception)
    survivingDescendants := at_ 17 (·.survivingDescendants)
    inputs := at_ 18 (·.inputs)
    artifacts := at_ 19 (·.artifacts)
    installAttempts := at_ 20 (·.installAttempts)
    provisionAttempts := at_ 21 (·.provisionAttempts)
    retryClass := at_ 22 (·.retryClass)
    reason := at_ 23 (·.reason)
    hints := at_ 24 (·.hints)
    leaveUp := at_ 25 (·.leaveUp)
    computeUnitsAtProvision := at_ 26 (·.computeUnitsAtProvision)
    computeUnitsAtRelease := at_ 27 (·.computeUnitsAtRelease)
    keepAliveDisabled := at_ 28 (·.keepAliveDisabled)
    attempt := at_ 29 (·.attempt)
    nextPollAfter := at_ 30 (·.nextPollAfter)
    startedAt := at_ 31 (·.startedAt)
    finishedAt := at_ 32 (·.finishedAt)
    extra := at_ 33 (·.extra) }

/-- The steps of one `_absorb_or_keep`: a signal may find the envelope's fields partly
set. -/
structure AbsorbHit where
  before : Option Signal := none
  /-- The time for a result without one. -/
  now : String := ""
  during : Option (Signal × Nat) := none
  after : Option Signal := none
  gaps : Gaps := fun _ => none
  write : WriteHit := {}

/-- A signal finds the first `k` fields set. -/
def setPartly (during : Option (Signal × Nat)) (env : JobEnvelope) : Program Unit := do
  match during with
  | some (signal, k) =>
      modifyEnv fun old => partlySet k old env
      arrive (some signal)
  | none => return ()

/-- `_absorb_result`, or the text of what it raises. -/
def absorbResult (spec : JobSpec) (hit : AbsorbHit) (result : Json.Fields) :
    Program (Option String) := do
  arrive hit.before
  let s ← Prog.get
  match Absorb.absorbResult s.env spec result hit.now with
  | .error error => return some error
  | .ok env =>
      setPartly hit.during env
      modifyEnv fun _ => env
      arrive hit.after
      return none

def keepAbsorbed (hit : AbsorbHit) : Program Unit := do
  updates hit.gaps [fun env => { env with supervisor := .finished }]
  persist hit.write

/-!
## Without a result
-/

/-- The steps of one `_finish_without_result`. -/
structure Finish where
  /-- A signal before and after `control.result` is fetched. -/
  before : Option Signal := none
  /-- The error's text is redacted. -/
  fetch : Except String Json.Fields := .error ""
  after : Option Signal := none
  absorb : AbsorbHit := {}
  gaps : Gaps := fun _ => none
  /-- The time for `finished_at`. -/
  now : String := ""
  pull : Option Signal := none
  write : WriteHit := {}

def recoverControlResult (spec : JobSpec) (a : Finish) :
    Program (Option Json.Fields) := do
  match spec.control.result.filter fun channel => channel.getUrl ≠ "" with
  | none => return none
  | some _ =>
      arrive a.before
      match a.fetch with
      | .error text =>
          modifyEnv fun env => env.addHint s!"control.result could not be read: {text}"
          return none
      | .ok result =>
          arrive a.after
          let workload := result.get "workload"
          match isTerminalValue workload with
          | .error text => Prog.raise (.exception text)
          | .ok true => return some result
          | .ok false =>
              modifyEnv fun env => env.addHint
                s!"control.result holds no terminal result (workload={workload.pyRepr})"
              return none

def unknownVerdict (spec : JobSpec) (reason now : String) :
    List (JobEnvelope -> JobEnvelope) :=
  [fun env => { env with workload := .unknown },
    fun env => { env with
      offload :=
        if env.offload.terminal then env.offload
        else if spec.artifacts.isEmpty then .notRequired
        else .skipped },
    fun env => { env with supervisor := .finished },
    fun env => { env with reason := some reason },
    fun env => { env with retryClass := some .retrySame },
    fun env => { env with finishedAt := some now },
    fun env => env.recordFailure .run]

def unabsorbedReason (error : String) (result : Json.Fields) : String :=
  s!"runner result could not be absorbed ({error}); raw result: {rawVerdict result}"

/-- `_finish_without_result`. A result recovered from `control.result` that cannot be
absorbed ends here again, until the interpreter's recursion limit. -/
def finishWithoutResult (spec : JobSpec) : List Finish -> String -> Program Unit
  | [], _ => Prog.raise (.exception "RecursionError: maximum recursion depth exceeded")
  | a :: rest, reason => do
      match ← recoverControlResult spec a with
      | some result =>
          let error ← absorbResult spec a.absorb result
          (match error with
            | some error => finishWithoutResult spec rest (unabsorbedReason error result)
            | none => keepAbsorbed a.absorb)
          modifyEnv fun env => env.addHint s!"result read from control.result after: {reason}"
      | none =>
          updates a.gaps (unknownVerdict spec reason a.now)
          arrive a.pull
          persist a.write

def absorbOrKeep (spec : JobSpec) (hit : AbsorbHit) (endings : List Finish)
    (result : Json.Fields) : Program Unit := do
  match ← absorbResult spec hit result with
  | some error => finishWithoutResult spec endings (unabsorbedReason error result)
  | none => keepAbsorbed hit

/-!
## One pass
-/

def launchRecordGraceSeconds : Rat := 120

def launchAbsenceConfirmSeconds : Rat := 90

/-- One `read_json` and the signals around it. -/
structure ReadHit where
  before : Option Signal := none
  read : JsonRead := .ok (none, .notFound)
  after : Option Signal := none

/-- What one pass of the loop sees. -/
structure Tick where
  /-- `time.time()`. -/
  time : Rat
  result : ReadHit := {}
  absorb : AbsorbHit := {}
  /-- The endings that this pass may come to. -/
  endings : List Finish := []
  note : TransportNote := {}
  watchdog : ReadHit := {}
  /-- `time.monotonic()` for the watchdog. -/
  clock : Rat := 0
  /-- `_seconds_since_launch()` when the launch time can be parsed. -/
  sinceLaunch : Option Rat := none
  launch : ReadHit := {}
  /-- `time.monotonic()` when launch.json is first absent, and at the comparison. -/
  absentFrom : Rat := 0
  absentNow : Rat := 0
  late : ReadHit := {}
  pull : Option Signal := none
  write : WriteHit := {}
  sleep : Option Signal := none

def readJson (hit : ReadHit) : Program (Option Json.Fields × ReadStatus) := do
  arrive hit.before
  match hit.read with
  | .error text => Prog.raise (.exception text)
  | .ok read =>
      arrive hit.after
      return read

/-- `_absorb_late_result`: whether there was one. -/
def absorbLateResult (spec : JobSpec) (t : Tick) : Program Bool := do
  match okRecord (← readJson t.late) with
  | some result =>
      absorbOrKeep spec t.absorb t.endings result
      return true
  | none => return false

def runnerGone (spec : JobSpec) (t : Tick) (reason : String) : Program Unit := do
  if ← absorbLateResult spec t then return ()
  else finishWithoutResult spec t.endings reason

def deadReason (record : Json.Fields) : String :=
  let elapsed := (Json.Fields.get record "elapsed").pyStr
  let remaining := (Json.Fields.get record "remaining").pyStr
  "the runner is dead and wrote no result.json " ++
    s!"(watchdog: elapsed={elapsed}s, remaining={remaining}s); its last output " ++
    "is in runner.log"

def neverStartedReason (since : Rat) : String :=
  s!"the runner never started: no launch.json {wholeSeconds since}s after launch; its " ++
    "error output is in runner.log"

def watchdogRead (spec : JobSpec) (t : Tick) (record : Json.Fields) : Program Bool := do
  let s ← Prog.get
  let hint := watchdogHint record
  let (stalled, staleness) := s.staleness.observe t.clock record
  Prog.modify fun s => { s with
    runnerSeen := true, lastWatchdogHint := some hint, staleness
    env :=
      let env := replaceHint watchdogStalledLead stalled
        (replaceHint watchdogHintLead (some hint) s.env)
      { env with reason := stalled.or env.reason } }
  match Json.Fields.get record "runner_alive" with
  | .bool false =>
      runnerGone spec t (deadReason record)
      return true
  | _ => return false

/-- No watchdog record, and none seen before: launch.json says whether the runner has
started, and its lasting absence that it never will. -/
def launchRead (spec : JobSpec) (t : Tick) : Program Bool := do
  let s ← Prog.get
  match (nonempty s.env.startedAt).bind fun _ => t.sinceLaunch with
  | none => return false
  | some since =>
      if since ≤ launchRecordGraceSeconds then return false
      else
        let (_, status) ← readJson t.launch
        Prog.modify fun s =>
          if status = .ok then { s with runnerSeen := true, launchAbsentSince := none }
          else if status = .notFound then
            { s with launchAbsentSince := s.launchAbsentSince.or (some t.absentFrom) }
          else s
        let s ← Prog.get
        if status = .notFound ∧ (s.launchAbsentSince.any fun absent =>
            decide (launchAbsenceConfirmSeconds ≤ t.absentNow - absent)) = true then
          runnerGone spec t (neverStartedReason since)
          return true
        else return false

def healthy (spec : JobSpec) (t : Tick) : Program Bool := do
  modifyEnv fun env => { env with supervisor := .running, reason := none }
  let watchdog ← readJson t.watchdog
  let s ← Prog.get
  let ended ← (match okRecord watchdog with
    | some record => watchdogRead spec t record
    | none =>
        if watchdog.2 = .notFound ∧ s.runnerSeen = false then launchRead spec t
        else return false)
  if ended then return true
  else
    arrive t.pull
    return false

/-- One pass: whether the poll is over. The number counts the degraded reads that led
up to it. -/
def tick (spec : JobSpec) (t : Tick) (degraded : Nat) : Program Bool := do
  let read ← readJson t.result
  match okRecord read with
  | some result =>
      absorbOrKeep spec t.absorb t.endings result
      return true
  | none =>
      if read.2 = .sessionLost then
        let s ← Prog.get
        finishWithoutResult spec t.endings (lostAssignmentReason s.env)
        return true
      else
        let ended ← (if read.2 = .degraded then do
            modifyEnv fun env => { env with
              supervisor := .degraded
              reason := some (degradedReason t.note (some (degraded + 1))) }
            return false
          else healthy spec t)
        if ended then return true
        else
          persist t.write
          arrive t.sleep
          return false

/-!
## The poll
-/

/-- The steps when the deadline has passed. -/
structure Deadline where
  gaps : Gaps := fun _ => none
  write : WriteHit := {}

def deadlinePassed (a : Deadline) : Program Unit := do
  let s ← Prog.get
  let last := match nonempty s.lastWatchdogHint with
    | some hint => s!" (last watchdog read: {hint})"
    | none => " (watchdog.json was never read)"
  updates a.gaps
    [fun env => { env with supervisor := .interrupted },
      fun env => { env with
        reason := some ("local supervisor deadline reached before a verdict" ++ last) },
      fun env => { env with retryClass := some .retrySame }]
  persist a.write

def poll (spec : JobSpec) (deadline : Rat) (a : Deadline) :
    List Tick -> Nat -> Program Unit
  | [], _ => Prog.exit
  | t :: rest, degraded => do
      if t.time < deadline then
        if ← tick spec t degraded then return ()
        else
          let degraded := match t.result.read with
            | .ok (_, .degraded) => degraded + 1
            | _ => 0
          poll spec deadline a rest degraded
      else deadlinePassed a

/-- The steps of `cancel_after_deadline`. -/
structure CancelHit where
  before : Option Signal := none
  request : Except String ReadStatus := .ok .ok
  /-- A signal while it waits for the result. -/
  wait : Option Signal := none
  looks : Nat -> Look := fun _ => ⟨.error "", .error "", .error ""⟩
  absorb : AbsorbHit := {}
  endings : List Finish := []
  gaps : Gaps := fun _ => none
  write : WriteHit := {}

/-- The end of the wait: reaching the deadline is a failure of the run, whatever the
runner reports after. -/
def cancelOutcome (spec : JobSpec) (passed requester : String) (a : CancelHit) :
    Program Unit := do
  let (note, confirmed) := requestCancel a.request
  match awaitRunnerResult a.looks runnerStopWaitSeconds with
  | .ok result =>
      absorbOrKeep spec a.absorb a.endings result
      updates a.gaps
        [fun env => env.recordFailure .run,
          fun env => { env with
            reason := some
              (deadlineReason passed note confirmed requester result env.reason) },
          fun env => { env with retryClass := env.retryClass.or (some .retrySame) }]
  | .error why => finishWithoutResult spec a.endings s!"{passed}; {note}; {why}"

def cancelAfterDeadline (spec : JobSpec) (passed requester : String) (a : CancelHit) :
    Program Unit := do
  arrive a.before
  arrive a.wait
  cancelOutcome spec passed requester a
  modifyEnv fun env => env.addHint
    "if the work needs longer, raise apply's --timeout or budgets.wall_clock"
  persist a.write

end Apply
end Job
end MightyColab
