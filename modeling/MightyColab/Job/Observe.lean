import MightyColab.Job.Absorb
import MightyColab.Job.Release

/-!
# Reading a job from outside its VM

What `status`, `destroy` and `apply` share when they look at a job's records: the
stored plan, a result absorbed under whatever plan can be read, the result that the
runner PUT to `control.result`, the observation of the VM's files, and the wait for a
result after a cancel request.
-/

namespace MightyColab
namespace Job

open Lib
open Transport (ReadStatus)

/-!
## The stored plan
-/

/-- Why the stored plan was not read: a `ValueError`, which some callers catch, or any
other exception. -/
inductive PlanError where
  | invalid (text : String)
  | failed (text : String)
  deriving DecidableEq, Repr

def PlanError.text : PlanError -> String
  | .invalid text | .failed text => text

/-- One `read_plan` or `read_plan_for_apply`; no plan when there is no file. -/
abbrev PlanRead := Except PlanError (Option Plan)

/-- One `read_json`: a record only with OK. -/
abbrev JsonRead := Except String (Option Json.Fields × ReadStatus)

/-!
## Absorbing under whatever plan there is
-/

/-- The plan and the time that one `_absorb_remote_result` meets. -/
structure Absorption where
  plan : PlanRead
  now : String

/-- `_absorb_remote_result`. Without a plan file only the workload's own fields are
taken; the offload stays as it was. -/
def absorbRemoteResult (env : JobEnvelope) (plan : PlanRead) (result : Json.Fields)
    (now : String) : Except String JobEnvelope :=
  match plan with
  | .error error => .error error.text
  | .ok (some plan) => Absorb.absorbResult env plan.spec result now
  | .ok none => do
      let env ← Absorb.absorbProvenance env result
      let workload ← Absorb.workloadOf result
      let exitCode ← Absorb.optInt "exit_code" (result.get "exit_code")
      let signal ← Absorb.optInt "signal" (result.get "signal")
      let exception ← Absorb.exceptionRecord (result.get "exception")
      return { env with workload, exitCode, signal, exception }

/-- Absorbing keeps the VM's fields and takes the result's workload, and closes the
offload when there is a plan. -/
theorem absorbRemoteResult_spec {env env' : JobEnvelope} {plan : PlanRead}
    {result : Json.Fields} {now : String}
    (h : absorbRemoteResult env plan result now = .ok env') :
    Absorb.SameVm env env' ∧ Absorb.workloadOf result = .ok env'.workload ∧
      ((exists p, plan = .ok (some p) ∧ env'.offload.terminal = true) ∨
        (plan = .ok none ∧ env'.offload = env.offload)) := by
  unfold absorbRemoteResult at h
  split at h
  · cases h
  · next p =>
      rcases Absorb.absorbResult_spec h with ⟨hvm, hwork, hoff⟩
      exact ⟨hvm, hwork, Or.inl ⟨p, rfl, hoff⟩⟩
  · obtain ⟨env1, hprov, h⟩ := Fallible.bind_ok h
    obtain ⟨workload, hwork, h⟩ := Fallible.bind_ok h
    obtain ⟨exitCode, -, h⟩ := Fallible.bind_ok h
    obtain ⟨signal, -, h⟩ := Fallible.bind_ok h
    obtain ⟨exception, -, h⟩ := Fallible.bind_ok h
    cases h
    rcases Absorb.absorbProvenance_sameVm hprov with ⟨hvm, _, hoff⟩
    exact ⟨⟨hvm.1, hvm.2, hvm.3, hvm.4, hvm.5, hvm.6⟩, hwork, Or.inr ⟨rfl, hoff⟩⟩

def rawVerdict (result : Json.Fields) : String :=
  let fields := ["schema_version", "workload", "exit_code", "signal", "offload", "phase"]
  " ".intercalate (fields.filterMap fun name =>
    (result.lookup name).map fun value => s!"{name}={value.pyRepr}")

/-!
## The result at `control.result`
-/

/-- `value in {w.value for w in Workload if w.terminal}`, which cannot be asked of an
unhashable value. -/
def isTerminalValue (value : Json) : Except String Bool :=
  if value.hashable then
    .ok (Workload.all.any fun w => w.terminal && decide (value.asStr? = some w.value))
  else .error s!"TypeError: unhashable type: {Json.reprStr value.typeName}"

/-- The answers to one attempt at `control.result`; the text of a failed fetch is
redacted. -/
structure OffVm where
  /-- `read_plan_for_apply`. -/
  plan : PlanRead
  fetch : Except String Json.Fields
  /-- `read_plan` inside `_absorb_remote_result`. -/
  absorbPlan : PlanRead
  now : String

/-- `_read_off_vm_result`: a terminal result, or why there is none when
`control.result` is configured. Only a `ValueError` of the plan is caught. -/
def readOffVmResult (answer : OffVm) :
    Except String (Option Json.Fields × Option String) :=
  match answer.plan with
  | .error (.failed text) => .error text
  | .error (.invalid text) => .ok (none, some s!"the plan could not be loaded ({text})")
  | .ok plan =>
      match plan.bind fun plan => plan.spec.control.result with
      | none => .ok (none, none)
      | some _ =>
          match answer.fetch with
          | .error text => .ok (none, some text)
          | .ok result =>
              let workload := result.get "workload"
              match isTerminalValue workload with
              | .error text => .error text
              | .ok true => .ok (some result, none)
              | .ok false =>
                  .ok (none, some s!"it holds no terminal result (workload={workload.pyRepr})")

/-- `_recover_off_vm_result`: whether a result was absorbed, and the envelope with it,
or with a hint saying why not. -/
def recoverOffVmResult (answer : OffVm) (env : JobEnvelope) :
    Except String (Bool × JobEnvelope) :=
  match readOffVmResult answer with
  | .error text => .error text
  | .ok (none, problem) =>
      .ok (false, match nonempty problem with
        | some problem => env.addHint s!"control.result could not be used: {problem}"
        | none => env)
  | .ok (some result, _) =>
      match absorbRemoteResult env answer.absorbPlan result answer.now with
      | .ok recovered => .ok (true, recovered)
      | .error error =>
          .ok (false, env.addHint (s!"control.result could not be absorbed ({error}); " ++
            s!"raw result: {rawVerdict result}"))

/-!
## The VM's files
-/

/-- `_scrub_transfer_secret`: whether the file is removed, and why not. -/
def scrubReport (remove : Except String ReadStatus) : Bool × Option String :=
  match remove with
  | .error error => (false, some s!"removing it failed ({error})")
  | .ok .ok => (true, none)
  | .ok status => (false, some s!"removing it returned {status.name}")

/-- `repr` of an optional string. -/
def reprOption (value : Option String) : String :=
  match value with
  | some s => Json.reprStr s
  | none => "None"

/-- The reads of one `observe_remote`. -/
structure Look where
  result : JsonRead
  launch : JsonRead
  watchdog : JsonRead

/-- What `observe_remote` returns. -/
inductive Observation where
  | result (fields : Json.Fields)
  | sessionLost
  | degraded
  | neverStarted
  | launchInvalid (launch : Json.Fields)
  | runnerDead (record : Json.Fields)
  | runnerAlive (record : Option Json.Fields)
  deriving Repr

def okRecord : Option Json.Fields × ReadStatus -> Option Json.Fields
  | (some fields, .ok) => if fields.isEmpty then none else some fields
  | _ => none

theorem okRecord_ok {read : Option Json.Fields × ReadStatus} {record : Json.Fields}
    (h : okRecord read = some record) : read.2 = .ok := by
  rcases read with ⟨fields, status⟩
  cases fields with
  | none => cases h
  | some fields =>
      cases status with
      | ok => rfl
      | notFound | degraded | sessionLost => cases h

def watchdogVerdict (record : Option Json.Fields) : Observation :=
  match record with
  | some fields =>
      match Json.Fields.get fields "runner_alive" with
      | .bool false => .runnerDead fields
      | _ => .runnerAlive (some fields)
  | none => .runnerAlive none

/-- `launch.json` names a runner: a pid, a start time and a boot id. -/
def launchValid (launch : Json.Fields) : Bool :=
  (Json.Fields.get launch "pid").asInt?.isSome &&
    (Json.Fields.get launch "starttime").asStr?.isSome &&
    (Json.Fields.get launch "boot_id").asStr?.isSome

def observeRemote (look : Look) : Except String Observation := do
  let result ← look.result
  if result.2 = .sessionLost then return .sessionLost
  else
    match okRecord result with
    | some fields => return .result fields
    | none =>
        if result.2 = .degraded then return .degraded
        else
          let launch ← look.launch
          if launch.2 = .sessionLost then return .sessionLost
          else if launch.2 = .degraded then return .degraded
          else
            match okRecord launch with
            | none => return .neverStarted
            | some fields =>
                if !launchValid fields then return .launchInvalid fields
                else
                  let watchdog ← look.watchdog
                  if watchdog.2 = .sessionLost then return .sessionLost
                  else return watchdogVerdict (okRecord watchdog)

def lostAssignmentReason (env : JobEnvelope) : String :=
  let reason := "the assignment is gone from the server"
  if env.keepAliveDisabled then
    reason ++ "; keep-alive was off (--no-keepalive), so nothing pinged the " ++
      "assignment while the job ran: if this recurs, apply without --no-keepalive"
  else reason

/-- The transport's own account of its failures: `last_problem` and
`listing_note()`. -/
structure TransportNote where
  lastProblem : Option String := none
  listing : Option String := none

def degradedReason (note : TransportNote) (polls : Option Nat) : String :=
  let text := match polls with
    | some polls => s!"transport failing for {polls} polls"
    | none => "transport failing"
  let last := match note.lastProblem with
    | some problem => s!" (last: {problem})"
    | none => ""
  let listing := match note.listing with
    | some listing => s!"; {listing}"
    | none => ""
  text ++ last ++ listing

/-!
## The watchdog
-/

def watchdogStaleSeconds : Rat := 300

def watchdogHintLead : String := "watchdog: "

def watchdogStalledLead : String := "watchdog stalled: "

/-- `WatchdogStaleness`: the last `ts` and since when it has been the same. -/
structure WatchdogStaleness where
  ts : Json := .null
  since : Option Rat := none

/-- `f"{seconds:.0f}"`. -/
def wholeSeconds (seconds : Rat) : String := toString (Absorb.roundHalfEven seconds)

/-- `WatchdogStaleness.observe`: the stall in words, and the staleness after it. -/
def WatchdogStaleness.observe (s : WatchdogStaleness) (now : Rat)
    (record : Json.Fields) : Option String × WatchdogStaleness :=
  let ts := record.get "ts"
  match s.since with
  | none => (none, ⟨ts, some now⟩)
  | some since =>
      if ts.pyEq s.ts then
        let unchanged := now - since
        if unchanged < watchdogStaleSeconds then (none, s)
        else
          (some (s!"watchdog.json has not changed for {wholeSeconds unchanged}s " ++
            s!"(ts={ts.pyStr}): the watchdog has stopped, or cannot write its record " ++
            "(for example a full disk), so whether the runner is alive is unknown"), s)
      else (none, ⟨ts, some now⟩)

def watchdogHint (record : Json.Fields) : String :=
  let text (name : String) : String := (record.get name).pyStr
  let gpu :=
    if (record.get "gpu").isNull && (record.get "gpu_error").truthy then
      "none (" ++ text "gpu_error" ++ ")"
    else text "gpu"
  let identity :=
    if (record.get "runner_identity_error").truthy then
      " (" ++ text "runner_identity_error" ++ ")"
    else ""
  "t=" ++ text "elapsed" ++ "s remaining=" ++ text "remaining" ++ s!"s gpu={gpu} " ++
    "disk_free=" ++ text "disk_free_bytes" ++ " runner_alive=" ++ text "runner_alive" ++
    identity

/-!
## Cancelling
-/

/-- `request_cancel`: a note, and whether the write was confirmed. -/
def requestCancel (write : Except String ReadStatus) : String × Bool :=
  match write with
  | .error error => (s!"cancel intent not written ({error})", false)
  | .ok .ok => ("cancel requested", true)
  | .ok status => (s!"cancel intent not confirmed ({status.name})", false)

def runnerResultPollSeconds : Nat := 5

def runnerStopWaitSeconds : Nat := 300

/-- The number of polls in `wait` seconds. -/
def waitPolls (wait : Nat) : Nat :=
  (wait + runnerResultPollSeconds - 1) / runnerResultPollSeconds

/-- The loop of `await_runner_result`: `left` polls to go, `unreadable` so far. -/
def awaitPolls (looks : Nat -> Look) (wait polls : Nat) :
    Nat -> Nat -> Except String Json.Fields
  | 0, unreadable =>
      if polls ≠ 0 ∧ unreadable = polls then
        .error (s!"no result.json could be read within {wait}s of the cancel request: " ++
          s!"every one of {polls} reads of the runner's records failed")
      else .error s!"the runner wrote no result.json within {wait}s of the cancel request"
  | left + 1, unreadable =>
      match observeRemote (looks (polls - (left + 1))) with
      | .error error => .error s!"reading the runner's records failed ({error})"
      | .ok (.result fields) => .ok fields
      | .ok (.runnerDead _) => .error "the runner is dead and wrote no result.json"
      | .ok .neverStarted => .error "the runner never started (no launch.json)"
      | .ok .sessionLost =>
          .error "the assignment disappeared while waiting for the runner"
      | .ok .degraded => awaitPolls looks wait polls left (unreadable + 1)
      | .ok (.launchInvalid _) => awaitPolls looks wait polls left (unreadable + 1)
      | .ok (.runnerAlive _) => awaitPolls looks wait polls left unreadable

/-- `await_runner_result`: the result, or a sentence saying why there is none. -/
def awaitRunnerResult (looks : Nat -> Look) (wait : Nat) : Except String Json.Fields :=
  awaitPolls looks wait (waitPolls wait) (waitPolls wait) 0

def deadlineReason (passed note : String) (confirmed : Bool) (requester : String)
    (result : Json.Fields) (absorbed : Option String) : String :=
  let received := Verdict.cancelSource (result.get "cancel_intent") = some requester
  let note := if received ∧ confirmed then none else some note
  "; ".intercalate ([some passed, note, absorbed].filterMap nonempty)

end Job
end MightyColab
