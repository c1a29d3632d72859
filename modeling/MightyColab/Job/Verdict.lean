import MightyColab.Job.Models

/-!
# What a runner result means

From the fields of the runner's `result.json` to the envelope's `reason` and
`retry_class`. The fields are read as Python reads them, without a check of their
types first, so most of these functions can raise.
-/

namespace MightyColab
namespace Job

open Lib

namespace Verdict

inductive Method where
  | get
  | put
  deriving DecidableEq, Repr

abbrev Outcome := Option String × Option RetryClass

def exceptionMessageChars : Nat := 500

/-- `_CATEGORY_RETRY.get(category, RETRY_SAME)`. -/
def categoryRetry : Option TransferCategory -> RetryClass
  | some .network => .retrySame
  | some .checksum => .fixCode
  | some .size => .fixCode
  | some .localDisk => .fixCode
  | some .blocked => .fixHuman
  | some .setup => .doNotRetry
  | _ => .retrySame

def transferRetryClass (error : TransferError) (method : Method) : RetryClass :=
  match error.httpStatus with
  | some status =>
      if status = 401 ∨ status = 403 then .refreshUrls
      else if status = 404 then
        match method with
        | .get => .fixCode
        | .put => .refreshUrls
      else if status = 408 ∨ status = 429 ∨ (500 ≤ status ∧ status < 600) then
        .retrySame
      else if 400 ≤ status ∧ status < 500 then .fixCode
      else .retrySame
  | none => categoryRetry error.category

def assignRetryClass (httpStatus : Option Int) (network : Bool) : RetryClass :=
  match httpStatus with
  | some status =>
      if status = 400 ∨ status = 401 ∨ status = 403 then .fixHuman
      else if status = 408 ∨ status = 429 then .retrySame
      else .retryDifferent
  | none => if network then .retrySame else .doNotRetry

/-- `_STRENGTH`, strongest first. -/
def strength : List RetryClass :=
  [.doNotRetry, .fixHuman, .fixCode, .retryDifferent, .refreshUrls, .retrySame]

def strongest (classes : List (Option RetryClass)) : Option RetryClass :=
  strength.find? fun c => classes.contains (some c)

/-- Who asked for the cancel, from `cancel.json`'s `by`. -/
def cancelSource (intent : Json) : Option String :=
  match intent with
  | .obj fields =>
      match Json.Fields.get fields "by" with
      | .str requester => if requester = "" then none else some requester
      | _ => none
  | _ => none

def signalLabel (result : Json.Fields) : String :=
  let name := result.get "signal_name"
  let number := result.get "signal"
  if name.truthy then s!"{name.pyStr} ({number.pyStr})" else s!"signal {number.pyStr}"

def howItStopped (result : Json.Fields) : String :=
  if result.get "signal_name" matches .str "SIGKILL" then
    s!"the workload did not exit within {graceSeconds}s of SIGTERM " ++
      "and was killed by SIGKILL"
  else if !(result.get "signal").isNull then
    s!"the workload was stopped by {signalLabel result}"
  else if !(result.get "exit_code").isNull then
    "the workload exited " ++ (result.get "exit_code").pyStr ++ " after SIGTERM"
  else "the workload's exit was not observed"

/-- `value[-1]` of a value already known to be true. -/
def lastItem (value : Json) : Except String Json :=
  match value with
  | .arr items =>
      match items.getLast? with
      | some item => .ok item
      | none => .error "IndexError: list index out of range"
  | .str text =>
      match text.toList.getLast? with
      | some c => .ok (.str (String.singleton c))
      | none => .error "IndexError: string index out of range"
  | .obj _ => .error "KeyError: -1"
  | value =>
      .error s!"TypeError: {Json.reprStr value.typeName} object is not subscriptable"

/-- The items that a `for` over the value gives: of a dict, its keys. -/
def iterate (value : Json) : Except String (List Json) :=
  match value with
  | .arr items => .ok items
  | .obj fields => .ok (fields.map fun f => .str f.1)
  | .str text => .ok (text.toList.map fun c => .str (String.singleton c))
  | value =>
      .error s!"TypeError: {Json.reprStr value.typeName} object is not iterable"

/-- `len(value)`. -/
def len (value : Json) : Except String Nat :=
  match value with
  | .arr items => .ok items.length
  | .obj fields => .ok fields.length
  | .str text => .ok text.length
  | value =>
      .error s!"TypeError: object of type {Json.reprStr value.typeName} has no len()"

def oomNote (result : Json.Fields) : Except String (Option String) :=
  match (result.get "oom_kills").asInt? with
  | none => .ok none
  | some kills =>
      if kills = 0 then
        .ok (if result.get "signal_name" matches .str "SIGKILL" then
          some "no kernel OOM kill during the run" else none)
      else
        let note := "the kernel's out-of-memory killer ran " ++
          (result.get "oom_kills").pyStr ++ " time(s) during the run"
        let log := (result.get "oom_log").orElse (.arr [])
        if log.truthy then (lastItem log).map fun line => some s!"{note}: {line.pyStr}"
        else .ok (some note)

/-- `_with`: the reason and the notes that say something. -/
def withNotes (reason : String) (notes : List (Option String)) : String :=
  "; ".intercalate (reason :: notes.filterMap fun n => n.filter (· ≠ ""))

def cancelledOutcome (result : Json.Fields) (wallClock : Int) : Outcome :=
  let intent := result.get "cancel_intent"
  let stopped := howItStopped result
  match cancelSource intent with
  | some "wall_clock" =>
      (some s!"wall_clock budget of {wallClock}s reached; {stopped}", some .fixCode)
  | some requester => (some s!"cancelled by {requester}; {stopped}", none)
  | none =>
      let error := match intent with
        | .obj fields => Json.Fields.get fields "error"
        | _ => .null
      let source :=
        if error.truthy then s!"cancelled (cancel.json unreadable: {error.pyStr})"
        else "cancelled (cancel.json names no requester)"
      (some s!"{source}; {stopped}", none)

def failedReason (result : Json.Fields) : Except String String := do
  let exitCode := result.get "exit_code"
  let tagged := (result.get "survivors_by_job_tag").orElse (.arr [])
  if !(result.get "signal").isNull then
    return s!"the workload was killed by {signalLabel result} with no cancel request"
  else if exitCode.eqInt 0 ∧ tagged.truthy then
    let count ← len tagged
    let pids ← iterate tagged
    return s!"the workload exited 0 but {count} tagged process(es) " ++
      "survived containment: " ++ ", ".intercalate (pids.map Json.pyStr)
  else
    let noException := s!"the workload exited {exitCode.pyStr} without a recorded " ++
      "exception; its output is in runner.log"
    match result.get "exception" with
    | .obj fields =>
        if (Json.Fields.get fields "type").truthy then
          let text := ((Json.Fields.get fields "message").orElse (.str "")).pyStr
          let message :=
            if exceptionMessageChars < text.length then
              (text.take exceptionMessageChars).toString ++
                s!" [... {text.length - exceptionMessageChars} characters " ++
                "omitted; the full message is in \x60exception\x60]"
            else text
          return s!"the workload exited {exitCode.pyStr}: " ++
            (Json.Fields.get fields "type").pyStr ++ s!": {message}"
        else return noException
    | _ => return noException

def workloadOutcome (result : Json.Fields) (wallClock : Int) : Except String Outcome :=
  match result.getD "workload" (.str "unknown") with
  | .str "succeeded" => .ok (none, none)
  | .str "cancelled" => .ok (cancelledOutcome result wallClock)
  | .str "unknown" => do
      let runnerError := result.get "runner_error"
      let reason :=
        if runnerError.truthy then
          s!"the runner could not reach a verdict: {runnerError.pyStr}"
        else "the runner reported no verdict"
      let note ← oomNote result
      return (some (withNotes reason [note]), some .doNotRetry)
  | _ => do
      let reason ← failedReason result
      let note ← oomNote result
      return (some (withNotes reason [note]), some .fixCode)

def stageOutcome (inputs : List InputResult) (exception : Json) : Outcome :=
  let failed := inputs.findSome? fun i =>
    if i.status = .failed then i.error.map fun e => (i, e) else none
  match failed with
  | some (input, error) =>
      (some (s!"staging failed at {input.dest} ({input.urlId}): {error.summary}. " ++
        "The consumer never started."), some (transferRetryClass error .get))
  | none =>
      let detail := match exception with
        | .obj fields =>
            let message := Json.Fields.get fields "message"
            if message.truthy then message.pyStr else "no detail recorded"
        | _ => "no detail recorded"
      (some (s!"staging failed before any input was fetched: {detail}. " ++
        "The consumer never started."), some .doNotRetry)

/-- `status.get(path, "missing")`: the last record of a path decides. -/
def statusOf (artifacts : List ArtifactResult) (path : String) : ArtifactStatus :=
  ((artifacts.reverse.find? fun a => a.path = path).map (·.status)).getD .missing

def offloadParts (declared : List ArtifactItem) (artifacts : List ArtifactResult)
    (remoteOffload offloadError : Json) : List (String × List RetryClass) :=
  let missing := ((declared.filter fun d =>
    d.required && statusOf artifacts d.path = .missing).map (·.path)).mergeSort
      fun a b => decide (a ≤ b)
  let failed := (artifacts.filter fun a => a.status = .failed).mergeSort
    fun a b => decide (a.path ≤ b.path)
  let start :=
    if offloadError.truthy then
      [(s!"artifact offload could not start: {offloadError.pyStr}", [RetryClass.doNotRetry])]
    else []
  let absent :=
    if missing ≠ [] then
      [("required artifact(s) not produced: " ++ ", ".intercalate missing,
        [RetryClass.fixCode])]
    else []
  let uploads :=
    if failed ≠ [] then
      let shown := failed.map fun a =>
        match a.error with
        | some e => s!"{a.path} ({e.summary})"
        | none => a.path
      let classes := failed.map fun a =>
        match a.error with
        | some e => transferRetryClass e .put
        | none => .retrySame
      [("artifact offload failed: " ++ "; ".intercalate shown, classes)]
    else []
  let parts := start ++ absent ++ uploads
  if parts.isEmpty ∧ remoteOffload matches .str "failed" then
    [("artifact offload failed", [RetryClass.retrySame])]
  else parts

def offloadOutcome (declared : List ArtifactItem) (artifacts : List ArtifactResult)
    (remoteOffload offloadError : Json) : Offload × Option String × Option RetryClass :=
  let parts := offloadParts declared artifacts remoteOffload offloadError
  if parts.isEmpty then (.ok, none, none)
  else
    (.failed, some ("; ".intercalate (parts.map (·.1))),
      strongest ((parts.flatMap (·.2)).map some))

theorem offloadOutcome_terminal (declared : List ArtifactItem)
    (artifacts : List ArtifactResult) (remoteOffload offloadError : Json) :
    (offloadOutcome declared artifacts remoteOffload offloadError).1.terminal = true := by
  simp only [offloadOutcome]
  split <;> rfl

end Verdict
end Job
end MightyColab
