import MightyColab.Job.Verdict
import MightyColab.Lib.Fallible

/-!
# Absorbing a runner result

`Orchestrator.absorb_result`: the envelope after the runner's `result.json`. It works
on a copy and raises before it changes anything, so a result that cannot be read
leaves the envelope as it was. The text of a validation error stands here for the
longer one that pydantic prints.
-/

namespace MightyColab
namespace Job

open Lib

namespace Absorb

/-!
## Field validation
-/

def optInt (name : String) (j : Json) : Except String (Option Int) :=
  let invalid := .error s!"ValidationError: {name} is not an integer"
  match j with
  | .null => .ok none
  | .float value _ =>
      match value with
      | some q => if q.den = 1 then .ok (some q.num) else invalid
      | none => invalid
  | j =>
      match j.toInt? with
      | some i => .ok (some i)
      | none => invalid

def optStr (name : String) (j : Json) : Except String (Option String) :=
  match j with
  | .null => .ok none
  | .str s => .ok (some s)
  | _ => .error s!"ValidationError: {name} is not a string"

def reqStr (fields : Json.Fields) (name : String) : Except String String :=
  match fields.lookup name with
  | some (.str s) => .ok s
  | some _ => .error s!"ValidationError: {name} is not a string"
  | none => .error s!"ValidationError: {name} is missing"

def extraFields (known : List String) (fields : Json.Fields) : Json.Fields :=
  fields.filter fun f => !known.contains f.1

def transferCategory (j : Json) : Except String (Option TransferCategory) :=
  match j with
  | .null => .ok none
  | .str "http" => .ok (some .http)
  | .str "network" => .ok (some .network)
  | .str "checksum" => .ok (some .checksum)
  | .str "size" => .ok (some .size)
  | .str "local" => .ok (some .localDisk)
  | .str "blocked" => .ok (some .blocked)
  | .str "setup" => .ok (some .setup)
  | .str "error" => .ok (some .error)
  | _ => .error "ValidationError: category is unknown"

def transferError (j : Json) : Except String (Option TransferError) :=
  match j with
  | .null => .ok none
  | .obj fields => do
      let exception ← reqStr fields "exception"
      let reason ← reqStr fields "reason"
      let httpStatus ← optInt "http_status" (Json.Fields.get fields "http_status")
      let body ← optStr "body" (Json.Fields.get fields "body")
      let category ← transferCategory (Json.Fields.get fields "category")
      let extra :=
        extraFields ["exception", "reason", "http_status", "body", "category"] fields
      return some
        { exception, reason, httpStatus, body, category, extra }
  | _ => .error "ValidationError: error is not a record"

/-- `InputResult(**item)`. -/
def inputResult (item : Json) : Except String InputResult :=
  match item with
  | .obj fields => do
      let dest ← reqStr fields "dest"
      let urlId ← reqStr fields "url_id"
      let status ← match fields.lookup "status" with
        | some (.str "ok") => .ok InputStatus.ok
        | some (.str "failed") => .ok InputStatus.failed
        | _ => .error "ValidationError: status is unknown"
      let sha256 ← optStr "sha256" (Json.Fields.get fields "sha256")
      let bytes ← optInt "bytes" (Json.Fields.get fields "bytes")
      let error ← transferError (Json.Fields.get fields "error")
      let extra :=
        extraFields ["dest", "url_id", "status", "sha256", "bytes", "error"] fields
      return { dest, urlId, status, sha256, bytes, error, extra }
  | _ => .error "TypeError: argument after ** must be a mapping"

/-- `ArtifactResult(**artifact)`. -/
def artifactResult (item : Json) : Except String ArtifactResult :=
  match item with
  | .obj fields => do
      let path ← reqStr fields "path"
      let urlId ← reqStr fields "url_id"
      let status ← match fields.lookup "status" with
        | some (.str "ok") => .ok ArtifactStatus.ok
        | some (.str "failed") => .ok ArtifactStatus.failed
        | some (.str "missing") => .ok ArtifactStatus.missing
        | _ => .error "ValidationError: status is unknown"
      let sha256 ← optStr "sha256" (Json.Fields.get fields "sha256")
      let bytes ← optInt "bytes" (Json.Fields.get fields "bytes")
      let error ← transferError (Json.Fields.get fields "error")
      let extra :=
        extraFields ["path", "url_id", "status", "sha256", "bytes", "error"] fields
      return { path, urlId, status, sha256, bytes, error, extra }
  | _ => .error "TypeError: argument after ** must be a mapping"

/-- `Optional[Dict[str, str]]`. -/
def exceptionRecord (j : Json) : Except String (Option (List (String × String))) :=
  match j with
  | .null => .ok none
  | .obj fields =>
      (fields.mapM fun (f : String × Json) =>
        match f.2 with
        | .str value => Except.ok (f.1, value)
        | _ => Except.error s!"ValidationError: exception.{f.1} is not a string").map some
  | _ => .error "ValidationError: exception is not a record"

/-- `List[int]`. -/
def intList (name : String) (j : Json) : Except String (List Int) :=
  match j with
  | .arr items =>
      items.mapM fun item => do
        match ← optInt name item with
        | some i => return i
        | none => throw s!"ValidationError: {name} is not an integer"
  | _ => .error s!"ValidationError: {name} is not a list"

/-!
## Times
-/

def civilFromDays (days : Int) : Int × Nat × Nat :=
  let z := days + 719468
  let era := z / 146097
  let doe := (z - era * 146097).toNat
  let yoe := (doe - doe / 1460 + doe / 36524 - doe / 146096) / 365
  let doy := doe - (365 * yoe + yoe / 4 - yoe / 100)
  let mp := (5 * doy + 2) / 153
  let month := if mp < 10 then mp + 3 else mp - 9
  let year := (yoe : Int) + era * 400 + (if month ≤ 2 then 1 else 0)
  (year, month, doy - (153 * mp + 2) / 5 + 1)

private def padded (width n : Nat) : String :=
  let digits := toString n
  String.ofList (List.replicate (width - digits.length) '0') ++ digits

/-- `datetime.isoformat()` of a UTC time in microseconds; years 1 to 9999 only. -/
def isoUtc (micros : Int) : Option String :=
  let seconds := micros / 1000000
  let fraction := (micros - seconds * 1000000).toNat
  if -62135596800 ≤ seconds ∧ seconds ≤ 253402300799 then
    let days := seconds / 86400
    let rest := (seconds - days * 86400).toNat
    let (year, month, day) := civilFromDays days
    let date := s!"{padded 4 year.toNat}-{padded 2 month}-{padded 2 day}"
    let time :=
      s!"{padded 2 (rest / 3600)}:{padded 2 (rest / 60 % 60)}:{padded 2 (rest % 60)}"
    let micro := if fraction = 0 then "" else s!".{padded 6 fraction}"
    some s!"{date}T{time}{micro}+00:00"
  else none

def roundHalfEven (q : Rat) : Int :=
  let low := q.floor
  let rest := q - low
  if rest < 1 / 2 then low
  else if 1 / 2 < rest then low + 1
  else if low % 2 = 0 then low
  else low + 1

/-- `_vm_time`: no time for a value that is no number, an error for a number that is
no time. -/
def vmTime (epoch : Json) : Except String (Option String) :=
  let iso (micros : Int) : Except String (Option String) :=
    match isoUtc micros with
    | some text => .ok (some text)
    | none => .error "ValueError: year is out of range"
  match epoch with
  | .int i => iso (i * 1000000)
  | .float (some q) _ => iso (roundHalfEven (q * 1000000))
  | .float none _ => .error "ValueError: cannot convert float NaN to integer"
  | _ => .ok none

example : vmTime (.float (some (3402 / 4)) "850.5") =
    .ok (some "1970-01-01T00:14:10.500000+00:00") := by decide +kernel

/-!
## The result
-/

def absorbProvenance (env : JobEnvelope) (result : Json.Fields) :
    Except String JobEnvelope :=
  let schema := result.getD "schema_version" (.str "1")
  let stringOf (field : String) : Except String String :=
    match result.get field with
    | .str "" => .error s!"ValueError: schema 2 result has invalid {field}"
    | .str value => .ok value
    | _ => .error s!"ValueError: schema 2 result has invalid {field}"
  match schema with
  | .str "1" => .ok env
  | .str "2" => do
      let cliVersion ← stringOf "cli_version"
      let runtimePayloadVersion ← stringOf "runtime_payload_version"
      return { env with cliVersion, runtimePayloadVersion, schemaVersion := "2" }
  | schema =>
      if schema.hashable then
        .error s!"ValueError: unsupported result schema: {schema.pyRepr}"
      else .error s!"TypeError: unhashable type: {Json.reprStr schema.typeName}"

/-- `Workload(result.get("workload", "unknown"))`. -/
def workloadOf (result : Json.Fields) : Except String Workload :=
  let value := result.getD "workload" (.str "unknown")
  let invalid := .error s!"ValueError: {value.pyRepr} is not a valid Workload"
  match value with
  | .str s =>
      match Workload.ofValue? s with
      | some w => .ok w
      | none => invalid
  | _ => invalid

def absorbPhase (env : JobEnvelope) (result : Json.Fields) : JobEnvelope :=
  let remote := result.get "phase"
  if remote.truthy then
    let known := match remote with
      | .str s => Phase.ofValue? s
      | _ => none
    match known with
    | some phase => { env with phase }
    | none =>
        env.addHint (s!"the runner reported phase {remote.pyRepr}, which this CLI " ++
          "does not know; phase left as it was")
  else env

/-- The records of a list field that may be missing or empty. -/
def records (value : Json) : Except String (List Json) :=
  if value.truthy then Verdict.iterate value else .ok []

/-- The offload field, reason and class: what was declared and whether the runner got
there. -/
def offloadOf (spec : JobSpec) (stageFailed : Bool) (artifacts : List ArtifactResult)
    (result : Json.Fields) : Offload × Option String × Option RetryClass :=
  if spec.artifacts.isEmpty then (.notRequired, none, none)
  else if stageFailed then (.skipped, none, none)
  else
    Verdict.offloadOutcome spec.artifacts artifacts (result.get "offload")
      (result.get "offload_error")

def runOutcome (env : JobEnvelope) (spec : JobSpec) (result : Json.Fields)
    (offload : Offload) (offloadReason : Option String)
    (offloadRetry : Option RetryClass) : Except String JobEnvelope := do
  let (workloadReason, workloadRetry) ←
    Verdict.workloadOutcome result spec.budgets.wallClock
  let reasons := [workloadReason, offloadReason].filterMap fun r => r.filter (· ≠ "")
  let env := { env with
    reason := if reasons.isEmpty then none else some ("; ".intercalate reasons)
    retryClass := workloadRetry.or offloadRetry }
  if workloadRetry.isSome then return env.recordFailure .run
  else if offload = .failed then return env.recordFailure .offload
  else return env

def warningHints (hints : List String) (warnings : List Json) : List String :=
  warnings.foldl (fun hints warning =>
    let hint := s!"runner: {warning.pyStr}"
    if hint ∈ hints then hints else hints ++ [hint]) hints

def survivorHint (count : Nat) : String :=
  s!"{count} descendant(s) outlived the workload and may still hold the GPU"

def absorbOutcome (env : JobEnvelope) (spec : JobSpec) (result : Json.Fields)
    (stageFailed : Bool) (offloadReason : Option String)
    (offloadRetry : Option RetryClass) : Except String JobEnvelope :=
  if stageFailed then
    let (reason, retryClass) := Verdict.stageOutcome env.inputs (result.get "exception")
    .ok ({ env with reason, retryClass }.recordFailure .stage)
  else runOutcome env spec result env.offload offloadReason offloadRetry

def absorbHints (env : JobEnvelope) (result : Json.Fields) (survivors : Json) :
    Except String (List String) := do
  let hints := warningHints env.hints (← records (result.get "runner_warnings"))
  if survivors.truthy then
    let hint := survivorHint (← Verdict.len survivors)
    return if hint ∈ hints then hints else hints ++ [hint]
  else return hints

/-- `absorb_result`; `now` is this machine's time, for a result without one. -/
def absorbResult (env : JobEnvelope) (spec : JobSpec) (result : Json.Fields)
    (now : String) : Except String JobEnvelope := do
  let env ← absorbProvenance (absorbPhase env result) result
  let workload ← workloadOf result
  let finished ← vmTime (result.get "finished_at")
  let inputs ← (← records (result.get "inputs")).mapM inputResult
  let artifacts ← (← records (result.get "artifacts")).mapM artifactResult
  let survivors := (result.get "surviving_descendants").orElse (.arr [])
  let stageFailed := decide (env.phase = .stage ∧ workload = .failed)
  let closed := offloadOf spec stageFailed artifacts result
  let env ← absorbOutcome
    { env with
      reason := none, retryClass := none, workload, offload := closed.1, inputs,
      artifacts, finishedAt := some (finished.getD now) }
    spec result stageFailed closed.2.1 closed.2.2
  let hints ← absorbHints env result survivors
  -- the copy is validated as a whole before anything of it is kept
  let exitCode ← optInt "exit_code" (result.get "exit_code")
  let signal ← optInt "signal" (result.get "signal")
  let exception ← exceptionRecord (result.get "exception")
  let survivingDescendants ← intList "surviving_descendants" survivors
  return { env with hints, exitCode, signal, exception, survivingDescendants }

/-!
## What absorbing keeps and settles
-/

structure SameVm (env env' : JobEnvelope) : Prop where
  jobId : env'.jobId = env.jobId
  cleanup : env'.cleanup = env.cleanup
  supervisor : env'.supervisor = env.supervisor
  session : env'.session = env.session
  endpoint : env'.endpoint = env.endpoint
  leaveUp : env'.leaveUp = env.leaveUp

theorem SameVm.refl (env : JobEnvelope) : SameVm env env :=
  ⟨rfl, rfl, rfl, rfl, rfl, rfl⟩

theorem SameVm.trans {a b c : JobEnvelope} (h : SameVm a b) (h' : SameVm b c) :
    SameVm a c :=
  ⟨h'.jobId.trans h.jobId, h'.cleanup.trans h.cleanup, h'.supervisor.trans h.supervisor,
    h'.session.trans h.session, h'.endpoint.trans h.endpoint,
    h'.leaveUp.trans h.leaveUp⟩

theorem absorbPhase_sameVm (env : JobEnvelope) (result : Json.Fields) :
    SameVm env (absorbPhase env result) := by
  unfold absorbPhase
  simp only
  split
  · split <;> exact ⟨rfl, rfl, rfl, rfl, rfl, rfl⟩
  · exact SameVm.refl env

theorem absorbProvenance_sameVm {env env' : JobEnvelope} {result : Json.Fields}
    (h : absorbProvenance env result = .ok env') :
    SameVm env env' ∧ env'.workload = env.workload ∧ env'.offload = env.offload := by
  unfold absorbProvenance at h
  simp only at h
  split at h
  · cases h
    exact ⟨SameVm.refl env, rfl, rfl⟩
  · simp only [bind, Except.bind, pure, Except.pure] at h
    split at h
    · cases h
    · split at h
      · cases h
      · cases h
        exact ⟨⟨rfl, rfl, rfl, rfl, rfl, rfl⟩, rfl, rfl⟩
  · split at h <;> cases h

theorem runOutcome_spec {env env' : JobEnvelope} {spec : JobSpec} {result : Json.Fields}
    {offload : Offload} {reason : Option String} {retry : Option RetryClass}
    (h : runOutcome env spec result offload reason retry = .ok env') :
    SameVm env env' ∧ env'.workload = env.workload ∧ env'.offload = env.offload := by
  simp only [runOutcome, bind, Except.bind, pure, Except.pure] at h
  split at h
  · cases h
  · split at h
    · cases h
      exact ⟨⟨rfl, rfl, rfl, rfl, rfl, rfl⟩, rfl, rfl⟩
    · split at h <;> cases h <;> exact ⟨⟨rfl, rfl, rfl, rfl, rfl, rfl⟩, rfl, rfl⟩

theorem offloadOf_terminal (spec : JobSpec) (stageFailed : Bool)
    (artifacts : List ArtifactResult) (result : Json.Fields) :
    (offloadOf spec stageFailed artifacts result).1.terminal = true := by
  unfold offloadOf
  split
  · rfl
  · split
    · rfl
    · exact Verdict.offloadOutcome_terminal _ _ _ _

theorem absorbOutcome_spec {env env' : JobEnvelope} {spec : JobSpec}
    {result : Json.Fields} {stageFailed : Bool} {reason : Option String}
    {retry : Option RetryClass}
    (h : absorbOutcome env spec result stageFailed reason retry = .ok env') :
    SameVm env env' ∧ env'.workload = env.workload ∧ env'.offload = env.offload := by
  unfold absorbOutcome at h
  split at h
  · cases h
    exact ⟨⟨rfl, rfl, rfl, rfl, rfl, rfl⟩, rfl, rfl⟩
  · exact runOutcome_spec h

/-- Absorbing keeps the VM's fields, takes the result's workload and closes the
offload. -/
theorem absorbResult_spec {env env' : JobEnvelope} {spec : JobSpec}
    {result : Json.Fields} {now : String}
    (h : absorbResult env spec result now = .ok env') :
    SameVm env env' ∧ workloadOf result = .ok env'.workload ∧
      env'.offload.terminal = true := by
  unfold absorbResult at h
  obtain ⟨env1, hprov, h⟩ := Fallible.bind_ok h
  obtain ⟨workload, hwork, h⟩ := Fallible.bind_ok h
  obtain ⟨finished, -, h⟩ := Fallible.bind_ok h
  obtain ⟨inputItems, -, h⟩ := Fallible.bind_ok h
  obtain ⟨inputs, -, h⟩ := Fallible.bind_ok h
  obtain ⟨artifactItems, -, h⟩ := Fallible.bind_ok h
  obtain ⟨artifacts, -, h⟩ := Fallible.bind_ok h
  obtain ⟨env2, hout, h⟩ := Fallible.bind_ok h
  obtain ⟨hints, -, h⟩ := Fallible.bind_ok h
  obtain ⟨exitCode, -, h⟩ := Fallible.bind_ok h
  obtain ⟨signal, -, h⟩ := Fallible.bind_ok h
  obtain ⟨exception, -, h⟩ := Fallible.bind_ok h
  obtain ⟨survivors, -, h⟩ := Fallible.bind_ok h
  cases h
  rcases absorbOutcome_spec hout with ⟨hvm, hwork2, hoff2⟩
  have hsame : SameVm env env1 :=
    (absorbPhase_sameVm env result).trans (absorbProvenance_sameVm hprov).1
  refine ⟨hsame.trans ⟨hvm.1, hvm.2, hvm.3, hvm.4, hvm.5, hvm.6⟩, ?_, ?_⟩
  · exact hwork.trans (congrArg Except.ok hwork2.symm)
  · exact (congrArg Offload.terminal hoff2).trans (offloadOf_terminal _ _ _ _)

end Absorb
end Job
end MightyColab
