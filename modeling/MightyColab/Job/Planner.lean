import MightyColab.Job.SpecPaths
import MightyColab.Lib.DateText

/-!
# The checks of a plan

`build_plan` from its spec to its diagnostics. The checks that look at URLs, hosts and
local files are given by what they report.
-/

namespace MightyColab
namespace Job

open Lib

namespace Planner

/-- What a plan is built with. -/
structure World where
  /-- `str.casefold`. -/
  casefold : String -> String
  urlId : String -> String
  specHash : JobSpec -> String
  /-- The clock, in seconds. -/
  now : Rat
  isoformat : Rat -> String
  /-- `parse_signed_url_expiry`. -/
  expiry : String -> Option Rat
  /-- `_url_diagnostics`. -/
  urls : List Diagnostic
  /-- `_control_url_diagnostics`. -/
  controlUrls : List Diagnostic
  /-- `_code_entry_path`: the root, and whether the entry resolves outside it. -/
  codeRoot : String
  entryEscapes : Bool
  entryIsFile : Bool
  /-- `_probe_diagnostics`. -/
  probe : List Diagnostic × List (String × Int)
  /-- `_collect_source`, given whether its problem is reported already. -/
  source : Bool -> List SourceFileLock × List Diagnostic

def diagnostic (severity : Severity) (code message : String)
    (retryClass : RetryClass) (hint : String) : Diagnostic :=
  { severity, code, message, retryClass := some retryClass, hint := some hint }

/-- `KNOWN_ACCELERATORS`, sorted. -/
def knownAccelerators : List String := ["A100", "G4", "H100", "L4", "T4", "v5e1", "v6e1"]

def acceleratorDiagnostics (w : World) (spec : JobSpec) : List Diagnostic :=
  let canonical := knownAccelerators.map w.casefold
  let unknown := (spec.accelerator.prefer.eraseDups.filter fun name =>
    w.casefold name ∉ canonical).mergeSort fun a b => decide (a ≤ b)
  let names := ", ".intercalate unknown
  let known := ", ".intercalate knownAccelerators
  if unknown = [] then []
  else [diagnostic .error "accelerator_unknown" s!"Unknown accelerator name(s): {names}"
    .fixCode s!"Use only one of: {known}."]

def retryDiagnostics (spec : JobSpec) : List Diagnostic :=
  let unsupported :=
    (if spec.retry.maxAttempts = 1 then [] else [s!"max_attempts={spec.retry.maxAttempts}"]) ++
    (if spec.retry.when = [.retrySame] then [] else ["when"]) ++
    (match spec.retry.mode with
      | .recreate => []
      | .resume => ["mode=resume"])
  if unsupported = [] then []
  else [diagnostic .error "retry_not_implemented"
    ("retry is not implemented; unsupported settings: " ++ ", ".intercalate unsupported)
    .doNotRetry
    "Use retry.max_attempts=1, retry.when=[retry_same], and retry.mode=recreate."]

def policyDiagnostics (spec : JobSpec) : List Diagnostic :=
  let unsupported :=
    (match spec.onRunFail with
      | .offloadAnyway => []
      | .skip => ["on_run_fail=skip"]) ++
    (if spec.control.log.isSome then ["control.log"] else [])
  if unsupported = [] then []
  else [diagnostic .error "policy_not_implemented"
    ("unsupported inactive setting(s): " ++ ", ".intercalate unsupported) .doNotRetry
    "Remove these settings until their behavior is implemented."]

/-- The checks of `budgets.artifact_sync_interval_seconds`. -/
def syncDiagnostics (spec : JobSpec) : List Diagnostic :=
  let code := "artifact_sync_interval_invalid"
  let wallClock := spec.budgets.wallClock
  match spec.budgets.artifactSyncIntervalSeconds with
  | none => []
  | some interval =>
      if interval ≤ 0 then
        [diagnostic .error code
          s!"budgets.artifact_sync_interval_seconds must be positive, got {interval}"
          .doNotRetry
          ("Remove artifact_sync_interval_seconds or set it to a " ++
            "positive number of seconds.")]
      else if spec.artifacts = [] then
        [diagnostic .warn code
          ("budgets.artifact_sync_interval_seconds is set but " ++
            "artifacts[] is empty; there is nothing to periodically sync")
          .retrySame
          "Declare artifacts[] to sync, or remove artifact_sync_interval_seconds."]
      else if wallClock ≤ interval then
        [diagnostic .warn code
          (s!"budgets.artifact_sync_interval_seconds ({interval}) is not smaller than " ++
            s!"wall_clock ({wallClock}); periodic sync may " ++
            "never fire before the run's own deadline")
          .retrySame "Set artifact_sync_interval_seconds well below wall_clock."]
      else []

/-!
## Expiry
-/

inductive Purpose where
  | data | artifact | control
  deriving DecidableEq, Repr

def channelItems (name : String) (channel : Option ControlChannel) :
    List (String × String × Purpose) :=
  match channel with
  | none => []
  | some channel =>
      [(s!"control.{name}.put_url", channel.putUrl, Purpose.control),
        (s!"control.{name}.get_url", channel.getUrl, Purpose.control)].filter
          fun item => item.2.1 ≠ ""

def urlItems (spec : JobSpec) : List (String × String × Purpose) :=
  (spec.data.mapIdx fun index item => (s!"data[{index}].url", item.url, Purpose.data)) ++
    (spec.artifacts.mapIdx fun index item =>
      (s!"artifacts[{index}].url", item.url, Purpose.artifact)) ++
    channelItems "result" spec.control.result ++ channelItems "log" spec.control.log

def urlSlackSeconds : Int := 900

def installAllowanceSeconds : Int := 3300

def duration (seconds : Int) : String :=
  let totalMinutes := (max 0 seconds + 59) / 60
  let hours := totalMinutes / 60
  let minutes := totalMinutes % 60
  if hours ≠ 0 ∧ minutes ≠ 0 then s!"{hours}h{minutes}m"
  else if hours ≠ 0 then s!"{hours}h"
  else s!"{minutes}m"

/-- The last second that a `datetime` has, and the first. -/
def datetimeMax : Rat := 253402300800

def datetimeMin : Rat := -62135596800

/-- `now + timedelta(seconds=seconds)`, which may raise `OverflowError`. -/
def later (now : Rat) (seconds : Int) : Option Rat :=
  if datetimeMin ≤ now + seconds ∧ now + seconds < datetimeMax then some (now + seconds)
  else none

/-- For how long data and artifact URLs must stay valid, and control URLs, each with what
it is made up of. -/
def required (spec : JobSpec) (afterInstall : Bool) :
    (Int × List String) × (Int × List String) :=
  let installing := spec.deps ≠ [] ∧ afterInstall = false
  let dataSeconds := spec.budgets.wallClock + urlSlackSeconds +
    if installing then installAllowanceSeconds else 0
  let dataParts :=
    [s!"wall_clock {spec.budgets.wallClock}s", "15 min for staging and offload"] ++
      if installing then [s!"{duration installAllowanceSeconds} for installing deps"] else []
  let budgetSeconds := spec.retry.budgetSeconds + urlSlackSeconds
  let control :=
    if afterInstall then (dataSeconds, dataParts)
    else if dataSeconds ≤ budgetSeconds then
      (budgetSeconds, [s!"retry.budget_seconds {spec.retry.budgetSeconds}s", "15 min"])
    else (dataSeconds, dataParts ++ ["(longer than retry.budget_seconds + 15 min)"])
  ((dataSeconds, dataParts), control)

/-- The problem of one URL; nothing where `OverflowError` is raised. -/
def expiryProblem (w : World) (spec : JobSpec) (afterInstall : Bool)
    (storedExpiry : String -> Option Rat) (item : String × String × Purpose) :
    Option (List Diagnostic) :=
  let (field, url, purpose) := item
  match (w.expiry url).or (storedExpiry field) with
  | none => some []
  | some expiry => do
      let (seconds, parts) := match purpose with
        | .control => (required spec afterInstall).2
        | _ => (required spec afterInstall).1
      let deadline ← later w.now seconds
      if deadline ≤ expiry then return []
      else
        let left := expiry - w.now
        let remaining := left.num.tdiv left.den
        let expires :=
          if remaining ≤ 0 then "has already expired"
          else "expires in " ++ duration remaining
        let made := " + ".intercalate parts
        return [diagnostic .error "url_expiry_too_soon"
          (s!"{field} ({w.urlId url}) {expires} ({w.isoformat expiry}); it must stay " ++
            s!"valid for {duration seconds}: {made}")
          .refreshUrls
          s!"Re-sign {field} so it remains valid for at least {duration seconds}."]

/-- The control URLs must stay valid for `retry.budget_seconds`. -/
def ByBudget (spec : JobSpec) (afterInstall : Bool) : Prop :=
  afterInstall = false ∧
    (required spec afterInstall).1.1 ≤ spec.retry.budgetSeconds + urlSlackSeconds

instance (spec : JobSpec) (afterInstall : Bool) : Decidable (ByBudget spec afterInstall) :=
  inferInstanceAs (Decidable (_ ∧ _))

/-- The budgets that `required` writes out are not too long for it. -/
def Printable (spec : JobSpec) (afterInstall : Bool) : Prop :=
  ¬ DateText.TooLong spec.budgets.wallClock ∧
    (ByBudget spec afterInstall -> ¬ DateText.TooLong spec.retry.budgetSeconds)

instance (spec : JobSpec) (afterInstall : Bool) : Decidable (Printable spec afterInstall) :=
  inferInstanceAs (Decidable (_ ∧ (_ -> _)))

/-- `expiry_problems`; nothing where it raises. -/
def expiryProblems (w : World) (spec : JobSpec) (afterInstall : Bool)
    (storedExpiry : String -> Option Rat) : Option (List Diagnostic) :=
  if Printable spec afterInstall then
    ((urlItems spec).mapM (expiryProblem w spec afterInstall storedExpiry)).map List.flatten
  else none

/-!
## The plan
-/

def entryDiagnostics (w : World) (spec : JobSpec) : List Diagnostic :=
  (if w.entryEscapes then
    [diagnostic .error "entry_not_under_bundle"
      "code.entry resolves outside its configured code root" .fixCode
      ("Keep code.entry below code.root; remove symlink traversal outside that " ++
        "directory.")]
  else []) ++
  (if w.entryIsFile then []
  else [diagnostic .error "code_entry_missing"
      s!"code.entry does not exist on disk under {w.codeRoot}: {spec.code.entry}" .fixCode
      "Create code.entry or provide the path to an existing file."])

def artifactSizeDiagnostics (spec : JobSpec) : List Diagnostic :=
  (spec.artifacts.mapIdx fun index artifact =>
    if artifact.sizeBytes.isSome then []
    else [diagnostic .warn "artifact_size_unknown"
      s!"artifacts[{index}] has no declared size" .retrySame
      "Declare artifact size_bytes to improve disk-space planning."]).flatten

def dataSizeDiagnostics (spec : JobSpec) (probed : List (String × Int)) :
    List Diagnostic :=
  let unknown := (spec.data.mapIdx fun index item =>
    if item.sizeBytes = none ∧ (probed.lookup s!"data[{index}]").isNone then
      [s!"data[{index}]"] else []).flatten
  let names := ", ".intercalate unknown
  if unknown = [] then []
  else [diagnostic .warn "data_size_unknown"
    (s!"size unknown for {names}: no size_bytes declared " ++
      "and the ranged GET did not measure one") .retrySame
    "Declare size_bytes for every data item to enable disk-space planning."]

def contentsUploadCeiling : Int := 250 * 1024 * 1024

def sourceSizeDiagnostics (files : List SourceFileLock) : List Diagnostic :=
  let large := (files.filter fun f => contentsUploadCeiling < f.sizeBytes).map fun f =>
    diagnostic .error "source_file_too_large"
      (s!"source file {f.path} is {f.sizeBytes} bytes; " ++
        "Contents uploads are limited to 250 MB per file") .fixCode
      "Move large inputs to a data URL instead of the source bundle."
  let total := (files.map (·.sizeBytes)).sum
  if contentsUploadCeiling < total ∧ large = [] then
    [diagnostic .warn "source_payload_large"
      s!"aggregate source payload is {total} bytes across {files.length} files" .fixCode
      "Prefer data URLs for datasets; Contents is for code, not bulk data."]
  else large

/-- `build_plan`; nothing where `expiry_problems` raises. -/
def buildPlan (w : World) (spec : JobSpec) (jobId : String)
    (sourceSpecPath : Option String) : Option Plan := do
  let expiring ← expiryProblems w spec false fun _ => none
  let (probeDiagnostics, probed) := w.probe
  let checked := acceleratorDiagnostics w spec ++ retryDiagnostics spec ++
    policyDiagnostics spec ++ syncDiagnostics spec ++ w.urls ++ w.controlUrls ++
    SpecPaths.pathDiagnostics spec jobId ++ entryDiagnostics w spec ++ expiring ++
    artifactSizeDiagnostics spec ++ probeDiagnostics ++ dataSizeDiagnostics spec probed
  let covered := checked.any fun d =>
    d.code = "code_entry_missing" || d.code = "entry_not_under_bundle"
  let (files, sourceDiagnostics) := w.source covered
  return {
    jobId
    specHash := w.specHash spec
    createdAt := w.isoformat w.now
    spec
    diagnostics := checked ++ sourceDiagnostics ++ sourceSizeDiagnostics files
    urlExpiry := (urlItems spec).map fun item =>
      (item.1, (w.expiry item.2.1).map w.isoformat)
    probedSizeBytes := probed
    sourceSpecPath
    sourceFiles := files }

end Planner
end Job
end MightyColab
