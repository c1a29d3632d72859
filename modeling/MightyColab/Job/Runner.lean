import MightyColab.Job.Models

/-!
# The runner's verdict

The runner on the VM, from its launch record to `result.json`: staging, the wait for the
consumer, the probes after it, the offload, and the payload it writes. What the VM, the
network and the consumer do to one run is given. Error texts are given as the redaction
leaves them.
-/

namespace MightyColab
namespace Job

open Lib

namespace Runner

/-!
## Errors
-/

structure Raised where
  exception : String
  message : String
  deriving DecidableEq, Repr

def Raised.text (e : Raised) : String := s!"{e.exception}: {e.message}"

/-- What `_error_category` and `_transfer_error` tell exceptions apart by. -/
inductive FailureKind where
  /-- A response with an error status, and the first bytes of its body. -/
  | http (status : Int) (body : Option String)
  | blocked
  | size
  | checksum
  | setup
  | network
  | localDisk
  | other
  deriving DecidableEq, Repr

structure Failure extends Raised where
  kind : FailureKind
  deriving DecidableEq, Repr

def manifestError (message : String) : Failure :=
  { exception := "ManifestError", message, kind := .setup }

def valueError (message : String) : Failure :=
  { exception := "ValueError", message, kind := .other }

def errorCategory : FailureKind -> TransferCategory
  | .http _ _ => .http
  | .blocked => .blocked
  | .size => .size
  | .checksum => .checksum
  | .setup => .setup
  | .network => .network
  | .localDisk => .localDisk
  | .other => .error

def categoryValue : TransferCategory -> String
  | .http => "http"
  | .network => "network"
  | .checksum => "checksum"
  | .size => "size"
  | .localDisk => "local"
  | .blocked => "blocked"
  | .setup => "setup"
  | .error => "error"

def optNat (number : Option Nat) : Json := Json.optional (number.map fun n => .int n)

def transferError (e : Failure) : Json :=
  let (httpStatus, body) := match e.kind with
    | .http status body => (Json.int status, Json.optStr body)
    | _ => (Json.null, Json.null)
  .obj
    [("exception", .str e.exception), ("reason", .str e.message),
      ("http_status", httpStatus), ("body", body),
      ("category", .str (categoryValue (errorCategory e.kind)))]

/-!
## Manifests
-/

/-- `_url_id`, and `urlsplit(url).query`, which raises for some texts. -/
structure UrlReader where
  urlId : String -> String
  query : String -> Except Failure String

/-- `_load_manifest`, given what parsing the file gives. -/
def loadManifest (path : Option String) (read : Except Failure Json) :
    Except Failure (List Json) :=
  match path.filter (· ≠ "") with
  | none => .ok []
  | some path =>
      match read with
      | .error e => .error e
      | .ok (.arr items) => .ok items
      | .ok _ => .error (manifestError s!"manifest {path} must be a JSON array")

/-- `_resolve_transfer_url`; `urls` is the credential channel's. -/
def resolveTransferUrl (reader : UrlReader) (item : Json.Fields)
    (urls : List (String × String)) : Except Failure String :=
  let declaredId := item.get "url_id"
  match item.get "url_ref" with
  | .null =>
      match item.get "url" with
      | .str url => do
          if (← reader.query url) ≠ "" then
            throw (manifestError "manifest contains an unsafe credential URL")
          return url
      | _ => .error (manifestError "manifest contains an unsafe credential URL")
  | .str reference =>
      match urls.lookup reference with
      | none => .error (manifestError "manifest credential reference is unavailable")
      | some url =>
          if declaredId.asStr? = some (reader.urlId url) then .ok url
          else .error (manifestError "manifest credential reference does not match")
  | _ => .error (manifestError "manifest credential reference is unavailable")

def statusValue : ArtifactStatus -> String
  | .ok => "ok"
  | .failed => "failed"
  | .missing => "missing"

/-- The record of one transfer; `key` names its place on the VM. -/
def transferRecord (key : String) (place urlId : Json) (status : ArtifactStatus)
    (sha256 : Option String) (bytes : Option Nat) (error : Option Failure) : Json :=
  .obj ([(key, place), ("url_id", urlId), ("status", .str (statusValue status)),
    ("sha256", Json.optStr sha256), ("bytes", optNat bytes)] ++
      (error.map fun e => ("error", transferError e)).toList)

def strOrEmpty : Json -> String
  | .str s => s
  | _ => ""

/-!
## Staging
-/

/-- What `_http_get_to_file` raises: an exception, or what only `BaseException` covers. -/
inductive Thrown where
  | failure (e : Failure)
  | base (e : Raised)
  deriving DecidableEq, Repr

inductive StageError where
  | item (record : Json) (dest reason : String)
  | setup (e : Raised)
  deriving Repr

abbrev Fetch := Except Thrown (Nat × String)

def stageOne (reader : UrlReader) (urls : List (String × String)) (fetch : Fetch)
    (item : Json) : Except StageError Json :=
  let dest := (item.asObj?.map fun f => Json.Fields.get f "dest").getD .null
  let declaredId := (item.asObj?.map fun f => Json.Fields.get f "url_id").getD .null
  let failed (urlId : String) (e : Failure) : Except StageError Json :=
    .error (.item
      (transferRecord "dest" (.str (strOrEmpty dest)) (.str urlId) .failed none none
        (some e))
      (strOrEmpty dest) e.message)
  match item with
  | .obj fields =>
      match dest with
      | .str dest =>
          match resolveTransferUrl reader fields urls with
          | .error e => failed (strOrEmpty declaredId) e
          | .ok url =>
              let urlId :=
                if strOrEmpty declaredId = "" then reader.urlId url
                else strOrEmpty declaredId
              match fetch with
              | .ok (size, digest) =>
                  .ok (transferRecord "dest" (.str dest) (.str urlId) .ok
                    (some digest) (some size) none)
              | .error (.failure e) => failed urlId e
              | .error (.base e) => .error (.setup e)
      | _ => failed (strOrEmpty declaredId) (manifestError "stage item requires dest")
  | _ => failed (strOrEmpty declaredId) (manifestError "stage item must be an object")

/-- `_stage` after its manifest is read: the records, and what ended it early. -/
def stageItems (reader : UrlReader) (urls : List (String × String)) :
    List Json -> (Nat -> Fetch) -> List Json × Option StageError
  | [], _ => ([], none)
  | item :: rest, fetch =>
      match stageOne reader urls (fetch 0) item with
      | .ok record =>
          let (records, ended) := stageItems reader urls rest fun n => fetch (n + 1)
          (record :: records, ended)
      | .error (.item record dest reason) => ([record], some (.item record dest reason))
      | .error e => ([], some e)

/-!
## Offload
-/

inductive Put where
  /-- It is not there, or not any more. -/
  | absent
  | failed (e : Failure) (bytes : Option Nat)
  | sent (bytes : Nat) (sha256 : String)
  deriving DecidableEq, Repr

def artifactRecord (reader : UrlReader) (urls : List (String × String)) (put : Put)
    (item : Json) : Except Failure (Json × ArtifactStatus) :=
  match item with
  | .obj fields =>
      match resolveTransferUrl reader fields urls with
      | .error e => .error e
      | .ok url =>
          match Json.Fields.get fields "path" with
          | .str path =>
              let urlId :=
                (Json.Fields.get fields "url_id").orElse (.str (reader.urlId url))
              let record (status : ArtifactStatus) (sha256 : Option String)
                  (bytes : Option Nat) (error : Option Failure) :=
                (transferRecord "path" (.str path) urlId status sha256 bytes error, status)
              .ok (match put with
                | .absent => record .missing none none none
                | .failed e bytes => record .failed none bytes (some e)
                | .sent bytes sha256 => record .ok (some sha256) (some bytes) none)
          | _ => .error (valueError "offload item requires path")
  | _ => .error (valueError "offload item must be an object")

/-- The record of a manifest item that `_artifact_record` raised for. -/
def refusedRecord (item : Json) (e : Failure) : Json :=
  let path := (item.asObj?.map fun f => Json.Fields.getD f "path" (.str "")).getD (.str "")
  let urlId := (item.asObj?.map fun f => Json.Fields.getD f "url_id" (.str "")).getD (.str "")
  transferRecord "path" path (.str (strOrEmpty urlId)) .failed none none (some e)

def offloadOne (reader : UrlReader) (urls : List (String × String)) (put : Put)
    (item : Json) : Json × ArtifactStatus :=
  match artifactRecord reader urls put item with
  | .ok record => record
  | .error e => (refusedRecord item e, .failed)

/-- `bool(item.get("required", True))`. -/
def itemRequired : Json -> Bool
  | .obj fields => (Json.Fields.getD fields "required" (.bool true)).truthy
  | _ => true

/-- `_offload` after its manifest is read: the records, and whether one of them fails it. -/
def offloadItems (reader : UrlReader) (urls : List (String × String)) :
    List Json -> (Nat -> Put) -> List Json × Bool
  | [], _ => ([], false)
  | item :: rest, put =>
      let (record, status) := offloadOne reader urls (put 0) item
      let (records, failed) := offloadItems reader urls rest fun n => put (n + 1)
      (record :: records,
        status = .failed || (status = .missing && itemRequired item) || failed)

/-- `_offload`: the records, whether it failed, and why it could not start. -/
def offload (reader : UrlReader) (urls : List (String × String)) (path : String)
    (read : Except Failure Json) (put : Nat -> Put) : List Json × Bool × Option String :=
  match loadManifest (some path) read with
  | .error e => ([], true, some s!"offload manifest unreadable: {e.toRaised.text}")
  | .ok items =>
      let (records, failed) := offloadItems reader urls items put
      (records, failed, none)

/-!
## The wait for the consumer
-/

/-- What `os.waitpid` says of the shim. -/
inductive Waited where
  | running
  | signaled (signal : Nat)
  | exited (code : Nat)
  /-- Neither `WIFSIGNALED` nor `WIFEXITED`. -/
  | other
  deriving DecidableEq, Repr

/-- One pass of the wait loop. -/
structure Tick where
  waited : Except Raised Waited
  now : Rat
  /-- `cancel.json` exists. -/
  cancelRequested : Bool
  /-- Writing `cancel.json` for the deadline raises. -/
  cancelWrite : Option Raised := none
  /-- The rest of the pass raises. -/
  rest : Option Raised := none

structure Wait where
  exitCode : Option Nat := none
  termSignal : Option Nat := none
  runnerError : Option String := none
  termSent : Bool := false
  killSent : Bool := false
  escalateAt : Rat := 0
  deriving DecidableEq, Repr

def waitPass (deadline : Option Rat) (t : Tick) (s : Wait) : Bool × Wait :=
  let raised (e : Raised) (s : Wait) := (true, { s with runnerError := some e.text })
  match t.waited with
  | .error e => raised e s
  | .ok (.signaled signal) => (true, { s with termSignal := some signal })
  | .ok (.exited code) => (true, { s with exitCode := some code })
  | .ok .other => (true, s)
  | .ok .running =>
      let deadlineReached := (deadline.filter (· ≠ 0)).any fun d => decide (d < t.now)
      let goOn (s : Wait) :=
        match t.rest with
        | some e => raised e s
        | none => (false, s)
      if !s.termSent && (t.cancelRequested || deadlineReached) then
        match if deadlineReached && !t.cancelRequested then t.cancelWrite else none with
        | some e => raised e s
        | none => goOn { s with termSent := true, escalateAt := t.now + graceSeconds }
      else if s.termSent && !s.killSent && decide (s.escalateAt < t.now) then
        goOn { s with killSent := true }
      else goOn s

def wait (deadline : Option Rat) : List Tick -> Wait -> Option Wait
  | [], _ => none
  | t :: rest, s =>
      let (ended, s) := waitPass deadline t s
      if ended then some s else wait deadline rest s

/-!
## The verdict
-/

/-- A file of the job directory, as `_read_json_checked` finds it. -/
inductive FileRead where
  | absent
  | unreadable (why : String)
  | json (value : Json)
  deriving Repr

def FileRead.value : FileRead -> Json
  | .json value => value
  | _ => .null

/-- `cancel.json`'s content; one that cannot be read is still a cancel. -/
def FileRead.intent : FileRead -> Json
  | .json value => value
  | .absent => .null
  | .unreadable why =>
      .obj [("intent", .str "cancelled"), ("by", .null), ("error", .str why)]

def workloadOf (s : Wait) (intent : Json) : Workload :=
  if s.runnerError.isSome ∧ s.exitCode = none ∧ s.termSignal = none then .unknown
  else if s.termSent ∧ intent.truthy then .cancelled
  else if s.termSignal.isSome then if intent.truthy then .cancelled else .failed
  else if s.exitCode = some 0 then .succeeded
  else .failed

def classifyWorkload (workload : Workload) (tagged : List Nat) (detectOk : Bool) :
    Workload × Option String :=
  if detectOk = false ∧ workload = .succeeded then
    (.unknown, some "escapee detection unavailable")
  else if tagged ≠ [] ∧ workload = .succeeded then
    (.failed, some "tagged descendants survived containment")
  else (workload, none)

/-!
## The payload
-/

/-- A reading of the VM's clock: not before 1970 and within the kernel's 64 bits of
nanoseconds, with the text Python prints for it. -/
structure VmTime where
  seconds : Rat
  text : String
  after : 0 ≤ seconds
  before : seconds ≤ 9223372037

def VmTime.json (t : VmTime) : Json := .float (some t.seconds) t.text

def VmTime.sample : VmTime := ⟨1000, "1000.0", by decide, by decide⟩

/-- The arguments of `_result_payload`. -/
structure Payload where
  cliVersion : String
  payloadDigest : String
  workload : Workload
  exitCode : Option Nat := none
  termSignal : Option Nat := none
  signalName : Option String := none
  intent : Json := .null
  exception : Json := .null
  survivors : List Nat := []
  tagged : List Nat := []
  detectOk : Bool
  runnerError : Option String
  attempt : Int
  started : VmTime
  finished : VmTime
  phase : Phase
  inputs : List Json
  artifacts : List Json := []
  offloadStatus : Offload
  offloadError : Option String := none
  oomKills : Option Int := none
  oomLog : List String := []
  warnings : List String := []

/-- `offload` of `result.json`. -/
def offloadValue : Offload -> String
  | .pending => "pending"
  | .running => "running"
  | .ok => "ok"
  | .notRequired => "not_required"
  | .skipped => "skipped"
  | .failed => "failed"

def strs (texts : List String) : Json := .arr (texts.map Json.str)

def nats (numbers : List Nat) : Json := .arr (numbers.map fun n : Nat => .int n)

def resultPayload (p : Payload) : Json.Fields :=
  let allSurvivors := (p.survivors ++ p.tagged).eraseDups.mergeSort fun a b => decide (a ≤ b)
  [("schema_version", .str "2"),
    ("cli_version", .str p.cliVersion),
    ("runtime_payload_version", .str ("sha256:" ++ p.payloadDigest)),
    ("workload", .str p.workload.value),
    ("exit_code", optNat p.exitCode),
    ("signal", optNat p.termSignal),
    ("signal_name", Json.optStr p.signalName),
    ("cancel_intent", p.intent),
    ("exception", p.exception),
    ("surviving_descendants", nats allSurvivors),
    ("survivors_by_pgid", nats p.survivors),
    ("survivors_by_job_tag", nats p.tagged),
    ("escapee_detection_available", .bool p.detectOk),
    ("runner_error", Json.optStr p.runnerError),
    ("attempt", .int p.attempt),
    ("started_at", p.started.json),
    ("finished_at", p.finished.json),
    ("phase", .str p.phase.value),
    ("inputs", .arr p.inputs),
    ("artifacts", .arr p.artifacts),
    ("offload", .str (offloadValue p.offloadStatus)),
    ("offload_error", Json.optStr p.offloadError),
    ("oom_kills", Json.optional (p.oomKills.map Json.int)),
    ("oom_log", strs p.oomLog),
    ("runner_warnings", strs p.warnings)]

/-!
## One run
-/

/-- The arguments of the runner that the supervisor's launch gives it. -/
structure Args where
  cliVersion : String
  deadlineSecs : Option Rat := none
  /-- `--secrets-fd` is given. -/
  secretsFd : Bool := false
  secretsRequired : Bool := false
  stageManifest : Option String := none
  offloadManifest : Option String := none
  artifactSyncInterval : Option Rat := none

/-- What the VM, the network and the consumer do to one run that gets past its launch
record. -/
structure Run where
  args : Args
  reader : UrlReader
  payloadDigest : String
  attempt : Int
  started : VmTime
  /-- The URLs of the credential channel, or why it cannot be used. -/
  channel : Except Raised (List (String × String))
  /-- What parsing the manifests gives, when each is loaded. -/
  stageRead : Except Failure Json
  syncRead : Except Failure Json
  offloadRead : Except Failure Json
  fetch : Nat -> Fetch
  put : Nat -> Put
  /-- `traceback.format_exc()` of what ended staging. -/
  traceback : String
  watchdogStart : Option Raised
  ticks : List Tick
  /-- By path: how often the periodic sync failed, and the last reason. -/
  syncFailures : List (String × Nat × String)
  descendants : Except Raised (List Nat)
  sweep : Option Raised
  tagged : Except Raised (List Nat)
  canDetect : Bool
  cancelFile : FileRead
  exceptionFile : FileRead
  oomBefore : Option Nat
  oomAfter : Option Nat
  /-- The kernel's "Killed process" lines; none if they cannot be read. -/
  oomLines : List String
  signalName : Nat -> Option String
  finished : VmTime

def stageTracebackChars : Nat := 4000

def oomLogLines : Nat := 3

namespace Run

/-- The URLs that `_load_transfer_secrets` gives. -/
def urls (r : Run) : List (String × String) :=
  if r.args.secretsFd then
    match r.channel with
    | .ok urls => urls
    | .error _ => []
  else []

def stage (r : Run) : List Json × Option StageError :=
  match if r.args.secretsFd then r.channel else .ok [] with
  | .error e => ([], some (.setup e))
  | .ok urls =>
      if r.args.secretsRequired ∧ r.args.secretsFd = false then
        ([], some (.setup
          (manifestError "required transfer credential channel is missing").toRaised))
      else
        match loadManifest r.args.stageManifest r.stageRead with
        | .error e => ([], some (.setup e.toRaised))
        | .ok items => stageItems r.reader urls items r.fetch

def traceExcerpt (full : String) : String :=
  if stageTracebackChars < full.length then
    let omitted := full.length - stageTracebackChars
    s!"[... {omitted} characters omitted; the full traceback is in runner.log ...]\n" ++
      String.ofList (full.toList.drop omitted)
  else full

def stageFailure (r : Run) (inputs : List Json) (error : StageError) : Payload :=
  let (exception, message, trace) := match error with
    | .item _ dest reason => ("StageItemError", s!"{dest}: {reason}", "")
    | .setup e => (e.exception, e.text, traceExcerpt r.traceback)
  { cliVersion := r.args.cliVersion
    payloadDigest := r.payloadDigest
    workload := .failed
    exitCode := some 1
    exception := .obj
      [("type", .str exception), ("message", .str message), ("traceback", .str trace)]
    detectOk := r.canDetect
    runnerError := some message
    attempt := r.attempt
    started := r.started
    finished := r.finished
    phase := .stage
    inputs := inputs
    offloadStatus := .pending }

def deadline (r : Run) : Option Rat :=
  (r.args.deadlineSecs.filter (· ≠ 0)).map fun secs => r.started.seconds + secs

def taggedFound (r : Run) : List Nat :=
  match r.tagged with
  | .ok pids => pids
  | .error _ => []

def survivorsFound (r : Run) : List Nat :=
  match r.descendants with
  | .ok pids => pids
  | .error _ => []

def detectOk (r : Run) : Bool :=
  match r.tagged with
  | .ok _ => r.canDetect
  | .error _ => false

def errorText (probe : Except Raised (List Nat)) : Option String :=
  match probe with
  | .ok _ => none
  | .error e => some e.text

def syncWarning (failure : String × Nat × String) : String :=
  s!"periodic sync of {failure.1} failed {failure.2.1} time(s); last: {failure.2.2}"

def syncDisabled (r : Run) : Option String :=
  if (r.args.artifactSyncInterval.filter (· ≠ 0)).isSome ∧
      (r.args.offloadManifest.filter (· ≠ "")).isSome then
    match loadManifest r.args.offloadManifest r.syncRead with
    | .ok _ => none
    | .error e => some s!"periodic artifact sync disabled: {e.message}"
  else none

/-- `warnings`, in the order they are given. -/
def warnings (r : Run) : List String :=
  (r.watchdogStart.map fun e =>
      s!"watchdog did not start ({e.text}); only the runner " ++
        "enforces wall_clock and watchdog.json is not written").toList ++
    r.syncDisabled.toList ++ r.syncFailures.map syncWarning ++
    ((errorText r.descendants).map fun text => s!"descendant probe failed: {text}").toList ++
    (r.sweep.map fun e => s!"tagged process sweep failed: {e.text}").toList ++
    ((errorText r.tagged).map fun text => s!"tagged process probe failed: {text}").toList ++
    (match r.cancelFile with
      | .unreadable why => [s!"cancel.json unreadable: {why}"]
      | _ => []) ++
    (match r.exceptionFile with
      | .unreadable why => [s!"exception.json unreadable: {why}"]
      | _ => [])

def oomKills (r : Run) : Option Int :=
  match r.oomBefore, r.oomAfter with
  | some before, some after => some ((after : Int) - before)
  | _, _ => none

/-- `_oom_log`, asked for only after a kill. -/
def oomLog (r : Run) : List String :=
  match r.oomKills with
  | some kills =>
      if 0 < kills then
        r.oomLines.drop (r.oomLines.length - min kills.toNat oomLogLines)
      else []
  | none => []

def runnerError (r : Run) (s : Wait) (containError : Option String) : Option String :=
  s.runnerError.or (containError.map fun text =>
    match errorText r.tagged with
    | some why => s!"{text} ({why})"
    | none => text)

/-- The offload: its records, whether it failed, and why it could not start; nothing when
no manifest is given. -/
def offloaded (r : Run) : Option (List Json × Bool × Option String) :=
  (r.args.offloadManifest.filter (· ≠ "")).map fun path =>
    offload r.reader r.urls path r.offloadRead r.put

def verdict (r : Run) (inputs : List Json) (s : Wait) : Payload :=
  let intent := r.cancelFile.intent
  let (workload, containError) :=
    classifyWorkload (workloadOf s intent) r.taggedFound r.detectOk
  let (artifacts, phase, offloadStatus, offloadError) := match r.offloaded with
    | some (records, failed, error) =>
        (records, if failed then Phase.offload else Phase.run,
          if failed then Offload.failed else Offload.ok, error)
    | none => ([], Phase.run, Offload.notRequired, none)
  { cliVersion := r.args.cliVersion
    payloadDigest := r.payloadDigest
    workload := workload
    exitCode := s.exitCode
    termSignal := s.termSignal
    signalName := s.termSignal.bind r.signalName
    intent := intent
    exception := r.exceptionFile.value
    survivors := r.survivorsFound
    tagged := r.taggedFound
    detectOk := r.detectOk
    runnerError := r.runnerError s containError
    attempt := r.attempt
    started := r.started
    finished := r.finished
    phase := phase
    inputs := inputs
    artifacts := artifacts
    offloadStatus := offloadStatus
    offloadError := offloadError
    oomKills := r.oomKills
    oomLog := r.oomLog
    warnings := r.warnings }

/-- The payload of `result.json`, once it is written. -/
def written (r : Run) : Option Payload :=
  match r.stage with
  | (inputs, some error) => some (r.stageFailure inputs error)
  | (inputs, none) => (wait r.deadline r.ticks {}).map (r.verdict inputs)

end Run

/-- A consumer that exits 0, with nothing to stage or upload, and this file behind it. -/
def exitsZero (exceptionFile : FileRead) : Run where
  args := { cliVersion := "0.5.0" }
  reader := ⟨id, fun _ => .ok ""⟩
  payloadDigest := "00"
  attempt := 1
  started := .sample
  channel := .ok []
  stageRead := .ok (.arr [])
  syncRead := .ok (.arr [])
  offloadRead := .ok (.arr [])
  fetch := fun _ => .ok (0, "")
  put := fun _ => .absent
  traceback := ""
  watchdogStart := none
  ticks := [⟨.ok (.exited 0), 1002, false, none, none⟩]
  syncFailures := []
  descendants := .ok []
  sweep := none
  tagged := .ok []
  canDetect := true
  cancelFile := .absent
  exceptionFile := exceptionFile
  oomBefore := none
  oomAfter := none
  oomLines := []
  signalName := fun _ => none
  finished := ⟨2005 / 2, "1002.5", by decide +kernel, by decide +kernel⟩

end Runner
end Job
end MightyColab
