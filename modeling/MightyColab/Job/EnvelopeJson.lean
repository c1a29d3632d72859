import Mathlib.Tactic.MkIffOfInductiveProp
import MightyColab.Lib.JsonRecord
import MightyColab.Job.Absorb
import MightyColab.Job.PlanDump
import MightyColab.Job.Runner

/-!
# The envelope's document

`JobEnvelope` and the records in it as `write_envelope` dumps them and `read_envelope`
validates them, fields that this CLI does not define included. The text of the document is
taken for the document.
-/

namespace MightyColab
namespace Job

open Lib
open Json (FloatValue)

namespace EnvelopeJson

/-!
## Values
-/

/-- What validation makes of an integer or a string where a float is asked for. -/
structure FloatInput where
  ofInt : Int -> Option FloatValue
  ofText : String -> Option FloatValue

def int : Codec Int where
  write := .int
  read j := (Absorb.optInt "" j).toOption.join

def float (input : FloatInput) : Codec FloatValue where
  write v := .float v.value v.text
  read
    | .float value text => some ⟨value, text⟩
    | .int i => input.ofInt i
    | .bool b => input.ofInt (if b then 1 else 0)
    | .str s => input.ofText s
    | _ => none

def trueWords : List String := ["1", "on", "t", "true", "y", "yes"]

def falseWords : List String := ["0", "off", "f", "false", "n", "no"]

def bool : Codec Bool where
  write := .bool
  read
    | .bool b => some b
    | .int i => if i = 0 then some false else if i = 1 then some true else none
    | .float value _ =>
        if value = some 0 then some false else if value = some 1 then some true else none
    | .str s =>
        let word := String.ofList (s.toList.map Char.toLower)
        if word ∈ trueWords then some true
        else if word ∈ falseWords then some false else none
    | _ => none

def supervisorValue : Supervisor -> String
  | .running => "running"
  | .degraded => "degraded"
  | .finished => "finished"
  | .interrupted => "interrupted"

def artifactStatusValue : ArtifactStatus -> String
  | .ok => "ok"
  | .failed => "failed"
  | .missing => "missing"

def inputStatusValue : InputStatus -> String
  | .ok => "ok"
  | .failed => "failed"

def outcomeValue : ProvisionOutcome -> String
  | .granted => "granted"
  | .failed => "failed"
  | .refusedCpu => "refused_cpu"

def installerValue : Installer -> String
  | .uv => "uv"
  | .pip => "pip"

def installFailureValue : InstallFailure -> String
  | .resolution => "resolution"
  | .build => "build"
  | .auth => "auth"
  | .transient => "transient"
  | .timeout => "timeout"
  | .unknown => "unknown"

def ofValue {member : Type} (all : List member) (value : member -> String) (s : String) :
    Option member :=
  all.find? fun m => value m = s

def member {member : Type} (all : List member) (value : member -> String) : Codec member :=
  .enum value (ofValue all value)

def phase : Codec Phase := member Phase.all Phase.value

def workload : Codec Workload := member Workload.all Workload.value

def offload : Codec Offload :=
  member [.pending, .running, .ok, .notRequired, .skipped, .failed] Runner.offloadValue

def cleanup : Codec Cleanup :=
  member [.pending, .running, .released, .alreadyAbsent, .leftUp, .failed] Cleanup.value

def supervisor : Codec Supervisor :=
  member [.running, .degraded, .finished, .interrupted] supervisorValue

def retryClass : Codec RetryClass :=
  member [.fixCode, .fixHuman, .retrySame, .retryDifferent, .refreshUrls, .doNotRetry]
    RetryClass.value

def category : Codec TransferCategory :=
  member [.http, .network, .checksum, .size, .localDisk, .blocked, .setup, .error]
    Runner.categoryValue

def artifactStatus : Codec ArtifactStatus :=
  member [.ok, .failed, .missing] artifactStatusValue

def inputStatus : Codec InputStatus := member [.ok, .failed] inputStatusValue

def provisionOutcome : Codec ProvisionOutcome :=
  member [.granted, .failed, .refusedCpu] outcomeValue

def installer : Codec Installer := member [.uv, .pip] installerValue

def installFailure : Codec InstallFailure :=
  member [.resolution, .build, .auth, .transient, .timeout, .unknown] installFailureValue

/-!
## Records
-/

open Shape (required optional field)

def orNone {value : Type} (name : String) (c : Codec value) : Shape (Option value) :=
  optional name none c.nullable

def transferErrorShape :=
  (required "exception" .str).and <| (required "reason" .str).and <|
    (orNone "http_status" int).and <| (orNone "body" .str).and <| orNone "category" category

def transferError : Codec TransferError :=
  transferErrorShape.openRecord.map
    { toFun := fun ((exception, reason, httpStatus, body, category), extra) =>
        { exception, reason, httpStatus, body, category, extra }
      invFun := fun e => ((e.exception, e.reason, e.httpStatus, e.body, e.category), e.extra)
      left_inv := fun _ => rfl
      right_inv := fun _ => rfl }

def artifactShape :=
  (required "path" .str).and <| (required "url_id" .str).and <|
    (required "status" artifactStatus).and <| (orNone "sha256" .str).and <|
      (orNone "bytes" int).and <| orNone "error" transferError

def artifact : Codec ArtifactResult :=
  artifactShape.openRecord.map
    { toFun := fun ((path, urlId, status, sha256, bytes, error), extra) =>
        { path, urlId, status, sha256, bytes, error, extra }
      invFun := fun a =>
        ((a.path, a.urlId, a.status, a.sha256, a.bytes, a.error), a.extra)
      left_inv := fun _ => rfl
      right_inv := fun _ => rfl }

def inputShape :=
  (required "dest" .str).and <| (required "url_id" .str).and <|
    (required "status" inputStatus).and <| (orNone "sha256" .str).and <|
      (orNone "bytes" int).and <| orNone "error" transferError

def input : Codec InputResult :=
  inputShape.openRecord.map
    { toFun := fun ((dest, urlId, status, sha256, bytes, error), extra) =>
        { dest, urlId, status, sha256, bytes, error, extra }
      invFun := fun a =>
        ((a.dest, a.urlId, a.status, a.sha256, a.bytes, a.error), a.extra)
      left_inv := fun _ => rfl
      right_inv := fun _ => rfl }

def readingShape (floats : FloatInput) :=
  (required "at" .str).and <| (required "balance" (float floats)).and <|
    (required "rate_hourly" (float floats)).and <| required "assignments" int

def reading (floats : FloatInput) : Codec ComputeUnitReading :=
  (readingShape floats).openRecord.map
    { toFun := fun ((readAt, balance, rateHourly, assignments), extra) =>
        { readAt, balance, rateHourly, assignments, extra }
      invFun := fun r => ((r.readAt, r.balance, r.rateHourly, r.assignments), r.extra)
      left_inv := fun _ => rfl
      right_inv := fun _ => rfl }

def provisionShape :=
  (required "accelerator" .str).and <| (required "outcome" provisionOutcome).and <|
    (orNone "granted" .str).and <| (orNone "http_status" int).and <|
      (orNone "error" .str).and <| (orNone "body" .str).and <| orNone "retry_class" retryClass

def provisionAttempt : Codec ProvisionAttempt :=
  provisionShape.openRecord.map
    { toFun := fun ((accelerator, outcome, granted, httpStatus, error, body, retryClass),
          extra) =>
        { accelerator, outcome, granted, httpStatus, error, body, retryClass, extra }
      invFun := fun a =>
        ((a.accelerator, a.outcome, a.granted, a.httpStatus, a.error, a.body, a.retryClass),
          a.extra)
      left_inv := fun _ => rfl
      right_inv := fun _ => rfl }

def installShape (floats : FloatInput) :=
  (required "installer" installer).and <| (required "version" .str).and <|
    (required "command" (.list .str)).and <| (optional "index" [] (.dict .str)).and <|
      (orNone "exit_code" int).and <| (optional "timed_out" false bool).and <|
        (required "seconds" (float floats)).and <| (orNone "failure" installFailure).and <|
          optional "key_lines" [] (.list .str)

def installAttempt (floats : FloatInput) : Codec InstallAttempt :=
  (installShape floats).openRecord.map
    { toFun := fun ((installer, version, command, index, exitCode, timedOut, seconds,
          failure, keyLines), extra) =>
        { installer, version, command, index, exitCode, timedOut, seconds, failure, keyLines,
          extra }
      invFun := fun a =>
        ((a.installer, a.version, a.command, a.index, a.exitCode, a.timedOut, a.seconds,
          a.failure, a.keyLines), a.extra)
      left_inv := fun _ => rfl
      right_inv := fun _ => rfl }

def unlessEmpty {value : Type} (name : String) (c : Codec value) : Shape (List value) :=
  field name (some []) List.isEmpty c.list

def ifSet (name : String) : Shape Bool := field name (some false) (!·) bool

def ifTaken {value : Type} (name : String) (c : Codec value) : Shape (Option value) :=
  field name (some none) Option.isNone c.nullable

def envelopeShape (floats : FloatInput) :=
  (optional "schema_version" "2" .str).and <| (optional "cli_version" "" .str).and <|
    (optional "runtime_payload_version" "" .str).and <| (required "job_id" .str).and <|
    (optional "phase" .plan phase).and <| (orNone "failed_phase" phase).and <|
    (optional "workload" .pending workload).and <| (optional "offload" .pending offload).and <|
    (optional "cleanup" .pending cleanup).and <|
    (optional "supervisor" .running supervisor).and <| (orNone "session" .str).and <|
    (orNone "endpoint" .str).and <| (orNone "requested_accelerator" .str).and <|
    (orNone "actual_accelerator" .str).and <| (orNone "exit_code" int).and <|
    (orNone "signal" int).and <| (orNone "exception" (.dict .str)).and <|
    (optional "surviving_descendants" [] int.list).and <| (unlessEmpty "inputs" input).and <|
    (optional "artifacts" [] artifact.list).and <|
    (unlessEmpty "install_attempts" (installAttempt floats)).and <|
    (unlessEmpty "provision_attempts" provisionAttempt).and <|
    (orNone "retry_class" retryClass).and <| (orNone "reason" .str).and <|
    (optional "hints" [] (.list .str)).and <| (ifSet "leave_up").and <|
    (ifTaken "compute_units_at_provision" (reading floats)).and <|
    (ifTaken "compute_units_at_release" (reading floats)).and <|
    (ifSet "keep_alive_disabled").and <| (optional "attempt" 1 int).and <|
    (optional "next_poll_after" 15 int).and <| (orNone "started_at" .str).and <|
    orNone "finished_at" .str

def parts (e : JobEnvelope) :=
  (e.schemaVersion, e.cliVersion, e.runtimePayloadVersion, e.jobId, e.phase, e.failedPhase,
    e.workload, e.offload, e.cleanup, e.supervisor, e.session, e.endpoint,
    e.requestedAccelerator, e.actualAccelerator, e.exitCode, e.signal, e.exception,
    e.survivingDescendants, e.inputs, e.artifacts, e.installAttempts, e.provisionAttempts,
    e.retryClass, e.reason, e.hints, e.leaveUp, e.computeUnitsAtProvision,
    e.computeUnitsAtRelease, e.keepAliveDisabled, e.attempt, e.nextPollAfter, e.startedAt,
    e.finishedAt)

def envelope (floats : FloatInput) : Codec JobEnvelope :=
  (envelopeShape floats).openRecord.map
    { toFun := fun ((schemaVersion, cliVersion, runtimePayloadVersion, jobId, phase,
          failedPhase, workload, offload, cleanup, supervisor, session, endpoint,
          requestedAccelerator, actualAccelerator, exitCode, signal, exception,
          survivingDescendants, inputs, artifacts, installAttempts, provisionAttempts,
          retryClass, reason, hints, leaveUp, computeUnitsAtProvision,
          computeUnitsAtRelease, keepAliveDisabled, attempt, nextPollAfter, startedAt,
          finishedAt), extra) =>
        { schemaVersion, cliVersion, runtimePayloadVersion, jobId, phase, failedPhase,
          workload, offload, cleanup, supervisor, session, endpoint, requestedAccelerator,
          actualAccelerator, exitCode, signal, exception, survivingDescendants, inputs,
          artifacts, installAttempts, provisionAttempts, retryClass, reason, hints, leaveUp,
          computeUnitsAtProvision, computeUnitsAtRelease, keepAliveDisabled, attempt,
          nextPollAfter, startedAt, finishedAt, extra }
      invFun := fun e => (parts e, e.extra)
      left_inv := fun _ => rfl
      right_inv := fun _ => rfl }

/-!
## Numbers
-/

def FiniteExtra (extra : Json.Fields) : Prop := forall f, f ∈ extra -> f.2.finite = true

@[mk_iff] structure FiniteArtifact (a : ArtifactResult) : Prop where
  error : forall e, a.error = some e -> FiniteExtra e.extra
  extra : FiniteExtra a.extra

@[mk_iff] structure FiniteInput (a : InputResult) : Prop where
  error : forall e, a.error = some e -> FiniteExtra e.extra
  extra : FiniteExtra a.extra

@[mk_iff] structure FiniteReading (r : ComputeUnitReading) : Prop where
  balance : r.balance.value.isSome
  rateHourly : r.rateHourly.value.isSome
  extra : FiniteExtra r.extra

@[mk_iff] structure FiniteInstall (a : InstallAttempt) : Prop where
  seconds : a.seconds.value.isSome
  extra : FiniteExtra a.extra

/-- No number of the envelope is `NaN` or infinite. -/
@[mk_iff] structure FiniteNumbers (env : JobEnvelope) : Prop where
  inputs : forall a, a ∈ env.inputs -> FiniteInput a
  artifacts : forall a, a ∈ env.artifacts -> FiniteArtifact a
  installAttempts : forall a, a ∈ env.installAttempts -> FiniteInstall a
  provisionAttempts : forall a, a ∈ env.provisionAttempts -> FiniteExtra a.extra
  unitsAtProvision : forall r, env.computeUnitsAtProvision = some r -> FiniteReading r
  unitsAtRelease : forall r, env.computeUnitsAtRelease = some r -> FiniteReading r
  extra : FiniteExtra env.extra

@[simp] theorem finiteAt_int (i : Int) : int.FiniteAt i := rfl

@[simp] theorem finiteAt_bool (b : Bool) : bool.FiniteAt b := rfl

@[simp] theorem finiteAt_float (floats : FloatInput) (v : FloatValue) :
    (float floats).FiniteAt v <-> v.value.isSome := Iff.rfl

@[simp] theorem finiteAt_member {m : Type} (all : List m) (value : m -> String) (a : m) :
    (member all value).FiniteAt a := rfl

section Optional

variable {value : Type} (name : String) (c : Codec value)

@[simp] theorem finiteAt_orNone (a : Option value) :
    (orNone name c).FiniteAt a <-> forall b, a = some b -> c.FiniteAt b := by
  rw [orNone, Shape.finiteAt_optional, Codec.finiteAt_nullable]

@[simp] theorem finiteAt_unlessEmpty (items : List value) :
    (unlessEmpty name c).FiniteAt items <-> forall a, a ∈ items -> c.FiniteAt a := by
  rw [unlessEmpty, Shape.finiteAt_field, Codec.finiteAt_list]
  refine or_iff_right_of_imp fun hempty a ha => ?_
  rw [List.isEmpty_iff.mp hempty] at ha
  cases ha

@[simp] theorem finiteAt_ifSet (b : Bool) : (ifSet name).FiniteAt b := by
  rw [ifSet, Shape.finiteAt_field]
  exact Or.inr (finiteAt_bool b)

@[simp] theorem finiteAt_ifTaken (a : Option value) :
    (ifTaken name c).FiniteAt a <-> forall b, a = some b -> c.FiniteAt b := by
  rw [ifTaken, Shape.finiteAt_field, Codec.finiteAt_nullable]
  refine or_iff_right_of_imp fun hnone b hb => ?_
  rw [hb] at hnone
  cases hnone

end Optional

@[simp] theorem finiteAt_transferError (e : TransferError) :
    transferError.FiniteAt e <-> FiniteExtra e.extra := by
  simp [transferError, transferErrorShape, category, FiniteExtra]

@[simp] theorem finiteAt_artifact (a : ArtifactResult) :
    artifact.FiniteAt a <-> FiniteArtifact a := by
  simp [artifact, artifactShape, artifactStatus, finiteArtifact_iff, FiniteExtra]

@[simp] theorem finiteAt_input (a : InputResult) :
    input.FiniteAt a <-> FiniteInput a := by
  simp [input, inputShape, inputStatus, finiteInput_iff, FiniteExtra]

@[simp] theorem finiteAt_reading (floats : FloatInput) (r : ComputeUnitReading) :
    (reading floats).FiniteAt r <-> FiniteReading r := by
  simp [reading, readingShape, finiteReading_iff, FiniteExtra, and_assoc]

@[simp] theorem finiteAt_provisionAttempt (a : ProvisionAttempt) :
    provisionAttempt.FiniteAt a <-> FiniteExtra a.extra := by
  simp [provisionAttempt, provisionShape, provisionOutcome, retryClass, FiniteExtra]

@[simp] theorem finiteAt_installAttempt (floats : FloatInput) (a : InstallAttempt) :
    (installAttempt floats).FiniteAt a <-> FiniteInstall a := by
  simp [installAttempt, installShape, installer, installFailure, finiteInstall_iff,
    FiniteExtra]

theorem finiteAt_envelope (floats : FloatInput) (env : JobEnvelope) :
    (envelope floats).FiniteAt env <-> FiniteNumbers env := by
  simp [envelope, envelopeShape, parts, phase, workload, offload, cleanup, supervisor,
    retryClass, finiteNumbers_iff, FiniteExtra, and_assoc]

/-!
## What is written reads back
-/

theorem int_faithful : int.Faithful fun _ => True :=
  fun _ _ => ⟨fun _ => rfl, fun _ => rfl⟩

theorem float_faithful (floats : FloatInput) : (float floats).Faithful fun _ => True := by
  rintro ⟨_ | q, text⟩ _
  · exact ⟨fun h => (by cases h), fun h => (by cases h)⟩
  · exact ⟨fun _ => rfl, fun _ => rfl⟩

theorem bool_faithful : bool.Faithful fun _ => True :=
  fun _ _ => ⟨fun _ => rfl, fun _ => rfl⟩

theorem member_faithful {m : Type} {all : List m} {value : m -> String}
    (h : forall a, ofValue all value (value a) = some a) :
    (member all value).Faithful fun _ => True :=
  Codec.enum_faithful h

theorem phase_faithful : phase.Faithful fun _ => True :=
  member_faithful fun a => by cases a <;> rfl

theorem workload_faithful : workload.Faithful fun _ => True :=
  member_faithful fun a => by cases a <;> rfl

theorem offload_faithful : offload.Faithful fun _ => True :=
  member_faithful fun a => by cases a <;> rfl

theorem cleanup_faithful : cleanup.Faithful fun _ => True :=
  member_faithful fun a => by cases a <;> rfl

theorem supervisor_faithful : supervisor.Faithful fun _ => True :=
  member_faithful fun a => by cases a <;> rfl

theorem retryClass_faithful : retryClass.Faithful fun _ => True :=
  member_faithful fun a => by cases a <;> rfl

theorem category_faithful : category.Faithful fun _ => True :=
  member_faithful fun a => by cases a <;> rfl

theorem artifactStatus_faithful : artifactStatus.Faithful fun _ => True :=
  member_faithful fun a => by cases a <;> rfl

theorem inputStatus_faithful : inputStatus.Faithful fun _ => True :=
  member_faithful fun a => by cases a <;> rfl

theorem provisionOutcome_faithful : provisionOutcome.Faithful fun _ => True :=
  member_faithful fun a => by cases a <;> rfl

theorem installer_faithful : installer.Faithful fun _ => True :=
  member_faithful fun a => by cases a <;> rfl

theorem installFailure_faithful : installFailure.Faithful fun _ => True :=
  member_faithful fun a => by cases a <;> rfl

section Optional

variable {value : Type} {c : Codec value} {proper : value -> Prop} {name : String}

theorem orNone_faithful (h : c.Faithful proper) (hnull : c.NeverNull) :
    (orNone name c).Faithful fun a => forall b, a = some b -> proper b :=
  Shape.optional_faithful (Codec.nullable_faithful h hnull)

theorem unlessEmpty_faithful (h : c.Faithful proper) :
    (unlessEmpty name c).Faithful fun items => forall a, a ∈ items -> proper a :=
  Shape.field_faithful (Codec.list_faithful h) fun items hempty => by
    rw [List.isEmpty_iff.mp hempty]

theorem ifSet_faithful : (ifSet name).Faithful fun _ => True :=
  Shape.field_faithful bool_faithful fun b hunset => by
    cases b with
    | false => rfl
    | true => cases hunset

theorem ifTaken_faithful (h : c.Faithful proper) (hnull : c.NeverNull) :
    (ifTaken name c).Faithful fun a => forall b, a = some b -> proper b :=
  Shape.field_faithful (Codec.nullable_faithful h hnull) fun a hnone => by
    cases a with
    | none => rfl
    | some b => cases hnone

theorem neverNull_str : Codec.str.NeverNull := fun _ h => by cases h

theorem neverNull_int : int.NeverNull := fun _ h => by cases h

theorem neverNull_member {m : Type} (all : List m) (value : m -> String) :
    (member all value).NeverNull := fun _ h => by cases h

theorem neverNull_record {whole : Type} {s : Shape value}
    (e : (value × Json.Fields) ≃ whole) : (s.openRecord.map e).NeverNull :=
  fun _ h => by cases h

theorem neverNull_dict : c.dict.NeverNull := fun _ h => by cases h

end Optional

/-- The fields that a record keeps have other names than those that it defines. -/
def ProperError (e : TransferError) : Prop := transferErrorShape.Apart e.extra

structure ProperArtifact (a : ArtifactResult) : Prop where
  extra : artifactShape.Apart a.extra
  error : forall e, a.error = some e -> ProperError e

structure ProperInput (a : InputResult) : Prop where
  extra : inputShape.Apart a.extra
  error : forall e, a.error = some e -> ProperError e

theorem transferError_faithful : transferError.Faithful ProperError := by
  refine (Codec.map_faithful (Shape.openRecord_faithful
    (Shape.and_faithful (Shape.required_faithful Codec.str_faithful) <|
      Shape.and_faithful (Shape.required_faithful Codec.str_faithful) <|
      Shape.and_faithful (orNone_faithful int_faithful neverNull_int) <|
      Shape.and_faithful (orNone_faithful Codec.str_faithful neverNull_str) <|
      orNone_faithful category_faithful (neverNull_member _ _))
    (by decide)) _).mono ?_
  intro e he
  exact ⟨⟨trivial, trivial, fun _ _ => trivial, fun _ _ => trivial, fun _ _ => trivial⟩, he⟩

theorem artifact_faithful : artifact.Faithful ProperArtifact := by
  refine (Codec.map_faithful (Shape.openRecord_faithful
    (Shape.and_faithful (Shape.required_faithful Codec.str_faithful) <|
      Shape.and_faithful (Shape.required_faithful Codec.str_faithful) <|
      Shape.and_faithful (Shape.required_faithful artifactStatus_faithful) <|
      Shape.and_faithful (orNone_faithful Codec.str_faithful neverNull_str) <|
      Shape.and_faithful (orNone_faithful int_faithful neverNull_int) <|
      orNone_faithful transferError_faithful (neverNull_record _))
    (by decide)) _).mono ?_
  intro a ha
  exact ⟨⟨trivial, trivial, trivial, fun _ _ => trivial, fun _ _ => trivial, ha.error⟩,
    ha.extra⟩

theorem input_faithful : input.Faithful ProperInput := by
  refine (Codec.map_faithful (Shape.openRecord_faithful
    (Shape.and_faithful (Shape.required_faithful Codec.str_faithful) <|
      Shape.and_faithful (Shape.required_faithful Codec.str_faithful) <|
      Shape.and_faithful (Shape.required_faithful inputStatus_faithful) <|
      Shape.and_faithful (orNone_faithful Codec.str_faithful neverNull_str) <|
      Shape.and_faithful (orNone_faithful int_faithful neverNull_int) <|
      orNone_faithful transferError_faithful (neverNull_record _))
    (by decide)) _).mono ?_
  intro a ha
  exact ⟨⟨trivial, trivial, trivial, fun _ _ => trivial, fun _ _ => trivial, ha.error⟩,
    ha.extra⟩

theorem readingShape_names (floats : FloatInput) : (readingShape floats).names.Nodup := by
  change List.Nodup ["at", "balance", "rate_hourly", "assignments"]
  decide

theorem reading_faithful (floats : FloatInput) :
    (reading floats).Faithful fun r => (readingShape floats).Apart r.extra := by
  refine (Codec.map_faithful (Shape.openRecord_faithful
    (Shape.and_faithful (Shape.required_faithful Codec.str_faithful) <|
      Shape.and_faithful (Shape.required_faithful (float_faithful floats)) <|
      Shape.and_faithful (Shape.required_faithful (float_faithful floats)) <|
      Shape.required_faithful int_faithful)
    (readingShape_names floats)) _).mono ?_
  intro r hr
  exact ⟨⟨trivial, trivial, trivial, trivial⟩, hr⟩

theorem provisionShape_names : provisionShape.names.Nodup := by decide

theorem provisionAttempt_faithful :
    provisionAttempt.Faithful fun a => provisionShape.Apart a.extra := by
  refine (Codec.map_faithful (Shape.openRecord_faithful
    (Shape.and_faithful (Shape.required_faithful Codec.str_faithful) <|
      Shape.and_faithful (Shape.required_faithful provisionOutcome_faithful) <|
      Shape.and_faithful (orNone_faithful Codec.str_faithful neverNull_str) <|
      Shape.and_faithful (orNone_faithful int_faithful neverNull_int) <|
      Shape.and_faithful (orNone_faithful Codec.str_faithful neverNull_str) <|
      Shape.and_faithful (orNone_faithful Codec.str_faithful neverNull_str) <|
      orNone_faithful retryClass_faithful (neverNull_member _ _))
    provisionShape_names) _).mono ?_
  intro a ha
  exact ⟨⟨trivial, trivial, fun _ _ => trivial, fun _ _ => trivial, fun _ _ => trivial,
    fun _ _ => trivial, fun _ _ => trivial⟩, ha⟩

theorem installShape_names (floats : FloatInput) : (installShape floats).names.Nodup := by
  change List.Nodup ["installer", "version", "command", "index", "exit_code", "timed_out",
    "seconds", "failure", "key_lines"]
  decide

theorem installAttempt_faithful (floats : FloatInput) :
    (installAttempt floats).Faithful fun a => (installShape floats).Apart a.extra := by
  refine (Codec.map_faithful (Shape.openRecord_faithful
    (Shape.and_faithful (Shape.required_faithful installer_faithful) <|
      Shape.and_faithful (Shape.required_faithful Codec.str_faithful) <|
      Shape.and_faithful (Shape.required_faithful (Codec.list_faithful Codec.str_faithful)) <|
      Shape.and_faithful (Shape.optional_faithful (Codec.dict_faithful Codec.str_faithful)) <|
      Shape.and_faithful (orNone_faithful int_faithful neverNull_int) <|
      Shape.and_faithful (Shape.optional_faithful bool_faithful) <|
      Shape.and_faithful (Shape.required_faithful (float_faithful floats)) <|
      Shape.and_faithful (orNone_faithful installFailure_faithful (neverNull_member _ _)) <|
      Shape.optional_faithful (Codec.list_faithful Codec.str_faithful))
    (installShape_names floats)) _).mono ?_
  intro a ha
  exact ⟨⟨trivial, trivial, fun _ _ => trivial, fun _ _ => trivial, fun _ _ => trivial,
    trivial, trivial, fun _ _ => trivial, fun _ _ => trivial⟩, ha⟩

/-- An envelope as `JobEnvelope` can hold it: in every record, the fields it keeps are
none of those that it defines. -/
structure Proper (floats : FloatInput) (env : JobEnvelope) : Prop where
  extra : (envelopeShape floats).Apart env.extra
  inputs : forall a, a ∈ env.inputs -> ProperInput a
  artifacts : forall a, a ∈ env.artifacts -> ProperArtifact a
  installAttempts : forall a, a ∈ env.installAttempts -> (installShape floats).Apart a.extra
  provisionAttempts : forall a, a ∈ env.provisionAttempts -> provisionShape.Apart a.extra
  unitsAtProvision : forall r, env.computeUnitsAtProvision = some r ->
    (readingShape floats).Apart r.extra
  unitsAtRelease : forall r, env.computeUnitsAtRelease = some r ->
    (readingShape floats).Apart r.extra

theorem envelopeShape_names (floats : FloatInput) : (envelopeShape floats).names.Nodup := by
  change List.Nodup ["schema_version", "cli_version", "runtime_payload_version", "job_id",
    "phase", "failed_phase", "workload", "offload", "cleanup", "supervisor", "session",
    "endpoint", "requested_accelerator", "actual_accelerator", "exit_code", "signal",
    "exception", "surviving_descendants", "inputs", "artifacts", "install_attempts",
    "provision_attempts", "retry_class", "reason", "hints", "leave_up",
    "compute_units_at_provision", "compute_units_at_release", "keep_alive_disabled",
    "attempt", "next_poll_after", "started_at", "finished_at"]
  decide

theorem envelope_faithful (floats : FloatInput) :
    (envelope floats).Faithful (Proper floats) := by
  refine (Codec.map_faithful (Shape.openRecord_faithful
    (Shape.and_faithful (Shape.optional_faithful Codec.str_faithful) <|
      Shape.and_faithful (Shape.optional_faithful Codec.str_faithful) <|
      Shape.and_faithful (Shape.optional_faithful Codec.str_faithful) <|
      Shape.and_faithful (Shape.required_faithful Codec.str_faithful) <|
      Shape.and_faithful (Shape.optional_faithful phase_faithful) <|
      Shape.and_faithful (orNone_faithful phase_faithful (neverNull_member _ _)) <|
      Shape.and_faithful (Shape.optional_faithful workload_faithful) <|
      Shape.and_faithful (Shape.optional_faithful offload_faithful) <|
      Shape.and_faithful (Shape.optional_faithful cleanup_faithful) <|
      Shape.and_faithful (Shape.optional_faithful supervisor_faithful) <|
      Shape.and_faithful (orNone_faithful Codec.str_faithful neverNull_str) <|
      Shape.and_faithful (orNone_faithful Codec.str_faithful neverNull_str) <|
      Shape.and_faithful (orNone_faithful Codec.str_faithful neverNull_str) <|
      Shape.and_faithful (orNone_faithful Codec.str_faithful neverNull_str) <|
      Shape.and_faithful (orNone_faithful int_faithful neverNull_int) <|
      Shape.and_faithful (orNone_faithful int_faithful neverNull_int) <|
      Shape.and_faithful
        (orNone_faithful (Codec.dict_faithful Codec.str_faithful) neverNull_dict) <|
      Shape.and_faithful (Shape.optional_faithful (Codec.list_faithful int_faithful)) <|
      Shape.and_faithful (unlessEmpty_faithful input_faithful) <|
      Shape.and_faithful (Shape.optional_faithful (Codec.list_faithful artifact_faithful)) <|
      Shape.and_faithful (unlessEmpty_faithful (installAttempt_faithful floats)) <|
      Shape.and_faithful (unlessEmpty_faithful provisionAttempt_faithful) <|
      Shape.and_faithful (orNone_faithful retryClass_faithful (neverNull_member _ _)) <|
      Shape.and_faithful (orNone_faithful Codec.str_faithful neverNull_str) <|
      Shape.and_faithful
        (Shape.optional_faithful (Codec.list_faithful Codec.str_faithful)) <|
      Shape.and_faithful ifSet_faithful <|
      Shape.and_faithful (ifTaken_faithful (reading_faithful floats) (neverNull_record _)) <|
      Shape.and_faithful (ifTaken_faithful (reading_faithful floats) (neverNull_record _)) <|
      Shape.and_faithful ifSet_faithful <|
      Shape.and_faithful (Shape.optional_faithful int_faithful) <|
      Shape.and_faithful (Shape.optional_faithful int_faithful) <|
      Shape.and_faithful (orNone_faithful Codec.str_faithful neverNull_str) <|
      orNone_faithful Codec.str_faithful neverNull_str)
    (envelopeShape_names floats)) _).mono ?_
  intro env h
  exact ⟨⟨trivial, trivial, trivial, trivial, trivial, fun _ _ => trivial, trivial, trivial,
    trivial, trivial, fun _ _ => trivial, fun _ _ => trivial, fun _ _ => trivial,
    fun _ _ => trivial, fun _ _ => trivial, fun _ _ => trivial, fun _ _ _ _ => trivial,
    fun _ _ => trivial, h.inputs, h.artifacts, h.installAttempts, h.provisionAttempts,
    fun _ _ => trivial, fun _ _ => trivial, fun _ _ => trivial, trivial,
    h.unitsAtProvision, h.unitsAtRelease, trivial, trivial, trivial, fun _ _ => trivial,
    fun _ _ => trivial⟩, h.extra⟩

end EnvelopeJson
end Job
end MightyColab
