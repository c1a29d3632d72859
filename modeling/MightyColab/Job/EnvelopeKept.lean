import MightyColab.Job.EnvelopeJson

/-!
# What a newer CLI wrote

`write_envelope` and `read_envelope`: an envelope written is read back, and the fields of a
document that this CLI does not define are still there after a result was absorbed. Both
hold where every number is finite: a dump has no other way to write `NaN` and the infinities
than null, although the documents it reads may hold them.
-/

namespace MightyColab
namespace Job

open Lib

namespace EnvelopeJson

/-- What `write_envelope` leaves in the job's file. -/
def writeEnvelope (floats : FloatInput) (env : JobEnvelope) : Json :=
  ((envelope floats).write env).dumped

def readEnvelope (floats : FloatInput) (doc : Json) : Option JobEnvelope :=
  (envelope floats).read doc

/-- The fields of a document that this CLI does not define, with their values: its own, and
those of the records that no absorbed result replaces. -/
def unknownFields (floats : FloatInput) : Json -> List (String × Json)
  | .obj doc =>
      unknownAt "" (envelopeShape floats).names (.obj doc) ++
        unknownUnder "install_attempts" (installShape floats).names
          (doc.lookup "install_attempts") ++
        unknownUnder "provision_attempts" provisionShape.names
          (doc.lookup "provision_attempts") ++
        unknownUnder "compute_units_at_provision" (readingShape floats).names
          (doc.lookup "compute_units_at_provision") ++
        unknownUnder "compute_units_at_release" (readingShape floats).names
          (doc.lookup "compute_units_at_release")
  | _ => []

def keptFields (env : JobEnvelope) : List (String × Json) :=
  extraAt "" env.extra ++
    extraOfEach "install_attempts" (env.installAttempts.map (·.extra)) ++
    extraOfEach "provision_attempts" (env.provisionAttempts.map (·.extra)) ++
    extraOfOne "compute_units_at_provision" (env.computeUnitsAtProvision.map (·.extra)) ++
    extraOfOne "compute_units_at_release" (env.computeUnitsAtRelease.map (·.extra))

/-!
## Reading keeps them
-/

theorem reading_keeps (floats : FloatInput) :
    (reading floats).KeepsUnknown (readingShape floats).names (·.extra) :=
  Shape.keepsUnknown (fun _ => rfl) _

theorem provisionAttempt_keeps :
    provisionAttempt.KeepsUnknown provisionShape.names (·.extra) :=
  Shape.keepsUnknown (fun _ => rfl) _

theorem installAttempt_keeps (floats : FloatInput) :
    (installAttempt floats).KeepsUnknown (installShape floats).names (·.extra) :=
  Shape.keepsUnknown (fun _ => rfl) _

section Fields

variable {value : Type} {c : Codec value} {names : List String}
  {extra : value -> Json.Fields} {name : String} {doc : Json.Fields}

theorem unlessEmpty_unknown (h : c.KeepsUnknown names extra) {records : List value}
    (hread : (unlessEmpty name c).read (List.lookup · doc) = some records) :
    unknownUnder name names (doc.lookup name) = extraOfEach name (records.map extra) := by
  cases hlookup : doc.lookup name with
  | none =>
      rw [unlessEmpty, Shape.field_read_none hlookup] at hread
      cases hread
      rfl
  | some j =>
      rw [unlessEmpty, Shape.field_read_some hlookup] at hread
      exact unknownUnder_readList h hread name

theorem ifTaken_unknown (h : c.KeepsUnknown names extra) {record : Option value}
    (hread : (ifTaken name c).read (List.lookup · doc) = some record) :
    unknownUnder name names (doc.lookup name) = extraOfOne name (record.map extra) := by
  cases hlookup : doc.lookup name with
  | none =>
      rw [ifTaken, Shape.field_read_none hlookup] at hread
      cases hread
      rfl
  | some j =>
      rw [ifTaken, Shape.field_read_some hlookup] at hread
      rcases Codec.nullable_read_some hread with ⟨rfl, rfl⟩ | ⟨a, rfl, ha⟩
      · rfl
      · exact unknownUnder_readOne h ha name

theorem unlessEmpty_apart (h : c.KeepsUnknown names extra) {records : List value}
    (hread : (unlessEmpty name c).read (List.lookup · doc) = some records) :
    forall a, a ∈ records -> forall f, f ∈ extra a -> f.1 ∉ names := by
  intro a ha
  cases hlookup : doc.lookup name with
  | none =>
      rw [unlessEmpty, Shape.field_read_none hlookup] at hread
      cases hread
      cases ha
  | some j =>
      rw [unlessEmpty, Shape.field_read_some hlookup] at hread
      rcases Codec.list_read_mem hread ha with ⟨item, hitem⟩
      exact h.apart hitem

theorem ifTaken_apart (h : c.KeepsUnknown names extra) {record : Option value}
    (hread : (ifTaken name c).read (List.lookup · doc) = some record) :
    forall a, record = some a -> forall f, f ∈ extra a -> f.1 ∉ names := by
  rintro a rfl
  cases hlookup : doc.lookup name with
  | none =>
      rw [ifTaken, Shape.field_read_none hlookup] at hread
      cases hread
  | some j =>
      rw [ifTaken, Shape.field_read_some hlookup] at hread
      rcases Codec.nullable_read_some hread with ⟨_, hnone⟩ | ⟨b, hb, hitem⟩
      · cases hnone
      · cases hb
        exact h.apart hitem

theorem unlessEmpty_dumped (h : c.KeepsUnknown names extra) {records : List value}
    (hapart : forall a, a ∈ records -> forall f, f ∈ extra a -> f.1 ∉ names)
    (hlookup : doc.lookup name =
      (if records.isEmpty then none else some (c.list.write records)).map Json.dumped) :
    unknownUnder name names (doc.lookup name) =
      dumpedAll (extraOfEach name (records.map extra)) := by
  rw [hlookup]
  cases records with
  | nil => rfl
  | cons a rest => exact unknownUnder_dumpedList h hapart name

theorem ifTaken_dumped (h : c.KeepsUnknown names extra) {record : Option value}
    (hapart : forall a, record = some a -> forall f, f ∈ extra a -> f.1 ∉ names)
    (hlookup : doc.lookup name =
      (if record.isNone then none else some (c.nullable.write record)).map Json.dumped) :
    unknownUnder name names (doc.lookup name) =
      dumpedAll (extraOfOne name (record.map extra)) := by
  rw [hlookup]
  cases record with
  | none => rfl
  | some a => exact unknownUnder_dumpedOne h (hapart a rfl) name

end Fields

theorem read_parts {floats : FloatInput} {doc : Json} {env : JobEnvelope}
    (h : readEnvelope floats doc = some env) :
    exists fields, doc = .obj fields ∧
      (envelopeShape floats).read (List.lookup · fields) = some (parts env) ∧
        env.extra = Shape.unknown (envelopeShape floats).names fields := by
  rcases Option.map_eq_some_iff.mp h with ⟨whole, hread, rfl⟩
  exact Shape.openRecord_read hread

theorem read_unknown {floats : FloatInput} {doc : Json} {env : JobEnvelope}
    (h : readEnvelope floats doc = some env) : unknownFields floats doc = keptFields env := by
  rcases read_parts h with ⟨fields, rfl, hfields, hextra⟩
  simp only [envelopeShape, Shape.and_read] at hfields
  obtain ⟨-, -, -, -, -, -, -, -, -, -, -, -, -, -, -, -, -, -, -, -, hinstall, hprovision, -,
    -, -, -, hprovisionUnits, hreleaseUnits, -⟩ := hfields
  unfold unknownFields keptFields
  simp only
  rw [unlessEmpty_unknown (installAttempt_keeps floats) hinstall,
    unlessEmpty_unknown provisionAttempt_keeps hprovision,
    ifTaken_unknown (reading_keeps floats) hprovisionUnits,
    ifTaken_unknown (reading_keeps floats) hreleaseUnits, hextra]
  rfl

/-!
## Writing dumps them
-/

/-- The records that no absorbed result replaces keep fields that they do not define. -/
structure ProperKept (floats : FloatInput) (env : JobEnvelope) : Prop where
  extra : (envelopeShape floats).Apart env.extra
  installAttempts : forall a, a ∈ env.installAttempts -> (installShape floats).Apart a.extra
  provisionAttempts : forall a, a ∈ env.provisionAttempts -> provisionShape.Apart a.extra
  unitsAtProvision : forall r, env.computeUnitsAtProvision = some r ->
    (readingShape floats).Apart r.extra
  unitsAtRelease : forall r, env.computeUnitsAtRelease = some r ->
    (readingShape floats).Apart r.extra

theorem read_properKept {floats : FloatInput} {doc : Json} {env : JobEnvelope}
    (h : readEnvelope floats doc = some env) : ProperKept floats env := by
  rcases read_parts h with ⟨fields, rfl, hfields, hextra⟩
  simp only [envelopeShape, Shape.and_read] at hfields
  obtain ⟨-, -, -, -, -, -, -, -, -, -, -, -, -, -, -, -, -, -, -, -, hinstall, hprovision, -,
    -, -, -, hprovisionUnits, hreleaseUnits, -⟩ := hfields
  refine ⟨fun f hf => Shape.not_mem_of_unknown (hextra ▸ hf), ?_, ?_, ?_, ?_⟩
  · exact unlessEmpty_apart (installAttempt_keeps floats) hinstall
  · exact unlessEmpty_apart provisionAttempt_keeps hprovision
  · exact ifTaken_apart (reading_keeps floats) hprovisionUnits
  · exact ifTaken_apart (reading_keeps floats) hreleaseUnits

theorem dumpedAll_append (found others : List (String × Json)) :
    dumpedAll (found ++ others) = dumpedAll found ++ dumpedAll others :=
  List.map_append

theorem written_unknown {floats : FloatInput} {env : JobEnvelope}
    (h : ProperKept floats env) :
    unknownFields floats (writeEnvelope floats env) = dumpedAll (keptFields env) := by
  have hlookup := fun name j => @Shape.lookup_dumped _ (envelopeShape floats) (parts env) rfl
    (envelopeShape_names floats) _ h.extra (name, j)
  have htop : unknownAt "" (envelopeShape floats).names (.obj
      (Json.dumpedFields ((envelopeShape floats).fields (parts env) env.extra))) =
        dumpedAll (extraAt "" env.extra) := by
    rw [dumpedAll_extraAt, ← @Shape.unknown_dumped _ (envelopeShape floats) (parts env) rfl
      _ h.extra]
    rfl
  have hwritten : writeEnvelope floats env =
      .obj (Json.dumpedFields ((envelopeShape floats).fields (parts env) env.extra)) := rfl
  rw [hwritten]
  unfold unknownFields keptFields
  simp only [dumpedAll_append]
  rw [htop, unlessEmpty_dumped (installAttempt_keeps floats) h.installAttempts (hlookup _ _ ?_),
    unlessEmpty_dumped provisionAttempt_keeps h.provisionAttempts (hlookup _ _ ?_),
    ifTaken_dumped (reading_keeps floats) h.unitsAtProvision (hlookup _ _ ?_),
    ifTaken_dumped (reading_keeps floats) h.unitsAtRelease (hlookup _ _ ?_)]
  all_goals
    repeat' first
      | exact Shape.mem_and_left Shape.mem_field
      | apply Shape.mem_and_right

/-!
## Absorbing a result leaves them
-/

structure SameKept (env env' : JobEnvelope) : Prop where
  extra : env'.extra = env.extra
  installAttempts : env'.installAttempts = env.installAttempts
  provisionAttempts : env'.provisionAttempts = env.provisionAttempts
  unitsAtProvision : env'.computeUnitsAtProvision = env.computeUnitsAtProvision
  unitsAtRelease : env'.computeUnitsAtRelease = env.computeUnitsAtRelease

theorem SameKept.refl (env : JobEnvelope) : SameKept env env := ⟨rfl, rfl, rfl, rfl, rfl⟩

theorem SameKept.trans {a b c : JobEnvelope} (h : SameKept a b) (h' : SameKept b c) :
    SameKept a c :=
  ⟨h'.extra.trans h.extra, h'.installAttempts.trans h.installAttempts,
    h'.provisionAttempts.trans h.provisionAttempts,
    h'.unitsAtProvision.trans h.unitsAtProvision, h'.unitsAtRelease.trans h.unitsAtRelease⟩

open Absorb

theorem absorbPhase_kept (env : JobEnvelope) (result : Json.Fields) :
    SameKept env (absorbPhase env result) := by
  unfold absorbPhase
  simp only
  split
  · split <;> exact ⟨rfl, rfl, rfl, rfl, rfl⟩
  · exact SameKept.refl env

theorem absorbProvenance_kept {env env' : JobEnvelope} {result : Json.Fields}
    (h : absorbProvenance env result = .ok env') : SameKept env env' := by
  unfold absorbProvenance at h
  simp only at h
  split at h
  · cases h
    exact SameKept.refl env
  · obtain ⟨cliVersion, -, h⟩ := Fallible.bind_ok h
    obtain ⟨payloadVersion, -, h⟩ := Fallible.bind_ok h
    cases h
    exact ⟨rfl, rfl, rfl, rfl, rfl⟩
  · split at h <;> cases h

theorem absorbOutcome_kept {env env' : JobEnvelope} {spec : JobSpec} {result : Json.Fields}
    {stageFailed : Bool} {reason : Option String} {retry : Option RetryClass}
    (h : absorbOutcome env spec result stageFailed reason retry = .ok env') :
    SameKept env env' := by
  unfold absorbOutcome at h
  split at h
  · cases h
    exact ⟨rfl, rfl, rfl, rfl, rfl⟩
  · obtain ⟨outcome, -, h⟩ := Fallible.bind_ok h
    simp only at h
    split at h
    · cases h
      exact ⟨rfl, rfl, rfl, rfl, rfl⟩
    · split at h <;> cases h <;> exact ⟨rfl, rfl, rfl, rfl, rfl⟩

theorem absorbResult_kept {env env' : JobEnvelope} {spec : JobSpec} {result : Json.Fields}
    {now : String} (h : absorbResult env spec result now = .ok env') : SameKept env env' := by
  unfold absorbResult at h
  obtain ⟨env1, hprovenance, h⟩ := Fallible.bind_ok h
  obtain ⟨workload, -, h⟩ := Fallible.bind_ok h
  obtain ⟨finished, -, h⟩ := Fallible.bind_ok h
  obtain ⟨inputItems, -, h⟩ := Fallible.bind_ok h
  obtain ⟨inputs, -, h⟩ := Fallible.bind_ok h
  obtain ⟨artifactItems, -, h⟩ := Fallible.bind_ok h
  obtain ⟨artifacts, -, h⟩ := Fallible.bind_ok h
  obtain ⟨env2, houtcome, h⟩ := Fallible.bind_ok h
  obtain ⟨hints, -, h⟩ := Fallible.bind_ok h
  obtain ⟨exitCode, -, h⟩ := Fallible.bind_ok h
  obtain ⟨signal, -, h⟩ := Fallible.bind_ok h
  obtain ⟨exception, -, h⟩ := Fallible.bind_ok h
  obtain ⟨survivors, -, h⟩ := Fallible.bind_ok h
  cases h
  have hreset := absorbOutcome_kept houtcome
  have hkept : SameKept env1 env2 :=
    ⟨hreset.1, hreset.2, hreset.3, hreset.4, hreset.5⟩
  have hwhole := ((absorbPhase_kept env result).trans
    (absorbProvenance_kept hprovenance)).trans hkept
  exact ⟨hwhole.1, hwhole.2, hwhole.3, hwhole.4, hwhole.5⟩

theorem SameKept.keptFields {env env' : JobEnvelope} (h : SameKept env env') :
    keptFields env' = keptFields env := by
  unfold EnvelopeJson.keptFields
  rw [h.extra, h.installAttempts, h.provisionAttempts, h.unitsAtProvision, h.unitsAtRelease]

theorem SameKept.proper {env env' : JobEnvelope} {floats : FloatInput}
    (h : SameKept env env') (hproper : ProperKept floats env) : ProperKept floats env' where
  extra := h.extra ▸ hproper.extra
  installAttempts := h.installAttempts ▸ hproper.installAttempts
  provisionAttempts := h.provisionAttempts ▸ hproper.provisionAttempts
  unitsAtProvision := h.unitsAtProvision ▸ hproper.unitsAtProvision
  unitsAtRelease := h.unitsAtRelease ▸ hproper.unitsAtRelease

/-!
## The round trip
-/

def floatsOnly : FloatInput := ⟨fun _ => none, fun _ => none⟩

def newerDocument (seen : Json) : Json :=
  .obj [("job_id", .str "job-1"), ("workload", .str "running"),
    ("install_attempts", .arr [.obj [("installer", .str "uv"), ("version", .str "0.5"),
      ("command", .arr [.str "uv", .str "pip"]), ("seconds", .float (some 2) "2.0"),
      ("cache_hits", .int 3)]]),
    ("seen", seen)]

def newerEnvelope (seen : Json) : JobEnvelope :=
  { jobId := "job-1", workload := .running,
    installAttempts := [
      { installer := .uv, version := "0.5", command := ["uv", "pip"],
        seconds := ⟨some 2, "2.0"⟩, extra := [("cache_hits", .int 3)] }],
    extra := [("seen", seen)] }

theorem newerDocument_read (seen : Json) :
    readEnvelope floatsOnly (newerDocument seen) = some (newerEnvelope seen) := by
  rfl

theorem newerEnvelope_proper (seen : Json) : Proper floatsOnly (newerEnvelope seen) where
  extra := by
    intro f hf
    rw [List.mem_singleton.mp hf]
    change "seen" ∉ (envelopeShape floatsOnly).names
    decide
  inputs := fun a ha => (by cases ha)
  artifacts := fun a ha => (by cases ha)
  installAttempts := by
    intro a ha f hf
    rw [List.mem_singleton.mp ha] at hf
    rw [List.mem_singleton.mp hf]
    change "cache_hits" ∉ (installShape floatsOnly).names
    decide
  provisionAttempts := fun a ha => (by cases ha)
  unitsAtProvision := fun r hr => (by cases hr)
  unitsAtRelease := fun r hr => (by cases hr)

def trainSpec : JobSpec := { name := "train", code := { entry := "train.py" } }

def finishedResult : Json.Fields :=
  [("workload", .str "succeeded"), ("exit_code", .int 0), ("finished_at", .int 850)]

end EnvelopeJson
end Job
end MightyColab
