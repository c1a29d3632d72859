import MightyColab.Job.Absorb
import MightyColab.Job.Runner
import MightyColab.Job.Transport
import Mathlib.Tactic.Linarith

/-!
# Is the result absorbable?

What the runner writes against what the supervisor of the same version accepts: field by
field, which values of `result.json` the runner makes itself and which it copies from files
that the consumer can write.
-/

namespace MightyColab
namespace Job

open Lib

namespace Absorbable

def Accepts {alpha : Type} (x : Except String alpha) : Prop := exists a, x = .ok a

theorem Accepts.ok {alpha : Type} (a : alpha) : Accepts (.ok a) := ⟨a, rfl⟩

theorem Accepts.bind {alpha beta : Type} {x : Except String alpha}
    {f : alpha -> Except String beta} (hx : Accepts x)
    (hf : forall a, x = .ok a -> Accepts (f a)) : Accepts (x >>= f) := by
  rcases hx with ⟨a, rfl⟩
  exact hf a rfl

theorem accepts_map_iff {alpha beta : Type} (x : Except String alpha) (f : alpha -> beta) :
    Accepts (x.map f) <-> Accepts x := by
  cases x with
  | error e =>
      constructor <;>
      · rintro ⟨a, h⟩
        cases h
  | ok a => exact iff_of_true (.ok _) (.ok _)

theorem accepts_mapM_iff {alpha beta : Type} (f : alpha -> Except String beta)
    (items : List alpha) :
    Accepts (items.mapM f) <-> forall item, item ∈ items -> Accepts (f item) := by
  induction items with
  | nil => simp [Accepts, pure, Except.pure]
  | cons item rest ih =>
      rw [List.mapM_cons, List.forall_mem_cons, ← ih]
      constructor
      · rintro ⟨all, h⟩
        rcases Fallible.bind_ok h with ⟨first, hfirst, h⟩
        rcases Fallible.bind_ok h with ⟨others, hothers, -⟩
        exact ⟨⟨first, hfirst⟩, ⟨others, hothers⟩⟩
      · rintro ⟨hfirst, hothers⟩
        exact hfirst.bind fun _ _ => hothers.bind fun _ _ => .ok _

/-!
## What the consumer can reach
-/

/-- None, or an object whose values are all texts: what the envelope's `exception` takes. -/
def exceptionFits : Json -> Bool
  | .null => true
  | .obj fields => fields.all fun f => f.2.asStr?.isSome
  | _ => false

/-- An object of the offload manifest gives a record with a text as its path and a text as
its URL's identity. -/
def itemFits (reader : Runner.UrlReader) (urls : List (String × String)) : Json -> Bool
  | .obj fields =>
      match fields.lookup "path" with
      | none => true
      | some (.str _) =>
          match Runner.resolveTransferUrl reader fields urls with
          | .error _ => true
          | .ok _ =>
              !(Json.Fields.get fields "url_id").truthy ||
                (Json.Fields.get fields "url_id").asStr?.isSome
      | some _ => false
  | _ => true

/-- The items of the offload manifest as the runner finds it after the consumer has
ended. -/
def offloadItems (r : Runner.Run) : List Json :=
  match r.args.offloadManifest.filter (· ≠ "") with
  | none => []
  | some path =>
      match Runner.loadManifest (some path) r.offloadRead with
      | .ok items => items
      | .error _ => []

/-- The launch names its version and, if the consumer was started, `exception.json` is
absent, unreadable, null or an object of texts, and the offload manifest's items have texts
as their paths and identities. -/
def Fits (r : Runner.Run) : Prop :=
  r.args.cliVersion ≠ "" ∧
    (r.stage.2.isSome = true ∨
      (exceptionFits r.exceptionFile.value = true ∧
        forall item, item ∈ offloadItems r -> itemFits r.reader r.urls item = true))

/-!
## Records of transfers
-/

theorem accepts_optStr (name : String) (text : Option String) :
    Accepts (Absorb.optStr name (Json.optStr text)) := by
  cases text with
  | none => exact .ok _
  | some text => exact .ok _

theorem accepts_optNat (name : String) (number : Option Nat) :
    Accepts (Absorb.optInt name (Runner.optNat number)) := by
  cases number with
  | none => exact .ok _
  | some number => exact .ok _

theorem accepts_category (kind : Runner.FailureKind) :
    Accepts (Absorb.transferCategory
      (.str (Runner.categoryValue (Runner.errorCategory kind)))) := by
  cases kind <;> exact .ok _

theorem accepts_transferError (e : Runner.Failure) :
    Accepts (Absorb.transferError (Runner.transferError e)) := by
  have hcategory := accepts_category e.kind
  rcases e with ⟨⟨exception, message⟩, kind⟩
  unfold Runner.transferError Absorb.transferError
  cases kind with
  | http status body =>
      refine Accepts.bind (.ok _) fun _ _ => Accepts.bind (.ok _) fun _ _ =>
        Accepts.bind (.ok _) fun _ _ => Accepts.bind ?_ fun _ _ =>
        Accepts.bind hcategory fun _ _ => .ok _
      exact accepts_optStr "body" body
  | _ =>
      exact Accepts.bind (.ok _) fun _ _ => Accepts.bind (.ok _) fun _ _ =>
        Accepts.bind (.ok _) fun _ _ => Accepts.bind (.ok _) fun _ _ =>
        Accepts.bind hcategory fun _ _ => .ok _

theorem accepts_error (error : Option Runner.Failure) :
    Accepts (Absorb.transferError (Json.optional (error.map Runner.transferError))) := by
  cases error with
  | none => exact .ok _
  | some e => exact accepts_transferError e

/-- The fields that a transfer's record has besides its place, identity and status. -/
theorem accepts_fields {alpha : Type} (sha256 : Option String) (bytes : Option Nat)
    (error : Option Runner.Failure)
    (f : Option String -> Option Int -> Option TransferError -> alpha) :
    Accepts (do
      let sha256 ← Absorb.optStr "sha256" (Json.optStr sha256)
      let bytes ← Absorb.optInt "bytes" (Runner.optNat bytes)
      let error ← Absorb.transferError (Json.optional (error.map Runner.transferError))
      return f sha256 bytes error) :=
  Accepts.bind (accepts_optStr "sha256" sha256) fun _ _ =>
    Accepts.bind (accepts_optNat "bytes" bytes) fun _ _ =>
      Accepts.bind (accepts_error error) fun _ _ => .ok _

theorem inputRecord_accepts (dest urlId : String) {status : ArtifactStatus}
    (hstatus : status ≠ .missing) (sha256 : Option String) (bytes : Option Nat)
    (error : Option Runner.Failure) :
    Accepts (Absorb.inputResult
      (Runner.transferRecord "dest" (.str dest) (.str urlId) status sha256 bytes error)) := by
  have hfields := @accepts_fields InputResult sha256 bytes error
  cases status with
  | missing => exact absurd rfl hstatus
  | ok => cases error <;> exact hfields _
  | failed => cases error <;> exact hfields _

theorem accepts_reqStr_iff (fields : Json.Fields) (name : String) (value : Json)
    (h : fields.lookup name = some value) :
    Accepts (Absorb.reqStr fields name) <-> value.asStr?.isSome = true := by
  unfold Absorb.reqStr
  rw [h]
  cases value <;> simp [Accepts, Json.asStr?]

theorem artifactRecord_accepts_iff (place urlId : Json) (status : ArtifactStatus)
    (sha256 : Option String) (bytes : Option Nat) (error : Option Runner.Failure) :
    Accepts (Absorb.artifactResult
        (Runner.transferRecord "path" place urlId status sha256 bytes error)) <->
      place.asStr?.isSome = true ∧ urlId.asStr?.isSome = true := by
  constructor
  · rintro ⟨record, h⟩
    rcases Fallible.bind_ok h with ⟨path, hpath, h⟩
    rcases Fallible.bind_ok h with ⟨id, hid, -⟩
    exact ⟨(accepts_reqStr_iff _ "path" place rfl).mp ⟨path, hpath⟩,
      (accepts_reqStr_iff _ "url_id" urlId rfl).mp ⟨id, hid⟩⟩
  · rintro ⟨hplace, hid⟩
    have hfields := @accepts_fields ArtifactResult sha256 bytes error
    cases place <;> cases hplace
    cases urlId <;> cases hid
    cases status <;> cases error <;> exact hfields _

theorem refusedRecord_accepts_iff (item : Json) (e : Runner.Failure) :
    Accepts (Absorb.artifactResult (Runner.refusedRecord item e)) <->
      ((item.asObj?.map fun f => Json.Fields.getD f "path" (.str "")).getD
        (.str "")).asStr?.isSome = true :=
  (artifactRecord_accepts_iff _ _ _ _ _ _).trans (and_iff_left rfl)

/-!
## Staging and offload
-/

def InputAccepted : Except Runner.StageError Json -> Prop
  | .ok record => Accepts (Absorb.inputResult record)
  | .error (.item record _ _) => Accepts (Absorb.inputResult record)
  | .error (.setup _) => True

theorem stageOne_accepts (reader : Runner.UrlReader) (urls : List (String × String))
    (fetch : Runner.Fetch) (item : Json) :
    InputAccepted (Runner.stageOne reader urls fetch item) := by
  have hfailed : ArtifactStatus.failed ≠ .missing := by decide
  have hok : ArtifactStatus.ok ≠ .missing := by decide
  unfold Runner.stageOne
  simp only
  split
  · split
    · split
      · exact inputRecord_accepts _ _ hfailed none none _
      · split
        · exact inputRecord_accepts _ _ hok _ _ none
        · exact inputRecord_accepts _ _ hfailed none none _
        · trivial
    · exact inputRecord_accepts _ _ hfailed none none _
  · exact inputRecord_accepts _ _ hfailed none none _

theorem stageItems_accepts (reader : Runner.UrlReader) (urls : List (String × String))
    (items : List Json) (fetch : Nat -> Runner.Fetch) :
    forall record, record ∈ (Runner.stageItems reader urls items fetch).1 ->
      Accepts (Absorb.inputResult record) := by
  induction items generalizing fetch with
  | nil =>
      intro record h
      cases h
  | cons item rest ih =>
      have hone := stageOne_accepts reader urls (fetch 0) item
      unfold Runner.stageItems
      split
      · next first hfirst =>
          rw [hfirst] at hone
          intro record h
          rcases List.mem_cons.mp h with heq | hrest
          · exact heq ▸ hone
          · exact ih _ record hrest
      · next first dest reason hfirst =>
          rw [hfirst] at hone
          intro record h
          cases List.mem_singleton.mp h
          exact hone
      · intro record h
        cases h

theorem stage_accepts (r : Runner.Run) :
    Accepts (r.stage.1.mapM Absorb.inputResult) := by
  refine (accepts_mapM_iff _ _).mpr fun record h => ?_
  unfold Runner.Run.stage at h
  split at h
  · cases h
  · split at h
    · cases h
    · split at h
      · cases h
      · exact stageItems_accepts _ _ _ _ record h

theorem offloadOne_refused_iff {reader : Runner.UrlReader} {urls : List (String × String)}
    {put : Runner.Put} {fields : Json.Fields} {e : Runner.Failure}
    (h : Runner.artifactRecord reader urls put (.obj fields) = .error e) :
    Accepts (Absorb.artifactResult (Runner.offloadOne reader urls put (.obj fields)).1) <->
      (Json.Fields.getD fields "path" (.str "")).asStr?.isSome = true := by
  have hrecord : Runner.offloadOne reader urls put (.obj fields) =
      (Runner.refusedRecord (.obj fields) e, .failed) := by
    unfold Runner.offloadOne
    rw [h]
  rw [hrecord]
  exact refusedRecord_accepts_iff (.obj fields) e

theorem artifactRecord_refused {reader : Runner.UrlReader} {urls : List (String × String)}
    {fields : Json.Fields} (put : Runner.Put)
    (hpath : (Json.Fields.get fields "path").asStr? = none) :
    exists e, Runner.artifactRecord reader urls put (.obj fields) = .error e := by
  unfold Runner.artifactRecord
  simp only
  cases hurl : Runner.resolveTransferUrl reader fields urls with
  | error e => exact ⟨e, rfl⟩
  | ok url =>
      refine ⟨Runner.valueError "offload item requires path", ?_⟩
      cases hget : Json.Fields.get fields "path" with
      | str path =>
          rw [hget] at hpath
          cases hpath
      | _ => rfl

theorem offloadOne_resolved {reader : Runner.UrlReader} {urls : List (String × String)}
    {fields : Json.Fields} {path url : String} (put : Runner.Put)
    (hpath : Json.Fields.get fields "path" = .str path)
    (hurl : Runner.resolveTransferUrl reader fields urls = .ok url) :
    exists status sha256 bytes error,
      (Runner.offloadOne reader urls put (.obj fields)).1 =
        Runner.transferRecord "path" (.str path)
          ((Json.Fields.get fields "url_id").orElse (.str (reader.urlId url)))
          status sha256 bytes error := by
  unfold Runner.offloadOne Runner.artifactRecord
  simp only [hpath, hurl]
  cases put with
  | absent => exact ⟨.missing, none, none, none, rfl⟩
  | failed e bytes => exact ⟨.failed, none, bytes, some e, rfl⟩
  | sent bytes sha256 => exact ⟨.ok, some sha256, some bytes, none, rfl⟩

theorem orElse_str_iff (j : Json) (text : String) :
    (j.orElse (.str text)).asStr?.isSome = (!j.truthy || j.asStr?.isSome) := by
  unfold Json.orElse
  cases j.truthy <;> simp [Json.asStr?]

theorem offloadOne_accepts_iff (reader : Runner.UrlReader) (urls : List (String × String))
    (put : Runner.Put) (item : Json) :
    Accepts (Absorb.artifactResult (Runner.offloadOne reader urls put item).1) <->
      itemFits reader urls item = true := by
  cases item with
  | obj fields =>
      cases hpath : fields.lookup "path" with
      | none =>
          have hget : Json.Fields.get fields "path" = .null := by
            simp [Json.Fields.get, hpath]
          have hnone : (Json.Fields.get fields "path").asStr? = none := by rw [hget]; rfl
          rcases @artifactRecord_refused reader urls fields put hnone with ⟨e, he⟩
          rw [offloadOne_refused_iff he]
          simp [itemFits, hpath, Json.Fields.getD, Json.asStr?]
      | some value =>
          have hget : Json.Fields.get fields "path" = value := by
            simp [Json.Fields.get, hpath]
          have hgetD : Json.Fields.getD fields "path" (.str "") = value := by
            simp [Json.Fields.getD, hpath]
          cases value with
          | str path =>
              cases hurl : Runner.resolveTransferUrl reader fields urls with
              | error e =>
                  have he : Runner.artifactRecord reader urls put (.obj fields) =
                      .error e := by
                    unfold Runner.artifactRecord
                    simp only [hurl]
                  rw [offloadOne_refused_iff he, hgetD]
                  simp [itemFits, hpath, hurl, Json.asStr?]
              | ok url =>
                  rcases offloadOne_resolved put hget hurl with
                    ⟨status, sha256, bytes, error, hrecord⟩
                  rw [hrecord, artifactRecord_accepts_iff, orElse_str_iff]
                  simp [itemFits, hpath, hurl, Json.asStr?]
          | _ =>
              have hnone : (Json.Fields.get fields "path").asStr? = none := by rw [hget]; rfl
              rcases @artifactRecord_refused reader urls fields put hnone with ⟨e, he⟩
              rw [offloadOne_refused_iff he, hgetD]
              simp [itemFits, hpath, Json.asStr?]
  | _ => exact iff_of_true ((refusedRecord_accepts_iff _ _).mpr rfl) rfl

theorem offloadItems_accepts_iff (reader : Runner.UrlReader)
    (urls : List (String × String)) (items : List Json) (put : Nat -> Runner.Put) :
    Accepts ((Runner.offloadItems reader urls items put).1.mapM Absorb.artifactResult) <->
      forall item, item ∈ items -> itemFits reader urls item = true := by
  induction items generalizing put with
  | nil => exact iff_of_true (.ok _) (fun item h => by cases h)
  | cons item rest ih =>
      have hrest := ih fun n => put (n + 1)
      rw [accepts_mapM_iff] at hrest ⊢
      rw [List.forall_mem_cons, ← hrest, ← offloadOne_accepts_iff reader urls (put 0) item]
      exact List.forall_mem_cons

theorem offloaded_accepts_iff (r : Runner.Run) :
    Accepts ((match r.offloaded with
        | some (records, _) => records
        | none => []).mapM Absorb.artifactResult) <->
      forall item, item ∈ offloadItems r -> itemFits r.reader r.urls item = true := by
  unfold Runner.Run.offloaded offloadItems
  cases hpath : r.args.offloadManifest.filter (· ≠ "") with
  | none => exact iff_of_true (.ok _) (fun item h => by cases h)
  | some path =>
      simp only [Option.map_some, Runner.offload]
      cases hitems : Runner.loadManifest (some path) r.offloadRead with
      | error e => exact iff_of_true (.ok _) (fun item h => by cases h)
      | ok items => exact offloadItems_accepts_iff r.reader r.urls items r.put

/-!
## The fields of the payload
-/

theorem roundHalfEven_bounds (q : Rat) :
    q.floor ≤ Absorb.roundHalfEven q ∧ Absorb.roundHalfEven q ≤ q.floor + 1 := by
  unfold Absorb.roundHalfEven
  simp only
  split
  · omega
  · split
    · omega
    · split <;> omega

theorem isoUtc_isSome {micros : Int} (hlow : 0 ≤ micros)
    (hhigh : micros ≤ 253402300799000000) : (Absorb.isoUtc micros).isSome = true := by
  unfold Absorb.isoUtc
  simp only
  rw [if_pos (by omega)]
  rfl

theorem vmTime_accepts (t : Runner.VmTime) : Accepts (Absorb.vmTime t.json) := by
  have hmicros : 0 ≤ t.seconds * 1000000 := by
    have h := t.after
    linarith
  have hupper : t.seconds * 1000000 ≤ 9223372037000000 := by
    have h := t.before
    linarith
  have hlow : 0 ≤ (t.seconds * 1000000).floor := Rat.le_floor_iff.mpr (by simpa using hmicros)
  have hhigh : (t.seconds * 1000000).floor ≤ 9223372037000000 := by
    have h := Rat.floor_le (t.seconds * 1000000)
    have : ((t.seconds * 1000000).floor : Rat) ≤ 9223372037000000 := h.trans hupper
    exact_mod_cast this
  rcases roundHalfEven_bounds (t.seconds * 1000000) with ⟨hge, hle⟩
  have hsome := @isoUtc_isSome (Absorb.roundHalfEven (t.seconds * 1000000)) (by omega) (by omega)
  unfold Absorb.vmTime Runner.VmTime.json
  simp only
  cases h : Absorb.isoUtc (Absorb.roundHalfEven (t.seconds * 1000000)) with
  | none =>
      rw [h] at hsome
      cases hsome
  | some text => exact .ok _

theorem exceptionRecord_accepts_iff (value : Json) :
    Accepts (Absorb.exceptionRecord value) <-> exceptionFits value = true := by
  cases value with
  | null => exact iff_of_true (.ok _) rfl
  | obj fields =>
      unfold Absorb.exceptionRecord exceptionFits
      rw [accepts_map_iff, List.all_eq_true]
      refine (accepts_mapM_iff _ fields).trans (forall₂_congr fun f _ => ?_)
      rcases f with ⟨name, value⟩
      cases value <;> simp [Accepts, Json.asStr?]
  | _ => exact iff_of_false (by rintro ⟨record, h⟩; cases h) (by simp [exceptionFits])

@[simp] theorem records_arr (items : List Json) : Absorb.records (.arr items) = .ok items := by
  cases items <;> rfl

theorem intList_nats_accepts (name : String) (numbers : List Nat) :
    Accepts (Absorb.intList name (Runner.nats numbers)) := by
  refine (accepts_mapM_iff _ _).mpr fun item h => ?_
  rcases List.mem_map.mp h with ⟨n, _, rfl⟩
  exact .ok _

theorem nats_orElse (numbers : List Nat) :
    (Runner.nats numbers).orElse (.arr []) = Runner.nats numbers := by
  cases numbers <;> rfl

theorem workload_ofValue (w : Workload) : Workload.ofValue? w.value = some w := by
  cases w <;> rfl

theorem workloadOf_payload (p : Runner.Payload) :
    Absorb.workloadOf (Runner.resultPayload p) = .ok p.workload := by
  have hvalue : (Runner.resultPayload p).getD "workload" (.str "unknown") =
      .str p.workload.value := rfl
  unfold Absorb.workloadOf
  simp only [hvalue, workload_ofValue]

theorem lastItem_accepts (lines : List String)
    (h : (Json.arr (lines.map Json.str)).truthy = true) :
    Accepts (Verdict.lastItem (.arr (lines.map Json.str))) := by
  unfold Verdict.lastItem
  dsimp only
  cases hlast : (lines.map Json.str).getLast? with
  | none =>
      rw [List.getLast?_eq_none_iff.mp hlast] at h
      cases h
  | some line => exact .ok _

theorem oomNote_accepts (result : Json.Fields) (kills : Option Int) (log : List String)
    (hkills : result.get "oom_kills" = Json.optional (kills.map Json.int))
    (hlog : result.get "oom_log" = Runner.strs log) :
    Accepts (Verdict.oomNote result) := by
  have horElse : (Runner.strs log).orElse (.arr []) = .arr (log.map Json.str) := by
    cases log <;> rfl
  unfold Verdict.oomNote
  rw [hkills, hlog, horElse]
  cases kills with
  | none => exact .ok _
  | some kills =>
      have hint : (Json.optional ((some kills).map Json.int)).asInt? = some kills := rfl
      rw [hint]
      dsimp only
      split
      · exact .ok _
      · split
        · next h => exact (accepts_map_iff _ _).mpr (lastItem_accepts log h)
        · exact .ok _

theorem failedReason_accepts (result : Json.Fields) (tagged : List Nat)
    (h : (result.get "survivors_by_job_tag").orElse (.arr []) = Runner.nats tagged) :
    Accepts (Verdict.failedReason result) := by
  unfold Verdict.failedReason
  simp only [h]
  split
  · exact .ok _
  · split
    · exact .ok _
    · split
      · split <;> exact .ok _
      · exact .ok _

theorem workloadOutcome_accepts (p : Runner.Payload) (wallClock : Int) :
    Accepts (Verdict.workloadOutcome (Runner.resultPayload p) wallClock) := by
  have hnote := oomNote_accepts (Runner.resultPayload p) p.oomKills p.oomLog rfl rfl
  have hfailed := failedReason_accepts (Runner.resultPayload p) p.tagged
    (nats_orElse p.tagged)
  have hvalue : Json.Fields.getD (Runner.resultPayload p) "workload" (.str "unknown") =
      .str p.workload.value := rfl
  unfold Verdict.workloadOutcome
  rw [hvalue]
  split
  · exact .ok _
  · exact .ok _
  · exact hnote.bind fun _ _ => .ok _
  · exact hfailed.bind fun _ _ => hnote.bind fun _ _ => .ok _

theorem absorbOutcome_accepts (env : JobEnvelope) (spec : JobSpec) (p : Runner.Payload)
    (stageFailed : Bool) (reason : Option String) (retry : Option RetryClass) :
    Accepts (Absorb.absorbOutcome env spec (Runner.resultPayload p) stageFailed reason
      retry) := by
  unfold Absorb.absorbOutcome
  split
  · exact .ok _
  · refine (workloadOutcome_accepts p spec.budgets.wallClock).bind fun outcome _ => ?_
    rcases outcome with ⟨workloadReason, workloadRetry⟩
    simp only
    split
    · exact .ok _
    · split <;> exact .ok _

theorem absorbHints_accepts (env : JobEnvelope) (p : Runner.Payload)
    (survivors : List Nat) :
    Accepts (Absorb.absorbHints env (Runner.resultPayload p) (Runner.nats survivors)) := by
  have hwarnings : Json.Fields.get (Runner.resultPayload p) "runner_warnings" =
      Runner.strs p.warnings := rfl
  unfold Absorb.absorbHints
  rw [hwarnings]
  unfold Runner.strs
  rw [records_arr]
  refine Accepts.bind (.ok _) fun _ _ => ?_
  split
  · exact .ok _
  · exact .ok _

theorem absorbProvenance_accepts_iff (env : JobEnvelope) (p : Runner.Payload) :
    Accepts (Absorb.absorbProvenance env (Runner.resultPayload p)) <->
      p.cliVersion ≠ "" := by
  have hschema : Json.Fields.getD (Runner.resultPayload p) "schema_version" (.str "1") =
      .str "2" := rfl
  have hversion : Json.Fields.get (Runner.resultPayload p) "cli_version" =
      .str p.cliVersion := rfl
  have hpayload : Json.Fields.get (Runner.resultPayload p) "runtime_payload_version" =
      .str ("sha256:" ++ p.payloadDigest) := rfl
  unfold Absorb.absorbProvenance
  simp only [hschema, hversion, hpayload]
  constructor
  · rintro ⟨env', h⟩ hempty
    rw [hempty] at h
    cases h
  · intro hversion
    have hdigest : "sha256:" ++ p.payloadDigest ≠ "" := by simp
    refine Accepts.bind ?_ fun _ _ => Accepts.bind ?_ fun _ _ => .ok _
    · split
      · next heq => exact absurd (Json.str.inj heq) hversion
      · exact .ok _
      · next hother => exact absurd rfl (hother p.cliVersion)
    · split
      · next heq => exact absurd (Json.str.inj heq) hdigest
      · exact .ok _
      · next hother => exact absurd rfl (hother ("sha256:" ++ p.payloadDigest))

/-- What the supervisor asks of a payload whose inputs are the runner's own records. -/
theorem payload_accepts_iff (p : Runner.Payload) (env : JobEnvelope) (spec : JobSpec)
    (now : String) (hinputs : Accepts (p.inputs.mapM Absorb.inputResult)) :
    Accepts (Absorb.absorbResult env spec (Runner.resultPayload p) now) <->
      p.cliVersion ≠ "" ∧ exceptionFits p.exception = true ∧
        Accepts (p.artifacts.mapM Absorb.artifactResult) := by
  have hinputItems : Absorb.records (Json.Fields.get (Runner.resultPayload p) "inputs") =
      .ok p.inputs := records_arr p.inputs
  have hartifactItems : Absorb.records
      (Json.Fields.get (Runner.resultPayload p) "artifacts") = .ok p.artifacts :=
    records_arr p.artifacts
  have hsurvivors : exists all,
      (Json.Fields.get (Runner.resultPayload p) "surviving_descendants").orElse (.arr []) =
        Runner.nats all := ⟨_, nats_orElse _⟩
  rcases hsurvivors with ⟨all, hall⟩
  unfold Absorb.absorbResult
  rw [hinputItems, hartifactItems, hall]
  constructor
  · rintro ⟨env', h⟩
    obtain ⟨env1, hprovenance, h⟩ := Fallible.bind_ok h
    obtain ⟨workload, -, h⟩ := Fallible.bind_ok h
    obtain ⟨finished, -, h⟩ := Fallible.bind_ok h
    obtain ⟨inputItems, -, h⟩ := Fallible.bind_ok h
    obtain ⟨inputs, -, h⟩ := Fallible.bind_ok h
    obtain ⟨artifactItems, hitems, h⟩ := Fallible.bind_ok h
    obtain ⟨artifacts, hartifacts, h⟩ := Fallible.bind_ok h
    obtain ⟨env2, -, h⟩ := Fallible.bind_ok h
    obtain ⟨hints, -, h⟩ := Fallible.bind_ok h
    obtain ⟨exitCode, -, h⟩ := Fallible.bind_ok h
    obtain ⟨signal, -, h⟩ := Fallible.bind_ok h
    obtain ⟨exception, hexception, -⟩ := Fallible.bind_ok h
    cases hitems
    exact ⟨(absorbProvenance_accepts_iff _ p).mp ⟨env1, hprovenance⟩,
      (exceptionRecord_accepts_iff _).mp ⟨exception, hexception⟩, ⟨artifacts, hartifacts⟩⟩
  · rintro ⟨hversion, hexception, hartifacts⟩
    refine Accepts.bind ((absorbProvenance_accepts_iff _ p).mpr hversion) fun env1 _ => ?_
    refine Accepts.bind ⟨_, workloadOf_payload p⟩ fun workload _ => ?_
    refine Accepts.bind (vmTime_accepts p.finished) fun finished _ => ?_
    refine Accepts.bind (.ok _) fun inputItems hitems => ?_
    cases hitems
    refine Accepts.bind hinputs fun inputs _ => ?_
    refine Accepts.bind (.ok _) fun artifactItems hitems => ?_
    cases hitems
    refine Accepts.bind hartifacts fun artifacts _ => ?_
    refine Accepts.bind (absorbOutcome_accepts _ spec p _ _ _) fun env2 _ => ?_
    refine Accepts.bind (absorbHints_accepts env2 p all) fun hints _ => ?_
    refine Accepts.bind (accepts_optNat "exit_code" p.exitCode) fun exitCode _ => ?_
    refine Accepts.bind (accepts_optNat "signal" p.termSignal) fun signal _ => ?_
    refine Accepts.bind ((exceptionRecord_accepts_iff _).mpr hexception) fun exception _ => ?_
    exact Accepts.bind (intList_nats_accepts "surviving_descendants" all) fun _ _ => .ok _

/-!
## A whole run
-/

theorem stageFailure_fields (r : Runner.Run) (inputs : List Json)
    (error : Runner.StageError) :
    (r.stageFailure inputs error).cliVersion = r.args.cliVersion ∧
      (r.stageFailure inputs error).inputs = inputs ∧
      exceptionFits (r.stageFailure inputs error).exception = true ∧
      (r.stageFailure inputs error).artifacts = [] := by
  cases error with
  | item record dest reason => exact ⟨rfl, rfl, rfl, rfl⟩
  | setup e => exact ⟨rfl, rfl, rfl, rfl⟩

theorem verdict_fields (r : Runner.Run) (inputs : List Json) (s : Runner.Wait) :
    (r.verdict inputs s).cliVersion = r.args.cliVersion ∧
      (r.verdict inputs s).inputs = inputs ∧
      (r.verdict inputs s).exception = r.exceptionFile.value ∧
      (r.verdict inputs s).artifacts =
        (match r.offloaded with
          | some (records, _) => records
          | none => []) := by
  unfold Runner.Run.verdict
  cases r.offloaded with
  | none => exact ⟨rfl, rfl, rfl, rfl⟩
  | some outcome => exact ⟨rfl, rfl, rfl, rfl⟩

theorem written_accepts_iff {r : Runner.Run} {p : Runner.Payload}
    (h : r.written = some p) (env : JobEnvelope) (spec : JobSpec) (now : String) :
    Accepts (Absorb.absorbResult env spec (Runner.resultPayload p) now) <-> Fits r := by
  have hstaged := stage_accepts r
  unfold Runner.Run.written at h
  rcases hstage : r.stage with ⟨inputs, error⟩
  rw [hstage] at h hstaged
  cases error with
  | some error =>
      cases h
      rcases stageFailure_fields r inputs error with ⟨hversion, hinputs, hexception, hnone⟩
      rw [payload_accepts_iff _ env spec now (hinputs ▸ hstaged), hversion, hnone]
      unfold Fits
      rw [hstage]
      exact and_congr_right fun _ => iff_of_true ⟨hexception, .ok _⟩ (Or.inl rfl)
  | none =>
      rcases Option.map_eq_some_iff.mp h with ⟨s, hwait, rfl⟩
      rcases verdict_fields r inputs s with ⟨hversion, hinputs, hexception, hrecords⟩
      rw [payload_accepts_iff _ env spec now (hinputs ▸ hstaged), hversion, hexception,
        hrecords, offloaded_accepts_iff]
      unfold Fits
      rw [hstage]
      simp

/-!
## Through the transport
-/

/-- The read of `result.json` is answered with its text, which parses to the payload. -/
def Delivered (w : Transport.World) (cfg : Transport.Config) (path : String)
    (s : Transport.State) (p : Runner.Payload) : Prop :=
  exists text s', Transport.read w cfg path s = ((.str text, .ok), s') ∧
    w.loads text = .ok (.obj (Runner.resultPayload p))

/-- `read_json` and `absorb_result` accept the payload, and the envelope records its
workload. -/
def Absorbed (w : Transport.World) (cfg : Transport.Config) (path : String)
    (s : Transport.State) (p : Runner.Payload) (env : JobEnvelope) (spec : JobSpec)
    (now : String) : Prop :=
  exists fields env', (Transport.readJson w cfg path s).1 = (some fields, .ok) ∧
    Absorb.absorbResult env spec fields now = .ok env' ∧ env'.workload = p.workload

theorem readJson_delivered {w : Transport.World} {cfg : Transport.Config} {path : String}
    {s : Transport.State} {p : Runner.Payload} (h : Delivered w cfg path s p) :
    (Transport.readJson w cfg path s).1 = (some (Runner.resultPayload p), .ok) := by
  rcases h with ⟨text, s', hread, hloads⟩
  have hserver : w.server.loads text = .ok (.obj (Runner.resultPayload p)) := hloads
  unfold Transport.readJson
  rw [hread]
  simp only [hserver]

theorem absorbed_iff_accepts {w : Transport.World} {cfg : Transport.Config}
    {path : String} {s : Transport.State} {p : Runner.Payload}
    (h : Delivered w cfg path s p) (env : JobEnvelope) (spec : JobSpec) (now : String) :
    Absorbed w cfg path s p env spec now <->
      Accepts (Absorb.absorbResult env spec (Runner.resultPayload p) now) := by
  have hread := readJson_delivered h
  constructor
  · rintro ⟨fields, env', hfields, habsorb, -⟩
    cases hread.symm.trans hfields
    exact ⟨env', habsorb⟩
  · rintro ⟨env', habsorb⟩
    have hworkload := (Absorb.absorbResult_spec habsorb).2.1
    rw [workloadOf_payload] at hworkload
    exact ⟨_, env', hread, habsorb, (Except.ok.inj hworkload).symm⟩

/-- For every run of the runner to its result write, and every envelope and spec: the
supervisor absorbs the result and records its workload exactly when the run fits. -/
theorem result_absorbed_iff (w : Transport.World) (cfg : Transport.Config) (path : String)
    (s : Transport.State) (r : Runner.Run) (p : Runner.Payload) (env : JobEnvelope)
    (spec : JobSpec) (now : String) (hwritten : r.written = some p)
    (hdelivered : Delivered w cfg path s p) :
    Absorbed w cfg path s p env spec now <-> Fits r :=
  (absorbed_iff_accepts hdelivered env spec now).trans
    (written_accepts_iff hwritten env spec now)

/-- The text of the `result.json` of a consumer that exits 0, given that of `exception`. -/
def exitsZeroText (exception : String) : String :=
  "\n".intercalate
    ["\x7b", "  \"schema_version\": \"2\",", "  \"cli_version\": \"0.5.0\",",
      "  \"runtime_payload_version\": \"sha256:00\",",
      "  \"workload\": \"succeeded\",", "  \"exit_code\": 0,", "  \"signal\": null,",
      "  \"signal_name\": null,", "  \"cancel_intent\": null,",
      "  \"exception\": " ++ exception ++ ",", "  \"surviving_descendants\": [],",
      "  \"survivors_by_pgid\": [],", "  \"survivors_by_job_tag\": [],",
      "  \"escapee_detection_available\": true,", "  \"runner_error\": null,",
      "  \"attempt\": 1,", "  \"started_at\": 1000.0,", "  \"finished_at\": 1002.5,",
      "  \"phase\": \"run\",", "  \"inputs\": [],", "  \"artifacts\": [],",
      "  \"offload\": \"not_required\",", "  \"offload_error\": null,",
      "  \"oom_kills\": null,", "  \"oom_log\": [],", "  \"runner_warnings\": []",
      "\x7d"]

def servesText (text : String) (fields : Json.Fields) : Transport.World where
  hop := fun _ => ⟨1, 0, none, none, ""⟩
  listing := fun _ => ⟨1, 0, none, ⟨some "token", none⟩, 0⟩
  releasedAt := none
  file := fun _ _ => some (.obj [("content", .str text), ("format", .str "text")])
  parent := fun _ _ => true
  loads := fun t => if t = text then .ok (.obj fields) else .error "ValueError"
  decode := fun t => .error t

theorem servesText_delivered (text : String) (p : Runner.Payload) :
    Delivered (servesText text (Runner.resultPayload p)) ⟨3, 1, 60⟩ "result.json"
      (Transport.State.fresh 0 50 ⟨"token", "url"⟩) p :=
  ⟨text, _, rfl, if_pos rfl⟩

/-- Without an `exception.json` the result of such a consumer is absorbed. -/
theorem result_absorbed_plain :
    exists p, (Runner.exitsZero .absent).written = some p ∧
      (Absorbed (servesText (exitsZeroText "null") (Runner.resultPayload p)) ⟨3, 1, 60⟩
        "result.json" (Transport.State.fresh 0 50 ⟨"token", "url"⟩) p
        { jobId := "job" } { name := "job", code := { entry := "main.py" } } "now" <->
        Fits (Runner.exitsZero .absent)) ∧ Fits (Runner.exitsZero .absent) :=
  ⟨_, rfl,
    result_absorbed_iff _ _ _ _ (Runner.exitsZero .absent) _ _ _ _ rfl (servesText_delivered _ _),
    by decide, Or.inr ⟨rfl, fun item h => by cases h⟩⟩

/-- A consumer that leaves a list in `exception.json` and exits 0: the runner writes
"succeeded", and the supervisor rejects the result. -/
theorem list_exception_rejected :
    ¬forall (w : Transport.World) (cfg : Transport.Config) (path : String)
      (s : Transport.State) (r : Runner.Run) (p : Runner.Payload) (env : JobEnvelope)
      (spec : JobSpec) (now : String), r.written = some p -> Delivered w cfg path s p ->
      Absorbed w cfg path s p env spec now := by
  intro h
  let r := Runner.exitsZero (.json (.arr [.str "boom"]))
  have hwritten : r.written = some (r.verdict [] { exitCode := some 0 }) := rfl
  let text := exitsZeroText "[\n    \"boom\"\n  ]"
  have hdelivered := servesText_delivered text (r.verdict [] { exitCode := some 0 })
  have habsorbed := h _ _ _ _ r _ { jobId := "job" }
    { name := "job", code := { entry := "main.py" } } "now" hwritten hdelivered
  have haccepts := (absorbed_iff_accepts hdelivered _ _ _).mp habsorbed
  have hfits := (written_accepts_iff hwritten _ _ _).mp haccepts
  rcases hfits.2 with hstaged | ⟨hexception, _⟩
  · cases hstaged
  · cases hexception

end Absorbable
end Job
end MightyColab
