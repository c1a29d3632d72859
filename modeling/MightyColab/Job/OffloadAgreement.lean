import MightyColab.Job.Absorbable
import MightyColab.Job.TransferChannel

/-!
# One offload, two classifications

The runner says in `result.json` whether the offload failed; the supervisor finds out for
itself from the records. On the manifest that the payload was staged with they agree.
-/

namespace MightyColab
namespace Job

open Lib

namespace OffloadAgreement

open Absorbable

/-!
## The supervisor
-/

theorem singleton_or_nil {item : Type} {c : Prop} [Decidable c] {x : item} {rest : List item}
    (h : (if c then [x] else rest) = []) : ¬c ∧ rest = [] := by
  by_cases hc : c
  · rw [if_pos hc] at h
    cases h
  · rw [if_neg hc] at h
    exact ⟨hc, h⟩

theorem offloadOutcome_failed (declared : List ArtifactItem) (artifacts : List ArtifactResult)
    (offloadError : Json) :
    (Verdict.offloadOutcome declared artifacts (.str "failed") offloadError).1 = .failed := by
  have hparts : Verdict.offloadParts declared artifacts (.str "failed") offloadError ≠ [] := by
    intro hnil
    rcases singleton_or_nil hnil with ⟨hsome, hrest⟩
    exact hsome ⟨List.isEmpty_iff.mpr hrest, rfl⟩
  unfold Verdict.offloadOutcome
  simp only
  rw [if_neg fun h => hparts (List.isEmpty_iff.mp h)]

/-- Nothing is said of an offload without an error, with every required artifact there and
every record but those that failed. -/
theorem offloadOutcome_ok {declared : List ArtifactItem} {artifacts : List ArtifactResult}
    (hpresent : forall d, d ∈ declared -> d.required = true ->
      Verdict.statusOf artifacts d.path ≠ .missing)
    (hsent : forall a, a ∈ artifacts -> a.status ≠ .failed) :
    (Verdict.offloadOutcome declared artifacts (.str "ok") .null).1 = .ok := by
  have hmissing : (declared.filter fun d =>
      d.required && Verdict.statusOf artifacts d.path = .missing) = [] := by
    rw [List.filter_eq_nil_iff]
    intro d hd h
    rw [Bool.and_eq_true, decide_eq_true_eq] at h
    exact hpresent d hd h.1 h.2
  have hfailed : (artifacts.filter fun a => a.status = .failed) = [] := by
    rw [List.filter_eq_nil_iff]
    intro a ha h
    exact hsent a ha (of_decide_eq_true h)
  have hparts : Verdict.offloadParts declared artifacts (.str "ok") .null = [] := by
    simp [Verdict.offloadParts, hmissing, hfailed, Json.truthy]
  unfold Verdict.offloadOutcome
  rw [hparts]
  rfl

theorem statusOf_eq {artifacts : List ArtifactResult} {a : ArtifactResult}
    (hdistinct : (artifacts.map (·.path)).Nodup) (ha : a ∈ artifacts) :
    Verdict.statusOf artifacts a.path = a.status := by
  unfold Verdict.statusOf
  cases hfound : artifacts.reverse.find? fun b => b.path = a.path with
  | none =>
      have hnone := List.find?_eq_none.mp hfound a (List.mem_reverse.mpr ha)
      exact absurd (decide_eq_true rfl) hnone
  | some b =>
      have hpath : b.path = a.path := of_decide_eq_true (by simpa using List.find?_some hfound)
      have hb := List.mem_reverse.mp (List.mem_of_find?_eq_some hfound)
      rw [List.inj_on_of_nodup_map hdistinct hb ha hpath]
      rfl

/-!
## The runner
-/

variable {tools : UrlTools} {reader : Runner.UrlReader} {urls : List (String × String)}

theorem artifactResult_fields {path urlId : String} {status : ArtifactStatus}
    {sha256 : Option String} {bytes : Option Nat} {error : Option Runner.Failure}
    {a : ArtifactResult}
    (h : Absorb.artifactResult
      (Runner.transferRecord "path" (.str path) (.str urlId) status sha256 bytes error) =
        .ok a) :
    a.path = path ∧ a.status = status := by
  rcases Fallible.bind_ok h with ⟨path', hpath, h⟩
  rcases Fallible.bind_ok h with ⟨urlId', _, h⟩
  have hrest : forall status' (fields : Json.Fields), (do
      let sha256 ← Absorb.optStr "sha256" (Json.Fields.get fields "sha256")
      let bytes ← Absorb.optInt "bytes" (Json.Fields.get fields "bytes")
      let error ← Absorb.transferError (Json.Fields.get fields "error")
      let extra :=
        Absorb.extraFields ["path", "url_id", "status", "sha256", "bytes", "error"] fields
      return ({ path := path', urlId := urlId', status := status', sha256, bytes, error, extra } :
        ArtifactResult)) = .ok a -> a.path = path' ∧ a.status = status' := by
    intro status' fields h
    rcases Fallible.bind_ok h with ⟨_, _, h⟩
    rcases Fallible.bind_ok h with ⟨_, _, h⟩
    rcases Fallible.bind_ok h with ⟨_, _, h⟩
    cases h
    exact ⟨rfl, rfl⟩
  have hsame : path' = path := by
    cases hpath
    rfl
  rw [← hsame]
  cases status with
  | ok => exact hrest .ok _ h
  | failed => exact hrest .failed _ h
  | missing => exact hrest .missing _ h

theorem record_accepted (path urlId : String) (status : ArtifactStatus) (sha256 : Option String)
    (bytes : Option Nat) (error : Option Runner.Failure) :
    exists a, Absorb.artifactResult
        (Runner.transferRecord "path" (.str path) (.str urlId) status sha256 bytes error) =
          .ok a ∧ a.path = path ∧ a.status = status := by
  rcases (artifactRecord_accepts_iff (.str path) (.str urlId) status sha256 bytes error).mpr
    ⟨rfl, rfl⟩ with ⟨a, ha⟩
  exact ⟨a, ha, artifactResult_fields ha⟩

/-- The record of a declared artifact has its path and the status that the runner judges
by. -/
theorem offloadOne_declared (item : ArtifactItem) (put : Runner.Put) :
    exists a, Absorb.artifactResult
        (Runner.offloadOne reader urls put (.obj (TransferChannel.artifactRow tools item))).1 =
          .ok a ∧ a.path = item.path ∧
      a.status =
        (Runner.offloadOne reader urls put (.obj (TransferChannel.artifactRow tools item))).2 := by
  unfold Runner.offloadOne Runner.artifactRecord
  simp only
  cases hurl : Runner.resolveTransferUrl reader (TransferChannel.artifactRow tools item) urls with
  | error e => exact record_accepted item.path _ .failed none none (some e)
  | ok url =>
      have hid : exists urlId, (Json.Fields.get (TransferChannel.artifactRow tools item)
          "url_id").orElse (.str (reader.urlId url)) = .str urlId := by
        change exists urlId, Json.orElse (.str (tools.urlId item.url)) _ = _
        unfold Json.orElse
        split
        · exact ⟨_, rfl⟩
        · exact ⟨_, rfl⟩
      rcases hid with ⟨urlId, hid⟩
      have hpath : Json.Fields.get (TransferChannel.artifactRow tools item) "path" =
          .str item.path := rfl
      simp only [hid, hpath]
      cases put with
      | absent => exact record_accepted _ _ _ _ _ _
      | failed e bytes => exact record_accepted _ _ _ _ _ _
      | sent bytes sha256 => exact record_accepted _ _ _ _ _ _

/-- What the records of the declared artifacts say, given whether the runner found one of
them to fail the offload. -/
structure Answered (items : List ArtifactItem) (artifacts : List ArtifactResult)
    (failed : Bool) : Prop where
  paths : artifacts.map (·.path) = items.map (·.path)
  sent : failed = false -> forall a, a ∈ artifacts -> a.status ≠ .failed
  present : failed = false -> forall item, item ∈ items -> item.required = true ->
    exists a, a ∈ artifacts ∧ a.path = item.path ∧ a.status ≠ .missing

theorem offloadItems_answered (items : List ArtifactItem) (put : Nat -> Runner.Put) :
    let (records, failed) := Runner.offloadItems reader urls
      (items.map fun item => .obj (TransferChannel.artifactRow tools item)) put
    exists artifacts, records.mapM Absorb.artifactResult = .ok artifacts ∧
      Answered items artifacts failed := by
  induction items generalizing put with
  | nil =>
      refine ⟨[], rfl, rfl, ?_, ?_⟩
      · intro _ a ha
        cases ha
      · intro _ item hitem
        cases hitem
  | cons item rest ih =>
      rcases @offloadOne_declared tools reader urls item (put 0) with ⟨a, ha, hpath, hstatus⟩
      rcases ih fun n => put (n + 1) with ⟨artifacts, hmap, hpaths, hsent, hpresent⟩
      have hrequired : Runner.itemRequired
          (.obj (TransferChannel.artifactRow tools item)) = item.required := rfl
      rw [List.map_cons, Runner.offloadItems]
      simp only [hrequired, ← hstatus]
      refine ⟨a :: artifacts, ?_, ?_, ?_, ?_⟩
      · rw [List.mapM_cons, ha, hmap]
        rfl
      · rw [List.map_cons, List.map_cons, hpath, hpaths]
      · intro hfailed b hb
        simp only [Bool.or_eq_false_iff, decide_eq_false_iff_not] at hfailed
        rcases List.mem_cons.mp hb with rfl | hb
        · exact hfailed.1.1
        · exact hsent hfailed.2 b hb
      · intro hfailed other hother hother'
        simp only [Bool.or_eq_false_iff, Bool.and_eq_false_iff, decide_eq_false_iff_not]
          at hfailed
        rcases List.mem_cons.mp hother with rfl | hother
        · refine ⟨a, List.mem_cons_self, hpath, ?_⟩
          rcases hfailed.1.2 with h | h
          · exact h
          · rw [hother'] at h
            cases h
        · rcases hpresent hfailed.2 other hother hother' with ⟨b, hb, hfacts⟩
          exact ⟨b, List.mem_cons_of_mem _ hb, hfacts⟩

/-!
## Agreement
-/

/-- What the supervisor makes of the records that a result was absorbed with. -/
def supervisorOffload (spec : JobSpec) (result : Json.Fields) : Except String Offload := do
  let artifacts ← (← Absorb.records (result.get "artifacts")).mapM Absorb.artifactResult
  return (Absorb.offloadOf spec false artifacts result).1

theorem supervisorOffload_eq {spec : JobSpec} {p : Runner.Payload}
    {artifacts : List ArtifactResult}
    (h : p.artifacts.mapM Absorb.artifactResult = .ok artifacts) :
    supervisorOffload spec (Runner.resultPayload p) =
      .ok (Absorb.offloadOf spec false artifacts (Runner.resultPayload p)).1 := by
  have hrecords : Absorb.records ((Runner.resultPayload p).get "artifacts") =
      .ok p.artifacts := records_arr p.artifacts
  unfold supervisorOffload
  rw [hrecords]
  change (p.artifacts.mapM Absorb.artifactResult >>= _) = _
  rw [h]
  rfl

theorem offloadOf_agrees {spec : JobSpec} {p : Runner.Payload} {items : List ArtifactResult}
    {failed : Bool} (hsome : spec.artifacts ≠ [])
    (hdistinct : (spec.artifacts.map (·.path)).Nodup)
    (hanswered : Answered spec.artifacts items failed) (herror : p.offloadError = none)
    (hstatus : p.offloadStatus = if failed then .failed else .ok) :
    (Absorb.offloadOf spec false items (Runner.resultPayload p)).1 = p.offloadStatus := by
  have hempty : ¬spec.artifacts.isEmpty := fun h => hsome (List.isEmpty_iff.mp h)
  have hremote : (Runner.resultPayload p).get "offload" =
      .str (Runner.offloadValue p.offloadStatus) := rfl
  have hnone : (Runner.resultPayload p).get "offload_error" = .null := by
    change Json.optStr p.offloadError = .null
    rw [herror]
    rfl
  unfold Absorb.offloadOf
  rw [if_neg hempty, if_neg Bool.false_ne_true, hremote, hnone, hstatus]
  cases failed with
  | true => exact offloadOutcome_failed _ _ _
  | false =>
      have hpaths : (items.map (·.path)).Nodup := by
        rw [hanswered.paths]
        exact hdistinct
      refine offloadOutcome_ok ?_ (hanswered.sent rfl)
      intro item hitem hrequired
      rcases hanswered.present rfl item hitem hrequired with ⟨a, ha, hpath, hthere⟩
      rw [← hpath, statusOf_eq hpaths ha]
      exact hthere

/-- A run that reached its offload: where the runner read the manifest that the payload was
staged with, or could not read it, the supervisor derives from the records that it absorbs
the status that the runner has written. -/
theorem offload_agrees (tools : UrlTools) (spec : JobSpec) (r : Runner.Run)
    (inputs : List Json) (s : Runner.Wait)
    (hdistinct : (spec.artifacts.map (·.path)).Nodup)
    (hlaunched : (r.args.offloadManifest.filter (· ≠ "")).isSome = !spec.artifacts.isEmpty)
    (hmanifest : forall manifest, r.offloadRead = .ok manifest ->
      manifest = (TransferChannel.stagePayload tools spec).offload) :
    supervisorOffload spec (Runner.resultPayload (r.verdict inputs s)) =
        .ok (r.verdict inputs s).offloadStatus ∧
      (Runner.resultPayload (r.verdict inputs s)).get "offload" =
        .str (Runner.offloadValue (r.verdict inputs s).offloadStatus) := by
  refine ⟨?_, rfl⟩
  cases hgiven : r.args.offloadManifest.filter (· ≠ "") with
  | none =>
      rw [hgiven] at hlaunched
      have hnothing : r.offloaded = none := by
        unfold Runner.Run.offloaded
        rw [hgiven]
        rfl
      have hartifacts : (r.verdict inputs s).artifacts = [] := by
        unfold Runner.Run.verdict
        rw [hnothing]
      have hstatus : (r.verdict inputs s).offloadStatus = .notRequired := by
        unfold Runner.Run.verdict
        rw [hnothing]
      have hempty : spec.artifacts.isEmpty = true := by simpa using hlaunched.symm
      rw [@supervisorOffload_eq spec _ [] (by rw [hartifacts]; rfl), hstatus]
      unfold Absorb.offloadOf
      rw [if_pos hempty]
  | some path =>
      rw [hgiven] at hlaunched
      have hsome : spec.artifacts ≠ [] := by
        intro hnil
        rw [hnil] at hlaunched
        cases hlaunched
      have hoffloaded : r.offloaded =
          some (Runner.offload r.reader r.urls path r.offloadRead r.put) := by
        unfold Runner.Run.offloaded
        rw [hgiven]
        rfl
      have hpath : (some path).filter (· ≠ "") = some path := by
        rw [← hgiven, Option.filter_filter]
        simp
      cases hread : r.offloadRead with
      | error e =>
          have hfailed : r.offloaded = some ([], true,
              some s!"offload manifest unreadable: {e.toRaised.text}") := by
            rw [hoffloaded, hread, Runner.offload, Runner.loadManifest, hpath]
          have hartifacts : (r.verdict inputs s).artifacts = [] := by
            unfold Runner.Run.verdict
            rw [hfailed]
          have hstatus : (r.verdict inputs s).offloadStatus = .failed := by
            unfold Runner.Run.verdict
            rw [hfailed]
            rfl
          have hremote : (Runner.resultPayload (r.verdict inputs s)).get "offload" =
              .str "failed" := by
            change Json.str (Runner.offloadValue (r.verdict inputs s).offloadStatus) = _
            rw [hstatus]
            rfl
          rw [@supervisorOffload_eq spec _ [] (by rw [hartifacts]; rfl), hstatus]
          unfold Absorb.offloadOf
          rw [if_neg fun h => hsome (List.isEmpty_iff.mp h), if_neg Bool.false_ne_true, hremote,
            offloadOutcome_failed]
      | ok manifest =>
          rw [hmanifest manifest hread] at hread
          have hanswered := @offloadItems_answered tools r.reader r.urls spec.artifacts r.put
          rcases hitems : Runner.offloadItems r.reader r.urls
            (spec.artifacts.map fun item => .obj (TransferChannel.artifactRow tools item)) r.put
            with ⟨records, failed⟩
          rw [hitems] at hanswered
          rcases hanswered with ⟨artifacts, hmap, hanswered⟩
          have hrun : r.offloaded = some (records, failed, none) := by
            rw [hoffloaded, hread, Runner.offload, Runner.loadManifest, hpath]
            simp only [TransferChannel.stagePayload, hitems]
          have hartifacts : (r.verdict inputs s).artifacts = records := by
            unfold Runner.Run.verdict
            rw [hrun]
          have herror : (r.verdict inputs s).offloadError = none := by
            unfold Runner.Run.verdict
            rw [hrun]
          have hstatus : (r.verdict inputs s).offloadStatus =
              if failed then .failed else .ok := by
            unfold Runner.Run.verdict
            rw [hrun]
          rw [supervisorOffload_eq (by rw [hartifacts]; exact hmap),
            offloadOf_agrees hsome hdistinct hanswered herror hstatus]

def twoArtifacts : JobSpec where
  name := "n"
  code := { entry := "main.py" }
  artifacts :=
    [{ path := "model.bin", url := "https://h/x?sig=1" },
      { path := "log.txt", url := "https://h/y?sig=2", required := false }]

def twoArtifactTools : UrlTools :=
  asciiTools
    [("https://h/x?sig=1", "80bb5a14fe3194e91d4ef2c31fed3915a2ed58419ac1e7be7d493fee5a081ec3"),
      ("https://h/y?sig=2", "b89203686191c1b71801ed323d6d6afe69879ed2e885bc74182e504805a31812")]
    (by decide)

def withoutUrls : Runner.Run :=
  { Runner.exitsZero .absent with
    args := { cliVersion := "0.5.0", offloadManifest := some "offload.manifest.json" }
    offloadRead := .ok (TransferChannel.stagePayload twoArtifactTools twoArtifacts).offload }

theorem offload_agrees_without_urls :
    supervisorOffload twoArtifacts
        (Runner.resultPayload (withoutUrls.verdict [] { exitCode := some 0 })) =
        .ok (withoutUrls.verdict [] { exitCode := some 0 }).offloadStatus ∧
      (Runner.resultPayload (withoutUrls.verdict [] { exitCode := some 0 })).get "offload" =
        .str (Runner.offloadValue
          (withoutUrls.verdict [] { exitCode := some 0 }).offloadStatus) :=
  offload_agrees twoArtifactTools twoArtifacts withoutUrls [] { exitCode := some 0 }
    (by decide) (by decide) (fun manifest h => by cases h; rfl)

end OffloadAgreement
end Job
end MightyColab
