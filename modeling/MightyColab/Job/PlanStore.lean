import MightyColab.Lib.Dict
import MightyColab.Job.PlanDump
import MightyColab.Job.UrlIdentity

/-!
# The plan file and its secrets

A plan is written with a reference in place of each URL that has a query; the URLs go to an
owner-only file beside it. What `apply` loads is the two put together again.
-/

namespace MightyColab
namespace Job

open Lib
open PlanDump

namespace PlanStore

/-!
## The documents
-/

variable (tools : UrlTools)

def redactOne (s : String) : String :=
  if tools.hasUrlQuery s then tools.redactedUrl s else s

/-- `_redact`: the document with references, and the URLs that they stand for. -/
def redact (payload : Json) : Json × List (String × String) :=
  (Json.mapStr (onUrl (redactOne tools)) none payload,
    Dict.ofPairs (((urlStrings none payload).filter tools.hasUrlQuery).map fun url =>
      (tools.redactedUrl url, url)))

def markerSet (payload : Json) : List String :=
  (urlStrings none payload).filter tools.isRedactedUrl

def hydrateOne (secrets : List (String × String)) (key : Option String) (s : String) :
    Except String String :=
  if !urlField key then .ok s
  else if tools.isRedactedUrl s then
    match secrets.lookup s with
    | some url => .ok url
    | none => .error "plan secret sidecar is missing a URL reference"
  else if tools.hasUrlQuery s then .error "plan file contains an unprotected signed URL"
  else .ok s

def hydrate (secrets : List (String × String)) (payload : Json) : Except String Json :=
  Json.traverse (hydrateOne tools secrets) none payload

/-!
## The files
-/

inductive PlanFile where
  | unreadable (problem : String)
  /-- With the text that names the file and the place in it. -/
  | notJson (problem : String)
  | json (payload : Json)

/-- The secret file as `_read_secret_map` finds it. -/
inductive Sidecar where
  /-- Missing, or a symbolic link. -/
  | unopened
  | unstatable
  /-- No regular file, or another user's. -/
  | foreign
  /-- Open to others by its mode. -/
  | exposed
  | unreadable
  | json (payload : Json)

structure Files where
  plan : PlanFile
  sidecar : Sidecar

/-- `raw` is a URL with this marker. -/
def secretOk (item : String × Json) : Bool :=
  match item.2 with
  | .str raw => tools.redactedUrl raw == item.1
  | _ => false

def sameSet (first second : List String) : Bool :=
  first.all (second.contains ·) && second.all (first.contains ·)

def readSecretMap (markers : List String) : Sidecar -> Except String (List (String × String))
  | .unopened => .error "plan secret sidecar is missing or unsafe"
  | .unstatable => .error "plan secret sidecar is invalid"
  | .foreign => .error "plan secret sidecar is not an owner-controlled file"
  | .exposed => .error "plan secret sidecar has unsafe permissions"
  | .unreadable => .error "plan secret sidecar is invalid"
  | .json payload =>
      match (payload.asObj?.map fun fields => Json.Fields.get fields "urls").bind Json.asObj? with
      | none => .error "plan secret sidecar does not match the plan"
      | some urls =>
          if sameSet (Dict.keys urls) markers && urls.all (secretOk tools) then
            .ok (urls.filterMap fun (k, v) => v.asStr?.map (k, ·))
          else .error "plan secret sidecar does not match the plan"

/-- The records' types and validators, which read a plan from its document. -/
structure PlanModel where
  validate : Json -> Except String Plan

/-- The plan is a valid one, whatever its URLs: the validators take them as strings. -/
def PlanModel.Keeps (model : PlanModel) (plan : Plan) : Prop :=
  forall f, model.validate (ofPlan (plan.mapUrls f)) = .ok (plan.mapUrls f)

/-- The secret map, which is not read for a plan without references. -/
def planSecrets (payload : Json) (sidecar : Sidecar) :
    Except String (List (String × String)) :=
  if markerSet tools payload = [] then .ok []
  else readSecretMap tools (markerSet tools payload) sidecar

/-- `load_plan_file(path, hydrate=True)`. -/
def loadPlanFile (model : PlanModel) (files : Files) : Except String Plan :=
  match files.plan with
  | .unreadable problem => .error s!"plan file cannot be read: {problem}"
  | .notJson problem => .error problem
  | .json payload => do
      let _ ← model.validate payload
      let secrets ← planSecrets tools payload files.sidecar
      model.validate (← hydrate tools secrets payload)

def writePlanFile (plan : Plan) : Files :=
  let (payload, secrets) := redact tools (ofPlan plan)
  { plan := .json payload
    sidecar :=
      if secrets = [] then .unopened
      else .json (.obj [("urls", .obj (secrets.map fun (k, v) => (k, .str v)))]) }

/-!
## What a sidecar can do
-/

variable {tools} {model : PlanModel} {plan : Plan} {payload : Json}
variable {secrets : List (String × String)}

/-- Each reference is replaced by a URL that it is the reference of, and nothing else is
replaced. -/
def Hydrated (tools : UrlTools) (payload result : Json) : Prop :=
  exists f, result = Json.mapStr (onUrl f) none payload ∧
    forall s, s ∈ urlStrings none payload ->
      (tools.isRedactedUrl s = true -> tools.redactedUrl (f s) = s) ∧
      (tools.isRedactedUrl s = false -> f s = s)

theorem readSecretMap_ok {markers : List String} {sidecar : Sidecar}
    (h : readSecretMap tools markers sidecar = .ok secrets) :
    forall marker url, secrets.lookup marker = some url -> tools.redactedUrl url = marker := by
  unfold readSecretMap at h
  split at h
  · cases h
  · cases h
  · cases h
  · cases h
  · cases h
  · split at h
    · cases h
    · next urls _ =>
        split at h
        · next hok =>
            cases h
            intro marker url hlookup
            rw [Bool.and_eq_true] at hok
            rcases List.lookup_eq_some_iff.mp hlookup with ⟨first, rest, heq, _⟩
            have hmem : (marker, url) ∈ urls.filterMap fun (k, v) => v.asStr?.map (k, ·) := by
              rw [heq]
              simp
            rcases List.mem_filterMap.mp hmem with ⟨⟨k, v⟩, hitem, hstr⟩
            have hsecret := List.all_eq_true.mp hok.2 (k, v) hitem
            cases v with
            | str raw =>
                simp only [Json.asStr?, Option.map_some, Option.some.injEq,
                  Prod.mk.injEq] at hstr
                rw [← hstr.1, ← hstr.2]
                exact beq_iff_eq.mp hsecret
            | null | bool _ | int _ | float _ _ | arr _ | obj _ =>
                simp [Json.asStr?] at hstr
        · cases h

def hydrated (tools : UrlTools) (secrets : List (String × String)) (s : String) : String :=
  Json.accepted (hydrateOne tools secrets) (some "url") s

theorem hydrateOne_url {key : Option String} (hkey : urlField key = true) (s : String) :
    hydrateOne tools secrets key s = hydrateOne tools secrets (some "url") s := by
  have hurl : urlField (some "url") = true := by decide
  simp only [hydrateOne, hkey, hurl]

theorem accepted_hydrateOne : Json.accepted (hydrateOne tools secrets) =
    onUrl (hydrated tools secrets) := by
  funext key s
  cases hkey : urlField key with
  | false => simp [Json.accepted, hydrateOne, onUrl, hkey]
  | true => rw [onUrl, if_pos hkey, hydrated, Json.accepted, Json.accepted, hydrateOne_url hkey]

theorem hydrate_eq_ok {result : Json} :
    hydrate tools secrets payload = .ok result <->
      (forall s, s ∈ urlStrings none payload -> exists value,
        hydrateOne tools secrets (some "url") s = .ok value) ∧
      result = Json.mapStr (onUrl (hydrated tools secrets)) none payload := by
  rw [hydrate, Json.traverse_eq_ok, accepted_hydrateOne]
  refine and_congr_left fun _ => ?_
  constructor
  · intro h s hs
    rcases mem_urlStrings.mp hs with ⟨k, hmem, hkey⟩
    rcases h (k, s) hmem with ⟨value, hvalue⟩
    exact ⟨value, (hydrateOne_url hkey s).symm.trans hvalue⟩
  · rintro h ⟨k, s⟩ hmem
    cases hkey : urlField k with
    | false => exact ⟨s, by simp [hydrateOne, hkey]⟩
    | true =>
        rcases h s (mem_urlStrings.mpr ⟨k, hmem, hkey⟩) with ⟨value, hvalue⟩
        exact ⟨value, (hydrateOne_url hkey s).trans hvalue⟩

theorem hydrated_ok {s value : String}
    (h : hydrateOne tools secrets (some "url") s = .ok value) :
    hydrated tools secrets s = value := by
  rw [hydrated, Json.accepted, h]

theorem hydrateOne_plain {s value : String} (hplain : tools.isRedactedUrl s = false)
    (h : hydrateOne tools secrets (some "url") s = .ok value) :
    value = s ∧ tools.hasUrlQuery s = false := by
  have hurl : urlField (some "url") = true := by decide
  simp only [hydrateOne, hurl, hplain, Bool.not_true, Bool.false_eq_true, if_false] at h
  split at h
  · cases h
  · next hquery =>
      cases h
      exact ⟨rfl, by simpa using hquery⟩

theorem hydrateOne_reference {s value : String} (href : tools.isRedactedUrl s = true)
    (h : hydrateOne tools secrets (some "url") s = .ok value) :
    secrets.lookup s = some value := by
  have hurl : urlField (some "url") = true := by decide
  simp only [hydrateOne, hurl, href, Bool.not_true, Bool.false_eq_true, if_false,
    if_true] at h
  split at h
  · next url hlookup =>
      cases h
      exact hlookup
  · cases h

theorem loadPlanFile_ok {files : Files} {loaded : Plan}
    (h : loadPlanFile tools model files = .ok loaded) :
    exists payload secrets result, files.plan = .json payload ∧
      planSecrets tools payload files.sidecar = .ok secrets ∧
      hydrate tools secrets payload = .ok result ∧ model.validate result = .ok loaded := by
  unfold loadPlanFile at h
  split at h
  · cases h
  · cases h
  · next payload hplan =>
      rcases Fallible.bind_ok h with ⟨metadata, _, h⟩
      rcases Fallible.bind_ok h with ⟨secrets, hsecrets, h⟩
      rcases Fallible.bind_ok h with ⟨result, hresult, h⟩
      exact ⟨payload, secrets, result, hplan, hsecrets, hresult, h⟩

/-- Whatever the files hold, a plan that is loaded is the file's with each reference
replaced by a URL of its own. -/
theorem loadPlanFile_hydrated {files : Files} {loaded : Plan}
    (h : loadPlanFile tools model files = .ok loaded) :
    exists payload result, files.plan = .json payload ∧ Hydrated tools payload result ∧
      model.validate result = .ok loaded := by
  rcases loadPlanFile_ok h with ⟨payload, secrets, result, hplan, hsecrets, hresult, hloaded⟩
  rcases hydrate_eq_ok.mp hresult with ⟨hall, heq⟩
  refine ⟨payload, result, hplan, ⟨hydrated tools secrets, heq, ?_⟩, hloaded⟩
  intro s hs
  rcases hall s hs with ⟨value, hvalue⟩
  rw [hydrated_ok hvalue]
  constructor
  · intro href
    have hlookup := hydrateOne_reference href hvalue
    unfold planSecrets at hsecrets
    split at hsecrets
    · cases hsecrets
      cases hlookup
    · exact readSecretMap_ok hsecrets s value hlookup
  · intro hplain
    exact (hydrateOne_plain hplain hvalue).1

/-!
## What is written is loaded
-/

theorem urlStrings_mapStr {f : String -> String} :
    urlStrings none (Json.mapStr (onUrl f) none payload) = (urlStrings none payload).map f := by
  rw [urlStrings, Json.leaves_mapStr, urlStrings, List.filterMap_map, List.map_filterMap]
  refine List.filterMap_congr ?_
  rintro ⟨k, s⟩ _
  cases hkey : urlField k with
  | false => simp [urlLeaf, hkey]
  | true => simp [urlLeaf, onUrl, hkey]

theorem urls_mapUrls {f : String -> String} (spec : JobSpec) :
    (spec.mapUrls f).urls = spec.urls.map f := by
  rw [← urls_spec none (spec.mapUrls f), ← mapStr_ofSpec none, urlStrings_mapStr, urls_spec]

/-- No two URLs of the plan have the same digest. -/
def NoCollision (tools : UrlTools) (plan : Plan) : Prop :=
  forall a b, a ∈ plan.urlTexts -> b ∈ plan.urlTexts ->
    tools.sha256 a = tools.sha256 b -> a = b

/-- None of the plan's URLs is a reference already. -/
def Unreferenced (tools : UrlTools) (plan : Plan) : Prop :=
  forall u, u ∈ plan.urlTexts -> tools.isRedactedUrl u = false

/-- The references of the plan's URLs are such. -/
def Recognised (tools : UrlTools) (texts : List String) : Prop :=
  forall u, u ∈ texts -> tools.hasUrlQuery u = true ->
    tools.isRedactedUrl (tools.redactedUrl u) = true

theorem redactedUrl_digest {a b : String} (h : tools.redactedUrl a = tools.redactedUrl b) :
    tools.sha256 a = tools.sha256 b := by
  have hlist := congrArg String.toList h
  rw [UrlTools.redactedUrl_toList, UrlTools.redactedUrl_toList] at hlist
  have hlength : (tools.sha256 a).toList.length = (tools.sha256 b).toList.length := by
    have ha := tools.digest a
    have hb := tools.digest b
    simp only [isDigest, Bool.and_eq_true, beq_iff_eq] at ha hb
    rw [ha.1, hb.1]
  have hsuffix : forall url, (tools.canonicalUrl url).toList ++ '#' ::
      tools.referenceFragment url = ((tools.canonicalUrl url).toList ++ '#' ::
        UrlTools.secretFragmentPrefix.toList) ++ (tools.sha256 url).toList := by
    intro url
    simp [UrlTools.referenceFragment]
  rw [hsuffix, hsuffix] at hlist
  exact String.toList_inj.mp (List.append_inj_right' hlist hlength)

theorem lookup_secrets (hcollision : NoCollision tools plan) {u : String}
    (hu : u ∈ plan.urlTexts) (hquery : tools.hasUrlQuery u = true) :
    (redact tools (ofPlan plan)).2.lookup (tools.redactedUrl u) = some u := by
  rw [redact, urls_plan]
  apply Dict.lookup_ofPairs_of_mem
  · intro p q hp hq hkey
    rcases List.mem_map.mp hp with ⟨a, ha, rfl⟩
    rcases List.mem_map.mp hq with ⟨b, hb, rfl⟩
    exact hcollision a b (List.mem_filter.mp ha).1 (List.mem_filter.mp hb).1
      (redactedUrl_digest hkey)
  · exact List.mem_map.mpr ⟨u, List.mem_filter.mpr ⟨hu, hquery⟩, rfl⟩

theorem redact_doc (tools : UrlTools) (plan : Plan) :
    (redact tools (ofPlan plan)).1 = ofPlan (plan.mapUrls (redactOne tools)) :=
  mapStr_ofPlan plan

theorem redactOne_query {u : String} (h : tools.hasUrlQuery u = true) :
    redactOne tools u = tools.redactedUrl u := if_pos h

theorem redactOne_plain {u : String} (h : tools.hasUrlQuery u = false) :
    redactOne tools u = u := by
  rw [redactOne, h]
  rfl

theorem mem_markerSet (hrefs : Unreferenced tools plan)
    (hrecognised : Recognised tools plan.urlTexts) {marker : String} :
    marker ∈ markerSet tools (redact tools (ofPlan plan)).1 <->
      marker ∈ Dict.keys (redact tools (ofPlan plan)).2 := by
  have hstrings : urlStrings none (redact tools (ofPlan plan)).1 =
      plan.urlTexts.map (redactOne tools) := by
    rw [redact, urlStrings_mapStr, urls_plan]
  have hkeys : marker ∈ Dict.keys (redact tools (ofPlan plan)).2 <->
      exists u, u ∈ plan.urlTexts ∧ tools.hasUrlQuery u = true ∧
        tools.redactedUrl u = marker := by
    rw [redact, urls_plan, Dict.mem_keys_ofPairs]
    simp only [Dict.keys, List.map_map, List.mem_map, List.mem_filter, Function.comp]
    constructor
    · rintro ⟨u, ⟨hu, hquery⟩, rfl⟩
      exact ⟨u, hu, hquery, rfl⟩
    · rintro ⟨u, hu, hquery, rfl⟩
      exact ⟨u, ⟨hu, hquery⟩, rfl⟩
  rw [markerSet, hstrings, List.mem_filter, List.mem_map, hkeys]
  constructor
  · rintro ⟨⟨u, hu, rfl⟩, hmarker⟩
    cases hquery : tools.hasUrlQuery u with
    | true => exact ⟨u, hu, hquery, (redactOne_query hquery).symm⟩
    | false =>
        rw [redactOne_plain hquery, hrefs u hu] at hmarker
        cases hmarker
  · rintro ⟨u, hu, hquery, rfl⟩
    exact ⟨⟨u, hu, redactOne_query hquery⟩, hrecognised u hu hquery⟩

theorem sameSet_iff {first second : List String} :
    sameSet first second = true <-> forall s, s ∈ first <-> s ∈ second := by
  simp only [sameSet, Bool.and_eq_true, List.all_eq_true, List.contains_iff_mem]
  constructor
  · rintro ⟨hfirst, hsecond⟩ s
    exact ⟨hfirst s, hsecond s⟩
  · intro h
    exact ⟨fun s => (h s).mp, fun s => (h s).mpr⟩

theorem secretOk_written : ((redact tools (ofPlan plan)).2.map fun (k, v) =>
    (k, Json.str v)).all (secretOk tools) = true := by
  refine List.all_eq_true.mpr ?_
  intro item hitem
  rcases List.mem_map.mp hitem with ⟨⟨k, v⟩, hmem, rfl⟩
  rcases List.mem_map.mp (Dict.mem_ofPairs hmem) with ⟨url, _, heq⟩
  cases heq
  exact beq_self_eq_true _

theorem keys_strItems (items : List (String × String)) :
    Dict.keys (items.map fun (k, v) => (k, Json.str v)) = Dict.keys items := by
  rw [Dict.keys, List.map_map]
  rfl

theorem readSecretMap_json (markers : List String) (urls : List (String × Json)) :
    readSecretMap tools markers (.json (.obj [("urls", .obj urls)])) =
      if sameSet (Dict.keys urls) markers && urls.all (secretOk tools) then
        .ok (urls.filterMap fun (k, v) => v.asStr?.map (k, ·))
      else .error "plan secret sidecar does not match the plan" := rfl

theorem planSecrets_written (hrefs : Unreferenced tools plan)
    (hrecognised : Recognised tools plan.urlTexts) :
    planSecrets tools (redact tools (ofPlan plan)).1 (writePlanFile tools plan).sidecar =
      .ok (redact tools (ofPlan plan)).2 := by
  have hmem := @mem_markerSet tools plan hrefs hrecognised
  unfold planSecrets
  cases hsecrets : (redact tools (ofPlan plan)).2 with
  | nil =>
      have hempty : markerSet tools (redact tools (ofPlan plan)).1 = [] := by
        refine List.eq_nil_iff_forall_not_mem.mpr ?_
        intro marker hmarker
        have hkey := hmem.mp hmarker
        rw [hsecrets] at hkey
        cases hkey
      rw [if_pos hempty]
  | cons first rest =>
      have hne : markerSet tools (redact tools (ofPlan plan)).1 ≠ [] := by
        have hkey : first.1 ∈ Dict.keys (redact tools (ofPlan plan)).2 := by
          rw [hsecrets]
          exact List.mem_cons_self
        exact List.ne_nil_of_mem (hmem.mpr hkey)
      have hsidecar : (writePlanFile tools plan).sidecar =
          .json (.obj [("urls", .obj ((redact tools (ofPlan plan)).2.map
            fun (k, v) => (k, .str v)))]) := by
        simp [writePlanFile, hsecrets]
      have hsame : sameSet (Dict.keys ((redact tools (ofPlan plan)).2.map
          fun (k, v) => (k, Json.str v))) (markerSet tools (redact tools (ofPlan plan)).1) =
            true := by
        rw [sameSet_iff, keys_strItems]
        intro marker
        exact hmem.symm
      rw [if_neg hne, hsidecar, readSecretMap_json, hsame, secretOk_written,
        Json.asStr_strItems, hsecrets]
      rfl

theorem hydrateOne_written (hrefs : Unreferenced tools plan)
    (hrecognised : Recognised tools plan.urlTexts) (hcollision : NoCollision tools plan)
    {u : String} (hu : u ∈ plan.urlTexts) :
    hydrateOne tools (redact tools (ofPlan plan)).2 (some "url") (redactOne tools u) =
      .ok u := by
  have hurl : urlField (some "url") = true := by decide
  cases hquery : tools.hasUrlQuery u with
  | true =>
      rw [redactOne_query hquery]
      simp only [hydrateOne, hurl, hrecognised u hu hquery, lookup_secrets hcollision hu hquery,
        Bool.not_true, Bool.false_eq_true, if_false, if_true]
  | false =>
      rw [redactOne_plain hquery]
      simp only [hydrateOne, hurl, hrefs u hu, hquery, Bool.not_true, Bool.false_eq_true,
        if_false]

theorem hydrate_written (hrefs : Unreferenced tools plan)
    (hrecognised : Recognised tools plan.urlTexts) (hcollision : NoCollision tools plan) :
    hydrate tools (redact tools (ofPlan plan)).2 (redact tools (ofPlan plan)).1 =
      .ok (ofPlan plan) := by
  have hone := @hydrateOne_written tools plan hrefs hrecognised hcollision
  rw [hydrate_eq_ok]
  constructor
  · intro s hs
    rw [redact, urlStrings_mapStr, urls_plan] at hs
    rcases List.mem_map.mp hs with ⟨u, hu, rfl⟩
    exact ⟨u, hone hu⟩
  · rw [redact_doc, mapStr_ofPlan, mapUrls_mapUrls]
    refine congrArg ofPlan (mapUrls_eq_self.mpr ?_).symm
    intro u hu
    exact hydrated_ok (hone hu)

/-- A plan is loaded as it was written exactly when the references of its URLs are such. -/
theorem loadPlanFile_written_iff (hkeeps : model.Keeps plan) (hrefs : Unreferenced tools plan)
    (hcollision : NoCollision tools plan) :
    loadPlanFile tools model (writePlanFile tools plan) = .ok plan <->
      Recognised tools plan.urlTexts := by
  have hplan : (writePlanFile tools plan).plan = .json (redact tools (ofPlan plan)).1 := rfl
  constructor
  · intro hload u hu hquery
    rcases loadPlanFile_ok hload with ⟨payload, secrets, result, hpayload, _, hresult, hvalid⟩
    rw [hplan, PlanFile.json.injEq] at hpayload
    rw [← hpayload] at hresult
    rcases hydrate_eq_ok.mp hresult with ⟨hall, heq⟩
    rw [redact_doc, mapStr_ofPlan, mapUrls_mapUrls] at heq
    rw [heq, hkeeps, Except.ok.injEq] at hvalid
    have hback := mapUrls_eq_self.mp hvalid u hu
    rw [redactOne_query hquery] at hback
    have hin : tools.redactedUrl u ∈ urlStrings none (redact tools (ofPlan plan)).1 := by
      rw [redact, urlStrings_mapStr, urls_plan]
      exact List.mem_map.mpr ⟨u, hu, redactOne_query hquery⟩
    rcases hall _ hin with ⟨value, hvalue⟩
    rw [hydrated_ok hvalue] at hback
    cases href : tools.isRedactedUrl (tools.redactedUrl u) with
    | true => rfl
    | false =>
        rcases hydrateOne_plain href hvalue with ⟨hsame, hnone⟩
        rw [← hsame, hback, hquery] at hnone
        cases hnone
  · intro hrecognised
    have hid : plan.mapUrls (fun u => u) = plan := mapUrls_eq_self.mpr fun _ _ => rfl
    have hwritten := hkeeps (redactOne tools)
    have hread := hkeeps fun u => u
    rw [hid] at hread
    unfold loadPlanFile
    rw [hplan]
    simp only
    rw [redact_doc, hwritten]
    show (do
      let secrets ← planSecrets tools (ofPlan (plan.mapUrls (redactOne tools)))
        (writePlanFile tools plan).sidecar
      model.validate (← hydrate tools secrets (ofPlan (plan.mapUrls (redactOne tools))))) = _
    rw [← redact_doc, planSecrets_written hrefs hrecognised]
    show (do
      model.validate (← hydrate tools (redact tools (ofPlan plan)).2
        (redact tools (ofPlan plan)).1)) = _
    rw [hydrate_written hrefs hrecognised hcollision]
    exact hread

/-!
## The round trip
-/

theorem recognised_iff {texts : List String}
    (haddressed : forall u, u ∈ texts -> exists p, tools.Addressed u p) :
    Recognised tools texts <->
      forall u, u ∈ texts -> tools.hasUrlQuery u = true -> tools.Rereads u := by
  constructor
  · intro h u hu hquery p hsplit
    rcases haddressed u hu with ⟨q, hq⟩
    rw [hq.split, Option.some.injEq] at hsplit
    rw [← hsplit]
    exact (UrlTools.isRedactedUrl_redactedUrl hq).mp (h u hu hquery)
  · intro h u hu hquery
    rcases haddressed u hu with ⟨p, hp⟩
    exact (UrlTools.isRedactedUrl_redactedUrl hp).mpr (h u hu hquery p hp.split)

def oneUrlPlan (url : String) : Plan where
  jobId := "j"
  spec := { name := "n", code := { entry := "main.py" }, data := [{ url, dest := "a" }] }

def oneUrlModel : PlanModel where
  validate payload :=
    match urlStrings none payload with
    | [url] => .ok (oneUrlPlan url)
    | _ => .error "plan file is invalid"

theorem oneUrlModel_keeps (url : String) : oneUrlModel.Keeps (oneUrlPlan url) := by
  intro f
  simp only [oneUrlModel, urls_plan]
  rfl

end PlanStore
end Job
end MightyColab
