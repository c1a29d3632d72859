import MightyColab.Lib.JsonText
import MightyColab.Job.PlanStore

/-!
# The hash of a plan

The hash binds a plan to its spec and to the bytes of its source. The URLs of the spec go
into it without their credentials: each as its canonical form, and whether it has one.
-/

namespace MightyColab
namespace Job

open Lib
open PlanDump

namespace PlanHash

/-- The arguments of `plan_hash`. -/
structure HashInput where
  spec : JobSpec
  sourceSpecPath : Option String
  sourceFiles : List SourceFileLock

variable (tools : UrlTools)

def credentialRequired (url : String) : Bool :=
  tools.hasUrlQuery url || tools.isRedactedUrl url

def urlIdentity (url : String) : Json :=
  .obj [("identity", .str (tools.canonicalUrl url)),
    ("credential_required", .bool (credentialRequired tools url))]

def canonicalize (value : Json) : Json :=
  Json.mapLeaves (writeUrls (urlIdentity tools)) none value

def digestOf (value : Json) : String := tools.sha256 (Json.dumps value)

def specPayload (spec : JobSpec) : Json := canonicalize tools (ofSpec Json.str spec)

def specHash (spec : JobSpec) : String := digestOf tools (specPayload tools spec)

def planPayload (input : HashInput) : Json :=
  .obj [("spec", .str (specHash tools input.spec)),
    ("source_spec_path", Json.optStr input.sourceSpecPath),
    ("source_files", .arr (input.sourceFiles.map fun file =>
      .obj [("path", .str file.path), ("size_bytes", .int file.sizeBytes),
        ("sha256", .str file.sha256)]))]

def planHash (input : HashInput) : String := digestOf tools (planPayload tools input)

/-!
## Equal hashes
-/

/-- Neither the serialisation nor the digest confuses the two documents. -/
structure Apart (tools : UrlTools) (x y : Json) : Prop where
  text : Json.dumps x = Json.dumps y -> x = y
  digest : digestOf tools x = digestOf tools y -> Json.dumps x = Json.dumps y

theorem Apart.of_eq {tools : UrlTools} {x y : Json} (h : x = y) : Apart tools x y :=
  ⟨fun _ => h, fun _ => by rw [h]⟩

theorem Apart.of_ne {tools : UrlTools} {x y : Json} (h : digestOf tools x ≠ digestOf tools y) :
    Apart tools x y :=
  ⟨fun htext => absurd (congrArg tools.sha256 htext) h, fun hdigest => absurd hdigest h⟩

structure Distinct (tools : UrlTools) (a b : HashInput) : Prop where
  spec : Apart tools (specPayload tools a.spec) (specPayload tools b.spec)
  plan : Apart tools (planPayload tools a) (planPayload tools b)

/-- The two URLs differ in their credentials at most. -/
structure SameIdentity (tools : UrlTools) (u v : String) : Prop where
  canonical : tools.canonicalUrl u = tools.canonicalUrl v
  credential : credentialRequired tools u = credentialRequired tools v

variable {tools} {a b : HashInput}

theorem urlIdentity_eq_iff {u v : String} :
    urlIdentity tools u = urlIdentity tools v <-> SameIdentity tools u v := by
  simp only [urlIdentity, Json.obj.injEq, List.cons.injEq, Prod.mk.injEq, true_and,
    Json.str.injEq, Json.bool.injEq, and_true]
  constructor
  · rintro ⟨hcanonical, hcredential⟩
    exact ⟨hcanonical, hcredential⟩
  · rintro ⟨hcanonical, hcredential⟩
    exact ⟨hcanonical, hcredential⟩

theorem specPayload_eq (spec : JobSpec) :
    specPayload tools spec = ofSpec (urlIdentity tools) spec :=
  mapLeaves_spec none spec

/-- Two specs have the same payload exactly when they agree but for their credentials. -/
theorem specPayload_eq_iff {s t : JobSpec} :
    specPayload tools s = specPayload tools t <-> s.Agrees (SameIdentity tools) t := by
  have hsame : (fun u v => urlIdentity tools u = urlIdentity tools v) = SameIdentity tools := by
    funext u v
    exact propext urlIdentity_eq_iff
  rw [specPayload_eq, specPayload_eq, ofSpec_eq_iff, hsame]

theorem ofFile_injective : Function.Injective fun file : SourceFileLock =>
    Json.obj [("path", .str file.path), ("size_bytes", .int file.sizeBytes),
      ("sha256", .str file.sha256)] := by
  rintro ⟨path, sizeBytes, sha256⟩ ⟨path', sizeBytes', sha256'⟩ h
  simp only [Json.obj.injEq, List.cons.injEq, Prod.mk.injEq, true_and, Json.str.injEq,
    Json.int.injEq, and_true] at h
  rcases h with ⟨rfl, rfl, rfl⟩
  rfl

theorem planPayload_eq_iff :
    planPayload tools a = planPayload tools b <->
      specHash tools a.spec = specHash tools b.spec ∧ a.sourceSpecPath = b.sourceSpecPath ∧
        a.sourceFiles = b.sourceFiles := by
  have hfiles := (List.map_injective_iff.mpr ofFile_injective).eq_iff
    (a := a.sourceFiles) (b := b.sourceFiles)
  simp only [planPayload, Json.obj.injEq, List.cons.injEq, Prod.mk.injEq, true_and,
    Json.str.injEq, Json.arr.injEq, optStr_inj, hfiles, and_true]

theorem planHash_of_agrees (hspec : a.spec.Agrees (SameIdentity tools) b.spec)
    (hpath : a.sourceSpecPath = b.sourceSpecPath) (hfiles : a.sourceFiles = b.sourceFiles) :
    planHash tools a = planHash tools b := by
  have hpayload := specPayload_eq_iff.mpr hspec
  have hhash : specHash tools a.spec = specHash tools b.spec := by
    rw [specHash, specHash, hpayload]
  rw [planHash, planHash, planPayload_eq_iff.mpr ⟨hhash, hpath, hfiles⟩]

theorem planHash_eq_iff (h : Distinct tools a b) :
    planHash tools a = planHash tools b <->
      a.spec.Agrees (SameIdentity tools) b.spec ∧ a.sourceSpecPath = b.sourceSpecPath ∧
        a.sourceFiles = b.sourceFiles := by
  constructor
  · intro heq
    rcases planPayload_eq_iff.mp (h.plan.text (h.plan.digest heq)) with ⟨hspec, hrest⟩
    exact ⟨specPayload_eq_iff.mp (h.spec.text (h.spec.digest hspec)), hrest⟩
  · rintro ⟨hspec, hpath, hfiles⟩
    exact planHash_of_agrees hspec hpath hfiles

/-!
## The identity of a URL
-/

open PlanStore

variable {u v : String} {p : Url.Parts}

theorem credentialRequired_none (hsplit : tools.urlsplit u = none) (h : '?' ∉ u.toList) :
    credentialRequired tools u = false := by
  simp [credentialRequired, UrlTools.hasUrlQuery, UrlTools.isRedactedUrl_none hsplit, hsplit, h]

/-- A URL and its reference have the same identity exactly when the host is read back. -/
theorem sameIdentity_redactedUrl (haddressed : tools.Addressed u p)
    (hcredential : credentialRequired tools u = true) :
    SameIdentity tools (tools.redactedUrl u) u <->
      Url.Rereads (UrlTools.hostText tools.unicode p) := by
  constructor
  · intro hsame
    by_contra hnot
    have hsplit := UrlTools.urlsplit_redactedUrl haddressed
    rw [if_neg hnot] at hsplit
    have hnone := credentialRequired_none hsplit UrlTools.redactedUrl_noQuestion
    rw [hsame.credential, hcredential] at hnone
    cases hnone
  · intro hreads
    have href := (UrlTools.isRedactedUrl_redactedUrl haddressed).mpr hreads
    refine ⟨UrlTools.canonicalUrl_redactedUrl haddressed hreads, ?_⟩
    rw [hcredential, credentialRequired, href, Bool.or_true]

theorem sameIdentity_redactOne (haddressed : tools.Addressed u p) :
    SameIdentity tools (redactOne tools u) u <->
      (tools.hasUrlQuery u = true -> tools.Rereads u) := by
  cases hquery : tools.hasUrlQuery u with
  | false =>
      rw [redactOne_plain hquery]
      exact iff_of_true ⟨rfl, rfl⟩ (fun h => nomatch h)
  | true =>
      rw [redactOne_query hquery, sameIdentity_redactedUrl haddressed (by
        rw [credentialRequired, hquery, Bool.true_or])]
      constructor
      · intro h _ q hq
        rw [haddressed.split, Option.some.injEq] at hq
        rwa [← hq]
      · intro h
        exact h rfl p haddressed.split

/-- What a sidecar puts in the place of a reference has the same identity exactly when it
needs a credential too. -/
theorem sameIdentity_hydrated (href : tools.isRedactedUrl u = true)
    (hmarker : tools.redactedUrl v = u) (haddressed : tools.Addressed v p) :
    SameIdentity tools v u <-> credentialRequired tools v = true := by
  have hcredential : credentialRequired tools u = true := by
    rw [credentialRequired, href, Bool.or_true]
  constructor
  · intro hsame
    rw [hsame.credential, hcredential]
  · intro hv
    rw [← hmarker] at href
    have hreads := (UrlTools.isRedactedUrl_redactedUrl haddressed).mp href
    have hsame := (sameIdentity_redactedUrl haddressed hv).mpr hreads
    rw [hmarker] at hsame
    exact ⟨hsame.canonical.symm, hsame.credential.symm⟩

/-- The same URL, or one with another query in the place of its query. -/
def SameRest (tools : UrlTools) (u v : String) : Prop :=
  u = v ∨ exists p query, p.query ≠ [] ∧ query ≠ [] ∧ tools.urlsplit u = some p ∧
    tools.urlsplit v = some { p with query }

theorem SameRest.sameIdentity (h : SameRest tools u v) : SameIdentity tools u v := by
  rcases h with rfl | ⟨p, query, hp, hquery, hu, hv⟩
  · exact ⟨rfl, rfl⟩
  · constructor
    · simp only [UrlTools.canonicalUrl, hu, hv]
      rfl
    · have hasQuery : p.query.isEmpty = false := by simpa using hp
      have hasOther : query.isEmpty = false := by simpa using hquery
      simp only [credentialRequired, UrlTools.hasUrlQuery, hu, hv, hasQuery, hasOther,
        Bool.not_false, Bool.true_or]

/-!
## The identity of a job
-/

/-- A spec with other URLs has the same hash exactly when each URL has the same identity. -/
theorem planHash_mapUrls_iff {s t : JobSpec} {f : String -> String} {path : Option String}
    {files : List SourceFileLock} (hdoc : ofSpec Json.str s = ofSpec Json.str (t.mapUrls f))
    (hdistinct : Distinct tools ⟨s, path, files⟩ ⟨t, path, files⟩) :
    planHash tools ⟨s, path, files⟩ = planHash tools ⟨t, path, files⟩ <->
      forall w, w ∈ t.urls -> SameIdentity tools (f w) w := by
  have hpayload : specPayload tools s = specPayload tools (t.mapUrls f) := by
    rw [specPayload, specPayload, hdoc]
  rw [planHash_eq_iff hdistinct, ← specPayload_eq_iff, hpayload, specPayload_eq_iff,
    mapUrls_agrees_iff]
  simp only [and_self, and_true]

theorem planSecrets_lookup {payload : Json} {sidecar : Sidecar}
    {secrets : List (String × String)} (h : planSecrets tools payload sidecar = .ok secrets)
    (hlookup : secrets.lookup u = some v) : tools.redactedUrl v = u := by
  unfold planSecrets at h
  split at h
  · cases h
    cases hlookup
  · exact readSecretMap_ok h u v hlookup

theorem hydrate_spec {secrets : List (String × String)} {spec hydratedSpec : JobSpec}
    (h : hydrate tools secrets (ofSpec Json.str spec) = .ok (ofSpec Json.str hydratedSpec)) :
    ofSpec Json.str hydratedSpec = ofSpec Json.str (spec.mapUrls (hydrated tools secrets)) ∧
      forall w, w ∈ spec.urls ->
        (tools.isRedactedUrl w = true ->
          secrets.lookup w = some (hydrated tools secrets w)) ∧
        (tools.isRedactedUrl w = false -> hydrated tools secrets w = w) := by
  rcases hydrate_eq_ok.mp h with ⟨hall, hdoc⟩
  refine ⟨by rw [hdoc, mapStr_ofSpec], ?_⟩
  intro w hw
  rw [urls_spec] at hall
  rcases hall w hw with ⟨value, hvalue⟩
  rw [hydrated_ok hvalue]
  exact ⟨fun href => hydrateOne_reference href hvalue,
    fun hplain => (hydrateOne_plain hplain hvalue).1⟩

theorem planHash_hydrate_iff {payload : Json} {sidecar : Sidecar}
    {secrets : List (String × String)} {spec hydratedSpec : JobSpec} {path : Option String}
    {files : List SourceFileLock}
    (hsecrets : planSecrets tools payload sidecar = .ok secrets)
    (hhydrate : hydrate tools secrets (ofSpec Json.str spec) =
      .ok (ofSpec Json.str hydratedSpec))
    (haddressed : forall w, w ∈ hydratedSpec.urls -> exists p, tools.Addressed w p)
    (hdistinct : Distinct tools ⟨hydratedSpec, path, files⟩ ⟨spec, path, files⟩) :
    planHash tools ⟨hydratedSpec, path, files⟩ = planHash tools ⟨spec, path, files⟩ <->
      forall u v, u ∈ spec.urls -> tools.isRedactedUrl u = true ->
        secrets.lookup u = some v -> credentialRequired tools v = true := by
  rcases hydrate_spec hhydrate with ⟨hdoc, hall⟩
  have hurls : hydratedSpec.urls = spec.urls.map (hydrated tools secrets) := by
    rw [← urls_spec none hydratedSpec, hdoc, ← mapStr_ofSpec none, urlStrings_mapStr, urls_spec]
  have hone : forall w, w ∈ spec.urls -> tools.isRedactedUrl w = true ->
      (SameIdentity tools (hydrated tools secrets w) w <->
        credentialRequired tools (hydrated tools secrets w) = true) := by
    intro w hw href
    rcases haddressed (hydrated tools secrets w) (by
      rw [hurls]
      exact List.mem_map_of_mem hw) with ⟨p, hp⟩
    exact sameIdentity_hydrated href (planSecrets_lookup hsecrets ((hall w hw).1 href)) hp
  rw [planHash_mapUrls_iff hdoc hdistinct]
  constructor
  · intro h u v hu href hlookup
    have hv := (hone u hu href).mp (h u hu)
    rw [(hall u hu).1 href, Option.some.injEq] at hlookup
    rwa [hlookup] at hv
  · intro h w hw
    cases href : tools.isRedactedUrl w with
    | true => exact (hone w hw href).mpr (h w _ hw href ((hall w hw).1 href))
    | false =>
        rw [(hall w hw).2 href]
        exact ⟨rfl, rfl⟩

theorem planHash_redact_iff {spec redacted : JobSpec} {path : Option String}
    {files : List SourceFileLock}
    (haddressed : forall u, u ∈ spec.urls -> exists p, tools.Addressed u p)
    (hredact : (redact tools (ofSpec Json.str spec)).1 = ofSpec Json.str redacted)
    (hdistinct : Distinct tools ⟨redacted, path, files⟩ ⟨spec, path, files⟩) :
    planHash tools ⟨redacted, path, files⟩ = planHash tools ⟨spec, path, files⟩ <->
      forall u, u ∈ spec.urls -> tools.hasUrlQuery u = true -> tools.Rereads u := by
  have hdoc : ofSpec Json.str redacted = ofSpec Json.str (spec.mapUrls (redactOne tools)) := by
    rw [← hredact, redact, mapStr_ofSpec]
  rw [planHash_mapUrls_iff hdoc hdistinct]
  constructor
  · intro h u hu
    rcases haddressed u hu with ⟨p, hp⟩
    exact (sameIdentity_redactOne hp).mp (h u hu)
  · intro h u hu
    rcases haddressed u hu with ⟨p, hp⟩
    exact (sameIdentity_redactOne hp).mpr (h u hu)

/-- The hash of a plan whose URLs have a scheme and a host stays when its spec is redacted
exactly when the host of each URL with a query is read back; when it is hydrated, exactly
when each of the secrets put in needs a credential; and when queries are replaced. Two plans
with the same hash agree in all but the credentials of their URLs. -/
theorem planHash_identifies (tools : UrlTools) :
    (forall spec redacted path files,
      (forall u, u ∈ spec.urls -> exists p, tools.Addressed u p) ->
      (redact tools (ofSpec Json.str spec)).1 = ofSpec Json.str redacted ->
      Distinct tools ⟨redacted, path, files⟩ ⟨spec, path, files⟩ ->
      (planHash tools ⟨redacted, path, files⟩ = planHash tools ⟨spec, path, files⟩ <->
        forall u, u ∈ spec.urls -> tools.hasUrlQuery u = true -> tools.Rereads u)) ∧
    (forall payload sidecar secrets spec hydratedSpec path files,
      planSecrets tools payload sidecar = .ok secrets ->
      hydrate tools secrets (ofSpec Json.str spec) = .ok (ofSpec Json.str hydratedSpec) ->
      (forall w, w ∈ hydratedSpec.urls -> exists p, tools.Addressed w p) ->
      Distinct tools ⟨hydratedSpec, path, files⟩ ⟨spec, path, files⟩ ->
      (planHash tools ⟨hydratedSpec, path, files⟩ = planHash tools ⟨spec, path, files⟩ <->
        forall u v, u ∈ spec.urls -> tools.isRedactedUrl u = true ->
          secrets.lookup u = some v -> credentialRequired tools v = true)) ∧
    (forall spec other path files, spec.Agrees (SameRest tools) other ->
      planHash tools ⟨spec, path, files⟩ = planHash tools ⟨other, path, files⟩) ∧
    forall a b, Distinct tools a b -> planHash tools a = planHash tools b ->
      a.spec.Agrees (SameIdentity tools) b.spec ∧ a.sourceSpecPath = b.sourceSpecPath ∧
        a.sourceFiles = b.sourceFiles := by
  refine ⟨?_, ?_, ?_, ?_⟩
  · intro spec redacted path files haddressed hredact hdistinct
    exact planHash_redact_iff haddressed hredact hdistinct
  · intro payload sidecar secrets spec hydratedSpec path files hsecrets hhydrate haddressed
      hdistinct
    exact planHash_hydrate_iff hsecrets hhydrate haddressed hdistinct
  · intro spec other path files hagrees
    exact planHash_of_agrees (hagrees.mono fun _ _ h => h.sameIdentity) rfl rfl
  · intro a b hdistinct hsame
    exact (planHash_eq_iff hdistinct).mp hsame

def oneUrlInput (url : String) : HashInput := ⟨(oneUrlPlan url).spec, none, []⟩

/-- The hash of a plan with a signed URL stays when the URL is redacted, and when it is
signed again. -/
theorem planHash_identifies_signed :
    let tools := asciiTools [("https://h/x?sig=1",
      "80bb5a14fe3194e91d4ef2c31fed3915a2ed58419ac1e7be7d493fee5a081ec3")] (by decide)
    planHash tools (oneUrlInput (tools.redactedUrl "https://h/x?sig=1")) =
        planHash tools (oneUrlInput "https://h/x?sig=1") ∧
      planHash tools (oneUrlInput "https://h/x?sig=1") =
        planHash tools (oneUrlInput "https://h/x?sig=2") := by
  intro tools
  have haddressed : tools.Addressed "https://h/x?sig=1"
      (Url.parts "https://h/x?sig=1".toList) := by
    constructor <;> decide
  have hreads : tools.Rereads "https://h/x?sig=1" := by
    intro p hp
    rw [haddressed.split, Option.some.injEq] at hp
    rw [← hp]
    decide
  have hquery : tools.hasUrlQuery "https://h/x?sig=1" = true := by decide
  have hsame := (sameIdentity_redactOne haddressed).mpr fun _ => hreads
  rw [redactOne_query hquery] at hsame
  have hspec : specPayload tools (oneUrlInput (tools.redactedUrl "https://h/x?sig=1")).spec =
      specPayload tools (oneUrlInput "https://h/x?sig=1").spec := by
    rw [specPayload_eq_iff]
    exact ⟨.cons ⟨hsame, rfl⟩ .nil, .nil, .none, .none, rfl⟩
  have hplan : planPayload tools (oneUrlInput (tools.redactedUrl "https://h/x?sig=1")) =
      planPayload tools (oneUrlInput "https://h/x?sig=1") := by
    rw [planPayload, specHash, hspec]
    rfl
  rcases planHash_identifies tools with ⟨hredact, _, hreplace, _⟩
  constructor
  · refine (hredact _ _ none [] ?_ ?_ ⟨.of_eq hspec, .of_eq hplan⟩).mpr ?_
    · intro u hu
      rw [List.mem_singleton.mp hu]
      exact ⟨_, haddressed⟩
    · rw [redact, mapStr_ofSpec, ← redactOne_query hquery]
      rfl
    · intro u hu _
      rw [List.mem_singleton.mp hu]
      exact hreads
  · have hrest : SameRest tools "https://h/x?sig=1" "https://h/x?sig=2" :=
      Or.inr ⟨Url.parts "https://h/x?sig=1".toList, "sig=2".toList, by decide, by decide,
        by decide, by decide⟩
    exact hreplace _ _ none [] ⟨.cons ⟨hrest, rfl⟩ .nil, .nil, .none, .none, rfl⟩

def sourcelessPayload (digest : String) : Json :=
  .obj [("spec", .str digest), ("source_spec_path", .null), ("source_files", .arr [])]

theorem asciiTools_sha256 {digests : List (String × String)}
    {h : forall item, item ∈ digests -> isDigest item.2.toList = true}
    (hkeys : (Dict.keys digests).Nodup) {text digest : String} (hmem : (text, digest) ∈ digests) :
    (asciiTools digests h).sha256 text = digest := by
  show (digests.lookup text).getD _ = digest
  rw [Dict.lookup_of_mem (Dict.consistent_of_nodup hkeys) hmem]
  rfl

theorem specPayload_asciiTools {digests : List (String × String)}
    (h : forall item, item ∈ digests -> isDigest item.2.toList = true) (spec : JobSpec) :
    specPayload (asciiTools digests h) spec = specPayload (asciiTools [] noDigests) spec := by
  have hidentity : urlIdentity (asciiTools digests h) =
      urlIdentity (asciiTools [] noDigests) := rfl
  rw [specPayload_eq, specPayload_eq, hidentity]

theorem distinct_of_digests {tools : UrlTools} {url reference spec spec' plan plan' : String}
    (hspec : specHash tools (oneUrlInput url).spec = spec)
    (hspec' : specHash tools (oneUrlInput reference).spec = spec')
    (hplan : digestOf tools (sourcelessPayload spec) = plan)
    (hplan' : digestOf tools (sourcelessPayload spec') = plan')
    (hspecs : spec' ≠ spec) (hplans : plan' ≠ plan) :
    Distinct tools (oneUrlInput reference) (oneUrlInput url) ∧
      planHash tools (oneUrlInput reference) ≠ planHash tools (oneUrlInput url) := by
  have hsigned : planHash tools (oneUrlInput url) = plan := by
    rw [planHash, planPayload, hspec]
    exact hplan
  have hbare : planHash tools (oneUrlInput reference) = plan' := by
    rw [planHash, planPayload, hspec']
    exact hplan'
  rw [← hspec, ← hspec'] at hspecs
  rw [← hsigned, ← hbare] at hplans
  exact ⟨⟨.of_ne hspecs, .of_ne hplans⟩, hplans⟩

def bracketUrl : String := "https://[v1.a[b]/x?sig=1"

def bracketDigest : String := "46805aa776bf171bc30523e15c7ff5bbeb81140473172e31b010f704e8f017e2"

def bracketReference : String := "https://v1.a[b/x#mighty-colab-secret-sha256=" ++ bracketDigest

def undigestedPayload (url : String) : Json :=
  specPayload (asciiTools [] noDigests) (oneUrlInput url).spec

def signedDigest : String := "b0ea89311e589a262c8f0614c080a3866579856ee17dbea2cba02350ea4a4cf8"

def bareDigest : String := "f34d56caf7fb1c2557393f5551837405d628c47b8d42c6e47177d6b24fafcd53"

def bracketDigests : List (String × String) :=
  [(Json.dumps (undigestedPayload bracketUrl), signedDigest),
    (Json.dumps (undigestedPayload bracketReference), bareDigest),
    (Json.dumps (sourcelessPayload signedDigest),
      "313844affd162e39c3c98d755d446c5d914b4b9f9fd36f35db9fb10a86fea3f2"),
    (Json.dumps (sourcelessPayload bareDigest),
      "5a308b55a03b029b1aa36eb00d577c151b2091b5c4f4d8914a521776c0830a41"),
    (bracketUrl, bracketDigest)]

theorem bracketDigests_digest :
    forall item, item ∈ bracketDigests -> isDigest item.2.toList = true := by
  simp only [bracketDigests, List.forall_mem_cons]
  decide

theorem bracketDigests_keys : (Dict.keys bracketDigests).Nodup := by
  have htexts : [Json.dumpsList (undigestedPayload bracketUrl),
      Json.dumpsList (undigestedPayload bracketReference),
      Json.dumpsList (sourcelessPayload signedDigest),
      Json.dumpsList (sourcelessPayload bareDigest), bracketUrl.toList].Nodup := by
    decide +kernel
  have hurl : String.ofList bracketUrl.toList = bracketUrl := String.ofList_toList
  have hkeys := htexts.map (f := String.ofList) fun _ _ h => String.ofList_injective h
  rw [List.map_cons, List.map_cons, List.map_cons, List.map_cons, List.map_cons, hurl] at hkeys
  exact hkeys

def bracketTools : UrlTools := asciiTools bracketDigests bracketDigests_digest

theorem bracketTools_sha256 {text digest : String} (hmem : (text, digest) ∈ bracketDigests) :
    bracketTools.sha256 text = digest :=
  asciiTools_sha256 bracketDigests_keys hmem

theorem specHash_bracketTools {url digest : String}
    (hmem : (Json.dumps (undigestedPayload url), digest) ∈ bracketDigests) :
    specHash bracketTools (oneUrlInput url).spec = digest := by
  rw [specHash, digestOf, bracketTools, specPayload_asciiTools]
  exact bracketTools_sha256 hmem

/-- The address in brackets loses them; the reference is no URL, and needs no credential. -/
theorem redacted_planHash_ne :
    exists tools url reference,
      (exists p, UrlTools.Addressed tools url p ∧ p.scheme = "https".toList) ∧
      (redact tools (ofSpec Json.str (oneUrlInput url).spec)).1 =
        ofSpec Json.str (oneUrlInput reference).spec ∧
      Distinct tools (oneUrlInput reference) (oneUrlInput url) ∧
      planHash tools (oneUrlInput reference) ≠ planHash tools (oneUrlInput url) := by
  have hdigest : bracketTools.sha256 bracketUrl = bracketDigest :=
    bracketTools_sha256 (.tail _ (.tail _ (.tail _ (.tail _ (.head _)))))
  have hreference : redactOne bracketTools bracketUrl = bracketReference := by
    rw [redactOne_query (by decide), UrlTools.redactedUrl, hdigest]
    decide
  refine ⟨bracketTools, bracketUrl, bracketReference, ⟨Url.parts bracketUrl.toList,
    ⟨by decide, by decide, by decide⟩, by decide⟩, ?_, ?_⟩
  · rw [redact, mapStr_ofSpec, ← hreference]
    rfl
  · exact distinct_of_digests (specHash_bracketTools (.head _))
      (specHash_bracketTools (.tail _ (.head _)))
      (bracketTools_sha256 (.tail _ (.tail _ (.head _))))
      (bracketTools_sha256 (.tail _ (.tail _ (.tail _ (.head _))))) (by decide) (by decide)

end PlanHash
end Job
end MightyColab
